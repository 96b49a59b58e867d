import Pc20iii.Fe2010.Ports
import Pc20iii.Program.Labelled

/-!
# Devices behind their ports

What the devices of the source have in common. A device works on its own state with
`getDev`, `modifyDev` and `devicePanic`; of the rest of the machine it sees interrupt
requests, which leave its state alone (`dev_fe2010Irq`), and DMA transfers, which run its
callback once for each byte (`dev_fe2010DmaWrite`, `dev_fe2010DmaRead`).

A run of a device is a list of `Access`es: reads and writes of its ports, and between
them anything else that happens to the machine, such as the programming of a DMA channel
or the execution of instructions. The step function of such a run is `Devices.after`.
-/

namespace Pc20iii

open StateProgram

variable {δ : Type}

/-- `1 << bit`, as the devices set and clear the bits of their registers. -/
def bitMask (bit : ℕ) : Byte := (1 : Byte) <<< bit

/-! ### Work on the device's own state -/

/-- The state of the device. -/
def getDev : M δ δ := do
  return (← get).dev

/-- An assignment to the device. -/
def modifyDev (f : δ → δ) : M δ Unit := runLocal fun x => ((), f x, [])

/-- `panic`, called by a device. -/
def devicePanic (text : String) : M δ Unit := runLocal fun x => ((), x, [text])

@[simp] theorem outcome_getDev (m : Machine δ) : outcome getDev m = (m.dev, m) := by
  rfl

@[simp] theorem outcome_modifyDev (f : δ → δ) (m : Machine δ) :
    outcome (modifyDev f) m = ((), { m with dev := f m.dev }) := by
  rfl

@[simp] theorem outcome_devicePanic (text : String) (m : Machine δ) :
    outcome (devicePanic text) m = ((), { m with log := .panic (.device text) :: m.log }) := by
  rfl

instance generated_runLocal {α : Type} (f : Local δ α) : Generated DeviceAction (runLocal f) :=
  .action _ (.own f)

instance generated_getDev : Generated DeviceAction (getDev : M δ δ) := by
  unfold getDev
  infer_instance

instance generated_modifyDev (f : δ → δ) : Generated DeviceAction (modifyDev f) :=
  generated_runLocal _

instance generated_devicePanic (text : String) :
    Generated DeviceAction (devicePanic text : M δ Unit) :=
  generated_runLocal _

instance generated_deviceIrq (irqNo : Fin 8) :
    Generated DeviceAction (fe2010Irq irqNo : M δ Unit) :=
  .action _ (.irq irqNo)

instance generated_deviceDmaWrite (channelNo : Fin 4) (callback : Local δ Byte) :
    Generated DeviceAction (fe2010DmaWrite channelNo callback) :=
  .action _ (.dmaWrite channelNo callback)

instance generated_deviceDmaRead (channelNo : Fin 4) (callback : Byte → Local δ Unit) :
    Generated DeviceAction (fe2010DmaRead channelNo callback) :=
  .action _ (.dmaRead channelNo callback)

/-! ### What the chipset does to a device -/

/-- An interrupt request leaves the device alone. -/
@[simp] theorem dev_fe2010Irq (irqNo : Fin 8) (m : Machine δ) :
    (outcome (fe2010Irq irqNo) m).2.dev = m.dev := by
  rcases fe2010Irq_cases irqNo m with ⟨-, h⟩ | ⟨-, -, h⟩ | ⟨-, -, h⟩
  all_goals
    rw [h]
    rfl

@[simp] theorem dev_memWrite (who : Initiator) (address : BitVec 32) (v : Byte) (m : Machine δ) :
    (outcome (memWrite who address v) m).2.dev = m.dev := by
  unfold memWrite
  split
  · rfl
  · simp only [outcome_bind, outcome_get, outcome_ite, outcome_modify, outcome_pure]
    split <;> rfl

/-- The byte a DMA transfer reads at an address. -/
def Machine.dmaByte (m : Machine δ) (address : BitVec 32) : Byte :=
  if address ≥ memSizeMax then 0xFF else m.mem.m (address.setWidth 20)

theorem outcome_memRead (who : Initiator) (address : BitVec 32) (m : Machine δ) :
    outcome (memRead who address) m =
      (m.dmaByte address, if address ≥ memSizeMax then
        { m with log := .panic (.memoryRead who address) :: m.log } else m) := by
  unfold memRead Machine.dmaByte
  split <;> simp

/-- A program takes the device to a related state. -/
def RelatesDev {α : Type} (R : δ → δ → Prop) (p : M δ α) : Prop :=
  ∀ m : Machine δ, R m.dev (outcome p m).2.dev

namespace RelatesDev

variable {α β : Type} {R : δ → δ → Prop}

theorem own {f : Local δ α} (hf : ∀ x, R x (f x).2.1) : RelatesDev R (runLocal f) :=
  fun m => hf m.dev

theorem modify {f : δ → δ} (hf : ∀ x, R x (f x)) : RelatesDev R (modifyDev f) :=
  fun m => hf m.dev

theorem ite {c : Prop} [Decidable c] {p q : M δ α} (hp : RelatesDev R p)
    (hq : RelatesDev R q) : RelatesDev R (if c then p else q) := by
  split
  · exact hp
  · exact hq

variable [IsPreorder δ R]

theorem bind {p : M δ α} {f : α → M δ β} (hp : RelatesDev R p)
    (hf : ∀ a, RelatesDev R (f a)) : RelatesDev R (p >>= f) := by
  intro m
  rw [outcome_bind]
  exact trans_of R (hp m) (hf _ _)

theorem pure (a : α) : RelatesDev R (Pure.pure a : M δ α) :=
  fun m => refl_of R m.dev

theorem getDev : RelatesDev R (Pc20iii.getDev : M δ δ) :=
  fun m => refl_of R m.dev

theorem irq (irqNo : Fin 8) : RelatesDev R (fe2010Irq irqNo : M δ Unit) := by
  intro m
  rw [dev_fe2010Irq]
  exact refl_of R m.dev

end RelatesDev

section Callback

variable {α β : Type} {field : δ → β}

/-- What a callback without an argument keeps, a transfer keeps. -/
theorem kept_iterate {f : δ → δ} (h : ∀ x, field (f x) = field x) (n : ℕ) (x : δ) :
    field (f^[n] x) = field x := by
  induction n with
  | zero => rfl
  | succ n ih => rw [Function.iterate_succ_apply', h, ih]

/-- What a callback keeps with every byte, a transfer keeps. -/
theorem kept_foldl {f : δ → α → δ} (h : ∀ x v, field (f x v) = field x) (l : List α) (x : δ) :
    field (l.foldl f x) = field x := by
  induction l generalizing x with
  | nil => rfl
  | cons v l ih => rw [List.foldl_cons, ih, h]

end Callback

/-- A transfer to memory runs the callback once for each byte. -/
theorem dev_fe2010DmaWrite (channelNo : Fin 4) (callback : Local δ Byte) (m : Machine δ) :
    (outcome (fe2010DmaWrite channelNo callback) m).2.dev =
      if m.fe2010.dmaTransfer channelNo = dmaModeWrite then
        (fun x => (callback x).2.1)^[(m.fe2010.dmaCount channelNo).toNat + 1] m.dev
      else m.dev := by
  -- by induction on the numbers of the bytes, which the callback does not see
  have hloop : ∀ (l : List ℕ) (m' : Machine δ),
      (outcome (l.forM fun i => do
        let value ← runLocal callback
        memWrite .dma (m.fe2010.dmaAddress channelNo + BitVec.ofNat 32 i) value) m').2.dev =
      (fun x => (callback x).2.1)^[l.length] m'.dev := by
    intro l
    induction l with
    | nil => exact fun _ => rfl
    | cons i l ih =>
      intro m'
      rw [outcome_forM_cons, ih, outcome_bind, dev_memWrite, List.length_cons,
        Function.iterate_succ_apply]
      rfl
  simp only [fe2010DmaWrite, outcome_bind, outcome_get, outcome_ite, outcome_pure]
  split
  · rw [hloop, List.length_range]
  · rfl

/-- The bytes that a transfer from memory hands to the device. -/
def Machine.dmaBytes (m : Machine δ) (channelNo : Fin 4) : List Byte :=
  (List.range ((m.fe2010.dmaCount channelNo).toNat + 1)).map fun i =>
    m.dmaByte (m.fe2010.dmaAddress channelNo + BitVec.ofNat 32 i)

/-- A transfer from memory runs the callback once for each byte. -/
theorem dev_fe2010DmaRead (channelNo : Fin 4) (callback : Byte → Local δ Unit) (m : Machine δ) :
    (outcome (fe2010DmaRead channelNo callback) m).2.dev =
      if m.fe2010.dmaTransfer channelNo = dmaModeRead then
        (m.dmaBytes channelNo).foldl (fun x v => (callback v x).2.1) m.dev
      else m.dev := by
  -- reading changes no memory, so each byte is the one that was there at the start
  have hloop : ∀ (l : List ℕ) (m' : Machine δ), m'.mem = m.mem →
      (outcome (l.forM fun i => do
        let value ← memRead .dma (m.fe2010.dmaAddress channelNo + BitVec.ofNat 32 i)
        runLocal (callback value)) m').2.dev =
      (l.map fun i => m.dmaByte (m.fe2010.dmaAddress channelNo + BitVec.ofNat 32 i)).foldl
        (fun x v => (callback v x).2.1) m'.dev := by
    intro l
    induction l with
    | nil => exact fun _ _ => rfl
    | cons i l ih =>
      intro m' hmem
      have hbyte : m'.dmaByte = m.dmaByte := by
        unfold Machine.dmaByte
        rw [hmem]
      rw [outcome_forM_cons, outcome_bind, outcome_memRead, hbyte]
      split <;> exact ih _ hmem
  simp only [fe2010DmaRead, outcome_bind, outcome_get, outcome_ite, outcome_pure]
  split
  · rw [hloop _ _ rfl]
    rfl
  · rfl

/-! ### Runs of accesses -/

/-- What happens next, as a device sees it. -/
inductive Access (δ : Type) where
  /-- A read of a port. -/
  | read (port : Word)
  /-- A write of a port. -/
  | write (port : Word) (value : Byte)
  /-- Anything else: the rest of the machine becomes that of `m`. -/
  | other (m : Machine δ)

namespace Devices

variable (io : Devices δ)

/-- The machine after an access. -/
def after (m : Machine δ) : Access δ → Machine δ
  | .read port =>
    match io.read port with
    | some func => (outcome (func port) m).2
    | .none => m
  | .write port value =>
    match io.write port with
    | some func => (outcome (func port value) m).2
    | .none => m
  | .other m' => { m' with dev := m.dev }

variable {io}

theorem after_read {port : Word} {func : ReadHook δ} (h : io.read port = some func)
    (m : Machine δ) : io.after m (.read port) = (outcome (func port) m).2 := by
  simp only [after, h]

theorem after_read_none {port : Word} (h : io.read port = .none) (m : Machine δ) :
    io.after m (.read port) = m := by
  simp only [after, h]

theorem after_write {port : Word} {func : WriteHook δ} (h : io.write port = some func)
    (value : Byte) (m : Machine δ) :
    io.after m (.write port value) = (outcome (func port value) m).2 := by
  simp only [after, h]

theorem after_write_none {port : Word} (h : io.write port = .none) (value : Byte)
    (m : Machine δ) : io.after m (.write port value) = m := by
  simp only [after, h]

@[simp] theorem after_other (m m' : Machine δ) :
    io.after m (.other m') = { m' with dev := m.dev } := rfl

end Devices

end Pc20iii
