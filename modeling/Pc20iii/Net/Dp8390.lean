import Pc20iii.Device.Access
import Pc20iii.Net.Frame

/-!
# The network card

`dp8390.c`: the registers behind the ports 0x300 to 0x31F, the transmission of a frame
from the ring to the network, and the reception of the frame in `rx_frame` into the ring.

The network is part of the state of the card, and `runLan` runs its functions from there.
The local array `tx_frame` is a map on all indices, so that a store beyond its end has a
meaning; `stores` records where it is stored to, and `frames` what is handed to
`net_tx_frame`.
-/

namespace Pc20iii

open StateProgram

-- Instance search follows the syntax of the functions below.
set_option synthInstance.maxSize 1000

variable {η : Type} (host : Host η)

/-- `FE2010_IRQ_COM2`. -/
def fe2010IrqCom2 : Fin 8 := 3

/-- `dp8390_t`, with the network in place of the pointer to it. -/
structure Dp8390 (η : Type) where
  bnry : Byte
  cr : Byte
  curr : Byte
  imr : Byte
  isr : Byte
  pstart : Byte
  pstop : Byte
  tcr : Byte
  tsr : Byte
  clda : Word
  crda : Word
  rbcr : Word
  rsar : Word
  tbcr : Word
  tpsr : Word
  ring : Word → Byte
  lan : Lan η
  /-- History: the indices of `tx_frame` that are stored to, newest first. -/
  stores : List ℕ
  /-- History: the frames handed to `net_tx_frame` with their lengths, newest first. -/
  frames : List ((ℕ → Byte) × Word)

/-- Run a function of the network. -/
def runLan {α : Type} (f : N η α) : M (Dp8390 η) α :=
  runLocal fun x =>
    let r := outcome f { x.lan with panics := [] }
    (r.1, { x with lan := r.2 }, r.2.panics)

namespace Dp8390

/-- `dp8390_page`. -/
def page (x : Dp8390 η) : Byte := x.cr >>> 6

/-- `page << 8`. -/
def pageAddress (page : Byte) : Word := page.setWidth 16 <<< 8

/-- The step of an address to the next one, from the end of the ring to its start. -/
def nextAddress (x : Dp8390 η) (address : Word) : Word :=
  if address + 1 = pageAddress x.pstop then pageAddress x.pstart else address + 1

/-- `dp8390_ring_rx`. -/
def ringRx (byte : Byte) (x : Dp8390 η) : Dp8390 η :=
  if x.clda = x.bnry.setWidth 16 then x
  else { x with ring := Function.update x.ring x.clda byte, clda := x.nextAddress x.clda }

/-- The bytes that the loop of `dp8390_transmit_packet` stores, on an array that holds
`stack`. -/
def txFrame (x : Dp8390 η) (stack : ℕ → Byte) : ℕ → Byte :=
  (List.range x.tbcr.toNat).foldl (fun frame i =>
    Function.update frame i (x.ring (x.tpsr + BitVec.ofNat 16 i))) stack

/-- The next packet pointer of a packet of `byteCount` bytes. -/
def nextPacket (x : Dp8390 η) (byteCount : Word) : Byte :=
  let next := x.curr + (byteCount / 256).setWidth 8 + 1
  if next ≥ x.pstop then x.pstart + (next - x.pstop) else next

/-- The bytes that a packet of the network occupies in the ring: the header and the
frame. -/
def packet (x : Dp8390 η) : List Byte :=
  let byteCount := x.lan.net.rxLen + 4
  [0x01, x.nextPacket byteCount, lowByte byteCount, highByte byteCount] ++
    (List.range x.lan.net.rxLen.toNat).map x.lan.net.rxFrame

end Dp8390

/-- The request of an interrupt by the card, when the mask has its bit. -/
def dp8390Irq (bit : ℕ) : M (Dp8390 η) Unit := do
  modifyDev fun x => { x with isr := x.isr ||| bitMask bit }
  if (← getDev).imr.getLsbD bit then
    fe2010Irq fe2010IrqCom2

/-- `dp8390_execute`. -/
def dp8390Execute : M (Dp8390 η) Unit := do
  let x ← getDev
  if x.lan.net.rxReady then
    modifyDev fun x => { x with
      clda := Dp8390.pageAddress x.curr
      curr := x.nextPacket (x.lan.net.rxLen + 4) }
    modifyDev fun y => x.packet.foldl (fun y byte => y.ringRx byte) y
    dp8390Irq 0
    runLan do
      note .taken
      modifyNet fun n => { n with rxReady := false }

/-- `dp8390_transmit_packet`. -/
def dp8390TransmitPacket : M (Dp8390 η) Unit := do
  modifyDev fun x => { x with tsr := 0x1 }
  dp8390Irq 1
  let x ← getDev
  let txFrame := x.txFrame (host.stack x.lan.host)
  modifyDev fun x => { x with
    stores := (List.range x.tbcr.toNat).reverse ++ x.stores
    frames := (txFrame, x.tbcr) :: x.frames }
  runLan (netTxFrame host txFrame x.tbcr)

/-- The assignment to a register that the page 0 has. -/
def onPage0 (f : Dp8390 η → Dp8390 η) : M (Dp8390 η) Unit :=
  modifyDev fun x => if x.page = 0 then f x else x

/-- `DP8390_CR` of `dp8390_register_write`. -/
def dp8390CrWrite (value : Byte) : M (Dp8390 η) Unit := do
  -- the TXP bit is not set
  modifyDev fun x => { x with cr := value &&& 0xFB }
  -- Stop
  (if value.getLsbD 0 then modifyDev fun x => { x with isr := x.isr ||| 0x80 } else pure ())
  -- Start
  (if value.getLsbD 1 then modifyDev fun x => { x with isr := x.isr &&& ~~~0x80 } else pure ())
  -- Transmit Packet: there might be a packet ready already
  (if value.getLsbD 2 then do
    dp8390TransmitPacket host
    dp8390Execute
  else
    pure ())
  -- Remote DMA Command
  if (value >>> 3) &&& 0x7 ≠ 0 then
    dp8390Irq 6

/-- `dp8390_register_write`. -/
def dp8390RegisterWrite : WriteHook (Dp8390 η) := fun port value =>
  if port = 0x300 then dp8390CrWrite host value
  else if port = 0x301 then onPage0 fun x => { x with pstart := value }
  else if port = 0x302 then onPage0 fun x => { x with pstop := value }
  else if port = 0x303 then onPage0 fun x => { x with bnry := value }
  else if port = 0x307 then
    modifyDev fun x =>
      if x.page = 0 then { x with isr := x.isr &&& ~~~value }
      else if x.page = 1 then { x with curr := value }
      else x
  else if port = 0x304 then onPage0 fun x => { x with tpsr := Dp8390.pageAddress value }
  else if port = 0x305 then onPage0 fun x => { x with tbcr := wordOf value (highByte x.tbcr) }
  else if port = 0x306 then onPage0 fun x => { x with tbcr := wordOf (lowByte x.tbcr) value }
  else if port = 0x308 then
    onPage0 fun x => { x with
      rsar := wordOf value (highByte x.rsar)
      crda := wordOf value (highByte x.crda) }
  else if port = 0x309 then
    onPage0 fun x => { x with
      rsar := wordOf (lowByte x.rsar) value
      crda := wordOf (lowByte x.crda) value }
  else if port = 0x30A then onPage0 fun x => { x with rbcr := wordOf value (highByte x.rbcr) }
  else if port = 0x30B then onPage0 fun x => { x with rbcr := wordOf (lowByte x.rbcr) value }
  else if port = 0x30D then onPage0 fun x => { x with tcr := value }
  else if port = 0x30F then onPage0 fun x => { x with imr := value }
  else if port = 0x310 ∨ port = 0x311 then
    modifyDev fun x => { x with
      ring := Function.update x.ring x.crda value
      crda := x.nextAddress x.crda }
  else if port = 0x31F then modifyDev fun x => { x with isr := x.isr ||| 0x80 }
  else return

/-- `dp8390_register_read`. -/
def dp8390RegisterRead : ReadHook (Dp8390 η) := fun port => do
  let x ← getDev
  let onPage0 (value : Byte) : Byte := if x.page = 0 then value else 0
  if port = 0x300 then return x.cr
  else if port = 0x301 then return onPage0 (lowByte x.clda)
  else if port = 0x302 then return onPage0 (highByte x.clda)
  else if port = 0x303 then return onPage0 x.bnry
  else if port = 0x304 then return onPage0 x.tsr
  else if port = 0x307 then
    return if x.page = 0 then x.isr else if x.page = 1 then x.curr else 0
  else if port = 0x308 then return onPage0 (lowByte x.crda)
  else if port = 0x309 then return onPage0 (highByte x.crda)
  else if port = 0x310 ∨ port = 0x311 then
    -- loopback mode 1 returns the repeated MAC address
    if (x.tcr >>> 1) &&& 0x3 = 1 then
      return netMacLocal
    else
      modifyDev fun x => { x with crda := x.nextAddress x.crda }
      return x.ring x.crda
  else return 0

/-- The read hooks of `dp8390_init`. -/
def dp8390Reads (port : Word) : Option (ReadHook (Dp8390 η)) :=
  if 0x300 ≤ port ∧ port ≤ 0x31F then some dp8390RegisterRead else none

/-- The write hooks of `dp8390_init`. -/
def dp8390Writes (port : Word) : Option (WriteHook (Dp8390 η)) :=
  if 0x300 ≤ port ∧ port ≤ 0x31F then some (dp8390RegisterWrite host) else none

/-- `dp8390_init`. -/
def dp8390Init (lan : Lan η) : Dp8390 η where
  bnry := 0
  cr := 0
  curr := 0
  imr := 0
  isr := 0
  pstart := 0
  pstop := 0
  tcr := 0
  tsr := 0
  clda := 0
  crda := 0
  rbcr := 0
  rsar := 0
  tbcr := 0
  tpsr := 0
  ring := fun _ => 0
  lan := lan
  stores := []
  frames := []

instance generated_runLan {α : Type} (f : N η α) : Generated DeviceAction (runLan f) :=
  generated_runLocal _

instance generated_onPage0 (f : Dp8390 η → Dp8390 η) : Generated DeviceAction (onPage0 f) :=
  generated_modifyDev _

instance generated_dp8390Irq (bit : ℕ) :
    Generated DeviceAction (dp8390Irq bit : M (Dp8390 η) Unit) := by
  unfold dp8390Irq
  infer_instance

instance generated_dp8390Execute : Generated DeviceAction (dp8390Execute : M (Dp8390 η) Unit) := by
  unfold dp8390Execute
  infer_instance

instance generated_dp8390TransmitPacket : Generated DeviceAction (dp8390TransmitPacket host) := by
  unfold dp8390TransmitPacket
  infer_instance

instance generated_dp8390CrWrite (value : Byte) :
    Generated DeviceAction (dp8390CrWrite host value) := by
  unfold dp8390CrWrite
  infer_instance

theorem dp8390Reads_generated {port : Word} {func : ReadHook (Dp8390 η)}
    (h : dp8390Reads port = some func) (p : Word) : Generated DeviceAction (func p) := by
  unfold dp8390Reads at h
  split at h
  · cases h
    unfold dp8390RegisterRead
    infer_instance
  · cases h

theorem dp8390Writes_generated {port : Word} {func : WriteHook (Dp8390 η)}
    (h : dp8390Writes host port = some func) (p : Word) (v : Byte) :
    Generated DeviceAction (func p v) := by
  unfold dp8390Writes at h
  split at h
  · cases h
    unfold dp8390RegisterWrite
    infer_instance
  · cases h

/-! ### What the functions do to the card -/

@[simp] theorem dev_runLan {α : Type} (f : N η α) (m : Machine (Dp8390 η)) :
    (outcome (runLan f) m).2.dev =
      { m.dev with lan := (outcome f { m.dev.lan with panics := [] }).2 } := by
  rfl

@[simp] theorem dev_dp8390Irq (bit : ℕ) (m : Machine (Dp8390 η)) :
    (outcome (dp8390Irq bit) m).2.dev = { m.dev with isr := m.dev.isr ||| bitMask bit } := by
  simp only [dp8390Irq, outcome_bind, outcome_modifyDev, outcome_getDev, outcome_ite,
    outcome_pure]
  split
  · rw [dev_fe2010Irq]
  · rfl

/-- The network after the card has taken the frame in `rx_frame`. -/
def Lan.handedOver (l : Lan η) : Lan η :=
  { l with net := { l.net with rxReady := false }, panics := [], log := .taken :: l.log }

theorem ringRx_lan (bytes : List Byte) (x : Dp8390 η) :
    (bytes.foldl (fun y byte => y.ringRx byte) x).lan = x.lan := by
  induction bytes generalizing x with
  | nil => rfl
  | cons byte bytes ih =>
    refine (ih (x.ringRx byte)).trans ?_
    unfold Dp8390.ringRx
    split <;> rfl

/-- The card before the bytes of a packet are put into the ring. -/
def Dp8390.receiving (x : Dp8390 η) : Dp8390 η :=
  { x with
    clda := Dp8390.pageAddress x.curr
    curr := x.nextPacket (x.lan.net.rxLen + 4) }

/-- `dp8390_execute` without a frame. -/
theorem dev_dp8390Execute_of_not_ready {m : Machine (Dp8390 η)}
    (h : m.dev.lan.net.rxReady = false) : (outcome dp8390Execute m).2.dev = m.dev := by
  simp only [dp8390Execute, outcome_bind, outcome_getDev, outcome_ite, outcome_pure]
  rw [if_neg (by rw [h]; exact Bool.false_ne_true)]

/-- `dp8390_execute` with a frame. -/
theorem dev_dp8390Execute_of_ready {m : Machine (Dp8390 η)} (h : m.dev.lan.net.rxReady = true) :
    (outcome dp8390Execute m).2.dev =
      let y := m.dev.packet.foldl (fun y byte => y.ringRx byte) m.dev.receiving
      { y with isr := y.isr ||| bitMask 0, lan := m.dev.lan.handedOver } := by
  simp only [dp8390Execute, outcome_bind, outcome_getDev, outcome_ite, outcome_modifyDev]
  rw [if_pos h, dev_runLan, dev_dp8390Irq]
  dsimp only
  rw [ringRx_lan]
  rfl

/-- A write of the command register: apart from `CR` and `ISR`, the card is left alone but for
a transmission and the reception that follows it. -/
theorem dev_dp8390CrWrite (value : Byte) (m : Machine (Dp8390 η)) :
    ∃ (m₁ : Machine (Dp8390 η)) (isr₁ isr₂ : Byte),
      m₁.dev = { m.dev with cr := value &&& 0xFB, isr := isr₁ } ∧
      (outcome (dp8390CrWrite host value) m).2.dev =
        let x := if value.getLsbD 2 then
            (outcome dp8390Execute (outcome (dp8390TransmitPacket host) m₁).2).2.dev
          else m₁.dev
        { x with isr := isr₂ } := by
  let stop : M (Dp8390 η) Unit :=
    if value.getLsbD 0 then modifyDev fun x => { x with isr := x.isr ||| 0x80 } else pure ()
  let start : M (Dp8390 η) Unit :=
    if value.getLsbD 1 then modifyDev fun x => { x with isr := x.isr &&& ~~~0x80 } else pure ()
  let m₁ := (outcome (do
    modifyDev fun x => { x with cr := value &&& 0xFB }
    stop
    start) m).2
  -- STOP and START set and clear a bit of ISR
  have hm₁ : m₁.dev = { m.dev with cr := value &&& 0xFB, isr := m₁.dev.isr } := by
    simp only [m₁, stop, start, outcome_bind, outcome_modifyDev, outcome_ite, outcome_pure]
    split_ifs <;> rfl
  let m₂ := (outcome (if value.getLsbD 2 then do
      dp8390TransmitPacket host
      dp8390Execute
    else pure ()) m₁).2
  have hm₂ : m₂.dev = if value.getLsbD 2 then
      (outcome dp8390Execute (outcome (dp8390TransmitPacket host) m₁).2).2.dev else m₁.dev := by
    simp only [m₂, outcome_ite]
    split <;> rfl
  -- the remote DMA command sets one as well, after the transmission
  have hend : (outcome (dp8390CrWrite host value) m).2.dev =
      (outcome (if (value >>> 3) &&& 0x7 ≠ 0 then dp8390Irq 6 else pure ()) m₂).2.dev := rfl
  refine ⟨m₁, m₁.dev.isr, (outcome (dp8390CrWrite host value) m).2.dev.isr, hm₁, ?_⟩
  rw [← hm₂, hend]
  simp only [outcome_ite, outcome_pure]
  split
  · rw [dev_dp8390Irq]
  · rfl

/-- The ports of the network card. -/
def dp8390Devices : Devices (Dp8390 η) where
  read := dp8390Reads
  write := dp8390Writes host
  read_generated := dp8390Reads_generated
  write_generated := dp8390Writes_generated host
  read_low := by
    intro port h
    rw [dp8390Reads, if_neg]
    bv_omega
  write_low := by
    intro port h
    rw [dp8390Writes, if_neg]
    bv_omega

/-- What happens next, as the card sees it. -/
inductive CardStep (η : Type) where
  /-- An access of the guest, or anything outside the card. -/
  | access (a : Access (Dp8390 η))
  /-- The calls of the main loop: `net_execute`, then `dp8390_execute`. -/
  | tick

/-- The machine after a step. -/
def cardAfter (m : Machine (Dp8390 η)) : CardStep η → Machine (Dp8390 η)
  | .access a => (dp8390Devices host).after m a
  | .tick => (outcome (do runLan (netExecute host); dp8390Execute) m).2

/-! ### Steps that leave the network alone -/

/-- What the accesses to the other registers keep: the network and what has been
transmitted. -/
structure Dp8390.Quiet (x y : Dp8390 η) : Prop where
  lan : y.lan = x.lan
  stores : y.stores = x.stores
  frames : y.frames = x.frames

/-- The program is quiet. -/
def QuietProgram {α : Type} (f : M (Dp8390 η) α) : Prop :=
  ∀ m : Machine (Dp8390 η), m.dev.Quiet (outcome f m).2.dev

theorem quiet_pure {α : Type} (a : α) : QuietProgram (pure a : M (Dp8390 η) α) :=
  fun _ => ⟨rfl, rfl, rfl⟩

theorem quiet_modifyDev {f : Dp8390 η → Dp8390 η} (h : ∀ x : Dp8390 η, x.Quiet (f x)) :
    QuietProgram (modifyDev f) := fun m => h m.dev

theorem quiet_onPage0 {f : Dp8390 η → Dp8390 η} (h : ∀ x : Dp8390 η, x.Quiet (f x)) :
    QuietProgram (onPage0 f) := by
  refine quiet_modifyDev fun x => ?_
  split
  · exact h x
  · exact ⟨rfl, rfl, rfl⟩

theorem quiet_ite {α : Type} {c : Prop} [Decidable c] {f g : M (Dp8390 η) α}
    (hf : QuietProgram f) (hg : QuietProgram g) : QuietProgram (if c then f else g) := by
  split <;> assumption

/-- Of the registers only CR has the card send a frame. -/
theorem quiet_dp8390RegisterWrite {port : Word} (h : port ≠ 0x300) (value : Byte) :
    QuietProgram (dp8390RegisterWrite host port value) := by
  unfold dp8390RegisterWrite
  rw [if_neg h]
  repeat' apply quiet_ite
  all_goals first
    | with_reducible refine quiet_onPage0 fun x => ?_
    | with_reducible refine quiet_modifyDev fun x => ?_
    | with_reducible exact quiet_pure ()
  case hg.hg.hg.hf =>
    -- ISR or CURR, by the page
    split_ifs <;> exact ⟨rfl, rfl, rfl⟩
  all_goals exact ⟨rfl, rfl, rfl⟩

theorem quiet_getDev {α : Type} {f : Dp8390 η → M (Dp8390 η) α} (h : ∀ x, QuietProgram (f x)) :
    QuietProgram (getDev >>= f) := fun m => h m.dev m

theorem quiet_dp8390RegisterRead (port : Word) :
    QuietProgram (dp8390RegisterRead port : M (Dp8390 η) Byte) := by
  refine quiet_getDev fun x => ?_
  dsimp only
  repeat' apply quiet_ite
  all_goals first
    | with_reducible exact quiet_pure _
    -- the address of the remote DMA moves on
    | exact fun _ => ⟨rfl, rfl, rfl⟩

theorem dp8390Devices_read {port : Word} {func : ReadHook (Dp8390 η)}
    (h : (dp8390Devices host).read port = some func) : func = dp8390RegisterRead := by
  change dp8390Reads port = _ at h
  unfold dp8390Reads at h
  split at h
  · exact (Option.some.inj h).symm
  · cases h

theorem dp8390Devices_write {port : Word} {func : WriteHook (Dp8390 η)}
    (h : (dp8390Devices host).write port = some func) : func = dp8390RegisterWrite host := by
  change dp8390Writes host port = _ at h
  unfold dp8390Writes at h
  split at h
  · exact (Option.some.inj h).symm
  · cases h

/-- What a step is: a write of the command register, a main loop, or neither. -/
theorem cardAfter_cases (m : Machine (Dp8390 η)) (s : CardStep η) :
    (∃ value, s = .access (.write 0x300 value) ∧
      cardAfter host m s = (outcome (dp8390CrWrite host value) m).2) ∨
    s = .tick ∨
    ((∀ value, s ≠ .access (.write 0x300 value)) ∧ s ≠ .tick ∧
      m.dev.Quiet (cardAfter host m s).dev) := by
  rcases s with a | _
  · cases a with
    -- the rest of the machine does not touch the card
    | other m' => exact .inr (.inr ⟨nofun, nofun, rfl, rfl, rfl⟩)
    | read port =>
      refine .inr (.inr ⟨nofun, nofun, ?_⟩)
      cases hfunc : (dp8390Devices host).read port with
      | none =>
        -- no device answers the port
        have hafter : cardAfter host m (.access (.read port)) = m :=
          Devices.after_read_none hfunc m
        rw [hafter]
        exact ⟨rfl, rfl, rfl⟩
      | some func =>
        have hafter : cardAfter host m (.access (.read port)) = (outcome (func port) m).2 :=
          Devices.after_read hfunc m
        rw [hafter, dp8390Devices_read host hfunc]
        exact quiet_dp8390RegisterRead port m
    | write port value =>
      by_cases hport : port = 0x300
      · -- the command register is the only one that starts a transmission
        subst hport
        refine .inl ⟨value, rfl, ?_⟩
        have hfunc : (dp8390Devices host).write 0x300 = some (dp8390RegisterWrite host) := by
          change dp8390Writes host 0x300 = _
          exact if_pos (by decide)
        exact Devices.after_write hfunc value m
      · refine .inr (.inr ⟨fun v h => hport ?_, nofun, ?_⟩)
        · cases h
          rfl
        · cases hfunc : (dp8390Devices host).write port with
          | none =>
            have hafter : cardAfter host m (.access (.write port value)) = m :=
              Devices.after_write_none hfunc value m
            rw [hafter]
            exact ⟨rfl, rfl, rfl⟩
          | some func =>
            have hafter : cardAfter host m (.access (.write port value)) =
                (outcome (func port value) m).2 :=
              Devices.after_write hfunc value m
            rw [hafter, dp8390Devices_write host hfunc]
            exact quiet_dp8390RegisterWrite host hport value m
  · exact .inr (.inl rfl)

end Pc20iii
