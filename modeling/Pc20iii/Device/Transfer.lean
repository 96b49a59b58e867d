import Pc20iii.Device.Access
import Pc20iii.Program.Orbit

/-!
# Blocks of data through DMA

What the two DMA functions of the chipset do as a whole. A transfer to memory stores the
bytes that the callback of the device produces (`produced`) from the address of the channel
on; a transfer from memory hands the bytes that are there to the callback. Below one
megabyte and in writable sections the first is `storeAlong` for the successor of an address
(`Mem.dmaStore_eq`).

A device that keeps its data in an image moves along it in its callbacks (`ReadsAlong`,
`WritesAlong`). Its transfers are then `readAlong` and `storeAlong` on the image, whatever
its notion of the next place is.
-/

namespace Pc20iii

open StateProgram

variable {δ : Type}

/-! ### Memory -/

theorem iterate_succ_address (a : BitVec 20) (k : ℕ) :
    (fun a : BitVec 20 => a + 1)^[k] a = a + BitVec.ofNat 20 k := by
  induction k with
  | zero => simp
  | succ k ih =>
    rw [Function.iterate_succ_apply', ih, BitVec.ofNat_add, BitVec.add_assoc]
    rfl

theorem separate_succ_address (a : BitVec 20) {n : ℕ} (h : n ≤ 2 ^ 20) :
    Separate (fun a : BitVec 20 => a + 1) a n := by
  intro j hj k hk heq
  change j < n at hj
  change k < n at hk
  dsimp only at heq
  rw [iterate_succ_address, iterate_succ_address, BitVec.add_right_inj] at heq
  have htoNat := congrArg BitVec.toNat heq
  rw [BitVec.toNat_ofNat, BitVec.toNat_ofNat] at htoNat
  omega

/-- The memory after bytes have been transferred to it from an address on. -/
def Mem.dmaStore : Mem → BitVec 32 → List Byte → Mem
  | mem, _, [] => mem
  | mem, address, v :: vs =>
    (if address ≥ memSizeMax then mem else mem.store (address.setWidth 20) v).dmaStore
      (address + 1) vs

/-- The bytes from an address on are below one megabyte. -/
def BelowMax (address : BitVec 32) (n : ℕ) : Prop := address.toNat + n ≤ 2 ^ 20

/-- The bytes from an address on are in sections that can be written. -/
def Mem.WritableFrom (mem : Mem) (address : BitVec 32) (n : ℕ) : Prop :=
  ∀ k < n, mem.readonly (pageOf (address.setWidth 20 + BitVec.ofNat 20 k)) = false

theorem BelowMax.not_ge {address : BitVec 32} {n : ℕ} (h : BelowMax address (n + 1)) :
    ¬ address ≥ memSizeMax := by
  have hmax : memSizeMax.toNat = 2 ^ 20 := rfl
  rw [BelowMax] at h
  rw [ge_iff_le, BitVec.le_def, hmax]
  omega

theorem BelowMax.next {address : BitVec 32} {n : ℕ} (h : BelowMax address (n + 1)) :
    BelowMax (address + 1) n := by
  have hone : (1 : BitVec 32).toNat = 1 := rfl
  rw [BelowMax] at *
  rw [BitVec.toNat_add, hone]
  omega

theorem setWidth_succ (address : BitVec 32) :
    (address + 1).setWidth 20 = address.setWidth 20 + 1 := by
  have hone : (1 : BitVec 32).toNat = 1 := rfl
  have hone' : (1 : BitVec 20).toNat = 1 := rfl
  apply BitVec.eq_of_toNat_eq
  simp only [BitVec.toNat_setWidth, BitVec.toNat_add, hone, hone']
  omega

/-- A transfer into writable memory below one megabyte. -/
theorem Mem.dmaStore_eq (mem : Mem) {address : BitVec 32} {vs : List Byte}
    (hbelow : BelowMax address vs.length) (hwritable : mem.WritableFrom address vs.length) :
    mem.dmaStore address vs =
      { mem with m := storeAlong (fun a => a + 1) mem.m (address.setWidth 20) vs } := by
  induction vs generalizing mem address with
  | nil => rfl
  | cons v vs ih =>
    have hhead : mem.readonly (pageOf (address.setWidth 20)) = false := by
      have hzero := hwritable 0 (Nat.succ_pos _)
      rwa [BitVec.add_zero] at hzero
    have htail : (mem.set (address.setWidth 20) v).WritableFrom (address + 1) vs.length := by
      intro k hk
      have hsucc := hwritable (k + 1) (Nat.succ_lt_succ hk)
      rw [BitVec.ofNat_add, BitVec.add_comm (BitVec.ofNat 20 k)] at hsucc
      rw [setWidth_succ, set_readonly, BitVec.add_assoc]
      exact hsucc
    -- the first byte is stored, and the rest behind it
    rw [dmaStore, if_neg hbelow.not_ge, store, if_pos hhead, ih _ hbelow.next htail, setWidth_succ]
    rfl

/-! ### Transfers -/

/-- What a transfer leaves: the device, the memory, and the rest as it was. -/
structure Transferred (m m' : Machine δ) (dev : δ) (mem : Mem) : Prop where
  dev : m'.dev = dev
  mem : m'.mem = mem
  cpu : m'.cpu = m.cpu
  fe2010 : m'.fe2010 = m.fe2010

/-- The bytes that a callback produces one after another, and the device behind the last
one. -/
def produced (callback : Local δ Byte) : ℕ → δ → List Byte × δ
  | 0, x => ([], x)
  | n + 1, x =>
    let rest := produced callback n (callback x).2.1
    ((callback x).1 :: rest.1, rest.2)

@[simp] theorem length_produced (callback : Local δ Byte) (n : ℕ) (x : δ) :
    (produced callback n x).1.length = n := by
  induction n generalizing x with
  | zero => rfl
  | succ n ih => exact congrArg Nat.succ (ih _)

theorem transferred_memWrite (address : BitVec 32) (v : Byte) (m : Machine δ) :
    Transferred m (outcome (memWrite .dma address v) m).2 m.dev
      (if address ≥ memSizeMax then m.mem else m.mem.store (address.setWidth 20) v) := by
  unfold memWrite
  by_cases h : address ≥ memSizeMax
  · rw [if_pos h, if_pos h]
    exact ⟨rfl, rfl, rfl, rfl⟩
  · rw [if_neg h, if_neg h]
    simp only [outcome_bind, outcome_get, outcome_ite, outcome_modify, outcome_pure,
      sectionOf_eq h, Mem.store]
    split <;> exact ⟨rfl, rfl, rfl, rfl⟩

/-- **A transfer to memory** stores what the callback produces. -/
theorem transferred_dmaWrite {m : Machine δ} {channelNo : Fin 4}
    (h : m.fe2010.dmaTransfer channelNo = dmaModeWrite) (callback : Local δ Byte) :
    let r := produced callback ((m.fe2010.dmaCount channelNo).toNat + 1) m.dev
    Transferred m (outcome (fe2010DmaWrite channelNo callback) m).2 r.2
      (m.mem.dmaStore (m.fe2010.dmaAddress channelNo) r.1) := by
  -- the loop from byte `s` on, by induction on the bytes left
  have hloop : ∀ (n s : ℕ) (m' : Machine δ),
      Transferred m' (outcome ((List.range' s n).forM fun i => do
        let value ← runLocal callback
        memWrite .dma (m.fe2010.dmaAddress channelNo + BitVec.ofNat 32 i) value) m').2
        (produced callback n m'.dev).2
        (m'.mem.dmaStore (m.fe2010.dmaAddress channelNo + BitVec.ofNat 32 s)
          (produced callback n m'.dev).1) := by
    intro n
    induction n with
    | zero => exact fun s m' => ⟨rfl, rfl, rfl, rfl⟩
    | succ n ih =>
      intro s m'
      rw [List.range'_succ, outcome_forM_cons, outcome_bind]
      have hbyte := transferred_memWrite
        (m.fe2010.dmaAddress channelNo + BitVec.ofNat 32 s) (outcome (runLocal callback) m').1
        (outcome (runLocal callback) m').2
      obtain ⟨hdev, hmem, hcpu, hfe2010⟩ := ih (s + 1) (outcome (memWrite .dma
        (m.fe2010.dmaAddress channelNo + BitVec.ofNat 32 s) (outcome (runLocal callback) m').1)
        (outcome (runLocal callback) m').2).2
      rw [hbyte.dev] at hdev hmem
      rw [hbyte.mem, BitVec.ofNat_add, ← BitVec.add_assoc] at hmem
      exact ⟨hdev, hmem, hcpu.trans hbyte.cpu, hfe2010.trans hbyte.fe2010⟩
  have hall := hloop ((m.fe2010.dmaCount channelNo).toNat + 1) 0 m
  rw [BitVec.add_zero, ← List.range_eq_range'] at hall
  simp only [fe2010DmaWrite, outcome_bind, outcome_get, outcome_ite, outcome_pure]
  rw [if_pos h]
  exact hall

@[simp] theorem length_dmaBytes (m : Machine δ) (channelNo : Fin 4) :
    (m.dmaBytes channelNo).length = (m.fe2010.dmaCount channelNo).toNat + 1 := by
  rw [Machine.dmaBytes, List.length_map, List.length_range]

/-- A byte that is transferred from memory below one megabyte. -/
theorem dmaBytes_getElem {m : Machine δ} {channelNo : Fin 4}
    (h : BelowMax (m.fe2010.dmaAddress channelNo) ((m.fe2010.dmaCount channelNo).toNat + 1))
    {k : ℕ} (hk : k < (m.dmaBytes channelNo).length) :
    (m.dmaBytes channelNo)[k] =
      m.mem.m ((m.fe2010.dmaAddress channelNo).setWidth 20 + BitVec.ofNat 20 k) := by
  have hmax : memSizeMax.toNat = 2 ^ 20 := rfl
  rw [length_dmaBytes] at hk
  rw [BelowMax] at h
  -- below one megabyte the sum does not wrap at 32 bits
  have hsum : (m.fe2010.dmaAddress channelNo + BitVec.ofNat 32 k).toNat =
      (m.fe2010.dmaAddress channelNo).toNat + k := by
    rw [BitVec.toNat_add, BitVec.toNat_ofNat]
    omega
  have hlt : ¬ m.fe2010.dmaAddress channelNo + BitVec.ofNat 32 k ≥ memSizeMax := by
    rw [ge_iff_le, BitVec.le_def, hmax, hsum]
    omega
  have haddress : (m.fe2010.dmaAddress channelNo + BitVec.ofNat 32 k).setWidth 20 =
      (m.fe2010.dmaAddress channelNo).setWidth 20 + BitVec.ofNat 20 k := by
    apply BitVec.eq_of_toNat_eq
    rw [BitVec.toNat_setWidth, hsum, BitVec.toNat_add, BitVec.toNat_setWidth, BitVec.toNat_ofNat]
    omega
  simp only [Machine.dmaBytes, List.getElem_map, List.getElem_range, Machine.dmaByte]
  rw [if_neg hlt, haddress]

/-- **A transfer from memory** hands the bytes that are there to the callback. -/
theorem transferred_dmaRead {m : Machine δ} {channelNo : Fin 4}
    (h : m.fe2010.dmaTransfer channelNo = dmaModeRead) (callback : Byte → Local δ Unit) :
    Transferred m (outcome (fe2010DmaRead channelNo callback) m).2
      ((m.dmaBytes channelNo).foldl (fun x v => (callback v x).2.1) m.dev) m.mem := by
  have hdev := dev_fe2010DmaRead channelNo callback m
  rw [if_pos h] at hdev
  -- reading leaves all but the device alone
  have hloop : ∀ (l : List ℕ) (m' : Machine δ),
      let m'' := (outcome (l.forM fun i => do
        let value ← memRead .dma (m.fe2010.dmaAddress channelNo + BitVec.ofNat 32 i)
        runLocal (callback value)) m').2
      m''.mem = m'.mem ∧ m''.cpu = m'.cpu ∧ m''.fe2010 = m'.fe2010 := by
    intro l
    induction l with
    | nil => exact fun _ => ⟨rfl, rfl, rfl⟩
    | cons i l ih =>
      intro m'
      rw [outcome_forM_cons, outcome_bind, outcome_memRead]
      split <;> exact ih _
  obtain ⟨hmem, hcpu, hfe2010⟩ := hloop (List.range ((m.fe2010.dmaCount channelNo).toNat + 1)) m
  simp only [fe2010DmaRead, outcome_bind, outcome_get, outcome_ite, outcome_pure] at hdev ⊢
  rw [if_pos h] at hdev ⊢
  exact ⟨hdev, hmem, hcpu, hfe2010⟩

/-! ### Interrupt requests -/

/-- The address is one of the six bytes that the interrupt request pushes, if it is
accepted. -/
def Machine.Pushes (m : Machine δ) (irqNo : Fin 8) (a : BitVec 20) : Prop :=
  m.passes irqNo = true ∧ m.cpu.flags.i = true ∧
    ∃ k < 6, a = linear m.cpu.ss (m.cpu.sp - 6 + BitVec.ofNat 16 k)

instance (m : Machine δ) (irqNo : Fin 8) (a : BitVec 20) : Decidable (m.Pushes irqNo a) :=
  inferInstanceAs (Decidable (_ ∧ _ ∧ _))

theorem pushes_congr {m m' : Machine δ} (hcpu : m'.cpu = m.cpu) (hfe2010 : m'.fe2010 = m.fe2010)
    (irqNo : Fin 8) (a : BitVec 20) : m'.Pushes irqNo a ↔ m.Pushes irqNo a := by
  unfold Machine.Pushes Machine.passes
  rw [hcpu, hfe2010]

/-- An interrupt request changes no other byte. -/
theorem mem_fe2010Irq {m : Machine δ} {irqNo : Fin 8} {a : BitVec 20}
    (h : ¬ m.Pushes irqNo a) : (outcome (fe2010Irq irqNo) m).2.mem.m a = m.mem.m a := by
  rcases fe2010Irq_cases irqNo m with ⟨-, hafter⟩ | ⟨-, -, hafter⟩ | ⟨hp, hi, hafter⟩ <;>
    rw [hafter]
  · rfl
  · rfl
  · -- three words are pushed: the flags, the segment and the instruction pointer
    have hne : ∀ k < 6, a ≠ linear m.cpu.ss (m.cpu.sp - 6 + BitVec.ofNat 16 k) :=
      fun k hk heq => h ⟨hp, hi, k, hk, heq⟩
    have h₀ : a ≠ linear m.cpu.ss (m.cpu.sp - 6) := by
      have hzero := hne 0 (by decide)
      rwa [BitVec.add_zero] at hzero
    have h₁ : a ≠ linear m.cpu.ss (m.cpu.sp - 6 + 1) := hne 1 (by decide)
    have h₂ : a ≠ linear m.cpu.ss (m.cpu.sp - 6 + 2) := hne 2 (by decide)
    have h₃ : a ≠ linear m.cpu.ss (m.cpu.sp - 6 + 2 + 1) := by
      rw [BitVec.add_assoc]
      exact hne 3 (by decide)
    have h₄ : a ≠ linear m.cpu.ss (m.cpu.sp - 6 + 4) := hne 4 (by decide)
    have h₅ : a ≠ linear m.cpu.ss (m.cpu.sp - 6 + 4 + 1) := by
      rw [BitVec.add_assoc]
      exact hne 5 (by decide)
    change (((m.mem.storeWord m.cpu.ss (m.cpu.sp - 6) m.cpu.ip).storeWord m.cpu.ss
      (m.cpu.sp - 6 + 2) m.cpu.cs).storeWord m.cpu.ss (m.cpu.sp - 6 + 4)
        m.cpu.flags.toWord).m a = m.mem.m a
    rw [Mem.storeWord_of_ne _ h₄ h₅, Mem.storeWord_of_ne _ h₂ h₃, Mem.storeWord_of_ne _ h₀ h₁]

/-! ### Images -/

section Image

variable {next : ℕ → ℕ} {Ok : δ → Prop} {pos : δ → ℕ} {image : δ → ℕ → Byte}

/-- A callback that reads the image at a position and moves it to the next one. -/
structure ReadsAlong (next : ℕ → ℕ) (Ok : δ → Prop) (pos : δ → ℕ) (image : δ → ℕ → Byte)
    (callback : Local δ Byte) : Prop where
  ok : ∀ {x}, Ok x → Ok (callback x).2.1
  value : ∀ {x}, Ok x → (callback x).1 = image x (pos x)
  next_pos : ∀ {x}, Ok x → pos (callback x).2.1 = next (pos x)
  image_eq : ∀ {x}, Ok x → image (callback x).2.1 = image x

/-- A callback that writes the image at a position and moves it to the next one. -/
structure WritesAlong (next : ℕ → ℕ) (Ok : δ → Prop) (pos : δ → ℕ) (image : δ → ℕ → Byte)
    (callback : Byte → Local δ Unit) : Prop where
  ok : ∀ {x}, Ok x → ∀ v, Ok (callback v x).2.1
  next_pos : ∀ {x}, Ok x → ∀ v, pos (callback v x).2.1 = next (pos x)
  image_eq : ∀ {x}, Ok x → ∀ v, image (callback v x).2.1 = Function.update (image x) (pos x) v

/-- A transfer to memory reads the image along its positions. -/
theorem ReadsAlong.block {callback : Local δ Byte} (h : ReadsAlong next Ok pos image callback)
    (n : ℕ) {x : δ} (hx : Ok x) :
    let r := produced callback n x
    Ok r.2 ∧ r.1 = readAlong next (image x) (pos x) n ∧ pos r.2 = next^[n] (pos x) ∧
      image r.2 = image x := by
  induction n generalizing x with
  | zero => exact ⟨hx, rfl, rfl, rfl⟩
  | succ n ih =>
    obtain ⟨hok, hbytes, hpos, himage⟩ := ih (h.ok hx)
    rw [h.next_pos hx, h.image_eq hx] at hbytes
    rw [h.next_pos hx] at hpos
    refine ⟨hok, ?_, hpos, himage.trans (h.image_eq hx)⟩
    exact congrArg₂ List.cons (h.value hx) hbytes

/-- A transfer from memory stores its bytes along the positions. -/
theorem WritesAlong.block {callback : Byte → Local δ Unit}
    (h : WritesAlong next Ok pos image callback) (bytes : List Byte) {x : δ} (hx : Ok x) :
    let y := bytes.foldl (fun x v => (callback v x).2.1) x
    Ok y ∧ pos y = next^[bytes.length] (pos x) ∧
      image y = storeAlong next (image x) (pos x) bytes := by
  induction bytes generalizing x with
  | nil => exact ⟨hx, rfl, rfl⟩
  | cons v bytes ih =>
    obtain ⟨hok, hpos, himage⟩ := ih (h.ok hx v)
    rw [h.next_pos hx] at hpos himage
    rw [h.image_eq hx] at himage
    exact ⟨hok, hpos, himage⟩

variable {log : δ → List ℕ}

/-- A device that records its positions has those of a transfer to memory, newest first. -/
theorem ReadsAlong.recorded {callback : Local δ Byte} (h : ReadsAlong next Ok pos image callback)
    (hlog : ∀ x, log (callback x).2.1 = pos x :: log x) (n : ℕ) {x : δ} (hx : Ok x) :
    log (produced callback n x).2 = (readAlong next id (pos x) n).reverse ++ log x := by
  induction n generalizing x with
  | zero => rfl
  | succ n ih =>
    rw [readAlong, List.reverse_cons, List.append_assoc, List.singleton_append, id, ← hlog,
      ← h.next_pos hx]
    exact ih (h.ok hx)

/-- A device that records its positions has those of a transfer from memory, newest first. -/
theorem WritesAlong.recorded {callback : Byte → Local δ Unit}
    (h : WritesAlong next Ok pos image callback)
    (hlog : ∀ v x, log (callback v x).2.1 = pos x :: log x) (bytes : List Byte) {x : δ}
    (hx : Ok x) :
    log (bytes.foldl (fun x v => (callback v x).2.1) x) =
      (readAlong next id (pos x) bytes.length).reverse ++ log x := by
  induction bytes generalizing x with
  | nil => rfl
  | cons v bytes ih =>
    rw [List.length_cons, readAlong, List.reverse_cons, List.append_assoc,
      List.singleton_append, id, ← hlog v, ← h.next_pos hx v]
    exact ih (h.ok hx v)

end Image

end Pc20iii
