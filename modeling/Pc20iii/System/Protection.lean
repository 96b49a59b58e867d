import Pc20iii.System.Run

/-!
# Write protection

Sections that are marked read-only keep their bytes in every run, and no access of the
CPU reaches the panic branches of `mem_read` and `mem_write` (`run_protected`). A ROM
loaded by `mem_load_rom` therefore stays in place (`run_rom`).
-/

namespace Pc20iii

open StateProgram

variable {δ : Type}

/-! ### Memory -/

/-- The marks are the same, and the marked sections have the same bytes. -/
structure Mem.Protects (mem mem' : Mem) : Prop where
  readonly : mem'.readonly = mem.readonly
  byte : ∀ a, mem.readonly (pageOf a) = true → mem'.m a = mem.m a

namespace Mem.Protects

variable {mem mem' mem'' : Mem}

theorem refl (mem : Mem) : mem.Protects mem := ⟨rfl, fun _ _ => rfl⟩

theorem trans (h : mem.Protects mem') (h' : mem'.Protects mem'') : mem.Protects mem'' where
  readonly := h'.readonly.trans h.readonly
  byte a ha := (h'.byte a (h.readonly ▸ ha)).trans (h.byte a ha)

theorem store (mem : Mem) (a : BitVec 20) (v : Byte) : mem.Protects (mem.store a v) where
  readonly := mem.store_readonly a v
  byte b hb := mem.store_of_readonly a b v hb

theorem storeWord (mem : Mem) (segment offset v : Word) :
    mem.Protects (mem.storeWord segment offset v) :=
  (store mem _ _).trans (store _ _ _)

theorem frame (m : Machine δ) : m.mem.Protects m.frame :=
  ((storeWord _ _ _ _).trans (storeWord _ _ _ _)).trans (storeWord _ _ _ _)

end Mem.Protects

/-! ### The invariant of a run -/

/-- An access of the CPU at or above one megabyte, as the history shows it. -/
def Event.OutOfRange (e : Event) : Prop :=
  ∃ address, e = .panic (.memoryRead .cpu address) ∨ e = .panic (.memoryWrite .cpu address)

/-- Write protection holds, and the history has grown by events that are no CPU accesses
out of range. -/
structure Protected (m m' : Machine δ) : Prop where
  mem : m.mem.Protects m'.mem
  log : ∃ es, m'.log = es ++ m.log ∧ ∀ e ∈ es, ¬ e.OutOfRange

theorem Event.Plain.not_outOfRange {reports : Bool} {e : Event} (h : e.Plain reports) :
    ¬ e.OutOfRange := by
  rintro ⟨address, rfl | rfl⟩ <;> exact h

namespace Protected

variable {m m' m'' : Machine δ} {raises reports : Bool}

theorem refl (m : Machine δ) : Protected m m := ⟨.refl _, [], rfl, nofun⟩

theorem trans (h : Protected m m') (h' : Protected m' m'') : Protected m m'' where
  mem := h.mem.trans h'.mem
  log := by
    obtain ⟨es, hes, hall⟩ := h.log
    obtain ⟨es', hes', hall'⟩ := h'.log
    refine ⟨es' ++ es, by rw [hes', hes, List.append_assoc], fun e he => ?_⟩
    exact (List.mem_append.mp he).elim (hall' e) (hall e)

theorem of_plain (h : Plain raises reports m m') : Protected m m' where
  mem := by
    rcases h.mem with h | ⟨a, v, h⟩
    · exact h ▸ .refl _
    · exact h ▸ .store _ a v
  log := by
    obtain ⟨es, hes, hall⟩ := h.log
    exact ⟨es, hes, fun e he => (hall e he).not_outOfRange⟩

/-- A request writes its frame through `mem_write`, and reads its vector below one
megabyte. -/
theorem irq (m : Machine δ) (irqNo : Fin 8) : Protected m (outcome (fe2010Irq irqNo) m).2 := by
  rcases fe2010Irq_cases irqNo m with ⟨-, h⟩ | ⟨-, -, h⟩ | ⟨-, -, h⟩ <;> rw [h]
  · exact ⟨.refl _, [_], rfl, by simp [Event.OutOfRange]⟩
  · exact ⟨.refl _, [_], rfl, by simp [Event.OutOfRange]⟩
  · exact ⟨.frame _, [_, _, _], rfl, by simp [Event.OutOfRange]⟩

theorem retry (m : Machine δ) (irqNo : Fin 8) :
    Protected m (outcome (pendingPass irqNo) m).2 := by
  rw [outcome_pendingPass]
  split
  · have hmark : Protected m { m with log := .irqRetry irqNo :: m.log } :=
      ⟨.refl _, [_], rfl, by simp [Event.OutOfRange]⟩
    exact hmark.trans (irq _ irqNo)
  · exact refl m

end Protected

/-- Every run is protected. -/
theorem Run.protected {io : Devices δ} {m m' : Machine δ} (h : Run io m m') : Protected m m' :=
  RunOf.rel Protected.refl Protected.trans Protected.of_plain Protected.irq Protected.retry
    rfl (fun _ _ _ => rfl) h

/-- **Write protection.** In every run, whatever the registers, the memory and the channel
programming are, the marks of the sections stay as they are, every byte of a marked section
keeps its value, and the CPU makes no access at or above one megabyte. -/
theorem run_protected (io : Devices δ) {m m' : Machine δ} (h : Run io m m') :
    m'.mem.readonly = m.mem.readonly ∧
      (∀ a, m.mem.readonly (pageOf a) = true → m'.mem.m a = m.mem.m a) ∧
      ∃ es, m'.log = es ++ m.log ∧ ∀ e ∈ es, ∀ address,
        e ≠ .panic (.memoryRead .cpu address) ∧ e ≠ .panic (.memoryWrite .cpu address) := by
  have hp := Run.protected h
  obtain ⟨es, hes, hall⟩ := hp.log
  refine ⟨hp.mem.readonly, hp.mem.byte, es, hes, fun e he address => ⟨?_, ?_⟩⟩
  · intro heq
    exact hall e he ⟨address, .inl heq⟩
  · intro heq
    exact hall e he ⟨address, .inr heq⟩

/-- A `STOSB` into a machine of read-only memory leaves the byte it is directed at. -/
theorem run_protected_stosb :
    let m : Machine Unit :=
      { machineInit () with mem := { m := fun _ => 0xAA, readonly := fun _ => true } }
    (outcome (i8088Execute Devices.none 0 1) m).2.mem.m 0 = 0xAA :=
  (run_protected Devices.none (.single (.execute 0 1 _ fun _ _ => trivial))).2.1 0 rfl

/-! ### ROMs -/

section Rom

variable {file : List Byte} {address : BitVec 32} {mem : Mem}

/-- One pass of the loop of `mem_load_rom`. -/
def Mem.loadByte (mem : Mem) (address : BitVec 32) (c : Byte) : Mem :=
  { mem.set (address.setWidth 20) c with
    readonly := Function.update mem.readonly (sectionOf address) true }

theorem memLoadBytes_cons (c : Byte) (file : List Byte) (address : BitVec 32) (mem : Mem) :
    memLoadBytes (c :: file) address mem =
      if address + 1 ≥ memSizeMax then mem.loadByte address c
      else memLoadBytes file (address + 1) (mem.loadByte address c) := rfl

/-- Below one megabyte the next address is one higher. -/
theorem toNat_address_add_one (h : ¬ address ≥ memSizeMax) :
    (address + 1).toNat = address.toNat + 1 := by
  have hmax : memSizeMax.toNat = 2 ^ 20 := rfl
  rw [ge_iff_le, BitVec.le_def, hmax] at h
  rw [BitVec.toNat_add, show (1 : BitVec 32).toNat = 1 from rfl]
  omega

theorem loadByte_of_lt {a : BitVec 20} (c : Byte) (hlt : address.toNat < 2 ^ 20)
    (h : a.toNat < address.toNat) : (mem.loadByte address c).m a = mem.m a := by
  refine Function.update_of_ne (fun he => ?_) ..
  rw [he, BitVec.toNat_setWidth] at h
  omega

theorem loadByte_marked (p : BitVec 7) (c : Byte) (h : mem.readonly p = true) :
    (mem.loadByte address c).readonly p = true := by
  by_cases hp : p = sectionOf address
  · subst hp
    exact Function.update_self ..
  · exact (Function.update_of_ne hp ..).trans h

/-- Loading a file leaves the bytes below its address, and keeps the marks it finds. -/
theorem memLoadBytes_below (file : List Byte) (mem : Mem) (h : ¬ address ≥ memSizeMax) :
    (∀ a : BitVec 20, a.toNat < address.toNat → (memLoadBytes file address mem).m a = mem.m a) ∧
      ∀ p, mem.readonly p = true → (memLoadBytes file address mem).readonly p = true := by
  have hlt : address.toNat < 2 ^ 20 := by
    rwa [ge_iff_le, BitVec.le_def, Nat.not_le] at h
  induction file generalizing address mem with
  | nil => exact ⟨fun _ _ => rfl, fun _ h => h⟩
  | cons c file ih =>
    rw [memLoadBytes_cons]
    have hne (a : BitVec 20) (ha : a.toNat < address.toNat) :
        (mem.loadByte address c).m a = mem.m a := loadByte_of_lt c hlt ha
    split
    · exact ⟨hne, fun p => loadByte_marked p c⟩
    -- the rest of the file goes to higher addresses
    · next hstop =>
      have hnext := toNat_address_add_one h
      have hlt' : (address + 1).toNat < 2 ^ 20 := by
        rwa [ge_iff_le, BitVec.le_def, Nat.not_le] at hstop
      obtain ⟨hm, hr⟩ := ih (mem.loadByte address c) hstop hlt'
      exact ⟨fun a ha => (hm a (by omega)).trans (hne a ha),
        fun p hp => hr p (loadByte_marked p c hp)⟩

/-- A loaded byte is in place, in a marked section. -/
theorem memLoadBytes_loaded (mem : Mem) (h : ¬ address ≥ memSizeMax) {k : ℕ}
    (hk : k < file.length) (hfit : address.toNat + k < 2 ^ 20) :
    (memLoadBytes file address mem).m (BitVec.ofNat 20 (address.toNat + k)) = file[k] ∧
      (memLoadBytes file address mem).readonly
        (pageOf (BitVec.ofNat 20 (address.toNat + k))) = true := by
  induction file generalizing address mem k with
  | nil => exact absurd hk (Nat.not_lt_zero k)
  | cons c file ih =>
    have hnext := toNat_address_add_one h
    rw [memLoadBytes_cons]
    cases k with
    | zero =>
      have hset : address.setWidth 20 = BitVec.ofNat 20 (address.toNat + 0) := rfl
      have hbyte : (mem.loadByte address c).m (address.setWidth 20) = c :=
        Function.update_self ..
      have hmark : (mem.loadByte address c).readonly (pageOf (address.setWidth 20)) = true := by
        rw [← sectionOf_eq h]
        exact Function.update_self ..
      rw [← hset]
      split
      · exact ⟨hbyte, hmark⟩
      · -- the rest of the file goes behind the byte and keeps its section marked
        next hstop =>
        obtain ⟨hm, hr⟩ := memLoadBytes_below file (mem.loadByte address c) hstop
        refine ⟨(hm _ ?_).trans hbyte, hr _ hmark⟩
        rw [BitVec.toNat_setWidth]
        omega
    | succ k =>
      -- the byte is not the last one, so the load goes on
      have hstop : ¬ address + 1 ≥ memSizeMax := by
        have hmax : memSizeMax.toNat = 2 ^ 20 := rfl
        rw [ge_iff_le, BitVec.le_def, hmax]
        omega
      have hih := ih (mem.loadByte address c) hstop (k := k)
        (by simpa using hk) (by omega)
      rw [if_neg hstop]
      rwa [hnext, Nat.add_assoc, Nat.add_comm 1 k] at hih

/-- **A ROM stays in place.** In every run that starts in the memory that `mem_load_rom`
leaves, every byte of the file that fits below one megabyte keeps its value. -/
theorem run_rom (io : Devices δ) (haddress : ¬ address ≥ memSizeMax) {m m' : Machine δ}
    (hm : m.mem = (memLoadRom (some file) address mem).2) (h : Run io m m') {k : ℕ}
    (hk : k < file.length) (hfit : address.toNat + k < 2 ^ 20) :
    m'.mem.m (BitVec.ofNat 20 (address.toNat + k)) = file[k] := by
  have hload : m.mem = memLoadBytes file address mem := by rw [hm, memLoadRom, if_neg haddress]
  obtain ⟨hbyte, hmark⟩ := memLoadBytes_loaded mem haddress hk hfit
  have hp := Run.protected h
  rw [hp.mem.byte _ (hload ▸ hmark), hload, hbyte]

end Rom

end Pc20iii
