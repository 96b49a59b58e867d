import Pc20iii.Machine.State
import Mathlib.Logic.Function.Basic

/-!
# Memory

`mem.c`: reads and writes of the one megabyte of memory, by physical address and by
segment and offset, the write protection of sections, and the loading of a ROM.

An access by segment and offset is masked to 20 bits, so it never reaches the panic
branch of `mem_read` and `mem_write` (`outcome_memReadBySegment`,
`outcome_memWriteBySegment`). Offsets of one segment name distinct bytes
(`linear_injective`), which is what makes stack pushes and word accesses independent of
where the segment lies, the wrap at one megabyte included.
-/

namespace Pc20iii

open StateProgram

variable {δ : Type}

/-- `MEM_SIZE_MAX`. -/
def memSizeMax : BitVec 32 := 0x100000

/-- `MEM_SECTION`. -/
def memSection : BitVec 32 := 0x2000

/-- The index into `readonly` of a physical address. -/
def sectionOf (address : BitVec 32) : BitVec 7 := (address / memSection).setWidth 7

/-- `mem_init`. -/
def memInit : Mem where
  m := fun _ => 0x00
  readonly := fun _ => false

/-- `mem->m[address] = value`. -/
def Mem.set (mem : Mem) (a : BitVec 20) (value : Byte) : Mem :=
  { mem with m := Function.update mem.m a value }

/-- `mem_read`. -/
def memRead (who : Initiator) (address : BitVec 32) : M δ Byte := do
  if address ≥ memSizeMax then
    panic (.memoryRead who address)
    return 0xFF
  else
    return (← get).mem.m (address.setWidth 20)

/-- `((segment << 4) + offset) & 0xFFFFF`. -/
def physical (segment offset : Word) : BitVec 32 :=
  ((segment.setWidth 32 <<< 4) + offset.setWidth 32) &&& 0xFFFFF

/-- `mem_read_by_segment`, as the CPU calls it. -/
def memReadBySegment (segment offset : Word) : M δ Byte :=
  memRead .cpu (physical segment offset)

/-- `mem_write`. -/
def memWrite (who : Initiator) (address : BitVec 32) (value : Byte) : M δ Unit := do
  if address ≥ memSizeMax then
    panic (.memoryWrite who address)
  else if (← get).mem.readonly (sectionOf address) = false then
    modify fun m => { m with mem := m.mem.set (address.setWidth 20) value }

/-- `mem_write_by_segment`, as the CPU calls it. -/
def memWriteBySegment (segment offset : Word) (value : Byte) : M δ Unit :=
  memWrite .cpu (physical segment offset) value

/-- The loop of `mem_load_rom` over the bytes of the file. -/
def memLoadBytes : List Byte → BitVec 32 → Mem → Mem
  | [], _, mem => mem
  | c :: file, address, mem =>
    let mem := { mem.set (address.setWidth 20) c with
      readonly := Function.update mem.readonly (sectionOf address) true }
    let address := address + 1
    if address ≥ memSizeMax then mem else memLoadBytes file address mem

/-- `mem_load_rom`; `file` is what `fopen` and `fgetc` give, `none` when the file cannot
be opened. -/
def memLoadRom (file : Option (List Byte)) (address : BitVec 32) (mem : Mem) : ℤ × Mem :=
  if address ≥ memSizeMax then (-2, mem)
  else match file with
    | none => (-1, mem)
    | some file => (0, memLoadBytes file address mem)

/-! ### Accesses by segment and offset -/

/-- The 20-bit address of an offset in a segment. -/
def linear (segment offset : Word) : BitVec 20 :=
  (segment.setWidth 20 <<< 4) + offset.setWidth 20

/-- The section of a 20-bit address. -/
def pageOf (a : BitVec 20) : BitVec 7 := (a >>> 13).setWidth 7

theorem physical_eq (segment offset : Word) :
    physical segment offset = (linear segment offset).setWidth 32 := by
  apply BitVec.eq_of_toNat_eq
  have hs := segment.isLt
  have ho := offset.isLt
  have hmask : (0xFFFFF : BitVec 32).toNat = 2 ^ 20 - 1 := rfl
  simp only [physical, linear, BitVec.toNat_and, BitVec.toNat_add, BitVec.toNat_shiftLeft,
    BitVec.toNat_setWidth, Nat.shiftLeft_eq, hmask, Nat.and_two_pow_sub_one_eq_mod]
  omega

theorem physical_lt (segment offset : Word) : ¬ physical segment offset ≥ memSizeMax := by
  have h := (linear segment offset).isLt
  have hmax : memSizeMax.toNat = 2 ^ 20 := rfl
  rw [physical_eq, ge_iff_le, BitVec.le_def, BitVec.toNat_setWidth, hmax]
  omega

@[simp] theorem setWidth_physical (segment offset : Word) :
    (physical segment offset).setWidth 20 = linear segment offset := by
  rw [physical_eq]
  apply BitVec.eq_of_toNat_eq
  have h := (linear segment offset).isLt
  rw [BitVec.toNat_setWidth, BitVec.toNat_setWidth]
  omega

/-- Below one megabyte the section index of the source is the upper seven address bits. -/
theorem sectionOf_eq {address : BitVec 32} (h : ¬ address ≥ memSizeMax) :
    sectionOf address = pageOf (address.setWidth 20) := by
  apply BitVec.eq_of_toNat_eq
  have hmax : memSizeMax.toNat = 2 ^ 20 := rfl
  have hsec : memSection.toNat = 2 ^ 13 := rfl
  rw [ge_iff_le, BitVec.le_def, hmax] at h
  simp only [sectionOf, pageOf, BitVec.toNat_setWidth, BitVec.toNat_udiv, hsec,
    BitVec.toNat_ushiftRight, Nat.shiftRight_eq_div_pow]
  omega

theorem linear_injective {segment o₁ o₂ : Word} (h : linear segment o₁ = linear segment o₂) :
    o₁ = o₂ := by
  apply BitVec.eq_of_toNat_eq
  have h₁ := o₁.isLt
  have h₂ := o₂.isLt
  have h := congrArg BitVec.toNat h
  simp only [linear, BitVec.toNat_add, BitVec.toNat_shiftLeft, BitVec.toNat_setWidth] at h
  omega

@[simp] theorem linear_inj {segment o₁ o₂ : Word} :
    linear segment o₁ = linear segment o₂ ↔ o₁ = o₂ :=
  ⟨linear_injective, fun h => h ▸ rfl⟩

/-- A write that respects the write protection. -/
def Mem.store (mem : Mem) (a : BitVec 20) (value : Byte) : Mem :=
  if mem.readonly (pageOf a) = false then mem.set a value else mem

namespace Mem

variable (mem : Mem) (a b : BitVec 20) (v : Byte)

@[simp] theorem set_readonly : (mem.set a v).readonly = mem.readonly := rfl

@[simp] theorem store_readonly : (mem.store a v).readonly = mem.readonly := by
  unfold store
  split <;> rfl

theorem store_of_writable (h : mem.readonly (pageOf a) = false) :
    (mem.store a v).m a = v := by
  rw [store, if_pos h, set]
  exact Function.update_self ..

theorem store_of_ne (h : b ≠ a) : (mem.store a v).m b = mem.m b := by
  unfold store
  split
  · exact Function.update_of_ne h ..
  · rfl

/-- A store leaves write-protected bytes alone. -/
theorem store_of_readonly (h : mem.readonly (pageOf b) = true) :
    (mem.store a v).m b = mem.m b := by
  by_cases hb : b = a
  · subst hb
    rw [store, if_neg (by simp [h])]
  · exact mem.store_of_ne a b v hb

/-- A store shows at an address where it changes the byte there. -/
theorem store_eq_iff :
    (mem.store a v).m b = mem.m b ↔ (b = a → mem.readonly (pageOf a) = false → v = mem.m b) := by
  by_cases hb : b = a
  · subst hb
    rw [imp_iff_right rfl]
    by_cases hwritable : mem.readonly (pageOf b) = false
    · rw [imp_iff_right hwritable, mem.store_of_writable b v hwritable]
    · rw [Mem.store, if_neg hwritable]
      exact iff_of_true rfl fun h => absurd h hwritable
  · rw [mem.store_of_ne a b v hb]
    exact iff_of_true rfl fun h => absurd h hb

/-- Storing the byte that is there changes nothing. -/
@[simp] theorem store_self : mem.store a (mem.m a) = mem := by
  unfold store set
  split
  · rw [Function.update_eq_self]
  · rfl

end Mem

/-! ### Words -/

/-- The word at an offset of a segment. Its second byte is at the next offset, which wraps
inside the segment. -/
def Mem.word (mem : Mem) (segment offset : Word) : Word :=
  wordOf (mem.m (linear segment offset)) (mem.m (linear segment (offset + 1)))

/-- The two writes of a word, low byte first. -/
def Mem.storeWord (mem : Mem) (segment offset value : Word) : Mem :=
  (mem.store (linear segment offset) (lowByte value)).store (linear segment (offset + 1))
    (highByte value)

/-- A byte of a segment is in a section that can be written. -/
def Mem.Writable (mem : Mem) (segment offset : Word) : Prop :=
  mem.readonly (pageOf (linear segment offset)) = false

instance (mem : Mem) (segment offset : Word) : Decidable (mem.Writable segment offset) :=
  inferInstanceAs (Decidable (_ = _))

namespace Mem

variable (mem : Mem) {segment offset offset' : Word} {v : Word} {a : BitVec 20}

@[simp] theorem storeWord_readonly : (mem.storeWord segment offset v).readonly = mem.readonly := by
  simp [storeWord]

@[simp] theorem store_writable {b : Byte} :
    (mem.store a b).Writable segment offset ↔ mem.Writable segment offset := by
  simp [Writable]

@[simp] theorem storeWord_writable :
    (mem.storeWord segment offset' v).Writable segment offset ↔ mem.Writable segment offset := by
  simp [Writable]

/-- A word write changes two bytes at most. -/
theorem storeWord_of_ne (h₀ : a ≠ linear segment offset) (h₁ : a ≠ linear segment (offset + 1)) :
    (mem.storeWord segment offset v).m a = mem.m a := by
  rw [storeWord, store_of_ne _ _ _ _ h₁, store_of_ne _ _ _ _ h₀]

theorem storeWord_low (h : mem.Writable segment offset) :
    (mem.storeWord segment offset v).m (linear segment offset) = lowByte v := by
  have hne : linear segment offset ≠ linear segment (offset + 1) := by
    simp [linear_inj]
  rw [storeWord, store_of_ne _ _ _ _ hne, store_of_writable _ _ _ h]

theorem storeWord_high (h : mem.Writable segment (offset + 1)) :
    (mem.storeWord segment offset v).m (linear segment (offset + 1)) = highByte v := by
  rw [storeWord, store_of_writable _ _ _ (by rwa [store_readonly])]

/-- A word that was written is read back. -/
theorem word_storeWord (h₀ : mem.Writable segment offset) (h₁ : mem.Writable segment (offset + 1)) :
    (mem.storeWord segment offset v).word segment offset = v := by
  rw [word, storeWord_low _ h₀, storeWord_high _ h₁, wordOf_lowByte_highByte]

/-- A word write leaves the words of the segment that it does not overlap. -/
theorem word_storeWord_of_apart (h : offset' ≠ offset) (h₀ : offset' + 1 ≠ offset)
    (h₁ : offset' ≠ offset + 1) :
    (mem.storeWord segment offset v).word segment offset' = mem.word segment offset' := by
  have hne : offset' + 1 ≠ offset + 1 := by simpa using h
  rw [word, storeWord_of_ne _ (by simpa using h) (by simpa using h₁),
    storeWord_of_ne _ (by simpa using h₀) (by simpa using hne), word]

/-- Writing the word that is there changes nothing. -/
theorem storeWord_word : mem.storeWord segment offset (mem.word segment offset) = mem := by
  rw [storeWord, word, lowByte_wordOf, highByte_wordOf, store_self, store_self]

end Mem

/-! ### Accesses of the CPU -/

@[simp] theorem outcome_memReadBySegment (segment offset : Word) (m : Machine δ) :
    outcome (memReadBySegment segment offset) m = (m.mem.m (linear segment offset), m) := by
  rw [memReadBySegment, memRead, if_neg (physical_lt segment offset)]
  simp

@[simp] theorem outcome_memWriteBySegment (segment offset : Word) (v : Byte) (m : Machine δ) :
    outcome (memWriteBySegment segment offset v) m =
      ((), { m with mem := m.mem.store (linear segment offset) v }) := by
  have h := physical_lt segment offset
  simp only [memWriteBySegment, memWrite, if_neg h, outcome_bind, outcome_get, outcome_ite,
    outcome_modify, outcome_pure, sectionOf_eq h, setWidth_physical, Mem.store]
  split <;> rfl

end Pc20iii
