import Mathlib.Algebra.Order.Ring.Int
import Mathlib.Tactic.Common

/-!
# Bytes and words

The fixed-width integers of the emulator and the two conversions between a word and
its bytes that run through the whole source: `value % 0x100` and `value / 0x100` on the
way to memory, `lo + hi * 0x100` on the way back.
-/

namespace Pc20iii

/-- `uint8_t`. -/
abbrev Byte := BitVec 8

/-- `uint16_t`. -/
abbrev Word := BitVec 16

/-! ### Instances

The numerals of the counters, the DMA channels, the parameters of a disk command and the interrupt
lines, and the membership of a byte in a list, rest on proofs. They are named here, so that they
are the same in every module. -/

instance neZero_three : NeZero 3 := ⟨by decide⟩

instance neZero_four : NeZero 4 := ⟨by decide⟩

instance neZero_six : NeZero 6 := ⟨by decide⟩

instance neZero_eight : NeZero 8 := ⟨by decide⟩

instance lawfulBEq_byte : LawfulBEq Byte := inferInstance

/-! ### Bytes of a word -/

/-- `value % 0x100`. -/
def lowByte (w : Word) : Byte := w.setWidth 8

/-- `value / 0x100`. -/
def highByte (w : Word) : Byte := (w >>> 8).setWidth 8

/-- `lo + hi * 0x100`, as words are put together from two byte reads. -/
def wordOf (lo hi : Byte) : Word := lo.setWidth 16 + hi.setWidth 16 * 0x100

theorem wordOf_toNat (lo hi : Byte) : (wordOf lo hi).toNat = lo.toNat + 256 * hi.toNat := by
  have hl := lo.isLt
  have hh := hi.isLt
  have h256 : (0x100 : Word).toNat = 256 := rfl
  rw [wordOf, BitVec.toNat_add, BitVec.toNat_mul, BitVec.toNat_setWidth, BitVec.toNat_setWidth,
    h256]
  omega

@[simp] theorem lowByte_wordOf (lo hi : Byte) : lowByte (wordOf lo hi) = lo := by
  apply BitVec.eq_of_toNat_eq
  have hl := lo.isLt
  rw [lowByte, BitVec.toNat_setWidth, wordOf_toNat]
  omega

@[simp] theorem highByte_wordOf (lo hi : Byte) : highByte (wordOf lo hi) = hi := by
  apply BitVec.eq_of_toNat_eq
  have hl := lo.isLt
  have hh := hi.isLt
  rw [highByte, BitVec.toNat_setWidth, BitVec.toNat_ushiftRight, wordOf_toNat,
    Nat.shiftRight_eq_div_pow]
  omega

@[simp] theorem wordOf_lowByte_highByte (w : Word) : wordOf (lowByte w) (highByte w) = w := by
  apply BitVec.eq_of_toNat_eq
  have hw := w.isLt
  rw [wordOf_toNat, lowByte, highByte, BitVec.toNat_setWidth, BitVec.toNat_setWidth,
    BitVec.toNat_ushiftRight, Nat.shiftRight_eq_div_pow]
  omega

/-- `parity_even`: the low byte of `value` has an even number of set bits. -/
def parityEven (value : Word) : Bool :=
  let value := value ^^^ (value >>> 4)
  let value := value ^^^ (value >>> 2)
  let value := value ^^^ (value >>> 1)
  (~~~value).getLsbD 0

end Pc20iii
