import Pc20iii.I8088.Alu
import Mathlib.Data.Int.Cast.Basic
import Mathlib.Tactic.NormNum.Basic
import Mathlib.Tactic.NormNum.Pow

/-!
# What additions and subtractions compute

The result and the flags of `addFlags` and `subFlags`, and with them of `ADD`, `ADC`, `SUB`,
`SBB` and `CMP` in both widths, in terms of the numbers that the operands stand for.

* `addFlags_carry`, `subFlags_borrow`: the result and the carry flag make up the exact sum
  or difference of the operands as unsigned numbers.
* `addFlags_signed`, `subFlags_signed`: the overflow flag says that the exact result for the
  operands as signed numbers is out of range, and if it is clear the result is exact.

The flags are computed in `int`s of 32 bits, which is wide enough for operands of less than
31 bits.
-/

namespace Pc20iii

variable {w : ℕ}

/-! ### Carries -/

theorem toNat_intOf (b : Bool) : (intOf b).toNat = b.toNat := by
  cases b <;> rfl

theorem toNat_carryIn (hw : 0 < w) (b : Bool) :
    ((BitVec.ofBool b).setWidth w).toNat = b.toNat := by
  have htwo : 2 ^ 1 ≤ 2 ^ w := Nat.pow_le_pow_right (by decide) hw
  have hb : b.toNat ≤ 1 := Bool.toNat_le b
  have hone : (BitVec.ofBool b).toNat = b.toNat := by cases b <;> rfl
  rw [BitVec.toNat_setWidth, hone]
  exact Nat.mod_eq_of_lt (by omega)

/-- What is known of the powers of two that bound the operands. -/
theorem pow_bounds (hw : 0 < w) (hsmall : w < 31) : 2 ≤ 2 ^ w ∧ 2 * 2 ^ w ≤ 2 ^ 31 := by
  have htwo : 2 ^ 1 ≤ 2 ^ w := Nat.pow_le_pow_right (by decide) hw
  have hpow : 2 ^ (w + 1) ≤ 2 ^ 31 := Nat.pow_le_pow_right (by decide) hsmall
  rw [Nat.pow_succ] at hpow
  omega

section Carry

variable (hw : 0 < w) (hsmall : w < 31) (carry : Bool) (f : Flags) (a b : BitVec w)

include hw hsmall

/-- The carry flag of an addition is bit `w` of the sum as an `int`, which is set if and only if the
sum does not fit in the operands. -/
theorem addFlags_c :
    (addFlags carry f a b).2.c = decide (2 ^ w ≤ a.toNat + b.toNat + carry.toNat) := by
  obtain ⟨htwo, hpow⟩ := pow_bounds hw hsmall
  have ha := a.isLt
  have hb := b.isLt
  have hc := Bool.toNat_le carry
  -- the sum of the `int`s does not wrap
  have hsum : (a.setWidth 32 + b.setWidth 32 + intOf carry).toNat =
      a.toNat + b.toNat + carry.toNat := by
    rw [BitVec.toNat_add, BitVec.toNat_add, BitVec.toNat_setWidth, BitVec.toNat_setWidth,
      toNat_intOf]
    omega
  show (a.setWidth 32 + b.setWidth 32 + intOf carry).getLsbD w = _
  rw [BitVec.getLsbD, hsum]
  by_cases hle : 2 ^ w ≤ a.toNat + b.toNat + carry.toNat
  · rw [decide_eq_true hle]
    exact Nat.testBit_of_two_pow_le_and_two_pow_add_one_gt hle (by rw [Nat.pow_succ]; omega)
  · rw [decide_eq_false hle]
    exact Nat.testBit_lt_two_pow (by omega)

/-- The result and the carry make up the sum. -/
theorem addFlags_carry :
    (addFlags carry f a b).1.toNat + 2 ^ w * (addFlags carry f a b).2.c.toNat =
      a.toNat + b.toNat + carry.toNat := by
  have ha := a.isLt
  have hb := b.isLt
  have hc := Bool.toNat_le carry
  have hresult : (addFlags carry f a b).1.toNat = (a.toNat + b.toNat + carry.toNat) % 2 ^ w := by
    show (a + b + (BitVec.ofBool carry).setWidth w).toNat = _
    rw [BitVec.toNat_add, BitVec.toNat_add, toNat_carryIn hw, Nat.mod_add_mod]
  rw [hresult, addFlags_c hw hsmall]
  -- the sum is below twice the modulus, so one carry is all there is
  by_cases hle : 2 ^ w ≤ a.toNat + b.toNat + carry.toNat
  · rw [decide_eq_true hle, Nat.mod_eq_sub_mod hle, Nat.mod_eq_of_lt (by omega), Bool.toNat_true]
    omega
  · rw [decide_eq_false hle, Nat.mod_eq_of_lt (by omega), Bool.toNat_false]
    omega

/-- The carry flag of a subtraction is the borrow. -/
theorem subFlags_c :
    (subFlags carry f a b).2.c = decide (a.toNat < b.toNat + carry.toNat) := by
  obtain ⟨htwo, hpow⟩ := pow_bounds hw hsmall
  have ha := a.isLt
  have hb := b.isLt
  have hc := Bool.toNat_le carry
  show (a.setWidth 32 - b.setWidth 32 - intOf carry).getLsbD w = _
  rw [BitVec.getLsbD]
  by_cases hlt : a.toNat < b.toNat + carry.toNat
  · -- the `int` is negative, so that its upper bits are set
    have hdiff : (a.setWidth 32 - b.setWidth 32 - intOf carry).toNat =
        2 ^ 32 - (b.toNat + carry.toNat - a.toNat - 1 + 1) := by
      rw [BitVec.toNat_sub, BitVec.toNat_sub, BitVec.toNat_setWidth, BitVec.toNat_setWidth,
        toNat_intOf]
      omega
    rw [decide_eq_true hlt, hdiff, Nat.testBit_two_pow_sub_succ (by omega),
      Nat.testBit_lt_two_pow (by omega), decide_eq_true (by omega)]
    rfl
  · have hdiff : (a.setWidth 32 - b.setWidth 32 - intOf carry).toNat =
        a.toNat - (b.toNat + carry.toNat) := by
      rw [BitVec.toNat_sub, BitVec.toNat_sub, BitVec.toNat_setWidth, BitVec.toNat_setWidth,
        toNat_intOf]
      omega
    rw [decide_eq_false hlt, hdiff]
    exact Nat.testBit_lt_two_pow (by omega)

/-- The result and what is subtracted make up the minuend and the borrow. -/
theorem subFlags_borrow :
    (subFlags carry f a b).1.toNat + b.toNat + carry.toNat =
      a.toNat + 2 ^ w * (subFlags carry f a b).2.c.toNat := by
  obtain ⟨htwo, -⟩ := pow_bounds hw hsmall
  have ha := a.isLt
  have hb := b.isLt
  have hc := Bool.toNat_le carry
  have hresult : (subFlags carry f a b).1.toNat =
      (2 ^ w - carry.toNat + (2 ^ w - b.toNat + a.toNat) % 2 ^ w) % 2 ^ w := by
    show (a - b - (BitVec.ofBool carry).setWidth w).toNat = _
    rw [BitVec.toNat_sub, BitVec.toNat_sub, toNat_carryIn hw]
  rw [Nat.add_mod_mod] at hresult
  rw [hresult, subFlags_c hw hsmall]
  -- with a borrow the result is too large by one modulus
  by_cases hlt : a.toNat < b.toNat + carry.toNat
  · have hsum : 2 ^ w - carry.toNat + (2 ^ w - b.toNat + a.toNat) =
        2 ^ w + (2 ^ w + a.toNat - b.toNat - carry.toNat) := by omega
    rw [decide_eq_true hlt, hsum, Nat.add_mod_left, Nat.mod_eq_of_lt (by omega), Bool.toNat_true]
    omega
  · have hsum : 2 ^ w - carry.toNat + (2 ^ w - b.toNat + a.toNat) =
        2 ^ w + (2 ^ w + (a.toNat - b.toNat - carry.toNat)) := by omega
    rw [decide_eq_false hlt, hsum, Nat.add_mod_left, Nat.add_mod_left,
      Nat.mod_eq_of_lt (by omega), Bool.toNat_false]
    omega

end Carry

/-! ### Half carries -/

section Half

variable (hsmall : w < 31) (carry : Bool) (f : Flags) (a b : BitVec w)

include hsmall

theorem toNat_nibble : (nibble a).toNat = a.toNat % 16 := by
  have hpow : 2 ^ w ≤ 2 ^ 32 := Nat.pow_le_pow_right (by decide) (by omega)
  have ha := a.isLt
  have hmask : (0xF : BitVec 32).toNat = 2 ^ 4 - 1 := rfl
  rw [nibble, BitVec.toNat_and, BitVec.toNat_setWidth, Nat.mod_eq_of_lt (by omega), hmask,
    Nat.and_two_pow_sub_one_eq_mod]

/-- The auxiliary flag is the carry out of the low four bits. -/
theorem addFlags_a :
    (addFlags carry f a b).2.a = decide (16 ≤ a.toNat % 16 + b.toNat % 16 + carry.toNat) := by
  have hc := Bool.toNat_le carry
  have hsum : (nibble a + nibble b + intOf carry).toNat =
      a.toNat % 16 + b.toNat % 16 + carry.toNat := by
    rw [BitVec.toNat_add, BitVec.toNat_add, toNat_nibble hsmall, toNat_nibble hsmall, toNat_intOf]
    omega
  show (nibble a + nibble b + intOf carry).getLsbD 4 = _
  rw [BitVec.getLsbD, hsum, Nat.testBit_eq_decide_div_mod_eq, decide_eq_decide]
  omega

/-- The auxiliary flag is the borrow of the low four bits. -/
theorem subFlags_a :
    (subFlags carry f a b).2.a = decide (a.toNat % 16 < b.toNat % 16 + carry.toNat) := by
  have hc := Bool.toNat_le carry
  have hdiff : (nibble a - nibble b - intOf carry).toNat =
      (2 ^ 32 + a.toNat % 16 - b.toNat % 16 - carry.toNat) % 2 ^ 32 := by
    rw [BitVec.toNat_sub, BitVec.toNat_sub, toNat_nibble hsmall, toNat_nibble hsmall, toNat_intOf]
    omega
  show (nibble a - nibble b - intOf carry).getLsbD 4 = _
  rw [BitVec.getLsbD, hdiff, Nat.testBit_eq_decide_div_mod_eq, decide_eq_decide]
  omega

end Half

/-! ### Signs -/

theorem addFlags_sign (carry : Bool) (f : Flags) (a b : BitVec w) :
    (addFlags carry f a b).2.s = true ↔ (addFlags carry f a b).1.toInt < 0 := by
  show (addFlags carry f a b).1.msb = true ↔ _
  rw [BitVec.msb_eq_toInt, decide_eq_true_iff]

theorem subFlags_sign (carry : Bool) (f : Flags) (a b : BitVec w) :
    (subFlags carry f a b).2.s = true ↔ (subFlags carry f a b).1.toInt < 0 := by
  show (subFlags carry f a b).1.msb = true ↔ _
  rw [BitVec.msb_eq_toInt, decide_eq_true_iff]

/-- The numbers that a two's complement number of `w` bits can stand for. -/
def SignedRange (w : ℕ) (z : ℤ) : Prop := -2 ^ (w - 1) ≤ z ∧ z < 2 ^ (w - 1)

instance (w : ℕ) (z : ℤ) : Decidable (SignedRange w z) := inferInstanceAs (Decidable (_ ∧ _))

theorem two_pow_eq (hw : 0 < w) : 2 ^ w = 2 * 2 ^ (w - 1) := by
  rw [← Nat.pow_succ']
  congr 1
  omega

/-- The number and the sign of a two's complement number, by the half it is in. -/
theorem toInt_cases (hw : 0 < w) (a : BitVec w) :
    (a.msb = false ∧ a.toNat < 2 ^ (w - 1) ∧ a.toInt = a.toNat) ∨
      (a.msb = true ∧ 2 ^ (w - 1) ≤ a.toNat ∧ a.toInt = a.toNat - 2 * 2 ^ (w - 1)) := by
  have hpow := two_pow_eq hw
  have hpow' : ((2 ^ w : ℕ) : ℤ) = 2 * 2 ^ (w - 1) := by exact_mod_cast hpow
  by_cases hle : 2 ^ (w - 1) ≤ a.toNat
  · refine .inr ⟨by rw [BitVec.msb_eq_decide, decide_eq_true hle], hle, ?_⟩
    rw [BitVec.toInt_eq_toNat_cond, if_neg (by omega), hpow']
  · refine .inl ⟨by rw [BitVec.msb_eq_decide, decide_eq_false hle], by omega, ?_⟩
    rw [BitVec.toInt_eq_toNat_cond, if_pos (by omega)]

section Overflow

variable (hw : 0 < w) (hsmall : w < 31) (carry : Bool) (f : Flags) (a b : BitVec w)

include hw hsmall

/-- The overflow flag says that the signed sum is out of range; otherwise the result is it. -/
theorem addFlags_signed :
    ((addFlags carry f a b).2.o = true ↔
        ¬SignedRange w (a.toInt + b.toInt + carry.toNat)) ∧
      ((addFlags carry f a b).2.o = false →
        (addFlags carry f a b).1.toInt = a.toInt + b.toInt + carry.toNat) := by
  have hsum := addFlags_carry hw hsmall carry f a b
  have hpow := two_pow_eq hw
  have hcast : ((2 ^ (w - 1) : ℕ) : ℤ) = 2 ^ (w - 1) := by norm_cast
  have hc := Bool.toNat_le carry
  have hr := (addFlags carry f a b).1.isLt
  have ha := a.isLt
  have hb := b.isLt
  have ho : (addFlags carry f a b).2.o =
      ((a.msb && b.msb && !(addFlags carry f a b).1.msb) ||
        (!a.msb && !b.msb && (addFlags carry f a b).1.msb)) := rfl
  rw [ho]
  unfold SignedRange
  generalize (addFlags carry f a b).1 = r at *
  -- one case for each choice of the three signs and of the carry
  rcases toInt_cases hw a with ⟨hma, hna, hia⟩ | ⟨hma, hna, hia⟩ <;>
    rcases toInt_cases hw b with ⟨hmb, hnb, hib⟩ | ⟨hmb, hnb, hib⟩ <;>
    rcases toInt_cases hw r with ⟨hmr, hnr, hir⟩ | ⟨hmr, hnr, hir⟩ <;>
    cases hcf : (addFlags carry f a b).2.c <;>
    rw [hcf] at hsum <;>
    simp only [hma, hmb, hmr, Bool.toNat_true, Bool.toNat_false] at hsum ⊢ <;>
    simp <;> omega

/-- The overflow flag says that the signed difference is out of range; otherwise the result
is it. -/
theorem subFlags_signed :
    ((subFlags carry f a b).2.o = true ↔
        ¬SignedRange w (a.toInt - b.toInt - carry.toNat)) ∧
      ((subFlags carry f a b).2.o = false →
        (subFlags carry f a b).1.toInt = a.toInt - b.toInt - carry.toNat) := by
  have hdiff := subFlags_borrow hw hsmall carry f a b
  have hpow := two_pow_eq hw
  have hcast : ((2 ^ (w - 1) : ℕ) : ℤ) = 2 ^ (w - 1) := by norm_cast
  have hc := Bool.toNat_le carry
  have hr := (subFlags carry f a b).1.isLt
  have ha := a.isLt
  have hb := b.isLt
  have ho : (subFlags carry f a b).2.o =
      ((a.msb && !b.msb && !(subFlags carry f a b).1.msb) ||
        (!a.msb && b.msb && (subFlags carry f a b).1.msb)) := rfl
  rw [ho]
  unfold SignedRange
  generalize (subFlags carry f a b).1 = r at *
  -- the overflow flag is a formula of three signs, and each case is linear
  rcases toInt_cases hw a with ⟨hma, hna, hia⟩ | ⟨hma, hna, hia⟩ <;>
    rcases toInt_cases hw b with ⟨hmb, hnb, hib⟩ | ⟨hmb, hnb, hib⟩ <;>
    rcases toInt_cases hw r with ⟨hmr, hnr, hir⟩ | ⟨hmr, hnr, hir⟩ <;>
    cases hcf : (subFlags carry f a b).2.c <;>
    rw [hcf] at hdiff <;>
    simp only [hma, hmb, hmr, Bool.toNat_true, Bool.toNat_false] at hdiff ⊢ <;>
    simp <;> omega

end Overflow

end Pc20iii
