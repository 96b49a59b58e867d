import Pc20iii.Program.Rotation
import Mathlib.Algebra.Order.Group.Nat
import Mathlib.Tactic.Common

/-!
# Checksums that rotate and add

A checksum of `w` bits: for each element it is rotated to the right by one bit, and the element is
added. Programs compute it in a wider type, with shifts and a mask. `wideRotateSum_eq` says that
nothing of this shows.
-/

namespace StateProgram

variable {v w n : ℕ}

/-- The checksum of `w` bits. -/
def rotateSum (w : ℕ) (bytes : List (BitVec v)) : BitVec w :=
  bytes.foldl (fun sum byte => sum.rotateRight 1 + byte.setWidth w) 0

/-- One step in a type of `n` bits: the two parts of the rotation are added, and what has grown
beyond `w` bits is cut off. -/
def wideRotateStep (w : ℕ) (sum : BitVec n) (byte : BitVec v) : BitVec n :=
  ((sum >>> 1) + ((sum &&& 1) <<< (w - 1)) + byte.setWidth n) &&& BitVec.ofNat n (2 ^ w - 1)

/-- The bit that falls out on the right comes in on the left. -/
theorem toNat_rotateRight_one (hw : 1 < w) (x : BitVec w) :
    (x.rotateRight 1).toNat = x.toNat / 2 + x.toNat % 2 * 2 ^ (w - 1) := by
  have hwidth : 2 ^ (w - 1) * 2 = 2 ^ w := Nat.two_pow_pred_mul_two (by omega)
  have hx := x.isLt
  have hhigh : x.toNat * 2 ^ (w - 1) % 2 ^ w = 2 ^ (w - 1) * (x.toNat % 2) := by
    rw [Nat.mul_comm, ← hwidth, Nat.mul_mod_mul_left]
  have hlow : x.toNat / 2 < 2 ^ (w - 1) := by omega
  rw [BitVec.rotateRight_def, Nat.mod_eq_of_lt hw, BitVec.toNat_or, BitVec.toNat_ushiftRight,
    BitVec.toNat_shiftLeft, Nat.shiftRight_eq_div_pow, Nat.shiftLeft_eq, Nat.pow_one, hhigh,
    Nat.or_comm, ← Nat.two_pow_add_eq_or_of_lt hlow, Nat.add_comm, Nat.mul_comm]

/-- One step in the wider type is a step of the checksum. -/
theorem wideRotateStep_eq (hw : 1 < w) (hn : w < n) (sum : BitVec w) (byte : BitVec v) :
    wideRotateStep w (sum.setWidth n) byte =
      (sum.rotateRight 1 + byte.setWidth w).setWidth n := by
  have hwidth : 2 ^ (w - 1) * 2 = 2 ^ w := Nat.two_pow_pred_mul_two (by omega)
  have hpow : 2 ^ w < 2 ^ n := Nat.pow_lt_pow_right (by decide) hn
  have hone : 1 < 2 ^ n := Nat.lt_of_le_of_lt Nat.one_le_two_pow hpow
  have hbitOne : (1 : BitVec n).toNat = 1 := BitVec.toNat_one (Nat.zero_lt_of_lt hn)
  have hsum := sum.isLt
  have hdvd : 2 ^ w ∣ 2 ^ n := Nat.pow_dvd_pow 2 (Nat.le_of_lt hn)
  apply BitVec.eq_of_toNat_eq
  -- the bit that is shifted to the top does not leave the wider type
  have hbit : sum.toNat % 2 * 2 ^ (w - 1) < 2 ^ n := by
    have hle : sum.toNat % 2 * 2 ^ (w - 1) ≤ 1 * 2 ^ (w - 1) :=
      Nat.mul_le_mul_right _ (by omega)
    omega
  -- the mask takes everything modulo `2 ^ w`, which the wider type has not lost
  calc (wideRotateStep w (sum.setWidth n) byte).toNat
      = ((sum.toNat / 2 + sum.toNat % 2 * 2 ^ (w - 1)) % 2 ^ n + byte.toNat % 2 ^ n) % 2 ^ n %
          2 ^ w := by
        rw [wideRotateStep, BitVec.toNat_and, BitVec.toNat_ofNat,
          Nat.mod_eq_of_lt (by omega : 2 ^ w - 1 < 2 ^ n), Nat.and_two_pow_sub_one_eq_mod,
          BitVec.toNat_add, BitVec.toNat_add, BitVec.toNat_setWidth, BitVec.toNat_ushiftRight,
          BitVec.toNat_shiftLeft, BitVec.toNat_and, BitVec.toNat_setWidth,
          Nat.mod_eq_of_lt (Nat.lt_trans hsum hpow), hbitOne, Nat.and_one_is_mod,
          Nat.shiftRight_eq_div_pow, Nat.shiftLeft_eq, Nat.pow_one, Nat.mod_eq_of_lt hbit]
    _ = (sum.toNat / 2 + sum.toNat % 2 * 2 ^ (w - 1) + byte.toNat) % 2 ^ w := by
        rw [← Nat.add_mod, Nat.mod_mod_of_dvd _ hdvd]
    _ = ((sum.rotateRight 1 + byte.setWidth w).setWidth n).toNat := by
        rw [BitVec.toNat_setWidth, BitVec.toNat_add, toNat_rotateRight_one hw,
          BitVec.toNat_setWidth, Nat.add_mod_mod, Nat.mod_eq_of_lt (b := 2 ^ n)]
        exact Nat.lt_trans (Nat.mod_lt _ (Nat.two_pow_pos w)) hpow

/-- **Rotate and add.** The checksum that is computed in a wider type is the checksum. -/
theorem wideRotateSum_eq (hw : 1 < w) (hn : w < n) (bytes : List (BitVec v)) :
    (bytes.foldl (wideRotateStep w) (0 : BitVec n)).setWidth w = rotateSum w bytes := by
  -- the induction needs every start, since each byte begins with the sum so far
  have hfold : ∀ sum : BitVec w, (bytes.foldl (wideRotateStep w) (sum.setWidth n)).setWidth w =
      bytes.foldl (fun sum byte => sum.rotateRight 1 + byte.setWidth w) sum := by
    induction bytes with
    | nil =>
      intro sum
      rw [List.foldl_nil, List.foldl_nil, BitVec.setWidth_setWidth_of_le sum (Nat.le_of_lt hn),
        BitVec.setWidth_eq]
    | cons byte rest ih =>
      intro sum
      rw [List.foldl_cons, List.foldl_cons, wideRotateStep_eq hw hn]
      exact ih _
  have hzero : (0 : BitVec w).setWidth n = 0 := BitVec.setWidth_zero n w
  rw [rotateSum, ← hfold 0, hzero]

end StateProgram
