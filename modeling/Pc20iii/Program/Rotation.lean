import Mathlib.Logic.Function.Iterate

/-!
# Rotations one bit at a time

A rotation of a bit vector by `n` is `n` rotations by one bit: `rotateRight_iterate` and
`rotateLeft_iterate`. The two directions are inverse to each other, so that the second follows
from the first.
-/

namespace StateProgram

variable {w : ℕ}

/-- A bit of a rotation to the right, with one remainder for both of its parts. -/
theorem getLsbD_rotateRight_mod (x : BitVec w) (n : ℕ) {i : ℕ} (hi : i < w) :
    (x.rotateRight n).getLsbD i = x.getLsbD ((i + n) % w) := by
  have hmod : n % w < w := Nat.mod_lt _ (by omega)
  have hi' : decide (i < w) = true := decide_eq_true hi
  rw [BitVec.getLsbD_rotateRight, ← Nat.add_mod_mod, hi', Bool.true_and]
  -- the bits that stay inside, and those that come round
  by_cases h : i < w - n % w
  · have hsum : (i + n % w) % w = n % w + i := by
      rw [Nat.mod_eq_of_lt (by omega : i + n % w < w), Nat.add_comm]
    rw [decide_eq_true h, cond_true, hsum]
  · have hsum : (i + n % w) % w = i - (w - n % w) := by
      rw [Nat.mod_eq_sub_mod (by omega : i + n % w ≥ w),
        Nat.mod_eq_of_lt (by omega : i + n % w - w < w)]
      omega
    rw [decide_eq_false h, cond_false, hsum]

/-- A bit of a rotation to the left, with one remainder for both of its parts. -/
theorem getLsbD_rotateLeft_mod (x : BitVec w) (n : ℕ) {i : ℕ} (hi : i < w) :
    (x.rotateLeft n).getLsbD i = x.getLsbD ((i + (w - n % w)) % w) := by
  have hmod : n % w < w := Nat.mod_lt _ (by omega)
  have hi' : decide (i < w) = true := decide_eq_true hi
  rw [BitVec.getLsbD_rotateLeft, hi', Bool.true_and]
  -- the bits that come round, and those that stay inside
  by_cases h : i < n % w
  · have hsum : (i + (w - n % w)) % w = w - n % w + i := by
      rw [Nat.mod_eq_of_lt (by omega : i + (w - n % w) < w), Nat.add_comm]
    rw [decide_eq_true h, cond_true, hsum]
  · have hsum : (i + (w - n % w)) % w = i - n % w := by
      rw [Nat.mod_eq_sub_mod (by omega : i + (w - n % w) ≥ w),
        Nat.mod_eq_of_lt (by omega : i + (w - n % w) - w < w)]
      omega
    rw [decide_eq_false h, cond_false, hsum]

theorem getLsbD_rotateLeft_one (hw : 1 < w) (x : BitVec w) {i : ℕ} (hi : i < w) :
    (x.rotateLeft 1).getLsbD i = if i = 0 then x.getLsbD (w - 1) else x.getLsbD (i - 1) := by
  rw [getLsbD_rotateLeft_mod _ _ hi, Nat.mod_eq_of_lt hw]
  by_cases h : i = 0
  · rw [if_pos h, h, Nat.zero_add, Nat.mod_eq_of_lt (by omega)]
  · have hsum : i + (w - 1) = i - 1 + w := by omega
    rw [if_neg h, hsum, Nat.add_mod_right, Nat.mod_eq_of_lt (by omega)]

theorem getLsbD_rotateRight_one (x : BitVec w) {i : ℕ} (hi : i < w) :
    (x.rotateRight 1).getLsbD i = if i = w - 1 then x.getLsbD 0 else x.getLsbD (i + 1) := by
  rw [getLsbD_rotateRight_mod _ _ hi]
  by_cases h : i = w - 1
  · have hsum : i + 1 = w := by omega
    rw [if_pos h, hsum, Nat.mod_self]
  · rw [if_neg h, Nat.mod_eq_of_lt (by omega)]

/-- Rotations to the right add up. -/
theorem rotateRight_rotateRight (x : BitVec w) (m n : ℕ) :
    (x.rotateRight m).rotateRight n = x.rotateRight (n + m) := by
  refine BitVec.eq_of_getLsbD_eq fun i hi => ?_
  have hmod : (i + n) % w < w := Nat.mod_lt _ (by omega)
  rw [getLsbD_rotateRight_mod _ _ hi, getLsbD_rotateRight_mod _ _ hmod,
    getLsbD_rotateRight_mod _ _ hi, Nat.mod_add_mod, Nat.add_assoc]

theorem rotateLeft_rotateRight (n : ℕ) :
    Function.LeftInverse (fun x : BitVec w => x.rotateLeft n) fun x => x.rotateRight n := by
  intro x
  refine BitVec.eq_of_getLsbD_eq fun i hi => ?_
  have hmod : n % w < w := Nat.mod_lt _ (by omega)
  have hlt : (i + (w - n % w)) % w < w := Nat.mod_lt _ (by omega)
  have hsum : i + (w - n % w) + n % w = i + w := by omega
  rw [getLsbD_rotateLeft_mod _ _ hi, getLsbD_rotateRight_mod _ _ hlt, Nat.mod_add_mod,
    ← Nat.add_mod_mod, hsum, Nat.add_mod_right, Nat.mod_eq_of_lt hi]

theorem rotateRight_rotateLeft (n : ℕ) :
    Function.LeftInverse (fun x : BitVec w => x.rotateRight n) fun x => x.rotateLeft n := by
  intro x
  refine BitVec.eq_of_getLsbD_eq fun i hi => ?_
  have hmod : n % w < w := Nat.mod_lt _ (by omega)
  have hlt : (i + n) % w < w := Nat.mod_lt _ (by omega)
  have hsum : i + n % w + (w - n % w) = i + w := by omega
  rw [getLsbD_rotateRight_mod _ _ hi, getLsbD_rotateLeft_mod _ _ hlt, ← Nat.add_mod_mod i,
    Nat.mod_add_mod, hsum, Nat.add_mod_right, Nat.mod_eq_of_lt hi]

theorem rotateRight_iterate (n : ℕ) :
    (fun x : BitVec w => x.rotateRight 1)^[n] = fun x => x.rotateRight n := by
  induction n with
  | zero =>
    funext x
    refine BitVec.eq_of_getLsbD_eq fun i hi => ?_
    rw [getLsbD_rotateRight_mod _ _ hi, Nat.add_zero, Nat.mod_eq_of_lt hi]
    rfl
  | succ n ih =>
    funext x
    rw [Function.iterate_succ_apply', ih, rotateRight_rotateRight, Nat.add_comm]

/-- The inverse of an iterate is the iterate of the inverse. -/
theorem rotateLeft_iterate (n : ℕ) :
    (fun x : BitVec w => x.rotateLeft 1)^[n] = fun x => x.rotateLeft n := by
  have hright := (rotateRight_rotateLeft (w := w) 1).iterate n
  rw [rotateRight_iterate] at hright
  exact ((rotateLeft_rotateRight n).eq_rightInverse hright).symm

end StateProgram
