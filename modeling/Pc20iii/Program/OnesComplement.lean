import Mathlib.Data.Nat.ModEq
import Mathlib.Algebra.BigOperators.Group.List.Basic
import Mathlib.Tactic.Common

/-!
# One's-complement sums

Words are added with the carry going round to the lowest bit. The sum is the number of the
words' plain sum modulo `2 ^ w - 1`, with all ones in place of zero unless every word is
zero. So a checksum may be computed by plain additions whose carry is folded afterwards.

* `onesSum_eq_allOnes_iff`: the sum is all ones exactly if the plain sum is a positive multiple
  of `2 ^ w - 1`.
* `foldCarry`: a pass over the carry keeps a number modulo `2 ^ w - 1`, and takes nothing but
  zero to zero.
* `sum_complement_of_modEq`: a plain sum and the complement of what it folds to add up to a
  positive multiple of `2 ^ w - 1`.
-/

namespace StateProgram

variable {w : ℕ}

/-- The sum of two words, the carry added at the lowest bit. -/
def onesAdd (x y : BitVec w) : BitVec w :=
  if x.toNat + y.toNat < 2 ^ w then x + y else x + y + 1

/-- The sum of words, each carry added at the lowest bit. -/
def onesSum (words : List (BitVec w)) : BitVec w := words.foldr onesAdd 0

/-- The sum of words as numbers. -/
def plainSum (words : List (BitVec w)) : ℕ := (words.map BitVec.toNat).sum

@[simp] theorem plainSum_cons (x : BitVec w) (words : List (BitVec w)) :
    plainSum (x :: words) = x.toNat + plainSum words := rfl

@[simp] theorem plainSum_append (words words' : List (BitVec w)) :
    plainSum (words ++ words') = plainSum words + plainSum words' := by
  rw [plainSum, List.map_append, List.sum_append]
  rfl

theorem plainSum_le (words : List (BitVec w)) : plainSum words ≤ words.length * (2 ^ w - 1) := by
  induction words with
  | nil => exact Nat.zero_le _
  | cons x words ih =>
    have hx : x.toNat ≤ 2 ^ w - 1 := Nat.le_sub_one_of_lt x.isLt
    rw [plainSum_cons, List.length_cons, Nat.succ_mul]
    omega

/-- The sums of two messages that differ in one word. -/
theorem plainSum_range_add {f g : ℕ → BitVec w} {n j : ℕ} (hj : j < n)
    (h : ∀ k, k ≠ j → f k = g k) :
    plainSum ((List.range n).map f) + (g j).toNat =
      plainSum ((List.range n).map g) + (f j).toNat := by
  induction n with
  | zero => cases hj
  | succ n ih =>
    have hsucc : ∀ f : ℕ → BitVec w,
        plainSum ((List.range (n + 1)).map f) = plainSum ((List.range n).map f) + (f n).toNat := by
      intro f
      rw [List.range_succ, List.map_append, plainSum_append]
      rfl
    rw [hsucc, hsucc]
    by_cases hlast : j = n
    · subst hlast
      -- the words before are the same
      have hsame : (List.range j).map f = (List.range j).map g :=
        List.map_congr_left fun k hk => h k (List.mem_range.mp hk).ne
      rw [hsame]
      omega
    · have hprefix := ih (by omega)
      rw [h n (Ne.symm hlast)]
      omega

/-- An end-around carry takes `2 ^ w - 1` from the sum. -/
theorem toNat_onesAdd (x y : BitVec w) :
    (onesAdd x y).toNat =
      if x.toNat + y.toNat < 2 ^ w then x.toNat + y.toNat
      else x.toNat + y.toNat - (2 ^ w - 1) := by
  have hx : x.toNat < 2 ^ w := x.isLt
  have hy : y.toNat < 2 ^ w := y.isLt
  rw [onesAdd]
  split
  case isTrue hlt => exact BitVec.toNat_add_of_lt hlt
  case isFalse hcarry =>
    -- without bits there is no carry
    have hw : w ≠ 0 := by
      rintro rfl
      omega
    have hone : (1 : BitVec w).toNat = 1 := BitVec.toNat_one (Nat.pos_of_ne_zero hw)
    rw [BitVec.toNat_add, BitVec.toNat_add, hone, Nat.mod_add_mod]
    have hmod : x.toNat + y.toNat + 1 = x.toNat + y.toNat - (2 ^ w - 1) + 2 ^ w := by omega
    rw [hmod, Nat.add_mod_right, Nat.mod_eq_of_lt (by omega)]

theorem toNat_onesAdd_modEq (x y : BitVec w) :
    (onesAdd x y).toNat ≡ x.toNat + y.toNat [MOD 2 ^ w - 1] := by
  rw [toNat_onesAdd]
  split
  · rfl
  case isFalse hcarry =>
    have hle : 2 ^ w - 1 ≤ x.toNat + y.toNat := by omega
    exact ((Nat.modEq_iff_dvd' (Nat.sub_le _ _)).mpr (by rw [Nat.sub_sub_self hle]))

theorem toNat_onesAdd_eq_zero_iff (x y : BitVec w) :
    (onesAdd x y).toNat = 0 ↔ x.toNat + y.toNat = 0 := by
  have hpos : 0 < 2 ^ w := Nat.two_pow_pos w
  rw [toNat_onesAdd]
  split <;> omega

theorem toNat_onesSum_modEq (words : List (BitVec w)) :
    (onesSum words).toNat ≡ plainSum words [MOD 2 ^ w - 1] := by
  induction words with
  | nil => exact congrArg (· % _) (BitVec.toNat_ofNat 0 w)
  | cons x words ih => exact (toNat_onesAdd_modEq x _).trans (ih.add_left _)

theorem toNat_onesSum_eq_zero_iff (words : List (BitVec w)) :
    (onesSum words).toNat = 0 ↔ plainSum words = 0 := by
  induction words with
  | nil => exact iff_of_true (BitVec.toNat_ofNat 0 w) rfl
  | cons x words ih =>
    have hcons : (onesSum (x :: words)).toNat = 0 ↔ x.toNat + (onesSum words).toNat = 0 :=
      toNat_onesAdd_eq_zero_iff x _
    rw [hcons, plainSum_cons]
    omega

/-- **All ones.** The words check exactly if their plain sum is a positive multiple of
`2 ^ w - 1`. -/
theorem onesSum_eq_allOnes_iff {words : List (BitVec w)} (hw : 0 < w) :
    onesSum words = BitVec.allOnes w ↔ 2 ^ w - 1 ∣ plainSum words ∧ 0 < plainSum words := by
  have hsize : 1 < 2 ^ w := Nat.one_lt_two_pow hw.ne'
  have hlt : (onesSum words).toNat < 2 ^ w := (onesSum words).isLt
  -- the folded sum is congruent to the plain one, and 0 for no other
  have hmod := toNat_onesSum_modEq words
  have hzero := toNat_onesSum_eq_zero_iff words
  rw [← BitVec.toNat_inj, BitVec.toNat_allOnes]
  constructor
  · intro hones
    rw [hones] at hmod hzero
    refine ⟨(Nat.modEq_zero_iff_dvd.mp ?_), by omega⟩
    exact hmod.symm.trans (Nat.modEq_zero_iff_dvd.mpr dvd_rfl)
  · rintro ⟨hdvd, hpos⟩
    have hdvd' : 2 ^ w - 1 ∣ (onesSum words).toNat :=
      (hmod.dvd_iff dvd_rfl).mpr hdvd
    have hle : 2 ^ w - 1 ≤ (onesSum words).toNat := Nat.le_of_dvd (by omega) hdvd'
    omega

/-! ### Folding the carry -/

/-- A pass over the carry. -/
def foldCarry (w n : ℕ) : ℕ := n % 2 ^ w + n / 2 ^ w

theorem foldCarry_modEq (w n : ℕ) : foldCarry w n ≡ n [MOD 2 ^ w - 1] := by
  have hsplit : n = foldCarry w n + (2 ^ w - 1) * (n / 2 ^ w) := by
    have hpos : 0 < 2 ^ w := Nat.two_pow_pos w
    have hdiv := Nat.mod_add_div n (2 ^ w)
    rw [foldCarry, Nat.sub_mul, Nat.one_mul]
    have hle : n / 2 ^ w ≤ 2 ^ w * (n / 2 ^ w) := Nat.le_mul_of_pos_left _ hpos
    omega
  have hmul : foldCarry w n + (2 ^ w - 1) * (n / 2 ^ w) ≡ foldCarry w n [MOD 2 ^ w - 1] :=
    Nat.add_mul_mod_self_left _ _ _
  exact hmul.symm.trans (by rw [← hsplit])

theorem foldCarry_eq_zero_iff (w n : ℕ) : foldCarry w n = 0 ↔ n = 0 := by
  have hdiv := Nat.mod_add_div n (2 ^ w)
  constructor
  · intro hzero
    have hmod : n % 2 ^ w = 0 := Nat.eq_zero_of_add_eq_zero_right hzero
    have hquot : n / 2 ^ w = 0 := Nat.eq_zero_of_add_eq_zero_left hzero
    rw [← hdiv, hmod, hquot, Nat.mul_zero]
  · rintro rfl
    rw [foldCarry, Nat.zero_mod, Nat.zero_div]

/-- **The complement.** What a plain sum has been folded to, complemented, adds to it a number
that checks. -/
theorem sum_complement_of_modEq {n r : ℕ} (hr : r < 2 ^ w) (hmod : r ≡ n [MOD 2 ^ w - 1])
    (hzero : r = 0 ↔ n = 0) (hw : 0 < w) :
    2 ^ w - 1 ∣ n + (2 ^ w - 1 - r) ∧ 0 < n + (2 ^ w - 1 - r) := by
  have hsize : 1 < 2 ^ w := Nat.one_lt_two_pow hw.ne'
  constructor
  · have hsum : r + (2 ^ w - 1 - r) = 2 ^ w - 1 := Nat.add_sub_of_le (by omega)
    have hadd : r + (2 ^ w - 1 - r) ≡ n + (2 ^ w - 1 - r) [MOD 2 ^ w - 1] := hmod.add_right _
    exact (hadd.dvd_iff dvd_rfl).mp (dvd_of_eq hsum.symm)
  · by_cases h : r = 0
    · rw [h]
      omega
    · have hn : n ≠ 0 := mt hzero.mpr h
      omega

end StateProgram
