import Pc20iii.I8088.Arith
import Pc20iii.Program.CarryChain

/-!
# Numbers of several words

Additions and subtractions of numbers of any length, a word or a byte after the other: the
first pair with `ADD` or `SUB`, every other pair with `ADC` or `SBB`. The carry flag hands the
carry on, so that the words make up the exact result (`chain_last`); the overflow and the sign
flag of the last operation are those of the whole numbers, since what stands below the last
word changes neither (`signedRange_low`).
-/

namespace Pc20iii

open StateProgram

variable {w : ℕ}

/-- The number of some words, the lowest first. -/
def unsigned (xs : List (BitVec w)) : ℤ := numeral (2 ^ w) (·.toNat) (·.toNat) xs

/-- The number of some words in two's complement, the lowest first. -/
def signed (xs : List (BitVec w)) : ℤ := numeral (2 ^ w) (·.toNat) (·.toInt) xs

/-- The operations that have a result of the width of their operands. -/
abbrev Alu (w : ℕ) := Flags → BitVec w → BitVec w → BitVec w × Flags

/-- The first pair with one operation and the others with another. -/
def wordByWord (first rest : Alu w) (f : Flags) (p : BitVec w × BitVec w)
    (ps : List (BitVec w × BitVec w)) : List (BitVec w) × Flags :=
  let r := first f p.1 p.2
  let rs := chain (fun f p => rest f p.1 p.2) r.2 ps
  (r.1 :: rs.1, rs.2)

/-- The result and the flags of an addition of the numbers of the pairs. -/
structure AddsExactly (ps : List (BitVec w × BitVec w)) (r : List (BitVec w) × Flags) : Prop where
  length : r.1.length = ps.length
  sum : unsigned r.1 + r.2.c.toNat * 2 ^ (w * ps.length) =
    unsigned (ps.map Prod.fst) + unsigned (ps.map Prod.snd)
  overflow : r.2.o = true ↔
    ¬SignedRange (w * ps.length) (signed (ps.map Prod.fst) + signed (ps.map Prod.snd))
  sign : r.2.s = true ↔ signed r.1 < 0

/-- The result and the flags of a subtraction of the numbers of the pairs. -/
structure SubtractsExactly (ps : List (BitVec w × BitVec w)) (r : List (BitVec w) × Flags) :
    Prop where
  length : r.1.length = ps.length
  difference : unsigned r.1 =
    (unsigned (ps.map Prod.fst) - unsigned (ps.map Prod.snd)) % 2 ^ (w * ps.length)
  borrow : r.2.c = true ↔ unsigned (ps.map Prod.fst) < unsigned (ps.map Prod.snd)
  overflow : r.2.o = true ↔
    ¬SignedRange (w * ps.length) (signed (ps.map Prod.fst) - signed (ps.map Prod.snd))
  sign : r.2.s = true ↔ signed r.1 < 0

/-! ### The last word decides -/

theorem toNat_bounds (x : BitVec w) : 0 ≤ (x.toNat : ℤ) ∧ (x.toNat : ℤ) < 2 ^ w := by
  have hlt : ((x.toNat : ℕ) : ℤ) < ((2 ^ w : ℕ) : ℤ) := by exact_mod_cast x.isLt
  rw [Nat.cast_pow, Nat.cast_ofNat] at hlt
  exact ⟨Int.natCast_nonneg _, hlt⟩

theorem unsigned_bounds (xs : List (BitVec w)) :
    0 ≤ unsigned xs ∧ unsigned xs < 2 ^ (w * xs.length) := by
  rw [pow_mul]
  exact numeral_bounds fun x _ => toNat_bounds x

/-- A number is in the signed range of `n + 1` words if its last word is in that of one. -/
theorem signedRange_low (hw : 0 < w) {n : ℕ} {low z : ℤ} (hnonneg : 0 ≤ low)
    (hlt : low < (2 ^ w) ^ n) :
    SignedRange (w * (n + 1)) (low + (2 ^ w) ^ n * z) ↔ SignedRange w z := by
  have hexp : w * (n + 1) - 1 = w * n + (w - 1) := by
    rw [Nat.mul_succ]
    omega
  have hpow : (2 : ℤ) ^ (w * (n + 1) - 1) = (2 ^ w) ^ n * 2 ^ (w - 1) := by
    rw [hexp, pow_add, pow_mul]
  have hle := mul_le_add_mul (q := -2 ^ (w - 1)) (z := z) hnonneg hlt
  have hlt' := mul_le_add_mul (q := 2 ^ (w - 1)) (z := z) hnonneg hlt
  rw [mul_neg] at hle
  unfold SignedRange
  rw [hpow, hle, ← not_le, hlt', not_le]

/-- A number is negative if its last word is. -/
theorem neg_low {n : ℕ} {low z : ℤ} (hnonneg : 0 ≤ low) (hlt : low < (2 ^ w) ^ n) :
    low + (2 ^ w) ^ n * z < 0 ↔ z < 0 := by
  have hle := mul_le_add_mul (q := 0) (z := z) hnonneg hlt
  rw [mul_zero] at hle
  rw [← not_le, hle, not_le]

/-! ### The chains -/

section Words

variable (hw : 0 < w) (hsmall : w < 31) (f : Flags) (p : BitVec w × BitVec w)
  (ps : List (BitVec w × BitVec w))

/-- `ADD` is `ADC` with the carry flag clear. -/
theorem wordByWord_add :
    wordByWord (addFlags false) (fun f => addFlags f.c f) f p ps =
      chain (fun f p => addFlags f.c f p.1 p.2) { f with c := false } (p :: ps) := rfl

theorem wordByWord_sub :
    wordByWord (subFlags false) (fun f => subFlags f.c f) f p ps =
      chain (fun f p => subFlags f.c f p.1 p.2) { f with c := false } (p :: ps) := rfl

include hw hsmall

/-- The carry flag hands the carry from one word to the next, and the last word decides about
the flags. -/
theorem wordByWord_addsExactly :
    AddsExactly (p :: ps) (wordByWord (addFlags false) (fun f => addFlags f.c f) f p ps) := by
  have hstep : ∀ (f : Flags) (p : BitVec w × BitVec w),
      ((p.1.toNat : ℤ) + p.2.toNat) + f.c.toNat =
        (addFlags f.c f p.1 p.2).1.toNat + 2 ^ w * (addFlags f.c f p.1 p.2).2.c.toNat := by
    intro f p
    exact_mod_cast (addFlags_carry hw hsmall f.c f p.1 p.2).symm
  rw [wordByWord_add]
  -- the carries between the words cancel, and those of the last word are left
  obtain ⟨low, s, z, hnonneg, hlt, hstate, hin, hout⟩ :=
    chain_last (fun (f : Flags) (p : BitVec w × BitVec w) => addFlags f.c f p.1 p.2) hstep
      toNat_bounds { f with c := false } p ps
  have hunsigned : unsigned ((p :: ps).map Prod.fst) + unsigned ((p :: ps).map Prod.snd) =
      low + (2 ^ w) ^ ps.length * ((z.1.toNat : ℤ) + z.2.toNat + s.c.toNat) := by
    rw [unsigned, unsigned, numeral_map, numeral_map, ← numeral_add]
    exact (add_zero _).symm.trans (hin _)
  -- only the last word has a sign
  have hsigned : signed ((p :: ps).map Prod.fst) + signed ((p :: ps).map Prod.snd) =
      low + (2 ^ w) ^ ps.length * (z.1.toInt + z.2.toInt + s.c.toNat) := by
    rw [signed, signed, numeral_map, numeral_map, ← numeral_add]
    exact (add_zero _).symm.trans (hin _)
  refine ⟨length_chain .., ?_, ?_, ?_⟩
  · rw [hunsigned, unsigned, hout, hstate, hstep s z, List.length_cons, Nat.mul_succ, pow_add,
      pow_mul]
    ring
  · rw [hsigned, hstate, List.length_cons, signedRange_low hw hnonneg hlt]
    exact (addFlags_signed hw hsmall s.c s z.1 z.2).1
  · rw [signed, hout, hstate, neg_low hnonneg hlt]
    exact addFlags_sign ..

/-- The carry flag hands the borrow from one word to the next. -/
theorem wordByWord_subtractsExactly :
    SubtractsExactly (p :: ps)
      (wordByWord (subFlags false) (fun f => subFlags f.c f) f p ps) := by
  -- each word leaves the difference, with the borrow that goes on to the next
  have hstep : ∀ (f : Flags) (p : BitVec w × BitVec w),
      ((p.1.toNat : ℤ) - p.2.toNat) + -(f.c.toNat : ℤ) =
        (subFlags f.c f p.1 p.2).1.toNat + 2 ^ w * -((subFlags f.c f p.1 p.2).2.c.toNat : ℤ) := by
    intro f p
    have hborrow : ((subFlags f.c f p.1 p.2).1.toNat : ℤ) + p.2.toNat + f.c.toNat =
        p.1.toNat + 2 ^ w * (subFlags f.c f p.1 p.2).2.c.toNat := by
      exact_mod_cast subFlags_borrow hw hsmall f.c f p.1 p.2
    linear_combination -hborrow
  rw [wordByWord_sub]
  obtain ⟨low, s, z, hnonneg, hlt, hstate, hin, hout⟩ :=
    chain_last (fun (f : Flags) (p : BitVec w × BitVec w) => subFlags f.c f p.1 p.2) hstep
      toNat_bounds { f with c := false } p ps
  -- the lower words are the same for both readings, which differ in the last one
  have hunsigned : unsigned ((p :: ps).map Prod.fst) - unsigned ((p :: ps).map Prod.snd) =
      low + (2 ^ w) ^ ps.length * ((z.1.toNat : ℤ) - z.2.toNat + -s.c.toNat) := by
    rw [unsigned, unsigned, numeral_map, numeral_map, ← numeral_sub]
    exact (add_zero _).symm.trans (hin _)
  have hsigned : signed ((p :: ps).map Prod.fst) - signed ((p :: ps).map Prod.snd) =
      low + (2 ^ w) ^ ps.length * (z.1.toInt - z.2.toInt + -s.c.toNat) := by
    rw [signed, signed, numeral_map, numeral_map, ← numeral_sub]
    exact (add_zero _).symm.trans (hin _)
  have hlength := length_chain (fun (f : Flags) (p : BitVec w × BitVec w) =>
    subFlags f.c f p.1 p.2) { f with c := false } (p :: ps)
  generalize chain (fun (f : Flags) (p : BitVec w × BitVec w) => subFlags f.c f p.1 p.2)
    { f with c := false } (p :: ps) = r at hstate hout hlength ⊢
  have hcount : (2 : ℤ) ^ (w * (p :: ps).length) = (2 ^ w) ^ ps.length * 2 ^ w := by
    rw [List.length_cons, Nat.mul_succ, pow_add, pow_mul]
  -- the borrow of the last word is what is missing
  have hdiff : unsigned ((p :: ps).map Prod.fst) - unsigned ((p :: ps).map Prod.snd) =
      unsigned r.1 - 2 ^ (w * (p :: ps).length) * (subFlags s.c s z.1 z.2).2.c.toNat := by
    rw [hunsigned, unsigned, hout, hcount, hstep s z]
    ring
  obtain ⟨hpos, hbound⟩ := unsigned_bounds r.1
  rw [hlength] at hbound
  refine ⟨hlength, ?_, ?_, ?_, ?_⟩
  · rw [hdiff, Int.sub_mul_emod_self_left, Int.emod_eq_of_lt hpos hbound]
  · rw [hstate, ← sub_neg, hdiff]
    cases (subFlags s.c s z.1 z.2).2.c with
    | false => simpa using hpos
    | true => simpa using hbound
  · rw [hsigned, hstate, List.length_cons, signedRange_low hw hnonneg hlt]
    exact (subFlags_signed hw hsmall s.c s z.1 z.2).1
  · rw [signed, hout, hstate, neg_low hnonneg hlt]
    exact subFlags_sign ..

end Words

/-- **Multi-word arithmetic is exact.** For numbers of any length, in words or in bytes, `ADD`
followed by `ADC` gives the words of the sum and its carry, and `SUB` followed by `SBB` the
words of the difference and its borrow; the overflow flag says that the signed result is out
of the range of so many words, and the sign flag is its sign. -/
theorem multi_word_exact (f : Flags) :
    (∀ (p : Byte × Byte) (ps : List (Byte × Byte)),
        AddsExactly (p :: ps) (wordByWord i8088Add8 i8088Adc8 f p ps) ∧
          SubtractsExactly (p :: ps) (wordByWord i8088Sub8 i8088Sbb8 f p ps)) ∧
      ∀ (p : Word × Word) (ps : List (Word × Word)),
        AddsExactly (p :: ps) (wordByWord i8088Add16 i8088Adc16 f p ps) ∧
          SubtractsExactly (p :: ps) (wordByWord i8088Sub16 i8088Sbb16 f p ps) := by
  constructor
  · intro p ps
    exact ⟨wordByWord_addsExactly (by decide) (by decide) f p ps,
      wordByWord_subtractsExactly (by decide) (by decide) f p ps⟩
  · intro p ps
    exact ⟨wordByWord_addsExactly (by decide) (by decide) f p ps,
      wordByWord_subtractsExactly (by decide) (by decide) f p ps⟩

end Pc20iii
