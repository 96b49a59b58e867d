import Pc20iii.I8088.Arith
import Pc20iii.I8088.Execute
import Pc20iii.Program.CarryChain

/-!
# Decimal numbers of several bytes

Additions and subtractions of decimal numbers of any length, packed (two digits a byte) or
unpacked (one digit a byte), a byte after the other: each operation of the ALU is followed by the
adjustment of its result, and the carry flag that the adjustment leaves goes into the next
operation.

`decimal_exact` says that the adjusted bytes are the digits of the sum or the difference, and
that the carry flag is the decimal carry or borrow after every byte. For one byte these are
`AddsByte` and `SubtractsByte`: what an adjustment does depends on the auxiliary carry, the carry
and a limit that changes with the former, and for digits it is done exactly where the sum of the
lower digits or of both is too large (`adjustsLow_add`, `adjustsHigh_add`).
-/

namespace Pc20iii

open StateProgram

/-! ### Numbers -/

/-- A way to write decimal digits into bytes. -/
inductive Encoding where
  /-- Two digits a byte. -/
  | packed
  /-- One digit a byte. -/
  | unpacked

namespace Encoding

/-- The number of values of a byte. -/
def base : Encoding → ℤ
  | packed => 100
  | unpacked => 10

/-- The digits of a byte are 0 to 9. -/
def Valid : Encoding → Byte → Prop
  | packed, x => x.toNat / 16 ≤ 9 ∧ x.toNat % 16 ≤ 9
  | unpacked, x => x.toNat ≤ 9

instance (e : Encoding) (x : Byte) : Decidable (e.Valid x) :=
  match e with
  | packed => inferInstanceAs (Decidable (_ ∧ _))
  | unpacked => inferInstanceAs (Decidable (_ ≤ _))

/-- The value of a byte. -/
def value : Encoding → Byte → ℤ
  | packed, x => (10 * (x.toNat / 16) + x.toNat % 16 : ℕ)
  | unpacked, x => (x.toNat : ℕ)

/-- The number of some bytes, the lowest first. -/
def number (e : Encoding) (xs : List Byte) : ℤ := numeral e.base e.value e.value xs

end Encoding

/-! ### The chain -/

/-- One byte of a chain: an operation of the ALU on `al`, and its adjustment. The result is `al`
and the carry flag. -/
def decimalStep (op : Flags → Byte → Byte → Byte × Flags) (adjust : I8088 → I8088) (c : I8088)
    (p : Byte × Byte) : (Byte × Bool) × I8088 :=
  let r := op c.flags p.1 p.2
  let c := adjust ({ c with flags := r.2 }.setAl r.1)
  ((c.al, c.flags.c), c)

/-- The first pair of bytes with one operation and the others with another. -/
def byteByByte (first rest : Flags → Byte → Byte → Byte × Flags) (adjust : I8088 → I8088)
    (c : I8088) (p : Byte × Byte) (ps : List (Byte × Byte)) : List (Byte × Bool) × I8088 :=
  let r := decimalStep first adjust c p
  let rs := chain (decimalStep rest adjust) r.2 ps
  (r.1 :: rs.1, rs.2)

/-- The sum of the numbers of the pairs. -/
def Encoding.total (e : Encoding) (ps : List (Byte × Byte)) : ℤ :=
  e.number (ps.map Prod.fst) + e.number (ps.map Prod.snd)

/-- The difference of the numbers of the pairs. -/
def Encoding.difference (e : Encoding) (ps : List (Byte × Byte)) : ℤ :=
  e.number (ps.map Prod.fst) - e.number (ps.map Prod.snd)

/-- The result of an addition of the numbers of the pairs. -/
structure AddsDecimal (e : Encoding) (ps : List (Byte × Byte)) (r : List (Byte × Bool) × I8088) :
    Prop where
  length : r.1.length = ps.length
  valid : ∀ x ∈ r.1.map Prod.fst, e.Valid x
  sum : e.number (r.1.map Prod.fst) = e.total ps % e.base ^ ps.length
  /-- The carry flag after every adjustment is the carry out of the digits so far. -/
  carries : r.1.map Prod.snd = (List.range ps.length).map fun k =>
    decide (e.base ^ (k + 1) ≤ e.total (ps.take (k + 1)))
  carry : r.2.flags.c = true ↔ e.base ^ ps.length ≤ e.total ps

/-- The result of a subtraction of the numbers of the pairs. -/
structure SubtractsDecimal (e : Encoding) (ps : List (Byte × Byte))
    (r : List (Byte × Bool) × I8088) : Prop where
  length : r.1.length = ps.length
  valid : ∀ x ∈ r.1.map Prod.fst, e.Valid x
  difference : e.number (r.1.map Prod.fst) = e.difference ps % e.base ^ ps.length
  /-- The carry flag after every adjustment is the borrow of the digits so far. -/
  borrows : r.1.map Prod.snd = (List.range ps.length).map fun k =>
    decide (e.difference (ps.take (k + 1)) < 0)
  borrow : r.2.flags.c = true ↔ e.difference ps < 0

/-- Both bytes of a pair are digits. -/
def Encoding.ValidPair (e : Encoding) (p : Byte × Byte) : Prop := e.Valid p.1 ∧ e.Valid p.2

instance (e : Encoding) (p : Byte × Byte) : Decidable (e.ValidPair p) :=
  inferInstanceAs (Decidable (_ ∧ _))

/-! ### The adjustments -/

section Adjust

variable (c : I8088)

@[simp] theorem al_setAl (v : Byte) : (c.setAl v).al = v := lowByte_wordOf ..

@[simp] theorem al_setAh (v : Byte) : (c.setAh v).al = c.al := lowByte_wordOf ..

@[simp] theorem flags_setAl (v : Byte) : (c.setAl v).flags = c.flags := rfl

@[simp] theorem al_setAlFlags (o : Bool) : (c.setAlFlags o).al = c.al := rfl

@[simp] theorem c_setAlFlags (o : Bool) : (c.setAlFlags o).flags.c = c.flags.c := rfl

/-- The test of the lower digit, of `AAA` and `AAS` the only one. -/
def I8088.AdjustsLow : Prop := c.al &&& 0x0F > 9 ∨ c.flags.a = true

instance : Decidable c.AdjustsLow := inferInstanceAs (Decidable (_ ∨ _))

/-- The test of the upper digit. -/
def I8088.AdjustsHigh : Prop := c.al > (if c.flags.a then 0x9F else 0x99) ∨ c.flags.c = true

instance : Decidable c.AdjustsHigh := inferInstanceAs (Decidable (_ ∨ _))

/-- The adjustment of the lower digit in `DAA` and `DAS`. -/
def I8088.adjustLow (al : Byte) : I8088 :=
  if c.AdjustsLow then { c.setAl al with flags := { c.flags with a := true } } else c

/-- The adjustment of the upper digit, behind that of the lower one. -/
def I8088.adjustHigh (high : Prop) [Decidable high] (al : Byte) : I8088 :=
  if high then { c.setAl al with flags := { c.flags with c := true } } else c

theorem adjustLow_al (al : Byte) :
    (c.adjustLow al).al = if c.AdjustsLow then al else c.al := by
  unfold I8088.adjustLow
  split
  · exact al_setAl c al
  · rfl

theorem adjustLow_c (al : Byte) : (c.adjustLow al).flags.c = c.flags.c := by
  unfold I8088.adjustLow
  split <;> rfl

theorem adjustHigh_al (high : Prop) [Decidable high] (al : Byte) :
    (c.adjustHigh high al).al = if high then al else c.al := by
  unfold I8088.adjustHigh
  split
  · exact al_setAl c al
  · rfl

theorem adjustHigh_c {high : Prop} [Decidable high] (al : Byte) (h : c.flags.c = true → high) :
    (c.adjustHigh high al).flags.c = true ↔ high := by
  unfold I8088.adjustHigh
  split
  case isTrue hhigh => exact iff_of_true rfl hhigh
  case isFalse hhigh => exact iff_of_false (mt h hhigh) hhigh

/-- `al` and the carry flag after the two adjustments. -/
theorem adjust_eq (low high : Byte → Byte) (o : Bool) {r : I8088}
    (hr : r = ((c.adjustLow (low c.al)).adjustHigh
      (c.al > (if c.flags.a then 0x9F else 0x99) ∨ (c.adjustLow (low c.al)).flags.c = true)
      (high (c.adjustLow (low c.al)).al)).setAlFlags o) :
    r.al = (if c.AdjustsHigh then high (if c.AdjustsLow then low c.al else c.al)
        else if c.AdjustsLow then low c.al else c.al) ∧
      (r.flags.c = true ↔ c.AdjustsHigh) := by
  subst hr
  have hkeeps := adjustLow_c c (low c.al)
  rw [al_setAlFlags, c_setAlFlags, adjustHigh_al, adjustHigh_c _ _ .inr, adjustLow_al]
  simp only [hkeeps]
  exact ⟨rfl, Iff.rfl⟩

theorem daa_eq :
    (i8088Daa c).al = (if c.AdjustsHigh then (if c.AdjustsLow then c.al + 6 else c.al) + 0x60
        else if c.AdjustsLow then c.al + 6 else c.al) ∧
      ((i8088Daa c).flags.c = true ↔ c.AdjustsHigh) :=
  adjust_eq c (· + 6) (· + 0x60) _ rfl

theorem das_eq :
    (i8088Das c).al = (if c.AdjustsHigh then (if c.AdjustsLow then c.al - 6 else c.al) - 0x60
        else if c.AdjustsLow then c.al - 6 else c.al) ∧
      ((i8088Das c).flags.c = true ↔ c.AdjustsHigh) :=
  adjust_eq c (· - 6) (· - 0x60) _ rfl

/-- The adjustment of the digit in `AAA` and `AAS`, where `adjusted` has its bytes. -/
def I8088.adjustDigit (adjusted : I8088) : I8088 :=
  if c.AdjustsLow then
    { adjusted with flags := { adjusted.flags with a := true, c := true } }
  else { c with flags := { c.flags with a := false, c := false } }

/-- `al` and the carry flag after the adjustment. -/
theorem adjustDigit_eq {adjusted r : I8088} (o : Bool)
    (hr : r =
      ((c.adjustDigit adjusted).setAlFlags o).setAl ((c.adjustDigit adjusted).al &&& 0x0F)) :
    r.al = (if c.AdjustsLow then adjusted.al else c.al) &&& 0x0F ∧
      (r.flags.c = true ↔ c.AdjustsLow) := by
  subst hr
  rw [al_setAl, flags_setAl, c_setAlFlags]
  unfold I8088.adjustDigit
  split
  case isTrue hlow => exact ⟨rfl, iff_of_true rfl hlow⟩
  case isFalse hlow => exact ⟨rfl, iff_of_false nofun hlow⟩

theorem aaa_eq :
    (i8088Aaa c).al = (if c.AdjustsLow then c.al + 6 else c.al) &&& 0x0F ∧
      ((i8088Aaa c).flags.c = true ↔ c.AdjustsLow) := by
  have hal : ((c.setAh (c.ah + 1)).setAl ((c.setAh (c.ah + 1)).al + 6)).al = c.al + 6 := by
    rw [al_setAl, al_setAh]
  have haaa := adjustDigit_eq c (r := i8088Aaa c) _ rfl
  rwa [hal] at haaa

theorem aas_eq :
    (i8088Aas c).al = (if c.AdjustsLow then c.al - 6 else c.al) &&& 0x0F ∧
      ((i8088Aas c).flags.c = true ↔ c.AdjustsLow) := by
  have hal : ((c.setAl (c.al - 6)).setAh ((c.setAl (c.al - 6)).ah - 1)).al = c.al - 6 := by
    rw [al_setAh, al_setAl]
  have haas := adjustDigit_eq c (r := i8088Aas c) _ rfl
  rwa [hal] at haas

end Adjust

/-! ### One byte -/

section Byte

variable {c : I8088} {x y : Byte}

theorem toNat_and_nibble (x : Byte) : (x &&& 0x0F).toNat = x.toNat % 16 := by
  have hmask : (0x0F : Byte).toNat = 2 ^ 4 - 1 := rfl
  rw [BitVec.toNat_and, hmask, Nat.and_two_pow_sub_one_eq_mod]

theorem adjustsLow_iff : c.AdjustsLow ↔ 9 < c.al.toNat % 16 ∨ c.flags.a = true := by
  have hnine : (9 : Byte).toNat = 9 := rfl
  rw [I8088.AdjustsLow, gt_iff_lt, BitVec.lt_def, toNat_and_nibble, hnine]

/-- The limit for the upper digit is six more with the auxiliary carry. -/
theorem adjustsHigh_iff :
    c.AdjustsHigh ↔ 0x99 + 6 * c.flags.a.toNat < c.al.toNat ∨ c.flags.c = true := by
  have hlimit : (if c.flags.a then 0x9F else 0x99 : Byte).toNat = 0x99 + 6 * c.flags.a.toNat := by
    cases c.flags.a <;> rfl
  rw [I8088.AdjustsHigh, gt_iff_lt, BitVec.lt_def, hlimit]

/-- What an operation of the ALU hands to the adjustment. -/
def I8088.withResult (c : I8088) (r : Byte × Flags) : I8088 := { c with flags := r.2 }.setAl r.1

@[simp] theorem al_withResult (c : I8088) (r : Byte × Flags) : (c.withResult r).al = r.1 :=
  al_setAl ..

@[simp] theorem flags_withResult (c : I8088) (r : Byte × Flags) : (c.withResult r).flags = r.2 :=
  rfl

section Add

variable (hx : x.toNat % 16 ≤ 9) (hy : y.toNat % 16 ≤ 9)

include hx hy

/-- The lower digit of a sum is adjusted if the sum of the lower digits is no digit. -/
theorem adjustsLow_add :
    (c.withResult (i8088Adc8 c.flags x y)).AdjustsLow ↔
      9 < x.toNat % 16 + y.toNat % 16 + c.flags.c.toNat := by
  have hsum := addFlags_carry (w := 8) (by decide) (by decide) c.flags.c c.flags x y
  have ha := addFlags_a (w := 8) (by decide) c.flags.c c.flags x y
  have hcarry := Bool.toNat_le c.flags.c
  rw [adjustsLow_iff, al_withResult, flags_withResult, i8088Adc8, ha, decide_eq_true_iff]
  omega

/-- The upper digit of a sum is adjusted if the sum has more than two digits. -/
theorem adjustsHigh_add :
    (c.withResult (i8088Adc8 c.flags x y)).AdjustsHigh ↔
      100 ≤ 10 * (x.toNat / 16 + y.toNat / 16) +
        (x.toNat % 16 + y.toNat % 16 + c.flags.c.toNat) := by
  have hsum := addFlags_carry (w := 8) (by decide) (by decide) c.flags.c c.flags x y
  have ha := addFlags_a (w := 8) (by decide) c.flags.c c.flags x y
  have hcarry := Bool.toNat_le c.flags.c
  have hdigits : x.toNat + y.toNat + c.flags.c.toNat =
      16 * (x.toNat / 16 + y.toNat / 16) + (x.toNat % 16 + y.toNat % 16 + c.flags.c.toNat) := by
    omega
  have hlow : x.toNat % 16 + y.toNat % 16 + c.flags.c.toNat ≤ 19 := by omega
  rw [hdigits] at hsum
  rw [adjustsHigh_iff, al_withResult, flags_withResult, i8088Adc8, ha]
  -- only the sum of the digits matters, not the operands
  generalize addFlags c.flags.c c.flags x y = r at hsum ⊢
  generalize x.toNat % 16 + y.toNat % 16 + c.flags.c.toNat = low at hsum hlow ⊢
  generalize x.toNat / 16 + y.toNat / 16 = high at hsum ⊢
  have hal := r.1.isLt
  by_cases hhalf : 16 ≤ low
  all_goals
    simp only [hhalf, decide_true, decide_false, Bool.toNat_true, Bool.toNat_false]
    cases hc : r.2.c
    all_goals
      rw [hc] at hsum
      simp only [Bool.toNat_true, Bool.toNat_false, Bool.false_eq_true, or_false, or_true,
        true_iff] at hsum ⊢
      omega

end Add

section Subtract

variable (hx : x.toNat % 16 ≤ 9) (hy : y.toNat % 16 ≤ 9)

include hx hy

/-- The lower digit of a difference is adjusted if the difference of the lower digits is
negative. -/
theorem adjustsLow_sub :
    (c.withResult (i8088Sbb8 c.flags x y)).AdjustsLow ↔
      (x.toNat % 16 : ℤ) - (y.toNat % 16 : ℤ) - c.flags.c.toNat < 0 := by
  have hdiff := subFlags_borrow (w := 8) (by decide) (by decide) c.flags.c c.flags x y
  have ha := subFlags_a (w := 8) (by decide) c.flags.c c.flags x y
  have hcarry := Bool.toNat_le c.flags.c
  rw [adjustsLow_iff, al_withResult, flags_withResult, i8088Sbb8, ha, decide_eq_true_iff]
  omega

/-- The upper digit of a difference is adjusted if the difference is negative. -/
theorem adjustsHigh_sub (hx' : x.toNat / 16 ≤ 9) :
    (c.withResult (i8088Sbb8 c.flags x y)).AdjustsHigh ↔
      10 * ((x.toNat / 16 : ℤ) - (y.toNat / 16 : ℤ)) +
        ((x.toNat % 16 : ℤ) - (y.toNat % 16 : ℤ) - c.flags.c.toNat) < 0 := by
  have hdiff := subFlags_borrow (w := 8) (by decide) (by decide) c.flags.c c.flags x y
  have ha := subFlags_a (w := 8) (by decide) c.flags.c c.flags x y
  have hcarry := Bool.toNat_le c.flags.c
  rw [adjustsHigh_iff, al_withResult, flags_withResult, i8088Sbb8, ha]
  generalize subFlags c.flags.c c.flags x y = r at hdiff ⊢
  have hal := r.1.isLt
  -- the lower digit may borrow from the upper one, and the byte from the next
  by_cases hhalf : x.toNat % 16 < y.toNat % 16 + c.flags.c.toNat
  all_goals
    simp only [hhalf, decide_true, decide_false, Bool.toNat_true, Bool.toNat_false]
    cases hc : r.2.c
    all_goals
      rw [hc] at hdiff
      simp only [Bool.toNat_true, Bool.toNat_false, Bool.false_eq_true, or_false, or_true,
        true_iff] at hdiff ⊢
      omega

end Subtract

/-- One byte of an addition: its digits and the carry make up the sum. -/
structure AddsByte (e : Encoding) (c : I8088) (p : Byte × Byte) (r : (Byte × Bool) × I8088) :
    Prop where
  valid : e.Valid r.1.1
  sum : e.value p.1 + e.value p.2 + c.flags.c.toNat = e.value r.1.1 + e.base * r.2.flags.c.toNat

/-- One byte of a subtraction: its digits and the borrow make up the difference. -/
structure SubtractsByte (e : Encoding) (c : I8088) (p : Byte × Byte) (r : (Byte × Bool) × I8088) :
    Prop where
  valid : e.Valid r.1.1
  difference :
    e.value p.1 - e.value p.2 - c.flags.c.toNat = e.value r.1.1 - e.base * r.2.flags.c.toNat

/-! ### Packed digits -/

/-- The digits of a packed byte. -/
theorem packed_digits {r : Byte} {tens ones : ℤ} (htens : 0 ≤ tens ∧ tens ≤ 9)
    (hones : 0 ≤ ones ∧ ones ≤ 9) (hr : (r.toNat : ℤ) = 16 * tens + ones) :
    Encoding.packed.Valid r ∧ Encoding.packed.value r = 10 * tens + ones := by
  constructor
  · show r.toNat / 16 ≤ 9 ∧ r.toNat % 16 ≤ 9
    omega
  · show ((10 * (r.toNat / 16) + r.toNat % 16 : ℕ) : ℤ) = _
    omega

/-- The binary sum of two bytes, adjusted to the digits of the decimal sum. -/
theorem daa_digits {al : Byte} {carry : Bool} (high low : ℕ) (hhigh : high ≤ 18)
    (hlow : low ≤ 19) (hsum : al.toNat + 2 ^ 8 * carry.toNat = 16 * high + low) :
    ∃ tens ones : ℤ, (0 ≤ tens ∧ tens ≤ 9) ∧ (0 ≤ ones ∧ ones ≤ 9) ∧
      ((if 100 ≤ 10 * high + low then (if 9 < low then al + 6 else al) + 0x60
        else if 9 < low then al + 6 else al).toNat : ℤ) = 16 * tens + ones ∧
      (10 * high + low : ℤ) =
        10 * tens + ones + 100 * (decide (100 ≤ 10 * high + low)).toNat := by
  have hal := al.isLt
  have hcarry := Bool.toNat_le carry
  -- a hundred goes into the carry, a ten of the lower digit into the upper one
  by_cases hfull : 100 ≤ 10 * high + low
  · rw [if_pos hfull, decide_eq_true hfull, Bool.toNat_true]
    by_cases hten : 9 < low
    · refine ⟨high + 1 - 10, low - 10, by omega, by omega, ?_, by omega⟩
      rw [if_pos hten]
      show ((((al.toNat + 6) % 256 + 0x60) % 256 : ℕ) : ℤ) = _
      omega
    · refine ⟨high - 10, low, by omega, by omega, ?_, by omega⟩
      rw [if_neg hten]
      show (((al.toNat + 0x60) % 256 : ℕ) : ℤ) = _
      omega
  · rw [if_neg hfull, decide_eq_false hfull, Bool.toNat_false]
    by_cases hten : 9 < low
    · refine ⟨high + 1, low - 10, by omega, by omega, ?_, by omega⟩
      rw [if_pos hten]
      show (((al.toNat + 6) % 256 : ℕ) : ℤ) = _
      omega
    · refine ⟨high, low, by omega, by omega, ?_, by omega⟩
      rw [if_neg hten]
      omega

/-- The binary difference of two bytes, adjusted to the digits of the decimal difference. -/
theorem das_digits (al : Byte) (borrow : Bool) (high low : ℤ) (hhigh : -9 ≤ high ∧ high ≤ 9)
    (hlow : -10 ≤ low ∧ low ≤ 9) (hdiff : al.toNat - 2 ^ 8 * borrow.toNat = 16 * high + low) :
    ∃ tens ones : ℤ, (0 ≤ tens ∧ tens ≤ 9) ∧ (0 ≤ ones ∧ ones ≤ 9) ∧
      ((if 10 * high + low < 0 then (if low < 0 then al - 6 else al) - 0x60
        else if low < 0 then al - 6 else al).toNat : ℤ) = 16 * tens + ones ∧
      10 * high + low = 10 * tens + ones - 100 * (decide (10 * high + low < 0)).toNat := by
  have hal := al.isLt
  have hborrow := Bool.toNat_le borrow
  -- both adjustments wrap at 256, so each of the four cases has its own digits
  by_cases hfull : 10 * high + low < 0
  · rw [if_pos hfull, decide_eq_true hfull, Bool.toNat_true]
    by_cases hten : low < 0
    · refine ⟨high - 1 + 10, low + 10, by omega, by omega, ?_, by omega⟩
      rw [if_pos hten, BitVec.toNat_sub, BitVec.toNat_sub]
      show (((256 - 0x60 + (256 - 6 + al.toNat) % 256) % 256 : ℕ) : ℤ) = _
      omega
    · refine ⟨high + 10, low, by omega, by omega, ?_, by omega⟩
      rw [if_neg hten, BitVec.toNat_sub]
      show (((256 - 0x60 + al.toNat) % 256 : ℕ) : ℤ) = _
      omega
  · rw [if_neg hfull, decide_eq_false hfull, Bool.toNat_false]
    by_cases hten : low < 0
    · refine ⟨high - 1, low + 10, by omega, by omega, ?_, by omega⟩
      rw [if_pos hten, BitVec.toNat_sub]
      show (((256 - 6 + al.toNat) % 256 : ℕ) : ℤ) = _
      omega
    · refine ⟨high, low, by omega, by omega, ?_, by omega⟩
      rw [if_neg hten]
      omega

section Packed

variable {p : Byte × Byte} (hp : Encoding.packed.ValidPair p)

include hp

/-- A step of a packed addition keeps digits, and conserves the value with the carry. -/
theorem addsByte_packed : AddsByte .packed c p (decimalStep i8088Adc8 i8088Daa c p) := by
  obtain ⟨x, y⟩ := p
  obtain ⟨⟨hx, hx'⟩, hy, hy'⟩ : (x.toNat / 16 ≤ 9 ∧ x.toNat % 16 ≤ 9) ∧
    y.toNat / 16 ≤ 9 ∧ y.toNat % 16 ≤ 9 := hp
  have hsum := addFlags_carry (w := 8) (by decide) (by decide) c.flags.c c.flags x y
  have hcarry := Bool.toNat_le c.flags.c
  -- what `DAA` looks at is whether the digits of the sum are at least ten
  have hlow := adjustsLow_add (c := c) hx' hy'
  have hhigh := adjustsHigh_add (c := c) hx' hy'
  obtain ⟨hal, hc⟩ := daa_eq (c.withResult (i8088Adc8 c.flags x y))
  obtain ⟨tens, ones, htens, hones, hdigits, htotal⟩ := daa_digits
    (x.toNat / 16 + y.toNat / 16) (x.toNat % 16 + y.toNat % 16 + c.flags.c.toNat)
    (by omega) (by omega) (hsum.trans (by omega))
  simp only [hlow, hhigh, al_withResult] at hal
  replace hc := Bool.eq_iff_iff.mpr ((hc.trans hhigh).trans decide_eq_true_iff.symm)
  obtain ⟨hvalid, hvalue⟩ := packed_digits htens hones (hal ▸ hdigits)
  refine ⟨hvalid, ?_⟩
  -- both sides as sums of digits
  show ((10 * (x.toNat / 16) + x.toNat % 16 : ℕ) : ℤ) + (10 * (y.toNat / 16) + y.toNat % 16 : ℕ) +
    c.flags.c.toNat = Encoding.packed.value (i8088Daa (c.withResult (i8088Adc8 c.flags x y))).al +
      100 * (i8088Daa (c.withResult (i8088Adc8 c.flags x y))).flags.c.toNat
  rw [hvalue, hc, ← htotal]
  omega

/-- A step of a packed subtraction keeps digits, and conserves the value with the borrow. -/
theorem subtractsByte_packed :
    SubtractsByte .packed c p (decimalStep i8088Sbb8 i8088Das c p) := by
  obtain ⟨x, y⟩ := p
  obtain ⟨⟨hx, hx'⟩, hy, hy'⟩ : (x.toNat / 16 ≤ 9 ∧ x.toNat % 16 ≤ 9) ∧
    y.toNat / 16 ≤ 9 ∧ y.toNat % 16 ≤ 9 := hp
  have hdiff := subFlags_borrow (w := 8) (by decide) (by decide) c.flags.c c.flags x y
  have hcarry := Bool.toNat_le c.flags.c
  -- what `DAS` looks at is whether the digits of the difference are negative
  have hlow := adjustsLow_sub (c := c) hx' hy'
  have hhigh := adjustsHigh_sub (c := c) hx' hy' hx
  obtain ⟨hal, hc⟩ := das_eq (c.withResult (i8088Sbb8 c.flags x y))
  obtain ⟨tens, ones, htens, hones, hdigits, htotal⟩ := das_digits
    (i8088Sbb8 c.flags x y).1 (i8088Sbb8 c.flags x y).2.c
    ((x.toNat / 16 : ℤ) - (y.toNat / 16 : ℤ))
    ((x.toNat % 16 : ℤ) - (y.toNat % 16 : ℤ) - c.flags.c.toNat)
    (by omega) (by omega) (by rw [i8088Sbb8]; omega)
  simp only [hlow, hhigh, al_withResult] at hal
  replace hc := Bool.eq_iff_iff.mpr ((hc.trans hhigh).trans decide_eq_true_iff.symm)
  obtain ⟨hvalid, hvalue⟩ := packed_digits htens hones (hal ▸ hdigits)
  refine ⟨hvalid, ?_⟩
  -- both sides as sums of digits
  show ((10 * (x.toNat / 16) + x.toNat % 16 : ℕ) : ℤ) - (10 * (y.toNat / 16) + y.toNat % 16 : ℕ) -
    c.flags.c.toNat = Encoding.packed.value (i8088Das (c.withResult (i8088Sbb8 c.flags x y))).al -
      100 * (i8088Das (c.withResult (i8088Sbb8 c.flags x y))).flags.c.toNat
  rw [hvalue, hc, ← htotal]
  omega

end Packed

/-! ### Unpacked digits -/

section Unpacked

variable {p : Byte × Byte} (hp : Encoding.unpacked.ValidPair p)

include hp

/-- A step of an unpacked addition. -/
theorem addsByte_unpacked : AddsByte .unpacked c p (decimalStep i8088Adc8 i8088Aaa c p) := by
  obtain ⟨x, y⟩ := p
  obtain ⟨hx, hy⟩ : x.toNat ≤ 9 ∧ y.toNat ≤ 9 := hp
  have hsum : (i8088Adc8 c.flags x y).1.toNat + 2 ^ 8 * (i8088Adc8 c.flags x y).2.c.toNat =
    x.toNat + y.toNat + c.flags.c.toNat := addFlags_carry (by decide) (by decide) ..
  have hcarry := Bool.toNat_le c.flags.c
  have hlow := adjustsLow_add (x := x) (y := y) (c := c) (by omega) (by omega)
  rw [Nat.mod_eq_of_lt (by omega), Nat.mod_eq_of_lt (by omega)] at hlow
  obtain ⟨hal, hc⟩ := aaa_eq (c.withResult (i8088Adc8 c.flags x y))
  simp only [hlow, al_withResult] at hal
  replace hc := Bool.eq_iff_iff.mpr ((hc.trans hlow).trans decide_eq_true_iff.symm)
  -- an unpacked byte is its digit
  suffices hdigit : (i8088Aaa (c.withResult (i8088Adc8 c.flags x y))).al.toNat ≤ 9 ∧
      (x.toNat : ℤ) + y.toNat + c.flags.c.toNat =
        (i8088Aaa (c.withResult (i8088Adc8 c.flags x y))).al.toNat +
          10 * (i8088Aaa (c.withResult (i8088Adc8 c.flags x y))).flags.c.toNat from
    ⟨hdigit.1, hdigit.2⟩
  rw [hal, hc, toNat_and_nibble]
  have hlt := (i8088Adc8 c.flags x y).1.isLt
  -- six more make the lower nibble that of the digit
  by_cases hten : 9 < x.toNat + y.toNat + c.flags.c.toNat
  · rw [if_pos hten, decide_eq_true hten, Bool.toNat_true]
    have hsix : ((i8088Adc8 c.flags x y).1 + 6).toNat =
      ((i8088Adc8 c.flags x y).1.toNat + 6) % 256 := rfl
    omega
  · rw [if_neg hten, decide_eq_false hten, Bool.toNat_false]
    omega

/-- A step of an unpacked subtraction. -/
theorem subtractsByte_unpacked :
    SubtractsByte .unpacked c p (decimalStep i8088Sbb8 i8088Aas c p) := by
  obtain ⟨x, y⟩ := p
  obtain ⟨hx, hy⟩ : x.toNat ≤ 9 ∧ y.toNat ≤ 9 := hp
  have hdiff : (i8088Sbb8 c.flags x y).1.toNat + y.toNat + c.flags.c.toNat =
    x.toNat + 2 ^ 8 * (i8088Sbb8 c.flags x y).2.c.toNat :=
      subFlags_borrow (by decide) (by decide) ..
  have hcarry := Bool.toNat_le c.flags.c
  have hlow := adjustsLow_sub (x := x) (y := y) (c := c) (by omega) (by omega)
  rw [Int.emod_eq_of_lt (by omega) (by omega), Int.emod_eq_of_lt (by omega) (by omega)] at hlow
  obtain ⟨hal, hc⟩ := aas_eq (c.withResult (i8088Sbb8 c.flags x y))
  simp only [hlow, al_withResult] at hal
  replace hc := Bool.eq_iff_iff.mpr ((hc.trans hlow).trans decide_eq_true_iff.symm)
  suffices hdigit : (i8088Aas (c.withResult (i8088Sbb8 c.flags x y))).al.toNat ≤ 9 ∧
      (x.toNat : ℤ) - y.toNat - c.flags.c.toNat =
        (i8088Aas (c.withResult (i8088Sbb8 c.flags x y))).al.toNat -
          10 * (i8088Aas (c.withResult (i8088Sbb8 c.flags x y))).flags.c.toNat from
    ⟨hdigit.1, hdigit.2⟩
  rw [hal, hc, toNat_and_nibble]
  have hlt := (i8088Sbb8 c.flags x y).1.isLt
  -- a borrow adds ten: the byte wrapped at 256 and `AAS` takes six off
  by_cases hten : (x.toNat : ℤ) - y.toNat - c.flags.c.toNat < 0
  · rw [if_pos hten, decide_eq_true hten, Bool.toNat_true]
    have hsix : ((i8088Sbb8 c.flags x y).1 - 6).toNat =
      (256 - 6 + (i8088Sbb8 c.flags x y).1.toNat) % 256 := BitVec.toNat_sub ..
    omega
  · rw [if_neg hten, decide_eq_false hten, Bool.toNat_false]
    omega

end Unpacked

end Byte

/-! ### Numbers of any length -/

/-- A byte that is valid has a value below the base. -/
theorem Encoding.value_bounds {e : Encoding} {x : Byte} (hx : e.Valid x) :
    0 ≤ e.value x ∧ e.value x < e.base := by
  cases e with
  | packed =>
    obtain ⟨htens, hones⟩ : x.toNat / 16 ≤ 9 ∧ x.toNat % 16 ≤ 9 := hx
    have hvalue : Encoding.packed.value x = (10 * (x.toNat / 16) + x.toNat % 16 : ℕ) := rfl
    have hbase : Encoding.packed.base = 100 := rfl
    omega
  | unpacked =>
    have hx : x.toNat ≤ 9 := hx
    have hvalue : Encoding.unpacked.value x = (x.toNat : ℕ) := rfl
    have hbase : Encoding.unpacked.base = 10 := rfl
    omega

/-- A number below a modulus and a carry of one modulus are the remainder and whether there is
a carry. -/
theorem remainder_carry {carry : Bool} {total rest modulus : ℤ} (hnonneg : 0 ≤ rest)
    (hlt : rest < modulus) (htotal : total = rest + modulus * carry.toNat) :
    rest = total % modulus ∧ (carry = true ↔ modulus ≤ total) := by
  subst htotal
  constructor
  · rw [Int.add_mul_emod_self_left, Int.emod_eq_of_lt hnonneg hlt]
  · cases carry with
    | false => simpa using hlt
    | true => simpa using hnonneg

theorem remainder_borrow {borrow : Bool} {total rest modulus : ℤ} (hnonneg : 0 ≤ rest)
    (hlt : rest < modulus) (htotal : total = rest - modulus * borrow.toNat) :
    rest = total % modulus ∧ (borrow = true ↔ total < 0) := by
  subst htotal
  constructor
  · rw [Int.sub_mul_emod_self_left, Int.emod_eq_of_lt hnonneg hlt]
  · cases borrow with
    | false => simpa using hnonneg
    | true => simpa using hlt

section Chain

variable {e : Encoding} {op : Flags → Byte → Byte → Byte × Flags} {adjust : I8088 → I8088}
  {c : I8088} (hc : c.flags.c = false) {ps : List (Byte × Byte)}

/-- What the carry flag says at the end of a chain, it says after every adjustment. -/
theorem chain_carries (P : ℕ → List (Byte × Byte) → Prop) [∀ n ps, Decidable (P n ps)]
    (hend : ∀ ps, (∀ p ∈ ps, e.ValidPair p) →
      ((chain (decimalStep op adjust) c ps).2.flags.c = true ↔ P ps.length ps))
    (hps : ∀ p ∈ ps, e.ValidPair p) :
    (chain (decimalStep op adjust) c ps).1.map Prod.snd =
      (List.range ps.length).map fun k => decide (P (k + 1) (ps.take (k + 1))) := by
  rw [chain_states _ (g := Prod.snd) (f := fun c : I8088 => c.flags.c) (fun _ _ => rfl)]
  refine List.map_congr_left fun k hk => ?_
  have htake := hend (ps.take (k + 1)) fun p hp => hps p (List.mem_of_mem_take hp)
  rw [List.length_take_of_le (List.mem_range.mp hk)] at htake
  exact Bool.eq_iff_iff.mpr (htake.trans decide_eq_true_iff.symm)

theorem chain_valid (hstep : ∀ c p, e.ValidPair p → e.Valid (decimalStep op adjust c p).1.1)
    (c : I8088) (hps : ∀ p ∈ ps, e.ValidPair p) :
    ∀ x ∈ (chain (decimalStep op adjust) c ps).1.map Prod.fst, e.Valid x :=
  List.forall_mem_map.mpr (chain_results _ (Q := fun r : Byte × Bool => e.Valid r.1) hstep c hps)

/-- The number of the bytes that a chain leaves. -/
theorem number_chain (hstep : ∀ c p, e.ValidPair p → e.Valid (decimalStep op adjust c p).1.1)
    (c : I8088) (hps : ∀ p ∈ ps, e.ValidPair p) :
    0 ≤ e.number ((chain (decimalStep op adjust) c ps).1.map Prod.fst) ∧
      e.number ((chain (decimalStep op adjust) c ps).1.map Prod.fst) < e.base ^ ps.length := by
  have hbounds := numeral_bounds fun x hx => e.value_bounds (chain_valid hstep c hps x hx)
  rwa [List.length_map, length_chain] at hbounds

include hc

/-- The bytes and the carries of a chain of additions are those of the sum. -/
theorem chain_addsDecimal
    (hstep : ∀ c p, e.ValidPair p → AddsByte e c p (decimalStep op adjust c p))
    (hps : ∀ p ∈ ps, e.ValidPair p) :
    AddsDecimal e ps (chain (decimalStep op adjust) c ps) := by
  have hvalid := fun c p hp => (hstep c p hp).valid
  have htotal : ∀ ps, (∀ p ∈ ps, e.ValidPair p) →
      e.total ps = e.number ((chain (decimalStep op adjust) c ps).1.map Prod.fst) +
        e.base ^ ps.length * ((chain (decimalStep op adjust) c ps).2.flags.c.toNat : ℤ) := by
    intro ps hps
    -- the carry that comes out of a byte goes into the next one, so that the sum is conserved
    have hchain := chain_conserves (decimalStep op adjust) (fun p => e.value p.1 + e.value p.2)
      (fun r => e.value r.1) (fun c => (c.flags.c.toNat : ℤ)) (fun c p hp => (hstep c p hp).sum)
      c hps
    rw [hc, Bool.toNat_false, numeral_add] at hchain
    rw [Encoding.total, Encoding.number, Encoding.number, Encoding.number, numeral_map,
      numeral_map, numeral_map, ← hchain]
    exact (add_zero _).symm
  -- the digits are below the base, which determines digits and carry
  have hresult := fun ps hps =>
    remainder_carry (number_chain hvalid c hps).1 (number_chain hvalid c hps).2 (htotal ps hps)
  exact ⟨length_chain .., chain_valid hvalid c hps, (hresult ps hps).1,
    chain_carries (fun n ps => e.base ^ n ≤ e.total ps) (fun ps hps => (hresult ps hps).2) hps,
    (hresult ps hps).2⟩

/-- The bytes and the borrows of a chain of subtractions are those of the difference. -/
theorem chain_subtractsDecimal
    (hstep : ∀ c p, e.ValidPair p → SubtractsByte e c p (decimalStep op adjust c p))
    (hps : ∀ p ∈ ps, e.ValidPair p) :
    SubtractsDecimal e ps (chain (decimalStep op adjust) c ps) := by
  have hvalid := fun c p hp => (hstep c p hp).valid
  have hdifference : ∀ ps, (∀ p ∈ ps, e.ValidPair p) →
      e.difference ps = e.number ((chain (decimalStep op adjust) c ps).1.map Prod.fst) -
        e.base ^ ps.length * ((chain (decimalStep op adjust) c ps).2.flags.c.toNat : ℤ) := by
    intro ps hps
    -- a borrow is a negative carry
    have hborrow : ∀ c p, e.ValidPair p → e.value p.1 - e.value p.2 + -(c.flags.c.toNat : ℤ) =
        e.value (decimalStep op adjust c p).1.1 +
          e.base * -((decimalStep op adjust c p).2.flags.c.toNat : ℤ) := by
      intro c p hp
      linear_combination (hstep c p hp).difference
    have hchain := chain_conserves (decimalStep op adjust) (fun p => e.value p.1 - e.value p.2)
      (fun r => e.value r.1) (fun c => -(c.flags.c.toNat : ℤ)) hborrow c hps
    rw [hc, Bool.toNat_false, numeral_sub] at hchain
    rw [Encoding.difference, Encoding.number, Encoding.number, Encoding.number, numeral_map,
      numeral_map, numeral_map]
    linear_combination hchain
  have hresult := fun ps hps =>
    remainder_borrow (number_chain hvalid c hps).1 (number_chain hvalid c hps).2
      (hdifference ps hps)
  exact ⟨length_chain .., chain_valid hvalid c hps, (hresult ps hps).1,
    chain_carries (fun _ ps => e.difference ps < 0) (fun ps hps => (hresult ps hps).2) hps,
    (hresult ps hps).2⟩

end Chain

section Bytes

variable (c : I8088) (p : Byte × Byte) (ps : List (Byte × Byte)) (adjust : I8088 → I8088)

/-- `ADD` is `ADC` with the carry flag clear. -/
theorem byteByByte_add :
    byteByByte i8088Add8 i8088Adc8 adjust c p ps = chain (decimalStep i8088Adc8 adjust)
      { c with flags := { c.flags with c := false } } (p :: ps) := rfl

theorem byteByByte_sub :
    byteByByte i8088Sub8 i8088Sbb8 adjust c p ps = chain (decimalStep i8088Sbb8 adjust)
      { c with flags := { c.flags with c := false } } (p :: ps) := rfl

end Bytes

/-- **Decimal arithmetic is exact.** For decimal numbers of any length, packed or unpacked, the
additions with their adjustments give the digits of the sum, and the subtractions with theirs
the digits of the difference; the carry flag after every adjustment is the decimal carry or
borrow out of the digits so far. -/
theorem decimal_exact (c : I8088) (p : Byte × Byte) (ps : List (Byte × Byte)) :
    ((∀ q ∈ p :: ps, Encoding.packed.ValidPair q) →
        AddsDecimal .packed (p :: ps) (byteByByte i8088Add8 i8088Adc8 i8088Daa c p ps) ∧
          SubtractsDecimal .packed (p :: ps) (byteByByte i8088Sub8 i8088Sbb8 i8088Das c p ps)) ∧
      ((∀ q ∈ p :: ps, Encoding.unpacked.ValidPair q) →
        AddsDecimal .unpacked (p :: ps) (byteByByte i8088Add8 i8088Adc8 i8088Aaa c p ps) ∧
          SubtractsDecimal .unpacked (p :: ps)
            (byteByByte i8088Sub8 i8088Sbb8 i8088Aas c p ps)) := by
  -- the first byte is an operation without carry, like the others
  simp only [byteByByte_add, byteByByte_sub]
  constructor
  · intro hps
    exact ⟨chain_addsDecimal rfl (fun _ _ hp => addsByte_packed hp) hps,
      chain_subtractsDecimal rfl (fun _ _ hp => subtractsByte_packed hp) hps⟩
  · intro hps
    exact ⟨chain_addsDecimal rfl (fun _ _ hp => addsByte_unpacked hp) hps,
      chain_subtractsDecimal rfl (fun _ _ hp => subtractsByte_unpacked hp) hps⟩

/-- 9958 and 47 have a carry out of either byte, 1005 less 947 has a borrow out of the first one;
unpacked, so do 98 and 7, and 15 less 7. -/
theorem decimal_exact_two_bytes :
    let c := (machineWith []).cpu
    let sum := byteByByte i8088Add8 i8088Adc8 i8088Daa c (0x58, 0x47) [(0x99, 0x00)]
    let difference := byteByByte i8088Sub8 i8088Sbb8 i8088Das c (0x05, 0x47) [(0x10, 0x09)]
    let unpackedSum := byteByByte i8088Add8 i8088Adc8 i8088Aaa c (0x08, 0x07) [(0x09, 0x00)]
    let unpackedDifference :=
      byteByByte i8088Sub8 i8088Sbb8 i8088Aas c (0x05, 0x07) [(0x01, 0x00)]
    (AddsDecimal .packed [(0x58, 0x47), (0x99, 0x00)] sum ∧
      sum.1 = [(0x05, true), (0x00, true)]) ∧
    (SubtractsDecimal .packed [(0x05, 0x47), (0x10, 0x09)] difference ∧
      difference.1 = [(0x58, true), (0x00, false)]) ∧
    (AddsDecimal .unpacked [(0x08, 0x07), (0x09, 0x00)] unpackedSum ∧
      unpackedSum.1 = [(0x05, true), (0x00, true)]) ∧
    SubtractsDecimal .unpacked [(0x05, 0x07), (0x01, 0x00)] unpackedDifference ∧
      unpackedDifference.1 = [(0x08, true), (0x00, false)] := by
  intro c sum difference unpackedSum unpackedDifference
  -- the pairs are checked one by one
  have hvalid : ∀ {e : Encoding} {p q : Byte × Byte}, e.ValidPair p → e.ValidPair q →
      ∀ r ∈ [p, q], e.ValidPair r := fun hp hq =>
    List.forall_mem_cons.mpr ⟨hp, List.forall_mem_singleton.mpr hq⟩
  refine ⟨⟨?_, by decide⟩, ⟨?_, by decide⟩, ⟨?_, by decide⟩, ?_, by decide⟩
  · exact ((decimal_exact c (0x58, 0x47) [(0x99, 0x00)]).1 (hvalid (by decide) (by decide))).1
  · exact ((decimal_exact c (0x05, 0x47) [(0x10, 0x09)]).1 (hvalid (by decide) (by decide))).2
  · exact ((decimal_exact c (0x08, 0x07) [(0x09, 0x00)]).2 (hvalid (by decide) (by decide))).1
  · exact ((decimal_exact c (0x05, 0x07) [(0x01, 0x00)]).2 (hvalid (by decide) (by decide))).2

end Pc20iii
