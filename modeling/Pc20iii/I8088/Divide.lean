import Pc20iii.I8088.Entry
import Mathlib.Tactic.Linarith

/-!
# Divisions

`DIV` and `IDIV` of bytes and words. The source tests for a divisor of 0, for the smallest
dividend and for the range of the quotient before it writes a register; `Division.fails_iff`
says that the three tests together are the divide error of the instruction, and that the test
for the smallest dividend only rules out quotients that are out of range anyway.

The quotients are computed in wider types than the one they are stored in, with the division of
C that truncates.
-/

namespace Pc20iii

open StateProgram

variable {δ : Type}

/-! ### Truncating division -/

/-- A small quotient by a small divisor has a small dividend. -/
theorem natAbs_lt_of_tdiv {a b : ℤ} {q d : ℕ} (hb : b ≠ 0) (hquot : (a.tdiv b).natAbs ≤ q)
    (hdiv : b.natAbs ≤ d) : a.natAbs < (q + 1) * d := by
  have hpos : 0 < b.natAbs := Int.natAbs_pos.mpr hb
  have hrem : (a.tmod b).natAbs < b.natAbs := by
    rw [Int.natAbs_tmod]
    exact Nat.mod_lt _ hpos
  have hsum : a.natAbs = b.natAbs * (a.natAbs / b.natAbs) + a.natAbs % b.natAbs :=
    (Nat.div_add_mod ..).symm
  rw [Int.natAbs_tdiv] at hquot
  rw [Int.natAbs_tmod] at hrem
  calc a.natAbs < b.natAbs * (a.natAbs / b.natAbs) + b.natAbs := by omega
    _ = (a.natAbs / b.natAbs + 1) * b.natAbs := by rw [Nat.add_mul, Nat.one_mul, Nat.mul_comm]
    _ ≤ (q + 1) * d := Nat.mul_le_mul (Nat.succ_le_succ hquot) hdiv

/-- The remainder has the sign of the dividend. -/
theorem tmod_mul_nonneg (a b : ℤ) : 0 ≤ a.tmod b * a := by
  rcases le_total 0 a with h | h
  · exact mul_nonneg (Int.tmod_nonneg b h) h
  · have hneg : 0 ≤ (-a).tmod b := Int.tmod_nonneg b (by omega)
    rw [Int.neg_tmod] at hneg
    exact mul_nonneg_of_nonpos_of_nonpos (by omega) h

/-- A number that fits a narrower type keeps its value in it. -/
theorem toInt_setWidth_of_fits {v w : ℕ} (hv : v ≤ w) (x : BitVec w)
    (hlow : -2 ^ (v - 1) ≤ x.toInt) (hhigh : x.toInt < 2 ^ (v - 1)) (hpos : 0 < v) :
    (x.setWidth v).toInt = x.toInt := by
  have hpow : 2 ^ v = 2 * 2 ^ (v - 1) := by
    rw [← Nat.pow_succ']
    congr 1
    omega
  have hcast : ((2 ^ (v - 1) : ℕ) : ℤ) = 2 ^ (v - 1) := by norm_cast
  rw [← BitVec.signExtend_eq_setWidth_of_le x hv, BitVec.toInt_signExtend_eq_toInt_bmod_of_le x hv]
  exact Int.bmod_eq_of_le (by omega) (by omega)

/-! ### The operations -/

/-- The four divisions. -/
inductive Division where
  | div8
  | idiv8
  | div16
  | idiv16
deriving DecidableEq, Repr

namespace Division

def opcode : Division → Byte
  | div8 => 0xF6
  | idiv8 => 0xF6
  | div16 => 0xF7
  | idiv16 => 0xF7

def field : Division → BitVec 3
  | div8 => 6
  | idiv8 => 7
  | div16 => 6
  | idiv16 => 7

/-- The dividend in AX or DX:AX. -/
def dividend (d : Division) (c : I8088) : ℤ :=
  match d with
  | div8 => c.ax.toNat
  | idiv8 => c.ax.toInt
  | div16 => c.dx.toNat * 2 ^ 16 + c.ax.toNat
  | idiv16 => c.dx.toInt * 2 ^ 16 + c.ax.toNat

/-- The divisor of the instruction behind the opcode. -/
def divisor (d : Division) (n : Machine δ) : ℤ :=
  match d with
  | div8 => (n.rm.get8 n).toNat
  | idiv8 => (n.rm.get8 n).toInt
  | div16 => (n.rm.get16 n).toNat
  | idiv16 => (n.rm.get16 n).toInt

/-- The quotients that do not raise the divide error. -/
def Fits (d : Division) (q : ℤ) : Prop :=
  match d with
  | div8 => q ≤ 0xFF
  | idiv8 => -127 ≤ q ∧ q ≤ 127
  | div16 => q ≤ 0xFFFF
  | idiv16 => -32767 ≤ q ∧ q ≤ 32767

/-- The quotient that a division leaves in AL or AX. -/
def quotient (d : Division) (c : I8088) : ℤ :=
  match d with
  | div8 => c.al.toNat
  | idiv8 => c.al.toInt
  | div16 => c.ax.toNat
  | idiv16 => c.ax.toInt

/-- The remainder that a division leaves in AH or DX. -/
def remainder (d : Division) (c : I8088) : ℤ :=
  match d with
  | div8 => c.ah.toNat
  | idiv8 => c.ah.toInt
  | div16 => c.dx.toNat
  | idiv16 => c.dx.toInt

/-- The tests that the source makes. -/
def Fails (d : Division) (n : Machine δ) : Prop :=
  match d with
  | div8 => n.cpu.Div8Fails (n.rm.get8 n)
  | idiv8 => n.cpu.Idiv8Fails (n.rm.get8 n)
  | div16 => n.cpu.Div16Fails (n.rm.get16 n)
  | idiv16 => n.cpu.Idiv16Fails (n.rm.get16 n)

theorem interrupts {d : Division} {n : Machine δ} (hfield : modrmReg (n.code 0) = d.field)
    (h : d.Fails n) : Interrupts n d.opcode intDivideError n.rmLength := by
  cases d with
  | div8 => exact .div8 hfield h
  | idiv8 => exact .idiv8 hfield h
  | div16 => exact .div16 hfield h
  | idiv16 => exact .idiv16 hfield h

/-! ### Divisions of bytes -/

section Bytes

variable (c : I8088) (input : Byte)

theorem toNat_quot8 : (c.ax / input.setWidth 16).toNat = c.ax.toNat / input.toNat := by
  rw [BitVec.toNat_udiv, BitVec.toNat_setWidth_of_le (by decide)]

theorem toNat_rem8 : (c.ax % input.setWidth 16).toNat = c.ax.toNat % input.toNat := by
  rw [BitVec.toNat_umod, BitVec.toNat_setWidth_of_le (by decide)]

theorem div8Fails_iff :
    c.Div8Fails input ↔
      (input.toNat : ℤ) = 0 ∨ ¬div8.Fits ((c.ax.toNat : ℤ).tdiv input.toNat) := by
  have hlimit : (0xFF : Word).toNat = 255 := rfl
  rw [I8088.Div8Fails, gt_iff_lt, BitVec.lt_def, toNat_quot8, hlimit, ← BitVec.toNat_inj, Fits,
    ← Int.ofNat_tdiv]
  norm_cast
  rw [not_le]
  rfl

/-- The quotient of the narrower type is the exact one, but for the smallest dividend. -/
theorem idiv8_toInt (hmin : c.ax ≠ 0x8000) :
    (c.idiv8 input).toInt = c.ax.toInt.tdiv input.toInt := by
  have hax : (c.ax.signExtend 32).toInt = c.ax.toInt :=
    BitVec.toInt_signExtend_of_le (by decide)
  have hinput : (input.signExtend 32).toInt = input.toInt :=
    BitVec.toInt_signExtend_of_le (by decide)
  have hle := BitVec.le_toInt c.ax
  have hlt := BitVec.toInt_lt (x := c.ax)
  -- without the smallest dividend the quotient fits, and does not change with the width
  have hne : c.ax.toInt ≠ -2 ^ 15 := fun h => hmin (BitVec.toInt_inj.mp h)
  have hquot := Int.natAbs_tdiv_le_natAbs c.ax.toInt input.toInt
  have hwide : ((c.ax.signExtend 32).sdiv (input.signExtend 32)).toInt =
      c.ax.toInt.tdiv input.toInt := by
    rw [BitVec.toInt_sdiv_of_ne_or_ne, hax, hinput]
    refine .inl fun h => ?_
    have hint := congrArg BitVec.toInt h
    rw [hax, BitVec.toInt_intMin_of_pos (by decide)] at hint
    omega
  rw [I8088.idiv8, toInt_setWidth_of_fits (by decide) _ (by omega) (by omega) (by decide), hwide]

/-- `IDIV` of a word raises the exception if and only if the divisor is 0 or the quotient is out of
range. -/
theorem idiv8Fails_iff :
    c.Idiv8Fails input ↔ input.toInt = 0 ∨ ¬idiv8.Fits (c.ax.toInt.tdiv input.toInt) := by
  have hzero : input = 0 ↔ input.toInt = 0 := by
    rw [← BitVec.toInt_inj]
    rfl
  by_cases h₀ : input = 0
  · exact iff_of_true (.inl h₀) (.inl (hzero.mp h₀))
  · have hlt := BitVec.toInt_lt (x := input)
    have hle := BitVec.le_toInt input
    by_cases hmin : c.ax = 0x8000
    · -- the quotient of the smallest dividend is out of range
      have hax : c.ax.toInt = -2 ^ 15 := by
        rw [hmin]
        rfl
      refine iff_of_true (.inr (.inl hmin)) (.inr fun hfits => ?_)
      unfold Fits at hfits
      have hsmall := natAbs_lt_of_tdiv (q := 127) (d := 128) (mt hzero.mpr h₀)
        (by omega : (c.ax.toInt.tdiv input.toInt).natAbs ≤ 127) (by omega)
      omega
    · rw [I8088.Idiv8Fails, idiv8_toInt c input hmin, ← hzero, Fits]
      simp only [h₀, hmin, false_or]
      omega

end Bytes

/-! ### Divisions of words -/

section Words

variable (c : I8088) (input : Word)

theorem dxax_toNat : c.dxax.toNat = c.dx.toNat * 2 ^ 16 + c.ax.toNat := by
  have hdx := c.dx.isLt
  have hax := c.ax.isLt
  rw [I8088.dxax, BitVec.toNat_add, BitVec.toNat_shiftLeft, BitVec.toNat_setWidth,
    BitVec.toNat_setWidth, Nat.shiftLeft_eq]
  omega

theorem dxax_toInt : c.dxax.toInt = c.dx.toInt * 2 ^ 16 + c.ax.toNat := by
  have hdx := c.dx.isLt
  have hax := c.ax.isLt
  rw [BitVec.toInt_eq_toNat_cond, BitVec.toInt_eq_toNat_cond, dxax_toNat]
  split_ifs <;> omega

theorem toNat_quot16 :
    (c.dxax / input.setWidth 32).toNat = (c.dx.toNat * 2 ^ 16 + c.ax.toNat) / input.toNat := by
  rw [BitVec.toNat_udiv, BitVec.toNat_setWidth_of_le (by decide), dxax_toNat]

theorem toNat_rem16 :
    (c.dxax % input.setWidth 32).toNat = (c.dx.toNat * 2 ^ 16 + c.ax.toNat) % input.toNat := by
  rw [BitVec.toNat_umod, BitVec.toNat_setWidth_of_le (by decide), dxax_toNat]

/-- `DIV` of a double word likewise. -/
theorem div16Fails_iff :
    c.Div16Fails input ↔
      (input.toNat : ℤ) = 0 ∨
        ¬div16.Fits ((c.dx.toNat * 2 ^ 16 + c.ax.toNat : ℤ).tdiv input.toNat) := by
  have hlimit : (0xFFFF : BitVec 32).toNat = 65535 := rfl
  -- nothing is negative, so the quotient is that of natural numbers
  have hcast : ((c.dx.toNat : ℤ) * 2 ^ 16 + c.ax.toNat).tdiv input.toNat =
      (((c.dx.toNat * 2 ^ 16 + c.ax.toNat) / input.toNat : ℕ) : ℤ) := by
    rw [Int.ofNat_tdiv]
    norm_cast
  rw [I8088.Div16Fails, gt_iff_lt, BitVec.lt_def, toNat_quot16, hlimit, ← BitVec.toNat_inj,
    Fits, hcast]
  norm_cast
  rw [not_le]
  rfl

/-- The quotient of the double word is the exact one, but for the smallest dividend. -/
theorem idiv16_toInt (hmin : ¬(c.dx = 0x8000 ∧ c.ax = 0)) :
    (c.idiv16 input).toInt = (c.dx.toInt * 2 ^ 16 + c.ax.toNat).tdiv input.toInt := by
  have hinput : (input.signExtend 32).toInt = input.toInt :=
    BitVec.toInt_signExtend_of_le (by decide)
  rw [I8088.idiv16, BitVec.toInt_sdiv_of_ne_or_ne, hinput, dxax_toInt]
  refine .inl fun h => hmin ?_
  -- the smallest `int` is the dividend with DX 8000h and AX 0
  have hint := congrArg BitVec.toInt h
  have hle := BitVec.le_toInt c.dx
  have hax := c.ax.isLt
  rw [dxax_toInt, BitVec.toInt_intMin_of_pos (by decide)] at hint
  have hdx : c.dx.toInt = -2 ^ 15 := by omega
  have hzero : c.ax.toNat = 0 := by omega
  exact ⟨BitVec.toInt_inj.mp hdx, BitVec.eq_of_toNat_eq hzero⟩

/-- `IDIV` of a double word likewise. -/
theorem idiv16Fails_iff :
    c.Idiv16Fails input ↔
      input.toInt = 0 ∨
        ¬idiv16.Fits ((c.dx.toInt * 2 ^ 16 + c.ax.toNat).tdiv input.toInt) := by
  have hzero : input = 0 ↔ input.toInt = 0 := by
    rw [← BitVec.toInt_inj]
    rfl
  by_cases h₀ : input = 0
  · exact iff_of_true (.inl h₀) (.inl (hzero.mp h₀))
  · have hlt := BitVec.toInt_lt (x := input)
    have hle := BitVec.le_toInt input
    -- a dividend of -2 ^ 31 is refused before it is divided
    by_cases hmin : c.dx = 0x8000 ∧ c.ax = 0
    · have hdx : c.dx.toInt = -2 ^ 15 := by
        rw [hmin.1]
        rfl
      have hax : c.ax.toNat = 0 := by
        rw [hmin.2]
        rfl
      refine iff_of_true (.inr (.inl hmin)) (.inr fun hfits => ?_)
      unfold Fits at hfits
      have hsmall := natAbs_lt_of_tdiv (q := 32767) (d := 32768) (mt hzero.mpr h₀)
        (by omega : ((c.dx.toInt * 2 ^ 16 + c.ax.toNat).tdiv input.toInt).natAbs ≤ 32767)
        (by omega)
      omega
    · rw [I8088.Idiv16Fails, idiv16_toInt c input hmin, ← hzero, Fits]
      simp only [h₀, hmin, false_or]
      omega

end Words

/-! ### Completed divisions -/

/-- The registers of a division that completes. -/
def completed (d : Division) (n : Machine δ) : I8088 :=
  let c := n.cpu
  match d with
  | div8 =>
    let input := n.rm.get8 n
    (c.setAl (lowByte (c.ax / input.setWidth 16))).setAh (lowByte (c.ax % input.setWidth 16))
  | idiv8 =>
    let input := n.rm.get8 n
    (c.setAl (lowByte (c.idiv8 input))).setAh
      (((c.ax.signExtend 32).srem (input.signExtend 32)).setWidth 8)
  | div16 =>
    let input := n.rm.get16 n
    { c with
      ax := (c.dxax / input.setWidth 32).setWidth 16
      dx := (c.dxax % input.setWidth 32).setWidth 16 }
  | idiv16 =>
    let input := n.rm.get16 n
    { c with
      ax := (c.idiv16 input).setWidth 16
      dx := (c.dxax.srem (input.signExtend 32)).setWidth 16 }

theorem fails_iff (d : Division) (n : Machine δ) :
    d.Fails n ↔ d.divisor n = 0 ∨ ¬d.Fits ((d.dividend n.cpu).tdiv (d.divisor n)) := by
  cases d with
  | div8 => exact div8Fails_iff n.cpu (n.rm.get8 n)
  | idiv8 => exact idiv8Fails_iff n.cpu (n.rm.get8 n)
  | div16 => exact div16Fails_iff n.cpu (n.rm.get16 n)
  | idiv16 => exact idiv16Fails_iff n.cpu (n.rm.get16 n)

@[simp] theorem al_setAh_setAl (c : I8088) (v v' : Byte) : ((c.setAl v).setAh v').al = v := by
  simp [I8088.al, I8088.setAl, I8088.setAh]

@[simp] theorem ah_setAh (c : I8088) (v : Byte) : (c.setAh v).ah = v := by
  simp [I8088.ah, I8088.setAh]

section Completed

variable {d : Division} {n : Machine δ} (hzero : d.divisor n ≠ 0)

/-- A division that does not fail leaves the exact quotient in its register. -/
theorem quotient_completed (hfails : ¬d.Fails n) :
    d.quotient (d.completed n) = (d.dividend n.cpu).tdiv (d.divisor n) := by
  -- a quotient that does not fit would have failed
  have hfits : d.Fits ((d.dividend n.cpu).tdiv (d.divisor n)) := by
    by_contra h
    exact hfails ((d.fails_iff n).mpr (.inr h))
  cases d with
  | div8 =>
    have hint : (div8.dividend n.cpu).tdiv (div8.divisor n) =
        ((n.cpu.ax.toNat / (n.rm.get8 n).toNat : ℕ) : ℤ) := (Int.ofNat_tdiv ..).symm
    rw [hint] at hfits ⊢
    have hle : n.cpu.ax.toNat / (n.rm.get8 n).toNat ≤ 255 := Int.ofNat_le.mp hfits
    rw [quotient, completed, al_setAh_setAl, lowByte, BitVec.toNat_setWidth, toNat_quot8,
      Nat.mod_eq_of_lt (by omega)]
  | idiv8 =>
    -- the smallest dividend fails, so that the exact quotient is the one computed
    have hmin : n.cpu.ax ≠ 0x8000 := fun h => hfails (.inr (.inl h))
    have hquot := idiv8_toInt n.cpu (n.rm.get8 n) hmin
    obtain ⟨hlow, hhigh⟩ := hfits
    rw [dividend, divisor, ← hquot] at hlow hhigh ⊢
    rw [quotient, completed, al_setAh_setAl]
    exact toInt_setWidth_of_fits (by decide) _ (by omega) (by omega) (by decide)
  | div16 =>
    have hint : (div16.dividend n.cpu).tdiv (div16.divisor n) =
        (((n.cpu.dx.toNat * 2 ^ 16 + n.cpu.ax.toNat) / (n.rm.get16 n).toNat : ℕ) : ℤ) := by
      rw [Int.ofNat_tdiv, dividend, divisor]
      norm_cast
    rw [hint] at hfits ⊢
    have hle : (n.cpu.dx.toNat * 2 ^ 16 + n.cpu.ax.toNat) / (n.rm.get16 n).toNat ≤ 65535 :=
      Int.ofNat_le.mp hfits
    rw [quotient, completed, BitVec.toNat_setWidth, toNat_quot16, Nat.mod_eq_of_lt (by omega)]
  | idiv16 =>
    have hmin : ¬(n.cpu.dx = 0x8000 ∧ n.cpu.ax = 0) := fun h => hfails (.inr (.inl h))
    have hquot := idiv16_toInt n.cpu (n.rm.get16 n) hmin
    obtain ⟨hlow, hhigh⟩ := hfits
    rw [dividend, divisor, ← hquot] at hlow hhigh ⊢
    rw [quotient, completed]
    exact toInt_setWidth_of_fits (by decide) _ (by omega) (by omega) (by decide)

/-- It leaves the exact remainder, which has the sign of the dividend. -/
theorem remainder_completed (hzero : d.divisor n ≠ 0) :
    d.remainder (d.completed n) = (d.dividend n.cpu).tmod (d.divisor n) := by
  -- a remainder is smaller than the divisor, so that it fits its register
  have hlt : ((d.dividend n.cpu).tmod (d.divisor n)).natAbs < (d.divisor n).natAbs := by
    rw [Int.natAbs_tmod]
    exact Nat.mod_lt _ (Int.natAbs_pos.mpr hzero)
  cases d with
  | div8 =>
    have hint : (div8.dividend n.cpu).tmod (div8.divisor n) =
        ((n.cpu.ax.toNat % (n.rm.get8 n).toNat : ℕ) : ℤ) := (Int.ofNat_tmod ..).symm
    have hinput := (n.rm.get8 n).isLt
    rw [hint] at hlt ⊢
    rw [divisor] at hlt
    rw [remainder, completed, ah_setAh, lowByte, BitVec.toNat_setWidth, toNat_rem8,
      Nat.mod_eq_of_lt (by omega)]
  | idiv8 =>
    -- `IDIV` rounds towards zero, as `tmod` does
    have hrem : ((n.cpu.ax.signExtend 32).srem ((n.rm.get8 n).signExtend 32)).toInt =
        n.cpu.ax.toInt.tmod (n.rm.get8 n).toInt := by
      rw [BitVec.toInt_srem, BitVec.toInt_signExtend_of_le (by decide),
        BitVec.toInt_signExtend_of_le (by decide)]
    have hinput := BitVec.toInt_lt (x := n.rm.get8 n)
    have hinput' := BitVec.le_toInt (n.rm.get8 n)
    rw [dividend, divisor, ← hrem] at hlt ⊢
    rw [remainder, completed, ah_setAh]
    -- the sign is kept, because the remainder fits the smaller register
    exact toInt_setWidth_of_fits (by decide) _ (by omega) (by omega) (by decide)
  | div16 =>
    have hint : (div16.dividend n.cpu).tmod (div16.divisor n) =
        (((n.cpu.dx.toNat * 2 ^ 16 + n.cpu.ax.toNat) % (n.rm.get16 n).toNat : ℕ) : ℤ) := by
      rw [Int.ofNat_tmod, dividend, divisor]
      norm_cast
    have hinput := (n.rm.get16 n).isLt
    rw [hint] at hlt ⊢
    rw [divisor] at hlt
    rw [remainder, completed, BitVec.toNat_setWidth, toNat_rem16, Nat.mod_eq_of_lt (by omega)]
  | idiv16 =>
    have hrem : (n.cpu.dxax.srem ((n.rm.get16 n).signExtend 32)).toInt =
        (n.cpu.dx.toInt * 2 ^ 16 + n.cpu.ax.toNat).tmod (n.rm.get16 n).toInt := by
      rw [BitVec.toInt_srem, BitVec.toInt_signExtend_of_le (by decide), dxax_toInt]
    have hinput := BitVec.toInt_lt (x := n.rm.get16 n)
    have hinput' := BitVec.le_toInt (n.rm.get16 n)
    rw [dividend, divisor, ← hrem] at hlt ⊢
    rw [remainder, completed]
    exact toInt_setWidth_of_fits (by decide) _ (by omega) (by omega) (by decide)

end Completed

/-! ### The instructions -/

section Functions

variable {m : Machine δ}

theorem outcome_i8088Div8_of_not {input : Byte} (h : ¬m.cpu.Div8Fails input) :
    outcome (i8088Div8 input) m = ((), { m with
      cpu := (m.cpu.setAl (lowByte (m.cpu.ax / input.setWidth 16))).setAh
        (lowByte (m.cpu.ax % input.setWidth 16)) }) := by
  obtain ⟨h₀, h₁⟩ := not_or.mp h
  simp only [i8088Div8, outcome_bind, outcome_getCpu, outcome_ite]
  rw [if_neg h₀, if_neg h₁]
  rfl

theorem outcome_i8088Idiv8_of_not {input : Byte} (h : ¬m.cpu.Idiv8Fails input) :
    outcome (i8088Idiv8 input) m = ((), { m with
      cpu := (m.cpu.setAl (lowByte (m.cpu.idiv8 input))).setAh
        (((m.cpu.ax.signExtend 32).srem (input.signExtend 32)).setWidth 8) }) := by
  obtain ⟨h₀, h'⟩ := not_or.mp h
  obtain ⟨h₁, h₂⟩ := not_or.mp h'
  simp only [i8088Idiv8, outcome_bind, outcome_getCpu, outcome_ite]
  rw [if_neg h₀, if_neg h₁]
  exact if_neg h₂

theorem outcome_i8088Div16_of_not {input : Word} (h : ¬m.cpu.Div16Fails input) :
    outcome (i8088Div16 input) m = ((), { m with
      cpu := { m.cpu with
        ax := (m.cpu.dxax / input.setWidth 32).setWidth 16
        dx := (m.cpu.dxax % input.setWidth 32).setWidth 16 } }) := by
  obtain ⟨h₀, h₁⟩ := not_or.mp h
  simp only [i8088Div16, outcome_bind, outcome_getCpu, outcome_ite]
  rw [if_neg h₀, if_neg h₁]
  rfl

theorem outcome_i8088Idiv16_of_not {input : Word} (h : ¬m.cpu.Idiv16Fails input) :
    outcome (i8088Idiv16 input) m = ((), { m with
      cpu := { m.cpu with
        ax := (m.cpu.idiv16 input).setWidth 16
        dx := (m.cpu.dxax.srem (input.signExtend 32)).setWidth 16 } }) := by
  obtain ⟨h₀, h'⟩ := not_or.mp h
  obtain ⟨h₁, h₂⟩ := not_or.mp h'
  simp only [i8088Idiv16, outcome_bind, outcome_getCpu, outcome_ite]
  rw [if_neg h₀, if_neg h₁]
  exact if_neg h₂

end Functions

/-- A division that completes assigns the quotient and the remainder. -/
theorem outcome_completed {d : Division} {n : Machine δ}
    (hfield : modrmReg (n.code 0) = d.field) (io : Devices δ) (eaddr : Word) (fuel : ℕ)
    (h : ¬d.Fails n) :
    outcome (i8088Opcode io eaddr fuel d.opcode) n =
      (true, { n.skip n.rmLength with
        cpu := { d.completed n with ip := n.cpu.ip + n.rmLength } }) := by
  -- every form decodes its operand before it divides
  cases d with
  | div8 =>
    refine outcome_i8088Opcode rfl ?_
    simp only [i8088OpcodeF6, outcome_bind, outcome_fetch, outcome_modrmGetRm8, skip_skip]
    rw [hfield]
    exact outcome_i8088Div8_of_not (m := n.skip n.rmLength) h
  | idiv8 =>
    refine outcome_i8088Opcode rfl ?_
    simp only [i8088OpcodeF6, outcome_bind, outcome_fetch, outcome_modrmGetRm8, skip_skip]
    rw [hfield]
    exact outcome_i8088Idiv8_of_not (m := n.skip n.rmLength) h
  | div16 =>
    refine outcome_i8088Opcode rfl ?_
    simp only [i8088OpcodeF7, outcome_bind, outcome_fetch, outcome_modrmGetRm16, skip_skip]
    rw [hfield]
    exact outcome_i8088Div16_of_not (m := n.skip n.rmLength) h
  | idiv16 =>
    refine outcome_i8088Opcode rfl ?_
    simp only [i8088OpcodeF7, outcome_bind, outcome_fetch, outcome_modrmGetRm16, skip_skip]
    rw [hfield]
    exact outcome_i8088Idiv16_of_not (m := n.skip n.rmLength) h

end Division

/-! ### Raising and completing -/

/-- From `m`, with the opcode consumed in `n`, the instruction has raised the divide error in
`r`: no register but SP, CS and IP has changed, no flag but TF, and no memory but the six bytes
below SS:SP. -/
structure Raises (m n : Machine δ) (r : Bool × Machine δ) : Prop where
  ended : r.1 = true
  log : r.2.log = .interrupt intDivideError :: n.log
  agree : Agree { m with
    mem := r.2.mem
    cpu := { m.cpu with
      sp := m.cpu.sp - 6, cs := r.2.cpu.cs, flags := { m.cpu.flags with t := false } } } r.2
  outside : ∀ a, ¬m.cpu.Below 6 a → r.2.mem.m a = m.mem.m a
  readonly : r.2.mem.readonly = m.mem.readonly

/-- From `m`, with the opcode consumed in `n`, the division has completed in `r`. -/
structure Completes (d : Division) (m n : Machine δ) (r : Bool × Machine δ) : Prop where
  ended : r.1 = true
  log : r.2.log = n.log
  division : d.dividend m.cpu = d.quotient r.2.cpu * d.divisor n + d.remainder r.2.cpu
  smaller : |d.remainder r.2.cpu| < |d.divisor n|
  sign : 0 ≤ d.remainder r.2.cpu * d.dividend m.cpu
  agree : Agree { m with cpu := { m.cpu with ax := r.2.cpu.ax, dx := r.2.cpu.dx } } r.2
  bytes : d.opcode = 0xF6 → r.2.cpu.dx = m.cpu.dx

theorem Agree.dividend {m n : Machine δ} (h : Agree m n) (d : Division) :
    d.dividend n.cpu = d.dividend m.cpu := by
  rw [h.cpu]
  cases d <;> rfl

theorem raises_of_fails {m n : Machine δ} {d : Division} (hagree : Agree m n) (io : Devices δ)
    (eaddr : Word) (fuel : ℕ) (hfield : modrmReg (n.code 0) = d.field) (h : d.Fails n) :
    Raises m n (outcome (i8088Opcode io eaddr fuel d.opcode) n) := by
  rw [(Division.interrupts hfield h).effect]
  have hskip := hagree.trans (.skip n n.rmLength)
  refine ⟨rfl, rfl, ⟨?_, rfl, hskip.fe2010, hskip.dev⟩, ?_, ?_⟩
  · rw [Machine.interrupted, hskip.cpu]
  · intro a ha
    exact (frame_outside _ (mt hskip.below.mp ha)).trans (congrArg (·.m a) hskip.mem)
  · exact (frame_readonly _).trans (congrArg Mem.readonly hskip.mem)

/-- A division that does not fail completes: its quotient and its remainder make up the dividend,
and nothing else changes. -/
theorem completes_of_not_fails {m n : Machine δ} {d : Division} (hagree : Agree m n)
    (io : Devices δ) (eaddr : Word) (fuel : ℕ) (hfield : modrmReg (n.code 0) = d.field)
    (h : ¬d.Fails n) : Completes d m n (outcome (i8088Opcode io eaddr fuel d.opcode) n) := by
  have hzero : d.divisor n ≠ 0 := fun hz => h ((d.fails_iff n).mpr (.inl hz))
  have hquot := Division.quotient_completed h
  have hrem := d.remainder_completed hzero
  rw [Division.outcome_completed hfield io eaddr fuel h]
  have hskip := hagree.trans (.skip n n.rmLength)
  -- the instruction pointer is no operand
  have hquot' : d.quotient { d.completed n with ip := n.cpu.ip + n.rmLength } =
      (d.dividend n.cpu).tdiv (d.divisor n) := by
    rw [← hquot]
    cases d <;> rfl
  have hrem' : d.remainder { d.completed n with ip := n.cpu.ip + n.rmLength } =
      (d.dividend n.cpu).tmod (d.divisor n) := by
    rw [← hrem]
    cases d <;> rfl
  rw [hagree.dividend] at hquot' hrem'
  refine ⟨rfl, rfl, ?_, ?_, ?_, ⟨?_, hskip.mem, hskip.fe2010, hskip.dev⟩, ?_⟩
  -- the division theorem, the bound of the remainder, and its sign
  · rw [hquot', hrem', mul_comm]
    exact (Int.mul_tdiv_add_tmod ..).symm
  · rw [hrem', Int.abs_eq_natAbs, Int.abs_eq_natAbs, Int.natAbs_tmod]
    exact_mod_cast Nat.mod_lt _ (Int.natAbs_pos.mpr hzero)
  · rw [hrem']
    exact tmod_mul_nonneg ..
  · cases d <;> simp only [Division.completed, I8088.setAl, I8088.setAh] <;> rw [hagree.cpu]
  -- the divisions by a byte leave DX alone
  · intro hbytes
    have hdx : n.cpu.dx = m.cpu.dx := by rw [hagree.cpu]
    cases d with
    | div8 => exact hdx
    | idiv8 => exact hdx
    | div16 => exact absurd hbytes (by decide)
    | idiv16 => exact absurd hbytes (by decide)

/-- **Divisions raise or complete.** Each of the four divisions raises the divide error exactly
when the divisor is 0 or the truncated quotient does not fit, and completes exactly otherwise:
the quotient and the remainder, smaller than the divisor and with the sign of the dividend,
make up the dividend. -/
theorem division_decided (io : Devices δ) (eaddr : Word) {m n : Machine δ} {fuel : ℕ}
    {d : Division} (hd : Dispatches m fuel d.opcode n) (hfield : modrmReg (n.code 0) = d.field) :
    (Raises m n (outcome (i8088Execute io eaddr fuel) m) ↔
        d.divisor n = 0 ∨ ¬d.Fits ((d.dividend m.cpu).tdiv (d.divisor n))) ∧
      (Completes d m n (outcome (i8088Execute io eaddr fuel) m) ↔
        ¬(d.divisor n = 0 ∨ ¬d.Fits ((d.dividend m.cpu).tdiv (d.divisor n)))) := by
  rw [← hd.agree.dividend, ← d.fails_iff, hd.execute io eaddr]
  by_cases h : d.Fails n
  · have hraises := raises_of_fails hd.agree io eaddr fuel hfield h
    refine ⟨iff_of_true hraises h, iff_of_false (fun hcompletes => ?_) (not_not.mpr h)⟩
    exact List.cons_ne_self _ _ (hraises.log.symm.trans hcompletes.log)
  -- the two outcomes differ in the log, so they exclude each other
  · have hcompletes := completes_of_not_fails hd.agree io eaddr fuel hfield h
    refine ⟨iff_of_false (fun hraises => ?_) h, iff_of_true hcompletes h⟩
    exact List.cons_ne_self _ _ (hraises.log.symm.trans hcompletes.log)

/-- `IDIV BL` of -32768 by -1: the quotient does not fit its type. -/
theorem division_decided_smallest :
    let m := machineWith [0xF6, 0xFB]
    let n := { m with cpu := { m.cpu with ax := 0x8000, bx := 0xFF } }
    Raises n (outcome (i8088Decode 1) n).2 (outcome (i8088Execute Devices.none 0 1) n) := by
  intro m n
  have hd : Dispatches n 1 (Division.opcode .idiv8) (outcome (i8088Decode 1) n).2 :=
    ⟨rfl, Prod.ext (by decide) rfl⟩
  have hdivisor : Division.divisor .idiv8 (outcome (i8088Decode 1) n).2 = -1 := by decide
  have hquot : ¬Division.Fits .idiv8 ((Division.dividend .idiv8 n.cpu).tdiv
      (Division.divisor .idiv8 (outcome (i8088Decode 1) n).2)) := by
    rw [hdivisor]
    unfold Division.Fits
    decide
  exact (division_decided Devices.none 0 hd (by decide)).1.mpr (.inr hquot)

end Pc20iii
