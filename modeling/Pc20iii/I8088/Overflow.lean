import Pc20iii.I8088.Divide
import Pc20iii.Program.CInt
import Mathlib.Algebra.Order.Ring.Abs

/-!
# Overflow of `int` in multiplications and divisions

The multiplications and the divisions of words as expressions of C, with the integer promotions
(`CEval`): the products and the dividends that `Alu.lean` and `Interrupt.lean` compute in bit
vectors are what these evaluations give in two's complement arithmetic.

Words are promoted to `int`, so that a product of two words, and a word shifted by 16 bits, can
leave its range. `int_defined_iff` says for which operands no expression does.
-/

namespace Pc20iii

open StateProgram

variable {δ : Type}

/-! ### The expressions -/

/-- The assignments of a multiplication to the flags; `high` is `r >> half`. -/
def cProductFlags (f : Flags) (carry : CVal) (r : CVal) (half : ℕ) : CEval Flags := do
  let p ← r.shr half
  let s ← r.shr (2 * half - 1)
  let high ← r.shr half
  let z ← high.compare (.int 0) (· == ·)
  return { f with
    c := carry.toBit, o := carry.toBit, p := parityEven (p.toBits 16), s := s.toBit, z := z.toBit }

/-- `i8088_mul_8`. -/
def cMul8 (c : I8088) (input : Byte) : CEval I8088 := do
  let product ← (CVal.uint8 c.al).mul (.uint8 input)
  let ax := product.store .uint16
  let high ← ax.shr 8
  let carry ← high.compare (.int 0) (· > ·)
  let flags ← cProductFlags c.flags carry ax 8
  return { c with ax := ax.toBits 16, flags := flags }

/-- `i8088_mul_16`. -/
def cMul16 (c : I8088) (input : Word) : CEval I8088 := do
  let product ← (CVal.uint16 c.ax).mul (.uint16 input)
  let result := product.store .uint32
  let ax ← result.and (.int 0xFFFF)
  let dx ← result.shr 16
  let high ← result.shr 16
  let carry ← high.compare (.int 0) (· > ·)
  let flags ← cProductFlags c.flags carry result 16
  return { c with ax := ax.toBits 16, dx := dx.toBits 16, flags := flags }

/-- `i8088_imul_8`. -/
def cImul8 (c : I8088) (input : Byte) : CEval I8088 := do
  let al ← (CVal.uint8 c.al).cast .int8
  let input ← (CVal.uint8 input).cast .int8
  let product ← al.mul input
  let ax := product.store .uint16
  let wide ← ax.cast .int16
  let narrow ← ax.cast .int8
  let carry ← wide.compare narrow (· != ·)
  let flags ← cProductFlags c.flags carry ax 8
  return { c with ax := ax.toBits 16, flags := flags }

/-- `i8088_imul_16`. -/
def cImul16 (c : I8088) (input : Word) : CEval I8088 := do
  let ax ← (CVal.uint16 c.ax).cast .int16
  let input ← (CVal.uint16 input).cast .int16
  let product ← ax.mul input
  let result := product.store .int32
  let low ← result.and (.int 0xFFFF)
  let high ← result.shr 16
  let narrow ← result.cast .int16
  let carry ← result.compare narrow (· != ·)
  let flags ← cProductFlags c.flags carry result 16
  return { c with ax := low.toBits 16, dx := high.toBits 16, flags := flags }

/-- `(T)((cpu->dx << 16) + cpu->ax)`. -/
def cDxax (c : I8088) (t : CType) : CEval CVal := do
  let shifted ← (CVal.uint16 c.dx).shl 16
  let sum ← shifted.add (.uint16 c.ax)
  sum.cast t

/-- `i8088_div_16`; `none` is the divide error. -/
def cDiv16 (c : I8088) (input : Word) : CEval (Option I8088) := do
  let zero ← (CVal.uint16 input).compare (.int 0) (· == ·)
  CEval.branch zero.toBit (return none) do
    let dividend ← cDxax c .uint32
    let quotient ← dividend.div (.uint16 input)
    let dividend ← cDxax c .uint32
    let remainder ← dividend.mod (.uint16 input)
    let large ← quotient.compare (.int 0xFFFF) (· > ·)
    CEval.branch large.toBit (return none) do
      let ax ← quotient.and (.int 0xFFFF)
      return some { c with ax := ax.toBits 16, dx := remainder.toBits 16 }

/-- `cpu->dx == 0x8000 && cpu->ax == 0`. -/
def cSmallest (c : I8088) : CEval Bool :=
  ((CVal.uint16 c.dx).compare (.int 0x8000) (· == ·)).andThen
    ((CVal.uint16 c.ax).compare (.int 0) (· == ·))

/-- `quotient > 32767 || quotient <= -32768`. -/
def cOutside (quotient : CVal) : CEval Bool :=
  (quotient.compare (.int 32767) (· > ·)).orElse (quotient.compare (.int (-32768)) (· ≤ ·))

/-- `i8088_idiv_16`. -/
def cIdiv16 (c : I8088) (input : Word) : CEval (Option I8088) := do
  let zero ← (CVal.uint16 input).compare (.int 0) (· == ·)
  CEval.branch zero.toBit (return none) do
    let smallest ← cSmallest c
    CEval.branch smallest (return none) do
      let dividend ← cDxax c .int32
      let divisor ← (CVal.uint16 input).cast .int16
      let quotient ← dividend.div divisor
      let dividend ← cDxax c .int32
      let divisor ← (CVal.uint16 input).cast .int16
      let remainder ← dividend.mod divisor
      let outside ← cOutside quotient
      CEval.branch outside (return none) do
        let narrow ← quotient.cast .int16
        let ax ← narrow.and (.int 0xFFFF)
        return some { c with ax := ax.toBits 16, dx := remainder.toBits 16 }

/-! ### What is defined -/

@[simp] theorem cProductFlags_defined (f : Flags) (carry r : CVal) (half : ℕ) :
    (cProductFlags f carry r half).Defined := by
  simp [cProductFlags]

theorem cMul8_defined (c : I8088) (input : Byte) : (cMul8 c input).Defined := by
  have hle : c.al.toNat * input.toNat ≤ 255 * 255 :=
    Nat.mul_le_mul (Nat.le_of_lt_succ c.al.isLt) (Nat.le_of_lt_succ input.isLt)
  have hproduct : ((CVal.uint8 c.al).mul (.uint8 input)).Defined := by
    rw [CVal.mul_defined_iff rfl rfl, CVal.value_uint8, CVal.value_uint8]
    norm_cast
    omega
  simp [cMul8, hproduct]

theorem cMul16_defined (c : I8088) (input : Word) :
    (cMul16 c input).Defined ↔ c.ax.toNat * input.toNat < 2 ^ 31 := by
  have hproduct : ((CVal.uint16 c.ax).mul (.uint16 input)).Defined ↔
      c.ax.toNat * input.toNat < 2 ^ 31 := by
    rw [CVal.mul_defined_iff rfl rfl, CVal.value_uint16, CVal.value_uint16]
    norm_cast
    omega
  simp [cMul16, hproduct]

/-- Signed operands of at most 16 bits are too small to overflow. -/
theorem mul_defined_signed {a b : CVal} (ha : a.type = .int8 ∨ a.type = .int16)
    (hb : b.type = .int8 ∨ b.type = .int16) : (a.mul b).Defined := by
  have hpromote : ∀ {v : CVal}, v.type = .int8 ∨ v.type = .int16 → v.type.promote = .int32 := by
    rintro v (h | h) <;> rw [h] <;> rfl
  have hsmall : ∀ {v : CVal}, v.type = .int8 ∨ v.type = .int16 → |v.value| ≤ 2 ^ 15 := by
    rintro v (h | h) <;> have hfits := v.fits <;> rw [h] at hfits <;>
      obtain ⟨hlow, hhigh⟩ := hfits <;> rw [abs_le] <;>
      simp only [CType.bits] at hlow hhigh <;> omega
  -- the largest product is that of the smallest values
  have hmul : |a.value * b.value| ≤ 2 ^ 15 * 2 ^ 15 := by
    rw [abs_mul]
    exact mul_le_mul (hsmall ha) (hsmall hb) (abs_nonneg _) (by decide)
  rw [CVal.mul_defined_iff (hpromote ha) (hpromote hb)]
  obtain ⟨hlow, hhigh⟩ := abs_le.mp hmul
  omega

theorem cImul8_defined (c : I8088) (input : Byte) : (cImul8 c input).Defined := by
  simp only [cImul8, CEval.defined_bind, CVal.defined_cast, CVal.defined_compare,
    cProductFlags_defined, CEval.defined_pure, true_and, and_true]
  exact mul_defined_signed (.inl rfl) (.inl rfl)

theorem cImul16_defined (c : I8088) (input : Word) : (cImul16 c input).Defined := by
  simp only [cImul16, CEval.defined_bind, CVal.defined_cast, CVal.defined_compare,
    CVal.defined_and, CVal.defined_shr, cProductFlags_defined, CEval.defined_pure, true_and,
    and_true]
  exact mul_defined_signed (.inr rfl) (.inr rfl)

/-- The upper word leaves the range as soon as its highest bit is set; the addition of the
lower word never does. -/
theorem cDxax_defined (c : I8088) (t : CType) : (cDxax c t).Defined ↔ c.dx.toNat < 0x8000 := by
  have hax := c.ax.isLt
  have hshl : ((CVal.uint16 c.dx).shl 16).Defined ↔ c.dx.toNat < 0x8000 := by
    rw [CVal.shl_defined_iff rfl, CVal.value_uint16]
    omega
  simp only [cDxax, CEval.defined_bind, CVal.defined_cast, and_true]
  rw [hshl, and_iff_left_iff_imp]
  -- with the bit clear the lower word has room behind the upper one
  intro hdx
  have hvalue : ((CVal.uint16 c.dx).shl 16).value.value = (c.dx.toNat : ℤ) * 2 ^ 16 := by
    rw [CVal.shl_promoted rfl, CVal.value_uint16]
    refine CVal.value_ofInt ?_
    show -2 ^ 31 ≤ (c.dx.toNat : ℤ) * 2 ^ 16 ∧ (c.dx.toNat : ℤ) * 2 ^ 16 < 2 ^ 31
    omega
  rw [CVal.add_defined_iff rfl rfl, hvalue, CVal.value_uint16]
  omega

/-- The double word as the bit vector of the divisions. -/
theorem cDxax_value (c : I8088) {t : CType} (ht : t = .uint32 ∨ t = .int32) :
    (cDxax c t).value = CVal.ofInt t c.dxax.toInt := by
  have hdx := c.dx.isLt
  have hax := c.ax.isLt
  have hshl : ((CVal.uint16 c.dx).shl 16).value = CVal.ofInt .int32 (c.dx.toNat * 2 ^ 16) := by
    rw [CVal.shl_promoted rfl, CVal.value_uint16]
    rfl
  -- the sum is that of the two words, whatever sign the shift has made
  have hsum : (((CVal.uint16 c.dx).shl 16).value.add (.uint16 c.ax)).value =
      CVal.ofInt .int32 c.dxax.toInt := by
    rw [hshl, CVal.add, CVal.arith_promoted rfl rfl, CVal.value_uint16, CVal.value_ofInt_int32]
    refine CVal.ofInt_congr _ ?_
    rw [BitVec.ofInt_add, BitVec.ofInt_toInt, BitVec.ofInt_toInt, ← BitVec.ofInt_add]
    refine BitVec.eq_of_toNat_eq ?_
    rw [BitVec.toNat_ofInt, Division.dxax_toNat]
    omega
  rw [cDxax, CEval.value_bind, CEval.value_bind, hsum]
  refine CVal.ofInt_congr t ?_
  rw [CVal.ofInt_convert ht, CVal.value_ofInt_int32, BitVec.ofInt_toInt, BitVec.ofInt_toInt]

theorem toBit_eq_zero (input : Word) :
    ((CVal.uint16 input).compare (.int 0) (· == ·)).value.toBit = true ↔ input = 0 := by
  have hzero : (CVal.int 0).value = 0 := CVal.value_int (by decide)
  rw [CVal.toBit_compare rfl rfl, CVal.value_uint16, hzero, beq_iff_eq, ← BitVec.toNat_inj]
  exact Int.natCast_eq_zero

/-- `DIV` of a double word is defined if DX can be shifted without overflow, or is not looked at. -/
theorem cDiv16_defined (c : I8088) (input : Word) :
    (cDiv16 c input).Defined ↔ input = 0 ∨ c.dx.toNat < 0x8000 := by
  rw [cDiv16, CEval.defined_bind_of (CVal.defined_compare _ _ _)]
  by_cases h : input = 0
  · rw [CEval.branch_of ((toBit_eq_zero input).mpr h)]
    exact iff_of_true (CEval.defined_pure _) (.inl h)
  -- the division is one of `uint32_t`
  · have hdiv : ((cDxax c .uint32).value.div (.uint16 input)).Defined :=
      CVal.arith_defined_of_uint32 rfl _ _
    rw [CEval.branch_of_not (mt (toBit_eq_zero input).mp h), CEval.defined_bind, cDxax_defined,
      CEval.defined_bind_of hdiv, CEval.defined_bind, cDxax_defined,
      CEval.defined_bind_of (CVal.defined_mod _ _),
      CEval.defined_bind_of (CVal.defined_compare _ _ _)]
    constructor
    · intro hdefined
      exact .inr hdefined.1
    · intro hor
      have hdx := hor.resolve_left h
      refine ⟨hdx, hdx, CEval.defined_branch (CEval.defined_pure _) ?_⟩
      rw [CEval.defined_bind_of (CVal.defined_and _ _)]
      exact CEval.defined_pure _

theorem cSmallest_defined (c : I8088) : (cSmallest c).Defined :=
  CEval.defined_andThen (CVal.defined_compare _ _ _) (CVal.defined_compare _ _ _)

theorem cOutside_defined (quotient : CVal) : (cOutside quotient).Defined :=
  CEval.defined_orElse (CVal.defined_compare _ _ _) (CVal.defined_compare _ _ _)

theorem cSmallest_value (c : I8088) :
    (cSmallest c).value = true ↔ c.dx = 0x8000 ∧ c.ax = 0 := by
  have hdx : ((CVal.uint16 c.dx).compare (.int 0x8000) (· == ·)).value.toBit = true ↔
      c.dx = 0x8000 := by
    have hconst : (CVal.int 0x8000).value = 0x8000 := CVal.value_int (by decide)
    have hword : (0x8000 : Word).toNat = 0x8000 := rfl
    rw [CVal.toBit_compare rfl rfl, CVal.value_uint16, hconst, beq_iff_eq, ← BitVec.toNat_inj,
      hword]
    omega
  rw [cSmallest, CEval.value_andThen, Bool.and_eq_true, hdx, toBit_eq_zero]

/-- `IDIV` of a double word likewise; the smallest dividend is refused before it is divided. -/
theorem cIdiv16_defined (c : I8088) (input : Word) :
    (cIdiv16 c input).Defined ↔
      input = 0 ∨ (c.dx = 0x8000 ∧ c.ax = 0) ∨ c.dx.toNat < 0x8000 := by
  rw [cIdiv16, CEval.defined_bind_of (CVal.defined_compare _ _ _)]
  by_cases h : input = 0
  · rw [CEval.branch_of ((toBit_eq_zero input).mpr h)]
    exact iff_of_true (CEval.defined_pure _) (.inl h)
  · rw [CEval.branch_of_not (mt (toBit_eq_zero input).mp h), or_iff_right h,
      CEval.defined_bind_of (cSmallest_defined c)]
    by_cases hmin : c.dx = 0x8000 ∧ c.ax = 0
    · rw [CEval.branch_of ((cSmallest_value c).mpr hmin)]
      exact iff_of_true (CEval.defined_pure _) (.inl hmin)
    · rw [CEval.branch_of_not (mt (cSmallest_value c).mp hmin), or_iff_right hmin,
        CEval.defined_bind, cDxax_defined]
      constructor
      · intro hdefined
        exact hdefined.1
      · intro hdx
        -- the dividend is not the smallest `int32_t`, so that no quotient overflows
        have hdiv : ∀ v : CVal, v.type = .int16 → ((cDxax c .int32).value.div v).Defined := by
          intro v hv
          have hlow := BitVec.le_toInt c.dxax
          rw [cDxax_value c (.inr rfl)]
          refine CVal.div_defined rfl (by rw [hv]; rfl) ?_
          rw [CVal.value_ofInt_int32, BitVec.ofInt_toInt, Division.dxax_toInt]
          rw [BitVec.toInt_eq_toNat_cond]
          omega
        refine ⟨hdx, ?_⟩
        rw [CEval.defined_bind_of (CVal.defined_cast _ _), CEval.defined_bind_of (hdiv _ rfl),
          CEval.defined_bind_of ((cDxax_defined c _).mpr hdx),
          CEval.defined_bind_of (CVal.defined_cast _ _),
          CEval.defined_bind_of (CVal.defined_mod _ _), CEval.defined_bind_of (cOutside_defined _)]
        refine CEval.defined_branch (CEval.defined_pure _) ?_
        rw [CEval.defined_bind_of (CVal.defined_cast _ _),
          CEval.defined_bind_of (CVal.defined_and _ _)]
        exact CEval.defined_pure _

/-! ### What is computed -/

/-- The flags of a product with the upper half `high`. -/
theorem cProductFlags_value {w : ℕ} (f : Flags) (carry r : CVal) (half : ℕ) (high : BitVec w)
    (hp : BitVec.ofInt 16 (r.value / 2 ^ half) = high.setWidth 16)
    (hs : (r.value / 2 ^ (2 * half - 1) % 2 == 1) = high.msb)
    (hz : r.value / 2 ^ half = 0 ↔ high = 0) :
    (cProductFlags f carry r half).value = f.setProduct carry.toBit high := by
  have hparity : ((r.shr half).value.toBits 16) = high.setWidth 16 := by
    rw [CVal.toBits, CVal.value_shr, hp]
  have hsign : (r.shr (2 * half - 1)).value.toBit = high.msb := by
    rw [CVal.toBit, CVal.value_shr, hs]
  have hzero : ((r.shr half).value.compare (.int 0) (· == ·)).value.toBit = (high == 0) := by
    rw [CVal.toBit_compare_zero, CVal.value_shr, Bool.eq_iff_iff, beq_iff_eq, beq_iff_eq, hz]
  simp only [cProductFlags, CEval.value_bind, CEval.value_pure]
  rw [hparity, hsign, hzero]
  rfl

theorem toNat_highByte (x : Word) : (highByte x).toNat = x.toNat / 2 ^ 8 := by
  have hx := x.isLt
  rw [highByte, BitVec.toNat_setWidth, BitVec.toNat_ushiftRight, Nat.shiftRight_eq_div_pow]
  omega

/-- The flags of a product follow from its upper half: as a `uint16_t`, -/
theorem cProductFlags_uint16 (f : Flags) (carry : CVal) (x : Word) :
    (cProductFlags f carry (.uint16 x) 8).value = f.setProduct carry.toBit (highByte x) := by
  have hx := x.isLt
  refine cProductFlags_value f carry _ 8 (highByte x) ?_ ?_ ?_ <;> rw [CVal.value_uint16]
  · refine BitVec.eq_of_toNat_eq ?_
    rw [BitVec.toNat_ofInt, BitVec.toNat_setWidth, toNat_highByte]
    omega
  · rw [BitVec.msb_eq_decide, toNat_highByte, beq_eq_decide, decide_eq_decide]
    omega
  · rw [← BitVec.toNat_inj, toNat_highByte]
    show _ ↔ x.toNat / 2 ^ 8 = 0
    omega

/-- The upper half of a double word. -/
theorem toNat_upper (x : BitVec 32) : ((x >>> 16).setWidth 16 : Word).toNat = x.toNat / 2 ^ 16 := by
  have hx := x.isLt
  rw [BitVec.toNat_setWidth, BitVec.toNat_ushiftRight, Nat.shiftRight_eq_div_pow]
  omega

/-- A double word is nonnegative, or has its highest bit set. -/
theorem toInt32_cases (x : BitVec 32) :
    x.toInt = x.toNat ∨ x.toInt = x.toNat - 2 ^ 32 ∧ 2 ^ 31 ≤ x.toNat := by
  rw [BitVec.toInt_eq_toNat_cond]
  split_ifs
  · exact .inl rfl
  · exact .inr ⟨rfl, by omega⟩

theorem toBits_upper_uint32 (x : BitVec 32) :
    ((CVal.uint32 x).shr 16).value.toBits 16 = ((x >>> 16).setWidth 16 : Word) := by
  have hx := x.isLt
  rw [CVal.toBits, CVal.value_shr, CVal.value_uint32]
  refine BitVec.eq_of_toNat_eq ?_
  rw [BitVec.toNat_ofInt, toNat_upper]
  omega

theorem toBits_upper_int32 (x : BitVec 32) :
    ((CVal.int32 x).shr 16).value.toBits 16 = ((x >>> 16).setWidth 16 : Word) := by
  have hx := x.isLt
  have hint := toInt32_cases x
  rw [CVal.toBits, CVal.value_shr, CVal.value_int32]
  refine BitVec.eq_of_toNat_eq ?_
  rw [BitVec.toNat_ofInt, toNat_upper]
  omega

/-- as a `uint32_t`, -/
theorem cProductFlags_uint32 (f : Flags) (carry : CVal) (x : BitVec 32) :
    (cProductFlags f carry (.uint32 x) 16).value =
      f.setProduct carry.toBit ((x >>> 16).setWidth 16 : Word) := by
  have hx := x.isLt
  have hhigh := toBits_upper_uint32 x
  rw [CVal.toBits, CVal.value_shr] at hhigh
  refine cProductFlags_value f carry _ 16 _ hhigh ?_ ?_ <;> rw [CVal.value_uint32]
  · rw [BitVec.msb_eq_decide, toNat_upper, beq_eq_decide, decide_eq_decide]
    omega
  · rw [← BitVec.toNat_inj, toNat_upper]
    show _ ↔ x.toNat / 2 ^ 16 = 0
    omega

/-- and as an `int32_t`. -/
theorem cProductFlags_int32 (f : Flags) (carry : CVal) (x : BitVec 32) :
    (cProductFlags f carry (.int32 x) 16).value =
      f.setProduct carry.toBit ((x >>> 16).setWidth 16 : Word) := by
  have hx := x.isLt
  have hint := toInt32_cases x
  have hhigh := toBits_upper_int32 x
  rw [CVal.toBits, CVal.value_shr] at hhigh
  refine cProductFlags_value f carry _ 16 _ hhigh ?_ ?_ <;> rw [CVal.value_int32]
  · rw [BitVec.msb_eq_decide, toNat_upper, beq_eq_decide, decide_eq_decide]
    omega
  · rw [← BitVec.toNat_inj, toNat_upper]
    show _ ↔ x.toNat / 2 ^ 16 = 0
    omega

/-! The products, as the objects they are assigned to. -/

theorem mul8_product (c : I8088) (input : Byte) :
    ((CVal.uint8 c.al).mul (.uint8 input)).value.store .uint16 =
      .uint16 (c.al.setWidth 16 * input.setWidth 16) := by
  rw [CVal.mul_store rfl rfl, CVal.ofInt_uint16, CVal.value_uint8, CVal.value_uint8,
    BitVec.ofInt_mul, BitVec.ofInt_natCast, BitVec.ofInt_natCast, BitVec.ofNat_toNat,
    BitVec.ofNat_toNat]

theorem mul16_product (c : I8088) (input : Word) :
    ((CVal.uint16 c.ax).mul (.uint16 input)).value.store .uint32 =
      .uint32 (c.ax.setWidth 32 * input.setWidth 32) := by
  rw [CVal.mul_store rfl rfl, CVal.ofInt_uint32, CVal.value_uint16, CVal.value_uint16,
    BitVec.ofInt_mul, BitVec.ofInt_natCast, BitVec.ofInt_natCast, BitVec.ofNat_toNat,
    BitVec.ofNat_toNat]

theorem imul8_product (c : I8088) (input : Byte) :
    (((CVal.uint8 c.al).cast .int8).value.mul ((CVal.uint8 input).cast .int8).value).value.store
        .uint16 =
      .uint16 (c.al.signExtend 16 * input.signExtend 16) := by
  rw [CVal.mul_store rfl rfl, CVal.ofInt_uint16, CVal.value_cast_int8, CVal.value_cast_int8,
    BitVec.ofInt_mul]
  rfl

theorem imul16_product (c : I8088) (input : Word) :
    (((CVal.uint16 c.ax).cast .int16).value.mul ((CVal.uint16 input).cast .int16).value).value.store
        .int32 =
      .int32 (c.ax.signExtend 32 * input.signExtend 32) := by
  rw [CVal.mul_store rfl rfl, CVal.ofInt_int32, CVal.value_cast_int16, CVal.value_cast_int16,
    BitVec.ofInt_mul]
  rfl

/-! Their low halves. -/

theorem toBits_uint32 (x : BitVec 32) : (CVal.uint32 x).toBits 16 = x.setWidth 16 := by
  rw [CVal.toBits, CVal.value_uint32, BitVec.ofInt_natCast, BitVec.ofNat_toNat]

theorem toBits_int32 (x : BitVec 32) : (CVal.int32 x).toBits 16 = x.setWidth 16 := by
  have hint := toInt32_cases x
  refine BitVec.eq_of_toNat_eq ?_
  rw [CVal.toBits, CVal.value_int32, BitVec.toNat_ofInt, BitVec.toNat_setWidth]
  omega

theorem toBits_uint16 (x : Word) : (CVal.uint16 x).toBits 16 = x := by
  rw [CVal.toBits, CVal.value_uint16, BitVec.ofInt_natCast, BitVec.ofNat_toNat,
    BitVec.setWidth_eq]

/-- `i8088_mul_8` computes what its expressions give. -/
theorem cMul8_value (c : I8088) (input : Byte) : (cMul8 c input).value = i8088Mul8 c input := by
  have hcarry : ∀ x : Word, (((CVal.uint16 x).shr 8).value.compare (.int 0) (· > ·)).value.toBit =
      (highByte x != 0) := by
    intro x
    rw [CVal.toBit_compare_zero, CVal.value_shr, CVal.value_uint16, Bool.eq_iff_iff,
      decide_eq_true_iff, bne_iff_ne, Ne, ← BitVec.toNat_inj, toNat_highByte]
    show _ ↔ ¬x.toNat / 2 ^ 8 = 0
    omega
  simp only [cMul8, CEval.value_bind, CEval.value_pure]
  rw [mul8_product, cProductFlags_uint16, hcarry, toBits_uint16]
  rfl

/-- `i8088_imul_8` as well. -/
theorem cImul8_value (c : I8088) (input : Byte) : (cImul8 c input).value = i8088Imul8 c input := by
  have hcarry : ∀ x : Word, (((CVal.uint16 x).cast .int16).value.compare
      ((CVal.uint16 x).cast .int8).value (· != ·)).value.toBit =
      (x != (lowByte x).signExtend 16) := by
    intro x
    have hx := x.isLt
    have hlow : (lowByte x).toNat = x.toNat % 2 ^ 8 := BitVec.toNat_setWidth ..
    -- the carry compares the product with what is left of it in a byte
    have hnarrow : ((CVal.uint16 x).cast .int8).value.value =
        ((lowByte x).signExtend 16).toInt := by
      rw [BitVec.toInt_signExtend_of_le (by decide), BitVec.toInt_eq_toNat_cond, hlow, CVal.cast,
        CVal.value_result, CVal.value_ofInt (CType.fits_convert ..), CVal.value_uint16]
      simp only [CType.convert, CType.signed, CType.bits, if_true]
      split_ifs <;> omega
    rw [CVal.toBit_compare rfl rfl, CVal.value_cast_int16, hnarrow, Bool.eq_iff_iff, bne_iff_ne,
      bne_iff_ne, Ne, BitVec.toInt_inj]
  simp only [cImul8, CEval.value_bind, CEval.value_pure]
  rw [imul8_product, cProductFlags_uint16, hcarry, toBits_uint16]
  rfl

/-- `i8088_mul_16` as well. -/
theorem cMul16_value (c : I8088) (input : Word) :
    (cMul16 c input).value = i8088Mul16 c input := by
  -- the upper half is looked at as a value by C, and as bits here
  have hcarry : ∀ x : BitVec 32,
      (((CVal.uint32 x).shr 16).value.compare (.int 0) (· > ·)).value.toBit =
        (((x >>> 16).setWidth 16 : Word) != 0) := by
    intro x
    rw [CVal.toBit_compare_zero, CVal.value_shr, CVal.value_uint32, Bool.eq_iff_iff,
      decide_eq_true_iff, bne_iff_ne, Ne, ← BitVec.toNat_inj, toNat_upper]
    show _ ↔ ¬x.toNat / 2 ^ 16 = 0
    omega
  simp only [cMul16, CEval.value_bind, CEval.value_pure]
  rw [mul16_product, cProductFlags_uint32, hcarry, CVal.toBits_and, ← CVal.toBits,
    toBits_uint32, toBits_upper_uint32]
  rfl

/-- `i8088_imul_16` as well. -/
theorem cImul16_value (c : I8088) (input : Word) :
    (cImul16 c input).value = i8088Imul16 c input := by
  have hcarry : ∀ x : BitVec 32, ((CVal.int32 x).compare ((CVal.int32 x).cast .int16).value
      (· != ·)).value.toBit = (x != ((x.setWidth 16 : Word)).signExtend 32) := by
    intro x
    have hint := toInt32_cases x
    -- the carry compares the product with what is left of it in a word
    have hnarrow : ((CVal.int32 x).cast .int16).value.value =
        (((x.setWidth 16 : Word)).signExtend 32).toInt := by
      rw [BitVec.toInt_signExtend_of_le (by decide), BitVec.toInt_eq_toNat_cond,
        BitVec.toNat_setWidth, CVal.cast, CVal.value_result,
        CVal.value_ofInt (CType.fits_convert ..), CVal.value_int32]
      simp only [CType.convert, CType.signed, CType.bits, if_true]
      split_ifs <;> omega
    rw [CVal.toBit_compare rfl rfl, CVal.value_int32, hnarrow, Bool.eq_iff_iff, bne_iff_ne,
      bne_iff_ne, Ne, BitVec.toInt_inj]
  simp only [cImul16, CEval.value_bind, CEval.value_pure]
  rw [imul16_product, cProductFlags_int32, hcarry, CVal.toBits_and, ← CVal.toBits,
    toBits_int32, toBits_upper_int32]
  rfl

/-! ### All operands -/

/-- The multiplications and divisions with their operands. -/
inductive Arithmetic where
  | mul8 (input : Byte)
  | mul16 (input : Word)
  | imul8 (input : Byte)
  | imul16 (input : Word)
  | div16 (input : Word)
  | idiv16 (input : Word)
deriving DecidableEq, Repr

namespace Arithmetic

/-- No expression of type `int` leaves its range. -/
def Defined (op : Arithmetic) (c : I8088) : Prop :=
  match op with
  | mul8 input => (cMul8 c input).Defined
  | mul16 input => (cMul16 c input).Defined
  | imul8 input => (cImul8 c input).Defined
  | imul16 input => (cImul16 c input).Defined
  | div16 input => (cDiv16 c input).Defined
  | idiv16 input => (cIdiv16 c input).Defined

/-- The operands that are small enough for an `int`. -/
def InRange (op : Arithmetic) (c : I8088) : Prop :=
  match op with
  | mul8 _ => True
  | mul16 input => c.ax.toNat * input.toNat < 2 ^ 31
  | imul8 _ => True
  | imul16 _ => True
  | div16 input => input = 0 ∨ c.dx.toNat < 0x8000
  | idiv16 input => input = 0 ∨ (c.dx = 0x8000 ∧ c.ax = 0) ∨ c.dx.toNat < 0x8000

end Arithmetic

/-- The signed multiplications and that of bytes stay in the range of an `int`. The product of
two words leaves it from 2^31 on, and the shift of DX as soon as its highest bit is set. -/
theorem int_defined_iff (op : Arithmetic) (c : I8088) : op.Defined c ↔ op.InRange c := by
  cases op with
  | mul8 input => exact iff_of_true (cMul8_defined c input) trivial
  | mul16 input => exact cMul16_defined c input
  | imul8 input => exact iff_of_true (cImul8_defined c input) trivial
  | imul16 input => exact iff_of_true (cImul16_defined c input) trivial
  | div16 input => exact cDiv16_defined c input
  | idiv16 input => exact cIdiv16_defined c input

/-- `MUL` of FFFF by FFFF. -/
theorem int_overflows :
    ¬ ∀ (op : Arithmetic) (c : I8088), op.Defined c := by
  intro h
  have hmul := (cMul16_defined { machineWith [] |>.cpu with ax := 0xFFFF } 0xFFFF).mp
    (h (.mul16 0xFFFF) _)
  exact absurd hmul (by decide)

end Pc20iii
