import Mathlib.Algebra.Order.Ring.Int
import Mathlib.Data.Int.Cast.Basic

/-!
# Integer expressions of C

The operators of C on the integer types of 8, 16 and 32 bits, for an `int` of 32 bits. Operands
narrower than an `int` are promoted to it, and the two operands of an operator are converted to
a common type.

An expression of type `int` whose exact value does not fit is undefined in C. An evaluation
(`CEval`) has the value of two's complement arithmetic together with the exact values of all
the expressions of type `int` that it went through; it is `Defined` if they all fit. Of a
sequence of evaluations this is a conjunction (`defined_bind`).
-/

namespace StateProgram

/-- The integer types; `int` is `int32`. -/
inductive CType where
  | uint8
  | int8
  | uint16
  | int16
  | uint32
  | int32
deriving DecidableEq, Repr

namespace CType

def bits : CType → ℕ
  | uint8 => 8
  | int8 => 8
  | uint16 => 16
  | int16 => 16
  | uint32 => 32
  | int32 => 32

def signed : CType → Bool
  | uint8 => false
  | int8 => true
  | uint16 => false
  | int16 => true
  | uint32 => false
  | int32 => true

/-- The values of a type. -/
def Fits (t : CType) (z : ℤ) : Prop :=
  if t.signed then -2 ^ (t.bits - 1) ≤ z ∧ z < 2 ^ (t.bits - 1) else 0 ≤ z ∧ z < 2 ^ t.bits

instance (t : CType) (z : ℤ) : Decidable (t.Fits z) := inferInstanceAs (Decidable (ite ..))

/-- A conversion, modulo the power of two also where the type is signed. -/
def convert (t : CType) (z : ℤ) : ℤ :=
  if t.signed then (z + 2 ^ (t.bits - 1)) % 2 ^ t.bits - 2 ^ (t.bits - 1) else z % 2 ^ t.bits

/-- The integer promotions. -/
def promote : CType → CType
  | uint32 => uint32
  | _ => int32

/-- The usual arithmetic conversions. -/
def common (t t' : CType) : CType :=
  if t.promote = uint32 ∨ t'.promote = uint32 then uint32 else int32

theorem convert_of_fits {t : CType} {z : ℤ} (h : t.Fits z) : t.convert z = z := by
  cases t <;> simp only [Fits, signed, bits, if_true, Bool.false_eq_true, if_false] at h <;>
    simp only [convert, signed, bits, if_true, Bool.false_eq_true, if_false] <;> omega

theorem fits_convert (t : CType) (z : ℤ) : t.Fits (t.convert z) := by
  cases t <;> simp only [Fits, convert, signed, bits, if_true, Bool.false_eq_true, if_false] <;>
    omega

/-- A promotion to `int` keeps the value. -/
theorem fits_promote {t : CType} (h : t.promote = int32) {z : ℤ} (hz : t.Fits z) :
    int32.Fits z := by
  cases t <;> simp only [Fits, signed, bits, if_true, Bool.false_eq_true, if_false] at hz ⊢ <;>
    first
    | omega
    | exact absurd h (by decide)

theorem common_int {t t' : CType} (h : t.promote = int32) (h' : t'.promote = int32) :
    t.common t' = int32 := by
  rw [common, h, h']
  rfl

end CType

/-- An evaluation: what it gives, and the exact values of its expressions of type `int`. -/
structure CEval (α : Type) where
  value : α
  ints : List ℤ

namespace CEval

variable {α β : Type}

instance : Monad CEval where
  pure a := ⟨a, []⟩
  bind x f := ⟨(f x.value).value, x.ints ++ (f x.value).ints⟩

@[simp] theorem value_pure (a : α) : (pure a : CEval α).value = a := rfl

@[simp] theorem value_bind (x : CEval α) (f : α → CEval β) :
    (x >>= f).value = (f x.value).value := rfl

/-- No expression of type `int` has overflowed. -/
def Defined (x : CEval α) : Prop := ∀ z ∈ x.ints, CType.int32.Fits z

instance (x : CEval α) : Decidable x.Defined := inferInstanceAs (Decidable (∀ z ∈ x.ints, _))

@[simp] theorem defined_pure (a : α) : (pure a : CEval α).Defined :=
  fun _ h => absurd h List.not_mem_nil

/-- A sequence of evaluations is defined if each of them is. -/
@[simp] theorem defined_bind (x : CEval α) (f : α → CEval β) :
    (x >>= f).Defined ↔ x.Defined ∧ (f x.value).Defined :=
  List.forall_mem_append

theorem defined_bind_of {x : CEval α} (h : x.Defined) (f : α → CEval β) :
    (x >>= f).Defined ↔ (f x.value).Defined := by
  rw [defined_bind, and_iff_right h]

/-- A statement `if`. -/
def branch (b : Bool) (x y : CEval α) : CEval α := if b then x else y

theorem branch_of {b : Bool} (h : b = true) (x y : CEval α) : branch b x y = x := if_pos h

theorem branch_of_not {b : Bool} (h : ¬b = true) (x y : CEval α) : branch b x y = y := if_neg h

theorem defined_branch {b : Bool} {x y : CEval α} (hx : x.Defined) (hy : y.Defined) :
    (branch b x y).Defined := by
  cases b with
  | false => exact hy
  | true => exact hx

end CEval

/-- A value of a type. -/
structure CVal where
  type : CType
  value : ℤ
  fits : type.Fits value

namespace CVal

/-- The value of a type that a number is converted to. -/
def ofInt (t : CType) (z : ℤ) : CVal := ⟨t, t.convert z, t.fits_convert z⟩

/-- The result of an operator whose exact value is `z`. -/
def result (t : CType) (z : ℤ) : CEval CVal := ⟨ofInt t z, if t = .int32 then [z] else []⟩

/-- Objects of the types that registers and products have, and a constant of type `int`. -/
def uint8 (x : BitVec 8) : CVal := ofInt .uint8 x.toNat
def uint16 (x : BitVec 16) : CVal := ofInt .uint16 x.toNat
def uint32 (x : BitVec 32) : CVal := ofInt .uint32 x.toNat
def int32 (x : BitVec 32) : CVal := ofInt .int32 x.toInt
def int (z : ℤ) : CVal := ofInt .int32 z

variable (a b : CVal)

/-- The low bits, as an assignment to a register keeps them. -/
def toBits (w : ℕ) : BitVec w := BitVec.ofInt w a.value

/-- An assignment to a bit field of one bit. -/
def toBit : Bool := a.value % 2 == 1

/-- The conversion by an assignment to an object of the type. -/
def store (t : CType) : CVal := ofInt t a.value

/-- An arithmetic operator on the operands converted to their common type. -/
def arith (op : ℤ → ℤ → ℤ) : CEval CVal :=
  let t := a.type.common b.type
  result t (op (t.convert a.value) (t.convert b.value))

def add : CEval CVal := arith a b (· + ·)
def mul : CEval CVal := arith a b (· * ·)

/-- Division truncates. -/
def div : CEval CVal := arith a b Int.tdiv
def mod : CEval CVal := arith a b Int.tmod

/-- `&`, on the bits of the operands. -/
def and : CEval CVal :=
  let t := a.type.common b.type
  result t (t.convert (BitVec.ofInt 32 a.value &&& BitVec.ofInt 32 b.value).toNat)

/-- `<<` by a constant, in the promoted type of the left operand. -/
def shl (k : ℕ) : CEval CVal :=
  let t := a.type.promote
  result t (t.convert a.value * 2 ^ k)

/-- `>>` by a constant. -/
def shr (k : ℕ) : CEval CVal :=
  let t := a.type.promote
  result t (t.convert a.value / 2 ^ k)

/-- A comparison is 0 or 1, of type `int`. -/
def compare (test : ℤ → ℤ → Bool) : CEval CVal :=
  let t := a.type.common b.type
  result .int32 (if test (t.convert a.value) (t.convert b.value) then 1 else 0)

/-- A cast. -/
def cast (t : CType) : CEval CVal := result t (t.convert a.value)

end CVal

namespace CEval

variable (x y : CEval CVal)

/-- `&&`: the right operand is evaluated only if the left one is true. -/
def andThen : CEval Bool := do
  let a ← x
  branch a.toBit (do return (← y).toBit) (return false)

/-- `||`: the right operand is evaluated only if the left one is false. -/
def orElse : CEval Bool := do
  let a ← x
  branch a.toBit (return true) do return (← y).toBit

theorem value_andThen : (x.andThen y).value = (x.value.toBit && y.value.toBit) := by
  rw [andThen, value_bind]
  cases x.value.toBit <;> rfl

variable {x y} (hx : x.Defined) (hy : y.Defined)

include hx hy

theorem defined_andThen : (x.andThen y).Defined := by
  rw [andThen, defined_bind_of hx]
  refine defined_branch ?_ (defined_pure _)
  rw [defined_bind_of hy]
  exact defined_pure _

theorem defined_orElse : (x.orElse y).Defined := by
  rw [orElse, defined_bind_of hx]
  refine defined_branch (defined_pure _) ?_
  rw [defined_bind_of hy]
  exact defined_pure _

end CEval

namespace CVal

variable (a b : CVal)

/-! ### What is defined -/

theorem defined_result (t : CType) (z : ℤ) :
    (result t z).Defined ↔ (t = .int32 → CType.int32.Fits z) := by
  by_cases h : t = .int32
  · simp [CEval.Defined, result, h]
  · simp [CEval.Defined, result, h]

theorem defined_result_of_fits {t : CType} {z : ℤ} (h : t.Fits z) : (result t z).Defined := by
  rw [defined_result]
  rintro rfl
  exact h

@[simp] theorem defined_and : (a.and b).Defined :=
  defined_result_of_fits (CType.fits_convert ..)

@[simp] theorem defined_cast (t : CType) : (a.cast t).Defined :=
  defined_result_of_fits (CType.fits_convert ..)

@[simp] theorem defined_compare (test : ℤ → ℤ → Bool) : (a.compare b test).Defined := by
  refine defined_result_of_fits ?_
  split <;> decide

/-- A shift to the right makes a number smaller. -/
theorem ediv_bounds (z : ℤ) (k : ℕ) {m n : ℤ} (hm : m ≤ 0) (hn : 0 < n) (hz : m ≤ z ∧ z < n) :
    m ≤ z / 2 ^ k ∧ z / 2 ^ k < n := by
  have hpos : (1 : ℤ) ≤ 2 ^ k := one_le_pow₀ (by decide)
  constructor
  · rw [Int.le_ediv_iff_mul_le (by omega)]
    have hmul : m * 2 ^ k ≤ m * 1 := mul_le_mul_of_nonpos_left hpos hm
    omega
  · rw [Int.ediv_lt_iff_lt_mul (by omega)]
    have hmul : n * 1 ≤ n * 2 ^ k := mul_le_mul_of_nonneg_left hpos hn.le
    omega

theorem fits_shr (k : ℕ) : a.type.promote.Fits (a.type.promote.convert a.value / 2 ^ k) := by
  have hfits := CType.fits_convert a.type.promote a.value
  generalize a.type.promote.convert a.value = z at *
  have hpromote : a.type.promote = .uint32 ∨ a.type.promote = .int32 := by
    cases a.type <;> decide
  rcases hpromote with h | h <;> rw [h] at hfits ⊢ <;>
    exact ediv_bounds z k (by decide) (by decide) hfits

@[simp] theorem defined_shr (k : ℕ) : (a.shr k).Defined :=
  defined_result_of_fits (fits_shr a k)

/-- A remainder is no larger than its dividend, so that it fits the type of the dividend. -/
@[simp] theorem defined_mod : (a.mod b).Defined := by
  rw [mod, arith, defined_result]
  intro h
  rw [h]
  have ha := CType.fits_convert .int32 a.value
  generalize CType.int32.convert a.value = x at *
  generalize CType.int32.convert b.value = y at *
  obtain ⟨hlow, hhigh⟩ : -2 ^ 31 ≤ x ∧ x < 2 ^ 31 := ha
  -- the sign is that of the dividend
  have hle : (x.tmod y).natAbs ≤ x.natAbs := by
    rw [Int.natAbs_tmod]
    exact Nat.mod_le ..
  show -2 ^ 31 ≤ x.tmod y ∧ x.tmod y < 2 ^ 31
  rcases le_total 0 x with hx | hx
  · omega
  · have hneg := Int.tmod_nonneg (a := -x) y (by omega)
    rw [Int.neg_tmod] at hneg
    omega

section Promoted

variable {a b} (ha : a.type.promote = .int32) (hb : b.type.promote = .int32)

include ha

theorem convert_promoted : CType.int32.convert a.value = a.value :=
  CType.convert_of_fits (CType.fits_promote ha a.fits)

theorem shl_promoted (k : ℕ) : a.shl k = result .int32 (a.value * 2 ^ k) := by
  rw [shl, ha, convert_promoted ha]

include hb

theorem arith_promoted (op : ℤ → ℤ → ℤ) :
    a.arith b op = result .int32 (op a.value b.value) := by
  rw [arith, CType.common_int ha hb, convert_promoted ha, convert_promoted hb]

theorem mul_defined_iff :
    (a.mul b).Defined ↔ -2 ^ 31 ≤ a.value * b.value ∧ a.value * b.value < 2 ^ 31 := by
  rw [mul, arith_promoted ha hb, defined_result]
  exact ⟨fun h => h rfl, fun h _ => h⟩

theorem add_defined_iff :
    (a.add b).Defined ↔ -2 ^ 31 ≤ a.value + b.value ∧ a.value + b.value < 2 ^ 31 := by
  rw [add, arith_promoted ha hb, defined_result]
  exact ⟨fun h => h rfl, fun h _ => h⟩

/-- The one quotient that does not fit is that of the smallest dividend by -1. -/
theorem div_defined (hmin : -2 ^ 31 < a.value) : (a.div b).Defined := by
  have hfits : CType.int32.Fits a.value := CType.fits_promote ha a.fits
  obtain ⟨-, hhigh⟩ : -2 ^ 31 ≤ a.value ∧ a.value < 2 ^ 31 := hfits
  have hle := Int.natAbs_tdiv_le_natAbs a.value b.value
  rw [div, arith_promoted ha hb, defined_result]
  intro _
  show -2 ^ 31 ≤ a.value.tdiv b.value ∧ a.value.tdiv b.value < 2 ^ 31
  omega

theorem compare_promoted (test : ℤ → ℤ → Bool) :
    a.compare b test = result .int32 (if test a.value b.value then 1 else 0) := by
  rw [compare, CType.common_int ha hb, convert_promoted ha, convert_promoted hb]

end Promoted

theorem shl_defined_iff {a : CVal} (ha : a.type.promote = .int32) (k : ℕ) :
    (a.shl k).Defined ↔ -2 ^ 31 ≤ a.value * 2 ^ k ∧ a.value * 2 ^ k < 2 ^ 31 := by
  rw [shl_promoted ha, defined_result]
  exact ⟨fun h => h rfl, fun h _ => h⟩

/-- Unsigned arithmetic does not overflow. -/
theorem arith_defined_of_uint32 {a : CVal} (ha : a.type = .uint32) (b : CVal) (op : ℤ → ℤ → ℤ) :
    (a.arith b op).Defined := by
  have hcommon : a.type.common b.type = .uint32 := by
    rw [CType.common, ha]
    exact if_pos (.inl rfl)
  rw [arith, hcommon, defined_result]
  intro h
  exact absurd h (by decide)

/-! ### Values -/

@[simp] theorem value_result (t : CType) (z : ℤ) : (result t z).value = ofInt t z := rfl

@[simp] theorem type_ofInt (t : CType) (z : ℤ) : (ofInt t z).type = t := rfl

theorem value_ofInt {t : CType} {z : ℤ} (h : t.Fits z) : (ofInt t z).value = z :=
  CType.convert_of_fits h

theorem value_int {z : ℤ} (h : CType.int32.Fits z) : (int z).value = z := value_ofInt h

@[simp] theorem value_uint8 (x : BitVec 8) : (uint8 x).value = x.toNat :=
  value_ofInt ⟨Int.natCast_nonneg _, by exact_mod_cast x.isLt⟩

@[simp] theorem value_uint16 (x : BitVec 16) : (uint16 x).value = x.toNat :=
  value_ofInt ⟨Int.natCast_nonneg _, by exact_mod_cast x.isLt⟩

/-- The value of a conversion to 32 bits, as a bit vector. -/
theorem value_ofInt_int32 (z : ℤ) : (ofInt .int32 z).value = (BitVec.ofInt 32 z).toInt := by
  have hbmod : z.bmod (2 ^ 32) = (z + 2 ^ 31) % 2 ^ 32 - 2 ^ 31 := by
    rw [Int.bmod_def]
    split_ifs <;> omega
  rw [BitVec.toInt_ofInt, hbmod]
  rfl

theorem value_ofInt_uint32 (z : ℤ) : (ofInt .uint32 z).value = (BitVec.ofInt 32 z).toNat := by
  rw [BitVec.toNat_ofInt]
  have hnonneg : 0 ≤ z % 2 ^ 32 := Int.emod_nonneg z (by decide)
  exact (Int.toNat_of_nonneg hnonneg).symm

@[simp] theorem value_uint32 (x : BitVec 32) : (uint32 x).value = x.toNat :=
  value_ofInt ⟨Int.natCast_nonneg _, by exact_mod_cast x.isLt⟩

@[simp] theorem value_int32 (x : BitVec 32) : (int32 x).value = x.toInt := by
  rw [int32, value_ofInt_int32, BitVec.ofInt_toInt]

/-- A conversion to 32 bits keeps the low 32 bits. -/
theorem ofInt_convert {t : CType} (ht : t = .uint32 ∨ t = .int32) (z : ℤ) :
    BitVec.ofInt 32 (t.convert z) = BitVec.ofInt 32 z := by
  rcases ht with rfl | rfl
  · have h := value_ofInt_uint32 z
    rw [show CType.uint32.convert z = _ from h, BitVec.ofInt_natCast, BitVec.ofNat_toNat,
      BitVec.setWidth_eq]
  · have h := value_ofInt_int32 z
    rw [show CType.int32.convert z = _ from h, BitVec.ofInt_toInt]

/-- Conversions only see the low 32 bits. -/
theorem ofInt_congr (t : CType) {z z' : ℤ} (h : BitVec.ofInt 32 z = BitVec.ofInt 32 z') :
    ofInt t z = ofInt t z' := by
  have hmod : z % 2 ^ 32 = z' % 2 ^ 32 := by
    have hnat := congrArg BitVec.toNat h
    rw [BitVec.toNat_ofInt, BitVec.toNat_ofInt] at hnat
    have hnonneg : 0 ≤ z % 2 ^ 32 := Int.emod_nonneg z (by decide)
    have hnonneg' : 0 ≤ z' % 2 ^ 32 := Int.emod_nonneg z' (by decide)
    omega
  -- no type is wider than 32 bits
  have hconvert : t.convert z = t.convert z' := by
    cases t <;>
      simp only [CType.convert, CType.signed, CType.bits, if_true, Bool.false_eq_true, if_false] <;>
      omega
  unfold ofInt
  congr 1

theorem ofInt_uint16 (z : ℤ) : ofInt .uint16 z = uint16 (BitVec.ofInt 16 z) := by
  have hconvert : CType.uint16.convert z = CType.uint16.convert (BitVec.ofInt 16 z).toNat := by
    rw [BitVec.toNat_ofInt]
    simp only [CType.convert, CType.signed, CType.bits, Bool.false_eq_true, if_false]
    omega
  unfold uint16 ofInt
  congr 1

theorem ofInt_uint32 (z : ℤ) : ofInt .uint32 z = uint32 (BitVec.ofInt 32 z) := by
  refine ofInt_congr _ ?_
  rw [BitVec.ofInt_natCast, BitVec.ofNat_toNat, BitVec.setWidth_eq]

theorem ofInt_int32 (z : ℤ) : ofInt .int32 z = int32 (BitVec.ofInt 32 z) := by
  refine ofInt_congr _ ?_
  rw [BitVec.ofInt_toInt]

/-- A product that is assigned to an object: whether it has overflowed does not show. -/
theorem mul_store {a b : CVal} (ha : a.type.promote = .int32) (hb : b.type.promote = .int32)
    (t : CType) : (a.mul b).value.store t = ofInt t (a.value * b.value) := by
  rw [mul, arith_promoted ha hb, value_result, store]
  exact ofInt_congr t (ofInt_convert (.inr rfl) _)

theorem value_cast_int8 (x : BitVec 8) : ((uint8 x).cast .int8).value.value = x.toInt := by
  have hx := x.isLt
  rw [cast, value_result, value_ofInt (CType.fits_convert ..), value_uint8,
    BitVec.toInt_eq_toNat_cond]
  simp only [CType.convert, CType.signed, CType.bits, if_true]
  split_ifs <;> omega

theorem value_cast_int16 (x : BitVec 16) : ((uint16 x).cast .int16).value.value = x.toInt := by
  have hx := x.isLt
  rw [cast, value_result, value_ofInt (CType.fits_convert ..), value_uint16,
    BitVec.toInt_eq_toNat_cond]
  simp only [CType.convert, CType.signed, CType.bits, if_true]
  split_ifs <;> omega

theorem value_shr (a : CVal) (k : ℕ) : (a.shr k).value.value = a.value / 2 ^ k := by
  have hkeep : a.type.promote.convert a.value = a.value := by
    refine CType.convert_of_fits ?_
    have hfits := a.fits
    cases ht : a.type <;> rw [ht] at hfits <;>
      first
      | exact hfits
      | exact CType.fits_promote rfl hfits
  rw [shr, value_result, value_ofInt (fits_shr a k), hkeep]

/-- A mask of 16 bits that is assigned to an object of 16 bits. -/
theorem toBits_and (a : CVal) :
    (a.and (.int 0xFFFF)).value.toBits 16 = BitVec.ofInt 16 a.value := by
  have hmask : (CVal.int 0xFFFF).value = 0xFFFF := value_int (by decide)
  have hlow : (BitVec.ofInt 32 a.value &&& BitVec.ofInt 32 0xFFFF).toNat =
      (a.value % 2 ^ 16).toNat := by
    have hones : (BitVec.ofInt 32 0xFFFF).toNat = 2 ^ 16 - 1 := by decide
    rw [BitVec.toNat_and, hones, Nat.and_two_pow_sub_one_eq_mod, BitVec.toNat_ofInt]
    have hnonneg : 0 ≤ a.value % 2 ^ 32 := Int.emod_nonneg _ (by decide)
    omega
  -- the operation is done in 32 bits, with or without a sign
  have hcommon : a.type.common (CVal.int 0xFFFF).type = .uint32 ∨
      a.type.common (CVal.int 0xFFFF).type = .int32 := by
    cases a.type <;> decide
  -- and its result is below 2 ^ 16, so that either type holds it
  have hfits : ∀ t : CType, t = .uint32 ∨ t = .int32 → t.Fits (a.value % 2 ^ 16).toNat := by
    have hlt : (a.value % 2 ^ 16).toNat < 2 ^ 16 := by
      have h := Int.emod_lt_of_pos a.value (b := 2 ^ 16) (by decide)
      omega
    rintro t (rfl | rfl)
    · show (0 : ℤ) ≤ _ ∧ _ < 2 ^ 32
      omega
    · show (-2 ^ 31 : ℤ) ≤ _ ∧ _ < 2 ^ 31
      omega
  rw [CVal.and, hmask, hlow, value_result, CType.convert_of_fits (hfits _ hcommon), toBits,
    value_ofInt (hfits _ hcommon)]
  refine BitVec.eq_of_toNat_eq ?_
  rw [BitVec.toNat_ofInt, BitVec.toNat_ofInt]
  have hnonneg : 0 ≤ a.value % 2 ^ 16 := Int.emod_nonneg _ (by decide)
  omega

theorem toBit_result_ite (p : Prop) [Decidable p] :
    (result .int32 (if p then 1 else 0)).value.toBit = decide p := by
  by_cases h : p
  · rw [if_pos h, decide_eq_true h]
    rfl
  · rw [if_neg h, decide_eq_false h]
    rfl

/-- The truth of a comparison of promoted operands. -/
theorem toBit_compare {a b : CVal} (ha : a.type.promote = .int32) (hb : b.type.promote = .int32)
    (test : ℤ → ℤ → Bool) : (a.compare b test).value.toBit = test a.value b.value := by
  rw [compare_promoted ha hb, toBit_result_ite, Bool.decide_eq_true]

/-- The truth of a comparison with 0. -/
theorem toBit_compare_zero (a : CVal) (test : ℤ → ℤ → Bool) :
    (a.compare (.int 0) test).value.toBit = test a.value 0 := by
  have hzero : ∀ t : CType, t.convert (int 0).value = 0 := by
    intro t
    cases t <;> rfl
  have hkeep : (a.type.common (int 0).type).convert a.value = a.value := by
    refine CType.convert_of_fits ?_
    have hfits := a.fits
    cases ht : a.type <;> rw [ht] at hfits <;>
      first
      | exact hfits
      | exact CType.fits_promote rfl hfits
  rw [compare, hzero, hkeep, toBit_result_ite, Bool.decide_eq_true]

end CVal

end StateProgram
