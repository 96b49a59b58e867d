import Pc20iii.I8088.Arith
import Pc20iii.I8088.Stack

/-!
# Comparisons and conditional jumps

What the sixteen conditional jumps 70 to 7F decide after a comparison. Each of them tests one
or two flags (`opcode7`); `Jcc.Holds` says what it means for the operands that were compared,
and `conditional_jumps` that the two agree for every pair of operands.

The signed jumps test SF against OF: the sign of the wrapped difference is wrong exactly when
the difference is out of range (`cmp_less`).
-/

namespace Pc20iii

open StateProgram

variable {δ : Type} {w : ℕ}

/-- The conditional jumps, in the order of their opcodes. -/
inductive Jcc where
  | o
  | no
  | b
  | nb
  | z
  | nz
  | be
  | nbe
  | s
  | ns
  | p
  | np
  | l
  | nl
  | le
  | nle
deriving DecidableEq, Repr

/-- The low byte has an even number of set bits. -/
def EvenParity (x : BitVec w) : Prop := Even ((List.range 8).countP x.getLsbD)

instance (x : BitVec w) : Decidable (EvenParity x) := inferInstanceAs (Decidable (Even _))

namespace Jcc

/-- The opcode of a conditional jump. -/
def opcode (j : Jcc) : Byte :=
  match j with
  | o => 0x70
  | no => 0x71
  | b => 0x72
  | nb => 0x73
  | z => 0x74
  | nz => 0x75
  | be => 0x76
  | nbe => 0x77
  | s => 0x78
  | ns => 0x79
  | p => 0x7A
  | np => 0x7B
  | l => 0x7C
  | nl => 0x7D
  | le => 0x7E
  | nle => 0x7F

/-- The test that a conditional jump makes. -/
def test (j : Jcc) (f : Flags) : Bool :=
  match j with
  | o => f.o
  | no => !f.o
  | b => f.c
  | nb => !f.c
  | z => f.z
  | nz => !f.z
  | be => f.c || f.z
  | nbe => !f.c && !f.z
  | s => f.s
  | ns => !f.s
  | p => f.p
  | np => !f.p
  | l => f.s != f.o
  | nl => f.s == f.o
  | le => f.z || f.s != f.o
  | nle => !f.z && f.s == f.o

/-- What a conditional jump means for the operands that have been compared. -/
def Holds (j : Jcc) (x y : BitVec w) : Prop :=
  match j with
  | o => ¬SignedRange w (x.toInt - y.toInt)
  | no => SignedRange w (x.toInt - y.toInt)
  | b => x.toNat < y.toNat
  | nb => ¬x.toNat < y.toNat
  | z => x = y
  | nz => x ≠ y
  | be => x.toNat ≤ y.toNat
  | nbe => ¬x.toNat ≤ y.toNat
  | s => (x - y).toInt < 0
  | ns => ¬(x - y).toInt < 0
  | p => EvenParity (x - y)
  | np => ¬EvenParity (x - y)
  | l => x.toInt < y.toInt
  | nl => ¬x.toInt < y.toInt
  | le => x.toInt ≤ y.toInt
  | nle => ¬x.toInt ≤ y.toInt

end Jcc

/-! ### The parity -/

/-- The parity as the code folds it is that of the number of bits set in the low byte. -/
theorem parityEven_iff (v : Word) : parityEven v = true ↔ EvenParity v := by
  have hbits : parityEven v = !((v.getLsbD 0 ^^ v.getLsbD 4 ^^ (v.getLsbD 2 ^^ v.getLsbD 6)) ^^
      (v.getLsbD 1 ^^ v.getLsbD 5 ^^ (v.getLsbD 3 ^^ v.getLsbD 7))) := by
    simp [parityEven]
  have hcount : (List.range 8).countP v.getLsbD =
      [v.getLsbD 0, v.getLsbD 1, v.getLsbD 2, v.getLsbD 3, v.getLsbD 4, v.getLsbD 5,
        v.getLsbD 6, v.getLsbD 7].countP id := by
    simp [List.range_succ, List.countP_cons]
  unfold EvenParity
  rw [hbits, hcount]
  -- a fact about eight bits
  generalize v.getLsbD 0 = b₀, v.getLsbD 1 = b₁, v.getLsbD 2 = b₂, v.getLsbD 3 = b₃,
    v.getLsbD 4 = b₄, v.getLsbD 5 = b₅, v.getLsbD 6 = b₆, v.getLsbD 7 = b₇
  revert b₀ b₁ b₂ b₃ b₄ b₅ b₆ b₇
  decide

/-- The parity flag of a result of at most 16 bits. -/
theorem parityEven_setWidth (hw : w ≤ 16) (x : BitVec w) :
    parityEven (x.setWidth 16) = true ↔ EvenParity x := by
  have hbits : (x.setWidth 16).getLsbD = x.getLsbD := by
    funext i
    rw [BitVec.getLsbD_setWidth]
    by_cases hi : i < 16
    · rw [decide_eq_true hi, Bool.true_and]
    · rw [decide_eq_false hi, Bool.false_and, BitVec.getLsbD_of_ge _ _ (by omega)]
  rw [parityEven_iff]
  unfold EvenParity
  rw [hbits]

/-! ### The flags of a comparison -/

section Flags

variable (f : Flags) (x y : BitVec w)

theorem subFlags_fst : (subFlags false f x y).1 = x - y := by
  show x - y - (BitVec.ofBool false).setWidth w = x - y
  have hzero : (BitVec.ofBool false).setWidth w = 0#w := BitVec.setWidth_zero ..
  rw [hzero, BitVec.sub_zero]

theorem subFlags_z : (subFlags false f x y).2.z = true ↔ x = y := by
  show ((subFlags false f x y).1 == 0#w) = true ↔ x = y
  rw [subFlags_fst, beq_iff_eq]
  constructor
  · intro h
    rw [← BitVec.sub_add_cancel x y, h, BitVec.zero_add]
  · intro h
    rw [h, BitVec.sub_self]

theorem subFlags_s : (subFlags false f x y).2.s = true ↔ (x - y).toInt < 0 := by
  rw [subFlags_sign, subFlags_fst]

variable (hw : 0 < w) (hwidth : w ≤ 16)

include hwidth

theorem subFlags_p : (subFlags false f x y).2.p = true ↔ EvenParity (x - y) := by
  show parityEven ((subFlags false f x y).1.setWidth 16) = true ↔ _
  rw [subFlags_fst, parityEven_setWidth hwidth]

include hw

theorem cmp_below : (subFlags false f x y).2.c = true ↔ x.toNat < y.toNat := by
  rw [subFlags_c hw (by omega), decide_eq_true_iff]
  rfl

theorem cmp_overflow :
    (subFlags false f x y).2.o = true ↔ ¬SignedRange w (x.toInt - y.toInt) := by
  rw [(subFlags_signed hw (by omega) false f x y).1]
  simp

/-- SF differs from OF exactly when the first operand is less. -/
theorem cmp_less :
    ((subFlags false f x y).2.s != (subFlags false f x y).2.o) = true ↔ x.toInt < y.toInt := by
  have hs := subFlags_s f x y
  cases hof : (subFlags false f x y).2.o with
  | false =>
    -- the difference is exact
    have hexact := (subFlags_signed hw (by omega) false f x y).2 hof
    rw [subFlags_fst] at hexact
    rw [Bool.bne_false, hs, hexact, Bool.toNat_false]
    omega
  | true =>
    -- the operands differ in sign, and the difference has the sign of the second
    have ho : ((x.msb && !y.msb && !(subFlags false f x y).2.s) ||
        (!x.msb && y.msb && (subFlags false f x y).2.s)) = true := hof
    have hpow := two_pow_eq hw
    have hcast : ((2 ^ (w - 1) : ℕ) : ℤ) = 2 ^ (w - 1) := by norm_cast
    have hx := x.isLt
    have hy := y.isLt
    generalize (subFlags false f x y).2.s = sign at ho ⊢
    rcases toInt_cases hw x with ⟨hmx, hnx, hix⟩ | ⟨hmx, hnx, hix⟩ <;>
      rcases toInt_cases hw y with ⟨hmy, hny, hiy⟩ | ⟨hmy, hny, hiy⟩ <;>
      rw [hmx, hmy] at ho <;>
      cases sign <;>
      simp at ho ⊢ <;> omega

/-- The test of each jump after a comparison is its meaning for the operands. -/
theorem Jcc.test_iff (j : Jcc) :
    j.test (subFlags false f x y).2 = true ↔ j.Holds x y := by
  have ho := cmp_overflow f x y hw hwidth
  have hb := cmp_below f x y hw hwidth
  have hz := subFlags_z f x y
  have hs := subFlags_s f x y
  have hp := subFlags_p f x y hwidth
  have hl := cmp_less f x y hw hwidth
  -- the jumps that are negated or combined are reduced to those that are not
  have hbe : x.toNat ≤ y.toNat ↔ x.toNat < y.toNat ∨ x = y := by
    rw [← BitVec.toNat_inj, Nat.le_iff_lt_or_eq]
  have hle : x.toInt ≤ y.toInt ↔ x = y ∨ x.toInt < y.toInt := by
    rw [← BitVec.toInt_inj, Int.le_iff_eq_or_lt]
  have hsame : ((subFlags false f x y).2.s == (subFlags false f x y).2.o) =
      !((subFlags false f x y).2.s != (subFlags false f x y).2.o) := (Bool.not_not _).symm
  cases j with
  | o => exact ho
  | no => rw [test, Holds, Bool.not_eq_true', ← Bool.not_eq_true, ho, not_not]
  | b => exact hb
  | nb => rw [test, Holds, Bool.not_eq_true', ← Bool.not_eq_true, hb]
  | z => exact hz
  | nz => rw [test, Holds, Bool.not_eq_true', ← Bool.not_eq_true, hz]
  | be => rw [test, Holds, Bool.or_eq_true, hb, hz, hbe]
  | nbe => rw [test, Holds, ← Bool.not_or, Bool.not_eq_true', ← Bool.not_eq_true,
      Bool.or_eq_true, hb, hz, hbe]
  | s => exact hs
  | ns => rw [test, Holds, Bool.not_eq_true', ← Bool.not_eq_true, hs]
  | p => exact hp
  | np => rw [test, Holds, Bool.not_eq_true', ← Bool.not_eq_true, hp]
  | l => exact hl
  | nl => rw [test, Holds, hsame, Bool.not_eq_true', ← Bool.not_eq_true, hl]
  | le => rw [test, Holds, Bool.or_eq_true, hz, hl, hle]
  | nle => rw [test, Holds, hsame, ← Bool.not_or, Bool.not_eq_true', ← Bool.not_eq_true,
      Bool.or_eq_true, hz, hl, hle]

end Flags

/-! ### The jumps -/

/-- A short jump has been left in `r`: with the displacement added to the address of the next
instruction if it is taken, and at the next instruction if it is not. -/
structure ShortJump (n : Machine δ) (taken : Prop) (r : Bool × Machine δ) : Prop where
  jumps : taken →
    r = (true, (n.skip 1).jump (n.cpu.ip + 1 + (n.code 0).signExtend 16))
  passes : ¬taken → r = (true, n.skip 1)

theorem outcome_jumpIf (condition : I8088 → Bool) (n : Machine δ) :
    outcome (jumpIf condition) n =
      ((), if condition (n.skip 1).cpu then
          (n.skip 1).jump (n.cpu.ip + 1 + (n.code 0).signExtend 16)
        else n.skip 1) := by
  rw [jumpIf, outcome_bind, outcome_fetch, outcome_bind, outcome_getCpu]
  by_cases h : condition (n.skip 1).cpu = true
  · rw [if_pos h, if_pos h]
    rfl
  · rw [if_neg h, if_neg h]
    rfl

/-- A jump that is dispatched goes to its target if its test is met, and falls through if not. -/
theorem Jcc.shortJump {m n : Machine δ} {fuel : ℕ} {j : Jcc} (io : Devices δ) (eaddr : Word)
    (hd : Dispatches m fuel j.opcode n) {taken : Prop}
    (htest : j.test m.cpu.flags = true ↔ taken) :
    ShortJump n taken (outcome (i8088Execute io eaddr fuel) m) := by
  have hflags : (n.skip 1).cpu.flags = m.cpu.flags := by
    rw [skip_flags, hd.agree.cpu]
  -- the sixteen opcodes are in the order of their tests
  have hcase : i8088Case io eaddr fuel j.opcode =
      some (returning (jumpIf fun c => j.test c.flags)) := by
    cases j <;> rfl
  rw [hd.execute io eaddr, outcome_i8088Opcode hcase (outcome_jumpIf _ n), hflags]
  constructor
  · intro h
    rw [if_pos (htest.mpr h)]
  · intro h
    rw [if_neg (mt htest.mp h)]

/-- **The conditional jumps decide the comparison.** When the flags are those of a `CMP` of
two bytes or of two words, each of the jumps 70 to 7F is taken exactly when its meaning holds
of the operands. -/
theorem conditional_jumps (io : Devices δ) (eaddr : Word) {m n : Machine δ} {fuel : ℕ} {j : Jcc}
    (hd : Dispatches m fuel j.opcode n) (f : Flags) :
    (∀ a b : Byte, m.cpu.flags = i8088Cmp8 f a b →
        ShortJump n (j.Holds a b) (outcome (i8088Execute io eaddr fuel) m)) ∧
      ∀ a b : Word, m.cpu.flags = i8088Cmp16 f a b →
        ShortJump n (j.Holds a b) (outcome (i8088Execute io eaddr fuel) m) := by
  constructor
  · intro a b hflags
    refine j.shortJump io eaddr hd ?_
    rw [hflags]
    exact j.test_iff f a b (by decide) (by decide)
  · intro a b hflags
    refine j.shortJump io eaddr hd ?_
    rw [hflags]
    exact j.test_iff f a b (by decide) (by decide)

/-- `JL` after a comparison of -128 with 1, whose difference is out of range. -/
theorem conditional_jumps_less :
    let m : Machine Unit := machineWith [0x7C, 0x05]
    let n := { m with cpu := { m.cpu with flags := i8088Cmp8 m.cpu.flags 0x80 1 } }
    (outcome (i8088Execute Devices.none 0 1) n).2.cpu.ip = 7 := by
  intro m n
  have hd : Dispatches n 1 (Jcc.opcode .l) (outcome (i8088Decode 1) n).2 :=
    ⟨rfl, Prod.ext (by decide) rfl⟩
  have hless : Jcc.Holds .l (0x80 : Byte) 1 := by
    show (0x80 : Byte).toInt < (1 : Byte).toInt
    decide
  have hjump := ((conditional_jumps Devices.none 0 hd m.cpu.flags).1 0x80 1 rfl).jumps hless
  rw [hjump]
  decide

end Pc20iii
