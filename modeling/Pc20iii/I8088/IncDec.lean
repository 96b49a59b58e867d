import Pc20iii.I8088.Compare
import Pc20iii.I8088.Encoding

/-!
# Increments and decrements

`INC` and `DEC` against `ADD` and `SUB` of 1. In every encoding, 40 to 4F and the groups FE and
FF, they are to compute what these compute except that CF keeps its value (`keepCarry`).

`i8088_dec_16` clears the overflow flag where `i8088_dec_8` computes it, so that the word form
of `DEC` differs at the most negative operand, and at no other (`steps_like_iff`).
-/

namespace Pc20iii

open StateProgram

variable {δ : Type} {w : ℕ}

/-- An operation that leaves the carry flag alone. -/
def keepCarry (op : Flags → BitVec w → BitVec w → BitVec w × Flags) :
    Flags → BitVec w → BitVec w → BitVec w × Flags := fun f x y =>
  ((op f x y).1, { (op f x y).2 with c := f.c })

/-! ### The operations -/

/-- A result with the flags that `INC` and `DEC` give it. -/
def stepResult (f : Flags) (a o : Bool) (result : BitVec w) : BitVec w × Flags :=
  (result, ({ f with a := a, o := o } : Flags).setPsz result)

theorem keepCarry_addFlags (f : Flags) (x y : BitVec w) :
    keepCarry (addFlags false) f x y =
      stepResult f (addFlags false f x y).2.a (addFlags false f x y).2.o (addFlags false f x y).1 :=
  rfl

theorem keepCarry_subFlags (f : Flags) (x y : BitVec w) :
    keepCarry (subFlags false) f x y =
      stepResult f (subFlags false f x y).2.a (subFlags false f x y).2.o (subFlags false f x y).1 :=
  rfl

section Widths

variable (f : Flags) (x : BitVec w)

theorem addFlags_fst (y : BitVec w) : (addFlags false f x y).1 = x + y := by
  show x + y + (BitVec.ofBool false).setWidth w = x + y
  have hzero : (BitVec.ofBool false).setWidth w = 0#w := BitVec.setWidth_zero ..
  rw [hzero, BitVec.add_zero]

variable (hw : 4 ≤ w) (hsmall : w < 31)

include hsmall

theorem nibble_eq_zero : (nibble x == 0#32) = decide (x.toNat % 16 = 0) := by
  rw [beq_eq_decide, decide_eq_decide, ← BitVec.toNat_inj, toNat_nibble hsmall]
  rfl

include hw

theorem add_one_half : (addFlags false f x 1#w).2.a = (nibble (x + 1#w) == 0#32) := by
  have hdvd : 16 ∣ 2 ^ w := Nat.pow_dvd_pow 2 hw
  rw [addFlags_a hsmall, nibble_eq_zero _ hsmall, decide_eq_decide, BitVec.toNat_add,
    BitVec.toNat_one (by omega), Nat.mod_mod_of_dvd _ hdvd, Bool.toNat_false]
  omega

theorem sub_one_half : (subFlags false f x 1#w).2.a = (nibble x == 0#32) := by
  rw [subFlags_a hsmall, nibble_eq_zero _ hsmall, decide_eq_decide,
    BitVec.toNat_one (by omega), Bool.toNat_false]
  omega

/-- Adding 1 overflows at the largest operand only. -/
theorem add_one_overflow : (addFlags false f x 1#w).2.o = (x == BitVec.intMax w) := by
  have hlt := BitVec.toInt_lt (x := x)
  have hle := BitVec.le_toInt x
  rw [Bool.eq_iff_iff, (addFlags_signed (by omega) hsmall false f x 1#w).1, beq_iff_eq,
    ← BitVec.toInt_inj, BitVec.toInt_intMax, BitVec.toInt_one (by omega), Bool.toNat_false]
  unfold SignedRange
  omega

/-- Subtracting 1 overflows at the smallest operand only. -/
theorem sub_one_overflow :
    (subFlags false f x 1#w).2.o = true ↔ x = BitVec.intMin w := by
  have hlt := BitVec.toInt_lt (x := x)
  have hle := BitVec.le_toInt x
  rw [(subFlags_signed (by omega) hsmall false f x 1#w).1, ← BitVec.toInt_inj,
    BitVec.toInt_intMin_of_pos (by omega), BitVec.toInt_one (by omega), Bool.toNat_false]
  unfold SignedRange
  omega

theorem incFlags_eq :
    incFlags (BitVec.intMax w) f x = keepCarry (addFlags false) f x 1#w := by
  rw [keepCarry_addFlags, add_one_half f x hw hsmall, add_one_overflow f x hw hsmall,
    addFlags_fst]
  rfl

end Widths

theorem i8088Inc8_eq (f : Flags) (x : Byte) : i8088Inc8 f x = keepCarry i8088Add8 f x 1 :=
  incFlags_eq f x (by decide) (by decide)

theorem i8088Inc16_eq (f : Flags) (x : Word) : i8088Inc16 f x = keepCarry i8088Add16 f x 1 :=
  incFlags_eq f x (by decide) (by decide)

theorem i8088Dec8_eq (f : Flags) (x : Byte) : i8088Dec8 f x = keepCarry i8088Sub8 f x 1 := by
  have hover : (subFlags false f x 1#8).2.o = (x.msb && !(x - 1#8).msb) := by
    have hone : (1#8).msb = false := rfl
    show ((x.msb && !(1#8).msb && !(subFlags false f x 1#8).1.msb) ||
      (!x.msb && (1#8).msb && (subFlags false f x 1#8).1.msb)) = _
    rw [subFlags_fst, hone]
    simp
  show _ = keepCarry (subFlags false) f x 1#8
  rw [keepCarry_subFlags, sub_one_half f x (by decide) (by decide), subFlags_fst, hover]
  rfl

/-- The word form of `DEC` leaves the overflow flag clear. -/
theorem i8088Dec16_eq (f : Flags) (x : Word) :
    i8088Dec16 f x =
      ((keepCarry i8088Sub16 f x 1).1, { (keepCarry i8088Sub16 f x 1).2 with o := false }) := by
  show _ = ((keepCarry (subFlags false) f x 1#16).1,
    { (keepCarry (subFlags false) f x 1#16).2 with o := false })
  rw [keepCarry_subFlags, sub_one_half f x (by decide) (by decide), subFlags_fst]
  rfl

theorem i8088Dec16_o (f : Flags) (x : Word) : (i8088Dec16 f x).2.o = false := rfl

theorem keepCarry_sub16_o (f : Flags) (x : Word) :
    (keepCarry i8088Sub16 f x 1).2.o = true ↔ x = 0x8000 :=
  sub_one_overflow f x (by decide) (by decide)

/-! ### The instructions -/

/-- The four functions behind `INC` and `DEC`. -/
inductive Stepping where
  | inc8
  | inc16
  | dec8
  | dec16
deriving DecidableEq, Repr

namespace Stepping

/-- The addition or subtraction of 1 with other operations. -/
def effect (s : Stepping) (inc8 dec8 : Alu8) (inc16 dec16 : Alu16) (o : Operand)
    (m : Machine δ) : Machine δ :=
  match s with
  | .inc8 => alu8 inc8 o 1 m
  | .inc16 => alu16 inc16 o 1 m
  | .dec8 => alu8 dec8 o 1 m
  | .dec16 => alu16 dec16 o 1 m

/-- What the instruction does. -/
def run (s : Stepping) (o : Operand) (m : Machine δ) : Machine δ :=
  s.effect (fun f x _ => i8088Inc8 f x) (fun f x _ => i8088Dec8 f x)
    (fun f x _ => i8088Inc16 f x) (fun f x _ => i8088Dec16 f x) o m

/-- `ADD` or `SUB` of 1. -/
def arith (s : Stepping) (o : Operand) (m : Machine δ) : Machine δ :=
  s.effect i8088Add8 i8088Sub8 i8088Add16 i8088Sub16 o m

/-- `ADD` or `SUB` of 1, but for the carry flag. -/
def arithKeep (s : Stepping) (o : Operand) (m : Machine δ) : Machine δ :=
  s.effect (keepCarry i8088Add8) (keepCarry i8088Sub8) (keepCarry i8088Add16)
    (keepCarry i8088Sub16) o m

end Stepping

/-- In `n`, where an opcode has just been consumed, the opcode and the bytes that follow
encode an increment or a decrement of an operand, in so many bytes. -/
inductive EncodesStep (n : Machine δ) : Byte → Stepping → Operand → Word → Prop
  | incReg (r : BitVec 3) : EncodesStep n (0x40 + r.setWidth 8) .inc16 (.reg r) 0
  | decReg (r : BitVec 3) : EncodesStep n (0x48 + r.setWidth 8) .dec16 (.reg r) 0
  | inc8 (h : modrmReg (n.code 0) = 0) : EncodesStep n 0xFE .inc8 n.rm n.rmLength
  | dec8 (h : modrmReg (n.code 0) = 1) : EncodesStep n 0xFE .dec8 n.rm n.rmLength
  | inc16 (h : modrmReg (n.code 0) = 0) : EncodesStep n 0xFF .inc16 n.rm n.rmLength
  | dec16 (h : modrmReg (n.code 0) = 1) : EncodesStep n 0xFF .dec16 n.rm n.rmLength

section Instructions

variable {io : Devices δ} {eaddr : Word} {fuel : ℕ} {n : Machine δ} {opcode : Byte}
  {s : Stepping} {o : Operand} {len : Word}

theorem outcome_i8088OpcodeFe_step {op : Flags → Byte → Byte × Flags}
    (h : ∀ v, (groupFe (modrmReg (n.code 0)) v : M δ Byte) = withFlags fun f => op f v) :
    outcome (i8088OpcodeFe eaddr) n =
      ((), alu8 (fun f x _ => op f x) n.rm 1 (n.skip n.rmLength)) := by
  simp only [i8088OpcodeFe, outcome_bind, outcome_fetch, outcome_modrmGetRm8, h]
  simp [alu8, Machine.rm, Machine.rmLength]

theorem outcome_i8088OpcodeFf_inc (h : modrmReg (n.code 0) = 0) :
    outcome (i8088OpcodeFf eaddr) n =
      ((), alu16 (fun f x _ => i8088Inc16 f x) n.rm 1 (n.skip n.rmLength)) := by
  simp only [i8088OpcodeFf, outcome_bind, outcome_fetch, outcome_modrmGetRm16]
  rw [h]
  simp [alu16, Machine.rm, Machine.rmLength]

theorem outcome_i8088OpcodeFf_dec (h : modrmReg (n.code 0) = 1) :
    outcome (i8088OpcodeFf eaddr) n =
      ((), alu16 (fun f x _ => i8088Dec16 f x) n.rm 1 (n.skip n.rmLength)) := by
  simp only [i8088OpcodeFf, outcome_bind, outcome_fetch, outcome_modrmGetRm16]
  rw [h]
  simp [alu16, Machine.rm, Machine.rmLength]

/-- Every encoding does the step. -/
theorem EncodesStep.run (h : EncodesStep n opcode s o len) :
    outcome (i8088Opcode io eaddr fuel opcode) n = (true, s.run o (n.skip len)) := by
  cases h with
  -- the short forms are eight opcodes each
  | incReg r =>
    rw [show n.skip 0 = n from skip_zero n]
    rcases field_cases r with rfl | rfl | rfl | rfl | rfl | rfl | rfl | rfl <;>
      exact outcome_i8088Opcode rfl rfl
  | decReg r =>
    rw [show n.skip 0 = n from skip_zero n]
    rcases field_cases r with rfl | rfl | rfl | rfl | rfl | rfl | rfl | rfl <;>
      exact outcome_i8088Opcode rfl rfl
  | inc8 h =>
    refine outcome_i8088Opcode rfl (outcome_i8088OpcodeFe_step fun v => ?_)
    rw [h]
    rfl
  | dec8 h =>
    refine outcome_i8088Opcode rfl (outcome_i8088OpcodeFe_step fun v => ?_)
    rw [h]
    rfl
  | inc16 h => exact outcome_i8088Opcode rfl (outcome_i8088OpcodeFf_inc h)
  | dec16 h => exact outcome_i8088Opcode rfl (outcome_i8088OpcodeFf_dec h)

end Instructions

/-! ### The flags afterwards -/

@[simp] theorem put16_flags (o : Operand) (m : Machine δ) (v : Word) :
    (o.put16 m v).cpu.flags = m.cpu.flags := by
  cases o with
  | reg r => rcases field_cases r with rfl | rfl | rfl | rfl | rfl | rfl | rfl | rfl <;> rfl
  | mem segment offset => rfl

@[simp] theorem put8_flags (o : Operand) (m : Machine δ) (v : Byte) :
    (o.put8 m v).cpu.flags = m.cpu.flags := by
  cases o with
  | reg r => rcases field_cases r with rfl | rfl | rfl | rfl | rfl | rfl | rfl | rfl <;> rfl
  | mem segment offset => rfl

theorem alu8_flags (op : Alu8) (o : Operand) (v : Byte) (m : Machine δ) :
    (alu8 op o v m).cpu.flags = (op m.cpu.flags (o.get8 m) v).2 :=
  put8_flags ..

theorem alu16_flags (op : Alu16) (o : Operand) (v : Word) (m : Machine δ) :
    (alu16 op o v m).cpu.flags = (op m.cpu.flags (o.get16 m) v).2 :=
  put16_flags ..

/-- The jumps that do not test the carry flag. -/
def Jcc.IgnoresCarry (j : Jcc) : Prop := j ≠ .b ∧ j ≠ .nb ∧ j ≠ .be ∧ j ≠ .nbe

theorem Jcc.IgnoresCarry.test_eq {j : Jcc} (h : j.IgnoresCarry) (f : Flags) (c : Bool) :
    j.test { f with c := c } = j.test f := by
  obtain ⟨hb, hnb, hbe, hnbe⟩ := h
  cases j with
  | b => exact absurd rfl hb
  | nb => exact absurd rfl hnb
  | be => exact absurd rfl hbe
  | nbe => exact absurd rfl hnbe
  | _ => rfl

/-- But for the carry flag, the flags are those of `ADD` or `SUB`. -/
theorem Stepping.arithKeep_flags (s : Stepping) (o : Operand) (m : Machine δ) :
    (s.arithKeep o m).cpu.flags = { (s.arith o m).cpu.flags with c := m.cpu.flags.c } := by
  cases s with
  | inc8 => exact (alu8_flags ..).trans (by rw [arith, effect, alu8_flags]; rfl)
  | dec8 => exact (alu8_flags ..).trans (by rw [arith, effect, alu8_flags]; rfl)
  | inc16 => exact (alu16_flags ..).trans (by rw [arith, effect, alu16_flags]; rfl)
  | dec16 => exact (alu16_flags ..).trans (by rw [arith, effect, alu16_flags]; rfl)

/-- Only the word form of `DEC` differs, and only at the most negative operand. -/
theorem Stepping.run_eq_iff (s : Stepping) (o : Operand) (m : Machine δ) :
    s.run o m = s.arithKeep o m ↔ ¬(s = .dec16 ∧ o.get16 m = 0x8000) := by
  cases s with
  | inc8 =>
    refine iff_of_true ?_ (by simp)
    simp only [run, arithKeep, effect, alu8, i8088Inc8_eq]
  | dec8 =>
    refine iff_of_true ?_ (by simp)
    simp only [run, arithKeep, effect, alu8, i8088Dec8_eq]
  | inc16 =>
    refine iff_of_true ?_ (by simp)
    simp only [run, arithKeep, effect, alu16, i8088Inc16_eq]
  | dec16 =>
    constructor
    -- 80h less one overflows, and `DEC` of a word clears the flag
    · rintro h ⟨-, hmin⟩
      have hflags := congrArg (fun m => m.cpu.flags.o) h
      have hset := (keepCarry_sub16_o m.cpu.flags (o.get16 m)).mpr hmin
      simp only [run, arithKeep, effect, alu16_flags, i8088Dec16_o, hset] at hflags
      exact absurd hflags (by decide)
    · intro h
      have hclear : (keepCarry i8088Sub16 m.cpu.flags (o.get16 m) 1).2.o = false := by
        rw [← Bool.not_eq_true, keepCarry_sub16_o]
        exact fun hmin => h ⟨rfl, hmin⟩
      have hsame : i8088Dec16 m.cpu.flags (o.get16 m) =
          keepCarry i8088Sub16 m.cpu.flags (o.get16 m) 1 := by
        rw [i8088Dec16_eq, ← hclear]
      simp only [run, arithKeep, effect, alu16, hsame]

/-- The instruction has left `r`: what `ADD` or `SUB` of 1 leaves but for the carry flag, so
that every jump that does not test the carry flag decides as it would after these. -/
structure StepsLike (s : Stepping) (o : Operand) (e : Machine δ) (r : Bool × Machine δ) :
    Prop where
  effect : r = (true, s.arithKeep o e)
  jumps : ∀ j : Jcc, j.IgnoresCarry → j.test r.2.cpu.flags = j.test (s.arith o e).cpu.flags

/-- **Increments and decrements are additions and subtractions of 1.** In every encoding, and
except for the carry flag, which they keep, exactly when the operand is not that of a word
`DEC` with the most negative value. -/
theorem steps_like_iff (io : Devices δ) (eaddr : Word) {m n : Machine δ} {fuel : ℕ}
    {opcode : Byte} {s : Stepping} {o : Operand} {len : Word} (hd : Dispatches m fuel opcode n)
    (henc : EncodesStep n opcode s o len) :
    StepsLike s o (n.skip len) (outcome (i8088Execute io eaddr fuel) m) ↔
      ¬(s = .dec16 ∧ o.get16 n = 0x8000) := by
  have hrun : outcome (i8088Execute io eaddr fuel) m = (true, s.run o (n.skip len)) := by
    rw [hd.execute io eaddr, henc.run]
  rw [hrun, ← skip_get16 n len o, ← s.run_eq_iff o (n.skip len)]
  constructor
  · intro h
    exact congrArg Prod.snd h.effect
  -- the whole state agrees, so the flags of the next operation do
  · intro h
    refine ⟨congrArg (Prod.mk true) h, fun j hj => ?_⟩
    rw [h, s.arithKeep_flags, hj.test_eq]

/-- `DEC BX` with 0 in the register. -/
theorem steps_like_iff_bx :
    let m := machineWith [0x4B]
    StepsLike .dec16 (.reg 3) ((outcome (i8088Decode 1) m).2.skip 0)
      (outcome (i8088Execute Devices.none 0 1) m) := by
  intro m
  have hd : Dispatches m 1 (0x48 + (3 : BitVec 3).setWidth 8) (outcome (i8088Decode 1) m).2 :=
    ⟨rfl, Prod.ext (by decide) rfl⟩
  exact (steps_like_iff Devices.none 0 hd (.decReg 3)).mpr (by decide)

/-- `DEC AX` with 8000 in the register: `SUB AX, 1` would set the overflow flag. -/
theorem steps_unlike :
    let m := machineWith [0x48]
    let n := { m with cpu := { m.cpu with ax := 0x8000 } }
    ¬StepsLike .dec16 (.reg 0) ((outcome (i8088Decode 1) n).2.skip 0)
      (outcome (i8088Execute Devices.none 0 1) n) := by
  intro m n h
  have hless := h.jumps .l (by unfold Jcc.IgnoresCarry; decide)
  revert hless
  decide

end Pc20iii
