import Pc20iii.I8088.Alu
import Pc20iii.Program.Rotation

/-!
# What the shifts and rotates compute

The fourteen functions behind the groups D0 to D3, for every count from 0 to 255: the count is
not reduced modulo the width of the operand. Each step of a loop maps the operand and the carry
flag (`threaded`), so that a loop is an iterate of such a map, and the iterates have closed
forms: shifts by the count, and rotations of the operand alone or of the operand with the carry
flag as its highest bit (`Shifts.Closed`).

The path for a count of 1 differs from the loop in the overflow flag only.
-/

namespace Pc20iii

open StateProgram

variable {w : ℕ}

/-! ### Iterated steps -/

/-- A step that maps the operand and the carry flag. -/
def threaded (g : BitVec w × Bool → BitVec w × Bool) (s : BitVec w × Flags) : BitVec w × Flags :=
  ((g (s.1, s.2.c)).1, { s.2 with c := (g (s.1, s.2.c)).2 })

theorem threaded_iterate (g : BitVec w × Bool → BitVec w × Bool) (n : ℕ) (x : BitVec w)
    (f : Flags) : (threaded g)^[n] (x, f) = threaded g^[n] (x, f) := by
  induction n with
  | zero => rfl
  | succ n ih =>
    rw [Function.iterate_succ_apply', ih, threaded, threaded, threaded,
      Function.iterate_succ_apply']

theorem threaded_fst (g : BitVec w × Bool → BitVec w × Bool) (n : ℕ) (x : BitVec w) (f : Flags) :
    ((threaded g)^[n] (x, f)).1 = (g^[n] (x, f.c)).1 := by
  rw [threaded_iterate]
  rfl

theorem threaded_c (g : BitVec w × Bool → BitVec w × Bool) (n : ℕ) (x : BitVec w) (f : Flags) :
    ((threaded g)^[n] (x, f)).2.c = (g^[n] (x, f.c)).2 := by
  rw [threaded_iterate]
  rfl

/-- The operand and the carry flag, both from the operand. -/
def fromOperand (value : BitVec w → BitVec w) (carry : BitVec w → Bool)
    (s : BitVec w × Bool) : BitVec w × Bool :=
  (value s.1, carry s.1)

theorem fromOperand_iterate_fst (value : BitVec w → BitVec w) (carry : BitVec w → Bool) (n : ℕ)
    (s : BitVec w × Bool) : ((fromOperand value carry)^[n] s).1 = value^[n] s.1 := by
  induction n with
  | zero => rfl
  | succ n ih => rw [Function.iterate_succ_apply', Function.iterate_succ_apply', ← ih]; rfl

theorem fromOperand_iterate_snd (value : BitVec w → BitVec w) (carry : BitVec w → Bool) (n : ℕ)
    (s : BitVec w × Bool) :
    ((fromOperand value carry)^[n + 1] s).2 = carry (value^[n] s.1) := by
  rw [Function.iterate_succ_apply', ← fromOperand_iterate_fst value carry]
  rfl

/-! ### The steps -/

/-- A bit that is shifted to its place is the only one. -/
theorem getLsbD_bitAt (k : ℕ) (b : Bool) (i : ℕ) :
    (bitAt k b : BitVec w).getLsbD i = (decide (i = k ∧ i < w) && b) := by
  rw [bitAt, BitVec.getLsbD_shiftLeft, BitVec.getLsbD_setWidth, BitVec.getLsbD_ofBool]
  by_cases hi : i = k
  · subst hi
    by_cases hw : i < w
    · simp [hw]
      omega
    · simp [hw]
  · by_cases hlt : i < k
    · simp [hi, hlt]
    · have hne : i - k ≠ 0 := by omega
      simp [hi, hne]

theorem getLsbD_shl_or (x : BitVec w) (b : Bool) {i : ℕ} (hi : i < w) :
    ((x <<< 1) ||| bitAt 0 b).getLsbD i = if i = 0 then b else x.getLsbD (i - 1) := by
  rw [BitVec.getLsbD_or, BitVec.getLsbD_shiftLeft, getLsbD_bitAt]
  by_cases h : i = 0
  · subst h
    simp [hi]
  · simp [h, hi]

theorem getLsbD_shr_or (x : BitVec w) (b : Bool) {i : ℕ} (hi : i < w) :
    ((x >>> 1) ||| bitAt (w - 1) b).getLsbD i = if i = w - 1 then b else x.getLsbD (i + 1) := by
  rw [BitVec.getLsbD_or, BitVec.getLsbD_ushiftRight, getLsbD_bitAt, Nat.add_comm 1 i]
  by_cases h : i = w - 1
  · have hbeyond : x.getLsbD (i + 1) = false := BitVec.getLsbD_of_ge x _ (by omega)
    rw [hbeyond]
    simp [h]
    omega
  · simp [h]

/-- A step of `ROL` rotates by one, and the carry is the bit that comes in below. -/
theorem rolStep_eq (hw : 1 < w) :
    (rolStep : BitVec w × Flags → _) =
      threaded (fromOperand (·.rotateLeft 1) fun x => (x.rotateLeft 1).getLsbD 0) := by
  funext s
  have hvalue : (s.1 <<< 1) ||| bitAt 0 s.1.msb = s.1.rotateLeft 1 := by
    refine BitVec.eq_of_getLsbD_eq fun i hi => ?_
    rw [getLsbD_shl_or _ _ hi, getLsbD_rotateLeft_one hw _ hi, BitVec.msb_eq_getLsbD_last]
  have hcarry : s.1.msb = (s.1.rotateLeft 1).getLsbD 0 := by
    rw [getLsbD_rotateLeft_one hw _ (by omega), if_pos rfl, BitVec.msb_eq_getLsbD_last]
  show ((s.1 <<< 1) ||| bitAt 0 s.1.msb, { s.2 with c := s.1.msb }) = _
  rw [hvalue, hcarry]
  rfl

/-- A step of `ROR` rotates by one, and the carry is the bit that comes in above. -/
theorem rorStep_eq (hw : 1 < w) :
    (rorStep : BitVec w × Flags → _) =
      threaded (fromOperand (·.rotateRight 1) fun x => (x.rotateRight 1).msb) := by
  funext s
  have hvalue : (s.1 >>> 1) ||| bitAt (w - 1) (s.1.getLsbD 0) = s.1.rotateRight 1 := by
    refine BitVec.eq_of_getLsbD_eq fun i hi => ?_
    rw [getLsbD_shr_or _ _ hi, getLsbD_rotateRight_one _ hi]
  have hcarry : s.1.getLsbD 0 = (s.1.rotateRight 1).msb := by
    rw [BitVec.msb_eq_getLsbD_last, getLsbD_rotateRight_one _ (by omega), if_pos rfl]
  show ((s.1 >>> 1) ||| bitAt (w - 1) (s.1.getLsbD 0), { s.2 with c := s.1.getLsbD 0 }) = _
  rw [hvalue, hcarry]
  rfl

/-- The operand with the carry flag as its highest bit. -/
def joined (s : BitVec w × Bool) : BitVec (w + 1) := BitVec.cons s.2 s.1

theorem joined_injective : Function.Injective (joined (w := w)) := by
  intro s s' h
  have hoperand := congrArg (BitVec.setWidth w) h
  have hcarry := congrArg BitVec.msb h
  unfold joined at hoperand hcarry
  rw [BitVec.setWidth_cons, BitVec.setWidth_cons] at hoperand
  rw [BitVec.msb_cons, BitVec.msb_cons] at hcarry
  exact Prod.ext hoperand hcarry

/-- The step of `RCL` on the operand and the carry flag. -/
def rclBits (s : BitVec w × Bool) : BitVec w × Bool := ((s.1 <<< 1) ||| bitAt 0 s.2, s.1.msb)

/-- The step of `RCR`. -/
def rcrBits (s : BitVec w × Bool) : BitVec w × Bool :=
  ((s.1 >>> 1) ||| bitAt (w - 1) s.2, s.1.getLsbD 0)

theorem rclStep_eq : (rclStep : BitVec w × Flags → _) = threaded rclBits := rfl

theorem rcrStep_eq : (rcrStep : BitVec w × Flags → _) = threaded rcrBits := rfl

/-- A step of `RCL` rotates the operand and the carry, joined. -/
theorem joined_rclBits (hw : 0 < w) :
    Function.Semiconj (joined (w := w)) rclBits (·.rotateLeft 1) := by
  intro s
  refine BitVec.eq_of_getLsbD_eq fun i hi => ?_
  rw [getLsbD_rotateLeft_one (by omega) _ hi]
  unfold joined rclBits
  rw [BitVec.getLsbD_cons, BitVec.getLsbD_cons, BitVec.getLsbD_cons, BitVec.msb_eq_getLsbD_last]
  -- the carry is the uppermost bit of the joined one
  by_cases hlast : i = w
  · have hne : i ≠ 0 := by omega
    have hne' : i - 1 ≠ w := by omega
    rw [if_pos hlast, if_neg hne, if_neg hne', hlast]
  · rw [if_neg hlast, getLsbD_shl_or _ _ (by omega)]
    have hne' : i - 1 ≠ w := by omega
    rw [if_neg hne']
    simp

/-- So does a step of `RCR`, the other way. -/
theorem joined_rcrBits (hw : 0 < w) :
    Function.Semiconj (joined (w := w)) rcrBits (·.rotateRight 1) := by
  intro s
  refine BitVec.eq_of_getLsbD_eq fun i hi => ?_
  rw [getLsbD_rotateRight_one _ hi]
  unfold joined rcrBits
  rw [BitVec.getLsbD_cons, BitVec.getLsbD_cons, BitVec.getLsbD_cons]
  by_cases hlast : i = w
  · have hzero : 0 ≠ w := by omega
    rw [if_pos hlast, if_neg hzero, if_pos (by omega)]
  · rw [if_neg hlast, getLsbD_shr_or _ _ (by omega), if_neg (by omega : i ≠ w + 1 - 1)]
    -- the carry goes to the uppermost bit of the operand
    by_cases h : i = w - 1
    · rw [if_pos h, if_pos (by omega)]
    · rw [if_neg h, if_neg (by omega)]

/-! ### The functions as iterates -/

section Functions

variable (step : BitVec w × Flags → BitVec w × Flags) (o : BitVec w → Flags → Bool) (f : Flags)
  (x : BitVec w) (count : Byte)

/-- The paths of a rotate differ in the overflow flag only. -/
theorem rotate_eq :
    ∃ overflow, rotate step o f x count =
      ((step^[count.toNat] (x, f)).1, { (step^[count.toNat] (x, f)).2 with o := overflow }) := by
  unfold rotate
  by_cases hzero : count = 0
  · rw [if_pos hzero, hzero]
    exact ⟨f.o, rfl⟩
  · rw [if_neg hzero]
    by_cases hone : count = 1
    · rw [if_pos hone, hone]
      exact ⟨_, rfl⟩
    · rw [if_neg hone]
      exact ⟨_, rfl⟩

theorem rotate_fst : (rotate step o f x count).1 = (step^[count.toNat] (x, f)).1 := by
  obtain ⟨overflow, h⟩ := rotate_eq step o f x count
  rw [h]

theorem rotate_c : (rotate step o f x count).2.c = (step^[count.toNat] (x, f)).2.c := by
  obtain ⟨overflow, h⟩ := rotate_eq step o f x count
  rw [h]

theorem shift_fst : (shift step o f x count).1 = (step^[count.toNat] (x, f)).1 := by
  rw [← rotate_fst step o f x count, shift]
  by_cases hzero : count = 0
  · rw [if_pos hzero, rotate, if_pos hzero]
  · rw [if_neg hzero]

theorem shift_c : (shift step o f x count).2.c = (step^[count.toNat] (x, f)).2.c := by
  rw [← rotate_c step o f x count, shift]
  by_cases hzero : count = 0
  · rw [if_pos hzero, rotate, if_pos hzero]
  · rw [if_neg hzero]
    rfl

end Functions

/-- The general loop of a rotate, run for any count. -/
def loopRotate (step : BitVec w × Flags → BitVec w × Flags) (f : Flags) (x : BitVec w)
    (count : Byte) : BitVec w × Flags :=
  (outcome (countLoop step (count.toNat + 1)) (count, (x, f))).2.2

/-- The general loop of a shift, with the assignments that follow it. -/
def loopShift (step : BitVec w × Flags → BitVec w × Flags) (f : Flags) (x : BitVec w)
    (count : Byte) : BitVec w × Flags :=
  let r := loopRotate step f x count
  (r.1, r.2.setPsz r.1)

theorem loopRotate_eq (step : BitVec w × Flags → BitVec w × Flags) (f : Flags) (x : BitVec w)
    (count : Byte) : loopRotate step f x count = step^[count.toNat] (x, f) := by
  rw [loopRotate, outcome_countLoop step (x, f) (Nat.lt_succ_self _)]

/-- The same result and the same flags but for the overflow flag. -/
def SameButOverflow (r r' : BitVec w × Flags) : Prop :=
  r.1 = r'.1 ∧ { r.2 with o := false } = { r'.2 with o := false }

/-! ### Closed forms -/

/-- The shifts and rotates of a width. -/
structure Shifts (w : ℕ) where
  shl : Flags → BitVec w → Byte → BitVec w × Flags
  shr : Flags → BitVec w → Byte → BitVec w × Flags
  sar : Flags → BitVec w → Byte → BitVec w × Flags
  rol : Flags → BitVec w → Byte → BitVec w × Flags
  ror : Flags → BitVec w → Byte → BitVec w × Flags
  rcl : Flags → BitVec w → Byte → BitVec w × Flags
  rcr : Flags → BitVec w → Byte → BitVec w × Flags

namespace Shifts

/-- The functions on bytes. -/
def bytes : Shifts 8 where
  shl := i8088Shl8
  shr := i8088Shr8
  sar := i8088Sar8
  rol := i8088Rol8
  ror := i8088Ror8
  rcl := i8088Rcl8
  rcr := i8088Rcr8

/-- The functions on words. -/
def words : Shifts 16 where
  shl := i8088Shl16
  shr := i8088Shr16
  sar := i8088Sar16
  rol := i8088Rol16
  ror := i8088Ror16
  rcl := i8088Rcl16
  rcr := i8088Rcr16

/-- The functions of any width. -/
def generic (w : ℕ) : Shifts w where
  shl := shift shlStep shlOverflow
  shr f x := shift shrStep (signLost x.msb) f x
  sar f x := shift (sarStep x.msb) (signLost x.msb) f x
  rol := rotate rolStep leftOverflow
  ror := rotate rorStep rightOverflow
  rcl := rotate rclStep leftOverflow
  rcr := rotate rcrStep rightOverflow

theorem bytes_eq : bytes = generic 8 := rfl

theorem words_eq : words = generic 16 := rfl

/-- What the functions compute, for every operand and count. -/
structure Closed (ops : Shifts w) : Prop where
  shl_value : ∀ f x n, (ops.shl f x n).1.toNat = x.toNat * 2 ^ n.toNat % 2 ^ w
  shl_carry : ∀ f x n, n ≠ 0 →
    (ops.shl f x n).2.c = (decide (n.toNat ≤ w) && x.getLsbD (w - n.toNat))
  shr_value : ∀ f x n, (ops.shr f x n).1.toNat = x.toNat / 2 ^ n.toNat
  shr_carry : ∀ f x n, n ≠ 0 →
    (ops.shr f x n).2.c = (decide (n.toNat ≤ w) && x.getLsbD (n.toNat - 1))
  sar_value : ∀ f x n, (ops.sar f x n).1.toInt = x.toInt / 2 ^ n.toNat
  /-- The last bit shifted out is the sign when the count is beyond the width. -/
  sar_carry : ∀ f x n, n ≠ 0 → (ops.sar f x n).2.c = x.getLsbD (min (n.toNat - 1) (w - 1))
  rol_value : ∀ f x n, (ops.rol f x n).1 = x.rotateLeft (n.toNat % w)
  rol_carry : ∀ f x n, n ≠ 0 → (ops.rol f x n).2.c = (ops.rol f x n).1.getLsbD 0
  ror_value : ∀ f x n, (ops.ror f x n).1 = x.rotateRight (n.toNat % w)
  ror_carry : ∀ f x n, n ≠ 0 → (ops.ror f x n).2.c = (ops.ror f x n).1.msb
  rcl_joined : ∀ f x n, joined ((ops.rcl f x n).1, (ops.rcl f x n).2.c) =
    (joined (x, f.c)).rotateLeft (n.toNat % (w + 1))
  rcr_joined : ∀ f x n, joined ((ops.rcr f x n).1, (ops.rcr f x n).2.c) =
    (joined (x, f.c)).rotateRight (n.toNat % (w + 1))
  zero : ∀ op ∈ [ops.shl, ops.shr, ops.sar, ops.rol, ops.ror, ops.rcl, ops.rcr],
    ∀ f x, op f x 0 = (x, f)
  /-- The path for a count of 1 against the loop. -/
  shifts_one : ∀ f x, SameButOverflow (ops.shl f x 1) (loopShift shlStep f x 1) ∧
    SameButOverflow (ops.shr f x 1) (loopShift shrStep f x 1) ∧
    SameButOverflow (ops.sar f x 1) (loopShift (sarStep x.msb) f x 1)
  rotates_one : ∀ f x, SameButOverflow (ops.rol f x 1) (loopRotate rolStep f x 1) ∧
    SameButOverflow (ops.ror f x 1) (loopRotate rorStep f x 1) ∧
    SameButOverflow (ops.rcl f x 1) (loopRotate rclStep f x 1) ∧
    SameButOverflow (ops.rcr f x 1) (loopRotate rcrStep f x 1)
  ror_rol : ∀ f x n, (ops.ror (ops.rol f x n).2 (ops.rol f x n).1 n).1 = x
  rcr_rcl : ∀ f x n, (ops.rcr (ops.rcl f x n).2 (ops.rcl f x n).1 n).1 = x ∧
    (ops.rcr (ops.rcl f x n).2 (ops.rcl f x n).1 n).2.c = f.c

/-! ### The shifts of any width -/

section Iterates

variable (x : BitVec w) (n : ℕ)

theorem shl_iterate : (fun y : BitVec w => y <<< 1)^[n] x = x <<< n := by
  induction n with
  | zero => exact (BitVec.shiftLeft_zero x).symm
  | succ n ih => rw [Function.iterate_succ_apply', ih, BitVec.shiftLeft_add]

theorem shr_iterate : (fun y : BitVec w => y >>> 1)^[n] x = x >>> n := by
  induction n with
  | zero => exact (BitVec.ushiftRight_zero x).symm
  | succ n ih => rw [Function.iterate_succ_apply', ih, BitVec.shiftRight_add]

/-- The sign of the operand is the sign of every value on the way. -/
theorem sar_iterate :
    (fun y : BitVec w => (y >>> 1) ||| bitAt (w - 1) x.msb)^[n] x = x.sshiftRight n := by
  induction n with
  | zero => exact BitVec.sshiftRight_zero.symm
  | succ n ih =>
    rw [Function.iterate_succ_apply', ih, BitVec.sshiftRight_add]
    refine BitVec.eq_of_getLsbD_eq fun i hi => ?_
    have hlt : decide (w ≤ i) = false := decide_eq_false (by omega)
    rw [getLsbD_shr_or _ _ hi, BitVec.getLsbD_sshiftRight _ 1, BitVec.msb_sshiftRight,
      Nat.add_comm 1 i, hlt, Bool.not_false, Bool.true_and]
    by_cases h : i = w - 1
    · rw [if_pos h, if_neg (by omega)]
    · rw [if_neg h, if_pos (by omega)]

end Iterates

theorem exists_count_succ {n : Byte} (hn : n ≠ 0) : ∃ k, n.toNat = k + 1 := by
  refine Nat.exists_eq_succ_of_ne_zero fun h => hn ?_
  exact BitVec.eq_of_toNat_eq h

section Generic

variable (f : Flags) (x : BitVec w) (n : Byte)

theorem shl_fst : ((generic w).shl f x n).1 = x <<< n.toNat := by
  show (shift (threaded (fromOperand (· <<< 1) BitVec.msb)) shlOverflow f x n).1 = _
  rw [shift_fst, threaded_fst, fromOperand_iterate_fst, shl_iterate]

theorem shr_fst : ((generic w).shr f x n).1 = x >>> n.toNat := by
  show (shift (threaded (fromOperand (· >>> 1) (·.getLsbD 0))) (signLost x.msb) f x n).1 = _
  rw [shift_fst, threaded_fst, fromOperand_iterate_fst, shr_iterate]

theorem sar_fst : ((generic w).sar f x n).1 = x.sshiftRight n.toNat := by
  show (shift (threaded (fromOperand (fun y => (y >>> 1) ||| bitAt (w - 1) x.msb)
    (·.getLsbD 0))) (signLost x.msb) f x n).1 = _
  rw [shift_fst, threaded_fst, fromOperand_iterate_fst, sar_iterate]

variable {n} (hn : n ≠ 0)

include hn

theorem shl_c :
    ((generic w).shl f x n).2.c = (decide (n.toNat ≤ w) && x.getLsbD (w - n.toNat)) := by
  show (shift (threaded (fromOperand (· <<< 1) BitVec.msb)) shlOverflow f x n).2.c = _
  obtain ⟨k, hk⟩ := exists_count_succ hn
  have hindex : w - 1 - k = w - (k + 1) := by omega
  rw [shift_c, threaded_c, hk, fromOperand_iterate_snd, shl_iterate, BitVec.msb_shiftLeft,
    BitVec.getMsbD, hindex]
  rfl

theorem shr_c :
    ((generic w).shr f x n).2.c = (decide (n.toNat ≤ w) && x.getLsbD (n.toNat - 1)) := by
  show (shift (threaded (fromOperand (· >>> 1) (·.getLsbD 0))) (signLost x.msb) f x n).2.c = _
  obtain ⟨k, hk⟩ := exists_count_succ hn
  rw [shift_c, threaded_c, hk, fromOperand_iterate_snd, shr_iterate, BitVec.getLsbD_ushiftRight,
    Nat.add_zero, Nat.add_sub_cancel]
  by_cases h : k + 1 ≤ w
  · rw [decide_eq_true h, Bool.true_and]
  · rw [decide_eq_false h, Bool.false_and]
    exact BitVec.getLsbD_of_ge _ _ (by omega)

theorem sar_c (hw : 0 < w) :
    ((generic w).sar f x n).2.c = x.getLsbD (min (n.toNat - 1) (w - 1)) := by
  show (shift (threaded (fromOperand (fun y => (y >>> 1) ||| bitAt (w - 1) x.msb)
    (·.getLsbD 0))) (signLost x.msb) f x n).2.c = _
  obtain ⟨k, hk⟩ := exists_count_succ hn
  have hnot : decide (w ≤ 0) = false := decide_eq_false (by omega)
  rw [shift_c, threaded_c, hk, fromOperand_iterate_snd, sar_iterate, BitVec.getLsbD_sshiftRight,
    Nat.add_zero, Nat.add_sub_cancel, hnot, Bool.not_false, Bool.true_and]
  by_cases h : k < w
  · rw [if_pos h, Nat.min_eq_left (by omega)]
  · rw [if_neg h, Nat.min_eq_right (by omega), BitVec.msb_eq_getLsbD_last]

end Generic

/-! ### The rotates of any width -/

section Rotates

variable (hw : 1 < w) (f : Flags) (x : BitVec w) (n : Byte)

include hw

theorem rol_fst : ((generic w).rol f x n).1 = x.rotateLeft n.toNat := by
  show (rotate rolStep leftOverflow f x n).1 = _
  rw [rolStep_eq hw, rotate_fst, threaded_fst, fromOperand_iterate_fst, rotateLeft_iterate]

theorem ror_fst : ((generic w).ror f x n).1 = x.rotateRight n.toNat := by
  show (rotate rorStep rightOverflow f x n).1 = _
  rw [rorStep_eq hw, rotate_fst, threaded_fst, fromOperand_iterate_fst, rotateRight_iterate]

/-- The carry flag is the bit that has wrapped last. -/
theorem rol_c (hn : n ≠ 0) :
    ((generic w).rol f x n).2.c = ((generic w).rol f x n).1.getLsbD 0 := by
  rw [rol_fst hw]
  show (rotate rolStep leftOverflow f x n).2.c = _
  obtain ⟨k, hk⟩ := exists_count_succ hn
  rw [rolStep_eq hw, rotate_c, threaded_c, hk, fromOperand_iterate_snd,
    ← Function.iterate_succ_apply' (fun y : BitVec w => y.rotateLeft 1), rotateLeft_iterate]

theorem ror_c (hn : n ≠ 0) :
    ((generic w).ror f x n).2.c = ((generic w).ror f x n).1.msb := by
  rw [ror_fst hw]
  show (rotate rorStep rightOverflow f x n).2.c = _
  obtain ⟨k, hk⟩ := exists_count_succ hn
  rw [rorStep_eq hw, rotate_c, threaded_c, hk, fromOperand_iterate_snd,
    ← Function.iterate_succ_apply' (fun y : BitVec w => y.rotateRight 1), rotateRight_iterate]

theorem rcl_joined :
    joined (((generic w).rcl f x n).1, ((generic w).rcl f x n).2.c) =
      (joined (x, f.c)).rotateLeft n.toNat := by
  show joined ((rotate rclStep leftOverflow f x n).1, (rotate rclStep leftOverflow f x n).2.c) = _
  rw [rclStep_eq, rotate_fst, rotate_c, threaded_fst, threaded_c]
  exact ((joined_rclBits (by omega)).iterate_right n.toNat (x, f.c)).trans
    (congrFun (rotateLeft_iterate n.toNat) _)

theorem rcr_joined :
    joined (((generic w).rcr f x n).1, ((generic w).rcr f x n).2.c) =
      (joined (x, f.c)).rotateRight n.toNat := by
  show joined ((rotate rcrStep rightOverflow f x n).1, (rotate rcrStep rightOverflow f x n).2.c) = _
  rw [rcrStep_eq, rotate_fst, rotate_c, threaded_fst, threaded_c]
  exact ((joined_rcrBits (by omega)).iterate_right n.toNat (x, f.c)).trans
    (congrFun (rotateRight_iterate n.toNat) _)

end Rotates

/-- The closed forms hold in every width. -/
theorem closed_generic (hw : 1 < w) : (generic w).Closed where
  shl_value f x n := by
    rw [shl_fst, BitVec.toNat_shiftLeft, Nat.shiftLeft_eq]
  shl_carry f x n hn := shl_c f x hn
  shr_value f x n := by
    rw [shr_fst, BitVec.toNat_ushiftRight, Nat.shiftRight_eq_div_pow]
  shr_carry f x n hn := shr_c f x hn
  sar_value f x n := by
    rw [sar_fst, BitVec.toInt_sshiftRight, Int.shiftRight_eq_div_pow]
    norm_cast
  sar_carry f x n hn := sar_c f x hn (by omega)
  rol_value f x n := by
    rw [rol_fst hw, BitVec.rotateLeft_mod_eq_rotateLeft]
  rol_carry f x n hn := rol_c hw f x n hn
  ror_value f x n := by
    rw [ror_fst hw, BitVec.rotateRight_mod_eq_rotateRight]
  ror_carry f x n hn := ror_c hw f x n hn
  rcl_joined f x n := by
    rw [rcl_joined hw, BitVec.rotateLeft_mod_eq_rotateLeft]
  rcr_joined f x n := by
    rw [rcr_joined hw, BitVec.rotateRight_mod_eq_rotateRight]
  zero op hop f x := by
    simp only [List.mem_cons, List.not_mem_nil, or_false] at hop
    rcases hop with rfl | rfl | rfl | rfl | rfl | rfl | rfl <;> rfl
  shifts_one f x := by
    refine ⟨?_, ?_, ?_⟩ <;>
      rw [loopShift, loopRotate_eq] <;> exact ⟨rfl, rfl⟩
  rotates_one f x := by
    refine ⟨?_, ?_, ?_, ?_⟩ <;>
      rw [loopRotate_eq] <;> exact ⟨rfl, rfl⟩
  ror_rol f x n := by
    rw [ror_fst hw, rol_fst hw]
    exact rotateRight_rotateLeft n.toNat x
  -- value and carry rotate as one, one bit wider than the operand
  rcr_rcl f x n := by
    have h := rcr_joined hw ((generic w).rcl f x n).2 ((generic w).rcl f x n).1 n
    rw [rcl_joined hw] at h
    have hback := joined_injective (h.trans (rotateRight_rotateLeft n.toNat (joined (x, f.c))))
    exact ⟨congrArg Prod.fst hback, congrArg Prod.snd hback⟩

end Shifts

/-- **The shifts and rotates equal their closed forms.** For bytes and words, every operand,
every count from 0 to 255 and every initial carry. -/
theorem shifts_closed : Shifts.bytes.Closed ∧ Shifts.words.Closed := by
  rw [Shifts.bytes_eq, Shifts.words_eq]
  exact ⟨Shifts.closed_generic (by decide), Shifts.closed_generic (by decide)⟩

end Pc20iii
