import Pc20iii.I8088.Move
import Pc20iii.I8088.Search
import Pc20iii.System.Call

/-!
# Loops and repeat prefixes

A string instruction with a repeat prefix does in one call of `i8088_execute` what the same
instruction and a `LOOP` back to it do in two calls a pass. The two are different code: the
prefix is a `while` in the case of the instruction, which tests `cx` before the first pass, and
`LOOP` fetches the instruction again each time and tests behind the pass.

* `StringOp.Code`: the bytes of the loop.
* `loop_pass`: two calls of the loop do one pass.
* `rep_is_loop`: where the stores of the instruction leave the bytes of the loop alone, both leave
  the same machine. Strings may overlap, wrap and lie in memory that cannot be written.
-/

namespace Pc20iii

open StateProgram

variable {δ : Type}

/-- Some calls of `i8088_execute` in a row, all of which return, whatever their local variables
hold. -/
inductive CallsReturn (io : Devices δ) (fuel : ℕ) : ℕ → Machine δ → Machine δ → Prop
  | none (m : Machine δ) : CallsReturn io fuel 0 m m
  | one {k : ℕ} {m n n' : Machine δ}
      (h : ∀ eaddr, outcome (i8088Execute io eaddr fuel) m = (true, n))
      (hs : CallsReturn io fuel k n n') : CallsReturn io fuel (k + 1) m n'

theorem CallsReturn.trans {io : Devices δ} {fuel j k : ℕ} {m n n' : Machine δ}
    (h : CallsReturn io fuel j m n) (h' : CallsReturn io fuel k n n') :
    CallsReturn io fuel (j + k) m n' := by
  induction h with
  | none m =>
    rw [Nat.zero_add]
    exact h'
  | one h hs ih =>
    rw [Nat.add_right_comm]
    exact .one h (ih h')

/-! ### The instructions -/

/-- A string instruction, with the repeat prefixes that it is looked at with. -/
inductive StringOp where
  | store (op : StringStore)
  | lodsb
  | lodsw
  /-- The search goes on while the zero flag is `z`. -/
  | search (op : StringSearch) (z : Bool)

namespace StringOp

def opcode : StringOp → Byte
  | store op => op.opcode
  | lodsb => 0xAC
  | lodsw => 0xAD
  | search op _ => op.opcode

/-- The function behind the opcode. -/
def body : StringOp → M δ Unit
  | store op => op.body
  | lodsb => i8088Lodsb
  | lodsw => i8088Lodsw
  | search op _ => op.body

/-- The repeat prefixes. -/
def Repeats : StringOp → Repeat → Prop
  | search _ z, r => r = if z then .ez else .nenz
  | _, r => r ≠ .none

/-- `LOOP`, `LOOPE` or `LOOPNE`. -/
def loopOpcode : StringOp → Byte
  | search _ true => 0xE1
  | search _ false => 0xE0
  | _ => 0xE2

/-- The condition of the jump back. -/
def goes : StringOp → I8088 → Bool
  | search _ true => fun c => c.flags.z && c.cx != 0
  | search _ false => fun c => !c.flags.z && c.cx != 0
  | _ => fun c => c.cx != 0

/-- The number of bytes of a loop on the instruction behind the prefixes `ps`. -/
def length (ps : List Byte) : ℕ := ps.length + 3

/-- At the instruction pointer there is the instruction, behind segment overrides, and a `LOOP`
back to the first of them. -/
structure Code (op : StringOp) (ps : List Byte) (m : Machine δ) : Prop where
  segments : ∀ p ∈ ps, isSegmentPrefix p = true
  short : length ps ≤ 128
  instruction : m.Reads ps op.opcode
  loop : m.code (BitVec.ofNat 16 (ps.length + 1)) = op.loopOpcode
  back : m.code (BitVec.ofNat 16 (ps.length + 2)) = -BitVec.ofNat 8 (length ps)

/-- The stores that a repeated instruction makes in `n` leave the `len` bytes at `ip` alone. -/
def Spares : StringOp → ℕ → Machine δ → Word → Prop
  | store op, len, n, ip => ∀ k < n.cpu.cx.toNat, ∀ i < op.size, ∀ j < len,
      linear n.cpu.cs (ip + BitVec.ofNat 16 j) ≠ op.dest n.cpu k i
  | _, _, _, _ => True

/-! ### One pass -/

variable (op : StringOp)

/-- Each of the ten instructions has a case. -/
theorem case_isSome (io : Devices δ) (eaddr : Word) (fuel : ℕ) :
    (i8088Case io eaddr fuel op.opcode).isSome = true := by
  cases op with
  | store op =>
    show (i8088Case io eaddr fuel op.opcode).isSome = true
    rw [op.case_eq]
    rfl
  | lodsb => rfl
  | lodsw => rfl
  | search op z =>
    show (i8088Case io eaddr fuel op.opcode).isSome = true
    rw [op.case_eq]
    rfl

/-- The loop instruction goes on as long as the repetition would. -/
theorem case_loop (io : Devices δ) (eaddr : Word) (fuel : ℕ) :
    i8088Case io eaddr fuel op.loopOpcode = some (returning (loopIf op.goes)) := by
  have hloop : i8088Case io eaddr fuel 0xE2 = some (returning (loopIf fun c => c.cx != 0)) := rfl
  cases op with
  | store op => exact hloop
  | lodsb => exact hloop
  | lodsw => exact hloop
  | search op z =>
    -- REPNZ ends with a match, and REPZ with a mismatch
    cases z with
    | false =>
      show i8088Case io eaddr fuel 0xE0 = some (returning (loopIf fun c => !c.flags.z && c.cx != 0))
      rfl
    | true =>
      show i8088Case io eaddr fuel 0xE1 = some (returning (loopIf fun c => c.flags.z && c.cx != 0))
      rfl

theorem keepsCx : KeepsCx (op.body : M δ Unit) := by
  cases op with
  | store op =>
    intro m
    exact congrArg (fun r => r.2.cpu.cx) (op.outcome_body m)
  | lodsb => exact keepsCx_lodsb
  | lodsw => exact keepsCx_lodsw
  | search op z =>
    intro m
    exact congrArg (fun r => r.2.cpu.cx) (op.outcome_body m)

end StringOp

/-- What `LODSB` does. -/
theorem outcome_lodsb (m : Machine δ) :
    outcome (i8088Lodsb : M δ Unit) m = ((), { m with
      cpu := { m.cpu with
        ax := wordOf (m.mem.m (linear (m.cpu.overridden m.cpu.ds) m.cpu.si)) m.cpu.ah
        si := m.cpu.strideBy 1 m.cpu.si } }) := by
  simp [i8088Lodsb, advanceSi, eaddrRead8, I8088.setAl]
  rfl

/-- The machine with another instruction pointer, another repeat prefix and another history. -/
def Machine.placed (m : Machine δ) (ip : Word) (r : Repeat) (log : List Event) : Machine δ :=
  { m with
    cpu := { m.cpu with ip := ip, repeatPrefix := r }
    log := log }

namespace StringOp

variable (op : StringOp)

/-- The instructions look at none of these. -/
theorem body_placed (m : Machine δ) (ip : Word) (r : Repeat) (log : List Event) :
    (outcome op.body (m.placed ip r log)).2 = (outcome op.body m).2.placed ip r log := by
  -- each by what it does, which has neither IP nor the prefix in it
  cases op with
  | store op =>
    show (outcome op.body _).2 = (outcome op.body m).2.placed ip r log
    rw [op.outcome_body, op.outcome_body]
    cases op <;> rfl
  | lodsb =>
    show (outcome i8088Lodsb _).2 = (outcome i8088Lodsb m).2.placed ip r log
    rw [outcome_lodsb, outcome_lodsb]
    rfl
  | lodsw =>
    show (outcome i8088Lodsw _).2 = (outcome i8088Lodsw m).2.placed ip r log
    rw [outcome_lodsw, outcome_lodsw]
    rfl
  | search op z =>
    show (outcome op.body _).2 = (outcome op.body m).2.placed ip r log
    rw [op.outcome_body, op.outcome_body]
    cases op <;> rfl

/-- The machine after a pass. -/
def pass (m : Machine δ) : Machine δ := (outcome (do op.body; decrementCx) m).2

theorem pass_eq (m : Machine δ) :
    op.pass m = { (outcome op.body m).2 with
      cpu := { (outcome op.body m).2.cpu with cx := (outcome op.body m).2.cpu.cx - 1 } } := rfl

theorem pass_cx (m : Machine δ) : (op.pass m).cpu.cx = m.cpu.cx - 1 := by
  rw [pass_eq, ← op.keepsCx m]

/-- What a pass leaves alone. -/
theorem pass_kept (m : Machine δ) :
    (op.pass m).cpu.cs = m.cpu.cs ∧ (op.pass m).cpu.halt = m.cpu.halt ∧
      (op.pass m).cpu.segmentOverride = m.cpu.segmentOverride ∧
      (op.pass m).cpu.ip = m.cpu.ip ∧ (op.pass m).log = m.log := by
  rw [pass_eq]
  -- the log stays, since memory is accessed without a report
  cases op with
  | store op =>
    rw [show (store op).body = (op.body : M δ Unit) from rfl, op.outcome_body]
    exact ⟨rfl, rfl, rfl, rfl, rfl⟩
  | lodsb =>
    rw [show lodsb.body = (i8088Lodsb : M δ Unit) from rfl, outcome_lodsb]
    exact ⟨rfl, rfl, rfl, rfl, rfl⟩
  | lodsw =>
    rw [show lodsw.body = (i8088Lodsw : M δ Unit) from rfl, outcome_lodsw]
    exact ⟨rfl, rfl, rfl, rfl, rfl⟩
  | search op z =>
    rw [show (search op z).body = (op.body : M δ Unit) from rfl, op.outcome_body]
    exact ⟨rfl, rfl, rfl, rfl, rfl⟩

/-- Whether a repetition goes on is seen from CX and the flags. -/
theorem goes_congr {c c' : I8088} (hflags : c'.flags = c.flags) (hcx : c'.cx = c.cx) :
    op.goes c' = op.goes c := by
  cases op with
  | search op z =>
    cases z
    · show (!c'.flags.z && c'.cx != 0) = (!c.flags.z && c.cx != 0)
      rw [hflags, hcx]
    · show (c'.flags.z && c'.cx != 0) = (c.flags.z && c.cx != 0)
      rw [hflags, hcx]
  | _ =>
    show (c'.cx != 0) = (c.cx != 0)
    rw [hcx]

theorem goes_of_zero {c : I8088} (hcx : c.cx = 0) : op.goes c = false := by
  have hzero : (c.cx != 0) = false := bne_eq_false_iff_eq.mpr hcx
  cases op with
  | search op z =>
    cases z
    · exact (congrArg _ hzero).trans (Bool.and_false _)
    · exact (congrArg _ hzero).trans (Bool.and_false _)
  | _ => exact hzero

end StringOp

/-- A machine that differs from another in what `Agree` allows, with the same override. -/
theorem Agree.eq_placed {x y : Machine δ} (h : Agree x y)
    (hover : y.cpu.segmentOverride = x.cpu.segmentOverride) :
    y = x.placed y.cpu.ip y.cpu.repeatPrefix y.log := by
  have hcpu : y.cpu = { x.cpu with ip := y.cpu.ip, repeatPrefix := y.cpu.repeatPrefix } :=
    h.cpu.trans (by rw [hover])
  obtain ⟨-, hmem, hfe2010, hdev⟩ := h
  obtain ⟨cpu, mem, fe2010, dev, log⟩ := y
  obtain rfl : mem = x.mem := hmem
  obtain rfl : fe2010 = x.fe2010 := hfe2010
  obtain rfl : dev = x.dev := hdev
  exact congrArg (fun c => Machine.mk c x.mem x.fe2010 x.dev log) hcpu

theorem Agree.placed (x : Machine δ) (ip : Word) (r : Repeat) (log : List Event) :
    Agree x (x.placed ip r log) := ⟨rfl, rfl, rfl, rfl⟩

/-! ### Two calls of the loop -/

/-- The machine behind the test of `LOOP` when there is no jump. -/
def Machine.counted (m : Machine δ) : Machine δ :=
  { m.skip 1 with cpu := { (m.skip 1).cpu with cx := (m.skip 1).cpu.cx - 1 } }

/-- What `LOOP` does behind its opcode. -/
theorem outcome_loopIf (condition : I8088 → Bool) (m : Machine δ) :
    outcome (loopIf condition) m = ((), if condition m.counted.cpu then
      m.counted.skip ((m.code 0).signExtend 16) else m.counted) := by
  unfold loopIf
  rw [outcome_bind, outcome_fetch, outcome_bind, decrementCx, outcome_modifyCpu, outcome_bind,
    outcome_getCpu, outcome_ite]
  exact (apply_ite (Prod.mk ()) _ _ _).symm

theorem agree_counted (p : Machine δ) (ip : Word) (r : Repeat) (log : List Event) :
    Agree { p with cpu := { p.cpu with cx := p.cpu.cx - 1 } }
      ((p.placed ip r log).unlatched.skip 1).counted := ⟨rfl, rfl, rfl, rfl⟩

/-- The displacement of a `LOOP` that is not longer than it may be. -/
theorem signExtend_neg {len : ℕ} (h : len ≤ 128) :
    (-BitVec.ofNat 8 len).signExtend 16 = -BitVec.ofNat 16 len := by
  have hall : ∀ len < 129, (-BitVec.ofNat 8 len).signExtend 16 = -BitVec.ofNat 16 len := by decide
  exact hall len (Nat.lt_succ_of_le h)

namespace StringOp

variable {op : StringOp} {ps : List Byte}

/-- Only the bytes of the loop matter. -/
theorem reads_congr {opcode : Byte} {m n : Machine δ}
    (h : ∀ j ≤ ps.length, n.code (BitVec.ofNat 16 j) = m.code (BitVec.ofNat 16 j))
    (hm : m.Reads ps opcode) : n.Reads ps opcode := by
  induction ps generalizing m n with
  | nil => exact (h 0 (Nat.le_refl _)).trans hm
  | cons p ps ih =>
    refine ⟨(h 0 (Nat.zero_le _)).trans hm.1, ih (m := m.skip 1) (fun j hj => ?_) hm.2⟩
    have hnext := h (1 + j) (by rw [List.length_cons]; omega)
    rw [skip_code, skip_code]
    rwa [BitVec.ofNat_add] at hnext

theorem Code.congr {m n : Machine δ} (hm : op.Code ps m)
    (h : ∀ j < length ps, n.code (BitVec.ofNat 16 j) = m.code (BitVec.ofNat 16 j)) :
    op.Code ps n where
  segments := hm.segments
  short := hm.short
  instruction := reads_congr (fun j hj => h j (by unfold length; omega)) hm.instruction
  loop := (h _ (by unfold length; omega)).trans hm.loop
  back := (h _ (by unfold length; omega)).trans hm.back

/-- Segment overrides set no repeat prefix. -/
theorem repeatOf_segments (hps : ∀ p ∈ ps, isSegmentPrefix p = true) :
    ps.filterMap repeatOf = [] := by
  refine List.filterMap_eq_nil_iff.mpr fun p hp => ?_
  rcases segment_cases (hps p hp) with rfl | rfl | rfl | rfl <;> rfl

theorem repeatsApart_segments (hps : ∀ p ∈ ps, isSegmentPrefix p = true) : RepeatsApart ps := by
  induction ps with
  | nil => exact .nil
  | cons p ps ih =>
    obtain ⟨hp, hps⟩ := List.forall_mem_cons.mp hps
    refine List.isChain_cons.mpr ⟨fun q _ => ?_, ih hps⟩
    rw [not_repeat_of_segment hp, Bool.false_and]

/-- The call that executes the instruction. -/
theorem call_instruction {y : Machine δ} (hcode : op.Code ps y) (hrun : y.cpu.halt = false)
    {fuel : ℕ} (hfuel : ps.length + 1 ≤ fuel) (io : Devices δ) (eaddr : Word) :
    outcome (i8088Execute io eaddr fuel) y =
      (true, (outcome op.body (y.unlatched.prefixed ps)).2) := by
  have hprefix : (y.unlatched.prefixed ps).cpu.repeatPrefix = .none := by
    show (ps.filterMap repeatOf).getLastD .none = .none
    rw [repeatOf_segments hcode.segments]
    rfl
  rw [execute_reads io eaddr hrun (fun p hp => .inl (hcode.segments p hp))
    (op.case_isSome io eaddr) hcode.instruction (repeatsApart_segments hcode.segments) hfuel]
  generalize y.unlatched.prefixed ps = z at *
  -- without a repeat prefix there is one pass
  have hrepeated : ∀ body : M δ Unit,
      outcome (repeated body fuel) z = (true, (outcome body z).2) ∧
      outcome (repeatedZ body fuel) z = (true, (outcome body z).2) := by
    intro body
    rw [repeated, repeatedZ, outcome_bind, outcome_bind, outcome_getCpu, hprefix]
    exact ⟨rfl, rfl⟩
  unfold i8088Opcode
  cases op with
  | store op =>
    show outcome ((i8088Case io eaddr fuel op.opcode).getD _) z = _
    rw [op.case_eq]
    exact (hrepeated _).1
  | lodsb => exact (hrepeated _).1
  | lodsw => exact (hrepeated _).1
  | search op z =>
    show outcome ((i8088Case io eaddr fuel op.opcode).getD _) _ = _
    rw [op.case_eq]
    exact (hrepeated _).2

/-- The call that executes the `LOOP`. -/
theorem call_loop {b : Machine δ} (hloop : b.code 0 = op.loopOpcode) (hrun : b.cpu.halt = false)
    {fuel : ℕ} (hfuel : 1 ≤ fuel) (io : Devices δ) (eaddr : Word) :
    outcome (i8088Execute io eaddr fuel) b =
      (true, (outcome (loopIf op.goes) (b.unlatched.skip 1)).2) := by
  have hcase : ∀ fuel, (i8088Case io eaddr fuel op.loopOpcode).isSome = true := by
    intro fuel
    rw [op.case_loop]
    rfl
  have hreads : b.Reads [] op.loopOpcode := hloop
  rw [execute_reads io eaddr hrun (List.forall_mem_nil _) hcase hreads .nil hfuel,
    outcome_i8088Opcode (op.case_loop io eaddr fuel) rfl]
  rfl

theorem ofNat_length (ps : List Byte) :
    BitVec.ofNat 16 (length ps) = BitVec.ofNat 16 (ps.length + 1) + 1 + 1 := by
  rw [length, show ps.length + 3 = ps.length + 1 + 1 + 1 from rfl, BitVec.ofNat_add _ 1,
    BitVec.ofNat_add _ 1]
  rfl

/-- The jump goes back to the start. -/
theorem start_of_back (ip : Word) (ps : List Byte) :
    ip + BitVec.ofNat 16 (ps.length + 1) + 1 + 1 + -BitVec.ofNat 16 (length ps) = ip := by
  rw [ofNat_length, BitVec.add_assoc ip, BitVec.add_assoc ip, BitVec.add_neg_eq_sub,
    BitVec.add_sub_cancel]

section Pass

variable {x y : Machine δ} (hagree : Agree x y)

include hagree

/-- The machine behind the instruction of the loop. -/
theorem behind_instruction (hcode : op.Code ps y)
    (hover : x.cpu.segmentOverride = (ps.filterMap segmentOf).getLastD .none) :
    (outcome op.body (y.unlatched.prefixed ps)).2 =
      (outcome op.body x).2.placed (y.cpu.ip + BitVec.ofNat 16 (ps.length + 1)) .none y.log := by
  have hrepeat : (y.unlatched.prefixed ps).cpu.repeatPrefix = .none := by
    show (ps.filterMap repeatOf).getLastD .none = .none
    rw [repeatOf_segments hcode.segments]
    rfl
  have hdecoded : Agree x (y.unlatched.prefixed ps) := hagree.trans ⟨rfl, rfl, rfl, rfl⟩
  rw [hdecoded.eq_placed hover.symm, body_placed, hrepeat]
  rfl

/-- The bytes of the loop, seen from there. -/
theorem code_behind {k : Word} {j : ℕ}
    (hkept : (op.pass x).mem.m (linear x.cpu.cs (y.cpu.ip + BitVec.ofNat 16 j)) =
      x.mem.m (linear x.cpu.cs (y.cpu.ip + BitVec.ofNat 16 j)))
    (hk : BitVec.ofNat 16 j = BitVec.ofNat 16 (ps.length + 1) + k) :
    ((outcome op.body x).2.placed (y.cpu.ip + BitVec.ofNat 16 (ps.length + 1)) .none y.log).code k =
      y.code (BitVec.ofNat 16 j) := by
  have hcs : (outcome op.body x).2.cpu.cs = x.cpu.cs := (op.pass_kept x).1
  have hycs : y.cpu.cs = x.cpu.cs := by rw [hagree.cpu]
  -- IP is behind the string instruction now, so the offset `k` from there is `j` from the start
  have hplace : y.cpu.ip + BitVec.ofNat 16 (ps.length + 1) + k = y.cpu.ip + BitVec.ofNat 16 j := by
    rw [hk, BitVec.add_assoc]
  calc _ = (op.pass x).mem.m (linear (outcome op.body x).2.cpu.cs
          (y.cpu.ip + BitVec.ofNat 16 (ps.length + 1) + k)) := rfl
    _ = x.mem.m (linear x.cpu.cs (y.cpu.ip + BitVec.ofNat 16 j)) := by rw [hcs, hplace, hkept]
    _ = y.code (BitVec.ofNat 16 j) := by rw [Machine.code, hagree.mem, hycs]

/-- **One pass of the loop.** Two calls do what one pass of the repeated instruction does. -/
theorem loop_pass (hcode : op.Code ps y) (hrun : y.cpu.halt = false)
    (hover : x.cpu.segmentOverride = (ps.filterMap segmentOf).getLastD .none)
    (hkept : ∀ j < length ps, (op.pass x).mem.m (linear x.cpu.cs (y.cpu.ip + BitVec.ofNat 16 j)) =
      x.mem.m (linear x.cpu.cs (y.cpu.ip + BitVec.ofNat 16 j)))
    {fuel : ℕ} (hfuel : ps.length + 1 ≤ fuel) (io : Devices δ) :
    ∃ y', CallsReturn io fuel 2 y y' ∧ Agree (op.pass x) y' ∧ y'.log = y.log ∧
      y'.cpu.ip = if op.goes (op.pass x).cpu then y.cpu.ip
        else y.cpu.ip + BitVec.ofNat 16 (length ps) := by
  have hbehind := behind_instruction hagree hcode hover
  have hloop := (code_behind hagree (k := 0) (hkept (ps.length + 1) (by unfold length; omega))
    (BitVec.add_zero _).symm).trans hcode.loop
  have hback := (code_behind hagree (k := 1) (hkept (ps.length + 2) (by unfold length; omega))
    (BitVec.ofNat_add _ 1)).trans hcode.back
  have hhalt : (outcome op.body x).2.cpu.halt = false := by
    have hx : y.cpu.halt = x.cpu.halt := by rw [hagree.cpu]
    exact (op.pass_kept x).2.1.trans (hx.symm.trans hrun)
  generalize hip : y.cpu.ip + BitVec.ofNat 16 (ps.length + 1) = ip at hbehind hloop hback
  generalize hb : (outcome op.body x).2.placed ip .none y.log = b at hbehind hloop hback
  -- behind the LOOP, with or without its jump
  have hdisp : ((b.unlatched.skip 1).code 0).signExtend 16 = -BitVec.ofNat 16 (length ps) := by
    rw [skip_code]
    exact (congrArg (BitVec.signExtend 16) hback).trans (signExtend_neg hcode.short)
  have hgoes : op.goes (b.unlatched.skip 1).counted.cpu = op.goes (op.pass x).cpu := by
    rw [← hb]
    exact op.goes_congr rfl rfl
  have hcounted : (b.unlatched.skip 1).counted.cpu.ip = ip + 1 + 1 := by
    rw [← hb]
    rfl
  refine ⟨(outcome (loopIf op.goes) (b.unlatched.skip 1)).2, ?_, ?_⟩
  · refine .one (n := b) (fun eaddr => ?_) (.one (fun eaddr => ?_) (.none _))
    · rw [op.call_instruction hcode hrun hfuel, hbehind]
    · exact call_loop hloop (by rw [← hb]; exact hhalt) (by omega) io eaddr
  · rw [outcome_loopIf, hdisp, hgoes]
    split
    · refine ⟨?_, ?_, ?_⟩
      · rw [← hb, pass_eq]
        exact (agree_counted _ _ _ _).trans (.skip _ _)
      · rw [← hb]
        rfl
      · show (b.unlatched.skip 1).counted.cpu.ip + _ = _
        rw [hcounted, ← hip]
        exact start_of_back y.cpu.ip ps
    · refine ⟨?_, ?_, ?_⟩
      · rw [← hb, pass_eq]
        exact agree_counted _ _ _ _
      · rw [← hb]
        rfl
      · rw [hcounted, ← hip, ofNat_length]
        simp only [BitVec.add_assoc]

end Pass

/-! ### All passes -/

theorem passes_cx (op : StringOp) (n : Machine δ) (k : ℕ) :
    (op.pass^[k] n).cpu.cx = n.cpu.cx - BitVec.ofNat 16 k := by
  induction k with
  | zero => exact (BitVec.sub_zero _).symm
  | succ k ih =>
    rw [Function.iterate_succ_apply', pass_cx, ih, BitVec.sub_sub, BitVec.ofNat_add]
    rfl

theorem passes_kept (op : StringOp) (n : Machine δ) (k : ℕ) :
    (op.pass^[k] n).cpu.cs = n.cpu.cs ∧ (op.pass^[k] n).cpu.halt = n.cpu.halt ∧
      (op.pass^[k] n).cpu.segmentOverride = n.cpu.segmentOverride := by
  induction k with
  | zero => exact ⟨rfl, rfl, rfl⟩
  | succ k ih =>
    obtain ⟨hcs, hhalt, hover⟩ := ih
    obtain ⟨hcs', hhalt', hover', -, -⟩ := op.pass_kept (op.pass^[k] n)
    rw [Function.iterate_succ_apply']
    exact ⟨hcs'.trans hcs, hhalt'.trans hhalt, hover'.trans hover⟩

theorem passes_store (op : StringStore) (n : Machine δ) (k : ℕ) :
    ((store op).pass^[k] n).cpu = n.cpu.passed op.stride op.moves k := by
  induction k with
  | zero => exact (passed_zero ..).symm
  | succ k ih =>
    rw [Function.iterate_succ_apply', pass_eq,
      show (store op).body = (op.body : M δ Unit) from rfl, op.outcome_body, passed_succ, ← ih]

/-- An element is stored at its own bytes. -/
theorem element_of_ne (op : StringStore) (m : Machine δ) {a : BitVec 20}
    (h : ∀ i < op.size, a ≠ op.dest m.cpu 0 i) : (op.element m).m a = m.mem.m a := by
  have hfirst : a ≠ op.dest m.cpu 0 0 := h 0 (by rcases op.size_cases with h | h <;> omega)
  cases op with
  | movsb => exact Mem.store_of_ne _ _ _ _ hfirst
  | stosb => exact Mem.store_of_ne _ _ _ _ hfirst
  | movsw =>
    have hsecond : a ≠ StringStore.movsw.dest m.cpu 0 1 := h 1 (by decide)
    exact (Mem.store_of_ne _ _ _ _ hsecond).trans (Mem.store_of_ne _ _ _ _ hfirst)
  | stosw =>
    have hsecond : a ≠ StringStore.stosw.dest m.cpu 0 1 := h 1 (by decide)
    exact (Mem.store_of_ne _ _ _ _ hsecond).trans (Mem.store_of_ne _ _ _ _ hfirst)

/-- The passes leave the bytes of the loop alone. -/
theorem Spares.kept {len : ℕ} {n : Machine δ} {ip : Word} (h : op.Spares len n ip) {k j : ℕ}
    (hk : k < n.cpu.cx.toNat) (hj : j < len) :
    (op.pass (op.pass^[k] n)).mem.m (linear n.cpu.cs (ip + BitVec.ofNat 16 j)) =
      (op.pass^[k] n).mem.m (linear n.cpu.cs (ip + BitVec.ofNat 16 j)) := by
  generalize hx : op.pass^[k] n = x
  rw [pass_eq]
  cases op with
  | store op =>
    have hcpu := passes_store op n k
    rw [hx] at hcpu
    show (outcome op.body x).2.mem.m _ = _
    rw [op.outcome_body]
    -- the places that the pass stores to are apart from the loop
    refine element_of_ne op x fun i hi => ?_
    rw [hcpu, op.dest_passed]
    exact h k hk i hi j hj
  | lodsb =>
    show (outcome i8088Lodsb x).2.mem.m _ = _
    rw [outcome_lodsb]
  | lodsw =>
    show (outcome i8088Lodsw x).2.mem.m _ = _
    rw [outcome_lodsw]
  | search op z =>
    show (outcome op.body x).2.mem.m _ = _
    rw [op.outcome_body]

theorem Spares.kept_all {len : ℕ} {n : Machine δ} {ip : Word} (h : op.Spares len n ip) {j : ℕ}
    (hj : j < len) {k : ℕ} (hk : k ≤ n.cpu.cx.toNat) :
    (op.pass^[k] n).mem.m (linear n.cpu.cs (ip + BitVec.ofNat 16 j)) =
      n.mem.m (linear n.cpu.cs (ip + BitVec.ofNat 16 j)) := by
  induction k with
  | zero => rfl
  | succ k ih =>
    rw [Function.iterate_succ_apply', h.kept hk hj]
    exact ih (Nat.le_of_lt hk)

theorem passes_succ (op : StringOp) (n : Machine δ) (k : ℕ) :
    (outcome (do op.body; decrementCx) (op.pass^[k] n)).2 = op.pass^[k + 1] n := by
  show op.pass (op.pass^[k] n) = _
  exact (Function.iterate_succ_apply' _ _ _).symm

theorem eq_of_cx_zero {n : Machine δ} {e : ℕ} (he : e ≤ n.cpu.cx.toNat)
    (h : (op.pass^[e] n).cpu.cx = 0) : e = n.cpu.cx.toNat := by
  by_contra hne
  rw [passes_cx] at h
  exact sub_ofNat_ne_zero (by omega) h

/-- The repetition of a store or a load. -/
theorem outcome_passes_repeated {n : Machine δ} (hrep : n.cpu.repeatPrefix ≠ .none) {fuel : ℕ}
    (hfuel : 65536 ≤ fuel) :
    outcome (repeated op.body fuel) n = (true, op.pass^[n.cpu.cx.toNat] n) :=
  outcome_repeated (f := fun k => op.pass^[k] n) hrep (passes_cx op n)
    (fun k _ => passes_succ op n k) hfuel

/-- The repetition of a search. -/
theorem outcome_passes_search (op : StringSearch) {z : Bool} {n : Machine δ} {e : ℕ}
    (hrep : n.cpu.repeatPrefix = if z then .ez else .nenz) (he : e ≤ n.cpu.cx.toNat)
    (hpos : 0 < e)
    (hgo : ∀ k, 0 < k → k < e → (search op z).goes ((search op z).pass^[k] n).cpu = true)
    (hstop : (search op z).goes ((search op z).pass^[e] n).cpu = false) {fuel : ℕ}
    (hfuel : 65536 ≤ fuel) :
    outcome (repeatedZ (search op z).body fuel) n = (true, (search op z).pass^[e] n) := by
  -- LOOPZ and LOOPNZ ask for what REPZ and REPNZ ask for
  have hgoes : ∀ c : I8088, (search op z).goes c = (c.flags.z == z && c.cx != 0) := by
    intro c
    cases z
    · show (!c.flags.z && c.cx != 0) = _
      cases c.flags.z <;> rfl
    · show (c.flags.z && c.cx != 0) = _
      cases c.flags.z <;> rfl
  have hloop := outcome_repeatWhileZ (z := z) (f := fun k => (search op z).pass^[k] n)
    (passes_cx (search op z) n) (passes_succ (search op z) n) he
    (fun k hk hlt => ?_) ?_ hfuel
  · rw [← show outcome (repeatWhileZ z (search op z).body fuel) n = _ from hloop, repeatedZ,
      outcome_bind, outcome_getCpu, hrep]
    cases z <;> rfl
  · have h := hgo k hk hlt
    rw [hgoes, Bool.and_eq_true, beq_iff_eq] at h
    exact h.1
  · rw [hgoes, Bool.and_eq_false_iff, beq_eq_false_iff_ne, bne_eq_false_iff_eq] at hstop
    rcases hstop with hz | hcx
    · exact .inr ⟨hpos, hz⟩
    · exact .inl (eq_of_cx_zero he hcx)

/-- The repeated instruction makes its passes up to the first behind which the loop would not go
back. -/
theorem outcome_passes (io : Devices δ) (eaddr : Word) {n : Machine δ} {e : ℕ}
    (hrep : op.Repeats n.cpu.repeatPrefix) (he : e ≤ n.cpu.cx.toNat) (hpos : 0 < e)
    (hgo : ∀ k, 0 < k → k < e → op.goes (op.pass^[k] n).cpu = true)
    (hstop : op.goes (op.pass^[e] n).cpu = false) {fuel : ℕ} (hfuel : 65536 ≤ fuel) :
    outcome (i8088Opcode io eaddr fuel op.opcode) n = (true, op.pass^[e] n) := by
  unfold i8088Opcode
  -- without a test of the zero flag, the last pass is the one that leaves no count
  have hall : (op.pass^[e] n).cpu.cx = 0 → n.cpu.repeatPrefix ≠ .none →
      outcome (repeated op.body fuel) n = (true, op.pass^[e] n) := by
    intro hcx hrep
    rw [outcome_passes_repeated hrep hfuel, eq_of_cx_zero he hcx]
  cases op with
  | store op =>
    show outcome ((i8088Case io eaddr fuel op.opcode).getD _) n = _
    rw [op.case_eq]
    exact hall (bne_eq_false_iff_eq.mp hstop) hrep
  | lodsb => exact hall (bne_eq_false_iff_eq.mp hstop) hrep
  | lodsw => exact hall (bne_eq_false_iff_eq.mp hstop) hrep
  | search op z =>
    show outcome ((i8088Case io eaddr fuel op.opcode).getD _) n = _
    rw [op.case_eq]
    exact outcome_passes_search op hrep he hpos hgo hstop hfuel

/-- The loop makes the same passes. -/
theorem loop_passes {n l : Machine δ} {e : ℕ} (hagree : Agree n l) (hcode : op.Code ps l)
    (hrun : n.cpu.halt = false)
    (hover : n.cpu.segmentOverride = (ps.filterMap segmentOf).getLastD .none)
    (hspares : op.Spares (length ps) n l.cpu.ip) (he : e ≤ n.cpu.cx.toNat)
    (hgo : ∀ k, 0 < k → k < e → op.goes (op.pass^[k] n).cpu = true) {fuel : ℕ}
    (hfuel : ps.length + 1 ≤ fuel) (io : Devices δ) (k : ℕ) (hk : k ≤ e) :
    ∃ y, CallsReturn io fuel (2 * k) l y ∧ Agree (op.pass^[k] n) y ∧ y.log = l.log ∧
      y.cpu.ip = if k = 0 ∨ op.goes (op.pass^[k] n).cpu then l.cpu.ip
        else l.cpu.ip + BitVec.ofNat 16 (length ps) := by
  induction k with
  | zero => exact ⟨l, .none l, hagree, rfl, (if_pos (.inl rfl)).symm⟩
  | succ k ih =>
    obtain ⟨y, hcalls, hy, hlog, hip⟩ := ih (Nat.le_of_lt hk)
    have hstart : y.cpu.ip = l.cpu.ip := by
      rw [hip]
      refine if_pos ?_
      rcases Nat.eq_zero_or_pos k with rfl | hpos
      · exact .inl rfl
      · exact .inr (hgo k hpos hk)
    generalize hx : op.pass^[k] n = x at hy
    obtain ⟨hcs, hhalt, hx_over⟩ := passes_kept op n k
    rw [hx] at hcs hhalt hx_over
    have hlt : k < n.cpu.cx.toNat := Nat.lt_of_lt_of_le hk he
    -- the bytes of the loop are still there
    have hy_code : op.Code ps y := by
      refine hcode.congr fun j hj => ?_
      have hkept := hspares.kept_all hj (Nat.le_of_lt hlt)
      have hycs : y.cpu.cs = n.cpu.cs := by rw [hy.cpu, hcs]
      have hlcs : l.cpu.cs = n.cpu.cs := by rw [hagree.cpu]
      rw [hx] at hkept
      rw [Machine.code, Machine.code, hy.mem, hagree.mem, hycs, hlcs, hstart]
      exact hkept
    have hy_run : y.cpu.halt = false := by
      have hyhalt : y.cpu.halt = x.cpu.halt := by rw [hy.cpu]
      exact hyhalt.trans (hhalt.trans hrun)
    obtain ⟨y', hcalls', hy', hlog', hip'⟩ := loop_pass hy hy_code hy_run (hx_over.trans hover)
      (fun j hj => by
        have h := hspares.kept hlt hj
        rwa [hx, ← hcs, ← hstart] at h) hfuel io
    refine ⟨y', ?_, ?_, hlog'.trans hlog, ?_⟩
    · exact hcalls.trans hcalls'
    · rwa [Function.iterate_succ_apply', hx]
    · rw [Function.iterate_succ_apply', hx, hip', hstart]
      exact if_congr (by simp) rfl rfl

end StringOp

/-- **A loop on a string instruction does what the repeat prefix does.** From machines that agree,
the instruction with a repeat prefix in one call and the same instruction in a `LOOP` in two calls
a pass leave machines that agree, and the loop leaves the instruction pointer behind it. Only a
loop that stores on itself, and a counter of 0, with which a loop makes 65536 passes, are
excepted. -/
theorem rep_is_loop (io : Devices δ) {op : StringOp} {m n l : Machine δ} {ps : List Byte}
    {fuel : ℕ} (hd : Dispatches m fuel op.opcode n) (hrep : op.Repeats n.cpu.repeatPrefix)
    (hcx : n.cpu.cx ≠ 0) (hfuel : 65536 ≤ fuel) (hagree : Agree m l) (hcode : op.Code ps l)
    (hover : n.cpu.segmentOverride = (ps.filterMap segmentOf).getLastD .none)
    (hspares : op.Spares (StringOp.length ps) n l.cpu.ip) :
    ∃ m' l' k, (∀ eaddr, outcome (i8088Execute io eaddr fuel) m = (true, m')) ∧
      CallsReturn io fuel (2 * k) l l' ∧ Agree m' l' ∧
      k ≤ n.cpu.cx.toNat ∧ l'.log = l.log ∧
      l'.cpu.ip = l.cpu.ip + BitVec.ofNat 16 (StringOp.length ps) := by
  -- the first pass behind which the loop does not go back
  have hlast : 0 < n.cpu.cx.toNat ∧ op.goes (op.pass^[n.cpu.cx.toNat] n).cpu = false := by
    refine ⟨Nat.pos_of_ne_zero fun h => hcx (BitVec.eq_of_toNat_eq h), ?_⟩
    have hzero : (op.pass^[n.cpu.cx.toNat] n).cpu.cx = 0 := by
      rw [StringOp.passes_cx, sub_ofNat_toNat]
    exact op.goes_of_zero hzero
  have hexists : ∃ k, 0 < k ∧ op.goes (op.pass^[k] n).cpu = false := ⟨_, hlast⟩
  obtain ⟨hpos, hstop⟩ := Nat.find_spec hexists
  have hmin : ∀ k, 0 < k → k < Nat.find hexists → op.goes (op.pass^[k] n).cpu = true := by
    intro k hk hlt
    by_contra hgoes
    exact Nat.find_min hexists hlt ⟨hk, Bool.eq_false_iff.mpr hgoes⟩
  have hle : Nat.find hexists ≤ n.cpu.cx.toNat := Nat.find_min' hexists hlast
  generalize Nat.find hexists = e at *
  have hrun : n.cpu.halt = false := by
    rw [hd.agree.cpu]
    exact hd.running
  have hshort : ps.length + 1 ≤ fuel := by
    have hlength := hcode.short
    unfold StringOp.length at hlength
    omega
  obtain ⟨l', hcalls, hl', hlog, hip⟩ := StringOp.loop_passes (hd.agree.symm.trans hagree) hcode
    hrun hover hspares hle hmin hshort io e (Nat.le_refl _)
  refine ⟨_, l', e, fun eaddr => ?_, hcalls, hl', hle, hlog, ?_⟩
  · rw [hd.execute io eaddr]
    exact StringOp.outcome_passes io eaddr hrep hle hpos hmin hstop hfuel
  · rw [hip, hstop]
    exact if_neg (by simp [hpos.ne'])

/-- A `REP MOVSB` that fills three bytes with the one in front of them, and behind it a loop that
does the same. -/
def fillingThreeBytes : Machine Unit :=
  let m := machineWith [0xF3, 0xA4, 0xA4, 0xE2, 0xFD]
  { m with cpu := { m.cpu with cx := 3, si := 0x20, di := 0x21 } }

/-- `REP MOVSB` with a source one byte before its destination fills three bytes. -/
theorem rep_is_loop_fill :
    ∃ m' l' k, (∀ eaddr,
        outcome (i8088Execute Devices.none eaddr 65536) fillingThreeBytes = (true, m')) ∧
      CallsReturn Devices.none 65536 (2 * k) (fillingThreeBytes.skip 2) l' ∧ Agree m' l' ∧
      k ≤ 3 ∧ l'.log = [] ∧ l'.cpu.ip = 5 := by
  have hdecode : outcome (i8088Decode 2) fillingThreeBytes =
      (some 0xA4, (outcome (i8088Decode 2) fillingThreeBytes).2) := Prod.ext (by decide) rfl
  have hmovsb : Dispatches fillingThreeBytes 65536 (StringOp.store .movsb).opcode
      (outcome (i8088Decode 2) fillingThreeBytes).2 :=
    ⟨rfl, i8088Decode_mono (by decide) hdecode⟩
  have hcode : (StringOp.store .movsb).Code [] (fillingThreeBytes.skip 2) :=
    ⟨List.forall_mem_nil _, by decide, by decide, by decide, by decide⟩
  refine rep_is_loop Devices.none hmovsb ?_ (by decide) (Nat.le_refl _) (.skip _ 2) hcode rfl ?_
  · unfold StringOp.Repeats
    decide
  · unfold StringOp.Spares
    decide

end Pc20iii
