import Pc20iii.I8088.Compare
import Pc20iii.I8088.Repeat

/-!
# Searches of strings

`REPE` and `REPNE` with `CMPS` and `SCAS` compare one pair after the other, as long as the pairs
are equal or as long as they are not. The source writes the first pass apart from the loop over
the others; `rep_string_searches` says that both together are a search for the first pair that
ends it: the flags are those of the comparison of the last pair examined, the counter and the
index registers have moved by the number of pairs (`StringSearch.examined`), and nothing else has
changed.
-/

namespace Pc20iii

open StateProgram

variable {δ : Type}

/-! ### Pairs of elements -/

/-- The two elements of a comparison. -/
inductive Pair where
  | bytes (input1 input2 : Byte)
  | words (input1 input2 : Word)

namespace Pair

/-- The two elements are equal. -/
def equal : Pair → Bool
  | bytes input1 input2 => input1 == input2
  | words input1 input2 => input1 == input2

/-- `i8088_cmp_8` or `i8088_cmp_16`. -/
def cmp : Pair → Flags → Flags
  | bytes input1 input2, f => i8088Cmp8 f input1 input2
  | words input1 input2, f => i8088Cmp16 f input1 input2

/-- A comparison sets the zero flag for equal elements. -/
theorem cmp_z (p : Pair) (f : Flags) : (p.cmp f).z = p.equal := by
  cases p with
  | bytes input1 input2 => exact Bool.eq_iff_iff.mpr ((subFlags_z f _ _).trans beq_iff_eq.symm)
  | words input1 input2 => exact Bool.eq_iff_iff.mpr ((subFlags_z f _ _).trans beq_iff_eq.symm)

/-- Of two comparisons only the second shows in the flags. -/
theorem cmp_cmp (p q : Pair) (f : Flags) : p.cmp (q.cmp f) = p.cmp f := by
  cases p <;> cases q <;> rfl

theorem cmp_d (p : Pair) (f : Flags) : (p.cmp f).d = f.d := by
  cases p <;> rfl

end Pair

/-! ### The instructions -/

/-- The instructions that search a string. -/
inductive StringSearch where
  | cmpsb
  | cmpsw
  | scasb
  | scasw
deriving DecidableEq

namespace StringSearch

/-- The opcode. -/
def opcode : StringSearch → Byte
  | cmpsb => 0xA6
  | cmpsw => 0xA7
  | scasb => 0xAE
  | scasw => 0xAF

/-- The function behind the opcode. -/
def body : StringSearch → M δ Unit
  | cmpsb => i8088Cmpsb
  | cmpsw => i8088Cmpsw
  | scasb => i8088Scasb
  | scasw => i8088Scasw

/-- The stride of the index registers. -/
def stride : StringSearch → Word
  | cmpsb => 1
  | cmpsw => 2
  | scasb => 1
  | scasw => 2

/-- The instruction compares with a second string, not with `ax`. -/
def source : StringSearch → Bool
  | cmpsb => true
  | cmpsw => true
  | scasb => false
  | scasw => false

/-- The pair of pass `k`. -/
def pair (op : StringSearch) (m : Machine δ) (k : ℕ) : Pair :=
  let si := m.cpu.indexAt op.stride m.cpu.si k
  let di := m.cpu.indexAt op.stride m.cpu.di k
  match op with
  | cmpsb => .bytes (m.mem.m (linear (m.cpu.overridden m.cpu.ds) si)) (m.mem.m (linear m.cpu.es di))
  | cmpsw => .words (m.mem.word (m.cpu.overridden m.cpu.ds) si) (m.mem.word m.cpu.es di)
  | scasb => .bytes m.cpu.al (m.mem.m (linear m.cpu.es di))
  | scasw => .words m.cpu.ax (m.mem.word m.cpu.es di)

/-- The number of pairs that are examined, as long as `equal` is `z`: one more than the index of
the first pair for which it is not, or all of them. -/
def examined (op : StringSearch) (z : Bool) (m : Machine δ) : ℕ :=
  match (List.range m.cpu.cx.toNat).find? fun k => (op.pair m k).equal != z with
  | some k => k + 1
  | none => m.cpu.cx.toNat

/-- The machine after `k` passes. -/
def after (op : StringSearch) (m : Machine δ) (k : ℕ) : Machine δ :=
  { m with cpu := { m.cpu.passed op.stride op.source k with
      flags := if k = 0 then m.cpu.flags else (op.pair m (k - 1)).cmp m.cpu.flags } }

/-- What a repeated instruction in `n` has done in `m'`. -/
structure Searches (op : StringSearch) (z : Bool) (n m' : Machine δ) : Prop where
  cx : m'.cpu.cx.toNat = n.cpu.cx.toNat - op.examined z n
  si : m'.cpu.si =
    if op.source then n.cpu.indexAt op.stride n.cpu.si (op.examined z n) else n.cpu.si
  di : m'.cpu.di = n.cpu.indexAt op.stride n.cpu.di (op.examined z n)
  /-- The flags of the comparison of the last pair examined. -/
  flags : op.examined z n ≠ 0 →
    m'.cpu.flags = (op.pair n (op.examined z n - 1)).cmp n.cpu.flags
  /-- Nothing else has changed. -/
  rest : m' = { n with cpu := { n.cpu with
    cx := m'.cpu.cx, si := m'.cpu.si, di := m'.cpu.di, flags := m'.cpu.flags } }
  /-- Without a pair nothing at all has changed. -/
  nothing : n.cpu.cx = 0 → m' = n

/-! ### One pass -/

/-- What one call of the function does. -/
theorem outcome_body (op : StringSearch) (m : Machine δ) :
    outcome op.body m = ((), { m with
      cpu := { m.cpu with
        si := if op.source then m.cpu.strideBy op.stride m.cpu.si else m.cpu.si
        di := m.cpu.strideBy op.stride m.cpu.di
        flags := (op.pair m 0).cmp m.cpu.flags } }) := by
  -- a comparison leaves the direction flag alone, and with it the stride
  cases op <;>
    simp [body, i8088Cmpsb, i8088Cmpsw, i8088Scasb, i8088Scasw, advanceBoth, advanceDi, eaddrRead8,
      eaddrRead16, readEsDi, source, stride, pair, Pair.cmp, Mem.word]
  case cmpsb => exact ⟨rfl, rfl⟩
  case cmpsw => exact ⟨rfl, rfl⟩
  case scasb => rfl
  case scasw => rfl

theorem after_zero (op : StringSearch) (m : Machine δ) : op.after m 0 = m := by
  rw [after, passed_zero]
  rfl

theorem after_flags_d (op : StringSearch) (m : Machine δ) (k : ℕ) :
    (op.after m k).cpu.flags.d = m.cpu.flags.d := by
  show (if k = 0 then m.cpu.flags else (op.pair m (k - 1)).cmp m.cpu.flags).d = _
  split
  · rfl
  · exact Pair.cmp_d _ _

/-- The pair of a pass, seen from the machine it finds. -/
theorem pair_after (op : StringSearch) (m : Machine δ) (k : ℕ) :
    op.pair (op.after m k) 0 = op.pair m k := by
  cases op <;> simp only [pair, indexAt_zero] <;> rfl

/-- **One pass** of the loop. -/
theorem pass_after (op : StringSearch) (m : Machine δ) (k : ℕ) :
    (outcome (do op.body; decrementCx) (op.after m k)).2 = op.after m (k + 1) := by
  have hstride : ∀ index, (op.after m k).cpu.strideBy op.stride index =
      (m.cpu.passed op.stride op.source k).strideBy op.stride index := by
    intro index
    unfold I8088.strideBy
    rw [op.after_flags_d]
    rfl
  -- a comparison leaves nothing of the flags of the one before
  have hflags : (op.pair m k).cmp (op.after m k).cpu.flags = (op.pair m k).cmp m.cpu.flags := by
    show (op.pair m k).cmp (if k = 0 then _ else _) = _
    split
    · rfl
    · exact Pair.cmp_cmp _ _ _
  have hcpu := passed_succ m.cpu op.stride op.source k
  rw [outcome_bind, outcome_body, pair_after, hflags, hstride, hstride, after, after, hcpu]
  rfl

/-! ### The search -/

/-- The pairs before the last one examined go on, and the last one ends the search, unless all
pairs are examined. -/
theorem examined_cases (op : StringSearch) (z : Bool) (m : Machine δ) :
    op.examined z m ≤ m.cpu.cx.toNat ∧
      (∀ k, k + 1 < op.examined z m → (op.pair m k).equal = z) ∧
      (op.examined z m = m.cpu.cx.toNat ∨
        0 < op.examined z m ∧ (op.pair m (op.examined z m - 1)).equal ≠ z) := by
  unfold examined
  split
  -- `find?` gives the first pair that ends the search
  case h_1 k hk =>
    obtain ⟨hstop, hrange, hbefore⟩ := List.find?_range_eq_some.mp hk
    have hlt := List.mem_range.mp hrange
    refine ⟨hlt, fun j hj => ?_, .inr ⟨Nat.succ_pos k, ?_⟩⟩
    · have hgoes := hbefore j (Nat.lt_of_succ_lt_succ hj)
      rwa [Bool.not_eq_true', bne_eq_false_iff_eq] at hgoes
    · rwa [bne_iff_ne] at hstop
  case h_2 hnone =>
    have hall := List.find?_range_eq_none.mp hnone
    refine ⟨Nat.le_refl _, fun j hj => ?_, .inl rfl⟩
    have hgoes := hall j (Nat.lt_of_succ_lt hj)
    rwa [Bool.not_eq_true', bne_eq_false_iff_eq] at hgoes

/-- The case of an instruction in the switch. -/
theorem case_eq (op : StringSearch) (io : Devices δ) (eaddr : Word) (fuel : ℕ) :
    i8088Case io eaddr fuel op.opcode = some (repeatedZ op.body fuel) := by
  cases op <;> rfl

/-- A search that has examined these pairs is what `Searches` describes. -/
theorem searches_after (op : StringSearch) (z : Bool) (m : Machine δ) :
    op.Searches z m (op.after m (op.examined z m)) where
  cx := by
    have hle := (op.examined_cases z m).1
    have hlt := m.cpu.cx.isLt
    show (m.cpu.cx - BitVec.ofNat 16 (op.examined z m)).toNat = _
    rw [BitVec.toNat_sub, BitVec.toNat_ofNat]
    omega
  si := rfl
  di := rfl
  flags h := if_neg h
  rest := rfl
  -- with CX 0 no pair is examined
  nothing hcx := by
    have hle := (op.examined_cases z m).1
    rw [hcx] at hle
    rw [Nat.le_zero.mp hle, after_zero]

/-- The loop is the search. -/
theorem outcome_search (op : StringSearch) (z : Bool) (m : Machine δ) {fuel : ℕ}
    (hfuel : 65536 ≤ fuel) :
    outcome (repeatWhileZ z op.body fuel) m = (true, op.after m (op.examined z m)) := by
  obtain ⟨hle, hgo, hstop⟩ := op.examined_cases z m
  -- behind a pass the zero flag tells whether its pair was equal
  have hz : ∀ k, 0 < k → (op.after m k).cpu.flags.z = (op.pair m (k - 1)).equal := by
    intro k hk
    rw [← Pair.cmp_z _ m.cpu.flags]
    exact congrArg Flags.z (if_neg hk.ne')
  have hloop := outcome_repeatWhileZ (f := op.after m) (n := m.cpu.cx) (z := z) (fun _ => rfl)
    (op.pass_after m) hle (fun k hk hlt => ?_) (hstop.imp_right fun h => ⟨h.1, ?_⟩) hfuel
  · rwa [after_zero] at hloop
  · rw [hz k hk]
    exact hgo (k - 1) (by omega)
  · rw [hz _ h.1]
    exact h.2

end StringSearch

/-- **A repeated search of a string.** For every counter, direction, index and memory, `REPE` and
`REPNE` with `CMPS` or `SCAS` examine the pairs up to the first one that ends the search, or all
of them; the counter and the index registers have moved by their number, the flags are those of
the last comparison, and nothing else changes. -/
theorem rep_string_searches (io : Devices δ) (eaddr : Word) {m n : Machine δ} {fuel : ℕ}
    {op : StringSearch} {z : Bool} (hd : Dispatches m fuel op.opcode n)
    (hrep : n.cpu.repeatPrefix = if z then .ez else .nenz) (hfuel : 65536 ≤ fuel) :
    Agree m n ∧
      ∃ m', outcome (i8088Execute io eaddr fuel) m = (true, m') ∧ op.Searches z n m' := by
  refine ⟨hd.agree, op.after n (op.examined z n), ?_, op.searches_after z n⟩
  rw [hd.execute io eaddr, i8088Opcode, op.case_eq, Option.getD_some, repeatedZ, outcome_bind,
    outcome_getCpu, hrep, ← op.outcome_search z n hfuel]
  cases z <;> rfl

/-- A `REPE CMPSB` of the first two bytes of memory with the next two. -/
def comparingTwoBytes : Machine Unit :=
  let m := machineWith [0xF3, 0xA6]
  { m with cpu := { m.cpu with cx := 2, di := 2 } }

theorem rep_string_searches_two :
    Agree comparingTwoBytes (outcome (i8088Decode 2) comparingTwoBytes).2 ∧
      ∃ m', outcome (i8088Execute Devices.none 0 65536) comparingTwoBytes = (true, m') ∧
        StringSearch.cmpsb.Searches true (outcome (i8088Decode 2) comparingTwoBytes).2 m' := by
  have hdecode : outcome (i8088Decode 2) comparingTwoBytes =
      (some 0xA6, (outcome (i8088Decode 2) comparingTwoBytes).2) := Prod.ext (by decide) rfl
  exact rep_string_searches Devices.none 0 ⟨rfl, i8088Decode_mono (by decide) hdecode⟩ (by decide)
    (Nat.le_refl _)

end Pc20iii
