import Pc20iii.I8088.Prefix
import Pc20iii.I8088.String

/-!
# Passes of a string instruction

A repeated string instruction makes one pass for each element: it works on the element, moves
the index registers to the next one, and counts `cx` down. What the passes have in common is
here, the place of the element of a pass (`I8088.indexAt`), the registers after some passes
(`I8088.passed`), and the loop without and with the test of the zero flag
(`outcome_whileCx`, `outcome_repeatWhileZ`).
-/

namespace Pc20iii

open StateProgram

variable {δ : Type}

/-- The index of the element of pass `k`, which the direction flag counts up or down from the
one of the first pass. It wraps inside the segment. -/
def I8088.indexAt (c : I8088) (size index : Word) (k : ℕ) : Word :=
  if c.flags.d then index - BitVec.ofNat 16 k * size else index + BitVec.ofNat 16 k * size

/-- The registers after `k` passes. The index of the source moves if `source` says so. -/
def I8088.passed (c : I8088) (size : Word) (source : Bool) (k : ℕ) : I8088 :=
  { c with
    cx := c.cx - BitVec.ofNat 16 k
    si := if source then c.indexAt size c.si k else c.si
    di := c.indexAt size c.di k }

@[simp] theorem indexAt_zero (c : I8088) (size index : Word) : c.indexAt size index 0 = index := by
  unfold I8088.indexAt
  rw [BitVec.zero_mul, BitVec.sub_zero, BitVec.add_zero, ite_self]

/-- The indexes of two passes in a row. -/
theorem strideBy_indexAt (c : I8088) (size index : Word) (k : ℕ) :
    c.strideBy size (c.indexAt size index k) = c.indexAt size index (k + 1) := by
  have hsucc : BitVec.ofNat 16 (k + 1) * size = BitVec.ofNat 16 k * size + size := by
    rw [BitVec.ofNat_add, BitVec.add_mul, BitVec.one_mul]
  unfold I8088.strideBy I8088.indexAt
  rw [hsucc]
  split
  · rw [BitVec.sub_sub]
  · rw [BitVec.add_assoc]

@[simp] theorem passed_zero (c : I8088) (size : Word) (source : Bool) :
    c.passed size source 0 = c := by
  unfold I8088.passed
  rw [indexAt_zero, indexAt_zero, ite_self, BitVec.sub_zero]

/-- The registers after one more pass. -/
theorem passed_succ (c : I8088) (size : Word) (source : Bool) (k : ℕ) :
    c.passed size source (k + 1) =
      let c' := c.passed size source k
      { c' with
        cx := c'.cx - 1
        si := if source then c'.strideBy size c'.si else c'.si
        di := c'.strideBy size c'.di } := by
  have hcx : c.cx - BitVec.ofNat 16 k - 1 = c.cx - BitVec.ofNat 16 (k + 1) := by
    rw [BitVec.sub_sub, BitVec.ofNat_add]
    rfl
  -- the direction flag is not among what a pass changes
  have hstride : ∀ index, (c.passed size source k).strideBy size index = c.strideBy size index :=
    fun _ => rfl
  unfold I8088.passed at *
  dsimp only
  rw [hstride, hstride, hcx, ← strideBy_indexAt, ← strideBy_indexAt]
  cases source <;> rfl

section Passed

variable (c : I8088) (size : Word) (source : Bool) (k : ℕ)

@[simp] theorem passed_cx : (c.passed size source k).cx = c.cx - BitVec.ofNat 16 k := rfl
@[simp] theorem passed_di : (c.passed size source k).di = c.indexAt size c.di k := rfl
@[simp] theorem passed_es : (c.passed size source k).es = c.es := rfl
@[simp] theorem passed_ax : (c.passed size source k).ax = c.ax := rfl
@[simp] theorem passed_flags : (c.passed size source k).flags = c.flags := rfl

@[simp] theorem passed_overridden_ds :
    (c.passed size source k).overridden (c.passed size source k).ds = c.overridden c.ds := rfl

end Passed

/-- While there are passes left, the counter is not zero. -/
theorem sub_ofNat_ne_zero {cx : Word} {k : ℕ} (hk : k < cx.toNat) : cx - BitVec.ofNat 16 k ≠ 0 := by
  have hlt := cx.isLt
  have hzero : (0 : Word).toNat = 0 := rfl
  rw [Ne, ← BitVec.toNat_inj, BitVec.toNat_sub, BitVec.toNat_ofNat, hzero]
  omega

theorem sub_ofNat_toNat (cx : Word) : cx - BitVec.ofNat 16 cx.toNat = 0 := by
  rw [BitVec.ofNat_toNat, BitVec.setWidth_eq, BitVec.sub_self]
  rfl

/-- **A loop on the counter** runs through a trace in which each pass counts it down. -/
theorem outcome_whileCx {body : M δ Unit} {f : ℕ → Machine δ} {n : Word}
    (hcx : ∀ k, (f k).cpu.cx = n - BitVec.ofNat 16 k)
    (hbody : ∀ k < n.toNat, (outcome (do body; decrementCx) (f k)).2 = f (k + 1)) {fuel : ℕ}
    (hfuel : 65536 ≤ fuel) : outcome (whileCx body fuel) (f 0) = (true, f n.toNat) := by
  refine whileFuel_of_trace (fun k hk => ?_) hbody ?_ (n.isLt.trans_le hfuel)
  · rw [bne_iff_ne, hcx]
    exact sub_ofNat_ne_zero hk
  · show ((f n.toNat).cpu.cx != 0) = false
    rw [hcx, sub_ofNat_toNat]
    rfl

/-- The repeated forms of `MOVS` and `STOS`. -/
theorem outcome_repeated {body : M δ Unit} {f : ℕ → Machine δ} {n : Word}
    (hrep : (f 0).cpu.repeatPrefix ≠ .none)
    (hcx : ∀ k, (f k).cpu.cx = n - BitVec.ofNat 16 k)
    (hbody : ∀ k < n.toNat, (outcome (do body; decrementCx) (f k)).2 = f (k + 1)) {fuel : ℕ}
    (hfuel : 65536 ≤ fuel) : outcome (repeated body fuel) (f 0) = (true, f n.toNat) := by
  rw [repeated, outcome_bind, outcome_getCpu]
  cases hprefix : (f 0).cpu.repeatPrefix with
  | none => exact absurd hprefix hrep
  | ez => exact outcome_whileCx hcx hbody hfuel
  | nenz => exact outcome_whileCx hcx hbody hfuel

/-- The loop on the counter and the zero flag runs through the passes that leave the flag at `z`,
and ends behind the first one that does not. -/
theorem outcome_repeatWhileZ {z : Bool} {body : M δ Unit} {f : ℕ → Machine δ} {n : Word} {e : ℕ}
    (hcx : ∀ k, (f k).cpu.cx = n - BitVec.ofNat 16 k)
    (hbody : ∀ k, (outcome (do body; decrementCx) (f k)).2 = f (k + 1)) (he : e ≤ n.toNat)
    (hgo : ∀ k, 0 < k → k < e → (f k).cpu.flags.z = z)
    (hstop : e = n.toNat ∨ 0 < e ∧ (f e).cpu.flags.z ≠ z) {fuel : ℕ} (hfuel : 65536 ≤ fuel) :
    outcome (repeatWhileZ z body fuel) (f 0) = (true, f e) := by
  have hstart : (f 0).cpu.cx = n := by
    rw [hcx]
    exact BitVec.sub_zero n
  have hpass : (outcome decrementCx (outcome body (f 0)).2).2 = f 1 := hbody 0
  rw [repeatWhileZ, outcome_bind, outcome_getCpu, outcome_ite, hstart]
  by_cases hn : n = 0
  · -- no pass
    have hzero : e = 0 := by
      rw [hn] at he
      exact Nat.le_zero.mp he
    rw [if_neg (not_not_intro hn), hzero]
    rfl
  have hpos : 0 < e := by
    rcases hstop with rfl | hstop
    · exact Nat.pos_of_ne_zero fun h => hn (BitVec.eq_of_toNat_eq h)
    · exact hstop.1
  rw [if_pos hn, outcome_bind, outcome_bind, outcome_bind, outcome_getCpu, hpass, outcome_ite]
  -- the first pass is done before the flag is looked at, the others are those of a loop
  obtain ⟨e, rfl⟩ : ∃ k, e = k + 1 := ⟨e - 1, by omega⟩
  split
  case isFalse hz =>
    -- the first pass is the last
    have hone : e = 0 := by
      by_contra hne
      exact hz (hgo 1 Nat.one_pos (by omega))
    rw [hone]
    rfl
  case isTrue hz =>
    have hlt := n.isLt
    refine whileFuel_of_trace (f := fun k => f (k + 1)) (fun k hk => ?_)
      (fun k _ => hbody (k + 1)) ?_ (by omega)
    · rw [Bool.and_eq_true, bne_iff_ne, beq_iff_eq, hcx]
      exact ⟨sub_ofNat_ne_zero (by omega), hgo (k + 1) (Nat.succ_pos k) (by omega)⟩
    · rw [Bool.and_eq_false_iff]
      rcases hstop with hstop | hstop
      · refine .inl ?_
        rw [hcx, hstop, sub_ofNat_toNat]
        rfl
      · exact .inr (beq_eq_false_iff_ne.mpr hstop.2)

end Pc20iii
