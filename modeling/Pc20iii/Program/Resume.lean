import Mathlib.Data.List.Chain
import Mathlib.Data.Nat.Notation
import Mathlib.Tactic.Common

/-!
# Enumerations that are resumed behind a position

A list whose elements have positions is enumerated by requests: each names the position of the
previous answer, and is answered by the first element whose position is the next one. Nothing
is looked for behind a gap.

* `resume`: what the requests return from an answer on, with a bound for their number.
* `gapless_of_resume`: the positions of the answers follow each other.
* `resume_of_gapless`: if those of the list do, the answers are the list.
-/

namespace StateProgram

variable {α : Type}

/-- The positions follow each other without a gap. -/
abbrev Gapless (position : α → ℕ) (l : List α) : Prop :=
  l.IsChain fun a b => position a + 1 = position b

/-- The answer to the request that names the position of `a`. -/
def nextAt (position : α → ℕ) (l : List α) (a : α) : Option α :=
  l.find? fun b => position a + 1 = position b

/-- The answers from `a` on, to at most `n` further requests; the last request has to find
nothing. -/
def resume (position : α → ℕ) (l : List α) : ℕ → α → Option (List α)
  | 0, _ => none
  | n + 1, a =>
    match nextAt position l a with
    | none => some [a]
    | some b => (resume position l n b).map (a :: ·)

variable {position : α → ℕ} {l : List α}

theorem nextAt_position {a b : α} (h : nextAt position l a = some b) :
    position a + 1 = position b :=
  of_decide_eq_true (List.find?_some (p := fun b => position a + 1 = position b) h)

/-- The answers have no gaps. -/
theorem gapless_of_resume {n : ℕ} {a : α} {answers : List α}
    (h : resume position l n a = some answers) :
    Gapless position answers ∧ answers.head? = some a := by
  induction n generalizing a answers with
  | zero => cases h
  | succ n ih =>
    rw [resume] at h
    split at h
    · cases h
      exact ⟨.singleton a, rfl⟩
    case h_2 b hnext =>
      obtain ⟨rest, hrest, rfl⟩ := Option.map_eq_some_iff.mp h
      obtain ⟨hchain, hhead⟩ := ih hrest
      -- the next answer was found by its position
      have hstep : position a + 1 = position b := nextAt_position hnext
      refine ⟨hchain.cons fun c hc => ?_, rfl⟩
      cases hhead.symm.trans hc
      exact hstep

theorem Gapless.pairwise (h : Gapless position l) :
    l.Pairwise fun a b => position a < position b := by
  have hlt : l.IsChain fun a b => position a < position b :=
    h.imp fun a b hstep => Nat.lt_of_succ_le hstep.le
  exact List.isChain_iff_pairwise.mp hlt

/-- In a list without gaps, the element behind `a` is the answer, if there is one. -/
theorem nextAt_of_gapless {before after : List α} {a : α}
    (h : Gapless position (before ++ a :: after)) :
    nextAt position (before ++ a :: after) a = after.head? := by
  -- what is before `a` has smaller positions
  have hbefore : ∀ b ∈ before, ¬ position a + 1 = position b := by
    intro b hb heq
    have hlt : position b < position a :=
      (List.pairwise_append.mp h.pairwise).2.2 b hb a (List.mem_cons_self ..)
    omega
  have hnone : before.find? (fun b => decide (position a + 1 = position b)) = none :=
    List.find?_eq_none.mpr fun b hb => by rw [decide_eq_true_iff]; exact hbefore b hb
  have hself : decide (position a + 1 = position a) = false :=
    decide_eq_false (Nat.succ_ne_self _)
  rw [nextAt, List.find?_append, hnone, Option.none_or, List.find?_cons, hself]
  dsimp only
  cases after with
  | nil => rfl
  | cons b after =>
    -- and what is behind it the next one
    have hstep : position a + 1 = position b :=
      (List.isChain_cons_cons.mp h.right_of_append).1
    rw [List.find?_cons, decide_eq_true hstep]
    rfl

/-- **Without gaps, nothing is missed.** -/
theorem resume_of_gapless {before after : List α} {a : α}
    (h : Gapless position (before ++ a :: after)) {n : ℕ} (hn : after.length < n) :
    resume position (before ++ a :: after) n a = some (a :: after) := by
  induction after generalizing before a n with
  | nil =>
    obtain ⟨n, rfl⟩ := Nat.exists_eq_add_one_of_ne_zero (Nat.ne_of_gt hn)
    rw [resume, nextAt_of_gapless h]
    rfl
  | cons b after ih =>
    obtain ⟨n, rfl⟩ := Nat.exists_eq_add_one_of_ne_zero (Nat.ne_of_gt (Nat.zero_lt_of_lt hn))
    -- the element that was found belongs to those before the next
    have hsplit : before ++ a :: b :: after = (before ++ [a]) ++ b :: after := by
      rw [List.append_assoc, List.singleton_append]
    have hrest : resume position (before ++ a :: b :: after) n b = some (b :: after) := by
      rw [hsplit] at h ⊢
      exact ih h (Nat.lt_of_succ_lt_succ hn)
    rw [resume, nextAt_of_gapless h]
    dsimp only [List.head?_cons]
    rw [hrest]
    rfl

end StateProgram
