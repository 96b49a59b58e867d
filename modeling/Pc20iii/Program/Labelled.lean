import Pc20iii.Program.Generated

/-!
# Runs of a labelled step function

A deterministic system: a state, and a function that takes it and a label to the next
state. A run is a list of labels. What is open about the system, such as its inputs and
the behaviour of its surroundings, is in the labels, so a statement about all lists of
labels is one about all runs.

* `runAll`: the state after a run.
* `Along P`: a condition on the label and on the state it finds, met at every step of a
  run.
* `runAll_keeps`: the invariant rule for runs that meet a condition.
* `along_of_invariant`: the rule for properties of each step.
* `runAll_reaches`: the rule for what a run reaches in the end, by a rank.
* `runAll_iff`: the exact form for properties that are lost for good. If every step loses
  a property exactly when it misses a condition, a run has it at its end exactly when the
  condition is met along the run.
* `along_iff`: the exact form for properties of each step, which may hold again later.
* `collect`: what the steps of a run take in, in order, with the rule that a run keeps all
  of it exactly when every step does (`collect_iff`), and the rule for what goes in behind and
  comes out in front (`collect_conserves`).
-/

namespace StateProgram

variable {σ α : Type}

/-- The state after a run. -/
def runAll (step : σ → α → σ) : σ → List α → σ :=
  List.foldl step

/-- `P` is met at every step of a run, in the state the step finds. -/
def Along (step : σ → α → σ) (P : σ → α → Prop) : σ → List α → Prop
  | _, [] => True
  | s, a :: as => P s a ∧ Along step P (step s a) as

variable {step : σ → α → σ} {I Q : σ → Prop} {P P' : σ → α → Prop}

@[simp] theorem runAll_nil (s : σ) : runAll step s [] = s := rfl

@[simp] theorem runAll_cons (s : σ) (a : α) (as : List α) :
    runAll step s (a :: as) = runAll step (step s a) as := rfl

@[simp] theorem along_nil (s : σ) : Along step P s [] := trivial

@[simp] theorem along_cons (s : σ) (a : α) (as : List α) :
    Along step P s (a :: as) ↔ P s a ∧ Along step P (step s a) as := Iff.rfl

theorem runAll_append (s : σ) (as bs : List α) :
    runAll step s (as ++ bs) = runAll step (runAll step s as) bs :=
  List.foldl_append

theorem along_congr (h : ∀ s a, P s a ↔ P' s a) (s : σ) (as : List α) :
    Along step P s as ↔ Along step P' s as := by
  induction as generalizing s with
  | nil => exact Iff.rfl
  | cons a as ih => rw [along_cons, along_cons, h, ih]

theorem along_append (s : σ) (as bs : List α) :
    Along step P s (as ++ bs) ↔ Along step P s as ∧ Along step P (runAll step s as) bs := by
  induction as generalizing s with
  | nil => simp
  | cons a as ih => rw [List.cons_append, along_cons, along_cons, ih, runAll_cons, and_assoc]

theorem along_mono (h : ∀ s a, P s a → P' s a) {s : σ} {as : List α} (has : Along step P s as) :
    Along step P' s as := by
  induction as generalizing s with
  | nil => trivial
  | cons a as ih => exact ⟨h s a has.1, ih has.2⟩

theorem along_and (s : σ) (as : List α) :
    Along step (fun s a => P s a ∧ P' s a) s as ↔ Along step P s as ∧ Along step P' s as := by
  induction as generalizing s with
  | nil => simp
  | cons a as ih => rw [along_cons, along_cons, along_cons, ih, and_and_and_comm]

/-- What every step keeps, a run keeps. -/
theorem runAll_invariant (hstep : ∀ s a, I s → I (step s a)) {s : σ} (hs : I s)
    (as : List α) : I (runAll step s as) := by
  induction as generalizing s with
  | nil => exact hs
  | cons a as ih => exact ih (hstep s a hs)

/-- What every step that meets a condition keeps, a run whose steps meet it keeps. -/
theorem runAll_keeps (hstep : ∀ s a, I s → P s a → I (step s a)) {s : σ} {as : List α}
    (hs : I s) (has : Along step P s as) : I (runAll step s as) := by
  induction as generalizing s with
  | nil => exact hs
  | cons a as ih => exact ih (hstep s a hs has.1) has.2

/-- What holds of every step from the states of an invariant holds along every run. -/
theorem along_of_invariant (hI : ∀ s a, I s → I (step s a)) (hP : ∀ s a, I s → P s a) {s : σ}
    (hs : I s) (as : List α) : Along step P s as := by
  induction as generalizing s with
  | nil => trivial
  | cons a as ih => exact ⟨hP s a hs, ih (hI s a hs)⟩

/-- If a step loses `Q` exactly when it misses a condition, so does a run. The invariant
`I` holds with and without the condition. -/
theorem runAll_iff (hI : ∀ s a, I s → I (step s a))
    (hQ : ∀ s a, I s → (Q (step s a) ↔ Q s ∧ P s a)) {s : σ} (hs : I s) (as : List α) :
    Q (runAll step s as) ↔ Q s ∧ Along step P s as := by
  induction as generalizing s with
  | nil => simp
  | cons a as ih => rw [runAll_cons, ih (hI s a hs), hQ s a hs, and_assoc, along_cons]

/-- If two conditions on a step agree in the states of an invariant, and the steps that
meet the second keep it, they agree along every run. -/
theorem along_iff (hI : ∀ s a, I s → P' s a → I (step s a))
    (hP : ∀ s a, I s → (P s a ↔ P' s a)) {s : σ} (hs : I s) (as : List α) :
    Along step P s as ↔ Along step P' s as := by
  induction as generalizing s with
  | nil => exact Iff.rfl
  | cons a as ih =>
    rw [along_cons, along_cons, hP s a hs]
    exact and_congr_right fun h => ih (hI s a hs h)

/-- **The rank rule.** If a step reaches a goal or lowers a rank, and the goal is not lost again,
a run that is longer than the rank has reached it. -/
theorem runAll_reaches (rank : σ → ℕ) (hgoal : ∀ s a, Q s → Q (step s a))
    (hstep : ∀ s a, I s → Q (step s a) ∨ I (step s a) ∧ rank (step s a) < rank s) {s : σ}
    (hs : I s) {as : List α} (has : rank s < as.length) : Q (runAll step s as) := by
  induction as generalizing s with
  | nil => exact absurd has (Nat.not_lt_zero _)
  | cons a as ih =>
    rcases hstep s a hs with hreached | ⟨hkept, hlower⟩
    · exact runAll_invariant hgoal hreached as
    · exact ih hkept (Nat.lt_of_lt_of_le hlower (Nat.le_of_lt_succ has))

/-! ### What a run takes in -/

section Collect

variable {β : Type} {f : σ → α → List β}

/-- What the steps of a run take in, in order. -/
def collect (step : σ → α → σ) (f : σ → α → List β) : σ → List α → List β
  | _, [] => []
  | s, a :: as => f s a ++ collect step f (step s a) as

@[simp] theorem collect_nil (s : σ) : collect step f s [] = [] := rfl

@[simp] theorem collect_cons (s : σ) (a : α) (as : List α) :
    collect step f s (a :: as) = f s a ++ collect step f (step s a) as := rfl

theorem collect_append (s : σ) (as bs : List α) :
    collect step f s (as ++ bs) = collect step f s as ++ collect step f (runAll step s as) bs := by
  induction as generalizing s with
  | nil => rfl
  | cons a as ih => rw [List.cons_append, collect_cons, collect_cons, ih, runAll_cons,
      List.append_assoc]

/-- If no step adds more than it takes in, neither does a run. -/
theorem length_runAll_le (out : σ → List β) (hI : ∀ s a, I s → I (step s a))
    (h : ∀ s a, I s → (out (step s a)).length ≤ (out s).length + (f s a).length) {s : σ}
    (hs : I s) (as : List α) :
    (out (runAll step s as)).length ≤ (out s).length + (collect step f s as).length := by
  induction as generalizing s with
  | nil => exact Nat.le_refl _
  | cons a as ih =>
    have hstep := h s a hs
    have hrest := ih (hI s a hs)
    rw [runAll_cons, collect_cons, List.length_append]
    omega

/-- If a step that meets a condition appends what it takes in, and one that misses it adds
less, a run appends all it takes in exactly when the condition is met along it. -/
theorem collect_iff (out : σ → List β) (hI : ∀ s a, I s → I (step s a))
    (hkept : ∀ s a, I s → P s a → out (step s a) = out s ++ f s a)
    (hlost : ∀ s a, I s → ¬P s a → (out (step s a)).length < (out s).length + (f s a).length)
    {s : σ} (hs : I s) (as : List α) :
    out (runAll step s as) = out s ++ collect step f s as ↔ Along step P s as := by
  have hle : ∀ s a, I s → (out (step s a)).length ≤ (out s).length + (f s a).length := by
    intro s a hs
    by_cases hP : P s a
    · exact Nat.le_of_eq (by rw [hkept s a hs hP, List.length_append])
    · exact Nat.le_of_lt (hlost s a hs hP)
  induction as generalizing s with
  | nil => simp
  | cons a as ih =>
    rw [runAll_cons, collect_cons, along_cons]
    by_cases hP : P s a
    · rw [← List.append_assoc, ← hkept s a hs hP]
      exact (ih (hI s a hs)).trans (and_iff_right hP).symm
    · -- what is missing now is missing at the end, since no step makes up for it
      refine iff_of_false (fun h => ?_) fun h => hP h.1
      have hmissing := hlost s a hs hP
      have hrest := length_runAll_le out hI hle (hI s a hs) as
      have hall := congrArg List.length h
      rw [List.length_append, List.length_append] at hall
      omega

/-- If a step adds `g` behind `out` and takes `f` from its front, so does a run. -/
theorem collect_conserves {g : σ → α → List β} (out : σ → List β)
    (hI : ∀ s a, I s → P s a → I (step s a))
    (h : ∀ s a, I s → P s a → f s a ++ out (step s a) = out s ++ g s a) {s : σ} (hs : I s)
    {as : List α} (has : Along step P s as) :
    collect step f s as ++ out (runAll step s as) = out s ++ collect step g s as := by
  induction as generalizing s with
  | nil => exact (List.append_nil _).symm
  | cons a as ih =>
    rw [collect_cons, runAll_cons, List.append_assoc, ih (hI s a hs has.1) has.2,
      ← List.append_assoc, h s a hs has.1, List.append_assoc, collect_cons]

end Collect

end StateProgram
