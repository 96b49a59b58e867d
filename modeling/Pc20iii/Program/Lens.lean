import Pc20iii.Program.Labelled

/-!
# A part of a state

A large system is put together from parts: the state of a part is a piece of the large state,
and a program of the part runs on the large state by working on its piece.

* `Lens σ τ`: the piece `τ` of a state `σ`, as the two functions that read and replace it.
* `zoom l x`: the program `x` of the part, run on the large state. It changes its piece as `x`
  does and nothing else (`outcome_zoom`, `get_zoom`), and zooming commutes with sequencing,
  so that what generates `x` generates `zoom l x`, action by action (`generated_zoom`).
* `Simulates`: from one state of the part to another there is a run of the part. The rule
  `view_runAll` lifts this from a step of the large system to its runs: if each step, seen
  through the lens, is a run of the part, so is each run. What every step of the part keeps is
  then kept by the run (`Simulates.invariant`).
-/

namespace StateProgram

variable {σ τ υ α β γ : Type}

/-- A piece of the state `σ`. -/
structure Lens (σ τ : Type) where
  get : σ → τ
  set : τ → σ → σ
  get_set : ∀ t s, get (set t s) = t
  set_get : ∀ s, set (get s) s = s
  set_set : ∀ t t' s, set t (set t' s) = set t s

/-- A change of the piece `l'` is not seen through `l`. -/
def Lens.Apart (l : Lens σ τ) (l' : Lens σ υ) : Prop := ∀ t s, l.get (l'.set t s) = l.get s

/-- A program of a part, run on the whole state. -/
def zoom (l : Lens σ τ) (x : StateM τ α) : StateM σ α := fun s =>
  ((outcome x (l.get s)).1, l.set (outcome x (l.get s)).2 s)

section Zoom

variable {l : Lens σ τ}

theorem outcome_zoom (x : StateM τ α) (s : σ) :
    outcome (zoom l x) s = ((outcome x (l.get s)).1, l.set (outcome x (l.get s)).2 s) := rfl

/-- The piece changes as the program of the part says. -/
theorem get_zoom (x : StateM τ α) (s : σ) :
    l.get (outcome (zoom l x) s).2 = (outcome x (l.get s)).2 := by
  rw [outcome_zoom, l.get_set]

theorem zoom_pure (a : α) : zoom l (pure a) = pure a := by
  funext s
  exact Prod.ext rfl (l.set_get s)

theorem zoom_get : zoom l get = do return l.get (← get) := by
  funext s
  exact Prod.ext rfl (l.set_get s)

theorem zoom_bind (x : StateM τ α) (f : α → StateM τ β) :
    zoom l (x >>= f) = zoom l x >>= fun a => zoom l (f a) := by
  funext s
  refine Prod.ext ?_ ?_
  · change (outcome (f _) (outcome x (l.get s)).2).1 = (outcome (f _) (l.get (l.set _ s))).1
    rw [l.get_set]
    rfl
  · change l.set (outcome (f _) (outcome x (l.get s)).2).2 s =
      l.set (outcome (f _) (l.get (l.set _ s))).2 (l.set _ s)
    rw [l.get_set, l.set_set]
    rfl

theorem zoom_ite (c : Prop) [Decidable c] (x y : StateM τ α) :
    zoom l (if c then x else y) = if c then zoom l x else zoom l y := by
  split <;> rfl

theorem zoom_forM (as : List α) (f : α → StateM τ PUnit) :
    zoom l (as.forM f) = as.forM fun a => zoom l (f a) := by
  induction as with
  | nil => exact zoom_pure ()
  | cons a as ih =>
    change zoom l (f a >>= fun _ => as.forM f) = _
    rw [zoom_bind, ih]
    rfl

/-- What is generated by actions is, on the whole state, generated by theirs. -/
theorem generated_zoom {G : ∀ α : Type, StateM τ α → Prop} {H : ∀ α : Type, StateM σ α → Prop}
    (hact : ∀ {α : Type} {x : StateM τ α}, G α x → Generated H (zoom l x)) {x : StateM τ α}
    (hx : Generated G x) : Generated H (zoom l x) := by
  induction hx with
  | action x h => exact hact h
  | read =>
    rw [zoom_get]
    infer_instance
  | ret a =>
    rw [zoom_pure]
    infer_instance
  | seq x f _ _ ihx ihf =>
    rw [zoom_bind]
    exact .seq _ _ ihx ihf

end Zoom

/-! ### Runs of the part -/

/-- There is a run of the part from `t` to `t'`. -/
def Simulates (step : τ → β → τ) (t t' : τ) : Prop := ∃ bs, t' = runAll step t bs

namespace Simulates

variable {step : τ → β → τ} {t t' t'' : τ}

theorem refl (t : τ) : Simulates step t t := ⟨[], rfl⟩

theorem trans (h : Simulates step t t') (h' : Simulates step t' t'') : Simulates step t t'' := by
  obtain ⟨bs, rfl⟩ := h
  obtain ⟨bs', rfl⟩ := h'
  exact ⟨bs ++ bs', (runAll_append t bs bs').symm⟩

/-- Steps that are some of the steps of another system. -/
theorem map {big : τ → γ → τ} {f : β → γ} (hstep : ∀ t b, big t (f b) = step t b)
    (h : Simulates step t t') : Simulates big t t' := by
  obtain ⟨bs, rfl⟩ := h
  refine ⟨bs.map f, ?_⟩
  induction bs generalizing t with
  | nil => rfl
  | cons b bs ih => rw [List.map_cons, runAll_cons, runAll_cons, hstep, ih]

/-- What every step of the part keeps is kept between the two states. -/
theorem invariant {I : τ → Prop} (hstep : ∀ t b, I t → I (step t b)) (h : Simulates step t t')
    (ht : I t) : I t' := by
  obtain ⟨bs, rfl⟩ := h
  exact runAll_invariant hstep ht bs

end Simulates

section View

variable {big : σ → α → σ} {small : τ → β → τ} {view : σ → τ}
  (hstep : ∀ s a, Simulates small (view s) (view (big s a)))

include hstep

/-- **The simulation rule.** If each step of the large system is a run of the part, so is each
run. -/
theorem view_runAll (s : σ) (as : List α) : Simulates small (view s) (view (runAll big s as)) := by
  induction as generalizing s with
  | nil => exact .refl _
  | cons a as ih => exact (hstep s a).trans (ih (big s a))

end View

end StateProgram
