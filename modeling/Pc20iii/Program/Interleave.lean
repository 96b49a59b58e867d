import Mathlib.Logic.Basic

/-!
# A list of steps with interference

A party makes its steps in a fixed order. Between them its surroundings make steps as well, any
number of them, of which only a relation is known.

* `Interleaved step rely as s s'`: from `s` the steps `as`, and such others between them, lead to
  `s'`.
* `Ensures`: a triple of a condition, a list of steps and a condition. Its rules are those of a
  sequence (`Ensures.nil`, `Ensures.cons`, `Ensures.append`), each with the side condition that the
  surroundings keep what has been reached (`Stable`).
-/

namespace StateProgram

variable {σ α : Type}

/-- `s'` is reached from `s` by the steps of a list in order, with others in between. -/
inductive Interleaved (step : σ → α → σ) (rely : σ → σ → Prop) : List α → σ → σ → Prop
  | done (s : σ) : Interleaved step rely [] s s
  /-- A step of the list. -/
  | own {a : α} {as : List α} {s s' : σ} (h : Interleaved step rely as (step s a) s') :
      Interleaved step rely (a :: as) s s'
  /-- A step of the surroundings. -/
  | other {as : List α} {s t s' : σ} (hrely : rely s t) (h : Interleaved step rely as t s') :
      Interleaved step rely as s s'

/-- The surroundings keep `P`. -/
def Stable (rely : σ → σ → Prop) (P : σ → Prop) : Prop := ∀ s t, rely s t → P s → P t

/-- From `P` the steps lead to `Q`, whatever the surroundings do in between. -/
def Ensures (step : σ → α → σ) (rely : σ → σ → Prop) (P : σ → Prop) (as : List α)
    (Q : σ → Prop) : Prop :=
  ∀ s s', Interleaved step rely as s s' → P s → Q s'

variable {step : σ → α → σ} {rely : σ → σ → Prop} {P Q R : σ → Prop} {a : α} {as bs : List α}

/-- A list of steps in two parts. -/
theorem Interleaved.split {s s' : σ} (h : Interleaved step rely (as ++ bs) s s') :
    ∃ t, Interleaved step rely as s t ∧ Interleaved step rely bs t s' := by
  generalize hcs : as ++ bs = cs at h
  induction h generalizing as with
  | done s =>
    obtain ⟨rfl, rfl⟩ := List.append_eq_nil_iff.mp hcs
    exact ⟨s, .done s, .done s⟩
  | @own a cs s s' h ih =>
    -- the step is of the first part, or the first part is done
    cases as with
    | nil =>
      obtain rfl : bs = a :: cs := hcs
      exact ⟨s, .done s, .own h⟩
    | cons b as =>
      obtain ⟨rfl, rfl⟩ := List.cons_eq_cons.mp hcs
      obtain ⟨t, has, hbs⟩ := ih rfl
      exact ⟨t, .own has, hbs⟩
  -- a step of the others may be counted to either part
  | other hrely _ ih =>
    obtain ⟨t, has, hbs⟩ := ih hcs
    exact ⟨t, .other hrely has, hbs⟩

namespace Ensures

/-- What the surroundings keep holds after no step. -/
theorem nil (hP : Stable rely P) : Ensures step rely P [] P := by
  intro s s' h hs
  generalize has : ([] : List α) = as at h
  induction h with
  | done s => exact hs
  | own => cases has
  | other hrely _ ih => exact ih (hP _ _ hrely hs) has

/-- A step, before which the surroundings may come. -/
theorem cons (hP : Stable rely P) (hstep : ∀ s, P s → R (step s a))
    (h : Ensures step rely R as Q) : Ensures step rely P (a :: as) Q := by
  intro s s' hrun hs
  generalize hcs : a :: as = cs at hrun
  induction hrun with
  | done s => cases hcs
  | own hrun =>
    obtain ⟨rfl, rfl⟩ := List.cons_eq_cons.mp hcs
    exact h _ _ hrun (hstep _ hs)
  | other hrely _ ih => exact ih (hP _ _ hrely hs) hcs

/-- Two lists of steps. -/
theorem append (has : Ensures step rely P as R) (hbs : Ensures step rely R bs Q) :
    Ensures step rely P (as ++ bs) Q := by
  intro s s' h hs
  obtain ⟨t, hst, hts⟩ := h.split
  exact hbs _ _ hts (has _ _ hst hs)

end Ensures

end StateProgram
