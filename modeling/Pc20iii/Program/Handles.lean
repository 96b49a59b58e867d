import Mathlib.Data.Nat.Notation
import Mathlib.Logic.Function.Basic
import Mathlib.Logic.Relation

/-!
# Handles that are acquired and given back

A program gets handles from its surroundings, calls them with these, and gives them back. Its calls
are a history (`HandleEvent`, newest first), from which follows what is open (`OpenIn`), and whether
the program has only named what was open (`NamesOpen`). That the surroundings give out nothing that
is open is their part (`GivesFresh`).

* `HandleTable`: the history, and the handles that the program holds, each in a slot.
* `HandleStep`: what a program may do that keeps its table in order. It uses what is in a slot,
  fills an empty slot, empties a slot with the call that closes, or borrows a handle and closes it
  at once.
* `HandleTable.Kept`: what is open is what the slots hold, each handle once.
* `kept_of_steps`: a program that only makes such steps keeps its table in order, as long as the
  surroundings do their part.
* `HoldsAt` and `CalledAt`: where a program stands between the call and the assignment of a step.
-/

namespace StateProgram

variable {ι κ : Type}

/-- A call that opens, uses or closes a handle. -/
inductive HandleEvent (ι : Type) where
  | opened (x : ι)
  | used (x : ι)
  | closed (x : ι)

/-- The handle is open behind the calls. -/
def OpenIn : List (HandleEvent ι) → ι → Prop
  | [], _ => False
  | .opened y :: es, x => x = y ∨ OpenIn es x
  | .used _ :: es, x => OpenIn es x
  | .closed y :: es, x => x ≠ y ∧ OpenIn es x

/-- No call has opened what was open. -/
def GivesFresh : List (HandleEvent ι) → Prop
  | [] => True
  | .opened x :: es => ¬ OpenIn es x ∧ GivesFresh es
  | .used _ :: es => GivesFresh es
  | .closed _ :: es => GivesFresh es

/-- No call has named what was not open. -/
def NamesOpen : List (HandleEvent ι) → Prop
  | [] => True
  | .opened _ :: es => NamesOpen es
  | .used x :: es => OpenIn es x ∧ NamesOpen es
  | .closed x :: es => OpenIn es x ∧ NamesOpen es

/-- The history, and the handles that are held in slots. -/
structure HandleTable (ι κ : Type) where
  history : List (HandleEvent ι)
  held : κ → Option ι

/-- What is open is what the slots hold, each handle once, and no call has named what was not
open. -/
structure HandleTable.Kept (t : HandleTable ι κ) : Prop where
  names : NamesOpen t.history
  open_iff : ∀ x, OpenIn t.history x ↔ ∃ s, t.held s = some x
  once : ∀ s s' x, t.held s = some x → t.held s' = some x → s = s'

/-- One more call. -/
def HandleTable.call (t : HandleTable ι κ) (e : HandleEvent ι) : HandleTable ι κ :=
  { t with history := e :: t.history }

section Uses

variable (x : ι) (uses : ℕ) (es : List (HandleEvent ι))

theorem openIn_replicate (y : ι) :
    OpenIn (List.replicate uses (.used x) ++ es) y ↔ OpenIn es y := by
  induction uses with
  | zero => exact Iff.rfl
  | succ n ih =>
    rw [List.replicate_succ, List.cons_append]
    exact ih

theorem givesFresh_replicate :
    GivesFresh (List.replicate uses (.used x) ++ es) ↔ GivesFresh es := by
  induction uses with
  | zero => exact Iff.rfl
  | succ n ih =>
    rw [List.replicate_succ, List.cons_append]
    exact ih

theorem namesOpen_replicate (hopen : OpenIn es x) (h : NamesOpen es) :
    NamesOpen (List.replicate uses (.used x) ++ es) := by
  induction uses with
  | zero => exact h
  | succ n ih =>
    rw [List.replicate_succ, List.cons_append]
    exact ⟨(openIn_replicate x n es x).mpr hopen, ih⟩

end Uses

variable {t t' : HandleTable ι κ} {s : κ} {x : ι}

namespace HandleTable.Kept

/-- The handle of a slot is open. -/
theorem openIn (ht : t.Kept) (h : t.held s = some x) : OpenIn t.history x :=
  (ht.open_iff x).mpr ⟨s, h⟩

/-- A handle that is not open is in no slot. -/
theorem not_held (ht : t.Kept) (h : ¬ OpenIn t.history x) (s' : κ) : t.held s' ≠ some x :=
  fun hs' => h (ht.openIn hs')

theorem use (ht : t.Kept) (h : t.held s = some x) : (t.call (.used x)).Kept :=
  ⟨⟨ht.openIn h, ht.names⟩, ht.open_iff, ht.once⟩

/-- A handle that is opened, used and closed in between leaves the table as it is. -/
theorem borrow (ht : t.Kept) (hfresh : ¬ OpenIn t.history x) (uses : ℕ) :
    HandleTable.Kept { t with
      history := .closed x :: (List.replicate uses (.used x) ++ .opened x :: t.history) } := by
  have hopen : OpenIn (HandleEvent.opened x :: t.history) x := .inl rfl
  refine ⟨⟨(openIn_replicate x uses _ x).mpr hopen, namesOpen_replicate x uses _ hopen ht.names⟩,
    fun y => ?_, ht.once⟩
  rw [← ht.open_iff y]
  constructor
  -- what is open afterwards was open before, since the handle was fresh
  · rintro ⟨hne, hy⟩
    exact ((openIn_replicate x uses _ y).mp hy).resolve_left hne
  · intro hy
    refine ⟨?_, (openIn_replicate x uses _ y).mpr (.inr hy)⟩
    rintro rfl
    exact hfresh hy

end HandleTable.Kept

/-! ### Steps -/

variable [DecidableEq κ]

/-- A slot gets another content. -/
def HandleTable.put (t : HandleTable ι κ) (s : κ) (x : Option ι) : HandleTable ι κ :=
  { t with held := Function.update t.held s x }

theorem held_put_self (t : HandleTable ι κ) (s : κ) (x : Option ι) : (t.put s x).held s = x :=
  Function.update_self ..

theorem held_put_of_ne {s s' : κ} (h : s' ≠ s) (t : HandleTable ι κ) (x : Option ι) :
    (t.put s x).held s' = t.held s' := Function.update_of_ne h _ _

/-- What the slots hold when one of them is filled. -/
theorem held_fill_iff {t : HandleTable ι κ} {s s' : κ} {x y : ι} :
    (t.put s (some x)).held s' = some y ↔ s' = s ∧ y = x ∨ s' ≠ s ∧ t.held s' = some y := by
  -- the slot that is filled, and any other one
  by_cases hs : s' = s
  · rw [hs, held_put_self, Option.some.injEq]
    constructor
    · intro h
      exact .inl ⟨rfl, h.symm⟩
    · rintro (⟨-, h⟩ | ⟨h, -⟩)
      · exact h.symm
      · exact absurd rfl h
  · rw [held_put_of_ne hs]
    constructor
    · intro h
      exact .inr ⟨hs, h⟩
    · rintro (⟨h, -⟩ | ⟨-, h⟩)
      · exact absurd h hs
      · exact h

/-- What the slots hold when one of them is emptied. -/
theorem held_empty_iff {t : HandleTable ι κ} {s s' : κ} {y : ι} :
    (t.put s none).held s' = some y ↔ s' ≠ s ∧ t.held s' = some y := by
  by_cases hs : s' = s
  · rw [hs, held_put_self]
    constructor
    · intro h
      cases h
    · intro h
      exact absurd rfl h.1
  · rw [held_put_of_ne hs]
    exact ⟨fun h => ⟨hs, h⟩, fun h => h.2⟩

/-- A step that keeps the table in order. -/
inductive HandleStep (t : HandleTable ι κ) : HandleTable ι κ → Prop
  | use (s : κ) (x : ι) (h : t.held s = some x) : HandleStep t (t.call (.used x))
  | acquire (s : κ) (x : ι) (h : t.held s = none) :
      HandleStep t ((t.call (.opened x)).put s (some x))
  | release (s : κ) (x : ι) (h : t.held s = some x) :
      HandleStep t ((t.call (.closed x)).put s none)
  | borrow (x : ι) (uses : ℕ) :
      HandleStep t { t with
        history := .closed x :: (List.replicate uses (.used x) ++ .opened x :: t.history) }

/-- Some of them, one after the other. -/
abbrev HandleSteps : HandleTable ι κ → HandleTable ι κ → Prop := Relation.ReflTransGen HandleStep

/-- The surroundings have done their part before, too. -/
theorem HandleStep.givesFresh (h : HandleStep t t') (hfresh : GivesFresh t'.history) :
    GivesFresh t.history := by
  cases h with
  | use s x h => exact hfresh
  | acquire s x h => exact hfresh.2
  | release s x h => exact hfresh
  | borrow x uses => exact ((givesFresh_replicate x uses _).mp hfresh).2

namespace HandleTable.Kept

/-- A fresh handle is put into an empty slot. -/
theorem acquire (ht : t.Kept) (h : t.held s = none) (hfresh : ¬ OpenIn t.history x) :
    ((t.call (.opened x)).put s (some x)).Kept := by
  refine ⟨ht.names, fun y => ?_, fun s₁ s₂ y h₁ h₂ => ?_⟩
  · constructor
    · rintro (rfl | hopen)
      · exact ⟨s, held_put_self ..⟩
      · obtain ⟨s', hs'⟩ := (ht.open_iff y).mp hopen
        refine ⟨s', held_fill_iff.mpr (.inr ⟨?_, hs'⟩)⟩
        -- the slot that is filled has been empty
        rintro rfl
        cases h.symm.trans hs'
    · rintro ⟨s', hs'⟩
      rcases held_fill_iff.mp hs' with ⟨-, rfl⟩ | ⟨-, hheld⟩
      · exact .inl rfl
      · exact .inr (ht.openIn hheld)
  · rcases held_fill_iff.mp h₁ with ⟨rfl, rfl⟩ | ⟨-, hheld₁⟩
    · rcases held_fill_iff.mp h₂ with ⟨rfl, -⟩ | ⟨-, hheld₂⟩
      · rfl
      · exact absurd hheld₂ (ht.not_held hfresh s₂)
    · rcases held_fill_iff.mp h₂ with ⟨rfl, rfl⟩ | ⟨-, hheld₂⟩
      · exact absurd hheld₁ (ht.not_held hfresh s₁)
      · exact ht.once s₁ s₂ y hheld₁ hheld₂

/-- A handle is closed, and its slot is emptied. -/
theorem release (ht : t.Kept) (h : t.held s = some x) :
    ((t.call (.closed x)).put s none).Kept := by
  refine ⟨⟨ht.openIn h, ht.names⟩, fun y => ?_, fun s₁ s₂ y h₁ h₂ => ?_⟩
  · constructor
    · rintro ⟨hne, hopen⟩
      obtain ⟨s', hs'⟩ := (ht.open_iff y).mp hopen
      refine ⟨s', held_empty_iff.mpr ⟨?_, hs'⟩⟩
      rintro rfl
      exact hne (Option.some.inj (hs'.symm.trans h))
    · rintro ⟨s', hs'⟩
      obtain ⟨hs, hheld⟩ := held_empty_iff.mp hs'
      refine ⟨?_, ht.openIn hheld⟩
      -- no other slot has the handle that is closed
      rintro rfl
      exact hs (ht.once s' s y hheld h)
  · exact ht.once s₁ s₂ y (held_empty_iff.mp h₁).2 (held_empty_iff.mp h₂).2

end HandleTable.Kept

/-- **One step** keeps the table in order. -/
theorem HandleStep.kept (h : HandleStep t t') (hfresh : GivesFresh t'.history) (ht : t.Kept) :
    t'.Kept := by
  cases h with
  | use s x h => exact ht.use h
  | acquire s x h => exact ht.acquire h hfresh.1
  | release s x h => exact ht.release h
  | borrow x uses => exact ht.borrow ((givesFresh_replicate x uses _).mp hfresh).1 uses

/-- **The run rule.** -/
theorem kept_of_steps (h : HandleSteps t t') (hfresh : GivesFresh t'.history)
    (ht : GivesFresh t.history → t.Kept) : t'.Kept := by
  induction h with
  | refl => exact ht hfresh
  | tail _ hstep ih => exact hstep.kept hfresh (ih (hstep.givesFresh hfresh))

/-! ### In the middle of a step

A program makes the call and the assignment to the slot one after the other. -/

section Middle

variable {u : HandleTable ι κ}

/-- By steps from `t`, with this content of the slot. -/
structure HoldsAt (t : HandleTable ι κ) (s : κ) (content : Option ι) (u : HandleTable ι κ) :
    Prop where
  steps : HandleSteps t u
  held : u.held s = content

/-- And one call further. -/
def CalledAt (t : HandleTable ι κ) (s : κ) (content : Option ι) (e : HandleEvent ι)
    (u : HandleTable ι κ) : Prop :=
  ∃ v, HoldsAt t s content v ∧ u = v.call e

theorem HoldsAt.used (h : HoldsAt t s (some x) u) : HoldsAt t s (some x) (u.call (.used x)) :=
  ⟨h.steps.tail (.use s x h.held), h.held⟩

/-- Emptying an empty slot does nothing. -/
theorem HoldsAt.cleared (h : HoldsAt t s none u) : HandleSteps t (u.put s none) := by
  have hself : u.put s none = u := by
    unfold HandleTable.put
    rw [← h.held, Function.update_eq_self]
  rw [hself]
  exact h.steps

theorem CalledAt.acquired (h : CalledAt t s none (.opened x) u) :
    HoldsAt t s (some x) (u.put s (some x)) := by
  obtain ⟨v, hv, rfl⟩ := h
  exact ⟨hv.steps.tail (.acquire s x hv.held), held_put_self ..⟩

theorem CalledAt.released (h : CalledAt t s (some x) (.closed x) u) :
    HandleSteps t (u.put s none) := by
  obtain ⟨v, hv, rfl⟩ := h
  exact hv.steps.tail (.release s x hv.held)

end Middle

end StateProgram
