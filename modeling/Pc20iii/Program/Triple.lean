import Pc20iii.Program.Generated

/-!
# Pre- and postconditions of state programs

`Triple P x Q`: from a state with `P`, the program `x` ends with a value and in a state that
satisfy `Q`. The rules below follow the syntax of a `do` block; `Triple.of_and` moves what a
postcondition says about a value out of the next precondition.
-/

namespace StateProgram

variable {σ α β : Type}

/-- From a state with `P`, the value and the state that `x` ends with satisfy `Q`. -/
def Triple (P : σ → Prop) (x : StateM σ α) (Q : α → σ → Prop) : Prop :=
  ∀ s, P s → Q (outcome x s).1 (outcome x s).2

namespace Triple

variable {P S : σ → Prop} {Q Q' : α → σ → Prop} {R : β → σ → Prop} {x y : StateM σ α}
  {f : α → StateM σ β}

theorem bind (hx : Triple P x Q) (hf : ∀ a, Triple (Q a) (f a) R) : Triple P (x >>= f) R :=
  fun s h => hf _ _ (hx s h)

theorem ret {a : α} (h : ∀ s, P s → Q a s) : Triple P (pure a) Q := h

theorem ite {c : Prop} [Decidable c] (hx : c → Triple P x Q) (hy : ¬ c → Triple P y Q) :
    Triple P (if c then x else y) Q := by
  split
  · exact hx ‹_›
  · exact hy ‹_›

theorem pre (hP : ∀ s, P s → S s) (hx : Triple S x Q) : Triple P x Q :=
  fun s h => hx s (hP s h)

theorem post (hx : Triple P x Q) (hQ : ∀ a s, Q a s → Q' a s) : Triple P x Q' :=
  fun s h => hQ _ _ (hx s h)

/-- What the precondition says apart from the state. -/
theorem of_and {p : Prop} (hx : p → Triple P x Q) : Triple (fun s => p ∧ P s) x Q :=
  fun s h => hx h.1 s h.2

end Triple

end StateProgram
