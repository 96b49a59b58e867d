import Mathlib.Logic.Relation
import Mathlib.Data.Nat.Notation
import Mathlib.Tactic.Common

/-!
# State programs generated by primitive actions

A program over a state `σ` is an element of `StateM σ α`. Large programs are
assembled from a handful of primitive actions, and a property of the state that
every primitive keeps is kept by everything assembled from them. This file states
that once:

* `Generated G x`: the program `x` is built from reads of the state, `pure`, `bind`
  and the actions of the family `G`. It is a class, so that instance search follows
  the syntax of a `do` block.
* `Generated.rel`: a reflexive and transitive relation that holds across every action
  of `G` holds across every program generated by `G`.
* `Generated.mono`: a larger family generates more.

The second half is the rule for runs: what one step keeps, a run keeps
(`run_invariant`), and what one step of a transition relation relates, a run relates
(`run_rel`).
-/

namespace StateProgram

variable {σ α β : Type}

/-! ### Running a program -/

/-- The outcome of a program: its value and the state it leaves. -/
def outcome (x : StateM σ α) (s : σ) : α × σ := x s

@[simp] theorem outcome_pure (a : α) (s : σ) : outcome (pure a : StateM σ α) s = (a, s) := by
  rfl

@[simp] theorem outcome_get (s : σ) : outcome (get : StateM σ σ) s = (s, s) := by
  rfl

@[simp] theorem outcome_modify (f : σ → σ) (s : σ) :
    outcome (modify f : StateM σ Unit) s = ((), f s) := by
  rfl

@[simp] theorem outcome_bind (x : StateM σ α) (f : α → StateM σ β) (s : σ) :
    outcome (x >>= f) s = outcome (f (outcome x s).1) (outcome x s).2 := by
  rfl

@[simp] theorem outcome_map (g : α → β) (x : StateM σ α) (s : σ) :
    outcome (g <$> x) s = (g (outcome x s).1, (outcome x s).2) := by
  rfl

@[simp] theorem outcome_ite (c : Prop) [Decidable c] (x y : StateM σ α) (s : σ) :
    outcome (if c then x else y) s = if c then outcome x s else outcome y s := by
  split <;> rfl

@[simp] theorem outcome_forM_nil (f : α → StateM σ PUnit) (s : σ) :
    outcome (([] : List α).forM f) s = ((), s) := by
  rfl

@[simp] theorem outcome_forM_cons (a : α) (l : List α) (f : α → StateM σ PUnit) (s : σ) :
    outcome ((a :: l).forM f) s = outcome (l.forM f) (outcome (f a) s).2 := by
  rfl

theorem outcome_forM_append (l l' : List α) (f : α → StateM σ PUnit) (s : σ) :
    outcome ((l ++ l').forM f) s = outcome (l'.forM f) (outcome (l.forM f) s).2 := by
  induction l generalizing s with
  | nil => rfl
  | cons a l ih => exact ih _

/-! ### Generated programs -/

/-- `x` is built from reads of the state, `pure`, `bind` and the actions of `G`. -/
class inductive Generated (G : ∀ α : Type, StateM σ α → Prop) :
    {α : Type} → StateM σ α → Prop
  | action {α : Type} (x : StateM σ α) (h : G α x) : Generated G x
  | read : Generated G (get : StateM σ σ)
  | ret {α : Type} (a : α) : Generated G (pure a : StateM σ α)
  | seq {α β : Type} (x : StateM σ α) (f : α → StateM σ β) :
      Generated G x → (∀ a, Generated G (f a)) → Generated G (x >>= f)

namespace Generated

variable {G H : ∀ α : Type, StateM σ α → Prop}

attribute [instance] Generated.read Generated.ret

instance instBind {x : StateM σ α} {f : α → StateM σ β} [hx : Generated G x]
    [hf : ∀ a, Generated G (f a)] : Generated G (x >>= f) := .seq x f hx hf

theorem cond {c : Prop} [Decidable c] {x y : StateM σ α} (hx : c → Generated G x)
    (hy : ¬ c → Generated G y) : Generated G (if c then x else y) := by
  split
  · exact hx ‹_›
  · exact hy ‹_›

theorem ite {c : Prop} [Decidable c] {x y : StateM σ α} (hx : Generated G x)
    (hy : Generated G y) : Generated G (if c then x else y) :=
  cond (fun _ => hx) fun _ => hy

instance instIte {c : Prop} [Decidable c] {x y : StateM σ α} [hx : Generated G x]
    [hy : Generated G y] : Generated G (if c then x else y) := hx.ite hy

/-- A program that runs one generated program after another for each element of a list. -/
theorem forM {l : List α} {f : α → StateM σ PUnit} (hf : ∀ a ∈ l, Generated G (f a)) :
    Generated G (l.forM f) := by
  induction l with
  | nil => exact .ret ()
  | cons a l ih =>
    obtain ⟨ha, hl⟩ := List.forall_mem_cons.mp hf
    exact .seq _ _ ha fun _ => ih hl

instance instForM (l : List α) (f : α → StateM σ PUnit) [hf : ∀ a, Generated G (f a)] :
    Generated G (l.forM f) := .forM fun a _ => hf a

/-- **The invariant rule.** A reflexive, transitive relation that holds across every action
of `G` holds across every generated program. -/
theorem rel {R : σ → σ → Prop} (hrefl : ∀ s, R s s)
    (htrans : ∀ {s t u}, R s t → R t u → R s u)
    (hact : ∀ {α : Type} {x : StateM σ α}, G α x → ∀ s, R s (outcome x s).2)
    {x : StateM σ α} (hx : Generated G x) (s : σ) : R s (outcome x s).2 := by
  induction hx generalizing s with
  | action x h => exact hact h s
  | read => exact hrefl s
  | ret a => exact hrefl s
  | seq x f _ _ ihx ihf => exact htrans (ihx s) (ihf _ _)

/-- A program generated by `G` is generated by every family that contains `G`. -/
theorem mono (h : ∀ {α : Type} {x : StateM σ α}, G α x → Generated H x)
    {x : StateM σ α} (hx : Generated G x) : Generated H x := by
  induction hx with
  | action x hG => exact h hG
  | read => exact .read
  | ret a => exact .ret a
  | seq x f _ _ ihx ihf => exact .seq x f ihx ihf

end Generated

/-! ### Loops with fuel -/

/-- `while (p) body`, run for at most the given number of passes; the result says whether
the loop ended. -/
def whileFuel (p : σ → Bool) (body : StateM σ Unit) : ℕ → StateM σ Bool
  | 0 => pure false
  | n + 1 => do
    if p (← get) then
      body
      whileFuel p body n
    else
      return true

section Loop

variable {p : σ → Bool} {body : StateM σ Unit}

instance instWhile {G : ∀ α : Type, StateM σ α → Prop} [hb : Generated G body] (n : ℕ) :
    Generated G (whileFuel p body n) := by
  induction n with
  | zero => exact .ret false
  | succ n ih =>
    unfold whileFuel
    infer_instance

theorem whileFuel_succ_of_not {s : σ} (h : p s = false) (n : ℕ) :
    outcome (whileFuel p body (n + 1)) s = (true, s) := by
  simp [whileFuel, h]

theorem whileFuel_succ_of {s : σ} (h : p s = true) (n : ℕ) :
    outcome (whileFuel p body (n + 1)) s = outcome (whileFuel p body n) (outcome body s).2 := by
  simp [whileFuel, h]

/-- **The variant rule.** A loop whose body decreases a measure while its condition holds
ends when the fuel exceeds the measure. -/
theorem whileFuel_ends {μ : σ → ℕ} (hμ : ∀ s, p s = true → μ (outcome body s).2 < μ s) :
    ∀ (n : ℕ) (s : σ), μ s < n → (outcome (whileFuel p body n) s).1 = true := by
  intro n
  induction n with
  | zero => intro s h; exact absurd h (Nat.not_lt_zero _)
  | succ n ih =>
    intro s h
    cases hp : p s with
    | false => rw [whileFuel_succ_of_not hp]
    | true =>
      rw [whileFuel_succ_of hp]
      have := hμ s hp
      exact ih _ (by omega)

/-- **The trace rule.** A loop runs through the states of a trace whose condition holds up to its
last state, and ends there. -/
theorem whileFuel_of_trace {f : ℕ → σ} {n : ℕ} (hp : ∀ k < n, p (f k) = true)
    (hbody : ∀ k < n, (outcome body (f k)).2 = f (k + 1)) (hn : p (f n) = false) {fuel : ℕ}
    (hfuel : n < fuel) : outcome (whileFuel p body fuel) (f 0) = (true, f n) := by
  induction n generalizing f fuel with
  | zero =>
    obtain ⟨fuel, rfl⟩ : ∃ k, fuel = k + 1 := ⟨fuel - 1, by omega⟩
    exact whileFuel_succ_of_not hn fuel
  | succ n ih =>
    obtain ⟨fuel, rfl⟩ : ∃ k, fuel = k + 1 := ⟨fuel - 1, by omega⟩
    rw [whileFuel_succ_of (hp 0 (Nat.succ_pos n)), hbody 0 (Nat.succ_pos n)]
    -- the rest of the trace
    exact ih (f := fun k => f (k + 1)) (fun k hk => hp (k + 1) (Nat.succ_lt_succ hk))
      (fun k hk => hbody (k + 1) (Nat.succ_lt_succ hk)) hn (Nat.lt_of_succ_lt_succ hfuel)

end Loop

/-! ### Runs of a transition relation -/

variable {step : σ → σ → Prop}

/-- What every step keeps, a run keeps. -/
theorem run_invariant {I : σ → Prop} (hstep : ∀ {s t}, step s t → I s → I t) {s t : σ}
    (h : Relation.ReflTransGen step s t) (hs : I s) : I t := by
  induction h with
  | refl => exact hs
  | tail _ hst ih => exact hstep hst ih

/-- What every step relates, a run relates, for a reflexive and transitive relation. -/
theorem run_rel {R : σ → σ → Prop} (hrefl : ∀ s, R s s)
    (htrans : ∀ {s t u}, R s t → R t u → R s u) (hstep : ∀ {s t}, step s t → R s t) {s t : σ}
    (h : Relation.ReflTransGen step s t) : R s t := by
  induction h with
  | refl => exact hrefl _
  | tail _ hst ih => exact htrans ih (hstep hst)

end StateProgram
