import Pc20iii.Program.Labelled
import Pc20iii.Program.RingBuffer
import Mathlib.Data.List.ReduceOption

/-!
# Bounded queues

What a ring buffer with one cell kept free is for: a first-in-first-out queue of at most
`capacity` elements. The bound is a field of the queue, so a queue that holds more cannot be
built.

`Represents r q` relates a ring buffer to the queue it stands for. Both operations keep the
relation and answer alike (`Represents.push`, `Represents.pop`), and so do the runs of both
(`Represents.runAll`, `Represents.answers`). What a run accepts is what it hands out, in the
same order, and what is left (`BoundedQueue.conserves`).

A component of a larger system is such a queue if every step does to it what some operations
do (`runAll_component`, `collect_component`).
-/

namespace StateProgram

variable {capacity size : ℕ} {β : Type}

/-- A queue of at most `capacity` elements, the oldest first. -/
structure BoundedQueue (capacity : ℕ) (β : Type) where
  elements : List β
  length_le : elements.length ≤ capacity

/-- What is done to a queue. -/
inductive QueueOp (β : Type) where
  | push (b : β)
  | pop

namespace BoundedQueue

/-- The queue without elements. -/
def empty (capacity : ℕ) : BoundedQueue capacity β := ⟨[], Nat.zero_le _⟩

/-- An element behind the last one, dropped when the queue is full. -/
def push (q : BoundedQueue capacity β) (b : β) : BoundedQueue capacity β :=
  if h : q.elements.length < capacity then
    ⟨q.elements ++ [b], by rw [List.length_append]; exact h⟩
  else q

/-- The oldest element, `none` when the queue is empty. -/
def pop (q : BoundedQueue capacity β) : Option β × BoundedQueue capacity β :=
  (q.elements.head?, ⟨q.elements.tail, by
    rw [List.length_tail]; exact (Nat.sub_le _ _).trans q.length_le⟩)

/-- The queue after an operation. -/
def after (q : BoundedQueue capacity β) : QueueOp β → BoundedQueue capacity β
  | .push b => q.push b
  | .pop => q.pop.2

/-- The answer of an operation: what a `pop` returns. -/
def answers (q : BoundedQueue capacity β) : QueueOp β → List (Option β)
  | .push _ => []
  | .pop => [q.pop.1]

/-- The element that an operation hands out. -/
def popped (q : BoundedQueue capacity β) : QueueOp β → List β
  | .push _ => []
  | .pop => q.pop.1.toList

/-- The element that an operation adds. -/
def accepted (q : BoundedQueue capacity β) : QueueOp β → List β
  | .push b => if q.elements.length < capacity then [b] else []
  | .pop => []

variable (q : BoundedQueue capacity β)

theorem push_of_full (b : β) (h : q.elements.length = capacity) : q.push b = q :=
  dif_neg (by omega)

theorem elements_push (b : β) : (q.push b).elements = q.elements ++ q.accepted (.push b) := by
  unfold push accepted
  split
  · rfl
  · exact (List.append_nil _).symm

/-- What is accepted goes behind what is there, and what is handed out comes from its front. -/
theorem conserves_after (op : QueueOp β) :
    q.popped op ++ (q.after op).elements = q.elements ++ q.accepted op := by
  cases op with
  | push b => exact q.elements_push b
  | pop =>
    show q.elements.head?.toList ++ q.elements.tail = q.elements ++ []
    rw [List.append_nil]
    cases q.elements <;> rfl

/-- **First in, first out.** The elements handed out by a run, then those that are left, are
the ones that were there at its start, then those it accepted. -/
theorem conserves (ops : List (QueueOp β)) :
    collect after popped q ops ++ (runAll after q ops).elements =
      q.elements ++ collect after accepted q ops :=
  collect_conserves (I := fun _ => True) (P := fun _ _ => True) elements (fun _ _ _ _ => trivial)
    (fun q op _ _ => q.conserves_after op) trivial (along_of_invariant (I := fun _ => True)
      (fun _ _ _ => trivial) (fun _ _ _ => trivial) trivial ops)

/-- The elements that are handed out are the answers, without those of an empty queue. -/
theorem popped_eq (ops : List (QueueOp β)) :
    collect after popped q ops = (collect after answers q ops).reduceOption := by
  induction ops generalizing q with
  | nil => rfl
  | cons op ops ih =>
    rw [collect_cons, collect_cons, List.reduceOption_append, ih]
    congr 1
    cases op with
    | push b => rfl
    | pop => cases h : q.pop.1 <;> simp [popped, answers, h]

end BoundedQueue

/-! ### Ring buffers as queues -/

namespace RingBuffer

/-- The ring buffer after an operation. -/
def after (r : RingBuffer size β) : QueueOp β → RingBuffer size β
  | .push b => r.push b
  | .pop => r.pop.2

/-- The answer of an operation: what a `pop` returns. -/
def answers (r : RingBuffer size β) : QueueOp β → List (Option β)
  | .push _ => []
  | .pop => [r.pop.1]

end RingBuffer

/-- The ring buffer stands for the queue: one cell stays free, the indices are inside the array,
and the elements between them are those of the queue. -/
structure Represents (r : RingBuffer size β) (q : BoundedQueue capacity β) : Prop where
  size_eq : size = capacity + 1
  wellFormed : r.WellFormed
  queued : r.queued = q.elements

namespace Represents

variable {r : RingBuffer size β} {q : BoundedQueue capacity β}

theorem length_eq (h : Represents r q) : r.length = q.elements.length := by
  rw [← h.queued, RingBuffer.length_queued]

theorem push (h : Represents r q) (b : β) : Represents (r.push b) (q.push b) := by
  have hlength := h.length_eq
  have hsize := h.size_eq
  refine ⟨hsize, h.wellFormed.push b, ?_⟩
  by_cases hfull : q.elements.length = capacity
  · rw [RingBuffer.push_of_full h.wellFormed (by omega), q.push_of_full b hfull, h.queued]
  · have hroom : q.elements.length < capacity := Nat.lt_of_le_of_ne q.length_le hfull
    rw [RingBuffer.queued_push h.wellFormed (by omega), q.elements_push, h.queued]
    exact congrArg _ (if_pos hroom).symm

theorem pop (h : Represents r q) : r.pop.1 = q.pop.1 ∧ Represents r.pop.2 q.pop.2 := by
  refine ⟨?_, h.size_eq, h.wellFormed.pop, ?_⟩
  · rw [RingBuffer.pop_fst h.wellFormed, h.queued]
    rfl
  · rw [RingBuffer.queued_pop_snd h.wellFormed, h.queued]
    rfl

/-- Both go on alike. -/
theorem after (h : Represents r q) (op : QueueOp β) : Represents (r.after op) (q.after op) := by
  cases op with
  | push b => exact h.push b
  | pop => exact h.pop.2

/-- **Refinement.** The ring buffer stands for the queue at the end of every run. -/
theorem runAll (h : Represents r q) (ops : List (QueueOp β)) :
    Represents (runAll RingBuffer.after r ops) (runAll BoundedQueue.after q ops) := by
  induction ops generalizing r q with
  | nil => exact h
  | cons op ops ih => exact ih (h.after op)

/-- **Refinement.** Both answer alike. -/
theorem answers (h : Represents r q) (ops : List (QueueOp β)) :
    collect RingBuffer.after RingBuffer.answers r ops =
      collect BoundedQueue.after BoundedQueue.answers q ops := by
  induction ops generalizing r q with
  | nil => rfl
  | cons op ops ih =>
    rw [collect_cons, collect_cons, ih (h.after op)]
    congr 1
    cases op with
    | push b => rfl
    | pop => exact congrArg (fun b => [b]) h.pop.1

end Represents

/-! ### Components -/

section Component

variable {σ α τ o γ : Type} {step : σ → α → σ} {next : τ → o → τ} {ops : σ → α → List o}
  (field : σ → τ)

/-- If every step does to a component what its operations do, so does a run. -/
theorem runAll_component (h : ∀ s a, field (step s a) = runAll next (field s) (ops s a)) (s : σ)
    (as : List α) : field (runAll step s as) = runAll next (field s) (collect step ops s as) := by
  induction as generalizing s with
  | nil => rfl
  | cons a as ih => rw [runAll_cons, ih, h, collect_cons, runAll_append]

/-- And if it takes in what its operations do. -/
theorem collect_component {f : σ → α → List γ} {g : τ → o → List γ}
    (h : ∀ s a, field (step s a) = runAll next (field s) (ops s a))
    (hf : ∀ s a, f s a = collect next g (field s) (ops s a)) (s : σ) (as : List α) :
    collect step f s as = collect next g (field s) (collect step ops s as) := by
  induction as generalizing s with
  | nil => rfl
  | cons a as ih => rw [collect_cons, collect_cons, collect_append, ih, h, hf]

end Component

end StateProgram
