import Mathlib.Algebra.Order.Group.Nat
import Mathlib.Data.Nat.ModEq
import Mathlib.Logic.Function.Basic

/-!
# Ring buffers with one cell kept free

An array of `size` cells and two indices into it. The head is the cell the next element
goes to, the tail the cell of the oldest one; the buffer is empty when they are equal, and
full when the head stands just behind the tail, so that `size - 1` elements fit.

A ring buffer refines a bounded queue (`queued`): `push` appends unless the buffer is full
(`queued_push`, `push_of_full`), several pushes append what there is room for
(`queued_foldl_push`), and `pop` takes the oldest element (`pop_fst`, `queued_pop`).
-/

namespace StateProgram

variable {size : ℕ} {β : Type}

/-- An array with the indices of its head and its tail. -/
structure RingBuffer (size : ℕ) (β : Type) where
  cells : ℕ → β
  head : ℕ
  tail : ℕ

namespace RingBuffer

/-- An element for the head, dropped when the buffer is full. -/
def push (r : RingBuffer size β) (b : β) : RingBuffer size β :=
  if (r.head + 1) % size = r.tail then r
  else { r with cells := Function.update r.cells r.head b, head := (r.head + 1) % size }

/-- The element at the tail, `none` when the buffer is empty. -/
def pop (r : RingBuffer size β) : Option β × RingBuffer size β :=
  if r.tail = r.head then (none, r)
  else (some (r.cells r.tail), { r with tail := (r.tail + 1) % size })

/-- The number of elements. -/
def length (r : RingBuffer size β) : ℕ := (r.head + (size - r.tail)) % size

/-- The elements, oldest first. -/
def queued (r : RingBuffer size β) : List β :=
  (List.range r.length).map fun i => r.cells ((r.tail + i) % size)

/-- Both indices are inside the array. -/
structure WellFormed (r : RingBuffer size β) : Prop where
  head_lt : r.head < size
  tail_lt : r.tail < size

variable {r : RingBuffer size β}

@[simp] theorem length_queued (r : RingBuffer size β) : r.queued.length = r.length := by
  rw [queued, List.length_map, List.length_range]

theorem queued_of_empty (h : r.length = 0) : r.queued = [] :=
  List.length_eq_zero_iff.1 ((length_queued r).trans h)

/-! ### The indices -/

/-- The index after `i` steps, without the remainder. -/
theorem index_eq (hr : r.WellFormed) {i : ℕ} (hi : i < size) :
    (r.tail + i) % size = if size ≤ r.tail + i then r.tail + i - size else r.tail + i := by
  rw [Nat.add_mod_eq_ite, Nat.mod_eq_of_lt hr.tail_lt, Nat.mod_eq_of_lt hi]

/-- The number of elements, without the remainder. -/
theorem length_eq (hr : r.WellFormed) :
    r.length = if r.tail ≤ r.head then r.head - r.tail else r.head + (size - r.tail) := by
  have hhead := hr.head_lt
  have htail := hr.tail_lt
  unfold length
  split
  · -- the sum has passed the end of the array once
    have hsum : r.head + (size - r.tail) = r.head - r.tail + size := by omega
    rw [hsum, Nat.add_mod_right, Nat.mod_eq_of_lt (by omega)]
  · exact Nat.mod_eq_of_lt (by omega)

theorem length_lt (hr : r.WellFormed) : r.length < size :=
  Nat.mod_lt _ (Nat.zero_lt_of_lt hr.head_lt)

theorem length_eq_zero_iff (hr : r.WellFormed) : r.length = 0 ↔ r.tail = r.head := by
  have hhead := hr.head_lt
  have htail := hr.tail_lt
  rw [length_eq hr]
  split <;> omega

theorem succ_head_eq (hr : r.WellFormed) :
    (r.head + 1) % size = if r.head + 1 = size then 0 else r.head + 1 := by
  have hhead := hr.head_lt
  split
  case isTrue h => rw [h, Nat.mod_self]
  case isFalse h => exact Nat.mod_eq_of_lt (by omega)

/-- The test of `push` for a full buffer. -/
theorem full_iff (hr : r.WellFormed) : (r.head + 1) % size = r.tail ↔ r.length + 1 = size := by
  have hhead := hr.head_lt
  have htail := hr.tail_lt
  rw [succ_head_eq hr, length_eq hr]
  split <;> split <;> omega

/-! ### The operations -/

theorem WellFormed.push (hr : r.WellFormed) (b : β) : (r.push b).WellFormed := by
  unfold RingBuffer.push
  split
  · exact hr
  · exact ⟨Nat.mod_lt _ (Nat.zero_lt_of_lt hr.head_lt), hr.tail_lt⟩

theorem WellFormed.pop (hr : r.WellFormed) : r.pop.2.WellFormed := by
  unfold RingBuffer.pop
  split
  · exact hr
  · exact ⟨hr.head_lt, Nat.mod_lt _ (Nat.zero_lt_of_lt hr.head_lt)⟩

/-- A full buffer stays as it is. -/
theorem push_of_full (hr : r.WellFormed) (hfull : r.length + 1 = size) (b : β) :
    r.push b = r := by
  unfold push
  rw [if_pos ((full_iff hr).2 hfull)]

/-- `push` appends when there is room. -/
theorem queued_push (hr : r.WellFormed) (hroom : r.length + 1 < size) (b : β) :
    (r.push b).queued = r.queued ++ [b] := by
  have hhead := hr.head_lt
  have htail := hr.tail_lt
  have hnot : ¬(r.head + 1) % size = r.tail := fun h => by
    rw [full_iff hr] at h
    omega
  -- the head goes on by one, and may wrap
  have hlength : (r.push b).length = r.length + 1 := by
    rw [length_eq (hr.push b), length_eq hr]
    rw [length_eq hr] at hroom
    unfold push
    rw [if_neg hnot]
    dsimp only
    rw [succ_head_eq hr]
    split at hroom <;> split <;> split <;> omega
  unfold queued
  rw [hlength, List.range_succ, List.map_append, List.map_singleton]
  unfold push
  rw [if_neg hnot]
  dsimp only
  congr 1
  · -- the older elements are in other cells
    refine List.map_congr_left fun i hi => ?_
    have hi' := List.mem_range.1 hi
    refine Function.update_of_ne ?_ _ _
    rw [index_eq hr (by omega)]
    rw [length_eq hr] at hi'
    split at hi' <;> split <;> omega
  · -- the cell behind them is that of the head
    have hcell : (r.tail + r.length) % size = r.head := by
      rw [index_eq hr (length_lt hr), length_eq hr]
      split <;> split <;> omega
    rw [hcell, Function.update_self]

theorem pop_of_empty (hr : r.WellFormed) (h : r.length = 0) : r.pop = (none, r) := by
  unfold pop
  rw [if_pos ((length_eq_zero_iff hr).1 h)]

/-- `pop` takes the oldest element. -/
theorem queued_pop (hr : r.WellFormed) {n : ℕ} (h : r.length = n + 1) :
    ∃ b, r.pop.1 = some b ∧ r.queued = b :: r.pop.2.queued := by
  have hhead := hr.head_lt
  have htail := hr.tail_lt
  have hnot : ¬r.tail = r.head := fun h' => by
    rw [← length_eq_zero_iff hr] at h'
    omega
  have hpop : r.pop = (some (r.cells r.tail), { r with tail := (r.tail + 1) % size }) := by
    unfold pop
    rw [if_neg hnot]
  -- the tail goes on by one, and may wrap
  have hlength : r.pop.2.length = n := by
    rw [length_eq hr] at h
    rw [length_eq hr.pop, hpop]
    dsimp only
    rw [index_eq hr (i := 1) (by omega)]
    split at h <;> split <;> split <;> omega
  refine ⟨r.cells r.tail, by rw [hpop], ?_⟩
  unfold queued
  rw [hlength, h, List.range_succ_eq_map, List.map_cons, List.map_map, hpop]
  dsimp only
  congr 1
  · rw [Nat.add_zero, Nat.mod_eq_of_lt htail]
  · refine List.map_congr_left fun i _ => ?_
    rw [Function.comp_apply, Nat.mod_add_mod, Nat.succ_eq_add_one, Nat.add_right_comm,
      Nat.add_assoc r.tail i 1]

/-- What `pop` answers. -/
theorem pop_fst (hr : r.WellFormed) : r.pop.1 = r.queued.head? := by
  cases h : r.length with
  | zero =>
    rw [pop_of_empty hr h, queued_of_empty h]
    rfl
  | succ n =>
    obtain ⟨b, hb, hqueued⟩ := queued_pop hr h
    rw [hb, hqueued, List.head?_cons]

/-- What `pop` leaves. -/
theorem queued_pop_snd (hr : r.WellFormed) : r.pop.2.queued = r.queued.tail := by
  cases h : r.length with
  | zero =>
    rw [pop_of_empty hr h, queued_of_empty h]
    rfl
  | succ n =>
    obtain ⟨b, -, hqueued⟩ := queued_pop hr h
    rw [hqueued, List.tail_cons]

theorem length_pop (hr : r.WellFormed) : r.pop.2.length = r.length - 1 := by
  rw [← length_queued, queued_pop_snd hr, List.length_tail, length_queued]

theorem WellFormed.foldl_push (hr : r.WellFormed) (bs : List β) :
    (bs.foldl RingBuffer.push r).WellFormed := by
  induction bs generalizing r with
  | nil => exact hr
  | cons b bs ih => exact ih (hr.push b)

/-- Several pushes append what there is room for. -/
theorem queued_foldl_push (hr : r.WellFormed) (bs : List β) :
    (bs.foldl push r).queued = r.queued ++ bs.take (size - 1 - r.length) := by
  induction bs generalizing r with
  | nil => rw [List.take_nil, List.append_nil, List.foldl_nil]
  | cons b bs ih =>
    rw [List.foldl_cons, ih (hr.push b)]
    by_cases hfull : r.length + 1 = size
    · -- there is no room, now and for the rest
      have hnone : size - 1 - r.length = 0 := by omega
      rw [push_of_full hr hfull, hnone, List.take_zero, List.take_zero]
    · have hlt := length_lt hr
      have hpush := queued_push hr (by omega) b
      have hlength := congrArg List.length hpush
      rw [length_queued, List.length_append, length_queued, List.length_singleton] at hlength
      have hroom : size - 1 - r.length = size - 1 - (r.length + 1) + 1 := by omega
      rw [hpush, hlength, hroom, List.take_succ_cons, List.append_assoc, List.singleton_append]

/-- A buffer of two cells or more is not empty after a `push`. -/
theorem length_push_pos (hr : r.WellFormed) (hsize : 1 < size) (b : β) :
    0 < (r.push b).length := by
  have hlt := length_lt hr
  by_cases hroom : r.length + 1 < size
  · have hlength := congrArg List.length (queued_push hr hroom b)
    rw [List.length_append, List.length_singleton, length_queued, length_queued] at hlength
    omega
  · rw [push_of_full hr (by omega)]
    omega

theorem queued_ne_nil_iff (r : RingBuffer size β) : r.queued ≠ [] ↔ 0 < r.length := by
  rw [← length_queued, List.length_pos_iff]

end RingBuffer

end StateProgram
