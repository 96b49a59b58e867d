import Pc20iii.Program.Labelled
import Mathlib.Logic.Function.Basic

/-!
# Logs that keep the last entries

An array of `size` entries that is written round and round. The index of the next entry is that of
the oldest one, so that the log is read in two pieces: from there to the end, and from the start to
there.

`oldestFirst_record` says what one more entry does: the oldest one goes, and the new one stands at
the end. So a run of entries leaves the last `size` of what was there and of what has come
(`oldestFirst_runAll`), wherever the array has been wrapped.
-/

namespace StateProgram

variable {size : ℕ} {β : Type}

/-- An array of entries, and the index of the next one. -/
structure CircularLog (size : ℕ) (β : Type) where
  entries : ℕ → β
  next : ℕ
  next_lt : next < size

namespace CircularLog

/-- One more entry, over the oldest one. -/
def record (log : CircularLog size β) (b : β) : CircularLog size β where
  entries := Function.update log.entries log.next b
  next := if log.next + 1 ≥ size then 0 else log.next + 1
  next_lt := by
    have hlt := log.next_lt
    split <;> omega

/-- The indices from the oldest entry on. -/
def indices (log : CircularLog size β) : List ℕ :=
  List.range' log.next (size - log.next) ++ List.range log.next

/-- The entries, oldest first. -/
def oldestFirst (log : CircularLog size β) : List β := log.indices.map log.entries

/-- The same entry everywhere. -/
theorem oldestFirst_of_const {log : CircularLog size β} {b : β} (h : ∀ i, log.entries i = b) :
    log.oldestFirst = List.replicate size b := by
  have hlt := log.next_lt
  refine List.eq_replicate_iff.mpr ⟨?_, fun x hx => ?_⟩
  · rw [oldestFirst, indices, List.length_map, List.length_append, List.length_range',
      List.length_range]
    omega
  · obtain ⟨i, -, rfl⟩ := List.mem_map.mp hx
    exact h i

/-- The indices behind that of the oldest entry. -/
def laterIndices (log : CircularLog size β) : List ℕ :=
  List.range' (log.next + 1) (size - (log.next + 1)) ++ List.range log.next

theorem indices_eq_cons (log : CircularLog size β) :
    log.indices = log.next :: log.laterIndices := by
  have hlt := log.next_lt
  have hsize : size - log.next = size - (log.next + 1) + 1 := by omega
  rw [indices, hsize, List.range'_succ, List.cons_append, laterIndices]

theorem next_not_mem_laterIndices (log : CircularLog size β) : log.next ∉ log.laterIndices := by
  rw [laterIndices, List.mem_append, List.mem_range'_1, List.mem_range]
  omega

/-- The index of the new entry comes last, also when the array has been wrapped. -/
theorem indices_record (log : CircularLog size β) (b : β) :
    (log.record b).indices = log.laterIndices ++ [log.next] := by
  have hlt := log.next_lt
  by_cases hwrap : log.next + 1 ≥ size
  · -- the first piece is empty, and the second one is the whole array
    have hnext : (log.record b).next = 0 := if_pos hwrap
    have hend : List.range size = List.range (log.next + 1) := congrArg _ (by omega)
    have hnone : size - (log.next + 1) = 0 := by omega
    rw [indices, hnext, List.range_zero, List.append_nil, Nat.sub_zero, ← List.range_eq_range',
      hend, List.range_succ, laterIndices, hnone]
    rfl
  · have hnext : (log.record b).next = log.next + 1 := if_neg hwrap
    rw [indices, hnext, List.range_succ, laterIndices, List.append_assoc]

/-- The oldest entry goes, and the new one stands at the end. -/
theorem oldestFirst_record (log : CircularLog size β) (b : β) :
    (log.record b).oldestFirst = log.oldestFirst.tail ++ [b] := by
  -- the index that is written is not among those behind it
  have hkept : log.laterIndices.map (log.record b).entries =
      log.laterIndices.map log.entries := by
    refine List.map_congr_left fun i hi => ?_
    have hne : i ≠ log.next := fun heq => log.next_not_mem_laterIndices (heq ▸ hi)
    exact Function.update_of_ne hne ..
  have hnew : (log.record b).entries log.next = b := Function.update_self ..
  calc (log.record b).oldestFirst
      = log.laterIndices.map (log.record b).entries ++ [(log.record b).entries log.next] := by
        rw [oldestFirst, indices_record, List.map_append, List.map_singleton]
    _ = log.laterIndices.map log.entries ++ [b] := by rw [hkept, hnew]
    _ = log.oldestFirst.tail ++ [b] := by
        rw [oldestFirst, indices_eq_cons, List.map_cons, List.tail_cons]

/-- **The run lemma.** A run of entries leaves the last ones. -/
theorem oldestFirst_runAll (log : CircularLog size β) (bs : List β) :
    (runAll record log bs).oldestFirst = (log.oldestFirst ++ bs).drop bs.length := by
  induction bs generalizing log with
  | nil => rw [runAll_nil, List.append_nil, List.length_nil, List.drop_zero]
  | cons b bs ih =>
    have hcons : log.oldestFirst = log.entries log.next :: log.laterIndices.map log.entries := by
      rw [oldestFirst, indices_eq_cons, List.map_cons]
    rw [runAll_cons, ih, oldestFirst_record, hcons, List.tail_cons, List.append_assoc,
      List.singleton_append, List.length_cons, List.cons_append, List.drop_succ_cons]

/-- What is left of a run from a log with the same entry everywhere. -/
theorem oldestFirst_runAll_of_const {log : CircularLog size β} {b : β}
    (h : ∀ i, log.entries i = b) (bs : List β) :
    (runAll record log bs).oldestFirst =
      List.replicate (size - bs.length) b ++ bs.drop (bs.length - size) := by
  rw [oldestFirst_runAll, oldestFirst_of_const h, List.drop_append, List.length_replicate,
    List.drop_replicate]

end CircularLog

end StateProgram
