import Mathlib.Logic.Function.Iterate
import Mathlib.Data.List.Range
import Mathlib.Data.Set.Function

/-!
# Memory along an orbit

A pointer that moves through a memory by a function `next`, whatever that is: the successor,
a step around a ring, a step to the next page. Its addresses are the orbit of the one it
starts from.

* `storeAlong`: a list is stored along the orbit.
* `readAlong`: values are read along the orbit.
* `storeAlong_of_ne`: an address that the pointer does not meet keeps its value.
* `storeAlong_iterate`, `readAlong_storeAlong`: what has been stored is read back, if the
  pointer meets no address twice.
-/

namespace StateProgram

variable {α β : Type} (next : α → α)

/-- A list, stored from `a` on. -/
def storeAlong [DecidableEq α] : (α → β) → α → List β → α → β
  | mem, _, [] => mem
  | mem, a, b :: bs => storeAlong (Function.update mem a b) (next a) bs

/-- The values from `a` on. -/
def readAlong (mem : α → β) : α → ℕ → List β
  | _, 0 => []
  | a, n + 1 => mem a :: readAlong mem (next a) n

/-- The pointer meets no address twice in its first `n` steps. -/
def Separate (a : α) (n : ℕ) : Prop := Set.InjOn (fun k => next^[k] a) {k | k < n}

variable {next} {mem : α → β} {a x : α}

theorem Separate.tail {n : ℕ} (h : Separate next a (n + 1)) : Separate next (next a) n := by
  intro j hj k hk heq
  have hsucc : j + 1 = k + 1 := h (Nat.succ_lt_succ hj) (Nat.succ_lt_succ hk) heq
  exact Nat.succ.inj hsucc

theorem Separate.head {n : ℕ} (h : Separate next a (n + 1)) {k : ℕ} (hk : k < n) :
    a ≠ next^[k] (next a) := by
  intro heq
  have hzero : 0 = k + 1 := h (Nat.succ_pos n) (Nat.succ_lt_succ hk) heq
  exact absurd hzero (Nat.succ_ne_zero k).symm

@[simp] theorem length_readAlong (n : ℕ) : (readAlong next mem a n).length = n := by
  induction n generalizing a with
  | zero => rfl
  | succ n ih => rw [readAlong, List.length_cons, ih]

/-- The value that is read at a step. -/
theorem readAlong_getElem {n k : ℕ} (hk : k < (readAlong next mem a n).length) :
    (readAlong next mem a n)[k] = mem (next^[k] a) := by
  induction n generalizing a k with
  | zero => exact absurd hk (Nat.not_lt_zero k)
  | succ n ih =>
    cases k with
    | zero => rfl
    | succ k => exact ih (Nat.lt_of_succ_lt_succ hk)

theorem readAlong_eq_map (n : ℕ) :
    readAlong next mem a n = (List.range n).map fun k => mem (next^[k] a) := by
  refine List.ext_getElem ?_ fun k hk _ => ?_
  · rw [length_readAlong, List.length_map, List.length_range]
  · rw [readAlong_getElem hk, List.getElem_map, List.getElem_range]

variable [DecidableEq α]

theorem storeAlong_of_ne {bs : List β} (h : ∀ k < bs.length, x ≠ next^[k] a) :
    storeAlong next mem a bs x = mem x := by
  induction bs generalizing mem a with
  | nil => rfl
  | cons b bs ih =>
    have hhead : x ≠ a := h 0 (Nat.succ_pos _)
    rw [storeAlong, ih fun k hk => h (k + 1) (Nat.succ_lt_succ hk), Function.update_of_ne hhead]

/-- The address that the pointer meets at a step has the value that is stored at that step. -/
theorem storeAlong_iterate {bs : List β} (h : Separate next a bs.length) {k : ℕ}
    (hk : k < bs.length) : storeAlong next mem a bs (next^[k] a) = bs[k] := by
  induction bs generalizing mem a k with
  | nil => exact absurd hk (Nat.not_lt_zero k)
  | cons b bs ih =>
    cases k with
    | zero =>
      change storeAlong next (Function.update mem a b) (next a) bs a = b
      rw [storeAlong_of_ne fun j hj => h.head hj, Function.update_self]
    | succ k => exact ih h.tail (Nat.lt_of_succ_lt_succ hk)

/-- **What is stored is read back.** -/
theorem readAlong_storeAlong {bs : List β} (h : Separate next a bs.length) :
    readAlong next (storeAlong next mem a bs) a bs.length = bs := by
  induction bs generalizing mem a with
  | nil => rfl
  | cons b bs ih =>
    rw [List.length_cons, readAlong, storeAlong, ih h.tail]
    rw [storeAlong_of_ne fun k hk => h.head hk, Function.update_self]

end StateProgram
