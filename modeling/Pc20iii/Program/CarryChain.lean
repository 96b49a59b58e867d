import Mathlib.Algebra.Order.Ring.Int
import Mathlib.Tactic.LinearCombination
import Mathlib.Tactic.Ring

/-!
# Chains of digits with a carry

Arithmetic on numbers of any length, one digit after the other and the lowest first, with a
state that carries something from each digit to the next.

`numeral` reads a list of digits as a number; the last digit may be read by a function of its
own, which makes it the sign of a number in two's complement. `chain_last` is the rule for the
chain: if every step conserves its digit together with the carry, then the chain conserves the
whole number up to the last digit, where what the last step makes of it decides.
`chain_conserves` is the same for chains whose operands are only some of the values of a type,
such as the digits among the bytes.
-/

namespace StateProgram

variable {σ α β δ : Type} {base : ℤ}

/-- The number of a list of digits, the lowest first: the last one is read by `top`, and the
others are read by `digit`. -/
def numeral (base : ℤ) (digit top : δ → ℤ) : List δ → ℤ
  | [] => 0
  | [x] => top x
  | x :: y :: ys => digit x + base * numeral base digit top (y :: ys)

/-- One operation for each digit, the state handed from each to the next. -/
def chain (op : σ → α → β × σ) (s : σ) : List α → List β × σ
  | [] => ([], s)
  | x :: xs =>
    let r := op s x
    let rest := chain op r.2 xs
    (r.1 :: rest.1, rest.2)

/-! ### Numerals -/

@[simp] theorem numeral_singleton (digit top : δ → ℤ) (x : δ) :
    numeral base digit top [x] = top x := rfl

theorem numeral_cons (digit top : δ → ℤ) (x : δ) {ys : List δ} (h : ys ≠ []) :
    numeral base digit top (x :: ys) = digit x + base * numeral base digit top ys := by
  cases ys with
  | nil => exact absurd rfl h
  | cons y ys => rfl

theorem numeral_map (digit top : δ → ℤ) (f : α → δ) (xs : List α) :
    numeral base digit top (xs.map f) =
      numeral base (fun x => digit (f x)) (fun x => top (f x)) xs := by
  induction xs with
  | nil => rfl
  | cons x xs ih =>
    by_cases h : xs = []
    · subst h
      rfl
    · have hmap : xs.map f ≠ [] := by simpa using h
      rw [List.map_cons, numeral_cons _ _ _ hmap, numeral_cons _ _ _ h, ih]

/-- Digits that are added one by one give the sum. -/
theorem numeral_add (d d' t t' : δ → ℤ) (xs : List δ) :
    numeral base (fun x => d x + d' x) (fun x => t x + t' x) xs =
      numeral base d t xs + numeral base d' t' xs := by
  induction xs with
  | nil => rfl
  | cons x xs ih =>
    by_cases h : xs = []
    · subst h
      rfl
    · rw [numeral_cons _ _ _ h, numeral_cons _ _ _ h, numeral_cons _ _ _ h, ih]
      ring

/-- Digits that are subtracted one by one give the difference. -/
theorem numeral_sub (d d' t t' : δ → ℤ) (xs : List δ) :
    numeral base (fun x => d x - d' x) (fun x => t x - t' x) xs =
      numeral base d t xs - numeral base d' t' xs := by
  induction xs with
  | nil => rfl
  | cons x xs ih =>
    by_cases h : xs = []
    · subst h
      rfl
    · rw [numeral_cons _ _ _ h, numeral_cons _ _ _ h, numeral_cons _ _ _ h, ih]
      ring

/-- A number of `n` digits is less than the power of the base. -/
theorem numeral_bounds {digit : δ → ℤ} {xs : List δ}
    (hdigit : ∀ x ∈ xs, 0 ≤ digit x ∧ digit x < base) :
    0 ≤ numeral base digit digit xs ∧ numeral base digit digit xs < base ^ xs.length := by
  induction xs with
  | nil => exact ⟨le_rfl, by rw [List.length_nil, pow_zero]; exact one_pos⟩
  | cons x xs ih =>
    obtain ⟨⟨hnonneg, hlt⟩, hrest⟩ := List.forall_mem_cons.mp hdigit
    replace ih := ih hrest
    by_cases h : xs = []
    · subst h
      simpa using ⟨hnonneg, hlt⟩
    -- the first digit is the low one, the others are a numeral of their own
    · rw [numeral_cons _ _ _ h, List.length_cons, pow_succ']
      have hbase : 0 ≤ base := by omega
      have hmul : 0 ≤ base * numeral base digit digit xs := mul_nonneg hbase ih.1
      have hle : base * (numeral base digit digit xs + 1) ≤ base * base ^ xs.length :=
        mul_le_mul_of_nonneg_left (by omega) hbase
      rw [mul_add, mul_one] at hle
      omega

/-- What stands below a multiple does not matter for a comparison with a multiple. -/
theorem mul_le_add_mul {p low q z : ℤ} (hnonneg : 0 ≤ low) (hlt : low < p) :
    p * q ≤ low + p * z ↔ q ≤ z := by
  have hp : 0 < p := by omega
  constructor
  · intro h
    by_contra hz
    have hle : p * (z + 1) ≤ p * q := mul_le_mul_of_nonneg_left (by omega) hp.le
    rw [mul_add, mul_one] at hle
    omega
  · intro h
    have hle : p * q ≤ p * z := mul_le_mul_of_nonneg_left h hp.le
    omega

/-! ### The rule for a chain -/

theorem length_chain (op : σ → α → β × σ) (s : σ) (xs : List α) :
    (chain op s xs).1.length = xs.length := by
  induction xs generalizing s with
  | nil => rfl
  | cons x xs ih => rw [chain, List.length_cons, List.length_cons, ih]

section Rule

variable (op : σ → α → β × σ) {u : α → ℤ} {v : β → ℤ} {carry : σ → ℤ}

/-- If every operation makes up its operand and the carry it finds with its result and the
carry it leaves, then the last operation, applied in some state to the last operand, decides
about the number of the operands and that of the results alike: below it they agree. -/
theorem chain_last
    (hstep : ∀ s x, u x + carry s = v (op s x).1 + base * carry (op s x).2)
    (hdigit : ∀ y, 0 ≤ v y ∧ v y < base) (s : σ) (x : α) (xs : List α) :
    ∃ low s' z, 0 ≤ low ∧ low < base ^ xs.length ∧
      (chain op s (x :: xs)).2 = (op s' z).2 ∧
      (∀ top : α → ℤ, numeral base u top (x :: xs) + carry s =
        low + base ^ xs.length * (top z + carry s')) ∧
      ∀ top : β → ℤ, numeral base v top (chain op s (x :: xs)).1 =
        low + base ^ xs.length * top (op s' z).1 := by
  induction xs generalizing s x with
  | nil =>
    refine ⟨0, s, x, le_rfl, ?_, rfl, fun top => ?_, fun top => ?_⟩
    · rw [List.length_nil, pow_zero]
      exact one_pos
    · simp
    · simp [chain]
  | cons y ys ih =>
    obtain ⟨low, s', z, hnonneg, hlt, hstate, hin, hout⟩ := ih (op s x).2 y
    obtain ⟨hv, hvbase⟩ := hdigit (op s x).1
    have hbase : 0 ≤ base := by omega
    -- the digit of the first operation goes below those of the rest
    refine ⟨v (op s x).1 + base * low, s', z, ?_, ?_, hstate, fun top => ?_, fun top => ?_⟩
    · have hmul : 0 ≤ base * low := mul_nonneg hbase hnonneg
      omega
    · have hle : base * (low + 1) ≤ base * base ^ ys.length :=
        mul_le_mul_of_nonneg_left (by omega) hbase
      rw [mul_add, mul_one] at hle
      rw [List.length_cons, pow_succ']
      omega
    · -- the carry into the rest is what the first operation leaves
      have hrest := hin top
      have hfirst := hstep s x
      rw [numeral_cons _ _ _ (List.cons_ne_nil y ys), List.length_cons, pow_succ']
      linear_combination hfirst + base * hrest
    · have hne : (chain op (op s x).2 (y :: ys)).1 ≠ [] := by
        rw [chain]
        exact List.cons_ne_nil _ _
      rw [chain, numeral_cons _ _ _ hne, hout top, List.length_cons, pow_succ']
      ring

/-- If every operation on a valid operand makes up the operand and the carry it finds with its
result and the carry it leaves, so does the chain. -/
theorem chain_conserves (u : α → ℤ) (v : β → ℤ) (carry : σ → ℤ) {valid : α → Prop}
    (hstep : ∀ s x, valid x → u x + carry s = v (op s x).1 + base * carry (op s x).2) (s : σ)
    {xs : List α} (hxs : ∀ x ∈ xs, valid x) :
    numeral base u u xs + carry s =
      numeral base v v (chain op s xs).1 + base ^ xs.length * carry (chain op s xs).2 := by
  induction xs generalizing s with
  | nil => simp [chain, numeral]
  | cons x xs ih =>
    obtain ⟨hx, hxs⟩ := List.forall_mem_cons.mp hxs
    have hfirst := hstep s x hx
    have hrest := ih (op s x).2 hxs
    by_cases hnil : xs = []
    · subst hnil
      simpa [chain] using hfirst
    · have hne : (chain op (op s x).2 xs).1 ≠ [] := by
        rw [← List.length_pos_iff, length_chain, List.length_pos_iff]
        exact hnil
      rw [chain, numeral_cons _ _ _ hnil, numeral_cons _ _ _ hne, List.length_cons, pow_succ']
      -- the carry between the first operand and the rest cancels
      linear_combination hfirst + base * hrest

/-- What every operation on a valid operand gives, the results of the chain are. -/
theorem chain_results {valid : α → Prop} {Q : β → Prop}
    (hstep : ∀ s x, valid x → Q (op s x).1) (s : σ) {xs : List α} (hxs : ∀ x ∈ xs, valid x) :
    ∀ y ∈ (chain op s xs).1, Q y := by
  induction xs generalizing s with
  | nil => exact nofun
  | cons x xs ih =>
    obtain ⟨hx, hxs⟩ := List.forall_mem_cons.mp hxs
    exact List.forall_mem_cons.mpr ⟨hstep s x hx, ih (op s x).2 hxs⟩

end Rule

/-- If a part of every result tells of the state that its operation leaves, the results of the
chain tell of the states after the first, the first two and so on. -/
theorem chain_states (op : σ → α → β × σ) {g : β → δ} {f : σ → δ}
    (htells : ∀ s x, g (op s x).1 = f (op s x).2) (s : σ) (xs : List α) :
    (chain op s xs).1.map g =
      (List.range xs.length).map fun k => f (chain op s (xs.take (k + 1))).2 := by
  induction xs generalizing s with
  | nil => rfl
  | cons x xs ih =>
    rw [List.length_cons, List.range_succ_eq_map, List.map_cons, List.map_map, chain,
      List.map_cons, ih, htells]
    rfl

end StateProgram
