import Pc20iii.Fe2010.Pit

/-!
# The rate of timer 0

Timer 0 raises its interrupt whenever its counter reaches 0. In the square-wave mode the counter
starts again from its divisor; the source has no register for the divisor, and lets the counter
wrap from 0 to 65535.

A run is a list of decrements of timer 0, with anything else between them that writes no timer
(`TimerEvent`). `timer_rate_iff` says how long the programmed rate is kept: for the divisor 65536
for ever, and for any other one up to the decrement before the second raise.
-/

namespace Pc20iii

open StateProgram

variable {δ : Type}

/-- What happens to timer 0 once it has been programmed. -/
inductive TimerEvent (δ : Type) where
  | decrement
  /-- Anything else: the machine becomes `m`, with the counter of timer 0 as it was. -/
  | other (m : Machine δ)

/-- The machine with another counter of timer 0. -/
def Machine.withCounter (m : Machine δ) (counter : Word) : Machine δ :=
  { m with fe2010 := m.fe2010.setPit 0 { m.fe2010.pit 0 with counter := counter } }

/-- The counter of timer 0. -/
def Machine.counter (m : Machine δ) : Word := (m.fe2010.pit 0).counter

@[simp] theorem withCounter_counter (m : Machine δ) (counter : Word) :
    (m.withCounter counter).counter = counter := by
  rw [Machine.counter, Machine.withCounter, setPit_self]

/-- A machine keeps its own counter. -/
theorem withCounter_self (m : Machine δ) : m.withCounter m.counter = m := by
  have hself : m.fe2010.setPit 0 (m.fe2010.pit 0) = m.fe2010 := by
    rw [Fe2010.setPit, Function.update_eq_self]
  show { m with fe2010 := m.fe2010.setPit 0 (m.fe2010.pit 0) } = m
  rw [hself]

/-- The machine after an event. -/
def timerAfter (m : Machine δ) : TimerEvent δ → Machine δ
  | .decrement => (outcome (pitTick 0) m).2
  | .other m' => m'.withCounter m.counter

/-- The number of decrements of a run. -/
def decrements : List (TimerEvent δ) → ℕ
  | [] => 0
  | .decrement :: as => decrements as + 1
  | .other _ :: as => decrements as

/-- The calls of `fe2010_irq` for the timer in the history. -/
def timerCalls (m : Machine δ) : ℕ :=
  m.log.countP fun e =>
    match e with
    | .irqCall irqNo _ _ => irqNo == fe2010IrqTimer
    | _ => false

/-- The next decrement raises the interrupt. -/
def TimerRaises (m : Machine δ) : Prop := timerCalls (timerAfter m .decrement) = timerCalls m + 1

/-! ### Decrements -/

theorem outcome_pitTick_zero (m : Machine δ) :
    outcome (pitTick 0) m =
      if m.counter - 1 = 0 then outcome (fe2010Irq fe2010IrqTimer) (m.decremented 0)
      else ((), m.decremented 0) :=
  (outcome_pitTick 0 m).trans (if_congr Iff.rfl (if_pos rfl) rfl)

theorem counter_decrement (m : Machine δ) :
    (timerAfter m .decrement).counter = m.counter - 1 := by
  have hcounter : (m.decremented 0).counter = m.counter - 1 := by
    rw [Machine.counter, decremented_pit]
    rfl
  rw [timerAfter, outcome_pitTick_zero]
  split_ifs
  · rw [Machine.counter, pit_fe2010Irq]
    exact hcounter
  · exact hcounter

/-- A call for the timer line is one call, entered or not. -/
theorem timerCalls_fe2010Irq (m : Machine δ) :
    timerCalls (outcome (fe2010Irq fe2010IrqTimer) m).2 = timerCalls m + 1 := by
  rcases fe2010Irq_cases fe2010IrqTimer m with ⟨-, h⟩ | ⟨-, -, h⟩ | ⟨-, -, h⟩
  all_goals
    rw [h]
    simp [timerCalls]

/-- A counter reaches 0 from 1. -/
theorem counter_sub_one_iff (counter : Word) : counter - 1 = 0 ↔ counter = 1 := by
  have hlt := counter.isLt
  have hone : (1 : Word).toNat = 1 := rfl
  have hzero : (0 : Word).toNat = 0 := rfl
  rw [← BitVec.toNat_inj, ← BitVec.toNat_inj, BitVec.toNat_sub, hone, hzero]
  omega

theorem raises_iff (m : Machine δ) : TimerRaises m ↔ m.counter = 1 := by
  have hzero := counter_sub_one_iff m.counter
  have hcalls : timerCalls (m.decremented 0) = timerCalls m := rfl
  rw [TimerRaises, timerAfter, outcome_pitTick_zero]
  split_ifs with h₀
  · rw [timerCalls_fe2010Irq, hcalls]
    exact iff_of_true rfl (hzero.mp h₀)
  · refine iff_of_false ?_ (mt hzero.mpr h₀)
    rw [hcalls]
    exact Nat.ne_of_lt (Nat.lt_succ_self _)

/-- The counter counts the decrements of a run. -/
theorem counter_runAll (m : Machine δ) (as : List (TimerEvent δ)) :
    (runAll timerAfter m as).counter = m.counter - BitVec.ofNat 16 (decrements as) := by
  induction as generalizing m with
  | nil => exact (BitVec.sub_zero _).symm
  | cons a as ih =>
    rw [runAll_cons, ih]
    cases a with
    | decrement =>
      rw [counter_decrement, decrements, BitVec.ofNat_add, BitVec.add_comm, ← BitVec.sub_sub]
      rfl
    | other m' => rw [timerAfter, withCounter_counter, decrements]

/-- Every decrement of a run has its place in it. -/
theorem exists_decrement {as : List (TimerEvent δ)} {k : ℕ} (h : k < decrements as) :
    ∃ before after, as = before ++ .decrement :: after ∧ decrements before = k := by
  induction as generalizing k with
  | nil => exact absurd h (Nat.not_lt_zero k)
  | cons a as ih =>
    -- only a decrement counts
    cases a with
    | decrement =>
      cases k with
      | zero => exact ⟨[], as, rfl, rfl⟩
      | succ k =>
        obtain ⟨before, after, heq, hk⟩ := ih (Nat.lt_of_succ_lt_succ h)
        exact ⟨.decrement :: before, after, congrArg _ heq, congrArg Nat.succ hk⟩
    | other m' =>
      obtain ⟨before, after, heq, hk⟩ := ih h
      exact ⟨.other m' :: before, after, congrArg _ heq, hk⟩

theorem decrements_append (as bs : List (TimerEvent δ)) :
    decrements (as ++ bs) = decrements as + decrements bs := by
  induction as with
  | nil => exact (Nat.zero_add _).symm
  | cons a as ih =>
    cases a with
    | decrement =>
      rw [List.cons_append, decrements, decrements, ih]
      omega
    | other m' => exact ih

/-! ### Calls of `fe2010_execute` -/

theorem timerAfter_other {m m' : Machine δ} (h : m'.counter = m.counter) :
    timerAfter m (.other m') = m' := by
  rw [timerAfter, ← h, withCounter_self]

theorem counter_pitTick_of_ne {i : Fin 3} (h : i ≠ 0) (m : Machine δ) :
    (outcome (pitTick i) m).2.counter = m.counter := by
  have hcounter : (m.decremented i).counter = m.counter := by
    rw [Machine.counter, decremented_pit_of_ne m h.symm]
    rfl
  rw [outcome_pitTick, if_neg h]
  split_ifs <;> exact hcounter

/-- The pending interrupts do not touch the counters. -/
theorem counter_pendingLoop (m : Machine δ) :
    (outcome pendingLoop m).2.counter = m.counter := by
  have hloop : ∀ (l : List (Fin 8)) (m : Machine δ),
      (outcome (l.forM pendingPass) m).2.counter = m.counter := by
    intro l
    induction l with
    | nil => exact fun _ => rfl
    | cons irqNo l ih =>
      intro m
      rw [outcome_forM_cons, ih]
      simp only [pendingPass, outcome_bind, outcome_get, outcome_ite, outcome_record, outcome_pure]
      -- a line that is pending and passes is called, which does not count either
      split_ifs
      · rw [Machine.counter, pit_fe2010Irq]
        rfl
      · rfl
  exact hloop _ m

/-- The machine after one round over the three timers. -/
def Machine.round (m : Machine δ) : Machine δ :=
  (outcome (pitTick 2) (outcome (pitTick 1) (outcome (pitTick 0) m).2).2).2

theorem outcome_pitLoop (m : Machine δ) : (outcome pitLoop m).2 = m.round.round.round := by
  simp only [pitLoop, outcome_forM_cons, outcome_forM_nil]
  rfl

theorem runAll_round (m : Machine δ) (as : List (TimerEvent δ)) :
    runAll timerAfter m (.decrement :: .other m.round :: as) = runAll timerAfter m.round as := by
  have hkept : m.round.counter = (timerAfter m .decrement).counter := by
    rw [Machine.round, counter_pitTick_of_ne (by decide), counter_pitTick_of_ne (by decide)]
    rfl
  rw [runAll_cons, runAll_cons, timerAfter_other hkept]

/-- Every call of `fe2010_execute` is a run of timer 0: in one call of seven there are three
decrements, and in the others none. -/
theorem exists_run_fe2010Execute (m : Machine δ) :
    ∃ as, runAll timerAfter m as = (outcome fe2010Execute m).2 ∧
      decrements as = if m.fe2010.cycle + 1 > 6 then 3 else 0 := by
  simp only [fe2010Execute, outcome_bind, outcome_get, outcome_ite, outcome_modifyFe2010,
    outcome_pure]
  split_ifs with hcycle
  · have hstart := counter_pendingLoop { m with fe2010 := { m.fe2010 with cycle := 0 } }
    rw [outcome_pitLoop]
    generalize (outcome pendingLoop { m with fe2010 := { m.fe2010 with cycle := 0 } }).2 = start
      at hstart ⊢
    change start.counter = m.counter at hstart
    -- the pending loop, and three ticks with what comes between them
    refine ⟨[.other start, .decrement, .other start.round, .decrement, .other start.round.round,
      .decrement, .other start.round.round.round], ?_, rfl⟩
    rw [runAll_cons, timerAfter_other hstart, runAll_round, runAll_round, runAll_round, runAll_nil]
  · exact ⟨[.other { m with fe2010 := { m.fe2010 with cycle := m.fe2010.cycle + 1 } }],
      timerAfter_other rfl, rfl⟩

/-! ### The rate -/

/-- The divisor that a counter stands for. -/
def divisor (counter : Word) : ℕ := if counter = 0 then 2 ^ 16 else counter.toNat

/-- In a run the interrupt is raised at every multiple of `n`, and at no other decrement. -/
def RaisesEvery (n : ℕ) (m : Machine δ) (as : List (TimerEvent δ)) : Prop :=
  ∀ before after, as = before ++ .decrement :: after →
    (TimerRaises (runAll timerAfter m before) ↔ n ∣ decrements before + 1)

theorem raises_runAll (m : Machine δ) (as : List (TimerEvent δ)) :
    TimerRaises (runAll timerAfter m as) ↔
      (decrements as + 1) % 2 ^ 16 = m.counter.toNat := by
  have hlt := m.counter.isLt
  have hone : (1 : Word).toNat = 1 := rfl
  rw [raises_iff, counter_runAll, ← BitVec.toNat_inj, BitVec.toNat_sub, BitVec.toNat_ofNat, hone]
  omega

/-- The raises come with the divisor exactly when it is 2^16 or the second one is not yet due. -/
theorem raisesEvery_iff (m : Machine δ) (as : List (TimerEvent δ)) :
    RaisesEvery (divisor m.counter) m as ↔
      divisor m.counter = 2 ^ 16 ∨ decrements as < 2 * divisor m.counter := by
  have hlt := m.counter.isLt
  by_cases hzero : m.counter = 0
  · -- the counter comes round by itself, as 2^16 is what it counts to
    have hdivisor : divisor m.counter = 2 ^ 16 := if_pos hzero
    refine iff_of_true ?_ (.inl hdivisor)
    intro before after _
    rw [raises_runAll, hdivisor, hzero]
    exact (Nat.dvd_iff_mod_eq_zero ..).symm
  · have hdivisor : divisor m.counter = m.counter.toNat := if_neg hzero
    have hpos : 0 < m.counter.toNat := by
      rw [Nat.pos_iff_ne_zero]
      intro h
      exact hzero (BitVec.eq_of_toNat_eq h)
    rw [hdivisor, or_iff_right (Nat.ne_of_lt hlt)]
    constructor
    · intro hevery
      by_contra hmany
      -- the second raise is missing
      have hcount : 2 * m.counter.toNat - 1 < decrements as := by omega
      obtain ⟨before, after, heq, hk⟩ := exists_decrement hcount
      have hraise := (hevery before after heq).mpr ⟨2, by omega⟩
      rw [raises_runAll, hk] at hraise
      omega
    · -- there is time for the first raise only, which comes when it should
      intro hfew before after heq
      have hk : decrements before + 1 < 2 * m.counter.toNat := by
        rw [heq, decrements_append, decrements] at hfew
        omega
      rw [raises_runAll]
      constructor
      · intro hmod
        have hsame : decrements before + 1 = m.counter.toNat := by omega
        rw [hsame]
      · rintro ⟨q, hq⟩
        have hq' : q = 1 := by
          have hbound : m.counter.toNat * q < m.counter.toNat * 2 := by omega
          have hq2 := Nat.lt_of_mul_lt_mul_left hbound
          have hq0 : q ≠ 0 := by
            rintro rfl
            omega
          omega
        rw [hq, hq', Nat.mul_one, Nat.mod_eq_of_lt hlt]

/-- The machine in which the guest has loaded timer 0 for a square wave. -/
def Machine.programmed (io : Devices δ) (m : Machine δ) (lo hi : Byte) : Machine δ :=
  runAll (pitAfter io) m [.write 0x43 0x36, .write 0x40 lo, .write 0x40 hi]

theorem programmed_counter (io : Devices δ) {m : Machine δ}
    (h : (m.fe2010.pit 0).flipFlop = false) (lo hi : Byte) :
    (m.programmed io lo hi).counter = wordOf lo hi :=
  (loads_iff io (i := 0) rfl rfl).mpr h lo hi

/-- **The rate of timer 0.** With the divisor 65536 the interrupt is raised at every multiple of
it for ever; with any other one exactly as long as there are fewer than twice as many
decrements. -/
theorem timer_rate_iff (io : Devices δ) {m : Machine δ}
    (h : (m.fe2010.pit 0).flipFlop = false) (lo hi : Byte) (as : List (TimerEvent δ)) :
    RaisesEvery (divisor (wordOf lo hi)) (m.programmed io lo hi) as ↔
      divisor (wordOf lo hi) = 2 ^ 16 ∨ decrements as < 2 * divisor (wordOf lo hi) := by
  have hiff := raisesEvery_iff (m.programmed io lo hi) as
  rwa [programmed_counter io h] at hiff

/-- With the divisor 2 the second raise is missing. -/
theorem timer_rate_iff_two :
    ¬RaisesEvery (divisor (wordOf 2 0)) ((machineInit ()).programmed Devices.none 2 0)
      (List.replicate 4 .decrement) :=
  mt (timer_rate_iff Devices.none (m := machineInit ()) rfl 2 0 _).mp (by decide)

theorem timer_rate_lost : ¬ ∀ (m : Machine Unit) (lo hi : Byte) (as : List (TimerEvent Unit)),
    (m.fe2010.pit 0).flipFlop = false →
    RaisesEvery (divisor (wordOf lo hi)) (m.programmed Devices.none lo hi) as := by
  intro h
  have hrate := h (machineInit ()) 2 0 (List.replicate 4 .decrement) rfl
  have hraise := (hrate (List.replicate 3 .decrement) [] rfl).mpr (by decide)
  rw [raises_runAll, programmed_counter Devices.none rfl] at hraise
  exact absurd hraise (by decide)

end Pc20iii
