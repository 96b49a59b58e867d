import Pc20iii.System.Run

/-!
# Interrupt requests over runs

The history of a run shows every call of `fe2010_irq`, with the mask register and the
interrupt flag the call finds, and every entry of a hardware interrupt.

No request is invented and none is forgotten (`irq_requests`): entries are paid for by
calls, which an account keeps (`credit`), and a pending request waits until its interrupt
is entered. Which calls enter is decided by the mask test of `fe2010_irq`, which shifts
the mask register and does not look at a single bit (`delivered_iff`,
`run_delivered_iff`).
-/

namespace Pc20iii

open StateProgram

variable {δ : Type} {raises reports : Bool}

/-! ### Reading the history -/

/-- A call of `fe2010_irq` for a line. -/
def Event.isCall (n : Fin 8) : Event → Bool
  | irqCall k _ _ => k == n
  | _ => false

/-- The calls of `fe2010_irq(n)`. -/
def calls (n : Fin 8) (log : List Event) : ℕ := log.countP (Event.isCall n)

/-- The calls of `fe2010_irq(n)` that come from the pending loop. -/
def retries (n : Fin 8) (log : List Event) : ℕ := log.count (.irqRetry n)

/-- The calls of `fe2010_irq(n)` by the devices and the timer. -/
def raisedBy (n : Fin 8) (log : List Event) : ℕ := calls n log - retries n log

/-- The entries of interrupt `n + 8` through `i8088_irq`. -/
def entries (n : Fin 8) (log : List Event) : ℕ := log.count (.irqEntry n)

/-- The lines whose interrupts were entered, newest first. -/
def entered (log : List Event) : List (Fin 8) :=
  log.filterMap fun
    | .irqEntry n => some n
    | _ => none

section Reading

variable (n k : Fin 8) (mask : Byte) (i : Bool) (intNo : Byte) (log : List Event)

@[simp] theorem calls_irqCall :
    calls n (.irqCall k mask i :: log) = calls n log + if k = n then 1 else 0 := by
  simp [calls, List.countP_cons, Event.isCall]

@[simp] theorem calls_irqEntry : calls n (.irqEntry k :: log) = calls n log := by
  simp [calls, Event.isCall]

@[simp] theorem calls_irqRetry : calls n (.irqRetry k :: log) = calls n log := by
  simp [calls, Event.isCall]

@[simp] theorem calls_interrupt : calls n (.interrupt intNo :: log) = calls n log := by
  simp [calls, Event.isCall]

@[simp] theorem retries_irqCall : retries n (.irqCall k mask i :: log) = retries n log := by
  simp [retries]

@[simp] theorem retries_irqEntry : retries n (.irqEntry k :: log) = retries n log := by
  simp [retries]

@[simp] theorem retries_irqRetry :
    retries n (.irqRetry k :: log) = retries n log + if k = n then 1 else 0 := by
  simp [retries, List.count_cons]

@[simp] theorem retries_interrupt : retries n (.interrupt intNo :: log) = retries n log := by
  simp [retries]

@[simp] theorem entries_irqCall : entries n (.irqCall k mask i :: log) = entries n log := by
  simp [entries]

@[simp] theorem entries_irqEntry :
    entries n (.irqEntry k :: log) = entries n log + if k = n then 1 else 0 := by
  simp [entries, List.count_cons]

@[simp] theorem entries_irqRetry : entries n (.irqRetry k :: log) = entries n log := by
  simp [entries]

@[simp] theorem entries_interrupt : entries n (.interrupt intNo :: log) = entries n log := by
  simp [entries]

@[simp] theorem entered_irqCall : entered (.irqCall k mask i :: log) = entered log := rfl
@[simp] theorem entered_irqEntry : entered (.irqEntry k :: log) = k :: entered log := rfl
@[simp] theorem entered_irqRetry : entered (.irqRetry k :: log) = entered log := rfl
@[simp] theorem entered_interrupt : entered (.interrupt intNo :: log) = entered log := rfl

variable {log} {es : List Event} (hes : ∀ e ∈ es, e.Plain reports)

include hes

/-- Plain events are not calls. -/
theorem calls_plain : calls n (es ++ log) = calls n log := by
  rw [calls, List.countP_append, List.countP_eq_zero.mpr, Nat.zero_add, calls]
  intro e he
  have hp := hes e he
  cases e with
  | irqCall k mask i => exact hp.elim
  | _ => simp [Event.isCall]

theorem retries_plain : retries n (es ++ log) = retries n log := by
  have hnot : Event.irqRetry n ∉ es := fun h => hes _ h
  rw [retries, List.count_append, List.count_eq_zero.mpr hnot, Nat.zero_add, retries]

theorem entries_plain : entries n (es ++ log) = entries n log := by
  have hnot : Event.irqEntry n ∉ es := fun h => hes _ h
  rw [entries, List.count_append, List.count_eq_zero.mpr hnot, Nat.zero_add, entries]

theorem entered_plain : entered (es ++ log) = entered log := by
  rw [entered, List.filterMap_append, List.filterMap_eq_nil_iff.mpr, List.nil_append, entered]
  intro e he
  have hp := hes e he
  cases e with
  | irqEntry k => exact hp.elim
  | _ => rfl

end Reading

/-! ### The account of a line -/

/-- The requests of the devices and the timer that have neither entered nor are pending. -/
def credit (n : Fin 8) (m : Machine δ) : ℤ :=
  calls n m.log - retries n m.log - entries n m.log - (m.fe2010.irqPending n).toNat

/-- What a run does to the account of a line. -/
structure Accounts (n : Fin 8) (m m' : Machine δ) : Prop where
  entries_le : entries n m.log ≤ entries n m'.log
  /-- A pending request waits until its interrupt is entered. -/
  waits : m.fe2010.irqPending n = true →
    m'.fe2010.irqPending n = true ∨ entries n m.log < entries n m'.log
  credit_le : credit n m ≤ credit n m'

namespace Accounts

variable {n : Fin 8} {m m' m'' : Machine δ}

theorem refl (m : Machine δ) : Accounts n m m := ⟨le_rfl, .inl, le_rfl⟩

theorem trans (h : Accounts n m m') (h' : Accounts n m' m'') : Accounts n m m'' where
  entries_le := h.entries_le.trans h'.entries_le
  waits hp := by
    rcases h.waits hp with hp' | hlt
    · exact (h'.waits hp').imp_right (lt_of_le_of_lt h.entries_le)
    · exact .inr (hlt.trans_le h'.entries_le)
  credit_le := h.credit_le.trans h'.credit_le

theorem of_plain (h : Plain raises reports m m') : Accounts n m m' := by
  obtain ⟨es, hes, hall⟩ := h.log
  have hentries : entries n m'.log = entries n m.log := hes ▸ entries_plain n hall
  have hcredit : credit n m' = credit n m := by
    rw [credit, credit, h.pending, hentries, hes, calls_plain n hall, retries_plain n hall]
  exact ⟨hentries.ge, fun hp => .inl (h.pending ▸ hp), hcredit.ge⟩

/-- A request of the line: the call pays for the entry or for the pending mark, and a mark
that was there is left over. -/
theorem credit_irq_self (m : Machine δ) :
    credit n m + (m.fe2010.irqPending n).toNat ≤ credit n (outcome (fe2010Irq n) m).2 := by
  have hle := (m.fe2010.irqPending n).toNat_le
  rcases fe2010Irq_cases n m with ⟨-, h⟩ | ⟨-, -, h⟩ | ⟨-, -, h⟩ <;> rw [h]
  · simp only [credit, called_log, called_fe2010, calls_irqCall, retries_irqCall, entries_irqCall,
      if_true]
    push_cast
    omega
  -- passed: the call is paid back by the mark or by the entry
  · simp only [credit, setPending_log, setPending_self, called_log, calls_irqCall,
      retries_irqCall, entries_irqCall, if_true, Bool.toNat_true]
    push_cast
    omega
  · simp only [credit, setPending_log, setPending_self, irqEntered_log, called_log,
      calls_interrupt, retries_interrupt, entries_interrupt, calls_irqEntry, retries_irqEntry,
      entries_irqEntry, calls_irqCall, retries_irqCall, entries_irqCall, if_true,
      Bool.toNat_false]
    push_cast
    omega

/-- A request of another line leaves the account alone. -/
theorem irq_of_ne {k : Fin 8} (hk : n ≠ k) (m : Machine δ) :
    Accounts n m (outcome (fe2010Irq k) m).2 := by
  rcases fe2010Irq_cases k m with ⟨-, h⟩ | ⟨-, -, h⟩ | ⟨-, -, h⟩ <;> rw [h]
  · exact ⟨by simp, .inl, by simp [credit, Ne.symm hk]⟩
  -- the mark and the entry are of line `k`
  · exact ⟨by simp, fun h => .inl ((setPending_of_ne k hk _).trans h),
      by simp [credit, setPending_of_ne k hk, Ne.symm hk]⟩
  · exact ⟨by simp, fun h => .inl ((setPending_of_ne k hk _).trans h),
      by simp [credit, setPending_of_ne k hk, Ne.symm hk]⟩

/-- A pending request is kept or entered by a request of its line. -/
theorem waits_irq (m : Machine δ) (h : m.fe2010.irqPending n = true) :
    (outcome (fe2010Irq n) m).2.fe2010.irqPending n = true ∨
      entries n m.log < entries n (outcome (fe2010Irq n) m).2.log := by
  rcases fe2010Irq_cases n m with ⟨-, hafter⟩ | ⟨-, -, hafter⟩ | ⟨-, -, hafter⟩ <;> rw [hafter]
  · exact .inl h
  · exact .inl (setPending_self ..)
  · -- an entry clears the mark, and is what the request has waited for
    exact .inr (by simp)

/-- A request takes no entry back. -/
theorem entries_irq_le (m : Machine δ) :
    entries n m.log ≤ entries n (outcome (fe2010Irq n) m).2.log := by
  rcases fe2010Irq_cases n m with ⟨-, h⟩ | ⟨-, -, h⟩ | ⟨-, -, h⟩
  all_goals
    rw [h]
    simp

/-- A request. -/
theorem irq (m : Machine δ) (k : Fin 8) : Accounts n m (outcome (fe2010Irq k) m).2 := by
  by_cases hk : n = k
  · subst hk
    refine ⟨entries_irq_le m, waits_irq m, ?_⟩
    have := credit_irq_self (n := n) m
    omega
  · exact irq_of_ne hk m

/-- A retry: its mark takes back what the call adds, since the request was pending. -/
theorem retry (m : Machine δ) (k : Fin 8) : Accounts n m (outcome (pendingPass k) m).2 := by
  rw [outcome_pendingPass]
  split
  · next hpend =>
    -- the mark of the retry counts for its own line only
    by_cases hk : n = k
    · subst hk
      have hirq := irq (n := n) { m with log := .irqRetry n :: m.log } n
      refine ⟨?_, ?_, ?_⟩
      · simpa using hirq.entries_le
      · simpa using hirq.waits
      · have hself := credit_irq_self (n := n) { m with log := .irqRetry n :: m.log }
        have hmark : credit n { m with log := .irqRetry n :: m.log } = credit n m - 1 := by
          simp [credit]
          omega
        have hone : (m.fe2010.irqPending n).toNat = 1 := by rw [hpend]; rfl
        simp only [hmark, hone] at hself
        push_cast at hself
        omega
    · have hmark : Accounts n m { m with log := .irqRetry k :: m.log } :=
        ⟨by simp, .inl, by simp [credit, Ne.symm hk]⟩
      exact hmark.trans (irq _ k)
  · exact refl m

end Accounts

/-- Every run keeps the accounts. -/
theorem Run.accounts {io : Devices δ} {m m' : Machine δ} (h : Run io m m') (n : Fin 8) :
    Accounts n m m' :=
  RunOf.rel Accounts.refl Accounts.trans Accounts.of_plain Accounts.irq Accounts.retry
    rfl (fun _ _ _ => rfl) h

/-! ### One pass of the pending loop -/

/-- The line that one pass of the pending loop serves: with IF set, the lowest pending line
that passes the mask test. -/
def Machine.served (m : Machine δ) (lines : List (Fin 8)) : Option (Fin 8) :=
  if m.cpu.flags.i then lines.find? fun n => m.fe2010.irqPending n && m.passes n else none

theorem served_of_clear {m : Machine δ} (h : m.cpu.flags.i = false) (lines : List (Fin 8)) :
    m.served lines = none := by
  simp [Machine.served, h]

/-- A pass over a line that is not pending or does not pass the mask test serves nothing. -/
theorem served_cons_of_skip {m : Machine δ} {k : Fin 8}
    (h : (m.fe2010.irqPending k && m.passes k) = false) (lines : List (Fin 8)) :
    m.served (k :: lines) = m.served lines := by
  simp only [Machine.served, List.find?_cons, h]

/-- A pass over a line serves it or leaves it to the rest of the loop to serve another. -/
theorem entered_pendingPass (m : Machine δ) (k : Fin 8) (lines : List (Fin 8)) :
    ((outcome (pendingPass k) m).2.served lines).toList ++
        entered (outcome (pendingPass k) m).2.log =
      (m.served (k :: lines)).toList ++ entered m.log := by
  rw [outcome_pendingPass]
  cases hk : m.fe2010.irqPending k with
  | false => rw [if_neg (by simp), served_cons_of_skip (by simp [hk])]
  | true =>
    rw [if_pos rfl]
    -- the mark in the history does not change what the request does
    let marked : Machine δ := { m with log := .irqRetry k :: m.log }
    cases hp : m.passes k with
    | false =>
      have hp' : marked.passes k = false := hp
      rw [outcome_fe2010Irq_of_fail k hp', served_cons_of_skip (by simp [hp])]
      rfl
    | true =>
      have hp' : marked.passes k = true := hp
      cases hi : m.cpu.flags.i with
      | false =>
        have hi' : marked.cpu.flags.i = false := hi
        rw [outcome_fe2010Irq_of_clear k hp' hi', served_of_clear hi, served_of_clear]
        · rfl
        · exact hi
      | true =>
        have hi' : marked.cpu.flags.i = true := hi
        rw [outcome_fe2010Irq_of_set k hp' hi', served_of_clear rfl]
        simp [Machine.served, hi, hk, hp, marked]

/-- The loop over the pending requests enters the interrupt of the line it serves, if there
is one, and no other. -/
theorem entered_forM_pendingPass (lines : List (Fin 8)) (m : Machine δ) :
    entered (outcome (lines.forM pendingPass) m).2.log =
      (m.served lines).toList ++ entered m.log := by
  induction lines generalizing m with
  | nil =>
    change entered m.log = _
    simp [Machine.served]
  | cons k lines ih =>
    change entered (outcome (lines.forM pendingPass) (outcome (pendingPass k) m).2).2.log = _
    rw [ih, entered_pendingPass]

/-! ### Conservation of requests -/

/-- The state before the first request: nothing is pending, and the history is empty. -/
structure Machine.Idle (m : Machine δ) : Prop where
  pending : ∀ n, m.fe2010.irqPending n = false
  log : m.log = []

/-- In every run from an idle machine, entries do not exceed the requests of the devices and
the timer. -/
theorem entries_le_raisedBy {io : Devices δ} {m m' : Machine δ} (hm : m.Idle) (h : Run io m m')
    (n : Fin 8) : entries n m'.log ≤ raisedBy n m'.log := by
  have hcredit := (h.accounts n).credit_le
  have hzero : credit n m = 0 := by
    simp [credit, hm.log, hm.pending, calls, retries, entries]
  have hpend := Nat.zero_le (m'.fe2010.irqPending n).toNat
  rw [hzero, credit] at hcredit
  unfold raisedBy
  omega

/-- **Requests are neither lost nor invented.** For every line `n`:
* a call of `fe2010_irq(n)` that passes the mask test runs interrupt `n + 8` at once or
  leaves the request pending;
* in every run a pending request waits until interrupt `n + 8` is entered;
* in every run from an idle machine the entries of interrupt `n + 8` do not exceed the calls
  by the devices and the timer;
* one pass of the pending loop enters the interrupt of the lowest pending line that passes
  the mask test when IF is set, and no other interrupt. -/
theorem irq_requests (io : Devices δ) (n : Fin 8) :
    (∀ m : Machine δ, m.passes n = true →
      (outcome (fe2010Irq n) m).2.log =
          .interrupt (irqInt n) :: .irqEntry n :: (m.called n).log ∨
        (outcome (fe2010Irq n) m).2.fe2010.irqPending n = true) ∧
    (∀ m m' : Machine δ, Run io m m' → m.fe2010.irqPending n = true →
      m'.fe2010.irqPending n = true ∨ entries n m.log < entries n m'.log) ∧
    (∀ m m' : Machine δ, m.Idle → Run io m m' → entries n m'.log ≤ raisedBy n m'.log) ∧
    ∀ m : Machine δ, entered (outcome pendingLoop m).2.log =
      (m.served [0, 1, 2, 3, 4, 5, 6, 7]).toList ++ entered m.log := by
  refine ⟨fun m hp => ?_, fun m m' h => (h.accounts n).waits,
    fun m m' hm h => entries_le_raisedBy hm h n, fun m => entered_forM_pendingPass _ m⟩
  -- with IF clear the request is left pending
  cases hi : m.cpu.flags.i with
  | false =>
    rw [outcome_fe2010Irq_of_clear n hp hi]
    exact .inr (setPending_self ..)
  | true =>
    rw [outcome_fe2010Irq_of_set n hp hi]
    exact .inl rfl

/-- `STI` in memory, every line open, IF clear, and the next round of the chipset due. -/
def aboutToEnable : Machine Unit :=
  let m := machineWith [0xFB]
  { m with fe2010 := { m.fe2010 with irqMask := 0xFF, cycle := 6 } }

/-- A key is pressed while IF is clear; the request waits, and is entered behind `STI`. -/
theorem irq_requests_keyboard :
    let m₁ := (outcome (fe2010Irq 1) aboutToEnable).2
    let m₂ := (outcome (i8088Execute Devices.none 0 1) m₁).2
    let m₃ := (outcome fe2010Execute m₂).2
    (m₁.log = .interrupt (irqInt 1) :: .irqEntry 1 :: (aboutToEnable.called 1).log ∨
        m₁.fe2010.irqPending 1 = true) ∧
      (m₃.fe2010.irqPending 1 = true ∨ entries 1 m₁.log < entries 1 m₃.log) ∧
      entries 1 m₃.log ≤ raisedBy 1 m₃.log ∧ entries 1 m₁.log = 0 ∧ entries 1 m₃.log = 1 := by
  intro m₁ m₂ m₃
  obtain ⟨hraised, hwaits, hbounded, -⟩ := irq_requests (Devices.none : Devices Unit) 1
  have hpressed : Run Devices.none aboutToEnable m₁ := .single (.device inferInstance _)
  -- `STI`, and the pass of the pending loop behind it
  have hrun : Run Devices.none m₁ m₃ :=
    .tail (.single (.execute 0 1 m₁ fun _ _ => trivial)) (.chipset m₂)
  exact ⟨hraised aboutToEnable (by decide), hwaits m₁ m₃ hrun (by decide),
    hbounded aboutToEnable m₃ ⟨fun _ => rfl, rfl⟩ (hpressed.trans hrun), by decide,
    by decide +kernel⟩

end Pc20iii
