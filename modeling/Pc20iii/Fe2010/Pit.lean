import Pc20iii.I8088.Execute
import Pc20iii.Program.Labelled

/-!
# Programming the timers

The guest programs a timer through its counter port and the control port 0x43. The two bytes of a
counter or of a latch come one after the other, and a flip-flop of the timer tells which one is
next. The source has one flip-flop for reads and writes, and a control word leaves it as it is.

A run is a list of port accesses and calls of `fe2010_execute` (`PitAccess`).
`pit_sequences_iff` says that the control words of a run start the sequences that the guest
expects exactly when each of them finds the flip-flop clear, and that a counter-latch command
keeps what has been programmed only where nothing has been.
-/

namespace Pc20iii

open StateProgram

variable {δ : Type}

/-! ### Runs -/

/-- What happens to the timers: port accesses of the guest, and calls of `fe2010_execute`. -/
inductive PitAccess where
  | read (port : Word)
  | write (port : Word) (value : Byte)
  | execute
deriving DecidableEq, Repr

/-- The counter port of a timer. -/
def pitPort : Fin 3 → Word
  | 0 => 0x40
  | 1 => 0x41
  | 2 => 0x42

section Runs

variable (io : Devices δ)

/-- The machine after an access. -/
def pitAfter (m : Machine δ) : PitAccess → Machine δ
  | .read port => (outcome (ioRead io port) m).2
  | .write port value => (outcome (ioWrite io port value) m).2
  | .execute => (outcome fe2010Execute m).2

/-- The byte that a read of the counter port gives. -/
def pitByte (m : Machine δ) (i : Fin 3) : Byte := (outcome (ioRead io (pitPort i)) m).1

/-- A read of a counter goes to the counter of its port. -/
theorem pit_read (m : Machine δ) (i : Fin 3) :
    pitByte io m i = (m.fe2010.pit i).counterRead.1 ∧
      (pitAfter io m (.read (pitPort i))).fe2010 =
        m.fe2010.setPit i (m.fe2010.pit i).counterRead.2 := by
  have hread : ioRead io (pitPort i) = i8253PitCounterRead (pitPort i) :=
    match i with
    | 0 => rfl
    | 1 => rfl
    | 2 => rfl
  have hselect : pitSelect (pitPort i) = some i :=
    match i with
    | 0 => rfl
    | 1 => rfl
    | 2 => rfl
  -- the port selects the counter, and nothing else is read
  have houtcome : outcome (i8253PitCounterRead (pitPort i)) m =
      ((m.fe2010.pit i).counterRead.1,
        { m with fe2010 := m.fe2010.setPit i (m.fe2010.pit i).counterRead.2 }) := by
    simp only [i8253PitCounterRead, hselect, outcome_bind, outcome_get, outcome_modifyFe2010,
      outcome_pure]
  rw [pitByte, pitAfter, hread, houtcome]
  exact ⟨rfl, rfl⟩

/-- A write of a counter that has been programmed goes to the counter of its port. -/
theorem pit_write {m : Machine δ} {i : Fin 3} (h : (m.fe2010.pit i).rl ≠ 0) (value : Byte) :
    (pitAfter io m (.write (pitPort i) value)).fe2010 =
      m.fe2010.setPit i ((m.fe2010.pit i).counterWrite value) := by
  have hwrite : ioWrite io (pitPort i) value = i8253PitCounterWrite (pitPort i) value :=
    match i with
    | 0 => rfl
    | 1 => rfl
    | 2 => rfl
  have hselect : pitSelect (pitPort i) = some i :=
    match i with
    | 0 => rfl
    | 1 => rfl
    | 2 => rfl
  -- without a control word there would be no order of the bytes
  have houtcome : outcome (i8253PitCounterWrite (pitPort i) value) m =
      ((), { m with fe2010 := m.fe2010.setPit i ((m.fe2010.pit i).counterWrite value) }) := by
    simp only [i8253PitCounterWrite, hselect, outcome_bind, outcome_get, outcome_ite,
      outcome_modifyFe2010]
    rw [if_neg h]
  rw [pitAfter, hwrite, houtcome]

/-- A control word goes to the counter of its two high bits. -/
theorem pit_control (m : Machine δ) {value : Byte} {i : Fin 3} (h : (value >>> 6).toNat = i) :
    (pitAfter io m (.write 0x43 value)).fe2010.pit i = (m.fe2010.pit i).controlWrite value := by
  have hselect : ¬value >>> 6 > 2 := by
    have htwo : (2 : Byte).toNat = 2 := rfl
    rw [gt_iff_lt, BitVec.lt_def, htwo, h]
    omega
  have hi : Fin.ofNat 3 (value >>> 6).toNat = i := by
    rw [h]
    exact Fin.ofNat_val_eq_self i
  show (outcome (i8253PitControlWrite 0x43 value) m).2.fe2010.pit i = _
  simp only [i8253PitControlWrite, hselect, if_false, hi, outcome_bind, outcome_modifyFe2010,
    outcome_ite, outcome_pure]
  split_ifs <;> exact Function.update_self ..

end Runs

/-! ### Ticks -/

/-- A tick changes at most the counter. -/
structure Pit.Ticked (p q : Pit) : Prop where
  control : q.control = p.control
  latch : q.latch = p.latch
  flipFlop : q.flipFlop = p.flipFlop

/-- All timers have at most ticked. -/
def Ticks (m m' : Machine δ) : Prop := ∀ i, (m.fe2010.pit i).Ticked (m'.fe2010.pit i)

theorem Ticks.refl (m : Machine δ) : Ticks m m := fun _ => ⟨rfl, rfl, rfl⟩

theorem Ticks.trans {m₁ m₂ m₃ : Machine δ} (h : Ticks m₁ m₂) (h' : Ticks m₂ m₃) :
    Ticks m₁ m₃ := fun i =>
  ⟨(h' i).control.trans (h i).control, (h' i).latch.trans (h i).latch,
    (h' i).flipFlop.trans (h i).flipFlop⟩

theorem Ticks.of_eq {m m' : Machine δ} (h : m'.fe2010.pit = m.fe2010.pit) : Ticks m m' := by
  intro i
  rw [h]
  exact ⟨rfl, rfl, rfl⟩

theorem Ticks.forM {α : Type} {body : α → M δ Unit}
    (h : ∀ a (m : Machine δ), Ticks m (outcome (body a) m).2) (l : List α) (m : Machine δ) :
    Ticks m (outcome (l.forM body) m).2 := by
  induction l generalizing m with
  | nil => exact .refl m
  | cons a l ih =>
    rw [outcome_forM_cons]
    exact (h a m).trans (ih _)

/-- An interrupt request leaves the timers alone. -/
theorem pit_fe2010Irq (irqNo : Fin 8) (m : Machine δ) :
    (outcome (fe2010Irq irqNo) m).2.fe2010.pit = m.fe2010.pit := by
  rcases fe2010Irq_cases irqNo m with ⟨-, h⟩ | ⟨-, -, h⟩ | ⟨-, -, h⟩
  all_goals
    rw [h]
    rfl

theorem ticks_pendingPass (irqNo : Fin 8) (m : Machine δ) :
    Ticks m (outcome (pendingPass irqNo) m).2 := by
  simp only [pendingPass, outcome_bind, outcome_get, outcome_ite, outcome_record, outcome_pure]
  split_ifs
  · refine .of_eq ?_
    rw [pit_fe2010Irq]
  · exact .refl m

@[simp] theorem setPit_self (f : Fe2010) (i : Fin 3) (p : Pit) : (f.setPit i p).pit i = p :=
  Function.update_self ..

/-- The machine in which a timer has been decremented. -/
def Machine.decremented (m : Machine δ) (i : Fin 3) : Machine δ :=
  let p := m.fe2010.pit i
  { m with fe2010 := m.fe2010.setPit i { p with counter := p.counter - 1 } }

@[simp] theorem decremented_pit (m : Machine δ) (i : Fin 3) :
    (m.decremented i).fe2010.pit i =
      { m.fe2010.pit i with counter := (m.fe2010.pit i).counter - 1 } := Function.update_self ..

theorem decremented_pit_of_ne (m : Machine δ) {i j : Fin 3} (h : j ≠ i) :
    (m.decremented i).fe2010.pit j = m.fe2010.pit j := Function.update_of_ne h ..

/-- One decrement: timer 0 raises its interrupt and timer 2 ends its output, when the counter has
reached 0. -/
theorem outcome_pitTick (i : Fin 3) (m : Machine δ) :
    outcome (pitTick i) m =
      if (m.fe2010.pit i).counter - 1 = 0 then
        if i = 0 then outcome (fe2010Irq fe2010IrqTimer) (m.decremented i)
        else if i = 2 then
          ((), { m.decremented i with
            fe2010 := { (m.decremented i).fe2010 with timer2Output := false } })
        else ((), m.decremented i)
      else ((), m.decremented i) := by
  simp only [pitTick, outcome_bind, outcome_get, outcome_ite, outcome_modifyFe2010, outcome_pure,
    setPit_self]
  rfl

theorem ticks_decremented (i : Fin 3) (m : Machine δ) : Ticks m (m.decremented i) := by
  intro j
  by_cases h : j = i
  · rw [h, decremented_pit]
    exact ⟨rfl, rfl, rfl⟩
  · rw [decremented_pit_of_ne m h]
    exact ⟨rfl, rfl, rfl⟩

theorem ticks_pitTick (i : Fin 3) (m : Machine δ) : Ticks m (outcome (pitTick i) m).2 := by
  have hdecrement := ticks_decremented i m
  rw [outcome_pitTick]
  split_ifs
  · refine hdecrement.trans (.of_eq ?_)
    rw [pit_fe2010Irq]
  all_goals exact hdecrement

theorem ticks_pendingLoop (m : Machine δ) : Ticks m (outcome pendingLoop m).2 :=
  Ticks.forM ticks_pendingPass _ m

theorem ticks_pitLoop (m : Machine δ) : Ticks m (outcome pitLoop m).2 :=
  Ticks.forM ticks_pitTick _ m

theorem ticks_fe2010Execute (m : Machine δ) : Ticks m (outcome fe2010Execute m).2 := by
  simp only [fe2010Execute, outcome_bind, outcome_get, outcome_ite, outcome_modifyFe2010,
    outcome_pure]
  split_ifs
  · have hpending := ticks_pendingLoop
      { m with fe2010 := { { m.fe2010 with cycle := m.fe2010.cycle + 1 } with cycle := 0 } }
    exact hpending.trans (ticks_pitLoop _)
  · exact Ticks.refl m

section Sequences

variable (io : Devices δ)

/-- The machine after some calls of `fe2010_execute`. -/
def executes (m : Machine δ) (n : ℕ) : Machine δ :=
  runAll (pitAfter io) m (List.replicate n .execute)

theorem ticks_executes (m : Machine δ) (n : ℕ) : Ticks m (executes io m n) := by
  induction n generalizing m with
  | zero => exact .refl m
  | succ n ih => exact (ticks_fe2010Execute m).trans (ih _)

/-! ### Sequences of two bytes -/

/-- The fields of a control word. -/
def controlRl (value : Byte) : BitVec 2 := value.extractLsb' 4 2
def controlMode (value : Byte) : BitVec 3 := value.extractLsb' 1 3

theorem controlRl_mask (value : Byte) : controlRl (value &&& 0x3F) = controlRl value := by
  refine BitVec.eq_of_getLsbD_eq fun k hk => ?_
  rw [controlRl, controlRl, BitVec.getLsbD_extractLsb', BitVec.getLsbD_extractLsb',
    BitVec.getLsbD_and]
  interval_cases k <;> simp

theorem controlWrite_rl (p : Pit) (value : Byte) :
    (p.controlWrite value).rl = controlRl value := by
  unfold Pit.controlWrite
  dsimp only
  split_ifs <;> exact controlRl_mask value

theorem controlWrite_mode (p : Pit) (value : Byte) :
    (p.controlWrite value).mode = controlMode value := by
  have hmask : (value &&& 0x3F).extractLsb' 1 3 = value.extractLsb' 1 3 := by
    refine BitVec.eq_of_getLsbD_eq fun k hk => ?_
    rw [BitVec.getLsbD_extractLsb', BitVec.getLsbD_extractLsb', BitVec.getLsbD_and]
    interval_cases k <;> simp
  unfold Pit.controlWrite
  dsimp only
  split_ifs <;> exact hmask

/-- A control word leaves the flip-flop as it is. -/
theorem controlWrite_flipFlop (p : Pit) (value : Byte) :
    (p.controlWrite value).flipFlop = p.flipFlop := by
  unfold Pit.controlWrite
  dsimp only
  split_ifs <;> rfl

theorem controlWrite_latch (p : Pit) {value : Byte} (h : controlRl value = 0) :
    (p.controlWrite value).latch = p.counter := by
  rw [← controlWrite_rl p] at h
  unfold Pit.controlWrite at h ⊢
  dsimp only at h ⊢
  split_ifs at h ⊢ with hrl
  · rfl
  · exact absurd h hrl

theorem counterWrite_of_words {p : Pit} (h : p.rl = 3) (value : Byte) :
    p.counterWrite value =
      if p.flipFlop then
        { p with flipFlop := false, counter := wordOf (lowByte p.counter) value }
      else
        { p with flipFlop := true, counter := wordOf value (highByte p.counter) } := by
  unfold Pit.counterWrite
  rw [h]
  rfl

/-- Two bytes land in the order that the flip-flop says. -/
theorem counter_of_words {p : Pit} (h : p.rl = 3) (lo hi : Byte) :
    ((p.counterWrite lo).counterWrite hi).counter =
      if p.flipFlop then wordOf hi lo else wordOf lo hi := by
  have hnext : (p.counterWrite lo).rl = 3 := by
    rw [counterWrite_of_words h]
    split_ifs <;> exact h
  rw [counterWrite_of_words hnext, counterWrite_of_words h]
  cases p.flipFlop with
  | false => simp
  | true => simp

/-- Two reads of a latch give its bytes in the order that the flip-flop says. -/
theorem counterRead_of_latch {p : Pit} (h : p.rl = 0) :
    p.counterRead =
      if p.flipFlop then (highByte p.latch, { p with flipFlop := false })
      else (lowByte p.latch, { p with flipFlop := true }) := by
  unfold Pit.counterRead
  rw [h]
  rfl

/-- The counter is loaded with two bytes after a control word. -/
def Loads (m : Machine δ) (value : Byte) (i : Fin 3) (lo hi : Byte) : Prop :=
  ((runAll (pitAfter io) m [.write 0x43 value, .write (pitPort i) lo,
    .write (pitPort i) hi]).fe2010.pit i).counter = wordOf lo hi

/-- Two reads after a counter-latch command give the counter at its time, whatever ticks come
between. -/
def Latches (m : Machine δ) (value : Byte) (i : Fin 3) (ticks ticks' : ℕ) : Prop :=
  let m₁ := executes io (pitAfter io m (.write 0x43 value)) ticks
  let m₂ := executes io (pitAfter io m₁ (.read (pitPort i))) ticks'
  pitByte io m₁ i = lowByte (m.fe2010.pit i).counter ∧
    pitByte io m₂ i = highByte (m.fe2010.pit i).counter

/-- A counter-latch command leaves the mode and the format in force. -/
def KeepsFormat (m : Machine δ) (value : Byte) (i : Fin 3) : Prop :=
  let p := (pitAfter io m (.write 0x43 value)).fe2010.pit i
  p.mode = (m.fe2010.pit i).mode ∧ p.rl = (m.fe2010.pit i).rl

variable {m : Machine δ} {value : Byte} {i : Fin 3} (hi : (value >>> 6).toNat = i)

include hi

/-- The bytes after a square-wave control word are loaded in order if the flip-flop is clear. -/
theorem loads_iff (h : value &&& 0x3F = 0x36) :
    (∀ lo hi, Loads io m value i lo hi) ↔ (m.fe2010.pit i).flipFlop = false := by
  have hcontrol := pit_control io m hi
  have hrl : ((m.fe2010.pit i).controlWrite value).rl = 3 := by
    rw [controlWrite_rl, ← controlRl_mask, h]
    decide
  -- the flip-flop is what the control word leaves alone, and it picks the half of each byte
  have hcounter : ∀ lo hi, ((runAll (pitAfter io) m [.write 0x43 value, .write (pitPort i) lo,
      .write (pitPort i) hi]).fe2010.pit i).counter =
        if (m.fe2010.pit i).flipFlop then wordOf hi lo else wordOf lo hi := by
    intro lo hi
    have hfirst : ((pitAfter io (pitAfter io m (.write 0x43 value))
        (.write (pitPort i) lo)).fe2010.pit i) =
        ((m.fe2010.pit i).controlWrite value).counterWrite lo := by
      have hne : ((pitAfter io m (.write 0x43 value)).fe2010.pit i).rl ≠ 0 := by
        rw [hcontrol, hrl]
        decide
      rw [pit_write io hne, setPit_self, hcontrol]
    have hne : ((pitAfter io (pitAfter io m (.write 0x43 value))
        (.write (pitPort i) lo)).fe2010.pit i).rl ≠ 0 := by
      rw [hfirst, counterWrite_of_words hrl]
      split_ifs
      all_goals
        show ((m.fe2010.pit i).controlWrite value).rl ≠ 0
        rw [hrl]
        decide
    rw [runAll_cons, runAll_cons, runAll_cons, runAll_nil, pit_write io hne, setPit_self, hfirst,
      counter_of_words hrl, controlWrite_flipFlop]
  constructor
  · intro hloads
    -- two bytes that differ tell the orders apart
    have hone := hloads 0 1
    rw [Loads, hcounter] at hone
    cases hff : (m.fe2010.pit i).flipFlop with
    | false => rfl
    | true =>
      rw [hff] at hone
      exact absurd hone (by decide)
  · intro hff lo hi
    rw [Loads, hcounter, hff]
    rfl

/-- A latch is read in the order of its bytes exactly when the flip-flop is clear, or when both
bytes are the same. -/
theorem latches_iff (h : controlRl value = 0) :
    (∀ ticks ticks', Latches io m value i ticks ticks') ↔
      (m.fe2010.pit i).flipFlop = false ∨
        lowByte (m.fe2010.pit i).counter = highByte (m.fe2010.pit i).counter := by
  -- the ticks in between count the counter down, but neither the latch nor the flip-flop
  have hbytes : ∀ ticks ticks', Latches io m value i ticks ticks' ↔
      (m.fe2010.pit i).flipFlop = false ∨
        lowByte (m.fe2010.pit i).counter = highByte (m.fe2010.pit i).counter := by
    intro ticks ticks'
    have hcontrol := pit_control io m hi
    have hticked := ticks_executes io (pitAfter io m (.write 0x43 value)) ticks i
    rw [hcontrol] at hticked
    unfold Latches
    dsimp only
    generalize executes io (pitAfter io m (.write 0x43 value)) ticks = m₁ at hticked ⊢
    have hrl : (m₁.fe2010.pit i).rl = 0 := by
      rw [Pit.rl, hticked.control]
      exact (controlWrite_rl _ value).trans h
    have hread := pit_read io m₁ i
    have hticked' := ticks_executes io (pitAfter io m₁ (.read (pitPort i))) ticks' i
    rw [hread.2, setPit_self] at hticked'
    generalize executes io (pitAfter io m₁ (.read (pitPort i))) ticks' = m₂ at hticked' ⊢
    have hread' := pit_read io m₂ i
    have hlatch : (m₁.fe2010.pit i).latch = (m.fe2010.pit i).counter := by
      rw [hticked.latch, controlWrite_latch _ h]
    have hff : (m₁.fe2010.pit i).flipFlop = (m.fe2010.pit i).flipFlop := by
      rw [hticked.flipFlop, controlWrite_flipFlop]
    rw [counterRead_of_latch hrl] at hread hticked'
    have hrl' : (m₂.fe2010.pit i).rl = 0 := by
      rw [Pit.rl, hticked'.control]
      split_ifs <;> exact hrl
    rw [counterRead_of_latch hrl'] at hread'
    rw [hread.1, hread'.1, hff, hticked'.flipFlop, hticked'.latch, hff]
    -- with the flip-flop set the high byte comes first
    cases (m.fe2010.pit i).flipFlop with
    | false => simp [hlatch]
    | true => simp [hlatch, eq_comm]
  constructor
  · intro hlatches
    exact (hbytes 0 0).mp (hlatches 0 0)
  · intro hcond ticks ticks'
    exact (hbytes ticks ticks').mpr hcond

theorem keepsFormat_iff (h : controlRl value = 0) :
    KeepsFormat io m value i ↔
      (m.fe2010.pit i).mode = controlMode value ∧ (m.fe2010.pit i).rl = 0 := by
  unfold KeepsFormat
  dsimp only
  rw [pit_control io m hi, controlWrite_mode, controlWrite_rl, h, eq_comm, eq_comm (a := 0)]

end Sequences

/-! ### All control words -/

section Control

variable (io : Devices δ)

/-- A control word starts the sequence of bytes that the guest expects after it. -/
def StartsSequence (m : Machine δ) : PitAccess → Prop
  | .write port value => port = 0x43 → ∀ i : Fin 3, (value >>> 6).toNat = i →
    (value &&& 0x3F = 0x36 → ∀ lo hi, Loads io m value i lo hi) ∧
      (controlRl value = 0 →
        (∀ ticks ticks', Latches io m value i ticks ticks') ∧ KeepsFormat io m value i)
  | _ => True

/-- A control word finds the flip-flop clear (or a counter whose bytes are equal), and a
counter-latch command a timer in its own mode that has no format. -/
def FindsAligned (m : Machine δ) : PitAccess → Prop
  | .write port value => port = 0x43 → ∀ i : Fin 3, (value >>> 6).toNat = i →
    (value &&& 0x3F = 0x36 → (m.fe2010.pit i).flipFlop = false) ∧
      (controlRl value = 0 →
        ((m.fe2010.pit i).flipFlop = false ∨
          lowByte (m.fe2010.pit i).counter = highByte (m.fe2010.pit i).counter) ∧
        (m.fe2010.pit i).mode = controlMode value ∧ (m.fe2010.pit i).rl = 0)
  | _ => True

theorem startsSequence_iff (m : Machine δ) (a : PitAccess) :
    StartsSequence io m a ↔ FindsAligned m a := by
  cases a with
  | read port => exact Iff.rfl
  | execute => exact Iff.rfl
  | write port value =>
    refine imp_congr_right fun _ => forall_congr' fun i => imp_congr_right fun hi => ?_
    refine and_congr (imp_congr_right fun h => loads_iff io hi h) ?_
    exact imp_congr_right fun h => and_congr (latches_iff io hi h) (keepsFormat_iff io hi h)

/-- **Timer sequences.** Along every run of port accesses and ticks, the control words start fresh
sequences and the latches keep the format exactly when each of them finds its timer aligned. -/
theorem pit_sequences_iff (m : Machine δ) (as : List PitAccess) :
    Along (pitAfter io) (StartsSequence io) m as ↔ Along (pitAfter io) FindsAligned m as :=
  along_congr (startsSequence_iff io) m as

end Control

/-- A timer of which one byte has been read, and which is programmed again. -/
def readAndProgram : List PitAccess := [.write 0x43 0x36, .read 0x40, .write 0x43 0x36]

/-- The second control word does not start afresh. -/
theorem pit_sequences_misaligned : ¬ ∀ (m : Machine Unit) (as : List PitAccess),
    Along (pitAfter Devices.none) (StartsSequence Devices.none) m as := by
  intro h
  have hstarts := (h (machineInit ()) readAndProgram).2.2.1 rfl 0 (by decide)
  have hloads := hstarts.1 (by decide) 0 1
  unfold Loads at hloads
  exact absurd hloads (by decide)

end Pc20iii
