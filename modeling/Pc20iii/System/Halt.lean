import Pc20iii.Program.Labelled
import Pc20iii.Fe2010.PitRate
import Pc20iii.System.Requests

/-!
# Halted runs

`HLT` stops the CPU until an interrupt: `i8088_execute` returns at once, and only `i8088_irq`
makes it run again. It does so before it looks at IF, so a request that is refused wakes the CPU
as well.

A run is a list of `HaltStep`s, the parts of which the steps of the machine consist
(`exists_run_of_step`): raises by the devices, passes of the pending loop, decrements of the
timers, calls of `i8088_execute`, and work that has nothing to do with interrupts.
`halted_waits_iff` says when a halted CPU stays halted until an interrupt is entered: with IF set
always, and with IF clear as long as no request passes the mask test.
-/

namespace Pc20iii

open StateProgram

variable {δ : Type}

/-! ### Steps -/

/-- What the chipset and the devices do beside their requests. -/
inductive Work : ∀ α : Type, M δ α → Prop
  | count (cycle : Fe2010 → ℕ) : Work Unit (modifyFe2010 fun f => { f with cycle := cycle f })
  | load (address : BitVec 32) : Work Byte (memRead .dma address)
  | store (address : BitVec 32) (v : Byte) : Work Unit (memWrite .dma address v)
  | own {α : Type} (f : Local δ α) : Work α (runLocal f)

/-- A part of a step of the machine. -/
inductive HaltStep (δ : Type) where
  /-- A call of `i8088_execute`. -/
  | execute (eaddr : Word) (fuel : ℕ)
  /-- A device calls `fe2010_irq`. -/
  | request (irqNo : Fin 8)
  /-- A call of `fe2010_keyboard_press`. -/
  | key (scancode : Byte)
  /-- A pass of the pending loop. -/
  | retry (irqNo : Fin 8)
  /-- A decrement of a timer. -/
  | tick (i : Fin 3)
  | work (x : M δ Unit) (h : Generated Work x)

/-- The machine after a part of a step. -/
def haltAfter (io : Devices δ) (m : Machine δ) : HaltStep δ → Machine δ
  | .execute eaddr fuel => (outcome (i8088Execute io eaddr fuel) m).2
  | .request irqNo => (outcome (fe2010Irq irqNo) m).2
  | .key scancode => (outcome (fe2010KeyboardPress scancode) m).2
  | .retry irqNo => (outcome (pendingPass irqNo) m).2
  | .tick i => (outcome (pitTick i) m).2
  | .work x _ => (outcome x m).2

/-- A request of the step passes the mask test of `fe2010_irq`. -/
def Passes (m : Machine δ) : HaltStep δ → Prop
  | .execute _ _ => False
  | .request irqNo => m.passes irqNo = true
  | .key _ => m.fe2010.ctrl.getLsbD 6 = true ∧ m.passes fe2010IrqKeyboard = true
  | .retry irqNo => m.fe2010.irqPending irqNo = true ∧ m.passes irqNo = true
  | .tick i => i = 0 ∧ m.counter = 1 ∧ m.passes fe2010IrqTimer = true
  | .work _ _ => False

/-- In the state `s` of a run from `m`, the CPU is halted, or an interrupt has been entered. -/
def Waits (m s : Machine δ) : Prop :=
  s.cpu.halt = true ∨ (entered m.log).length < (entered s.log).length

/-! ### The steps of the machine -/

section Bridge

variable {io : Devices δ}

instance work_dmaWrite (channelNo : Fin 4) (callback : Local δ Byte) :
    Generated Work (fe2010DmaWrite channelNo callback) := by
  have hown : Generated Work (runLocal callback) := .action _ (.own callback)
  have hstore (address : BitVec 32) (v : Byte) :
      Generated Work (memWrite .dma address v : M δ Unit) := .action _ (.store address v)
  unfold fe2010DmaWrite
  infer_instance

instance work_dmaRead (channelNo : Fin 4) (callback : Byte → Local δ Unit) :
    Generated Work (fe2010DmaRead channelNo callback) := by
  have hown (v : Byte) : Generated Work (runLocal (callback v)) := .action _ (.own _)
  have hload (address : BitVec 32) : Generated Work (memRead .dma address : M δ Byte) :=
    .action _ (.load address)
  unfold fe2010DmaRead
  infer_instance

/-- A program of a device is a run. -/
theorem exists_run_of_device {α : Type} {x : M δ α} (hx : Generated DeviceAction x)
    (m : Machine δ) : ∃ as, runAll (haltAfter io) m as = (outcome x m).2 := by
  induction hx generalizing m with
  | read => exact ⟨[], rfl⟩
  | ret a => exact ⟨[], rfl⟩
  | seq x f _ _ ihx ihf =>
    obtain ⟨as, has⟩ := ihx m
    obtain ⟨bs, hbs⟩ := ihf (outcome x m).1 (outcome x m).2
    refine ⟨as ++ bs, ?_⟩
    rw [runAll_append, has, hbs, outcome_bind]
  | action x h =>
    cases h with
    | irq irqNo => exact ⟨[.request irqNo], rfl⟩
    | keyboard scancode => exact ⟨[.key scancode], rfl⟩
    | dmaWrite channelNo callback => exact ⟨[.work _ (work_dmaWrite channelNo callback)], rfl⟩
    | dmaRead channelNo callback => exact ⟨[.work _ (work_dmaRead channelNo callback)], rfl⟩
    | own f =>
      -- the value is not used
      exact ⟨[.work (runLocal fun x => ((), (f x).2)) (.action _ (.own _))], rfl⟩

theorem exists_run_forM {β : Type} {f : β → M δ PUnit} (label : β → HaltStep δ)
    (h : ∀ b m, haltAfter io m (label b) = (outcome (f b) m).2) (l : List β) (m : Machine δ) :
    runAll (haltAfter io) m (l.map label) = (outcome (l.forM f) m).2 := by
  induction l generalizing m with
  | nil => rfl
  | cons b l ih => rw [List.map_cons, runAll_cons, ih, outcome_forM_cons, h]

/-- A call of `fe2010_execute` is a run. -/
theorem exists_run_of_chipset (m : Machine δ) :
    ∃ as, runAll (haltAfter io) m as = (outcome fe2010Execute m).2 := by
  have hcount : Generated Work
      (modifyFe2010 fun f => { f with cycle := f.cycle + 1 } : M δ Unit) :=
    .action _ (.count fun f => f.cycle + 1)
  have hreset : Generated Work (modifyFe2010 fun f => { f with cycle := 0 } : M δ Unit) :=
    .action _ (.count fun _ => 0)
  by_cases hcycle : m.fe2010.cycle + 1 > 6
  case neg =>
    refine ⟨[.work _ hcount], ?_⟩
    simp only [fe2010Execute, outcome_bind, outcome_get, outcome_ite, outcome_modifyFe2010,
      outcome_pure]
    rw [if_neg hcycle]
    rfl
  case pos =>
    -- every seventh call retries the pending requests and ticks the counters three times
    refine ⟨[.work _ hcount, .work _ hreset] ++ [0, 1, 2, 3, 4, 5, 6, 7].map .retry ++
      [0, 1, 2, 0, 1, 2, 0, 1, 2].map .tick, ?_⟩
    rw [runAll_append, runAll_append, exists_run_forM .tick fun _ _ => rfl,
      exists_run_forM .retry fun _ _ => rfl]
    simp only [fe2010Execute, outcome_bind, outcome_get, outcome_ite, outcome_modifyFe2010,
      outcome_pure]
    rw [if_pos hcycle]
    rfl

/-- Every step of the machine is a run. -/
theorem exists_run_of_step {allowed : Byte → Prop} {m m' : Machine δ}
    (h : Step io allowed m m') : ∃ as, runAll (haltAfter io) m as = m' := by
  cases h with
  | execute eaddr fuel m _ => exact ⟨[.execute eaddr fuel], rfl⟩
  | chipset m => exact exists_run_of_chipset m
  | device hx m => exact exists_run_of_device hx m

/-- And so is every run of the machine. -/
theorem exists_run_of_run {m m' : Machine δ} (h : Run io m m') :
    ∃ as, runAll (haltAfter io) m as = m' := by
  induction h with
  | refl => exact ⟨[], rfl⟩
  | tail _ hstep ih =>
    obtain ⟨as, has⟩ := ih
    obtain ⟨bs, hbs⟩ := exists_run_of_step hstep
    exact ⟨as ++ bs, by rw [runAll_append, has, hbs]⟩

end Bridge

/-! ### One step of a halted machine -/

/-- The two machines have the same CPU, and the same interrupts entered. -/
def SameCpu (m m' : Machine δ) : Prop := m'.cpu = m.cpu ∧ entered m'.log = entered m.log

theorem SameCpu.trans {m₁ m₂ m₃ : Machine δ} (h : SameCpu m₁ m₂) (h' : SameCpu m₂ m₃) :
    SameCpu m₁ m₃ :=
  ⟨h'.1.trans h.1, h'.2.trans h.2⟩

/-- Work leaves the CPU alone, and enters nothing. -/
theorem work_keeps {α : Type} {x : M δ α} (hx : Generated Work x) (m : Machine δ) :
    SameCpu m (outcome x m).2 := by
  refine Generated.rel (R := SameCpu) (fun _ => ⟨rfl, rfl⟩) SameCpu.trans ?_ hx m
  intro α x hx m
  cases hx with
  | count cycle => exact ⟨rfl, rfl⟩
  | load address =>
    unfold memRead
    split <;> exact ⟨rfl, rfl⟩
  -- a store outside memory is reported, and that is no entry
  | store address v =>
    obtain ⟨es, hes, hplain⟩ := (@plain_dmaStore δ true true address v m).log
    refine ⟨?_, by rw [hes, entered_plain hplain]⟩
    unfold memWrite
    split
    · rfl
    · simp only [outcome_bind, outcome_get, outcome_ite, outcome_modify, outcome_pure]
      split <;> rfl
  | own f =>
    obtain ⟨es, hes, hplain⟩ := (@plain_own δ true true _ f m).log
    exact ⟨rfl, by rw [hes, entered_plain hplain]⟩

/-- A step of a halted machine that makes no request, or one that fails the mask test. -/
def QuietStep (io : Devices δ) (m : Machine δ) (a : HaltStep δ) : Prop :=
  ¬Passes m a ∧ SameCpu m (haltAfter io m a)

/-- A step of a halted machine that makes a request which passes the mask test. -/
def RaisedStep (io : Devices δ) (m : Machine δ) (a : HaltStep δ) : Prop :=
  Passes m a ∧ ∃ (irqNo : Fin 8) (m₁ : Machine δ), SameCpu m m₁ ∧ m₁.passes irqNo = true ∧
    haltAfter io m a = (outcome (fe2010Irq irqNo) m₁).2

/-- A request made after some work is quiet or raised as the mask test says. -/
theorem quiet_or_raised_of_irq {io : Devices δ} {m n : Machine δ} {a : HaltStep δ}
    {irqNo : Fin 8} (hsame : SameCpu m n)
    (hafter : haltAfter io m a = (outcome (fe2010Irq irqNo) n).2)
    (hpasses : Passes m a ↔ n.passes irqNo = true) : QuietStep io m a ∨ RaisedStep io m a := by
  cases hp : n.passes irqNo with
  | false =>
    refine .inl ⟨fun h => absurd (hpasses.1 h) (by rw [hp]; exact nofun), ?_⟩
    rw [hafter, outcome_fe2010Irq_of_fail irqNo hp]
    exact hsame
  | true => exact .inr ⟨hpasses.2 hp, irqNo, n, hsame, hp, hafter⟩

theorem outcome_fe2010KeyboardPress (scancode : Byte) (m : Machine δ) :
    outcome (fe2010KeyboardPress scancode) m =
      if m.fe2010.ctrl.getLsbD 6 then
        outcome (fe2010Irq fe2010IrqKeyboard)
          { m with fe2010 := { m.fe2010 with scancode := scancode } }
      else ((), m) := by
  simp only [fe2010KeyboardPress, outcome_bind, outcome_get, outcome_ite, outcome_modifyFe2010,
    outcome_pure]

/-- What a step does to a halted machine. -/
theorem quiet_or_raised (io : Devices δ) {m : Machine δ} (hhalt : m.cpu.halt = true)
    (a : HaltStep δ) : QuietStep io m a ∨ RaisedStep io m a := by
  cases a with
  | execute eaddr fuel =>
    refine .inl ⟨id, ?_⟩
    rw [haltAfter, outcome_i8088Execute_of_halt io eaddr fuel hhalt]
    exact ⟨rfl, rfl⟩
  | work x hx => exact .inl ⟨id, work_keeps hx m⟩
  | request irqNo => exact quiet_or_raised_of_irq ⟨rfl, rfl⟩ rfl Iff.rfl
  -- a key raises IRQ 1 if the keyboard clock is on
  | key scancode =>
    have hkey := congrArg Prod.snd (outcome_fe2010KeyboardPress scancode m)
    split at hkey
    case isTrue hclock =>
      exact quiet_or_raised_of_irq
        (n := { m with fe2010 := { m.fe2010 with scancode := scancode } })
        ⟨rfl, rfl⟩ hkey (and_iff_right hclock)
    case isFalse hclock =>
      refine .inl ⟨fun h => hclock h.1, ?_⟩
      rw [haltAfter, hkey]
      exact ⟨rfl, rfl⟩
  | retry irqNo =>
    have hretry := congrArg Prod.snd (outcome_pendingPass irqNo m)
    split at hretry
    case isTrue hpending =>
      exact quiet_or_raised_of_irq (n := { m with log := .irqRetry irqNo :: m.log })
        ⟨rfl, rfl⟩ hretry (and_iff_right hpending)
    case isFalse hpending =>
      refine .inl ⟨fun h => hpending h.1, ?_⟩
      rw [haltAfter, hretry]
      exact ⟨rfl, rfl⟩
  -- only counter 0 raises an interrupt, when it runs out
  | tick i =>
    by_cases hraises : i = 0 ∧ m.counter - 1 = 0
    case pos =>
      obtain ⟨rfl, hzero⟩ := hraises
      have htick := congrArg Prod.snd (outcome_pitTick_zero m)
      rw [if_pos hzero] at htick
      refine quiet_or_raised_of_irq (n := m.decremented 0) ⟨rfl, rfl⟩ htick ?_
      exact (and_iff_right rfl).trans (and_iff_right ((counter_sub_one_iff _).1 hzero))
    case neg =>
      refine .inl ⟨fun h => hraises ⟨h.1, (counter_sub_one_iff _).2 h.2.1⟩, ?_⟩
      rw [haltAfter, outcome_pitTick]
      split_ifs with hzero hi
      · subst hi
        exact absurd ⟨rfl, hzero⟩ hraises
      all_goals exact ⟨rfl, rfl⟩

/-! ### Runs -/

/-- A request that passes enters its interrupt, or wakes the CPU all the same. -/
theorem raised_cases {io : Devices δ} {m : Machine δ} {a : HaltStep δ} (h : RaisedStep io m a) :
    (m.cpu.flags.i = true ∧
      (entered m.log).length < (entered (haltAfter io m a).log).length) ∨
    (m.cpu.flags.i = false ∧ (haltAfter io m a).cpu.halt = false ∧
      entered (haltAfter io m a).log = entered m.log) := by
  obtain ⟨-, irqNo, m₁, ⟨hcpu, hentered⟩, hpasses, hafter⟩ := h
  rw [hafter, ← hcpu, ← hentered]
  -- the flag decides between entering and waking
  cases hi : m₁.cpu.flags.i with
  | true =>
    rw [outcome_fe2010Irq_of_set irqNo hpasses hi]
    exact .inl ⟨rfl, Nat.lt_succ_self _⟩
  | false =>
    rw [outcome_fe2010Irq_of_clear irqNo hpasses hi]
    exact .inr ⟨rfl, rfl, rfl⟩

/-- No step takes an entry out of the history. -/
theorem entered_length_le (io : Devices δ) (m : Machine δ) (a : HaltStep δ) :
    (entered m.log).length ≤ (entered (haltAfter io m a).log).length := by
  -- a request adds an entry or nothing
  have hirq : ∀ (m : Machine δ) (irqNo : Fin 8),
      (entered m.log).length ≤ (entered (outcome (fe2010Irq irqNo) m).2.log).length := by
    intro m irqNo
    rcases fe2010Irq_cases irqNo m with ⟨-, h⟩ | ⟨-, -, h⟩ | ⟨-, -, h⟩ <;> rw [h]
    · exact Nat.le_refl _
    · exact Nat.le_refl _
    · exact Nat.le_succ _
  have hretry : ∀ (m : Machine δ) (irqNo : Fin 8),
      (entered m.log).length ≤ (entered (outcome (pendingPass irqNo) m).2.log).length := by
    intro m irqNo
    rw [outcome_pendingPass]
    split
    · exact hirq { m with log := .irqRetry irqNo :: m.log } irqNo
    · exact Nat.le_refl _
  -- the other steps of an instruction add none
  have hplain : ∀ {m m' : Machine δ}, Plain true true m m' →
      (entered m.log).length ≤ (entered m'.log).length := by
    intro m m' h
    obtain ⟨es, hes, hes'⟩ := h.log
    rw [hes, entered_plain hes']
  cases a with
  | execute eaddr fuel =>
    have hstep : Step io (fun _ => True) m (outcome (i8088Execute io eaddr fuel) m).2 :=
      .execute eaddr fuel m fun _ _ => trivial
    exact Step.rel (R := fun m m' => (entered m.log).length ≤ (entered m'.log).length)
      (fun _ => Nat.le_refl _) Nat.le_trans hplain hirq hretry rfl (fun _ _ _ => rfl) hstep
  | request irqNo => exact hirq m irqNo
  | key scancode =>
    rw [haltAfter, outcome_fe2010KeyboardPress]
    split
    · exact hirq { m with fe2010 := { m.fe2010 with scancode := scancode } } _
    · exact Nat.le_refl _
  | retry irqNo => exact hretry m irqNo
  | tick i =>
    rw [haltAfter, outcome_pitTick]
    split_ifs
    · exact hirq (m.decremented i) _
    all_goals exact Nat.le_refl _
  | work x hx => exact Nat.le_of_eq (congrArg List.length (work_keeps hx m).2.symm)

/-- With IF clear a halted run waits exactly as long as no request passes the mask test. -/
theorem waits_iff_of_clear (io : Devices δ) {m : Machine δ} (hhalt : m.cpu.halt = true)
    (hi : m.cpu.flags.i = false) (as : List (HaltStep δ)) :
    Along (haltAfter io) (fun s a => Waits m (haltAfter io s a)) m as ↔
      Along (haltAfter io) (fun s a => ¬Passes s a) m as := by
  refine along_iff (I := SameCpu m) (fun s a hs ha => ?_) (fun s a hs => ?_) ⟨rfl, rfl⟩ as
  · have hhalt' : s.cpu.halt = true := by rw [hs.1, hhalt]
    rcases quiet_or_raised io hhalt' a with hquiet | hraised
    · exact hs.trans hquiet.2
    · exact absurd hraised.1 ha
  · have hhalt' : s.cpu.halt = true := by rw [hs.1, hhalt]
    rcases quiet_or_raised io hhalt' a with hquiet | hraised
    · refine iff_of_true (.inl ?_) hquiet.1
      rw [hquiet.2.1, hhalt']
    · refine iff_of_false ?_ (not_not_intro hraised.1)
      -- with IF clear a request wakes the CPU and enters nothing
      rcases raised_cases hraised with ⟨hset, -⟩ | ⟨-, hwoken, hentered⟩
      · rw [hs.1, hi] at hset
        cases hset
      · rintro (hhalted | hmore)
        · rw [hwoken] at hhalted
          cases hhalted
        · rw [hentered, hs.2] at hmore
          exact Nat.lt_irrefl _ hmore

/-- With IF set it always waits. -/
theorem waits_of_set (io : Devices δ) {m : Machine δ} (hhalt : m.cpu.halt = true)
    (hi : m.cpu.flags.i = true) (as : List (HaltStep δ)) :
    Along (haltAfter io) (fun s a => Waits m (haltAfter io s a)) m as := by
  -- the CPU is as it was, or has been woken by an entry
  have hstep : ∀ s a, SameCpu m s ∨ (entered m.log).length < (entered s.log).length →
      SameCpu m (haltAfter io s a) ∨
        (entered m.log).length < (entered (haltAfter io s a).log).length := by
    rintro s a (hs | hs)
    · have hhalt' : s.cpu.halt = true := by rw [hs.1, hhalt]
      rcases quiet_or_raised io hhalt' a with hquiet | hraised
      · exact .inl (hs.trans hquiet.2)
      · rcases raised_cases hraised with ⟨-, hmore⟩ | ⟨hclear, -⟩
        · exact .inr (hs.2 ▸ hmore)
        · rw [hs.1, hi] at hclear
          cases hclear
    · exact .inr (Nat.lt_of_lt_of_le hs (entered_length_le io s a))
  refine along_of_invariant hstep (fun s a hs => ?_) (.inl ⟨rfl, rfl⟩) as
  rcases hstep s a hs with hsame | hmore
  · exact .inl (by rw [hsame.1, hhalt])
  · exact .inr hmore

/-- **A halted CPU waits for an interrupt.** In every run from a halted state the CPU stays
halted until an interrupt is entered, with IF set always, and with IF clear if and only if no
request of the run passes the mask test. -/
theorem halted_waits_iff (io : Devices δ) {m : Machine δ} (hhalt : m.cpu.halt = true)
    (as : List (HaltStep δ)) :
    Along (haltAfter io) (fun s a => Waits m (haltAfter io s a)) m as ↔
      (m.cpu.flags.i = false → Along (haltAfter io) (fun s a => ¬Passes s a) m as) := by
  cases hi : m.cpu.flags.i with
  | true => exact iff_of_true (waits_of_set io hhalt hi as) nofun
  | false => exact (waits_iff_of_clear io hhalt hi as).trans (imp_iff_right rfl).symm

/-- A machine with IF clear and the keyboard masked that has executed `HLT`. -/
def haltedMachine : Machine Unit :=
  (outcome (i8088Execute Devices.none 0 1)
    { machineWith [0xF4] with fe2010 := { fe2010Init with irqMask := 0x02 } }).2

/-- A request of the printer, which the mask test refuses, leaves it halted. -/
theorem halted_waits_iff_printer :
    Along (haltAfter Devices.none) (fun s a => Waits haltedMachine (haltAfter Devices.none s a))
      haltedMachine [.request 7, .execute 0 1] :=
  (halted_waits_iff Devices.none rfl _).2 fun _ => ⟨nofun, id, trivial⟩

/-- One of the timer wakes it, and is refused. -/
theorem halted_woken : ¬ ∀ (m : Machine Unit) (as : List (HaltStep Unit)), m.cpu.halt = true →
    Along (haltAfter Devices.none) (fun s a => Waits m (haltAfter Devices.none s a)) m as := by
  intro h
  have hwaits := h haltedMachine [.request 0] rfl
  rw [waits_iff_of_clear Devices.none rfl rfl] at hwaits
  exact hwaits.1 rfl

end Pc20iii
