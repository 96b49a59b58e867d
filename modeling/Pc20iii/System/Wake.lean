import Pc20iii.System.Halt
import Pc20iii.System.Safety

/-!
# The end of a halt

A guest that waits with `HLT` relies on the timer. While the CPU is halted the loop of `main`
still polls the chipset, and every seventh poll decrements timer 0 three times. When its counter
reaches 0 the timer asks for its interrupt, which is entered with IF set and the mask test passed.

Nothing else is needed (`main_wakes`): what the devices do to their own state leaves the counter
alone, and a request of theirs can only end the halt earlier.

The mask test is the one of `fe2010_irq`, which shifts the whole mask: for the timer, on line 0, it
passes as long as any bit of the mask register is set, the bit of the timer or another.

* `Elapsed n`: between two machines a waiting CPU has seen `n` decrements and no interrupt.
* `Advances n`: a program does that, or enters an interrupt. Programs in sequence add up.
* `Machine.passesLeft`: the passes of the loop that are left. Each takes one away.
-/

namespace Pc20iii

open StateProgram

variable {δ η : Type}

/-- The CPU waits for an interrupt, and the mask test of `fe2010_irq` passes for the timer. -/
structure Machine.Waiting (m : Machine δ) : Prop where
  halt : m.cpu.halt = true
  i : m.cpu.flags.i = true
  mask : m.passes fe2010IrqTimer = true

/-- The decrements up to the next request of the timer. -/
def Machine.ticksLeft (m : Machine δ) : ℕ := (m.counter - 1).toNat + 1

/-- An interrupt has been entered between two machines. -/
def Entered (m m' : Machine δ) : Prop := (entered m.log).length < (entered m'.log).length

/-- Timer 0 has been decremented `n` times between two machines, and nothing else that a waiting
CPU notices has happened. -/
structure Elapsed (n : ℕ) (m m' : Machine δ) : Prop where
  cpu : m'.cpu = m.cpu
  irqMask : m'.fe2010.irqMask = m.fe2010.irqMask
  cycle : m'.fe2010.cycle = m.fe2010.cycle
  entered : entered m'.log = entered m.log
  ticks : m'.ticksLeft + n = m.ticksLeft

namespace Elapsed

variable {n k : ℕ} {m m₁ m₂ m₃ : Machine δ}

theorem trans (h : Elapsed n m₁ m₂) (h' : Elapsed k m₂ m₃) : Elapsed (n + k) m₁ m₃ where
  cpu := h'.cpu.trans h.cpu
  irqMask := h'.irqMask.trans h.irqMask
  cycle := h'.cycle.trans h.cycle
  entered := h'.entered.trans h.entered
  ticks := by rw [← h.ticks, ← h'.ticks, Nat.add_assoc, Nat.add_comm k n]

theorem waiting (h : Elapsed n m₁ m₂) (hm : m₁.Waiting) : m₂.Waiting :=
  ⟨h.cpu ▸ hm.halt, h.cpu ▸ hm.i, by rw [Machine.passes, h.irqMask]; exact hm.mask⟩

end Elapsed

/-! ### Programs -/

/-- A program lets `n` decrements elapse for a waiting CPU, or enters an interrupt. It never takes
an entry out of the history. -/
structure Advances (n : ℕ) {α : Type} (x : M δ α) : Prop where
  grows : ∀ m, (entered m.log).length ≤ (entered (outcome x m).2.log).length
  elapsed : ∀ m, m.Waiting → Elapsed n m (outcome x m).2 ∨ Entered m (outcome x m).2

namespace Advances

variable {α β : Type} {n k : ℕ}

theorem of_elapsed {x : M δ α} (h : ∀ m, Elapsed n m (outcome x m).2) : Advances n x where
  grows m := Nat.le_of_eq (congrArg List.length (h m).entered.symm)
  elapsed m _ := .inl (h m)

theorem pure (a : α) : Advances 0 (Pure.pure a : M δ α) :=
  .of_elapsed fun _ => ⟨rfl, rfl, rfl, rfl, rfl⟩

theorem get : Advances 0 (get : M δ (Machine δ)) :=
  .of_elapsed fun _ => ⟨rfl, rfl, rfl, rfl, rfl⟩

/-- Programs in sequence add up. -/
theorem bind {x : M δ α} {f : α → M δ β} (hx : Advances n x) (hf : ∀ a, Advances k (f a)) :
    Advances (n + k) (x >>= f) where
  grows m := by
    rw [outcome_bind]
    exact Nat.le_trans (hx.grows m) ((hf _).grows _)
  elapsed m hm := by
    rw [outcome_bind]
    rcases hx.elapsed m hm with helapsed | hentered
    -- either part may enter an interrupt, and then nothing is asked of the rest
    · rcases (hf _).elapsed _ (helapsed.waiting hm) with helapsed' | hentered'
      · exact .inl (helapsed.trans helapsed')
      · refine .inr ?_
        unfold Entered at *
        rwa [← helapsed.entered]
    · exact .inr (Nat.lt_of_lt_of_le hentered ((hf _).grows _))

theorem ite {c : Prop} [Decidable c] {x y : M δ α} (hx : Advances n x) (hy : Advances n y) :
    Advances n (if c then x else y) := by
  split
  · exact hx
  · exact hy

theorem forM {f : β → M δ PUnit} {ticks : β → ℕ} (hf : ∀ b, Advances (ticks b) (f b))
    (l : List β) : Advances (l.map ticks).sum (l.forM f) := by
  induction l with
  | nil => exact pure ()
  | cons b l ih =>
    rw [List.map_cons, List.sum_cons]
    exact (hf b).bind fun _ => ih

/-- What is generated by programs that take no time takes none. -/
theorem generated {G : ∀ α : Type, M δ α → Prop}
    (hact : ∀ {α : Type} {x : M δ α}, G α x → Advances 0 x) {x : M δ α} (hx : Generated G x) :
    Advances 0 x := by
  induction hx with
  | action x h => exact hact h
  | read => exact get
  | ret a => exact pure a
  | seq x f _ _ ihx ihf => exact ihx.bind ihf

/-! ### Devices -/

/-- A request is refused by the mask test, or entered. -/
theorem irq (irqNo : Fin 8) : Advances 0 (fe2010Irq irqNo : M δ Unit) := by
  have hcases : ∀ m : Machine δ,
      (entered m.log).length ≤ (entered (outcome (fe2010Irq irqNo) m).2.log).length ∧
        (m.Waiting → Elapsed 0 m (outcome (fe2010Irq irqNo) m).2 ∨
          Entered m (outcome (fe2010Irq irqNo) m).2) := by
    intro m
    rcases fe2010Irq_cases irqNo m with ⟨-, h⟩ | ⟨-, hi, h⟩ | ⟨-, -, h⟩ <;> rw [h]
    · exact ⟨Nat.le_refl _, fun _ => .inl ⟨rfl, rfl, rfl, rfl, rfl⟩⟩
    · -- with IF clear it would be left pending
      exact ⟨Nat.le_refl _, fun hm => absurd (hm.i.symm.trans hi) (by decide)⟩
    · exact ⟨Nat.le_succ _, fun _ => .inr (Nat.lt_succ_self _)⟩
  exact ⟨fun m => (hcases m).1, fun m => (hcases m).2⟩

theorem dmaLoad (address : BitVec 32) : Advances 0 (memRead .dma address : M δ Byte) := by
  refine .of_elapsed fun m => ?_
  rw [outcome_memRead]
  split <;> exact ⟨rfl, rfl, rfl, rfl, rfl⟩

theorem dmaStore (address : BitVec 32) (v : Byte) :
    Advances 0 (memWrite .dma address v : M δ Unit) := by
  refine .of_elapsed fun m => ?_
  unfold memWrite
  split
  · exact ⟨rfl, rfl, rfl, rfl, rfl⟩
  · simp only [outcome_bind, outcome_get, outcome_ite, outcome_modify, outcome_pure]
    split <;> exact ⟨rfl, rfl, rfl, rfl, rfl⟩

theorem own (f : Local δ α) : Advances 0 (runLocal f) := by
  refine .of_elapsed fun m => ?_
  obtain ⟨es, hes, hplain⟩ := (@plain_own δ true true _ f m).log
  exact ⟨rfl, rfl, rfl, by rw [hes, entered_plain hplain], rfl⟩

theorem dmaWrite (channelNo : Fin 4) (callback : Local δ Byte) :
    Advances 0 (fe2010DmaWrite channelNo callback) := by
  have hown : Generated (fun _ => Advances 0) (runLocal callback) := .action _ (own callback)
  have hstore (address : BitVec 32) (v : Byte) :
      Generated (fun _ => Advances 0) (memWrite .dma address v : M δ Unit) :=
    .action _ (dmaStore address v)
  have hgen : Generated (fun _ => Advances 0) (fe2010DmaWrite channelNo callback) := by
    unfold fe2010DmaWrite
    infer_instance
  exact generated (fun h => h) hgen

theorem dmaRead (channelNo : Fin 4) (callback : Byte → Local δ Unit) :
    Advances 0 (fe2010DmaRead channelNo callback) := by
  have hown (v : Byte) : Generated (fun _ => Advances 0) (runLocal (callback v)) :=
    .action _ (own _)
  have hload (address : BitVec 32) :
      Generated (fun _ => Advances 0) (memRead .dma address : M δ Byte) :=
    .action _ (dmaLoad address)
  have hgen : Generated (fun _ => Advances 0) (fe2010DmaRead channelNo callback) := by
    unfold fe2010DmaRead
    infer_instance
  exact generated (fun h => h) hgen

/-- Devices take no time. -/
theorem device {x : M δ α} (hx : Generated DeviceAction x) : Advances 0 x := by
  refine generated (fun h => ?_) hx
  cases h with
  | irq irqNo => exact irq irqNo
  | keyboard scancode =>
    have hscancode : Advances 0
        (modifyFe2010 fun f => { f with scancode := scancode } : M δ Unit) :=
      .of_elapsed fun _ => ⟨rfl, rfl, rfl, rfl, rfl⟩
    exact get.bind fun m => .ite (hscancode.bind fun _ => irq _) (pure ())
  | dmaWrite channelNo callback => exact dmaWrite channelNo callback
  | dmaRead channelNo callback => exact dmaRead channelNo callback
  | own f => exact own f

/-! ### The chipset -/

theorem pending : Advances 0 (pendingLoop : M δ Unit) := by
  have hmark (irqNo : Fin 8) : Advances 0 (record (.irqRetry irqNo) : M δ Unit) :=
    .of_elapsed fun _ => ⟨rfl, rfl, rfl, rfl, rfl⟩
  have hpass (irqNo : Fin 8) : Advances 0 (pendingPass irqNo : M δ Unit) :=
    get.bind fun m => .ite ((hmark irqNo).bind fun _ => irq irqNo) (pure ())
  exact forM hpass [0, 1, 2, 3, 4, 5, 6, 7]

/-- A decrement of timer 0 brings its request nearer, or makes it. -/
theorem tick (i : Fin 3) : Advances (if i = 0 then 1 else 0) (pitTick i : M δ Unit) := by
  by_cases hi : i = 0
  case neg =>
    rw [if_neg hi]
    have hcounter : ∀ m : Machine δ, (m.decremented i).counter = m.counter := fun m =>
      congrArg Pit.counter (decremented_pit_of_ne m fun h => hi h.symm)
    have hticks : ∀ m : Machine δ, (m.decremented i).ticksLeft = m.ticksLeft := fun m => by
      rw [Machine.ticksLeft, hcounter, Machine.ticksLeft]
    refine .of_elapsed fun m => ?_
    rw [outcome_pitTick, if_neg hi]
    split_ifs <;> exact ⟨rfl, rfl, rfl, rfl, hticks m⟩
  case pos =>
    subst hi
    rw [if_pos rfl]
    have hpasses : ∀ m : Machine δ, m.Waiting → (m.decremented 0).passes fe2010IrqTimer = true :=
      fun _ hm => hm.mask
    have hcounter : ∀ m : Machine δ, (m.decremented 0).counter = m.counter - 1 := fun m =>
      congrArg Pit.counter (decremented_pit m 0)
    constructor
    · intro m
      rw [outcome_pitTick_zero]
      split
      · exact (irq fe2010IrqTimer).grows (m.decremented 0)
      · exact Nat.le_refl _
    · intro m hm
      rw [outcome_pitTick_zero]
      by_cases hzero : m.counter - 1 = 0
      case pos =>
        -- the counter has run out
        rw [if_pos hzero, outcome_fe2010Irq_of_set _ (hpasses m hm) hm.i]
        exact .inr (Nat.lt_succ_self _)
      case neg =>
        rw [if_neg hzero]
        refine .inl ⟨rfl, rfl, rfl, rfl, ?_⟩
        unfold Machine.ticksLeft
        rw [hcounter]
        bv_omega

theorem timers : Advances 3 (pitLoop : M δ Unit) := forM tick [0, 1, 2, 0, 1, 2, 0, 1, 2]

end Advances

/-! ### The loop -/

/-- The passes up to the next request of the timer: seven for three decrements, less those that
`fe2010_execute` has already counted. -/
def Machine.passesLeft (m : Machine δ) : ℕ := 7 * ((m.ticksLeft + 2) / 3) - min m.fe2010.cycle 6

/-- A poll of the chipset. -/
theorem outcome_fe2010Execute (m : Machine δ) :
    (outcome fe2010Execute m).2 =
      if m.fe2010.cycle + 1 > 6 then
        (outcome (do pendingLoop; pitLoop : M δ Unit)
          { m with fe2010 := { m.fe2010 with cycle := 0 } }).2
      else { m with fe2010 := { m.fe2010 with cycle := m.fe2010.cycle + 1 } } := by
  simp only [fe2010Execute, outcome_bind, outcome_modifyFe2010, outcome_get, outcome_ite,
    outcome_pure]
  split <;> rfl

/-- It takes one of the passes away, or enters an interrupt. -/
theorem passesLeft_fe2010Execute {m : Machine δ} (hm : m.Waiting) :
    Entered m (outcome fe2010Execute m).2 ∨
      (outcome fe2010Execute m).2.Waiting ∧
        entered (outcome fe2010Execute m).2.log = entered m.log ∧
        (outcome fe2010Execute m).2.passesLeft + 1 = m.passesLeft := by
  have hticks : 0 < m.ticksLeft := Nat.succ_pos _
  rw [outcome_fe2010Execute]
  by_cases hcycle : m.fe2010.cycle + 1 > 6
  case neg =>
    rw [if_neg hcycle]
    refine .inr ⟨⟨hm.halt, hm.i, hm.mask⟩, rfl, ?_⟩
    unfold Machine.passesLeft
    change 7 * ((m.ticksLeft + 2) / 3) - min (m.fe2010.cycle + 1) 6 + 1 = _
    omega
  case pos =>
    rw [if_pos hcycle]
    -- one call in seven does the pending requests and three ticks
    have hloops : Advances 3 (do pendingLoop; pitLoop : M δ Unit) :=
      Advances.pending.bind fun _ => Advances.timers
    obtain ⟨m₁, hm₁⟩ : ∃ m₁ : Machine δ, { m with fe2010 := { m.fe2010 with cycle := 0 } } = m₁ :=
      ⟨_, rfl⟩
    have hwaiting : m₁.Waiting := hm₁ ▸ ⟨hm.halt, hm.i, hm.mask⟩
    have hlog : m₁.log = m.log := by rw [← hm₁]
    have hleft : m₁.ticksLeft = m.ticksLeft := by
      rw [← hm₁]
      rfl
    have hcycle₁ : m₁.fe2010.cycle = 0 := by rw [← hm₁]
    rw [hm₁]
    rcases hloops.elapsed m₁ hwaiting with helapsed | hentered
    · refine .inr ⟨helapsed.waiting hwaiting, helapsed.entered.trans (congrArg entered hlog), ?_⟩
      have hthree := helapsed.ticks
      have hzero := helapsed.cycle
      generalize (outcome (do pendingLoop; pitLoop : M δ Unit) m₁).2 = m' at hthree hzero
      have hpos : 0 < m'.ticksLeft := Nat.succ_pos _
      unfold Machine.passesLeft
      omega
    · refine .inl ?_
      unfold Entered at *
      rwa [← hlog]

/-- So does a pass of the loop. -/
theorem passesLeft_mainPass (s : Setting η) (cycle : BitVec 32) (p : Pass)
    {m : Machine (Peripherals η)} (hm : m.Waiting) :
    Entered m (outcome (mainPass s cycle p) m).2 ∨
      (outcome (mainPass s cycle p) m).2.Waiting ∧
        entered (outcome (mainPass s cycle p) m).2.log = entered m.log ∧
        (outcome (mainPass s cycle p) m).2.passesLeft + 1 = m.passesLeft := by
  have hdevices : Advances 0 (mainDevices s cycle p) :=
    .device (generated_mainDevices s cycle p)
  -- the halted CPU does nothing, so the chipset is next
  have hpass : (outcome (mainPass s cycle p) m).2 =
      (outcome (mainDevices s cycle p) (outcome fe2010Execute m).2).2 := by
    unfold mainPass
    rw [outcome_bind, outcome_i8088Execute_of_halt s.devices p.eaddr p.fuel hm.halt]
    rfl
  rw [hpass]
  rcases passesLeft_fe2010Execute hm with hentered | ⟨hwaiting, hlog, hleft⟩
  · exact .inl (Nat.lt_of_lt_of_le hentered (hdevices.grows _))
  · rcases hdevices.elapsed _ hwaiting with helapsed | hentered
    · refine .inr ⟨helapsed.waiting hwaiting, helapsed.entered.trans hlog, ?_⟩
      rw [← hleft]
      unfold Machine.passesLeft
      rw [helapsed.cycle, ← helapsed.ticks]
    · refine .inl ?_
      unfold Entered at *
      rwa [← hlog]

/-- No run takes an entry out of the history. -/
theorem entered_run {io : Devices δ} {m m' : Machine δ} (h : Run io m m') :
    (entered m.log).length ≤ (entered m'.log).length := by
  obtain ⟨as, rfl⟩ := exists_run_of_run h
  exact runAll_invariant (I := fun n : Machine δ =>
      (entered m.log).length ≤ (entered n.log).length)
    (fun n a hn => Nat.le_trans hn (entered_length_le io n a)) (Nat.le_refl _) as

/-- **A halted guest is woken.** While the CPU is halted with IF set and the mask test of
`fe2010_irq` passes for the timer, an interrupt is entered within the passes that the counter of
timer 0 leaves, which are at most 152922, whatever the devices do and whatever comes from
outside. -/
theorem main_wakes (s : Setting η) {e : Emulator η} (he : e.machine.Waiting) :
    e.machine.passesLeft ≤ 152922 ∧ ∀ ps : List Pass, e.machine.passesLeft ≤ ps.length →
      Entered e.machine (runAll (mainAfter s) e ps).machine := by
  have hpositive : ∀ m : Machine (Peripherals η), 0 < m.passesLeft := by
    intro m
    have hticks : 0 < m.ticksLeft := Nat.succ_pos _
    unfold Machine.passesLeft
    omega
  -- the counter of timer 0 has 16 bits, and 0 counts as 2^16
  have hbound : e.machine.ticksLeft ≤ 65536 := (e.machine.counter - 1).isLt
  refine ⟨by unfold Machine.passesLeft; omega, fun ps hps => ?_⟩
  have hkept : ∀ e' p, Entered e.machine e'.machine →
      Entered e.machine (mainAfter s e' p).machine := by
    intro e' p hentered
    exact Nat.lt_of_lt_of_le hentered (entered_run (mainPass_run s e'.cycle p e'.machine))
  have hstep : ∀ e' p,
      e'.machine.Waiting ∧ entered e'.machine.log = entered e.machine.log →
        Entered e.machine (mainAfter s e' p).machine ∨
          ((mainAfter s e' p).machine.Waiting ∧
            entered (mainAfter s e' p).machine.log = entered e.machine.log) ∧
          (mainAfter s e' p).machine.passesLeft - 1 < e'.machine.passesLeft - 1 := by
    rintro e' p ⟨hwaiting, hlog⟩
    rcases passesLeft_mainPass s e'.cycle p hwaiting with hentered | ⟨hwaiting', hlog', hleft⟩
    · refine .inl ?_
      unfold Entered at *
      rwa [← hlog]
    · refine .inr ⟨⟨hwaiting', hlog'.trans hlog⟩, ?_⟩
      have hpos := hpositive (mainAfter s e' p).machine
      change (mainAfter s e' p).machine.passesLeft + 1 = _ at hleft
      omega
  have hpos := hpositive e.machine
  exact runAll_reaches (fun e' => e'.machine.passesLeft - 1) hkept hstep ⟨he, rfl⟩ (by omega)

/-- The emulator behind an `HLT` with IF set, every line but the timer's masked and the counter of
the timer at 1. -/
def waitingEmulator : Emulator Unit where
  machine :=
    let m := haltStart.machine
    { m with
      cpu := { m.cpu with halt := true, flags := { m.cpu.flags with i := true } }
      fe2010 := { m.fe2010.setPit 0 { m.fe2010.pit 0 with counter := 1 } with irqMask := 0xFE } }
  cycle := 1

/-- It is woken within seven passes. -/
theorem main_wakes_soon : Entered waitingEmulator.machine
    (runAll (mainAfter plainSetting) waitingEmulator (List.replicate 7 bytePass)).machine :=
  (main_wakes plainSetting ⟨rfl, rfl, by decide⟩).2 _ (by decide)

end Pc20iii
