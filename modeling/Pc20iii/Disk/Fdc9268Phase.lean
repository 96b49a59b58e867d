import Pc20iii.Disk.Fdc9268Range

/-!
# The command phases of the floppy disk controller

A command of the floppy disk controller takes a fixed number of parameter bytes and then
returns a fixed number of result bytes. A guest learns which of the two is next from the
main status register, which the controller keeps by hand: each case of `fdc_fifo_write`
and `fdc_fifo_read` sets and clears the bits it changes.

An `FdcPhase` is the pair of the two numbers that are left, and the state of the controller
has one (`Fdc9268State.phase`). Every access of a port does to it what the abstract
`FdcPhase.write`, `FdcPhase.read` and a reset do (`fdc_after_steps`), and leaves the status
register of the new phase; that one step lemma carries all results about runs
(`fdc_phases`).
-/

namespace Pc20iii

open StateProgram

-- Instance search follows the syntax of the functions below.
set_option synthInstance.maxSize 1000

/-! ### Phases -/

/-- What is left of a command: the parameter bytes it takes, and the result bytes it returns
after them. -/
structure FdcPhase where
  parameters : ℕ
  results : ℕ
deriving DecidableEq, Repr

/-- The parameter and result bytes of the commands, for the values that start one. -/
def fdcCommandPhase (value : Byte) : Option FdcPhase :=
  if value = fdcCmdSis then some ⟨0, 2⟩
  else if value = fdcCmdSds then some ⟨1, 1⟩
  else if value = fdcCmdSpecify then some ⟨2, 0⟩
  else if value = fdcCmdRecalib then some ⟨1, 0⟩
  else if value = fdcCmdSeek then some ⟨2, 0⟩
  else if value &&& 0x1F = fdcCmdRead then some ⟨8, 7⟩
  else if value &&& 0x1F = fdcCmdWrite then some ⟨8, 7⟩
  else none

namespace FdcPhase

/-- No command. -/
def idle : FdcPhase := ⟨0, 0⟩

/-- A byte is written: the first one of a command, or a parameter. -/
def write (value : Byte) : FdcPhase → FdcPhase
  | ⟨0, 0⟩ => (fdcCommandPhase value).getD idle
  | ⟨p + 1, r⟩ => ⟨p, r⟩
  | ⟨0, r + 1⟩ => ⟨0, r + 1⟩

/-- A byte is read: a result, if it is time for one. -/
def read : FdcPhase → FdcPhase
  | ⟨0, r + 1⟩ => ⟨0, r⟩
  | phase => phase

/-- The main status register of a phase. -/
def status : FdcPhase → Byte
  | ⟨0, 0⟩ => 0x80
  | ⟨_ + 1, _⟩ => 0x90
  | ⟨0, _ + 1⟩ => 0xD0

/-- A result byte is read when no parameter is left. -/
theorem read_of_result {phase : FdcPhase} (h : phase.parameters = 0) (hne : phase ≠ .idle) :
    phase.read.parameters = 0 ∧ phase.results = phase.read.results + 1 := by
  obtain ⟨p, r⟩ := phase
  obtain rfl : p = 0 := h
  cases r with
  | zero => exact absurd rfl hne
  | succ r => exact ⟨rfl, rfl⟩

/-- A parameter byte is written when one is left. -/
theorem write_of_parameter {phase : FdcPhase} (h : phase.parameters ≠ 0) (value : Byte) :
    phase.parameters = (phase.write value).parameters + 1 ∧
      phase.results = (phase.write value).results := by
  obtain ⟨p, r⟩ := phase
  cases p with
  | zero => exact absurd rfl h
  | succ p => exact ⟨rfl, rfl⟩

end FdcPhase

namespace Fdc9268State

/-- The phase of a state. -/
def phase : Fdc9268State → FdcPhase
  | idle => ⟨0, 0⟩
  | cmdSisSt0 => ⟨0, 2⟩
  | cmdSisPcn => ⟨0, 1⟩
  | cmdSpecifySrtHut => ⟨2, 0⟩
  | cmdSpecifyHltNd => ⟨1, 0⟩
  | cmdRecalibDs => ⟨1, 0⟩
  | cmdSeekDs => ⟨2, 0⟩
  | cmdSeekNcn => ⟨1, 0⟩
  | cmdSdsDs => ⟨1, 1⟩
  | cmdSdsSt3 => ⟨0, 1⟩
  | cmdWriteDs | cmdReadDs => ⟨8, 7⟩
  | cmdWriteCPrior | cmdReadCPrior => ⟨7, 7⟩
  | cmdWriteHPrior | cmdReadHPrior => ⟨6, 7⟩
  | cmdWriteRPrior | cmdReadRPrior => ⟨5, 7⟩
  | cmdWriteNPrior | cmdReadNPrior => ⟨4, 7⟩
  | cmdWriteEot | cmdReadEot => ⟨3, 7⟩
  | cmdWriteGpl | cmdReadGpl => ⟨2, 7⟩
  | cmdWriteDtl | cmdReadDtl => ⟨1, 7⟩
  | cmdWriteSt0 | cmdReadSt0 => ⟨0, 7⟩
  | cmdWriteSt1 | cmdReadSt1 => ⟨0, 6⟩
  | cmdWriteSt2 | cmdReadSt2 => ⟨0, 5⟩
  | cmdWriteCAfter | cmdReadCAfter => ⟨0, 4⟩
  | cmdWriteHAfter | cmdReadHAfter => ⟨0, 3⟩
  | cmdWriteRAfter | cmdReadRAfter => ⟨0, 2⟩
  | cmdWriteNAfter | cmdReadNAfter => ⟨0, 1⟩

/-- The states in which the controller returns a result byte. -/
def isResult : Fdc9268State → Bool
  | cmdSisSt0 | cmdSisPcn | cmdSdsSt3
  | cmdWriteSt0 | cmdWriteSt1 | cmdWriteSt2 | cmdWriteCAfter | cmdWriteHAfter | cmdWriteRAfter
  | cmdWriteNAfter
  | cmdReadSt0 | cmdReadSt1 | cmdReadSt2 | cmdReadCAfter | cmdReadHAfter | cmdReadRAfter
  | cmdReadNAfter => true
  | _ => false

theorem phase_eq_idle (state : Fdc9268State) : state.phase = .idle ↔ state = .idle := by
  cases state <;> decide

theorem isResult_iff (state : Fdc9268State) :
    state.isResult = true ↔ state.phase.parameters = 0 ∧ state.phase ≠ .idle := by
  cases state <;> decide

end Fdc9268State

/-- The main status register agrees with the command phase. -/
structure Fdc9268.StatusAgrees (x : Fdc9268) : Prop where
  rqm : x.msr.getLsbD fdcMsrRqm = true
  cmdBusy : x.msr.getLsbD fdcMsrCmdBusy = true ↔ x.state ≠ .idle
  dio : x.msr.getLsbD fdcMsrDio = true ↔ x.state.isResult = true

/-- The main status register is that of the phase. -/
def Fdc9268.Shows (x : Fdc9268) : Prop := x.msr = x.state.phase.status

theorem Fdc9268.Shows.statusAgrees {x : Fdc9268} (h : x.Shows) : x.StatusAgrees := by
  rw [Fdc9268.Shows] at h
  constructor <;> rw [h] <;> cases x.state <;> decide

/-! ### Reports -/

/-- The reports of the `default` cases of `fdc_fifo_read` and `fdc_fifo_write`. -/
def unexpectedFifo (text : String) : Bool :=
  text == "Unexpected FDC FIFO read!\n" || text == "Unexpected FDC FIFO write! (0x%02x)\n"

/-- A panic of a device whose text is one of these. -/
def Event.isUnexpectedFifo : Event → Bool
  | .panic (.device text) => unexpectedFifo text
  | _ => false

/-- How often the history has an "Unexpected FDC FIFO" branch. -/
def Machine.unexpected (m : Machine Fdc9268) : ℕ := m.log.countP Event.isUnexpectedFifo

/-- Nothing changes that concerns the phases. -/
structure SamePhase (m m' : Machine Fdc9268) : Prop where
  state : m'.dev.state = m.dev.state
  msr : m'.dev.msr = m.dev.msr
  unexpected : m'.unexpected = m.unexpected

namespace SamePhase

theorem refl (m : Machine Fdc9268) : SamePhase m m := ⟨rfl, rfl, rfl⟩

theorem trans {m₁ m₂ m₃ : Machine Fdc9268} (h₁ : SamePhase m₁ m₂) (h₂ : SamePhase m₂ m₃) :
    SamePhase m₁ m₃ :=
  ⟨h₂.state.trans h₁.state, h₂.msr.trans h₁.msr, h₂.unexpected.trans h₁.unexpected⟩

end SamePhase

/-- What the controller does within a phase. -/
inductive PhaseAction : ∀ α : Type, M Fdc9268 α → Prop
  /-- Work on its own state. -/
  | own {α : Type} (f : Local Fdc9268 α)
      (hf : ∀ x, (f x).2.1.state = x.state ∧ (f x).2.1.msr = x.msr ∧
        ∀ text ∈ (f x).2.2, unexpectedFifo text = false) :
      PhaseAction α (runLocal f)
  | irq (irqNo : Fin 8) : PhaseAction Unit (fe2010Irq irqNo)
  | load (address : BitVec 32) : PhaseAction Byte (memRead .dma address)
  | store (address : BitVec 32) (v : Byte) : PhaseAction Unit (memWrite .dma address v)

/-- What the device does for itself keeps its phase, if it keeps the state and the status. -/
theorem samePhase_runLocal {α : Type} {f : Local Fdc9268 α}
    (hf : ∀ x, (f x).2.1.state = x.state ∧ (f x).2.1.msr = x.msr ∧
      ∀ text ∈ (f x).2.2, unexpectedFifo text = false) (m : Machine Fdc9268) :
    SamePhase m (outcome (runLocal f) m).2 := by
  obtain ⟨hstate, hmsr, htexts⟩ := hf m.dev
  refine ⟨hstate, hmsr, ?_⟩
  change List.countP _ (List.map _ _ ++ m.log) = _
  rw [List.countP_append, List.countP_map, Machine.unexpected]
  have hnone : List.countP (Event.isUnexpectedFifo ∘ fun text => .panic (.device text))
      (f m.dev).2.2 = 0 := by
    rw [List.countP_eq_zero]
    intro text htext
    simp [Event.isUnexpectedFifo, htexts text htext]
  rw [hnone, Nat.zero_add]

/-- An interrupt keeps the phase, entered or not. -/
theorem samePhase_fe2010Irq (irqNo : Fin 8) (m : Machine Fdc9268) :
    SamePhase m (outcome (fe2010Irq irqNo) m).2 := by
  refine ⟨by rw [dev_fe2010Irq], by rw [dev_fe2010Irq], ?_⟩
  rcases fe2010Irq_cases irqNo m with ⟨-, h⟩ | ⟨-, -, h⟩ | ⟨-, -, h⟩
  all_goals
    rw [h]
    rfl

theorem samePhase_memRead (address : BitVec 32) (m : Machine Fdc9268) :
    SamePhase m (outcome (memRead .dma address) m).2 := by
  rw [outcome_memRead]
  dsimp only
  split
  · exact ⟨rfl, rfl, rfl⟩
  · exact .refl m

theorem samePhase_memWrite (address : BitVec 32) (v : Byte) (m : Machine Fdc9268) :
    SamePhase m (outcome (memWrite .dma address v) m).2 := by
  unfold memWrite
  split
  · exact ⟨rfl, rfl, rfl⟩
  · simp only [outcome_bind, outcome_get, outcome_ite, outcome_modify, outcome_pure]
    split <;> exact ⟨rfl, rfl, rfl⟩

/-- A program of these actions stays within the phase. -/
theorem samePhase {α : Type} {x : M Fdc9268 α} (hx : Generated PhaseAction x)
    (m : Machine Fdc9268) : SamePhase m (outcome x m).2 := by
  refine hx.rel (R := SamePhase) SamePhase.refl SamePhase.trans ?_ m
  intro α x haction m
  cases haction with
  | own f hf => exact samePhase_runLocal hf m
  | irq irqNo => exact samePhase_fe2010Irq irqNo m
  | load address => exact samePhase_memRead address m
  | store address v => exact samePhase_memWrite address v m

theorem advance_texts {overrun : String} (h : unexpectedFifo overrun = false) (f : Floppy) :
    ∀ text ∈ (f.advance overrun).2, unexpectedFifo text = false := by
  unfold Floppy.advance
  dsimp only
  split
  · simpa using h
  · nofun

instance phaseAction_getDev : Generated PhaseAction (getDev : M Fdc9268 Fdc9268) := by
  unfold getDev
  infer_instance

theorem phaseAction_modifyDev {f : Fdc9268 → Fdc9268}
    (hf : ∀ x, (f x).state = x.state ∧ (f x).msr = x.msr) :
    Generated PhaseAction (modifyDev f) :=
  .action _ (.own _ fun x => ⟨(hf x).1, (hf x).2, nofun⟩)

instance phaseAction_setFloppy (ds : Fin 4) (f : Floppy) :
    Generated PhaseAction (modifyDev (Fdc9268.setFloppy ds f)) :=
  phaseAction_modifyDev fun _ => ⟨rfl, rfl⟩

instance phaseAction_st0Set (bit : ℕ) : Generated PhaseAction (modifyDev (Fdc9268.st0Set bit)) :=
  phaseAction_modifyDev fun _ => ⟨rfl, rfl⟩

instance phaseAction_st0Clear (bit : ℕ) :
    Generated PhaseAction (modifyDev (Fdc9268.st0Clear bit)) :=
  phaseAction_modifyDev fun _ => ⟨rfl, rfl⟩

instance phaseAction_st1 (v : Byte) :
    Generated PhaseAction (modifyDev fun x : Fdc9268 => { x with st1 := v }) :=
  phaseAction_modifyDev fun _ => ⟨rfl, rfl⟩

instance phaseAction_pcn (v : Byte) :
    Generated PhaseAction (modifyDev fun x : Fdc9268 => { x with pcn := v }) :=
  phaseAction_modifyDev fun _ => ⟨rfl, rfl⟩

instance phaseAction_dorReset (b : Bool) :
    Generated PhaseAction (modifyDev fun x : Fdc9268 => { x with dorReset := b }) :=
  phaseAction_modifyDev fun _ => ⟨rfl, rfl⟩

theorem st0DriveSelUpdate_phase (value : Byte) (x : Fdc9268) :
    (x.st0DriveSelUpdate value).state = x.state ∧ (x.st0DriveSelUpdate value).msr = x.msr := by
  unfold Fdc9268.st0DriveSelUpdate
  dsimp only
  split_ifs <;> exact ⟨rfl, rfl⟩

instance phaseAction_st0DriveSelUpdate (value : Byte) :
    Generated PhaseAction (modifyDev (Fdc9268.st0DriveSelUpdate value)) :=
  phaseAction_modifyDev (st0DriveSelUpdate_phase value)

instance phaseAction_writeCallback (ds : Fin 4) (byte : Byte) :
    Generated PhaseAction (runLocal (fdcImageWriteCallback ds byte)) :=
  .action _ (.own _ fun _ => ⟨rfl, rfl, advance_texts (by decide) _⟩)

instance phaseAction_readCallback (ds : Fin 4) :
    Generated PhaseAction (runLocal (fdcImageReadCallback ds)) :=
  .action _ (.own _ fun _ => ⟨rfl, rfl, advance_texts (by decide) _⟩)

instance phaseAction_memRead (address : BitVec 32) :
    Generated PhaseAction (memRead .dma address) :=
  .action _ (.load address)

instance phaseAction_memWrite (address : BitVec 32) (v : Byte) :
    Generated PhaseAction (memWrite .dma address v) :=
  .action _ (.store address v)

instance phaseAction_dmaWrite (channelNo : Fin 4) (callback : Local Fdc9268 Byte)
    [Generated PhaseAction (runLocal callback)] :
    Generated PhaseAction (fe2010DmaWrite channelNo callback) := by
  unfold fe2010DmaWrite
  infer_instance

instance phaseAction_dmaRead (channelNo : Fin 4) (callback : Byte → Local Fdc9268 Unit)
    [∀ v, Generated PhaseAction (runLocal (callback v))] :
    Generated PhaseAction (fe2010DmaRead channelNo callback) := by
  unfold fe2010DmaRead
  infer_instance

/-- A transfer stays within the phase. -/
instance phaseAction_fdcImageDma (readOperation : Bool) :
    Generated PhaseAction (fdcImageDma readOperation) := by
  unfold fdcImageDma
  infer_instance

/-- An interrupt stays within the phase. -/
instance phaseAction_fdcIrq : Generated PhaseAction fdcIrq :=
  .seq _ _ (.action _ (.irq _)) fun _ => .action _ (.own _ fun _ => ⟨rfl, rfl, nofun⟩)

/-! ### Steps -/

/-- An access leads to a phase and to its status, with `n` reports of an unexpected access of
the data register. -/
structure EntersPhase (m m' : Machine Fdc9268) (phase : FdcPhase) (n : ℕ) : Prop where
  phase_eq : m'.dev.state.phase = phase
  msr : m'.dev.msr = phase.status
  unexpected : m'.unexpected = m.unexpected + n

/-- A result byte that is followed by another one. -/
theorem enters_result {m : Machine Fdc9268} (h : m.dev.msr = 0xD0) (value : Fdc9268 → Byte)
    {next : Fdc9268State} (hnext : next.phase.status = 0xD0) :
    EntersPhase m (outcome (fdcResult value next) m).2 next.phase 0 :=
  ⟨rfl, h.trans hnext.symm, rfl⟩

theorem enters_firstResult {m : Machine Fdc9268} (h : m.dev.msr = 0xD0) {next : Fdc9268State}
    (hnext : next.phase.status = 0xD0) :
    EntersPhase m (outcome (fdcFirstResult next) m).2 next.phase 0 :=
  ⟨rfl, h.trans hnext.symm, rfl⟩

/-- The last result byte ends the command. -/
theorem enters_lastResult {m : Machine Fdc9268} (h : m.dev.msr = 0xD0)
    (value : Fdc9268 → Byte) :
    EntersPhase m (outcome (fdcLastResult value) m).2 .idle 0 := by
  refine ⟨rfl, ?_, rfl⟩
  change m.dev.msr &&& ~~~bitMask fdcMsrDio &&& ~~~bitMask fdcMsrCmdBusy = _
  rw [h]
  decide

/-- A report of an unexpected access changes no phase. -/
theorem enters_unexpected {m : Machine Fdc9268} (h : m.dev.Shows) (text : String)
    (htext : unexpectedFifo text = true) :
    EntersPhase m (outcome (devicePanic text) m).2 m.dev.state.phase 1 := by
  refine ⟨rfl, h, ?_⟩
  have hevent : Event.isUnexpectedFifo (.panic (.device text)) = true := htext
  exact List.countP_cons_of_pos hevent

/-- A read of the data register. -/
theorem enters_fifoRead {m : Machine Fdc9268} (h : m.dev.Shows) (port : Word) :
    EntersPhase m (outcome (fdcFifoRead port) m).2 m.dev.state.phase.read
      (if m.dev.state.isResult then 0 else 1) := by
  have hshows := h
  rw [Fdc9268.Shows] at h
  simp only [fdcFifoRead, outcome_bind, outcome_getDev]
  cases hs : m.dev.state <;> rw [hs] at h
  -- with no interrupt pending the byte is 0x80
  case cmdSisSt0 =>
    simp only [outcome_bind, outcome_getDev, outcome_ite]
    split
    · exact enters_result h _ (by rfl)
    · exact enters_firstResult h (by rfl)
  case cmdSisPcn | cmdSdsSt3 | cmdWriteNAfter | cmdReadNAfter => exact enters_lastResult h _
  case cmdWriteSt0 | cmdReadSt0 => exact enters_firstResult h (by rfl)
  case cmdWriteSt1 | cmdWriteSt2 | cmdWriteCAfter | cmdWriteHAfter | cmdWriteRAfter | cmdReadSt1
      | cmdReadSt2 | cmdReadCAfter | cmdReadHAfter | cmdReadRAfter =>
    exact enters_result h _ (by rfl)
  -- no state but those of the results expects a read
  all_goals
    have hreport := enters_unexpected hshows "Unexpected FDC FIFO read!\n" (by decide)
    rw [hs] at hreport
    exact hreport

/-- The first byte of a command, or of none. -/
theorem enters_command {m : Machine Fdc9268} (h : m.dev.Shows) (hidle : m.dev.state = .idle)
    (value : Byte) :
    EntersPhase m (outcome (fdcCommand value) m).2 (FdcPhase.idle.write value) 0 := by
  have hmsr : m.dev.msr = 0x80 := by rw [h, hidle]; rfl
  change EntersPhase _ _ ((fdcCommandPhase value).getD .idle) 0
  simp only [fdcCommand, fdcCommandPhase, outcome_bind, outcome_ite, outcome_modifyDev,
    outcome_devicePanic]
  split_ifs
  -- a command that is not known leaves the controller idle, and is reported
  case neg =>
    refine ⟨congrArg Fdc9268State.phase hidle, hmsr, ?_⟩
    exact List.countP_cons_of_neg (by decide)
  all_goals
    refine ⟨rfl, ?_, rfl⟩
    simp only [Fdc9268.stateSet, Fdc9268.msrSet, Fdc9268.st0Clear, hmsr, Option.getD_some]
    decide

/-- A parameter byte that is followed by another one. -/
theorem enters_parameter {m : Machine Fdc9268} (h : m.dev.msr = 0x90)
    {store : Fdc9268 → Fdc9268} (hstore : (store m.dev).msr = m.dev.msr)
    {next : Fdc9268State} (hnext : next.phase.status = 0x90) :
    EntersPhase m (outcome (fdcParameter store next) m).2 next.phase 0 :=
  ⟨rfl, (hstore.trans h).trans hnext.symm, rfl⟩

/-- Actions within the phase come before the step to the next one. -/
theorem enters_bind {α : Type} {m : Machine Fdc9268} {x : M Fdc9268 α}
    (hx : Generated PhaseAction x) {f : α → M Fdc9268 Unit} {phase : FdcPhase} {n : ℕ}
    (hf : ∀ a m', SamePhase m m' → EntersPhase m' (outcome (f a) m').2 phase n) :
    EntersPhase m (outcome (x >>= f) m).2 phase n := by
  have hsame := samePhase hx m
  obtain ⟨hphase, hmsr, hunexpected⟩ := hf (outcome x m).1 _ hsame
  exact ⟨hphase, hmsr, hunexpected.trans (by rw [hsame.unexpected])⟩

/-- The last parameter byte of WRITE and READ. -/
theorem enters_transfer {m : Machine Fdc9268} (h : m.dev.msr = 0x90) (readOperation : Bool)
    {next : Fdc9268State} (hnext : next.phase.status = 0xD0) :
    EntersPhase m (outcome (fdcTransfer readOperation next) m).2 next.phase 0 := by
  unfold fdcTransfer
  refine enters_bind inferInstance fun moved m₁ h₁ => ?_
  refine enters_bind inferInstance fun _ m₂ h₂ => ?_
  refine enters_bind inferInstance fun _ m₃ h₃ => ?_
  refine ⟨rfl, ?_, rfl⟩
  change m₃.dev.msr ||| bitMask fdcMsrDio = _
  rw [h₃.msr, h₂.msr, h₁.msr, h, hnext]
  decide

/-- The interrupt at the end of RECALIB and SEEK. -/
theorem enters_seekEnd {m : Machine Fdc9268} (h : m.dev.msr = 0x90) :
    EntersPhase m (outcome (do
      modifyDev (Fdc9268.msrClear fdcMsrCmdBusy)
      fdcIrq
      modifyDev (Fdc9268.stateSet .idle)) m).2 .idle 0 := by
  have hirq := samePhase phaseAction_fdcIrq { m with dev := m.dev.msrClear fdcMsrCmdBusy }
  refine ⟨rfl, ?_, hirq.unexpected⟩
  calc
    _ = m.dev.msr &&& ~~~bitMask fdcMsrCmdBusy := hirq.msr
    _ = 0x80 := by rw [h]; decide

/-- A write of the data register. -/
theorem enters_fifoWrite {m : Machine Fdc9268} (h : m.dev.Shows) (port : Word) (value : Byte) :
    EntersPhase m (outcome (fdcFifoWrite port value) m).2 (m.dev.state.phase.write value)
      (if m.dev.state.isResult then 1 else 0) := by
  have hshows := h
  rw [Fdc9268.Shows] at h
  simp only [fdcFifoWrite, outcome_bind, outcome_getDev]
  cases hs : m.dev.state <;> rw [hs] at h
  case idle => exact enters_command hshows hs value
  case cmdSdsDs =>
    refine ⟨rfl, ?_, rfl⟩
    change (m.dev.st0DriveSelUpdate value).msr ||| bitMask fdcMsrDio = 0xD0
    rw [(st0DriveSelUpdate_phase ..).2, h]
    decide
  case cmdSpecifyHltNd =>
    refine ⟨rfl, ?_, rfl⟩
    change m.dev.msr &&& ~~~bitMask fdcMsrCmdBusy = 0x80
    rw [h]
    decide
  -- the commands that act at once: each action keeps MSR, and the last one ends the command
  case cmdRecalibDs =>
    refine enters_bind (phaseAction_pcn 0) fun _ m₁ h₁ => ?_
    refine enters_bind inferInstance fun _ m₂ h₂ => ?_
    refine enters_bind inferInstance fun _ m₃ h₃ => ?_
    refine enters_bind inferInstance fun _ m₄ h₄ => ?_
    refine enters_bind inferInstance fun _ m₅ h₅ => ?_
    exact enters_seekEnd (by rw [h₅.msr, h₄.msr, h₃.msr, h₂.msr, h₁.msr, h]; rfl)
  case cmdSeekNcn =>
    refine enters_bind (phaseAction_pcn value) fun _ m₁ h₁ => ?_
    refine enters_bind inferInstance fun _ m₂ h₂ => ?_
    exact enters_seekEnd (by rw [h₂.msr, h₁.msr, h]; rfl)
  case cmdWriteDtl => exact enters_transfer h false (by rfl)
  case cmdReadDtl => exact enters_transfer h true (by rfl)
  case cmdSpecifySrtHut | cmdWriteCPrior | cmdWriteHPrior | cmdWriteRPrior | cmdWriteNPrior
      | cmdWriteEot | cmdWriteGpl | cmdReadCPrior | cmdReadHPrior | cmdReadRPrior
      | cmdReadNPrior | cmdReadEot | cmdReadGpl =>
    exact enters_parameter h rfl (by rfl)
  case cmdSeekDs | cmdWriteDs | cmdReadDs =>
    exact enters_parameter h (st0DriveSelUpdate_phase ..).2 (by rfl)
  -- in a result state a write is not expected
  all_goals
    have hreport := enters_unexpected hshows "Unexpected FDC FIFO write! (0x%02x)\n" (by decide)
    rw [hs] at hreport
    exact hreport

/-- A write of the digital output register. -/
theorem enters_dorWrite {m : Machine Fdc9268} (h : m.dev.Shows) (port : Word) (value : Byte) :
    EntersPhase m (outcome (fdcDorWrite port value) m).2
      (if value.getLsbD fdcDorReset = false then .idle else m.dev.state.phase) 0 := by
  unfold fdcDorWrite
  by_cases hreset : value.getLsbD fdcDorReset = false
  · rw [if_pos hreset, if_pos hreset]
    exact ⟨rfl, rfl, rfl⟩
  · rw [if_neg hreset, if_neg hreset]
    -- the interrupt after a reset stays within the phase
    have hsame : SamePhase m (outcome (do
        if value.getLsbD fdcDorDmaen ∧ (← getDev).dorReset then
          modifyDev fun x : Fdc9268 => { x with dorReset := false }
          fdcIrq) m).2 :=
      samePhase inferInstance m
    exact ⟨congrArg Fdc9268State.phase hsame.state, hsame.msr.trans h, hsame.unexpected⟩

/-- A read of a port. -/
theorem enters_read {m : Machine Fdc9268} (h : m.dev.Shows) (port : Word) :
    EntersPhase m (fdcDevices.after m (.read port))
      (if port = 0x3F5 then m.dev.state.phase.read else m.dev.state.phase)
      (if port = 0x3F5 ∧ m.dev.state.isResult = false then 1 else 0) := by
  cases hfunc : fdcReads port with
  | none =>
    rw [Devices.after_read_none hfunc]
    have hport : port ≠ 0x3F5 := by
      rintro rfl
      cases hfunc
    rw [if_neg hport, if_neg fun hp => hport hp.1]
    exact ⟨rfl, h, rfl⟩
  | some func =>
    rw [Devices.after_read hfunc]
    unfold fdcReads at hfunc
    split at hfunc
    -- the main status register
    case h_1 =>
      cases hfunc
      exact ⟨rfl, h, rfl⟩
    case h_2 =>
      cases hfunc
      have hread := enters_fifoRead h 0x3F5
      rw [if_pos (by rfl)]
      cases hresult : m.dev.state.isResult <;> rw [hresult] at hread <;> exact hread
    case h_3 => cases hfunc

/-- A write of the digital output register that resets the controller. -/
def ResetsFdc (port : Word) (value : Byte) : Prop :=
  port = 0x3F2 ∧ value.getLsbD fdcDorReset = false

instance (port : Word) (value : Byte) : Decidable (ResetsFdc port value) :=
  inferInstanceAs (Decidable (_ ∧ _))

/-- A write of a port. -/
theorem enters_write {m : Machine Fdc9268} (h : m.dev.Shows) (port : Word) (value : Byte) :
    EntersPhase m (fdcDevices.after m (.write port value))
      (if port = 0x3F5 then m.dev.state.phase.write value
        else if ResetsFdc port value then .idle else m.dev.state.phase)
      (if port = 0x3F5 ∧ m.dev.state.isResult = true then 1 else 0) := by
  cases hfunc : fdcWrites port with
  | none =>
    rw [Devices.after_write_none hfunc]
    have hport : port ≠ 0x3F5 := by
      rintro rfl
      cases hfunc
    -- a port without a handler is not the digital output register
    have hreset : ¬ ResetsFdc port value := by
      rintro ⟨rfl, -⟩
      cases hfunc
    rw [if_neg hport, if_neg hreset, if_neg fun hp => hport hp.1]
    exact ⟨rfl, h, rfl⟩
  | some func =>
    rw [Devices.after_write hfunc]
    unfold fdcWrites at hfunc
    split at hfunc
    case h_1 =>
      cases hfunc
      have hreset : ResetsFdc 0x3F2#16 value ↔ value.getLsbD fdcDorReset = false :=
        and_iff_right rfl
      have hport : ¬ (0x3F2#16 : Word) = 0x3F5 := by decide
      simp only [hport, hreset, false_and, if_false]
      exact enters_dorWrite h _ value
    case h_2 =>
      cases hfunc
      have hwrite := enters_fifoWrite h 0x3F5 value
      rw [if_pos (by rfl)]
      cases hresult : m.dev.state.isResult <;> rw [hresult] at hwrite <;> exact hwrite
    case h_3 => cases hfunc

/-! ### Runs -/

/-- The guest reads the data register only while DIO is set, and writes it only while DIO is
clear. -/
def RespectsDio (m : Machine Fdc9268) : Access Fdc9268 → Prop
  | .read port => port = 0x3F5 → m.dev.msr.getLsbD fdcMsrDio = true
  | .write port _ => port = 0x3F5 → m.dev.msr.getLsbD fdcMsrDio = false
  | .other _ => True

/-- An access of a port takes an "Unexpected FDC FIFO" branch. -/
def TakesUnexpected (m : Machine Fdc9268) : Access Fdc9268 → Prop
  | .read port => (fdcDevices.after m (.read port)).unexpected ≠ m.unexpected
  | .write port value => (fdcDevices.after m (.write port value)).unexpected ≠ m.unexpected
  | .other _ => False

/-- A write of the data register. -/
def Access.writesFifo : Access Fdc9268 → Bool
  | .write port _ => port == 0x3F5
  | _ => false

/-- A read of the data register. -/
def Access.readsFifo : Access Fdc9268 → Bool
  | .read port => port == 0x3F5
  | _ => false

/-- An access between the first byte of a command and its end, by a guest that respects DIO
and does not reset the controller. -/
structure InCommand (m : Machine Fdc9268) (a : Access Fdc9268) : Prop where
  busy : m.dev.state ≠ .idle
  respects : RespectsDio m a
  noReset : ∀ port value, a = .write port value → ¬ ResetsFdc port value

/-- Every access leaves the status register of the phase. -/
theorem shows_after {m : Machine Fdc9268} (h : m.dev.Shows) (a : Access Fdc9268) :
    (fdcDevices.after m a).dev.Shows := by
  cases a with
  | read port =>
    have hread := enters_read h port
    exact hread.msr.trans (congrArg _ hread.phase_eq.symm)
  | write port value =>
    have hwrite := enters_write h port value
    exact hwrite.msr.trans (congrArg _ hwrite.phase_eq.symm)
  | other m' => exact h

/-- Only accesses against DIO take an "Unexpected FDC FIFO" branch. -/
theorem takesUnexpected_iff {m : Machine Fdc9268} (h : m.dev.Shows) (a : Access Fdc9268) :
    TakesUnexpected m a ↔ ¬ RespectsDio m a := by
  have hdio := h.statusAgrees.dio
  cases a with
  | read port =>
    rw [TakesUnexpected, (enters_read h port).unexpected, RespectsDio, hdio]
    by_cases hport : port = 0x3F5 <;> cases m.dev.state.isResult <;> simp [hport]
  | write port value =>
    have hclear : m.dev.msr.getLsbD fdcMsrDio = false ↔ m.dev.state.isResult = false := by
      rw [← Bool.not_eq_true, hdio, Bool.not_eq_true]
    rw [TakesUnexpected, (enters_write h port value).unexpected, RespectsDio, hclear]
    by_cases hport : port = 0x3F5 <;> cases m.dev.state.isResult <;> simp [hport]
  | other m' => exact iff_of_false id fun hnot => hnot trivial

/-- One access within a command: it uses up the byte it moves. -/
theorem phase_after {m : Machine Fdc9268} (h : m.dev.Shows) {a : Access Fdc9268}
    (ha : InCommand m a) :
    let phase := (fdcDevices.after m a).dev.state.phase
    m.dev.state.phase.parameters = phase.parameters + a.writesFifo.toNat ∧
      m.dev.state.phase.results = phase.results + a.readsFifo.toNat ∧
      (a.readsFifo = true → m.dev.state.phase.parameters = 0) := by
  obtain ⟨hbusy, hrespects, hreset⟩ := ha
  have hne : m.dev.state.phase ≠ .idle := by
    rwa [Ne, Fdc9268State.phase_eq_idle]
  -- the driver looks at DIO before it touches the data register
  have hdio := h.statusAgrees.dio
  rw [Fdc9268State.isResult_iff, and_iff_left hne] at hdio
  cases a with
  | read port =>
    intro phase
    have hphase : phase = _ := (enters_read h port).phase_eq
    rw [hphase]
    by_cases hport : port = 0x3F5
    · have hzero := hdio.mp (hrespects hport)
      obtain ⟨hparameters, hresults⟩ := FdcPhase.read_of_result hzero hne
      have hread : (Access.read port : Access Fdc9268).readsFifo = true := beq_iff_eq.mpr hport
      rw [if_pos hport, hread, hparameters, hzero]
      exact ⟨rfl, hresults, fun _ => rfl⟩
    · have hread : (Access.read port : Access Fdc9268).readsFifo = false :=
        beq_eq_false_iff_ne.mpr hport
      rw [if_neg hport, hread]
      exact ⟨rfl, rfl, nofun⟩
  | write port value =>
    intro phase
    have hphase : phase = _ := (enters_write h port value).phase_eq
    rw [hphase]
    by_cases hport : port = 0x3F5
    · have hparameter : m.dev.state.phase.parameters ≠ 0 := by
        rw [Ne, ← hdio, hrespects hport]
        exact Bool.false_ne_true
      obtain ⟨hparameters, hresults⟩ := FdcPhase.write_of_parameter hparameter value
      have hwrite : (Access.write port value : Access Fdc9268).writesFifo = true :=
        beq_iff_eq.mpr hport
      rw [if_pos hport, hwrite]
      exact ⟨hparameters, hresults, nofun⟩
    · have hwrite : (Access.write port value : Access Fdc9268).writesFifo = false :=
        beq_eq_false_iff_ne.mpr hport
      rw [if_neg hport, if_neg (hreset port value rfl), hwrite]
      exact ⟨rfl, rfl, nofun⟩
  | other m' => exact ⟨rfl, rfl, nofun⟩

/-- The bytes that a part of a command moves are those it uses up. -/
theorem phase_runAll {m : Machine Fdc9268} (h : m.dev.Shows) {as : List (Access Fdc9268)}
    (has : Along fdcDevices.after InCommand m as) :
    let phase := (runAll fdcDevices.after m as).dev.state.phase
    m.dev.state.phase.parameters = phase.parameters + as.countP Access.writesFifo ∧
      m.dev.state.phase.results = phase.results + as.countP Access.readsFifo ∧
      (0 < as.countP Access.readsFifo → phase.parameters = 0) := by
  induction as generalizing m with
  | nil => exact ⟨rfl, rfl, nofun⟩
  | cons a as ih =>
    obtain ⟨hparameters, hresults, horder⟩ := phase_after h has.1
    obtain ⟨ihparameters, ihresults, ihorder⟩ := ih (shows_after h a) has.2
    have hbool : ∀ b : Bool, (if b = true then 1 else 0) = b.toNat := by decide
    rw [List.countP_cons, List.countP_cons, runAll_cons, hbool, hbool]
    -- the counts of the first access and of the rest add up
    dsimp only
    refine ⟨by omega, by omega, fun hpos => ?_⟩
    by_cases hread : a.readsFifo = true
    · have hzero := horder hread
      omega
    · rw [Bool.not_eq_true] at hread
      rw [hread] at hpos
      exact ihorder hpos

theorem fdc9268ImageLoad_shows (ds : Fin 4) (file : Option (List Byte)) (sptOverride : ℤ)
    {x : Fdc9268} (h : x.Shows) : (fdc9268ImageLoad ds file sptOverride x).2.Shows := by
  unfold fdc9268ImageLoad
  dsimp only
  split
  · exact h
  · split_ifs <;> exact h

theorem withFloppies_shows (m : Machine Fdc9268)
    (loads : List (Fin 4 × Option (List Byte) × ℤ)) : (m.withFloppies loads).dev.Shows := by
  have hfold : ∀ x : Fdc9268, x.Shows →
      (loads.foldl (fun x load => (fdc9268ImageLoad load.1 load.2.1 load.2.2 x).2) x).Shows := by
    induction loads with
    | nil => exact fun _ hx => hx
    | cons load loads ih => exact fun x hx => ih _ (fdc9268ImageLoad_shows _ _ _ hx)
  exact hfold fdc9268Init rfl

/-- **The command phases of the floppy disk controller.** After every sequence of accesses
from reset: the main status register agrees with the phase; a guest that respects DIO takes
no "Unexpected FDC FIFO" branch; the bytes moved after an accepted command are its parameters
and then its results, and the controller is idle exactly when all of them have been moved; a
reset leads to the idle state. -/
theorem fdc_phases (m : Machine Fdc9268) (loads : List (Fin 4 × Option (List Byte) × ℤ))
    (as : List (Access Fdc9268)) :
    let s := runAll fdcDevices.after (m.withFloppies loads) as
    s.dev.StatusAgrees ∧
      (∀ a, RespectsDio s a → ¬ TakesUnexpected s a) ∧
      (∀ value parameters results, s.dev.state = .idle →
        fdcCommandPhase value = some ⟨parameters, results⟩ →
        ∀ bs, Along fdcDevices.after InCommand (fdcDevices.after s (.write 0x3F5 value)) bs →
          bs.countP Access.writesFifo ≤ parameters ∧ bs.countP Access.readsFifo ≤ results ∧
          (0 < bs.countP Access.readsFifo → bs.countP Access.writesFifo = parameters) ∧
          ((runAll fdcDevices.after (fdcDevices.after s (.write 0x3F5 value)) bs).dev.state =
              .idle ↔
            bs.countP Access.writesFifo = parameters ∧
              bs.countP Access.readsFifo = results)) ∧
      ∀ value, ResetsFdc 0x3F2 value →
        (fdcDevices.after s (.write 0x3F2 value)).dev.state = .idle ∧
          (fdcDevices.after s (.write 0x3F2 value)).dev.msr = bitMask fdcMsrRqm := by
  intro s
  have hshows : s.dev.Shows :=
    runAll_invariant (I := fun m : Machine Fdc9268 => m.dev.Shows) (fun _ a h => shows_after h a)
      (withFloppies_shows m loads) as
  refine ⟨hshows.statusAgrees, ?_, ?_, ?_⟩
  · intro a ha htakes
    exact (takesUnexpected_iff hshows a).mp htakes ha
  · intro value parameters results hidle haccepted bs hbs
    have hstart := (enters_write hshows 0x3F5 value).phase_eq
    -- the first byte of the command enters its phase, and every access counts down from it
    rw [if_pos rfl, hidle] at hstart
    change _ = (fdcCommandPhase value).getD .idle at hstart
    rw [haccepted, Option.getD_some] at hstart
    obtain ⟨hparameters, hresults, horder⟩ := phase_runAll (shows_after hshows _) hbs
    rw [hstart] at hparameters hresults
    rw [← Fdc9268State.phase_eq_idle, FdcPhase.idle, FdcPhase.mk.injEq]
    dsimp only at hparameters hresults
    refine ⟨by omega, by omega, fun hpos => ?_, by omega⟩
    have hzero := horder hpos
    omega
  · intro value hreset
    have hwrite := enters_write hshows 0x3F2 value
    rw [if_neg (by decide), if_pos hreset] at hwrite
    exact ⟨(Fdc9268State.phase_eq_idle _).mp hwrite.phase_eq, hwrite.msr⟩

/-- A SENSE INTERRUPT STATUS after reset: its two results are all of it. -/
theorem fdc_phases_sense :
    let s := (machineInit fdc9268Init).withFloppies []
    let sent := fdcDevices.after s (.write 0x3F5 0x08)
    let bs : List (Access Fdc9268) := [.read 0x3F4, .read 0x3F5, .read 0x3F5]
    ¬ TakesUnexpected s (.write 0x3F5 0x08) ∧
      ((runAll fdcDevices.after sent bs).dev.state = .idle ↔
        bs.countP Access.writesFifo = 0 ∧ bs.countP Access.readsFifo = 2) ∧
      (runAll fdcDevices.after sent bs).dev.state = .idle ∧
      (fdcDevices.after s (.write 0x3F2 0x00)).dev.msr = bitMask fdcMsrRqm := by
  intro s sent bs
  obtain ⟨-, hexpected, hcommand, hreset⟩ := fdc_phases (machineInit fdc9268Init) [] []
  -- a read of the status register between them is no byte of the command
  have hbs : Along fdcDevices.after InCommand sent bs :=
    ⟨⟨by decide, fun h => absurd h (by decide), nofun⟩, ⟨by decide, fun _ => by decide, nofun⟩,
      ⟨by decide, fun _ => by decide, nofun⟩, trivial⟩
  obtain ⟨-, -, -, hidle⟩ := hcommand 0x08 0 2 rfl (by decide) bs hbs
  exact ⟨hexpected (.write 0x3F5 0x08) fun _ => by decide, hidle, by decide,
    (hreset 0x00 (by decide)).2⟩

end Pc20iii
