import Pc20iii.Disk.XthdcRange

/-!
# The status register of the hard disk controller

The four bits REQ, IO, CD and XBSY of the status register tell the driver in which phase the
controller is. They are set and cleared one by one, next to the assignments to the state.

`Xthdc.Settled` fixes them for every state, also for those in which the driver does not ask for
all of them; each access but two kinds keeps it (`settled_after`). `status_agrees_iff` says that
those two are exactly where the register goes wrong: a reset in the middle of a command leaves
all bits as they are, and the last byte of a sector that is read through the data port leaves CD
clear.
-/

namespace Pc20iii

open StateProgram

/-! ### The bits of a phase -/

namespace XthdcState

/-- REQ and XBSY. -/
def busy : XthdcState → Bool
  | idle => false
  | _ => true

/-- IO. -/
def input : XthdcState → Bool
  | readSector => true
  | status => true
  | _ => false

/-- CD. -/
def control : XthdcState → Bool
  | idle => false
  | readSector => false
  | _ => true

end XthdcState

namespace Xthdc

/-- A bit of the status register. -/
def bit (x : Xthdc) (i : ℕ) : Bool := x.status.getLsbD i

/-- The status register agrees with the state, where the driver relies on it. -/
structure Agrees (x : Xthdc) : Prop where
  req : x.bit xthdcStatusReq = true ↔ x.state ≠ .idle
  xbsy : x.bit xthdcStatusXbsy = true ↔ x.state ≠ .idle
  io : x.bit xthdcStatusIo = true ↔ x.state = .readSector ∨ x.state = .status
  cd : x.state = .command ∨ x.state = .status → x.bit xthdcStatusCd = true
  cd_clear : x.state = .readSector ∨ x.state = .idle → x.bit xthdcStatusCd = false

/-- The four bits of every state. -/
structure Settled (x : Xthdc) : Prop where
  req : x.bit xthdcStatusReq = x.state.busy
  xbsy : x.bit xthdcStatusXbsy = x.state.busy
  io : x.bit xthdcStatusIo = x.state.input
  cd : x.bit xthdcStatusCd = x.state.control

variable {x y : Xthdc}

/-- What the code keeps of the status register is what the state asks for. -/
theorem Settled.agrees (h : x.Settled) : x.Agrees := by
  obtain ⟨hreq, hxbsy, hio, hcd⟩ := h
  constructor
  · rw [hreq]
    cases x.state <;> decide
  · rw [hxbsy]
    cases x.state <;> decide
  · rw [hio]
    cases x.state <;> decide
  · rw [hcd]
    rintro (h | h) <;> rw [h] <;> rfl
  · rw [hcd]
    rintro (h | h) <;> rw [h] <;> rfl

/-- The state and the status register decide. -/
theorem Settled.of_eq (h : x.Settled) (hstate : y.state = x.state)
    (hstatus : y.status = x.status) : y.Settled := by
  obtain ⟨hreq, hxbsy, hio, hcd⟩ := h
  unfold bit at hreq hxbsy hio hcd
  constructor <;> unfold bit <;> rw [hstatus, hstate] <;> assumption

theorem getLsbD_bitMask {b i : ℕ} (hi : i < 8) : (bitMask b).getLsbD i = decide (i = b) := by
  have hone : BitVec.getLsbD (1 : Byte) (i - b) = decide (i - b = 0) := by
    rw [show (1 : Byte) = 1#8 from rfl, BitVec.getLsbD_one]
    rfl
  rw [bitMask, BitVec.getLsbD_shiftLeft, hone, Bool.eq_iff_iff]
  simp only [Bool.and_eq_true, Bool.not_eq_true', decide_eq_true_eq, decide_eq_false_iff_not]
  omega

@[simp] theorem bit_setState (s : XthdcState) (i : ℕ) : (x.setState s).bit i = x.bit i := rfl

theorem bit_statusSet {b i : ℕ} (hi : i < 8) :
    (x.statusSet b).bit i = (x.bit i || decide (i = b)) := by
  rw [bit, statusSet, BitVec.getLsbD_or, getLsbD_bitMask hi]
  rfl

theorem bit_statusClear {b i : ℕ} (hi : i < 8) :
    (x.statusClear b).bit i = (x.bit i && !decide (i = b)) := by
  rw [bit, statusClear, BitVec.getLsbD_and, BitVec.getLsbD_not, getLsbD_bitMask hi,
    decide_eq_true hi]
  rfl

theorem bit_interrupting {i : ℕ} (hi : i < 8) (hne : i ≠ xthdcStatusIrq) :
    x.interrupting.bit i = x.bit i := by
  unfold interrupting
  split_ifs
  · rw [bit_statusSet hi, decide_eq_false hne, Bool.or_false]
  · rfl

@[simp] theorem interrupting_state (x : Xthdc) : x.interrupting.state = x.state := by
  unfold interrupting
  split <;> rfl

/-- The end of a command. -/
theorem settled_completed (hreq : x.bit xthdcStatusReq = true)
    (hxbsy : x.bit xthdcStatusXbsy = true) (hcd : x.bit xthdcStatusCd = true) :
    x.completed.Settled := by
  -- a command ends with IO set, and the interrupt bit is another one
  have hbit : ∀ i < 8, i ≠ xthdcStatusIrq →
      x.completed.bit i = (x.bit i || decide (i = xthdcStatusIo)) := by
    intro i hi hne
    rw [completed, bit_setState, bit_statusSet hi, bit_interrupting hi hne]
  constructor
  · rw [hbit _ (by decide) (by decide), hreq]
    rfl
  · rw [hbit _ (by decide) (by decide), hxbsy]
    rfl
  · rw [hbit _ (by decide) (by decide)]
    exact Bool.or_true _
  · rw [hbit _ (by decide) (by decide), hcd]
    rfl

/-- A command ends in a phase in which the driver sends bytes. -/
theorem Settled.completed (h : x.Settled) (hbusy : x.state.busy = true)
    (hcontrol : x.state.control = true) (hstatus : y.status = x.status) : y.completed.Settled := by
  have hbit : ∀ i, y.bit i = x.bit i := fun i => congrArg (BitVec.getLsbD · i) hstatus
  refine settled_completed ?_ ?_ ?_
  · rw [hbit, h.req, hbusy]
  · rw [hbit, h.xbsy, hbusy]
  · rw [hbit, h.cd, hcontrol]

@[simp] theorem advance_status (overrun : String) (x : Xthdc) :
    (x.advance overrun).1.status = x.status := by
  unfold advance
  dsimp only
  split_ifs <;> rfl

theorem status_iterate (n : ℕ) (x : Xthdc) :
    ((fun x => (xthdcImageReadCallback x).2.1)^[n] x).status = x.status :=
  kept_iterate (f := fun x => (xthdcImageReadCallback x).2.1) (fun _ => advance_status ..) n x

theorem status_foldl (bytes : List Byte) (x : Xthdc) :
    (bytes.foldl (fun x v => (xthdcImageWriteCallback v x).2.1) x).status = x.status :=
  kept_foldl (f := fun x v => (xthdcImageWriteCallback v x).2.1)
    (fun _ _ => advance_status ..) bytes x

end Xthdc

/-! ### The data port in the READ_SECTOR state -/

/-- The controller after a byte of a sector has been read through the data port. -/
def Xthdc.sectorRead (x : Xthdc) : Xthdc :=
  let y := { x.readSectorByte.2 with byteNo := x.byteNo + 1 }
  if y.byteNo.toNat ≥ diskSectorSize then
    ({ y with commandStatus := 0 }.interrupting).setState .status
  else y

/-- The data port in the middle of a sector. -/
theorem dev_dataRead_of_sector {m : Machine Xthdc} (h : m.dev.state = .readSector) (port : Word) :
    (outcome (xthdcDataRead port) m).2.dev = m.dev.sectorRead := by
  have hbyte : outcome (runLocal fun x : Xthdc => (x.readSectorByte.1, x.readSectorByte.2, [])) m =
      (m.dev.readSectorByte.1, { m with dev := m.dev.readSectorByte.2 }) := rfl
  have hnext : m.dev.readSectorByte.2.byteNo = m.dev.byteNo := rfl
  simp only [xthdcDataRead, outcome_bind, outcome_getDev, h, hbyte, outcome_modifyDev, outcome_ite,
    outcome_pure, hnext]
  unfold Xthdc.sectorRead
  dsimp only
  split_ifs
  · rw [dev_xthdcIrq]
  · rfl

theorem value_dataRead_of_sector {m : Machine Xthdc} (h : m.dev.state = .readSector)
    (port : Word) : (outcome (xthdcDataRead port) m).1 = m.dev.data m.dev.index := by
  simp only [xthdcDataRead, outcome_bind, outcome_getDev, h]
  rfl

/-! ### Accesses -/

/-- An access that keeps the register and the phase together: a reset only between two commands,
and no read of the last byte of a sector through the data port. -/
def KeepsPhase (m : Machine Xthdc) : Access Xthdc → Prop
  | .write port _ => port = 0x321 → m.dev.state = .idle
  | .read port => port = 0x320 → m.dev.state = .readSector →
    (m.dev.byteNo + 1).toNat < diskSectorSize
  | .other _ => True

section Command

variable {m : Machine Xthdc} (h : m.dev.Settled) (hstate : m.dev.state = .commandParam5)

include h hstate

/-- A READ completes, or waits for its sector to be read. -/
theorem settled_read : (outcome xthdcRead m).2.dev.Settled := by
  have hbusy : m.dev.state.busy = true := by rw [hstate]; rfl
  have hcontrol : m.dev.state.control = true := by rw [hstate]; rfl
  rw [dev_xthdcRead]
  split_ifs with hmask hmode
  · exact h.completed hbusy hcontrol (Xthdc.status_iterate _ _)
  · exact h.completed hbusy hcontrol rfl
  -- without DMA the direction changes, and the sector follows
  · have hbit : ∀ i < 8, (((m.dev.started.statusClear xthdcStatusCd).statusSet
        xthdcStatusIo).setState .readSector).bit i =
        (m.dev.bit i && !decide (i = xthdcStatusCd) || decide (i = xthdcStatusIo)) := by
      intro i hi
      rw [Xthdc.bit_setState, Xthdc.bit_statusSet hi, Xthdc.bit_statusClear hi]
      rfl
    constructor
    · rw [hbit _ (by decide), h.req, hbusy]
      rfl
    · rw [hbit _ (by decide), h.xbsy, hbusy]
      rfl
    · rw [hbit _ (by decide)]
      exact Bool.or_true _
    · rw [hbit _ (by decide), h.cd, hcontrol]
      rfl

/-- A WRITE completes, with DMA or without. -/
theorem settled_write : (outcome xthdcWrite m).2.dev.Settled := by
  have hbusy : m.dev.state.busy = true := by rw [hstate]; rfl
  have hcontrol : m.dev.state.control = true := by rw [hstate]; rfl
  rw [dev_xthdcWrite]
  split_ifs with hmask hmode
  · exact h.completed hbusy hcontrol (Xthdc.status_foldl _ _)
  · exact h.completed hbusy hcontrol rfl
  · -- without DMA the command ends as if it had been carried out, without its interrupt
    have hbit : ∀ i < 8, ((m.dev.started.statusSet xthdcStatusIo).setState .status).bit i =
        (m.dev.bit i || decide (i = xthdcStatusIo)) := by
      intro i hi
      rw [Xthdc.bit_setState, Xthdc.bit_statusSet hi]
      rfl
    constructor
    · rw [hbit _ (by decide), h.req, hbusy]
      rfl
    · rw [hbit _ (by decide), h.xbsy, hbusy]
      rfl
    · rw [hbit _ (by decide)]
      exact Bool.or_true _
    · rw [hbit _ (by decide), h.cd, hcontrol]
      rfl

/-- The command switch. -/
theorem settled_command : (outcome xthdcCommand m).2.dev.Settled := by
  have hbusy : m.dev.state.busy = true := by rw [hstate]; rfl
  have hcontrol : m.dev.state.control = true := by rw [hstate]; rfl
  simp only [xthdcCommand, outcome_bind, outcome_getDev, outcome_ite]
  by_cases hread : m.dev.command 0 = xthdcCmdRead
  · rw [if_pos hread]
    exact settled_read h hstate
  by_cases hwrite : m.dev.command 0 = xthdcCmdWrite
  · rw [if_neg hread, if_pos hwrite]
    exact settled_write h hstate
  rw [if_neg hread, if_neg hwrite]
  -- the other commands end at once, except INITIALIZE DRIVE, which waits for its bytes
  split_ifs with hverify hinit
  case pos =>
    rw [dev_xthdcReport]
    exact h.completed hbusy hcontrol rfl
  case pos =>
    obtain ⟨hreq, hxbsy, hio, hcd⟩ := h
    rw [hstate] at hreq hxbsy hio hcd
    exact ⟨hreq, hxbsy, hio, hcd⟩
  all_goals
    simp only [outcome_devicePanic, dev_xthdcReport]
    exact h.completed hbusy hcontrol rfl

end Command

/-- A byte of the command block, of which more are to come. -/
theorem settled_parameter {m : Machine Xthdc} (h : m.dev.Settled) (i : Fin 6) (value : Byte)
    {next : XthdcState} (hbusy : next.busy = m.dev.state.busy)
    (hinput : next.input = m.dev.state.input) (hcontrol : next.control = m.dev.state.control) :
    (outcome (xthdcParameter i value next) m).2.dev.Settled := by
  obtain ⟨hreq, hxbsy, hio, hcd⟩ := h
  rw [← hbusy] at hreq hxbsy
  rw [← hinput] at hio
  rw [← hcontrol] at hcd
  exact ⟨hreq, hxbsy, hio, hcd⟩

/-- A write of the data port keeps the status register in step. -/
theorem settled_dataWrite {m : Machine Xthdc} (h : m.dev.Settled) (port : Word) (value : Byte) :
    (outcome (xthdcDataWrite port value) m).2.dev.Settled := by
  simp only [xthdcDataWrite, outcome_bind, outcome_getDev]
  cases hs : m.dev.state with
  | commandParam5 =>
    have hset : (m.dev.setCommand 5 value).Settled := h.of_eq rfl rfl
    exact settled_command (m := { m with dev := m.dev.setCommand 5 value }) hset hs
  -- the last of the eight bytes ends the command
  | initializeDrive =>
    simp only [outcome_bind, outcome_getDev, outcome_modifyDev, outcome_ite, outcome_pure]
    split_ifs
    · rw [dev_xthdcReport]
      refine h.completed ?_ ?_ rfl <;> rw [hs] <;> rfl
    · exact h.of_eq rfl rfl
  | status | idle | readSector => exact h
  | command | commandParam1 | commandParam2 | commandParam3 | commandParam4 =>
    refine settled_parameter h _ _ ?_ ?_ ?_ <;> rw [hs] <;> rfl

/-- A read of the data port keeps the status register in step, if it does not end a sector. -/
theorem settled_dataRead {m : Machine Xthdc} (h : m.dev.Settled) (port : Word)
    (hlast : m.dev.state = .readSector → (m.dev.byteNo + 1).toNat < diskSectorSize) :
    (outcome (xthdcDataRead port) m).2.dev.Settled := by
  by_cases hsector : m.dev.state = .readSector
  · rw [dev_dataRead_of_sector hsector, Xthdc.sectorRead,
      if_neg (Nat.not_le.mpr (hlast hsector))]
    exact h.of_eq rfl rfl
  simp only [xthdcDataRead, outcome_bind, outcome_getDev]
  cases hs : m.dev.state with
  -- the status byte ends the command, and clears all four bits
  | status =>
    have hbit : ∀ i < 8, ((((m.dev.statusClear xthdcStatusReq).statusClear
        xthdcStatusXbsy).statusClear xthdcStatusCd).statusClear xthdcStatusIo).bit i =
        (((m.dev.bit i && !decide (i = xthdcStatusReq)) && !decide (i = xthdcStatusXbsy)) &&
          !decide (i = xthdcStatusCd) && !decide (i = xthdcStatusIo)) := by
      intro i hi
      rw [Xthdc.bit_statusClear hi, Xthdc.bit_statusClear hi, Xthdc.bit_statusClear hi,
        Xthdc.bit_statusClear hi]
    constructor
    · exact (hbit 0 (by decide)).trans (by cases m.dev.bit 0 <;> rfl)
    · exact (hbit 3 (by decide)).trans (by cases m.dev.bit 3 <;> rfl)
    · exact (hbit 1 (by decide)).trans (by cases m.dev.bit 1 <;> rfl)
    · exact (hbit 2 (by decide)).trans (by cases m.dev.bit 2 <;> rfl)
  | readSector => exact absurd hs hsector
  | idle | command | commandParam1 | commandParam2 | commandParam3 | commandParam4
  | commandParam5 | initializeDrive => exact h

/-- A selection starts a command from any state. -/
theorem settled_driveSelWrite (m : Machine Xthdc) (port : Word) (value : Byte) :
    (outcome (xthdcDriveSelWrite port value) m).2.dev.Settled := by
  -- all four bits are set or cleared, so that it does not matter what they were
  have hbit : ∀ i < 8, ((((m.dev.statusSet xthdcStatusReq).statusSet
      xthdcStatusXbsy).statusSet xthdcStatusCd).statusClear xthdcStatusIo).bit i =
      ((((m.dev.bit i || decide (i = xthdcStatusReq)) || decide (i = xthdcStatusXbsy)) ||
        decide (i = xthdcStatusCd)) && !decide (i = xthdcStatusIo)) := by
    intro i hi
    rw [Xthdc.bit_statusClear hi, Xthdc.bit_statusSet hi, Xthdc.bit_statusSet hi,
      Xthdc.bit_statusSet hi]
  constructor
  · exact (hbit 0 (by decide)).trans (by cases m.dev.bit 0 <;> rfl)
  · exact (hbit 3 (by decide)).trans (by cases m.dev.bit 3 <;> rfl)
  · exact (hbit 1 (by decide)).trans (by cases m.dev.bit 1 <;> rfl)
  · exact (hbit 2 (by decide)).trans (by cases m.dev.bit 2 <;> rfl)

/-- A read of the status register ends the interrupt. -/
theorem settled_statusRead {m : Machine Xthdc} (h : m.dev.Settled) (port : Word) :
    (outcome (xthdcStatusRead port) m).2.dev.Settled := by
  have hbit : ∀ i < 8, i ≠ xthdcStatusIrq →
      (m.dev.statusClear xthdcStatusIrq).bit i = m.dev.bit i := by
    intro i hi hne
    rw [Xthdc.bit_statusClear hi, decide_eq_false hne]
    exact Bool.and_true _
  constructor
  · exact (hbit _ (by decide) (by decide)).trans h.req
  · exact (hbit _ (by decide) (by decide)).trans h.xbsy
  · exact (hbit _ (by decide) (by decide)).trans h.io
  · exact (hbit _ (by decide) (by decide)).trans h.cd

/-- An access that keeps the phase keeps the status register in step. -/
theorem settled_after {m : Machine Xthdc} (h : m.dev.Settled) {a : Access Xthdc}
    (ha : KeepsPhase m a) : (xthdcDevices.after m a).dev.Settled := by
  cases a using xthdc_cases m with
  | dataRead => exact settled_dataRead h _ (ha rfl)
  | statusRead => exact settled_statusRead h _
  | dataWrite value => exact settled_dataWrite h _ value
  -- a reset between two commands changes nothing
  | resetWrite value => exact h.of_eq (ha rfl).symm rfl
  | driveSelWrite value => exact settled_driveSelWrite m _ value
  | maskWrite value => exact h.of_eq rfl rfl
  | kept a _ _ hdev =>
    rw [hdev]
    exact h

/-- The other accesses leave a register that does not agree with the state: after the reset all
bits are still set, and after the last byte of the sector CD is still clear. -/
theorem not_agrees_after {m : Machine Xthdc} (h : m.dev.Settled) {a : Access Xthdc}
    (ha : ¬KeepsPhase m a) : ¬(xthdcDevices.after m a).dev.Agrees := by
  cases a with
  | other m' => exact absurd trivial ha
  | read port =>
    obtain ⟨rfl, hrest⟩ := Classical.not_imp.mp ha
    obtain ⟨hs, hlast⟩ := Classical.not_imp.mp hrest
    have hfunc : xthdcDevices.read 0x320 = some xthdcDataRead := rfl
    -- after the last byte of the sector the status is due, but CD stays clear
    rw [Devices.after_read hfunc, dev_dataRead_of_sector hs, Xthdc.sectorRead,
      if_pos (Nat.not_lt.mp hlast)]
    intro hagrees
    have hcd := hagrees.cd (.inr rfl)
    rw [Xthdc.bit_setState, Xthdc.bit_interrupting (by decide) (by decide)] at hcd
    have hclear : m.dev.bit xthdcStatusCd = false := by rw [h.cd, hs]; rfl
    exact absurd (hcd.symm.trans hclear) (by decide)
  | write port value =>
    obtain ⟨rfl, hs⟩ := Classical.not_imp.mp ha
    have hfunc : xthdcDevices.write 0x321 = some xthdcResetWrite := rfl
    rw [Devices.after_write hfunc]
    intro hagrees
    -- away from the idle state REQ is set, and the reset does not clear it
    have hreq : m.dev.bit xthdcStatusReq = true := by
      rw [h.req]
      cases hstate : m.dev.state with
      | idle => exact absurd hstate hs
      | _ => rfl
    exact hagrees.req.mp hreq rfl

/-- **The status register.** It agrees with the state after every access of a run exactly when no
reset comes in the middle of a command and no sector is read to its end through the data port. -/
theorem status_agrees_iff (file : Option (List Byte)) (m : Machine Xthdc)
    (as : List (Access Xthdc)) :
    Along xthdcDevices.after (fun m a => (xthdcDevices.after m a).dev.Agrees) (m.withDisk file)
        as ↔
      Along xthdcDevices.after KeepsPhase (m.withDisk file) as := by
  -- at the start the controller is idle and the register is clear
  have hfresh : (m.withDisk file).dev.Settled := by
    have hstate := (xthdcImageLoad_fresh file).1
    have hstatus : (xthdcImageLoad file xthdcInit).2.status = 0 := by
      unfold xthdcImageLoad
      split
      · rfl
      · split <;> rfl
    have hinit : xthdcInit.Settled := ⟨rfl, rfl, rfl, rfl⟩
    exact hinit.of_eq hstate hstatus
  refine along_iff (I := fun m => m.dev.Settled) (fun m a h ha => settled_after h ha)
    (fun m a h => ⟨?_, fun ha => (settled_after h ha).agrees⟩) hfresh as
  -- an access that does not keep the phase leaves the bits of the state before
  intro hagrees
  by_contra ha
  exact not_agrees_after h ha hagrees

/-- After a selection and a reset REQ is set in the IDLE state. -/
theorem status_disagrees : ¬ ∀ (file : Option (List Byte)) (m : Machine Xthdc)
    (as : List (Access Xthdc)),
    Along xthdcDevices.after (fun m a => (xthdcDevices.after m a).dev.Agrees) (m.withDisk file)
      as := by
  intro h
  have hagrees := (h none (machineInit xthdcInit) [.write 0x322 0x00, .write 0x321 0x00]).2.1
  have hreq := hagrees.req.mp (by decide)
  exact hreq rfl

end Pc20iii
