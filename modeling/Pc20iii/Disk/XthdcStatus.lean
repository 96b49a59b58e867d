import Pc20iii.Disk.XthdcLinear
import Pc20iii.Disk.XthdcPhase

/-!
# The completion status of the hard disk controller

A command ends in the STATUS state, where the data port gives the byte `command_status`. Most
commands set it when they complete; READ and WRITE with DMA do not, and neither does WRITE
without DMA (`reported`). They report what an earlier command has left there
(`commandStatus_after`, `commandStatus_runAll`).

`completion_status_iff` compares the status of one command after two histories, and
`drive_refused_iff` says what is left of the error status of a drive that is not present.
-/

namespace Pc20iii

open StateProgram

/-! ### The commands that set the status -/

/-- The status that the command of a complete block sets. -/
def Xthdc.blockStatus (x : Xthdc) : Option Byte :=
  if x.command 0 = xthdcCmdRead then none
  else if x.command 0 = xthdcCmdWrite then none
  else if x.command 0 = xthdcCmdReadyVerify then some 0x20
  else if x.command 0 = xthdcCmdInitializeDrive then none
  else if x.command 0 = xthdcCmdRecalibrate then
    some (if (x.command 1).getLsbD 5 then 0x22 else 0)
  else if x.command 0 = xthdcCmdRequestSense then some 0x20
  else some 0

/-- The status that an access sets. -/
def reported (m : Machine Xthdc) : Access Xthdc → Option Byte
  | .write port _ =>
    if port = 0x320 then
      match m.dev.state with
      | .commandParam5 => m.dev.blockStatus
      | .initializeDrive => if m.dev.byteNo + 1 ≥ 8 then some 0 else none
      | _ => none
    else none
  | .read port =>
    if port = 0x320 ∧ m.dev.state = .readSector ∧ (m.dev.byteNo + 1).toNat ≥ diskSectorSize then
      some 0
    else none
  | .other _ => none

namespace Xthdc

@[simp] theorem interrupting_commandStatus (x : Xthdc) :
    x.interrupting.commandStatus = x.commandStatus := by
  unfold interrupting
  split <;> rfl

@[simp] theorem completed_commandStatus (x : Xthdc) : x.completed.commandStatus = x.commandStatus :=
  x.interrupting_commandStatus

@[simp] theorem advance_commandStatus (overrun : String) (x : Xthdc) :
    (x.advance overrun).1.commandStatus = x.commandStatus := by
  unfold advance
  dsimp only
  split_ifs <;> rfl

theorem commandStatus_iterate (n : ℕ) (x : Xthdc) :
    ((fun x => (xthdcImageReadCallback x).2.1)^[n] x).commandStatus = x.commandStatus :=
  kept_iterate (f := fun x => (xthdcImageReadCallback x).2.1)
    (fun _ => advance_commandStatus ..) n x

theorem commandStatus_foldl (bytes : List Byte) (x : Xthdc) :
    (bytes.foldl (fun x v => (xthdcImageWriteCallback v x).2.1) x).commandStatus =
      x.commandStatus :=
  kept_foldl (f := fun x v => (xthdcImageWriteCallback v x).2.1)
    (fun _ _ => advance_commandStatus ..) bytes x

end Xthdc

theorem commandStatus_read (m : Machine Xthdc) :
    (outcome xthdcRead m).2.dev.commandStatus = m.dev.commandStatus := by
  rw [dev_xthdcRead]
  split_ifs
  · exact (Xthdc.completed_commandStatus _).trans (Xthdc.commandStatus_iterate ..)
  · exact Xthdc.completed_commandStatus _
  · rfl

theorem commandStatus_write (m : Machine Xthdc) :
    (outcome xthdcWrite m).2.dev.commandStatus = m.dev.commandStatus := by
  rw [dev_xthdcWrite]
  split_ifs
  · exact (Xthdc.completed_commandStatus _).trans (Xthdc.commandStatus_foldl ..)
  · exact Xthdc.completed_commandStatus _
  · rfl

/-- The status after the command switch. -/
theorem commandStatus_command (m : Machine Xthdc) :
    (outcome xthdcCommand m).2.dev.commandStatus =
      m.dev.blockStatus.getD m.dev.commandStatus := by
  simp only [xthdcCommand, outcome_bind, outcome_getDev, outcome_ite]
  unfold Xthdc.blockStatus
  by_cases hread : m.dev.command 0 = xthdcCmdRead
  · rw [if_pos hread, if_pos hread]
    exact commandStatus_read m
  by_cases hwrite : m.dev.command 0 = xthdcCmdWrite
  · rw [if_neg hread, if_pos hwrite, if_neg hread, if_pos hwrite]
    exact commandStatus_write m
  -- the others report a status of their own, or none
  rw [if_neg hread, if_neg hwrite, if_neg hread, if_neg hwrite]
  split_ifs
  all_goals
    simp only [outcome_modifyDev, outcome_devicePanic, dev_xthdcReport,
      Xthdc.completed_commandStatus, Option.getD_some, Option.getD_none]
  rfl

/-- A write of the data port sets the status that it reports, or keeps the one there was. -/
theorem commandStatus_dataWrite (value : Byte) (m : Machine Xthdc) :
    (outcome (xthdcDataWrite 0x320 value) m).2.dev.commandStatus =
      (reported m (.write 0x320 value)).getD m.dev.commandStatus := by
  rw [reported, if_pos rfl]
  simp only [xthdcDataWrite, outcome_bind, outcome_getDev]
  cases hs : m.dev.state with
  | commandParam5 =>
    exact commandStatus_command { m with dev := m.dev.setCommand 5 value }
  | initializeDrive =>
    simp only [outcome_bind, outcome_getDev, outcome_modifyDev, outcome_ite, outcome_pure]
    split_ifs
    · rw [dev_xthdcReport, Xthdc.completed_commandStatus]
      rfl
    · rfl
  | _ => rfl

/-- A read of the data port sets a status only at the end of a sector. -/
theorem commandStatus_dataRead (m : Machine Xthdc) :
    (outcome (xthdcDataRead 0x320) m).2.dev.commandStatus =
      (reported m (.read 0x320)).getD m.dev.commandStatus := by
  by_cases hsector : m.dev.state = .readSector
  · rw [dev_dataRead_of_sector hsector, reported, Xthdc.sectorRead]
    dsimp only
    -- the last byte of a sector completes the command
    by_cases hlast : (m.dev.byteNo + 1).toNat ≥ diskSectorSize
    · rw [if_pos hlast, if_pos ⟨rfl, hsector, hlast⟩]
      exact Xthdc.interrupting_commandStatus _
    · rw [if_neg hlast, if_neg fun h => hlast h.2.2]
      rfl
  · rw [reported, if_neg fun h => hsector h.2.1]
    simp only [xthdcDataRead, outcome_bind, outcome_getDev]
    cases hs : m.dev.state with
    | readSector => exact absurd hs hsector
    | _ => rfl

/-- Only accesses of the data port set the status. -/
theorem reported_of_kept {m : Machine Xthdc} {a : Access Xthdc} (hread : a ≠ .read 0x320)
    (hwrite : ∀ value, a ≠ .write 0x320 value) : reported m a = none := by
  cases a with
  | other m' => rfl
  | read port => exact if_neg fun h => hread (congrArg Access.read h.1)
  | write port value =>
    refine if_neg ?_
    rintro rfl
    exact hwrite value rfl

/-- Every access leaves the status that it sets, or the last one. -/
theorem commandStatus_after (m : Machine Xthdc) (a : Access Xthdc) :
    (xthdcDevices.after m a).dev.commandStatus = (reported m a).getD m.dev.commandStatus := by
  cases a using xthdc_cases m with
  | dataRead => exact commandStatus_dataRead m
  | dataWrite value => exact commandStatus_dataWrite value m
  | statusRead | resetWrite | driveSelWrite | maskWrite => rfl
  | kept a hread hwrite hdev => rw [hdev, reported_of_kept hread hwrite, Option.getD_none]

/-- The statuses that the accesses of a run set. -/
def statuses (m : Machine Xthdc) (as : List (Access Xthdc)) : List Byte :=
  collect xthdcDevices.after (fun m a => (reported m a).toList) m as

/-- After a run the status is the last one that was set. -/
theorem commandStatus_runAll (m : Machine Xthdc) (as : List (Access Xthdc)) :
    (runAll xthdcDevices.after m as).dev.commandStatus =
      (statuses m as).getLastD m.dev.commandStatus := by
  induction as generalizing m with
  | nil => rfl
  | cons a as ih =>
    rw [runAll_cons, ih, commandStatus_after]
    show _ = ((reported m a).toList ++ statuses (xthdcDevices.after m a) as).getLastD _
    cases reported m a with
    | none => rfl
    | some status =>
      rw [Option.toList_some, List.singleton_append, List.getLastD_cons]
      rfl

/-! ### Completion -/

/-- The access ends a command. -/
def EndsCommand (m : Machine Xthdc) (a : Access Xthdc) : Prop :=
  m.dev.state ≠ .status ∧ (xthdcDevices.after m a).dev.state = .status

/-- The command whose block is complete with the next byte sets no status. -/
def LeavesStatus (m : Machine Xthdc) : Prop :=
  m.dev.state = .commandParam5 ∧
    (m.dev.command 0 = xthdcCmdRead ∨ m.dev.command 0 = xthdcCmdWrite)

theorem blockStatus_none {x : Xthdc} (h : x.blockStatus = none) :
    x.command 0 = xthdcCmdRead ∨ x.command 0 = xthdcCmdWrite ∨
      x.command 0 = xthdcCmdInitializeDrive := by
  unfold Xthdc.blockStatus at h
  split_ifs at h with hread hwrite _ hinit
  · exact .inl hread
  · exact .inr (.inl hwrite)
  · exact .inr (.inr hinit)

theorem blockStatus_of_leaves {m : Machine Xthdc} (h : LeavesStatus m) :
    m.dev.blockStatus = none := by
  unfold Xthdc.blockStatus
  by_cases hread : m.dev.command 0 = xthdcCmdRead
  · rw [if_pos hread]
  · rw [if_neg hread, if_pos (h.2.resolve_left hread)]

theorem reported_of_leaves {m : Machine Xthdc} (h : LeavesStatus m) (value : Byte) :
    reported m (.write 0x320 value) = none := by
  rw [reported, if_pos rfl, h.1]
  exact blockStatus_of_leaves h

/-- A write of the data port that ends a command without a status. -/
theorem leavesStatus_of_write {m : Machine Xthdc} {value : Byte}
    (hc : EndsCommand m (.write 0x320 value)) (h : reported m (.write 0x320 value) = none) :
    LeavesStatus m := by
  have hfunc : xthdcDevices.write 0x320 = some xthdcDataWrite := rfl
  obtain ⟨hbefore, hafter⟩ := hc
  rw [Devices.after_write hfunc] at hafter
  rw [reported, if_pos rfl] at h
  simp only [xthdcDataWrite, outcome_bind, outcome_getDev] at hafter
  cases hs : m.dev.state with
  | commandParam5 =>
    rw [hs] at h hafter
    rcases blockStatus_none h with hread | hwrite | hinit
    · exact ⟨hs, .inl hread⟩
    · exact ⟨hs, .inr hwrite⟩
    · -- INITIALIZE DRIVE goes on with its eight bytes
      have hcode : (m.dev.setCommand 5 value).command 0 = xthdcCmdInitializeDrive := hinit
      simp only [xthdcCommand, outcome_bind, outcome_getDev, outcome_ite, outcome_modifyDev,
        hcode] at hafter
      cases hafter
  -- its last byte reports, and the others do not end it
  | initializeDrive =>
    simp only [hs] at h hafter
    simp only [outcome_bind, outcome_getDev, outcome_modifyDev, outcome_ite, outcome_pure] at hafter
    split_ifs at h hafter
    have hstays := hs.symm.trans hafter
    cases hstays
  | status => exact absurd hs hbefore
  | idle | readSector =>
    rw [hs] at hafter
    have hstays := hs.symm.trans hafter
    cases hstays
  | command | commandParam1 | commandParam2 | commandParam3 | commandParam4 =>
    rw [hs] at hafter
    cases hafter

/-- A read that ends a command reports. -/
theorem not_completes_of_read {m : Machine Xthdc} (hc : EndsCommand m (.read 0x320)) :
    reported m (.read 0x320) ≠ none := by
  have hfunc : xthdcDevices.read 0x320 = some xthdcDataRead := rfl
  obtain ⟨hbefore, hafter⟩ := hc
  rw [Devices.after_read hfunc] at hafter
  intro h
  by_cases hsector : m.dev.state = .readSector
  · rw [dev_dataRead_of_sector hsector, Xthdc.sectorRead] at hafter
    dsimp only at hafter
    split_ifs at hafter with hlast
    · rw [reported, if_pos ⟨rfl, hsector, hlast⟩] at h
      cases h
    -- the state stays, so no command ends
    · have hstays := hsector.symm.trans hafter
      cases hstays
  · simp only [xthdcDataRead, outcome_bind, outcome_getDev] at hafter
    cases hs : m.dev.state with
    | readSector => exact absurd hs hsector
    | status => exact absurd hs hbefore
    | _ =>
      rw [hs] at hafter
      have hstays := hs.symm.trans hafter
      cases hstays

/-- Of the commands that end, READ and WRITE set no status when their block is complete. -/
theorem reported_eq_none_iff {m : Machine Xthdc} {a : Access Xthdc} (hc : EndsCommand m a) :
    reported m a = none ↔ LeavesStatus m := by
  cases a using xthdc_cases m with
  | dataRead =>
    refine iff_of_false (not_completes_of_read hc) ?_
    rintro ⟨hs, -⟩
    have hafter : (outcome (xthdcDataRead 0x320) m).2.dev.state = .status := hc.2
    simp only [xthdcDataRead, outcome_bind, outcome_getDev, hs] at hafter
    have hstays := hs.symm.trans hafter
    cases hstays
  | dataWrite value => exact ⟨leavesStatus_of_write hc, fun h => reported_of_leaves h value⟩
  -- these do not end a command
  | statusRead | maskWrite => exact absurd hc.2 hc.1
  | resetWrite | driveSelWrite =>
    have hafter := hc.2
    cases hafter
  | kept a _ _ hdev => exact absurd ((congrArg Xthdc.state hdev).symm.trans hc.2) hc.1

/-- The byte that the data port gives next. -/
def statusByte (m : Machine Xthdc) : Byte := (outcome (xthdcDataRead 0x320) m).1

theorem statusByte_of_status {m : Machine Xthdc} (h : m.dev.state = .status) :
    statusByte m = m.dev.commandStatus := by
  unfold statusByte
  simp only [xthdcDataRead, outcome_bind, outcome_getDev, h]
  rfl

theorem EndsCommand.statusByte {m : Machine Xthdc} {a : Access Xthdc} (h : EndsCommand m a) :
    statusByte (xthdcDevices.after m a) = (reported m a).getD m.dev.commandStatus := by
  rw [statusByte_of_status h.2, commandStatus_after]

/-- Two machines in which the same command is about to end. -/
structure SameCommand (m m' : Machine Xthdc) : Prop where
  state : m.dev.state = m'.dev.state
  command : m.dev.command = m'.dev.command
  byteNo : m.dev.byteNo = m'.dev.byteNo
  mask : m.dev.mask = m'.dev.mask

/-- What an access reports is seen from the state, the byte and the command. -/
theorem SameCommand.reported {m m' : Machine Xthdc} (h : SameCommand m m') (a : Access Xthdc) :
    reported m a = reported m' a := by
  have hblock : m.dev.blockStatus = m'.dev.blockStatus := by
    unfold Xthdc.blockStatus
    rw [h.command]
  cases a with
  | other m'' => rfl
  | read port =>
    unfold Pc20iii.reported
    rw [h.state, h.byteNo]
  | write port value =>
    unfold Pc20iii.reported
    rw [h.state, h.byteNo, hblock]

/-- The error bit of the completion status. -/
def xthdcErrorBit : ℕ := 1

/-- The status bytes of the same command after two histories. -/
theorem statusByte_eq_iff {m m' : Machine Xthdc} {a : Access Xthdc} (h : SameCommand m m')
    (hc : EndsCommand m a) (hc' : EndsCommand m' a) :
    statusByte (xthdcDevices.after m a) = statusByte (xthdcDevices.after m' a) ↔
      ¬LeavesStatus m ∨ m.dev.commandStatus = m'.dev.commandStatus := by
  rw [hc.statusByte, hc'.statusByte, ← h.reported a, ← reported_eq_none_iff hc]
  cases reported m a with
  | none => simp
  | some status => simp

/-- A transfer that is carried out completes with the status that it finds. -/
theorem DiskCommand.statusByte {m : Machine Xthdc} {code mode : Byte}
    (h : DiskCommand m code mode) (hmode : code = xthdcCmdRead ∧ mode = dmaModeWrite ∨
      code = xthdcCmdWrite ∧ mode = dmaModeRead) (value : Byte) :
    statusByte (xthdcDevices.after m (.write 0x320 value)) = m.dev.commandStatus := by
  have hstatus : (xthdcDevices.after m (.write 0x320 value)).dev.state = .status := by
    rcases hmode with ⟨rfl, rfl⟩ | ⟨rfl, rfl⟩
    · rw [(after_diskRead h value).1]
      rfl
    · rw [after_diskWrite h value]
      rfl
  have hc : EndsCommand m (.write 0x320 value) := by
    refine ⟨?_, hstatus⟩
    rw [h.state]
    nofun
  -- READ and WRITE do not report
  have hleaves : LeavesStatus m := by
    refine ⟨h.state, ?_⟩
    rw [h.code]
    exact hmode.imp (fun h => h.1) fun h => h.1
  rw [hc.statusByte, reported_of_leaves hleaves]
  rfl

/-- The last status that a history of the controller has set, from `xthdc_init` on. -/
def lastStatus (m : Machine Xthdc) (file : Option (List Byte)) (as : List (Access Xthdc)) : Byte :=
  (statuses (m.withDisk file) as).getLastD 0

theorem commandStatus_history (m : Machine Xthdc) (file : Option (List Byte))
    (as : List (Access Xthdc)) :
    (runAll xthdcDevices.after (m.withDisk file) as).dev.commandStatus =
      lastStatus m file as := by
  have hfresh : (m.withDisk file).dev.commandStatus = 0 := by
    show (xthdcImageLoad file xthdcInit).2.commandStatus = 0
    unfold xthdcImageLoad
    split
    · rfl
    · split <;> rfl
  rw [commandStatus_runAll, hfresh, lastStatus]

/-- **The completion status.** The status byte of a command is the same after two histories
exactly when the command sets it, or the two have left the same one. A transfer that is carried
out completes with the error bit clear exactly when the history has left it so. -/
theorem completion_status_iff (file file' : Option (List Byte)) (m₀ m₀' : Machine Xthdc)
    (as as' : List (Access Xthdc)) :
    let m := runAll xthdcDevices.after (m₀.withDisk file) as
    let m' := runAll xthdcDevices.after (m₀'.withDisk file') as'
    (∀ a, SameCommand m m' → EndsCommand m a → EndsCommand m' a →
      (statusByte (xthdcDevices.after m a) = statusByte (xthdcDevices.after m' a) ↔
        ¬LeavesStatus m ∨ lastStatus m₀ file as = lastStatus m₀' file' as')) ∧
      ∀ code mode value, DiskCommand m code mode →
        (code = xthdcCmdRead ∧ mode = dmaModeWrite ∨ code = xthdcCmdWrite ∧ mode = dmaModeRead) →
        ((statusByte (xthdcDevices.after m (.write 0x320 value))).getLsbD xthdcErrorBit = false ↔
          (lastStatus m₀ file as).getLsbD xthdcErrorBit = false) := by
  intro m m'
  constructor
  -- what an access reports is the same for both, so only what is left can differ
  · intro a hsame hc hc'
    rw [statusByte_eq_iff hsame hc hc', commandStatus_history, commandStatus_history]
  · intro code mode value hcommand hmode
    rw [hcommand.statusByte hmode value, commandStatus_history]

/-- The accesses that send a command. -/
def sendCommand (bytes : List Byte) : List (Access Xthdc) :=
  .write 0x322 0x00 :: bytes.map fun value => .write 0x320 value

/-- A machine with channel 3 in the mode for READ. -/
def machineReading : Machine Xthdc :=
  let m := machineInit xthdcInit
  { m with fe2010 := { m.fe2010 with dmaMode := fun _ => 0x04 } }

/-- A READ with DMA, of which the last byte is due. -/
def sendRead : List (Access Xthdc) :=
  .write 0x323 0x01 :: sendCommand [0x08, 0x00, 0x00, 0x00, 0x01]

/-- The same after RECALIBRATE of drive 1. -/
def recalibrateAndSendRead : List (Access Xthdc) :=
  sendCommand [0x01, 0x20, 0x00, 0x00, 0x00, 0x00] ++ .read 0x320 :: sendRead

/-- After RECALIBRATE of drive 1 a READ of drive 0 completes with the error bit set. -/
theorem completion_status_iff_recalibrate :
    ¬(statusByte (xthdcDevices.after (runAll xthdcDevices.after (machineReading.withDisk none)
      recalibrateAndSendRead) (.write 0x320 0))).getLsbD xthdcErrorBit = false := by
  have hcommand : DiskCommand (runAll xthdcDevices.after (machineReading.withDisk none)
      recalibrateAndSendRead) xthdcCmdRead dmaModeWrite :=
    ⟨by decide, by decide, by decide, by decide, by decide, by decide, by decide⟩
  have hiff := (completion_status_iff none none machineReading machineReading
    recalibrateAndSendRead []).2 xthdcCmdRead dmaModeWrite 0 hcommand (.inl ⟨rfl, rfl⟩)
  exact mt hiff.mp (by decide)

/-- Without it the same READ completes with the error bit clear. -/
theorem completion_status_stale : ¬ ∀ (file file' : Option (List Byte))
    (m₀ m₀' : Machine Xthdc) (as as' : List (Access Xthdc)) (a : Access Xthdc),
    let m := runAll xthdcDevices.after (m₀.withDisk file) as
    let m' := runAll xthdcDevices.after (m₀'.withDisk file') as'
    SameCommand m m' → EndsCommand m a → EndsCommand m' a →
      statusByte (xthdcDevices.after m a) = statusByte (xthdcDevices.after m' a) := by
  intro h
  have hstale := h none none machineReading machineReading recalibrateAndSendRead sendRead
    (.write 0x320 0x00)
  -- the same command, behind a RECALIBRATE and without one
  have hsame : SameCommand
      (runAll xthdcDevices.after (machineReading.withDisk none) recalibrateAndSendRead)
      (runAll xthdcDevices.after (machineReading.withDisk none) sendRead) :=
    ⟨by decide, funext (by decide), by decide, by decide⟩
  exact absurd (hstale hsame ⟨by decide, by decide⟩ ⟨by decide, by decide⟩) (by decide)

/-! ### The drive that is not present -/

/-- A READ or WRITE of drive 1, of which the last byte is due. -/
structure AbsentDrive (m : Machine Xthdc) : Prop where
  state : m.dev.state = .commandParam5
  code : m.dev.command 0 = xthdcCmdRead ∨ m.dev.command 0 = xthdcCmdWrite
  drive : (m.dev.command 1).getLsbD 5 = true

/-- With the last byte the command ends with an error, and the image has neither been read nor
changed. -/
structure Refused (m : Machine Xthdc) (value : Byte) : Prop where
  data : (xthdcDevices.after m (.write 0x320 value)).dev.data = m.dev.data
  accesses : (xthdcDevices.after m (.write 0x320 value)).dev.accesses = m.dev.accesses
  completes : (xthdcDevices.after m (.write 0x320 value)).dev.state = .status
  error : (xthdcDevices.after m (.write 0x320 value)).dev.commandStatus.getLsbD xthdcErrorBit =
    true

/-- The command moves no data: with DMA the channel is not in the mode for it, and without DMA
there is no WRITE. -/
def MovesNothing (m : Machine Xthdc) : Prop :=
  if m.dev.mask.getLsbD xthdcMaskDrqen then ¬TransfersDisk m
  else m.dev.command 0 = xthdcCmdWrite

namespace Xthdc

/-- A transfer accesses the image. -/
theorem length_lt_of_transfer {x y : Xthdc} (h : Relation.TransGen Moves x y) :
    x.accesses.length < y.accesses.length := by
  induction h with
  | single hxy =>
    rw [hxy.accesses, List.length_cons]
    exact Nat.lt_succ_self _
  | tail _ hyz ih =>
    rw [hyz.accesses, List.length_cons]
    exact Nat.lt_succ_of_lt ih

end Xthdc

section AbsentDrive

variable {m : Machine Xthdc} (h : AbsentDrive m) (value : Byte)

include h

/-- The command switch for READ and WRITE. -/
theorem AbsentDrive.after :
    xthdcDevices.after m (.write 0x320 value) =
      if m.dev.command 0 = xthdcCmdRead then
        (outcome xthdcRead { m with dev := m.dev.setCommand 5 value }).2
      else (outcome xthdcWrite { m with dev := m.dev.setCommand 5 value }).2 := by
  have hfunc : xthdcDevices.write 0x320 = some xthdcDataWrite := rfl
  have hcode : (m.dev.setCommand 5 value).command 0 = m.dev.command 0 := rfl
  rw [Devices.after_write hfunc]
  simp only [xthdcDataWrite, outcome_bind, outcome_getDev, h.state, outcome_modifyDev,
    xthdcCommand, outcome_ite]
  -- READ and WRITE are the first two of the switch, and the drive bit is not in it
  rw [hcode]
  by_cases hread : m.dev.command 0 = xthdcCmdRead
  · rw [if_pos hread, if_pos hread]
  · rw [if_neg hread, if_pos (h.code.resolve_left hread), if_neg hread]

theorem AbsentDrive.dev_read (hread : m.dev.command 0 = xthdcCmdRead) :
    (xthdcDevices.after m (.write 0x320 value)).dev =
      if m.dev.mask.getLsbD xthdcMaskDrqen then
        (if m.fe2010.dmaTransfer fe2010DmaHardDisk = dmaModeWrite then
          (fun x => (xthdcImageReadCallback x).2.1)^[m.diskCount] (m.diskReady value)
        else m.diskReady value).completed
      else
        (((m.diskReady value).statusClear xthdcStatusCd).statusSet xthdcStatusIo).setState
          .readSector := by
  rw [h.after, if_pos hread, dev_xthdcRead]
  rfl

theorem AbsentDrive.dev_write (hread : m.dev.command 0 ≠ xthdcCmdRead) :
    (xthdcDevices.after m (.write 0x320 value)).dev =
      if m.dev.mask.getLsbD xthdcMaskDrqen then
        (if m.fe2010.dmaTransfer fe2010DmaHardDisk = dmaModeRead then
          (m.dmaBytes fe2010DmaHardDisk).foldl (fun x v => (xthdcImageWriteCallback v x).2.1)
            (m.diskReady value)
        else m.diskReady value).completed
      else ((m.diskReady value).statusSet xthdcStatusIo).setState .status := by
  rw [h.after, if_neg hread, dev_xthdcWrite]
  rfl

theorem AbsentDrive.commandStatus :
    (xthdcDevices.after m (.write 0x320 value)).dev.commandStatus = m.dev.commandStatus := by
  rw [commandStatus_after, reported_of_leaves ⟨h.state, h.code⟩]
  rfl

/-- Without a transfer the command ends and leaves the image alone. -/
theorem AbsentDrive.untouched (hm : MovesNothing m) :
    (xthdcDevices.after m (.write 0x320 value)).dev.data = m.dev.data ∧
      (xthdcDevices.after m (.write 0x320 value)).dev.accesses = m.dev.accesses ∧
      (xthdcDevices.after m (.write 0x320 value)).dev.state = .status := by
  unfold MovesNothing at hm
  by_cases hread : m.dev.command 0 = xthdcCmdRead
  · have hne : m.dev.command 0 ≠ xthdcCmdWrite := by rw [hread]; decide
    rw [h.dev_read value hread]
    split_ifs at hm ⊢ with hmask hmode
    · exact absurd ⟨hmask, .inl ⟨hread, hmode⟩⟩ hm
    · exact ⟨completed_data _, Xthdc.completed_accesses _, rfl⟩
    -- a READ without DMA does not end
    · exact absurd hm hne
  · have hwrite := h.code.resolve_left hread
    rw [h.dev_write value hread]
    split_ifs at hm ⊢ with hmask hmode
    · exact absurd ⟨hmask, .inr ⟨hwrite, hmode⟩⟩ hm
    · exact ⟨completed_data _, Xthdc.completed_accesses _, rfl⟩
    · exact ⟨rfl, rfl, rfl⟩

/-- A transfer accesses the image, and a READ without DMA does not end. -/
theorem AbsentDrive.touched (hm : ¬MovesNothing m) :
    (xthdcDevices.after m (.write 0x320 value)).dev.accesses ≠ m.dev.accesses ∨
      (xthdcDevices.after m (.write 0x320 value)).dev.state ≠ .status := by
  -- a transfer records at least one access
  have hmore : ∀ y : Xthdc, Relation.TransGen Xthdc.Moves (m.diskReady value) y →
      y.completed.accesses ≠ m.dev.accesses := by
    intro y hy heq
    have hlt := Xthdc.length_lt_of_transfer hy
    rw [Xthdc.completed_accesses] at heq
    rw [heq] at hlt
    exact Nat.lt_irrefl m.dev.accesses.length hlt
  unfold MovesNothing at hm
  by_cases hread : m.dev.command 0 = xthdcCmdRead
  · have hne : m.dev.command 0 ≠ xthdcCmdWrite := by rw [hread]; decide
    rw [h.dev_read value hread]
    split_ifs at hm ⊢ with hmask hmode
    · exact .inl (hmore _ (Xthdc.transfer_iterate Xthdc.moves_readCallback _ _))
    · refine absurd ?_ hm
      rintro ⟨-, hr | hw⟩
      · exact hmode hr.2
      · exact hne hw.1
    · exact .inr nofun
  · have hwrite := h.code.resolve_left hread
    have hbytes : m.dmaBytes fe2010DmaHardDisk ≠ [] := by simp [Machine.dmaBytes]
    rw [h.dev_write value hread]
    split_ifs at hm ⊢ with hmask hmode
    · exact .inl (hmore _ (Xthdc.transfer_foldl Xthdc.moves_writeCallback hbytes _))
    · refine absurd ?_ hm
      rintro ⟨-, hr | hw⟩
      · exact hread hr.1
      · exact hmode hw.2
    · exact absurd hwrite hm

end AbsentDrive

/-- **The absent drive.** A READ or WRITE of drive 1 leaves the image alone and ends with an error
exactly when it moves no data and an earlier command has left the error bit set. -/
theorem drive_refused_iff {m : Machine Xthdc} (h : AbsentDrive m) (value : Byte) :
    Refused m value ↔ MovesNothing m ∧ m.dev.commandStatus.getLsbD xthdcErrorBit = true := by
  constructor
  · rintro ⟨-, haccesses, hstatus, herror⟩
    rw [h.commandStatus value] at herror
    refine ⟨?_, herror⟩
    by_contra hm
    exact (h.touched value hm).elim (absurd haccesses) (absurd hstatus)
  · rintro ⟨hm, herror⟩
    obtain ⟨hdata, haccesses, hstatus⟩ := h.untouched value hm
    rw [← h.commandStatus value] at herror
    exact ⟨hdata, haccesses, hstatus, herror⟩

/-- A WRITE of drive 1 with DMA, of which the last byte is due. -/
def writingAbsentDrive : Machine Xthdc :=
  let m := machineInit { xthdcInit with
    state := .commandParam5
    mask := 0x01
    data := fun _ => 0xFF
    command := fun i => [0x0A, 0x20, 0x00, 0x00, 0x01, 0x00].getD i 0 }
  { m with fe2010 := { m.fe2010 with dmaMode := fun _ => 0x08 } }

/-- It is not refused, since it is carried out. -/
theorem drive_refused_iff_write : ¬Refused writingAbsentDrive 0 := by
  have hiff := drive_refused_iff (m := writingAbsentDrive) ⟨rfl, .inr rfl, by decide⟩ 0
  exact mt hiff.mp fun h => absurd h.2 (by decide)

/-- It changes the image of drive 0. -/
theorem absent_drive_written : ¬ ∀ (m : Machine Xthdc) (value : Byte), AbsentDrive m →
    Refused m value := by
  intro h
  have hrefused := h writingAbsentDrive 0 ⟨rfl, .inr rfl, by decide⟩
  exact absurd (congrFun hrefused.data 0) (by decide)

end Pc20iii
