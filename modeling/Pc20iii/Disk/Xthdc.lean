import Pc20iii.Device.Access

/-!
# The XT hard disk controller

`xthdc.c`: the command phases behind the ports 0x320 to 0x323, and the access to the disk
image through DMA or through the data port.

The image is modelled as a map on all indices, so that an access beyond `DISK_SIZE` has a
meaning; which indices the controller uses is recorded in `accesses`. The result is
`disk_accesses_lt_iff`: in every run the indices stay below `DISK_SIZE` exactly when every
command that moves data does so from a start address on the disk (`Xthdc.OnDisk`). From
there on the callbacks stay on the disk by themselves (`Xthdc.OnDisk.advance`): each
moves to the next byte of the disk and wraps at its end.
-/

namespace Pc20iii

open StateProgram

-- Instance search follows the syntax of the functions below.
set_option synthInstance.maxSize 1000

/-- `DISK_CYLINDERS`. -/
def diskCylinders : ℕ := 615

/-- `DISK_HEADS`. -/
def diskHeads : ℕ := 4

/-- `DISK_SECTORS`. -/
def diskSectors : ℕ := 17

/-- `DISK_SECTOR_SIZE`. -/
def diskSectorSize : ℕ := 512

/-- `DISK_SIZE`. -/
def diskSize : ℕ := diskCylinders * diskHeads * diskSectors * diskSectorSize

/-- `FE2010_DMA_HARD_DISK`. -/
def fe2010DmaHardDisk : Fin 4 := 3

/-- `FE2010_IRQ_HARD_DISK`. -/
def fe2010IrqHardDisk : Fin 8 := 5

/-! ### State -/

/-- `xthdc_state_t`. -/
inductive XthdcState where
  | idle
  | command
  | commandParam1
  | commandParam2
  | commandParam3
  | commandParam4
  | commandParam5
  | initializeDrive
  | readSector
  | status
deriving DecidableEq, Repr

/-- `xthdc_t`, without the file name and the pointer to the chipset. -/
structure Xthdc where
  state : XthdcState
  status : Byte
  mask : Byte
  config : Byte
  command : Fin 6 → Byte
  commandStatus : Byte
  drive : Byte
  cylinder : Word
  head : Byte
  sector : Byte
  byteNo : Word
  loaded : Bool
  data : ℕ → Byte
  /-- History: the indices at which `data` is accessed, newest first. -/
  accesses : List ℕ

/-! The bits of the status register. -/

def xthdcStatusReq : ℕ := 0
def xthdcStatusIo : ℕ := 1
def xthdcStatusCd : ℕ := 2
def xthdcStatusXbsy : ℕ := 3
def xthdcStatusIrq : ℕ := 5

/-! The bits of the mask register. -/

def xthdcMaskDrqen : ℕ := 0
def xthdcMaskIrqen : ℕ := 1

/-! The commands that the source handles. -/

def xthdcCmdTestDrive : Byte := 0x00
def xthdcCmdRecalibrate : Byte := 0x01
def xthdcCmdRequestSense : Byte := 0x03
def xthdcCmdReadyVerify : Byte := 0x05
def xthdcCmdRead : Byte := 0x08
def xthdcCmdWrite : Byte := 0x0A
def xthdcCmdInitializeDrive : Byte := 0x0C
def xthdcCmdCtrlDiagnostic : Byte := 0xE4

namespace Xthdc

/-- `xthdc_status_set`. -/
def statusSet (bit : ℕ) (x : Xthdc) : Xthdc := { x with status := x.status ||| bitMask bit }

/-- `xthdc_status_clear`. -/
def statusClear (bit : ℕ) (x : Xthdc) : Xthdc := { x with status := x.status &&& ~~~bitMask bit }

/-- An assignment to the state. -/
def setState (state : XthdcState) (x : Xthdc) : Xthdc := { x with state := state }

/-- An assignment to the command block. -/
def setCommand (i : Fin 6) (value : Byte) (x : Xthdc) : Xthdc :=
  { x with command := Function.update x.command i value }

/-- `xthdc_update_chs`. -/
def updateChs (x : Xthdc) : Xthdc :=
  { x with
    drive := (x.command 1 >>> 5) &&& 1
    head := x.command 1 &&& 0x1F
    sector := x.command 2 &&& 0x3F
    cylinder := (x.command 2 >>> 6).setWidth 16 * 0x100 + (x.command 3).setWidth 16 }

/-- The block address of the current position. -/
def lba (x : Xthdc) : ℕ :=
  (x.cylinder.toNat * diskHeads + x.head.toNat) * diskSectors + x.sector.toNat

/-- The index into the image of the current position. -/
def index (x : Xthdc) : ℕ := x.lba * diskSectorSize + x.byteNo.toNat

/-- `xthdc_read_sector_byte`. -/
def readSectorByte (x : Xthdc) : Byte × Xthdc :=
  (x.data x.index, { x with accesses := x.index :: x.accesses })

/-- `xthdc_write_sector_byte`. -/
def writeSectorByte (byte : Byte) (x : Xthdc) : Xthdc :=
  { x with data := Function.update x.data x.index byte, accesses := x.index :: x.accesses }

/-- The step to the next byte, which both callbacks make. -/
def advance (overrun : String) (x : Xthdc) : Xthdc × List String :=
  let x := { x with byteNo := x.byteNo + 1 }
  if x.byteNo.toNat ≥ diskSectorSize then
    let x := { x with byteNo := 0, sector := x.sector + 1 }
    if x.sector.toNat ≥ diskSectors then
      let x := { x with sector := 0, head := x.head + 1 }
      if x.head.toNat ≥ diskHeads then
        let x := { x with head := 0, cylinder := x.cylinder + 1 }
        if x.cylinder.toNat ≥ diskCylinders then
          ({ x with cylinder := 0 }, [overrun])
        else (x, [])
      else (x, [])
    else (x, [])
  else (x, [])

end Xthdc

/-- `xthdc_image_read_callback`. -/
def xthdcImageReadCallback : Local Xthdc Byte := fun x =>
  let r := x.readSectorByte
  (r.1, r.2.advance "Overrun during XT HDC read callback!\n")

/-- `xthdc_image_write_callback`. -/
def xthdcImageWriteCallback (byte : Byte) : Local Xthdc Unit := fun x =>
  ((), (x.writeSectorByte byte).advance "Overrun during XT HDC write callback!\n")

/-! ### Ports -/

/-- The interrupt at the end of a command. -/
def xthdcIrq : M Xthdc Unit := do
  if (← getDev).mask.getLsbD xthdcMaskIrqen then
    fe2010Irq fe2010IrqHardDisk
    modifyDev (Xthdc.statusSet xthdcStatusIrq)

/-- The end of a command that reports through the STATUS state. -/
def xthdcComplete : M Xthdc Unit := do
  xthdcIrq
  modifyDev (Xthdc.statusSet xthdcStatusIo)
  modifyDev (Xthdc.setState .status)

/-- The commands that set the command status and complete. -/
def xthdcReport (commandStatus : Byte) : M Xthdc Unit := do
  modifyDev fun x => { x with commandStatus := commandStatus }
  xthdcComplete

/-- `XTHDC_CMD_READ`. -/
def xthdcRead : M Xthdc Unit := do
  modifyDev Xthdc.updateChs
  modifyDev fun x => { x with byteNo := 0 }
  if (← getDev).mask.getLsbD xthdcMaskDrqen then
    fe2010DmaWrite fe2010DmaHardDisk xthdcImageReadCallback
    xthdcComplete
  else
    modifyDev (Xthdc.statusClear xthdcStatusCd)
    modifyDev (Xthdc.statusSet xthdcStatusIo)
    modifyDev (Xthdc.setState .readSector)

/-- `XTHDC_CMD_WRITE`. -/
def xthdcWrite : M Xthdc Unit := do
  modifyDev Xthdc.updateChs
  modifyDev fun x => { x with byteNo := 0 }
  if (← getDev).mask.getLsbD xthdcMaskDrqen then
    fe2010DmaRead fe2010DmaHardDisk xthdcImageWriteCallback
    xthdcComplete
  else
    devicePanic "XT HDC PIO write not implemented!\n"
    modifyDev (Xthdc.statusSet xthdcStatusIo)
    modifyDev (Xthdc.setState .status)

/-- The `switch` over the command, when the command block is complete. -/
def xthdcCommand : M Xthdc Unit := do
  let x ← getDev
  if x.command 0 = xthdcCmdRead then xthdcRead
  else if x.command 0 = xthdcCmdWrite then xthdcWrite
  else if x.command 0 = xthdcCmdReadyVerify then xthdcReport 0x20
  else if x.command 0 = xthdcCmdInitializeDrive then
    modifyDev fun x => { x with byteNo := 0 }
    modifyDev (Xthdc.setState .initializeDrive)
  else if x.command 0 = xthdcCmdRecalibrate then
    -- drive 2 is not present
    xthdcReport (if (x.command 1).getLsbD 5 then 0x22 else 0)
  else if x.command 0 = xthdcCmdRequestSense then xthdcReport 0x20
  else if x.command 0 = xthdcCmdTestDrive ∨ x.command 0 = xthdcCmdCtrlDiagnostic then
    xthdcReport 0
  else
    devicePanic "Unhandled XT HDC command: 0x%02x\n"
    xthdcReport 0

/-- A byte of the command block. -/
def xthdcParameter (i : Fin 6) (value : Byte) (next : XthdcState) : M Xthdc Unit := do
  modifyDev (Xthdc.setCommand i value)
  modifyDev (Xthdc.setState next)

/-- `xthdc_data_write`. -/
def xthdcDataWrite : WriteHook Xthdc := fun _ value => do
  match (← getDev).state with
  | .command => xthdcParameter 0 value .commandParam1
  | .commandParam1 => xthdcParameter 1 value .commandParam2
  | .commandParam2 => xthdcParameter 2 value .commandParam3
  | .commandParam3 => xthdcParameter 3 value .commandParam4
  | .commandParam4 => xthdcParameter 4 value .commandParam5
  | .commandParam5 =>
    modifyDev (Xthdc.setCommand 5 value)
    xthdcCommand
  | .initializeDrive =>
    modifyDev fun x => { x with byteNo := x.byteNo + 1 }
    if (← getDev).byteNo ≥ 8 then
      xthdcReport 0
  | .status | .idle | .readSector =>
    devicePanic "Unexpected XT HDC data write! (0x%02x)\n"

/-- `xthdc_data_read`. -/
def xthdcDataRead : ReadHook Xthdc := fun _ => do
  match (← getDev).state with
  | .status =>
    modifyDev (Xthdc.statusClear xthdcStatusReq)
    modifyDev (Xthdc.statusClear xthdcStatusXbsy)
    modifyDev (Xthdc.statusClear xthdcStatusCd)
    modifyDev (Xthdc.statusClear xthdcStatusIo)
    modifyDev (Xthdc.setState .idle)
    return (← getDev).commandStatus
  | .readSector =>
    let byte ← runLocal fun x => (x.readSectorByte.1, x.readSectorByte.2, [])
    modifyDev fun x => { x with byteNo := x.byteNo + 1 }
    (if (← getDev).byteNo.toNat ≥ diskSectorSize then do
      modifyDev fun x => { x with commandStatus := 0 }
      xthdcIrq
      modifyDev (Xthdc.setState .status)
    else
      pure ())
    return byte
  | .idle | .command | .commandParam1 | .commandParam2 | .commandParam3 | .commandParam4
  | .commandParam5 | .initializeDrive =>
    devicePanic "Unexpected XT HDC data read!\n"
    return 0

/-- `xthdc_reset_write`. -/
def xthdcResetWrite : WriteHook Xthdc := fun _ _ => modifyDev (Xthdc.setState .idle)

/-- `xthdc_status_read`. -/
def xthdcStatusRead : ReadHook Xthdc := fun _ => do
  let status := (← getDev).status
  modifyDev (Xthdc.statusClear xthdcStatusIrq)
  return status

/-- `xthdc_drive_sel_write`. -/
def xthdcDriveSelWrite : WriteHook Xthdc := fun _ _ => do
  modifyDev (Xthdc.statusSet xthdcStatusReq)
  modifyDev (Xthdc.statusSet xthdcStatusXbsy)
  modifyDev (Xthdc.statusSet xthdcStatusCd)
  modifyDev (Xthdc.statusClear xthdcStatusIo)
  modifyDev (Xthdc.setState .command)

/-- `xthdc_drive_cfg_read`. -/
def xthdcDriveCfgRead : ReadHook Xthdc := fun _ => do
  return (← getDev).config

/-- `xthdc_mask_write`. -/
def xthdcMaskWrite : WriteHook Xthdc := fun _ value => modifyDev fun x => { x with mask := value }

/-- The read hooks of `xthdc_init`. -/
def xthdcReads : Word → Option (ReadHook Xthdc)
  | 0x320#16 => some xthdcDataRead
  | 0x321#16 => some xthdcStatusRead
  | 0x322#16 => some xthdcDriveCfgRead
  | _ => none

/-- The write hooks of `xthdc_init`. -/
def xthdcWrites : Word → Option (WriteHook Xthdc)
  | 0x320#16 => some xthdcDataWrite
  | 0x321#16 => some xthdcResetWrite
  | 0x322#16 => some xthdcDriveSelWrite
  | 0x323#16 => some xthdcMaskWrite
  | _ => none

instance generated_xthdcIrq : Generated DeviceAction xthdcIrq := by
  unfold xthdcIrq
  infer_instance

instance generated_xthdcComplete : Generated DeviceAction xthdcComplete := by
  unfold xthdcComplete
  infer_instance

instance generated_xthdcReport (commandStatus : Byte) :
    Generated DeviceAction (xthdcReport commandStatus) := by
  unfold xthdcReport
  infer_instance

instance generated_xthdcRead : Generated DeviceAction xthdcRead := by
  unfold xthdcRead
  infer_instance

instance generated_xthdcWrite : Generated DeviceAction xthdcWrite := by
  unfold xthdcWrite
  infer_instance

instance generated_xthdcCommand : Generated DeviceAction xthdcCommand := by
  unfold xthdcCommand
  infer_instance

instance generated_xthdcParameter (i : Fin 6) (value : Byte) (next : XthdcState) :
    Generated DeviceAction (xthdcParameter i value next) := by
  unfold xthdcParameter
  infer_instance

theorem xthdcReads_generated {port : Word} {func : ReadHook Xthdc}
    (h : xthdcReads port = some func) (p : Word) : Generated DeviceAction (func p) := by
  unfold xthdcReads at h
  split at h
  case h_1 =>
    cases h
    refine .seq _ _ inferInstance fun x => ?_
    split <;> infer_instance
  case h_2 => cases h; unfold xthdcStatusRead; infer_instance
  case h_3 => cases h; unfold xthdcDriveCfgRead; infer_instance
  case h_4 => cases h

/-- The write hooks are made of what a device can do. -/
theorem xthdcWrites_generated {port : Word} {func : WriteHook Xthdc}
    (h : xthdcWrites port = some func) (p : Word) (v : Byte) :
    Generated DeviceAction (func p v) := by
  unfold xthdcWrites at h
  split at h
  case h_1 =>
    cases h
    refine .seq _ _ inferInstance fun x => ?_
    split <;> infer_instance
  case h_2 => cases h; unfold xthdcResetWrite; infer_instance
  case h_3 => cases h; unfold xthdcDriveSelWrite; infer_instance
  case h_4 => cases h; unfold xthdcMaskWrite; infer_instance
  case h_5 => cases h

/-- The controller claims no port of the chipset. -/
theorem xthdcReads_low (port : Word) (h : port < 0x100) : xthdcReads port = none := by
  unfold xthdcReads
  split <;> simp_all

theorem xthdcWrites_low (port : Word) (h : port < 0x100) : xthdcWrites port = none := by
  unfold xthdcWrites
  split <;> simp_all

/-- `xthdc_init`. The configuration is "needed for BIOS to report correct C/H/S values". -/
def xthdcInit : Xthdc where
  state := .idle
  status := 0
  mask := 0
  config := 0xFF
  command := fun _ => 0
  commandStatus := 0
  drive := 0
  cylinder := 0
  head := 0
  sector := 0
  byteNo := 0
  loaded := false
  data := fun _ => 0
  accesses := []

/-- `xthdc_image_load`; `file` is what `fopen` and `fgetc` give, `none` when the file cannot
be opened. A file that is too large leaves its first bytes in the image. -/
def xthdcImageLoad (file : Option (List Byte)) (x : Xthdc) : ℤ × Xthdc :=
  match file with
  | none => (-1, { x with loaded := false })
  | some file =>
    if file.length > diskSize then
      (-1, { x with
        loaded := false
        data := fun n => if n < diskSize then file.getD n 0 else x.data n })
    else
      (0, { x with
        loaded := true
        data := fun n => if n < diskSize then file.getD n 0 else x.data n })

/-- The ports of the hard disk controller. -/
def xthdcDevices : Devices Xthdc where
  read := xthdcReads
  write := xthdcWrites
  read_generated := xthdcReads_generated
  write_generated := xthdcWrites_generated
  read_low := xthdcReads_low
  write_low := xthdcWrites_low

/-- The accesses of a controller: those of its handlers, and those that leave its state alone. -/
@[elab_as_elim]
theorem xthdc_cases {motive : Access Xthdc → Prop} (m : Machine Xthdc)
    (dataRead : motive (.read 0x320)) (statusRead : motive (.read 0x321))
    (dataWrite : ∀ value, motive (.write 0x320 value))
    (resetWrite : ∀ value, motive (.write 0x321 value))
    (driveSelWrite : ∀ value, motive (.write 0x322 value))
    (maskWrite : ∀ value, motive (.write 0x323 value))
    (kept : ∀ a, a ≠ .read 0x320 → (∀ value, a ≠ .write 0x320 value) →
      (xthdcDevices.after m a).dev = m.dev → motive a) (a : Access Xthdc) : motive a := by
  cases a with
  | other m' => exact kept _ nofun nofun rfl
  | read port =>
    cases hfunc : xthdcReads port with
    | none =>
      refine kept _ ?_ nofun (by rw [Devices.after_read_none hfunc])
      -- the data port has a handler
      rintro ⟨rfl⟩
      cases hfunc
    | some func =>
      unfold xthdcReads at hfunc
      split at hfunc
      case h_1 => exact dataRead
      case h_2 => exact statusRead
      case h_3 => exact kept _ nofun nofun rfl
      case h_4 => cases hfunc
  | write port value =>
    cases hfunc : xthdcWrites port with
    | none =>
      refine kept _ nofun ?_ (by rw [Devices.after_write_none hfunc])
      rintro value' ⟨rfl⟩
      cases hfunc
    | some func =>
      unfold xthdcWrites at hfunc
      split at hfunc
      case h_1 => exact dataWrite value
      case h_2 => exact resetWrite value
      case h_3 => exact driveSelWrite value
      case h_4 => exact maskWrite value
      case h_5 => cases hfunc

end Pc20iii
