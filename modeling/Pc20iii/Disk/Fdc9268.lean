import Pc20iii.Device.Access

/-!
# The floppy disk controller

`fdc9268.c`: the command phases behind the ports 0x3F2, 0x3F4 and 0x3F5, and the access to
the images of the four drives through DMA.

An image is modelled as a map on all indices, so that an access beyond its size has a
meaning; which indices the callbacks use is recorded in `accesses`.
-/

namespace Pc20iii

open StateProgram

-- Instance search follows the syntax of the functions below.
set_option synthInstance.maxSize 1000

/-- `FLOPPY_SECTOR_SIZE`. -/
def floppySectorSize : BitVec 32 := 512

/-- `FLOPPY_HPC`: heads per cylinder. -/
def floppyHpc : BitVec 32 := 2

/-- `FLOPPY_SIZE_MAX`: the 2.88M format. -/
def floppySizeMax : ℕ := 2949120

/-- `FE2010_DMA_FLOPPY_DISK`. -/
def fe2010DmaFloppyDisk : Fin 4 := 2

/-- `FE2010_IRQ_FLOPPY_DISK`. -/
def fe2010IrqFloppyDisk : Fin 8 := 6

/-! ### State -/

/-- `fdc9268_state_t`. -/
inductive Fdc9268State where
  | idle
  | cmdSisSt0
  | cmdSisPcn
  | cmdSpecifySrtHut
  | cmdSpecifyHltNd
  | cmdRecalibDs
  | cmdSeekDs
  | cmdSeekNcn
  | cmdSdsDs
  | cmdSdsSt3
  | cmdWriteDs
  | cmdWriteCPrior
  | cmdWriteHPrior
  | cmdWriteRPrior
  | cmdWriteNPrior
  | cmdWriteEot
  | cmdWriteGpl
  | cmdWriteDtl
  | cmdWriteSt0
  | cmdWriteSt1
  | cmdWriteSt2
  | cmdWriteCAfter
  | cmdWriteHAfter
  | cmdWriteRAfter
  | cmdWriteNAfter
  | cmdReadDs
  | cmdReadCPrior
  | cmdReadHPrior
  | cmdReadRPrior
  | cmdReadNPrior
  | cmdReadEot
  | cmdReadGpl
  | cmdReadDtl
  | cmdReadSt0
  | cmdReadSt1
  | cmdReadSt2
  | cmdReadCAfter
  | cmdReadHAfter
  | cmdReadRAfter
  | cmdReadNAfter
deriving DecidableEq, Repr

/-- `floppy_t`, without the file name. -/
structure Floppy where
  loaded : Bool
  data : ℕ → Byte
  /-- Sectors Per Track -/
  spt : Byte
  /-- Actual size used. -/
  size : ℕ
  /-- Current position during DMA transfer. -/
  pos : ℕ

/-- `fdc9268_t`, without the pointer to the chipset. -/
structure Fdc9268 where
  state : Fdc9268State
  /-- Main Status Register -/
  msr : Byte
  /-- Status 0 -/
  st0 : Byte
  /-- Status 1 -/
  st1 : Byte
  /-- Status 2 -/
  st2 : Byte
  /-- Status 3 -/
  st3 : Byte
  /-- Present Cylinder Number -/
  pcn : Byte
  pendingIrq : Bool
  dorReset : Bool
  cmdCylinder : Byte
  cmdHead : Byte
  cmdSector : Byte
  cmdNumber : Byte
  floppy : Fin 4 → Floppy
  /-- History: the drives and the indices at which their `data` is accessed, newest first. -/
  accesses : List (Fin 4 × ℕ)

/-! The commands. -/

def fdcCmdSpecify : Byte := 0x03
def fdcCmdSds : Byte := 0x04
def fdcCmdWrite : Byte := 0x05
def fdcCmdRead : Byte := 0x06
def fdcCmdRecalib : Byte := 0x07
def fdcCmdSis : Byte := 0x08
def fdcCmdSeek : Byte := 0x0F

/-! The bits of the registers. -/

def fdcDorReset : ℕ := 2
def fdcDorDmaen : ℕ := 3

def fdcMsrCmdBusy : ℕ := 4
def fdcMsrDio : ℕ := 6
def fdcMsrRqm : ℕ := 7

def fdcSt0DriveSel0 : ℕ := 0
def fdcSt0DriveSel1 : ℕ := 1
def fdcSt0HeadNoAtInt : ℕ := 2
def fdcSt0SeekComplete : ℕ := 5
def fdcSt0CmdStatus0 : ℕ := 6
def fdcSt0CmdStatus1 : ℕ := 7

def fdcSt1SectorNotFound : ℕ := 2

namespace Fdc9268

/-- `fdc_msr_set`. -/
def msrSet (bit : ℕ) (x : Fdc9268) : Fdc9268 := { x with msr := x.msr ||| bitMask bit }

/-- `fdc_msr_clear`. -/
def msrClear (bit : ℕ) (x : Fdc9268) : Fdc9268 := { x with msr := x.msr &&& ~~~bitMask bit }

/-- `fdc_st0_set`. -/
def st0Set (bit : ℕ) (x : Fdc9268) : Fdc9268 := { x with st0 := x.st0 ||| bitMask bit }

/-- `fdc_st0_clear`. -/
def st0Clear (bit : ℕ) (x : Fdc9268) : Fdc9268 := { x with st0 := x.st0 &&& ~~~bitMask bit }

/-- `fdc_state_set`. -/
def stateSet (state : Fdc9268State) (x : Fdc9268) : Fdc9268 := { x with state := state }

/-- `fdc_reset`. -/
def reset (x : Fdc9268) : Fdc9268 :=
  { x with
    state := .idle
    msr := bitMask fdcMsrRqm
    st0 := bitMask fdcSt0CmdStatus0 ||| bitMask fdcSt0CmdStatus1
    st1 := 0
    st2 := 0
    pcn := 0
    pendingIrq := false
    dorReset := true }

/-- `fdc_st0_drive_sel_update`. -/
def st0DriveSelUpdate (value : Byte) (x : Fdc9268) : Fdc9268 :=
  let x :=
    if value &&& 3 = 0 then (x.st0Clear fdcSt0DriveSel0).st0Clear fdcSt0DriveSel1
    else if value &&& 3 = 1 then (x.st0Set fdcSt0DriveSel0).st0Clear fdcSt0DriveSel1
    else if value &&& 3 = 2 then (x.st0Clear fdcSt0DriveSel0).st0Set fdcSt0DriveSel1
    else (x.st0Set fdcSt0DriveSel0).st0Set fdcSt0DriveSel1
  if value.getLsbD 2 then x.st0Set fdcSt0HeadNoAtInt else x.st0Clear fdcSt0HeadNoAtInt

/-- An assignment to the record of a drive. -/
def setFloppy (ds : Fin 4) (f : Floppy) (x : Fdc9268) : Fdc9268 :=
  { x with floppy := Function.update x.floppy ds f }

@[simp] theorem setFloppy_self (ds : Fin 4) (f : Floppy) (x : Fdc9268) :
    (x.setFloppy ds f).floppy ds = f :=
  Function.update_self ..

theorem setFloppy_of_ne {d ds : Fin 4} (h : d ≠ ds) (f : Floppy) (x : Fdc9268) :
    (x.setFloppy ds f).floppy d = x.floppy d :=
  Function.update_of_ne h ..

/-- The drive that `st0` selects. -/
def drive (x : Fdc9268) : Fin 4 := Fin.ofNat 4 (x.st0 &&& 3).toNat

/-- The block address of a command: `((cylinder * HPC + head) * SPT) + sector - 1`, in the
unsigned arithmetic of the source. -/
def lba (x : Fdc9268) (spt : Byte) : BitVec 32 :=
  (x.cmdCylinder.setWidth 32 * floppyHpc + x.cmdHead.setWidth 32) * spt.setWidth 32 +
    x.cmdSector.setWidth 32 - 1

end Fdc9268

/-- The step to the next byte of an image, which both callbacks make. -/
def Floppy.advance (overrun : String) (f : Floppy) : Floppy × List String :=
  let f := { f with pos := f.pos + 1 }
  if f.pos > f.size then ({ f with pos := 0 }, [overrun]) else (f, [])

/-- `fdc_image_write_callback`, for the drive `ds`. -/
def fdcImageWriteCallback (ds : Fin 4) (byte : Byte) : Local Fdc9268 Unit := fun x =>
  let f := x.floppy ds
  let r := { f with data := Function.update f.data f.pos byte }.advance
    "Overrun during FDC write callback!\n"
  ((), { x.setFloppy ds r.1 with accesses := (ds, f.pos) :: x.accesses }, r.2)

/-- `fdc_image_read_callback`, for the drive `ds`. -/
def fdcImageReadCallback (ds : Fin 4) : Local Fdc9268 Byte := fun x =>
  let f := x.floppy ds
  let r := f.advance "Overrun during FDC read callback!\n"
  (f.data f.pos, { x.setFloppy ds r.1 with accesses := (ds, f.pos) :: x.accesses }, r.2)

/-- `fdc_image_dma`. -/
def fdcImageDma (readOperation : Bool) : M Fdc9268 Bool := do
  let x ← getDev
  let ds := x.drive
  let f := x.floppy ds
  if f.loaded = false then
    return false
  else
    modifyDev (Fdc9268.setFloppy ds { f with pos := (x.lba f.spt * floppySectorSize).toNat })
    (if readOperation then
      fe2010DmaWrite fe2010DmaFloppyDisk (fdcImageReadCallback ds)
    else
      fe2010DmaRead fe2010DmaFloppyDisk (fdcImageWriteCallback ds))
    return true

/-! ### Ports -/

/-- The interrupt of the controller. -/
def fdcIrq : M Fdc9268 Unit := do
  fe2010Irq fe2010IrqFloppyDisk
  modifyDev fun x => { x with pendingIrq := true }

/-- `fdc_dor_write`. -/
def fdcDorWrite : WriteHook Fdc9268 := fun _ value => do
  if value.getLsbD fdcDorReset = false then
    modifyDev Fdc9268.reset
  -- an interrupt when DMA is enabled after a reset
  else if value.getLsbD fdcDorDmaen ∧ (← getDev).dorReset then
    modifyDev fun x => { x with dorReset := false }
    fdcIrq

/-- `fdc_msr_read`. -/
def fdcMsrRead : ReadHook Fdc9268 := fun _ => do
  return (← getDev).msr

/-- A result byte that is followed by another one. -/
def fdcResult (value : Fdc9268 → Byte) (next : Fdc9268State) : M Fdc9268 Byte := do
  modifyDev (Fdc9268.stateSet next)
  return value (← getDev)

/-- The first result byte of WRITE and READ. -/
def fdcFirstResult (next : Fdc9268State) : M Fdc9268 Byte := do
  modifyDev fun x => { x with pendingIrq := false }
  fdcResult Fdc9268.st0 next

/-- The last result byte of a command. -/
def fdcLastResult (value : Fdc9268 → Byte) : M Fdc9268 Byte := do
  modifyDev (Fdc9268.msrClear fdcMsrDio)
  modifyDev (Fdc9268.msrClear fdcMsrCmdBusy)
  fdcResult value .idle

/-- `fdc_fifo_read`. -/
def fdcFifoRead : ReadHook Fdc9268 := fun _ => do
  match (← getDev).state with
  | .cmdSisSt0 =>
    if (← getDev).pendingIrq = false then
      -- no interrupt pending
      fdcResult (fun _ => 0x80) .cmdSisPcn
    else
      fdcFirstResult .cmdSisPcn
  | .cmdSisPcn => fdcLastResult Fdc9268.pcn
  | .cmdSdsSt3 => fdcLastResult Fdc9268.st3
  | .cmdWriteSt0 => fdcFirstResult .cmdWriteSt1
  | .cmdWriteSt1 => fdcResult Fdc9268.st1 .cmdWriteSt2
  | .cmdWriteSt2 => fdcResult Fdc9268.st2 .cmdWriteCAfter
  | .cmdWriteCAfter => fdcResult Fdc9268.cmdCylinder .cmdWriteHAfter
  | .cmdWriteHAfter => fdcResult Fdc9268.cmdHead .cmdWriteRAfter
  | .cmdWriteRAfter => fdcResult Fdc9268.cmdSector .cmdWriteNAfter
  | .cmdWriteNAfter => fdcLastResult Fdc9268.cmdNumber
  | .cmdReadSt0 => fdcFirstResult .cmdReadSt1
  | .cmdReadSt1 => fdcResult Fdc9268.st1 .cmdReadSt2
  | .cmdReadSt2 => fdcResult Fdc9268.st2 .cmdReadCAfter
  | .cmdReadCAfter => fdcResult Fdc9268.cmdCylinder .cmdReadHAfter
  | .cmdReadHAfter => fdcResult Fdc9268.cmdHead .cmdReadRAfter
  | .cmdReadRAfter => fdcResult Fdc9268.cmdSector .cmdReadNAfter
  | .cmdReadNAfter => fdcLastResult Fdc9268.cmdNumber
  | _ =>
    devicePanic "Unexpected FDC FIFO read!\n"
    return 0

/-- The `FDC_STATE_IDLE` case of `fdc_fifo_write`: the first byte of a command. -/
def fdcCommand (value : Byte) : M Fdc9268 Unit := do
  if value = fdcCmdSis then
    modifyDev (Fdc9268.msrSet fdcMsrDio)
    modifyDev (Fdc9268.msrSet fdcMsrCmdBusy)
    modifyDev (Fdc9268.stateSet .cmdSisSt0)
  else if value = fdcCmdSds then
    modifyDev (Fdc9268.msrSet fdcMsrCmdBusy)
    modifyDev (Fdc9268.stateSet .cmdSdsDs)
  else if value = fdcCmdSpecify then
    modifyDev (Fdc9268.msrSet fdcMsrCmdBusy)
    modifyDev (Fdc9268.stateSet .cmdSpecifySrtHut)
  else if value = fdcCmdRecalib then
    modifyDev (Fdc9268.st0Clear fdcSt0SeekComplete)
    modifyDev (Fdc9268.msrSet fdcMsrCmdBusy)
    modifyDev (Fdc9268.stateSet .cmdRecalibDs)
  else if value = fdcCmdSeek then
    modifyDev (Fdc9268.st0Clear fdcSt0SeekComplete)
    modifyDev (Fdc9268.msrSet fdcMsrCmdBusy)
    modifyDev (Fdc9268.stateSet .cmdSeekDs)
  else if value &&& 0x1F = fdcCmdRead then
    modifyDev (Fdc9268.msrSet fdcMsrCmdBusy)
    modifyDev (Fdc9268.stateSet .cmdReadDs)
  else if value &&& 0x1F = fdcCmdWrite then
    modifyDev (Fdc9268.msrSet fdcMsrCmdBusy)
    modifyDev (Fdc9268.stateSet .cmdWriteDs)
  else
    devicePanic "Unhandled FDC command: 0x%02x\n"

/-- A parameter byte that is followed by another one. -/
def fdcParameter (store : Fdc9268 → Fdc9268) (next : Fdc9268State) : M Fdc9268 Unit := do
  modifyDev store
  modifyDev (Fdc9268.stateSet next)

/-- The last parameter byte of WRITE and READ: the transfer, and its status. -/
def fdcTransfer (readOperation : Bool) (next : Fdc9268State) : M Fdc9268 Unit := do
  (if ← fdcImageDma readOperation then do
    modifyDev (Fdc9268.st0Clear fdcSt0CmdStatus0)
    modifyDev (Fdc9268.st0Clear fdcSt0CmdStatus1)
    modifyDev fun x => { x with st1 := 0 }
  else do
    modifyDev (Fdc9268.st0Set fdcSt0CmdStatus0)
    modifyDev (Fdc9268.st0Clear fdcSt0CmdStatus1)
    modifyDev fun x => { x with st1 := bitMask fdcSt1SectorNotFound })
  fdcIrq
  modifyDev (Fdc9268.msrSet fdcMsrDio)
  modifyDev (Fdc9268.stateSet next)

/-- `fdc_fifo_write`. -/
def fdcFifoWrite : WriteHook Fdc9268 := fun _ value => do
  match (← getDev).state with
  | .idle => fdcCommand value
  | .cmdSdsDs =>
    modifyDev (Fdc9268.st0DriveSelUpdate value)
    modifyDev (Fdc9268.msrSet fdcMsrDio)
    modifyDev (Fdc9268.stateSet .cmdSdsSt3)
  | .cmdSpecifySrtHut => fdcParameter id .cmdSpecifyHltNd
  | .cmdSpecifyHltNd =>
    modifyDev (Fdc9268.msrClear fdcMsrCmdBusy)
    modifyDev (Fdc9268.stateSet .idle)
  | .cmdRecalibDs =>
    modifyDev fun x => { x with pcn := 0 }
    modifyDev (Fdc9268.st0Set fdcSt0SeekComplete)
    modifyDev (Fdc9268.st0Clear fdcSt0CmdStatus0)
    modifyDev (Fdc9268.st0Clear fdcSt0CmdStatus1)
    modifyDev (Fdc9268.st0DriveSelUpdate value)
    modifyDev (Fdc9268.msrClear fdcMsrCmdBusy)
    fdcIrq
    modifyDev (Fdc9268.stateSet .idle)
  | .cmdSeekDs => fdcParameter (Fdc9268.st0DriveSelUpdate value) .cmdSeekNcn
  | .cmdSeekNcn =>
    modifyDev fun x => { x with pcn := value }
    modifyDev (Fdc9268.st0Set fdcSt0SeekComplete)
    modifyDev (Fdc9268.msrClear fdcMsrCmdBusy)
    fdcIrq
    modifyDev (Fdc9268.stateSet .idle)
  | .cmdWriteDs => fdcParameter (Fdc9268.st0DriveSelUpdate value) .cmdWriteCPrior
  | .cmdWriteCPrior => fdcParameter (fun x => { x with cmdCylinder := value }) .cmdWriteHPrior
  | .cmdWriteHPrior => fdcParameter (fun x => { x with cmdHead := value }) .cmdWriteRPrior
  | .cmdWriteRPrior => fdcParameter (fun x => { x with cmdSector := value }) .cmdWriteNPrior
  | .cmdWriteNPrior => fdcParameter (fun x => { x with cmdNumber := value }) .cmdWriteEot
  | .cmdWriteEot => fdcParameter id .cmdWriteGpl
  | .cmdWriteGpl => fdcParameter id .cmdWriteDtl
  | .cmdWriteDtl => fdcTransfer false .cmdWriteSt0
  | .cmdReadDs => fdcParameter (Fdc9268.st0DriveSelUpdate value) .cmdReadCPrior
  | .cmdReadCPrior => fdcParameter (fun x => { x with cmdCylinder := value }) .cmdReadHPrior
  | .cmdReadHPrior => fdcParameter (fun x => { x with cmdHead := value }) .cmdReadRPrior
  | .cmdReadRPrior => fdcParameter (fun x => { x with cmdSector := value }) .cmdReadNPrior
  | .cmdReadNPrior => fdcParameter (fun x => { x with cmdNumber := value }) .cmdReadEot
  | .cmdReadEot => fdcParameter id .cmdReadGpl
  | .cmdReadGpl => fdcParameter id .cmdReadDtl
  | .cmdReadDtl => fdcTransfer true .cmdReadSt0
  | _ => devicePanic "Unexpected FDC FIFO write! (0x%02x)\n"

/-- The read hooks of `fdc9268_init`. -/
def fdcReads : Word → Option (ReadHook Fdc9268)
  | 0x3F4#16 => some fdcMsrRead
  | 0x3F5#16 => some fdcFifoRead
  | _ => none

/-- The write hooks of `fdc9268_init`. -/
def fdcWrites : Word → Option (WriteHook Fdc9268)
  | 0x3F2#16 => some fdcDorWrite
  | 0x3F5#16 => some fdcFifoWrite
  | _ => none

instance generated_fdcImageDma (readOperation : Bool) :
    Generated DeviceAction (fdcImageDma readOperation) := by
  unfold fdcImageDma
  infer_instance

instance generated_fdcIrq : Generated DeviceAction fdcIrq := by
  unfold fdcIrq
  infer_instance

instance generated_fdcResult (value : Fdc9268 → Byte) (next : Fdc9268State) :
    Generated DeviceAction (fdcResult value next) := by
  unfold fdcResult
  infer_instance

instance generated_fdcFirstResult (next : Fdc9268State) :
    Generated DeviceAction (fdcFirstResult next) := by
  unfold fdcFirstResult
  infer_instance

instance generated_fdcLastResult (value : Fdc9268 → Byte) :
    Generated DeviceAction (fdcLastResult value) := by
  unfold fdcLastResult
  infer_instance

instance generated_fdcCommand (value : Byte) : Generated DeviceAction (fdcCommand value) := by
  unfold fdcCommand
  infer_instance

instance generated_fdcParameter (store : Fdc9268 → Fdc9268) (next : Fdc9268State) :
    Generated DeviceAction (fdcParameter store next) := by
  unfold fdcParameter
  infer_instance

instance generated_fdcTransfer (readOperation : Bool) (next : Fdc9268State) :
    Generated DeviceAction (fdcTransfer readOperation next) := by
  unfold fdcTransfer
  infer_instance

theorem fdcReads_generated {port : Word} {func : ReadHook Fdc9268}
    (h : fdcReads port = some func) (p : Word) : Generated DeviceAction (func p) := by
  unfold fdcReads at h
  split at h
  case h_1 => cases h; unfold fdcMsrRead; infer_instance
  case h_2 =>
    cases h
    refine .seq _ _ inferInstance fun x => ?_
    split <;> infer_instance
  case h_3 => cases h

theorem fdcWrites_generated {port : Word} {func : WriteHook Fdc9268}
    (h : fdcWrites port = some func) (p : Word) (v : Byte) :
    Generated DeviceAction (func p v) := by
  unfold fdcWrites at h
  split at h
  case h_1 => cases h; unfold fdcDorWrite; infer_instance
  case h_2 =>
    cases h
    refine .seq _ _ inferInstance fun x => ?_
    split <;> infer_instance
  case h_3 => cases h

/-- The controller claims no port of the chipset. -/
theorem fdcReads_low (port : Word) (h : port < 0x100) : fdcReads port = none := by
  unfold fdcReads
  split <;> simp_all

theorem fdcWrites_low (port : Word) (h : port < 0x100) : fdcWrites port = none := by
  unfold fdcWrites
  split <;> simp_all

/-- The ports of the floppy disk controller. -/
def fdcDevices : Devices Fdc9268 where
  read := fdcReads
  write := fdcWrites
  read_generated := fdcReads_generated
  write_generated := fdcWrites_generated
  read_low := fdcReads_low
  write_low := fdcWrites_low

/-- The accesses of a controller: those of its data register, the writes of its digital output
register, and those that leave its state alone. -/
@[elab_as_elim]
theorem fdc_cases {motive : Access Fdc9268 → Prop} (m : Machine Fdc9268)
    (fifoRead : motive (.read 0x3F5)) (fifoWrite : ∀ value, motive (.write 0x3F5 value))
    (dorWrite : ∀ value, motive (.write 0x3F2 value))
    (kept : ∀ a, (∀ value, a ≠ .write 0x3F5 value) → (fdcDevices.after m a).dev = m.dev →
      motive a) (a : Access Fdc9268) : motive a := by
  cases a with
  | other m' => exact kept _ nofun rfl
  | read port =>
    cases hfunc : fdcReads port with
    | none => exact kept _ nofun (by rw [Devices.after_read_none hfunc])
    | some func =>
      unfold fdcReads at hfunc
      split at hfunc
      -- the main status register
      case h_1 => exact kept _ nofun rfl
      case h_2 => exact fifoRead
      case h_3 => cases hfunc
  | write port value =>
    cases hfunc : fdcWrites port with
    | none =>
      refine kept _ ?_ (by rw [Devices.after_write_none hfunc])
      rintro value' ⟨rfl⟩
      cases hfunc
    | some func =>
      unfold fdcWrites at hfunc
      split at hfunc
      case h_1 => exact dorWrite value
      case h_2 => exact fifoWrite value
      case h_3 => cases hfunc

/-- `fdc9268_init`. -/
def fdc9268Init : Fdc9268 :=
  Fdc9268.reset
    { state := .idle
      msr := 0
      st0 := 0
      st1 := 0
      st2 := 0
      st3 := 0
      pcn := 0
      pendingIrq := false
      dorReset := false
      cmdCylinder := 0
      cmdHead := 0
      cmdSector := 0
      cmdNumber := 0
      floppy := fun _ => { loaded := false, data := fun _ => 0, spt := 0, size := 0, pos := 0 }
      accesses := [] }

/-- `fdc9268_image_load`; `file` is what `fopen` and `fgetc` give, `none` when the file
cannot be opened. -/
def fdc9268ImageLoad (ds : Fin 4) (file : Option (List Byte)) (sptOverride : ℤ) (x : Fdc9268) :
    ℤ × Fdc9268 :=
  let f := { x.floppy ds with loaded := false }
  match file with
  | none => (-1, x.setFloppy ds f)
  | some file =>
    let f := { f with data := fun n => if n < floppySizeMax then file.getD n (f.data n)
                                       else f.data n }
    if file.length > floppySizeMax then (-1, x.setFloppy ds f)
    else
      let f := { f with size := file.length }
      if sptOverride > 0 then
        (0, x.setFloppy ds { f with spt := BitVec.ofInt 8 sptOverride, loaded := true })
      else
        -- autodetected from the volume boot record: 720K, 1.44M or 2.88M
        let f := { f with spt := f.data 0x18 }
        if f.spt ≠ 9 ∧ f.spt ≠ 18 ∧ f.spt ≠ 36 then (-1, x.setFloppy ds f)
        else (0, x.setFloppy ds { f with loaded := true })

end Pc20iii
