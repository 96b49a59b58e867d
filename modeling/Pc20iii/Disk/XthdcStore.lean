import Pc20iii.Device.Driver
import Pc20iii.Disk.XthdcLinear

/-!
# The hard disk as a store

What a driver of the hard disk relies on. A job moves bytes between a buffer in memory and the disk
from a sector on. For this the driver programs channel 3 of the DMA controller, selects the
controller, sends it six bytes and fetches the status; meanwhile the rest of the machine goes on,
and leaves the buffer, the channel and the controller alone (`DiskJob.Quiet`).

* `ensures_diskScript`: a job does what it is for, from any state of the controller.
* `DiskSession`: jobs one after another, with anything but WRITE commands between them.
* `disk_stores`: a session is a run of the store `diskStored`, which knows of no ports, phases,
  cylinders or channels, and of which the image file is the first and the last state.
-/

namespace Pc20iii

open StateProgram

/-- The file of an image: `DISK_SIZE` bytes, put out one after another. -/
def imageFile (image : ℕ → Byte) : List Byte := (List.range diskSize).map image

/-- `xthdc_image_save`, with the file that it leaves; `opened` is whether `fopen` succeeds. -/
def xthdcImageSave (opened : Bool) (x : Xthdc) : ℤ × Option (List Byte) :=
  if x.loaded = false then (-2, none)
  else if opened = false then (-1, none)
  else (0, some (imageFile x.data))

/-! ### Jobs -/

inductive DiskOp where
  | read
  | write
deriving DecidableEq

/-- What a driver is asked for: a transfer between a buffer below one megabyte and the disk. -/
structure DiskJob where
  op : DiskOp
  /-- The number of the first sector. -/
  sector : ℕ
  /-- The buffer, as the DMA controller counts: one byte less than there are. -/
  page : Byte
  offset : Word
  count : Word
  /-- The mask register, with or without the interrupt. -/
  mask : Byte
  sector_lt : sector < diskCylinders * diskHeads * diskSectors
  below : page.toNat * 2 ^ 16 + offset.toNat + (count.toNat + 1) ≤ 2 ^ 20
  drqen : mask.getLsbD xthdcMaskDrqen = true

/-- The command of an operation, and the direction of its transfer. -/
def DiskOp.code : DiskOp → Byte
  | .read => xthdcCmdRead
  | .write => xthdcCmdWrite

def DiskOp.transfer : DiskOp → Byte
  | .read => dmaModeWrite
  | .write => dmaModeRead

theorem DiskOp.transfer_and (op : DiskOp) : op.transfer &&& 0x3 = op.transfer := by
  cases op <;> decide

namespace DiskJob

variable (j : DiskJob)

def length : ℕ := j.count.toNat + 1

/-- The place of the disk where the job starts. -/
def start : ℕ := j.sector * diskSectorSize

def channel : DmaChannel := ⟨j.page, j.offset, j.count, j.op.transfer⟩

/-- The address of the buffer. -/
def base : BitVec 32 := j.offset.setWidth 32 + (j.page.setWidth 32 <<< 16)

/-- The address of byte `k` of the buffer. -/
def place (k : ℕ) : BitVec 20 := j.base.setWidth 20 + BitVec.ofNat 20 k

/-- The contents of the buffer. -/
def buffer (m : Machine Xthdc) : List Byte := (List.range j.length).map fun k => m.mem.m (j.place k)

/-- The address in the command block. -/
def headByte : Byte := BitVec.ofNat 8 (j.sector / diskSectors % diskHeads)

def sectorByte : Byte :=
  BitVec.ofNat 8 (j.sector % diskSectors + j.sector / diskSectors / diskHeads / 256 * 64)

def cylinderByte : Byte := BitVec.ofNat 8 (j.sector / diskSectors / diskHeads)

/-- The accesses of the driver. -/
def script : List PortStep :=
  dmaScript fe2010DmaHardDisk j.channel ++
    [.write 0x323 j.mask, .write 0x322 0, .write 0x320 j.op.code, .write 0x320 j.headByte,
      .write 0x320 j.sectorByte, .write 0x320 j.cylinderByte,
      .write 0x320 (BitVec.ofNat 8 (j.length / diskSectorSize)), .write 0x320 0, .read 0x320]

/-- What the bytes of the disk are read into can be written, and the interrupt of the controller
does not push into it. -/
structure Fits (m : Machine Xthdc) : Prop where
  writable : j.op = .read → m.mem.WritableFrom j.base j.length
  stack : j.op = .read → ∀ k < j.length, ¬m.Pushes fe2010IrqHardDisk (j.place k)

/-- What the rest of the machine may do during a job. -/
structure Quiet (m m' : Machine Xthdc) : Prop where
  dev : m'.dev = m.dev
  channel : KeepsChannel fe2010DmaHardDisk m m'
  buffer : j.buffer m' = j.buffer m
  fits : j.Fits m → j.Fits m'

/-- A job can begin. -/
structure Ready (m : Machine Xthdc) : Prop where
  flipFlop : m.fe2010.dmaFlipFlop = false
  fits : j.Fits m

end DiskJob

/-! ### The store -/

/-- The bytes of a job: those in its buffer when it begins, for a WRITE, and those that are there
at its end, for a READ. -/
def DiskJob.moved (j : DiskJob) (m m' : Machine Xthdc) : List Byte :=
  match j.op with
  | .read => j.buffer m'
  | .write => j.buffer m

/-- The store after a job. -/
def diskStored (image : ℕ → Byte) (e : DiskJob × List Byte) : ℕ → Byte :=
  match e.1.op with
  | .read => image
  | .write => storeAlong diskNext image e.1.start e.2

/-- The bytes of a READ are those of the store. -/
def DiskReturns (image : ℕ → Byte) (e : DiskJob × List Byte) : Prop :=
  e.1.op = .read → e.2 = readAlong diskNext image e.1.start e.1.length

/-- Jobs one after another, with their bytes; between them any accesses to the controller that
write nothing, and anything else that happens to the machine. -/
inductive DiskSession : List (DiskJob × List Byte) → Machine Xthdc → Machine Xthdc → Prop
  | done (m : Machine Xthdc) : DiskSession [] m m
  | access {es : List (DiskJob × List Byte)} {m m' : Machine Xthdc} {a : Access Xthdc}
      (ha : ¬WritesDisk m a) (h : DiskSession es (xthdcDevices.after m a) m') :
      DiskSession es m m'
  | job {es : List (DiskJob × List Byte)} {m m₁ m' : Machine Xthdc} {j : DiskJob}
      (hready : j.Ready m) (hrun : Interleaved xthdcDevices.driven j.Quiet j.script m m₁)
      (h : DiskSession es m₁ m') : DiskSession ((j, j.moved m m₁) :: es) m m'

/-! ### The image stays loaded -/

/-- Nothing but the image functions changes whether an image is loaded. -/
def Xthdc.SameLoaded (x y : Xthdc) : Prop := y.loaded = x.loaded

instance : IsPreorder Xthdc Xthdc.SameLoaded where
  refl _ := rfl
  trans _ _ _ h h' := Eq.trans h' h

@[simp] theorem interrupting_loaded (x : Xthdc) : x.interrupting.loaded = x.loaded := by
  unfold Xthdc.interrupting
  split <;> rfl

@[simp] theorem completed_loaded (x : Xthdc) : x.completed.loaded = x.loaded :=
  interrupting_loaded x

theorem advance_loaded (overrun : String) (x : Xthdc) :
    (x.advance overrun).1.loaded = x.loaded := by
  unfold Xthdc.advance
  dsimp only
  split_ifs <;> rfl

theorem loaded_xthdcReport (commandStatus : Byte) :
    RelatesDev Xthdc.SameLoaded (xthdcReport commandStatus) := by
  intro m
  rw [dev_xthdcReport]
  exact completed_loaded _

theorem loaded_xthdcRead : RelatesDev Xthdc.SameLoaded xthdcRead := by
  intro m
  have hiterate : ∀ n x, ((fun x => (xthdcImageReadCallback x).2.1)^[n] x).loaded = x.loaded :=
    kept_iterate fun _ => advance_loaded ..
  rw [dev_xthdcRead]
  split_ifs
  · exact (completed_loaded _).trans (hiterate ..)
  · exact completed_loaded _
  · exact rfl

theorem loaded_xthdcWrite : RelatesDev Xthdc.SameLoaded xthdcWrite := by
  intro m
  have hfoldl : ∀ (bytes : List Byte) x,
      (bytes.foldl (fun x v => (xthdcImageWriteCallback v x).2.1) x).loaded = x.loaded :=
    kept_foldl fun _ _ => advance_loaded ..
  rw [dev_xthdcWrite]
  split_ifs
  · exact (completed_loaded _).trans (hfoldl ..)
  · exact completed_loaded _
  · exact rfl

theorem loaded_xthdcCommand : RelatesDev Xthdc.SameLoaded xthdcCommand :=
  RelatesDev.bind .getDev fun _ => .ite loaded_xthdcRead <| .ite loaded_xthdcWrite <|
    .ite (loaded_xthdcReport _) <|
    .ite (.bind (.modify fun _ => rfl) fun _ => .modify fun _ => rfl) <|
    .ite (loaded_xthdcReport _) <| .ite (loaded_xthdcReport _) <| .ite (loaded_xthdcReport _) <|
    .bind (.own fun _ => rfl) fun _ => loaded_xthdcReport _

theorem loaded_xthdcDataWrite (port : Word) (value : Byte) :
    RelatesDev Xthdc.SameLoaded (xthdcDataWrite port value) := by
  refine RelatesDev.bind .getDev fun x => ?_
  cases x.state with
  | commandParam5 => exact .bind (.modify fun _ => rfl) fun _ => loaded_xthdcCommand
  | initializeDrive =>
    exact .bind (.modify fun _ => rfl) fun _ => .bind .getDev fun _ =>
      .ite (loaded_xthdcReport _) (.pure _)
  | status | idle | readSector => exact .own fun _ => rfl
  | command | commandParam1 | commandParam2 | commandParam3 | commandParam4 =>
    exact .bind (.modify fun _ => rfl) fun _ => .modify fun _ => rfl

/-- A read of the data port does not load or unload the image. -/
theorem loaded_xthdcDataRead (port : Word) :
    RelatesDev Xthdc.SameLoaded (xthdcDataRead port) := by
  have hirq : RelatesDev Xthdc.SameLoaded xthdcIrq := by
    intro m
    rw [dev_xthdcIrq]
    exact interrupting_loaded _
  have hmodify : ∀ {f : Xthdc → Xthdc}, (∀ x, (f x).loaded = x.loaded) →
      RelatesDev Xthdc.SameLoaded (modifyDev f) := fun h => RelatesDev.modify h
  refine RelatesDev.bind .getDev fun x => ?_
  cases x.state with
  -- the status byte is taken
  | status =>
    exact .bind (hmodify fun _ => rfl) fun _ => .bind (hmodify fun _ => rfl) fun _ =>
      .bind (hmodify fun _ => rfl) fun _ => .bind (hmodify fun _ => rfl) fun _ =>
      .bind (hmodify fun _ => rfl) fun _ => .bind .getDev fun _ => .pure _
  | readSector =>
    exact .bind (.own fun _ => rfl) fun _ => .bind (hmodify fun _ => rfl) fun _ =>
      .bind .getDev fun _ => .bind (.ite (.bind (hmodify fun _ => rfl) fun _ =>
        .bind hirq fun _ => hmodify fun _ => rfl) (.pure _)) fun _ => .pure _
  | _ => exact .bind (.own fun _ => rfl) fun _ => .pure _

theorem loaded_after (m : Machine Xthdc) (a : Access Xthdc) :
    (xthdcDevices.after m a).dev.loaded = m.dev.loaded := by
  cases a using xthdc_cases m with
  | dataRead => exact loaded_xthdcDataRead _ m
  | dataWrite value => exact loaded_xthdcDataWrite _ value m
  | statusRead | resetWrite | driveSelWrite | maskWrite => rfl
  | kept a _ _ hdev => rw [hdev]

/-! ### The address of a command -/

/-- The controller finds the sector that the driver has put into the block. -/
theorem DiskJob.updateChs (j : DiskJob) {x : Xthdc} (hhead : x.command 1 = j.headByte)
    (hsector : x.command 2 = j.sectorByte) (hcylinder : x.command 3 = j.cylinderByte) :
    x.updateChs.cylinder.toNat = j.sector / diskSectors / diskHeads ∧
      x.updateChs.head.toNat = j.sector / diskSectors % diskHeads ∧
      x.updateChs.sector.toNat = j.sector % diskSectors := by
  have hlt := j.sector_lt
  unfold headByte at hhead
  unfold sectorByte at hsector
  unfold cylinderByte at hcylinder
  unfold diskCylinders at hlt
  unfold diskHeads diskSectors at *
  refine ⟨?_, ?_, ?_⟩
  · have hfactor : (0x100 : Word).toNat = 256 := rfl
    change ((x.command 2 >>> 6).setWidth 16 * 0x100 + (x.command 3).setWidth 16).toNat = _
    rw [hsector, hcylinder, BitVec.toNat_add, BitVec.toNat_mul, BitVec.toNat_setWidth,
      BitVec.toNat_setWidth, BitVec.toNat_ushiftRight, BitVec.toNat_ofNat, BitVec.toNat_ofNat,
      Nat.shiftRight_eq_div_pow, hfactor]
    -- the upper bits of the cylinder are above those of the sector
    have hupper : (j.sector % 17 + j.sector / 17 / 4 / 256 * 64) % 2 ^ 8 / 2 ^ 6 =
        j.sector / 17 / 4 / 256 := by omega
    have hcylinders : j.sector / 17 / 4 < 615 := by omega
    rw [hupper]
    generalize j.sector / 17 / 4 = c at hcylinders
    omega
  · change (x.command 1 &&& 0x1F).toNat = _
    rw [hhead, BitVec.toNat_and, BitVec.toNat_ofNat]
    have hmask := Nat.and_two_pow_sub_one_eq_mod (j.sector / 17 % 4 % 2 ^ 8) 5
    exact hmask.trans (by omega)
  · change (x.command 2 &&& 0x3F).toNat = _
    rw [hsector, BitVec.toNat_and, BitVec.toNat_ofNat]
    have hmask := Nat.and_two_pow_sub_one_eq_mod
      ((j.sector % 17 + j.sector / 17 / 4 / 256 * 64) % 2 ^ 8) 6
    exact hmask.trans (by omega)

/-! ### Between two accesses -/

namespace DiskJob

variable (j : DiskJob)

/-- The state of the controller and the contents of the buffer, while a job goes on. -/
structure Working (x : Xthdc) (bytes : List Byte) (m : Machine Xthdc) : Prop where
  dev : m.dev = x
  buffer : j.buffer m = bytes
  fits : j.Fits m

variable {j} {x : Xthdc} {bytes : List Byte}

theorem stable_working : Stable j.Quiet (j.Working x bytes) := fun _ _ h hm =>
  ⟨h.dev.trans hm.dev, h.buffer.trans hm.buffer, h.fits hm.fits⟩

/-- Whether the interrupt of the controller pushes something depends on the mask register alone. -/
theorem apart_working : ApartFromDma (j.Working x bytes) := by
  intro m f hmask hm
  have hpushes : ∀ a, (m.withChipset f).Pushes fe2010IrqHardDisk a ↔
      m.Pushes fe2010IrqHardDisk a := by
    intro a
    unfold Machine.Pushes Machine.passes
    change f.irqMask >>> _ != 0 ∧ _ ↔ _
    rw [hmask]
    rfl
  exact ⟨hm.dev, hm.buffer, hm.fits.writable,
    fun hop k hk hpush => hm.fits.stack hop k hk ((hpushes _).mp hpush)⟩

/-- The channel is programmed, and the controller is in a state. -/
abbrev Sending (j : DiskJob) (x : Xthdc) (bytes : List Byte) : Machine Xthdc → Prop :=
  Programming (j.Working x bytes) fe2010DmaHardDisk false (· = j.channel)

theorem stable_sending : Stable j.Quiet (j.Sending x bytes) :=
  stable_programming (fun _ _ h => h.channel) stable_working

/-- An access that changes the controller and nothing else. -/
theorem Sending.changed {m m' : Machine Xthdc} {f : Xthdc → Xthdc} (hm : j.Sending x bytes m)
    (h : m' = { m with dev := f m.dev }) : j.Sending (f x) bytes m' := by
  subst h
  obtain ⟨⟨hdev, hbuffer, hfits⟩, hflipFlop, hchannel⟩ := hm
  exact ⟨⟨congrArg f hdev, hbuffer, hfits.writable, hfits.stack⟩, hflipFlop, hchannel⟩

end DiskJob

/-! ### The command block -/

/-- The states that take in a byte of the command block: which byte it is, and the next state. -/
def xthdcParameters : List (XthdcState × Fin 6 × XthdcState) :=
  [(.command, 0, .commandParam1), (.commandParam1, 1, .commandParam2),
    (.commandParam2, 2, .commandParam3), (.commandParam3, 3, .commandParam4),
    (.commandParam4, 4, .commandParam5)]

theorem driven_parameter {m : Machine Xthdc} {s next : XthdcState} {i : Fin 6}
    (h : (s, i, next) ∈ xthdcParameters) (hs : m.dev.state = s) (v : Byte) :
    xthdcDevices.driven m (.write 0x320 v) =
      { m with dev := (m.dev.setCommand i v).setState next } := by
  have hfunc : xthdcDevices.write 0x320 = some xthdcDataWrite := rfl
  rw [driven_write xthdcDevices m v rfl, Devices.after_write hfunc]
  simp only [xthdcDataWrite, outcome_bind, outcome_getDev, hs]
  simp only [xthdcParameters, List.mem_cons, List.not_mem_nil, or_false, Prod.mk.injEq] at h
  rcases h with ⟨rfl, rfl, rfl⟩ | ⟨rfl, rfl, rfl⟩ | ⟨rfl, rfl, rfl⟩ | ⟨rfl, rfl, rfl⟩ |
    ⟨rfl, rfl, rfl⟩
  all_goals rfl

/-- The controller after a selection. -/
def Xthdc.selected (x : Xthdc) : Xthdc :=
  ((((x.statusSet xthdcStatusReq).statusSet xthdcStatusXbsy).statusSet xthdcStatusCd).statusClear
    xthdcStatusIo).setState .command

/-- The controller after a byte of the command block. -/
def Xthdc.taken (i : Fin 6) (v : Byte) (next : XthdcState) (x : Xthdc) : Xthdc :=
  (x.setCommand i v).setState next

/-- The controller when the last byte of the command block is due. -/
def DiskJob.sent (j : DiskJob) (x : Xthdc) : Xthdc :=
  ((((({ x with mask := j.mask } : Xthdc).selected.taken 0 j.op.code .commandParam1).taken 1
    j.headByte .commandParam2).taken 2 j.sectorByte .commandParam3).taken 3 j.cylinderByte
      .commandParam4).taken 4 (BitVec.ofNat 8 (j.length / diskSectorSize)) .commandParam5

/-- The writes between the programming of the channel and the last byte. -/
theorem ensures_sent (j : DiskJob) (x : Xthdc) (bytes : List Byte) :
    Ensures xthdcDevices.driven j.Quiet (j.Sending x bytes)
      [.write 0x323 j.mask, .write 0x322 0, .write 0x320 j.op.code, .write 0x320 j.headByte,
        .write 0x320 j.sectorByte, .write 0x320 j.cylinderByte,
        .write 0x320 (BitVec.ofNat 8 (j.length / diskSectorSize))]
      (j.Sending (j.sent x) bytes) := by
  -- each parameter byte goes to its place, and the next state waits for the next one
  have hparameter : ∀ {s i next}, (s, i, next) ∈ xthdcParameters → ∀ {y v m}, y.state = s →
      j.Sending y bytes m → j.Sending (y.taken i v next) bytes
        (xthdcDevices.driven m (.write 0x320 v)) := by
    intro s i next h y v m hy hm
    exact hm.changed (driven_parameter h (hm.rest.dev ▸ hy) v)
  refine .cons DiskJob.stable_sending (fun m hm => hm.changed
      (f := fun y => { y with mask := j.mask }) rfl) <|
    .cons DiskJob.stable_sending (fun m hm => hm.changed (f := Xthdc.selected) rfl) <|
    .cons DiskJob.stable_sending (fun m hm => hparameter (i := 0) (.head _) rfl hm) <|
    .cons DiskJob.stable_sending (fun m hm => hparameter (i := 1) (.tail _ (.head _)) rfl hm) <|
    .cons DiskJob.stable_sending
      (fun m hm => hparameter (i := 2) (.tail _ (.tail _ (.head _))) rfl hm) <|
    .cons DiskJob.stable_sending
      (fun m hm => hparameter (i := 3) (.tail _ (.tail _ (.tail _ (.head _)))) rfl hm) <|
    .cons DiskJob.stable_sending
      (fun m hm => hparameter (i := 4) (.tail _ (.tail _ (.tail _ (.tail _ (.head _))))) rfl hm) <|
    .nil DiskJob.stable_sending

/-! ### The transfer -/

section Transfer

variable {j : DiskJob} {x : Xthdc} {bytes : List Byte} {m : Machine Xthdc}

/-- The command that has been sent is one on the disk. -/
theorem DiskJob.Sending.command (hm : j.Sending (j.sent x) bytes m) :
    DiskCommand m j.op.code j.op.transfer := by
  have hdev := hm.rest.dev
  have hlt := j.sector_lt
  -- the parameter bytes make up the address of the block again
  obtain ⟨hcylinder, hhead, hsector⟩ := j.updateChs (x := m.dev) (by rw [hdev]; rfl)
    (by rw [hdev]; rfl) (by rw [hdev]; rfl)
  unfold diskHeads diskSectors diskCylinders at *
  constructor
  case state => rw [hdev]; rfl
  case code => rw [hdev]; rfl
  case drqen => rw [hdev]; exact j.drqen
  case mode => exact congrArg DmaChannel.transfer hm.channel
  case cylinder => rw [hcylinder, diskCylinders]; omega
  case head => rw [hhead, diskHeads]; omega
  case sector => rw [hsector, diskSectors]; omega

/-- It starts at the sector of the job, -/
theorem DiskJob.Sending.start (hm : j.Sending (j.sent x) bytes m) : m.diskStart = j.start := by
  have hdev := hm.rest.dev
  obtain ⟨hcylinder, hhead, hsector⟩ := j.updateChs (x := m.dev) (by rw [hdev]; rfl)
    (by rw [hdev]; rfl) (by rw [hdev]; rfl)
  unfold Machine.diskStart Xthdc.lba DiskJob.start
  rw [hcylinder, hhead, hsector]
  refine congrArg (· * diskSectorSize) ?_
  unfold diskHeads diskSectors
  omega

/-- and moves the bytes of its buffer. -/
theorem DiskJob.Sending.address (hm : j.Sending (j.sent x) bytes m) :
    m.fe2010.dmaAddress fe2010DmaHardDisk = j.base := by
  have hpage := congrArg DmaChannel.page hm.channel
  have hstart := congrArg DmaChannel.start hm.channel
  change (m.fe2010.dmaStart fe2010DmaHardDisk).setWidth 32 +
    ((m.fe2010.dmaPage fe2010DmaHardDisk).setWidth 32 <<< 16) = _
  exact congrArg₂ (fun (s : Word) (p : Byte) => s.setWidth 32 + (p.setWidth 32 <<< 16)) hstart hpage

theorem DiskJob.Sending.count (hm : j.Sending (j.sent x) bytes m) : m.diskCount = j.length :=
  congrArg (fun c : DmaChannel => c.count.toNat + 1) hm.channel

theorem DiskJob.belowMax (j : DiskJob) : BelowMax j.base j.length := by
  have hbelow := j.below
  have hpage := j.page.isLt
  have hoffset := j.offset.isLt
  unfold BelowMax base length
  rw [BitVec.toNat_add, BitVec.toNat_shiftLeft, BitVec.toNat_setWidth, BitVec.toNat_setWidth,
    Nat.shiftLeft_eq]
  omega

/-- What has been stored from the base address on is in the buffer. -/
theorem DiskJob.buffer_dmaStore (j : DiskJob) {mem : Mem} {m' : Machine Xthdc} {vs : List Byte}
    (hlength : vs.length = j.length) (hwritable : mem.WritableFrom j.base j.length)
    (h : ∀ k < j.length, m'.mem.m (j.place k) = (mem.dmaStore j.base vs).m (j.place k)) :
    j.buffer m' = vs := by
  have hlength_le : j.length ≤ 2 ^ 20 := Nat.le_trans (Nat.le_add_left ..) j.belowMax
  have hstore := mem.dmaStore_eq (hlength ▸ j.belowMax) (hlength ▸ hwritable)
  refine List.ext_getElem ?_ fun k hk hk' => ?_
  · rw [DiskJob.buffer, List.length_map, List.length_range, hlength]
  · have hlt : k < j.length := hlength ▸ hk'
    have hplace : (fun a : BitVec 20 => a + 1)^[k] (j.base.setWidth 20) = j.place k :=
      iterate_succ_address _ k
    simp only [DiskJob.buffer, List.getElem_map, List.getElem_range]
    rw [h k hlt, hstore, ← hplace]
    -- a buffer of at most one megabyte does not come round to itself
    exact storeAlong_iterate (separate_succ_address _ (hlength ▸ hlength_le)) hk'

/-- The transfer from memory moves the bytes of the buffer. -/
theorem DiskJob.Sending.dmaBytes (hm : j.Sending (j.sent x) bytes m) :
    m.dmaBytes fe2010DmaHardDisk = bytes := by
  rw [← hm.rest.buffer]
  have hlength : (m.dmaBytes fe2010DmaHardDisk).length = j.length :=
    (length_dmaBytes ..).trans hm.count
  refine List.ext_getElem ?_ fun k hk hk' => ?_
  · rw [hlength, DiskJob.buffer, List.length_map, List.length_range]
  · have hbelow : BelowMax (m.fe2010.dmaAddress fe2010DmaHardDisk)
        ((m.fe2010.dmaCount fe2010DmaHardDisk).toNat + 1) := by
      rw [hm.address]
      exact Eq.subst (motive := BelowMax j.base) hm.count.symm j.belowMax
    rw [dmaBytes_getElem hbelow hk, hm.address]
    simp only [DiskJob.buffer, List.getElem_map, List.getElem_range, DiskJob.place]

end Transfer

/-- A job has moved its bytes, and the controller is in a state. -/
structure DiskJob.Moved (j : DiskJob) (image : ℕ → Byte) (loaded : Bool) (bytes : List Byte)
    (state : XthdcState) (m : Machine Xthdc) : Prop where
  state : m.dev.state = state
  data : m.dev.data = diskStored image (j, bytes)
  loaded : m.dev.loaded = loaded
  read : j.op = .read → j.buffer m = readAlong diskNext image j.start j.length

section Moved

variable {j : DiskJob} {x : Xthdc} {bytes : List Byte} {m : Machine Xthdc}

/-- The last byte of a READ. -/
theorem DiskJob.Sending.reads (hm : j.Sending (j.sent x) bytes m) (hop : j.op = .read) :
    j.Moved x.data x.loaded bytes .status (xthdcDevices.after m (.write 0x320 0)) := by
  have hcommand : DiskCommand m xthdcCmdRead dmaModeWrite := by
    have hany := hm.command
    rw [hop] at hany
    exact hany
  -- the command moves the line that starts at its block
  have hline := hcommand.readsLine 0
  have hdata : m.dev.data = x.data := by rw [hm.rest.dev]; rfl
  constructor
  case state => rw [(after_diskRead hcommand 0).1]; rfl
  case data =>
    rw [hline.image, hdata]
    unfold diskStored
    rw [hop]
  case loaded => rw [loaded_after, hm.rest.dev]; rfl
  case read =>
    intro _
    -- which are the bytes of the image when the job began
    have hvalues : readAlong diskNext x.data j.start j.length = m.diskBytes := by
      rw [readAlong_eq_map, Machine.diskBytes, hdata, hm.count, hm.start]
      refine List.map_congr_left fun k _ => congrArg x.data (iterate_diskNext ?_ k)
      exact hm.start ▸ hcommand.start_lt
    rw [hvalues]
    refine j.buffer_dmaStore ?_ (hm.rest.fits.writable hop) fun k hk => ?_
    · rw [Machine.diskBytes, List.length_map, List.length_range, hm.count]
    · rw [hline.bytes _ (hm.rest.fits.stack hop k hk), hm.address]

/-- The last byte of a WRITE. -/
theorem DiskJob.Sending.writes (hm : j.Sending (j.sent x) bytes m) (hop : j.op = .write) :
    j.Moved x.data x.loaded bytes .status (xthdcDevices.after m (.write 0x320 0)) := by
  have hcommand : DiskCommand m xthdcCmdWrite dmaModeRead := by
    have hany := hm.command
    rw [hop] at hany
    exact hany
  have hafter := after_diskWrite hcommand 0
  have hdata : m.dev.data = x.data := by rw [hm.rest.dev]; rfl
  constructor
  case state => rw [hafter]; rfl
  case data =>
    -- the bytes of the buffer go along the line that starts at the block
    have hblock := (writesAlong_disk.block (m.dmaBytes fe2010DmaHardDisk) (hcommand.digits 0)).2.2
    rw [hafter, completed_data, hblock, diskReady_index, hm.start, hm.dmaBytes]
    unfold diskStored
    rw [hop, ← hdata]
    rfl
  case loaded => rw [loaded_after, hm.rest.dev]; rfl
  case read =>
    intro hread
    rw [hop] at hread
    cases hread

theorem DiskJob.Sending.moved (hm : j.Sending (j.sent x) bytes m) :
    j.Moved x.data x.loaded bytes .status (xthdcDevices.driven m (.write 0x320 0)) := by
  rw [driven_write xthdcDevices m 0 rfl]
  cases hop : j.op with
  | read => exact hm.reads hop
  | write => exact hm.writes hop

variable {image : ℕ → Byte} {loaded : Bool}

theorem stable_moved {state : XthdcState} :
    Stable j.Quiet (j.Moved image loaded bytes state) := fun _ _ h hm =>
  ⟨h.dev ▸ hm.state, h.dev ▸ hm.data, h.dev ▸ hm.loaded, fun hop => h.buffer.trans (hm.read hop)⟩

/-- The driver fetches the status. -/
theorem DiskJob.Moved.fetched (hm : j.Moved image loaded bytes .status m) :
    j.Moved image loaded bytes .idle (xthdcDevices.driven m (.read 0x320)) := by
  have hfunc : xthdcDevices.read 0x320 = some xthdcDataRead := rfl
  rw [driven_read xthdcDevices m rfl, Devices.after_read hfunc]
  simp only [xthdcDataRead, outcome_bind, outcome_getDev, hm.state, outcome_modifyDev,
    outcome_pure]
  exact ⟨rfl, hm.data, hm.loaded, hm.read⟩

/-- **A job.** From any state of the controller the script of a driver moves the bytes that the
job is for, and leaves the controller idle. -/
theorem ensures_diskScript (j : DiskJob) (x : Xthdc) (bytes : List Byte) :
    Ensures xthdcDevices.driven j.Quiet
      (Programming (j.Working x bytes) fe2010DmaHardDisk false fun _ => True) j.script
      (j.Moved x.data x.loaded bytes .idle) := by
  have hprogram : Ensures xthdcDevices.driven j.Quiet
      (Programming (j.Working x bytes) fe2010DmaHardDisk false fun _ => True)
      (dmaScript fe2010DmaHardDisk j.channel) (j.Sending x bytes) :=
    ensures_dmaScript (fun _ _ h => h.channel) DiskJob.stable_working DiskJob.apart_working
      j.op.transfer_and
  refine hprogram.append ((ensures_sent j x bytes).append ?_)
  exact .cons DiskJob.stable_sending (fun _ hm => hm.moved) <|
    .cons stable_moved (fun _ hm => hm.fetched) <| .nil stable_moved

end Moved

/-! ### Sessions -/

/-- **A session is a run of the store.** -/
theorem DiskSession.stores {es : List (DiskJob × List Byte)} {m m' : Machine Xthdc}
    (h : DiskSession es m m') :
    Along diskStored DiskReturns m.dev.data es ∧
      m'.dev.data = runAll diskStored m.dev.data es ∧ m'.dev.loaded = m.dev.loaded := by
  induction h with
  | done m => exact ⟨trivial, rfl, rfl⟩
  | access ha _ ih =>
    rw [data_after ha, loaded_after] at ih
    exact ih
  | @job es m m₁ m' j hready hrun _ ih =>
    have hstart : Programming (j.Working m.dev (j.buffer m)) fe2010DmaHardDisk false
        (fun _ => True) m := ⟨⟨rfl, rfl, hready.fits⟩, hready.flipFlop, trivial⟩
    have hmoved := ensures_diskScript j m.dev (j.buffer m) m m₁ hrun hstart
    -- what a READ finds in its buffer does not matter to the store
    have hdata : m₁.dev.data = diskStored m.dev.data (j, j.moved m m₁) := by
      rw [hmoved.data]
      unfold diskStored DiskJob.moved
      cases j.op <;> rfl
    rw [hdata, hmoved.loaded] at ih
    refine ⟨⟨fun hop => ?_, ih.1⟩, ih.2⟩
    have hread : j.op = .read := hop
    change j.moved m m₁ = _
    unfold DiskJob.moved
    rw [hread]
    exact hmoved.read hread

/-- A file of the size of the disk is found as it is. -/
theorem xthdcImageLoad_of_length {file : List Byte} (h : file.length = diskSize) (x : Xthdc) :
    (xthdcImageLoad (some file) x).1 = 0 ∧
      ∀ p < diskSize, (xthdcImageLoad (some file) x).2.data p = file.getD p 0 := by
  unfold xthdcImageLoad
  dsimp only
  rw [if_neg (Nat.not_lt.mpr (Nat.le_of_eq h))]
  exact ⟨rfl, fun p hp => if_pos hp⟩

/-- A file that is not longer than the disk is its beginning, and the rest is zero. -/
theorem withDisk_data {file : List Byte} (h : file.length ≤ diskSize) (m : Machine Xthdc) :
    (m.withDisk (some file)).dev.data = (file.getD · 0) ∧
      (m.withDisk (some file)).dev.loaded = true := by
  dsimp only [Machine.withDisk, xthdcImageLoad]
  rw [if_neg (Nat.not_lt.mpr h)]
  refine ⟨?_, rfl⟩
  ext1 p
  dsimp only
  split_ifs with hp
  · rfl
  · have hnone := List.getElem?_eq_none (Nat.le_trans h (Nat.not_lt.mp hp))
    rw [List.getD_eq_getElem?_getD, hnone]
    rfl

theorem length_imageFile (image : ℕ → Byte) : (imageFile image).length = diskSize := by
  rw [imageFile, List.length_map, List.length_range]

theorem getD_imageFile (image : ℕ → Byte) {p : ℕ} (hp : p < diskSize) :
    (imageFile image).getD p 0 = image p := by
  rw [List.getD_eq_getElem?_getD, imageFile, List.getElem?_map, List.getElem?_range hp]
  rfl

theorem xthdcImageSave_loaded {x : Xthdc} (h : x.loaded = true) :
    xthdcImageSave true x = (0, some (imageFile x.data)) := by
  unfold xthdcImageSave
  rw [if_neg (by simp [h]), if_neg (by simp)]

/-- **The hard disk stores.** From the load of an image file on, in every session of jobs, a READ
gives the bytes that the jobs before it have left at its place; what is saved at the end is the
file with the bytes of all jobs, and a later load finds it again. -/
theorem disk_stores {file : List Byte} (hfile : file.length ≤ diskSize) {m m' : Machine Xthdc}
    {es : List (DiskJob × List Byte)} (h : DiskSession es (m.withDisk (some file)) m') :
    Along diskStored DiskReturns (file.getD · 0) es ∧
      ∃ saved, xthdcImageSave true m'.dev = (0, some saved) ∧
        (∀ p < diskSize, saved.getD p 0 = runAll diskStored (file.getD · 0) es p) ∧
        ∀ x, (xthdcImageLoad (some saved) x).1 = 0 ∧
          ∀ p < diskSize, (xthdcImageLoad (some saved) x).2.data p = m'.dev.data p := by
  obtain ⟨hdata, hloaded⟩ := withDisk_data hfile m
  -- the session keeps the image as the list of jobs would make it
  obtain ⟨hreturns, himage, hkept⟩ := h.stores
  rw [hdata] at hreturns himage
  rw [hloaded] at hkept
  refine ⟨hreturns, imageFile m'.dev.data, xthdcImageSave_loaded hkept, fun p hp => ?_, fun x => ?_⟩
  · rw [getD_imageFile _ hp, himage]
  · obtain ⟨hresult, hbytes⟩ := xthdcImageLoad_of_length (length_imageFile m'.dev.data) x
    exact ⟨hresult, fun p hp => (hbytes p hp).trans (getD_imageFile _ hp)⟩

/-- A job of two bytes from the last sector on, with a buffer at 500h. -/
def jobOfTwo (op : DiskOp) : DiskJob where
  op := op
  sector := 41819
  page := 0
  offset := 0x500
  count := 1
  mask := 0x01
  sector_lt := by decide
  below := by decide
  drqen := by decide

/-- The job of two bytes, with nothing in between. -/
theorem jobOfTwo_runs (op : DiskOp) (m : Machine Xthdc) :
    Interleaved xthdcDevices.driven (jobOfTwo op).Quiet (jobOfTwo op).script m
      (runAll xthdcDevices.driven m (jobOfTwo op).script) :=
  .own <| .own <| .own <| .own <| .own <| .own <| .own <| .own <| .own <| .own <| .own <| .own <|
    .own <| .own <| .own <| .done _

/-- The two bytes are written, and those that are then at the same place are read. -/
theorem disk_stores_two :
    ∃ (es : List (DiskJob × List Byte)) (m' : Machine Xthdc), es.length = 2 ∧
      DiskSession es ((machineInit xthdcInit).withDisk (some [1, 2, 3])) m' ∧
      Along diskStored DiskReturns (List.getD [1, 2, 3] · 0) es := by
  generalize hm : (machineInit xthdcInit).withDisk (some [1, 2, 3]) = m
  have hwrite : (jobOfTwo .write).Ready m := by
    subst hm
    refine ⟨rfl, ?_, ?_⟩
    all_goals
      intro hop
      cases hop
  have hread : (jobOfTwo .read).Ready
      (runAll xthdcDevices.driven m (jobOfTwo .write).script) := by
    subst hm
    refine ⟨rfl, fun _ k hk => ?_, fun _ k hk hpush => ?_⟩
    · rfl
    · exact absurd hpush.2.1 Bool.false_ne_true
  -- the WRITE, and then the READ of the same block
  have hsession := DiskSession.job hwrite (jobOfTwo_runs .write _) <|
    DiskSession.job hread (jobOfTwo_runs .read _) <| .done _
  subst hm
  exact ⟨_, _, rfl, hsession, (disk_stores (by decide) hsession).1⟩

end Pc20iii
