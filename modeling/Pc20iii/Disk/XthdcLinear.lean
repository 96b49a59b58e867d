import Pc20iii.Device.Transfer
import Pc20iii.Disk.XthdcRange

/-!
# The hard disk as a line of bytes

The hard disk controller keeps its position as a cylinder, a head, a sector and a byte, and
both callbacks count it up digit by digit. Seen from outside it is one number, counted up
modulo the size of the disk.

`Xthdc.At x p` says that the four digits of `x` are those of `p`. A callback leads from `p` to
`p + 1`, and from the last byte of the disk to the first one (`Xthdc.At.advance`), so that a
transfer moves along the image (`readsAlong_disk`, `writesAlong_disk`). `disk_transfers_linear`
says this of the commands of the guest.
-/

namespace Pc20iii

open StateProgram

/-! ### Places -/

/-- The place of the disk that lies `k` bytes behind `start`. -/
def diskPlace (start k : ℕ) : ℕ := (start + k) % diskSize

/-- The next place. -/
def diskNext (p : ℕ) : ℕ := diskPlace p 1

theorem iterate_diskNext {start : ℕ} (h : start < diskSize) (k : ℕ) :
    diskNext^[k] start = diskPlace start k := by
  induction k with
  | zero => exact (Nat.mod_eq_of_lt h).symm
  | succ k ih =>
    rw [Function.iterate_succ_apply', ih, diskNext, diskPlace, diskPlace, Nat.mod_add_mod,
      Nat.add_assoc, diskPlace]

theorem separate_diskNext {start n : ℕ} (h : start < diskSize) (hn : n ≤ diskSize) :
    Separate diskNext start n := by
  intro j hj k hk heq
  change j < n at hj
  change k < n at hk
  dsimp only at heq
  rw [iterate_diskNext h, iterate_diskNext h] at heq
  unfold diskPlace diskSize diskCylinders diskHeads diskSectors diskSectorSize at *
  omega

namespace Xthdc

/-- The cylinder, head, sector and byte number are the digits of `p`. -/
structure At (x : Xthdc) (p : ℕ) : Prop where
  lt : p < diskSize
  byteNo : x.byteNo.toNat = p % diskSectorSize
  sector : x.sector.toNat = p / diskSectorSize % diskSectors
  head : x.head.toNat = p / diskSectorSize / diskSectors % diskHeads
  cylinder : x.cylinder.toNat = p / diskSectorSize / diskSectors / diskHeads

variable {x : Xthdc} {p : ℕ}

/-- The digits are in their ranges. -/
structure Digits (x : Xthdc) : Prop where
  byteNo : x.byteNo.toNat < diskSectorSize
  sector : x.sector.toNat < diskSectors
  head : x.head.toNat < diskHeads
  cylinder : x.cylinder.toNat < diskCylinders

theorem At.index (h : x.At p) : x.index = p := by
  obtain ⟨-, hbyte, hsector, hhead, hcylinder⟩ := h
  unfold Xthdc.index lba
  rw [hbyte, hsector, hhead, hcylinder]
  unfold diskHeads diskSectors diskSectorSize
  omega

theorem At.digits (h : x.At p) : x.Digits := by
  obtain ⟨hlt, hbyte, hsector, hhead, hcylinder⟩ := h
  unfold diskSize diskCylinders diskHeads diskSectors diskSectorSize at *
  constructor
  · exact hbyte ▸ Nat.mod_lt _ (by decide)
  · exact hsector ▸ Nat.mod_lt _ (by decide)
  · exact hhead ▸ Nat.mod_lt _ (by decide)
  · rw [hcylinder, diskCylinders]
    omega

theorem Digits.at (h : x.Digits) : x.At x.index := by
  obtain ⟨hbyte, hsector, hhead, hcylinder⟩ := h
  unfold diskCylinders at hcylinder
  unfold diskHeads at hhead
  unfold diskSectors at hsector
  unfold diskSectorSize at hbyte
  constructor
  all_goals
    unfold Xthdc.index lba
    simp only [diskSize, diskCylinders, diskHeads, diskSectors, diskSectorSize]
    omega

/-- The next byte, with all carries: the digits stay in their ranges, and the number that they
are the digits of grows by one or wraps. -/
theorem Digits.advance (h : x.Digits) (overrun : String) :
    (x.advance overrun).1.Digits ∧ ((x.advance overrun).1.index = x.index + 1 ∨
      x.index + 1 = diskSize ∧ (x.advance overrun).1.index = 0) := by
  obtain ⟨hbyte, hsector, hhead, hcylinder⟩ := h
  have hbyteNext := BitVec.toNat_add x.byteNo 1
  have hsectorNext := BitVec.toNat_add x.sector 1
  have hheadNext := BitVec.toNat_add x.head 1
  have hcylinderNext := BitVec.toNat_add x.cylinder 1
  have hzero : (0 : Byte).toNat = 0 := rfl
  have hzero' : (0 : Word).toNat = 0 := rfl
  have hone : (1 : Byte).toNat = 1 := rfl
  have hone' : (1 : Word).toNat = 1 := rfl
  unfold Xthdc.advance
  dsimp only
  -- a carry for each digit, and the wrap of the last one
  split_ifs with hb hs hh hc
  all_goals
    simp only [diskCylinders, diskHeads, diskSectors, diskSectorSize] at *
    refine ⟨⟨?_, ?_, ?_, ?_⟩, ?_⟩
    all_goals
      simp only [Xthdc.index, lba, diskSize, diskCylinders, diskHeads, diskSectors,
        diskSectorSize]
      omega

/-- In terms of places, a callback leads to the next one. -/
theorem Digits.advance_index (h : x.Digits) (overrun : String) :
    (x.advance overrun).1.index = diskNext x.index := by
  obtain ⟨hdigits, hnext | ⟨hlast, hzero⟩⟩ := h.advance overrun
  · have hlt := hdigits.at.lt
    rw [hnext] at hlt ⊢
    exact (Nat.mod_eq_of_lt hlt).symm
  · rw [hzero, diskNext, diskPlace, hlast, Nat.mod_self]

end Xthdc

@[simp] theorem advance_data (overrun : String) (x : Xthdc) :
    (x.advance overrun).1.data = x.data := by
  unfold Xthdc.advance
  dsimp only
  split_ifs <;> rfl

/-- The callback of READ moves along the image. -/
theorem readsAlong_disk :
    ReadsAlong diskNext Xthdc.Digits Xthdc.index Xthdc.data xthdcImageReadCallback where
  ok {x} h := (Xthdc.Digits.advance (x := x.readSectorByte.2) ⟨h.1, h.2, h.3, h.4⟩ _).1
  value _ := rfl
  next_pos {x} h :=
    Xthdc.Digits.advance_index (x := x.readSectorByte.2) ⟨h.1, h.2, h.3, h.4⟩ _
  image_eq _ := advance_data ..

/-- The callback of WRITE moves along the image. -/
theorem writesAlong_disk :
    WritesAlong diskNext Xthdc.Digits Xthdc.index Xthdc.data xthdcImageWriteCallback where
  ok {x} h v := (Xthdc.Digits.advance (x := x.writeSectorByte v) ⟨h.1, h.2, h.3, h.4⟩ _).1
  next_pos {x} h v :=
    Xthdc.Digits.advance_index (x := x.writeSectorByte v) ⟨h.1, h.2, h.3, h.4⟩ _
  image_eq _ _ := advance_data ..

theorem places_eq {start : ℕ} (h : start < diskSize) (n : ℕ) :
    readAlong diskNext id start n = (List.range n).map (diskPlace start) := by
  rw [readAlong_eq_map]
  exact List.map_congr_left fun k _ => iterate_diskNext h k

/-! ### Commands -/

/-- A READ or WRITE command with DMA, of which the last byte is due: channel 3 is in the mode
of the command, and the address is on the disk. -/
structure DiskCommand (m : Machine Xthdc) (code mode : Byte) : Prop where
  state : m.dev.state = .commandParam5
  code : m.dev.command 0 = code
  drqen : m.dev.mask.getLsbD xthdcMaskDrqen = true
  mode : m.fe2010.dmaTransfer fe2010DmaHardDisk = mode
  cylinder : m.dev.updateChs.cylinder.toNat < diskCylinders
  head : m.dev.updateChs.head.toNat < diskHeads
  sector : m.dev.updateChs.sector.toNat < diskSectors

/-- The place where a command starts: `lba * 512`. -/
def Machine.diskStart (m : Machine Xthdc) : ℕ := m.dev.updateChs.lba * diskSectorSize

/-- How many bytes channel 3 moves. -/
def Machine.diskCount (m : Machine Xthdc) : ℕ :=
  (m.fe2010.dmaCount fe2010DmaHardDisk).toNat + 1

/-- The controller when the transfer of a command begins. -/
def Machine.diskReady (m : Machine Xthdc) (value : Byte) : Xthdc :=
  (m.dev.setCommand 5 value).started

theorem DiskCommand.digits {m : Machine Xthdc} {code mode : Byte} (h : DiskCommand m code mode)
    (value : Byte) : (m.diskReady value).Digits :=
  ⟨Nat.succ_pos _, h.sector, h.head, h.cylinder⟩

theorem diskReady_index (m : Machine Xthdc) (value : Byte) :
    (m.diskReady value).index = m.diskStart := by
  have hlba : (m.dev.setCommand 5 value).updateChs.lba = m.dev.updateChs.lba := rfl
  have hzero : (0 : Word).toNat = 0 := rfl
  change (m.dev.setCommand 5 value).updateChs.lba * diskSectorSize + (0 : Word).toNat = _
  rw [hlba, hzero, Nat.add_zero, Machine.diskStart]

theorem mem_xthdcComplete {m : Machine Xthdc} {a : BitVec 20}
    (h : ¬ m.Pushes fe2010IrqHardDisk a) :
    (outcome xthdcComplete m).2.mem.m a = m.mem.m a := by
  simp only [xthdcComplete, xthdcIrq, outcome_bind, outcome_getDev, outcome_ite,
    outcome_modifyDev, outcome_pure]
  split
  · exact mem_fe2010Irq h
  · rfl

/-- With the last byte of the command block the command is carried out. -/
theorem DiskCommand.after {m : Machine Xthdc} {code mode : Byte} (h : DiskCommand m code mode)
    (value : Byte) : xthdcDevices.after m (.write 0x320 value) =
      (outcome xthdcCommand { m with dev := m.dev.setCommand 5 value }).2 := by
  have hfunc : xthdcDevices.write 0x320 = some xthdcDataWrite := rfl
  rw [Devices.after_write hfunc]
  simp only [xthdcDataWrite, outcome_bind, outcome_getDev, h.state, outcome_modifyDev]

/-- The last byte of a READ command. -/
theorem after_diskRead {m : Machine Xthdc} (h : DiskCommand m xthdcCmdRead dmaModeWrite)
    (value : Byte) :
    let m' := xthdcDevices.after m (.write 0x320 value)
    let r := produced xthdcImageReadCallback m.diskCount (m.diskReady value)
    m'.dev = r.2.completed ∧ ∀ a, ¬ m.Pushes fe2010IrqHardDisk a →
      m'.mem.m a = (m.mem.dmaStore (m.fe2010.dmaAddress fe2010DmaHardDisk) r.1).m a := by
  intro m' r
  have hdma := transferred_dmaWrite (m := { m with dev := m.diskReady value }) h.mode
    xthdcImageReadCallback
  -- the sixth byte completes the command, and READ starts the transfer at once
  have hafter : m' = (outcome xthdcComplete (outcome
      (fe2010DmaWrite fe2010DmaHardDisk xthdcImageReadCallback)
      { m with dev := m.diskReady value }).2).2 := by
    have hcode : (m.dev.setCommand 5 value).command 0 = xthdcCmdRead := h.code
    have hdrqen : (m.dev.setCommand 5 value).updateChs.mask.getLsbD xthdcMaskDrqen = true :=
      h.drqen
    change xthdcDevices.after m (.write 0x320 value) = _
    rw [h.after value]
    simp only [xthdcCommand, xthdcRead, outcome_bind, outcome_getDev, outcome_ite,
      outcome_modifyDev]
    rw [if_pos hcode, if_pos hdrqen]
    rfl
  rw [hafter]
  refine ⟨?_, fun a ha => ?_⟩
  · rw [dev_xthdcComplete, hdma.dev]
    rfl
  · have hpushes := (pushes_congr hdma.cpu hdma.fe2010 fe2010IrqHardDisk a).not.mpr ha
    rw [mem_xthdcComplete hpushes, hdma.mem]
    rfl

/-- The last byte of a WRITE command. -/
theorem after_diskWrite {m : Machine Xthdc} (h : DiskCommand m xthdcCmdWrite dmaModeRead)
    (value : Byte) :
    (xthdcDevices.after m (.write 0x320 value)).dev =
      ((m.dmaBytes fe2010DmaHardDisk).foldl (fun x v => (xthdcImageWriteCallback v x).2.1)
        (m.diskReady value)).completed := by
  have hcode : (m.dev.setCommand 5 value).command 0 = xthdcCmdWrite := h.code
  have hread : ¬ (m.dev.setCommand 5 value).command 0 = xthdcCmdRead := by
    rw [hcode]
    decide
  have hmode : m.fe2010.dmaTransfer fe2010DmaHardDisk = dmaModeRead := h.mode
  have hdrqen : (m.dev.setCommand 5 value).mask.getLsbD xthdcMaskDrqen = true := h.drqen
  rw [h.after value]
  simp only [xthdcCommand, outcome_bind, outcome_getDev, outcome_ite]
  rw [if_neg hread, if_pos hcode, dev_xthdcWrite]
  rw [if_pos hdrqen, if_pos hmode]
  rfl

@[simp] theorem completed_data (x : Xthdc) : x.completed.data = x.data := by
  unfold Xthdc.completed Xthdc.interrupting
  split <;> rfl

/-! ### Commands that write nothing -/

/-- The last byte of a WRITE command. -/
def WritesDisk (m : Machine Xthdc) : Access Xthdc → Prop
  | .write port _ =>
    port = 0x320 ∧ m.dev.state = .commandParam5 ∧ m.dev.command 0 = xthdcCmdWrite
  | _ => False

theorem data_iterate (n : ℕ) (x : Xthdc) :
    ((fun x => (xthdcImageReadCallback x).2.1)^[n] x).data = x.data :=
  kept_iterate (f := fun x => (xthdcImageReadCallback x).2.1) (fun _ => advance_data ..) n x

/-- A command other than WRITE leaves the image alone. -/
theorem data_xthdcCommand {m : Machine Xthdc} (h : m.dev.command 0 ≠ xthdcCmdWrite) :
    (outcome xthdcCommand m).2.dev.data = m.dev.data := by
  simp only [xthdcCommand, outcome_bind, outcome_getDev, outcome_ite]
  by_cases hread : m.dev.command 0 = xthdcCmdRead
  · rw [if_pos hread, dev_xthdcRead]
    split_ifs
    · rw [completed_data, data_iterate]
      rfl
    · rw [completed_data]
      rfl
    · rfl
  -- the other commands do not reach the image
  · rw [if_neg hread, if_neg h]
    split_ifs
    all_goals
      simp only [outcome_modifyDev, outcome_devicePanic, dev_xthdcReport, completed_data]
    rfl

/-- A read of the data port leaves the image alone. -/
theorem data_xthdcDataRead (port : Word) (m : Machine Xthdc) :
    (outcome (xthdcDataRead port) m).2.dev.data = m.dev.data := by
  simp only [xthdcDataRead, outcome_bind, outcome_getDev]
  cases hs : m.dev.state with
  | readSector =>
    simp only [outcome_bind, outcome_getDev, outcome_modifyDev, outcome_ite, outcome_pure]
    split
    · rw [dev_xthdcIrq]
      unfold Xthdc.interrupting
      split <;> rfl
    · rfl
  | _ => rfl

/-- A write of the data port leaves the image alone, unless it ends a WRITE. -/
theorem data_xthdcDataWrite {m : Machine Xthdc} {port : Word} {value : Byte}
    (h : m.dev.state = .commandParam5 → m.dev.command 0 ≠ xthdcCmdWrite) :
    (outcome (xthdcDataWrite port value) m).2.dev.data = m.dev.data := by
  simp only [xthdcDataWrite, outcome_bind, outcome_getDev]
  cases hs : m.dev.state with
  | commandParam5 =>
    exact data_xthdcCommand (m := { m with dev := m.dev.setCommand 5 value }) (h hs)
  | initializeDrive =>
    simp only [outcome_bind, outcome_getDev, outcome_modifyDev, outcome_ite, outcome_pure]
    split
    · rw [dev_xthdcReport, completed_data]
    · rfl
  | _ => rfl

/-- No other access changes the image. -/
theorem data_after {m : Machine Xthdc} {a : Access Xthdc} (h : ¬ WritesDisk m a) :
    (xthdcDevices.after m a).dev.data = m.dev.data := by
  cases a using xthdc_cases m with
  | dataRead => exact data_xthdcDataRead _ m
  | dataWrite value => exact data_xthdcDataWrite fun hs hcode => h ⟨rfl, hs, hcode⟩
  | statusRead | resetWrite | driveSelWrite | maskWrite => rfl
  | kept a _ _ hdev => rw [hdev]

/-! ### The line -/

/-- The bytes of the disk that a transfer moves, from its start on. -/
def Machine.diskBytes (m : Machine Xthdc) : List Byte :=
  (List.range m.diskCount).map fun k => m.dev.data (diskPlace m.diskStart k)

/-- The bytes that the callback of READ hands to the chipset. -/
def Machine.diskHanded (m : Machine Xthdc) (value : Byte) : List Byte :=
  (produced xthdcImageReadCallback m.diskCount (m.diskReady value)).1

/-- A READ moves the bytes of the disk from its start on. Behind the interrupt request, those of
its push may be gone from the memory. -/
structure ReadsLine (m : Machine Xthdc) (value : Byte) : Prop where
  handed : m.diskHanded value = m.diskBytes
  bytes : ∀ a, ¬ m.Pushes fe2010IrqHardDisk a →
    (xthdcDevices.after m (.write 0x320 value)).mem.m a =
      (m.mem.dmaStore (m.fe2010.dmaAddress fe2010DmaHardDisk) m.diskBytes).m a
  accesses : (xthdcDevices.after m (.write 0x320 value)).dev.accesses =
    ((List.range m.diskCount).map (diskPlace m.diskStart)).reverse ++ m.dev.accesses
  places : ∀ k, (produced xthdcImageReadCallback k (m.diskReady value)).2.At
    (diskPlace m.diskStart k)
  image : (xthdcDevices.after m (.write 0x320 value)).dev.data = m.dev.data

/-- A WRITE moves the bytes of the memory to the disk from its start on. -/
structure WritesLine (m : Machine Xthdc) (value : Byte) : Prop where
  bytes : ∀ k, (hk : k < (m.dmaBytes fe2010DmaHardDisk).length) →
    (xthdcDevices.after m (.write 0x320 value)).dev.data (diskPlace m.diskStart k) =
      (m.dmaBytes fe2010DmaHardDisk)[k]
  accesses : (xthdcDevices.after m (.write 0x320 value)).dev.accesses =
    ((List.range m.diskCount).map (diskPlace m.diskStart)).reverse ++ m.dev.accesses
  places : ∀ k ≤ m.diskCount, (((m.dmaBytes fe2010DmaHardDisk).take k).foldl
    (fun x v => (xthdcImageWriteCallback v x).2.1) (m.diskReady value)).At
      (diskPlace m.diskStart k)
  image : ∀ i, (∀ k < m.diskCount, i ≠ diskPlace m.diskStart k) →
    (xthdcDevices.after m (.write 0x320 value)).dev.data i = m.dev.data i

theorem DiskCommand.start_lt {m : Machine Xthdc} {code mode : Byte}
    (h : DiskCommand m code mode) : m.diskStart < diskSize :=
  diskReady_index m 0 ▸ (h.digits 0).at.lt

theorem diskCount_le (m : Machine Xthdc) : m.diskCount ≤ diskSize := by
  have hcount := (m.fe2010.dmaCount fe2010DmaHardDisk).isLt
  unfold Machine.diskCount diskSize diskCylinders diskHeads diskSectors diskSectorSize
  omega

/-- **A READ** hands over the line of bytes that starts at its block. -/
theorem DiskCommand.readsLine {m : Machine Xthdc} (h : DiskCommand m xthdcCmdRead dmaModeWrite)
    (value : Byte) : ReadsLine m value := by
  obtain ⟨hdev, hmem⟩ := after_diskRead h value
  have hdigits := h.digits value
  have hindex := diskReady_index m value
  have hblock := fun k => readsAlong_disk.block k hdigits
  -- the callback goes from each place to the next one
  have hhanded : m.diskHanded value = m.diskBytes := by
    rw [Machine.diskHanded, (hblock _).2.1, hindex, readAlong_eq_map]
    exact List.map_congr_left fun k _ => congrArg m.dev.data (iterate_diskNext h.start_lt k)
  constructor
  case handed => exact hhanded
  case bytes =>
    intro a ha
    rw [hmem a ha, ← hhanded]
    rfl
  case accesses =>
    rw [hdev, Xthdc.completed_accesses, readsAlong_disk.recorded (fun _ =>
      Xthdc.advance_accesses ..) m.diskCount hdigits, hindex, places_eq h.start_lt]
    rfl
  case places =>
    intro k
    obtain ⟨hk, -, hpos, -⟩ := hblock k
    rw [hindex, iterate_diskNext h.start_lt] at hpos
    exact hpos ▸ hk.at
  case image =>
    rw [hdev, completed_data, (hblock _).2.2.2]
    rfl

/-- **A WRITE** stores the bytes from memory along the line that starts at its block. -/
theorem DiskCommand.writesLine {m : Machine Xthdc} (h : DiskCommand m xthdcCmdWrite dmaModeRead)
    (value : Byte) : WritesLine m value := by
  have hdev := after_diskWrite h value
  have hdigits := h.digits value
  have hindex := diskReady_index m value
  have hblock := fun bytes => writesAlong_disk.block bytes hdigits
  have hlength : (m.dmaBytes fe2010DmaHardDisk).length = m.diskCount := length_dmaBytes ..
  have hdata : (xthdcDevices.after m (.write 0x320 value)).dev.data =
      storeAlong diskNext m.dev.data m.diskStart (m.dmaBytes fe2010DmaHardDisk) := by
    rw [hdev, completed_data, (hblock _).2.2, hindex]
    rfl
  -- at most 64 KiB are transferred, so that no byte of the image is written twice
  have hseparate : Separate diskNext m.diskStart (m.dmaBytes fe2010DmaHardDisk).length :=
    separate_diskNext h.start_lt (hlength ▸ diskCount_le m)
  constructor
  case bytes =>
    intro k hk
    rw [hdata, ← iterate_diskNext h.start_lt, storeAlong_iterate hseparate hk]
  case accesses =>
    rw [hdev, Xthdc.completed_accesses, writesAlong_disk.recorded (fun _ _ =>
      Xthdc.advance_accesses ..) _ hdigits, hindex, hlength, places_eq h.start_lt]
    rfl
  case places =>
    intro k hk
    obtain ⟨hat, hpos, -⟩ := hblock ((m.dmaBytes fe2010DmaHardDisk).take k)
    rw [hindex, iterate_diskNext h.start_lt, List.length_take, hlength, Nat.min_eq_left hk] at hpos
    exact hpos ▸ hat.at
  case image =>
    intro i hi
    rw [hdata]
    refine storeAlong_of_ne fun k hk => ?_
    rw [iterate_diskNext h.start_lt]
    exact hi k (hlength ▸ hk)

/-- Between two commands the image is what the first one left. -/
theorem data_runAll {as : List (Access Xthdc)} {m : Machine Xthdc}
    (h : Along xthdcDevices.after (fun m a => ¬ WritesDisk m a) m as) :
    (runAll xthdcDevices.after m as).dev.data = m.dev.data := by
  induction as generalizing m with
  | nil => rfl
  | cons a as ih => rw [runAll_cons, ih h.2, data_after h.1]

/-- A READ after a WRITE of the same range, without a WRITE between them, hands over the bytes of
the WRITE, and leaves them in memory but for the push of the interrupt request. -/
def ReturnsWritten (m : Machine Xthdc) (value : Byte) : Prop :=
  ∀ (as : List (Access Xthdc)) (value' : Byte),
    let m₁ := xthdcDevices.after m (.write 0x320 value)
    let m₂ := runAll xthdcDevices.after m₁ as
    Along xthdcDevices.after (fun m a => ¬ WritesDisk m a) m₁ as →
    DiskCommand m₂ xthdcCmdRead dmaModeWrite → m₂.diskStart = m.diskStart →
    m₂.diskCount = m.diskCount →
      m₂.diskHanded value' = m.dmaBytes fe2010DmaHardDisk ∧
      ∀ a, ¬ m₂.Pushes fe2010IrqHardDisk a →
        (xthdcDevices.after m₂ (.write 0x320 value')).mem.m a =
          (m₂.mem.dmaStore (m₂.fe2010.dmaAddress fe2010DmaHardDisk)
            (m.dmaBytes fe2010DmaHardDisk)).m a

/-- **The hard disk is a line of bytes.** Both commands move along it from the address in the
command block, modulo its size, with canonical digits after each byte; a WRITE changes nothing
else, and a READ of what a WRITE has written returns it. -/
theorem disk_transfers_linear (m : Machine Xthdc) (value : Byte) :
    (DiskCommand m xthdcCmdRead dmaModeWrite → ReadsLine m value) ∧
      (DiskCommand m xthdcCmdWrite dmaModeRead →
        WritesLine m value ∧ ReturnsWritten m value) := by
  refine ⟨fun h => h.readsLine value, fun h => ⟨h.writesLine value, ?_⟩⟩
  intro as value' m₁ m₂ has hread hstart hcount
  have hlength : (m.dmaBytes fe2010DmaHardDisk).length = m.diskCount := length_dmaBytes ..
  -- the image has not changed between the two commands
  have hbytes : m₂.diskBytes = m.dmaBytes fe2010DmaHardDisk := by
    refine List.ext_getElem ?_ fun k hk hk' => ?_
    · rw [Machine.diskBytes, List.length_map, List.length_range, hlength, hcount]
    · simp only [Machine.diskBytes, List.getElem_map, List.getElem_range]
      rw [data_runAll has, hstart]
      exact (h.writesLine value).bytes k hk'
  have hline := hread.readsLine value'
  rw [← hbytes]
  exact ⟨hline.handed, hline.bytes⟩

/-- A READ of two sectors, of which the first is the last one of the disk. -/
def readingLastSector : Machine Xthdc :=
  let m := machineInit { xthdcInit with
    state := .commandParam5
    mask := 0x01
    command := fun i => [0x08, 0x03, 0x90, 0x66, 0x02, 0x00].getD i 0 }
  { m with fe2010 := { m.fe2010 with dmaMode := fun _ => 0x04, dmaReg := fun _ => 0x3FF } }

/-- It goes on at the beginning of the disk. -/
theorem disk_transfers_linear_last :
    readingLastSector.diskStart + 512 = diskSize ∧ ReadsLine readingLastSector 0 :=
  ⟨by decide +kernel, (disk_transfers_linear readingLastSector 0).1
    ⟨rfl, by decide, by decide, by decide, by decide +kernel, by decide +kernel,
      by decide +kernel⟩⟩

end Pc20iii
