import Pc20iii.Disk.XthdcStatus

/-!
# Reading without DMA

With DMA disabled a READ command hands its bytes to the driver one by one through the data port.
The loop is that of `xthdc_data_read`, which counts the bytes of one sector and then ends the
command; it does not look at the block count, and it has no step to the next sector. The callback
of the DMA transfer has that step.

`pio_read_iff` says that the two agree for a single block, and for no other count.
-/

namespace Pc20iii

open StateProgram

/-- A READ command without DMA, of which the last byte is due: the address is on the disk, and
the block asks for at least one sector. -/
structure PioRead (m : Machine Xthdc) : Prop where
  state : m.dev.state = .commandParam5
  code : m.dev.command 0 = xthdcCmdRead
  drqen : m.dev.mask.getLsbD xthdcMaskDrqen = false
  cylinder : m.dev.updateChs.cylinder.toNat < diskCylinders
  head : m.dev.updateChs.head.toNat < diskHeads
  sector : m.dev.updateChs.sector.toNat < diskSectors
  blocks : 1 ≤ (m.dev.command 4).toNat

/-- The number of bytes that the block asks for. -/
def Machine.blockBytes (m : Machine Xthdc) : ℕ := (m.dev.command 4).toNat * diskSectorSize

/-- The bytes that the callback of the DMA transfer gives for them. -/
def Machine.dmaDelivers (m : Machine Xthdc) (value : Byte) : List Byte :=
  (produced xthdcImageReadCallback m.blockBytes (m.diskReady value)).1

/-- The same READ with DMA, for as many bytes. -/
structure DmaTwin (m d : Machine Xthdc) : Prop where
  command : DiskCommand d xthdcCmdRead dmaModeWrite
  block : d.dev.command = m.dev.command
  data : d.dev.data = m.dev.data
  count : d.diskCount = m.blockBytes

/-- The machine after `k` reads of the data port. -/
def Machine.afterReads (m : Machine Xthdc) (value : Byte) (k : ℕ) : Machine Xthdc :=
  runAll xthdcDevices.after (xthdcDevices.after m (.write 0x320 value))
    (List.replicate k (.read 0x320))

/-- The data port delivers the bytes of the DMA transfer one by one, and the command ends with
the last of them. -/
structure PioDelivers (m : Machine Xthdc) (value : Byte) : Prop where
  reading : ∀ k < m.blockBytes, (m.afterReads value k).dev.state = .readSector
  bytes : ∀ k < m.blockBytes,
    some (statusByte (m.afterReads value k)) = (m.dmaDelivers value)[k]?
  ends : (m.afterReads value m.blockBytes).dev.state = .status

/-! ### One sector -/

/-- The controller in the middle of a sector, of which `k` bytes have been read. -/
structure InSectorOf (x : Xthdc) (k : ℕ) (y : Xthdc) : Prop where
  state : y.state = .readSector
  byteNo : y.byteNo.toNat = k
  lba : y.lba = x.lba
  data : y.data = x.data

/-- The next byte of the sector, while it is not the last one. -/
theorem InSectorOf.next {x y : Xthdc} {k : ℕ} (h : InSectorOf x k y)
    (hk : k + 1 < diskSectorSize) : InSectorOf x (k + 1) y.sectorRead := by
  have hone : (1 : Word).toNat = 1 := rfl
  have hbyte : (y.byteNo + 1).toNat = k + 1 := by
    rw [BitVec.toNat_add, h.byteNo, hone]
    unfold diskSectorSize at hk
    omega
  have hlast : ¬(y.byteNo + 1).toNat ≥ diskSectorSize := by
    rw [hbyte]
    exact Nat.not_le.mpr hk
  have hread : y.sectorRead = { y.readSectorByte.2 with byteNo := y.byteNo + 1 } := if_neg hlast
  rw [hread]
  exact ⟨h.state, hbyte, h.lba, h.data⟩

theorem InSectorOf.last {x y : Xthdc} {k : ℕ} (h : InSectorOf x k y)
    (hk : k + 1 = diskSectorSize) : y.sectorRead.state = .status := by
  have hone : (1 : Word).toNat = 1 := rfl
  have hlast : (y.byteNo + 1).toNat ≥ diskSectorSize := by
    rw [BitVec.toNat_add, h.byteNo, hone]
    unfold diskSectorSize at *
    omega
  exact congrArg Xthdc.state (if_pos hlast)

theorem InSectorOf.index {x y : Xthdc} {k : ℕ} (h : InSectorOf x k y) :
    y.index = x.lba * diskSectorSize + k := by
  rw [Xthdc.index, h.lba, h.byteNo]

theorem dev_after_read {m : Machine Xthdc} (h : m.dev.state = .readSector) :
    (xthdcDevices.after m (.read 0x320)).dev = m.dev.sectorRead := by
  have hfunc : xthdcDevices.read 0x320 = some xthdcDataRead := rfl
  rw [Devices.after_read hfunc, dev_dataRead_of_sector h]

section Pio

variable {m : Machine Xthdc} (h : PioRead m) (value : Byte)

include h

/-- The command leads into the READ_SECTOR state. -/
theorem PioRead.begins :
    InSectorOf m.dev.updateChs 0 (xthdcDevices.after m (.write 0x320 value)).dev := by
  have hfunc : xthdcDevices.write 0x320 = some xthdcDataWrite := rfl
  have hcode : (m.dev.setCommand 5 value).command 0 = xthdcCmdRead := h.code
  have hdrqen : ¬(m.dev.setCommand 5 value).mask.getLsbD xthdcMaskDrqen = true := by
    rw [show (m.dev.setCommand 5 value).mask = m.dev.mask from rfl, h.drqen]
    decide
  rw [Devices.after_write hfunc]
  simp only [xthdcDataWrite, outcome_bind, outcome_getDev, h.state, outcome_modifyDev,
    xthdcCommand, outcome_ite]
  rw [if_pos hcode, dev_xthdcRead, if_neg hdrqen]
  exact ⟨rfl, rfl, rfl, rfl⟩

/-- The bytes of the sector come one after another. -/
theorem PioRead.inSector {k : ℕ} (hk : k < diskSectorSize) :
    InSectorOf m.dev.updateChs k (m.afterReads value k).dev := by
  induction k with
  | zero => exact h.begins value
  | succ k ih =>
    have hin := ih (Nat.lt_of_succ_lt hk)
    rw [Machine.afterReads, List.replicate_succ', runAll_append]
    show InSectorOf _ _ (xthdcDevices.after (m.afterReads value k) (.read 0x320)).dev
    rw [dev_after_read hin.state]
    exact hin.next hk

/-- With the last one the command ends. -/
theorem PioRead.sector_ends : (m.afterReads value diskSectorSize).dev.state = .status := by
  have hin := h.inSector value (k := 511) (by decide)
  have hsplit : m.afterReads value diskSectorSize =
      xthdcDevices.after (m.afterReads value 511) (.read 0x320) := by
    rw [Machine.afterReads, show diskSectorSize = 511 + 1 from rfl, List.replicate_succ',
      runAll_append]
    rfl
  rw [hsplit, dev_after_read hin.state]
  exact hin.last rfl

theorem PioRead.digits : (m.diskReady value).Digits :=
  ⟨Nat.succ_pos _, h.sector, h.head, h.cylinder⟩

/-- The bytes of the DMA transfer lie in a line. -/
theorem PioRead.dmaDelivers_eq : m.dmaDelivers value =
    (List.range m.blockBytes).map fun k => m.dev.data (diskPlace m.diskStart k) := by
  have hstart : m.diskStart < diskSize := diskReady_index m value ▸ (h.digits value).at.lt
  rw [Machine.dmaDelivers, (readsAlong_disk.block _ (h.digits value)).2.1, readAlong_eq_map,
    diskReady_index]
  exact List.map_congr_left fun k _ => congrArg m.dev.data (iterate_diskNext hstart k)

/-- A sector does not lap the end of the disk. -/
theorem PioRead.place {k : ℕ} (hk : k < diskSectorSize) :
    diskPlace m.diskStart k = m.dev.updateChs.lba * diskSectorSize + k := by
  have hlt : m.diskStart + k < diskSize := by
    have hstart : m.diskStart < diskSize := diskReady_index m 0 ▸ (h.digits 0).at.lt
    have hlba : m.dev.updateChs.lba < diskCylinders * diskHeads * diskSectors :=
      Nat.lt_of_mul_lt_mul_right hstart
    calc m.diskStart + k < m.dev.updateChs.lba * diskSectorSize + diskSectorSize :=
          Nat.add_lt_add_left hk _
      _ = (m.dev.updateChs.lba + 1) * diskSectorSize := (Nat.succ_mul ..).symm
      _ ≤ diskSize := Nat.mul_le_mul_right _ hlba
  rw [diskPlace, Nat.mod_eq_of_lt hlt, Machine.diskStart]

end Pio

/-- **A READ without DMA** delivers what the same READ with DMA stores in memory, and ends with the
last byte of it, exactly when its block asks for one sector. -/
theorem pio_read_iff {m : Machine Xthdc} (h : PioRead m) (value : Byte) :
    (∀ d, DmaTwin m d → ∀ a, ¬d.Pushes fe2010IrqHardDisk a →
      (xthdcDevices.after d (.write 0x320 value)).mem.m a =
        (d.mem.dmaStore (d.fe2010.dmaAddress fe2010DmaHardDisk) (m.dmaDelivers value)).m a) ∧
      (PioDelivers m value ↔ (m.dev.command 4).toNat = 1) := by
  constructor
  · intro d hd a ha
    have hline := (hd.command.readsLine value).bytes a ha
    have hchs : d.diskStart = m.diskStart := by
      unfold Machine.diskStart Xthdc.updateChs Xthdc.lba
      rw [hd.block]
    rw [hline, h.dmaDelivers_eq, Machine.diskBytes, hd.count, hd.data, hchs]
  constructor
  · intro hdelivers
    by_contra hne
    -- a second sector would be read, but the first one ends the command
    have hmany : diskSectorSize < m.blockBytes := by
      have hblocks := h.blocks
      unfold Machine.blockBytes diskSectorSize
      omega
    have hreading := hdelivers.reading diskSectorSize hmany
    rw [h.sector_ends] at hreading
    cases hreading
  · intro hone
    have hbytes : m.blockBytes = diskSectorSize := by rw [Machine.blockBytes, hone, Nat.one_mul]
    refine ⟨fun k hk => ?_, fun k hk => ?_, ?_⟩
    · exact (h.inSector value (hbytes ▸ hk)).state
    · have hin := h.inSector value (hbytes ▸ hk)
      have hbyte : statusByte (m.afterReads value k) = m.dev.data (diskPlace m.diskStart k) := by
        rw [statusByte, value_dataRead_of_sector hin.state, hin.index, hin.data,
          h.place (hbytes ▸ hk)]
        rfl
      rw [h.dmaDelivers_eq, hbyte, List.getElem?_map, List.getElem?_range hk]
      rfl
    · rw [hbytes]
      exact h.sector_ends value

/-- A READ of two blocks from the beginning of the disk. -/
def readingTwoBlocks : Machine Xthdc :=
  machineInit { xthdcInit with
    state := .commandParam5
    command := fun i => [0x08, 0x00, 0x00, 0x00, 0x02, 0x00].getD i 0 }

theorem readingTwoBlocks_pioRead : PioRead readingTwoBlocks :=
  ⟨rfl, rfl, rfl, by decide, by decide, by decide, by decide⟩

/-- It ends after the first. -/
theorem pio_read_iff_two : ¬PioDelivers readingTwoBlocks 0 :=
  mt (pio_read_iff readingTwoBlocks_pioRead 0).2.mp (by decide)

theorem pio_read_short : ¬ ∀ (m : Machine Xthdc) (value : Byte), PioRead m →
    PioDelivers m value := by
  intro h
  have hreading :=
    (h readingTwoBlocks 0 readingTwoBlocks_pioRead).reading diskSectorSize (by decide)
  rw [readingTwoBlocks_pioRead.sector_ends] at hreading
  cases hreading

end Pc20iii
