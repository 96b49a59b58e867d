import Pc20iii.Disk.Xthdc
import Pc20iii.I8088.Execute

/-!
# The disk image accesses of the hard disk controller

Which indices the hard disk controller uses, over all runs of port accesses and whatever
the rest of the machine does between them.

The controller does not look at the address of a command. A transfer that starts on the
disk stays there, since each callback moves to the next byte and wraps at the end of the
disk (`Xthdc.OnDisk.advance`); one that starts beyond the disk accesses the image beyond
its end with its first byte. So the indices of a run are all below `DISK_SIZE` exactly
when every access that moves data starts on the disk (`disk_accesses_lt_iff`).
-/

namespace Pc20iii

open StateProgram

/-! ### Positions -/

namespace Xthdc

/-- The position is inside a sector. -/
def InSector (x : Xthdc) : Prop := x.byteNo.toNat < diskSectorSize

/-- The sector of the position is on the disk. -/
def OnDisk (x : Xthdc) : Prop := x.lba < diskCylinders * diskHeads * diskSectors

instance (x : Xthdc) : Decidable x.OnDisk := inferInstanceAs (Decidable (_ < _))

/-- Every access so far is inside the image. -/
def Bounded (x : Xthdc) : Prop := ∀ n ∈ x.accesses, n < diskSize

variable {x : Xthdc}

theorem index_lt_iff (h : x.InSector) : x.index < diskSize ↔ x.OnDisk := by
  unfold InSector diskSectorSize at h
  unfold index OnDisk diskSize diskSectorSize
  omega

@[simp] theorem advance_accesses (overrun : String) (x : Xthdc) :
    (x.advance overrun).1.accesses = x.accesses := by
  unfold advance
  dsimp only
  split_ifs <;> rfl

/-- The next byte is inside a sector. -/
theorem inSector_advance (overrun : String) (x : Xthdc) : (x.advance overrun).1.InSector := by
  unfold Xthdc.advance
  dsimp only
  split_ifs with hbyte
  all_goals first
    | exact Nat.lt_of_not_le hbyte
    | exact Nat.succ_pos _

/-- The next byte is on the disk again: at the end of a sector, of a track and of a cylinder
the position wraps to the next one, and at the end of the disk to its beginning. -/
theorem OnDisk.advance (h : x.OnDisk) (overrun : String) : (x.advance overrun).1.OnDisk := by
  have hsector := BitVec.toNat_add x.sector 1
  have hhead := BitVec.toNat_add x.head 1
  have hcylinder := BitVec.toNat_add x.cylinder 1
  have hzero : (0 : Byte).toNat = 0 := rfl
  have hzero' : (0 : Word).toNat = 0 := rfl
  have hone : (1 : Byte).toNat = 1 := rfl
  have hone' : (1 : Word).toNat = 1 := rfl
  unfold Xthdc.advance
  dsimp only
  -- which of the three digits overflow
  split_ifs with hb hs hh hc
  all_goals
    simp only [OnDisk, lba, diskCylinders, diskHeads, diskSectors] at *
    omega

/-! ### Transfers -/

/-- One byte of a transfer: the access at the position, and the step to the next byte. -/
structure Moves (x y : Xthdc) : Prop where
  accesses : y.accesses = x.index :: x.accesses
  inSector : y.InSector
  onDisk : x.OnDisk → y.OnDisk

theorem moves_readCallback (x : Xthdc) : x.Moves (xthdcImageReadCallback x).2.1 where
  accesses := advance_accesses ..
  inSector := inSector_advance ..
  onDisk h := OnDisk.advance (x := x.readSectorByte.2) h _

theorem moves_writeCallback (byte : Byte) (x : Xthdc) :
    x.Moves (xthdcImageWriteCallback byte x).2.1 where
  accesses := advance_accesses ..
  inSector := inSector_advance ..
  onDisk h := OnDisk.advance (x := x.writeSectorByte byte) h _

/-- One byte is moved inside the image exactly when it is moved from a place on the disk. -/
theorem Moves.bounded_iff {y : Xthdc} (h : x.Moves y) (hx : x.InSector) :
    y.Bounded ↔ x.Bounded ∧ x.OnDisk := by
  rw [Bounded, h.accesses, List.forall_mem_cons, index_lt_iff hx, and_comm]
  rfl

/-- A transfer stays inside the image exactly when it starts on the disk. -/
theorem bounded_of_transfer {y : Xthdc} (h : Relation.TransGen Moves x y) (hx : x.InSector) :
    y.InSector ∧ (y.Bounded ↔ x.Bounded ∧ x.OnDisk) := by
  induction h using Relation.TransGen.head_induction_on with
  | single hxy => exact ⟨hxy.inSector, hxy.bounded_iff hx⟩
  | head hxz _ ih =>
    obtain ⟨hy, hiff⟩ := ih hxz.inSector
    refine ⟨hy, hiff.trans ?_⟩
    rw [hxz.bounded_iff hx]
    exact ⟨fun hz => hz.1, fun hx => ⟨hx, hxz.onDisk hx.2⟩⟩

theorem transfer_foldl {α : Type} {f : Xthdc → α → Xthdc} (hf : ∀ v (x : Xthdc), x.Moves (f x v))
    {l : List α} (hl : l ≠ []) (x : Xthdc) : Relation.TransGen Moves x (l.foldl f x) := by
  induction l generalizing x with
  | nil => exact absurd rfl hl
  | cons v l ih =>
    cases l with
    | nil => exact .single (hf v x)
    | cons w l => exact .head (hf v x) (ih (List.cons_ne_nil w l) (f x v))

theorem transfer_iterate {f : Xthdc → Xthdc} (hf : ∀ x : Xthdc, x.Moves (f x)) (n : ℕ)
    (x : Xthdc) : Relation.TransGen Moves x (f^[n + 1] x) := by
  have hrange : List.range (n + 1) ≠ [] := by simp
  have hfold := transfer_foldl (f := fun x _ => f x) (fun _ => hf) hrange x
  rwa [List.foldl_const, List.length_range] at hfold

/-- The state of the controller after its interrupt. -/
def interrupting (x : Xthdc) : Xthdc :=
  if x.mask.getLsbD xthdcMaskIrqen then x.statusSet xthdcStatusIrq else x

/-- The state of the controller at the end of a command. -/
def completed (x : Xthdc) : Xthdc :=
  (x.interrupting.statusSet xthdcStatusIo).setState .status

@[simp] theorem interrupting_accesses (x : Xthdc) : x.interrupting.accesses = x.accesses := by
  unfold interrupting
  split <;> rfl

@[simp] theorem completed_accesses (x : Xthdc) : x.completed.accesses = x.accesses :=
  x.interrupting_accesses

@[simp] theorem completed_state (x : Xthdc) : x.completed.state = .status := rfl

end Xthdc

@[simp] theorem dev_xthdcIrq (m : Machine Xthdc) :
    (outcome xthdcIrq m).2.dev = m.dev.interrupting := by
  simp only [xthdcIrq, outcome_bind, outcome_getDev, outcome_ite, outcome_modifyDev, outcome_pure,
    Xthdc.interrupting]
  split <;> simp

@[simp] theorem dev_xthdcComplete (m : Machine Xthdc) :
    (outcome xthdcComplete m).2.dev = m.dev.completed := by
  simp [xthdcComplete, Xthdc.completed]

@[simp] theorem dev_xthdcReport (commandStatus : Byte) (m : Machine Xthdc) :
    (outcome (xthdcReport commandStatus) m).2.dev =
      { m.dev with commandStatus := commandStatus }.completed := by
  simp [xthdcReport]

@[simp] theorem Xthdc.updateChs_mask (x : Xthdc) : x.updateChs.mask = x.mask := rfl

/-- The start of a READ or WRITE command. -/
def Xthdc.started (x : Xthdc) : Xthdc := { x.updateChs with byteNo := 0 }

/-- What a READ does to the controller, by the mask and the mode of its channel. -/
theorem dev_xthdcRead (m : Machine Xthdc) :
    (outcome xthdcRead m).2.dev =
      if m.dev.mask.getLsbD xthdcMaskDrqen then
        (if m.fe2010.dmaTransfer fe2010DmaHardDisk = dmaModeWrite then
          (fun x => (xthdcImageReadCallback x).2.1)^[
            (m.fe2010.dmaCount fe2010DmaHardDisk).toNat + 1] m.dev.started
        else m.dev.started).completed
      else
        ((m.dev.started.statusClear xthdcStatusCd).statusSet xthdcStatusIo).setState
          .readSector := by
  simp only [xthdcRead, outcome_bind, outcome_getDev, outcome_ite, outcome_modifyDev,
    Xthdc.updateChs_mask]
  -- with DMA, and without
  split
  · rw [dev_xthdcComplete, dev_fe2010DmaWrite]
    rfl
  · rfl

/-- What a WRITE does to the controller, by the mask and the mode of its channel. -/
theorem dev_xthdcWrite (m : Machine Xthdc) :
    (outcome xthdcWrite m).2.dev =
      if m.dev.mask.getLsbD xthdcMaskDrqen then
        (if m.fe2010.dmaTransfer fe2010DmaHardDisk = dmaModeRead then
          (m.dmaBytes fe2010DmaHardDisk).foldl (fun x v => (xthdcImageWriteCallback v x).2.1)
            m.dev.started
        else m.dev.started).completed
      else
        (m.dev.started.statusSet xthdcStatusIo).setState .status := by
  simp only [xthdcWrite, outcome_bind, outcome_getDev, outcome_ite, outcome_modifyDev,
    outcome_devicePanic, Xthdc.updateChs_mask]
  split
  · rw [dev_xthdcComplete, dev_fe2010DmaRead]
    rfl
  · rfl

/-! ### Steps -/

/-- Reading the data port stays inside the current sector. -/
def Xthdc.Reading (x : Xthdc) : Prop := x.state = .readSector → x.InSector

/-- The completed command block starts a DMA transfer. -/
def TransfersDisk (m : Machine Xthdc) : Prop :=
  m.dev.mask.getLsbD xthdcMaskDrqen = true ∧
    (m.dev.command 0 = xthdcCmdRead ∧
        m.fe2010.dmaTransfer fe2010DmaHardDisk = dmaModeWrite ∨
      m.dev.command 0 = xthdcCmdWrite ∧
        m.fe2010.dmaTransfer fe2010DmaHardDisk = dmaModeRead)

/-- An access that moves data starts on the disk: the last byte of a READ or WRITE command
with DMA does so from the address in the command block, and a read of the data port in the
READ_SECTOR state from the current position. -/
def StartsOnDisk (m : Machine Xthdc) : Access Xthdc → Prop
  | .write port _ =>
    port = 0x320 → m.dev.state = .commandParam5 → TransfersDisk m → m.dev.updateChs.OnDisk
  | .read port => port = 0x320 → m.dev.state = .readSector → m.dev.OnDisk
  | .other _ => True

/-- An access after which `Reading` holds, and the accesses to the image are bounded when
they were and `P` is met. -/
def BoundedBy (P : Prop) (x y : Xthdc) : Prop :=
  y.Reading ∧ (y.Bounded ↔ x.Bounded ∧ P)

theorem BoundedBy.of_eq {P : Prop} {x y : Xthdc} (hP : P) (ha : y.accesses = x.accesses)
    (hs : y.state ≠ .readSector) : BoundedBy P x y := by
  refine ⟨fun h => absurd h hs, ?_⟩
  rw [Xthdc.Bounded, ha, and_iff_left hP]
  rfl

/-- An access that leaves the image and the state alone. -/
theorem BoundedBy.of_kept {P : Prop} {x y : Xthdc} (hP : P) (h : x.Reading)
    (ha : y.accesses = x.accesses) (hs : y.state = x.state) (hb : y.byteNo = x.byteNo) :
    BoundedBy P x y := by
  refine ⟨?_, ?_⟩
  · rw [Xthdc.Reading, Xthdc.InSector, hs, hb]
    exact h
  · rw [Xthdc.Bounded, ha, and_iff_left hP]
    rfl

theorem BoundedBy.congr {P P' : Prop} (h : P ↔ P') {x y : Xthdc} (hxy : BoundedBy P x y) :
    BoundedBy P' x y :=
  ⟨hxy.1, by rw [hxy.2, h]⟩

theorem started_onDisk {x : Xthdc} : x.started.OnDisk ↔ x.updateChs.OnDisk := Iff.rfl

theorem started_bounded {x : Xthdc} : x.started.Bounded ↔ x.Bounded := Iff.rfl

theorem started_inSector (x : Xthdc) : x.started.InSector := Nat.succ_pos _

/-- A transfer at the end of a command block. -/
theorem BoundedBy.of_transfer {x y : Xthdc} (h : Relation.TransGen Xthdc.Moves x.started y) :
    BoundedBy x.updateChs.OnDisk x y.completed := by
  have hiff := (Xthdc.bounded_of_transfer h (started_inSector x)).2
  rw [started_onDisk, started_bounded] at hiff
  refine ⟨nofun, ?_⟩
  rw [Xthdc.Bounded, y.completed_accesses]
  exact hiff

/-- A READ or WRITE command whose DMA channel is not in the mode for it, or without DMA. -/
theorem BoundedBy.of_idle {P : Prop} {x y : Xthdc} (hP : P) (ha : y.accesses = x.accesses)
    (hb : y.byteNo = 0) : BoundedBy P x y := by
  have hy : y.InSector := by
    rw [Xthdc.InSector, hb]
    exact Nat.succ_pos _
  refine ⟨fun _ => hy, ?_⟩
  rw [Xthdc.Bounded, ha, and_iff_left hP]
  rfl

/-- A READ is inside the image exactly when it starts there, if it transfers anything. -/
theorem boundedBy_read {m : Machine Xthdc} (h : m.dev.command 0 = xthdcCmdRead) :
    BoundedBy (TransfersDisk m → m.dev.updateChs.OnDisk) m.dev (outcome xthdcRead m).2.dev := by
  have hcmd : m.dev.command 0 ≠ xthdcCmdWrite := by rw [h]; decide
  rw [dev_xthdcRead]
  split_ifs with hmask hmode
  · have hmoves := BoundedBy.of_transfer (Xthdc.transfer_iterate Xthdc.moves_readCallback
      (m.fe2010.dmaCount fe2010DmaHardDisk).toNat m.dev.started)
    have htransfers : TransfersDisk m := ⟨hmask, .inl ⟨h, hmode⟩⟩
    simpa only [htransfers, forall_const] using hmoves
  -- the channel is in another mode, so nothing is moved
  · refine .of_eq ?_ (Xthdc.completed_accesses _) nofun
    rintro ⟨-, hread | hwrite⟩
    · exact absurd hread.2 hmode
    · exact absurd hwrite.1 hcmd
  · exact .of_idle (fun htransfers => absurd htransfers.1 hmask) rfl rfl

/-- A WRITE is inside the image exactly when it starts there, if it transfers anything. -/
theorem boundedBy_write {m : Machine Xthdc} (h : m.dev.command 0 = xthdcCmdWrite) :
    BoundedBy (TransfersDisk m → m.dev.updateChs.OnDisk) m.dev (outcome xthdcWrite m).2.dev := by
  have hcmd : m.dev.command 0 ≠ xthdcCmdRead := by rw [h]; decide
  rw [dev_xthdcWrite]
  split_ifs with hmask hmode
  · have hbytes : m.dmaBytes fe2010DmaHardDisk ≠ [] := by simp [Machine.dmaBytes]
    have hmoves := BoundedBy.of_transfer
      (Xthdc.transfer_foldl Xthdc.moves_writeCallback hbytes m.dev.started)
    have htransfers : TransfersDisk m := ⟨hmask, .inr ⟨h, hmode⟩⟩
    simpa only [htransfers, forall_const] using hmoves
  -- the channel is in another mode, so nothing is moved
  · refine .of_eq ?_ (Xthdc.completed_accesses _) nofun
    rintro ⟨-, hread | hwrite⟩
    · exact absurd hread.1 hcmd
    · exact absurd hwrite.2 hmode
  · exact .of_idle (fun htransfers => absurd htransfers.1 hmask) rfl rfl

/-- The command switch. -/
theorem boundedBy_command (m : Machine Xthdc) :
    BoundedBy (TransfersDisk m → m.dev.updateChs.OnDisk) m.dev (outcome xthdcCommand m).2.dev := by
  simp only [xthdcCommand, outcome_bind, outcome_getDev, outcome_ite]
  by_cases hread : m.dev.command 0 = xthdcCmdRead
  · rw [if_pos hread]
    exact boundedBy_read hread
  by_cases hwrite : m.dev.command 0 = xthdcCmdWrite
  · rw [if_neg hread, if_pos hwrite]
    exact boundedBy_write hwrite
  -- no other command moves data
  have hP : TransfersDisk m → m.dev.updateChs.OnDisk := by
    rintro ⟨-, h | h⟩
    · exact absurd h.1 hread
    · exact absurd h.1 hwrite
  rw [if_neg hread, if_neg hwrite]
  split_ifs
  all_goals
    simp only [outcome_modifyDev, outcome_devicePanic, dev_xthdcReport]
    exact .of_eq hP (by simp [Xthdc.setState]) nofun

/-- A byte of the command block. -/
theorem boundedBy_parameter {P : Prop} (hP : P) (i : Fin 6) (value : Byte) (next : XthdcState)
    (hnext : next ≠ .readSector) (m : Machine Xthdc) :
    BoundedBy P m.dev (outcome (xthdcParameter i value next) m).2.dev :=
  .of_eq hP rfl hnext

/-- A write of the data port. -/
theorem boundedBy_dataWrite (port : Word) (value : Byte) {m : Machine Xthdc}
    (h : m.dev.Reading) :
    BoundedBy (m.dev.state = .commandParam5 → TransfersDisk m → m.dev.updateChs.OnDisk) m.dev
      (outcome (xthdcDataWrite port value) m).2.dev := by
  simp only [xthdcDataWrite, outcome_bind, outcome_getDev]
  cases hs : m.dev.state with
  | commandParam5 =>
    have hcommand := boundedBy_command { m with dev := m.dev.setCommand 5 value }
    have hparameter : (TransfersDisk m → m.dev.updateChs.OnDisk) ↔
        (XthdcState.commandParam5 = .commandParam5 → TransfersDisk m → m.dev.updateChs.OnDisk) :=
      (imp_iff_right rfl).symm
    exact hcommand.congr hparameter
  -- the parameters of the drive are no transfer
  | initializeDrive =>
    simp only [outcome_bind, outcome_getDev, outcome_modifyDev, outcome_ite, outcome_pure]
    split_ifs
    · rw [dev_xthdcReport]
      exact .of_eq nofun (Xthdc.completed_accesses _) nofun
    · exact .of_eq nofun rfl (by simp [hs])
  | status | idle | readSector => exact .of_kept nofun h rfl rfl rfl
  | command | commandParam1 | commandParam2 | commandParam3 | commandParam4 =>
    refine boundedBy_parameter ?_ _ _ _ ?_ m <;> nofun

/-- A read of the data port. -/
theorem boundedBy_dataRead (port : Word) {m : Machine Xthdc} (h : m.dev.Reading) :
    BoundedBy (m.dev.state = .readSector → m.dev.OnDisk) m.dev
      (outcome (xthdcDataRead port) m).2.dev := by
  simp only [xthdcDataRead, outcome_bind, outcome_getDev]
  cases hs : m.dev.state with
  | status => exact .of_eq nofun rfl nofun
  | readSector =>
    -- one more byte of the sector, at the place of the digits
    have hiff : ∀ y : Xthdc, y.accesses = m.dev.index :: m.dev.accesses →
        (y.Bounded ↔ m.dev.Bounded ∧ (True → m.dev.OnDisk)) := by
      intro y hy
      rw [Xthdc.Bounded, hy, List.forall_mem_cons, Xthdc.index_lt_iff (h hs), and_comm,
        true_imp_iff]
      rfl
    simp only [outcome_bind, outcome_getDev, outcome_modifyDev, outcome_ite, outcome_pure]
    split_ifs with hbyte
    · refine ⟨nofun, hiff _ ?_⟩
      rw [dev_xthdcIrq]
      exact Xthdc.interrupting_accesses _
    · exact ⟨fun _ => Nat.lt_of_not_le hbyte, hiff _ rfl⟩
  | idle | command | commandParam1 | commandParam2 | commandParam3 | commandParam4
  | commandParam5 | initializeDrive => exact .of_kept nofun h rfl rfl rfl

/-- An access of the machine. -/
theorem boundedBy_after {m : Machine Xthdc} (h : m.dev.Reading) (a : Access Xthdc) :
    BoundedBy (StartsOnDisk m a) m.dev (xthdcDevices.after m a).dev := by
  cases a using xthdc_cases m with
  | dataRead => exact (boundedBy_dataRead 0x320 h).congr (by simp [StartsOnDisk])
  | dataWrite value => exact (boundedBy_dataWrite 0x320 value h).congr (by simp [StartsOnDisk])
  | statusRead => exact .of_kept nofun h rfl rfl rfl
  | resetWrite | driveSelWrite => exact .of_eq nofun rfl nofun
  | maskWrite => exact .of_kept nofun h rfl rfl rfl
  -- the data port is the only one that moves bytes
  | kept a hread hwrite hdev =>
    rw [hdev]
    refine .of_kept ?_ h rfl rfl rfl
    cases a with
    | other m' => trivial
    | read port =>
      rintro rfl
      exact absurd rfl hread
    | write port value =>
      rintro rfl
      exact absurd rfl (hwrite value)

/-! ### Runs -/

/-- The machine after `xthdc_init` and `xthdc_image_load`. -/
def Machine.withDisk (m : Machine Xthdc) (file : Option (List Byte)) : Machine Xthdc :=
  { m with dev := (xthdcImageLoad file xthdcInit).2 }

theorem xthdcImageLoad_fresh (file : Option (List Byte)) :
    (xthdcImageLoad file xthdcInit).2.state = .idle ∧
      (xthdcImageLoad file xthdcInit).2.accesses = [] := by
  unfold xthdcImageLoad
  split
  · exact ⟨rfl, rfl⟩
  · split <;> exact ⟨rfl, rfl⟩

/-- **The disk image accesses.** Over every run of the hard disk controller, all indices
into the image are below `DISK_SIZE` exactly when every access that moves data starts on
the disk. -/
theorem disk_accesses_lt_iff (file : Option (List Byte)) (m : Machine Xthdc)
    (as : List (Access Xthdc)) :
    (∀ n ∈ (runAll xthdcDevices.after (m.withDisk file) as).dev.accesses, n < diskSize) ↔
      Along xthdcDevices.after StartsOnDisk (m.withDisk file) as := by
  obtain ⟨hstate, haccesses⟩ := xthdcImageLoad_fresh file
  -- a controller that has been reset is in no sector
  have hreading : (m.withDisk file).dev.Reading := by
    intro h
    rw [Machine.withDisk, hstate] at h
    cases h
  have hbounded : (m.withDisk file).dev.Bounded := by
    rw [Xthdc.Bounded, Machine.withDisk, haccesses]
    nofun
  have hrun := runAll_iff (I := fun m => m.dev.Reading)
    (Q := fun m => m.dev.Bounded) (P := StartsOnDisk)
    (fun m a h => (boundedBy_after h a).1) (fun m a h => (boundedBy_after h a).2) hreading as
  exact hrun.trans (and_iff_right hbounded)

/-- A READ command for cylinder 1023 without DMA, and a read of its first byte. -/
def readCylinder1023 : List (Access Xthdc) :=
  [.write 0x322 0x00, .write 0x320 0x08, .write 0x320 0x00, .write 0x320 0xC0, .write 0x320 0xFF,
    .write 0x320 0x01, .write 0x320 0x00, .read 0x320]

/-- The controller accesses the image beyond its end. -/
theorem disk_accesses_beyond : ¬ ∀ (file : Option (List Byte)) (m : Machine Xthdc)
    (as : List (Access Xthdc)),
    ∀ n ∈ (runAll xthdcDevices.after (m.withDisk file) as).dev.accesses, n < diskSize := by
  intro h
  have haccesses : (runAll xthdcDevices.after ((machineInit xthdcInit).withDisk none)
      readCylinder1023).dev.accesses = [35616768] := by decide
  have hlt := h none (machineInit xthdcInit) readCylinder1023 35616768 (by simp [haccesses])
  exact absurd hlt (by decide)

end Pc20iii
