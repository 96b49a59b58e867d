import Pc20iii.Disk.Fdc9268
import Pc20iii.I8088.Execute

/-!
# The image accesses of the floppy disk controller

Which indices the floppy disk controller uses, over all runs of port accesses and whatever
the rest of the machine does between them, and what it reports for a sector that does not
exist.

The controller looks at neither the cylinder, head and sector of a command nor the length
of the transfer, which comes from the DMA controller. The callbacks test the position after
the access, and by `pos > size`: they wrap only after the access at index `size`. So a run
stays inside the images and refuses every sector outside them exactly when each of its
commands names a sector of its image and its transfer ends inside the image
(`floppy_accesses_lt_iff`). A drive without an image is the one case that the controller
refuses.
-/

namespace Pc20iii

open StateProgram

namespace Fdc9268

/-- Every access so far is inside the image of its drive. -/
def Bounded (x : Fdc9268) : Prop := ∀ p ∈ x.accesses, p.2 < (x.floppy p.1).size

/-- The selected drive. -/
def selected (x : Fdc9268) : Floppy := x.floppy x.drive

/-- The position that a command computes. -/
def startPos (x : Fdc9268) : ℕ := (x.lba x.selected.spt * floppySectorSize).toNat

/-- The place of the sector that a command names, counted in bytes. -/
def sectorStart (x : Fdc9268) : ℕ :=
  ((x.cmdCylinder.toNat * 2 + x.cmdHead.toNat) * x.selected.spt.toNat +
    (x.cmdSector.toNat - 1)) * 512

/-- The cylinder, head and sector of the command name a sector inside the image of the
selected drive. -/
structure NamesSector (x : Fdc9268) : Prop where
  loaded : x.selected.loaded = true
  head : x.cmdHead.toNat < 2
  pos : 1 ≤ x.cmdSector.toNat
  sector : x.cmdSector.toNat ≤ x.selected.spt.toNat
  size : x.sectorStart + 512 ≤ x.selected.size

/-- The unsigned arithmetic of the controller finds the sectors of every cylinder. -/
theorem startPos_eq {x : Fdc9268} (hhead : x.cmdHead.toNat < 2)
    (hpos : 1 ≤ x.cmdSector.toNat) : x.startPos = x.sectorStart := by
  have hcylinder := x.cmdCylinder.isLt
  have hspt := x.selected.spt.isLt
  have hprod : (x.cmdCylinder.toNat * 2 + x.cmdHead.toNat) * x.selected.spt.toNat ≤ 511 * 255 :=
    Nat.mul_le_mul (by omega) (by omega)
  have hone : (1 : BitVec 32).toNat = 1 := rfl
  have htwo : (2 : BitVec 32).toNat = 2 := rfl
  have hsize : (512 : BitVec 32).toNat = 512 := rfl
  simp only [startPos, lba, sectorStart, floppySectorSize, floppyHpc, BitVec.toNat_mul,
    BitVec.toNat_sub, BitVec.toNat_add, BitVec.toNat_setWidth, hone, htwo, hsize]
  simp (disch := omega) only [Nat.mod_eq_of_lt]
  omega

theorem NamesSector.startPos_eq {x : Fdc9268} (h : x.NamesSector) :
    x.startPos = x.sectorStart :=
  Fdc9268.startPos_eq h.head h.pos

/-! ### Transfers -/

/-- One byte of a transfer of drive `ds`: the access at the position, and the step to the
next byte. -/
structure Moves (ds : Fin 4) (x y : Fdc9268) : Prop where
  accesses : y.accesses = (ds, (x.floppy ds).pos) :: x.accesses
  size : ∀ d, (y.floppy d).size = (x.floppy d).size
  pos : (x.floppy ds).pos < (x.floppy ds).size → (y.floppy ds).pos = (x.floppy ds).pos + 1

theorem size_setFloppy {ds : Fin 4} {f : Floppy} {x : Fdc9268}
    (h : f.size = (x.floppy ds).size) (d : Fin 4) :
    ((x.setFloppy ds f).floppy d).size = (x.floppy d).size := by
  by_cases hd : d = ds
  · subst hd
    rw [setFloppy_self, h]
  · rw [setFloppy_of_ne hd]

theorem advance_size (overrun : String) (f : Floppy) : (f.advance overrun).1.size = f.size := by
  unfold Floppy.advance
  dsimp only
  split <;> rfl

theorem advance_pos {f : Floppy} (h : f.pos < f.size) (overrun : String) :
    (f.advance overrun).1.pos = f.pos + 1 := by
  have hpos : ¬ f.pos + 1 > f.size := by omega
  unfold Floppy.advance
  dsimp only
  rw [if_neg hpos]

theorem moves_readCallback (ds : Fin 4) (x : Fdc9268) :
    x.Moves ds (fdcImageReadCallback ds x).2.1 where
  accesses := rfl
  size := size_setFloppy (advance_size ..)
  pos h := by
    change ((x.setFloppy ds _).floppy ds).pos = _
    rw [setFloppy_self]
    exact advance_pos h _

theorem moves_writeCallback (ds : Fin 4) (byte : Byte) (x : Fdc9268) :
    x.Moves ds (fdcImageWriteCallback ds byte x).2.1 where
  accesses := rfl
  size := size_setFloppy (advance_size ..)
  pos h := by
    change ((x.setFloppy ds _).floppy ds).pos = _
    rw [setFloppy_self]
    exact advance_pos (f := { x.floppy ds with
      data := Function.update (x.floppy ds).data (x.floppy ds).pos byte }) h _

/-- A transfer of a number of bytes. -/
inductive Transfer (ds : Fin 4) : ℕ → Fdc9268 → Fdc9268 → Prop
  | nil (x : Fdc9268) : Transfer ds 0 x x
  | cons {n : ℕ} {x y z : Fdc9268} (hxy : x.Moves ds y) (hyz : Transfer ds n y z) :
      Transfer ds (n + 1) x z

theorem transfer_foldl {α : Type} {ds : Fin 4} {f : Fdc9268 → α → Fdc9268}
    (hf : ∀ v (x : Fdc9268), x.Moves ds (f x v)) (l : List α) (x : Fdc9268) :
    Transfer ds l.length x (l.foldl f x) := by
  induction l generalizing x with
  | nil => exact .nil x
  | cons v l ih => exact .cons (hf v x) (ih (f x v))

theorem transfer_iterate {ds : Fin 4} {f : Fdc9268 → Fdc9268} (hf : ∀ x : Fdc9268, x.Moves ds (f x))
    (n : ℕ) (x : Fdc9268) : Transfer ds n x (f^[n] x) := by
  have hfold := transfer_foldl (f := fun x _ => f x) (fun _ => hf) (List.range n) x
  rwa [List.foldl_const, List.length_range] at hfold

/-- One byte is moved inside the image exactly when the position is inside it. -/
theorem Moves.bounded_iff {ds : Fin 4} {x y : Fdc9268} (h : x.Moves ds y) :
    y.Bounded ↔ x.Bounded ∧ (x.floppy ds).pos < (x.floppy ds).size := by
  rw [Bounded, h.accesses, List.forall_mem_cons, h.size, and_comm]
  simp only [h.size, Bounded]

/-- A transfer stays inside the image exactly when it ends there. -/
theorem Transfer.bounded_iff {ds : Fin 4} {n : ℕ} {x y : Fdc9268} (h : Transfer ds n x y) :
    y.Bounded ↔ x.Bounded ∧ (n = 0 ∨ (x.floppy ds).pos + n ≤ (x.floppy ds).size) := by
  induction h with
  | nil x => simp
  | @cons n x y z hxy _ ih =>
    rw [ih, hxy.bounded_iff, hxy.size, and_assoc]
    refine and_congr_right fun _ => ?_
    constructor
    · rintro ⟨hlt, hn⟩
      have hpos := hxy.pos hlt
      omega
    -- the transfer ends inside, so it has been inside all along
    · intro hn
      have hlt : (x.floppy ds).pos < (x.floppy ds).size := by omega
      have hpos := hxy.pos hlt
      exact ⟨hlt, by omega⟩

theorem Transfer.size {ds : Fin 4} {n : ℕ} {x y : Fdc9268} (h : Transfer ds n x y) (d : Fin 4) :
    (y.floppy d).size = (x.floppy d).size := by
  induction h with
  | nil x => rfl
  | cons hxy _ ih => rw [ih, hxy.size]

end Fdc9268

/-- The DMA channel is in the mode for the command. -/
def DmaMatches (m : Machine Fdc9268) (readOperation : Bool) : Prop :=
  m.fe2010.dmaTransfer fe2010DmaFloppyDisk = if readOperation then dmaModeWrite else dmaModeRead

instance (m : Machine Fdc9268) (readOperation : Bool) : Decidable (DmaMatches m readOperation) :=
  inferInstanceAs (Decidable (_ = _))

/-- How many bytes the DMA channel moves for the command. -/
def dmaLength (m : Machine Fdc9268) (readOperation : Bool) : ℕ :=
  if DmaMatches m readOperation then (m.fe2010.dmaCount fe2010DmaFloppyDisk).toNat + 1 else 0

/-- The controller with the position of the selected drive set. -/
def Fdc9268.positioned (x : Fdc9268) : Fdc9268 :=
  x.setFloppy x.drive { x.selected with pos := x.startPos }

theorem Fdc9268.positioned_floppy (x : Fdc9268) :
    x.positioned.floppy x.drive = { x.selected with pos := x.startPos } :=
  setFloppy_self ..

theorem Fdc9268.positioned_bounded {x : Fdc9268} : x.positioned.Bounded ↔ x.Bounded := by
  have hsize : ∀ d, (x.positioned.floppy d).size = (x.floppy d).size := size_setFloppy rfl
  refine forall₂_congr fun p _ => ?_
  rw [hsize]

/-- `fdc_image_dma` for a drive without an image. -/
theorem outcome_fdcImageDma_of_not_loaded {m : Machine Fdc9268}
    (h : m.dev.selected.loaded = false) (readOperation : Bool) :
    outcome (fdcImageDma readOperation) m = (false, m) := by
  have hloaded : (m.dev.floppy m.dev.drive).loaded = false := h
  simp only [fdcImageDma, outcome_bind, outcome_getDev, outcome_ite]
  rw [if_pos hloaded, outcome_pure]

/-- `fdc_image_dma` for a drive with an image. -/
theorem fdcImageDma_of_loaded {m : Machine Fdc9268} (h : m.dev.selected.loaded = true)
    (readOperation : Bool) :
    (outcome (fdcImageDma readOperation) m).1 = true ∧
      Fdc9268.Transfer m.dev.drive (dmaLength m readOperation) m.dev.positioned
        (outcome (fdcImageDma readOperation) m).2.dev := by
  have hloaded : ¬ (m.dev.floppy m.dev.drive).loaded = false := by
    rw [← Bool.not_eq_true, not_not]
    exact h
  simp only [fdcImageDma, outcome_bind, outcome_getDev, outcome_ite]
  rw [if_neg hloaded]
  refine ⟨rfl, ?_⟩
  cases readOperation with
  | true =>
    simp only [outcome_modifyDev, if_true, outcome_pure]
    rw [dev_fe2010DmaWrite]
    change Fdc9268.Transfer _ _ _ (if DmaMatches m true then _ else m.dev.positioned)
    unfold dmaLength
    -- a channel for the other direction moves nothing
    split
    · exact Fdc9268.transfer_iterate (Fdc9268.moves_readCallback _) _ _
    · exact .nil _
  | false =>
    simp only [outcome_modifyDev, outcome_pure]
    rw [if_neg Bool.false_ne_true, dev_fe2010DmaRead]
    change Fdc9268.Transfer _ _ _ (if DmaMatches m false then _ else m.dev.positioned)
    unfold dmaLength
    split
    · have hfold := Fdc9268.transfer_foldl (Fdc9268.moves_writeCallback m.dev.drive)
        (m.dmaBytes fe2010DmaFloppyDisk) m.dev.positioned
      rw [Machine.dmaBytes, List.length_map, List.length_range] at hfold
      exact hfold
    · exact .nil _

/-! ### Steps -/

@[simp] theorem dev_fdcIrq (m : Machine Fdc9268) :
    (outcome fdcIrq m).2.dev = { m.dev with pendingIrq := true } := by
  simp [fdcIrq]

/-- What the end of a command keeps of the transfer, and the status it reports. -/
theorem dev_fdcTransfer (readOperation : Bool) (next : Fdc9268State) (m : Machine Fdc9268) :
    let r := outcome (fdcImageDma readOperation) m
    let x := (outcome (fdcTransfer readOperation next) m).2.dev
    x.accesses = r.2.dev.accesses ∧ x.floppy = r.2.dev.floppy ∧
      x.st1 = if r.1 then 0 else bitMask fdcSt1SectorNotFound := by
  simp only [fdcTransfer, outcome_bind, outcome_ite, outcome_modifyDev, dev_fdcIrq]
  cases (outcome (fdcImageDma readOperation) m).1 <;> exact ⟨rfl, rfl, rfl⟩

/-- What every other access keeps. -/
def Fdc9268.Kept (x y : Fdc9268) : Prop := y.accesses = x.accesses ∧ y.floppy = x.floppy

theorem Fdc9268.Kept.bounded_iff {x y : Fdc9268} (h : x.Kept y) : y.Bounded ↔ x.Bounded := by
  rw [Fdc9268.Bounded, h.1, h.2]
  rfl

theorem kept_st0DriveSelUpdate (value : Byte) (x : Fdc9268) :
    x.Kept (x.st0DriveSelUpdate value) := by
  unfold Fdc9268.st0DriveSelUpdate
  dsimp only
  split_ifs <;> exact ⟨rfl, rfl⟩

theorem kept_parameter {store : Fdc9268 → Fdc9268} {m : Machine Fdc9268}
    (h : m.dev.Kept (store m.dev)) (next : Fdc9268State) :
    m.dev.Kept (outcome (fdcParameter store next) m).2.dev := h

theorem kept_command (value : Byte) (m : Machine Fdc9268) :
    m.dev.Kept (outcome (fdcCommand value) m).2.dev := by
  simp only [fdcCommand, outcome_bind, outcome_ite, outcome_modifyDev, outcome_devicePanic]
  split_ifs <;> exact ⟨rfl, rfl⟩

theorem kept_fifoRead (port : Word) (m : Machine Fdc9268) :
    m.dev.Kept (outcome (fdcFifoRead port) m).2.dev := by
  simp only [fdcFifoRead, outcome_bind, outcome_getDev]
  split
  case h_1 =>
    simp only [outcome_bind, outcome_getDev, outcome_ite]
    split <;> exact ⟨rfl, rfl⟩
  all_goals exact ⟨rfl, rfl⟩

theorem kept_dorWrite (port : Word) (value : Byte) (m : Machine Fdc9268) :
    m.dev.Kept (outcome (fdcDorWrite port value) m).2.dev := by
  simp only [fdcDorWrite, outcome_bind, outcome_getDev, outcome_ite, outcome_modifyDev,
    outcome_pure]
  split_ifs
  · exact ⟨rfl, rfl⟩
  · rw [dev_fdcIrq]
    exact ⟨rfl, rfl⟩
  · exact ⟨rfl, rfl⟩

/-- The access is the last parameter byte of a WRITE (`false`) or READ (`true`). -/
def fdcOperation (m : Machine Fdc9268) : Access Fdc9268 → Option Bool
  | .write port _ =>
    if port = 0x3F5 then
      match m.dev.state with
      | .cmdWriteDtl => some false
      | .cmdReadDtl => some true
      | _ => none
    else none
  | _ => none

/-- Only the last parameter byte of a READ or a WRITE starts a transfer. -/
theorem kept_fifoWrite (port : Word) (value : Byte) {m : Machine Fdc9268}
    (hw : m.dev.state ≠ .cmdWriteDtl) (hr : m.dev.state ≠ .cmdReadDtl) :
    m.dev.Kept (outcome (fdcFifoWrite port value) m).2.dev := by
  simp only [fdcFifoWrite, outcome_bind, outcome_getDev]
  cases hs : m.dev.state with
  | cmdWriteDtl => exact absurd hs hw
  | cmdReadDtl => exact absurd hs hr
  | idle => exact kept_command value m
  | cmdSdsDs => exact kept_st0DriveSelUpdate value m.dev
  -- a drive selection changes `st0`, which is no bound
  | cmdSeekDs | cmdWriteDs | cmdReadDs =>
    exact kept_parameter (kept_st0DriveSelUpdate value m.dev) _
  | cmdRecalibDs =>
    simp only [outcome_bind, outcome_modifyDev, dev_fdcIrq]
    exact kept_st0DriveSelUpdate value _
  | cmdSeekNcn =>
    simp only [outcome_bind, outcome_modifyDev, dev_fdcIrq]
    exact ⟨rfl, rfl⟩
  | _ => exact ⟨rfl, rfl⟩

/-- What an access does: it moves no data, or it is the last parameter byte of a WRITE or
READ. -/
theorem fdc_after_cases (m : Machine Fdc9268) (a : Access Fdc9268) :
    (fdcOperation m a = none ∧ m.dev.Kept (fdcDevices.after m a).dev) ∨
      ∃ r next, fdcOperation m a = some r ∧
        fdcDevices.after m a = (outcome (fdcTransfer r next) m).2 := by
  cases a using fdc_cases m with
  | fifoRead => exact .inl ⟨rfl, kept_fifoRead _ m⟩
  | dorWrite value => exact .inl ⟨rfl, kept_dorWrite _ value m⟩
  | fifoWrite value =>
    have hfunc : fdcDevices.write 0x3F5 = some fdcFifoWrite := rfl
    rw [Devices.after_write hfunc]
    -- only the last parameter byte starts the transfer
    by_cases hw : m.dev.state = .cmdWriteDtl
    · refine .inr ⟨false, .cmdWriteSt0, by simp [fdcOperation, hw], ?_⟩
      simp [fdcFifoWrite, hw]
    by_cases hr : m.dev.state = .cmdReadDtl
    · refine .inr ⟨true, .cmdReadSt0, by simp [fdcOperation, hr], ?_⟩
      simp [fdcFifoWrite, hr]
    refine .inl ⟨?_, kept_fifoWrite _ value hw hr⟩
    rw [fdcOperation, if_pos rfl]
    split
    · exact absurd ‹_› hw
    · exact absurd ‹_› hr
    · rfl
  | kept a hfifo hdev =>
    refine .inl ⟨?_, by rw [hdev]; exact ⟨rfl, rfl⟩⟩
    cases a with
    | write port value =>
      have hport : port ≠ 0x3F5 := by
        rintro rfl
        exact hfifo value rfl
      exact if_neg hport
    | read port => rfl
    | other m' => rfl

/-- The transfer of a command ends inside the image. -/
def EndsInside (m : Machine Fdc9268) (a : Access Fdc9268) : Prop :=
  ∀ r, fdcOperation m a = some r → m.dev.selected.loaded = true → DmaMatches m r →
    m.dev.startPos + ((m.fe2010.dmaCount fe2010DmaFloppyDisk).toNat + 1) ≤ m.dev.selected.size

/-- A command whose cylinder, head and sector do not name a sector inside an image transfers
nothing and reports `SECTOR_NOT_FOUND`. -/
def RefusesOutside (m : Machine Fdc9268) (a : Access Fdc9268) : Prop :=
  ∀ r, fdcOperation m a = some r → ¬ m.dev.NamesSector →
    (fdcDevices.after m a).dev.accesses = m.dev.accesses ∧
      (fdcDevices.after m a).dev.st1 = bitMask fdcSt1SectorNotFound

/-- A command to a drive with an image names a sector inside it, and the transfer that its
DMA channel makes ends inside the image. -/
def TransfersInside (m : Machine Fdc9268) (a : Access Fdc9268) : Prop :=
  ∀ r, fdcOperation m a = some r → m.dev.selected.loaded = true →
    m.dev.NamesSector ∧ (DmaMatches m r →
      m.dev.sectorStart + ((m.fe2010.dmaCount fe2010DmaFloppyDisk).toNat + 1) ≤
        m.dev.selected.size)

/-- The accesses of one step. -/
theorem bounded_fdc_after (m : Machine Fdc9268) (a : Access Fdc9268) :
    (fdcDevices.after m a).dev.Bounded ↔ m.dev.Bounded ∧ EndsInside m a := by
  rcases fdc_after_cases m a with ⟨hop, hkept⟩ | ⟨r, next, hop, hafter⟩
  · rw [hkept.bounded_iff, EndsInside, hop]
    exact (and_iff_left nofun).symm
  obtain ⟨haccesses, hfloppy, -⟩ := dev_fdcTransfer r next m
  rw [hafter, Fdc9268.Bounded, haccesses, hfloppy]
  -- an operation of one step is one request
  have hends : EndsInside m a ↔ (m.dev.selected.loaded = true → DmaMatches m r →
      m.dev.startPos + ((m.fe2010.dmaCount fe2010DmaFloppyDisk).toNat + 1) ≤
        m.dev.selected.size) := by
    rw [EndsInside, hop]
    exact ⟨fun h => h r rfl, fun h r' hr => Option.some.inj hr ▸ h⟩
  rw [hends]
  cases hloaded : m.dev.selected.loaded with
  | false =>
    rw [outcome_fdcImageDma_of_not_loaded hloaded]
    exact (and_iff_left nofun).symm
  | true =>
    have hbounded := (fdcImageDma_of_loaded hloaded r).2.bounded_iff
    rw [Fdc9268.positioned_bounded, Fdc9268.positioned_floppy] at hbounded
    refine hbounded.trans (and_congr_right fun _ => ?_)
    unfold dmaLength
    by_cases hmode : DmaMatches m r
    -- at least one byte is moved, so the bound is not empty
    · rw [if_pos hmode]
      exact ⟨fun h _ _ => h.resolve_left (Nat.succ_ne_zero _), fun h => .inr (h rfl hmode)⟩
    · rw [if_neg hmode]
      exact ⟨fun _ _ h => absurd h hmode, fun _ => .inl rfl⟩

/-- The refusal of one step. -/
theorem refusesOutside_iff (m : Machine Fdc9268) (a : Access Fdc9268) :
    RefusesOutside m a ↔
      ∀ r, fdcOperation m a = some r → m.dev.selected.loaded = true → m.dev.NamesSector := by
  refine forall₂_congr fun r hop => ?_
  rcases fdc_after_cases m a with ⟨hnone, -⟩ | ⟨r', next, hop', hafter⟩
  · rw [hnone] at hop
    cases hop
  obtain rfl : r' = r := Option.some.inj (hop'.symm.trans hop)
  obtain ⟨haccesses, -, hst1⟩ := dev_fdcTransfer r' next m
  rw [hafter, haccesses, hst1]
  cases hloaded : m.dev.selected.loaded with
  | false =>
    rw [outcome_fdcImageDma_of_not_loaded hloaded]
    exact ⟨fun _ => nofun, fun _ _ => ⟨rfl, rfl⟩⟩
  | true =>
    rw [(fdcImageDma_of_loaded hloaded r').1, if_pos rfl]
    constructor
    · intro h _
      -- a transfer moves at least one byte, so it is not refused
      by_contra hnames
      exact absurd (h hnames).2 (by decide)
    · exact fun h hnames => absurd (h rfl) hnames

/-- One step meets the two conditions exactly when its command is inside the image. -/
theorem transfersInside_iff (m : Machine Fdc9268) (a : Access Fdc9268) :
    EndsInside m a ∧ RefusesOutside m a ↔ TransfersInside m a := by
  rw [refusesOutside_iff]
  constructor
  · rintro ⟨hends, hnames⟩ r hop hloaded
    have h := hnames r hop hloaded
    exact ⟨h, fun hmode => h.startPos_eq ▸ hends r hop hloaded hmode⟩
  · intro h
    refine ⟨fun r hop hloaded hmode => ?_, fun r hop hloaded => (h r hop hloaded).1⟩
    obtain ⟨hnames, hends⟩ := h r hop hloaded
    rw [hnames.startPos_eq]
    exact hends hmode

/-! ### Runs -/

/-- The machine after `fdc9268_init` and calls of `fdc9268_image_load`. -/
def Machine.withFloppies (m : Machine Fdc9268) (loads : List (Fin 4 × Option (List Byte) × ℤ)) :
    Machine Fdc9268 :=
  let dev := loads.foldl (fun x load => (fdc9268ImageLoad load.1 load.2.1 load.2.2 x).2)
    fdc9268Init
  { m with dev := dev }

theorem fdc9268ImageLoad_accesses (ds : Fin 4) (file : Option (List Byte)) (sptOverride : ℤ)
    (x : Fdc9268) : (fdc9268ImageLoad ds file sptOverride x).2.accesses = x.accesses := by
  unfold fdc9268ImageLoad
  dsimp only
  split
  · rfl
  · split_ifs <;> rfl

theorem withFloppies_accesses (m : Machine Fdc9268)
    (loads : List (Fin 4 × Option (List Byte) × ℤ)) :
    (m.withFloppies loads).dev.accesses = [] := by
  have hfold : ∀ x : Fdc9268, x.accesses = [] →
      (loads.foldl (fun x load => (fdc9268ImageLoad load.1 load.2.1 load.2.2 x).2) x).accesses =
        [] := by
    induction loads with
    | nil => exact fun _ hx => hx
    | cons load loads ih => exact fun x hx => ih _ ((fdc9268ImageLoad_accesses ..).trans hx)
  exact hfold fdc9268Init rfl

/-- **The image accesses of the floppy disk controller.** Over every run, all indices are
inside the images and every sector outside them is refused, exactly when every command to a
drive with an image is inside it. -/
theorem floppy_accesses_lt_iff (m : Machine Fdc9268)
    (loads : List (Fin 4 × Option (List Byte) × ℤ)) (as : List (Access Fdc9268)) :
    (∀ p ∈ (runAll fdcDevices.after (m.withFloppies loads) as).dev.accesses,
        p.2 < ((runAll fdcDevices.after (m.withFloppies loads) as).dev.floppy p.1).size) ∧
      Along fdcDevices.after RefusesOutside (m.withFloppies loads) as ↔
    Along fdcDevices.after TransfersInside (m.withFloppies loads) as := by
  -- no image has been accessed at the start
  have hbounded : (m.withFloppies loads).dev.Bounded := by
    rw [Fdc9268.Bounded, withFloppies_accesses]
    nofun
  have hrun := runAll_iff (I := fun _ => True)
    (Q := fun m => m.dev.Bounded) (P := EndsInside) (fun _ _ _ => trivial)
    (fun m a _ => bounded_fdc_after m a) (s := m.withFloppies loads) trivial as
  rw [← along_congr transfersInside_iff, along_and]
  exact and_congr_left fun _ => hrun.trans (and_iff_right hbounded)

/-- A READ command for sector 0 of cylinder 0 and head 0 of drive 0. -/
def readSectorZero : List (Access Fdc9268) :=
  [.write 0x3F5 0x06, .write 0x3F5 0x00, .write 0x3F5 0x00, .write 0x3F5 0x00, .write 0x3F5 0x00,
    .write 0x3F5 0x02, .write 0x3F5 0x12, .write 0x3F5 0x1B, .write 0x3F5 0xFF]

/-- A machine whose DMA channel 2 moves one byte to memory. -/
def machineReadingFloppy : Machine Fdc9268 :=
  { machineInit fdc9268Init with fe2010 := { fe2010Init with dmaMode := fun _ => 0x04 } }

/-- An image of one sector in drive 0. -/
def oneSector : List (Fin 4 × Option (List Byte) × ℤ) := [(0, some (List.replicate 512 0), 1)]

/-- The controller accesses the image beyond its end. -/
theorem floppy_accesses_beyond : ¬ ∀ (m : Machine Fdc9268)
    (loads : List (Fin 4 × Option (List Byte) × ℤ)) (as : List (Access Fdc9268)),
    (∀ p ∈ (runAll fdcDevices.after (m.withFloppies loads) as).dev.accesses,
        p.2 < ((runAll fdcDevices.after (m.withFloppies loads) as).dev.floppy p.1).size) ∧
      Along fdcDevices.after RefusesOutside (m.withFloppies loads) as := by
  intro h
  have hbounded := (h machineReadingFloppy oneSector readSectorZero).1
  -- the block number of sector 0 is one before the first, so the offset wraps
  have haccesses : (runAll fdcDevices.after (machineReadingFloppy.withFloppies oneSector)
      readSectorZero).dev.accesses = [(0, 0xFFFFFE00)] := by decide +kernel
  have hsize : ((runAll fdcDevices.after (machineReadingFloppy.withFloppies oneSector)
      readSectorZero).dev.floppy 0).size = 512 := by decide +kernel
  rw [haccesses, List.forall_mem_singleton] at hbounded
  dsimp only at hbounded
  rw [hsize] at hbounded
  exact absurd hbounded (by decide)

end Pc20iii
