import Pc20iii.Device.Transfer
import Pc20iii.Disk.Fdc9268Phase

/-!
# Sectors of a floppy disk, written and read back

A WRITE command of the floppy disk controller moves bytes from memory into the image, and a
READ command with the same cylinder, head and sector moves them back.

What a command knows of its place is its `FdcTask`; the eight bytes before the last parameter
set it up, whatever else the guest does between them (`task_runAll`). The callbacks move along
the image (`readsAlong_floppy`, `writesAlong_floppy`), so the two transfers are a
`storeAlong` and a `readAlong` from one position, and what the second one brings is what the
first one stored.

Both commands end with an interrupt request. If it is accepted, it pushes its frame to the
stack of the guest, wherever that is: these six bytes are the only ones that change outside
the transfer (`floppy_round_trip`).
-/

namespace Pc20iii

open StateProgram

/-! ### Setting up a command -/

/-- The bytes of a WRITE or READ command. -/
structure FdcCommand where
  command : Byte
  drive : Byte
  cylinder : Byte
  head : Byte
  sector : Byte
  number : Byte
  eot : Byte
  gpl : Byte
  dtl : Byte

/-- The bytes before the last one, with which the transfer begins. -/
def FdcCommand.leading (c : FdcCommand) : List Byte :=
  [c.command, c.drive, c.cylinder, c.head, c.sector, c.number, c.eot, c.gpl]

/-- What the controller knows of the place of a transfer. -/
structure FdcTask where
  state : Fdc9268State
  drive : Fin 4
  cylinder : Byte
  head : Byte
  sector : Byte
  floppy : Fin 4 → Floppy

def Fdc9268.task (x : Fdc9268) : FdcTask :=
  ⟨x.state, x.drive, x.cmdCylinder, x.cmdHead, x.cmdSector, x.floppy⟩

/-- The drive that the second byte of a command selects. -/
def driveOf (value : Byte) : Fin 4 := Fin.ofNat 4 (value &&& 3).toNat

namespace FdcTask

/-- A byte of a WRITE or READ command before the last one. -/
def write (t : FdcTask) (value : Byte) : Option FdcTask :=
  match t.state with
  | .idle =>
    if value &&& 0x1F = fdcCmdRead then some { t with state := .cmdReadDs }
    else if value &&& 0x1F = fdcCmdWrite then some { t with state := .cmdWriteDs }
    else none
  | .cmdWriteDs => some { t with drive := driveOf value, state := .cmdWriteCPrior }
  | .cmdWriteCPrior => some { t with cylinder := value, state := .cmdWriteHPrior }
  | .cmdWriteHPrior => some { t with head := value, state := .cmdWriteRPrior }
  | .cmdWriteRPrior => some { t with sector := value, state := .cmdWriteNPrior }
  | .cmdWriteNPrior => some { t with state := .cmdWriteEot }
  | .cmdWriteEot => some { t with state := .cmdWriteGpl }
  | .cmdWriteGpl => some { t with state := .cmdWriteDtl }
  | .cmdReadDs => some { t with drive := driveOf value, state := .cmdReadCPrior }
  | .cmdReadCPrior => some { t with cylinder := value, state := .cmdReadHPrior }
  | .cmdReadHPrior => some { t with head := value, state := .cmdReadRPrior }
  | .cmdReadRPrior => some { t with sector := value, state := .cmdReadNPrior }
  | .cmdReadNPrior => some { t with state := .cmdReadEot }
  | .cmdReadEot => some { t with state := .cmdReadGpl }
  | .cmdReadGpl => some { t with state := .cmdReadDtl }
  | _ => none

end FdcTask

/-- The selection of a drive in `st0`. -/
theorem drive_st0DriveSelUpdate (value : Byte) (x : Fdc9268) :
    (x.st0DriveSelUpdate value).drive = driveOf value := by
  -- the two bits of the drive, as the source sets and clears them
  have hclear : ∀ s : Byte, s &&& ~~~bitMask 0 &&& ~~~bitMask 1 &&& 3 = 0 := by decide
  have hone : ∀ s : Byte, (s ||| bitMask 0) &&& ~~~bitMask 1 &&& 3 = 1 := by decide
  have htwo : ∀ s : Byte, (s &&& ~~~bitMask 0 ||| bitMask 1) &&& 3 = 2 := by decide
  have hthree : ∀ s : Byte, (s ||| bitMask 0 ||| bitMask 1) &&& 3 = 3 := by decide
  have hset : ∀ s : Byte, (s ||| bitMask 2) &&& 3 = s &&& 3 := by decide
  have hunset : ∀ s : Byte, s &&& ~~~bitMask 2 &&& 3 = s &&& 3 := by decide
  have hrest : ∀ v : Byte, v &&& 3 = 0 ∨ v &&& 3 = 1 ∨ v &&& 3 = 2 ∨ v &&& 3 = 3 := by decide
  suffices hst0 : (x.st0DriveSelUpdate value).st0 &&& 3 = value &&& 3 by
    rw [Fdc9268.drive, hst0, driveOf]
  have hhead : ∀ y : Fdc9268, (if value.getLsbD 2 then y.st0Set fdcSt0HeadNoAtInt
      else y.st0Clear fdcSt0HeadNoAtInt).st0 &&& 3 = y.st0 &&& 3 := by
    intro y
    split
    · exact hset y.st0
    · exact hunset y.st0
  unfold Fdc9268.st0DriveSelUpdate
  dsimp only
  rw [hhead]
  rcases hrest value with h | h | h | h <;> rw [h]
  · exact hclear x.st0
  · exact hone x.st0
  · exact htwo x.st0
  · exact hthree x.st0

theorem st0DriveSelUpdate_eq (value : Byte) (x : Fdc9268) :
    x.st0DriveSelUpdate value = { x with st0 := (x.st0DriveSelUpdate value).st0 } := by
  unfold Fdc9268.st0DriveSelUpdate
  dsimp only
  split_ifs <;> rfl

theorem task_st0DriveSelUpdate (value : Byte) (x : Fdc9268) :
    (x.st0DriveSelUpdate value).task = { x.task with drive := driveOf value } := by
  rw [Fdc9268.task, drive_st0DriveSelUpdate, st0DriveSelUpdate_eq]
  rfl

/-- The first byte of a WRITE or READ command starts no other one. -/
theorem fdcCommand_ne {value : Byte}
    (h : value &&& 0x1F = fdcCmdRead ∨ value &&& 0x1F = fdcCmdWrite) :
    value ≠ fdcCmdSis ∧ value ≠ fdcCmdSds ∧ value ≠ fdcCmdSpecify ∧ value ≠ fdcCmdRecalib ∧
      value ≠ fdcCmdSeek := by
  revert h value
  decide

/-- The first byte of a READ or a WRITE starts its task. -/
theorem task_command {m : Machine Fdc9268} (hidle : m.dev.state = .idle) {value : Byte}
    {t : FdcTask} (h : m.dev.task.write value = some t) :
    (outcome (fdcCommand value) m).2.dev.task = t := by
  have hstate : m.dev.task.state = .idle := hidle
  simp only [FdcTask.write, hstate] at h
  -- other commands are not followed by the task
  have hcommand : value &&& 0x1F = fdcCmdRead ∨ value &&& 0x1F = fdcCmdWrite := by
    by_contra hnot
    obtain ⟨hread, hwrite⟩ := not_or.mp hnot
    rw [if_neg hread, if_neg hwrite] at h
    cases h
  obtain ⟨hsis, hsds, hspecify, hrecalib, hseek⟩ := fdcCommand_ne hcommand
  simp only [fdcCommand, outcome_bind, outcome_ite, outcome_modifyDev]
  rw [if_neg hsis, if_neg hsds, if_neg hspecify, if_neg hrecalib, if_neg hseek]
  by_cases hread : value &&& 0x1F = fdcCmdRead
  · rw [if_pos hread] at h ⊢
    cases h
    rfl
  · have hwrite := hcommand.resolve_left hread
    rw [if_neg hread, if_pos hwrite] at h ⊢
    cases h
    rfl

/-- A byte of a command before the last one. -/
theorem task_fifoWrite {m : Machine Fdc9268} {value : Byte} {t : FdcTask}
    (h : m.dev.task.write value = some t) (port : Word) :
    (outcome (fdcFifoWrite port value) m).2.dev.task = t := by
  simp only [fdcFifoWrite, outcome_bind, outcome_getDev]
  cases hs : m.dev.state
  case idle => exact task_command hs h
  all_goals
    have hstate : m.dev.task.state = _ := hs
    simp only [FdcTask.write, hstate] at h
  case cmdWriteDs =>
    cases h
    exact congrArg (fun t : FdcTask => { t with state := .cmdWriteCPrior })
      (task_st0DriveSelUpdate value m.dev)
  case cmdReadDs =>
    cases h
    exact congrArg (fun t : FdcTask => { t with state := .cmdReadCPrior })
      (task_st0DriveSelUpdate value m.dev)
  -- the other bytes are stored as they are
  all_goals cases h <;> rfl

/-- An access of the data register. -/
def Access.isFifo (a : Access Fdc9268) : Bool := a.writesFifo || a.readsFifo

/-- No write of the digital output register resets the controller. -/
def NoReset (as : List (Access Fdc9268)) : Prop :=
  ∀ port value, Access.write port value ∈ as → ¬ ResetsFdc port value

theorem NoReset.tail {a : Access Fdc9268} {as : List (Access Fdc9268)} (h : NoReset (a :: as)) :
    NoReset as :=
  fun port value hmem => h port value (List.mem_cons_of_mem a hmem)

/-- A write of the digital output register that does not reset the controller. -/
theorem task_dorWrite {m : Machine Fdc9268} {value : Byte}
    (h : ¬ value.getLsbD fdcDorReset = false) (port : Word) :
    (outcome (fdcDorWrite port value) m).2.dev.task = m.dev.task := by
  simp only [fdcDorWrite, outcome_bind, outcome_getDev, outcome_ite, outcome_modifyDev,
    outcome_pure]
  rw [if_neg h]
  split_ifs
  · rw [dev_fdcIrq]
    rfl
  · rfl

/-- What the guest does besides is nothing to the command. -/
theorem task_after_of_not_isFifo {m : Machine Fdc9268} {a : Access Fdc9268}
    (h : a.isFifo = false) (hreset : NoReset [a]) :
    (fdcDevices.after m a).dev.task = m.dev.task := by
  cases a using fdc_cases m with
  | fifoRead => cases h
  | fifoWrite value => cases h
  | dorWrite value =>
    have hno := hreset _ value (List.mem_singleton.mpr rfl)
    exact task_dorWrite (fun hclear => hno ⟨rfl, hclear⟩) _
  | kept a _ hdev => rw [hdev]

/-- The bytes of a command do their work, whatever happens between them. -/
theorem task_runAll {as : List (Access Fdc9268)} (hreset : NoReset as) {bytes : List Byte}
    {m : Machine Fdc9268} (htraffic : as.filter Access.isFifo = bytes.map (.write 0x3F5 ·))
    {t : FdcTask} (h : bytes.foldlM FdcTask.write m.dev.task = some t) :
    (runAll fdcDevices.after m as).dev.task = t := by
  induction as generalizing m bytes with
  | nil =>
    obtain rfl : bytes = [] := List.map_eq_nil_iff.mp htraffic.symm
    exact Option.some.inj h
  | cons a as ih =>
    cases hfifo : a.isFifo with
    | false =>
      rw [List.filter_cons_of_neg (by rw [hfifo]; exact Bool.false_ne_true)] at htraffic
      -- not an access to the data register, so no byte of the command
      refine ih hreset.tail htraffic ?_
      have hone : NoReset [a] := fun port value hmem =>
        hreset port value (List.mem_cons.mpr (.inl (List.mem_singleton.mp hmem)))
      rwa [task_after_of_not_isFifo hfifo hone]
    | true =>
      rw [List.filter_cons_of_pos hfifo] at htraffic
      obtain ⟨value, bytes, rfl, rfl, hrest⟩ := List.map_eq_cons_iff.mp htraffic.symm
      rw [List.foldlM_cons] at h
      -- the next byte of the command
      obtain ⟨t', hfirst, h⟩ := Option.bind_eq_some_iff.mp h
      refine ih hreset.tail hrest.symm ?_
      have hfunc : fdcDevices.write 0x3F5 = some fdcFifoWrite := rfl
      rwa [Devices.after_write hfunc, task_fifoWrite hfirst]

/-! ### Transfers -/

/-- The drives are those of `x`, but for the data and the position of drive `ds`. -/
structure Fdc9268.SameDrives (ds : Fin 4) (x y : Fdc9268) : Prop where
  loaded : (y.floppy ds).loaded = (x.floppy ds).loaded
  spt : (y.floppy ds).spt = (x.floppy ds).spt
  size : (y.floppy ds).size = (x.floppy ds).size
  others : ∀ d, d ≠ ds → y.floppy d = x.floppy d

theorem Fdc9268.SameDrives.congr {ds : Fin 4} {x y z : Fdc9268} (h : x.SameDrives ds y)
    (hz : z.floppy = y.floppy) : x.SameDrives ds z where
  loaded := by rw [hz, h.loaded]
  spt := by rw [hz, h.spt]
  size := by rw [hz, h.size]
  others := by rw [hz]; exact h.others

theorem Fdc9268.SameDrives.congr_left {ds : Fin 4} {w x y : Fdc9268} (h : x.SameDrives ds y)
    (hw : w.floppy = x.floppy) : w.SameDrives ds y where
  loaded := by rw [hw, h.loaded]
  spt := by rw [hw, h.spt]
  size := by rw [hw, h.size]
  others := by rw [hw]; exact h.others

theorem Fdc9268.SameDrives.trans {ds : Fin 4} {x y z : Fdc9268} (h : x.SameDrives ds y)
    (h' : y.SameDrives ds z) : x.SameDrives ds z where
  loaded := by rw [h'.loaded, h.loaded]
  spt := by rw [h'.spt, h.spt]
  size := by rw [h'.size, h.size]
  others d hd := by rw [h'.others d hd, h.others d hd]

/-- The next place in an image, as the callbacks find it. -/
def nextPlace (size pos : ℕ) : ℕ := if pos + 1 > size then 0 else pos + 1

theorem iterate_nextPlace {size pos k : ℕ} (h : pos + k ≤ size) :
    (nextPlace size)^[k] pos = pos + k := by
  induction k with
  | zero => rfl
  | succ k ih =>
    have hle : ¬ pos + k + 1 > size := by omega
    rw [Function.iterate_succ_apply', ih (by omega), nextPlace, if_neg hle, Nat.add_assoc]

theorem separate_nextPlace {size pos n : ℕ} (h : pos + n ≤ size) :
    Separate (nextPlace size) pos n := by
  intro j hj k hk heq
  change j < n at hj
  change k < n at hk
  dsimp only at heq
  rw [iterate_nextPlace (by omega), iterate_nextPlace (by omega)] at heq
  omega

theorem advance_eq (overrun : String) (f : Floppy) :
    (f.advance overrun).1 = { f with pos := nextPlace f.size f.pos } := by
  unfold Floppy.advance nextPlace
  dsimp only
  split <;> rfl

theorem sameDrives_update {ds : Fin 4} {x y z : Fdc9268} (h : x.SameDrives ds y) {f : Floppy}
    (hz : z.floppy = Function.update y.floppy ds f) (hloaded : f.loaded = (y.floppy ds).loaded)
    (hspt : f.spt = (y.floppy ds).spt) (hsize : f.size = (y.floppy ds).size) :
    x.SameDrives ds z where
  loaded := by rw [hz, Function.update_self, hloaded, h.loaded]
  spt := by rw [hz, Function.update_self, hspt, h.spt]
  size := by rw [hz, Function.update_self, hsize, h.size]
  others d hd := by rw [hz, Function.update_of_ne hd, h.others d hd]

/-- The drive behind a callback. -/
theorem floppy_readCallback (ds : Fin 4) (y : Fdc9268) :
    (fdcImageReadCallback ds y).2.1.floppy ds =
      { y.floppy ds with pos := nextPlace (y.floppy ds).size (y.floppy ds).pos } := by
  rw [← advance_eq "Overrun during FDC read callback!\n"]
  exact Function.update_self ..

theorem floppy_writeCallback (ds : Fin 4) (byte : Byte) (y : Fdc9268) :
    (fdcImageWriteCallback ds byte y).2.1.floppy ds =
      { y.floppy ds with
        data := Function.update (y.floppy ds).data (y.floppy ds).pos byte
        pos := nextPlace (y.floppy ds).size (y.floppy ds).pos } := by
  have hadvance := advance_eq "Overrun during FDC write callback!\n"
    { y.floppy ds with data := Function.update (y.floppy ds).data (y.floppy ds).pos byte }
  rw [← hadvance]
  exact Function.update_self ..

/-- The callback of READ moves along the image. -/
theorem readsAlong_floppy (ds : Fin 4) (x : Fdc9268) :
    ReadsAlong (nextPlace (x.floppy ds).size) (x.SameDrives ds) (fun y => (y.floppy ds).pos)
      (fun y => (y.floppy ds).data) (fdcImageReadCallback ds) where
  ok {y} h := by
    have hf := advance_eq "Overrun during FDC read callback!\n" (y.floppy ds)
    refine sameDrives_update h (z := (fdcImageReadCallback ds y).2.1) rfl ?_ ?_ ?_ <;> rw [hf]
  value _ := rfl
  next_pos h := by rw [floppy_readCallback, h.size]
  image_eq _ := by rw [floppy_readCallback]

/-- The callback of WRITE moves along the image. -/
theorem writesAlong_floppy (ds : Fin 4) (x : Fdc9268) :
    WritesAlong (nextPlace (x.floppy ds).size) (x.SameDrives ds) (fun y => (y.floppy ds).pos)
      (fun y => (y.floppy ds).data) (fdcImageWriteCallback ds) where
  ok {y} h v := by
    have hf := advance_eq "Overrun during FDC write callback!\n"
      { y.floppy ds with data := Function.update (y.floppy ds).data (y.floppy ds).pos v }
    refine sameDrives_update h (z := (fdcImageWriteCallback ds v y).2.1) rfl ?_ ?_ ?_ <;> rw [hf]
  next_pos h v := by rw [floppy_writeCallback, h.size]
  image_eq _ v := by rw [floppy_writeCallback]

/-- A command changes the memory as its transfer does, and by the frame of its interrupt. -/
theorem mem_fdcTransfer {m : Machine Fdc9268} {readOperation : Bool} {dev : Fdc9268} {mem : Mem}
    (hdma : Transferred m (outcome (fdcImageDma readOperation) m).2 dev mem)
    (next : Fdc9268State) {a : BitVec 20} (h : ¬ m.Pushes fe2010IrqFloppyDisk a) :
    (outcome (fdcTransfer readOperation next) m).2.mem.m a = mem.m a := by
  obtain ⟨-, hmem, hcpu, hfe2010⟩ := hdma
  unfold fdcTransfer
  rw [outcome_bind]
  generalize outcome (fdcImageDma readOperation) m = r at hmem hcpu hfe2010 ⊢
  -- what comes after the transfer is the interrupt
  have hirq : ∀ x : Fdc9268, (outcome (fe2010Irq fe2010IrqFloppyDisk)
      { r.2 with dev := x }).2.mem.m a = mem.m a := by
    intro x
    have hpushes : ¬ ({ r.2 with dev := x } : Machine Fdc9268).Pushes fe2010IrqFloppyDisk a :=
      (pushes_congr hcpu hfe2010 fe2010IrqFloppyDisk a).not.mpr h
    rw [mem_fe2010Irq hpushes, ← hmem]
  simp only [fdcIrq, outcome_bind, outcome_ite, outcome_modifyDev]
  cases r.1
  · exact hirq _
  · exact hirq _

/-- `fdc_image_dma` for a drive with an image, in the mode of the command. -/
theorem outcome_fdcImageDma_of_loaded {m : Machine Fdc9268} (h : m.dev.selected.loaded = true)
    (readOperation : Bool) :
    (outcome (fdcImageDma readOperation) m).2 =
      (outcome (if readOperation then
          fe2010DmaWrite fe2010DmaFloppyDisk (fdcImageReadCallback m.dev.drive)
        else fe2010DmaRead fe2010DmaFloppyDisk (fdcImageWriteCallback m.dev.drive))
        { m with dev := m.dev.positioned }).2 := by
  have hloaded : ¬ (m.dev.floppy m.dev.drive).loaded = false := by
    rw [← Bool.not_eq_true, not_not]
    exact h
  simp only [fdcImageDma, outcome_bind, outcome_getDev, outcome_ite]
  rw [if_neg hloaded]
  rfl

theorem sameDrives_positioned (x : Fdc9268) : x.SameDrives x.drive x.positioned :=
  sameDrives_update (y := x) ⟨rfl, rfl, rfl, fun _ _ => rfl⟩ rfl rfl rfl rfl

/-- How many bytes channel 2 moves. -/
def Machine.floppyCount (m : Machine Fdc9268) : ℕ :=
  (m.fe2010.dmaCount fe2010DmaFloppyDisk).toNat + 1

/-- Where channel 2 starts. -/
def Machine.floppyAddress (m : Machine Fdc9268) : BitVec 32 :=
  m.fe2010.dmaAddress fe2010DmaFloppyDisk

/-- The last parameter byte of WRITE stores the bytes from memory in the image. -/
theorem floppy_fdcTransfer_write {m : Machine Fdc9268} (hloaded : m.dev.selected.loaded = true)
    (hmode : DmaMatches m false) (next : Fdc9268State) :
    let m' := (outcome (fdcTransfer false next) m).2
    m.dev.SameDrives m.dev.drive m'.dev ∧
      (m'.dev.floppy m.dev.drive).data =
        storeAlong (nextPlace m.dev.selected.size) m.dev.selected.data m.dev.startPos
          (m.dmaBytes fe2010DmaFloppyDisk) ∧
      ∀ a, ¬ m.Pushes fe2010IrqFloppyDisk a → m'.mem.m a = m.mem.m a := by
  intro m'
  have hdma := transferred_dmaRead (m := { m with dev := m.dev.positioned }) hmode
    (fdcImageWriteCallback m.dev.drive)
  have houtcome := outcome_fdcImageDma_of_loaded hloaded false
  rw [if_neg Bool.false_ne_true] at houtcome
  rw [← houtcome] at hdma
  -- the callback stores each byte at the next place
  obtain ⟨hok, -, hdata⟩ := (writesAlong_floppy m.dev.drive m.dev).block
    (m.dmaBytes fe2010DmaFloppyDisk) (sameDrives_positioned m.dev)
  rw [m.dev.positioned_floppy] at hdata
  have hfloppy : m'.dev.floppy = (outcome (fdcImageDma false) m).2.dev.floppy :=
    (dev_fdcTransfer false next m).2.1
  rw [hdma.dev] at hfloppy
  refine ⟨hok.congr hfloppy, ?_, fun a ha => ?_⟩
  · rw [hfloppy]
    exact hdata
  · exact mem_fdcTransfer (m := m) ⟨hdma.dev, hdma.mem, hdma.cpu, hdma.fe2010⟩ next ha

/-- The bytes that the callback of READ hands to the chipset. -/
def Machine.floppyHanded (m : Machine Fdc9268) : List Byte :=
  (produced (fdcImageReadCallback m.dev.drive) m.floppyCount m.dev.positioned).1

/-- They are those of the image, from the first place of the command on. -/
theorem floppyHanded_eq (m : Machine Fdc9268) : m.floppyHanded =
    readAlong (nextPlace m.dev.selected.size) m.dev.selected.data m.dev.startPos m.floppyCount := by
  obtain ⟨-, hbytes, -, -⟩ := (readsAlong_floppy m.dev.drive m.dev).block m.floppyCount
    (sameDrives_positioned m.dev)
  rw [m.dev.positioned_floppy] at hbytes
  exact hbytes

/-- The last parameter byte of READ stores the bytes from the image in memory. -/
theorem floppy_fdcTransfer_read {m : Machine Fdc9268} (hloaded : m.dev.selected.loaded = true)
    (hmode : DmaMatches m true) (hbelow : BelowMax m.floppyAddress m.floppyCount)
    (hwritable : m.mem.WritableFrom m.floppyAddress m.floppyCount) (next : Fdc9268State) :
    let m' := (outcome (fdcTransfer true next) m).2
    m.dev.SameDrives m.dev.drive m'.dev ∧
      (m'.dev.floppy m.dev.drive).data = m.dev.selected.data ∧
      ∀ a, ¬ m.Pushes fe2010IrqFloppyDisk a → m'.mem.m a =
        storeAlong (fun a => a + 1) m.mem.m (m.floppyAddress.setWidth 20) m.floppyHanded a := by
  intro m'
  have hdma := transferred_dmaWrite (m := { m with dev := m.dev.positioned }) hmode
    (fdcImageReadCallback m.dev.drive)
  have houtcome := outcome_fdcImageDma_of_loaded hloaded true
  rw [if_pos rfl] at houtcome
  rw [← houtcome] at hdma
  -- the image is read along its places while memory is stored along its addresses
  obtain ⟨hok, -, -, hdata⟩ := (readsAlong_floppy m.dev.drive m.dev).block
    m.floppyCount (sameDrives_positioned m.dev)
  rw [m.dev.positioned_floppy] at hdata
  have hfloppy : m'.dev.floppy = (outcome (fdcImageDma true) m).2.dev.floppy :=
    (dev_fdcTransfer true next m).2.1
  rw [hdma.dev] at hfloppy
  refine ⟨hok.congr hfloppy, ?_, fun a ha => ?_⟩
  · rw [hfloppy]
    exact hdata
  · have hmem := mem_fdcTransfer (m := m) ⟨hdma.dev, hdma.mem, hdma.cpu, hdma.fe2010⟩ next ha
    have hlength := length_produced (fdcImageReadCallback m.dev.drive) m.floppyCount
      m.dev.positioned
    have hstore := Mem.dmaStore_eq m.mem (hlength.symm ▸ hbelow)
      (hlength.symm ▸ hwritable)
    exact hmem.trans (congrFun (congrArg Mem.m hstore) a)

/-! ### Writing and reading back -/

/-- Where a sector begins in an image. -/
def floppySector (spt cylinder head sector : ℕ) : ℕ :=
  ((cylinder * 2 + head) * spt + (sector - 1)) * 512

/-- Two sectors are apart. -/
theorem floppySector_apart {spt c h r c' h' r' : ℕ} (hh : h < 2) (hh' : h' < 2)
    (hr : 1 ≤ r ∧ r ≤ spt) (hr' : 1 ≤ r' ∧ r' ≤ spt) (hne : (c, h, r) ≠ (c', h', r')) :
    floppySector spt c h r + 512 ≤ floppySector spt c' h' r' ∨
      floppySector spt c' h' r' + 512 ≤ floppySector spt c h r := by
  -- a remainder and a quotient name one place
  have hplace : ∀ {q s q' s' : ℕ}, s < spt → s' < spt → q * spt + s = q' * spt + s' →
      q = q' ∧ s = s' := by
    intro q s q' s' hs hs' heq
    have hmod := congrArg (· % spt) heq
    have hdiv := congrArg (· / spt) heq
    simp only [Nat.mul_add_mod_self_right, Nat.mod_eq_of_lt hs, Nat.mod_eq_of_lt hs'] at hmod
    simp only [Nat.mul_comm _ spt, Nat.mul_add_div (Nat.zero_lt_of_lt hs), Nat.div_eq_of_lt hs,
      Nat.div_eq_of_lt hs', Nat.add_zero] at hdiv
    exact ⟨hdiv, hmod⟩
  have hblock : (c * 2 + h) * spt + (r - 1) ≠ (c' * 2 + h') * spt + (r' - 1) := by
    intro heq
    obtain ⟨htrack, hsector⟩ := hplace (by omega) (by omega) heq
    have hc : c = c' := by omega
    have hhead : h = h' := by omega
    have hnumber : r = r' := by omega
    exact hne (by rw [hc, hhead, hnumber])
  unfold floppySector
  omega

/-- The accesses hand over a command with this code but for its last byte; between them the
guest does what it likes, but it does not reset the controller. -/
structure Issues (as : List (Access Fdc9268)) (c : FdcCommand) (code : Byte) : Prop where
  code : c.command &&& 0x1F = code
  traffic : as.filter Access.isFifo = c.leading.map (.write 0x3F5 ·)
  noReset : NoReset as

/-- The last parameter byte of a WRITE is due. -/
theorem Issues.task_write {as : List (Access Fdc9268)} {c : FdcCommand}
    (h : Issues as c fdcCmdWrite) {m : Machine Fdc9268} (hidle : m.dev.state = .idle) :
    (runAll fdcDevices.after m as).dev.task =
      ⟨.cmdWriteDtl, driveOf c.drive, c.cylinder, c.head, c.sector, m.dev.floppy⟩ := by
  refine task_runAll h.noReset h.traffic ?_
  have htask : m.dev.task.state = .idle := hidle
  have hread : ¬ c.command &&& 0x1F = fdcCmdRead := by
    rw [h.code]
    decide
  -- the command byte itself, behind which the parameters are stored
  have hfirst : m.dev.task.write c.command = some { m.dev.task with state := .cmdWriteDs } := by
    simp only [FdcTask.write, htask]
    rw [if_neg hread, if_pos h.code]
  rw [FdcCommand.leading, List.foldlM_cons, hfirst]
  rfl

/-- The last parameter byte of a READ is due. -/
theorem Issues.task_read {as : List (Access Fdc9268)} {c : FdcCommand}
    (h : Issues as c fdcCmdRead) {m : Machine Fdc9268} (hidle : m.dev.state = .idle) :
    (runAll fdcDevices.after m as).dev.task =
      ⟨.cmdReadDtl, driveOf c.drive, c.cylinder, c.head, c.sector, m.dev.floppy⟩ := by
  refine task_runAll h.noReset h.traffic ?_
  have htask : m.dev.task.state = .idle := hidle
  have hfirst : m.dev.task.write c.command = some { m.dev.task with state := .cmdReadDs } := by
    simp only [FdcTask.write, htask]
    rw [if_pos h.code]
  rw [FdcCommand.leading, List.foldlM_cons, hfirst]
  rfl

/-- The place of a transfer, from what the controller knows of it. -/
theorem place_of_task {x : Fdc9268} {t : FdcTask} (h : x.task = t) (hhead : t.head.toNat < 2)
    (hsector : 1 ≤ t.sector.toNat) :
    x.state = t.state ∧ x.drive = t.drive ∧ x.floppy = t.floppy ∧
      x.selected = t.floppy t.drive ∧ x.startPos = floppySector (t.floppy t.drive).spt.toNat
        t.cylinder.toNat t.head.toNat t.sector.toNat := by
  subst h
  exact ⟨rfl, rfl, rfl, rfl, Fdc9268.startPos_eq hhead hsector⟩

/-- A WRITE command and a later READ command. -/
structure FloppyExchange where
  start : Machine Fdc9268
  write : FdcCommand
  read : FdcCommand
  /-- The accesses up to the last byte of the WRITE. -/
  before : List (Access Fdc9268)
  /-- The accesses from there to the first byte of the READ. -/
  rest : List (Access Fdc9268)
  /-- The accesses up to the last byte of the READ. -/
  again : List (Access Fdc9268)

namespace FloppyExchange

variable (x : FloppyExchange)

/-- The machine when the last byte of the WRITE is due. -/
def atWrite : Machine Fdc9268 := runAll fdcDevices.after x.start x.before

/-- The machine after the WRITE. -/
def written : Machine Fdc9268 := fdcDevices.after x.atWrite (.write 0x3F5 x.write.dtl)

/-- The machine when the READ begins. -/
def between : Machine Fdc9268 := runAll fdcDevices.after x.written x.rest

/-- The machine when the last byte of the READ is due. -/
def atRead : Machine Fdc9268 := runAll fdcDevices.after x.between x.again

/-- The machine after the READ. -/
def readBack : Machine Fdc9268 := fdcDevices.after x.atRead (.write 0x3F5 x.read.dtl)

/-- The drive of the WRITE. -/
def drive : Fin 4 := driveOf x.write.drive

/-- The floppy in that drive. -/
def floppy : Floppy := x.start.dev.floppy x.drive

/-- Where the sector of the WRITE begins. -/
def sector : ℕ :=
  floppySector x.floppy.spt.toNat x.write.cylinder.toNat x.write.head.toNat x.write.sector.toNat

/-- How many bytes are transferred. -/
def count : ℕ := x.atWrite.floppyCount

/-- Where byte `k` comes from. -/
def source (k : ℕ) : BitVec 20 := x.atWrite.floppyAddress.setWidth 20 + BitVec.ofNat 20 k

/-- Where byte `k` goes to. -/
def target (k : ℕ) : BitVec 20 := x.atRead.floppyAddress.setWidth 20 + BitVec.ofNat 20 k

/-- Both commands name one sector of a loaded floppy, and channel 2 moves the same number of
bytes for both, in the mode of each, inside the image and below one megabyte. -/
structure Valid : Prop where
  idle : x.start.dev.state = .idle
  issuesWrite : Issues x.before x.write fdcCmdWrite
  rest : Along fdcDevices.after (fun m a => fdcOperation m a = none) x.written x.rest
  between : x.between.dev.state = .idle
  issuesRead : Issues x.again x.read fdcCmdRead
  sameDrive : driveOf x.read.drive = x.drive
  samePlace : x.read.cylinder = x.write.cylinder ∧ x.read.head = x.write.head ∧
    x.read.sector = x.write.sector
  loaded : x.floppy.loaded = true
  head : x.write.head.toNat < 2
  sector : 1 ≤ x.write.sector.toNat ∧ x.write.sector.toNat ≤ x.floppy.spt.toNat
  inside : x.sector + x.count ≤ x.floppy.size
  modeWrite : DmaMatches x.atWrite false
  modeRead : DmaMatches x.atRead true
  sameCount : x.atRead.floppyCount = x.count
  belowWrite : BelowMax x.atWrite.floppyAddress x.count
  belowRead : BelowMax x.atRead.floppyAddress x.count
  writable : x.atRead.mem.WritableFrom x.atRead.floppyAddress x.count

/-- The bytes come back, and nothing else changes but the bytes of the memory that are
exempt in the machine before the last byte of a command. -/
structure Returns (exempt : Machine Fdc9268 → BitVec 20 → Prop) : Prop where
  /-- What the READ hands to the chipset is not exempt. -/
  handed : x.atRead.floppyHanded = (List.range x.count).map fun k => x.atWrite.mem.m (x.source k)
  bytes : ∀ k < x.count, ¬ exempt x.atRead (x.target k) →
    x.readBack.mem.m (x.target k) = x.atWrite.mem.m (x.source k)
  stored : ∀ k < x.count,
    (x.readBack.dev.floppy x.drive).data (x.sector + k) = x.atWrite.mem.m (x.source k)
  image : ∀ n, n < x.sector ∨ x.sector + x.count ≤ n →
    (x.readBack.dev.floppy x.drive).data n = x.floppy.data n
  drives : ∀ d, d ≠ x.drive → (x.readBack.dev.floppy d).data = (x.start.dev.floppy d).data
  memoryWrite : ∀ a, ¬ exempt x.atWrite a → x.written.mem.m a = x.atWrite.mem.m a
  memoryRead : ∀ a, ¬ exempt x.atRead a → (∀ k < x.count, a ≠ x.target k) →
    x.readBack.mem.m a = x.atRead.mem.m a

variable {x}

/-- What every machine after the WRITE has of its floppies. -/
structure Stored (m : Machine Fdc9268) : Prop where
  drives : x.start.dev.SameDrives x.drive m.dev
  data : (m.dev.floppy x.drive).data =
    storeAlong (nextPlace x.floppy.size) x.floppy.data x.sector
      (x.atWrite.dmaBytes fe2010DmaFloppyDisk)

theorem Stored.congr {m m' : Machine Fdc9268} (h : x.Stored m)
    (hfloppy : m'.dev.floppy = m.dev.floppy) : x.Stored m' where
  drives := h.drives.congr hfloppy
  data := by rw [hfloppy, h.data]

/-- The WRITE. -/
theorem Valid.written (h : x.Valid) :
    x.Stored x.written ∧ ∀ a, ¬ x.atWrite.Pushes fe2010IrqFloppyDisk a →
      x.written.mem.m a = x.atWrite.mem.m a := by
  obtain ⟨hstate, hdrive, hfloppy, hselected, hpos⟩ :=
    place_of_task (h.issuesWrite.task_write h.idle) h.head h.sector.1
  change x.atWrite.dev.state = _ at hstate
  change x.atWrite.dev.drive = x.drive at hdrive
  change x.atWrite.dev.floppy = _ at hfloppy
  change x.atWrite.dev.selected = x.floppy at hselected
  change x.atWrite.dev.startPos = x.sector at hpos
  -- the last byte of the command runs the transfer
  have hwritten : x.written = (outcome (fdcTransfer false .cmdWriteSt0) x.atWrite).2 := by
    have hfunc : fdcDevices.write 0x3F5 = some fdcFifoWrite := rfl
    rw [FloppyExchange.written, Devices.after_write hfunc]
    simp [fdcFifoWrite, hstate]
  obtain ⟨hsame, hdata, hmem⟩ := floppy_fdcTransfer_write (by rw [hselected]; exact h.loaded)
    h.modeWrite .cmdWriteSt0
  rw [← hwritten, hdrive, hselected] at hdata
  rw [← hwritten, hdrive] at hsame
  rw [hpos] at hdata
  rw [← hwritten] at hmem
  exact ⟨⟨hsame.congr_left hfloppy.symm, hdata⟩, hmem⟩

/-- Accesses that move no data leave the floppies alone. -/
theorem floppy_runAll {as : List (Access Fdc9268)} {m : Machine Fdc9268}
    (h : Along fdcDevices.after (fun m a => fdcOperation m a = none) m as) :
    (runAll fdcDevices.after m as).dev.floppy = m.dev.floppy := by
  induction as generalizing m with
  | nil => rfl
  | cons a as ih =>
    rw [runAll_cons, ih h.2]
    rcases fdc_after_cases m a with ⟨-, hkept⟩ | ⟨r, next, hop, -⟩
    · exact hkept.2
    · rw [h.1] at hop
      cases hop

/-- The READ. -/
theorem Valid.readBack (h : x.Valid) :
    x.Stored x.readBack ∧
      x.atRead.floppyHanded = x.atWrite.dmaBytes fe2010DmaFloppyDisk ∧
      ∀ a, ¬ x.atRead.Pushes fe2010IrqFloppyDisk a →
        x.readBack.mem.m a = storeAlong (fun a => a + 1) x.atRead.mem.m
          (x.atRead.floppyAddress.setWidth 20) (x.atWrite.dmaBytes fe2010DmaFloppyDisk) a := by
  have hbetween : x.Stored x.between := h.written.1.congr (floppy_runAll h.rest)
  -- what the parameters of the READ have selected
  obtain ⟨hstate, hdrive, hfloppy, hselected, hpos⟩ :=
    place_of_task (h.issuesRead.task_read h.between) (h.samePlace.2.1 ▸ h.head)
      (h.samePlace.2.2 ▸ h.sector.1)
  change x.atRead.dev.state = _ at hstate
  change x.atRead.dev.drive = driveOf x.read.drive at hdrive
  change x.atRead.dev.floppy = _ at hfloppy
  change x.atRead.dev.selected = x.between.dev.floppy (driveOf x.read.drive) at hselected
  change x.atRead.dev.startPos = floppySector
    (x.between.dev.floppy (driveOf x.read.drive)).spt.toNat x.read.cylinder.toNat
      x.read.head.toNat x.read.sector.toNat at hpos
  rw [h.sameDrive] at hdrive hselected hpos
  rw [h.samePlace.1, h.samePlace.2.1, h.samePlace.2.2, hbetween.drives.spt] at hpos
  change x.atRead.dev.startPos = x.sector at hpos
  have hread : x.readBack = (outcome (fdcTransfer true .cmdReadSt0) x.atRead).2 := by
    have hfunc : fdcDevices.write 0x3F5 = some fdcFifoWrite := rfl
    rw [FloppyExchange.readBack, Devices.after_write hfunc]
    simp [fdcFifoWrite, hstate]
  -- the transfer leaves the image alone and stores what it reads in memory
  obtain ⟨hsame, hdata, hmem⟩ := floppy_fdcTransfer_read
    (by rw [hselected, hbetween.drives.loaded]; exact h.loaded) h.modeRead
    (h.sameCount.symm ▸ h.belowRead) (h.sameCount.symm ▸ h.writable) .cmdReadSt0
  rw [← hread, hdrive] at hsame hdata
  rw [← hread] at hmem
  have hhanded : x.atRead.floppyHanded = x.atWrite.dmaBytes fe2010DmaFloppyDisk := by
    -- what the READ reads is what the WRITE has stored
    have hlength : (x.atWrite.dmaBytes fe2010DmaFloppyDisk).length = x.count := length_dmaBytes ..
    have hback : readAlong (nextPlace x.floppy.size)
        (storeAlong (nextPlace x.floppy.size) x.floppy.data x.sector
          (x.atWrite.dmaBytes fe2010DmaFloppyDisk)) x.sector x.count =
        x.atWrite.dmaBytes fe2010DmaFloppyDisk := by
      rw [← hlength]
      refine readAlong_storeAlong (separate_nextPlace ?_)
      rw [hlength]
      exact h.inside
    rw [floppyHanded_eq, hselected, hbetween.data, hpos, h.sameCount]
    change readAlong (nextPlace (x.between.dev.floppy x.drive).size) _ _ _ = _
    rw [hbetween.drives.size]
    exact hback
  refine ⟨⟨hbetween.drives.trans (hsame.congr_left hfloppy.symm), ?_⟩, hhanded, fun a ha => ?_⟩
  · rw [hdata, hselected, hbetween.data]
  · rw [hmem a ha, hhanded]

theorem Valid.count_le (h : x.Valid) : x.count ≤ 2 ^ 20 := by
  have hbelow := h.belowWrite
  rw [BelowMax] at hbelow
  omega

/-- The bytes that the WRITE transfers. -/
theorem Valid.source (h : x.Valid) {k : ℕ}
    (hk : k < (x.atWrite.dmaBytes fe2010DmaFloppyDisk).length) :
    (x.atWrite.dmaBytes fe2010DmaFloppyDisk)[k] = x.atWrite.mem.m (x.source k) :=
  dmaBytes_getElem h.belowWrite hk

end FloppyExchange

/-- **A floppy sector is written and read back.** The bytes that a WRITE takes from memory are
those that a later READ of the same place brings back, no other byte of an image changes, and
no other byte of memory but the frame that the interrupt of a command pushes; sectors with
different cylinder, head or number are apart. -/
theorem floppy_round_trip (x : FloppyExchange) (h : x.Valid) :
    x.Returns (fun m a => m.Pushes fe2010IrqFloppyDisk a) ∧
      ∀ c h r c' h' r' : ℕ, h < 2 → h' < 2 → 1 ≤ r ∧ r ≤ x.floppy.spt.toNat →
        1 ≤ r' ∧ r' ≤ x.floppy.spt.toNat → (c, h, r) ≠ (c', h', r') →
        floppySector x.floppy.spt.toNat c h r + 512 ≤ floppySector x.floppy.spt.toNat c' h' r' ∨
          floppySector x.floppy.spt.toNat c' h' r' + 512 ≤
            floppySector x.floppy.spt.toNat c h r := by
  obtain ⟨hwritten, hmemWrite⟩ := h.written
  obtain ⟨hstored, hhanded, hmem⟩ := h.readBack
  have hlength : (x.atWrite.dmaBytes fe2010DmaFloppyDisk).length = x.count := length_dmaBytes ..
  -- inside the image the place goes on byte by byte
  have hplace : ∀ k ≤ x.count, (nextPlace x.floppy.size)^[k] x.sector = x.sector + k := by
    intro k hk
    have hinside := h.inside
    exact iterate_nextPlace (by omega)
  -- READ stores along memory in the order in which WRITE fetched
  have htarget : ∀ k, (fun a : BitVec 20 => a + 1)^[k] (x.atRead.floppyAddress.setWidth 20) =
      x.target k := iterate_succ_address _
  refine ⟨?_, fun c h r c' h' r' hh hh' hr hr' hne => floppySector_apart hh hh' hr hr' hne⟩
  constructor
  case handed =>
    rw [hhanded]
    refine List.ext_getElem ?_ fun k hk hk' => ?_
    · rw [hlength, List.length_map, List.length_range]
    · rw [h.source hk, List.getElem_map, List.getElem_range]
  case bytes =>
    -- the byte comes back unless the frame of the interrupt lies on it
    intro k hk hframe
    have hk' : k < (x.atWrite.dmaBytes fe2010DmaFloppyDisk).length := hlength.symm ▸ hk
    rw [hmem _ hframe, ← htarget, storeAlong_iterate (separate_succ_address _ ?_) hk', h.source hk']
    rw [hlength]
    exact h.count_le
  case stored =>
    intro k hk
    have hk' : k < (x.atWrite.dmaBytes fe2010DmaFloppyDisk).length := hlength.symm ▸ hk
    rw [hstored.data, ← hplace k hk.le, storeAlong_iterate (separate_nextPlace ?_) hk',
      h.source hk']
    rw [hlength]
    exact h.inside
  case image =>
    intro n hn
    rw [hstored.data]
    -- a place outside the sector is none of those that are stored to
    refine storeAlong_of_ne fun k hk => ?_
    rw [hlength] at hk
    rw [hplace k hk.le]
    omega
  case drives =>
    intro d hd
    rw [hstored.drives.others d hd]
  case memoryWrite => exact hmemWrite
  case memoryRead =>
    intro a hframe ha
    rw [hmem a hframe]
    refine storeAlong_of_ne fun k hk => ?_
    rw [hlength] at hk
    rw [htarget]
    exact ha k hk

/-- A command for sector 2 of cylinder 1 and head 1 of drive 0. -/
def secondSector (command : Byte) : FdcCommand := ⟨command, 4, 1, 1, 2, 2, 2, 0x1B, 0xFF⟩

/-- An image with two sectors in each of its four tracks. -/
def eightSectors : List (Fin 4 × Option (List Byte) × ℤ) := [(0, some (List.replicate 4096 0), 2)]

/-- A machine that accepts interrupts and whose channel 2 moves the bytes 3 to 6 of a page, in some
mode. -/
def machineWithStack (mode page : Byte) (bytes : BitVec 20 → Byte) : Machine Fdc9268 :=
  let m := machineInit fdc9268Init
  { m with
    cpu := { m.cpu with sp := 0x100, flags := { m.cpu.flags with i := true } }
    mem := { m.mem with m := bytes }
    fe2010 := { m.fe2010 with
      irqMask := 0xFF
      dmaMode := fun _ => mode
      dmaPage := fun _ => page
      dmaReg := fun _ => 3 } }

/-- Four bytes are written from the page 0, and read into the page 1. -/
def exchangeFourBytes : FloppyExchange where
  start := (machineWithStack 0x08 0 fun a => a.setWidth 8 + 0x40).withFloppies eightSectors
  write := secondSector fdcCmdWrite
  read := secondSector fdcCmdRead
  before := (secondSector fdcCmdWrite).leading.map (.write 0x3F5 ·)
  rest := List.replicate 7 (.read 0x3F5) ++ [.other (machineWithStack 0x04 1 fun _ => 0)]
  again := (secondSector fdcCmdRead).leading.map (.write 0x3F5 ·)

theorem issues_leading {c : FdcCommand} {code : Byte} (h : c.command &&& 0x1F = code) :
    Issues (c.leading.map (.write 0x3F5 ·)) c code where
  code := h
  traffic := rfl
  noReset port value hmem := by
    obtain ⟨v, -, heq⟩ := List.mem_map.mp hmem
    cases heq
    exact fun hreset => absurd hreset.1 (by decide)

/-- What the round trip asks for is met, by evaluation. -/
theorem exchangeFourBytes_valid : exchangeFourBytes.Valid where
  idle := by decide +kernel
  issuesWrite := issues_leading rfl
  rest := by
    refine ⟨rfl, rfl, rfl, rfl, rfl, rfl, rfl, rfl, trivial⟩
  between := by decide +kernel
  issuesRead := issues_leading rfl
  sameDrive := by decide
  samePlace := ⟨rfl, rfl, rfl⟩
  loaded := by decide +kernel
  head := by decide
  sector := by decide +kernel
  inside := by decide +kernel
  modeWrite := by decide +kernel
  modeRead := by decide +kernel
  sameCount := by decide +kernel
  belowWrite := by
    rw [BelowMax]
    decide +kernel
  belowRead := by
    rw [BelowMax]
    decide +kernel
  writable := by
    unfold Mem.WritableFrom
    decide +kernel

/-- The bytes come back. -/
theorem floppy_round_trip_bytes :
    (exchangeFourBytes.Returns fun m a => m.Pushes fe2010IrqFloppyDisk a) ∧
      (List.range 4).map (fun k => exchangeFourBytes.readBack.mem.m (exchangeFourBytes.target k)) =
        [0x43, 0x44, 0x45, 0x46] :=
  ⟨(floppy_round_trip exchangeFourBytes exchangeFourBytes_valid).1, by decide +kernel⟩

/-- The interrupt of the WRITE changes memory outside the transfer. -/
theorem floppy_interrupt_pushes : ¬ ∀ x : FloppyExchange, x.Valid →
    ∀ a, (∀ k < x.count, a ≠ x.source k) → x.written.mem.m a = x.atWrite.mem.m a := by
  intro h
  have hmemory := h exchangeFourBytes exchangeFourBytes_valid 0xFF (by decide +kernel)
  have hbefore : exchangeFourBytes.atWrite.mem.m 0xFF = 0x3F := by decide +kernel
  have hafter : exchangeFourBytes.written.mem.m 0xFF ≠ 0x3F := by decide +kernel
  exact hafter (hmemory.trans hbefore)

end Pc20iii
