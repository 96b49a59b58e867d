import Pc20iii.Edfs.Files

/-!
# EtherDFS requests

`edfs.c`: `edfs_handle_packet`, which takes a request frame apart, lets the operations of
`Edfs.Files` answer it, and completes the reply.
-/

namespace Pc20iii

open StateProgram

variable {η : Type} (host : Host η)

/-! The functions of a request. -/

def edfsFuncRmdir : Byte := 0x01
def edfsFuncMkdir : Byte := 0x03
def edfsFuncChdir : Byte := 0x05
def edfsFuncClosefile : Byte := 0x06
def edfsFuncReadfile : Byte := 0x08
def edfsFuncWritefile : Byte := 0x09
def edfsFuncDiskspace : Byte := 0x0C
def edfsFuncSetattr : Byte := 0x0E
def edfsFuncGetattr : Byte := 0x0F
def edfsFuncRename : Byte := 0x11
def edfsFuncDelete : Byte := 0x13
def edfsFuncOpen : Byte := 0x16
def edfsFuncCreate : Byte := 0x17
def edfsFuncFindfirst : Byte := 0x1B
def edfsFuncFindnext : Byte := 0x1C
def edfsFuncSpopnfil : Byte := 0x2E

/-- Two bytes of `tx_frame`, least significant first. -/
def readTxWordLE (tx : ℕ → Byte) (i : ℕ) : N η Word := do
  let lo ← readTx tx i
  let hi ← readTx tx (i + 1)
  return wordOf lo hi

/-- Four bytes of `tx_frame`, least significant first. -/
def readTxLongLE (tx : ℕ → Byte) (i : ℕ) : N η (BitVec 32) := do
  let lo ← readTxWordLE tx i
  let hi ← readTxWordLE tx (i + 2)
  return hi ++ lo

/-- `edfs_path`: the path at an offset, which is `NULL` (`some none`) when it does not fit
its array. When the frame ends before the offset, the source writes in front of the array
and then to all of memory, and does not survive (`none`). -/
def edfsPath (tx : ℕ → Byte) (txLen offset : ℕ) : N η (Option (Option CString)) := do
  note (.edfsPath offset txLen)
  if txLen < offset then
    note .crash
    return none
  else if txLen - offset ≥ pathMax then
    return some none
  else
    return some (some (cStringOf ((List.range (txLen - offset)).map fun k => tx (offset + k))))

/-- An operation on the path at `offset`, which does not survive `NULL` either. -/
def edfsWithPath {α : Type} (tx : ℕ → Byte) (txLen offset : ℕ) (operation : CString → N η α) :
    N η (Option α) := do
  match ← edfsPath tx txLen offset with
  | none => return none
  | some none =>
    note .crash
    return none
  | some (some path) => return some (← operation path)

/-- The `switch` of `edfs_handle_packet`: the length of the reply. -/
def edfsDispatch (tx : ℕ → Byte) (txLen : Word) (func : Byte) : N η (Option Word) := do
  let len := txLen.toNat
  if func = edfsFuncRmdir then
    edfsWithPath tx len 0x3C (edfsRmdir host)
  else if func = edfsFuncMkdir then
    edfsWithPath tx len 0x3C (edfsMkdir host)
  else if func = edfsFuncChdir then
    edfsWithPath tx len 0x3C (edfsChdir host)
  else if func = edfsFuncClosefile then
    let _ ← readTxWordLE tx 0x3C
    return some (← edfsFail edfsResultOk)
  else if func = edfsFuncReadfile then
    let offset ← readTxLongLE tx 0x3C
    let cluster ← readTxWordLE tx 0x40
    let size ← readTxWordLE tx 0x42
    return some (← edfsRead host offset cluster size)
  else if func = edfsFuncWritefile then
    let offset ← readTxLongLE tx 0x3C
    let cluster ← readTxWordLE tx 0x40
    return some (← edfsWrite host offset cluster (fun k => tx (0x42 + k)) (txLen - 0x42))
  else if func = edfsFuncDiskspace then
    -- just report 2GB of free space
    writeRx 0x3A [0x01, 0x00, 0xFF, 0xFF, 0x00, 0x80, 0xFF, 0xFF]
    return some 0x42
  else if func = edfsFuncSetattr then
    -- do nothing, just report OK
    let _ ← readTx tx 0x3C
    match ← edfsPath tx len 0x3D with
    | none => return none
    | some _ => return some (← edfsFail edfsResultOk)
  else if func = edfsFuncGetattr then
    edfsWithPath tx len 0x3C (edfsGetattr host)
  else if func = edfsFuncFindfirst then
    let attrib ← readTx tx 0x3C
    edfsWithPath tx len 0x3D fun path => edfsFind host attrib path 0 0
  else if func = edfsFuncFindnext then
    let cluster ← readTxWordLE tx 0x3C
    let pos ← readTxWordLE tx 0x3E
    let attrib ← readTx tx 0x40
    edfsWithPath tx len 0x41 fun path => edfsFind host attrib path cluster pos
  else if func = edfsFuncRename then
    let srcLen := (← readTx tx 0x3C).toNat
    match ← edfsWithPath tx len (0x3D + srcLen) (pure ·) with
    | none => return none
    | some dst => edfsWithPath tx (61 + srcLen) 0x3D fun src => edfsRename host src dst
  else if func = edfsFuncDelete then
    edfsWithPath tx len 0x3C (edfsDelete host)
  else if func = edfsFuncOpen then
    let attrib ← readTxWordLE tx 0x3C
    edfsWithPath tx len 0x42 fun path => edfsOpen host path attrib 0x0001
  else if func = edfsFuncCreate then
    let _ ← readTxWordLE tx 0x3C
    edfsWithPath tx len 0x42 fun path => edfsOpen host path 0x0002 0x0012
  else if func = edfsFuncSpopnfil then
    let _ ← readTxWordLE tx 0x3C
    let action ← readTxWordLE tx 0x3E
    let mode ← readTxWordLE tx 0x40
    edfsWithPath tx len 0x42 fun path => edfsOpen host path mode action
  else
    netPanic "Unhandled EtherDFS function: 0x%02x\n"
    return some (← edfsFail edfsResultInvalidFunction)

/-- The branches of the `switch`, each with the function it is for. -/
theorem edfsDispatch_cases {motive : N η (Option Word) → Prop} {tx : ℕ → Byte} {txLen : Word}
    {func : Byte}
    (rmdir : func = edfsFuncRmdir → motive (edfsWithPath tx txLen.toNat 0x3C (edfsRmdir host)))
    (mkdir : func = edfsFuncMkdir → motive (edfsWithPath tx txLen.toNat 0x3C (edfsMkdir host)))
    (chdir : func = edfsFuncChdir → motive (edfsWithPath tx txLen.toNat 0x3C (edfsChdir host)))
    (closefile : func = edfsFuncClosefile → motive (do
      let _ ← readTxWordLE tx 0x3C
      return some (← edfsFail edfsResultOk)))
    (readfile : func = edfsFuncReadfile → motive (do
      let offset ← readTxLongLE tx 0x3C
      let cluster ← readTxWordLE tx 0x40
      let size ← readTxWordLE tx 0x42
      return some (← edfsRead host offset cluster size)))
    (writefile : func = edfsFuncWritefile → motive (do
      let offset ← readTxLongLE tx 0x3C
      let cluster ← readTxWordLE tx 0x40
      return some (← edfsWrite host offset cluster (fun k => tx (0x42 + k)) (txLen - 0x42))))
    (diskspace : func = edfsFuncDiskspace → motive (do
      writeRx 0x3A [0x01, 0x00, 0xFF, 0xFF, 0x00, 0x80, 0xFF, 0xFF]
      return some 0x42))
    (setattr : func = edfsFuncSetattr → motive (do
      let _ ← readTx tx 0x3C
      match ← edfsPath tx txLen.toNat 0x3D with
      | none => return none
      | some _ => return some (← edfsFail edfsResultOk)))
    (getattr : func = edfsFuncGetattr →
      motive (edfsWithPath tx txLen.toNat 0x3C (edfsGetattr host)))
    (findfirst : func = edfsFuncFindfirst → motive (do
      let attrib ← readTx tx 0x3C
      edfsWithPath tx txLen.toNat 0x3D fun path => edfsFind host attrib path 0 0))
    (findnext : func = edfsFuncFindnext → motive (do
      let cluster ← readTxWordLE tx 0x3C
      let pos ← readTxWordLE tx 0x3E
      let attrib ← readTx tx 0x40
      edfsWithPath tx txLen.toNat 0x41 fun path => edfsFind host attrib path cluster pos))
    (rename : func = edfsFuncRename → motive (do
      let srcLen := (← readTx tx 0x3C).toNat
      match ← edfsWithPath tx txLen.toNat (0x3D + srcLen) (pure ·) with
      | none => return none
      | some dst => edfsWithPath tx (61 + srcLen) 0x3D fun src => edfsRename host src dst))
    (delete : func = edfsFuncDelete → motive (edfsWithPath tx txLen.toNat 0x3C (edfsDelete host)))
    (openfile : func = edfsFuncOpen → motive (do
      let attrib ← readTxWordLE tx 0x3C
      edfsWithPath tx txLen.toNat 0x42 fun path => edfsOpen host path attrib 0x0001))
    (create : func = edfsFuncCreate → motive (do
      let _ ← readTxWordLE tx 0x3C
      edfsWithPath tx txLen.toNat 0x42 fun path => edfsOpen host path 0x0002 0x0012))
    (spopnfil : func = edfsFuncSpopnfil → motive (do
      let _ ← readTxWordLE tx 0x3C
      let action ← readTxWordLE tx 0x3E
      let mode ← readTxWordLE tx 0x40
      edfsWithPath tx txLen.toNat 0x42 fun path => edfsOpen host path mode action))
    (other : (∀ f ∈ [edfsFuncRmdir, edfsFuncMkdir, edfsFuncChdir, edfsFuncClosefile,
        edfsFuncReadfile, edfsFuncWritefile, edfsFuncDiskspace, edfsFuncSetattr, edfsFuncGetattr,
        edfsFuncFindfirst, edfsFuncFindnext, edfsFuncRename, edfsFuncDelete, edfsFuncOpen,
        edfsFuncCreate, edfsFuncSpopnfil], func ≠ f) → motive (do
      netPanic "Unhandled EtherDFS function: 0x%02x\n"
      return some (← edfsFail edfsResultInvalidFunction))) :
    motive (edfsDispatch host tx txLen func) := by
  -- each comparison of the `switch` in turn
  have hif : ∀ {c : Prop} [Decidable c] {x y : N η (Option Word)}, (c → motive x) →
      (¬ c → motive y) → motive (if c then x else y) := by
    intro c _ x y hx hy
    split
    case isTrue h => exact hx h
    case isFalse h => exact hy h
  unfold edfsDispatch
  dsimp only
  refine hif rmdir fun hrmdir => hif mkdir fun hmkdir => hif chdir fun hchdir =>
    hif closefile fun hclosefile => hif readfile fun hreadfile => hif writefile fun hwritefile =>
    hif diskspace fun hdiskspace => hif setattr fun hsetattr => hif getattr fun hgetattr =>
    hif findfirst fun hfindfirst => hif findnext fun hfindnext => hif rename fun hrename =>
    hif delete fun hdelete => hif openfile fun hopenfile => hif create fun hcreate =>
    hif spopnfil fun hspopnfil => other ?_
  simp only [List.forall_mem_cons, List.not_mem_nil]
  exact ⟨hrmdir, hmkdir, hchdir, hclosefile, hreadfile, hwritefile, hdiskspace, hsetattr, hgetattr,
    hfindfirst, hfindnext, hrename, hdelete, hopenfile, hcreate, hspopnfil, nofun⟩

/-- "Reply frame": the header of the reply. -/
def edfsReply (tx : ℕ → Byte) : N η Unit := do
  (List.range 6).forM fun k => do
    let byte ← readTx tx (0x06 + k)
    writeRx (0x00 + k) [byte]
  (List.range 6).forM fun k => do
    let byte ← readTx tx (0x00 + k)
    writeRx (0x06 + k) [byte]
  copyTx tx 0x0C 2
  writeRx 0x34 (wordBytesLE (← getNet).rxLen)
  copyTx tx 0x38 2
  let ver ← readTx tx 0x38
  let n ← getNet
  let checksum : Word :=
    if ver.getLsbD 7 then
      bsdChecksum (fun i => n.rxFrame (0x38 + i)) (sizeT (n.rxLen.toNat - 0x38))
    else 0
  writeRx 0x36 (wordBytesLE checksum)

/-- `edfs_handle_packet`. -/
def edfsHandlePacket (tx : ℕ → Byte) (txLen : Word) : N η Unit := do
  if (← getEdfs).inited then
    let ver := (← readTx tx 0x38) &&& 0x7F
    let func ← readTx tx 0x3B
    if ver ≠ 2 then
      netPanic "Unsupported EtherDFS version: %d\n"
    else
      match ← edfsDispatch host tx txLen func with
      | none => return
      | some rxLen =>
        modifyNet fun n => { n with rxLen := rxLen }
        edfsReply tx
        modifyNet fun n => { n with rxReady := true }
        note .built

end Pc20iii
