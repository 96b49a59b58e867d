import Pc20iii.Edfs.Registry

/-!
# The files of EtherDFS

`edfs.c`: the operations on files and directories. Each puts its answer into `rx_frame`
and returns the length of the reply. Every path that is passed to the host goes through
`hostPath`, which records it.
-/

namespace Pc20iii

open StateProgram

variable {η : Type} (host : Host η)

/-! The result codes. -/

def edfsResultOk : Word := 0x00
def edfsResultInvalidFunction : Word := 0x01
def edfsResultFileNotFound : Word := 0x02
def edfsResultPathNotFound : Word := 0x03
def edfsResultAccessDenied : Word := 0x05
def edfsResultNoMoreMatch : Word := 0x12

/-- The two bytes of a word, least significant first. -/
def wordBytesLE (w : Word) : List Byte := [lowByte w, highByte w]

/-- The four bytes that are taken of a file size, least significant first. -/
def sizeBytes (size : ℤ) : List Byte :=
  let w := BitVec.ofInt 32 size
  wordBytesLE (w.extractLsb' 0 16) ++ wordBytesLE (w.extractLsb' 16 16)

/-- `edfs_set_result`. -/
def edfsSetResult (code : Word) : N η Unit := writeRx 0x3A (wordBytesLE code)

/-- An answer that is a result code only. -/
def edfsFail (code : Word) : N η Word := do
  edfsSetResult code
  return 0x3C

/-- The host path of a path below the root: `"%s/%s", edfs_root, path`. -/
def edfsRootPath (path : CString) : N η CString := do
  return joinPath (← getEdfs).root path

/-- A call of the host with a path. -/
def hostPath {α : Type} (path : CString) (f : CString → η → α × η) : N η α := do
  note (.hostPath path)
  hostCall (f path)

/-- `fopen` and `fclose` of a file that is created or truncated; the result says whether it
could be opened. -/
def edfsTouch (path : CString) : N η Bool := do
  match ← hostPath path fun p => host.fopen p .create with
  | none => return false
  | some file =>
    hostCall fun h => ((), host.fclose file h)
    return true

/-! ### Searching -/

/-- A search: what `edfs_find` has computed before its loop. -/
structure EdfsSearch where
  attrib : Byte
  pattern : CString
  cluster : Word
  targetPos : Word
  path : CString

/-- "Handling of hidden entries": what the loop skips. -/
def EdfsSearch.hides (s : EdfsSearch) (name : CString) : Bool :=
  name.head? = some dot &&
    (if name = [dot] ∨ name = [dot, dot] then s.path = [] else true)

/-- The entry matches the pattern. FINDFIRST passes a path, FINDNEXT the eleven characters
of an FCB. -/
def EdfsSearch.accepts (s : EdfsSearch) (filefcb : List Byte) : Bool :=
  edfsMatch filefcb (if s.targetPos = 0 then path83ToFilefcb s.pattern else s.pattern)

/-- The answer for an entry, without its attribute. -/
def edfsEntry (s : EdfsSearch) (filefcb : List Byte) (st : FileStat) (pos : Word) : N η Unit := do
  writeRx 0x3D filefcb
  writeRx 0x48 (wordBytesLE (timeToDosTime (host.localtime st.mtime)))
  writeRx 0x4A (wordBytesLE (timeToDosDate (host.localtime st.mtime)))
  writeRx 0x4C (sizeBytes st.size)
  writeRx 0x50 (wordBytesLE s.cluster)
  writeRx 0x52 (wordBytesLE pos)

/-- The loop of `edfs_find` over the entries of the directory. -/
def edfsFindLoop (s : EdfsSearch) : List CString → Word → N η Word
  | [], _ => edfsFail edfsResultNoMoreMatch
  | name :: rest, pos => do
    if s.hides name then
      edfsFindLoop s rest pos
    else
      match ← hostPath (joinPath (← edfsRootPath s.path) name) host.stat with
      | none => edfsFail edfsResultPathNotFound
      | some st =>
        if st.isDir = false ∧ st.isReg = false then
          -- not a file or directory
          edfsFindLoop s rest pos
        else if st.isDir ∧ s.attrib &&& 0x10 ≠ 0x10 then
          edfsFindLoop s rest (pos + 1)
        else
          writeRx 0x3C [if st.isDir then 0x10 else 0x00]
          -- all valid entries are registered
          let path := joinPath s.path name
          note (.buffer edfsPath83Max (unixpathToPath83 path).length)
          edfsClusterRegister path (unixpathToPath83 path)
          note (.buffer edfsPath83Max (unixpathToPath83 name).length)
          let filefcb := path83ToFilefcb (unixpathToPath83 name)
          if s.accepts filefcb = false then
            edfsFindLoop s rest (pos + 1)
          else
            edfsEntry host s filefcb st (pos + 1)
            if s.targetPos = 0 ∨ s.targetPos.toNat + 1 = (pos + 1).toNat then
              edfsSetResult edfsResultOk
              return 0x54
            else
              edfsFindLoop s rest (pos + 1)

/-- `edfs_find`. -/
def edfsFind (attrib : Byte) (pattern : CString) (cluster targetPos : Word) : N η Word := do
  if attrib = 0x08 then
    edfsFail edfsResultNoMoreMatch
  else
    let e ← getEdfs
    let found ← (if targetPos = 0 then edfsDirLookup pattern
      else pure ((e.clusterLookup cluster).map fun path => (cluster, path)))
    match found with
    | none => edfsFail edfsResultPathNotFound
    | some (cluster, path) =>
      match ← hostPath (← edfsRootPath path) host.opendir with
      | none => edfsFail edfsResultPathNotFound
      | some entries =>
        edfsFindLoop host
          { attrib := attrib, pattern := pattern, cluster := cluster, targetPos := targetPos
            path := path } entries 0

/-! ### Files -/

/-- The answer of `edfs_open` for a file. -/
def edfsOpened (path83 : CString) (attrib action cluster : Word) (st : FileStat) :
    N η Word := do
  writeRx 0x3C [0x00]
  writeRx 0x3D (path83ToFilefcb path83)
  writeRx 0x48 (wordBytesLE (timeToDosTime (host.localtime st.mtime)))
  writeRx 0x4A (wordBytesLE (timeToDosDate (host.localtime st.mtime)))
  writeRx 0x4C (sizeBytes st.size)
  writeRx 0x50 (wordBytesLE cluster)
  (if action &&& 0x0F = 0x01 then writeRx 0x52 [0x01]
  else if action &&& 0xF0 = 0x10 then writeRx 0x52 [0x02]
  else if action &&& 0x0F = 0x02 then writeRx 0x52 [0x03]
  else pure ())
  writeRx 0x53 [0x00]
  writeRx 0x54 [lowByte attrib &&& 0x7F]
  edfsSetResult edfsResultOk
  return 0x55

/-- The last part of `edfs_open`: the file that has been found or created. -/
def edfsOpenFile (path83 : CString) (attrib action cluster : Word) (path : CString) :
    N η Word := do
  match ← hostPath (← edfsRootPath path) host.stat with
  | none => edfsFail edfsResultPathNotFound
  | some st =>
    -- only operate on files
    if st.isReg = false then edfsFail edfsResultFileNotFound
    else edfsOpened host path83 attrib action cluster st

/-- `edfs_open`. -/
def edfsOpen (path83 : CString) (attrib action : Word) : N η Word := do
  match (← getEdfs).clusterLookup83 path83 with
  | none =>
    if action &&& 0xF0 = 0x10 then
      let path ← edfsUnixpath path83
      if ← edfsTouch host (← edfsRootPath path) then
        edfsClusterRegister path path83
        match (← getEdfs).clusterLookup83 path83 with
        | none => edfsFail edfsResultPathNotFound
        | some (cluster, path) => edfsOpenFile host path83 attrib action cluster path
      else
        edfsFail edfsResultPathNotFound
    else
      edfsFail edfsResultFileNotFound
  | some (cluster, path) =>
    if action &&& 0x0F = 0x02 then
      let unixpath ← edfsUnixpath path83
      if ← edfsTouch host (← edfsRootPath unixpath) then
        edfsOpenFile host path83 attrib action cluster path
      else
        edfsFail edfsResultPathNotFound
    else
      edfsOpenFile host path83 attrib action cluster path

/-- `edfs_read`. -/
def edfsRead (offset : BitVec 32) (cluster len : Word) : N η Word := do
  match (← getEdfs).clusterLookup cluster with
  | none => edfsFail edfsResultPathNotFound
  | some path =>
    if len.toNat > 1450 then
      netPanic "EtherDFS read length > 1450\n"
      edfsFail edfsResultPathNotFound
    else
      match ← hostPath (← edfsRootPath path) fun p => host.fopen p .read with
      | none => edfsFail edfsResultAccessDenied
      | some file =>
        let bytes ← hostCall (host.fread file offset len.toNat)
        writeRx 0x3C bytes
        hostCall fun h => ((), host.fclose file h)
        edfsSetResult edfsResultOk
        return 0x3C + BitVec.ofNat 16 bytes.length

/-- `edfs_write`. -/
def edfsWrite (offset : BitVec 32) (cluster : Word) (data : ℕ → Byte) (len : Word) :
    N η Word := do
  match (← getEdfs).clusterLookup cluster with
  | none => edfsFail edfsResultPathNotFound
  | some path =>
    let tmpPath ← edfsRootPath path
    match ← hostPath tmpPath host.stat with
    | none => edfsFail edfsResultPathNotFound
    | some st =>
      if st.size ≠ offset.toNat then
        netPanic "EtherDFS write to the middle of a file not supported!\n"
        edfsFail edfsResultAccessDenied
      else
        match ← hostPath tmpPath fun p => host.fopen p .append with
        | none => edfsFail edfsResultAccessDenied
        | some file =>
          let written ← hostCall (host.fwrite file data len.toNat)
          hostCall fun h => ((), host.fclose file h)
          writeRx 0x3C (wordBytesLE (BitVec.ofNat 16 written))
          edfsSetResult edfsResultOk
          return 0x3E

/-! ### Directories -/

/-- `edfs_rmdir` and `edfs_delete`, up to the call and the answer for an unknown path. -/
def edfsRemove (remove : CString → η → Bool × η) (unknown : Word) (path83 : CString) :
    N η Word := do
  match (← getEdfs).clusterLookup83 path83 with
  | none => edfsFail unknown
  | some (_, path) =>
    if ← hostPath (← edfsRootPath path) remove then
      edfsClusterUnregister path
      edfsFail edfsResultOk
    else
      edfsFail edfsResultAccessDenied

/-- `edfs_rmdir`. -/
def edfsRmdir (path83 : CString) : N η Word := edfsRemove host.rmdir edfsResultPathNotFound path83

/-- `edfs_delete`. -/
def edfsDelete (path83 : CString) : N η Word :=
  edfsRemove host.unlink edfsResultFileNotFound path83

/-- `edfs_mkdir`. -/
def edfsMkdir (path83 : CString) : N η Word := do
  let path ← edfsUnixpath path83
  if ← hostPath (← edfsRootPath path) host.mkdir then
    edfsClusterRegister path path83
    edfsFail edfsResultOk
  else
    edfsFail edfsResultAccessDenied

/-- `edfs_chdir`. -/
def edfsChdir (path83 : CString) : N η Word := do
  match (← getEdfs).clusterLookup83 path83 with
  | none => edfsFail edfsResultPathNotFound
  | some (_, path) =>
    match ← hostPath (← edfsRootPath path) host.stat with
    | none => edfsFail edfsResultPathNotFound
    | some st => edfsFail (if st.isDir then edfsResultOk else edfsResultPathNotFound)

/-- `edfs_rename`. -/
def edfsRename (path83Src path83Dst : CString) : N η Word := do
  match (← getEdfs).clusterLookup83 path83Src with
  | none => edfsFail edfsResultFileNotFound
  | some (_, src) =>
    let path ← edfsUnixpath path83Dst
    let tmpPathSrc ← edfsRootPath src
    note (.hostPath tmpPathSrc)
    if ← hostPath (← edfsRootPath path) (host.rename tmpPathSrc) then
      edfsClusterUnregister src
      edfsClusterRegister path path83Dst
      edfsFail edfsResultOk
    else
      edfsFail edfsResultAccessDenied

/-- `edfs_getattr`. -/
def edfsGetattr (path83 : CString) : N η Word := do
  match (← getEdfs).clusterLookup83 path83 with
  | none => edfsFail edfsResultPathNotFound
  | some (_, path) =>
    match ← hostPath (← edfsRootPath path) host.stat with
    | none => edfsFail edfsResultPathNotFound
    | some st =>
      writeRx 0x44 [if st.isDir then 0x10 else 0x00]
      writeRx 0x3C (wordBytesLE (timeToDosTime (host.localtime st.mtime)))
      writeRx 0x3E (wordBytesLE (timeToDosDate (host.localtime st.mtime)))
      writeRx 0x40 (sizeBytes st.size)
      edfsSetResult edfsResultOk
      return 0x45

end Pc20iii
