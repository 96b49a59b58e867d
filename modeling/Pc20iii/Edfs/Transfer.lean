import Pc20iii.Edfs.Header
import Pc20iii.Edfs.Offsets

/-!
# Reading and writing files

`edfs_write` opens the file anew for each request, and appends. It looks whether the offset of the
request is the size of the file, so that a guest that writes one block after the other has the file
that it means, and one that writes anywhere else is refused. `edfs_read` seeks.

The offset is put together from four bytes of the frame, and the length of the data is what the
frame has behind it. `ByteFile` says what is assumed of the host: that what is appended to the file
is in it, and that what is read of the file is what is in it. `file_of_writes` follows by induction
on the requests: the file is what the guest has written so far (`stores_write`).
-/

namespace Pc20iii

open StateProgram

variable {η : Type} {host : Host η}

/-! ### The file -/

/-- A regular file at a path of the host: what is in it if it exists, and which files are open for
it. It can be examined and opened, read from any offset, and appended to. -/
structure ByteFile (host : Host η) (path : CString) where
  contents : η → Option (List Byte)
  opened : FileMode → η → ℕ → Prop
  stat : ∀ {h bytes}, contents h = some bytes →
    ∃ st, (host.stat path h).1 = some st ∧ st.isReg = true ∧ st.size = bytes.length
  contents_stat : ∀ h, contents (host.stat path h).2 = contents h
  fopen : ∀ {mode h}, mode ≠ .create → (contents h).isSome →
    ∃ file, (host.fopen path mode h).1 = some file ∧ opened mode (host.fopen path mode h).2 file
  contents_fopen : ∀ {mode h}, mode ≠ .create → (contents h).isSome →
    contents (host.fopen path mode h).2 = contents h
  fread : ∀ {h file bytes}, opened .read h file → contents h = some bytes →
    ∀ offset len, (host.fread file offset len h).1 = (bytes.drop offset.toNat).take len
  contents_fread : ∀ {h file}, opened .read h file → ∀ offset len,
    contents (host.fread file offset len h).2 = contents h
  fwrite : ∀ {h file bytes}, opened .append h file → contents h = some bytes → ∀ data len,
    contents (host.fwrite file data len h).2 = some (bytes ++ (List.range len).map data)
  contents_fclose : ∀ file h, contents (host.fclose file h) = contents h

/-- EtherDFS knows the file as a cluster, and it has these bytes. -/
structure Lan.Stores {root path : CString} (file : ByteFile host (joinPath root path))
    (cluster : Word) (bytes : List Byte) (l : Lan η) : Prop extends l.Maps root path cluster where
  contents : file.contents l.host = some bytes

/-! ### Requests -/

/-- Four bytes of a frame, least significant first. -/
def txLongLE (tx : ℕ → Byte) (i : ℕ) : BitVec 32 := txWordLE tx (i + 2) ++ txWordLE tx i

/-- A request for a cluster: READFILE or WRITEFILE. -/
structure FileRequest (func : Byte) (cluster : Word) where
  tx : ℕ → Byte
  txLen : Word
  isRequest : IsRequest tx
  func_eq : tx 0x3B = func
  cluster_eq : txWordLE tx 0x40 = cluster

namespace FileRequest

variable {func : Byte} {cluster : Word} (r : FileRequest func cluster)

/-- The guest transmits the request. -/
def step : LanStep := .transmit r.tx r.txLen

/-- The offset in the file. -/
def offset : ℕ := (txLongLE r.tx 0x3C).toNat

/-- How much READFILE asks for. -/
def size : ℕ := (txWordLE r.tx 0x42).toNat

/-- The data of WRITEFILE. -/
def payload : List Byte := frameBytes r.tx 0x42 (r.txLen.toNat - 0x42)

/-- The frame has room for the arguments of WRITEFILE, and fits the card. -/
structure Fits : Prop where
  le_txLen : 0x42 ≤ r.txLen.toNat
  txLen_le : r.txLen.toNat ≤ netMtu

end FileRequest

/-- Each request writes behind what has been written so far. -/
def Appends {cluster : Word} : ℕ → List (FileRequest edfsFuncWritefile cluster) → Prop
  | _, [] => True
  | total, r :: rs => r.Fits ∧ r.offset = total ∧ Appends (total + r.payload.length) rs

/-- The reply of READFILE with `len` bytes of a file from an offset on, or what there is of them. -/
structure ReadReply (bytes : List Byte) (offset len : ℕ) (n : Net) : Prop where
  result : edfsResult n.rxFrame = edfsResultOk
  rxLen : n.rxLen.toNat = 0x3C + min len (bytes.length - offset)
  data : frameBytes n.rxFrame 0x3C (min len (bytes.length - offset)) =
    (bytes.drop offset).take len

/-! ### The functions -/

section Functions

variable {root path : CString} {file : ByteFile host (joinPath root path)} {e : Edfs} {h : η}
  {cluster : Word} {bytes : List Byte}

theorem triple_in_hostCall {α : Type} (f : η → α × η) :
    Triple (Lan.In e h) (hostCall f) fun a l => a = (f h).1 ∧ l.In e (f h).2 :=
  fun _ hl => ⟨hl.host ▸ rfl, hl.edfs, hl.host ▸ rfl⟩

theorem triple_in_readTxLongLE (tx : ℕ → Byte) (i : ℕ) :
    Triple (Lan.In e h) (readTxLongLE tx i : N η (BitVec 32)) fun long l =>
      long = txLongLE tx i ∧ l.In e h :=
  fun _ hl => ⟨rfl, hl.edfs, hl.host⟩

/-- What `edfs_write` leaves: the result, and the contents of the file. -/
structure Wrote (file : ByteFile host (joinPath root path)) (e : Edfs) (ok : Prop)
    (bytes : List Byte) (l : Lan η) : Prop where
  edfs : l.edfs = e
  result : edfsResult l.net.rxFrame = edfsResultOk ↔ ok
  contents : file.contents l.host = some bytes

theorem triple_wrote_fail {code : Word} (hcode : code ≠ edfsResultOk)
    (hbytes : file.contents h = some bytes) :
    Triple (Lan.In e h) (edfsFail code : N η Word) fun _ => Wrote file e False bytes := by
  intro l hl
  have hresult : edfsResult (outcome (edfsFail code) l).2.net.rxFrame = code :=
    txWordLE_of_frameBytes (frameBytes_setBytes l.net 0x3A rfl)
  refine ⟨hl.edfs, ?_, ?_⟩
  · rw [hresult]
    exact iff_of_false hcode id
  · rw [← hbytes, ← hl.host]
    rfl

/-- `edfs_write` appends to the file if the offset is its size, and leaves it alone if not. -/
theorem triple_wrote_edfsWrite (hmaps : e.Maps root path cluster)
    (hbytes : file.contents h = some bytes) (offset : BitVec 32) (data : ℕ → Byte) (len : Word) :
    Triple (Lan.In e h) (edfsWrite host offset cluster data len) fun _ =>
      Wrote file e (offset.toNat = bytes.length)
        (if offset.toNat = bytes.length then bytes ++ (List.range len.toNat).map data
        else bytes) := by
  unfold edfsWrite
  refine triple_in_getEdfs ?_
  rw [hmaps.lookup]
  dsimp only
  refine (triple_in_rootPath path).bind fun tmpPath => .of_and fun htmpPath => ?_
  rw [htmpPath, hmaps.root]
  -- `stat` is called before the offset is compared, and changes nothing that the file holds
  refine (triple_in_hostPath _ host.stat).bind fun found => .of_and fun hfound => ?_
  obtain ⟨st, hstat, -, hsize⟩ := file.stat hbytes
  rw [hfound, hstat]
  dsimp only
  have hbytes₁ : file.contents (host.stat (joinPath root path) h).2 = some bytes := by
    rw [file.contents_stat, hbytes]
  refine .ite (fun hoffset => ?_) fun hoffset => ?_
  · -- the size is not the offset
    have hne : ¬ offset.toNat = bytes.length := fun heq => hoffset (by rw [hsize, heq])
    rw [if_neg hne]
    refine (triple_in_of fun _ => ⟨rfl, rfl⟩).bind fun _ => ?_
    refine (triple_wrote_fail (by decide) hbytes₁).post fun _ l hl => ⟨hl.edfs, ?_, hl.contents⟩
    exact hl.result.trans (iff_of_false id hne)
  · have heq : offset.toNat = bytes.length := by
      rw [hsize] at hoffset
      exact_mod_cast (not_not.mp hoffset).symm
    rw [if_pos heq]
    -- the file is opened for appending, so the bytes land behind those it has
    have hexists := Option.isSome_of_eq_some hbytes₁
    have hmode : FileMode.append ≠ .create := nofun
    obtain ⟨fd, hfd, hopened⟩ := file.fopen hmode hexists
    refine (triple_in_hostPath _ _).bind fun opened => .of_and fun hopen => ?_
    rw [hopen, hfd]
    dsimp only
    have hbytes₂ := (file.contents_fopen hmode hexists).trans hbytes₁
    refine (triple_in_hostCall _).bind fun written => .of_and fun _ => ?_
    refine (triple_in_hostCall _).bind fun _ => .of_and fun _ => ?_
    intro l hl
    refine ⟨hl.edfs, iff_of_true ?_ heq, ?_⟩
    · exact txWordLE_of_frameBytes (frameBytes_setBytes _ 0x3A rfl)
    · -- `fclose` is the last call, and the bytes are those that `fwrite` left
      change file.contents l.host = _
      rw [hl.host, file.contents_fclose, file.fwrite hopened hbytes₂]

/-- What `edfs_read` leaves: the bytes that are in the file, and the file as it is. -/
structure Read (file : ByteFile host (joinPath root path)) (bytes : List Byte) (offset len : ℕ)
    (rxLen : Word) (l : Lan η) : Prop
    extends ReadReply bytes offset len { l.net with rxLen := rxLen } where
  contents : file.contents l.host = some bytes

/-- `edfs_read` reads from the offset on. -/
theorem triple_read_edfsRead (hmaps : e.Maps root path cluster)
    (hbytes : file.contents h = some bytes) (offset : BitVec 32) {len : Word}
    (hlen : len.toNat ≤ 1450) :
    Triple (Lan.In e h) (edfsRead host offset cluster len)
      (Read file bytes offset.toNat len.toNat) := by
  unfold edfsRead
  refine triple_in_getEdfs ?_
  rw [hmaps.lookup]
  dsimp only
  rw [if_neg (Nat.not_lt.mpr hlen)]
  refine (triple_in_rootPath path).bind fun tmpPath => .of_and fun htmpPath => ?_
  rw [htmpPath, hmaps.root]
  -- opening for reading keeps what the file holds
  have hexists := Option.isSome_of_eq_some hbytes
  have hmode : FileMode.read ≠ .create := nofun
  obtain ⟨fd, hfd, hopened⟩ := file.fopen hmode hexists
  refine (triple_in_hostPath _ _).bind fun opened => .of_and fun hopen => ?_
  rw [hopen, hfd]
  dsimp only
  have hbytes₁ := (file.contents_fopen hmode hexists).trans hbytes
  refine (triple_in_hostCall _).bind fun read => .of_and fun hread => ?_
  rw [file.fread hopened hbytes₁] at hread
  -- `fread` stops at the end of the file, so the count can be less than `len`
  have hlength : read.length = min len.toNat (bytes.length - offset.toNat) := by
    rw [hread, List.length_take, List.length_drop]
  intro l hl
  refine ⟨⟨?_, ?_, ?_⟩, ?_⟩
  · exact txWordLE_of_frameBytes (frameBytes_setBytes _ 0x3A rfl)
  · change (0x3C + BitVec.ofNat 16 read.length).toNat = _
    -- the guard on `len` keeps the sum from wrapping
    have hmin : read.length ≤ 1450 := by omega
    rw [← hlength, BitVec.toNat_add, BitVec.toNat_ofNat]
    change (60 + read.length % 65536) % 65536 = 60 + read.length
    omega
  · -- the result is in front of the data
    rw [← hlength, ← hread]
    exact (frameBytes_setBytes_of_not _ (.inr (by decide))).trans (frameBytes_setBytes _ _ rfl)
  · change file.contents (host.fclose fd l.host) = _
    rw [file.contents_fclose, hl.host, file.contents_fread hopened, hbytes₁]

end Functions

/-! ### Runs -/

section Runs

variable {root path : CString} {file : ByteFile host (joinPath root path)} {cluster : Word}
  {bytes : List Byte} {l : Lan η}

theorem edfsDispatch_read (tx : ℕ → Byte) (txLen : Word) :
    edfsDispatch host tx txLen edfsFuncReadfile = (do
      let offset ← readTxLongLE tx 0x3C
      let cluster ← readTxWordLE tx 0x40
      let size ← readTxWordLE tx 0x42
      return some (← edfsRead host offset cluster size)) := by
  rfl

/-- READFILE is answered with what is in the file. -/
theorem readReply_read (hl : l.Stores file cluster bytes)
    (r : FileRequest edfsFuncReadfile cluster) (hsize : r.size ≤ 1450) :
    ReadReply bytes r.offset r.size (lanAfter host l r.step).net := by
  -- the arguments of the function are those of the request
  have hdispatch : Triple (Lan.In l.edfs l.host) (edfsDispatch host r.tx r.txLen (r.tx 0x3B))
      fun reply l => ∃ rxLen, reply = some rxLen ∧ Read file bytes r.offset r.size rxLen l := by
    rw [r.func_eq, edfsDispatch_read]
    refine (triple_in_readTxLongLE r.tx 0x3C).bind fun offset => .of_and fun hoffset => ?_
    refine (triple_in_readTxWordLE r.tx 0x40).bind fun c => .of_and fun hc => ?_
    refine (triple_in_readTxWordLE r.tx 0x42).bind fun size => .of_and fun hlen => ?_
    rw [hoffset, hc, hlen, r.cluster_eq]
    refine (triple_read_edfsRead hl.toMaps hl.contents _ hsize).bind fun rxLen => ?_
    exact .ret fun l' hread => ⟨rxLen, rfl, hread⟩
  -- the header that is filled in afterwards leaves them alone
  obtain ⟨rxLen, l', hread, hcompletes⟩ :=
    triple_in_request host hl.inited r.isRequest hdispatch l ⟨rfl, rfl⟩
  refine ⟨?_, ?_, ?_⟩
  · exact hcompletes.edfsResult_eq.trans hread.result
  · exact (congrArg BitVec.toNat hcompletes.rxLen_eq).trans hread.rxLen
  · exact (hcompletes.frameBytes_eq (by decide) _).trans hread.data

/-- WRITEFILE appends its data if its offset is the size of the file, and is refused if not. -/
theorem wrote_write (hl : l.Stores file cluster bytes)
    (r : FileRequest edfsFuncWritefile cluster) :
    Wrote file l.edfs (r.offset = bytes.length)
      (if r.offset = bytes.length then
        bytes ++ (List.range (edfsWriteLen r.txLen).toNat).map fun k => r.tx (0x42 + k)
      else bytes) (lanAfter host l r.step) := by
  -- the arguments of the function are those of the request
  have hdispatch : Triple (Lan.In l.edfs l.host) (edfsDispatch host r.tx r.txLen (r.tx 0x3B))
      fun reply l' => ∃ rxLen, reply = some rxLen ∧
        Wrote file l.edfs (r.offset = bytes.length)
          (if r.offset = bytes.length then
            bytes ++ (List.range (edfsWriteLen r.txLen).toNat).map fun k => r.tx (0x42 + k)
          else bytes) l' := by
    rw [r.func_eq, edfsDispatch_write]
    refine (triple_in_readTxLongLE r.tx 0x3C).bind fun offset => .of_and fun hoffset => ?_
    refine (triple_in_readTxWordLE r.tx 0x40).bind fun c => .of_and fun hc => ?_
    rw [hoffset, hc, r.cluster_eq]
    refine (triple_wrote_edfsWrite hl.toMaps hl.contents _ _ _).bind fun rxLen => ?_
    exact .ret fun l' hwrote => ⟨rxLen, rfl, hwrote⟩
  -- the header of the reply touches neither the file nor the result
  obtain ⟨rxLen, l', hwrote, hcompletes⟩ :=
    triple_in_request host hl.inited r.isRequest hdispatch l ⟨rfl, rfl⟩
  refine ⟨hcompletes.edfs.trans hwrote.edfs, ?_, ?_⟩
  · exact (iff_of_eq (congrArg (· = edfsResultOk) hcompletes.edfsResult_eq)).trans hwrote.result
  · exact (congrArg file.contents hcompletes.host).trans hwrote.contents

/-- A request that writes behind the end of the file appends its data. -/
theorem stores_write (hl : l.Stores file cluster bytes)
    {r : FileRequest edfsFuncWritefile cluster} (hfits : r.Fits)
    (hoffset : r.offset = bytes.length) :
    (lanAfter host l r.step).Stores file cluster (bytes ++ r.payload) := by
  have hwrote := wrote_write hl r
  have hlen : (edfsWriteLen r.txLen).toNat = r.txLen.toNat - 0x42 := by
    have hle := hfits.le_txLen
    rw [edfsWriteLen]
    bv_omega
  rw [if_pos hoffset, hlen] at hwrote
  exact ⟨Lan.Maps.of_edfs hl.toMaps hwrote.edfs, hwrote.contents⟩

/-- **The run lemma.** What a sequence of requests writes, one behind the other, is in the file. -/
theorem stores_writes (hl : l.Stores file cluster bytes)
    {rs : List (FileRequest edfsFuncWritefile cluster)} (hrs : Appends bytes.length rs) :
    (runAll (lanAfter host) l (rs.map FileRequest.step)).Stores file cluster
      (bytes ++ rs.flatMap FileRequest.payload) := by
  induction rs generalizing l bytes with
  | nil =>
    rw [List.flatMap_nil, List.append_nil]
    exact hl
  | cons r rs ih =>
    obtain ⟨hfits, hoffset, hrest⟩ := hrs
    rw [← List.length_append] at hrest
    rw [List.map_cons, runAll_cons, List.flatMap_cons, ← List.append_assoc]
    exact ih (stores_write hl hfits hoffset) hrest

/-- **Reading and writing files.** A file that starts empty has what the guest has written, one
block after the other; READFILE gives what is there of the range that it asks for, and WRITEFILE
anywhere else is refused and changes nothing. -/
theorem file_of_writes (hl : l.Stores file cluster [])
    {writes : List (FileRequest edfsFuncWritefile cluster)} (hwrites : Appends 0 writes) :
    let l' := runAll (lanAfter host) l (writes.map FileRequest.step)
    let written := writes.flatMap FileRequest.payload
    file.contents l'.host = some written ∧
      (∀ read : FileRequest edfsFuncReadfile cluster, read.size ≤ 1450 →
        ReadReply written read.offset read.size (lanAfter host l' read.step).net) ∧
      ∀ write : FileRequest edfsFuncWritefile cluster, write.offset ≠ written.length →
        edfsResult (lanAfter host l' write.step).net.rxFrame ≠ edfsResultOk ∧
          file.contents (lanAfter host l' write.step).host = some written := by
  intro l' written
  -- the invariant of the writes, of which the rest is read off
  have hstores : l'.Stores file cluster written := stores_writes hl hwrites
  refine ⟨hstores.contents, fun read hsize => readReply_read hstores read hsize, ?_⟩
  intro write hoffset
  have hwrote := wrote_write hstores write
  rw [if_neg hoffset] at hwrote
  exact ⟨fun hok => hoffset (hwrote.result.mp hok), hwrote.contents⟩

/-- A disk: the files by their paths, and the one that is open. -/
structure Disk where
  files : CString → Option (List Byte)
  current : CString

/-- A host with a disk. It opens one file at a time. -/
def diskHost : Host Disk where
  errno _ := 0
  stack _ _ := 0
  socket _ h := (none, h)
  connect _ _ _ h := (false, h)
  fcntl _ h := (-1, h)
  send _ _ _ h := (none, h)
  sendto _ _ _ _ _ h := (none, h)
  recv _ _ h := (none, h)
  recvfrom _ _ h := (none, h)
  close _ h := h
  opendir _ h := (none, h)
  stat path h :=
    ((h.files path).map fun bytes =>
      { isDir := false, isReg := true, mtime := 0, size := bytes.length }, h)
  fopen path mode h :=
    match mode with
    | .read => ((h.files path).map fun _ => 3, { h with current := path })
    | .append =>
      (some 3, ⟨Function.update h.files path (some ((h.files path).getD [])), path⟩)
    | .create => (some 3, ⟨Function.update h.files path (some []), path⟩)
  fread _ offset len h := ((((h.files h.current).getD []).drop offset.toNat).take len, h)
  fwrite _ data len h :=
    let bytes := (h.files h.current).getD [] ++ (List.range len).map data
    (len, { h with files := Function.update h.files h.current (some bytes) })
  fclose _ h := h
  mkdir _ h := (false, h)
  rmdir _ h := (false, h)
  unlink _ h := (false, h)
  rename _ _ h := (false, h)
  localtime _ := { sec := 0, min := 0, hour := 0, mday := 1, mon := 0, year := 80 }
  send_le := nofun
  sendto_le := nofun
  recv_le := nofun
  recvfrom_le := nofun
  fread_le _ _ _ _ := List.length_take_le _ _
  fwrite_le _ _ _ _ := Nat.le_refl _

/-- A file of the disk. -/
def diskFile (path : CString) : ByteFile diskHost path where
  contents h := h.files path
  opened _ h _ := h.current = path
  stat h := ⟨_, congrArg (Option.map _) h, rfl, rfl⟩
  contents_stat _ := rfl
  fopen {mode h} hmode hsome := by
    obtain ⟨bytes, hbytes⟩ := Option.isSome_iff_exists.mp hsome
    cases mode with
    | read => exact ⟨3, congrArg (Option.map _) hbytes, rfl⟩
    | append => exact ⟨3, rfl, rfl⟩
    | create => exact absurd rfl hmode
  contents_fopen {mode h} hmode hsome := by
    obtain ⟨bytes, hbytes⟩ := Option.isSome_iff_exists.mp hsome
    cases mode with
    | read => rfl
    | append =>
      change Function.update h.files path _ path = _
      rw [Function.update_self, hbytes, Option.getD_some]
    | create => exact absurd rfl hmode
  fread {h file bytes} hopened hbytes offset len := by
    change (((h.files h.current).getD []).drop offset.toNat).take len = _
    rw [hopened, hbytes, Option.getD_some]
  contents_fread _ _ _ := rfl
  fwrite {h file bytes} hopened hbytes data len := by
    change Function.update h.files h.current _ path = _
    rw [hopened, hbytes, Function.update_self, Option.getD_some]
  contents_fclose _ _ := rfl

/-- WRITEFILE to the cluster 1, at an offset below 256. -/
def smallWrite (offset : Byte) (data : List Byte) : FileRequest edfsFuncWritefile 1 where
  tx := edfsFrame edfsFuncWritefile ([offset, 0, 0, 0, 1, 0] ++ data)
  txLen := BitVec.ofNat 16 (0x42 + data.length)
  isRequest := isRequest_edfsFrame _ _
  func_eq := edfsFrame_func _ _
  cluster_eq := by
    have hlo := edfsFrame_argument edfsFuncWritefile ([offset, 0, 0, 0, 1, 0] ++ data) 4
    have hhi := edfsFrame_argument edfsFuncWritefile ([offset, 0, 0, 0, 1, 0] ++ data) 5
    exact (congrArg₂ wordOf hlo hhi).trans (show wordOf 1 0 = 1 by decide)

/-- The file `/A` is empty and known as the cluster 1. -/
def emptyFile : Lan Disk :=
  lanInit ((edfsInit []).register [slash, 0x41] [backslash, 0x41])
    { files := fun _ => some [], current := [] }

theorem stores_emptyFile :
    @Lan.Stores _ _ [] [slash, 0x41] (diskFile [slash, slash, 0x41]) 1 [] emptyFile where
  inited := rfl
  root := rfl
  lookup := by decide
  contents := rfl

theorem appends_smallWrites : Appends 0 [smallWrite 0 [0x78], smallWrite 1 [0x79, 0x7A]] :=
  ⟨⟨by decide, by decide⟩, by decide, ⟨by decide, by decide⟩, by decide, trivial⟩

/-- `x` and then `yz` are written. -/
theorem file_of_smallWrites :
    let writes := [smallWrite 0 [0x78], smallWrite 1 [0x79, 0x7A]]
    let l' := runAll (lanAfter diskHost) emptyFile (writes.map FileRequest.step)
    (diskFile [slash, slash, 0x41]).contents l'.host = some [0x78, 0x79, 0x7A] ∧
      (∀ read : FileRequest edfsFuncReadfile 1, read.size ≤ 1450 →
        ReadReply [0x78, 0x79, 0x7A] read.offset read.size
          (lanAfter diskHost l' read.step).net) ∧
      ∀ write : FileRequest edfsFuncWritefile 1, write.offset ≠ 3 →
        edfsResult (lanAfter diskHost l' write.step).net.rxFrame ≠ edfsResultOk ∧
          (diskFile [slash, slash, 0x41]).contents (lanAfter diskHost l' write.step).host =
            some [0x78, 0x79, 0x7A] :=
  file_of_writes stores_emptyFile appends_smallWrites

end Runs

end Pc20iii
