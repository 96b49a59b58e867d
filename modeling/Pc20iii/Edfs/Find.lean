import Pc20iii.Edfs.Clusters
import Pc20iii.Edfs.Traversal

/-!
# Searching a directory

What `edfs_find` answers, for a directory of the host with a fixed list of entries.

* `EdfsSearch.positions`: the entries that a search is to find, each with its position among
  the visible entries of the directory.
* `edfsFound`: the answer that a guest reads out of a frame.
* `triple_answered_edfsFind`: FINDFIRST answers with the first of the entries, FINDNEXT with the
  one whose position is the next one, and both with NO_MORE_MATCH if there is none. Registering
  the entries on the way leaves the cluster of the directory alone.
-/

namespace Pc20iii

open StateProgram

variable {η : Type} (host : Host η)

/-! ### Directories and answers -/

/-- A directory of the host: what `readdir` gives, and `stat` for each name. -/
structure HostDirectory where
  entries : List CString
  stat : CString → FileStat

/-- The directory is what the host has at a path, whatever its state. -/
structure Host.Has (host : Host η) (path : CString) (d : HostDirectory) : Prop where
  opendir : ∀ h, (host.opendir path h).1 = some d.entries
  stat : ∀ name ∈ d.entries, ∀ h, (host.stat (joinPath path name) h).1 = some (d.stat name)

/-- The answer of `edfs_find` in `rx_frame`. -/
structure EdfsFound where
  attrib : Byte
  filefcb : List Byte
  time : Word
  date : Word
  size : List Byte
  cluster : Word
  pos : Word
deriving DecidableEq, Repr

/-- The bytes of a frame from `start` on. -/
def frameBytes (frame : ℕ → Byte) (start len : ℕ) : List Byte :=
  (List.range len).map fun k => frame (start + k)

/-- The answer that a guest finds in a frame. -/
def edfsFound (frame : ℕ → Byte) : EdfsFound where
  attrib := frame 0x3C
  filefcb := frameBytes frame 0x3D 11
  time := txWordLE frame 0x48
  date := txWordLE frame 0x4A
  size := frameBytes frame 0x4C 4
  cluster := txWordLE frame 0x50
  pos := txWordLE frame 0x52

/-- The result code in a frame. -/
def edfsResult (frame : ℕ → Byte) : Word := txWordLE frame 0x3A

namespace EdfsSearch

variable (s : EdfsSearch) (d : HostDirectory)

/-- The entry is a visible file or directory. -/
def isVisible (name : CString) : Bool :=
  !s.hides name && ((d.stat name).isDir || (d.stat name).isReg)

/-- The entry is visible, the attribute admits it, and it matches the pattern. -/
def isFound (name : CString) : Bool :=
  s.isVisible d name && (!(d.stat name).isDir || s.attrib &&& 0x10 == 0x10) &&
    s.accepts (path83ToFilefcb (unixpathToPath83 name))

/-- The entries to be found among the given ones, with their positions among the visible
ones, which are counted from `i + 1` on. -/
def positions (entries : List CString) (i : ℕ) : List (CString × Word) :=
  (((entries.filter (s.isVisible d)).zipIdx (i + 1)).filter fun a => s.isFound d a.1).map
    fun a => (a.1, BitVec.ofNat 16 a.2)

/-- The answer for an entry at a position. -/
def answer (a : CString × Word) : EdfsFound where
  attrib := if (d.stat a.1).isDir then 0x10 else 0x00
  filefcb := path83ToFilefcb (unixpathToPath83 a.1)
  time := timeToDosTime (host.localtime (d.stat a.1).mtime)
  date := timeToDosDate (host.localtime (d.stat a.1).mtime)
  size := sizeBytes (d.stat a.1).size
  cluster := s.cluster
  pos := a.2

/-- The position is the one that the search is for. -/
def isTarget (pos : Word) : Bool := s.targetPos = 0 ∨ s.targetPos.toNat + 1 = pos.toNat

/-- FINDNEXT behind a position. -/
def next (pos : Word) : EdfsSearch :=
  { s with pattern := path83ToFilefcb s.pattern, targetPos := pos }

variable {s d}

theorem positions_cons_of_not_visible {name : CString} (h : s.isVisible d name = false)
    (entries : List CString) (i : ℕ) :
    s.positions d (name :: entries) i = s.positions d entries i := by
  rw [positions, List.filter_cons_of_neg (by rw [h]; exact Bool.false_ne_true)]
  rfl

theorem positions_cons_of_not_found {name : CString} (hvisible : s.isVisible d name = true)
    (h : s.isFound d name = false) (entries : List CString) (i : ℕ) :
    s.positions d (name :: entries) i = s.positions d entries (i + 1) := by
  rw [positions, List.filter_cons_of_pos hvisible, List.zipIdx_cons,
    List.filter_cons_of_neg (by rw [h]; exact Bool.false_ne_true)]
  rfl

theorem positions_cons_of_found {name : CString} (h : s.isFound d name = true)
    (entries : List CString) (i : ℕ) :
    s.positions d (name :: entries) i =
      (name, BitVec.ofNat 16 (i + 1)) :: s.positions d entries (i + 1) := by
  have hvisible : s.isVisible d name = true := by
    rw [isFound, Bool.and_eq_true, Bool.and_eq_true] at h
    exact h.1.1
  rw [positions, List.filter_cons_of_pos hvisible, List.zipIdx_cons,
    List.filter_cons_of_pos (p := fun a : CString × ℕ => s.isFound d a.1) h]
  rfl

/-- The positions are those of the entries to be found, each once and in the order of the
directory. -/
theorem map_fst_positions (entries : List CString) (i : ℕ) :
    (s.positions d entries i).map Prod.fst = entries.filter (s.isFound d) := by
  induction entries generalizing i with
  | nil => rfl
  | cons name rest ih =>
    by_cases hfound : s.isFound d name = true
    · rw [positions_cons_of_found hfound, List.map_cons, ih, List.filter_cons_of_pos hfound]
    · rw [List.filter_cons_of_neg hfound]
      have hfound := Bool.eq_false_iff.mpr hfound
      by_cases hvisible : s.isVisible d name = true
      · rw [positions_cons_of_not_found hvisible hfound, ih]
      · rw [positions_cons_of_not_visible (Bool.eq_false_iff.mpr hvisible), ih]

theorem isFound_next (pos : Word) (h : s.targetPos = 0) (hpos : pos ≠ 0) (name : CString) :
    (s.next pos).isFound d name = s.isFound d name := by
  have haccepts : (s.next pos).accepts = s.accepts := by
    have hnext : (s.next pos).targetPos ≠ 0 := hpos
    funext filefcb
    rw [accepts, accepts, if_neg hnext, if_pos h]
    rfl
  rw [isFound, isFound, haccepts]
  rfl

theorem positions_next (pos : Word) (h : s.targetPos = 0) (hpos : pos ≠ 0)
    (entries : List CString) (i : ℕ) :
    (s.next pos).positions d entries i = s.positions d entries i := by
  have hfound := funext (isFound_next (d := d) pos h hpos)
  rw [positions, hfound]
  rfl

end EdfsSearch

/-! ### Fields of a frame -/

section Fields

variable {start len : ℕ} {bytes : List Byte}

theorem frameBytes_setBytes (n : Net) (start : ℕ) (hlen : bytes.length = len) :
    frameBytes (n.setBytes start bytes).rxFrame start len = bytes := by
  subst hlen
  refine List.ext_getElem (by rw [frameBytes, List.length_map, List.length_range]) ?_
  intro k _ hk
  have hget : bytes.getD k 0 = bytes[k] := by
    rw [List.getD_eq_getElem?_getD, List.getElem?_eq_getElem hk, Option.getD_some]
  simp only [frameBytes, List.getElem_map, List.getElem_range]
  refine (if_pos ⟨Nat.le_add_right .., Nat.add_lt_add_left hk _⟩).trans ?_
  rw [Nat.add_sub_cancel_left, hget]

/-- A write beside a field leaves it alone. -/
theorem frameBytes_setBytes_of_not {at' : ℕ} (n : Net)
    (h : start + len ≤ at' ∨ at' + bytes.length ≤ start) :
    frameBytes (n.setBytes at' bytes).rxFrame start len = frameBytes n.rxFrame start len := by
  refine List.map_congr_left fun k hk => if_neg ?_
  have hlt := List.mem_range.mp hk
  omega

/-- Two writes do not overlap. -/
def Apart (a b : ℕ × List Byte) : Prop := a.1 + a.2.length ≤ b.1 ∨ b.1 + b.2.length ≤ a.1

/-- Writes to `rx_frame`, one after the other. -/
def Net.setFields (writes : List (ℕ × List Byte)) (n : Net) : Net :=
  writes.foldl (fun n write => n.setBytes write.1 write.2) n

theorem frameBytes_setFields_of_not {writes : List (ℕ × List Byte)} (field : ℕ × List Byte)
    (h : ∀ write ∈ writes, Apart field write) (n : Net) :
    frameBytes (n.setFields writes).rxFrame field.1 field.2.length =
      frameBytes n.rxFrame field.1 field.2.length := by
  induction writes generalizing n with
  | nil => rfl
  | cons write rest ih =>
    obtain ⟨hwrite, hrest⟩ := List.forall_mem_cons.mp h
    exact (ih hrest _).trans (frameBytes_setBytes_of_not n hwrite)

/-- Writes that do not overlap are all found in the frame. -/
theorem frameBytes_setFields {writes : List (ℕ × List Byte)} (h : writes.Pairwise Apart)
    {field : ℕ × List Byte} (hfield : field ∈ writes) (n : Net) :
    frameBytes (n.setFields writes).rxFrame field.1 field.2.length = field.2 := by
  induction writes generalizing n with
  | nil => cases hfield
  | cons write rest ih =>
    obtain ⟨hwrite, hrest⟩ := List.pairwise_cons.mp h
    rcases List.mem_cons.mp hfield with rfl | hfield
    · exact (frameBytes_setFields_of_not field hwrite _).trans (frameBytes_setBytes n _ rfl)
    · exact ih hrest hfield _

@[simp] theorem length_wordBytesLE (w : Word) : (wordBytesLE w).length = 2 := rfl

@[simp] theorem length_sizeBytes (size : ℤ) : (sizeBytes size).length = 4 := rfl

theorem txWordLE_of_frameBytes {frame : ℕ → Byte} {w : Word}
    (h : frameBytes frame start 2 = wordBytesLE w) : txWordLE frame start = w := by
  obtain ⟨hlo, hrest⟩ := List.cons.inj h
  obtain ⟨hhi, -⟩ := List.cons.inj hrest
  have hlo' : frame start = lowByte w := hlo
  have hhi' : frame (start + 1) = highByte w := hhi
  rw [txWordLE, hlo', hhi', wordOf_lowByte_highByte]

theorem length_path83ToFilefcbLoop (path83 : CString) (n : ℕ) (inExt : Bool) (out : List Byte) :
    (path83ToFilefcbLoop path83 n inExt out).length = out.length := by
  fun_induction path83ToFilefcbLoop path83 n inExt out with
  | case1 n inExt out => rfl
  | case2 n inExt out c rest _ ih => exact ih
  | case3 n inExt out c rest _ _ => rw [List.length_set]
  | case4 n inExt out c rest _ _ ih => rw [ih, List.length_set]

theorem length_path83ToFilefcb (path83 : CString) : (path83ToFilefcb path83).length = 11 := by
  unfold path83ToFilefcb
  dsimp only
  split
  · rfl
  · split
    · rfl
    · rw [length_path83ToFilefcbLoop, List.length_replicate]

/-- The characters of the result are those of the path, and what was there before. -/
theorem mem_path83ToFilefcbLoop {c : Byte} {path83 : CString} {n : ℕ} {inExt : Bool}
    {out : List Byte} (h : c ∈ path83ToFilefcbLoop path83 n inExt out) : c ∈ path83 ∨ c ∈ out := by
  fun_induction path83ToFilefcbLoop path83 n inExt out with
  | case1 n inExt out => exact .inr h
  | case2 n inExt out b rest _ ih => exact (ih h).imp_left (List.mem_cons_of_mem _)
  | case3 n inExt out b rest _ _ =>
    rcases List.mem_or_eq_of_mem_set h with h | rfl
    · exact .inr h
    · exact .inl (List.mem_cons_self ..)
  | case4 n inExt out b rest _ _ ih =>
    -- what is written behind is of the path, or overwrites a blank
    rcases ih h with h | h
    · exact .inl (List.mem_cons_of_mem _ h)
    · rcases List.mem_or_eq_of_mem_set h with h | rfl
      · exact .inr h
      · exact .inl (List.mem_cons_self ..)

/-- The pattern of a FINDNEXT has no NUL if the path has none. -/
theorem not_mem_path83ToFilefcb {path83 : CString} (h : (0 : Byte) ∉ path83) :
    (0 : Byte) ∉ path83ToFilefcb path83 := by
  unfold path83ToFilefcb
  dsimp only
  split
  · decide
  · split
    · decide
    · intro hmem
      rcases mem_path83ToFilefcbLoop hmem with hmem | hmem
      · exact h ((List.rtakeWhile_suffix _ _).subset hmem)
      · exact absurd hmem (by decide)

end Fields

/-! ### The loop -/

/-- EtherDFS serves the root, and the registry maps the cluster to the directory. -/
structure Edfs.Maps (root dir : CString) (cluster : Word) (e : Edfs) : Prop where
  inited : e.inited = true
  root : e.root = root
  lookup : e.clusterLookup cluster = some dir

@[inherit_doc Edfs.Maps]
abbrev Lan.Maps (root dir : CString) (cluster : Word) (l : Lan η) : Prop :=
  l.edfs.Maps root dir cluster

theorem Lan.Maps.of_edfs {root dir : CString} {cluster : Word} {l l' : Lan η}
    (h : l.Maps root dir cluster) (hedfs : l'.edfs = l.edfs) : l'.Maps root dir cluster := by
  rw [Lan.Maps, hedfs]
  exact h

/-- `edfs_find` lists the directory. -/
structure Edfs.Lists (root dir : CString) (cluster : Word) (pattern : CString)
    (start targetPos : Word) (e : Edfs) : Prop extends e.Maps root dir cluster where
  listed : e.listed pattern start targetPos = some (cluster, dir)

/-- `rx_frame` has the answer for an entry, or that there is none. -/
def Answers (s : EdfsSearch) (d : HostDirectory) (frame : ℕ → Byte) :
    Option (CString × Word) → Prop
  | none => edfsResult frame = edfsResultNoMoreMatch
  | some a => edfsResult frame = edfsResultOk ∧ edfsFound frame = s.answer host d a

section Loop

variable {α : Type} {root dir : CString} {cluster : Word}

instance : FrameEvents (fun _ => True) (fun (_ : Net) (e : Edfs) => e) :=
  .of_all (fun _ _ _ => rfl) (fun _ _ => rfl) fun _ _ => rfl

theorem triple_maps {x : N η α}
    (hx : Generated (LanAction (fun _ => True) fun _ e => e) x) :
    Triple (Lan.Maps root dir cluster) x fun _ => Lan.Maps root dir cluster := by
  intro l h
  have hedfs : (outcome x l).2.edfs = l.edfs := (extends_of_generated hx l).kept
  exact h.of_edfs hedfs

/-- A new entry of the registry leaves the others alone. -/
theorem triple_maps_register (path path83 : CString) :
    Triple (Lan.Maps root dir cluster) (edfsClusterRegister path path83 : N η Unit)
      fun _ => Lan.Maps root dir cluster := by
  intro l h
  obtain ⟨hroot, hinited⟩ := Edfs.root_register l.edfs path path83
  obtain ⟨hedfs, -, -⟩ := outcome_edfsClusterRegister path path83 l
  constructor
  · rw [hedfs]
    exact hinited.trans h.inited
  · rw [hedfs]
    exact hroot.trans h.root
  · rw [hedfs]
    exact Edfs.clusterLookup_register h.lookup path path83

/-- What the loop puts into the frame for an entry, after its attribute. -/
def EdfsSearch.fields (s : EdfsSearch) (name : CString) (st : FileStat) (pos : Word) :
    List (ℕ × List Byte) :=
  [(0x3D, path83ToFilefcb (unixpathToPath83 name)),
    (0x48, wordBytesLE (timeToDosTime (host.localtime st.mtime))),
    (0x4A, wordBytesLE (timeToDosDate (host.localtime st.mtime))), (0x4C, sizeBytes st.size),
    (0x50, wordBytesLE s.cluster), (0x52, wordBytesLE pos), (0x3A, wordBytesLE edfsResultOk)]

theorem pairwise_fields (s : EdfsSearch) (name : CString) (st : FileStat) (pos : Word) :
    (s.fields host name st pos).Pairwise Apart := by
  simp [EdfsSearch.fields, Apart, length_path83ToFilefcb]

/-- The answer of the loop for an entry, whose attribute has been put into the frame. -/
theorem answers_edfsEntry (s : EdfsSearch) (d : HostDirectory) (name : CString) (pos : Word)
    {l : Lan η} (hattrib : frameBytes l.net.rxFrame 0x3C 1 =
      [if (d.stat name).isDir then 0x10 else 0x00]) :
    Answers host s d (outcome (do
      edfsEntry host s (path83ToFilefcb (unixpathToPath83 name)) (d.stat name) pos
      edfsSetResult edfsResultOk : N η Unit) l).2.net.rxFrame (some (name, pos)) := by
  obtain ⟨writes, hwrites⟩ : ∃ writes, writes = s.fields host name (d.stat name) pos := ⟨_, rfl⟩
  have hnet : (outcome (do
      edfsEntry host s (path83ToFilefcb (unixpathToPath83 name)) (d.stat name) pos
      edfsSetResult edfsResultOk : N η Unit) l).2.net = l.net.setFields writes := by
    rw [hwrites]
    rfl
  -- the fields are apart, so that each of them has what was written to it
  have hfield : ∀ field ∈ writes, frameBytes (l.net.setFields writes).rxFrame field.1
      field.2.length = field.2 := fun field hfield =>
    frameBytes_setFields (hwrites ▸ pairwise_fields host s name _ pos) hfield _
  have hattrib' : frameBytes (l.net.setFields writes).rxFrame 0x3C 1 =
      [if (d.stat name).isDir then 0x10 else 0x00] := by
    rw [← hattrib]
    refine frameBytes_setFields_of_not (0x3C, [0]) ?_ l.net
    rw [hwrites]
    simp [EdfsSearch.fields, Apart, length_path83ToFilefcb]
  have hword : ∀ {start : ℕ} {w : Word}, (start, wordBytesLE w) ∈ writes →
      txWordLE (l.net.setFields writes).rxFrame start = w := fun hmem =>
    txWordLE_of_frameBytes (hfield _ hmem)
  rw [hnet]
  generalize (l.net.setFields writes).rxFrame = frame at *
  rw [hwrites] at hfield hword
  have hattribByte : frame 0x3C = if (d.stat name).isDir then 0x10 else 0x00 :=
    (List.cons.inj hattrib').1
  have hfcb : frameBytes frame 0x3D 11 = path83ToFilefcb (unixpathToPath83 name) := by
    rw [← length_path83ToFilefcb (unixpathToPath83 name)]
    exact hfield (0x3D, _) (.head _)
  have hsize : frameBytes frame 0x4C 4 = sizeBytes (d.stat name).size :=
    hfield (0x4C, _) (.tail _ (.tail _ (.tail _ (.head _))))
  refine ⟨hword (by simp [EdfsSearch.fields]), ?_⟩
  rw [edfsFound, EdfsSearch.answer, hattribByte, hfcb, hsize]
  simp only [EdfsFound.mk.injEq, true_and]
  exact ⟨hword (by simp [EdfsSearch.fields]), hword (by simp [EdfsSearch.fields]),
    hword (by simp [EdfsSearch.fields]), hword (by simp [EdfsSearch.fields])⟩

theorem triple_maps_rootPath (path : CString) :
    Triple (Lan.Maps root dir cluster) (edfsRootPath path : N η CString)
      fun hostPath l => hostPath = joinPath root path ∧ l.Maps root dir cluster :=
  fun l h => ⟨by rw [← h.root]; rfl, h⟩

/-- A call of the host with a known result. -/
theorem triple_maps_hostPath {path : CString} {f : CString → η → α × η} {a : α}
    (hf : ∀ h, (f path h).1 = a) :
    Triple (Lan.Maps root dir cluster) (hostPath path f)
      fun r l => r = a ∧ l.Maps root dir cluster :=
  fun l h => ⟨hf l.host, h⟩

/-- The attribute of an entry has been put into the frame. -/
def HasAttrib (root dir : CString) (cluster : Word) (attrib : Byte) (l : Lan η) : Prop :=
  l.Maps root dir cluster ∧ frameBytes l.net.rxFrame 0x3C 1 = [attrib]

theorem triple_maps_writeAttrib (attrib : Byte) :
    Triple (Lan.Maps root dir cluster) (writeRx 0x3C [attrib] : N η Unit)
      fun _ => HasAttrib root dir cluster attrib :=
  fun l hl => ⟨triple_maps inferInstance l hl, frameBytes_setBytes l.net 0x3C rfl⟩

/-- A step that changes neither `net_t` nor the registry. -/
theorem triple_attrib_of_silent {attrib : Byte} {x : N η α}
    (hx : ∀ l, (outcome x l).2.net = l.net ∧ (outcome x l).2.edfs = l.edfs) :
    Triple (HasAttrib root dir cluster attrib) x fun _ => HasAttrib root dir cluster attrib := by
  rintro l ⟨hmaps, hattrib⟩
  obtain ⟨hnet, hedfs⟩ := hx l
  refine ⟨hmaps.of_edfs hedfs, ?_⟩
  rw [hnet]
  exact hattrib

theorem triple_attrib_register (attrib : Byte) (path path83 : CString) :
    Triple (HasAttrib root dir cluster attrib) (edfsClusterRegister path path83 : N η Unit)
      fun _ => HasAttrib root dir cluster attrib := by
  rintro l ⟨hmaps, hattrib⟩
  obtain ⟨-, hnet, -⟩ := outcome_edfsClusterRegister path path83 l
  refine ⟨triple_maps_register path path83 l hmaps, ?_⟩
  rw [hnet]
  exact hattrib

/-- The loop has an answer for the entries from position `i` on. -/
def Answered (s : EdfsSearch) (d : HostDirectory) (root : CString) (entries : List CString)
    (i : ℕ) (l : Lan η) : Prop :=
  l.Maps root s.path s.cluster ∧
    Answers host s d l.net.rxFrame ((s.positions d entries i).find? fun a => s.isTarget a.2)

/-- The loop answers with the first entry to be found at the position that the search is for. -/
theorem triple_answered_edfsFindLoop {s : EdfsSearch} {d : HostDirectory} {entries : List CString}
    (hstat : ∀ name ∈ entries, ∀ h,
      (host.stat (joinPath (joinPath root s.path) name) h).1 = some (d.stat name)) (i : ℕ) :
    Triple (Lan.Maps root s.path s.cluster) (edfsFindLoop host s entries (BitVec.ofNat 16 i))
      fun _ => Answered host s d root entries i := by
  induction entries generalizing i with
  | nil =>
    unfold edfsFindLoop
    intro l hl
    refine ⟨triple_maps inferInstance l hl, ?_⟩
    exact txWordLE_of_frameBytes (frameBytes_setBytes l.net 0x3A rfl)
  | cons name rest ih =>
    obtain ⟨hname, hrest⟩ := List.forall_mem_cons.mp hstat
    -- an entry that the search does not see has no position
    have hskip : s.isVisible d name = false → ∀ l : Lan η, Answered host s d root rest i l →
        Answered host s d root (name :: rest) i l := by
      intro hvisible l hl
      rw [Answered, EdfsSearch.positions_cons_of_not_visible hvisible]
      exact hl
    -- one that it sees takes up a position, also when it is not found
    have hpass : s.isVisible d name = true → s.isFound d name = false → ∀ l : Lan η,
        Answered host s d root rest (i + 1) l → Answered host s d root (name :: rest) i l := by
      intro hvisible hfound l hl
      rw [Answered, EdfsSearch.positions_cons_of_not_found hvisible hfound]
      exact hl
    have hpos : BitVec.ofNat 16 i + 1 = BitVec.ofNat 16 (i + 1) := (BitVec.ofNat_add i 1).symm
    unfold edfsFindLoop
    rw [hpos]
    refine .ite (fun hhides => ?_) fun hshown => ?_
    · exact (ih hrest i).post fun _ => hskip (by rw [EdfsSearch.isVisible, hhides]; rfl)
    refine (triple_maps_rootPath s.path).bind fun path => .of_and fun hpath => ?_
    rw [hpath]
    refine (triple_maps_hostPath hname).bind fun found => .of_and fun hfound => ?_
    rw [hfound]
    dsimp only
    have hhides := Bool.eq_false_iff.mpr hshown
    refine .ite (fun hother => ?_) fun hkind => ?_
    · -- neither a directory nor a regular file
      refine (ih hrest i).post fun _ => hskip ?_
      rw [EdfsSearch.isVisible, hother.1, hother.2, Bool.or_self, Bool.and_false]
    have hvisible : s.isVisible d name = true := by
      rw [EdfsSearch.isVisible, hhides]
      cases hdir : (d.stat name).isDir <;> cases hreg : (d.stat name).isReg <;> simp_all
    refine .ite (fun hattrib => ?_) fun hattrib => ?_
    · refine (ih hrest (i + 1)).post fun _ => hpass hvisible ?_
      rw [EdfsSearch.isFound, hattrib.1, beq_eq_false_iff_ne.mpr hattrib.2]
      simp
    have hfound : s.isFound d name = s.accepts (path83ToFilefcb (unixpathToPath83 name)) := by
      rw [EdfsSearch.isFound, hvisible]
      cases hdir : (d.stat name).isDir <;> simp_all
    -- the attribute stays in the frame while the entry is registered
    refine (triple_maps_writeAttrib _).bind fun _ => ?_
    refine (triple_attrib_of_silent (fun _ => ⟨rfl, rfl⟩)).bind fun _ => ?_
    refine (triple_attrib_register _ _ _).bind fun _ => ?_
    refine (triple_attrib_of_silent (fun _ => ⟨rfl, rfl⟩)).bind fun _ => ?_
    refine .ite (fun hreject => ?_) fun haccept => ?_
    · refine .pre (S := Lan.Maps root s.path s.cluster) (fun l hl => hl.1) ?_
      exact (ih hrest (i + 1)).post fun _ => hpass hvisible (hfound.trans hreject)
    have hfound : s.isFound d name = true := hfound.trans (Bool.not_eq_false _ ▸ haccept)
    -- the loop stops at the position it is for, and goes on at every other
    by_cases htarget : s.isTarget (BitVec.ofNat 16 (i + 1)) = true
    · rw [if_pos (of_decide_eq_true htarget)]
      rintro l ⟨hmaps, hattrib⟩
      refine ⟨?_, ?_⟩
      · exact triple_maps (x := do
          edfsEntry host s (path83ToFilefcb (unixpathToPath83 name)) (d.stat name)
            (BitVec.ofNat 16 (i + 1))
          edfsSetResult edfsResultOk
          return 0x54) inferInstance l hmaps
      · rw [EdfsSearch.positions_cons_of_found hfound, List.find?_cons, htarget]
        exact answers_edfsEntry host s d name _ hattrib
    · rw [if_neg fun h => htarget (decide_eq_true h)]
      refine .bind (Q := fun _ => Lan.Maps root s.path s.cluster) ?_ fun _ => ?_
      · exact (triple_maps inferInstance).pre fun l hl => hl.1
      refine (ih hrest (i + 1)).post fun _ l hl => ?_
      rw [Answered, EdfsSearch.positions_cons_of_found hfound, List.find?_cons,
        Bool.eq_false_iff.mpr htarget]
      exact hl

/-- `edfs_find` answers for the directory that it lists. -/
theorem triple_answered_edfsFind {attrib : Byte} (hattrib : attrib ≠ 0x08) {pattern : CString}
    {start cluster targetPos : Word} {d : HostDirectory} (hd : host.Has (joinPath root dir) d) :
    Triple (fun l => l.edfs.Lists root dir cluster pattern start targetPos)
      (edfsFind host attrib pattern start targetPos)
      fun _ => Answered host (EdfsSearch.mk attrib pattern cluster targetPos dir) d root
        d.entries 0 := by
  intro l hlists
  have hlisted := hlists.listed
  have hlookup : ∃ l' : Lan η, outcome (if targetPos = 0 then edfsDirLookup pattern
      else pure ((l.edfs.clusterLookup start).map fun path => (start, path)) :
        N η (Option (Word × CString))) l = (some (cluster, dir), l') ∧ l'.edfs = l.edfs := by
    rw [Edfs.listed] at hlisted
    split at hlisted
    case isTrue hpos =>
      rw [if_pos hpos]
      exact ⟨_, Prod.ext hlisted rfl, rfl⟩
    case isFalse hpos =>
      rw [if_neg hpos]
      exact ⟨_, Prod.ext hlisted rfl, rfl⟩
  obtain ⟨l', hl', hedfs⟩ := hlookup
  have hmaps' : l'.Maps root dir cluster := Lan.Maps.of_edfs hlists.toMaps hedfs
  rw [edfsFind, if_neg hattrib, outcome_bind, outcome_getEdfs]
  dsimp only
  rw [outcome_bind, hl']
  -- what is left to do is to list the directory
  refine (?_ : Triple (Lan.Maps root dir cluster) _ fun _ => Answered host
    (EdfsSearch.mk attrib pattern cluster targetPos dir) d root d.entries 0) l' hmaps'
  refine (triple_maps_rootPath dir).bind fun path => .of_and fun hpath => ?_
  rw [hpath]
  refine (triple_maps_hostPath hd.opendir).bind fun entries => .of_and fun hentries => ?_
  rw [hentries]
  exact triple_answered_edfsFindLoop (s := EdfsSearch.mk attrib pattern cluster targetPos dir)
    host hd.stat 0

end Loop

end Pc20iii
