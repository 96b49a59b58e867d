import Pc20iii.Edfs.Find

/-!
# What requests do to the registry

For each function of EtherDFS the change that it makes to the registry, as a function of the
request, of the registry and of the state of the host before it. `edfs_lanAfter` is the
refinement: a step of the network makes the change `stepChange` and no other.
-/

namespace Pc20iii

open StateProgram

variable {η : Type} (host : Host η)

/-! ### Changes -/

/-- RMDIR and DELETE unregister the path when the host has removed it. -/
def removeChange (remove : CString → η → Bool × η) (e : Edfs) (h : η) (path83 : CString) :
    RegistryChange :=
  match e.clusterLookup83 path83 with
  | none => .nothing
  | some (_, path) => if (remove (joinPath e.root path) h).1 then .removes path else .nothing

/-- MKDIR registers the path when the host has made it. -/
def mkdirChange (e : Edfs) (h : η) (path83 : CString) : RegistryChange :=
  if (host.mkdir (joinPath e.root (e.path83ToUnixpath path83)) h).1 then
    .adds (e.path83ToUnixpath path83) path83
  else .nothing

/-- RENAME unregisters the source and registers the destination when the host has renamed
it. -/
def renameChange (e : Edfs) (h : η) (path83Src path83Dst : CString) : RegistryChange :=
  match e.clusterLookup83 path83Src with
  | none => .nothing
  | some (_, src) =>
    if (host.rename (joinPath e.root src) (joinPath e.root (e.path83ToUnixpath path83Dst)) h).1 then
      { unregistered := some src, registered := [(e.path83ToUnixpath path83Dst, path83Dst)] }
    else .nothing

/-- OPEN registers the path when it has created the file. -/
def openChange (e : Edfs) (h : η) (path83 : CString) (action : Word) : RegistryChange :=
  match e.clusterLookup83 path83 with
  | none =>
    if action &&& 0xF0 = 0x10 ∧
        (host.fopen (joinPath e.root (e.path83ToUnixpath path83)) .create h).1.isSome then
      .adds (e.path83ToUnixpath path83) path83
    else .nothing
  | some _ => .nothing

/-- What the loop of `edfs_find` registers, of the entries behind a position. -/
def EdfsSearch.registers (s : EdfsSearch) (root : CString) :
    List CString → Word → η → List (CString × CString)
  | [], _, _ => []
  | name :: rest, pos, h =>
    if s.hides name then s.registers root rest pos h
    else
      let r := host.stat (joinPath (joinPath root s.path) name) h
      match r.1 with
      | none => []
      | some st =>
        if st.isDir = false ∧ st.isReg = false then s.registers root rest pos r.2
        else if st.isDir ∧ s.attrib &&& 0x10 ≠ 0x10 then s.registers root rest (pos + 1) r.2
        else
          (joinPath s.path name, unixpathToPath83 (joinPath s.path name)) ::
            if s.accepts (path83ToFilefcb (unixpathToPath83 name)) ∧ s.isTarget (pos + 1) then []
            else s.registers root rest (pos + 1) r.2

/-- FINDFIRST and FINDNEXT register the entries that they look at. -/
def findChange (e : Edfs) (h : η) (attrib : Byte) (pattern : CString) (cluster targetPos : Word) :
    RegistryChange :=
  if attrib = 0x08 then .nothing
  else
    match e.listed pattern cluster targetPos with
    | none => .nothing
    | some (cluster, path) =>
      let r := host.opendir (joinPath e.root path) h
      match r.1 with
      | none => .nothing
      | some entries =>
        { unregistered := none
          registered := (EdfsSearch.mk attrib pattern cluster targetPos path).registers host
            e.root entries 0 r.2 }

/-- The change of a function, on the path at an offset of the request. -/
def pathChange (tx : ℕ → Byte) (txLen offset : ℕ) (change : CString → RegistryChange) :
    RegistryChange :=
  (framePath tx txLen offset).elim .nothing change

/-- The change that a request makes. -/
def requestChange (tx : ℕ → Byte) (txLen : ℕ) (e : Edfs) (h : η) : RegistryChange :=
  if tx 0x3B = edfsFuncRmdir then pathChange tx txLen 0x3C (removeChange host.rmdir e h)
  else if tx 0x3B = edfsFuncMkdir then pathChange tx txLen 0x3C (mkdirChange host e h)
  else if tx 0x3B = edfsFuncFindfirst then
    pathChange tx txLen 0x3D fun path => findChange host e h (tx 0x3C) path 0 0
  else if tx 0x3B = edfsFuncFindnext then
    pathChange tx txLen 0x41 fun path =>
      findChange host e h (tx 0x40) path (txWordLE tx 0x3C) (txWordLE tx 0x3E)
  else if tx 0x3B = edfsFuncRename then
    pathChange tx txLen (0x3D + (tx 0x3C).toNat) fun dst =>
      pathChange tx (0x3D + (tx 0x3C).toNat) 0x3D fun src => renameChange host e h src dst
  else if tx 0x3B = edfsFuncDelete then pathChange tx txLen 0x3C (removeChange host.unlink e h)
  else if tx 0x3B = edfsFuncOpen then
    pathChange tx txLen 0x42 fun path => openChange host e h path 0x0001
  else if tx 0x3B = edfsFuncCreate then
    pathChange tx txLen 0x42 fun path => openChange host e h path 0x0012
  else if tx 0x3B = edfsFuncSpopnfil then
    pathChange tx txLen 0x42 fun path => openChange host e h path (txWordLE tx 0x3E)
  else .nothing

instance (tx : ℕ → Byte) : Decidable (IsRequest tx) := inferInstanceAs (Decidable (_ ∧ _))

/-- The change that a step of the network makes. -/
def stepChange (l : Lan η) : LanStep → RegistryChange
  | .transmit tx txLen =>
    if IsRequest tx ∧ l.edfs.inited then requestChange host tx txLen.toNat l.edfs l.host
    else .nothing
  | .poll | .taken => .nothing

theorem stepChange_edfsRequest {l : Lan η} (hinited : l.edfs.inited = true) (func : Byte)
    {arguments : List Byte} (hlen : arguments.length < 0xFF00) :
    stepChange host l (edfsRequest func arguments) =
      requestChange host (edfsFrame func arguments) (0x3C + arguments.length) l.edfs l.host := by
  rw [edfsRequest, stepChange, if_pos ⟨isRequest_edfsFrame func arguments, hinited⟩,
    toNat_txLen arguments hlen]

/-! ### Rules -/

/-- EtherDFS has the variables `e`, and the host is in state `h`. -/
structure Lan.In (e : Edfs) (h : η) (l : Lan η) : Prop where
  edfs : l.edfs = e
  host : l.host = h

/-- The steps that leave the variables of EtherDFS alone. -/
abbrev KeepsEdfs : ∀ α : Type, N η α → Prop := LanAction (fun _ => True) fun _ e => e

section Rules

variable {α β : Type} {e : Edfs} {h : η} {Q : β → Lan η → Prop} {x : N η α}

/-- A step that changes neither the variables nor the host. -/
theorem triple_in_of (hx : ∀ l, (outcome x l).2.edfs = l.edfs ∧ (outcome x l).2.host = l.host) :
    Triple (Lan.In e h) x fun _ => Lan.In e h :=
  fun l hl => ⟨(hx l).1.trans hl.edfs, (hx l).2.trans hl.host⟩

theorem triple_in_getEdfs {f : Edfs → N η β} (hf : Triple (Lan.In e h) (f e) Q) :
    Triple (Lan.In e h) (getEdfs >>= f) Q := by
  intro l hl
  rw [outcome_bind, outcome_getEdfs, hl.edfs]
  exact hf l hl

theorem triple_in_rootPath (path : CString) :
    Triple (Lan.In e h) (edfsRootPath path : N η CString) fun p l =>
      p = joinPath e.root path ∧ l.In e h :=
  fun _ hl => ⟨hl.edfs ▸ rfl, hl⟩

theorem triple_in_unixpath (path83 : CString) :
    Triple (Lan.In e h) (edfsUnixpath path83 : N η CString) fun p l =>
      p = e.path83ToUnixpath path83 ∧ l.In e h :=
  fun _ hl => ⟨hl.edfs ▸ rfl, hl.edfs, hl.host⟩

theorem triple_in_hostPath (path : CString) (f : CString → η → α × η) :
    Triple (Lan.In e h) (hostPath path f) fun a l => a = (f path h).1 ∧ l.In e (f path h).2 :=
  fun _ hl => ⟨hl.host ▸ rfl, hl.edfs, hl.host ▸ rfl⟩

/-- A step after which the host does not matter. -/
theorem triple_in_edfs (hx : Generated KeepsEdfs x) :
    Triple (Lan.In e h) x fun _ l => l.edfs = e :=
  fun l hl => ((extends_of_generated hx l).kept).trans hl.edfs

theorem triple_edfs (hx : Generated KeepsEdfs x) :
    Triple (fun l : Lan η => l.edfs = e) x fun _ l => l.edfs = e :=
  fun l hl => ((extends_of_generated hx l).kept).trans hl

theorem triple_edfs_register (path path83 : CString) :
    Triple (fun l : Lan η => l.edfs = e) (edfsClusterRegister path path83 : N η Unit) fun _ l =>
      l.edfs = e.register path path83 :=
  fun l hl => hl ▸ (outcome_edfsClusterRegister path path83 l).1

theorem triple_edfs_unregister (path : CString) :
    Triple (fun l : Lan η => l.edfs = e) (edfsClusterUnregister path : N η Unit) fun _ l =>
      l.edfs = e.unregister path :=
  fun l hl => hl ▸ (outcome_edfsClusterUnregister path l).1

end Rules

/-! ### Functions that leave the registry alone -/

section Keeps

instance : ReadyEvents (fun _ => True) (fun (_ : Net) (e : Edfs) => e) where
  built := trivial
  rxReady _ := rfl

instance : TcpEvents (fun _ => True) (fun (_ : Net) (e : Edfs) => e) :=
  .of_all fun _ _ => rfl

instance : HostEvents (fun _ => True) (fun (_ : Net) (e : Edfs) => e) where
  hostPath _ := trivial
  crash := trivial

instance generated_keeps_note (event : NetEvent) : Generated KeepsEdfs (note event : N η Unit) :=
  generated_note trivial

instance generated_keeps_edfsPath (tx : ℕ → Byte) (txLen offset : ℕ) :
    Generated KeepsEdfs (edfsPath tx txLen offset : N η (Option (Option CString))) :=
  generated_edfsPath_of trivial tx

instance generated_keeps_edfsWithPath {α : Type} (tx : ℕ → Byte) (txLen offset : ℕ)
    (operation : CString → N η α) [∀ path, Generated KeepsEdfs (operation path)] :
    Generated KeepsEdfs (edfsWithPath tx txLen offset operation) :=
  generated_edfsWithPath_of trivial tx operation

end Keeps

/-! ### Functions -/

section Functions

variable {e : Edfs} {h : η}

/-- RMDIR and DELETE take a path out of the registry once the host has removed it. -/
theorem triple_removeChange (remove : CString → η → Bool × η) (unknown : Word)
    (path83 : CString) :
    Triple (Lan.In e h) (edfsRemove remove unknown path83) fun _ l =>
      l.edfs = (removeChange remove e h path83).apply e := by
  unfold edfsRemove removeChange
  refine triple_in_getEdfs ?_
  cases e.clusterLookup83 path83 with
  -- an unknown path never reaches the host
  | none => exact triple_in_edfs inferInstance
  | some found =>
    obtain ⟨cluster, path⟩ := found
    dsimp only
    refine (triple_in_rootPath path).bind fun tmpPath => .of_and fun htmpPath => ?_
    refine (triple_in_hostPath tmpPath remove).bind fun ok => .of_and fun hok => ?_
    -- the host is asked for the path that the registry has
    rw [htmpPath] at hok ⊢
    rw [← hok]
    refine .ite (fun htrue => ?_) fun hfalse => ?_
    · rw [if_pos htrue, RegistryChange.apply_removes]
      refine ((triple_edfs_unregister path).pre fun _ hl => hl.edfs).bind fun _ => ?_
      exact triple_edfs inferInstance
    · rw [if_neg hfalse]
      exact triple_in_edfs inferInstance

/-- MKDIR registers the directory once the host has made it. -/
theorem triple_mkdirChange (path83 : CString) :
    Triple (Lan.In e h) (edfsMkdir host path83) fun _ l =>
      l.edfs = (mkdirChange host e h path83).apply e := by
  unfold edfsMkdir mkdirChange
  -- the host sees the path below the root, the registry the one without it
  refine (triple_in_unixpath path83).bind fun path => .of_and fun hpath => ?_
  refine (triple_in_rootPath path).bind fun tmpPath => .of_and fun htmpPath => ?_
  refine (triple_in_hostPath tmpPath host.mkdir).bind fun ok => .of_and fun hok => ?_
  rw [htmpPath, hpath] at hok ⊢
  rw [← hok]
  refine .ite (fun htrue => ?_) fun hfalse => ?_
  · rw [if_pos htrue, RegistryChange.apply_adds]
    refine ((triple_edfs_register _ path83).pre fun _ hl => hl.edfs).bind fun _ => ?_
    exact triple_edfs inferInstance
  · rw [if_neg hfalse]
    exact triple_in_edfs inferInstance

/-- RENAME takes the old path out and registers the new one, both once the host has renamed the
file. -/
theorem triple_renameChange (path83Src path83Dst : CString) :
    Triple (Lan.In e h) (edfsRename host path83Src path83Dst) fun _ l =>
      l.edfs = (renameChange host e h path83Src path83Dst).apply e := by
  unfold edfsRename renameChange
  refine triple_in_getEdfs ?_
  cases e.clusterLookup83 path83Src with
  -- the source has to be registered
  | none => exact triple_in_edfs inferInstance
  | some found =>
    obtain ⟨cluster, src⟩ := found
    dsimp only
    refine (triple_in_unixpath path83Dst).bind fun path => .of_and fun hpath => ?_
    refine (triple_in_rootPath src).bind fun tmpSrc => .of_and fun htmpSrc => ?_
    refine (triple_in_of fun _ => ⟨rfl, rfl⟩).bind fun _ => ?_
    refine (triple_in_rootPath path).bind fun tmpDst => .of_and fun htmpDst => ?_
    refine (triple_in_hostPath tmpDst _).bind fun ok => .of_and fun hok => ?_
    -- both paths are those that the change is stated with
    rw [htmpDst, htmpSrc, hpath] at hok ⊢
    rw [← hok]
    refine .ite (fun htrue => ?_) fun hfalse => ?_
    · rw [if_pos htrue]
      refine ((triple_edfs_unregister src).pre fun _ hl => hl.edfs).bind fun _ => ?_
      refine (triple_edfs_register _ path83Dst).bind fun _ => ?_
      exact triple_edfs inferInstance
    · rw [if_neg hfalse]
      exact triple_in_edfs inferInstance

theorem triple_in_touch (path : CString) :
    Triple (Lan.In e h) (edfsTouch host path) fun ok l =>
      ok = (host.fopen path .create h).1.isSome ∧ l.edfs = e := by
  unfold edfsTouch
  refine (triple_in_hostPath path _).bind fun file => .of_and fun hfile => ?_
  rw [← hfile]
  cases file with
  | none => exact .ret fun l hl => ⟨rfl, hl.edfs⟩
  | some file => exact fun l hl => ⟨rfl, hl.edfs⟩

/-- The three functions that open a file register it only when they have created it. -/
theorem triple_openChange (path83 : CString) (attrib action : Word) :
    Triple (Lan.In e h) (edfsOpen host path83 attrib action) fun _ l =>
      l.edfs = (openChange host e h path83 action).apply e := by
  unfold edfsOpen openChange
  refine triple_in_getEdfs ?_
  cases e.clusterLookup83 path83 with
  | none =>
    dsimp only
    -- an unknown file is created if the action says so
    refine .ite (fun haction => ?_) fun haction => ?_
    · refine (triple_in_unixpath path83).bind fun path => .of_and fun hpath => ?_
      refine (triple_in_rootPath path).bind fun tmpPath => .of_and fun htmpPath => ?_
      refine (triple_in_touch host tmpPath).bind fun ok => .of_and fun hok => ?_
      rw [htmpPath, hpath] at hok
      rw [← hok, hpath]
      refine .ite (fun htrue => ?_) fun hfalse => ?_
      · -- it is registered once `touch` has succeeded
        rw [if_pos ⟨haction, htrue⟩, RegistryChange.apply_adds]
        refine (triple_edfs_register _ path83).bind fun _ => ?_
        refine triple_edfs (.seq _ _ inferInstance fun e' => ?_)
        split <;> infer_instance
      · rw [if_neg fun hand => hfalse hand.2]
        exact triple_edfs inferInstance
    · rw [if_neg fun hand => haction hand.1]
      exact triple_in_edfs inferInstance
  | some found =>
    -- a known file is truncated at most, and stays registered as it is
    obtain ⟨cluster, path⟩ := found
    dsimp only
    refine .ite (fun _ => ?_) fun _ => triple_in_edfs inferInstance
    refine (triple_in_unixpath path83).bind fun unixpath => .of_and fun _ => ?_
    refine (triple_in_rootPath unixpath).bind fun tmpPath => .of_and fun _ => ?_
    refine (triple_in_touch host tmpPath).bind fun ok => .of_and fun _ => ?_
    exact triple_edfs inferInstance

theorem triple_in_register (path path83 : CString) :
    Triple (Lan.In e h) (edfsClusterRegister path path83 : N η Unit) fun _ =>
      Lan.In (e.register path path83) h := by
  intro l hl
  obtain ⟨hedfs, -, hhost⟩ := outcome_edfsClusterRegister path path83 l
  exact ⟨by rw [hedfs, hl.edfs], hhost.trans hl.host⟩

/-- The loop registers what `EdfsSearch.registers` says. -/
theorem triple_registers (s : EdfsSearch) (entries : List CString) (pos : Word) :
    Triple (Lan.In e h) (edfsFindLoop host s entries pos) fun _ l =>
      l.edfs = (s.registers host e.root entries pos h).foldl (fun e r => e.register r.1 r.2) e := by
  induction entries generalizing e h pos with
  | nil =>
    unfold edfsFindLoop
    exact triple_in_edfs inferInstance
  | cons name rest ih =>
    unfold edfsFindLoop EdfsSearch.registers
    dsimp only
    -- hidden names are passed over without a call of the host
    by_cases hhides : s.hides name = true
    · rw [if_pos hhides, if_pos hhides]
      exact ih pos
    rw [if_neg hhides, if_neg hhides]
    refine (triple_in_rootPath s.path).bind fun path => .of_and fun hpath => ?_
    rw [hpath]
    refine (triple_in_hostPath _ host.stat).bind fun found => .of_and fun hfound => ?_
    rw [← hfound]
    generalize (host.stat (joinPath (joinPath e.root s.path) name) h).2 = h'
    cases found with
    -- `stat` fails, and the search ends
    | none => exact triple_in_edfs inferInstance
    | some st =>
      dsimp only
      refine .ite (fun hother => ?_) fun hother => ?_
      · rw [if_pos hother]
        exact ih pos
      rw [if_neg hother]
      refine .ite (fun hattrib => ?_) fun hattrib => ?_
      · rw [if_pos hattrib]
        exact ih (pos + 1)
      rw [if_neg hattrib]
      -- the entry is registered before it is matched
      refine (triple_in_of fun _ => ⟨rfl, rfl⟩).bind fun _ => ?_
      refine (triple_in_of fun _ => ⟨rfl, rfl⟩).bind fun _ => ?_
      refine (triple_in_register _ _).bind fun _ => ?_
      refine (triple_in_of fun _ => ⟨rfl, rfl⟩).bind fun _ => ?_
      have hnext := ih (e := e.register (joinPath s.path name)
        (unixpathToPath83 (joinPath s.path name))) (h := h') (pos + 1)
      rw [(Edfs.root_register e _ _).1] at hnext
      rw [List.foldl_cons]
      -- the loop goes on unless the entry is accepted at the position that is looked for
      refine .ite (fun hreject => ?_) fun haccept => ?_
      · rw [if_neg fun hand => absurd (hreject.symm.trans hand.1) Bool.false_ne_true]
        exact hnext
      have haccept := (Bool.not_eq_false _).mp haccept
      refine (triple_in_of fun _ => ⟨rfl, rfl⟩).bind fun _ => ?_
      refine .ite (fun htarget => ?_) fun htarget => ?_
      · rw [if_pos ⟨haccept, decide_eq_true htarget⟩]
        exact triple_in_edfs inferInstance
      · rw [if_neg fun hand => htarget (of_decide_eq_true hand.2)]
        exact hnext

/-- A search registers the entries of a directory that the host can list. -/
theorem triple_findChange (attrib : Byte) (pattern : CString) (cluster targetPos : Word) :
    Triple (Lan.In e h) (edfsFind host attrib pattern cluster targetPos) fun _ l =>
      l.edfs = (findChange host e h attrib pattern cluster targetPos).apply e := by
  unfold edfsFind findChange
  refine .ite (fun hattrib => ?_) fun hattrib => ?_
  · rw [if_pos hattrib]
    exact triple_in_edfs inferInstance
  rw [if_neg hattrib]
  refine triple_in_getEdfs ?_
  -- FINDFIRST looks the directory up by its 8.3 name, FINDNEXT by its cluster
  have hlisted : Triple (Lan.In e h) (if targetPos = 0 then edfsDirLookup pattern
      else pure ((e.clusterLookup cluster).map fun path => (cluster, path)) : N η _)
      fun found l => found = e.listed pattern cluster targetPos ∧ l.In e h := by
    rw [Edfs.listed]
    refine .ite (fun hpos => ?_) fun hpos => ?_
    · rw [if_pos hpos]
      exact fun _ hl => ⟨hl.edfs ▸ rfl, hl.edfs, hl.host⟩
    · rw [if_neg hpos]
      exact .ret fun _ hl => ⟨rfl, hl⟩
  refine hlisted.bind fun found => .of_and fun hfound => ?_
  rw [← hfound]
  cases found with
  | none => exact triple_in_edfs inferInstance
  | some found =>
    obtain ⟨cluster, path⟩ := found
    dsimp only
    refine (triple_in_rootPath path).bind fun tmpPath => .of_and fun htmpPath => ?_
    refine (triple_in_hostPath tmpPath host.opendir).bind fun entries => .of_and fun hentries => ?_
    rw [htmpPath] at hentries ⊢
    rw [← hentries]
    generalize (host.opendir (joinPath e.root path) h).2 = h'
    cases entries with
    | none => exact triple_in_edfs inferInstance
    | some entries => exact triple_registers host _ entries 0

/-! ### Requests -/

/-- A path is read as the specification reads it from the frame, whether it is refused or not. -/
theorem triple_in_edfsPath (tx : ℕ → Byte) (txLen offset : ℕ) :
    Triple (Lan.In e h) (edfsPath tx txLen offset : N η (Option (Option CString)))
      fun r l => r.join = framePath tx txLen offset ∧ l.In e h := by
  unfold edfsPath framePath
  refine (triple_in_of fun _ => ⟨rfl, rfl⟩).bind fun _ => ?_
  refine .ite (fun hoffset => ?_) fun hoffset => .ite (fun hlen => ?_) fun hlen => ?_
  · rw [if_pos (.inl hoffset)]
    exact (triple_in_of fun _ => ⟨rfl, rfl⟩).bind fun _ => .ret fun _ hl => ⟨rfl, hl⟩
  · rw [if_pos (.inr hlen)]
    exact .ret fun _ hl => ⟨rfl, hl⟩
  · rw [if_neg (not_or.mpr ⟨hoffset, hlen⟩)]
    exact .ret fun _ hl => ⟨rfl, hl⟩

/-- A function on the path of a request. -/
theorem triple_pathChange {α : Type} {tx : ℕ → Byte} {txLen offset : ℕ}
    {operation : CString → N η α} {change : CString → RegistryChange}
    (hop : ∀ path, Triple (Lan.In e h) (operation path) fun _ l => l.edfs = (change path).apply e) :
    Triple (Lan.In e h) (edfsWithPath tx txLen offset operation) fun _ l =>
      l.edfs = (pathChange tx txLen offset change).apply e := by
  unfold edfsWithPath pathChange
  refine (triple_in_edfsPath tx txLen offset).bind fun r => .of_and fun hr => ?_
  rw [← hr]
  match r with
  | none => exact .ret fun _ hl => hl.edfs
  -- the path does not fit, and an error is answered
  | some none =>
    refine (triple_in_of fun _ => ⟨rfl, rfl⟩).bind fun _ => ?_
    exact .ret fun _ hl => hl.edfs
  | some (some path) => exact (hop path).bind fun a => .ret fun _ hl => hl

theorem triple_in_path (tx : ℕ → Byte) (txLen offset : ℕ) :
    Triple (Lan.In e h) (edfsWithPath tx txLen offset (pure ·) : N η (Option CString))
      fun path l => path = framePath tx txLen offset ∧ l.In e h := by
  unfold edfsWithPath
  refine (triple_in_edfsPath tx txLen offset).bind fun r => .of_and fun hr => ?_
  rw [← hr]
  match r with
  | none => exact .ret fun _ hl => ⟨rfl, hl⟩
  | some none =>
    exact (triple_in_of fun _ => ⟨rfl, rfl⟩).bind fun _ => .ret fun _ hl => ⟨rfl, hl⟩
  | some (some path) => exact fun _ hl => ⟨rfl, hl⟩

theorem triple_in_readTx (tx : ℕ → Byte) (i : ℕ) :
    Triple (Lan.In e h) (readTx tx i : N η Byte) fun byte l => byte = tx i ∧ l.In e h :=
  fun _ hl => ⟨rfl, hl.edfs, hl.host⟩

theorem triple_in_readTxWordLE (tx : ℕ → Byte) (i : ℕ) :
    Triple (Lan.In e h) (readTxWordLE tx i : N η Word) fun word l =>
      word = txWordLE tx i ∧ l.In e h :=
  fun _ hl => ⟨rfl, hl.edfs, hl.host⟩

theorem triple_in_readTxWord (tx : ℕ → Byte) (i : ℕ) :
    Triple (Lan.In e h) (readTxWord tx i : N η Word) fun word l =>
      word = txWord tx i ∧ l.In e h :=
  fun _ hl => ⟨rfl, hl.edfs, hl.host⟩

/-- Each request changes the registry as `requestChange` says: the arguments are read where this
reads them, and the function is the one behind the number. -/
theorem triple_requestChange (tx : ℕ → Byte) (txLen : Word) :
    Triple (Lan.In e h) (edfsDispatch host tx txLen (tx 0x3B)) fun _ l =>
      l.edfs = (requestChange host tx txLen.toNat e h).apply e := by
  -- most functions register nothing
  have hkeeps : ∀ {x : N η (Option Word)}, Generated KeepsEdfs x →
      requestChange host tx txLen.toNat e h = .nothing → Triple (Lan.In e h) x fun _ l =>
        l.edfs = (requestChange host tx txLen.toNat e h).apply e := by
    intro x hx hchange
    rw [hchange]
    exact triple_in_edfs hx
  apply edfsDispatch_cases (motive := fun x => Triple (Lan.In e h) x fun _ l =>
    l.edfs = (requestChange host tx txLen.toNat e h).apply e)
  case rmdir =>
    intro hfunc
    rw [requestChange, hfunc]
    exact triple_pathChange fun path => triple_removeChange _ _ path
  case mkdir =>
    intro hfunc
    rw [requestChange, hfunc]
    exact triple_pathChange fun path => triple_mkdirChange host path
  case chdir => exact fun hfunc => hkeeps inferInstance (by rw [requestChange, hfunc]; rfl)
  case closefile => exact fun hfunc => hkeeps inferInstance (by rw [requestChange, hfunc]; rfl)
  case readfile => exact fun hfunc => hkeeps inferInstance (by rw [requestChange, hfunc]; rfl)
  case writefile => exact fun hfunc => hkeeps inferInstance (by rw [requestChange, hfunc]; rfl)
  case diskspace => exact fun hfunc => hkeeps inferInstance (by rw [requestChange, hfunc]; rfl)
  case setattr =>
    intro hfunc
    refine hkeeps ?_ (by rw [requestChange, hfunc]; rfl)
    refine .seq _ _ inferInstance fun _ => .seq _ _ inferInstance fun path => ?_
    split <;> infer_instance
  case getattr => exact fun hfunc => hkeeps inferInstance (by rw [requestChange, hfunc]; rfl)
  case findfirst =>
    intro hfunc
    rw [requestChange, hfunc]
    refine (triple_in_readTx tx 0x3C).bind fun attrib => .of_and fun hattrib => ?_
    rw [← hattrib]
    exact triple_pathChange fun path => triple_findChange host attrib path 0 0
  case findnext =>
    intro hfunc
    rw [requestChange, hfunc]
    refine (triple_in_readTxWordLE tx 0x3C).bind fun cluster => .of_and fun hcluster => ?_
    refine (triple_in_readTxWordLE tx 0x3E).bind fun pos => .of_and fun hpos => ?_
    refine (triple_in_readTx tx 0x40).bind fun attrib => .of_and fun hattrib => ?_
    rw [← hcluster, ← hpos, ← hattrib]
    exact triple_pathChange fun path => triple_findChange host attrib path cluster pos
  case rename =>
    intro hfunc
    rw [requestChange, hfunc]
    refine (triple_in_readTx tx 0x3C).bind fun srcLen => .of_and fun hsrcLen => ?_
    rw [← hsrcLen]
    refine (triple_in_path tx _ _).bind fun dst => .of_and fun hdst => ?_
    -- without the new path the old one is not looked at
    change Triple _ _ fun _ (l : Lan η) =>
      l.edfs = (pathChange tx txLen.toNat (0x3D + srcLen.toNat) fun dst =>
      pathChange tx (0x3D + srcLen.toNat) 0x3D fun src => renameChange host e h src dst).apply e
    rw [pathChange, ← hdst]
    cases dst with
    | none => exact triple_in_edfs inferInstance
    | some dst => exact triple_pathChange fun src => triple_renameChange host src dst
  case delete =>
    intro hfunc
    rw [requestChange, hfunc]
    exact triple_pathChange fun path => triple_removeChange _ _ path
  case openfile =>
    intro hfunc
    rw [requestChange, hfunc]
    refine (triple_in_readTxWordLE tx 0x3C).bind fun attrib => .of_and fun _ => ?_
    exact triple_pathChange fun path => triple_openChange host path attrib 0x0001
  case create =>
    intro hfunc
    rw [requestChange, hfunc]
    refine (triple_in_readTxWordLE tx 0x3C).bind fun _ => .of_and fun _ => ?_
    exact triple_pathChange fun path => triple_openChange host path 0x0002 0x0012
  case spopnfil =>
    intro hfunc
    rw [requestChange, hfunc]
    refine (triple_in_readTxWordLE tx 0x3C).bind fun _ => .of_and fun _ => ?_
    refine (triple_in_readTxWordLE tx 0x3E).bind fun action => .of_and fun haction => ?_
    refine (triple_in_readTxWordLE tx 0x40).bind fun mode => .of_and fun _ => ?_
    rw [← haction]
    exact triple_pathChange fun path => triple_openChange host path mode action
  case other =>
    intro hother
    refine hkeeps inferInstance ?_
    simp [requestChange, hother]

/-- A packet is a request if its version fits, and EtherDFS ignores it without a root. -/
theorem triple_change_edfsHandlePacket (tx : ℕ → Byte) (txLen : Word) :
    Triple (Lan.In e h) (edfsHandlePacket host tx txLen) fun _ l =>
      l.edfs = (if tx 0x38 &&& 0x7F = 2 ∧ e.inited then requestChange host tx txLen.toNat e h
        else .nothing).apply e := by
  unfold edfsHandlePacket
  refine triple_in_getEdfs (.ite (fun hinited => ?_) fun hinited => ?_)
  · refine (triple_in_readTx tx 0x38).bind fun ver => .of_and fun hver => ?_
    refine (triple_in_readTx tx 0x3B).bind fun func => .of_and fun hfunc => ?_
    rw [hver, hfunc]
    refine .ite (fun hversion => ?_) fun hversion => ?_
    · rw [if_neg fun hand => hversion hand.1]
      exact triple_in_edfs inferInstance
    · rw [if_pos ⟨not_not.mp hversion, hinited⟩]
      -- the registry has its change; what is left fills in the header of the reply
      refine (triple_requestChange host tx txLen).bind fun rxLen => ?_
      cases rxLen with
      | none => exact .ret fun _ hl => hl
      | some rxLen =>
        refine triple_edfs ?_
        refine .seq _ _ (generated_modifyNet fun _ => rfl) fun _ => ?_
        refine .seq _ _ inferInstance fun _ => ?_
        exact .seq _ _ (generated_modifyNet fun _ => rfl) fun _ => inferInstance
  · rw [if_neg fun hand => hinited hand.2]
    exact .ret fun _ hl => hl.edfs

/-- Of the frames of the guest, only the requests of EtherDFS change the registry. -/
theorem triple_change_netTxFrame (tx : ℕ → Byte) (txLen : Word) :
    Triple (Lan.In e h) (netTxFrame host tx txLen) fun _ l =>
      l.edfs = (if IsRequest tx ∧ e.inited then requestChange host tx txLen.toNat e h
        else .nothing).apply e := by
  -- no other protocol reaches the registry
  have hother : txWord tx 0x0C ≠ ethertypeEdfs → ∀ {x : N η Unit}, Generated KeepsEdfs x →
      Triple (Lan.In e h) x fun _ l =>
        l.edfs = (if IsRequest tx ∧ e.inited then requestChange host tx txLen.toNat e h
          else .nothing).apply e := by
    intro hethertype x hx
    rw [if_neg fun hand => hethertype hand.1.1]
    exact triple_in_edfs hx
  unfold netTxFrame
  refine (triple_in_readTxWord tx 0x0C).bind fun ethertype => .of_and fun hethertype => ?_
  rw [hethertype]
  refine .ite (fun harp => ?_) fun _ => .ite (fun hipv4 => ?_) fun _ => .ite (fun hedfs => ?_)
    fun hunknown => ?_
  · exact hother (by rw [harp]; decide) inferInstance
  · exact hother (by rw [hipv4]; decide) inferInstance
  · refine (triple_change_edfsHandlePacket host tx txLen).post fun _ l hl => ?_
    -- `IsRequest` is the ethertype, which is known here, and the version
    have hrequest : tx 0x38 &&& 0x7F = 2 ∧ e.inited ↔ IsRequest tx ∧ e.inited :=
      and_congr_left' ⟨fun hversion => ⟨hedfs, hversion⟩, And.right⟩
    simp only [hl, hrequest]
  · exact hother hunknown inferInstance

end Functions

/-- **The registry of the network.** A step makes its change to the registry and no other. -/
theorem edfs_lanAfter (l : Lan η) (s : LanStep) :
    (lanAfter host l s).edfs = (stepChange host l s).apply l.edfs := by
  cases s with
  | transmit tx txLen => exact triple_change_netTxFrame host tx txLen l ⟨rfl, rfl⟩
  | poll => exact (extends_of_generated (E := fun _ => True) (p := fun _ e => e)
      (generated_netExecute host) l).kept
  | taken => rfl

end Pc20iii
