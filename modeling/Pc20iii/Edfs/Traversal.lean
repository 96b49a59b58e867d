import Pc20iii.Edfs.Reading
import Pc20iii.Net.Effects
import Pc20iii.Program.Triple

/-!
# Host paths below the root

Which paths `edfs.c` passes to the host, over all runs of the network from `edfs_init`.

A path reaches the host from the registry, or converted from a path of the guest, or as an
entry of a directory that is listed. Two of these may climb above the root:

* `path83_to_unixpath` maps the directory of a guest path and converts the rest as it is,
  `..` and slashes included.
* `edfs_find` hides the entry `..` of the root, which has the empty path. A directory that is
  the root by another path, such as `/SUB/..`, does not have its entry hidden, and the entry
  is registered.

`StepStays` is the condition on a request that neither happens, and that the strings fit their
arrays. In every run whose requests meet it, every path that is passed to the host stays
below the root (`hostPaths_below`): `Lan.Below` says so of the history and of the registry,
which a request takes its paths from.
-/

namespace Pc20iii

open StateProgram

variable {η : Type} (host : Host η) {root : CString} {e : Edfs} {h : η}

/-- The host path is the root and a path that does not climb above it. -/
def IsBelow (root hostPath : CString) : Prop := ∃ path, hostPath = joinPath root path ∧ Stays path

/-- A path that is passed to the host is below the root, and a string fits its array. -/
def NetEvent.Contained (root : CString) : NetEvent → Prop
  | .hostPath path => IsBelow root path
  | .buffer capacity len => len < capacity
  | _ => True

/-- The paths passed to the host so far are below the root, and so are those of the
registry. -/
structure Lan.Below (root : CString) (l : Lan η) : Prop where
  edfsRoot : l.edfs.root = root
  cluster : ∀ i, Stays (l.edfs.cluster i).path
  log : ∀ event ∈ l.log, event.Contained root

/-- The network while EtherDFS has the variables `e`. -/
structure Lan.With (root : CString) (e : Edfs) (l : Lan η) : Prop extends l.Below root where
  edfs : l.edfs = e

/-- The network while EtherDFS has the variables `e` and the host is in state `h`. -/
structure Lan.At (root : CString) (e : Edfs) (h : η) (l : Lan η) : Prop extends l.With root e where
  host : l.host = h

/-! ### The rest of the network -/

/-- The steps that record contained events only and leave the registry alone. -/
abbrev ContainedAction (root : CString) : ∀ α : Type, N η α → Prop :=
  LanAction (NetEvent.Contained root) fun _ e => e

instance : FrameEvents (NetEvent.Contained root) (fun (_ : Net) (e : Edfs) => e) where
  rxWrite _ := trivial
  ipHeader := trivial
  setBytes _ _ _ := rfl
  ipId _ _ := rfl
  rxLen _ _ := rfl
  txRead _ := trivial
  rxWrites _ _ := trivial
  ipChecksum _ _ := trivial

instance : ReadyEvents (NetEvent.Contained root) (fun (_ : Net) (e : Edfs) => e) where
  built := trivial
  rxReady _ := rfl

instance : SendtoEvents (NetEvent.Contained root) where
  sendto _ _ _ _ := trivial

instance : SendEvents (NetEvent.Contained root) where
  send _ _ _ _ _ := trivial

instance : UdpChanges (fun (_ : Net) (e : Edfs) => e) where
  udpSockets _ _ := rfl

instance : TcpEvents (NetEvent.Contained root) (fun (_ : Net) (e : Edfs) => e) where
  opened _ _ _ := trivial
  applied _ _ := trivial
  closed _ := trivial
  segment _ _ _ _ _ := trivial
  tcpSockets _ _ := rfl

section Rules

variable {α β : Type} {x : N η α} {Q : β → Lan η → Prop}

theorem Lan.With.of_extends {l l' : Lan η} (hl : l.With root e)
    (hext : l.Extends (NetEvent.Contained root) (fun _ e => e) l') : l'.With root e := by
  obtain ⟨⟨hroot, hcluster, hlog⟩, hedfs⟩ := hl
  obtain ⟨hkept, es, hes, hcontained⟩ := hext
  rw [← hkept] at hroot hcluster hedfs
  refine ⟨⟨hroot, hcluster, fun event hevent => ?_⟩, hedfs⟩
  rw [hes] at hevent
  exact (List.mem_append.mp hevent).elim (hcontained event) (hlog event)

theorem triple_with_of_generated (hx : Generated (ContainedAction root) x) :
    Triple (Lan.With root e) x fun _ => Lan.With root e :=
  fun l hl => hl.of_extends (extends_of_generated hx l)

/-- The variables have some value. -/
theorem triple_below (hx : ∀ e, Triple (Lan.With root e) x fun _ => Lan.Below root) :
    Triple (Lan.Below root) x fun _ => Lan.Below root :=
  fun l hl => hx l.edfs l ⟨hl, rfl⟩

/-- The variables do not matter. -/
theorem triple_with_of_below {Q : α → Lan η → Prop} (hx : Triple (Lan.Below root) x Q) :
    Triple (Lan.With root e) x Q :=
  hx.pre fun _ hl => hl.toBelow

theorem triple_below_of_generated (hx : Generated (ContainedAction root) x) :
    Triple (Lan.Below root) x fun _ => Lan.Below root :=
  triple_below fun _ => (triple_with_of_generated hx).post fun _ _ hl => hl.toBelow

theorem triple_with_below (hx : Generated (ContainedAction root) x) :
    Triple (Lan.With root e) x fun _ => Lan.Below root :=
  (triple_with_of_generated hx).post fun _ _ hl => hl.toBelow

/-- A contained step before the rest of a program. -/
theorem triple_seq {f : α → N η β} (hx : Generated (ContainedAction root) x)
    (hf : ∀ a, Triple (Lan.With root e) (f a) Q) : Triple (Lan.With root e) (x >>= f) Q :=
  (triple_with_of_generated hx).bind hf

/-- The variables are read, in a state that may be known better. -/
theorem triple_getEdfs_of {P : Lan η → Prop} (hP : ∀ l, P l → l.With root e) {f : Edfs → N η β}
    (hf : e.root = root → (∀ i, Stays (e.cluster i).path) → Triple P (f e) Q) :
    Triple P (getEdfs >>= f) Q := fun l hl => by
  have hwith := hP l hl
  have hedfs : (outcome getEdfs l).1 = e := hwith.edfs
  rw [outcome_bind, hedfs]
  exact hf (hwith.edfs ▸ hwith.edfsRoot) (hwith.edfs ▸ hwith.cluster) l hl

theorem triple_getEdfs {f : Edfs → N η β}
    (hf : (∀ i, Stays (e.cluster i).path) → Triple (Lan.With root e) (f e) Q) :
    Triple (Lan.With root e) (getEdfs >>= f) Q :=
  triple_getEdfs_of (fun _ hl => hl) fun _ => hf

theorem triple_edfsRootPath {P : Lan η → Prop} (hP : ∀ l, P l → l.With root e) {path : CString}
    {f : CString → N η β} (hf : Triple P (f (joinPath root path)) Q) :
    Triple P (edfsRootPath path >>= f) Q := fun l hl => by
  have hpath : (outcome (edfsRootPath path) l).1 = joinPath root path :=
    congrArg (joinPath · path) (hP l hl).edfsRoot
  rw [outcome_bind, hpath]
  exact hf l hl

/-- A path below the root is put together. -/
theorem triple_pathBelow {path : CString} (hpath : Stays path) {f : CString → N η β}
    (hf : ∀ tmpPath, IsBelow root tmpPath → Triple (Lan.With root e) (f tmpPath) Q) :
    Triple (Lan.With root e) (edfsRootPath path >>= f) Q :=
  triple_edfsRootPath (fun _ hl => hl) (hf _ ⟨path, rfl, hpath⟩)

theorem generated_hostPath_of_isBelow {path : CString} (hpath : IsBelow root path)
    (f : CString → η → α × η) : Generated (ContainedAction root) (hostPath path f) :=
  .seq _ _ (generated_note hpath) fun _ => generated_hostCall _

theorem generated_edfsTouch_of_isBelow {path : CString} (hpath : IsBelow root path) :
    Generated (ContainedAction root) (edfsTouch host path) := by
  unfold edfsTouch
  refine .seq _ _ (generated_hostPath_of_isBelow hpath _) fun file => ?_
  split <;> infer_instance

/-! While the state of the host is known: -/

theorem triple_at_note {event : NetEvent} (hevent : event.Contained root) :
    Triple (Lan.At root e h) (note event : N η Unit) fun _ => Lan.At root e h := fun _ hl =>
  ⟨⟨⟨hl.edfsRoot, hl.cluster, List.forall_mem_cons.mpr ⟨hevent, hl.log⟩⟩, hl.edfs⟩, hl.host⟩

theorem triple_at_readTx (tx : ℕ → Byte) (i : ℕ) :
    Triple (Lan.At root e h) (readTx tx i : N η Byte) fun byte l => byte = tx i ∧ l.At root e h :=
  fun l hl => by
    have hevent : (NetEvent.txRead i).Contained root := trivial
    exact ⟨rfl, triple_at_note hevent l hl⟩

theorem triple_at_of_generated (hx : Generated (ContainedAction root) x) :
    Triple (Lan.At root e h) x fun _ => Lan.With root e :=
  (triple_with_of_generated hx).pre fun _ hl => hl.toWith

theorem triple_at_hostPath {path : CString} (hpath : IsBelow root path)
    (f : CString → η → α × η) :
    Triple (Lan.At root e h) (hostPath path f) fun a l => a = (f path h).1 ∧ l.With root e :=
  fun l hl => by
    refine ⟨?_, hl.of_extends (extends_of_generated (generated_hostPath_of_isBelow hpath f) l)⟩
    rw [← hl.host]
    rfl

end Rules

/-! ### The registry -/

/-- A path of the registry stays below the root. -/
theorem stays_of_clusterLookup83 (hcluster : ∀ i, Stays (e.cluster i).path) {path83 : CString}
    {found : Word × CString} (h : e.clusterLookup83 path83 = some found) : Stays found.2 := by
  unfold Edfs.clusterLookup83 at h
  split at h
  · cases h
    exact stays_nil
  · obtain ⟨i, -, rfl⟩ := Option.map_eq_some_iff.mp h
    exact hcluster i

theorem stays_of_clusterLookup (hcluster : ∀ i, Stays (e.cluster i).path) {cluster : Word}
    {path : CString} (h : e.clusterLookup cluster = some path) : Stays path := by
  unfold Edfs.clusterLookup at h
  split at h
  · cases h
    exact hcluster _
  · cases h

/-- An assignment to an entry of the registry. -/
theorem triple_setCluster {entry : EdfsCluster} (hentry : Stays entry.path) (i : ℕ) :
    Triple (Lan.Below root) (modifyEdfs (Edfs.setCluster i entry) : N η Unit) fun _ =>
      Lan.Below root := fun l hl => by
  refine ⟨hl.edfsRoot, fun j => ?_, hl.log⟩
  rcases eq_or_ne j i with rfl | hji
  · exact (congrArg (fun c : EdfsCluster => Stays c.path) (Function.update_self ..)).mpr hentry
  · exact (congrArg (fun c : EdfsCluster => Stays c.path) (Function.update_of_ne hji ..)).mpr
      (hl.cluster j)

/-- A path that stays, and fits, leaves the registry below the root. -/
theorem triple_edfsClusterRegister {path path83 : CString} (hpath : Stays path)
    (hfits : path.length < edfsPathMax) (hfits83 : path83.length < edfsPath83Max) :
    Triple (Lan.Below root) (edfsClusterRegister path path83 : N η Unit) fun _ =>
      Lan.Below root := by
  refine triple_below fun e => ?_
  unfold edfsClusterRegister
  refine triple_getEdfs fun _ => ?_
  refine .ite (fun _ => triple_with_below inferInstance) fun _ => ?_
  refine .ite (fun _ => triple_with_below inferInstance) fun _ => ?_
  refine triple_seq (generated_note hfits) fun _ => ?_
  refine triple_seq (generated_note hfits83) fun _ => ?_
  refine .bind (triple_with_of_below (triple_setCluster hpath _)) fun _ => ?_
  exact fun l hl => ⟨hl.edfsRoot, hl.cluster, hl.log⟩

theorem triple_edfsClusterUnregister (path : CString) :
    Triple (Lan.Below root) (edfsClusterUnregister path : N η Unit) fun _ => Lan.Below root := by
  refine triple_below fun e => ?_
  unfold edfsClusterUnregister
  refine triple_getEdfs fun _ => ?_
  split
  · exact triple_with_below inferInstance
  · exact triple_with_of_below (triple_setCluster stays_nil _)

/-! ### Guest paths -/

/-- What is asked of a guest path that is converted: it fits the arrays, and no more of its
components go up than there are directories above, down to the root. -/
structure Edfs.Converts (e : Edfs) (path83 : CString) : Prop where
  fits83 : path83.length < edfsPath83Max
  fits : (e.known path83).1.length + ((e.known path83).2.filter isPrint).length < edfsPathMax
  stays : ((e.requested path83).foldlM climb 0).isSome

theorem Edfs.Converts.stays_path83ToUnixpath {path83 : CString} (h : e.Converts path83) :
    Stays (e.path83ToUnixpath path83) := by
  rw [Stays, pathDepth_path83ToUnixpath]
  exact h.stays

theorem Edfs.Converts.length_path83ToUnixpath {path83 : CString} (h : e.Converts path83) :
    (e.path83ToUnixpath path83).length < edfsPathMax := by
  rw [path83ToUnixpath_eq, List.length_append, length_path83Convert]
  exact h.fits

/-- `path83_to_unixpath` gives a path that stays below the root and fits its array. -/
theorem triple_edfsUnixpath {β : Type} {Q : β → Lan η → Prop} {path83 : CString}
    (h : e.Converts path83) {f : CString → N η β}
    (hf : ∀ path, Stays path → path.length < edfsPathMax → Triple (Lan.With root e) (f path) Q) :
    Triple (Lan.With root e) (edfsUnixpath path83 >>= f) Q := by
  -- the two notes are the bounds of the two arrays
  have hunixpath : Triple (Lan.With root e) (edfsUnixpath path83 : N η CString) fun path l =>
      path = e.path83ToUnixpath path83 ∧ l.With root e := by
    unfold edfsUnixpath
    refine triple_getEdfs fun _ => ?_
    refine triple_seq (generated_note h.fits83) fun _ => ?_
    refine triple_seq (generated_note h.length_path83ToUnixpath) fun _ => ?_
    exact .ret fun l hl => ⟨rfl, hl⟩
  refine hunixpath.bind fun path => .of_and fun hpath => ?_
  rw [hpath]
  exact hf _ h.stays_path83ToUnixpath h.length_path83ToUnixpath

/-! ### Files and directories -/

/-- RMDIR and DELETE pass the path of the registry, which stays. -/
theorem triple_edfsRemove (remove : CString → η → Bool × η) (unknown : Word) (path83 : CString) :
    Triple (Lan.With root e) (edfsRemove remove unknown path83) fun _ => Lan.Below root := by
  unfold edfsRemove
  refine triple_getEdfs fun hcluster => ?_
  split
  · exact triple_with_below inferInstance
  case h_2 cluster path hfound =>
    refine triple_pathBelow (stays_of_clusterLookup83 hcluster hfound) fun tmpPath hbelow => ?_
    refine triple_seq (generated_hostPath_of_isBelow hbelow _) fun ok => ?_
    refine .ite (fun _ => ?_) fun _ => triple_with_below inferInstance
    refine .bind (triple_with_of_below (triple_edfsClusterUnregister path)) fun _ => ?_
    exact triple_below_of_generated inferInstance

theorem triple_edfsMkdir {path83 : CString} (hpath : e.Converts path83) :
    Triple (Lan.With root e) (edfsMkdir host path83) fun _ => Lan.Below root := by
  unfold edfsMkdir
  refine triple_edfsUnixpath hpath fun path hstays hfits => ?_
  refine triple_pathBelow hstays fun tmpPath hbelow => ?_
  refine triple_seq (generated_hostPath_of_isBelow hbelow _) fun ok => ?_
  refine .ite (fun _ => ?_) fun _ => triple_with_below inferInstance
  refine .bind (triple_with_of_below
    (triple_edfsClusterRegister hstays hfits hpath.fits83)) fun _ => ?_
  exact triple_below_of_generated inferInstance

theorem triple_edfsChdir (path83 : CString) :
    Triple (Lan.With root e) (edfsChdir host path83) fun _ => Lan.Below root := by
  unfold edfsChdir
  refine triple_getEdfs fun hcluster => ?_
  split
  · exact triple_with_below inferInstance
  case h_2 cluster path hfound =>
    refine triple_pathBelow (stays_of_clusterLookup83 hcluster hfound) fun tmpPath hbelow => ?_
    refine triple_seq (generated_hostPath_of_isBelow hbelow _) fun st => ?_
    split <;> exact triple_with_below inferInstance

theorem triple_edfsGetattr (path83 : CString) :
    Triple (Lan.With root e) (edfsGetattr host path83) fun _ => Lan.Below root := by
  unfold edfsGetattr
  refine triple_getEdfs fun hcluster => ?_
  split
  · exact triple_with_below inferInstance
  case h_2 cluster path hfound =>
    refine triple_pathBelow (stays_of_clusterLookup83 hcluster hfound) fun tmpPath hbelow => ?_
    refine triple_seq (generated_hostPath_of_isBelow hbelow _) fun st => ?_
    split <;> exact triple_with_below inferInstance

/-- RENAME passes the path of the registry and the new one, which stays if it is converted. -/
theorem triple_edfsRename (path83Src : CString) {path83Dst : CString}
    (hpath : (e.clusterLookup83 path83Src).isSome → e.Converts path83Dst) :
    Triple (Lan.With root e) (edfsRename host path83Src path83Dst) fun _ => Lan.Below root := by
  unfold edfsRename
  refine triple_getEdfs fun hcluster => ?_
  split
  · exact triple_with_below inferInstance
  case h_2 cluster src hfound =>
    have hconverts := hpath (by rw [hfound]; rfl)
    refine triple_edfsUnixpath hconverts fun path hstays hfits => ?_
    -- both paths stay: one is registered, the other is converted
    refine triple_pathBelow (stays_of_clusterLookup83 hcluster hfound) fun tmpSrc hsrc => ?_
    refine triple_seq (generated_note hsrc) fun _ => ?_
    refine triple_pathBelow hstays fun tmpDst hdst => ?_
    refine triple_seq (generated_hostPath_of_isBelow hdst _) fun ok => ?_
    refine .ite (fun _ => ?_) fun _ => triple_with_below inferInstance
    refine .bind (triple_with_of_below (triple_edfsClusterUnregister src)) fun _ => ?_
    refine .bind (triple_edfsClusterRegister hstays hfits hconverts.fits83) fun _ => ?_
    exact triple_below_of_generated inferInstance

theorem triple_edfsRead (offset : BitVec 32) (cluster len : Word) :
    Triple (Lan.With root e) (edfsRead host offset cluster len) fun _ => Lan.Below root := by
  unfold edfsRead
  refine triple_getEdfs fun hcluster => ?_
  split
  · exact triple_with_below inferInstance
  case h_2 path hfound =>
    refine .ite (fun _ => triple_with_below inferInstance) fun _ => ?_
    refine triple_pathBelow (stays_of_clusterLookup hcluster hfound) fun tmpPath hbelow => ?_
    refine triple_seq (generated_hostPath_of_isBelow hbelow _) fun file => ?_
    split <;> exact triple_with_below inferInstance

/-- A write is to a path of the registry, which stays below the root. -/
theorem triple_edfsWrite (offset : BitVec 32) (cluster : Word) (data : ℕ → Byte) (len : Word) :
    Triple (Lan.With root e) (edfsWrite host offset cluster data len) fun _ => Lan.Below root := by
  unfold edfsWrite
  refine triple_getEdfs fun hcluster => ?_
  split
  · exact triple_with_below inferInstance
  case h_2 path hfound =>
    -- the number is looked up, so the path is one of the registry
    refine triple_pathBelow (stays_of_clusterLookup hcluster hfound) fun tmpPath hbelow => ?_
    refine triple_seq (generated_hostPath_of_isBelow hbelow _) fun st => ?_
    split
    · exact triple_with_below inferInstance
    · refine .ite (fun _ => triple_with_below inferInstance) fun _ => ?_
      refine triple_seq (generated_hostPath_of_isBelow hbelow _) fun file => ?_
      split <;> exact triple_with_below inferInstance

/-! ### Opening -/

theorem triple_edfsOpenFile (path83 : CString) (attrib action cluster : Word) {path : CString}
    (hpath : Stays path) :
    Triple (Lan.With root e) (edfsOpenFile host path83 attrib action cluster path) fun _ =>
      Lan.Below root := by
  unfold edfsOpenFile
  refine triple_pathBelow hpath fun tmpPath hbelow => ?_
  refine triple_seq (generated_hostPath_of_isBelow hbelow _) fun st => ?_
  split
  · exact triple_with_below inferInstance
  · exact .ite (fun _ => triple_with_below inferInstance) fun _ => triple_with_below inferInstance

/-- `edfs_open` converts the path: of a file that is to be created or truncated. -/
def Edfs.OpenConverts (e : Edfs) (path83 : CString) (action : Word) : Prop :=
  match e.clusterLookup83 path83 with
  | none => action &&& 0xF0 = 0x10
  | some _ => action &&& 0x0F = 0x02

/-- So are the requests that open a file, if they create it with a path that is converted. -/
theorem triple_edfsOpen {path83 : CString} (attrib : Word) {action : Word}
    (hpath : e.OpenConverts path83 action → e.Converts path83) :
    Triple (Lan.With root e) (edfsOpen host path83 attrib action) fun _ => Lan.Below root := by
  unfold edfsOpen
  refine triple_getEdfs fun hcluster => ?_
  split
  case h_1 hfound =>
    refine .ite (fun haction => ?_) fun _ => triple_with_below inferInstance
    have hconverts := hpath (by rwa [Edfs.OpenConverts, hfound])
    refine triple_edfsUnixpath hconverts fun path hstays hfits => ?_
    refine triple_pathBelow hstays fun tmpPath hbelow => ?_
    refine triple_seq (generated_edfsTouch_of_isBelow host hbelow) fun ok => ?_
    refine .ite (fun _ => ?_) fun _ => triple_with_below inferInstance
    refine .bind (triple_with_of_below
      (triple_edfsClusterRegister hstays hfits hconverts.fits83)) fun _ => ?_
    -- the path is looked up again, in the registry after its registration
    refine triple_below fun e' => triple_getEdfs fun hcluster' => ?_
    split
    · exact triple_with_below inferInstance
    case h_2 hfound' =>
      exact triple_edfsOpenFile host path83 attrib action _
        (stays_of_clusterLookup83 hcluster' hfound')
  case h_2 cluster path hfound =>
    have hstays := stays_of_clusterLookup83 hcluster hfound
    refine .ite (fun haction => ?_) fun _ =>
      triple_edfsOpenFile host path83 attrib action cluster hstays
    have hconverts := hpath (by rwa [Edfs.OpenConverts, hfound])
    refine triple_edfsUnixpath hconverts fun unixpath hunixpath _ => ?_
    refine triple_pathBelow hunixpath fun tmpPath hbelow => ?_
    refine triple_seq (generated_edfsTouch_of_isBelow host hbelow) fun ok => ?_
    exact .ite (fun _ => triple_edfsOpenFile host path83 attrib action cluster hstays) fun _ =>
      triple_with_below inferInstance

/-! ### Searching -/

/-- `readdir` gives the names of entries, which have no slashes. -/
def Host.GivesNames (host : Host η) : Prop :=
  ∀ path h entries, (host.opendir path h).1 = some entries → ∀ name ∈ entries, slash ∉ name

/-- What is asked of an entry that is registered: it is not the entry `..` of the root, under
whatever path, and its paths fit their arrays. -/
structure EntryStays (dir name : CString) : Prop where
  stays : name = [dot, dot] → pathDepth dir ≠ some 0
  fits : (joinPath dir name).length < edfsPathMax
  fits83 : (unixpathToPath83 (joinPath dir name)).length < edfsPath83Max

/-- The loop registers entries that stay below the root. -/
theorem triple_edfsFindLoop {s : EdfsSearch} (hdir : Stays s.path) {entries : List CString}
    (hnames : ∀ name ∈ entries, slash ∉ name)
    (hentries : ∀ name ∈ entries, s.hides name = false → EntryStays s.path name) (pos : Word) :
    Triple (Lan.Below root) (edfsFindLoop host s entries pos) fun _ => Lan.Below root := by
  induction entries generalizing pos with
  | nil =>
    unfold edfsFindLoop
    exact triple_below_of_generated inferInstance
  | cons name rest ih =>
    obtain ⟨hname, hrest⟩ := List.forall_mem_cons.mp hnames
    obtain ⟨hentry, hentries⟩ := List.forall_mem_cons.mp hentries
    have hnext := fun pos => ih hrest hentries pos
    unfold edfsFindLoop
    refine .ite (fun _ => hnext pos) fun hshown => ?_
    have hstays := hentry (Bool.eq_false_iff.mpr hshown)
    have hpath := stays_joinPath hname hdir hstays.stays
    refine triple_below fun e => ?_
    refine triple_edfsRootPath (fun _ hl => hl) ?_
    rw [joinPath_joinPath]
    -- the host is asked about a path below the root
    refine triple_seq (generated_hostPath_of_isBelow ⟨_, rfl, hpath⟩ _) fun st => ?_
    have hnext' : ∀ pos, Triple (Lan.With root e) (edfsFindLoop host s rest pos) fun _ =>
        Lan.Below root := fun pos => triple_with_of_below (hnext pos)
    split
    · exact triple_with_below inferInstance
    refine .ite (fun _ => hnext' pos) fun _ => ?_
    refine .ite (fun _ => hnext' (pos + 1)) fun _ => ?_
    refine triple_seq inferInstance fun _ => ?_
    refine triple_seq (generated_note hstays.fits83) fun _ => ?_
    -- and that path is registered, with a name that fits
    refine .bind (triple_with_of_below
      (triple_edfsClusterRegister hpath hstays.fits hstays.fits83)) fun _ => ?_
    refine .bind (triple_below_of_generated (generated_note
      ((length_unixpathToPath83_le s.path name).trans_lt hstays.fits83))) fun _ => ?_
    refine .ite (fun _ => hnext (pos + 1)) fun _ => ?_
    refine .bind (triple_below_of_generated inferInstance) fun _ => ?_
    exact .ite (fun _ => triple_below_of_generated inferInstance) fun _ => hnext (pos + 1)

/-- The directory that `edfs_find` lists, with its cluster. -/
def Edfs.listed (e : Edfs) (pattern : CString) (cluster targetPos : Word) :
    Option (Word × CString) :=
  if targetPos = 0 then e.clusterLookup83 (path83Dirname pattern)
  else (e.clusterLookup cluster).map fun path => (cluster, path)

theorem stays_of_listed (hcluster : ∀ i, Stays (e.cluster i).path) {pattern : CString}
    {cluster targetPos : Word} {found : Word × CString}
    (hfound : e.listed pattern cluster targetPos = some found) : Stays found.2 := by
  unfold Edfs.listed at hfound
  split at hfound
  · exact stays_of_clusterLookup83 hcluster hfound
  · obtain ⟨path, hpath, rfl⟩ := Option.map_eq_some_iff.mp hfound
    exact stays_of_clusterLookup hcluster hpath

/-- What is asked of a search: the pattern fits its array, and the entries that are not hidden
may be registered. -/
structure SearchStays (host : Host η) (e : Edfs) (h : η) (attrib : Byte) (pattern : CString)
    (cluster targetPos : Word) : Prop where
  fits : attrib ≠ 0x08 → targetPos = 0 → pattern.length < edfsPath83Max
  entries : attrib ≠ 0x08 → ∀ found ∈ e.listed pattern cluster targetPos, ∀ entries,
    (host.opendir (joinPath e.root found.2) h).1 = some entries →
      ∀ name ∈ entries,
        (EdfsSearch.mk attrib pattern found.1 targetPos found.2).hides name = false →
          EntryStays found.2 name

/-- The directory of a search is the one that the specification names, with a pattern that fits. -/
theorem triple_at_listed {pattern : CString} {cluster targetPos : Word}
    (hfits : targetPos = 0 → pattern.length < edfsPath83Max) :
    Triple (Lan.At root e h)
      (if targetPos = 0 then edfsDirLookup pattern
        else pure ((e.clusterLookup cluster).map fun path => (cluster, path)) : N η _)
      fun found l => found = e.listed pattern cluster targetPos ∧ l.At root e h := by
  refine .ite (fun hpos => ?_) fun hpos => ?_
  · rw [Edfs.listed, if_pos hpos]
    unfold edfsDirLookup
    -- the pattern is copied into an array of the stack
    have hevent : NetEvent.Contained root (.buffer edfsPath83Max pattern.length) := hfits hpos
    refine (triple_at_note hevent).bind fun _ => ?_
    refine triple_getEdfs_of (fun _ hl => hl.toWith) fun _ _ => ?_
    exact .ret fun l hl => ⟨rfl, hl⟩
  · rw [Edfs.listed, if_neg hpos]
    exact .ret fun l hl => ⟨rfl, hl⟩

/-- A search passes the directory and its entries to the host, which stay below the root. -/
theorem triple_edfsFind (hnames : host.GivesNames) {attrib : Byte} {pattern : CString}
    {cluster targetPos : Word} (hsearch : SearchStays host e h attrib pattern cluster targetPos) :
    Triple (Lan.At root e h) (edfsFind host attrib pattern cluster targetPos) fun _ =>
      Lan.Below root := by
  have hfail : ∀ code : Word, Triple (Lan.At root e h) (edfsFail code : N η Word) fun _ =>
      Lan.Below root := fun code =>
    (triple_at_of_generated inferInstance).post fun _ _ hl => hl.toBelow
  unfold edfsFind
  refine .ite (fun _ => hfail _) fun hattrib => ?_
  refine triple_getEdfs_of (fun _ hl => hl.toWith) fun hroot hcluster => ?_
  refine (triple_at_listed (hsearch.fits hattrib)).bind fun found => .of_and fun hfound => ?_
  split
  · exact hfail _
  case h_2 cluster path =>
    -- the directory is registered, so that it stays
    have hpath := stays_of_listed hcluster hfound.symm
    refine triple_edfsRootPath (fun _ hl => hl.toWith) ?_
    refine (triple_at_hostPath ⟨_, rfl, hpath⟩ _).bind fun entries => .of_and fun hopendir => ?_
    split
    · exact triple_with_below inferInstance
    case h_2 entries =>
      subst hroot
      -- what is listed is what the hypothesis on the entries is about
      have hentries := hsearch.entries hattrib _ hfound.symm entries hopendir.symm
      exact triple_with_of_below
        (triple_edfsFindLoop host hpath (hnames _ _ _ hopendir.symm) hentries 0)

/-! ### Requests -/

/-- The path argument at an offset of a frame, when there is one. -/
def framePath (tx : ℕ → Byte) (txLen offset : ℕ) : Option CString :=
  if txLen < offset ∨ txLen - offset ≥ pathMax then none
  else some (cStringOf ((List.range (txLen - offset)).map fun k => tx (offset + k)))

/-- Two bytes of a frame, least significant first. -/
def txWordLE (tx : ℕ → Byte) (i : ℕ) : Word := wordOf (tx i) (tx (i + 1))

section Arguments

variable {α : Type} {Q : Option α → Lan η → Prop}

theorem triple_at_readTxWordLE (tx : ℕ → Byte) (i : ℕ) :
    Triple (Lan.At root e h) (readTxWordLE tx i : N η Word) fun word l =>
      word = txWordLE tx i ∧ l.At root e h := by
  unfold readTxWordLE
  refine (triple_at_readTx tx i).bind fun lo => .of_and fun hlo => ?_
  refine (triple_at_readTx tx (i + 1)).bind fun hi => .of_and fun hhi => ?_
  rw [hlo, hhi]
  exact .ret fun l hl => ⟨rfl, hl⟩

theorem triple_at_readTxWord (tx : ℕ → Byte) (i : ℕ) :
    Triple (Lan.At root e h) (readTxWord tx i : N η Word) fun word l =>
      word = txWord tx i ∧ l.At root e h := by
  unfold readTxWord
  refine (triple_at_readTx tx i).bind fun hi => .of_and fun hhi => ?_
  refine (triple_at_readTx tx (i + 1)).bind fun lo => .of_and fun hlo => ?_
  rw [hhi, hlo]
  exact .ret fun l hl => ⟨rfl, hl⟩

/-- A path that is read is the one that `framePath` gives. -/
theorem triple_at_edfsPath (tx : ℕ → Byte) (txLen offset : ℕ) :
    Triple (Lan.At root e h) (edfsPath tx txLen offset : N η (Option (Option CString)))
      fun r l => (∀ path, r = some (some path) → framePath tx txLen offset = some path) ∧
        l.At root e h := by
  have hevent : (NetEvent.edfsPath offset txLen).Contained root := trivial
  have hcrash : NetEvent.crash.Contained root := trivial
  unfold edfsPath
  refine (triple_at_note hevent).bind fun _ => ?_
  -- beyond the frame, too long, or a path
  refine .ite (fun _ => ?_) fun hoffset => .ite (fun _ => ?_) fun hlen => ?_
  · exact (triple_at_note hcrash).bind fun _ => .ret fun l hl => ⟨nofun, hl⟩
  · exact .ret fun l hl => ⟨nofun, hl⟩
  · refine .ret fun l hl => ⟨fun path hpath => ?_, hl⟩
    rw [framePath, if_neg (not_or.mpr ⟨hoffset, hlen⟩)]
    exact Option.some.inj hpath

/-- The operation runs on the path of the frame, or not at all. -/
theorem triple_edfsWithPath {tx : ℕ → Byte} {txLen offset : ℕ} {operation : CString → N η α}
    (hop : ∀ path ∈ framePath tx txLen offset,
      Triple (Lan.At root e h) (operation path) fun a => Q (some a))
    (hnone : ∀ l : Lan η, l.At root e h → Q none l) :
    Triple (Lan.At root e h) (edfsWithPath tx txLen offset operation) Q := by
  have hcrash : NetEvent.crash.Contained root := trivial
  unfold edfsWithPath
  refine (triple_at_edfsPath tx txLen offset).bind fun r => .of_and fun hr => ?_
  split
  · exact .ret hnone
  · exact (triple_at_note hcrash).bind fun _ => .ret hnone
  case h_3 path => exact (hop path (hr path rfl)).bind fun a => .ret fun _ hl => hl

/-- An operation for which the state of the host does not matter. -/
theorem triple_edfsWithPath_below {tx : ℕ → Byte} {txLen offset : ℕ}
    {operation : CString → N η α}
    (hop : ∀ path ∈ framePath tx txLen offset,
      Triple (Lan.With root e) (operation path) fun _ => Lan.Below root) :
    Triple (Lan.At root e h) (edfsWithPath tx txLen offset operation) fun _ => Lan.Below root :=
  triple_edfsWithPath (fun path hpath => (hop path hpath).pre fun _ hl => hl.toWith)
    fun _ hl => hl.toBelow

end Arguments

/-- What is asked of a request, for the functions that pass to the host what is not in the
registry: they convert a path of the guest, or list a directory. -/
structure RequestStays (host : Host η) (tx : ℕ → Byte) (txLen : ℕ) (e : Edfs) (h : η) : Prop where
  mkdir : tx 0x3B = edfsFuncMkdir → ∀ path ∈ framePath tx txLen 0x3C, e.Converts path
  create : tx 0x3B = edfsFuncCreate → ∀ path ∈ framePath tx txLen 0x42,
    e.OpenConverts path 0x0012 → e.Converts path
  spopnfil : tx 0x3B = edfsFuncSpopnfil → ∀ path ∈ framePath tx txLen 0x42,
    e.OpenConverts path (txWordLE tx 0x3E) → e.Converts path
  rename : tx 0x3B = edfsFuncRename → ∀ dst ∈ framePath tx txLen (0x3D + (tx 0x3C).toNat),
    ∀ src ∈ framePath tx (0x3D + (tx 0x3C).toNat) 0x3D,
      (e.clusterLookup83 src).isSome → e.Converts dst
  findfirst : tx 0x3B = edfsFuncFindfirst → ∀ pattern ∈ framePath tx txLen 0x3D,
    SearchStays host e h (tx 0x3C) pattern 0 0
  findnext : tx 0x3B = edfsFuncFindnext → ∀ pattern ∈ framePath tx txLen 0x41,
    SearchStays host e h (tx 0x40) pattern (txWordLE tx 0x3C) (txWordLE tx 0x3E)

/-- OPEN neither creates nor truncates. -/
theorem not_openConverts_open (e : Edfs) (path83 : CString) : ¬ e.OpenConverts path83 0x0001 := by
  unfold Edfs.OpenConverts
  split <;> decide

/-- No request passes a path from outside of the root to the host, if the paths of the frame are
converted. -/
theorem triple_edfsDispatch (hnames : host.GivesNames) {tx : ℕ → Byte} {txLen : Word}
    (hrequest : RequestStays host tx txLen.toNat e h) :
    Triple (Lan.At root e h) (edfsDispatch host tx txLen (tx 0x3B)) fun _ => Lan.Below root := by
  -- these functions pass no path of the frame to the host
  have hquiet : ∀ {α : Type} {x : N η α}, Generated (ContainedAction root) x →
      Triple (Lan.At root e h) x fun _ => Lan.Below root := fun hx =>
    (triple_at_of_generated hx).post fun _ _ hl => hl.toBelow
  apply edfsDispatch_cases (motive := fun x => Triple (Lan.At root e h) x fun _ => Lan.Below root)
  case rmdir =>
    intro _
    exact triple_edfsWithPath_below fun path _ => triple_edfsRemove _ _ path
  case mkdir =>
    intro hfunc
    exact triple_edfsWithPath_below fun path hpath =>
      triple_edfsMkdir host (hrequest.mkdir hfunc path hpath)
  case chdir =>
    intro _
    exact triple_edfsWithPath_below fun path _ => triple_edfsChdir host path
  case closefile => exact fun _ => hquiet inferInstance
  case readfile =>
    intro _
    refine (triple_at_of_generated inferInstance).bind fun offset => ?_
    refine triple_seq inferInstance fun cluster => triple_seq inferInstance fun size => ?_
    exact (triple_edfsRead host offset cluster size).bind fun len => .ret fun _ hl => hl
  case writefile =>
    intro _
    refine (triple_at_of_generated inferInstance).bind fun offset => ?_
    refine triple_seq inferInstance fun cluster => ?_
    exact (triple_edfsWrite host offset cluster _ _).bind fun len => .ret fun _ hl => hl
  case diskspace => exact fun _ => hquiet inferInstance
  case setattr =>
    intro _
    refine (triple_at_readTx tx 0x3C).bind fun _ => .of_and fun _ => ?_
    refine (triple_at_edfsPath tx txLen.toNat 0x3D).bind fun path => .of_and fun _ => ?_
    split <;> exact hquiet inferInstance
  case getattr =>
    intro _
    exact triple_edfsWithPath_below fun path _ => triple_edfsGetattr host path
  case findfirst =>
    intro hfunc
    refine (triple_at_readTx tx 0x3C).bind fun attrib => .of_and fun hattrib => ?_
    refine triple_edfsWithPath (fun path hpath => ?_) fun _ hl => hl.toBelow
    rw [hattrib]
    exact triple_edfsFind host hnames (hrequest.findfirst hfunc path hpath)
  case findnext =>
    intro hfunc
    refine (triple_at_readTxWordLE tx 0x3C).bind fun cluster => .of_and fun hcluster => ?_
    refine (triple_at_readTxWordLE tx 0x3E).bind fun pos => .of_and fun hpos => ?_
    refine (triple_at_readTx tx 0x40).bind fun attrib => .of_and fun hattrib => ?_
    refine triple_edfsWithPath (fun path hpath => ?_) fun _ hl => hl.toBelow
    rw [hcluster, hpos, hattrib]
    exact triple_edfsFind host hnames (hrequest.findnext hfunc path hpath)
  case rename =>
    intro hfunc
    refine (triple_at_readTx tx 0x3C).bind fun srcLen => .of_and fun hsrcLen => ?_
    rw [hsrcLen]
    -- the second path of the frame comes first, and only with it the first one is looked at
    have hdst : Triple (Lan.At root e h)
        (edfsWithPath tx txLen.toNat (0x3D + (tx 0x3C).toNat) (pure ·) : N η (Option CString))
        fun dst l => (∀ path, dst = some path →
          framePath tx txLen.toNat (0x3D + (tx 0x3C).toNat) = some path) ∧ l.At root e h :=
      triple_edfsWithPath (fun path hpath => .ret fun l hl => ⟨fun _ heq => heq ▸ hpath, hl⟩)
        fun l hl => ⟨nofun, hl⟩
    refine hdst.bind fun dst => .of_and fun hframe => ?_
    split
    · exact hquiet inferInstance
    case h_2 dst =>
      exact triple_edfsWithPath_below fun src hsrc =>
        triple_edfsRename host src (hrequest.rename hfunc dst (hframe dst rfl) src hsrc)
  case delete =>
    intro _
    exact triple_edfsWithPath_below fun path _ => triple_edfsRemove _ _ path
  case openfile =>
    intro _
    refine (triple_at_readTxWordLE tx 0x3C).bind fun attrib => .of_and fun _ => ?_
    exact triple_edfsWithPath_below fun path _ =>
      triple_edfsOpen host attrib fun hopen => absurd hopen (not_openConverts_open e path)
  case create =>
    intro hfunc
    refine (triple_at_readTxWordLE tx 0x3C).bind fun _ => .of_and fun _ => ?_
    exact triple_edfsWithPath_below fun path hpath =>
      triple_edfsOpen host 0x0002 (hrequest.create hfunc path hpath)
  case spopnfil =>
    intro hfunc
    refine (triple_at_readTxWordLE tx 0x3C).bind fun _ => .of_and fun _ => ?_
    refine (triple_at_readTxWordLE tx 0x3E).bind fun action => .of_and fun haction => ?_
    refine (triple_at_readTxWordLE tx 0x40).bind fun mode => .of_and fun _ => ?_
    rw [haction]
    exact triple_edfsWithPath_below fun path hpath =>
      triple_edfsOpen host mode (hrequest.spopnfil hfunc path hpath)
  case other => exact fun _ => hquiet inferInstance

/-- The frame is a request that `edfs_handle_packet` takes apart. -/
def IsRequest (tx : ℕ → Byte) : Prop := txWord tx 0x0C = ethertypeEdfs ∧ tx 0x38 &&& 0x7F = 2

/-- Nor does a packet, which is a request or is dropped. -/
theorem triple_edfsHandlePacket (hnames : host.GivesNames) {tx : ℕ → Byte} {txLen : Word}
    (hrequest : tx 0x38 &&& 0x7F = 2 → RequestStays host tx txLen.toNat e h) :
    Triple (Lan.At root e h) (edfsHandlePacket host tx txLen) fun _ => Lan.Below root := by
  unfold edfsHandlePacket
  refine triple_getEdfs_of (fun _ hl => hl.toWith) fun _ _ => ?_
  refine .ite (fun _ => ?_) fun _ => .ret fun _ hl => hl.toBelow
  refine (triple_at_readTx tx 0x38).bind fun ver => .of_and fun hver => ?_
  refine (triple_at_readTx tx 0x3B).bind fun func => .of_and fun hfunc => ?_
  rw [hver, hfunc]
  refine .ite (fun _ => ?_) fun hversion => ?_
  · exact (triple_at_of_generated inferInstance).post fun _ _ hl => hl.toBelow
  · refine (triple_edfsDispatch host hnames (hrequest (not_not.mp hversion))).bind fun rxLen => ?_
    split
    · exact .ret fun _ hl => hl
    -- the header of the reply reaches neither the host nor the registry
    · refine triple_below_of_generated ?_
      repeat' first
        | with_reducible refine .seq _ _ ?_ fun _ => ?_
        | exact generated_modifyNet fun _ => rfl
        | exact generated_note trivial
        | infer_instance

theorem triple_netTxFrame (hnames : host.GivesNames) {tx : ℕ → Byte} {txLen : Word}
    (hrequest : IsRequest tx → RequestStays host tx txLen.toNat e h) :
    Triple (Lan.At root e h) (netTxFrame host tx txLen) fun _ => Lan.Below root := by
  unfold netTxFrame
  refine (triple_at_readTxWord tx 0x0C).bind fun ethertype => .of_and fun hethertype => ?_
  refine .ite (fun _ => ?_) fun _ => .ite (fun _ => ?_) fun _ => .ite (fun hedfs => ?_) fun _ => ?_
  case refine_3 =>
    exact triple_edfsHandlePacket host hnames fun hversion =>
      hrequest ⟨hethertype.symm.trans hedfs, hversion⟩
  all_goals exact (triple_at_of_generated inferInstance).post fun _ _ hl => hl.toBelow

/-! ### Runs -/

/-- What is asked of a step: its frame, when it is a request, stays below the root. -/
def StepStays (l : Lan η) : LanStep → Prop
  | .transmit tx txLen => IsRequest tx → RequestStays host tx txLen.toNat l.edfs l.host
  | .poll | .taken => True

theorem below_lanAfter (hnames : host.GivesNames) {l : Lan η} (hl : l.Below root) {s : LanStep}
    (hs : StepStays host l s) : (lanAfter host l s).Below root := by
  cases s with
  | transmit tx txLen => exact triple_netTxFrame host hnames hs l ⟨⟨hl, rfl⟩, rfl⟩
  | poll => exact triple_below_of_generated (generated_netExecute host) l hl
  | taken => exact ⟨hl.edfsRoot, hl.cluster, hl.log⟩

theorem below_lanInit (root : CString) (h : η) : (lanInit (edfsInit root) h).Below root :=
  ⟨rfl, fun _ => stays_nil, nofun⟩

theorem isBelow_joinPath {path : CString} : IsBelow root (joinPath root path) ↔ Stays path := by
  constructor
  · rintro ⟨path', heq, hstays⟩
    have hpath : path = path' := (List.cons.inj (List.append_cancel_left heq)).2
    rwa [hpath]
  · exact fun hstays => ⟨path, rfl, hstays⟩

/-- A request with the given arguments. -/
def edfsFrame (func : Byte) (arguments : List Byte) (i : ℕ) : Byte :=
  if i = 0x0C then 0xED else if i = 0x0D then 0xF5 else if i = 0x38 then 0x02
  else if i = 0x3B then func else arguments.getD (i - 0x3C) 0

/-- The guest transmits a request with the given arguments. -/
def edfsRequest (func : Byte) (arguments : List Byte) : LanStep :=
  .transmit (edfsFrame func arguments) (BitVec.ofNat 16 (0x3C + arguments.length))

/-- The frame is a request of EtherDFS, by its ethertype and its version. -/
theorem isRequest_edfsFrame (func : Byte) (arguments : List Byte) :
    IsRequest (edfsFrame func arguments) := by
  have hhi : edfsFrame func arguments 0x0C = 0xED := if_pos rfl
  have hlo : edfsFrame func arguments (0x0C + 1) = 0xF5 := by
    rw [edfsFrame, if_neg (by decide), if_pos rfl]
  have hversion : edfsFrame func arguments 0x38 = 0x02 := by
    rw [edfsFrame, if_neg (by decide), if_neg (by decide), if_pos rfl]
  constructor
  · rw [txWord, hhi, hlo]
    decide
  · rw [hversion]
    decide

theorem edfsFrame_func (func : Byte) (arguments : List Byte) :
    edfsFrame func arguments 0x3B = func := by
  rw [edfsFrame, if_neg (by decide), if_neg (by decide), if_neg (by decide), if_pos rfl]

/-- The arguments stand behind the function. -/
theorem edfsFrame_argument (func : Byte) (arguments : List Byte) (k : ℕ) :
    edfsFrame func arguments (0x3C + k) = arguments.getD k 0 := by
  rw [edfsFrame, if_neg (by omega), if_neg (by omega), if_neg (by omega), if_neg (by omega),
    Nat.add_sub_cancel_left]

/-- The arguments of a request fit its length. -/
theorem toNat_txLen (arguments : List Byte) (h : arguments.length < 0xFF00) :
    (BitVec.ofNat 16 (0x3C + arguments.length)).toNat = 0x3C + arguments.length := by
  rw [BitVec.toNat_ofNat, Nat.mod_eq_of_lt]
  omega

/-- The argument at the end of a request is its path. -/
theorem framePath_edfsFrame (func : Byte) (before : List Byte) (path : CString)
    (hlen : path.length < pathMax) (hnul : (0 : Byte) ∉ path) :
    framePath (edfsFrame func (before ++ path)) (0x3C + (before ++ path).length)
      (0x3C + before.length) = some path := by
  have hrest : 0x3C + (before ++ path).length - (0x3C + before.length) = path.length := by
    rw [List.length_append]
    omega
  -- the bytes behind the arguments are those of the path
  have hbytes : ((List.range path.length).map fun k =>
      edfsFrame func (before ++ path) (0x3C + before.length + k)) = path := by
    refine List.ext_getElem (by rw [List.length_map, List.length_range]) fun k _ hk => ?_
    rw [List.getElem_map, List.getElem_range, Nat.add_assoc, edfsFrame_argument,
      List.getD_eq_getElem?_getD,
      List.getElem?_append_right (Nat.le_add_right ..), Nat.add_sub_cancel_left,
      List.getElem?_eq_getElem hk, Option.getD_some]
  -- the path has no NUL, so that the string is all of it
  rw [framePath, if_neg (by rw [List.length_append]; omega), hrest, hbytes, cStringOf,
    List.takeWhile_eq_self_iff.mpr]
  intro c hc
  exact decide_eq_true fun hzero => hnul (hzero ▸ hc)

/-- A host on which every directory has the one entry `A`, which is a directory. -/
def nestedHost : Host Unit :=
  { failingHost with
    opendir := fun _ h => (some [[dot], [dot, dot], [0x41]], h)
    stat := fun _ h => (some { isDir := true, isReg := false, mtime := 0, size := 0 }, h) }

theorem givesNames_nestedHost : nestedHost.GivesNames := by
  intro path h entries hopendir
  cases hopendir
  decide

/-- The root `/r` is listed, for the pattern `\Z`, and `\A\B` is made. -/
def listThenMake : List LanStep :=
  [edfsRequest edfsFuncFindfirst [0x10, 0x5C, 0x5A],
    edfsRequest edfsFuncMkdir [0x5C, 0x41, 0x5C, 0x42]]

/-- Both requests meet the hypothesis: of the entries listed only `A` is shown, and `\A\B` is
converted below it. -/
theorem stepStays_listThenMake :
    Along (lanAfter nestedHost) (StepStays nestedHost) (lanInit (edfsInit [0x2F, 0x72]) ())
      listThenMake := by
  refine ⟨fun _ => ?_, fun _ => ?_, trivial⟩
  · refine ⟨nofun, nofun, nofun, nofun, fun _ pattern hpattern => ?_, nofun⟩
    have hframe : framePath (edfsFrame edfsFuncFindfirst [0x10, 0x5C, 0x5A]) 63 0x3D =
        some [0x5C, 0x5A] := by decide
    cases hframe.symm.trans hpattern
    refine ⟨fun _ _ => by decide, fun _ found hfound entries hopendir name hname hshown => ?_⟩
    cases hfound
    cases hopendir
    -- `.` and `..` of the root are not shown
    have hentry : name = [0x41] := by
      rcases List.mem_cons.mp hname with rfl | hname
      · exact absurd hshown (by decide)
      · rcases List.mem_cons.mp hname with rfl | hname
        · exact absurd hshown (by decide)
        · exact List.mem_singleton.mp hname
    rw [hentry]
    exact ⟨nofun, by decide, by decide⟩
  · refine ⟨fun _ path hpath => ?_, nofun, nofun, nofun, nofun, nofun⟩
    have hframe : framePath (edfsFrame edfsFuncMkdir [0x5C, 0x41, 0x5C, 0x42]) 64 0x3C =
        some [0x5C, 0x41, 0x5C, 0x42] := by decide
    cases hframe.symm.trans hpath
    exact ⟨by decide, by decide +kernel, by decide +kernel⟩

/-- **Host paths below the root.** In a run from `edfs_init` whose requests neither ask for a
path that climbs above the root nor list the root by another path, every path that is passed to
the host stays below the root, and every string fits its array. -/
theorem hostPaths_below (hnames : host.GivesNames) (root : CString) (h : η)
    {steps : List LanStep}
    (hsteps : Along (lanAfter host) (StepStays host) (lanInit (edfsInit root) h) steps) :
    let l := runAll (lanAfter host) (lanInit (edfsInit root) h) steps
    (∀ path, .hostPath path ∈ l.log → IsBelow root path) ∧
      ∀ capacity len, .buffer capacity len ∈ l.log → len < capacity := by
  have hl := runAll_keeps (I := Lan.Below root)
    (fun _ _ hl hs => below_lanAfter host hnames hl hs) (below_lanInit root h) hsteps
  exact ⟨fun path => hl.log (.hostPath path), fun capacity len => hl.log (.buffer capacity len)⟩

/-- Listing the root and making a directory in one of its directories stays below the root. -/
theorem hostPaths_below_listThenMake :
    let l := runAll (lanAfter nestedHost) (lanInit (edfsInit [0x2F, 0x72]) ()) listThenMake
    (∀ path, .hostPath path ∈ l.log → IsBelow [0x2F, 0x72] path) ∧
      ∀ capacity len, .buffer capacity len ∈ l.log → len < capacity :=
  hostPaths_below nestedHost givesNames_nestedHost [0x2F, 0x72] () stepStays_listThenMake

/-- `\..\X` is made. -/
def makeAbove : List LanStep := [edfsRequest edfsFuncMkdir [0x5C, 0x2E, 0x2E, 0x5C, 0x58]]

/-- The host is passed a path above the root. -/
theorem hostPath_above : ¬ ∀ (η : Type) (host : Host η), host.GivesNames →
    ∀ (root : CString) (h : η) (steps : List LanStep) (path : CString),
      .hostPath path ∈ (runAll (lanAfter host) (lanInit (edfsInit root) h) steps).log →
        IsBelow root path := by
  intro hall
  have hmem : .hostPath (joinPath [0x2F, 0x72] [0x2F, 0x2E, 0x2E, 0x2F, 0x58]) ∈
      (runAll (lanAfter nestedHost) (lanInit (edfsInit [0x2F, 0x72]) ()) makeAbove).log := by
    decide +kernel
  have hbelow := hall Unit nestedHost givesNames_nestedHost _ _ _ _ hmem
  exact absurd (isBelow_joinPath.mp hbelow) (by decide)

/-- The root, its directory `A` and the entry `..` of `A` are listed, for the pattern `Z`. -/
def listAbove : List LanStep :=
  [edfsRequest edfsFuncFindfirst [0x10, 0x5C, 0x5A],
    edfsRequest edfsFuncFindfirst [0x10, 0x5C, 0x41, 0x5C, 0x5A],
    edfsRequest edfsFuncFindfirst [0x10, 0x5C, 0x41, 0x5C, 0x2E, 0x2E, 0x5C, 0x5A]]

-- `/r//A/../..` is passed to the host
example : .hostPath (joinPath [0x2F, 0x72] [0x2F, 0x41, 0x2F, 0x2E, 0x2E, 0x2F, 0x2E, 0x2E]) ∈
    (runAll (lanAfter nestedHost) (lanInit (edfsInit [0x2F, 0x72]) ()) listAbove).log := by
  decide +kernel

end Pc20iii
