import Pc20iii.Edfs.Enumerate
import Pc20iii.Edfs.Requests

/-!
# Files by their 8.3 names

The registry is searched by host path when a path is registered, and by 8.3 name when the guest
asks for a file. An 8.3 name is shorter than the path that it was made of, so two paths may have
one name, and the first of them is then found for both.

* `Edfs.Finds`: an entry is what its 8.3 name is looked up to.
* `finds_iff_distinct`: all entries are, exactly if no two have one name and none has a name of
  the root.
* `distinct_change_iff`: which changes keep it that way.
* `names_found_iff`: the same over runs of the network, and what the requests for a file that
  is found act on. A file that is truncated is not looked up in the registry a second time: its
  path is converted back from the name.
-/

namespace Pc20iii

open StateProgram

variable {η : Type} (host : Host η) {e : Edfs}

/-! ### Lookups by name -/

/-- A name of the root, which is not looked up in the registry. -/
def IsRootName (path83 : CString) : Prop := path83 = [] ∨ path83 = [backslash]

namespace Edfs

theorem clusterLookup83_of_isRootName {path83 : CString} (h : IsRootName path83) :
    e.clusterLookup83 path83 = some (0, []) :=
  if_pos h

theorem clusterLookup83_of_not {path83 : CString} (h : ¬ IsRootName path83) :
    e.clusterLookup83 path83 =
      (e.findCluster fun entry => entry.path83 = path83).map fun cluster =>
        (BitVec.ofNat 16 cluster, (e.cluster cluster).path) :=
  if_neg h

theorem clusterLookup83_eq_none {path83 : CString} :
    e.clusterLookup83 path83 = none ↔
      ¬ IsRootName path83 ∧ ∀ i < e.clusterUsed, (e.cluster i).path83 ≠ path83 := by
  by_cases hroot : IsRootName path83
  · rw [clusterLookup83_of_isRootName hroot]
    exact iff_of_false nofun fun h => h.1 hroot
  · rw [clusterLookup83_of_not hroot, and_iff_right hroot, Option.map_eq_none_iff]
    simp only [findCluster, List.find?_eq_none, List.mem_range, decide_eq_true_eq, ne_eq]

/-- An entry that is appended is found by its 8.3 name, if none before it has the same. -/
theorem Appends.clusterLookup83 {path path83 : CString} {e' : Edfs}
    (happends : e.Appends path path83 e') (hname : ¬ IsRootName path83)
    (hbefore : ∀ j < e.clusterUsed, (e.cluster j).path83 ≠ path83) :
    e'.clusterLookup83 path83 = some (BitVec.ofNat 16 e.clusterUsed, path) := by
  have hused := happends.used
  have hfind : (e'.findCluster fun entry => entry.path83 = path83) = some e.clusterUsed := by
    refine findCluster_eq_some.mpr ⟨by omega, ?_, fun j hj => ?_⟩
    · rw [happends.self]
      exact decide_eq_true rfl
    · rw [happends.other j (Nat.ne_of_lt hj)]
      exact decide_eq_false (hbefore j hj)
  rw [clusterLookup83_of_not hname, hfind, Option.map_some, happends.self]

/-- An entry is what its 8.3 name is looked up to. -/
def Finds (e : Edfs) (i : ℕ) : Prop :=
  (e.clusterLookup83 (e.cluster i).path83).map Prod.snd = some (e.cluster i).path

/-- No two entries have one 8.3 name, and none has a name of the root. -/
structure Distinct (e : Edfs) : Prop where
  notRoot : ∀ {i}, e.Live i → ¬ IsRootName (e.cluster i).path83
  unique : ∀ {i j}, e.Live i → e.Live j → (e.cluster i).path83 = (e.cluster j).path83 → i = j

/-- An entry that is in use and has a name of its own is live. -/
theorem WellFormed.live_of_path83 (h : e.WellFormed) {i : ℕ} (hi : i < e.clusterUsed)
    (hname : ¬ IsRootName (e.cluster i).path83) : e.Live i :=
  ⟨hi, fun hpath => hname (.inl (h.dead i hpath))⟩

/-- **Entries are found by their names** exactly if the names are distinct. -/
theorem finds_iff_distinct (h : e.WellFormed) : (∀ i, e.Live i → e.Finds i) ↔ e.Distinct := by
  constructor
  · intro hfinds
    constructor
    · intro i hi hroot
      have hfind := hfinds i hi
      rw [Finds, clusterLookup83_of_isRootName hroot] at hfind
      exact hi.path (Option.some.inj hfind).symm
    · intro i j hi hj hname
      -- one name is looked up to one path
      have hpath : some (e.cluster i).path = some (e.cluster j).path := by
        rw [← hfinds i hi, ← hfinds j hj, hname]
      exact h.unique hi hj (Option.some.inj hpath)
  · intro hdistinct i hi
    have hname := hdistinct.notRoot hi
    rw [Finds, clusterLookup83_of_not hname]
    cases hfound : e.findCluster fun entry => entry.path83 = (e.cluster i).path83 with
    | none =>
      rw [findCluster, List.find?_eq_none] at hfound
      exact absurd (decide_eq_true rfl) (hfound i (List.mem_range.mpr hi.lt))
    | some k =>
      obtain ⟨hk, hkname, -⟩ := findCluster_eq_some.mp hfound
      have hkname : (e.cluster k).path83 = (e.cluster i).path83 := of_decide_eq_true hkname
      have hklive := h.live_of_path83 hk (hkname.symm ▸ hname)
      rw [hdistinct.unique hklive hi hkname]
      rfl

/-! ### Changes -/

/-- `register` has something to do. -/
def Adds (e : Edfs) (path : CString) : Prop :=
  e.index path = none ∧ e.clusterUsed < edfsClusterMax

/-- The 8.3 name is not one of the root and not that of another entry, if it is registered. -/
def Fresh (e : Edfs) (path path83 : CString) : Prop :=
  e.Adds path → ¬ IsRootName path83 ∧ ∀ i, e.Live i → (e.cluster i).path83 ≠ path83

/-- With a new entry, this one is live and those that were. -/
theorem Appends.live_iff {path path83 : CString} {e' : Edfs} (h : e.WellFormed)
    (happends : e.Appends path path83 e') {i : ℕ} :
    e'.Live i ↔ i = e.clusterUsed ∨ e.Live i := by
  have hused := happends.used
  by_cases hi : i = e.clusterUsed
  -- the new path is not that of the root, so its entry is live
  · have hpath : path ≠ [] := fun heq => happends.new 0 h.pos (h.root.trans heq.symm)
    refine iff_of_true ⟨by omega, ?_⟩ (.inl hi)
    rw [hi, happends.self]
    exact hpath
  · rw [or_iff_right hi]
    constructor
    · rintro ⟨hlt, hpath⟩
      exact ⟨by omega, happends.other i hi ▸ hpath⟩
    · rintro ⟨hlt, hpath⟩
      exact ⟨by omega, (happends.other i hi).symm ▸ hpath⟩

/-- Registering keeps the names distinct exactly if the new one is fresh. -/
theorem distinct_register_iff (h : e.WellFormed) (path path83 : CString) :
    (e.register path path83).Distinct ↔ e.Distinct ∧ e.Fresh path path83 := by
  rcases register_cases e path path83 with ⟨hskip, heq⟩ | happends
  · -- nothing is registered, and nothing is asked of the name
    have hadds : ¬ e.Adds path := by
      rintro ⟨hindex, hroom⟩
      rcases hskip with hskip | hskip
      · rw [hindex] at hskip
        cases hskip
      · omega
    have hfresh : e.Fresh path path83 := fun hadd => absurd hadd hadds
    rw [heq, and_iff_left hfresh]
  · have hadds : e.Adds path := ⟨index_eq_none.mpr happends.new, happends.room⟩
    have hother : ∀ {i}, e.Live i → (e.register path path83).cluster i = e.cluster i :=
      fun hi => happends.other _ (Nat.ne_of_lt hi.lt)
    have hlive : ∀ {i}, e.Live i → (e.register path path83).Live i :=
      fun hi => (happends.live_iff h).mpr (.inr hi)
    have hself : (e.register path path83).Live e.clusterUsed := (happends.live_iff h).mpr (.inl rfl)
    -- the entries are those from before and the last one
    constructor
    · intro hdistinct
      refine ⟨⟨fun hi => ?_, fun hi hj heq => ?_⟩, fun _ => ⟨?_, fun i hi heq => ?_⟩⟩
      · rw [← hother hi]
        exact hdistinct.notRoot (hlive hi)
      · rw [← hother hi, ← hother hj] at heq
        exact hdistinct.unique (hlive hi) (hlive hj) heq
      · have hroot := hdistinct.notRoot hself
        rwa [happends.self] at hroot
      · have hname : ((e.register path path83).cluster i).path83 =
            ((e.register path path83).cluster e.clusterUsed).path83 := by
          rw [hother hi, happends.self, heq]
        exact Nat.ne_of_lt hi.lt (hdistinct.unique (hlive hi) hself hname)
    · rintro ⟨hdistinct, hfresh⟩
      obtain ⟨hroot, hnew⟩ := hfresh hadds
      constructor
      · intro i hi
        rcases (happends.live_iff h).mp hi with rfl | hi
        · rw [happends.self]
          exact hroot
        · rw [hother hi]
          exact hdistinct.notRoot hi
      · intro i j hi hj heq
        -- one of the two may be the new entry
        rcases (happends.live_iff h).mp hi with rfl | hi <;>
          rcases (happends.live_iff h).mp hj with rfl | hj
        · rfl
        · rw [happends.self, hother hj] at heq
          exact absurd heq.symm (hnew j hj)
        · rw [happends.self, hother hi] at heq
          exact absurd heq (hnew i hi)
        · rw [hother hi, hother hj] at heq
          exact hdistinct.unique hi hj heq

theorem Clears.live {i j : ℕ} {e' : Edfs} (hclears : e.Clears i e') (hj : e'.Live j) :
    e.Live j ∧ e'.cluster j = e.cluster j := by
  have hne : j ≠ i := fun heq => hj.path (by rw [heq, hclears.self])
  have hother := hclears.other j hne
  exact ⟨⟨hclears.used ▸ hj.lt, hother ▸ hj.path⟩, hother⟩

/-- Names stay distinct when an entry is cleared. -/
theorem Distinct.unregister (h : e.Distinct) (path : CString) : (e.unregister path).Distinct := by
  rcases unregister_cases e path with ⟨-, heq⟩ | ⟨i, -, hclears⟩
  · rw [heq]
    exact h
  -- what is live after it was live before, with the same path
  · constructor
    · intro j hj
      obtain ⟨hlive, hother⟩ := hclears.live hj
      rw [hother]
      exact h.notRoot hlive
    · intro j k hj hk heq
      obtain ⟨hj, hj'⟩ := hclears.live hj
      obtain ⟨hk, hk'⟩ := hclears.live hk
      rw [hj', hk'] at heq
      exact h.unique hj hk heq

/-- Listings report the names that the paths are registered under. -/
def Proper (e : Edfs) : Prop :=
  ∀ i, e.Live i → (e.cluster i).path83 = unixpathToPath83 (e.cluster i).path

/-- The 8.3 name is the one that listings report for the path, if it is registered. -/
def Reported (e : Edfs) (path path83 : CString) : Prop :=
  e.Adds path → path83 = unixpathToPath83 path

theorem Proper.register (h : e.WellFormed) (hproper : e.Proper) {path path83 : CString}
    (hreported : e.Reported path path83) : (e.register path path83).Proper := by
  rcases register_cases e path path83 with ⟨-, heq⟩ | happends
  · rw [heq]
    exact hproper
  · intro i hi
    rcases (happends.live_iff h).mp hi with rfl | hi
    · rw [happends.self]
      exact hreported ⟨index_eq_none.mpr happends.new, happends.room⟩
    · rw [happends.other _ (Nat.ne_of_lt hi.lt)]
      exact hproper i hi

theorem Proper.unregister (h : e.Proper) (path : CString) : (e.unregister path).Proper := by
  rcases unregister_cases e path with ⟨-, heq⟩ | ⟨i, -, hclears⟩
  · rw [heq]
    exact h
  · intro j hj
    obtain ⟨hlive, hother⟩ := hclears.live hj
    rw [hother]
    exact h j hlive

end Edfs

/-- The names that a change registers are fresh, each when it is registered. -/
def RegistryChange.Fresh (c : RegistryChange) (e : Edfs) : Prop :=
  Along (fun e r => e.register r.1 r.2) (fun e r => e.Fresh r.1 r.2) (c.unregister e) c.registered

/-- A change keeps the names distinct exactly if what it registers is fresh. -/
theorem distinct_change_iff (h : e.WellFormed) (hdistinct : e.Distinct) (c : RegistryChange) :
    (c.apply e).Distinct ↔ c.Fresh e := by
  have hunregister : (c.unregister e).Distinct := by
    rw [RegistryChange.unregister]
    cases c.unregistered with
    | none => exact hdistinct
    | some path => exact hdistinct.unregister path
  change Edfs.Distinct (runAll (fun e r => Edfs.register e r.1 r.2) (c.unregister e)
    c.registered) ↔ _
  refine (runAll_iff (I := Edfs.WellFormed) ?_ ?_ (c.wellFormed_unregister h) _).trans
    (and_iff_right hunregister)
  · exact fun e r he => he.register r.1 r.2
  · exact fun e r he => Edfs.distinct_register_iff he r.1 r.2

/-- The names that a change registers are those that listings report. -/
def RegistryChange.Reported (c : RegistryChange) (e : Edfs) : Prop :=
  Along (fun e r => e.register r.1 r.2) (fun e r => e.Reported r.1 r.2) (c.unregister e)
    c.registered

/-- A change that reports every new name once keeps the names proper. -/
theorem proper_change (h : e.WellFormed) (hproper : e.Proper) {c : RegistryChange}
    (hreported : c.Reported e) : (c.apply e).Proper := by
  have hunregister : (c.unregister e).Proper := by
    rw [RegistryChange.unregister]
    cases c.unregistered with
    | none => exact hproper
    | some path => exact hproper.unregister path
  -- the old path goes before the new ones come, one after another
  have hrun : (runAll (fun e r => Edfs.register e r.1 r.2) (c.unregister e)
      c.registered).WellFormed ∧
      (runAll (fun e r => Edfs.register e r.1 r.2) (c.unregister e) c.registered).Proper := by
    refine runAll_keeps (I := fun e => e.WellFormed ∧ e.Proper) ?_
      ⟨c.wellFormed_unregister h, hunregister⟩ hreported
    rintro e r ⟨hwell, hproper⟩ hr
    exact ⟨hwell.register r.1 r.2, hproper.register hwell hr⟩
  exact hrun.2

/-! ### What requests act on -/

/-- The paths that have been passed to the host, the newest first. -/
def passed (log : List NetEvent) : List CString :=
  log.filterMap fun
    | .hostPath path => some path
    | _ => none

/-- The event is not a path that is passed to the host. -/
def NetEvent.NotPassed : NetEvent → Prop
  | .hostPath _ => False
  | _ => True

theorem passed_append_of_notPassed {es : List NetEvent} (h : ∀ event ∈ es, event.NotPassed)
    (log : List NetEvent) : passed (es ++ log) = passed log := by
  induction es with
  | nil => rfl
  | cons event es ih =>
    obtain ⟨hevent, hes⟩ := List.forall_mem_cons.mp h
    rw [List.cons_append, ← ih hes]
    cases event with
    | hostPath path => exact hevent.elim
    | _ => rfl

section Acts

instance : FrameEvents NetEvent.NotPassed (fun _ _ => ()) where
  rxWrite _ := trivial
  ipHeader := trivial
  setBytes _ _ _ := rfl
  ipId _ _ := rfl
  rxLen _ _ := rfl
  txRead _ := trivial
  rxWrites _ _ := trivial
  ipChecksum _ _ := trivial

/-- EtherDFS has the variables `e`, and the paths have been passed to the host. -/
structure Lan.Passed (e : Edfs) (paths : List CString) (l : Lan η) : Prop where
  edfs : l.edfs = e
  paths : passed l.log = paths

variable {α β : Type} {paths : List CString} {Q : β → Lan η → Prop} {x : N η α}

/-- A step that passes no path to the host. -/
theorem triple_passed_of_generated
    (hx : Generated (LanAction NetEvent.NotPassed fun _ _ => ()) x) :
    Triple (Lan.Passed e paths) x fun _ l => passed l.log = paths := by
  intro l hl
  obtain ⟨es, hlog, hes⟩ := (extends_of_generated hx l).log
  rw [hlog, passed_append_of_notPassed hes, hl.paths]

theorem triple_passed_getEdfs {f : Edfs → N η β} (hf : Triple (Lan.Passed e paths) (f e) Q) :
    Triple (Lan.Passed e paths) (getEdfs >>= f) Q := by
  intro l hl
  rw [outcome_bind, outcome_getEdfs, hl.edfs]
  exact hf l hl

theorem triple_passed_rootPath (path : CString) :
    Triple (Lan.Passed e paths) (edfsRootPath path : N η CString) fun p l =>
      p = joinPath e.root path ∧ l.Passed e paths :=
  fun _ hl => ⟨hl.edfs ▸ rfl, hl⟩

theorem triple_passed_unixpath (path83 : CString) :
    Triple (Lan.Passed e paths) (edfsUnixpath path83 : N η CString) fun p l =>
      p = e.path83ToUnixpath path83 ∧ l.Passed e paths :=
  fun _ hl => ⟨hl.edfs ▸ rfl, hl.edfs, hl.paths⟩

theorem triple_passed_hostPath (path : CString) (f : CString → η → α × η) :
    Triple (Lan.Passed e paths) (hostPath path f) fun _ => Lan.Passed e (path :: paths) :=
  fun _ hl => ⟨hl.edfs, hl.paths ▸ rfl⟩

instance generated_notPassed_modifyEdfs (f : Edfs → Edfs) :
    Generated (LanAction NetEvent.NotPassed fun _ _ => ()) (modifyEdfs f : N η Unit) :=
  .action _ (.edfs f fun _ _ => rfl)

instance generated_notPassed_buffer (capacity len : ℕ) :
    Generated (LanAction NetEvent.NotPassed fun _ _ => ())
      (note (.buffer capacity len) : N η Unit) :=
  generated_note trivial

instance generated_notPassed_register (path path83 : CString) :
    Generated (LanAction NetEvent.NotPassed fun _ _ => ())
      (edfsClusterRegister path path83 : N η Unit) := by
  unfold edfsClusterRegister
  infer_instance

instance generated_notPassed_unregister (path : CString) :
    Generated (LanAction NetEvent.NotPassed fun _ _ => ())
      (edfsClusterUnregister path : N η Unit) := by
  unfold edfsClusterUnregister
  refine .seq _ _ inferInstance fun _ => ?_
  split <;> infer_instance

section Found

variable {cluster : Word} {path path83 : CString}

theorem passed_edfsRemove (hfound : e.clusterLookup83 path83 = some (cluster, path))
    (remove : CString → η → Bool × η) (unknown : Word) :
    Triple (Lan.Passed e paths) (edfsRemove remove unknown path83) fun _ l =>
      passed l.log = joinPath e.root path :: paths := by
  unfold edfsRemove
  refine triple_passed_getEdfs ?_
  rw [hfound]
  refine (triple_passed_rootPath path).bind fun tmpPath => .of_and fun htmpPath => ?_
  rw [htmpPath]
  refine (triple_passed_hostPath _ remove).bind fun ok => ?_
  exact triple_passed_of_generated inferInstance

theorem passed_edfsGetattr (hfound : e.clusterLookup83 path83 = some (cluster, path)) :
    Triple (Lan.Passed e paths) (edfsGetattr host path83) fun _ l =>
      passed l.log = joinPath e.root path :: paths := by
  unfold edfsGetattr
  refine triple_passed_getEdfs ?_
  rw [hfound]
  refine (triple_passed_rootPath path).bind fun tmpPath => .of_and fun htmpPath => ?_
  rw [htmpPath]
  refine (triple_passed_hostPath _ host.stat).bind fun st => ?_
  cases st <;> exact triple_passed_of_generated inferInstance

/-- RENAME passes the path of the file that is found, and the converted one. -/
theorem passed_edfsRename (hfound : e.clusterLookup83 path83 = some (cluster, path))
    (path83Dst : CString) :
    Triple (Lan.Passed e paths) (edfsRename host path83 path83Dst) fun _ l =>
      passed l.log = joinPath e.root (e.path83ToUnixpath path83Dst) ::
        joinPath e.root path :: paths := by
  unfold edfsRename
  refine triple_passed_getEdfs ?_
  rw [hfound]
  refine (triple_passed_unixpath path83Dst).bind fun dst => .of_and fun hdst => ?_
  refine (triple_passed_rootPath path).bind fun tmpSrc => .of_and fun htmpSrc => ?_
  -- the old path is passed in the same call, which is recorded first
  have hnote : Triple (Lan.Passed e paths) (note (.hostPath tmpSrc) : N η Unit) fun _ =>
      Lan.Passed e (tmpSrc :: paths) := fun _ hl => ⟨hl.edfs, hl.paths ▸ rfl⟩
  refine hnote.bind fun _ => ?_
  refine (triple_passed_rootPath dst).bind fun tmpDst => .of_and fun htmpDst => ?_
  rw [htmpDst, hdst, htmpSrc]
  refine (triple_passed_hostPath _ _).bind fun ok => ?_
  exact triple_passed_of_generated inferInstance

theorem passed_edfsOpenFile (path83 : CString) (attrib action cluster : Word) (path : CString) :
    Triple (Lan.Passed e paths) (edfsOpenFile host path83 attrib action cluster path) fun _ l =>
      passed l.log = joinPath e.root path :: paths := by
  unfold edfsOpenFile
  refine (triple_passed_rootPath path).bind fun tmpPath => .of_and fun htmpPath => ?_
  rw [htmpPath]
  refine (triple_passed_hostPath _ host.stat).bind fun st => ?_
  cases st <;> exact triple_passed_of_generated inferInstance

theorem passed_edfsTouch (path : CString) :
    Triple (Lan.Passed e paths) (edfsTouch host path) fun _ => Lan.Passed e (path :: paths) := by
  unfold edfsTouch
  refine (triple_passed_hostPath path _).bind fun file => ?_
  cases file with
  | none => exact .ret fun _ hl => hl
  | some file => exact fun _ hl => ⟨hl.edfs, hl.paths⟩

/-- A file that is found is opened by its path. To truncate it, its name is converted back. -/
theorem passed_edfsOpen (hfound : e.clusterLookup83 path83 = some (cluster, path))
    (attrib action : Word) :
    Triple (Lan.Passed e paths) (edfsOpen host path83 attrib action) fun _ l =>
      if action &&& 0x0F = 0x02 then
        passed l.log = joinPath e.root (e.path83ToUnixpath path83) :: paths ∨
          passed l.log =
            joinPath e.root path :: joinPath e.root (e.path83ToUnixpath path83) :: paths
      else passed l.log = joinPath e.root path :: paths := by
  unfold edfsOpen
  refine triple_passed_getEdfs ?_
  rw [hfound]
  -- only a function that truncates converts the name
  refine .ite (fun haction => ?_) fun haction => ?_
  · refine (triple_passed_unixpath path83).bind fun unixpath => .of_and fun hunixpath => ?_
    refine (triple_passed_rootPath unixpath).bind fun tmpPath => .of_and fun htmpPath => ?_
    rw [htmpPath, hunixpath]
    refine (passed_edfsTouch host _).bind fun ok => ?_
    simp only [if_pos haction]
    -- it goes on with the path that was found, unless the file could not be emptied
    refine .ite (fun _ => ?_) fun _ => ?_
    · exact (passed_edfsOpenFile host path83 attrib action cluster path).post fun _ _ => .inr
    · exact (triple_passed_of_generated inferInstance).post fun _ _ => .inl
  · simp only [if_neg haction]
    exact passed_edfsOpenFile host path83 attrib action cluster path

end Found

end Acts

/-- A function passes the path to the host, and no other. -/
def ActsOn {α : Type} (path : CString) (x : N η α) (l : Lan η) : Prop :=
  ∃ n, passed (outcome x l).2.log =
    List.replicate (n + 1) (joinPath l.edfs.root path) ++ passed l.log

theorem joinPath_inj {dir path path' : CString} : joinPath dir path = joinPath dir path' ↔
    path = path' := by
  rw [joinPath, joinPath, List.append_cancel_left_eq, List.cons_inj_right]

theorem actsOn_of_passed {α : Type} {path : CString} {x : N η α} {l : Lan η}
    (h : passed (outcome x l).2.log = joinPath l.edfs.root path :: passed l.log) :
    ActsOn path x l :=
  ⟨0, h⟩

/-- What a function passes to the host besides is the same path. -/
theorem ActsOn.eq_of_mem {α : Type} {path : CString} {x : N η α} {l : Lan η}
    (h : ActsOn path x l) (paths : List CString)
    (hpassed : passed (outcome x l).2.log = paths ++ passed l.log) {path' : CString}
    (hmem : joinPath l.edfs.root path' ∈ paths) : path' = path := by
  obtain ⟨n, hn⟩ := h
  rw [hpassed] at hn
  rw [List.append_cancel_right hn] at hmem
  exact joinPath_inj.mp (List.eq_of_mem_replicate hmem)

/-- OPEN acts on the file that is found, unless it truncates another. -/
theorem actsOn_edfsOpen_iff {l : Lan η} {path83 path : CString} {cluster : Word}
    (hfound : l.edfs.clusterLookup83 path83 = some (cluster, path)) (attrib action : Word) :
    ActsOn path (edfsOpen host path83 attrib action) l ↔
      (action &&& 0x0F = 0x02 → l.edfs.path83ToUnixpath path83 = path) := by
  have hpassed := passed_edfsOpen host hfound attrib action l ⟨rfl, rfl⟩
  dsimp only at hpassed
  by_cases haction : action &&& 0x0F = 0x02
  · rw [if_pos haction] at hpassed
    constructor
    -- the converted path is passed in either case
    · intro hacts _
      rcases hpassed with hpassed | hpassed
      · exact hacts.eq_of_mem [_] hpassed (List.mem_singleton_self _)
      · exact hacts.eq_of_mem [_, _] hpassed (.tail _ (.head _))
    · intro hpath
      rw [hpath haction] at hpassed
      rcases hpassed with hpassed | hpassed
      · exact ⟨0, hpassed⟩
      · exact ⟨1, hpassed⟩
  · rw [if_neg haction] at hpassed
    exact iff_of_true (actsOn_of_passed hpassed) fun h => absurd h haction

/-! ### Runs -/

/-- The names that a step registers are fresh. -/
def StepFresh (l : Lan η) (s : LanStep) : Prop := (stepChange host l s).Fresh l.edfs

/-- The names that a step registers are those that listings report. -/
def StepReported (l : Lan η) (s : LanStep) : Prop := (stepChange host l s).Reported l.edfs

theorem wellFormed_lanAfter {l : Lan η} (h : l.edfs.WellFormed) (s : LanStep) :
    (lanAfter host l s).edfs.WellFormed := by
  rw [edfs_lanAfter]
  exact h.change _

theorem wellFormed_runAll (root : CString) (h : η) (steps : List LanStep) :
    (runAll (lanAfter host) (lanInit (edfsInit root) h) steps).edfs.WellFormed :=
  runAll_invariant (I := fun l : Lan η => l.edfs.WellFormed)
    (fun _ s hl => wellFormed_lanAfter host hl s) (Edfs.wellFormed_edfsInit root) steps

theorem not_live_edfsInit (root : CString) (i : ℕ) : ¬ (edfsInit root).Live i :=
  fun h => h.path rfl

theorem distinct_lanAfter_iff {l : Lan η} (hwell : l.edfs.WellFormed) (h : l.edfs.Distinct)
    (s : LanStep) : (lanAfter host l s).edfs.Distinct ↔ StepFresh host l s := by
  rw [edfs_lanAfter]
  exact distinct_change_iff hwell h _

theorem proper_lanAfter {l : Lan η} (hwell : l.edfs.WellFormed) (h : l.edfs.Proper) {s : LanStep}
    (hs : StepReported host l s) : (lanAfter host l s).edfs.Proper := by
  rw [edfs_lanAfter]
  exact proper_change hwell h hs

/-- **Files by their 8.3 names.** In a run from `edfs_init` every entry is what its name is
looked up to, in every state reached, exactly if each step registers fresh names. If these are
also the names that listings report, then DELETE, GETATTR and RENAME of the reported name act on
the file; OPEN does unless it truncates the file of the path that the name is converted to. -/
theorem names_found_iff (root : CString) (h : η) (steps : List LanStep) :
    (Along (lanAfter host)
        (fun l s => ∀ i, (lanAfter host l s).edfs.Live i → (lanAfter host l s).edfs.Finds i)
        (lanInit (edfsInit root) h) steps ↔
      Along (lanAfter host) (StepFresh host) (lanInit (edfsInit root) h) steps) ∧
    (Along (lanAfter host) (fun l s => StepFresh host l s ∧ StepReported host l s)
        (lanInit (edfsInit root) h) steps →
      let l := runAll (lanAfter host) (lanInit (edfsInit root) h) steps
      ∀ i, l.edfs.Live i →
        let path := (l.edfs.cluster i).path
        let path83 := unixpathToPath83 path
        (l.edfs.clusterLookup83 path83).map Prod.snd = some path ∧
        ActsOn path (edfsDelete host path83) l ∧
        ActsOn path (edfsGetattr host path83) l ∧
        (∀ path83Dst, passed (outcome (edfsRename host path83 path83Dst) l).2.log =
          joinPath l.edfs.root (l.edfs.path83ToUnixpath path83Dst) ::
            joinPath l.edfs.root path :: passed l.log) ∧
        ∀ attrib action, ActsOn path (edfsOpen host path83 attrib action) l ↔
          (action &&& 0x0F = 0x02 → l.edfs.path83ToUnixpath path83 = path)) := by
  have hinit : (edfsInit root).Distinct ∧ (edfsInit root).Proper :=
    ⟨⟨fun hi => absurd hi (not_live_edfsInit root _),
      fun hi => absurd hi (not_live_edfsInit root _)⟩,
      fun i hi => absurd hi (not_live_edfsInit root i)⟩
  constructor
  · -- the invariant is that names are distinct, which a step keeps if it is fresh
    refine along_iff (I := fun l => l.edfs.WellFormed ∧ l.edfs.Distinct) ?_ ?_
      ⟨Edfs.wellFormed_edfsInit root, hinit.1⟩ steps
    · rintro l s ⟨hwell, hdistinct⟩ hs
      exact ⟨wellFormed_lanAfter host hwell s,
        (distinct_lanAfter_iff host hwell hdistinct s).mpr hs⟩
    · rintro l s ⟨hwell, hdistinct⟩
      exact (Edfs.finds_iff_distinct (wellFormed_lanAfter host hwell s)).trans
        (distinct_lanAfter_iff host hwell hdistinct s)
  · intro hsteps l i hi path path83
    -- with the names that listings report, each entry has the 8.3 name of its path
    have hl : l.edfs.WellFormed ∧ l.edfs.Distinct ∧ l.edfs.Proper := by
      refine runAll_keeps (I := fun l => l.edfs.WellFormed ∧ l.edfs.Distinct ∧ l.edfs.Proper) ?_
        ⟨Edfs.wellFormed_edfsInit root, hinit⟩ hsteps
      rintro l s ⟨hwell, hdistinct, hproper⟩ ⟨hfresh, hreported⟩
      exact ⟨wellFormed_lanAfter host hwell s,
        (distinct_lanAfter_iff host hwell hdistinct s).mpr hfresh,
        proper_lanAfter host hwell hproper hreported⟩
    obtain ⟨hwell, hdistinct, hproper⟩ := hl
    have hfinds := (Edfs.finds_iff_distinct hwell).mpr hdistinct i hi
    rw [Edfs.Finds, hproper i hi] at hfinds
    obtain ⟨⟨cluster, found⟩, hfound, hpath⟩ := Option.map_eq_some_iff.mp hfinds
    cases hpath
    exact ⟨hfinds, actsOn_of_passed (passed_edfsRemove hfound _ _ l ⟨rfl, rfl⟩),
      actsOn_of_passed (passed_edfsGetattr host hfound l ⟨rfl, rfl⟩),
      fun path83Dst => passed_edfsRename host hfound path83Dst l ⟨rfl, rfl⟩,
      actsOn_edfsOpen_iff host hfound⟩

/-- The root is listed, for a pattern that nothing matches. -/
def listRoot : List LanStep := [findFirst 0x00 [0x5C, 0x5A]]

/-- A root with the files `A` and `B`. -/
def twoFiles : Host Unit := filesHost [[0x41], [0x42]]

/-- Both are registered under names of their own. -/
theorem twoFiles_fresh : Along (lanAfter twoFiles)
    (fun l s => StepFresh twoFiles l s ∧ StepReported twoFiles l s)
    (lanInit (edfsInit [0x2F, 0x72]) ()) listRoot := by
  obtain ⟨c, hc⟩ : ∃ c, c = stepChange twoFiles (lanInit (edfsInit [0x2F, 0x72]) ())
    (findFirst 0x00 [0x5C, 0x5A]) := ⟨_, rfl⟩
  have hnone : c.unregistered = none := by
    rw [hc]
    decide +kernel
  have hregistered : c.registered =
      [([0x2F, 0x41], [0x5C, 0x41]), ([0x2F, 0x42], [0x5C, 0x42])] := by
    rw [hc]
    decide +kernel
  refine ⟨⟨?_, ?_⟩, trivial⟩
  · rw [StepFresh, ← hc, RegistryChange.Fresh, RegistryChange.unregister, hnone, hregistered]
    have hnames : ¬ IsRootName [0x5C, 0x41] ∧ ¬ IsRootName [0x5C, 0x42] := by
      unfold IsRootName
      decide
    refine ⟨fun _ => ⟨hnames.1, fun i hi => absurd hi (not_live_edfsInit _ i)⟩,
      fun _ => ⟨hnames.2, fun i hi => ?_⟩, trivial⟩
    -- the entries are the root and `A`
    have hlt : i < 2 := hi.lt
    have hcases : i = 0 ∨ i = 1 := by omega
    rcases hcases with rfl | rfl
    · exact absurd rfl hi.path
    · decide
  · rw [StepReported, ← hc, RegistryChange.Reported, RegistryChange.unregister, hnone, hregistered]
    exact ⟨fun _ => by decide, fun _ => by decide, trivial⟩

/-- `B` is found by its name, and deleted and truncated by it. -/
theorem names_found_two :
    let l := runAll (lanAfter twoFiles) (lanInit (edfsInit [0x2F, 0x72]) ()) listRoot
    (l.edfs.clusterLookup83 [0x5C, 0x42]).map Prod.snd = some [0x2F, 0x42] ∧
      ActsOn [0x2F, 0x42] (edfsDelete twoFiles [0x5C, 0x42]) l ∧
      ActsOn [0x2F, 0x42] (edfsOpen twoFiles [0x5C, 0x42] 0x00 0x12) l := by
  intro l
  obtain ⟨hfound, hdelete, -, -, hopen⟩ := (names_found_iff twoFiles [0x2F, 0x72] ()
    listRoot).2 twoFiles_fresh 2 ⟨by decide +kernel, by decide +kernel⟩
  have hpath : (l.edfs.cluster 2).path = [0x2F, 0x42] := by decide +kernel
  have hpath83 : unixpathToPath83 [0x2F, 0x42] = [0x5C, 0x42] := by decide
  rw [hpath, hpath83] at hfound hdelete hopen
  exact ⟨hfound, hdelete, (hopen 0x00 0x12).mpr fun _ => by decide +kernel⟩

/-- Of the files `LONGNAME1` and `LONGNAME2`, only the first is found by its name. -/
theorem names_ambiguous : ¬ ∀ (η : Type) (host : Host η) (root : CString) (h : η)
    (steps : List LanStep) (i : ℕ),
    let e := (runAll (lanAfter host) (lanInit (edfsInit root) h) steps).edfs
    e.Live i → (e.clusterLookup83 (e.cluster i).path83).map Prod.snd = some (e.cluster i).path := by
  intro hall
  have hfinds := hall Unit (filesHost [[0x4C, 0x4F, 0x4E, 0x47, 0x4E, 0x41, 0x4D, 0x45, 0x31],
    [0x4C, 0x4F, 0x4E, 0x47, 0x4E, 0x41, 0x4D, 0x45, 0x32]]) [0x2F, 0x72] () listRoot 2
    ⟨by decide +kernel, by decide +kernel⟩
  exact absurd hfinds (by decide +kernel)

-- the file `a` is listed as `A`, which is converted to another path
example : let e := (runAll (lanAfter (filesHost [[0x61]])) (lanInit (edfsInit [0x2F, 0x72]) ())
      listRoot).edfs
    e.cluster 1 = { path := [0x2F, 0x61], path83 := [0x5C, 0x41] } ∧
      e.path83ToUnixpath [0x5C, 0x41] = [0x2F, 0x41] := by
  decide +kernel

end Pc20iii
