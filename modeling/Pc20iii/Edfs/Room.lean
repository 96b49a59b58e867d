import Pc20iii.Edfs.Names
import Mathlib.Data.Finset.Image
import Mathlib.Data.Fintype.EquivFin
import Mathlib.Data.Fintype.List

/-!
# Room in the registry

`edfs_cluster_unregister` clears an entry, and `edfs_cluster_register` takes the entry at
`edfs_cluster_used`, which only grows: a cleared entry is not used again. So it is not the number
of paths that are registered that decides whether there is room for one more, but the number of
paths that ever have been (`pathsAdded`, `register_new_iff`), and making and removing one
directory 1023 times leaves no room in an empty registry.
-/

namespace Pc20iii

open StateProgram

variable {η : Type} (host : Host η) {e : Edfs} {path path83 : CString}

namespace Edfs

/-! ### Registering a new path -/

/-- How many paths are registered: the root, and those that have not been unregistered. -/
def liveCount (e : Edfs) : ℕ :=
  (List.range e.clusterUsed).countP fun i => i = 0 ∨ (e.cluster i).path ≠ []

/-- A path is found: by its path, by its cluster number, and by its 8.3 name if no entry before
has the same. -/
structure Found (e : Edfs) (path path83 : CString) (i : ℕ) : Prop where
  index : e.index path = some i
  lookup : e.clusterLookup (BitVec.ofNat 16 i) = some path
  lookup83 : ¬ IsRootName path83 → (∀ j < i, (e.cluster j).path83 ≠ path83) →
    e.clusterLookup83 path83 = some (BitVec.ofNat 16 i, path)

/-- The entry that is appended is found. -/
theorem Appends.found {e' : Edfs} (h : e.WellFormed) (happends : e.Appends path path83 e') :
    e'.Found path path83 e.clusterUsed := by
  have hpath : path ≠ [] := fun heq => happends.new 0 h.pos (h.root.trans heq.symm)
  have hused := happends.used
  have hroom := happends.room
  have hself : (e'.cluster e.clusterUsed).path = path := by rw [happends.self]
  have hlt : e.clusterUsed < e'.clusterUsed := by omega
  -- the table has fewer entries than a word has values
  have hindex : (BitVec.ofNat 16 e.clusterUsed).toNat = e.clusterUsed := by
    rw [edfsClusterMax] at hroom
    rw [BitVec.toNat_ofNat, Nat.mod_eq_of_lt (by omega)]
  refine ⟨?_, ?_, fun hname hbefore => ?_⟩
  · exact ((happends.wellFormed h).index_eq_some_iff hpath).mpr ⟨hlt, hself⟩
  · rw [clusterLookup_eq_some, hindex]
    exact ⟨⟨hroom, hlt⟩, hself⟩
  · refine happends.clusterLookup83 hname fun j hj => ?_
    rw [← happends.other j (Nat.ne_of_lt hj)]
    exact hbefore j hj

/-- A new path is found after it has been registered exactly when an entry was left. -/
theorem WellFormed.found_register_iff (h : e.WellFormed) (hnew : e.index path = none)
    (path83 : CString) :
    (∃ i, (e.register path path83).Found path path83 i) ↔ e.clusterUsed < edfsClusterMax := by
  rcases register_cases e path path83 with ⟨hskip, heq⟩ | happends
  · refine iff_of_false ?_ fun hroom => registers_iff.mp ⟨hnew, hroom⟩ hskip
    rintro ⟨i, hi⟩
    have hindex := hi.index
    rw [heq, hnew] at hindex
    exact absurd hindex nofun
  · exact iff_of_true ⟨_, happends.found h⟩ happends.room

/-- There is always a path that is not registered. -/
theorem exists_index_eq_none (e : Edfs) : ∃ path, e.index path = none := by
  obtain ⟨path, hpath⟩ := Infinite.exists_notMem_finset
    ((Finset.range e.clusterUsed).image fun i => (e.cluster i).path)
  refine ⟨path, index_eq_none.mpr fun i hi heq => hpath ?_⟩
  exact Finset.mem_image.mpr ⟨i, Finset.mem_range.mpr hi, heq⟩

/-! ### What a run adds -/

/-- How many of some paths are new when they are registered, one after the other. -/
def added (e : Edfs) : List (CString × CString) → ℕ
  | [] => 0
  | (path, path83) :: rest =>
    (if e.Registers path then 1 else 0) + (e.register path path83).added rest

theorem clusterUsed_register (e : Edfs) (path path83 : CString) :
    (e.register path path83).clusterUsed =
      e.clusterUsed + if e.Registers path then 1 else 0 := by
  rcases register_cases e path path83 with ⟨hskip, heq⟩ | happends
  · rw [heq, if_neg fun hregisters => registers_iff.mp hregisters hskip, Nat.add_zero]
  · rw [happends.used, if_pos ⟨index_eq_none.mpr happends.new, happends.room⟩]

theorem clusterUsed_foldl_register (e : Edfs) (paths : List (CString × CString)) :
    (paths.foldl (fun e r => e.register r.1 r.2) e).clusterUsed =
      e.clusterUsed + e.added paths := by
  induction paths generalizing e with
  | nil => rfl
  | cons r rest ih => rw [List.foldl_cons, ih, clusterUsed_register, added, Nat.add_assoc]

theorem clusterUsed_unregister (e : Edfs) (path : CString) :
    (e.unregister path).clusterUsed = e.clusterUsed := by
  rcases unregister_cases e path with ⟨-, heq⟩ | ⟨i, -, hclears⟩
  · rw [heq]
  · exact hclears.used

end Edfs

/-- How many paths a change adds to the registry. -/
def RegistryChange.added (c : RegistryChange) (e : Edfs) : ℕ := (c.unregister e).added c.registered

theorem RegistryChange.clusterUsed_apply (c : RegistryChange) (e : Edfs) :
    (c.apply e).clusterUsed = e.clusterUsed + c.added e := by
  have hunregister : (c.unregister e).clusterUsed = e.clusterUsed := by
    rw [RegistryChange.unregister]
    cases c.unregistered with
    | none => rfl
    | some path => exact e.clusterUsed_unregister path
  rw [RegistryChange.apply, Edfs.clusterUsed_foldl_register, hunregister]
  rfl

/-- How many paths a run adds to the registry. -/
def pathsAdded : Lan η → List LanStep → ℕ
  | _, [] => 0
  | l, s :: rest => (stepChange host l s).added l.edfs + pathsAdded (lanAfter host l s) rest

/-- The entries that have been used are those of the paths that have been added. -/
theorem clusterUsed_runAll (l : Lan η) (steps : List LanStep) :
    (runAll (lanAfter host) l steps).edfs.clusterUsed =
      l.edfs.clusterUsed + pathsAdded host l steps := by
  induction steps generalizing l with
  | nil => rfl
  | cons s rest ih =>
    rw [runAll_cons, ih, edfs_lanAfter, RegistryChange.clusterUsed_apply, pathsAdded,
      Nat.add_assoc]

/-! ### Runs -/

/-- While fewer than `EDFS_CLUSTER_MAX` paths are registered, a new path can be registered, and is
found. -/
def RegistersNew (l : Lan η) : Prop :=
  l.edfs.liveCount < edfsClusterMax → ∀ path path83, l.edfs.index path = none →
    ∃ i, (outcome (edfsClusterRegister path path83) l).2.edfs.Found path path83 i

theorem registersNew_iff {l : Lan η} (h : l.edfs.WellFormed) :
    RegistersNew l ↔ (l.edfs.liveCount < edfsClusterMax → l.edfs.clusterUsed < edfsClusterMax) := by
  refine imp_congr_right fun _ => ⟨fun hnew => ?_, fun hroom path path83 hindex => ?_⟩
  · obtain ⟨path, hpath⟩ := l.edfs.exists_index_eq_none
    have hfound := hnew path [] hpath
    rw [(outcome_edfsClusterRegister path [] l).1] at hfound
    exact (h.found_register_iff hpath []).mp hfound
  · rw [(outcome_edfsClusterRegister path path83 l).1]
    exact (h.found_register_iff hindex path83).mpr hroom

/-- **Room in the registry.** After a run from `edfs_init`, that fewer than `EDFS_CLUSTER_MAX` paths
are registered means that a new one can be exactly when, with the root, the run has added fewer
than that, or has added as many and they are all still registered. -/
theorem register_new_iff (root : CString) (h : η) (steps : List LanStep) :
    let l := runAll (lanAfter host) (lanInit (edfsInit root) h) steps
    RegistersNew l ↔ (l.edfs.liveCount < edfsClusterMax →
      1 + pathsAdded host (lanInit (edfsInit root) h) steps < edfsClusterMax) := by
  intro l
  have hused : l.edfs.clusterUsed = 1 + pathsAdded host (lanInit (edfsInit root) h) steps :=
    clusterUsed_runAll host _ steps
  rw [registersNew_iff (wellFormed_runAll host root h steps), hused]

/-! ### A run that leaves no room -/

/-- A host that makes and removes directories. -/
def directoriesHost : Host Unit :=
  { failingHost with mkdir := fun _ h => (true, h), rmdir := fun _ h => (true, h) }

/-- The directory `A` is made and removed. -/
def makeRemove : List LanStep :=
  [edfsRequest edfsFuncMkdir [0x5C, 0x41], edfsRequest edfsFuncRmdir [0x5C, 0x41]]

/-- A registry with entries that have all been cleared. -/
def clearedEdfs (used : ℕ) : Edfs := { edfsInit [] with clusterUsed := used }

theorem wellFormed_clearedEdfs {used : ℕ} (hpos : 0 < used) (hle : used ≤ edfsClusterMax) :
    (clearedEdfs used).WellFormed where
  pos := hpos
  le := hle
  root := rfl
  unique hi _ _ := absurd rfl hi.path
  dead _ _ := rfl

section Cleared

variable {used : ℕ} (hpos : 0 < used) (hroom : used < edfsClusterMax) (hpath : path ≠ [])
include hroom hpath

theorem registers_clearedEdfs : (clearedEdfs used).Registers path :=
  ⟨Edfs.index_eq_none.mpr fun _ _ => hpath.symm, hroom⟩

theorem appends_clearedEdfs (path83 : CString) :
    (clearedEdfs used).Appends path path83 ((clearedEdfs used).register path path83) :=
  (Edfs.register_cases (clearedEdfs used) path path83).resolve_left fun h =>
    Edfs.registers_iff.mp (registers_clearedEdfs hroom hpath) h.1

include hpos

theorem found_clearedEdfs (path83 : CString) :
    ((clearedEdfs used).register path path83).Found path path83 used :=
  (appends_clearedEdfs hroom hpath path83).found (wellFormed_clearedEdfs hpos hroom.le)

/-- The entry is found by its 8.3 name. -/
theorem clusterLookup83_clearedEdfs (hname : ¬ IsRootName path83) :
    ((clearedEdfs used).register path path83).clusterLookup83 path83 =
      some (BitVec.ofNat 16 used, path) := by
  refine (found_clearedEdfs hpos hroom hpath path83).lookup83 hname fun j hj heq => ?_
  rw [(appends_clearedEdfs hroom hpath path83).other j (Nat.ne_of_lt hj)] at heq
  exact hname (.inl heq.symm)

/-- An entry that is taken and cleared again is still used. -/
theorem unregister_register_clearedEdfs (path83 : CString) :
    ((clearedEdfs used).register path path83).unregister path = clearedEdfs (used + 1) := by
  rw [Edfs.unregister, (found_clearedEdfs hpos hroom hpath path83).index, Edfs.register,
    if_neg (Edfs.registers_iff.mp (registers_clearedEdfs hroom hpath))]
  simp [Edfs.setCluster, clearedEdfs, edfsInit]

end Cleared

/-- Making a directory and removing it takes one entry for good. -/
theorem edfs_makeRemove {l : Lan Unit} {used : ℕ} (hpos : 0 < used)
    (hroom : used < edfsClusterMax) (hl : l.edfs = clearedEdfs used) :
    (runAll (lanAfter directoriesHost) l makeRemove).edfs = clearedEdfs (used + 1) := by
  have hpath : ([0x2F, 0x41] : CString) ≠ [] := nofun
  have hname : ¬ IsRootName [0x5C, 0x41] := by
    rw [IsRootName]
    decide
  -- MKDIR takes one more entry for the directory
  have hmade : (lanAfter directoriesHost l (edfsRequest edfsFuncMkdir [0x5C, 0x41])).edfs =
      (clearedEdfs used).register [0x2F, 0x41] [0x5C, 0x41] := by
    rw [edfs_lanAfter, stepChange_edfsRequest directoriesHost (by rw [hl]; rfl) _ (by decide), hl]
    rfl
  rw [makeRemove, runAll_cons, runAll_cons, runAll_nil]
  generalize lanAfter directoriesHost l (edfsRequest edfsFuncMkdir [0x5C, 0x41]) = l' at hmade ⊢
  have hinited : l'.edfs.inited = true := by
    rw [hmade, (Edfs.root_register _ _ _).2]
    rfl
  have hframe : framePath (edfsFrame edfsFuncRmdir [0x5C, 0x41]) 0x3E 0x3C =
      some [0x5C, 0x41] := by decide
  -- RMDIR clears the entry, but it stays taken
  have hchange : requestChange directoriesHost (edfsFrame edfsFuncRmdir [0x5C, 0x41]) 0x3E l'.edfs
      l'.host = .removes [0x2F, 0x41] := by
    rw [requestChange, if_pos (edfsFrame_func _ _), pathChange, hframe, Option.elim_some,
      removeChange, hmade, clusterLookup83_clearedEdfs hpos hroom hpath hname]
    rfl
  rw [edfs_lanAfter, stepChange_edfsRequest directoriesHost hinited _ (by decide)]
  change ((requestChange directoriesHost (edfsFrame edfsFuncRmdir [0x5C, 0x41]) 0x3E l'.edfs
    l'.host).apply l'.edfs) = _
  rw [hchange, hmade, RegistryChange.apply_removes]
  exact unregister_register_clearedEdfs hpos hroom hpath _

/-- Every time an entry more is used. -/
theorem edfs_makeRemove_repeated {n : ℕ} (hn : n < edfsClusterMax) :
    (runAll (lanAfter directoriesHost) (lanInit (edfsInit []) ())
      (List.replicate n makeRemove).flatten).edfs = clearedEdfs (n + 1) := by
  induction n with
  | zero => rfl
  | succ n ih =>
    rw [List.replicate_succ', List.flatten_append, List.flatten_singleton, runAll_append]
    exact edfs_makeRemove (Nat.succ_pos n) hn (ih (Nat.lt_of_succ_lt hn))

/-- Of cleared entries only the root is registered. -/
theorem liveCount_clearedEdfs (used : ℕ) : (clearedEdfs used).liveCount ≤ 1 := by
  have hcount : (clearedEdfs used).liveCount = (List.range used).count 0 := by
    refine List.countP_congr fun i _ => ?_
    simp [clearedEdfs, edfsInit]
  rw [hcount]
  exact List.nodup_iff_count_le_one.mp List.nodup_range 0

/-- After 1023 directories have been made and removed, no new path can be registered. -/
theorem register_exhausted : ¬ ∀ (η : Type) (host : Host η) (root : CString) (h : η)
    (steps : List LanStep),
    RegistersNew (runAll (lanAfter host) (lanInit (edfsInit root) h) steps) := by
  intro hall
  have hnew := hall Unit directoriesHost [] () (List.replicate 1023 makeRemove).flatten
  rw [registersNew_iff (wellFormed_runAll directoriesHost [] () _),
    edfs_makeRemove_repeated (by decide)] at hnew
  exact absurd (hnew ((liveCount_clearedEdfs _).trans_lt (by decide))) (by decide)

end Pc20iii
