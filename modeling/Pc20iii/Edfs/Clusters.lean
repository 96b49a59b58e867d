import Pc20iii.Edfs.Registry
import Pc20iii.Program.Labelled
import Mathlib.Tactic.Common

/-!
# The registry as a state machine

What `edfs.c` does to its table of paths: a path is registered under an 8.3 name, or a path is
unregistered. Here the two are functions of the table alone, with the lemma for each that the
program on the network computes it, and one lemma for each on what it can do (`register_cases`,
`unregister_cases`).

A registered path keeps its index, an unregistered one leaves an entry with empty strings
behind, and an index is not used again. `Edfs.WellFormed` is what holds of every table that
`edfs_init` and the operations lead to. `RegistryChange` is what a request asks of the table: at
most one path is unregistered, and then some are registered.
-/

namespace Pc20iii

open StateProgram

variable {η : Type} {e : Edfs}

/-! ### Operations -/

namespace Edfs

/-- The index of a path. -/
def index (e : Edfs) (path : CString) : Option ℕ := e.findCluster fun entry => entry.path = path

/-- `edfs_cluster_register`, on the table. -/
def register (e : Edfs) (path path83 : CString) : Edfs :=
  if (e.index path).isSome ∨ e.clusterUsed ≥ edfsClusterMax then e
  else
    { e.setCluster e.clusterUsed { path := path, path83 := path83 } with
      clusterUsed := e.clusterUsed + 1 }

/-- `edfs_cluster_unregister`, on the table. -/
def unregister (e : Edfs) (path : CString) : Edfs :=
  match e.index path with
  | none => e
  | some cluster => e.setCluster cluster { path := [], path83 := [] }

end Edfs

@[simp] theorem outcome_getEdfs (l : Lan η) : outcome getEdfs l = (l.edfs, l) := by
  rfl

/-- Registering changes the registry only. -/
theorem outcome_edfsClusterRegister (path path83 : CString) (l : Lan η) :
    (outcome (edfsClusterRegister path path83) l).2.edfs = l.edfs.register path path83 ∧
      (outcome (edfsClusterRegister path path83) l).2.net = l.net ∧
      (outcome (edfsClusterRegister path path83) l).2.host = l.host := by
  rw [edfsClusterRegister, outcome_bind, outcome_getEdfs, Edfs.register, Edfs.index]
  dsimp only
  -- a path that is registered keeps its number, and a full table is left
  by_cases hindex : (l.edfs.findCluster fun entry => entry.path = path).isSome = true
  · rw [if_pos hindex, if_pos (Or.inl hindex)]
    exact ⟨rfl, rfl, rfl⟩
  · rw [if_neg hindex]
    by_cases hfull : l.edfs.clusterUsed ≥ edfsClusterMax
    · rw [if_pos hfull, if_pos (Or.inr hfull)]
      exact ⟨rfl, rfl, rfl⟩
    · rw [if_neg hfull, if_neg (not_or.mpr ⟨hindex, hfull⟩)]
      exact ⟨rfl, rfl, rfl⟩

/-- Unregistering changes the registry only. -/
theorem outcome_edfsClusterUnregister (path : CString) (l : Lan η) :
    (outcome (edfsClusterUnregister path) l).2.edfs = l.edfs.unregister path ∧
      (outcome (edfsClusterUnregister path) l).2.net = l.net ∧
      (outcome (edfsClusterUnregister path) l).2.host = l.host := by
  rw [edfsClusterUnregister, outcome_bind, outcome_getEdfs, Edfs.unregister, Edfs.index]
  dsimp only
  cases l.edfs.findCluster fun entry => entry.path = path with
  | none => exact ⟨rfl, rfl, rfl⟩
  | some cluster => exact ⟨rfl, rfl, rfl⟩

/-! ### Indices -/

namespace Edfs

theorem findCluster_eq_some {p : EdfsCluster → Bool} {i : ℕ} :
    e.findCluster p = some i ↔
      i < e.clusterUsed ∧ p (e.cluster i) = true ∧ ∀ j < i, p (e.cluster j) = false := by
  rw [findCluster, List.find?_range_eq_some, List.mem_range]
  constructor
  · rintro ⟨hpath, hi, hbefore⟩
    exact ⟨hi, hpath, fun j hj => (Bool.not_eq_true' _).mp (hbefore j hj)⟩
  · rintro ⟨hi, hpath, hbefore⟩
    exact ⟨hpath, hi, fun j hj => (Bool.not_eq_true' _).mpr (hbefore j hj)⟩

theorem index_eq_some {path : CString} {i : ℕ} :
    e.index path = some i ↔
      i < e.clusterUsed ∧ (e.cluster i).path = path ∧ ∀ j < i, (e.cluster j).path ≠ path := by
  simp only [index, findCluster_eq_some, decide_eq_true_eq, decide_eq_false_iff_not, ne_eq]

theorem index_eq_none {path : CString} :
    e.index path = none ↔ ∀ i < e.clusterUsed, (e.cluster i).path ≠ path := by
  simp only [index, findCluster, List.find?_eq_none, List.mem_range, decide_eq_true_eq, ne_eq]

/-- An entry that is in use and has a path of its own: not the root, and not unregistered. -/
structure Live (e : Edfs) (i : ℕ) : Prop where
  lt : i < e.clusterUsed
  path : (e.cluster i).path ≠ []

/-- What holds of the registry at all times. -/
structure WellFormed (e : Edfs) : Prop where
  pos : 0 < e.clusterUsed
  le : e.clusterUsed ≤ edfsClusterMax
  root : (e.cluster 0).path = []
  unique : ∀ {i j}, e.Live i → e.Live j → (e.cluster i).path = (e.cluster j).path → i = j
  dead : ∀ i, (e.cluster i).path = [] → (e.cluster i).path83 = []

namespace WellFormed

variable {path path83 : CString} {i : ℕ}

/-- The index of a path is that of its entry. -/
theorem index_eq_some_iff (h : e.WellFormed) (hpath : path ≠ []) :
    e.index path = some i ↔ i < e.clusterUsed ∧ (e.cluster i).path = path := by
  constructor
  · intro hindex
    obtain ⟨hi, heq, -⟩ := index_eq_some.mp hindex
    exact ⟨hi, heq⟩
  · rintro ⟨hi, heq⟩
    refine index_eq_some.mpr ⟨hi, heq, fun j hj hj' => ?_⟩
    have hlive : e.Live i := ⟨hi, heq.symm ▸ hpath⟩
    have hlive' : e.Live j := ⟨hj.trans hi, hj'.symm ▸ hpath⟩
    exact absurd (h.unique hlive' hlive (hj'.trans heq.symm)) (Nat.ne_of_lt hj)

end WellFormed

/-! ### What the operations do -/

/-- A path that was not known is appended. -/
structure Appends (e : Edfs) (path path83 : CString) (e' : Edfs) : Prop where
  new : ∀ i < e.clusterUsed, (e.cluster i).path ≠ path
  room : e.clusterUsed < edfsClusterMax
  used : e'.clusterUsed = e.clusterUsed + 1
  self : e'.cluster e.clusterUsed = { path := path, path83 := path83 }
  other : ∀ i ≠ e.clusterUsed, e'.cluster i = e.cluster i

/-- The entry of a path is cleared. -/
structure Clears (e : Edfs) (i : ℕ) (e' : Edfs) : Prop where
  used : e'.clusterUsed = e.clusterUsed
  self : e'.cluster i = { path := [], path83 := [] }
  other : ∀ j ≠ i, e'.cluster j = e.cluster j

/-- A path is new, and there is room for it. -/
structure Registers (e : Edfs) (path : CString) : Prop where
  new : e.index path = none
  room : e.clusterUsed < edfsClusterMax

theorem registers_iff {path : CString} :
    e.Registers path ↔ ¬ ((e.index path).isSome ∨ e.clusterUsed ≥ edfsClusterMax) := by
  rw [not_or, Option.not_isSome_iff_eq_none, Nat.not_le]
  exact ⟨fun h => ⟨h.new, h.room⟩, fun h => ⟨h.1, h.2⟩⟩

instance (path : CString) : Decidable (e.Registers path) := decidable_of_iff' _ registers_iff

/-- `register` has nothing to do, or appends. -/
theorem register_cases (e : Edfs) (path path83 : CString) :
    (((e.index path).isSome ∨ e.clusterUsed ≥ edfsClusterMax) ∧ e.register path path83 = e) ∨
      e.Appends path path83 (e.register path path83) := by
  by_cases hskip : (e.index path).isSome ∨ e.clusterUsed ≥ edfsClusterMax
  · exact .inl ⟨hskip, if_pos hskip⟩
  · rw [register, if_neg hskip]
    obtain ⟨hindex, hroom⟩ := not_or.mp hskip
    rw [Option.not_isSome_iff_eq_none] at hindex
    refine .inr ⟨index_eq_none.mp hindex, Nat.lt_of_not_ge hroom, rfl, ?_, fun i hi => ?_⟩
    · exact Function.update_self ..
    · exact Function.update_of_ne hi ..

/-- `unregister` has nothing to do, or clears the entry of the path. -/
theorem unregister_cases (e : Edfs) (path : CString) :
    (e.index path = none ∧ e.unregister path = e) ∨
      ∃ i, e.index path = some i ∧ e.Clears i (e.unregister path) := by
  rw [unregister]
  cases hindex : e.index path with
  | none => exact .inl ⟨rfl, rfl⟩
  | some i =>
    refine .inr ⟨i, rfl, rfl, ?_, fun j hj => ?_⟩
    · exact Function.update_self ..
    · exact Function.update_of_ne hj ..

/-- The operations leave the host directory that is served alone. -/
theorem root_register (e : Edfs) (path path83 : CString) :
    (e.register path path83).root = e.root ∧ (e.register path path83).inited = e.inited := by
  rw [register]
  split <;> exact ⟨rfl, rfl⟩

/-- A new entry behind the last one keeps the registry well formed, as its path is in no entry
before it. -/
theorem Appends.wellFormed {path path83 : CString} {e' : Edfs} (h : e.WellFormed)
    (happends : e.Appends path path83 e') : e'.WellFormed := by
  have hused := happends.used
  have hzero : 0 ≠ e.clusterUsed := Nat.ne_of_lt h.pos
  have hpath : path ≠ [] := fun heq => happends.new 0 h.pos (h.root.trans heq.symm)
  -- a live entry is the new one, or was live before
  have hlive : ∀ {i}, e'.Live i → i = e.clusterUsed ∨ i ≠ e.clusterUsed ∧ e.Live i := by
    intro i hi
    by_cases heq : i = e.clusterUsed
    · exact .inl heq
    · have hlt := hi.lt
      exact .inr ⟨heq, by omega, happends.other i heq ▸ hi.path⟩
  constructor
  · omega
  · have hroom := happends.room
    omega
  · rw [happends.other 0 hzero, h.root]
  · intro i j hi hj heq
    -- the path of the new entry is new, and the old ones are as they were
    rcases hlive hi with rfl | ⟨hi', hi⟩ <;> rcases hlive hj with rfl | ⟨hj', hj⟩
    · rfl
    · rw [happends.self, happends.other j hj'] at heq
      exact absurd heq.symm (happends.new j hj.lt)
    · rw [happends.self, happends.other i hi'] at heq
      exact absurd heq (happends.new i hi.lt)
    · rw [happends.other i hi', happends.other j hj'] at heq
      exact h.unique hi hj heq
  · intro i hi
    by_cases heq : i = e.clusterUsed
    · rw [heq, happends.self] at hi
      exact absurd hi hpath
    · rw [happends.other i heq] at hi ⊢
      exact h.dead i hi

/-- An entry that is cleared keeps the registry well formed: nothing new is live. -/
theorem Clears.wellFormed {i : ℕ} {e' : Edfs} (h : e.WellFormed) (hclears : e.Clears i e') :
    e'.WellFormed := by
  have hused := hclears.used
  -- a live entry was live before
  have hlive : ∀ {j}, e'.Live j → j ≠ i ∧ e.Live j := by
    intro j hj
    have hne : j ≠ i := fun heq => hj.path (by rw [heq, hclears.self])
    exact ⟨hne, hused ▸ hj.lt, hclears.other j hne ▸ hj.path⟩
  constructor
  · rw [hused]
    exact h.pos
  · rw [hused]
    exact h.le
  · by_cases hzero : 0 = i
    · rw [hzero, hclears.self]
    · rw [hclears.other 0 hzero, h.root]
  · intro j k hj hk heq
    rw [hclears.other j (hlive hj).1, hclears.other k (hlive hk).1] at heq
    exact h.unique (hlive hj).2 (hlive hk).2 heq
  · intro j hj
    by_cases heq : j = i
    · rw [heq, hclears.self]
    · rw [hclears.other j heq] at hj ⊢
      exact h.dead j hj

theorem WellFormed.register (h : e.WellFormed) (path path83 : CString) :
    (e.register path path83).WellFormed := by
  rcases register_cases e path path83 with ⟨-, heq⟩ | happends
  · rw [heq]
    exact h
  · exact happends.wellFormed h

theorem WellFormed.unregister (h : e.WellFormed) (path : CString) :
    (e.unregister path).WellFormed := by
  rcases unregister_cases e path with ⟨-, heq⟩ | ⟨i, -, hclears⟩
  · rw [heq]
    exact h
  · exact hclears.wellFormed h

theorem wellFormed_edfsInit (root : CString) : (edfsInit root).WellFormed where
  pos := Nat.one_pos
  le := Nat.le_of_ble_eq_true rfl
  root := rfl
  unique hi _ _ := absurd rfl hi.path
  dead _ _ := rfl

/-! ### Changes -/

end Edfs

/-- What a request does to the registry: it unregisters a path or none, and then registers
paths under 8.3 names. -/
structure RegistryChange where
  unregistered : Option CString
  registered : List (CString × CString)

namespace RegistryChange

/-- The registry stays as it is. -/
def nothing : RegistryChange where
  unregistered := none
  registered := []

/-- A path is registered. -/
def adds (path path83 : CString) : RegistryChange where
  unregistered := none
  registered := [(path, path83)]

/-- A path is unregistered. -/
def removes (path : CString) : RegistryChange where
  unregistered := some path
  registered := []

/-- The registry after the first part of a change. -/
def unregister (c : RegistryChange) (e : Edfs) : Edfs := c.unregistered.elim e e.unregister

/-- The registry after a change. -/
def apply (c : RegistryChange) (e : Edfs) : Edfs :=
  c.registered.foldl (fun e r => e.register r.1 r.2) (c.unregister e)

@[simp] theorem apply_nothing (e : Edfs) : nothing.apply e = e := rfl

@[simp] theorem apply_adds (path path83 : CString) (e : Edfs) :
    (adds path path83).apply e = e.register path path83 := rfl

@[simp] theorem apply_removes (path : CString) (e : Edfs) :
    (removes path).apply e = e.unregister path := rfl

end RegistryChange

theorem RegistryChange.wellFormed_unregister (h : e.WellFormed) (c : RegistryChange) :
    (c.unregister e).WellFormed := by
  rw [RegistryChange.unregister]
  cases c.unregistered with
  | none => exact h
  | some path => exact h.unregister path

theorem Edfs.WellFormed.change (h : e.WellFormed) (c : RegistryChange) :
    (c.apply e).WellFormed := by
  have hunregister := c.wellFormed_unregister h
  rw [RegistryChange.apply]
  generalize c.unregister e = e' at hunregister ⊢
  induction c.registered generalizing e' with
  | nil => exact hunregister
  | cons r rest ih => exact ih _ (hunregister.register r.1 r.2)

namespace Edfs

/-! ### Lookups -/

theorem clusterLookup_eq_some {cluster : Word} {path : CString} :
    e.clusterLookup cluster = some path ↔
      (cluster.toNat < edfsClusterMax ∧ cluster.toNat < e.clusterUsed) ∧
        (e.cluster cluster.toNat).path = path := by
  rw [clusterLookup]
  by_cases hused : cluster.toNat < edfsClusterMax ∧ cluster.toNat < e.clusterUsed
  · rw [if_pos hused, Option.some_inj, and_iff_right hused]
  · rw [if_neg hused]
    exact iff_of_false nofun fun h => hused h.1

/-- Registering leaves the meaning of the cluster numbers alone. -/
theorem clusterLookup_register {cluster : Word} {dir : CString}
    (h : e.clusterLookup cluster = some dir) (path path83 : CString) :
    (e.register path path83).clusterLookup cluster = some dir := by
  rcases register_cases e path path83 with ⟨-, heq⟩ | happends
  · rw [heq]
    exact h
  · obtain ⟨⟨hmax, hlt⟩, hdir⟩ := clusterLookup_eq_some.mp h
    have hused := happends.used
    refine clusterLookup_eq_some.mpr ⟨⟨hmax, by omega⟩, ?_⟩
    rw [happends.other _ (Nat.ne_of_lt hlt), hdir]

end Edfs

end Pc20iii
