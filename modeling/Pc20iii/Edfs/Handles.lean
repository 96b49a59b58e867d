import Pc20iii.Edfs.Names

/-!
# Cluster numbers as handles

FINDFIRST, FINDNEXT and OPEN give the guest the cluster number of a path, and READ, WRITE and
FINDNEXT take it back at any later time. An index of the registry is never used for another
path, so the number keeps its meaning while the path is registered. Once the path has been
unregistered, the number is not refused: it means the empty path, which is the root.
-/

namespace Pc20iii

open StateProgram

variable {η : Type} (host : Host η) {e : Edfs} {cluster : Word} {path : CString}

namespace Edfs

/-- Unregistering a path makes its cluster number mean the root, and leaves the others alone. -/
theorem clusterLookup_unregister (h : e.WellFormed)
    (hlookup : e.clusterLookup cluster = some path) (removed : CString) :
    (e.unregister removed).clusterLookup cluster = some (if removed = path then [] else path) := by
  obtain ⟨⟨hmax, hlt⟩, hpath⟩ := clusterLookup_eq_some.mp hlookup
  rcases unregister_cases e removed with ⟨hindex, heq⟩ | ⟨i, hindex, hclears⟩
  · have hne : removed ≠ path := fun heq =>
      index_eq_none.mp hindex _ hlt (hpath.trans heq.symm)
    rw [heq, if_neg hne, hlookup]
  · have hused : cluster.toNat < edfsClusterMax ∧
        cluster.toNat < (e.unregister removed).clusterUsed :=
      ⟨hmax, hclears.used.symm ▸ hlt⟩
    refine clusterLookup_eq_some.mpr ⟨hused, ?_⟩
    by_cases hi : cluster.toNat = i
    · have hremoved : removed = path := by
        rw [← (index_eq_some.mp hindex).2.1, ← hi, hpath]
      rw [hi, hclears.self, if_pos hremoved]
    · rw [hclears.other _ hi, hpath]
      by_cases hremoved : removed = path
      · rw [if_pos hremoved]
        -- the path has one entry, unless it is the root's
        by_contra hne
        have hindex' := (h.index_eq_some_iff hne).mpr ⟨hlt, hpath⟩
        rw [hremoved, hindex'] at hindex
        exact hi (Option.some.inj hindex)
      · rw [if_neg hremoved]

end Edfs

/-- After a change, a cluster number means what it meant, or the root if the path has been
unregistered. -/
theorem clusterLookup_change (h : e.WellFormed) (hlookup : e.clusterLookup cluster = some path)
    (c : RegistryChange) :
    (c.apply e).clusterLookup cluster = some (if c.unregistered = some path then [] else path) := by
  have hunregister : (c.unregister e).clusterLookup cluster =
      some (if c.unregistered = some path then [] else path) := by
    rw [RegistryChange.unregister]
    cases c.unregistered with
    | none => exact hlookup
    | some removed =>
      simp only [Option.some_inj]
      exact Edfs.clusterLookup_unregister h hlookup removed
  rw [RegistryChange.apply]
  -- what is registered then does not move an entry
  generalize c.unregister e = e' at hunregister ⊢
  induction c.registered generalizing e' with
  | nil => exact hunregister
  | cons r rest ih => exact ih _ (Edfs.clusterLookup_register hunregister r.1 r.2)

/-! ### Runs -/

/-- The step does not unregister the path. The root is registered at all times. -/
def StepKeeps (path : CString) (l : Lan η) (s : LanStep) : Prop :=
  (stepChange host l s).unregistered = some path → path = []

theorem clusterLookup_lanAfter {l : Lan η} (h : l.edfs.WellFormed)
    (hlookup : l.edfs.clusterLookup cluster = some path) (s : LanStep) :
    (lanAfter host l s).edfs.clusterLookup cluster =
      some (if (stepChange host l s).unregistered = some path then [] else path) := by
  rw [edfs_lanAfter]
  exact clusterLookup_change h hlookup _

/-- A cluster number that means the root does so for good. -/
theorem clusterLookup_nil_run {l : Lan η} (h : l.edfs.WellFormed)
    (hlookup : l.edfs.clusterLookup cluster = some []) (steps : List LanStep) :
    (runAll (lanAfter host) l steps).edfs.clusterLookup cluster = some [] := by
  have hstep : ∀ (l : Lan η) (s : LanStep),
      l.edfs.WellFormed ∧ l.edfs.clusterLookup cluster = some [] →
        (lanAfter host l s).edfs.WellFormed ∧
          (lanAfter host l s).edfs.clusterLookup cluster = some [] := by
    rintro l s ⟨h, hlookup⟩
    refine ⟨wellFormed_lanAfter host h s, ?_⟩
    rw [clusterLookup_lanAfter host h hlookup s, ite_self]
  exact (runAll_invariant hstep ⟨h, hlookup⟩ steps).2

/-- A run that unregisters the path ends with its number meaning the root. -/
theorem clusterLookup_run_of_not {l : Lan η} (h : l.edfs.WellFormed)
    (hlookup : l.edfs.clusterLookup cluster = some path) {steps : List LanStep}
    (hsteps : ¬ Along (lanAfter host) (StepKeeps host path) l steps) :
    (runAll (lanAfter host) l steps).edfs.clusterLookup cluster = some [] := by
  -- up to the step that unregisters the path, the number means it
  induction steps generalizing l with
  | nil => exact absurd trivial hsteps
  | cons s rest ih =>
    have hafter := clusterLookup_lanAfter host h hlookup s
    have hwell := wellFormed_lanAfter host h s
    by_cases hkeeps : StepKeeps host path l s
    · have hpath :
          (if (stepChange host l s).unregistered = some path then [] else path) = path := by
        split
        case isTrue hremoved => exact (hkeeps hremoved).symm
        case isFalse => rfl
      rw [hpath] at hafter
      exact ih hwell hafter fun hrest => hsteps ⟨hkeeps, hrest⟩
    -- this is the step; from it on the number means the root
    · obtain ⟨hremoved, -⟩ := not_forall.mp hkeeps
      rw [if_pos hremoved] at hafter
      exact clusterLookup_nil_run host hwell hafter rest

/-- A run that does not unregister the path ends with its number meaning it. -/
theorem clusterLookup_run_of {l : Lan η} (h : l.edfs.WellFormed)
    (hlookup : l.edfs.clusterLookup cluster = some path) {steps : List LanStep}
    (hsteps : Along (lanAfter host) (StepKeeps host path) l steps) :
    (runAll (lanAfter host) l steps).edfs.clusterLookup cluster = some path := by
  have hstep : ∀ (l : Lan η) (s : LanStep),
      l.edfs.WellFormed ∧ l.edfs.clusterLookup cluster = some path → StepKeeps host path l s →
        (lanAfter host l s).edfs.WellFormed ∧
          (lanAfter host l s).edfs.clusterLookup cluster = some path := by
    -- a step that unregisters the path is none of this run
    rintro l s ⟨hl, hfound⟩ hkeeps
    refine ⟨wellFormed_lanAfter host hl s, ?_⟩
    rw [clusterLookup_lanAfter host hl hfound s]
    split
    case isTrue hremoved => rw [hkeeps hremoved]
    case isFalse => rfl
  exact (runAll_keeps hstep ⟨h, hlookup⟩ hsteps).2

/-- The root is never unregistered. -/
theorem along_stepKeeps_nil (l : Lan η) (steps : List LanStep) :
    Along (lanAfter host) (StepKeeps host []) l steps :=
  along_of_invariant (I := fun _ => True) (fun _ _ _ => trivial) (fun _ _ _ _ => rfl) trivial steps

/-- **Cluster numbers as handles.** In a run from `edfs_init`, a cluster number that means a path
means it in every later state, or is refused once a step has unregistered the path, exactly if no
later step unregisters it. Otherwise it means the root in the end. -/
theorem handle_kept_iff (root : CString) (h : η) (before after : List LanStep)
    (hlookup : (runAll (lanAfter host) (lanInit (edfsInit root) h) before).edfs.clusterLookup
      cluster = some path) :
    let l := runAll (lanAfter host) (lanInit (edfsInit root) h) before
    let found := fun steps => (runAll (lanAfter host) l steps).edfs.clusterLookup cluster
    ((∀ steps, steps <+: after → found steps = some path ∨
        ¬ Along (lanAfter host) (StepKeeps host path) l steps ∧ found steps = none) ↔
      Along (lanAfter host) (StepKeeps host path) l after) ∧
    (¬ Along (lanAfter host) (StepKeeps host path) l after → found after = some []) := by
  intro l found
  have hwell : l.edfs.WellFormed := wellFormed_runAll host root h before
  -- once the path is unregistered the number means the root, and is never refused
  have hlost : ∀ {steps}, ¬ Along (lanAfter host) (StepKeeps host path) l steps →
      found steps = some [] := clusterLookup_run_of_not host hwell hlookup
  refine ⟨⟨fun hfound => ?_, fun hkeeps steps hsteps => .inl ?_⟩, hlost⟩
  · by_contra hnot
    rcases hfound after (List.prefix_refl after) with hpath | ⟨-, hnone⟩
    · -- it means the root, so the path is the root, which is never unregistered
      have hnil : path = [] := Option.some.inj (hpath.symm.trans (hlost hnot))
      rw [hnil] at hnot
      exact hnot (along_stepKeeps_nil host l after)
    · exact Option.some_ne_none _ ((hlost hnot).symm.trans hnone)
  · obtain ⟨rest, rfl⟩ := hsteps
    exact clusterLookup_run_of host hwell hlookup ((along_append ..).mp hkeeps).1

/-- A host with one file, which can be removed. -/
def removableHost : Host Unit := { filesHost [[0x41]] with unlink := fun _ h => (true, h) }

/-- The cluster number of the file `A` keeps its meaning while the root is listed again. -/
theorem handle_kept_listing :
    let l := runAll (lanAfter removableHost) (lanInit (edfsInit [0x2F, 0x72]) ()) listRoot
    let found := fun steps => (runAll (lanAfter removableHost) l steps).edfs.clusterLookup 1
    ((∀ steps, steps <+: listRoot → found steps = some [0x2F, 0x41] ∨
        ¬ Along (lanAfter removableHost) (StepKeeps removableHost [0x2F, 0x41]) l steps ∧
          found steps = none) ↔
      Along (lanAfter removableHost) (StepKeeps removableHost [0x2F, 0x41]) l listRoot) ∧
    (¬ Along (lanAfter removableHost) (StepKeeps removableHost [0x2F, 0x41]) l listRoot →
      found listRoot = some []) :=
  handle_kept_iff removableHost [0x2F, 0x72] () listRoot listRoot (by decide +kernel)

/-- Once the file `A` has been deleted, its cluster number means the root. -/
theorem handle_lost : ¬ ∀ (η : Type) (host : Host η) (root : CString) (h : η)
    (before after : List LanStep) (cluster : Word) (path : CString),
    let l := runAll (lanAfter host) (lanInit (edfsInit root) h) before
    l.edfs.clusterLookup cluster = some path →
      let found := (runAll (lanAfter host) l after).edfs.clusterLookup cluster
      found = some path ∨ found = none := by
  intro hall
  have hfound := hall Unit removableHost [0x2F, 0x72] () listRoot
    [edfsRequest edfsFuncDelete [0x5C, 0x41]] 1 [0x2F, 0x41] (by decide +kernel)
  exact absurd hfound (by decide +kernel)

end Pc20iii
