import Pc20iii.Edfs.Registry

/-!
# Reading paths of EtherDFS

How a host path is read, component by component, and which components the functions on
strings in `edfs.c` put into one.

* `climb`, `pathDepth`: how far below its start a path leads, unless it climbs above it.
* `Edfs.requested`: the components that a guest path asks for.
* `pathDepth_path83ToUnixpath`: `path83_to_unixpath` puts just these into the host path, the
  components `..` among them. Slashes of the guest separate components, as backslashes do.
* `pathDepth_joinPath`: an entry of a directory is one more component.
-/

namespace Pc20iii

/-! ### Components -/

/-- How far below the start one is after another component. `..` goes up, which `none` says
is not possible at the start. -/
def climb (depth : ℕ) (component : CString) : Option ℕ :=
  if component = [] ∨ component = [dot] then some depth
  else if component = [dot, dot] then
    if depth = 0 then none else some (depth - 1)
  else some (depth + 1)

/-- How far below its start a path leads, or `none` when it climbs above it. -/
def pathDepth (path : CString) : Option ℕ := (path.splitOn slash).foldlM climb 0

/-- The path does not climb above its start. -/
def Stays (path : CString) : Prop := (pathDepth path).isSome

instance (path : CString) : Decidable (Stays path) := inferInstanceAs (Decidable (_ = true))

theorem stays_nil : Stays [] := rfl

@[simp] theorem climb_nil (depth : ℕ) : climb depth [] = some depth := rfl

/-- Only `..` at the start is not possible. -/
theorem isSome_climb {depth : ℕ} {component : CString}
    (h : component = [dot, dot] → depth ≠ 0) : (climb depth component).isSome := by
  unfold climb
  split
  · rfl
  · split
    case isTrue hdots => rw [if_neg (h hdots)]; rfl
    case isFalse => rfl

/-- Two paths with a slash between them are read one after the other. -/
theorem pathDepth_append_slash (a b : CString) :
    pathDepth (a ++ slash :: b) = (pathDepth a).bind ((b.splitOn slash).foldlM climb ·) := by
  rw [pathDepth, List.splitOn_append_cons_self, List.foldlM_append]
  rfl

/-- An entry of a directory is one more component. -/
theorem pathDepth_joinPath (dir : CString) {name : CString} (h : slash ∉ name) :
    pathDepth (joinPath dir name) = (pathDepth dir).bind (climb · name) := by
  rw [joinPath, pathDepth_append_slash, List.splitOn_eq_singleton h]
  simp

/-- An entry stays below the start, unless it is `..` at the start. -/
theorem stays_joinPath {dir name : CString} (hname : slash ∉ name) (hdir : Stays dir)
    (h : name = [dot, dot] → pathDepth dir ≠ some 0) : Stays (joinPath dir name) := by
  obtain ⟨depth, hdepth⟩ := Option.isSome_iff_exists.mp hdir
  rw [Stays, pathDepth_joinPath dir hname, hdepth, Option.bind_some]
  exact isSome_climb fun hdots hzero => h hdots (hdepth.trans (congrArg some hzero))

theorem joinPath_joinPath (root dir name : CString) :
    joinPath (joinPath root dir) name = joinPath root (joinPath dir name) := by
  rw [joinPath, joinPath, joinPath, joinPath, List.append_assoc, List.cons_append]

/-! ### Guest paths -/

/-- Both slashes separate components of a guest path. -/
def isSeparator (c : Byte) : Bool := c = slash || c = backslash

/-- The components of a guest path, without the characters that are not printable. -/
def guestComponents (path83 : CString) : List CString :=
  (path83.filter isPrint).splitOnP isSeparator

/-- The directory that is known for a guest path, and the rest of the path. -/
def Edfs.known (e : Edfs) (path83 : CString) : CString × CString :=
  match e.clusterLookup83 (path83Dirname path83) with
  | some (_, dir) => (dir, path83.drop (path83Dirname path83).length)
  | none => ([], path83)

/-- The components that a guest path asks for: those of the directory that is known for it,
and those of the rest. -/
def Edfs.requested (e : Edfs) (path83 : CString) : List CString :=
  (e.known path83).1.splitOn slash ++ guestComponents (e.known path83).2

theorem path83ToUnixpath_eq (e : Edfs) (path83 : CString) :
    e.path83ToUnixpath path83 = (e.known path83).1 ++ path83Convert (e.known path83).2 := by
  unfold Edfs.path83ToUnixpath Edfs.known
  cases e.clusterLookup83 (path83Dirname path83) <;> rfl

/-- The conversion drops the characters that are not printed, and changes the others one by one. -/
theorem length_path83Convert (path83 : CString) :
    (path83Convert path83).length = (path83.filter isPrint).length := by
  induction path83 with
  | nil => rfl
  | cons c rest ih =>
    unfold path83Convert
    split
    case isTrue hc =>
      rw [hc, List.filter_cons_of_pos (by decide), List.length_cons, List.length_cons, ih]
    case isFalse =>
      split
      case isTrue hprint =>
        rw [List.filter_cons_of_pos hprint, List.length_cons, List.length_cons, ih]
      case isFalse hprint => rw [List.filter_cons_of_neg hprint, ih]

/-- What is converted character by character has the components of the guest path. -/
theorem splitOn_path83Convert (path83 : CString) :
    (path83Convert path83).splitOn slash = guestComponents path83 := by
  unfold guestComponents
  induction path83 with
  | nil => rfl
  | cons c rest ih =>
    unfold path83Convert
    split
    case isTrue hc =>
      rw [hc, List.filter_cons_of_pos (by decide), List.splitOn_cons_eq_if_modifyHead,
        List.splitOnP_cons_eq_if_modifyHead, ih]
      rfl
    case isFalse hc =>
      split
      case isTrue hprint =>
        -- the slash of the host is the other separator
        have hsep : isSeparator c = (c == slash) := by
          rw [isSeparator, decide_eq_false hc, Bool.or_false]
          rfl
        rw [List.filter_cons_of_pos hprint, List.splitOn_cons_eq_if_modifyHead,
          List.splitOnP_cons_eq_if_modifyHead, ih, hsep]
      case isFalse hprint => rw [List.filter_cons_of_neg hprint, ih]

/-- The directory part ends before a backslash. -/
theorem exists_path83Dirname {path83 : CString} (h : backslash ∈ path83) :
    ∃ base, path83 = path83Dirname path83 ++ backslash :: base := by
  have hne : path83.rdropWhile (· ≠ backslash) ≠ [] := fun hnil =>
    absurd (List.rdropWhile_eq_nil_iff.mp hnil backslash h) (by decide)
  have hlast : (path83.rdropWhile (· ≠ backslash)).getLast hne = backslash := by
    simpa using List.rdropWhile_last_not (· ≠ backslash) path83 hne
  have hconcat := List.dropLast_append_getLast hne
  rw [hlast] at hconcat
  obtain ⟨base, hbase⟩ := List.rdropWhile_prefix (· ≠ backslash) (l := path83)
  refine ⟨base, ?_⟩
  rw [path83Dirname, if_pos h, ← List.singleton_append, ← List.append_assoc, hconcat, hbase]

/-- What is behind the directory part is empty or starts with a backslash. -/
theorem drop_path83Dirname (path83 : CString) :
    path83.drop (path83Dirname path83).length = [] ∨
      ∃ base, path83.drop (path83Dirname path83).length = backslash :: base := by
  by_cases h : backslash ∈ path83
  · obtain ⟨base, hbase⟩ := exists_path83Dirname h
    have hdrop := congrArg (List.drop (path83Dirname path83).length) hbase
    rw [List.drop_left] at hdrop
    exact .inr ⟨base, hdrop⟩
  · left
    rw [path83Dirname, if_neg h, List.drop_length]

/-- **What is converted.** The components of the host path are those that the guest path asks
for. -/
theorem pathDepth_path83ToUnixpath (e : Edfs) (path83 : CString) :
    pathDepth (e.path83ToUnixpath path83) = (e.requested path83).foldlM climb 0 := by
  -- the converted rest goes behind the directory that is known, by a slash of its own
  have hjoin : ∀ dir rest : CString, (dir = [] ∨ rest = [] ∨ ∃ base, rest = backslash :: base) →
      pathDepth (dir ++ path83Convert rest) =
        (pathDepth dir).bind ((guestComponents rest).foldlM climb ·) := by
    rintro dir rest (rfl | rfl | ⟨base, rfl⟩)
    · rw [List.nil_append, pathDepth, splitOn_path83Convert]
      rfl
    · -- nothing is left, which is one more empty component
      rw [path83Convert, List.append_nil]
      cases pathDepth dir <;> rfl
    · rw [path83Convert, if_pos rfl, pathDepth_append_slash, splitOn_path83Convert]
      cases pathDepth dir <;> rfl
  rw [path83ToUnixpath_eq, Edfs.requested, List.foldlM_append, hjoin]
  · rfl
  · unfold Edfs.known
    split
    · exact .inr (drop_path83Dirname path83)
    · exact .inl rfl

/-! ### Lengths -/

/-- The loop of `unixpath_to_path83` starts anew behind a slash. -/
theorem length_unixpathToPath83Loop (dir name : CString) (inExt : Bool) (count8 count3 : ℕ) :
    (unixpathToPath83 name).length ≤
      (unixpathToPath83Loop (dir ++ slash :: name) inExt count8 count3).length := by
  induction dir generalizing inExt count8 count3 with
  | nil =>
    rw [List.nil_append, unixpathToPath83Loop, if_pos rfl]
    exact Nat.le_succ _
  | cons c rest ih =>
    rw [List.cons_append, unixpathToPath83Loop]
    split_ifs <;> first | exact ih .. | exact (ih ..).trans (Nat.le_succ _)

theorem length_unixpathToPath83_le (dir name : CString) :
    (unixpathToPath83 name).length ≤ (unixpathToPath83 (joinPath dir name)).length :=
  length_unixpathToPath83Loop dir name false 0 0

end Pc20iii
