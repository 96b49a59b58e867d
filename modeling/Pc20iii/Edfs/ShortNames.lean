import Pc20iii.Edfs.Path

/-!
# Short names

`unixpath_to_path83` makes a DOS path of a host path in one pass: slashes become backslashes, and of
each component the first eight characters are kept, and of its extension the first three.

The loop has a flag and two counters that run on behind the limits. What they are for is a place in
the component, with the room that is left there (`Place`); the loop keeps a character when the place
has room for it (`unixpathToPath83Loop_eq`). `Place.Fits` is the same test without the dropping: it
says of a path that every character has room. The result of the loop fits (`fits_shorten`), and what
fits is kept as it is (`shorten_of_fits`), so that the conversion is idempotent.

A backslash of the host is a character like any other for the loop, and a separator in the result.
It starts a new component there, which has more room (`Place.fits_of_within`).
-/

namespace Pc20iii

/-! ### Places -/

/-- A place in a component, with the room that is left: in the name, or behind its first dot. -/
inductive Place where
  | name (room : ℕ)
  | ext (room : ℕ)

namespace Place

/-- The start of a component. -/
def start : Place := name 8

/-- The place behind one more character, if there is room for it. The first dot needs none. -/
def advance : Place → Byte → Option Place
  | name room, c =>
    if c = dot then some (ext 3) else if room = 0 then none else some (name (room - 1))
  | ext room, _ => if room = 0 then none else some (ext (room - 1))

/-- The place of the loop, by its variables. -/
def ofCounts (inExt : Bool) (count8 count3 : ℕ) : Place :=
  if inExt then ext (3 - count3) else name (8 - count8)

/-- There is no more room at the first place than at the second one. -/
def Within : Place → Place → Prop
  | name room, name room' => room ≤ room'
  | ext room, ext room' => room ≤ room'
  | ext room, name room' => room ≤ room' ∧ room ≤ 3
  | name _, ext _ => False

theorem within_start : start.Within start := Nat.le_refl 8

theorem advance_name_of_ne {c : Byte} (h : c ≠ dot) (room : ℕ) :
    (name room).advance c = if room = 0 then none else some (name (room - 1)) :=
  if_neg h

/-- The test of the loop in the extension. -/
theorem advance_ext_counted (c : Byte) (count3 : ℕ) : (ext (3 - count3)).advance c =
    if count3 + 1 > 3 then none else some (ext (3 - (count3 + 1))) := by
  rw [advance]
  split_ifs
  · rfl
  · omega
  · omega
  · rfl

/-- The test of the loop in the name. -/
theorem advance_name_counted {c : Byte} (h : c ≠ dot) (count8 : ℕ) :
    (name (8 - count8)).advance c =
      if count8 + 1 > 8 then none else some (name (8 - (count8 + 1))) := by
  rw [advance_name_of_ne h]
  split_ifs
  · rfl
  · omega
  · omega
  · rfl

/-- A character that has room still has it where there is more. -/
theorem exists_advance_of_within {p q p' : Place} {c : Byte} (h : p.Within q)
    (hp : p.advance c = some p') : ∃ q', q.advance c = some q' ∧ p'.Within q' := by
  cases p with
  | name room =>
    cases q with
    -- a name is never within an extension
    | ext room' => exact h.elim
    | name room' =>
      have hle : room ≤ room' := h
      by_cases hdot : c = dot
      · rw [advance, if_pos hdot] at hp
        cases hp
        exact ⟨ext 3, if_pos hdot, Nat.le_refl 3⟩
      · rw [advance_name_of_ne hdot] at hp ⊢
        by_cases hroom : room = 0
        · rw [if_pos hroom] at hp
          cases hp
        · rw [if_neg hroom] at hp
          cases hp
          rw [if_neg (by omega)]
          exact ⟨_, rfl, Nat.sub_le_sub_right hle 1⟩
  | ext room =>
    by_cases hroom : room = 0
    · rw [advance, if_pos hroom] at hp
      cases hp
    rw [advance, if_neg hroom] at hp
    cases hp
    cases q with
    | ext room' =>
      have hle : room ≤ room' := h
      rw [advance, if_neg (by omega)]
      exact ⟨_, rfl, Nat.sub_le_sub_right hle 1⟩
    | name room' =>
      -- of an extension and a name, a dot leads both to an extension
      obtain ⟨hle, hthree⟩ : room ≤ room' ∧ room ≤ 3 := h
      by_cases hdot : c = dot
      · exact ⟨ext 3, if_pos hdot, (Nat.sub_le ..).trans hthree⟩
      · rw [advance_name_of_ne hdot, if_neg (by omega)]
        exact ⟨_, rfl, Nat.sub_le_sub_right hle 1, (Nat.sub_le ..).trans hthree⟩

/-- A place of a component stays one. -/
theorem within_start_of_advance {p q : Place} {c : Byte} (h : p.Within start)
    (hq : p.advance c = some q) : q.Within start := by
  cases p with
  | name room =>
    -- a dot starts the extension, any other character takes room of the name
    have hle : room ≤ 8 := h
    by_cases hdot : c = dot
    · rw [advance, if_pos hdot] at hq
      cases hq
      exact ⟨by decide, Nat.le_refl 3⟩
    · rw [advance_name_of_ne hdot] at hq
      split at hq
      · cases hq
      · cases hq
        exact (Nat.sub_le ..).trans hle
  | ext room =>
    obtain ⟨hle, hthree⟩ : room ≤ 8 ∧ room ≤ 3 := h
    rw [advance] at hq
    split at hq
    · cases hq
    · cases hq
      exact ⟨(Nat.sub_le ..).trans hle, (Nat.sub_le ..).trans hthree⟩

/-- Every character has room, from a place on. A backslash starts a component. -/
def Fits : Place → CString → Prop
  | _, [] => True
  | p, c :: rest =>
    if c = backslash then start.Fits rest else ∃ q, p.advance c = some q ∧ q.Fits rest

theorem fits_cons_backslash (p : Place) (rest : CString) :
    p.Fits (backslash :: rest) ↔ start.Fits rest := by
  rw [Fits, if_pos rfl]

theorem fits_cons {p : Place} {c : Byte} (h : c ≠ backslash) (rest : CString) :
    p.Fits (c :: rest) ↔ ∃ q, p.advance c = some q ∧ q.Fits rest := by
  rw [Fits, if_neg h]

/-- What fits still does where there is more room. -/
theorem fits_of_within {p q : Place} (hpq : p.Within q) {s : CString} (h : p.Fits s) :
    q.Fits s := by
  induction s generalizing p q with
  | nil => trivial
  | cons c rest ih =>
    by_cases hc : c = backslash
    · rw [hc, fits_cons_backslash] at h ⊢
      exact h
    · rw [fits_cons hc] at h ⊢
      obtain ⟨p', hp', hrest⟩ := h
      obtain ⟨q', hq', hwithin⟩ := exists_advance_of_within hpq hp'
      exact ⟨q', hq', ih hwithin hrest⟩

end Place

/-! ### The loop -/

/-- What the loop makes of a path, from a place in a component on. -/
def shorten : Place → CString → CString
  | _, [] => []
  | p, c :: rest =>
    if c = slash then backslash :: shorten .start rest
    else if isPrint c then
      match p.advance c with
      | some q => toUpper c :: shorten q rest
      | none => shorten p rest
    else shorten p rest

section Shorten

variable {p q : Place} {c : Byte}

theorem shorten_cons_slash (p : Place) (rest : CString) :
    shorten p (slash :: rest) = backslash :: shorten .start rest := by
  rw [shorten, if_pos rfl]

theorem shorten_cons_of_not_print (h : isPrint c = false) (rest : CString) :
    shorten p (c :: rest) = shorten p rest := by
  have hslash : c ≠ slash := by
    rintro rfl
    exact absurd h (by decide)
  rw [shorten, if_neg hslash, if_neg (by rw [h]; decide)]

theorem shorten_cons_of_some (hslash : c ≠ slash) (hprint : isPrint c = true)
    (h : p.advance c = some q) (rest : CString) :
    shorten p (c :: rest) = toUpper c :: shorten q rest := by
  rw [shorten, if_neg hslash, if_pos hprint, h]

theorem shorten_cons_of_none (hslash : c ≠ slash) (hprint : isPrint c = true)
    (h : p.advance c = none) (rest : CString) :
    shorten p (c :: rest) = shorten p rest := by
  rw [shorten, if_neg hslash, if_pos hprint, h]

/-- The loop keeps what there is room for. While it is in the name, nothing of the extension has
been counted. -/
theorem unixpathToPath83Loop_eq (path : CString) {inExt : Bool} {count8 count3 : ℕ}
    (h : inExt = false → count3 = 0) :
    unixpathToPath83Loop path inExt count8 count3 =
      shorten (.ofCounts inExt count8 count3) path := by
  have hany : ∀ count3 : ℕ, true = false → count3 = 0 := nofun
  induction path generalizing inExt count8 count3 with
  | nil => rfl
  | cons c rest ih =>
    rw [unixpathToPath83Loop]
    by_cases hslash : c = slash
    · -- a slash starts a component, with room for eight and three again
      rw [if_pos hslash, hslash, shorten_cons_slash, ih fun _ => rfl]
      rfl
    rw [if_neg hslash]
    by_cases hprint : isPrint c = true
    case neg =>
      -- a character that cannot be printed is left out and not counted
      have hdot : c ≠ dot := by
        rintro rfl
        exact hprint rfl
      rw [if_neg hdot, if_neg hprint, ih h,
        shorten_cons_of_not_print (Bool.eq_false_iff.mpr hprint)]
    cases inExt with
    | true =>
      -- a dot is a character of the extension like any other
      have hkeep : ∀ x : CString,
          (if c = dot then dot :: x else toUpper c :: x) = toUpper c :: x := by
        intro x
        split
        case isTrue hdot => rw [hdot]; rfl
        case isFalse => rfl
      have hstep := Place.advance_ext_counted c count3
      simp only [if_true, if_pos hprint]
      by_cases hroom : count3 + 1 > 3
      · -- past the third character the count still grows, but there is no room left to lose
        have hsame : 3 - (count3 + 1) = 3 - count3 := by omega
        rw [if_pos hroom] at hstep
        simp only [if_pos hroom, ite_self]
        rw [ih (hany _), Place.ofCounts, if_pos rfl, hsame]
        exact (shorten_cons_of_none hslash hprint hstep rest).symm
      · rw [if_neg hroom] at hstep
        simp only [if_neg hroom]
        rw [hkeep, ih (hany _)]
        exact (shorten_cons_of_some hslash hprint hstep rest).symm
    | false =>
      have hzero := h rfl
      by_cases hdot : c = dot
      · -- the first dot is always kept
        have hstep : (Place.name (8 - count8)).advance c = some (.ext 3) := if_pos hdot
        have hupper : toUpper c = dot := by rw [hdot]; rfl
        rw [if_pos hdot, if_neg Bool.false_ne_true, ih (hany _), hzero, ← hupper]
        exact (shorten_cons_of_some hslash hprint hstep rest).symm
      have hstep := Place.advance_name_counted hdot count8
      simp only [if_neg hdot, if_pos hprint, Bool.false_eq_true, if_false]
      by_cases hroom : count8 + 1 > 8
      · have hsame : 8 - (count8 + 1) = 8 - count8 := by omega
        rw [if_pos hroom] at hstep
        rw [if_pos hroom, ih h, Place.ofCounts, if_neg Bool.false_ne_true, hsame]
        exact (shorten_cons_of_none hslash hprint hstep rest).symm
      · rw [if_neg hroom] at hstep
        rw [if_neg hroom, ih h]
        exact (shorten_cons_of_some hslash hprint hstep rest).symm

theorem unixpathToPath83_eq (path : CString) : unixpathToPath83 path = shorten .start path :=
  unixpathToPath83Loop_eq path fun _ => rfl

/-! ### The result -/

/-- A character that the loop keeps as it is. -/
structure Kept (c : Byte) : Prop where
  print : isPrint c = true
  upper : toUpper c = c
  ne_slash : c ≠ slash

theorem kept_backslash : Kept backslash := ⟨rfl, rfl, by decide⟩

/-- A character in upper case is one that is kept, and stands where the given one does. -/
theorem kept_toUpper (hprint : isPrint c = true) (hslash : c ≠ slash) :
    Kept (toUpper c) ∧ (toUpper c = dot ↔ c = dot) := by
  have hall : ∀ c : Byte, isPrint c = true → c ≠ slash →
      (isPrint (toUpper c) = true ∧ toUpper (toUpper c) = toUpper c ∧ toUpper c ≠ slash) ∧
        (toUpper c = dot ↔ c = dot) := by decide
  obtain ⟨⟨hp, hu, hs⟩, hdot⟩ := hall c hprint hslash
  exact ⟨⟨hp, hu, hs⟩, hdot⟩

theorem advance_toUpper (h : toUpper c = dot ↔ c = dot) (p : Place) :
    p.advance (toUpper c) = p.advance c := by
  cases p with
  | name room => simp only [Place.advance, h]
  | ext room => rfl

/-- Every character of the result is kept. -/
theorem kept_shorten (p : Place) (path : CString) : ∀ c ∈ shorten p path, Kept c := by
  fun_induction shorten p path with
  | case1 p => exact nofun
  | case2 p rest ih => exact List.forall_mem_cons.mpr ⟨kept_backslash, ih⟩
  | case3 p c rest hslash hprint q hq ih =>
    exact List.forall_mem_cons.mpr ⟨(kept_toUpper hprint hslash).1, ih⟩
  | case4 p c rest hslash hprint hq ih => exact ih
  | case5 p c rest hslash hprint ih => exact ih

/-- Every character of the result has room. -/
theorem fits_shorten {p : Place} (hp : p.Within .start) (path : CString) :
    p.Fits (shorten p path) := by
  fun_induction shorten p path with
  | case1 p => trivial
  | case2 p rest ih =>
    exact (Place.fits_cons_backslash p _).mpr (ih Place.within_start)
  | case3 p c rest hslash hprint q hq ih =>
    have hwithin := Place.within_start_of_advance hp hq
    by_cases hback : toUpper c = backslash
    · -- a separator in the result, where there is more room
      rw [hback, Place.fits_cons_backslash]
      exact Place.fits_of_within hwithin (ih hwithin)
    · rw [Place.fits_cons hback, advance_toUpper (kept_toUpper hprint hslash).2]
      exact ⟨q, hq, ih hwithin⟩
  | case4 p c rest hslash hprint hq ih => exact ih hp
  | case5 p c rest hslash hprint ih => exact ih hp

/-- Backslashes are turned back into slashes. -/
def toSlashes (path83 : CString) : CString :=
  path83.map fun c => if c = backslash then slash else c

/-- What fits is kept as it is. -/
theorem shorten_of_fits {s : CString} (hkept : ∀ c ∈ s, Kept c) (h : p.Fits s) :
    shorten p (toSlashes s) = s := by
  induction s generalizing p with
  | nil => rfl
  | cons c rest ih =>
    obtain ⟨hc, hrest⟩ := List.forall_mem_cons.mp hkept
    rw [toSlashes, List.map_cons, ← toSlashes]
    by_cases hback : c = backslash
    · rw [hback, Place.fits_cons_backslash] at h
      rw [if_pos hback, shorten_cons_slash, ih hrest h, hback]
    · obtain ⟨q, hq, hfits⟩ := (Place.fits_cons hback rest).mp h
      rw [if_neg hback, shorten_cons_of_some hc.ne_slash hc.print hq, ih hrest hfits, hc.upper]

/-- A component has at most as many characters as there is room for, from a place in it on: those
before its first dot, and those behind it. -/
def Place.Short : Place → CString → Prop
  | name room, component => (component.takeWhile (· ≠ dot)).length ≤ room ∧
      ((component.dropWhile (· ≠ dot)).drop 1).length ≤ 3
  | ext room, component => component.length ≤ room

theorem Place.short_nil (p : Place) : p.Short [] := by
  cases p with
  | name room => exact ⟨Nat.zero_le _, Nat.zero_le _⟩
  | ext room => exact Nat.zero_le _

/-- What fits behind a character fits with it. -/
theorem Place.short_cons (h : p.advance c = some q) {component : CString}
    (hq : q.Short component) : p.Short (c :: component) := by
  cases p with
  | name room =>
    by_cases hdot : c = dot
    · rw [advance, if_pos hdot] at h
      cases h
      -- the name ends here, and the rest is the extension
      rw [hdot]
      exact ⟨Nat.zero_le _, hq⟩
    · have hne : decide (c ≠ dot) = true := decide_eq_true hdot
      rw [advance_name_of_ne hdot] at h
      split at h
      case isTrue => cases h
      case isFalse hroom =>
        cases h
        -- the character is one more of the name, whose room has been checked
        obtain ⟨hname, hext⟩ : (component.takeWhile (· ≠ dot)).length ≤ room - 1 ∧
          ((component.dropWhile (· ≠ dot)).drop 1).length ≤ 3 := hq
        constructor
        · rw [List.takeWhile_cons_of_pos (p := fun x => decide (x ≠ dot)) hne, List.length_cons]
          omega
        · rw [List.dropWhile_cons_of_pos (p := fun x => decide (x ≠ dot)) hne]
          exact hext
  | ext room =>
    rw [advance] at h
    split at h
    case isTrue => cases h
    case isFalse hroom =>
      cases h
      -- within the extension all is counted
      have hle : component.length ≤ room - 1 := hq
      change component.length + 1 ≤ room
      omega

/-- What fits has short components: the rest of one, and whole ones behind it. -/
theorem Place.short_of_fits {s : CString} (h : p.Fits s) :
    ∃ first rest, s.splitOn backslash = first :: rest ∧ p.Short first ∧
      ∀ component ∈ rest, start.Short component := by
  induction s generalizing p with
  | nil => exact ⟨[], [], rfl, p.short_nil, nofun⟩
  | cons c s ih =>
    rw [List.splitOn_cons_eq_if_modifyHead]
    by_cases hback : c = backslash
    · rw [hback, fits_cons_backslash] at h
      obtain ⟨first, rest, hsplit, hfirst, hrest⟩ := ih h
      refine ⟨[], first :: rest, ?_, p.short_nil, List.forall_mem_cons.mpr ⟨hfirst, hrest⟩⟩
      rw [hback, if_pos (beq_self_eq_true backslash), hsplit]
    -- the character goes on with the first component
    · obtain ⟨q, hq, hfits⟩ := (fits_cons hback s).mp h
      obtain ⟨first, rest, hsplit, hfirst, hrest⟩ := ih hfits
      refine ⟨c :: first, rest, ?_, short_cons hq hfirst, hrest⟩
      rw [if_neg (fun heq => hback (eq_of_beq heq)), hsplit]
      rfl

/-- Behind a slash the loop starts anew. -/
theorem shorten_append_slash (p : Place) (dir name : CString) :
    shorten p (dir ++ slash :: name) = shorten p dir ++ backslash :: shorten .start name := by
  fun_induction shorten p dir with
  | case1 p => exact shorten_cons_slash p name
  | case2 p rest ih => rw [List.cons_append, shorten_cons_slash, ih, List.cons_append]
  | case3 p c rest hslash hprint q hq ih =>
    rw [List.cons_append, shorten_cons_of_some hslash hprint hq, ih, List.cons_append]
  | case4 p c rest hslash hprint hq ih =>
    rw [List.cons_append, shorten_cons_of_none hslash hprint hq, ih]
  | case5 p c rest hslash hprint ih =>
    rw [List.cons_append, shorten_cons_of_not_print (Bool.eq_false_iff.mpr hprint), ih]

/-- The components are converted one by one. -/
theorem shorten_intercalate (components : List CString) :
    shorten .start ([slash].intercalate components) =
      [backslash].intercalate (components.map (shorten .start)) := by
  induction components with
  | nil => rfl
  | cons component rest ih =>
    cases rest with
    | nil => rw [List.intercalate_singleton, List.map_singleton, List.intercalate_singleton]
    | cons next rest =>
      rw [List.intercalate_cons_cons, List.append_assoc, List.singleton_append,
        shorten_append_slash, ih, List.map_cons, List.map_cons, List.map_cons,
        List.intercalate_cons_cons, List.append_assoc, List.singleton_append]

/-- Nothing is made up: what is kept of a component are characters of it, in upper case. -/
theorem sublist_shorten (p : Place) {component : CString} (h : slash ∉ component) :
    (shorten p component).Sublist (component.map toUpper) := by
  fun_induction shorten p component with
  | case1 p => exact List.Sublist.refl _
  | case2 p rest ih => exact absurd List.mem_cons_self h
  | case3 p c rest hslash hprint q hq ih =>
    exact (ih fun hmem => h (List.mem_cons_of_mem c hmem)).cons_cons _
  | case4 p c rest hslash hprint hq ih =>
    exact (ih fun hmem => h (List.mem_cons_of_mem c hmem)).cons _
  | case5 p c rest hslash hprint ih =>
    exact (ih fun hmem => h (List.mem_cons_of_mem c hmem)).cons _

/-- A component does not have the separator in it. -/
theorem not_mem_of_mem_splitOn {sep : Byte} {path component : CString}
    (h : component ∈ path.splitOn sep) : sep ∉ component := by
  induction path generalizing component with
  | nil =>
    rw [List.splitOn_nil, List.mem_singleton] at h
    rw [h]
    exact List.not_mem_nil
  | cons c rest ih =>
    rw [List.splitOn_cons_eq_if_modifyHead] at h
    -- there is always a first component, which gets the character unless it separates
    obtain ⟨first, others, hsplit⟩ := List.exists_cons_of_ne_nil (List.splitOn_ne_nil sep rest)
    rw [hsplit] at h ih
    split at h
    case isTrue =>
      rcases List.mem_cons.mp h with rfl | h
      · exact List.not_mem_nil
      · exact ih h
    case isFalse hsep =>
      rcases List.mem_cons.mp h with rfl | h
      · intro hmem
        rcases List.mem_cons.mp hmem with rfl | hmem
        · exact hsep (beq_self_eq_true sep)
        · exact ih List.mem_cons_self hmem
      · exact ih (List.mem_cons_of_mem first h)

/-- The DOS path of a host path. -/
structure IsShortPath (path path83 : CString) : Prop where
  /-- Each slash is one backslash, between the conversions of the components beside it. -/
  separators : path83 = [backslash].intercalate ((path.splitOn slash).map unixpathToPath83)
  /-- What is kept of a component are characters of it, in upper case. -/
  kept : ∀ component ∈ path.splitOn slash,
    (unixpathToPath83 component).Sublist (component.map toUpper)
  /-- Eight characters before the first dot, and three behind it. -/
  short : ∀ component ∈ path83.splitOn backslash,
    (component.takeWhile (· ≠ dot)).length ≤ 8 ∧
      ((component.dropWhile (· ≠ dot)).drop 1).length ≤ 3
  /-- To convert it again changes nothing. -/
  idempotent : unixpathToPath83 (toSlashes path83) = path83

/-- **Short names.** What `unixpath_to_path83` makes of any path has its separators where the path
has them and short components between them, and is kept when it is converted again. -/
theorem isShortPath_unixpathToPath83 (path : CString) :
    IsShortPath path (unixpathToPath83 path) := by
  have hshorten : unixpathToPath83 = shorten .start := funext unixpathToPath83_eq
  -- what is kept has room in its component, which is what short means
  have hfits := fits_shorten Place.within_start path
  rw [hshorten]
  refine ⟨?_, fun component hcomponent => ?_, ?_, ?_⟩
  · rw [hshorten, ← shorten_intercalate, List.intercalate_splitOn]
  · rw [hshorten]
    exact sublist_shorten .start (not_mem_of_mem_splitOn hcomponent)
  · obtain ⟨first, rest, hsplit, hfirst, hrest⟩ := Place.short_of_fits hfits
    rw [hsplit]
    exact List.forall_mem_cons.mpr ⟨hfirst, hrest⟩
  · rw [hshorten]
    exact shorten_of_fits (kept_shorten .start path) hfits

end Shorten

end Pc20iii
