import Pc20iii.Net.Bounds
import Pc20iii.Edfs.Requests

/-!
# Strings and their arrays

`edfs.c` puts a path of the guest into an array of `EDFS_PATH83_MAX` characters and a host path
into one of `EDFS_PATH_MAX`, and no function looks at the length before: `strncpy` leaves a long
string without its terminator, and the loops write on. A string of `len` characters fits an array
of `capacity` with its terminator when `len < capacity`; the history has both for every string.

What comes out of the functions is as long as what goes in says: `length_path83Convert` counts
the characters that are printed, `length_unixpathToPath83` cuts every component to eight
characters and an extension. So that all strings fit is a condition on the requests
(`strings_fit_iff`): on the paths of the guest, on the directory that is known for them, and on
the names in the directories that are listed.
-/

namespace Pc20iii

open StateProgram

variable {η : Type} (host : Host η)

/-! ### Lengths of shortened paths -/

/-- What `unixpath_to_path83` keeps of a component: eight characters before the first dot, and
four from there on. -/
def shortComponent (name : CString) : ℕ :=
  min 8 ((name.takeWhile (· ≠ dot)).countP isPrint) +
    min 4 ((name.dropWhile (· ≠ dot)).countP isPrint)

/-- What `unixpath_to_path83` keeps of a path. -/
def shortPath (path : CString) : ℕ :=
  path.count slash + ((path.splitOn slash).map shortComponent).sum

/-- What the loop keeps of the rest of a component. -/
def keptOf (inExt : Bool) (count8 count3 : ℕ) (name : CString) : ℕ :=
  if inExt then min (3 - count3) (name.countP isPrint)
  else
    min (8 - count8) ((name.takeWhile (· ≠ dot)).countP isPrint) +
      min 4 ((name.dropWhile (· ≠ dot)).countP isPrint)

theorem keptOf_start (name : CString) : keptOf false 0 0 name = shortComponent name := by
  rfl

theorem keptOf_nil (inExt : Bool) (count8 count3 : ℕ) : keptOf inExt count8 count3 [] = 0 := by
  cases inExt <;> simp [keptOf]

/-- A character of an extension is kept while there are fewer than three. -/
theorem keptOf_ext_cons {c : Byte} (hc : isPrint c = true) (count8 count3 : ℕ) (name : CString) :
    keptOf true count8 count3 (c :: name) =
      (if count3 + 1 > 3 then 0 else 1) + keptOf true count8 (count3 + 1) name := by
  simp only [keptOf, if_true, List.countP_cons_of_pos hc]
  split <;> omega

/-- A character of a name is kept while there are fewer than eight. -/
theorem keptOf_name_cons {c : Byte} (hc : isPrint c = true) (hdot : c ≠ dot) (count8 count3 : ℕ)
    (name : CString) :
    keptOf false count8 count3 (c :: name) =
      (if count8 + 1 > 8 then 0 else 1) + keptOf false (count8 + 1) count3 name := by
  have htake : (c :: name).takeWhile (· ≠ dot) = c :: name.takeWhile (· ≠ dot) :=
    List.takeWhile_cons_of_pos (decide_eq_true hdot)
  have hdrop : (c :: name).dropWhile (· ≠ dot) = name.dropWhile (· ≠ dot) :=
    List.dropWhile_cons_of_pos (decide_eq_true hdot)
  simp only [keptOf, Bool.false_eq_true, if_false, htake, hdrop, List.countP_cons_of_pos hc]
  split <;> omega

/-- An extension starts at a dot. -/
theorem keptOf_dot (count8 count3 : ℕ) (name : CString) :
    keptOf false count8 count3 (dot :: name) = 1 + keptOf true count8 0 name := by
  have htake : (dot :: name).takeWhile (· ≠ dot) = [] :=
    List.takeWhile_cons_of_neg (by decide)
  have hdrop : (dot :: name).dropWhile (· ≠ dot) = dot :: name :=
    List.dropWhile_cons_of_neg (by decide)
  have hprint : isPrint dot = true := by decide
  simp only [keptOf, if_true, Bool.false_eq_true, if_false, htake, hdrop, List.countP_nil,
    List.countP_cons_of_pos hprint]
  omega

/-- A character that is not printed is left out. -/
theorem keptOf_cons_of_not {c : Byte} (hc : ¬ isPrint c = true) (inExt : Bool)
    (count8 count3 : ℕ) (name : CString) :
    keptOf inExt count8 count3 (c :: name) = keptOf inExt count8 count3 name := by
  have hdot : c ≠ dot := fun heq => hc (heq ▸ by decide)
  have htake : (c :: name).takeWhile (· ≠ dot) = c :: name.takeWhile (· ≠ dot) :=
    List.takeWhile_cons_of_pos (decide_eq_true hdot)
  have hdrop : (c :: name).dropWhile (· ≠ dot) = name.dropWhile (· ≠ dot) :=
    List.dropWhile_cons_of_pos (decide_eq_true hdot)
  simp only [keptOf, htake, hdrop, List.countP_cons_of_neg hc]

/-- The loop is in a component; outside the extension nothing of one has been counted. -/
theorem length_unixpathToPath83Loop_eq {path name : CString} {names : List CString}
    (hsplit : path.splitOn slash = name :: names) {inExt : Bool} {count8 count3 : ℕ}
    (hcount : inExt = false → count3 = 0) :
    (unixpathToPath83Loop path inExt count8 count3).length =
      path.count slash + (keptOf inExt count8 count3 name + (names.map shortComponent).sum) := by
  induction path generalizing name names inExt count8 count3 with
  | nil =>
    cases hsplit
    cases inExt <;> simp [unixpathToPath83Loop, keptOf]
  | cons c rest ih =>
    obtain ⟨first, others, hrest⟩ := List.exists_cons_of_ne_nil (List.splitOn_ne_nil slash rest)
    have hnext : ∀ inExt count8 count3, (inExt = false → count3 = 0) →
        (unixpathToPath83Loop rest inExt count8 count3).length = rest.count slash +
          (keptOf inExt count8 count3 first + (others.map shortComponent).sum) :=
      fun _ _ _ hcount => ih hrest hcount
    have hext : ∀ n, true = false → n = 0 := fun _ h => absurd h (by decide)
    rw [List.splitOn_cons_eq_if_modifyHead, hrest] at hsplit
    unfold unixpathToPath83Loop
    by_cases hslash : c = slash
    · -- a new component starts
      rw [if_pos (beq_iff_eq.mpr hslash)] at hsplit
      cases hsplit
      rw [if_pos hslash, List.length_cons, hnext false 0 0 fun _ => rfl, hslash,
        List.count_cons_self, keptOf_start, keptOf_nil, List.map_cons, List.sum_cons]
      omega
    rw [if_neg (mt beq_iff_eq.mp hslash), List.modifyHead_cons] at hsplit
    cases hsplit
    rw [if_neg hslash, List.count_cons_of_ne hslash]
    by_cases hprint : isPrint c = true
    -- a character that is not printed is left out of the name
    case neg =>
      have hdot : c ≠ dot := fun heq => hprint (heq ▸ by decide)
      rw [if_neg hdot, if_neg hprint, hnext _ _ _ hcount, keptOf_cons_of_not hprint]
    cases inExt with
    | true =>
      -- the dot counts like any other character
      have hlength : ∀ c' : Byte, (if count3 + 1 > 3 then
          unixpathToPath83Loop rest true count8 (count3 + 1)
          else c' :: unixpathToPath83Loop rest true count8 (count3 + 1)).length =
          rest.count slash + (keptOf true count8 count3 (c :: first) +
            (names.map shortComponent).sum) := by
        intro c'
        rw [keptOf_ext_cons hprint]
        split
        · rw [hnext true _ _ (hext _), Nat.zero_add]
        · rw [List.length_cons, hnext true _ _ (hext _)]
          omega
      rw [if_pos hprint, if_pos rfl, if_pos rfl]
      split
      · exact hlength dot
      · exact hlength (toUpper c)
    -- before the extension a dot starts one, and any other character counts for the name
    | false =>
      by_cases hdot : c = dot
      · rw [if_pos hdot, if_neg Bool.false_ne_true, List.length_cons, hnext true _ _ (hext _), hdot,
          keptOf_dot, hcount rfl]
        omega
      · rw [if_neg hdot, if_pos hprint, if_neg Bool.false_ne_true, keptOf_name_cons hprint hdot]
        split
        · rw [hnext _ _ _ hcount, Nat.zero_add]
        · rw [List.length_cons, hnext _ _ _ hcount]
          omega

theorem length_unixpathToPath83 (path : CString) :
    (unixpathToPath83 path).length = shortPath path := by
  obtain ⟨name, names, hsplit⟩ := List.exists_cons_of_ne_nil (List.splitOn_ne_nil slash path)
  rw [unixpathToPath83, length_unixpathToPath83Loop_eq hsplit fun _ => rfl, shortPath, hsplit,
    keptOf_start, List.map_cons, List.sum_cons]

/-! ### Conditions -/

/-- What is asked of a guest path that is converted: it fits the array of its directory part, and
the directory that is known for it leaves room for what is printed of the rest. -/
structure Edfs.ConvertFits (e : Edfs) (path83 : CString) : Prop where
  fits83 : path83.length < edfsPath83Max
  fits : (e.known path83).1.length + ((e.known path83).2.filter isPrint).length < edfsPathMax

/-- What is asked of the entries of a directory that is listed, in order: the shortened path fits,
and so does the path of an entry that is registered. -/
def Edfs.EntriesFit (e : Edfs) : List (CString × CString) → Prop
  | [] => True
  | (path, path83) :: rest =>
    (shortPath path < edfsPath83Max ∧ (e.Registers path → path.length < edfsPathMax)) ∧
      (e.register path path83).EntriesFit rest

/-- What is asked of a search: its pattern fits, and so do the entries that it registers. -/
structure SearchFits (host : Host η) (e : Edfs) (h : η) (attrib : Byte) (pattern : CString)
    (cluster targetPos : Word) : Prop where
  fits : attrib ≠ 0x08 → targetPos = 0 → pattern.length < edfsPath83Max
  entries : e.EntriesFit (findChange host e h attrib pattern cluster targetPos).registered

/-- What is asked of a request. -/
def RequestFits (tx : ℕ → Byte) (txLen : ℕ) (e : Edfs) (h : η) : Prop :=
  if tx 0x3B = edfsFuncMkdir then ∀ path ∈ framePath tx txLen 0x3C, e.ConvertFits path
  else if tx 0x3B = edfsFuncFindfirst then
    ∀ pattern ∈ framePath tx txLen 0x3D, SearchFits host e h (tx 0x3C) pattern 0 0
  else if tx 0x3B = edfsFuncFindnext then
    ∀ pattern ∈ framePath tx txLen 0x41,
      SearchFits host e h (tx 0x40) pattern (txWordLE tx 0x3C) (txWordLE tx 0x3E)
  else if tx 0x3B = edfsFuncRename then
    ∀ dst ∈ framePath tx txLen (0x3D + (tx 0x3C).toNat),
      ∀ src ∈ framePath tx (0x3D + (tx 0x3C).toNat) 0x3D,
        (e.clusterLookup83 src).isSome → e.ConvertFits dst
  else if tx 0x3B = edfsFuncCreate then
    ∀ path ∈ framePath tx txLen 0x42, e.OpenConverts path 0x0012 → e.ConvertFits path
  else if tx 0x3B = edfsFuncSpopnfil then
    ∀ path ∈ framePath tx txLen 0x42, e.OpenConverts path (txWordLE tx 0x3E) → e.ConvertFits path
  else True

/-- What is asked of a step. -/
def StringsFit (l : Lan η) : LanStep → Prop
  | .transmit tx txLen =>
    IsRequest tx → l.edfs.inited = true → RequestFits host tx txLen.toNat l.edfs l.host
  | .poll | .taken => True

theorem Edfs.ConvertFits.length_path83ToUnixpath {e : Edfs} {path83 : CString}
    (h : e.ConvertFits path83) : (e.path83ToUnixpath path83).length < edfsPathMax := by
  rw [path83ToUnixpath_eq, List.length_append, length_path83Convert]
  exact h.fits

/-! ### Rules -/

/-- Every string so far fits its array, with its terminator. -/
def Lan.Fits (l : Lan η) : Prop := ∀ capacity len, .buffer capacity len ∈ l.log → len < capacity

/-- EtherDFS has the variables `e`, the host is in state `h`, and every string fits exactly
when `F`. -/
structure Lan.Judged (F : Prop) (e : Edfs) (h : η) (l : Lan η) : Prop extends l.In e h where
  fits : l.Fits ↔ F

/-- The event is not about a string. -/
def NetEvent.NoString : NetEvent → Prop
  | .buffer _ _ => False
  | _ => True

/-- The steps that put no string anywhere. -/
abbrev NoStringAction : ∀ α : Type, N η α → Prop := LanAction NetEvent.NoString fun _ _ => ()

instance : HostEvents NetEvent.NoString (fun _ _ => ()) where
  rxWrite _ := trivial
  ipHeader := trivial
  setBytes _ _ _ := rfl
  ipId _ _ := rfl
  rxLen _ _ := rfl
  txRead _ := trivial
  rxWrites _ _ := trivial
  ipChecksum _ _ := trivial
  hostPath _ := trivial
  crash := trivial

instance : ReadyEvents NetEvent.NoString (fun _ _ => ()) where
  built := trivial
  rxReady _ := rfl

instance : SendtoEvents NetEvent.NoString where
  sendto _ _ _ _ := trivial

instance : SendEvents NetEvent.NoString where
  send _ _ _ _ _ := trivial

instance : TcpEvents NetEvent.NoString (fun _ _ => ()) where
  opened _ _ _ := trivial
  applied _ _ := trivial
  closed _ := trivial
  segment _ _ _ _ _ := trivial
  tcpSockets _ _ := rfl

instance generated_noString_modifyEdfs (f : Edfs → Edfs) :
    Generated NoStringAction (modifyEdfs f : N η Unit) := .action _ (.edfs f fun _ _ => rfl)

/-- One more string fits if those before it do and it does. -/
theorem Lan.fits_cons {l : Lan η} {capacity len : ℕ} {es : List NetEvent}
    (hlog : l.log = .buffer capacity len :: es) :
    l.Fits ↔ (∀ capacity len, .buffer capacity len ∈ es → len < capacity) ∧ len < capacity := by
  rw [Lan.Fits, hlog]
  constructor
  · intro h
    exact ⟨fun c n hmem => h c n (List.mem_cons_of_mem _ hmem), h _ _ List.mem_cons_self⟩
  · rintro ⟨hes, hlen⟩ c n hmem
    rcases List.mem_cons.mp hmem with heq | hmem
    · cases heq
      exact hlen
    · exact hes c n hmem

/-- Without a new string nothing changes. -/
theorem Lan.Extends.fits {l l' : Lan η} (h : l.Extends NetEvent.NoString (fun _ _ => ()) l') :
    l'.Fits ↔ l.Fits := by
  obtain ⟨es, hlog, hes⟩ := h.log
  rw [Lan.Fits, hlog]
  refine forall_congr' fun capacity => forall_congr' fun len => imp_congr_left ?_
  rw [List.mem_append, or_iff_right]
  exact fun hmem => hes _ hmem

section Rules

variable {α β : Type} {F G : Prop} {e : Edfs} {h : η} {x : N η α}

theorem Lan.Judged.congr {l : Lan η} (hl : l.Judged F e h) (hFG : F ↔ G) : l.Judged G e h :=
  ⟨hl.toIn, hl.fits.trans hFG⟩

/-- A step that puts no string anywhere, after which the variables do not matter. -/
theorem triple_fits_of (hx : Generated NoStringAction x) :
    Triple (Lan.Judged F e h) x fun _ l => l.Fits ↔ F :=
  fun l hl => (extends_of_generated hx l).fits.trans hl.fits

theorem triple_judged {e' : Edfs} {h' : η} (hin : Triple (Lan.In e h) x fun _ => Lan.In e' h')
    (hfits : Triple (Lan.Judged F e h) x fun _ l => l.Fits ↔ G) :
    Triple (Lan.Judged F e h) x fun _ => Lan.Judged G e' h' :=
  fun l hl => ⟨hin l hl.toIn, hfits l hl⟩

/-- A step that puts no string anywhere, with what is known of its value. -/
theorem triple_judged_value {e' : Edfs} {h' : η} {P : α → Prop}
    (hin : Triple (Lan.In e h) x fun a l => P a ∧ l.In e' h') (hx : Generated NoStringAction x) :
    Triple (Lan.Judged F e h) x fun a l => P a ∧ l.Judged F e' h' := by
  intro l hl
  obtain ⟨hvalue, hin⟩ := hin l hl.toIn
  exact ⟨hvalue, hin, triple_fits_of hx l hl⟩

/-- A string is put into an array. -/
theorem triple_judged_buffer (capacity len : ℕ) :
    Triple (Lan.Judged F e h) (note (.buffer capacity len) : N η Unit) fun _ =>
      Lan.Judged (F ∧ len < capacity) e h := by
  intro l hl
  refine ⟨⟨hl.edfs, hl.host⟩, ?_⟩
  rw [Lan.fits_cons rfl]
  exact and_congr_left' hl.fits

theorem triple_judged_getEdfs {Q : β → Lan η → Prop} {f : Edfs → N η β}
    (hf : Triple (Lan.Judged F e h) (f e) Q) :
    Triple (Lan.Judged F e h) (getEdfs >>= f) Q := by
  intro l hl
  rw [outcome_bind, outcome_getEdfs, hl.edfs]
  exact hf l hl

theorem triple_judged_rootPath (path : CString) :
    Triple (Lan.Judged F e h) (edfsRootPath path : N η CString) fun p l =>
      p = joinPath e.root path ∧ l.Judged F e h :=
  fun _ hl => ⟨hl.edfs ▸ rfl, hl⟩

theorem triple_judged_hostPath (path : CString) (f : CString → η → α × η) :
    Triple (Lan.Judged F e h) (hostPath path f) fun a l =>
      a = (f path h).1 ∧ l.Judged F e (f path h).2 :=
   triple_judged_value (triple_in_hostPath path f) inferInstance

/-- The registry copies both paths of an entry that it takes. -/
theorem triple_judged_register (path path83 : CString) :
    Triple (Lan.Judged F e h) (edfsClusterRegister path path83 : N η Unit) fun _ =>
      Lan.Judged (F ∧ (e.Registers path →
        path.length < edfsPathMax ∧ path83.length < edfsPath83Max)) (e.register path path83) h := by
  -- nothing is copied without an entry
  have hskip : ¬ e.Registers path → ∀ {x : N η Unit}, Generated NoStringAction x →
      Triple (Lan.Judged F e h) x fun _ l => l.Fits ↔ F ∧ (e.Registers path →
        path.length < edfsPathMax ∧ path83.length < edfsPath83Max) := fun hnot _ hx =>
    (triple_fits_of hx).post fun _ _ hl => hl.trans (and_iff_left fun hreg => absurd hreg hnot).symm
  refine triple_judged (triple_in_register path path83) ?_
  unfold edfsClusterRegister
  refine triple_judged_getEdfs (.ite (fun hindex => ?_) fun hindex => .ite (fun hfull => ?_)
    fun hfull => ?_)
  · exact hskip (fun hreg => Edfs.registers_iff.mp hreg (.inl hindex)) inferInstance
  · exact hskip (fun hreg => Edfs.registers_iff.mp hreg (.inr hfull)) inferInstance
  -- both guards have passed, which is when the registry takes an entry
  · have hregisters : e.Registers path :=
      Edfs.registers_iff.mpr (not_or.mpr ⟨hindex, hfull⟩)
    refine (triple_judged_buffer edfsPathMax path.length).bind fun _ => ?_
    refine (triple_judged_buffer edfsPath83Max path83.length).bind fun _ => ?_
    refine (triple_fits_of inferInstance).post fun _ _ hl => hl.trans ?_
    rw [and_assoc, imp_iff_right hregisters]

theorem triple_judged_unregister (path : CString) :
    Triple (Lan.Judged F e h) (edfsClusterUnregister path : N η Unit) fun _ =>
      Lan.Judged F (e.unregister path) h := by
  refine triple_judged (fun l hl => ?_) ?_
  · obtain ⟨hedfs, -, hhost⟩ := outcome_edfsClusterUnregister path l
    exact ⟨hedfs.trans (congrArg (Edfs.unregister · path) hl.edfs), hhost.trans hl.host⟩
  · unfold edfsClusterUnregister
    refine triple_judged_getEdfs ?_
    split <;> exact triple_fits_of inferInstance

/-- A guest path is converted. -/
theorem triple_judged_unixpath (path83 : CString) :
    Triple (Lan.Judged F e h) (edfsUnixpath path83 : N η CString) fun path l =>
      path = e.path83ToUnixpath path83 ∧ l.Judged (F ∧ e.ConvertFits path83) e h := by
  unfold edfsUnixpath
  refine triple_judged_getEdfs ?_
  refine (triple_judged_buffer edfsPath83Max path83.length).bind fun _ => ?_
  refine (triple_judged_buffer edfsPathMax _).bind fun _ => .ret fun l hl => ⟨rfl, hl.congr ?_⟩
  rw [path83ToUnixpath_eq, List.length_append, length_path83Convert, and_assoc]
  exact and_congr_right' ⟨fun hfits => ⟨hfits.1, hfits.2⟩, fun hfits => ⟨hfits.1, hfits.2⟩⟩

/-- A path that has been converted is registered. -/
theorem triple_judged_register_of {path83 : CString} {e' : Edfs} :
    Triple (Lan.Judged (F ∧ e.ConvertFits path83) e' h)
      (edfsClusterRegister (e.path83ToUnixpath path83) path83 : N η Unit) fun _ =>
        Lan.Judged (F ∧ e.ConvertFits path83) (e'.register (e.path83ToUnixpath path83) path83) h :=
  (triple_judged_register _ path83).post fun _ _ hl =>
    hl.congr (and_iff_left_of_imp fun hfits _ => ⟨hfits.2.length_path83ToUnixpath, hfits.2.fits83⟩)

end Rules

/-! ### Functions -/

section Functions

variable {F : Prop} {e : Edfs} {h : η}

theorem triple_fits_edfsRemove (remove : CString → η → Bool × η) (unknown : Word)
    (path83 : CString) :
    Triple (Lan.Judged F e h) (edfsRemove remove unknown path83) fun _ l => l.Fits ↔ F := by
  unfold edfsRemove
  refine triple_judged_getEdfs ?_
  split
  · exact triple_fits_of inferInstance
  · refine (triple_judged_rootPath _).bind fun tmpPath => .of_and fun _ => ?_
    refine (triple_judged_hostPath tmpPath remove).bind fun ok => .of_and fun _ => ?_
    refine .ite (fun _ => ?_) fun _ => triple_fits_of inferInstance
    exact (triple_judged_unregister _).bind fun _ => triple_fits_of inferInstance

theorem triple_fits_edfsMkdir (path83 : CString) :
    Triple (Lan.Judged F e h) (edfsMkdir host path83) fun _ l =>
      l.Fits ↔ F ∧ e.ConvertFits path83 := by
  unfold edfsMkdir
  refine (triple_judged_unixpath path83).bind fun path => .of_and fun hpath => ?_
  rw [hpath]
  refine (triple_judged_rootPath _).bind fun tmpPath => .of_and fun _ => ?_
  refine (triple_judged_hostPath tmpPath host.mkdir).bind fun ok => .of_and fun _ => ?_
  refine .ite (fun _ => ?_) fun _ => triple_fits_of inferInstance
  exact triple_judged_register_of.bind fun _ => triple_fits_of inferInstance

/-- RENAME converts the new path, if the old one is registered. -/
theorem triple_fits_edfsRename (path83Src path83Dst : CString) :
    Triple (Lan.Judged F e h) (edfsRename host path83Src path83Dst) fun _ l =>
      l.Fits ↔ F ∧ ((e.clusterLookup83 path83Src).isSome → e.ConvertFits path83Dst) := by
  unfold edfsRename
  refine triple_judged_getEdfs ?_
  split
  -- without the old path nothing is copied
  case h_1 hfound =>
    refine (triple_fits_of inferInstance).post fun _ _ hl => hl.trans (and_iff_left ?_).symm
    rw [hfound]
    exact fun hsome => absurd hsome Bool.false_ne_true
  case h_2 cluster src hfound =>
    rw [hfound, Option.isSome_some, imp_iff_right rfl]
    refine (triple_judged_unixpath path83Dst).bind fun path => .of_and fun hpath => ?_
    rw [hpath]
    refine (triple_judged_rootPath src).bind fun tmpSrc => .of_and fun _ => ?_
    -- the path of the registry is not converted, so that only the new one can be too long
    refine (triple_judged (triple_in_of fun _ => ⟨rfl, rfl⟩) (triple_fits_of inferInstance)).bind
      fun _ => ?_
    refine (triple_judged_rootPath _).bind fun tmpDst => .of_and fun _ => ?_
    refine (triple_judged_hostPath tmpDst _).bind fun ok => .of_and fun _ => ?_
    refine .ite (fun _ => ?_) fun _ => triple_fits_of inferInstance
    refine (triple_judged_unregister src).bind fun _ => ?_
    exact triple_judged_register_of.bind fun _ => triple_fits_of inferInstance

/-- A file is created or truncated; the host is in some state. -/
theorem triple_judged_touch {α : Type} {path : CString} {f : Bool → N η α}
    {Q : α → Lan η → Prop} (hf : ∀ ok h', Triple (Lan.Judged F e h') (f ok) Q) :
    Triple (Lan.Judged F e h) (edfsTouch host path >>= f) Q := by
  have htouch : Triple (Lan.Judged F e h) (edfsTouch host path) fun _ l =>
      ∃ h', l.Judged F e h' := by
    intro l hl
    have hquiet : Generated NoStringAction (edfsTouch host path) := inferInstance
    obtain ⟨-, hedfs⟩ := triple_in_touch host path l hl.toIn
    exact ⟨_, ⟨hedfs, rfl⟩, (extends_of_generated hquiet l).fits.trans hl.fits⟩
  exact htouch.bind fun ok l ⟨h', hl⟩ => hf ok h' l hl

/-- The functions that open a file convert its path if they create or truncate it. -/
theorem triple_fits_edfsOpen (path83 : CString) (attrib action : Word) :
    Triple (Lan.Judged F e h) (edfsOpen host path83 attrib action) fun _ l =>
      l.Fits ↔ F ∧ (e.OpenConverts path83 action → e.ConvertFits path83) := by
  -- where no path is converted, the condition is about nothing
  have hnone : ∀ {p : Prop}, ¬ p → ∀ {x : N η Word}, Generated NoStringAction x →
      Triple (Lan.Judged F e h) x fun _ l => l.Fits ↔ F ∧ (p → e.ConvertFits path83) :=
    fun hp _ hx => (triple_fits_of hx).post fun _ _ hl =>
      hl.trans (and_iff_left fun h => absurd h hp).symm
  unfold edfsOpen Edfs.OpenConverts
  refine triple_judged_getEdfs ?_
  cases e.clusterLookup83 path83 with
  | none =>
    dsimp only
    refine .ite (fun haction => ?_) fun haction => hnone haction inferInstance
    rw [imp_iff_right haction]
    refine (triple_judged_unixpath path83).bind fun path => .of_and fun hpath => ?_
    rw [hpath]
    refine (triple_judged_rootPath _).bind fun tmpPath => .of_and fun _ => ?_
    refine triple_judged_touch host fun ok h' => .ite (fun _ => ?_) fun _ =>
      triple_fits_of inferInstance
    -- the entry has the path that has been converted, and fits with it
    refine triple_judged_register_of.bind fun _ => triple_judged_getEdfs ?_
    split <;> exact triple_fits_of inferInstance
  | some found =>
    dsimp only
    refine .ite (fun haction => ?_) fun haction => hnone haction inferInstance
    rw [imp_iff_right haction]
    refine (triple_judged_unixpath path83).bind fun path => .of_and fun _ => ?_
    refine (triple_judged_rootPath _).bind fun tmpPath => .of_and fun _ => ?_
    exact triple_judged_touch host fun ok h' => triple_fits_of inferInstance

/-- The shortened name is no longer than the shortened path, and is registered with it. -/
theorem entryFits_iff (e : Edfs) (F : Prop) (dir name : CString) :
    ((F ∧ (unixpathToPath83 (joinPath dir name)).length < edfsPath83Max) ∧
        (e.Registers (joinPath dir name) → (joinPath dir name).length < edfsPathMax ∧
          (unixpathToPath83 (joinPath dir name)).length < edfsPath83Max)) ∧
        (unixpathToPath83 name).length < edfsPath83Max ↔
      F ∧ (shortPath (joinPath dir name) < edfsPath83Max ∧
        (e.Registers (joinPath dir name) → (joinPath dir name).length < edfsPathMax)) := by
  -- the name is a part of the path, and so is what is left of it
  have hname := length_unixpathToPath83_le dir name
  rw [length_unixpathToPath83 (joinPath dir name)] at hname ⊢
  constructor
  · rintro ⟨⟨⟨hF, hfits⟩, hreg⟩, -⟩
    exact ⟨hF, hfits, fun h => (hreg h).1⟩
  · rintro ⟨hF, hfits, hreg⟩
    exact ⟨⟨⟨hF, hfits⟩, fun h => ⟨hreg h, hfits⟩⟩, hname.trans_lt hfits⟩

/-- The loop registers the entries that `EdfsSearch.registers` says. -/
theorem triple_fits_edfsFindLoop (s : EdfsSearch) (entries : List CString) (pos : Word) :
    Triple (Lan.Judged F e h) (edfsFindLoop host s entries pos) fun _ l =>
      l.Fits ↔ F ∧ e.EntriesFit (s.registers host e.root entries pos h) := by
  have hend : ∀ {F : Prop} {e : Edfs} {h : η} {x : N η Word}, Generated NoStringAction x →
      Triple (Lan.Judged F e h) x fun _ l => l.Fits ↔ F ∧ e.EntriesFit [] := fun hx =>
    (triple_fits_of hx).post fun _ _ hl => hl.trans (and_iff_left trivial).symm
  induction entries generalizing F e h pos with
  | nil =>
    unfold edfsFindLoop
    exact hend inferInstance
  | cons name rest ih =>
    unfold edfsFindLoop EdfsSearch.registers
    dsimp only
    -- hidden names are passed over without a call of the host
    by_cases hhides : s.hides name = true
    · rw [if_pos hhides, if_pos hhides]
      exact ih pos
    rw [if_neg hhides, if_neg hhides]
    refine (triple_judged_rootPath s.path).bind fun path => .of_and fun hpath => ?_
    rw [hpath]
    refine (triple_judged_hostPath _ host.stat).bind fun found => .of_and fun hfound => ?_
    rw [← hfound]
    generalize (host.stat (joinPath (joinPath e.root s.path) name) h).2 = h'
    cases found with
    -- `stat` fails, and the search ends
    | none => exact hend inferInstance
    | some st =>
      dsimp only
      refine .ite (fun hother => ?_) fun hother => ?_
      · rw [if_pos hother]
        exact ih pos
      rw [if_neg hother]
      refine .ite (fun hattrib => ?_) fun hattrib => ?_
      · rw [if_pos hattrib]
        exact ih (pos + 1)
      rw [if_neg hattrib]
      have hquiet : ∀ {F : Prop} {e : Edfs} {h : η} {x : N η Unit}, Generated NoStringAction x →
          (∀ l, (outcome x l).2.edfs = l.edfs ∧ (outcome x l).2.host = l.host) →
          Triple (Lan.Judged F e h) x fun _ => Lan.Judged F e h := fun hx hin =>
        triple_judged (triple_in_of hin) (triple_fits_of hx)
      -- the entry is registered, with its two strings, before it is matched
      refine (hquiet inferInstance fun _ => ⟨rfl, rfl⟩).bind fun _ => ?_
      refine (triple_judged_buffer _ _).bind fun _ => ?_
      refine (triple_judged_register _ _).bind fun _ => ?_
      refine ((triple_judged_buffer _ _).post fun _ _ hl =>
        hl.congr (entryFits_iff e F s.path name)).bind fun _ => ?_
      have hnext := ih (F := F ∧ (shortPath (joinPath s.path name) < edfsPath83Max ∧
          (e.Registers (joinPath s.path name) → (joinPath s.path name).length < edfsPathMax)))
        (e := e.register (joinPath s.path name) (unixpathToPath83 (joinPath s.path name)))
        (h := h') (pos + 1)
      rw [(Edfs.root_register e _ _).1, and_assoc] at hnext
      rw [Edfs.EntriesFit]
      -- the loop goes on unless the entry is accepted at the position that is looked for
      refine .ite (fun hreject => ?_) fun haccept => ?_
      · rw [if_neg fun hand => absurd (hreject.symm.trans hand.1) Bool.false_ne_true]
        exact hnext
      have haccept := (Bool.not_eq_false _).mp haccept
      refine (hquiet inferInstance fun _ => ⟨rfl, rfl⟩).bind fun _ => ?_
      refine .ite (fun htarget => ?_) fun htarget => ?_
      · rw [if_pos ⟨haccept, decide_eq_true htarget⟩]
        exact (triple_fits_of inferInstance).post fun _ _ hl =>
          hl.trans (and_congr_right' (and_iff_left trivial).symm)
      · rw [if_neg fun hand => htarget (of_decide_eq_true hand.2)]
        exact hnext

/-- A search copies the pattern of a FINDFIRST, and the paths of the entries that it registers. -/
theorem triple_fits_edfsFind (attrib : Byte) (pattern : CString) (cluster targetPos : Word) :
    Triple (Lan.Judged F e h) (edfsFind host attrib pattern cluster targetPos) fun _ l =>
      l.Fits ↔ F ∧ SearchFits host e h attrib pattern cluster targetPos := by
  have hsearch : SearchFits host e h attrib pattern cluster targetPos ↔
      (attrib ≠ 0x08 → targetPos = 0 → pattern.length < edfsPath83Max) ∧
        e.EntriesFit (findChange host e h attrib pattern cluster targetPos).registered :=
    ⟨fun hs => ⟨hs.fits, hs.entries⟩, fun hs => ⟨hs.1, hs.2⟩⟩
  rw [hsearch]
  unfold edfsFind findChange
  refine .ite (fun hattrib => ?_) fun hattrib => ?_
  · -- the volume label is not looked up, so no string is converted
    rw [if_pos hattrib]
    refine (triple_fits_of inferInstance).post fun _ _ hl => hl.trans (and_iff_left ?_).symm
    exact ⟨fun hne => absurd hattrib hne, trivial⟩
  rw [if_neg hattrib, imp_iff_right hattrib, ← and_assoc]
  refine triple_judged_getEdfs ?_
  -- FINDFIRST looks the directory of the pattern up, FINDNEXT its cluster
  have hlisted : Triple (Lan.Judged F e h) (if targetPos = 0 then edfsDirLookup pattern
      else pure ((e.clusterLookup cluster).map fun path => (cluster, path)) : N η _)
      fun found l => found = e.listed pattern cluster targetPos ∧
        l.Judged (F ∧ (targetPos = 0 → pattern.length < edfsPath83Max)) e h := by
    rw [Edfs.listed]
    refine .ite (fun hpos => ?_) fun hpos => ?_
    · rw [if_pos hpos, imp_iff_right hpos]
      unfold edfsDirLookup
      refine (triple_judged_buffer _ _).bind fun _ => triple_judged_getEdfs ?_
      exact .ret fun _ hl => ⟨rfl, hl⟩
    · rw [if_neg hpos]
      exact .ret fun _ hl => ⟨rfl, hl.congr (and_iff_left fun h => absurd h hpos).symm⟩
  refine hlisted.bind fun found => .of_and fun hfound => ?_
  -- from here on only the entries of the directory can be too long
  generalize (F ∧ (targetPos = 0 → pattern.length < edfsPath83Max)) = F'
  rw [← hfound]
  -- without a directory there are no entries
  have hnothing : ∀ {h : η} {x : N η Word}, Generated NoStringAction x →
      Triple (Lan.Judged F' e h) x fun _ l => l.Fits ↔ F' ∧ e.EntriesFit [] := fun hx =>
    (triple_fits_of hx).post fun _ _ hl => hl.trans (and_iff_left trivial).symm
  cases found with
  | none => exact hnothing inferInstance
  | some found =>
    obtain ⟨cluster, path⟩ := found
    dsimp only
    refine (triple_judged_rootPath path).bind fun tmpPath => .of_and fun htmpPath => ?_
    refine (triple_judged_hostPath tmpPath host.opendir).bind fun entries =>
      .of_and fun hentries => ?_
    rw [htmpPath] at hentries ⊢
    rw [← hentries]
    generalize (host.opendir (joinPath e.root path) h).2 = h'
    cases entries with
    | none => exact hnothing inferInstance
    | some entries => exact triple_fits_edfsFindLoop host _ entries 0

/-! ### Requests -/

theorem triple_judged_edfsPath (tx : ℕ → Byte) (txLen offset : ℕ) :
    Triple (Lan.Judged F e h) (edfsPath tx txLen offset : N η (Option (Option CString)))
      fun r l => r.join = framePath tx txLen offset ∧ l.Judged F e h :=
  triple_judged_value (triple_in_edfsPath tx txLen offset) (generated_edfsPath_of trivial tx)

/-- A function on the path of a request. -/
theorem triple_fits_edfsWithPath {α : Type} {tx : ℕ → Byte} {txLen offset : ℕ}
    {operation : CString → N η α} {C : CString → Prop}
    (hop : ∀ path, Triple (Lan.Judged F e h) (operation path) fun _ l => l.Fits ↔ F ∧ C path) :
    Triple (Lan.Judged F e h) (edfsWithPath tx txLen offset operation) fun _ l =>
      l.Fits ↔ F ∧ ∀ path ∈ framePath tx txLen offset, C path := by
  -- a frame that is too short, or whose offset is outside, has no path
  have hnone : ∀ {x : N η (Option α)}, Generated NoStringAction x →
      Triple (Lan.Judged F e h) x fun _ l =>
        l.Fits ↔ F ∧ ∀ path ∈ (none : Option CString), C path :=
    fun hx => (triple_fits_of hx).post fun _ _ hl => hl.trans (and_iff_left nofun).symm
  unfold edfsWithPath
  refine (triple_judged_edfsPath tx txLen offset).bind fun r => .of_and fun hr => ?_
  rw [← hr]
  match r with
  | none => exact hnone inferInstance
  | some none => exact hnone inferInstance
  | some (some path) =>
    refine (hop path).bind fun a => .ret fun _ hl => hl.trans (and_congr_right' ?_)
    exact ⟨fun hC _ hpath => Option.some.inj hpath ▸ hC, fun hall => hall path rfl⟩

theorem triple_judged_path (tx : ℕ → Byte) (txLen offset : ℕ) :
    Triple (Lan.Judged F e h) (edfsWithPath tx txLen offset (pure ·) : N η (Option CString))
      fun path l => path = framePath tx txLen offset ∧ l.Judged F e h :=
  triple_judged_value (triple_in_path tx txLen offset)
    (generated_edfsWithPath_of trivial tx _)

theorem triple_judged_readTx (tx : ℕ → Byte) (i : ℕ) :
    Triple (Lan.Judged F e h) (readTx tx i : N η Byte) fun byte l =>
      byte = tx i ∧ l.Judged F e h :=
  triple_judged_value (triple_in_readTx tx i) inferInstance

theorem triple_judged_readTxWordLE (tx : ℕ → Byte) (i : ℕ) :
    Triple (Lan.Judged F e h) (readTxWordLE tx i : N η Word) fun word l =>
      word = txWordLE tx i ∧ l.Judged F e h :=
  triple_judged_value (triple_in_readTxWordLE tx i) inferInstance

/-- For every function of EtherDFS, all strings fit if and only if `RequestFits` says so. The
arguments come from where `RequestFits` reads them. -/
theorem triple_fits_edfsDispatch (tx : ℕ → Byte) (txLen : Word) :
    Triple (Lan.Judged F e h) (edfsDispatch host tx txLen (tx 0x3B)) fun _ l =>
      l.Fits ↔ F ∧ RequestFits host tx txLen.toNat e h := by
  -- for functions of which `RequestFits` asks nothing
  have hany : ∀ {x : N η (Option Word)}, (Triple (Lan.Judged F e h) x fun _ l => l.Fits ↔ F) →
      RequestFits host tx txLen.toNat e h → Triple (Lan.Judged F e h) x fun _ l =>
        l.Fits ↔ F ∧ RequestFits host tx txLen.toNat e h := fun hx hfits =>
    hx.post fun _ _ hl => hl.trans (and_iff_left hfits).symm
  -- such a function may still have a path, which it does not convert
  have hquiet : ∀ {operation : CString → N η Word} {offset : ℕ},
      (∀ path, Triple (Lan.Judged F e h) (operation path) fun _ l => l.Fits ↔ F) →
        Triple (Lan.Judged F e h) (edfsWithPath tx txLen.toNat offset operation) fun _ l =>
          l.Fits ↔ F := fun hop =>
    (triple_fits_edfsWithPath fun path => (hop path).post fun _ _ hl =>
      hl.trans (and_iff_left trivial).symm).post fun _ _ hl =>
        hl.trans (and_iff_left fun _ _ => trivial)
  apply edfsDispatch_cases (motive := fun x => Triple (Lan.Judged F e h) x fun _ l =>
    l.Fits ↔ F ∧ RequestFits host tx txLen.toNat e h)
  case rmdir =>
    intro hfunc
    exact hany (hquiet fun path => triple_fits_edfsRemove _ _ path)
      (by rw [RequestFits, hfunc]; trivial)
  case mkdir =>
    intro hfunc
    rw [RequestFits, hfunc]
    exact triple_fits_edfsWithPath fun path => triple_fits_edfsMkdir host path
  case chdir =>
    intro hfunc
    exact hany (hquiet fun path => triple_fits_of inferInstance)
      (by rw [RequestFits, hfunc]; trivial)
  case closefile =>
    intro hfunc
    exact hany (triple_fits_of inferInstance) (by rw [RequestFits, hfunc]; trivial)
  case readfile =>
    intro hfunc
    exact hany (triple_fits_of inferInstance) (by rw [RequestFits, hfunc]; trivial)
  case writefile =>
    intro hfunc
    exact hany (triple_fits_of inferInstance) (by rw [RequestFits, hfunc]; trivial)
  case diskspace =>
    intro hfunc
    exact hany (triple_fits_of inferInstance) (by rw [RequestFits, hfunc]; trivial)
  case setattr =>
    intro hfunc
    refine hany ?_ (by rw [RequestFits, hfunc]; trivial)
    refine (triple_judged_readTx tx 0x3C).bind fun _ => .of_and fun _ => ?_
    refine (triple_judged_edfsPath tx _ _).bind fun path => .of_and fun _ => ?_
    split <;> exact triple_fits_of inferInstance
  case getattr =>
    intro hfunc
    exact hany (hquiet fun path => triple_fits_of inferInstance)
      (by rw [RequestFits, hfunc]; trivial)
  case findfirst =>
    intro hfunc
    rw [RequestFits, hfunc]
    refine (triple_judged_readTx tx 0x3C).bind fun attrib => .of_and fun hattrib => ?_
    rw [← hattrib]
    exact triple_fits_edfsWithPath fun path => triple_fits_edfsFind host attrib path 0 0
  case findnext =>
    intro hfunc
    rw [RequestFits, hfunc]
    refine (triple_judged_readTxWordLE tx 0x3C).bind fun cluster => .of_and fun hcluster => ?_
    refine (triple_judged_readTxWordLE tx 0x3E).bind fun pos => .of_and fun hpos => ?_
    refine (triple_judged_readTx tx 0x40).bind fun attrib => .of_and fun hattrib => ?_
    rw [← hcluster, ← hpos, ← hattrib]
    exact triple_fits_edfsWithPath fun path => triple_fits_edfsFind host attrib path cluster pos
  case rename =>
    intro hfunc
    rw [RequestFits, hfunc]
    refine (triple_judged_readTx tx 0x3C).bind fun srcLen => .of_and fun hsrcLen => ?_
    rw [← hsrcLen]
    refine (triple_judged_path tx _ _).bind fun dst => .of_and fun hdst => ?_
    -- without the new path the old one is not looked at, and nothing is converted
    change Triple _ _ fun _ (l : Lan η) => l.Fits ↔ F ∧
      ∀ dst ∈ framePath tx txLen.toNat (0x3D + srcLen.toNat),
        ∀ src ∈ framePath tx (0x3D + srcLen.toNat) 0x3D,
          (e.clusterLookup83 src).isSome → e.ConvertFits dst
    rw [← hdst]
    cases dst with
    | none =>
      exact (triple_fits_of inferInstance).post fun _ _ hl => hl.trans (and_iff_left nofun).symm
    | some dst =>
      refine (triple_fits_edfsWithPath fun src => triple_fits_edfsRename host src dst).post
        fun _ _ hl => hl.trans (and_congr_right' ?_)
      exact ⟨fun hall _ hsome => Option.some.inj hsome ▸ hall, fun hall => hall dst rfl⟩
  case delete =>
    intro hfunc
    exact hany (hquiet fun path => triple_fits_edfsRemove _ _ path)
      (by rw [RequestFits, hfunc]; trivial)
  case openfile =>
    intro hfunc
    refine hany ?_ (by rw [RequestFits, hfunc]; trivial)
    refine (triple_judged_readTxWordLE tx 0x3C).bind fun attrib => .of_and fun _ => ?_
    -- OPEN converts no path: its action neither creates nor truncates
    refine hquiet fun path => (triple_fits_edfsOpen host path attrib 0x0001).post fun _ _ hl =>
      hl.trans (and_iff_left fun hopen => absurd hopen (not_openConverts_open e path))
  case create =>
    intro hfunc
    rw [RequestFits, hfunc]
    refine (triple_judged_readTxWordLE tx 0x3C).bind fun _ => .of_and fun _ => ?_
    exact triple_fits_edfsWithPath fun path => triple_fits_edfsOpen host path 0x0002 0x0012
  case spopnfil =>
    intro hfunc
    rw [RequestFits, hfunc]
    refine (triple_judged_readTxWordLE tx 0x3C).bind fun _ => .of_and fun _ => ?_
    refine (triple_judged_readTxWordLE tx 0x3E).bind fun action => .of_and fun haction => ?_
    refine (triple_judged_readTxWordLE tx 0x40).bind fun mode => .of_and fun _ => ?_
    rw [← haction]
    exact triple_fits_edfsWithPath fun path => triple_fits_edfsOpen host path mode action
  case other =>
    intro hother
    refine hany (triple_fits_of inferInstance) ?_
    simp [RequestFits, hother]

/-- So for a packet: without the right version, or without a root, no string is copied. -/
theorem triple_fits_edfsHandlePacket (tx : ℕ → Byte) (txLen : Word) :
    Triple (Lan.Judged F e h) (edfsHandlePacket host tx txLen) fun _ l =>
      l.Fits ↔ F ∧ (tx 0x38 &&& 0x7F = 2 → e.inited = true →
        RequestFits host tx txLen.toNat e h) := by
  -- a packet that is dropped copies nothing
  have hnone : ∀ {p : Prop}, p → ∀ {x : N η Unit}, Generated NoStringAction x →
      Triple (Lan.Judged F e h) x fun _ l => l.Fits ↔ F ∧ p := fun hp _ hx =>
    (triple_fits_of hx).post fun _ _ hl => hl.trans (and_iff_left hp).symm
  rw [edfsHandlePacket_eq]
  refine triple_judged_getEdfs (.ite (fun hinited => ?_) fun hinited => ?_)
  · refine (triple_judged_readTx tx 0x38).bind fun ver => .of_and fun hver => ?_
    refine (triple_judged_readTx tx 0x3B).bind fun func => .of_and fun hfunc => ?_
    rw [hver, hfunc]
    refine .ite (fun hversion => ?_) fun hversion => ?_
    · exact hnone (fun heq => absurd heq hversion) inferInstance
    · rw [imp_iff_right (not_not.mp hversion), imp_iff_right hinited]
      unfold edfsAnswer
      refine (triple_fits_edfsDispatch host tx txLen).bind fun rxLen l hl => ?_
      -- the header of the reply has no strings
      refine (extends_of_generated (E := NetEvent.NoString) (p := fun _ _ => ()) ?_ l).fits.trans hl
      split
      · infer_instance
      · refine .seq _ _ (generated_modifyNet fun _ => rfl) fun _ => ?_
        refine .seq _ _ inferInstance fun _ => ?_
        exact .seq _ _ (generated_modifyNet fun _ => rfl) fun _ => generated_note trivial
  · exact hnone (fun _ hinited' => absurd hinited' hinited) inferInstance

/-- So for a frame of the guest: only a request of EtherDFS copies strings. -/
theorem triple_fits_netTxFrame (tx : ℕ → Byte) (txLen : Word) :
    Triple (Lan.Judged F e h) (netTxFrame host tx txLen) fun _ l =>
      l.Fits ↔ F ∧ (IsRequest tx → e.inited = true → RequestFits host tx txLen.toNat e h) := by
  -- no other protocol copies a string
  have hother : txWord tx 0x0C ≠ ethertypeEdfs → ∀ {x : N η Unit}, Generated NoStringAction x →
      Triple (Lan.Judged F e h) x fun _ l =>
        l.Fits ↔ F ∧ (IsRequest tx → e.inited = true → RequestFits host tx txLen.toNat e h) :=
    fun hne _ hx => (triple_fits_of hx).post fun _ _ hl =>
      hl.trans (and_iff_left fun hrequest => absurd hrequest.1 hne).symm
  unfold netTxFrame
  refine (triple_judged_value (triple_in_readTxWord tx 0x0C) inferInstance).bind fun ethertype =>
    .of_and fun hethertype => ?_
  rw [hethertype]
  refine .ite (fun harp => ?_) fun _ => .ite (fun hipv4 => ?_) fun _ => .ite (fun hedfs => ?_)
    fun hunknown => ?_
  · exact hother (by rw [harp]; decide) inferInstance
  · exact hother (by rw [hipv4]; decide) inferInstance
  · refine (triple_fits_edfsHandlePacket host tx txLen).post fun _ _ hl => hl.trans ?_
    exact and_congr_right' (imp_congr_left ⟨fun hversion => ⟨hedfs, hversion⟩, And.right⟩)
  · exact hother hunknown inferInstance

end Functions

/-! ### Runs -/

/-- After a step the strings fit when they did before, and the step meets its condition. -/
theorem fits_lanAfter (l : Lan η) (s : LanStep) :
    (lanAfter host l s).Fits ↔ l.Fits ∧ StringsFit host l s := by
  cases s with
  | transmit tx txLen => exact triple_fits_netTxFrame host tx txLen l ⟨⟨rfl, rfl⟩, Iff.rfl⟩
  | poll =>
    have hquiet := extends_of_generated (E := NetEvent.NoString) (p := fun _ _ => ())
      (generated_netExecute host) l
    exact hquiet.fits.trans (and_iff_left trivial).symm
  | taken => exact (and_iff_left trivial).symm

/-- **Strings and their arrays.** In a run from `edfs_init` every string fits its array, with its
terminator, exactly when every request meets its condition. -/
theorem strings_fit_iff (root : CString) (h : η) (steps : List LanStep) :
    (runAll (lanAfter host) (lanInit (edfsInit root) h) steps).Fits ↔
      Along (lanAfter host) (StringsFit host) (lanInit (edfsInit root) h) steps := by
  have hstart : (lanInit (edfsInit root) h).Fits := nofun
  have hrun := runAll_iff (I := fun _ => True) (fun _ _ _ => trivial)
    (fun l s _ => fits_lanAfter host l s) trivial (s := lanInit (edfsInit root) h) steps
  exact hrun.trans (and_iff_right hstart)

/-- A directory with a path that is too long is made. -/
theorem not_fits_mkdir {l : Lan η} (hinited : l.edfs.inited = true) {path : CString}
    (hnul : 0 ∉ path) (hlen : path.length < pathMax) (hlong : edfsPath83Max ≤ path.length) :
    ¬ (lanAfter host l (edfsRequest edfsFuncMkdir path)).Fits := by
  intro hfits
  rw [fits_lanAfter, edfsRequest] at hfits
  have hrequest := hfits.2 (isRequest_edfsFrame edfsFuncMkdir path) hinited
  have htxLen := toNat_txLen path (hlen.trans (by decide))
  rw [RequestFits, if_pos (edfsFrame_func edfsFuncMkdir path), htxLen] at hrequest
  have hpath := hrequest path (framePath_edfsFrame edfsFuncMkdir [] path hlen hnul)
  exact absurd hpath.fits83 (Nat.not_lt_of_ge hlong)

/-- A path of 300 characters. -/
def longPath : CString := List.replicate 300 0x41

/-- The directory part of a long path does not fit. -/
theorem string_overruns : ¬ ∀ (η : Type) (host : Host η) (root : CString) (h : η)
    (steps : List LanStep), (∀ tx txLen, .transmit tx txLen ∈ steps → txLen.toNat ≤ netMtu) →
      (runAll (lanAfter host) (lanInit (edfsInit root) h) steps).Fits := by
  intro hall
  have hlength : longPath.length = 300 := List.length_replicate
  have hnul : 0 ∉ longPath := fun hmem => absurd (List.eq_of_mem_replicate hmem) (by decide)
  refine not_fits_mkdir nestedHost (l := lanInit (edfsInit []) ()) rfl hnul
    (by rw [hlength]; decide) (by rw [hlength]; decide)
    (hall Unit nestedHost [] () [edfsRequest edfsFuncMkdir longPath] fun tx txLen hmem => ?_)
  obtain ⟨-, hlen⟩ := LanStep.transmit.inj (List.mem_singleton.mp hmem)
  rw [hlen, hlength]
  decide

end Pc20iii
