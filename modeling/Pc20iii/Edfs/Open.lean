import Pc20iii.Edfs.Names
import Mathlib.Logic.Function.Basic

/-!
# Extended open

`edfs_open` answers OPEN, CREATE and SPOPNFIL. An action has what to do with a file that exists in
its low digit, and with one that does not in its high digit.

The code asks its own registry whether the file exists, and then looks at the high digit for a
file that is not known and at the low digit for one that is; it truncates the converted path of
the guest, whatever path the file is known under. The code of the reply is chosen by another
chain, which looks at the low digit for 1, at the high digit, and at the low digit for 2.
`triple_replied_edfsOpen` says what comes out, and `open_follows_iff` when it is what an extended
open is to do.
-/

namespace Pc20iii

open StateProgram

variable {η ι : Type} [DecidableEq ι] {host : Host η}

/-! ### The files of the host -/

/-- The regular files of a host: which one a path names, and what each has, if it exists. -/
structure HostFiles (host : Host η) (ι : Type) [DecidableEq ι] where
  file : CString → ι
  contents : η → ι → Option (List Byte)
  isReg_stat : ∀ path h, (∃ st, (host.stat path h).1 = some st ∧ st.isReg = true) ↔
    (contents h (file path)).isSome
  contents_stat : ∀ path h, contents (host.stat path h).2 = contents h
  contents_create : ∀ path h, (host.fopen path .create h).1.isSome →
    contents (host.fopen path .create h).2 = Function.update (contents h) (file path) (some [])
  contents_fclose : ∀ fd h, contents (host.fclose fd h) = contents h

/-- The host path of a guest path: the one that it is known under, or the converted one. -/
def Edfs.target (e : Edfs) (path83 : CString) : CString :=
  match e.clusterLookup83 path83 with
  | some (_, path) => path
  | none => e.path83ToUnixpath path83

namespace HostFiles

variable (files : HostFiles host ι) (e : Edfs) (h : η) (path83 : CString) (action : Word)

/-- The file that a guest path is about. -/
def target : ι := files.file (joinPath e.root (e.target path83))

/-- The file that the guest path is converted to. -/
def converted : ι := files.file (joinPath e.root (e.path83ToUnixpath path83))

/-- The files after the converted one has been created or truncated. -/
def emptied : ι → Option (List Byte) :=
  Function.update (files.contents h) (files.converted e path83) (some [])

/-- The files after `edfs_open`. -/
def afterOpen : ι → Option (List Byte) :=
  match e.clusterLookup83 path83 with
  | none => if action &&& 0xF0 = 0x10 then files.emptied e h path83 else files.contents h
  | some _ => if action &&& 0x0F = 0x02 then files.emptied e h path83 else files.contents h

/-- `edfs_open` opens a file. -/
def Opens : Prop :=
  match e.clusterLookup83 path83 with
  | none => action &&& 0xF0 = 0x10 ∧ e.Registers (e.path83ToUnixpath path83)
  | some _ => (files.afterOpen e h path83 action (files.target e path83)).isSome

end HostFiles

/-- The code for what has been done. -/
def openCode (action : Word) : Option Byte :=
  if action &&& 0x0F = 0x01 then some 0x01
  else if action &&& 0xF0 = 0x10 then some 0x02
  else if action &&& 0x0F = 0x02 then some 0x03
  else none

/-- The reply says whether a file has been opened, and what has been done; the host has the
files `c`. -/
structure Replied (files : HostFiles host ι) (c : ι → Option (List Byte)) (opened : Prop)
    (action : Word) (l : Lan η) : Prop where
  contents : files.contents l.host = c
  result : edfsResult l.net.rxFrame = edfsResultOk ↔ opened
  code : opened → ∀ code ∈ openCode action, l.net.rxFrame 0x52 = code

theorem Replied.congr {files : HostFiles host ι} {c : ι → Option (List Byte)}
    {opened opened' : Prop} {action : Word} {l : Lan η} (hl : Replied files c opened action l)
    (hopened : opened ↔ opened') : Replied files c opened' action l :=
  ⟨hl.contents, hl.result.trans hopened, fun h => hl.code (hopened.mpr h)⟩

/-! ### What `edfs_open` does -/

section Spec

variable {files : HostFiles host ι} {e : Edfs} {h : η} {path83 : CString} {action : Word}

/-- A reply with an error. -/
theorem triple_replied_fail {code : Word} (hcode : code ≠ edfsResultOk) {opened : Prop}
    (hopened : ¬ opened) :
    Triple (Lan.In e h) (edfsFail code : N η Word) fun _ =>
      Replied files (files.contents h) opened action := by
  intro l hl
  have hresult : edfsResult (outcome (edfsFail code) l).2.net.rxFrame = code :=
    txWordLE_of_frameBytes (frameBytes_setBytes l.net 0x3A rfl)
  refine ⟨congrArg files.contents hl.host, ?_, fun hopen => absurd hopen hopened⟩
  rw [hresult]
  exact iff_of_false hcode hopened

/-- What `edfs_open` puts into the frame, the result last. -/
def openedFields (host : Host η) (path83 : CString) (attrib action cluster : Word)
    (st : FileStat) : List (ℕ × List Byte) :=
  [(0x3C, [0x00]), (0x3D, path83ToFilefcb path83),
    (0x48, wordBytesLE (timeToDosTime (host.localtime st.mtime))),
    (0x4A, wordBytesLE (timeToDosDate (host.localtime st.mtime))), (0x4C, sizeBytes st.size),
    (0x50, wordBytesLE cluster)] ++ (openCode action).toList.map (fun code => (0x52, [code])) ++
  [(0x53, [0x00]), (0x54, [lowByte attrib &&& 0x7F]), (0x3A, wordBytesLE edfsResultOk)]

/-- The reply to a request that opens a file has the fields of the file, and the code that the
action asks for. -/
theorem outcome_edfsOpened (path83 : CString) (attrib action cluster : Word) (st : FileStat)
    (l : Lan η) :
    (outcome (edfsOpened host path83 attrib action cluster st) l).2.net =
        l.net.setFields (openedFields host path83 attrib action cluster st) ∧
      (outcome (edfsOpened host path83 attrib action cluster st) l).2.host = l.host := by
  unfold edfsOpened openedFields openCode
  -- the digits of the action are looked at in this order
  by_cases hopen : action &&& 0x0F = 0x01
  · rw [if_pos hopen, if_pos hopen]
    exact ⟨rfl, rfl⟩
  rw [if_neg hopen, if_neg hopen]
  by_cases hcreate : action &&& 0xF0 = 0x10
  · rw [if_pos hcreate, if_pos hcreate]
    exact ⟨rfl, rfl⟩
  rw [if_neg hcreate, if_neg hcreate]
  by_cases htruncate : action &&& 0x0F = 0x02
  · rw [if_pos htruncate, if_pos htruncate]
    exact ⟨rfl, rfl⟩
  · rw [if_neg htruncate, if_neg htruncate]
    exact ⟨rfl, rfl⟩

theorem pairwise_openedFields (path83 : CString) (attrib action cluster : Word) (st : FileStat) :
    (openedFields host path83 attrib action cluster st).Pairwise Apart := by
  unfold openedFields
  cases openCode action <;> simp [Apart, length_path83ToFilefcb]

/-- A reply for a file. -/
theorem triple_replied_edfsOpened (attrib cluster : Word) (st : FileStat) {opened : Prop}
    (hopened : opened) :
    Triple (Lan.In e h) (edfsOpened host path83 attrib action cluster st) fun _ =>
      Replied files (files.contents h) opened action := by
  intro l hl
  obtain ⟨hnet, hhost⟩ := outcome_edfsOpened path83 attrib action cluster st l
  -- no field of the reply is written over by a later one
  have hfield : ∀ field ∈ openedFields host path83 attrib action cluster st,
      frameBytes (outcome (edfsOpened host path83 attrib action cluster st) l).2.net.rxFrame
        field.1 field.2.length = field.2 := by
    intro field hfield
    rw [hnet]
    exact frameBytes_setFields (pairwise_openedFields path83 attrib action cluster st) hfield _
  refine ⟨congrArg files.contents (hhost.trans hl.host), iff_of_true ?_ hopened,
    fun _ code hcode => ?_⟩
  · exact txWordLE_of_frameBytes (hfield (0x3A, wordBytesLE edfsResultOk) (by simp [openedFields]))
  · have hbyte := hfield (0x52, [code]) (by simp [openedFields, Option.mem_def.mp hcode])
    exact (List.cons.inj hbyte).1

variable (files)

/-- A file that has been found or created. -/
theorem triple_replied_edfsOpenFile (attrib cluster : Word) (path : CString) :
    Triple (Lan.In e h) (edfsOpenFile host path83 attrib action cluster path) fun _ =>
      Replied files (files.contents h)
        (files.contents h (files.file (joinPath e.root path))).isSome action := by
  unfold edfsOpenFile
  refine (triple_in_rootPath path).bind fun tmpPath => .of_and fun htmpPath => ?_
  refine (triple_in_hostPath tmpPath host.stat).bind fun found => .of_and fun hfound => ?_
  rw [htmpPath] at hfound ⊢
  rw [← files.contents_stat (joinPath e.root path) h]
  -- `stat` gives a regular file if and only if it has contents
  have hexists := files.isReg_stat (joinPath e.root path) h
  rw [← files.contents_stat (joinPath e.root path) h, ← hfound] at hexists
  cases found with
  | none =>
    refine triple_replied_fail (by decide) fun hsome => ?_
    obtain ⟨st, hst, -⟩ := hexists.mpr hsome
    exact absurd hst nofun
  | some st =>
    refine .ite (fun hother => ?_) fun hreg => ?_
    -- a directory has no contents
    · refine triple_replied_fail (by decide) fun hsome => ?_
      obtain ⟨st', hst, hreg⟩ := hexists.mpr hsome
      cases hst
      exact absurd (hother.symm.trans hreg) Bool.false_ne_true
    · exact triple_replied_edfsOpened attrib cluster st
        (hexists.mp ⟨st, rfl, (Bool.not_eq_false _).mp hreg⟩)

/-- A file is created or truncated. -/
theorem triple_in_create {path : CString} (hfopen : (host.fopen path .create h).1.isSome = true) :
    Triple (Lan.In e h) (edfsTouch host path) fun ok l => ok = true ∧
      ∃ h', files.contents h' = Function.update (files.contents h) (files.file path) (some []) ∧
        l.In e h' := by
  unfold edfsTouch
  refine (triple_in_hostPath path _).bind fun file => .of_and fun hfile => ?_
  rw [← hfile] at hfopen
  cases file with
  -- `fopen` gives a handle here
  | none => exact absurd hfopen Bool.false_ne_true
  | some file =>
    refine fun l hl => ⟨rfl, _, ?_, hl.edfs, rfl⟩
    refine (files.contents_fclose file l.host).trans ?_
    rw [hl.host]
    exact files.contents_create path h (hfile ▸ rfl)

theorem triple_exists_in {α : Type} {p : η → Prop} {x : N η α} {Q : α → Lan η → Prop}
    (hx : ∀ h', p h' → Triple (Lan.In e h') x Q) :
    Triple (fun l => ∃ h', p h' ∧ l.In e h') x Q :=
  fun l ⟨h', hp, hl⟩ => hx h' hp l hl

/-- A path whose name was not known is found by its name once it has been registered. -/
theorem clusterLookup83_register (hnone : e.clusterLookup83 path83 = none) (path : CString) :
    (¬ e.Registers path ∧ (e.register path path83).clusterLookup83 path83 = none) ∨
      e.Registers path ∧ ∃ cluster,
        (e.register path path83).clusterLookup83 path83 = some (cluster, path) := by
  obtain ⟨hname, hbefore⟩ := Edfs.clusterLookup83_eq_none.mp hnone
  rcases Edfs.register_cases e path path83 with ⟨hskip, heq⟩ | happends
  · rw [heq]
    exact .inl ⟨fun hregisters => Edfs.registers_iff.mp hregisters hskip, hnone⟩
  · exact .inr ⟨⟨Edfs.index_eq_none.mpr happends.new, happends.room⟩, _,
      happends.clusterLookup83 hname hbefore⟩

/-- A function that opens a file replies as the host has it then, which is after it has been created
or emptied. -/
theorem triple_replied_edfsOpen (path83 : CString) (attrib action : Word)
    (hfopen : (host.fopen (joinPath e.root (e.path83ToUnixpath path83)) .create
      h).1.isSome = true) :
    Triple (Lan.In e h) (edfsOpen host path83 attrib action) fun _ =>
      Replied files (files.afterOpen e h path83 action) (files.Opens e h path83 action) action := by
  unfold edfsOpen HostFiles.Opens HostFiles.afterOpen HostFiles.target Edfs.target
  refine triple_in_getEdfs ?_
  cases hfound : e.clusterLookup83 path83 with
  | none =>
    dsimp only
    -- a new file is created empty, and opened if it gets an entry
    refine .ite (fun haction => ?_) fun haction => ?_
    · rw [if_pos haction]
      refine (triple_in_unixpath path83).bind fun path => .of_and fun hpath => ?_
      refine (triple_in_rootPath path).bind fun tmpPath => .of_and fun htmpPath => ?_
      rw [← hpath] at hfopen ⊢
      rw [htmpPath]
      refine (triple_in_create files hfopen).bind fun ok => .of_and fun hok => ?_
      rw [if_pos hok]
      refine triple_exists_in fun h' hcontents => ?_
      have hopens : files.emptied e h path83 = files.contents h' := by
        rw [HostFiles.emptied, HostFiles.converted, ← hpath, hcontents]
      rw [hopens]
      refine (triple_in_register path path83).bind fun _ => triple_in_getEdfs ?_
      rcases clusterLookup83_register hfound path with ⟨hnot, hlookup⟩ | ⟨hregisters, _, hlookup⟩
      · rw [hlookup]
        exact triple_replied_fail (by decide) fun hopens => hnot hopens.2
      · rw [hlookup]
        dsimp only
        have hexists : (files.contents h' (files.file
            (joinPath (e.register path path83).root path))).isSome := by
          rw [(Edfs.root_register e _ _).1, hcontents, Function.update_self]
          rfl
        exact (triple_replied_edfsOpenFile files attrib _ path).post fun _ _ hl =>
          hl.congr (iff_of_true hexists ⟨haction, hregisters⟩)
    · rw [if_neg haction]
      exact triple_replied_fail (by decide) fun hopens => haction hopens.1
  | some found =>
    obtain ⟨cluster, path⟩ := found
    dsimp only
    -- a file that is truncated is created once more, under the path that its name converts to
    refine .ite (fun haction => ?_) fun haction => ?_
    · rw [if_pos haction]
      refine (triple_in_unixpath path83).bind fun unixpath => .of_and fun hunixpath => ?_
      refine (triple_in_rootPath unixpath).bind fun tmpPath => .of_and fun htmpPath => ?_
      rw [htmpPath, hunixpath]
      refine (triple_in_create files hfopen).bind fun ok => .of_and fun hok => ?_
      rw [if_pos hok]
      refine triple_exists_in fun h' hcontents => ?_
      rw [HostFiles.emptied, HostFiles.converted, ← hcontents]
      exact triple_replied_edfsOpenFile files attrib cluster path
    · rw [if_neg haction]
      exact triple_replied_edfsOpenFile files attrib cluster path

end Spec

/-! ### The rules -/

/-- Nothing has been opened, and no file has been touched. -/
def Refuses (files : HostFiles host ι) (h : η) (l : Lan η) : Prop :=
  edfsResult l.net.rxFrame ≠ edfsResultOk ∧ files.contents l.host = files.contents h

/-- A file has been opened, the host has the files `c`, and the reply has the code. -/
def OpensWith (files : HostFiles host ι) (c : ι → Option (List Byte)) (code : Byte)
    (l : Lan η) : Prop :=
  edfsResult l.net.rxFrame = edfsResultOk ∧ files.contents l.host = c ∧ l.net.rxFrame 0x52 = code

/-- What an extended open is to do: what the low digit of the action says for a file that exists,
and what the high digit says for one that does not. -/
structure OpenFollows (files : HostFiles host ι) (e : Edfs) (h : η) (path83 : CString)
    (action : Word) (l : Lan η) : Prop where
  refused : (files.contents h (files.target e path83)).isSome → action &&& 0x0F = 0x00 →
    Refuses files h l
  opened : (files.contents h (files.target e path83)).isSome → action &&& 0x0F = 0x01 →
    OpensWith files (files.contents h) 0x01 l
  truncated : (files.contents h (files.target e path83)).isSome → action &&& 0x0F = 0x02 →
    OpensWith files (Function.update (files.contents h) (files.target e path83) (some [])) 0x03 l
  created : files.contents h (files.target e path83) = none → action &&& 0xF0 = 0x10 →
    OpensWith files (Function.update (files.contents h) (files.target e path83) (some [])) 0x02 l
  missing : files.contents h (files.target e path83) = none → action &&& 0xF0 = 0x00 →
    Refuses files h l

/-- When `edfs_open` does it. -/
structure OpenAgrees (files : HostFiles host ι) (e : Edfs) (h : η) (path83 : CString)
    (action : Word) : Prop where
  refused : (files.contents h (files.target e path83)).isSome → action &&& 0x0F = 0x00 →
    e.clusterLookup83 path83 = none ∧ (action &&& 0xF0 ≠ 0x10 ∨
      ¬ e.Registers (e.path83ToUnixpath path83) ∧
        files.contents h (files.target e path83) = some [])
  opened : (files.contents h (files.target e path83)).isSome → action &&& 0x0F = 0x01 →
    e.clusterLookup83 path83 ≠ none ∨ action &&& 0xF0 = 0x10 ∧
      e.Registers (e.path83ToUnixpath path83) ∧
        files.contents h (files.target e path83) = some []
  truncated : (files.contents h (files.target e path83)).isSome → action &&& 0x0F = 0x02 →
    e.clusterLookup83 path83 ≠ none ∧ action &&& 0xF0 ≠ 0x10 ∧
      (files.converted e path83 = files.target e path83 ∨
        files.contents h (files.converted e path83) = some [] ∧
          files.contents h (files.target e path83) = some [])
  created : files.contents h (files.target e path83) = none → action &&& 0xF0 = 0x10 →
    e.clusterLookup83 path83 ≠ none ∧ action &&& 0x0F = 0x02 ∧
        files.converted e path83 = files.target e path83 ∨
      e.clusterLookup83 path83 = none ∧ e.Registers (e.path83ToUnixpath path83) ∧
        action &&& 0x0F ≠ 0x01
  missing : files.contents h (files.target e path83) = none → action &&& 0xF0 = 0x00 →
    e.clusterLookup83 path83 ≠ none → action &&& 0x0F = 0x02 →
      files.contents h (files.converted e path83) = some []

section Rules

variable {files : HostFiles host ι} {e : Edfs} {h : η} {path83 : CString} {action : Word}
  {l : Lan η}

theorem Replied.refuses_iff {c : ι → Option (List Byte)} {opened : Prop}
    (hl : Replied files c opened action l) :
    Refuses files h l ↔ ¬ opened ∧ c = files.contents h := by
  rw [Refuses, hl.contents, ne_eq, hl.result]

theorem Replied.opensWith_iff {c c' : ι → Option (List Byte)} {opened : Prop} {code code' : Byte}
    (hl : Replied files c opened action l) (hcode : openCode action = some code) :
    OpensWith files c' code' l ↔ opened ∧ c = c' ∧ code = code' := by
  rw [OpensWith, hl.contents, hl.result]
  exact and_congr_right fun hopened => by rw [hl.code hopened code hcode]

/-! The file is not known, or known under a path. -/

theorem target_of_none (hnone : e.clusterLookup83 path83 = none) :
    files.target e path83 = files.converted e path83 := by
  rw [HostFiles.target, Edfs.target, hnone]
  rfl

theorem afterOpen_of_none (hnone : e.clusterLookup83 path83 = none) :
    files.afterOpen e h path83 action =
      if action &&& 0xF0 = 0x10 then files.emptied e h path83 else files.contents h := by
  rw [HostFiles.afterOpen, hnone]

theorem opens_of_none (hnone : e.clusterLookup83 path83 = none) :
    files.Opens e h path83 action ↔
      action &&& 0xF0 = 0x10 ∧ e.Registers (e.path83ToUnixpath path83) := by
  rw [HostFiles.Opens, hnone]

theorem afterOpen_of_some {found : Word × CString} (hsome : e.clusterLookup83 path83 = some found) :
    files.afterOpen e h path83 action =
      if action &&& 0x0F = 0x02 then files.emptied e h path83 else files.contents h := by
  rw [HostFiles.afterOpen, hsome]

theorem opens_of_some {found : Word × CString} (hsome : e.clusterLookup83 path83 = some found) :
    files.Opens e h path83 action ↔
      (files.afterOpen e h path83 action (files.target e path83)).isSome := by
  rw [HostFiles.Opens, hsome]

/-- A file that is empty already stays as it is when it is emptied. -/
theorem emptied_eq_iff : files.emptied e h path83 = files.contents h ↔
    files.contents h (files.converted e path83) = some [] := by
  rw [HostFiles.emptied, Function.update_eq_self_iff]
  exact eq_comm

/-- Two ways to empty a file. -/
theorem emptied_eq_update_iff (i : ι) :
    files.emptied e h path83 = Function.update (files.contents h) i (some []) ↔
      files.converted e path83 = i ∨
        files.contents h (files.converted e path83) = some [] ∧ files.contents h i = some [] := by
  by_cases heq : files.converted e path83 = i
  · rw [HostFiles.emptied, heq]
    exact iff_of_true rfl (.inl rfl)
  · rw [or_iff_right heq, HostFiles.emptied]
    constructor
    -- two files are emptied by one update only if both are empty
    · intro hupdate
      have hconverted := congrFun hupdate (files.converted e path83)
      have hi := congrFun hupdate i
      rw [Function.update_self, Function.update_of_ne heq] at hconverted
      rw [Function.update_self, Function.update_of_ne (Ne.symm heq)] at hi
      exact ⟨hconverted.symm, hi⟩
    · rintro ⟨hconverted, hi⟩
      rw [Function.update_eq_self_iff.mpr hconverted.symm, Function.update_eq_self_iff.mpr hi.symm]

/-- A file that exists still does. -/
theorem isSome_emptied (i : ι) : (files.emptied e h path83 i).isSome ↔
    files.converted e path83 = i ∨ (files.contents h i).isSome := by
  by_cases heq : files.converted e path83 = i
  · rw [HostFiles.emptied, heq, Function.update_self]
    exact iff_of_true rfl (.inl rfl)
  · rw [HostFiles.emptied, Function.update_of_ne (Ne.symm heq), or_iff_right heq]

/-! Each rule, for a reply of `edfs_open`. -/

section Reply

variable (hl : Replied files (files.afterOpen e h path83 action) (files.Opens e h path83 action)
  action l)
include hl

/-- A plain open of a file that exists is refused when EtherDFS has not registered it. -/
theorem refused_iff (hexists : (files.contents h (files.target e path83)).isSome)
    (hlow : action &&& 0x0F = 0x00) :
    Refuses files h l ↔ e.clusterLookup83 path83 = none ∧ (action &&& 0xF0 ≠ 0x10 ∨
      ¬ e.Registers (e.path83ToUnixpath path83) ∧
        files.contents h (files.target e path83) = some []) := by
  rw [hl.refuses_iff]
  rcases hfound : e.clusterLookup83 path83 with _ | found
  · rw [opens_of_none hfound, afterOpen_of_none hfound, target_of_none hfound]
    by_cases hhigh : action &&& 0xF0 = 0x10
    · rw [if_pos hhigh, emptied_eq_iff, and_iff_right hhigh, and_iff_right rfl,
        or_iff_right (not_not.mpr hhigh)]
    · rw [if_neg hhigh]
      exact iff_of_true ⟨fun h => hhigh h.1, rfl⟩ ⟨rfl, .inl hhigh⟩
  -- a file that is found is opened as it is
  · have htruncate : action &&& 0x0F ≠ 0x02 := by
      rw [hlow]
      decide
    rw [opens_of_some hfound, afterOpen_of_some hfound, if_neg htruncate]
    exact iff_of_false (fun hrefused => hrefused.1 hexists) fun h => absurd h.1 nofun

/-- It is opened as it is when it is registered, or when it is empty and gets an entry. -/
theorem opened_iff (hexists : (files.contents h (files.target e path83)).isSome)
    (hlow : action &&& 0x0F = 0x01) :
    OpensWith files (files.contents h) 0x01 l ↔
      e.clusterLookup83 path83 ≠ none ∨ action &&& 0xF0 = 0x10 ∧
        e.Registers (e.path83ToUnixpath path83) ∧
          files.contents h (files.target e path83) = some [] := by
  rw [hl.opensWith_iff (if_pos hlow)]
  -- what is not found is created, so that it is left as it was only if it was empty
  rcases hfound : e.clusterLookup83 path83 with _ | found
  · rw [opens_of_none hfound, afterOpen_of_none hfound, target_of_none hfound]
    by_cases hhigh : action &&& 0xF0 = 0x10
    · rw [if_pos hhigh, emptied_eq_iff, and_iff_right hhigh, and_iff_left rfl,
        or_iff_right (not_not.mpr rfl), and_iff_right hhigh]
    · refine iff_of_false (fun h => hhigh h.1.1) ?_
      rintro (h | h)
      · exact h rfl
      · exact hhigh h.1
  · have htruncate : action &&& 0x0F ≠ 0x02 := by
      rw [hlow]
      decide
    rw [opens_of_some hfound, afterOpen_of_some hfound, if_neg htruncate]
    exact iff_of_true ⟨hexists, rfl, rfl⟩ (.inl nofun)

/-- It is truncated when it is registered and the path that its name converts to is its own, or
empty already. -/
theorem truncated_iff (hexists : (files.contents h (files.target e path83)).isSome)
    (hlow : action &&& 0x0F = 0x02) :
    OpensWith files (Function.update (files.contents h) (files.target e path83) (some [])) 0x03 l ↔
      e.clusterLookup83 path83 ≠ none ∧ action &&& 0xF0 ≠ 0x10 ∧
        (files.converted e path83 = files.target e path83 ∨
          files.contents h (files.converted e path83) = some [] ∧
            files.contents h (files.target e path83) = some []) := by
  have hopen : action &&& 0x0F ≠ 0x01 := by
    rw [hlow]
    decide
  by_cases hhigh : action &&& 0xF0 = 0x10
  · -- the high digit is looked at first
    rw [hl.opensWith_iff ((if_neg hopen).trans (if_pos hhigh))]
    exact iff_of_false (fun h => absurd h.2.2 (by decide)) fun h => h.2.1 hhigh
  rw [hl.opensWith_iff ((if_neg hopen).trans ((if_neg hhigh).trans (if_pos hlow)))]
  rcases hfound : e.clusterLookup83 path83 with _ | found
  · rw [opens_of_none hfound]
    exact iff_of_false (fun h => hhigh h.1.1) fun h => h.1 rfl
  -- emptying the converted path empties the file if that is its own
  · rw [opens_of_some hfound, afterOpen_of_some hfound, if_pos hlow, isSome_emptied,
      emptied_eq_update_iff, and_iff_right (.inr hexists), and_iff_left rfl]
    exact ⟨fun h => ⟨nofun, hhigh, h⟩, fun h => h.2.2⟩

/-- A file that does not exist is created by its converted path, which is that of a file that is not
registered. -/
theorem created_iff (hmissing : files.contents h (files.target e path83) = none)
    (hhigh : action &&& 0xF0 = 0x10) :
    OpensWith files (Function.update (files.contents h) (files.target e path83) (some [])) 0x02 l ↔
      e.clusterLookup83 path83 ≠ none ∧ action &&& 0x0F = 0x02 ∧
          files.converted e path83 = files.target e path83 ∨
        e.clusterLookup83 path83 = none ∧ e.Registers (e.path83ToUnixpath path83) ∧
          action &&& 0x0F ≠ 0x01 := by
  by_cases hopen : action &&& 0x0F = 0x01
  · -- the low digit is looked at first
    have htruncate : action &&& 0x0F ≠ 0x02 := by
      rw [hopen]
      decide
    rw [hl.opensWith_iff (if_pos hopen)]
    refine iff_of_false (fun h => absurd h.2.2 (by decide)) ?_
    rintro (h | h)
    · exact htruncate h.2.1
    · exact h.2.2 hopen
  rw [hl.opensWith_iff ((if_neg hopen).trans (if_pos hhigh)), and_iff_left rfl]
  -- what is opened is the entry if there is one, and the converted path if there is none
  rcases hfound : e.clusterLookup83 path83 with _ | found
  · rw [opens_of_none hfound, afterOpen_of_none hfound, if_pos hhigh, target_of_none hfound,
      and_iff_right hhigh]
    constructor
    · rintro ⟨hregisters, -⟩
      exact .inr ⟨rfl, hregisters, hopen⟩
    · rintro (h | h)
      · exact absurd rfl h.1
      · exact ⟨h.2.1, rfl⟩
  · rw [opens_of_some hfound, afterOpen_of_some hfound]
    by_cases htruncate : action &&& 0x0F = 0x02
    · rw [if_pos htruncate, isSome_emptied, emptied_eq_update_iff, hmissing]
      constructor
      · rintro ⟨hopens, -⟩
        exact .inl ⟨nofun, htruncate, hopens.resolve_right Bool.false_ne_true⟩
      · rintro (h | h)
        · exact ⟨.inl h.2.2, .inl h.2.2⟩
        · exact absurd h.1 nofun
    · rw [if_neg htruncate, hmissing]
      refine iff_of_false (fun h => Bool.false_ne_true h.1) ?_
      rintro (h | h)
      · exact htruncate h.2.1
      · exact absurd h.1 nofun

/-- An open of a file that does not exist is refused, unless it is registered and truncated. -/
theorem missing_iff (hmissing : files.contents h (files.target e path83) = none)
    (hhigh : action &&& 0xF0 = 0x00) :
    Refuses files h l ↔ (e.clusterLookup83 path83 ≠ none → action &&& 0x0F = 0x02 →
      files.contents h (files.converted e path83) = some []) := by
  rw [hl.refuses_iff]
  rcases hfound : e.clusterLookup83 path83 with _ | found
  -- what is not found is not created either
  · have hcreate : action &&& 0xF0 ≠ 0x10 := by
      rw [hhigh]
      decide
    rw [opens_of_none hfound, afterOpen_of_none hfound, if_neg hcreate]
    exact iff_of_true ⟨fun h => hcreate h.1, rfl⟩ fun h => absurd rfl h
  · rw [opens_of_some hfound, afterOpen_of_some hfound]
    by_cases htruncate : action &&& 0x0F = 0x02
    · rw [if_pos htruncate, isSome_emptied, emptied_eq_iff, hmissing]
      -- emptying the converted path creates the file if it is its own, and is not noticed if it was
      -- empty
      refine ⟨fun h _ _ => h.2, fun h => ⟨?_, h nofun htruncate⟩⟩
      rintro (heq | hsome)
      · rw [heq, hmissing] at h
        exact absurd (h nofun htruncate) nofun
      · exact absurd hsome Bool.false_ne_true
    · rw [if_neg htruncate, hmissing]
      exact iff_of_true ⟨Bool.false_ne_true, rfl⟩ fun _ h => absurd h htruncate

/-- All five cases together. -/
theorem openFollows_iff :
    OpenFollows files e h path83 action l ↔ OpenAgrees files e h path83 action := by
  constructor
  -- each of the five cases has its own lemma
  · rintro ⟨hrefused, hopened, htruncated, hcreated, hmissing⟩
    exact ⟨fun he ha => (refused_iff hl he ha).mp (hrefused he ha),
      fun he ha => (opened_iff hl he ha).mp (hopened he ha),
      fun he ha => (truncated_iff hl he ha).mp (htruncated he ha),
      fun he ha => (created_iff hl he ha).mp (hcreated he ha),
      fun he ha => (missing_iff hl he ha).mp (hmissing he ha)⟩
  · rintro ⟨hrefused, hopened, htruncated, hcreated, hmissing⟩
    exact ⟨fun he ha => (refused_iff hl he ha).mpr (hrefused he ha),
      fun he ha => (opened_iff hl he ha).mpr (hopened he ha),
      fun he ha => (truncated_iff hl he ha).mpr (htruncated he ha),
      fun he ha => (created_iff hl he ha).mpr (hcreated he ha),
      fun he ha => (missing_iff hl he ha).mpr (hmissing he ha)⟩

end Reply

end Rules

/-- **Extended open.** While the host opens the converted path, `edfs_open` does what an extended
open is to do, and reports it, exactly when `OpenAgrees`. -/
theorem open_follows_iff (files : HostFiles host ι) (path83 : CString) (attrib action : Word)
    (l : Lan η)
    (hfopen : (host.fopen (joinPath l.edfs.root (l.edfs.path83ToUnixpath path83)) .create
      l.host).1.isSome = true) :
    OpenFollows files l.edfs l.host path83 action
        (outcome (edfsOpen host path83 attrib action) l).2 ↔
      OpenAgrees files l.edfs l.host path83 action :=
  openFollows_iff (triple_replied_edfsOpen files path83 attrib action hfopen l ⟨rfl, rfl⟩)

/-- A host that keeps its files in memory, each under its path. -/
def memoryHost : Host (CString → Option (List Byte)) where
  errno _ := 0
  stack _ _ := 0
  socket _ h := (none, h)
  connect _ _ _ h := (false, h)
  fcntl _ h := (-1, h)
  send _ _ _ h := (none, h)
  sendto _ _ _ _ _ h := (none, h)
  recv _ _ h := (none, h)
  recvfrom _ _ h := (none, h)
  close _ h := h
  opendir _ h := (none, h)
  stat path h :=
    ((h path).map fun bytes =>
      { isDir := false, isReg := true, mtime := 0, size := bytes.length }, h)
  fopen path mode h :=
    match mode with
    | .create => (some 3, Function.update h path (some []))
    | .read | .append => ((h path).map fun _ => 3, h)
  fread _ _ _ h := ([], h)
  fwrite _ _ _ h := (0, h)
  fclose _ h := h
  mkdir _ h := (false, h)
  rmdir _ h := (false, h)
  unlink _ h := (false, h)
  rename _ _ h := (false, h)
  localtime _ := { sec := 0, min := 0, hour := 0, mday := 1, mon := 0, year := 80 }
  send_le := nofun
  sendto_le := nofun
  recv_le := nofun
  recvfrom_le := nofun
  fread_le _ _ _ _ := Nat.zero_le _
  fwrite_le _ _ _ _ := Nat.zero_le _

/-- The files of the host in memory. -/
def memoryFiles : HostFiles memoryHost CString where
  file := id
  contents := id
  isReg_stat path h := by
    change (∃ st : FileStat, (h path).map _ = some st ∧ st.isReg = true) ↔ (h path).isSome
    cases h path with
    | none =>
      refine iff_of_false ?_ Bool.false_ne_true
      rintro ⟨st, hst, -⟩
      exact absurd hst nofun
    | some bytes => exact iff_of_true ⟨_, rfl, rfl⟩ rfl
  contents_stat _ _ := rfl
  contents_create _ _ _ := rfl
  contents_fclose _ _ := rfl

/-- The file `A`, which does not exist, is created or truncated. -/
theorem open_follows_create :
    let l := lanInit (edfsInit []) fun _ => none
    (memoryHost.fopen (joinPath l.edfs.root (l.edfs.path83ToUnixpath [0x5C, 0x41])) .create
        l.host).1.isSome = true ∧
      (OpenFollows memoryFiles l.edfs l.host [0x5C, 0x41] 0x0012
          (outcome (edfsOpen memoryHost [0x5C, 0x41] 0 0x0012) l).2 ↔
        OpenAgrees memoryFiles l.edfs l.host [0x5C, 0x41] 0x0012) :=
  ⟨rfl, open_follows_iff memoryFiles [0x5C, 0x41] 0 0x0012 (lanInit (edfsInit []) fun _ => none)
    rfl⟩

/-- Every file has the byte `x`, and EtherDFS has just been initialised. -/
def unlistedFile : Lan (CString → Option (List Byte)) :=
  lanInit (edfsInit []) fun _ => some [0x78]

/-- To open the file `A` or create it truncates it when it exists and is not known. -/
theorem open_destroys : ¬ ∀ (η ι : Type) [DecidableEq ι] (host : Host η) (files : HostFiles host ι)
    (path83 : CString) (attrib action : Word) (l : Lan η),
    (host.fopen (joinPath l.edfs.root (l.edfs.path83ToUnixpath path83)) .create
      l.host).1.isSome = true →
      OpenFollows files l.edfs l.host path83 action
        (outcome (edfsOpen host path83 attrib action) l).2 := by
  intro hall
  have hfollows := hall _ _ memoryHost memoryFiles [0x5C, 0x41] 0 0x0011 unlistedFile rfl
  have hreplied := triple_replied_edfsOpen memoryFiles [0x5C, 0x41] 0 0x0011 rfl unlistedFile
    ⟨rfl, rfl⟩
  rcases (opened_iff hreplied rfl (by decide)).mp (hfollows.opened rfl (by decide)) with h | h
  · exact h rfl
  · exact absurd h.2.2 (by decide)

end Pc20iii
