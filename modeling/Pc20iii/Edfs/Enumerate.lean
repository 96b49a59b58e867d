import Pc20iii.Edfs.Find
import Pc20iii.Program.Resume

/-!
# Listing a directory

A guest lists a directory by FINDFIRST and repeated FINDNEXT. It passes back the cluster and the
position of each answer, and `edfs_find` looks for the entry with the position behind that one.
Positions count the visible entries, whether they match the pattern or not. The search of
FINDNEXT thus stops at the first visible entry that is not to be found, and an enumeration is
complete exactly if no such entry stands between two that are (`enumerates_iff`).

The requests go through `net_tx_frame`, as frames: `triple_netTxFrame_edfs` is the rule that
reduces a request to the function which it is dispatched to.
-/

namespace Pc20iii

open StateProgram

variable {η : Type} (host : Host η)

/-! ### Requests -/

/-- The registry, and the frame behind the headers. -/
abbrev answerPart (n : Net) (e : Edfs) : Edfs × (ℕ → Byte) := (e, fun k => n.rxFrame (0x3A + k))

section Requests

variable {root dir : CString} {cluster : Word} {P Q : Lan η → Prop}

theorem generated_writeRx_header {start : ℕ} {bytes : List Byte}
    (h : start + bytes.length ≤ 0x3A) :
    Generated (LanAction (fun _ => True) answerPart) (writeRx start bytes : N η Unit) := by
  have hkept : ∀ n : Net, answerPart (n.setBytes start bytes) = answerPart n := by
    intro n
    funext e
    refine Prod.ext rfl (funext fun k => ?_)
    exact if_neg (by omega)
  exact .seq _ _ (generated_note trivial) fun _ => generated_modifyNet hkept

/-- The header of a reply leaves the answer alone. -/
theorem generated_edfsReply_header (tx : ℕ → Byte) :
    Generated (LanAction (fun _ => True) answerPart) (edfsReply tx : N η Unit) := by
  have hcopy : ∀ (start len : ℕ), start + len ≤ 0x3A →
      Generated (LanAction (fun _ => True) answerPart) (copyTx tx start len : N η Unit) := by
    intro start len h
    refine .forM fun k hk => .seq _ _ (generated_readTx_of trivial tx) fun byte => ?_
    have hlt := List.mem_range.mp hk
    exact generated_writeRx_header (by rw [List.length_singleton]; omega)
  -- the six bytes of either address
  have haddress : ∀ (src dst : ℕ), dst + 6 ≤ 0x3A →
      Generated (LanAction (fun _ => True) answerPart) ((List.range 6).forM fun k => do
        let byte ← readTx tx (src + k)
        writeRx (dst + k) [byte] : N η Unit) := by
    intro src dst h
    refine .forM fun k hk => .seq _ _ (generated_readTx_of trivial tx) fun byte => ?_
    have hlt := List.mem_range.mp hk
    exact generated_writeRx_header (by rw [List.length_singleton]; omega)
  unfold edfsReply
  refine .seq _ _ (haddress 0x06 0x00 (by decide)) fun _ => ?_
  refine .seq _ _ (haddress 0x00 0x06 (by decide)) fun _ => ?_
  refine .seq _ _ (hcopy _ _ (by decide)) fun _ => ?_
  refine .seq _ _ inferInstance fun n => ?_
  refine .seq _ _ (generated_writeRx_header (by rw [length_wordBytesLE]; decide)) fun _ => ?_
  refine .seq _ _ (hcopy _ _ (by decide)) fun _ => ?_
  refine .seq _ _ (generated_readTx_of trivial tx) fun ver => ?_
  refine .seq _ _ inferInstance fun n => ?_
  dsimp only
  exact generated_writeRx_header (by rw [length_wordBytesLE]; decide)

/-- What leaves the answer and the registry alone leaves a request answered. -/
theorem answered_of_extends {s : EdfsSearch} {d : HostDirectory} {entries : List CString}
    {i : ℕ} {l l' : Lan η} (hext : l.Extends (fun _ => True) answerPart l')
    (h : Answered host s d root entries i l) : Answered host s d root entries i l' := by
  obtain ⟨hedfs, hframe⟩ := Prod.mk.inj hext.kept
  obtain ⟨hmaps, hanswers⟩ := h
  -- what is kept is the frame from 0x3A on, in which all fields of the answer are
  have hbyte : ∀ k, l'.net.rxFrame (0x3A + k) = l.net.rxFrame (0x3A + k) := congrFun hframe
  have hbytes : ∀ {start} (k len : ℕ), start = 0x3A + k →
      frameBytes l'.net.rxFrame start len = frameBytes l.net.rxFrame start len := by
    intro start k len hstart
    refine List.map_congr_left fun j _ => ?_
    rw [hstart, Nat.add_assoc]
    exact hbyte _
  have hword : ∀ k, txWordLE l'.net.rxFrame (0x3A + k) = txWordLE l.net.rxFrame (0x3A + k) :=
    fun k => congrArg₂ wordOf (hbyte k) (hbyte (k + 1))
  have hresult : edfsResult l'.net.rxFrame = edfsResult l.net.rxFrame := hword 0
  have hfound : edfsFound l'.net.rxFrame = edfsFound l.net.rxFrame := by
    simp only [edfsFound, EdfsFound.mk.injEq]
    exact ⟨hbyte 2, hbytes 3 11 rfl, hword 0x0E, hword 0x10, hbytes 0x12 4 rfl, hword 0x16,
      hword 0x18⟩
  refine ⟨hmaps.of_edfs hedfs, ?_⟩
  unfold Answers at hanswers ⊢
  rw [hresult, hfound]
  exact hanswers

/-- A condition on the variables of EtherDFS does not mind the reads of a frame. -/
theorem triple_edfs_readTx {p : Edfs → Prop} (tx : ℕ → Byte) (i : ℕ) :
    Triple (fun l : Lan η => p l.edfs) (readTx tx i : N η Byte) fun byte l =>
      byte = tx i ∧ p l.edfs :=
  fun _ h => ⟨rfl, h⟩

theorem triple_edfs_readTxWordLE {p : Edfs → Prop} (tx : ℕ → Byte) (i : ℕ) :
    Triple (fun l : Lan η => p l.edfs) (readTxWordLE tx i : N η Word) fun word l =>
      word = txWordLE tx i ∧ p l.edfs :=
  fun _ h => ⟨rfl, h⟩

theorem triple_edfs_getEdfs {α : Type} {p : Edfs → Prop} {f : Edfs → N η α}
    {R : α → Lan η → Prop} (hf : ∀ e, p e → Triple (fun l => p l.edfs) (f e) R) :
    Triple (fun l : Lan η => p l.edfs) (getEdfs >>= f) R :=
  fun l h => hf l.edfs h l h

/-- A request whose path fits is carried out on it. -/
theorem triple_edfs_withPath {α : Type} {p : Edfs → Prop} {tx : ℕ → Byte} {txLen offset : ℕ}
    {path : CString} (hpath : framePath tx txLen offset = some path)
    {operation : CString → N η α} (hop : Triple (fun l => p l.edfs) (operation path) fun _ => Q) :
    Triple (fun l => p l.edfs) (edfsWithPath tx txLen offset operation) fun r l =>
      r.isSome = true ∧ Q l := by
  intro l hl
  rw [framePath] at hpath
  split at hpath
  · cases hpath
  case isFalse hfits =>
    obtain ⟨hoffset, hlen⟩ := not_or.mp hfits
    -- the frame is long enough, so the path is read, and that is recorded
    have hread : outcome (edfsPath tx txLen offset) l =
        (some (some path), { l with log := .edfsPath offset txLen :: l.log }) := by
      rw [edfsPath, if_neg hoffset, if_neg hlen, ← Option.some.inj hpath]
      rfl
    rw [edfsWithPath, outcome_bind, hread]
    exact ⟨rfl, hop { l with log := .edfsPath offset txLen :: l.log } hl⟩

/-- A request is answered as `edfs_handle_packet` dispatches it. -/
theorem triple_netTxFrame_edfs {p : Edfs → Prop} (hinited : ∀ e, p e → e.inited = true)
    (hQ : ∀ l l', l.Extends (fun _ => True) answerPart l' → Q l → Q l') {func : Byte}
    {arguments : List Byte} {txLen : Word}
    (hdispatch : Triple (fun l => p l.edfs)
      (edfsDispatch host (edfsFrame func arguments) txLen func) fun r l => r.isSome = true ∧ Q l) :
    Triple (fun l => p l.edfs) (netTxFrame host (edfsFrame func arguments) txLen) fun _ => Q := by
  have hethertype := (isRequest_edfsFrame func arguments).1
  have hversion := not_not.mpr (isRequest_edfsFrame func arguments).2
  have hfunc := edfsFrame_func func arguments
  have hhandle : Triple (fun l => p l.edfs)
      (edfsHandlePacket host (edfsFrame func arguments) txLen) fun _ => Q := by
    unfold edfsHandlePacket
    refine triple_edfs_getEdfs fun e he => ?_
    rw [if_pos (hinited e he)]
    refine (triple_edfs_readTx _ 0x38).bind fun ver => .of_and fun hver => ?_
    refine (triple_edfs_readTx _ 0x3B).bind fun func' => .of_and fun hfunc' => ?_
    rw [hver, hfunc', hfunc, if_neg hversion]
    refine hdispatch.bind fun r => .of_and fun hr => ?_
    obtain ⟨rxLen, rfl⟩ := Option.isSome_iff_exists.mp hr
    intro l hl
    -- the header of the reply is written over the answer, which stays
    refine hQ l _ (extends_of_generated ?_ l) hl
    refine .seq _ _ (generated_modifyNet fun _ => rfl) fun _ => ?_
    refine .seq _ _ (generated_edfsReply_header _) fun _ => ?_
    exact .seq _ _ (generated_modifyNet fun _ => rfl) fun _ => generated_note trivial
  intro l hl
  rw [netTxFrame, outcome_bind, outcome_readTxWord, hethertype]
  dsimp only
  rw [if_neg (by decide), if_neg (by decide), if_pos rfl]
  exact hhandle _ hl

/-- FINDFIRST for a path. -/
def findFirst (attrib : Byte) (path : CString) : LanStep :=
  edfsRequest edfsFuncFindfirst ([attrib] ++ path)

/-- FINDNEXT behind a position, for the pattern of an FCB. -/
def findNext (attrib : Byte) (fcb : List Byte) (cluster pos : Word) : LanStep :=
  edfsRequest edfsFuncFindnext (wordBytesLE cluster ++ wordBytesLE pos ++ [attrib] ++ fcb)

theorem edfsDispatch_findFirst (tx : ℕ → Byte) (txLen : Word) :
    edfsDispatch host tx txLen edfsFuncFindfirst = (do
      let attrib ← readTx tx 0x3C
      edfsWithPath tx txLen.toNat 0x3D fun path => edfsFind host attrib path 0 0) := by
  rfl

theorem edfsDispatch_findNext (tx : ℕ → Byte) (txLen : Word) :
    edfsDispatch host tx txLen edfsFuncFindnext = (do
      let cluster ← readTxWordLE tx 0x3C
      let pos ← readTxWordLE tx 0x3E
      let attrib ← readTx tx 0x40
      edfsWithPath tx txLen.toNat 0x41 fun path => edfsFind host attrib path cluster pos) := by
  rfl

/-- What a guest finds from the answer in the frame on: FINDNEXT passes back the cluster and
the position of the answer, until there are no more matches. There is no list when another error
comes first, or when the answers are more than `n`. -/
def edfsAnswers (attrib : Byte) (fcb : List Byte) : ℕ → Lan η → Option (List EdfsFound)
  | n, l =>
    if edfsResult l.net.rxFrame = edfsResultNoMoreMatch then some []
    else if edfsResult l.net.rxFrame = edfsResultOk then
      match n with
      | 0 => none
      | n + 1 =>
        let found := edfsFound l.net.rxFrame
        (edfsAnswers attrib fcb n
          (lanAfter host l (findNext attrib fcb found.cluster found.pos))).map (found :: ·)
    else none

theorem edfsAnswers_of_noMoreMatch {attrib : Byte} {fcb : List Byte} {l : Lan η}
    (h : edfsResult l.net.rxFrame = edfsResultNoMoreMatch) (n : ℕ) :
    edfsAnswers host attrib fcb n l = some [] := by
  cases n <;> rw [edfsAnswers, if_pos h]

/-- What a guest finds by FINDFIRST and repeated FINDNEXT. -/
def edfsEnumerate (attrib : Byte) (path : CString) (n : ℕ) (l : Lan η) : Option (List EdfsFound) :=
  edfsAnswers host attrib (path83ToFilefcb path) n (lanAfter host l (findFirst attrib path))

section Search

variable {attrib : Byte} {path : CString} {pos : Word} {d : HostDirectory} {l : Lan η}

/-- FINDFIRST is answered with the first entry to be found. -/
theorem answered_findFirst (hattrib : attrib ≠ 0x08) (hlen : path.length < pathMax)
    (hnul : (0 : Byte) ∉ path) (hd : host.Has (joinPath root dir) d)
    (hmaps : l.Maps root dir cluster)
    (hlookup : l.edfs.clusterLookup83 (path83Dirname path) = some (cluster, dir)) :
    Answered host (EdfsSearch.mk attrib path cluster 0 dir) d root d.entries 0
      (lanAfter host l (findFirst attrib path)) := by
  have hframe := framePath_edfsFrame edfsFuncFindfirst [attrib] path hlen hnul
  have htxLen := toNat_txLen ([attrib] ++ path) (by
    rw [pathMax] at hlen
    rw [List.length_append, List.length_singleton]
    omega)
  -- the attribute is the first argument of the frame, the path comes behind it
  have hattrib' : edfsFrame edfsFuncFindfirst ([attrib] ++ path) 0x3C = attrib := rfl
  refine triple_netTxFrame_edfs host (p := Edfs.Lists root dir cluster path 0 0)
    (fun e he => he.inited) (fun _ _ => answered_of_extends host) ?_ l ⟨hmaps, hlookup⟩
  rw [edfsDispatch_findFirst]
  refine (triple_edfs_readTx _ 0x3C).bind fun byte => .of_and fun hbyte => ?_
  rw [hbyte, hattrib', htxLen]
  exact triple_edfs_withPath hframe (triple_answered_edfsFind host hattrib hd)

/-- FINDNEXT is answered with the entry at the next position. -/
theorem answered_findNext (hattrib : attrib ≠ 0x08) {fcb : List Byte}
    (hlen : fcb.length = 11) (hnul : (0 : Byte) ∉ fcb) (hpos : pos ≠ 0)
    (hd : host.Has (joinPath root dir) d) (hmaps : l.Maps root dir cluster) :
    Answered host (EdfsSearch.mk attrib fcb cluster pos dir) d root d.entries 0
      (lanAfter host l (findNext attrib fcb cluster pos)) := by
  obtain ⟨before, hbefore⟩ :
      ∃ before, before = wordBytesLE cluster ++ wordBytesLE pos ++ [attrib] := ⟨_, rfl⟩
  have hbeforeLen : before.length = 5 := by rw [hbefore]; rfl
  have hframe := framePath_edfsFrame edfsFuncFindnext before fcb
    (hlen.trans_lt (by decide)) hnul
  have htxLen := toNat_txLen (before ++ fcb) (by
    rw [List.length_append, hbeforeLen, hlen]
    decide)
  -- the arguments are where the request has them
  have hcluster : txWordLE (edfsFrame edfsFuncFindnext (before ++ fcb)) 0x3C = cluster := by
    rw [hbefore]
    exact wordOf_lowByte_highByte cluster
  have hposition : txWordLE (edfsFrame edfsFuncFindnext (before ++ fcb)) 0x3E = pos := by
    rw [hbefore]
    exact wordOf_lowByte_highByte pos
  have hattrib' : edfsFrame edfsFuncFindnext (before ++ fcb) 0x40 = attrib := by
    rw [hbefore]
    rfl
  have hlisted : l.edfs.listed fcb cluster pos = some (cluster, dir) := by
    rw [Edfs.listed, if_neg hpos, hmaps.lookup]
    rfl
  rw [findNext, ← hbefore]
  refine triple_netTxFrame_edfs host (p := Edfs.Lists root dir cluster fcb cluster pos)
    (fun e he => he.inited) (fun _ _ => answered_of_extends host) ?_ l ⟨hmaps, hlisted⟩
  rw [edfsDispatch_findNext]
  refine (triple_edfs_readTxWordLE _ 0x3C).bind fun word => .of_and fun hword => ?_
  rw [hword, hcluster]
  refine (triple_edfs_readTxWordLE _ 0x3E).bind fun word' => .of_and fun hword' => ?_
  rw [hword', hposition]
  refine (triple_edfs_readTx _ 0x40).bind fun byte => .of_and fun hbyte => ?_
  rw [hbyte, hattrib', htxLen]
  rw [hbeforeLen] at hframe
  exact triple_edfs_withPath hframe (triple_answered_edfsFind host hattrib hd)

end Search

/-! ### Enumerations -/

section Enumerations

variable {attrib : Byte} {path : CString} {d : HostDirectory}

/-- The search of FINDFIRST. -/
abbrev firstSearch (attrib : Byte) (path : CString) (cluster : Word) (dir : CString) :
    EdfsSearch := EdfsSearch.mk attrib path cluster 0 dir

/-- The entries of the directory that are to be found, with their positions. -/
abbrev toFind (attrib : Byte) (path : CString) (cluster : Word) (dir : CString)
    (d : HostDirectory) : List (CString × Word) :=
  (firstSearch attrib path cluster dir).positions d d.entries 0

/-- FINDNEXT answers with the entry at the next position. -/
theorem answers_findNext (hattrib : attrib ≠ 0x08) (hnul : (0 : Byte) ∉ path)
    (hd : host.Has (joinPath root dir) d) {a : CString × Word} (ha : a.2 ≠ 0) {l : Lan η}
    (hmaps : l.Maps root dir cluster) {l' : Lan η}
    (hl' : l' = lanAfter host l (findNext attrib (path83ToFilefcb path) cluster a.2)) :
    l'.Maps root dir cluster ∧ Answers host (firstSearch attrib path cluster dir) d l'.net.rxFrame
      (nextAt (fun b => b.2.toNat) (toFind attrib path cluster dir d) a) := by
  obtain ⟨s, hs⟩ : ∃ s, s = firstSearch attrib path cluster dir := ⟨_, rfl⟩
  have hfirst : s.targetPos = 0 := by rw [hs]
  have hanswered : Answered host (s.next a.2) d root d.entries 0 l' := by
    rw [hs, hl']
    exact answered_findNext host hattrib (length_path83ToFilefcb path)
      (not_mem_path83ToFilefcb hnul) ha hd hmaps
  obtain ⟨hmaps', hanswers⟩ := hanswered
  -- a search that goes on looks for the position behind the one that it has got
  have htarget : (fun b : CString × Word => (s.next a.2).isTarget b.2) =
      fun b => decide (a.2.toNat + 1 = b.2.toNat) := by
    funext b
    exact decide_eq_decide.mpr (or_iff_right ha)
  -- an answer says nothing of the position that was asked for
  have hsame : ∀ r, Answers host (s.next a.2) d l'.net.rxFrame r →
      Answers host s d l'.net.rxFrame r := by
    intro r h
    cases r <;> exact h
  rw [EdfsSearch.positions_next a.2 hfirst ha, htarget] at hanswers
  rw [hs] at hmaps' hanswers hsame
  exact ⟨hmaps', hsame _ hanswers⟩

/-- The answers to a guest that has the answer for `a` are those of an enumeration that is
resumed behind `a`. -/
theorem edfsAnswers_eq (hattrib : attrib ≠ 0x08) (hnul : (0 : Byte) ∉ path)
    (hd : host.Has (joinPath root dir) d) (n : ℕ) {a : CString × Word} (ha : a.2 ≠ 0) {l : Lan η}
    (hmaps : l.Maps root dir cluster)
    (hl : Answers host (firstSearch attrib path cluster dir) d l.net.rxFrame (some a)) :
    edfsAnswers host attrib (path83ToFilefcb path) n l =
      (resume (fun a => a.2.toNat) (toFind attrib path cluster dir d) n a).map
        (List.map ((firstSearch attrib path cluster dir).answer host d)) := by
  induction n generalizing a l with
  | zero =>
    rw [edfsAnswers, if_neg (by rw [hl.1]; decide), if_pos hl.1]
    rfl
  | succ n ih =>
    rw [edfsAnswers, if_neg (by rw [hl.1]; decide), if_pos hl.1, hl.2, resume]
    change Option.map _ (edfsAnswers host attrib (path83ToFilefcb path) n
      (lanAfter host l (findNext attrib (path83ToFilefcb path) cluster a.2))) = _
    obtain ⟨l', hl'⟩ : ∃ l', l' = lanAfter host l
      (findNext attrib (path83ToFilefcb path) cluster a.2) := ⟨_, rfl⟩
    obtain ⟨hmaps', hanswers⟩ := answers_findNext host hattrib hnul hd ha hmaps hl'
    rw [← hl']
    cases hb : nextAt (fun b => b.2.toNat) (toFind attrib path cluster dir d) a with
    | none =>
      -- there is no entry behind `a`, and the directory ends
      have hend : edfsResult l'.net.rxFrame = edfsResultNoMoreMatch := by
        rw [hb] at hanswers
        exact hanswers
      rw [edfsAnswers_of_noMoreMatch host hend]
      rfl
    | some b =>
      -- the positions go on one by one, so that the next one is not 0
      have hnext := nextAt_position hb
      have hstep : a.2.toNat + 1 = b.2.toNat := hnext
      have hb' : b.2 ≠ 0 := by
        intro hzero
        rw [hzero] at hstep
        exact absurd hstep (Nat.succ_ne_zero _)
      rw [hb] at hanswers
      rw [ih hb' hmaps' hanswers, Option.map_map, Option.map_map]
      rfl

/-- What is asked of an enumeration: the directory is registered and can be listed, the pattern
fits a request, and the volume label is not asked for. -/
structure Enumerable (attrib : Byte) (path : CString) (root : CString) (cluster : Word)
    (dir : CString) (d : HostDirectory) (l : Lan η) : Prop where
  attrib : attrib ≠ 0x08
  len : path.length < pathMax
  nul : (0 : Byte) ∉ path
  has : host.Has (joinPath root dir) d
  maps : l.Maps root dir cluster
  lookup : l.edfs.clusterLookup83 (path83Dirname path) = some (cluster, dir)

variable {l : Lan η}

/-- FINDFIRST finds the first entry, and the rest is an enumeration that is resumed behind it. -/
theorem edfsEnumerate_eq (h : Enumerable host attrib path root cluster dir d l) (n : ℕ)
    (hfirst : ∀ a ∈ (toFind attrib path cluster dir d).head?, a.2 ≠ 0) :
    edfsEnumerate host attrib path n l =
      match (toFind attrib path cluster dir d).head? with
      | none => some []
      | some a => (resume (fun a => a.2.toNat) (toFind attrib path cluster dir d) n a).map
          (List.map ((firstSearch attrib path cluster dir).answer host d)) := by
  obtain ⟨hmaps, hanswers⟩ := answered_findFirst host h.attrib h.len h.nul h.has h.maps h.lookup
  rw [edfsEnumerate]
  -- a search from the start takes the first position that there is
  have htarget : (fun a : CString × Word => (firstSearch attrib path cluster dir).isTarget a.2) =
      fun _ => true := by
    funext a
    exact decide_eq_true (.inl rfl)
  have hhead : (toFind attrib path cluster dir d).find? (fun _ => true) =
      (toFind attrib path cluster dir d).head? := by
    cases toFind attrib path cluster dir d <;> rfl
  rw [htarget] at hanswers
  change Answers host _ d _ ((toFind attrib path cluster dir d).find? _) at hanswers
  rw [hhead] at hanswers
  cases ha : (toFind attrib path cluster dir d).head? with
  | none =>
    rw [ha] at hanswers
    -- nothing is found, and the guest asks no more
    exact edfsAnswers_of_noMoreMatch host hanswers n
  | some a =>
    rw [ha] at hanswers
    exact edfsAnswers_eq host h.attrib h.nul h.has n (hfirst a ha) hmaps hanswers

/-- The answers are distinct for distinct positions. -/
theorem map_answer_inj {s : EdfsSearch} {as bs : List (CString × Word)}
    (h : as.map (s.answer host d) = bs.map (s.answer host d)) :
    as.map Prod.snd = bs.map Prod.snd := by
  have hpos := congrArg (List.map EdfsFound.pos) h
  rwa [List.map_map, List.map_map] at hpos

/-- An enumeration that is complete has met no gap. -/
theorem gapless_of_edfsEnumerate (h : Enumerable host attrib path root cluster dir d l) {n : ℕ}
    (hfirst : ∀ a ∈ (toFind attrib path cluster dir d).head?, a.2 ≠ 0)
    (hall : edfsEnumerate host attrib path n l = some ((toFind attrib path cluster dir d).map
      ((firstSearch attrib path cluster dir).answer host d))) :
    Gapless (fun a : CString × Word => a.2.toNat) (toFind attrib path cluster dir d) := by
  rw [edfsEnumerate_eq host h n hfirst] at hall
  cases ha : (toFind attrib path cluster dir d).head? with
  | none =>
    rw [List.head?_eq_none_iff.mp ha]
    exact .nil
  | some a =>
    rw [ha] at hall
    obtain ⟨answers, hanswers, heq⟩ := Option.map_eq_some_iff.mp hall
    -- the positions of the answers are those of the entries
    have hpos := map_answer_inj host heq
    have hgapless : (answers.map Prod.snd).IsChain fun p q : Word => p.toNat + 1 = q.toNat :=
      (List.isChain_map _).mpr (gapless_of_resume hanswers).1
    rw [hpos] at hgapless
    exact (List.isChain_map _).mp hgapless

/-- Without gaps, the enumeration is complete. -/
theorem edfsEnumerate_of_gapless (h : Enumerable host attrib path root cluster dir d l)
    (hfirst : ∀ a ∈ (toFind attrib path cluster dir d).head?, a.2 ≠ 0)
    (hgapless : Gapless (fun a : CString × Word => a.2.toNat) (toFind attrib path cluster dir d)) :
    edfsEnumerate host attrib path (toFind attrib path cluster dir d).length l =
      some ((toFind attrib path cluster dir d).map
        ((firstSearch attrib path cluster dir).answer host d)) := by
  rw [edfsEnumerate_eq host h _ hfirst]
  cases hall : toFind attrib path cluster dir d with
  | nil => rfl
  | cons a after =>
    rw [hall] at hgapless
    rw [← List.nil_append (a :: after)] at hgapless
    -- FINDNEXT asks for the next position, and without gaps it is there
    have hresume := resume_of_gapless hgapless (Nat.lt_succ_self after.length)
    rw [List.nil_append] at hresume
    dsimp only [List.head?_cons]
    rw [List.length_cons, hresume]
    rfl

/-- A host on which every directory has the same entries, which are files. -/
def filesHost (entries : List CString) : Host Unit :=
  { failingHost with
    opendir := fun _ h => (some entries, h)
    stat := fun _ h => (some { isDir := false, isReg := true, mtime := 0, size := 0 }, h) }

/-- Its directories. -/
def filesDirectory (entries : List CString) : HostDirectory where
  entries := entries
  stat _ := { isDir := false, isReg := true, mtime := 0, size := 0 }

/-- `\\????????.TXT` -/
def textFiles : CString :=
  [0x5C, 0x3F, 0x3F, 0x3F, 0x3F, 0x3F, 0x3F, 0x3F, 0x3F, 0x2E, 0x54, 0x58, 0x54]

theorem enumerable_filesHost (entries : List CString) :
    Enumerable (filesHost entries) 0x00 textFiles [0x2F, 0x72] 0 [] (filesDirectory entries)
      (lanInit (edfsInit [0x2F, 0x72]) ()) where
  attrib := by decide
  len := by decide
  nul := by decide
  has := ⟨fun _ => rfl, fun _ _ _ => rfl⟩
  maps := ⟨rfl, rfl, by decide⟩
  lookup := by decide

/-- **Enumerations are complete between gaps.** FINDFIRST and repeated FINDNEXT return the
entries to be found, each once and in the order of the directory, exactly if they follow each
other among the visible entries. Positions are counted in 16 bits, and the first is not 0. -/
theorem enumerates_iff (h : Enumerable host attrib path root cluster dir d l)
    (hfirst : ∀ a ∈ (toFind attrib path cluster dir d).head?, a.2 ≠ 0) :
    (∃ n, edfsEnumerate host attrib path n l = some ((toFind attrib path cluster dir d).map
        ((firstSearch attrib path cluster dir).answer host d))) ↔
      Gapless (fun a : CString × Word => a.2.toNat) (toFind attrib path cluster dir d) :=
  ⟨fun ⟨_, hall⟩ => gapless_of_edfsEnumerate host h hfirst hall,
    fun hgapless => ⟨_, edfsEnumerate_of_gapless host h hfirst hgapless⟩⟩

/-- The files `A.TXT` and `B.TXT` are both found. -/
theorem enumerates_texts :
    let entries : List CString := [[0x41, 0x2E, 0x54, 0x58, 0x54], [0x42, 0x2E, 0x54, 0x58, 0x54]]
    ∃ n, edfsEnumerate (filesHost entries) 0x00 textFiles n (lanInit (edfsInit [0x2F, 0x72]) ()) =
      some ((toFind 0x00 textFiles 0 [] (filesDirectory entries)).map
        ((firstSearch 0x00 textFiles 0 []).answer (filesHost entries) (filesDirectory entries))) :=
  (enumerates_iff _ (enumerable_filesHost _) (by decide)).mpr (by decide)

/-- With `B.DOC` between them, the files `A.TXT` and `C.TXT` are not both found. -/
theorem enumeration_incomplete : ¬ ∀ (η : Type) (host : Host η) (attrib : Byte)
    (path root : CString) (cluster : Word) (dir : CString) (d : HostDirectory) (l : Lan η),
    Enumerable host attrib path root cluster dir d l →
      ∃ n, edfsEnumerate host attrib path n l = some ((toFind attrib path cluster dir d).map
        ((firstSearch attrib path cluster dir).answer host d)) := by
  intro hall
  obtain ⟨n, hn⟩ := hall Unit _ _ _ _ _ _ _ _ (enumerable_filesHost
    [[0x41, 0x2E, 0x54, 0x58, 0x54], [0x42, 0x2E, 0x44, 0x4F, 0x43],
      [0x43, 0x2E, 0x54, 0x58, 0x54]])
  have hgapless := gapless_of_edfsEnumerate _ (enumerable_filesHost _) (by decide) hn
  exact absurd hgapless (by decide)

end Enumerations

end Requests

end Pc20iii
