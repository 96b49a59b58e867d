import Pc20iii.Edfs.Requests
import Pc20iii.Program.RotateSum

/-!
# The header of a reply

`edfs_handle_packet` lets a function of EtherDFS fill its part of `rx_frame`, and completes the
frame behind it. The buffer holds what earlier frames have left there, and a function that fails
fills less of it than one that succeeds.

* `isReplyLength_edfsDispatch`: every function gives a length between the header and `NET_MTU`,
  whatever the host does. READFILE is the only one whose length depends on the host.
* `Net.withHeader`: the frame with its header. The checksum comes last, over bytes that nothing
  changes any more, and its own field is in front of them.
* `isReply_request`: what a guest can rely on.
-/

namespace Pc20iii

open StateProgram

variable {η : Type} (host : Host η)

/-! ### The checksum -/

/-- `bsd_checksum` is the checksum that rotates and adds. -/
theorem bsdChecksum_eq (frame : ℕ → Byte) (start len : ℕ) :
    bsdChecksum (fun i => frame (start + i)) len = rotateSum 16 (frameBytes frame start len) := by
  rw [← wideRotateSum_eq (n := 32) (by decide) (by decide), frameBytes, List.foldl_map]
  rfl

/-! ### The header -/

/-- What the header puts into the frame, but for the checksum. -/
def headerFields (tx : ℕ → Byte) (rxLen : Word) : List (ℕ × List Byte) :=
  (List.range 6).map (fun k => (0x00 + k, [tx (0x06 + k)])) ++
    (List.range 6).map (fun k => (0x06 + k, [tx (0x00 + k)])) ++
    (List.range 2).map (fun k => (0x0C + k, [tx (0x0C + k)])) ++ [(0x34, wordBytesLE rxLen)] ++
    (List.range 2).map (fun k => (0x38 + k, [tx (0x38 + k)]))

/-- The checksum that goes into the frame. -/
def replyChecksum (tx : ℕ → Byte) (n : Net) : Word :=
  if (tx 0x38).getLsbD 7 then
    bsdChecksum (fun i => n.rxFrame (0x38 + i)) (sizeT (n.rxLen.toNat - 0x38))
  else 0

/-- The frame with its header. -/
def Net.withHeader (tx : ℕ → Byte) (n : Net) : Net :=
  let n := n.setFields (headerFields tx n.rxLen)
  n.setBytes 0x36 (wordBytesLE (replyChecksum tx n))

/-- The network has the frame `n`, while EtherDFS has the variables `e` and the host is in state
`h`. -/
structure Lan.Has (n : Net) (e : Edfs) (h : η) (l : Lan η) : Prop extends l.In e h where
  net : l.net = n

section Rules

variable {n : Net} {e : Edfs} {h : η}

theorem triple_has_readTx (tx : ℕ → Byte) (i : ℕ) :
    Triple (Lan.Has n e h) (readTx tx i : N η Byte) fun byte l => byte = tx i ∧ l.Has n e h :=
  fun _ hl => ⟨rfl, ⟨hl.edfs, hl.host⟩, hl.net⟩

theorem triple_has_getNet :
    Triple (Lan.Has n e h) (getNet : N η Net) fun n' l => n' = n ∧ l.Has n e h :=
  fun _ hl => ⟨hl.net, hl⟩

theorem triple_has_writeRx (start : ℕ) (bytes : List Byte) :
    Triple (Lan.Has n e h) (writeRx start bytes : N η Unit) fun _ =>
      Lan.Has (n.setBytes start bytes) e h :=
  fun _ hl => ⟨⟨hl.edfs, hl.host⟩, congrArg (Net.setBytes start bytes) hl.net⟩

/-- Bytes of the request are copied, one after the other. -/
theorem triple_has_copy (tx : ℕ → Byte) (src dst : ℕ) (ks : List ℕ) :
    Triple (Lan.Has n e h) (ks.forM fun k => do
      let byte ← readTx tx (src + k)
      writeRx (dst + k) [byte] : N η Unit) fun _ =>
        Lan.Has (n.setFields (ks.map fun k => (dst + k, [tx (src + k)]))) e h := by
  induction ks generalizing n with
  | nil => exact .ret fun _ hl => hl
  | cons k ks ih =>
    refine .bind (Q := fun _ => Lan.Has (n.setBytes (dst + k) [tx (src + k)]) e h) ?_ fun _ => ih
    refine (triple_has_readTx tx (src + k)).bind fun byte => .of_and fun hbyte => ?_
    rw [hbyte]
    exact triple_has_writeRx (dst + k) [tx (src + k)]

theorem setFields_append (writes writes' : List (ℕ × List Byte)) :
    n.setFields (writes ++ writes') = (n.setFields writes).setFields writes' :=
  List.foldl_append

@[simp] theorem rxLen_setFields (writes : List (ℕ × List Byte)) (n : Net) :
    (n.setFields writes).rxLen = n.rxLen := by
  induction writes generalizing n with
  | nil => rfl
  | cons write rest ih => exact ih _

/-- `edfs_reply` puts the fields of the header into the frame, and nothing else. -/
theorem triple_has_edfsReply (tx : ℕ → Byte) :
    Triple (Lan.Has n e h) (edfsReply tx : N η Unit) fun _ => Lan.Has (n.withHeader tx) e h := by
  unfold edfsReply
  refine (triple_has_copy tx 0x06 0x00 _).bind fun _ => ?_
  refine (triple_has_copy tx 0x00 0x06 _).bind fun _ => ?_
  refine (triple_has_copy tx 0x0C 0x0C _).bind fun _ => ?_
  refine triple_has_getNet.bind fun n' => .of_and fun hn' => ?_
  refine (triple_has_writeRx 0x34 _).bind fun _ => ?_
  refine (triple_has_copy tx 0x38 0x38 _).bind fun _ => ?_
  refine (triple_has_readTx tx 0x38).bind fun ver => .of_and fun hver => ?_
  refine triple_has_getNet.bind fun n'' => .of_and fun hn'' => ?_
  -- the addresses are exchanged, and the length is the one that has been set before
  have hfields : n'' = n.setFields (headerFields tx n.rxLen) := by
    rw [hn'', hn', headerFields, setFields_append, setFields_append, setFields_append,
      setFields_append]
    simp only [rxLen_setFields]
    rfl
  rw [← hn'', hver, hfields]
  exact triple_has_writeRx 0x36 _

end Rules

theorem pairwise_headerFields (tx : ℕ → Byte) (rxLen : Word) :
    (headerFields tx rxLen).Pairwise Apart := by
  simp [headerFields, List.range_succ, Apart]

theorem rxLen_withHeader (tx : ℕ → Byte) (n : Net) : (n.withHeader tx).rxLen = n.rxLen :=
  rxLen_setFields _ n

/-- The checksum changes its own field only. -/
theorem frameBytes_withHeader_of_le (tx : ℕ → Byte) (n : Net) {start : ℕ} (h : 0x38 ≤ start)
    (len : ℕ) : frameBytes (n.withHeader tx).rxFrame start len =
      frameBytes (n.setFields (headerFields tx n.rxLen)).rxFrame start len :=
  frameBytes_setBytes_of_not _ (.inr h)

/-- The fields of the header are found in the frame. -/
theorem frameBytes_withHeader (tx : ℕ → Byte) (n : Net) {field : ℕ × List Byte}
    (hfield : field ∈ headerFields tx n.rxLen) :
    frameBytes (n.withHeader tx).rxFrame field.1 field.2.length = field.2 := by
  have hapart : ∀ field ∈ headerFields tx n.rxLen,
      field.1 + field.2.length ≤ 0x36 ∨ 0x38 ≤ field.1 := by
    simp [headerFields, List.range_succ]
  refine (frameBytes_setBytes_of_not _ (hapart field hfield)).trans ?_
  exact frameBytes_setFields (pairwise_headerFields tx n.rxLen) hfield n

/-- A byte of the header that comes from the request. -/
theorem rxFrame_withHeader (tx : ℕ → Byte) (n : Net) {i j : ℕ}
    (h : (i, [tx j]) ∈ headerFields tx n.rxLen) : (n.withHeader tx).rxFrame i = tx j :=
  (List.cons.inj (frameBytes_withHeader tx n h)).1

/-- What is behind the header stays as it is. -/
theorem rxFrame_withHeader_of_le (tx : ℕ → Byte) (n : Net) {i : ℕ} (h : 0x3A ≤ i) :
    (n.withHeader tx).rxFrame i = n.rxFrame i := by
  have hend : ∀ field ∈ headerFields tx n.rxLen, field.1 + field.2.length ≤ 0x3A := by
    simp [headerFields, List.range_succ]
  have hbyte : frameBytes (n.setFields (headerFields tx n.rxLen)).rxFrame i 1 =
      frameBytes n.rxFrame i 1 :=
    frameBytes_setFields_of_not (i, [0]) (fun field hfield => .inr ((hend field hfield).trans h)) n
  rw [← frameBytes_withHeader_of_le tx n (by omega)] at hbyte
  exact (List.cons.inj hbyte).1

/-! ### The length -/

/-- The length of a reply: it has the result code, and fits the buffer. -/
def IsReplyLength (rxLen : Word) : Prop := 0x3C ≤ rxLen.toNat ∧ rxLen.toNat ≤ netMtu

instance (rxLen : Word) : Decidable (IsReplyLength rxLen) := inferInstanceAs (Decidable (_ ∧ _))

/-- The program gives the length of a reply, whatever it finds. -/
class GivesLength (x : N η Word) : Prop where
  isReplyLength : ∀ l, IsReplyLength (outcome x l).1

section Lengths

variable {α : Type}

/-- A step whose outcome does not matter. -/
theorem GivesLength.skip {x : N η α} {f : α → N η Word} (hf : ∀ a, GivesLength (f a)) :
    GivesLength (x >>= f) :=
  ⟨fun _ => (hf _).isReplyLength _⟩

theorem givesLength_pure {rxLen : Word} (h : IsReplyLength rxLen) :
    GivesLength (pure rxLen : N η Word) := ⟨fun _ => h⟩

instance givesLength_edfsFail (code : Word) : GivesLength (edfsFail code : N η Word) :=
  .skip fun _ => givesLength_pure (by decide)

/-- Whatever entry is found, the reply of a search has the length of its fields. -/
instance givesLength_edfsFindLoop (s : EdfsSearch) (entries : List CString) (pos : Word) :
    GivesLength (edfsFindLoop host s entries pos) := by
  induction entries generalizing pos with
  | nil => exact givesLength_edfsFail _
  | cons name rest ih =>
    unfold edfsFindLoop
    dsimp only
    repeat' first
      | infer_instance
      | with_reducible exact givesLength_pure (by decide)
      | with_reducible refine .skip fun _ => ?_
      | split

instance givesLength_edfsFind (attrib : Byte) (pattern : CString) (cluster targetPos : Word) :
    GivesLength (edfsFind host attrib pattern cluster targetPos) := by
  unfold edfsFind
  repeat' first
    | infer_instance
    | with_reducible refine .skip fun _ => ?_
    | split

instance givesLength_edfsOpenFile (path83 : CString) (attrib action cluster : Word)
    (path : CString) : GivesLength (edfsOpenFile host path83 attrib action cluster path) := by
  unfold edfsOpenFile edfsOpened
  repeat' first
    | infer_instance
    | with_reducible exact givesLength_pure (by decide)
    | with_reducible refine .skip fun _ => ?_
    | split

instance givesLength_edfsOpen (path83 : CString) (attrib action : Word) :
    GivesLength (edfsOpen host path83 attrib action) := by
  unfold edfsOpen
  repeat' first
    | infer_instance
    | with_reducible refine .skip fun _ => ?_
    | split

instance givesLength_edfsRemove (remove : CString → η → Bool × η) (unknown : Word)
    (path83 : CString) : GivesLength (edfsRemove remove unknown path83) := by
  unfold edfsRemove
  repeat' first
    | infer_instance
    | with_reducible refine .skip fun _ => ?_
    | split

instance givesLength_edfsRmdir (path83 : CString) : GivesLength (edfsRmdir host path83) :=
  givesLength_edfsRemove ..

instance givesLength_edfsDelete (path83 : CString) : GivesLength (edfsDelete host path83) :=
  givesLength_edfsRemove ..

instance givesLength_edfsMkdir (path83 : CString) : GivesLength (edfsMkdir host path83) := by
  unfold edfsMkdir
  repeat' first
    | infer_instance
    | with_reducible refine .skip fun _ => ?_
    | split

instance givesLength_edfsChdir (path83 : CString) : GivesLength (edfsChdir host path83) := by
  unfold edfsChdir
  repeat' first
    | infer_instance
    | with_reducible refine .skip fun _ => ?_
    | split

instance givesLength_edfsRename (path83Src path83Dst : CString) :
    GivesLength (edfsRename host path83Src path83Dst) := by
  unfold edfsRename
  repeat' first
    | infer_instance
    | with_reducible refine .skip fun _ => ?_
    | split

instance givesLength_edfsGetattr (path83 : CString) : GivesLength (edfsGetattr host path83) := by
  unfold edfsGetattr
  repeat' first
    | infer_instance
    | with_reducible exact givesLength_pure (by decide)
    | with_reducible refine .skip fun _ => ?_
    | split

instance givesLength_edfsWrite (offset : BitVec 32) (cluster : Word) (data : ℕ → Byte)
    (len : Word) : GivesLength (edfsWrite host offset cluster data len) := by
  unfold edfsWrite
  repeat' first
    | infer_instance
    | with_reducible exact givesLength_pure (by decide)
    | with_reducible refine .skip fun _ => ?_
    | split

/-- READFILE looks at the length that it is asked for, and the host reads no more than that. -/
instance givesLength_edfsRead (offset : BitVec 32) (cluster len : Word) :
    GivesLength (edfsRead host offset cluster len) := by
  unfold edfsRead
  refine .skip fun e => ?_
  split
  case h_1 => infer_instance
  case h_2 path _ =>
    split
    case isTrue => exact .skip fun _ => inferInstance
    case isFalse hlen =>
      refine .skip fun tmpPath => .skip fun found => ?_
      split
      case h_1 => infer_instance
      case h_2 file =>
        refine ⟨fun l => ?_⟩
        have hread := host.fread_le file offset len.toNat l.host
        change IsReplyLength
          (0x3C + BitVec.ofNat 16 (host.fread file offset len.toNat l.host).1.length)
        -- `len` has passed the check, so that the sum does not wrap
        have hsmall : (BitVec.ofNat 16 (host.fread file offset len.toNat l.host).1.length).toNat ≤
            1450 := by
          rw [BitVec.toNat_ofNat]
          exact (Nat.mod_le _ _).trans (hread.trans (by omega))
        constructor
        · bv_omega
        · have hmtu : netMtu = 1514 := rfl
          bv_omega

end Lengths

/-! ### Requests -/

/-- There is a reply, of a length that is one, whatever the program finds. -/
def Replies (x : N η (Option Word)) : Prop :=
  ∀ l, ∃ rxLen, (outcome x l).1 = some rxLen ∧ IsReplyLength rxLen

/-- The path at an offset of a request is inside the frame, and shorter than its array. -/
structure PathFits (txLen offset : ℕ) : Prop where
  offset_le : offset ≤ txLen
  lt_pathMax : txLen - offset < pathMax

instance (txLen offset : ℕ) : Decidable (PathFits txLen offset) :=
  decidable_of_iff (offset ≤ txLen ∧ txLen - offset < pathMax)
    ⟨fun h => ⟨h.1, h.2⟩, fun h => ⟨h.offset_le, h.lt_pathMax⟩⟩

section Requests

variable {α : Type} {tx : ℕ → Byte} {txLen : Word} {len offset : ℕ}

theorem replies_skip {x : N η α} {f : α → N η (Option Word)} (hf : ∀ a, Replies (f a)) :
    Replies (x >>= f) :=
  fun _ => hf _ _

theorem replies_some (x : N η Word) [hx : GivesLength x] :
    Replies (do return some (← x)) :=
  fun l => ⟨_, rfl, hx.isReplyLength l⟩

/-- A path that fits is found. -/
theorem outcome_edfsPath (h : PathFits len offset) (tx : ℕ → Byte) (l : Lan η) :
    ∃ path, (outcome (edfsPath tx len offset) l).1 = some (some path) := by
  rw [edfsPath, if_neg (Nat.not_lt.mpr h.offset_le), if_neg (Nat.not_le.mpr h.lt_pathMax)]
  exact ⟨_, rfl⟩

theorem replies_withPath (h : PathFits len offset) (operation : CString → N η Word)
    [∀ path, GivesLength (operation path)] : Replies (edfsWithPath tx len offset operation) := by
  intro l
  obtain ⟨path, hpath⟩ := outcome_edfsPath h tx l
  rw [edfsWithPath, outcome_bind, hpath]
  exact replies_some (operation path) _

/-- **The length of a reply.** Every function answers a request whose path fits. -/
theorem replies_edfsDispatch
    (h : ∀ offset ∈ edfsPathOffset tx (tx 0x3B), PathFits txLen.toNat offset) :
    Replies (edfsDispatch host tx txLen (tx 0x3B)) := by
  have hpath : ∀ {start : ℕ} (operation : CString → N η Word)
      [∀ path, GivesLength (operation path)], edfsPathOffset tx (tx 0x3B) = some start →
        Replies (edfsWithPath tx txLen.toNat start operation) :=
    fun operation _ hoffset => replies_withPath (h _ hoffset) operation
  apply edfsDispatch_cases (motive := Replies)
  case rmdir => exact fun hfunc => hpath _ (by rw [hfunc]; rfl)
  case mkdir => exact fun hfunc => hpath _ (by rw [hfunc]; rfl)
  case chdir => exact fun hfunc => hpath _ (by rw [hfunc]; rfl)
  case closefile => exact fun _ => replies_skip fun _ => replies_some _
  case readfile =>
    exact fun _ => replies_skip fun _ => replies_skip fun _ => replies_skip fun _ => replies_some _
  case writefile => exact fun _ => replies_skip fun _ => replies_skip fun _ => replies_some _
  case diskspace => exact fun _ l => ⟨0x42, rfl, by decide⟩
  case setattr =>
    intro hfunc
    refine replies_skip fun _ l => ?_
    obtain ⟨path, hfound⟩ := outcome_edfsPath (h 0x3D (by rw [hfunc]; rfl)) tx l
    rw [outcome_bind, hfound]
    exact replies_some (edfsFail edfsResultOk) _
  case getattr => exact fun hfunc => hpath _ (by rw [hfunc]; rfl)
  case findfirst => exact fun hfunc => replies_skip fun _ => hpath _ (by rw [hfunc]; rfl)
  case findnext =>
    intro hfunc
    refine replies_skip fun _ => replies_skip fun _ => replies_skip fun _ => ?_
    exact hpath _ (by rw [hfunc]; rfl)
  case rename =>
    intro hfunc l
    -- the path of the destination starts behind that of the source, whose length is a byte
    obtain ⟨dst, hdst⟩ := outcome_edfsPath (h (0x3D + (tx 0x3C).toNat) (by rw [hfunc]; rfl)) tx
      (l.reading [0x3C])
    have hsrc : PathFits (61 + (tx 0x3C).toNat) 0x3D := by
      have hbyte := (tx 0x3C).isLt
      have hmax : pathMax = 4096 := rfl
      constructor <;> omega
    rw [outcome_bind, outcome_readTx, outcome_bind, edfsWithPath, outcome_bind, hdst]
    exact replies_withPath hsrc (fun src => edfsRename host src dst) _
  case delete => exact fun hfunc => hpath _ (by rw [hfunc]; rfl)
  case openfile => exact fun hfunc => replies_skip fun _ => hpath _ (by rw [hfunc]; rfl)
  case create => exact fun hfunc => replies_skip fun _ => hpath _ (by rw [hfunc]; rfl)
  case spopnfil =>
    intro hfunc
    refine replies_skip fun _ => replies_skip fun _ => replies_skip fun _ => ?_
    exact hpath _ (by rw [hfunc]; rfl)
  case other => exact fun _ => replies_skip fun _ => replies_some _

/-- The reply to a request. -/
structure IsReply (tx : ℕ → Byte) (n : Net) : Prop where
  ready : n.rxReady = true
  length : IsReplyLength n.rxLen
  size : txWordLE n.rxFrame 0x34 = n.rxLen
  destination : ∀ k < 6, n.rxFrame k = tx (0x06 + k)
  source : ∀ k < 6, n.rxFrame (0x06 + k) = tx k
  version : n.rxFrame 0x38 = tx 0x38
  sequence : n.rxFrame 0x39 = tx 0x39
  checksum : txWordLE n.rxFrame 0x36 =
    if (tx 0x38).getLsbD 7 then
      rotateSum 16 (frameBytes n.rxFrame 0x38 (n.rxLen.toNat - 0x38))
    else 0

theorem replyChecksum_eq (tx : ℕ → Byte) {n : Net} (h : IsReplyLength n.rxLen) :
    replyChecksum tx n = if (tx 0x38).getLsbD 7 then
      rotateSum 16 (frameBytes n.rxFrame 0x38 (n.rxLen.toNat - 0x38)) else 0 := by
  have hsize : sizeT ((n.rxLen.toNat : ℤ) - 0x38) = n.rxLen.toNat - 0x38 := by
    have hle := h.1
    have hlt := n.rxLen.isLt
    rw [sizeT]
    omega
  rw [replyChecksum, hsize, bsdChecksum_eq]

/-- The frame with its header is a reply, whatever else is in it. -/
theorem isReply_withHeader (tx : ℕ → Byte) {n : Net} (h : IsReplyLength n.rxLen) :
    IsReply tx { n.withHeader tx with rxReady := true } where
  ready := rfl
  length := by
    rw [rxLen_withHeader]
    exact h
  size := by
    have hfield : (0x34, wordBytesLE n.rxLen) ∈ headerFields tx n.rxLen := by simp [headerFields]
    rw [rxLen_withHeader]
    exact txWordLE_of_frameBytes (frameBytes_withHeader tx n hfield)
  destination k hk := rxFrame_withHeader tx n (by simp [headerFields, hk])
  source k hk := rxFrame_withHeader tx n (by simp [headerFields, hk])
  version :=
    rxFrame_withHeader tx n (i := 0x38) (j := 0x38) (by simp [headerFields, List.range_succ])
  sequence :=
    rxFrame_withHeader tx n (i := 0x39) (j := 0x39) (by simp [headerFields, List.range_succ])
  checksum := by
    have hfield : txWordLE (n.withHeader tx).rxFrame 0x36 =
        replyChecksum tx (n.setFields (headerFields tx n.rxLen)) :=
      txWordLE_of_frameBytes (frameBytes_setBytes _ _ rfl)
    -- the header is in the frame before the checksum is computed, over all that is behind it
    have hlength : IsReplyLength (n.setFields (headerFields tx n.rxLen)).rxLen := by
      rw [rxLen_setFields]
      exact h
    change txWordLE (n.withHeader tx).rxFrame 0x36 = _
    rw [hfield, replyChecksum_eq tx hlength, rxLen_withHeader, rxLen_setFields,
      frameBytes_withHeader_of_le tx n le_rfl]

/-- A request that is handled goes to `edfsAnswer`. -/
theorem outcome_netTxFrame_request (hrequest : IsRequest tx) {l : Lan η}
    (hinited : l.edfs.inited = true) (txLen : Word) :
    outcome (netTxFrame host tx txLen) l =
      outcome (edfsAnswer host tx txLen (tx 0x3B)) (l.reading [0x0C, 0x0D, 0x38, 0x3B]) := by
  obtain ⟨hethertype, hversion⟩ := hrequest
  have hread : (l.reading [0x0C, 0x0C + 1]).edfs.inited = true := hinited
  rw [netTxFrame, outcome_bind, outcome_readTxWord, hethertype]
  dsimp only
  -- the type of the frame is neither ARP nor IPv4
  rw [if_neg (by decide), if_neg (by decide), if_pos rfl, edfsHandlePacket_eq, outcome_bind,
    outcome_getEdfs]
  dsimp only
  rw [if_pos hread, outcome_bind, outcome_readTx, outcome_bind, outcome_readTx]
  dsimp only
  rw [if_neg (not_not.mpr hversion)]
  rfl

/-- The network `l'` is `l` with the length and the header of the reply in the frame. -/
structure Lan.Completes (tx : ℕ → Byte) (rxLen : Word) (l l' : Lan η) : Prop where
  net : l'.net = { ({ l.net with rxLen := rxLen } : Net).withHeader tx with rxReady := true }
  edfs : l'.edfs = l.edfs
  host : l'.host = l.host

section Completes

variable {rxLen : Word} {l l' : Lan η} (h : l.Completes tx rxLen l')
include h

theorem Lan.Completes.rxLen_eq : l'.net.rxLen = rxLen := by
  rw [h.net]
  exact rxLen_withHeader tx _

/-- The header is in front of the answer. -/
theorem Lan.Completes.rxFrame_eq {i : ℕ} (hi : 0x3A ≤ i) :
    l'.net.rxFrame i = l.net.rxFrame i := by
  rw [h.net]
  exact rxFrame_withHeader_of_le tx _ hi

theorem Lan.Completes.frameBytes_eq {start : ℕ} (hstart : 0x3A ≤ start) (len : ℕ) :
    frameBytes l'.net.rxFrame start len = frameBytes l.net.rxFrame start len :=
  List.map_congr_left fun _ _ => h.rxFrame_eq (Nat.le_add_right_of_le hstart)

theorem Lan.Completes.edfsResult_eq : edfsResult l'.net.rxFrame = edfsResult l.net.rxFrame := by
  rw [edfsResult, edfsResult, txWordLE, txWordLE, h.rxFrame_eq (by decide),
    h.rxFrame_eq (i := 0x3A + 1) (by decide)]

end Completes

theorem completes_edfsAnswer {func : Byte} {l : Lan η} {rxLen : Word}
    (h : (outcome (edfsDispatch host tx txLen func) l).1 = some rxLen) :
    (outcome (edfsDispatch host tx txLen func) l).2.Completes tx rxLen
      (outcome (edfsAnswer host tx txLen func) l).2 := by
  obtain ⟨l₁, hl₁⟩ : ∃ l₁, l₁ = (outcome (edfsDispatch host tx txLen func) l).2 := ⟨_, rfl⟩
  -- the reply is completed from what the operation has left in the frame
  have hreply := triple_has_edfsReply (n := { l₁.net with rxLen := rxLen }) (e := l₁.edfs)
    (h := l₁.host) tx { l₁ with net := { l₁.net with rxLen := rxLen } } ⟨⟨rfl, rfl⟩, rfl⟩
  rw [edfsAnswer, outcome_bind, h, ← hl₁]
  exact ⟨congrArg (fun n : Net => { n with rxReady := true }) hreply.net, hreply.edfs, hreply.host⟩

/-- The rule for a request: what holds behind the `switch`, and that the reply is completed. -/
theorem triple_in_request {e : Edfs} {h : η} {Q : Word → Lan η → Prop}
    (hinited : e.inited = true) (hrequest : IsRequest tx)
    (hdispatch : Triple (Lan.In e h) (edfsDispatch host tx txLen (tx 0x3B)) fun r l =>
      ∃ rxLen, r = some rxLen ∧ Q rxLen l) :
    Triple (Lan.In e h) (netTxFrame host tx txLen) fun _ l' =>
      ∃ rxLen l, Q rxLen l ∧ l.Completes tx rxLen l' := by
  intro l hl
  obtain ⟨rxLen, hsome, hQ⟩ := hdispatch (l.reading [0x0C, 0x0D, 0x38, 0x3B]) ⟨hl.edfs, hl.host⟩
  have hl' : l.edfs.inited = true := by rw [hl.edfs, hinited]
  refine ⟨rxLen, _, hQ, ?_⟩
  rw [outcome_netTxFrame_request host hrequest hl']
  exact completes_edfsAnswer host hsome

/-- **The reply to a request.** Every request whose path fits is answered with a reply, whatever
the host does and whatever is left in the buffer. -/
theorem isReply_request {l : Lan η} (hinited : l.edfs.inited = true) (hrequest : IsRequest tx)
    (hpath : ∀ offset ∈ edfsPathOffset tx (tx 0x3B), PathFits txLen.toNat offset) :
    IsReply tx (lanAfter host l (.transmit tx txLen)).net := by
  obtain ⟨rxLen, hsome, hlength⟩ :=
    replies_edfsDispatch host hpath (l.reading [0x0C, 0x0D, 0x38, 0x3B])
  have hnet := (completes_edfsAnswer host hsome).net
  rw [← outcome_netTxFrame_request host hrequest hinited] at hnet
  rw [lanAfter, hnet]
  exact isReply_withHeader tx hlength

/-- READFILE of 16 bytes of the cluster 0, with the checksum flag. -/
def checkedRead (i : ℕ) : Byte :=
  if i = 0x38 then 0x82 else edfsFrame edfsFuncReadfile [0, 0, 0, 0, 0, 0, 16, 0] i

/-- A host that reads zeros. -/
def zeroHost : Host Unit :=
  { failingHost with
    fopen := fun _ _ h => (some 3, h)
    fread := fun _ _ len h => (List.replicate len 0, h)
    fread_le := fun _ _ _ _ => (List.length_replicate ..).le }

theorem isReply_checkedRead :
    (edfsInit []).inited = true ∧ IsRequest checkedRead ∧
      (∀ offset ∈ edfsPathOffset checkedRead (checkedRead 0x3B), PathFits 68 offset) ∧
        IsReply checkedRead
          (lanAfter zeroHost (lanInit (edfsInit []) ()) (.transmit checkedRead 68)).net :=
  ⟨rfl, by decide, nofun, isReply_request zeroHost rfl (by decide) nofun⟩

end Requests

end Pc20iii
