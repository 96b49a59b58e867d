import Pc20iii.Net.Bounds
import Pc20iii.Edfs.Requests

/-!
# The offsets of a request

Where `edfs_handle_packet` takes the path and the data of a request from.

`edfs_path` subtracts an offset from the length of the frame, and looks only whether what is left
fits in its array. So a frame that ends before the offset makes it write in front of the array,
and WRITE passes a length that wraps. All calls stay inside exactly when the frame reaches to
the offset of its function (`paths_inside_iff`).
-/

namespace Pc20iii

open StateProgram

variable {η : Type} (host : Host η)

/-- The length that WRITE passes to `edfs_write`. -/
def edfsWriteLen (txLen : Word) : Word := txLen - 0x42

/-- WRITE passes the bytes from 0x42 on, as many as `edfsWriteLen` says. -/
theorem edfsDispatch_write (tx : ℕ → Byte) (txLen : Word) :
    edfsDispatch host tx txLen edfsFuncWritefile = (do
      let offset ← readTxLongLE tx 0x3C
      let cluster ← readTxWordLE tx 0x40
      return some (← edfsWrite host offset cluster (fun k => tx (0x42 + k))
        (edfsWriteLen txLen))) := by
  rfl

/-- The events that a call records. -/
def recorded (x : N η Unit) (l : Lan η) : List NetEvent := (outcome x { l with log := [] }).2.log

/-- A call of `edfs_path` with this offset and this end of the frame reads inside a frame of
`txLen` bytes and writes inside its array. -/
structure PathInside (txLen offset len : ℕ) : Prop where
  offset_le : offset ≤ len
  le_txLen : len ≤ txLen
  lt_pathMax : len - offset < pathMax

/-- The calls of `edfs_path` are inside, and so is the data of WRITE. -/
structure RequestInside (tx : ℕ → Byte) (txLen : Word) (l : Lan η) : Prop where
  path : ∀ offset len, .edfsPath offset len ∈ recorded (edfsHandlePacket host tx txLen) l →
    PathInside txLen.toNat offset len
  write : l.edfs.inited = true → tx 0x38 &&& 0x7F = 2 → tx 0x3B = edfsFuncWritefile →
    (edfsWriteLen txLen).toNat ≤ txLen.toNat - 0x42

/-- The frame reaches to where the path or the data of its function starts. -/
structure ReachesOffset (tx : ℕ → Byte) (txLen : Word) : Prop where
  path : ∀ offset ∈ edfsPathOffset tx (tx 0x3B), offset ≤ txLen.toNat
  write : tx 0x3B = edfsFuncWritefile → 0x42 ≤ txLen.toNat

/-! ### Requests that are handled -/

theorem recorded_of_not_inited {l : Lan η} (h : ¬ l.edfs.inited = true) (tx : ℕ → Byte)
    (txLen : Word) : recorded (edfsHandlePacket host tx txLen) l = [] := by
  have hnot : ¬ ({ l with log := [] } : Lan η).edfs.inited = true := h
  rw [recorded, edfsHandlePacket_eq, outcome_bind, outcome_getEdfs]
  dsimp only
  rw [if_neg hnot]
  rfl

theorem recorded_of_not_version {l : Lan η} (h : l.edfs.inited = true) {tx : ℕ → Byte}
    (hver : tx 0x38 &&& 0x7F ≠ 2) (txLen : Word) :
    recorded (edfsHandlePacket host tx txLen) l = [.txRead 0x3B, .txRead 0x38] := by
  rw [recorded, edfsHandlePacket_eq]
  simp only [outcome_bind, outcome_getEdfs, h, if_true, outcome_readTx, if_pos hver]
  rfl

theorem recorded_of_handled {l : Lan η} (h : l.edfs.inited = true) {tx : ℕ → Byte}
    (hver : tx 0x38 &&& 0x7F = 2) (txLen : Word) :
    recorded (edfsHandlePacket host tx txLen) l =
      (outcome (edfsAnswer host tx txLen (tx 0x3B))
        (({ l with log := [] } : Lan η).reading [0x38, 0x3B])).2.log := by
  have hver' : ¬ tx 0x38 &&& 0x7F ≠ 2 := not_not.mpr hver
  rw [recorded, edfsHandlePacket_eq]
  simp only [outcome_bind, outcome_getEdfs, h, if_true, outcome_readTx, if_neg hver']
  rfl

/-! ### Calls that are inside -/

/-- The calls of `edfs_path` are inside a frame of `txLen` bytes. -/
def NetEvent.PathsInside (txLen : ℕ) (e : NetEvent) : Prop :=
  ∀ offset len, e = .edfsPath offset len → PathInside txLen offset len

instance (txLen : ℕ) : FileEvents (NetEvent.PathsInside txLen) (fun _ _ => ()) where
  rxWrite _ := nofun
  ipHeader := nofun
  setBytes _ _ _ := rfl
  ipId _ _ := rfl
  rxLen _ _ := rfl
  txRead _ := nofun
  rxWrites _ _ := nofun
  ipChecksum _ _ := nofun
  hostPath _ := nofun
  buffer _ _ := nofun
  crash := nofun
  edfs _ _ _ := rfl

instance (txLen : ℕ) : ReadyEvents (NetEvent.PathsInside txLen) (fun _ _ => ()) where
  built := nofun
  rxReady _ := rfl

theorem pathInside_of_le {txLen offset len : ℕ} (hoffset : offset ≤ len) (hlen : len ≤ txLen)
    (hmtu : txLen ≤ netMtu) : (NetEvent.edfsPath offset len).PathsInside txLen := by
  have hmtu : txLen ≤ 1514 := hmtu
  rintro _ _ ⟨⟩
  exact ⟨hoffset, hlen, show len - offset < 4096 by omega⟩

/-- In a frame that is long enough all calls are inside. -/
theorem pathsInside_edfsAnswer {tx : ℕ → Byte} {txLen : Word} (hmtu : txLen.toNat ≤ netMtu)
    (h : ReachesOffset tx txLen) (l : Lan η) :
    l.Extends (NetEvent.PathsInside txLen.toNat) (fun _ _ => ())
      (outcome (edfsAnswer host tx txLen (tx 0x3B)) l).2 := by
  have hdispatch : Generated (LanAction (NetEvent.PathsInside txLen.toNat) (fun _ _ => ()))
      (edfsDispatch host tx txLen (tx 0x3B)) := by
    refine generated_edfsDispatch_of host ?_ ?_
    · intro offset hoffset
      exact pathInside_of_le (h.path offset hoffset) le_rfl hmtu
    · -- the first path of RENAME ends where the second one starts
      intro hrename
      have hend : 0x3D + (tx 0x3C).toNat ≤ txLen.toNat := by
        refine h.path _ ?_
        rw [hrename]
        rfl
      exact pathInside_of_le (Nat.le_add_right _ _) hend hmtu
  exact extends_of_generated inferInstance l

/-! ### The call for the path -/

/-- What has been recorded stays recorded. -/
theorem triple_mem_log {α : Type} {e : NetEvent} {x : N η α}
    (hx : Generated (LanAction (fun _ => True) fun _ _ => ()) x) :
    Triple (fun l => e ∈ l.log) x fun _ l => e ∈ l.log := by
  intro l h
  obtain ⟨es, hlog, -⟩ := (extends_of_generated hx l).log
  rw [hlog]
  exact List.mem_append_right es h

theorem mem_log_of_edfsPath (tx : ℕ → Byte) (txLen offset : ℕ) :
    Triple (fun _ => True) (edfsPath tx txLen offset : N η (Option (Option CString))) fun _ l =>
      .edfsPath offset txLen ∈ l.log := by
  unfold edfsPath
  refine .bind (Q := fun _ l => .edfsPath offset txLen ∈ l.log) ?_ fun _ => ?_
  · exact fun l _ => List.mem_cons_self
  · exact triple_mem_log inferInstance

theorem mem_log_of_edfsWithPath {α : Type} (tx : ℕ → Byte) (txLen offset : ℕ)
    (operation : CString → N η α)
    [∀ path, Generated (LanAction (fun _ => True) fun _ _ => ()) (operation path)] :
    Triple (fun _ => True) (edfsWithPath tx txLen offset operation) fun _ l =>
      .edfsPath offset txLen ∈ l.log := by
  unfold edfsWithPath
  refine (mem_log_of_edfsPath tx txLen offset).bind fun path => triple_mem_log ?_
  split <;> infer_instance

/-- A request with a path calls `edfs_path` for it. -/
theorem mem_log_of_edfsDispatch {tx : ℕ → Byte} {func : Byte} {offset : ℕ}
    (hoffset : edfsPathOffset tx func = some offset) (txLen : Word) :
    Triple (fun _ => True) (edfsDispatch host tx txLen func) fun _ l =>
      .edfsPath offset txLen.toNat ∈ l.log := by
  have hread : ∀ {α : Type} (x : N η α), Triple (fun _ => True) x fun _ _ => True :=
    fun _ _ _ => trivial
  -- most functions read their path at `edfsPathOffset` and do nothing else with the frame
  have hpath : ∀ {α : Type} {start : ℕ} (operation : CString → N η α)
      [∀ path, Generated (LanAction (fun _ => True) fun _ _ => ()) (operation path)],
      edfsPathOffset tx func = some start →
        Triple (fun _ => True) (edfsWithPath tx txLen.toNat start operation) fun _ l =>
          .edfsPath offset txLen.toNat ∈ l.log := by
    intro α start operation _ hstart
    cases Option.some.inj (hoffset.symm.trans hstart)
    exact mem_log_of_edfsWithPath tx txLen.toNat offset operation
  have hnone : edfsPathOffset tx func ≠ none := by
    rw [hoffset]
    nofun
  apply edfsDispatch_cases (motive := fun x => Triple (fun _ => True) x fun _ l =>
    .edfsPath offset txLen.toNat ∈ l.log)
  case rmdir => exact fun hfunc => hpath _ (by rw [hfunc]; rfl)
  case mkdir => exact fun hfunc => hpath _ (by rw [hfunc]; rfl)
  case chdir => exact fun hfunc => hpath _ (by rw [hfunc]; rfl)
  case closefile => exact fun hfunc => absurd (by rw [hfunc]; rfl) hnone
  case readfile => exact fun hfunc => absurd (by rw [hfunc]; rfl) hnone
  case writefile => exact fun hfunc => absurd (by rw [hfunc]; rfl) hnone
  case diskspace => exact fun hfunc => absurd (by rw [hfunc]; rfl) hnone
  case setattr =>
    intro hfunc
    -- SETATTR decodes its path itself, in front of the operation
    have hstart : edfsPathOffset tx func = some 0x3D := by rw [hfunc]; rfl
    cases Option.some.inj (hoffset.symm.trans hstart)
    refine (hread _).bind fun _ => (mem_log_of_edfsPath tx _ _).bind fun path => ?_
    refine triple_mem_log ?_
    split <;> infer_instance
  case getattr => exact fun hfunc => hpath _ (by rw [hfunc]; rfl)
  case findfirst => exact fun hfunc => (hread _).bind fun _ => hpath _ (by rw [hfunc]; rfl)
  case findnext =>
    intro hfunc
    refine (hread _).bind fun _ => (hread _).bind fun _ => (hread _).bind fun _ => ?_
    exact hpath _ (by rw [hfunc]; rfl)
  case rename =>
    intro hfunc
    -- the offset is the byte that is read
    have hbyte : Triple (fun _ => True) (readTx tx 0x3C : N η Byte) fun byte _ =>
        byte = tx 0x3C ∧ True := fun _ _ => ⟨rfl, trivial⟩
    refine hbyte.bind fun byte => .of_and fun heq => ?_
    rw [heq]
    refine (hpath _ (by rw [hfunc]; rfl)).bind fun dst => triple_mem_log ?_
    split <;> infer_instance
  case delete => exact fun hfunc => hpath _ (by rw [hfunc]; rfl)
  case openfile => exact fun hfunc => (hread _).bind fun _ => hpath _ (by rw [hfunc]; rfl)
  case create => exact fun hfunc => (hread _).bind fun _ => hpath _ (by rw [hfunc]; rfl)
  case spopnfil =>
    intro hfunc
    refine (hread _).bind fun _ => (hread _).bind fun _ => (hread _).bind fun _ => ?_
    exact hpath _ (by rw [hfunc]; rfl)
  case other =>
    intro hother
    refine absurd ?_ hnone
    simp [edfsPathOffset, hother]

theorem mem_log_of_edfsAnswer {tx : ℕ → Byte} {func : Byte} {offset : ℕ}
    (hoffset : edfsPathOffset tx func = some offset) (txLen : Word) :
    Triple (fun _ => True) (edfsAnswer host tx txLen func) fun _ l =>
      .edfsPath offset txLen.toNat ∈ l.log := by
  unfold edfsAnswer
  refine (mem_log_of_edfsDispatch host hoffset txLen).bind fun len => triple_mem_log ?_
  split
  · infer_instance
  · refine .seq _ _ (generated_modifyNet fun _ => rfl) fun _ => ?_
    refine .seq _ _ inferInstance fun _ => ?_
    exact .seq _ _ (generated_modifyNet fun _ => rfl) fun _ => generated_note trivial

/-- WRITE passes no more bytes than there are exactly when the frame reaches to its data. -/
theorem edfsWriteLen_le_iff (txLen : Word) :
    (edfsWriteLen txLen).toNat ≤ txLen.toNat - 0x42 ↔ 0x42 ≤ txLen.toNat := by
  rw [edfsWriteLen]
  constructor
  · intro hle
    by_contra hshort
    bv_omega
  · intro hlong
    bv_omega

/-- **The offsets of a request.** For a frame of at most `NET_MTU` bytes, the calls of
`edfs_path` are inside the frame and the array, and WRITE passes no more data than there is,
exactly when the frame reaches to the offset of its function, if it is handled at all. -/
theorem paths_inside_iff {txLen : Word} (hmtu : txLen.toNat ≤ netMtu) (tx : ℕ → Byte)
    (l : Lan η) :
    RequestInside host tx txLen l ↔
      (l.edfs.inited = true → tx 0x38 &&& 0x7F = 2 → ReachesOffset tx txLen) := by
  constructor
  · rintro ⟨hpath, hwrite⟩ hinited hver
    -- a call that is made within the frame shows that the frame reaches so far
    refine ⟨fun offset hoffset => ?_, fun hfunc => ?_⟩
    · refine (hpath offset txLen.toNat ?_).offset_le
      rw [recorded_of_handled host hinited hver]
      exact mem_log_of_edfsAnswer host hoffset txLen _ trivial
    · exact (edfsWriteLen_le_iff txLen).mp (hwrite hinited hver hfunc)
  · intro h
    refine ⟨fun offset len hmem => ?_, fun hinited hver hfunc => ?_⟩
    · by_cases hinited : l.edfs.inited = true
      case neg =>
        rw [recorded_of_not_inited host hinited] at hmem
        exact absurd hmem List.not_mem_nil
      by_cases hver : tx 0x38 &&& 0x7F = 2
      case neg =>
        rw [recorded_of_not_version host hinited hver] at hmem
        simp at hmem
      rw [recorded_of_handled host hinited hver] at hmem
      -- the calls of the request come on top of an empty log
      obtain ⟨es, hlog, hes⟩ := (pathsInside_edfsAnswer host hmtu (h hinited hver)
        (({ l with log := [] } : Lan η).reading [0x38, 0x3B])).log
      rw [hlog, List.mem_append] at hmem
      rcases hmem with hmem | hmem
      · exact hes _ hmem offset len rfl
      · simp [Lan.reading] at hmem
    · exact (edfsWriteLen_le_iff txLen).mpr ((h hinited hver).write hfunc)

/-- RENAME, with 200 as the length of its first path. -/
def longRename (i : ℕ) : Byte :=
  if i = 0x38 then 2
  else if i = 0x3B then edfsFuncRename
  else if i = 0x3C then 200
  else 0

theorem paths_inside_rename :
    (1000 : Word).toNat ≤ netMtu ∧
      (RequestInside failingHost longRename 1000 (lanInit (edfsInit []) ()) ↔
        ((edfsInit []).inited = true → longRename 0x38 &&& 0x7F = 2 →
          ReachesOffset longRename 1000)) :=
  ⟨by decide, paths_inside_iff failingHost (by decide) longRename _⟩

/-- In a frame of 100 bytes the second path starts behind the end. -/
theorem path_outside : ¬ ∀ (η : Type) (host : Host η) (tx : ℕ → Byte) (txLen : Word)
    (l : Lan η), txLen.toNat ≤ netMtu → RequestInside host tx txLen l := by
  intro h
  have hinside := h Unit failingHost longRename 100 (lanInit (edfsInit []) ()) (by decide)
  have hmem : .edfsPath 261 100 ∈
      recorded (edfsHandlePacket failingHost longRename 100) (lanInit (edfsInit []) ()) := by
    rw [recorded_of_handled failingHost rfl (by decide)]
    have hoffset : edfsPathOffset longRename (longRename 0x3B) = some 261 := rfl
    exact mem_log_of_edfsAnswer failingHost hoffset 100 _ trivial
  exact absurd (hinside.path 261 100 hmem).offset_le (by decide)

end Pc20iii
