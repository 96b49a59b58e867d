import Pc20iii.Net.Tcp
import Pc20iii.Program.Handles
import Pc20iii.Program.Triple

/-!
# Sockets and files

Which descriptors of `socket` and which streams of `fopen` `net.c` and `edfs.c` have open. The host
is any host, with a record of its calls: `Host.traced` does what the host does, and notes which of
these handles a call opens, uses or closes.

Directory streams are not among them. `Host.opendir` stands for `opendir`, the calls of `readdir`
and `closedir` together, as it gives the whole listing; that `edfs_find` returns without `closedir`
when `stat` fails on an entry, and so leaves the directory open, is outside of this record.

The slots of the two tables of sockets, taken together, hold descriptors; streams are held by no
one, since EtherDFS closes a file with the request that has opened it. `Lan.handles` is this view
of the network, and every function of it makes steps that keep the table in order:

* Most functions neither call the host with a handle nor touch a descriptor (`KeepAction`).
* The requests of EtherDFS that open a file borrow it (`own_borrow`).
* A SYN, and a datagram for a new destination, fill a free slot (`triple_socket`).
* The functions of a socket that is open use what it holds, and leave it open or close it. That
  the socket is open is their precondition (`HoldsAt`), which their callers have from the search
  in the table.
-/

namespace Pc20iii

open StateProgram

-- Instance search follows the syntax of the functions below.
set_option synthInstance.maxSize 1000

variable {η : Type}

/-! ### The record -/

/-- What `socket` gives to `net.c` and `fopen` to `edfs.c`, to be named in later calls. -/
inductive Handle where
  /-- Of `socket`. -/
  | descriptor (fd : ℤ)
  /-- Of `fopen`. -/
  | stream (file : ℕ)
deriving DecidableEq

/-- The state of the host, and the record. -/
abbrev Traced (η : Type) : Type := η × List (HandleEvent Handle)

/-- A call that names no descriptor of `socket` and no stream of `fopen`. -/
def unnamed {α : Type} (f : η → α × η) (h : Traced η) : α × Traced η :=
  ((f h.1).1, (f h.1).2, h.2)

/-- A call with a handle. -/
def named {α : Type} (e : HandleEvent Handle) (f : η → α × η) (h : Traced η) : α × Traced η :=
  ((f h.1).1, (f h.1).2, e :: h.2)

/-- A call that gives a handle, unless it fails. -/
def opening (handle : ℕ → Handle) (f : η → Option ℕ × η) (h : Traced η) :
    Option ℕ × Traced η :=
  ((f h.1).1, (f h.1).2,
    match (f h.1).1 with
    | none => h.2
    | some n => .opened (handle n) :: h.2)

/-- The host with a record of the calls on sockets and on files that `fopen` has opened. -/
def Host.traced (host : Host η) : Host (Traced η) where
  errno h := host.errno h.1
  stack h := host.stack h.1
  socket type := opening (fun fd => .descriptor fd) (host.socket type)
  connect fd ip port := named (.used (.descriptor fd)) (host.connect fd ip port)
  fcntl fd := named (.used (.descriptor fd)) (host.fcntl fd)
  send fd data len := named (.used (.descriptor fd)) (host.send fd data len)
  sendto fd data len ip port := named (.used (.descriptor fd)) (host.sendto fd data len ip port)
  recv fd len := named (.used (.descriptor fd)) (host.recv fd len)
  recvfrom fd len := named (.used (.descriptor fd)) (host.recvfrom fd len)
  close fd h := (host.close fd h.1, .closed (.descriptor fd) :: h.2)
  opendir path := unnamed (host.opendir path)
  stat path := unnamed (host.stat path)
  fopen path mode := opening .stream (host.fopen path mode)
  fread file offset len := named (.used (.stream file)) (host.fread file offset len)
  fwrite file data len := named (.used (.stream file)) (host.fwrite file data len)
  fclose file h := (host.fclose file h.1, .closed (.stream file) :: h.2)
  mkdir path := unnamed (host.mkdir path)
  rmdir path := unnamed (host.rmdir path)
  unlink path := unnamed (host.unlink path)
  rename old new := unnamed (host.rename old new)
  localtime := host.localtime
  send_le h := host.send_le h
  sendto_le h := host.sendto_le h
  recv_le h := host.recv_le h
  recvfrom_le h := host.recvfrom_le h
  fread_le file offset len h := host.fread_le file offset len h.1
  fwrite_le file data len h := host.fwrite_le file data len h.1

/-! ### The slots -/

/-- A slot of `tcp_sockets` or of `udp_sockets`. -/
abbrev HandleSlot := Slot ⊕ Slot

def Net.fdAt (n : Net) : HandleSlot → ℤ
  | .inl i => (n.tcpSockets i).fd
  | .inr i => (n.udpSockets i).fd

/-- What a slot holds; -1 is none. -/
def handleOf (fd : ℤ) : Option Handle := if fd = -1 then none else some (.descriptor fd)

/-- The handles of the network. -/
def Lan.handles (l : Lan (Traced η)) : HandleTable Handle HandleSlot where
  history := l.host.2
  held s := handleOf (l.net.fdAt s)

/-- The handles behind an assignment to a TCP socket. -/
theorem handles_modifyTcp (i : Slot) (f : NetTcpSocket → NetTcpSocket) (l : Lan (Traced η)) :
    (outcome (modifyTcp i f) l).2.handles =
      l.handles.put (.inl i) (handleOf (f (l.net.tcpSockets i)).fd) := by
  refine congrArg (HandleTable.mk l.host.2) (funext fun s => ?_)
  change _ = (l.handles.put (.inl i) (handleOf (f (l.net.tcpSockets i)).fd)).held s
  cases s with
  | inl j =>
    by_cases hj : j = i
    · rw [hj, held_put_self]
      exact congrArg (fun s => handleOf (NetTcpSocket.fd s)) (tcpSockets_modifyTcp i f l)
    · rw [held_put_of_ne fun h => hj (Sum.inl.inj h)]
      exact congrArg (fun s => handleOf (NetTcpSocket.fd s)) (Function.update_of_ne hj _ _)
  | inr j =>
    rw [held_put_of_ne Sum.inr_ne_inl]
    rfl

/-- The handles behind an assignment to a UDP socket. -/
theorem handles_modifyUdp (i : Slot) (f : NetUdpSocket → NetUdpSocket) (l : Lan (Traced η)) :
    (outcome (modifyUdp i f) l).2.handles =
      l.handles.put (.inr i) (handleOf (f (l.net.udpSockets i)).fd) := by
  refine congrArg (HandleTable.mk l.host.2) (funext fun s => ?_)
  change _ = (l.handles.put (.inr i) (handleOf (f (l.net.udpSockets i)).fd)).held s
  cases s with
  | inl j =>
    rw [held_put_of_ne Sum.inl_ne_inr]
    rfl
  | inr j =>
    by_cases hj : j = i
    · rw [hj, held_put_self]
      exact congrArg (fun s => handleOf (NetUdpSocket.fd s)) (Function.update_self ..)
    · rw [held_put_of_ne fun h => hj (Sum.inr.inj h)]
      exact congrArg (fun s => handleOf (NetUdpSocket.fd s)) (Function.update_of_ne hj _ _)

/-! ### What touches no handle -/

/-- The primitive steps that touch no handle. -/
abbrev KeepAction : ∀ α : Type, N (Traced η) α → Prop := fun _ x =>
  ∀ l, (outcome x l).2.handles = l.handles

theorem handles_of_generated {α : Type} {x : N (Traced η) α} (hx : Generated KeepAction x)
    (l : Lan (Traced η)) : (outcome x l).2.handles = l.handles :=
  hx.rel (R := fun l l' : Lan (Traced η) => l'.handles = l.handles) (fun _ => rfl)
    (fun h h' => h'.trans h) (fun h l => h l) l

section Keep

instance keep_note (e : NetEvent) : Generated KeepAction (note e : N (Traced η) Unit) :=
  .action _ fun _ => rfl

instance keep_netPanic (text : String) :
    Generated KeepAction (netPanic text : N (Traced η) Unit) := .action _ fun _ => rfl

instance keep_getNet : Generated KeepAction (getNet : N (Traced η) Net) := .action _ fun _ => rfl

instance keep_getEdfs : Generated KeepAction (getEdfs : N (Traced η) Edfs) :=
  .action _ fun _ => rfl

instance keep_getErrno (host : Host (Traced η)) : Generated KeepAction (getErrno host) :=
  .action _ fun _ => rfl

instance keep_modifyEdfs (f : Edfs → Edfs) :
    Generated KeepAction (modifyEdfs f : N (Traced η) Unit) := .action _ fun _ => rfl

instance keep_rxComplete (len : Word) :
    Generated KeepAction (rxComplete len : N (Traced η) Unit) := .action _ fun _ => rfl

instance keep_readTx (tx : ℕ → Byte) (i : ℕ) :
    Generated KeepAction (readTx tx i : N (Traced η) Byte) := .action _ fun _ => rfl

instance keep_readTxWord (tx : ℕ → Byte) (i : ℕ) :
    Generated KeepAction (readTxWord tx i : N (Traced η) Word) := .action _ fun _ => rfl

instance keep_readTxLong (tx : ℕ → Byte) (i : ℕ) :
    Generated KeepAction (readTxLong tx i : N (Traced η) (BitVec 32)) := .action _ fun _ => rfl

instance keep_readTxWordLE (tx : ℕ → Byte) (i : ℕ) :
    Generated KeepAction (readTxWordLE tx i : N (Traced η) Word) := .action _ fun _ => rfl

instance keep_readTxLongLE (tx : ℕ → Byte) (i : ℕ) :
    Generated KeepAction (readTxLongLE tx i : N (Traced η) (BitVec 32)) := .action _ fun _ => rfl

instance keep_writeRx (start : ℕ) (bytes : List Byte) :
    Generated KeepAction (writeRx start bytes : N (Traced η) Unit) := .action _ fun _ => rfl

instance keep_copyTx (tx : ℕ → Byte) (start len : ℕ) :
    Generated KeepAction (copyTx tx start len : N (Traced η) Unit) := by
  unfold copyTx
  infer_instance

/-- Assignments to the other fields of a TCP socket. -/
theorem keep_modifyTcp (i : Slot) {f : NetTcpSocket → NetTcpSocket} (h : ∀ s, (f s).fd = s.fd) :
    Generated KeepAction (modifyTcp i f : N (Traced η) Unit) := by
  refine .action _ fun l => ?_
  rw [handles_modifyTcp, h]
  exact congrArg (HandleTable.mk l.host.2) (Function.update_eq_self _ _)

/-- Assignments to the other fields of a UDP socket. -/
theorem keep_modifyUdp (i : Slot) {f : NetUdpSocket → NetUdpSocket} (h : ∀ s, (f s).fd = s.fd) :
    Generated KeepAction (modifyUdp i f : N (Traced η) Unit) := by
  refine .action _ fun l => ?_
  rw [handles_modifyUdp, h]
  exact congrArg (HandleTable.mk l.host.2) (Function.update_eq_self _ _)

instance keep_netEthernetReply : Generated KeepAction (netEthernetReply : N (Traced η) Unit) := by
  unfold netEthernetReply
  infer_instance

instance keep_netIpv4Reply (ipLen : Word) (proto : Byte) (srcIp : BitVec 32) :
    Generated KeepAction (netIpv4Reply ipLen proto srcIp : N (Traced η) Unit) :=
  .action _ fun _ => rfl

instance keep_netUdpReply (recvBytes : ℕ) (srcIp : BitVec 32) (srcPort dstPort : Word) :
    Generated KeepAction (netUdpReply recvBytes srcIp srcPort dstPort : N (Traced η) Unit) := by
  unfold netUdpReply
  infer_instance

instance keep_netTcpReply (len : ℕ) (i : Slot) (flags : Byte) :
    Generated KeepAction (netTcpReply len i flags : N (Traced η) Unit) := by
  unfold netTcpReply
  infer_instance

instance keep_netTcpSegment (len : ℕ) (i : Slot) (flags : Byte) (dstIp advance : BitVec 32) :
    Generated KeepAction (netTcpSegment len i flags dstIp advance : N (Traced η) Unit) := by
  have hadvance : Generated KeepAction (modifyTcp i fun s => { s with
      sendSeq := s.sendSeq + advance } : N (Traced η) Unit) := keep_modifyTcp i fun _ => rfl
  unfold netTcpSegment
  infer_instance

instance keep_netHandleIcmp (tx : ℕ → Byte) (txLen : Word) :
    Generated KeepAction (netHandleIcmp tx txLen : N (Traced η) Unit) := by
  unfold netHandleIcmp
  repeat' first
    | with_reducible refine .seq _ _ ?_ fun _ => ?_
    | split
    | infer_instance

instance keep_netHandleArp (tx : ℕ → Byte) (txLen : Word) :
    Generated KeepAction (netHandleArp tx txLen : N (Traced η) Unit) := by
  unfold netHandleArp
  repeat' first
    | with_reducible refine .seq _ _ ?_ fun _ => ?_
    | split
    | infer_instance

instance keep_readCookie (tx : ℕ → Byte) (cookie : List (ℕ × Byte)) :
    Generated KeepAction (readCookie tx cookie : N (Traced η) Bool) := by
  induction cookie with
  | nil => exact .ret true
  | cons p rest ih =>
    unfold readCookie
    infer_instance

instance keep_netDhcpReply (tx : ℕ → Byte) (type : Byte) :
    Generated KeepAction (netDhcpReply tx type : N (Traced η) Unit) := by
  unfold netDhcpReply
  repeat' first
    | with_reducible refine .seq _ _ ?_ fun _ => ?_
    | infer_instance

instance keep_netHandleDhcp (tx : ℕ → Byte) :
    Generated KeepAction (netHandleDhcp tx : N (Traced η) Unit) := by
  unfold netHandleDhcp
  infer_instance

/-! EtherDFS. -/

instance keep_edfsSetResult (code : Word) :
    Generated KeepAction (edfsSetResult code : N (Traced η) Unit) := keep_writeRx _ _

instance keep_edfsFail (code : Word) :
    Generated KeepAction (edfsFail code : N (Traced η) Word) := by
  unfold edfsFail
  infer_instance

instance keep_edfsRootPath (path : CString) :
    Generated KeepAction (edfsRootPath path : N (Traced η) CString) := by
  unfold edfsRootPath
  infer_instance

instance keep_edfsUnixpath (path83 : CString) :
    Generated KeepAction (edfsUnixpath path83 : N (Traced η) CString) := by
  unfold edfsUnixpath
  infer_instance

instance keep_edfsDirLookup (path83 : CString) :
    Generated KeepAction (edfsDirLookup path83 : N (Traced η) (Option (Word × CString))) := by
  unfold edfsDirLookup
  infer_instance

instance keep_edfsClusterRegister (path path83 : CString) :
    Generated KeepAction (edfsClusterRegister path path83 : N (Traced η) Unit) := by
  unfold edfsClusterRegister
  repeat' first
    | with_reducible refine .seq _ _ ?_ fun _ => ?_
    | split
    | infer_instance

instance keep_edfsClusterUnregister (path : CString) :
    Generated KeepAction (edfsClusterUnregister path : N (Traced η) Unit) := by
  unfold edfsClusterUnregister
  repeat' first
    | with_reducible refine .seq _ _ ?_ fun _ => ?_
    | split
    | infer_instance

/-- A call with a path that gives no stream. -/
instance keep_hostPath {α : Type} (path : CString) (f : CString → η → α × η) :
    Generated KeepAction (hostPath path fun p => unnamed (f p)) := .action _ fun _ => rfl

end Keep

section KeepEdfs

variable (host : Host η)

instance keep_stat (path : CString) : Generated KeepAction (hostPath path host.traced.stat) :=
  keep_hostPath path host.stat

instance keep_opendir (path : CString) :
    Generated KeepAction (hostPath path host.traced.opendir) := keep_hostPath path host.opendir

instance keep_mkdir (path : CString) : Generated KeepAction (hostPath path host.traced.mkdir) :=
  keep_hostPath path host.mkdir

instance keep_rename (old path : CString) :
    Generated KeepAction (hostPath path (host.traced.rename old)) :=
  keep_hostPath path (host.rename old)

instance keep_edfsEntry (s : EdfsSearch) (filefcb : List Byte) (st : FileStat) (pos : Word) :
    Generated KeepAction (edfsEntry host.traced s filefcb st pos) := by
  unfold edfsEntry
  infer_instance

instance keep_edfsOpened (path83 : CString) (attrib action cluster : Word) (st : FileStat) :
    Generated KeepAction (edfsOpened host.traced path83 attrib action cluster st) := by
  unfold edfsOpened
  repeat' first
    | with_reducible refine .seq _ _ ?_ fun _ => ?_
    | split
    | infer_instance

instance keep_edfsOpenFile (path83 : CString) (attrib action cluster : Word) (path : CString) :
    Generated KeepAction (edfsOpenFile host.traced path83 attrib action cluster path) := by
  unfold edfsOpenFile
  repeat' first
    | with_reducible refine .seq _ _ ?_ fun _ => ?_
    | split
    | infer_instance

/-- The search of EtherDFS touches no handle, by its recursion over the entries. -/
instance keep_edfsFindLoop (s : EdfsSearch) (entries : List CString) (pos : Word) :
    Generated KeepAction (edfsFindLoop host.traced s entries pos) := by
  induction entries generalizing pos with
  | nil =>
    unfold edfsFindLoop
    infer_instance
  | cons name rest ih =>
    unfold edfsFindLoop
    repeat' first
      | with_reducible refine .seq _ _ ?_ fun _ => ?_
      | split
      | infer_instance

instance keep_edfsFind (attrib : Byte) (pattern : CString) (cluster targetPos : Word) :
    Generated KeepAction (edfsFind host.traced attrib pattern cluster targetPos) := by
  unfold edfsFind
  repeat' first
    | with_reducible refine .seq _ _ ?_ fun _ => ?_
    | split
    | infer_instance

instance keep_edfsRemove (remove : CString → η → Bool × η) (unknown : Word) (path83 : CString) :
    Generated KeepAction (edfsRemove (fun p => unnamed (remove p)) unknown path83) := by
  unfold edfsRemove
  repeat' first
    | with_reducible refine .seq _ _ ?_ fun _ => ?_
    | split
    | infer_instance

instance keep_edfsRmdir (path83 : CString) :
    Generated KeepAction (edfsRmdir host.traced path83) := keep_edfsRemove host.rmdir _ _

instance keep_edfsDelete (path83 : CString) :
    Generated KeepAction (edfsDelete host.traced path83) := keep_edfsRemove host.unlink _ _

instance keep_edfsMkdir (path83 : CString) :
    Generated KeepAction (edfsMkdir host.traced path83) := by
  unfold edfsMkdir
  repeat' first
    | with_reducible refine .seq _ _ ?_ fun _ => ?_
    | split
    | infer_instance

instance keep_edfsChdir (path83 : CString) :
    Generated KeepAction (edfsChdir host.traced path83) := by
  unfold edfsChdir
  repeat' first
    | with_reducible refine .seq _ _ ?_ fun _ => ?_
    | split
    | infer_instance

instance keep_edfsGetattr (path83 : CString) :
    Generated KeepAction (edfsGetattr host.traced path83) := by
  unfold edfsGetattr
  repeat' first
    | with_reducible refine .seq _ _ ?_ fun _ => ?_
    | split
    | infer_instance

instance keep_edfsRename (path83Src path83Dst : CString) :
    Generated KeepAction (edfsRename host.traced path83Src path83Dst) := by
  unfold edfsRename
  repeat' first
    | with_reducible refine .seq _ _ ?_ fun _ => ?_
    | split
    | infer_instance

end KeepEdfs

/-! ### The requests of EtherDFS -/

/-- The primitive steps that keep the table in order. -/
abbrev OwnAction : ∀ α : Type, N (Traced η) α → Prop := fun _ x =>
  ∀ l, HandleSteps l.handles (outcome x l).2.handles

theorem steps_of_generated {α : Type} {x : N (Traced η) α} (hx : Generated OwnAction x)
    (l : Lan (Traced η)) : HandleSteps l.handles (outcome x l).2.handles :=
  hx.rel (R := fun l l' : Lan (Traced η) => HandleSteps l.handles l'.handles) (fun _ => .refl)
    (fun h h' => h.trans h') (fun h l => h l) l

section Own

variable {α : Type} (host : Host η)

instance (priority := low) own_of_keep {x : N (Traced η) α} [hx : Generated KeepAction x] :
    Generated OwnAction x :=
  hx.mono fun h => .action _ fun l => by rw [h l]

/-- A request that opens a file borrows it. -/
theorem own_borrow (path : CString) (mode : FileMode) (uses : ℕ)
    {f : Option ℕ → N (Traced η) α} (hnone : Generated KeepAction (f none))
    (hsome : ∀ file l, (outcome (f (some file)) l).2.handles = { l.handles with
      history := .closed (.stream file) ::
        (List.replicate uses (.used (.stream file)) ++ l.handles.history) }) :
    Generated OwnAction ((hostPath path fun p => host.traced.fopen p mode) >>= f) := by
  refine .action _ fun l => ?_
  obtain ⟨l', hl'⟩ : ∃ l', l' = (outcome (hostPath path fun p => host.traced.fopen p mode) l).2 :=
    ⟨_, rfl⟩
  have hhandles : l'.handles = { l.handles with
      history := match (host.fopen path mode l.host.1).1 with
        | none => l.host.2
        | some n => .opened (.stream n) :: l.host.2 } := by
    rw [hl']
    rfl
  change HandleSteps l.handles
    (outcome (f (host.fopen path mode l.host.1).1)
      (outcome (hostPath path fun p => host.traced.fopen p mode) l).2).2.handles
  rw [← hl']
  cases hfile : (host.fopen path mode l.host.1).1 with
  | none =>
    -- nothing has been opened
    rw [hfile] at hhandles
    rw [handles_of_generated hnone, hhandles]
    exact .refl
  | some file =>
    rw [hfile] at hhandles
    rw [hsome, hhandles]
    exact .single (.borrow _ uses)

instance own_edfsTouch (path : CString) : Generated OwnAction (edfsTouch host.traced path) :=
  own_borrow host path .create 0 (.ret false) fun _ _ => rfl

instance own_edfsOpen (path83 : CString) (attrib action : Word) :
    Generated OwnAction (edfsOpen host.traced path83 attrib action) := by
  unfold edfsOpen
  repeat' first
    | with_reducible refine .seq _ _ ?_ fun _ => ?_
    | split
    | infer_instance

instance own_edfsRead (offset : BitVec 32) (cluster len : Word) :
    Generated OwnAction (edfsRead host.traced offset cluster len) := by
  unfold edfsRead
  refine .seq _ _ inferInstance fun e => ?_
  split
  · infer_instance
  · refine .cond (fun _ => inferInstance) fun _ => .seq _ _ inferInstance fun path => ?_
    exact own_borrow host path .read 1 inferInstance fun _ _ => rfl

instance own_edfsWrite (offset : BitVec 32) (cluster : Word) (data : ℕ → Byte) (len : Word) :
    Generated OwnAction (edfsWrite host.traced offset cluster data len) := by
  unfold edfsWrite
  refine .seq _ _ inferInstance fun e => ?_
  split
  · infer_instance
  · refine .seq _ _ inferInstance fun path => .seq _ _ inferInstance fun st => ?_
    split
    · infer_instance
    · refine .cond (fun _ => inferInstance) fun _ => ?_
      exact own_borrow host path .append 1 inferInstance fun _ _ => rfl

instance own_edfsWithPath (tx : ℕ → Byte) (txLen offset : ℕ)
    (operation : CString → N (Traced η) α) [∀ path, Generated OwnAction (operation path)] :
    Generated OwnAction (edfsWithPath tx txLen offset operation) := by
  unfold edfsWithPath edfsPath
  repeat' first
    | with_reducible refine .seq _ _ ?_ fun _ => ?_
    | split
    | infer_instance

/-- Each function of EtherDFS keeps the table in order. -/
instance own_edfsDispatch (tx : ℕ → Byte) (txLen : Word) (func : Byte) :
    Generated OwnAction (edfsDispatch host.traced tx txLen func) := by
  apply edfsDispatch_cases (motive := fun x => Generated OwnAction x)
  -- two paths, the second of which may be missing
  case rename =>
    intro _
    refine .seq _ _ inferInstance fun srcLen => .seq _ _ inferInstance fun dst => ?_
    split <;> infer_instance
  case setattr =>
    intro _
    unfold edfsPath
    repeat' first
      | with_reducible refine .seq _ _ ?_ fun _ => ?_
      | split
      | infer_instance
  all_goals exact fun _ => inferInstance

/-- So does a request, with its reply. -/
instance own_edfsAnswer (tx : ℕ → Byte) (txLen : Word) (func : Byte) :
    Generated OwnAction (edfsAnswer host.traced tx txLen func) := by
  have hlen : ∀ rxLen, Generated OwnAction
      (modifyNet fun n => { n with rxLen := rxLen } : N (Traced η) Unit) :=
    fun _ => .action _ fun _ => .refl
  have hready : Generated OwnAction
      (modifyNet fun n => { n with rxReady := true } : N (Traced η) Unit) :=
    .action _ fun _ => .refl
  unfold edfsAnswer edfsReply
  repeat' first
    | with_reducible refine .seq _ _ ?_ fun _ => ?_
    | split
    | infer_instance

instance own_edfsHandlePacket (tx : ℕ → Byte) (txLen : Word) :
    Generated OwnAction (edfsHandlePacket host.traced tx txLen) := by
  rw [edfsHandlePacket_eq]
  infer_instance

end Own

/-! ### Sockets -/

section Sockets

variable (host : Host η) {t : HandleTable Handle HandleSlot} {s : HandleSlot} {x : Handle}
  {α : Type}

/-- What is said of the handles of the network. -/
def HandlesIn (P : HandleTable Handle HandleSlot → Prop) (l : Lan (Traced η)) : Prop := P l.handles

theorem triple_of_keep {P : HandleTable Handle HandleSlot → Prop} {y : N (Traced η) α}
    (hy : Generated KeepAction y) : Triple (HandlesIn P) y fun _ => HandlesIn P := by
  intro l h
  unfold HandlesIn
  rw [handles_of_generated hy]
  exact h

theorem triple_of_exists {P : Handle → HandleTable Handle HandleSlot → Prop}
    {y : N (Traced η) α} {Q : α → Lan (Traced η) → Prop}
    (h : ∀ x, Triple (HandlesIn (P x)) y Q) : Triple (HandlesIn fun u => ∃ x, P x u) y Q := by
  rintro l ⟨x, hx⟩
  exact h x l hx

/-- An assignment to a TCP socket. -/
theorem triple_modifyTcp {P Q : HandleTable Handle HandleSlot → Prop} (i : Slot)
    {f : NetTcpSocket → NetTcpSocket}
    (h : ∀ u s, P u → Q (u.put (.inl i) (handleOf (f s).fd))) :
    Triple (HandlesIn P) (modifyTcp i f : N (Traced η) Unit) fun _ => HandlesIn Q := by
  intro l hl
  unfold HandlesIn
  rw [handles_modifyTcp]
  exact h _ _ hl

/-- An assignment to a UDP socket. -/
theorem triple_modifyUdp {P Q : HandleTable Handle HandleSlot → Prop} (i : Slot)
    {f : NetUdpSocket → NetUdpSocket}
    (h : ∀ u s, P u → Q (u.put (.inr i) (handleOf (f s).fd))) :
    Triple (HandlesIn P) (modifyUdp i f : N (Traced η) Unit) fun _ => HandlesIn Q := by
  intro l hl
  unfold HandlesIn
  rw [handles_modifyUdp]
  exact h _ _ hl

/-- What is held is the descriptor of the socket. -/
theorem eq_descriptor {l : Lan (Traced η)} (h : l.handles.held s = some x) :
    l.net.fdAt s ≠ -1 ∧ x = .descriptor (l.net.fdAt s) := by
  have hslot : handleOf (l.net.fdAt s) = some x := h
  unfold handleOf at hslot
  split at hslot
  case isTrue => cases hslot
  case isFalse hfd => exact ⟨hfd, (Option.some.inj hslot).symm⟩

/-- A socket that is open holds its descriptor. -/
theorem held_of_open {l : Lan (Traced η)} (h : l.net.fdAt s ≠ -1) :
    l.handles.held s = some (.descriptor (l.net.fdAt s)) := if_neg h

/-- A socket that is not open holds nothing. -/
theorem held_of_free {l : Lan (Traced η)} (h : l.net.fdAt s = -1) : l.handles.held s = none :=
  if_pos h

/-- A call with the descriptor of a socket. -/
theorem triple_used (f : η → α × η) :
    Triple (HandlesIn (HoldsAt t s (some x))) (hostCall (named (.used x) f))
      fun _ => HandlesIn (HoldsAt t s (some x)) :=
  fun _ h => HoldsAt.used h

/-- `socket` for a free socket. -/
theorem triple_socket (type : SocketType) :
    Triple (HandlesIn (HoldsAt t s none)) (hostCall (host.traced.socket type)) fun r =>
      match r with
      | none => HandlesIn (HoldsAt t s none)
      | some fd => HandlesIn (CalledAt t s none (.opened (.descriptor fd))) := by
  intro l h
  obtain ⟨l', hl'⟩ : ∃ l', l' = (outcome (hostCall (host.traced.socket type)) l).2 := ⟨_, rfl⟩
  have hhandles : l'.handles = { l.handles with
      history := match (host.socket type l.host.1).1 with
        | none => l.host.2
        | some fd => .opened (.descriptor fd) :: l.host.2 } := by
    rw [hl']
    rfl
  have hvalue : (outcome (hostCall (host.traced.socket type)) l).1 =
      (host.socket type l.host.1).1 := rfl
  rw [hvalue, ← hl']
  -- a descriptor is opened exactly when the call gives one
  cases hfd : (host.socket type l.host.1).1 with
  | none =>
    rw [hfd] at hhandles
    change HoldsAt t s none l'.handles
    rw [hhandles]
    exact h
  | some fd =>
    rw [hfd] at hhandles
    exact ⟨l.handles, h, hhandles⟩

theorem owns_netUdpClose (i : Slot) :
    Triple (HandlesIn (HoldsAt t (.inr i) (some x))) (netUdpClose host.traced i)
      fun _ => HandlesIn (HandleSteps t) := by
  intro l h
  obtain ⟨-, rfl⟩ := eq_descriptor h.held
  unfold netUdpClose
  simp only [outcome_bind, outcome_getNet, outcome_hostCall]
  unfold HandlesIn
  rw [handles_modifyUdp]
  exact CalledAt.released ⟨l.handles, h, rfl⟩

theorem owns_netTcpClose (i : Slot) (flags : Byte) :
    Triple (HandlesIn (HoldsAt t (.inl i) (some x))) (netTcpClose host.traced i flags)
      fun _ => HandlesIn (HandleSteps t) := by
  unfold netTcpClose
  refine .bind (triple_of_keep (by infer_instance)) fun _ l h => ?_
  obtain ⟨-, rfl⟩ := eq_descriptor h.held
  simp only [outcome_bind, outcome_getNet, outcome_hostCall]
  unfold HandlesIn
  rw [handles_of_generated (keep_note _), handles_modifyTcp]
  exact CalledAt.released ⟨l.handles, h, rfl⟩

/-- What a socket holds is in order. -/
theorem holds_steps {content : Option Handle} {l : Lan (Traced η)}
    (h : HandlesIn (HoldsAt t s content) l) : HandlesIn (HandleSteps t) l := h.steps

/-- A SYN fills a free slot, and empties it again if the connection fails. -/
theorem owns_netTcpSyn (tuple : Tuple) (recvSeq : BitVec 32) :
    Triple (HandlesIn (HandleSteps t)) (netTcpSyn host.traced tuple recvSeq)
      fun _ => HandlesIn (HandleSteps t) := by
  intro l h
  unfold netTcpSyn
  rw [outcome_bind, outcome_getNet]
  dsimp only
  cases hfree : l.net.freeTcp with
  | none => exact triple_of_keep (keep_netPanic _) l h
  | some i =>
    have hslot : l.handles.held (.inl i) = none := held_of_free (freeTcp_eq_some hfree)
    refine Triple.bind (R := fun _ => HandlesIn (HandleSteps t)) (triple_socket host .stream)
      (fun r => ?_) l ⟨h, hslot⟩
    cases r with
    | none =>
      -- -1 is assigned to the slot, which has held it before
      exact .bind (triple_modifyTcp i fun _ _ => HoldsAt.cleared) fun _ =>
        triple_of_keep (keep_netPanic _)
    | some fd =>
      -- the descriptor is in the slot before it is used
      refine .bind (triple_modifyTcp i fun _ _ => CalledAt.acquired) fun _ => ?_
      refine .bind (triple_used _) fun connected => ?_
      refine .ite (fun _ => ?_) fun _ => owns_netTcpClose host i 0
      refine .bind (triple_used _) fun _ => .bind (triple_used _) fun result => ?_
      refine .ite (fun _ => ?_) fun _ => ?_
      · exact .bind (triple_of_keep (keep_netPanic _)) fun _ => owns_netTcpClose host i 0
      · exact .bind (triple_of_keep (keep_modifyTcp i fun _ => rfl)) fun _ =>
          .pre (fun _ => holds_steps) (triple_of_keep (by infer_instance))

/-- Data goes to the descriptor of the connection. -/
theorem owns_netTcpData (tx : ℕ → Byte) (i : Slot) (ipLen : Word) (dataOffset : Byte)
    (recvSeq dstIp : BitVec 32) :
    Triple (HandlesIn (HoldsAt t (.inl i) (some x)))
      (netTcpData host.traced tx i ipLen dataOffset recvSeq dstIp)
      fun _ => HandlesIn (HandleSteps t) := by
  unfold netTcpData
  refine .bind (triple_of_keep (keep_modifyTcp i fun _ => rfl)) fun _ l h => ?_
  -- the handle that the slot holds is the descriptor of the socket
  obtain ⟨-, rfl⟩ := eq_descriptor h.held
  rw [outcome_bind, outcome_getNet]
  dsimp only [tcpData]
  refine Triple.bind (R := fun _ => HandlesIn (HandleSteps t)) (triple_used _)
    (fun sent => .bind (triple_of_keep (keep_note _)) fun _ => ?_) l h
  cases sent with
  | none => exact .bind (triple_of_keep (keep_netPanic _)) fun _ => owns_netTcpClose host i _
  | some taken =>
    exact .bind (triple_of_keep (keep_modifyTcp i fun _ => rfl)) fun _ =>
      .pre (fun _ => holds_steps) (triple_of_keep (by infer_instance))

/-- A segment of an open connection. -/
theorem owns_netTcpApply (tx : ℕ → Byte) (i : Slot) (ipLen : Word) (dataOffset flags : Byte)
    (recvSeq dstIp : BitVec 32) :
    Triple (HandlesIn (HoldsAt t (.inl i) (some x)))
      (netTcpApply host.traced tx i ipLen dataOffset flags recvSeq dstIp)
      fun _ => HandlesIn (HandleSteps t) := by
  unfold netTcpApply
  refine .bind (triple_of_keep keep_getNet) fun n => ?_
  refine .bind (triple_of_keep (keep_note _)) fun _ => ?_
  refine .bind (triple_of_keep (keep_modifyUdp i fun _ => rfl)) fun _ => ?_
  -- the flags in the order of the source
  refine .ite (fun _ => ?_) fun _ => .ite (fun _ => ?_) fun _ => .ite (fun _ => ?_) fun _ =>
    .ite (fun _ => ?_) fun _ => .ite (fun _ => ?_) fun _ => ?_
  · exact .pre (fun _ => holds_steps) (triple_of_keep (keep_modifyTcp i fun _ => rfl))
  · exact .ret fun _ => holds_steps
  · exact owns_netTcpData host tx i ipLen dataOffset recvSeq dstIp
  · refine .bind (triple_of_keep keep_getNet) fun n => ?_
    exact .ite (fun _ => owns_netTcpClose host i _) fun _ => owns_netTcpClose host i _
  · exact owns_netTcpClose host i _
  · exact .bind (triple_of_keep (keep_netPanic _)) fun _ => owns_netTcpClose host i _

/-- A SYN, or a segment of a connection. -/
theorem owns_netHandleTcp (tx : ℕ → Byte) :
    Triple (HandlesIn (HandleSteps t)) (netHandleTcp host.traced tx)
      fun _ => HandlesIn (HandleSteps t) := by
  unfold netHandleTcp
  refine .bind (triple_of_keep (keep_readTxWord _ _)) fun ipLen => ?_
  refine .bind (triple_of_keep (keep_readTxLong _ _)) fun dstIp => ?_
  refine .bind (triple_of_keep (keep_readTxWord _ _)) fun srcPort => ?_
  refine .bind (triple_of_keep (keep_readTxWord _ _)) fun dstPort => ?_
  refine .bind (triple_of_keep (keep_readTxLong _ _)) fun recvSeq => ?_
  refine .bind (triple_of_keep (keep_readTx _ _)) fun dataOffset => ?_
  refine .bind (triple_of_keep (keep_readTx _ _)) fun flags => ?_
  refine .bind (triple_of_keep (keep_readTxWord _ _)) fun _ => ?_
  refine .ite (fun _ => owns_netTcpSyn host _ _) fun _ l h => ?_
  rw [outcome_bind, outcome_getNet]
  dsimp only
  cases hfound : l.net.findTcp (srcPort, dstPort, dstIp) with
  | none => exact h
  | some i =>
    -- only a socket that is open is found, and a segment for another one is ignored
    have hopen : l.net.fdAt (.inl i) ≠ -1 := (findTcp_eq_some hfound).1
    exact owns_netTcpApply host tx i _ _ _ _ _ l ⟨h, held_of_open hopen⟩

theorem findUdp_open {n : Net} {srcPort : Word} {dstIp : BitVec 32} {i : Slot}
    (h : n.findUdp srcPort dstIp = some i) : n.fdAt (.inr i) ≠ -1 := by
  have hfound : (n.udpSockets i).fd ≠ -1 ∧ (n.udpSockets i).srcPort = srcPort ∧
      (n.udpSockets i).dstIp = dstIp := by
    simpa using List.find?_some h
  exact hfound.1

theorem freeUdp_closed {n : Net} {i : Slot} (h : n.freeUdp = some i) : n.fdAt (.inr i) = -1 := by
  have hfree : (n.udpSockets i).fd = -1 := by simpa using List.find?_some h
  exact hfree

/-- The socket of a datagram, if there is one, is open. -/
def UdpReady (t : HandleTable Handle HandleSlot) :
    Option Slot → HandleTable Handle HandleSlot → Prop
  | none, u => HandleSteps t u
  | some i, u => ∃ x, HoldsAt t (.inr i) (some x) u

/-- `net_udp_socket` finds an open socket, or opens a free one. -/
theorem owns_netUdpSocket (tuple : Tuple) :
    Triple (HandlesIn (HandleSteps t)) (netUdpSocket host.traced tuple)
      fun r => HandlesIn (UdpReady t r) := by
  intro l h
  unfold netUdpSocket
  rw [outcome_bind, outcome_getNet]
  dsimp only
  cases hfound : l.net.findUdp tuple.1 tuple.2.2 with
  | some i =>
    exact ⟨_, h, held_of_open (findUdp_open hfound)⟩
  | none =>
    dsimp only
    cases hfree : l.net.freeUdp with
    | none => exact triple_of_keep (keep_netPanic _) l h
    | some i =>
      refine Triple.bind (R := fun r => HandlesIn (UdpReady t r)) (triple_socket host .datagram)
        (fun r => ?_) l ⟨h, held_of_free (freeUdp_closed hfree)⟩
      -- the descriptor is assigned only when there is one
      cases r with
      | none =>
        exact .bind (triple_modifyUdp i fun _ _ => HoldsAt.cleared) fun _ =>
          .bind (triple_of_keep (keep_netPanic _)) fun _ => .ret fun _ h => h
      | some fd =>
        exact .bind (triple_modifyUdp i fun _ _ => CalledAt.acquired) fun _ =>
          .ret fun _ h => ⟨_, h⟩

/-- A datagram goes to the descriptor of its socket. -/
theorem owns_netHandleUdp (tx : ℕ → Byte) :
    Triple (HandlesIn (HandleSteps t)) (netHandleUdp host.traced tx)
      fun _ => HandlesIn (HandleSteps t) := by
  unfold netHandleUdp
  refine .bind (triple_of_keep (keep_readTxLong _ _)) fun dstIp => ?_
  refine .bind (triple_of_keep (keep_readTxWord _ _)) fun srcPort => ?_
  refine .bind (triple_of_keep (keep_readTxWord _ _)) fun dstPort => ?_
  refine .bind (triple_of_keep (keep_readTxWord _ _)) fun sendLen => ?_
  refine .ite (fun _ => triple_of_keep (by infer_instance)) fun _ => ?_
  refine .bind (owns_netUdpSocket host _) fun found => ?_
  cases found with
  | none => exact .ret fun _ h => h
  | some i =>
    refine triple_of_exists fun x => ?_
    dsimp only
    refine .bind (triple_of_keep (keep_modifyUdp i fun _ => rfl)) fun _ l h => ?_
    -- what the socket holds is a descriptor, which is the one that `sendto` names
    obtain ⟨-, rfl⟩ := eq_descriptor h.held
    rw [outcome_bind, outcome_getNet]
    dsimp only [udpData]
    refine Triple.bind (R := fun _ => HandlesIn (HandleSteps t)) (triple_used _)
      (fun sent => .bind (triple_of_keep (keep_note _)) fun _ => ?_) l h
    refine .ite (fun _ => ?_) fun _ => .ret fun _ => holds_steps
    exact .bind (triple_of_keep (keep_netPanic _)) fun _ => owns_netUdpClose host i

/-! Polls of a socket that is open. -/

/-- A poll of an open TCP socket uses its descriptor, and may close it. -/
theorem owns_netCheckTcpSocket (i : Slot) :
    Triple (HandlesIn (HoldsAt t (.inl i) (some x))) (netCheckTcpSocket host.traced i)
      fun _ => HandlesIn (HandleSteps t) := by
  intro l h
  obtain ⟨-, rfl⟩ := eq_descriptor h.held
  unfold netCheckTcpSocket
  rw [outcome_bind, outcome_getNet]
  dsimp only
  refine Triple.ite (Q := fun _ => HandlesIn (HandleSteps t)) (fun _ => ?_)
    (fun _ => .bind (triple_used _) fun received => ?_) l h
  · exact .pre (fun _ => holds_steps) (triple_of_keep (keep_modifyTcp i fun _ => rfl))
  -- only a failure closes it
  · cases received with
    | none =>
      refine .bind (triple_of_keep (keep_getErrno _)) fun errno => .ite (fun _ => ?_) fun _ => ?_
      · refine .bind (triple_of_keep (keep_modifyTcp i fun _ => rfl)) fun _ => ?_
        refine .bind (triple_of_keep keep_getNet) fun n => ?_
        exact .ite (fun _ => owns_netTcpClose host i _) fun _ => .ret fun _ => holds_steps
      · exact .bind (triple_of_keep (keep_netPanic _)) fun _ => owns_netTcpClose host i _
    | some bytes =>
      have hfin : Generated KeepAction (modifyTcp i fun s => { s with finAckSent := true } :
          N (Traced η) Unit) := keep_modifyTcp i fun _ => rfl
      have hreset : Generated KeepAction (modifyTcp i fun s => { s with
          inactivityTimeout := 0
          ackWait := netSocketAckWait } : N (Traced η) Unit) := keep_modifyTcp i fun _ => rfl
      exact .pre (fun _ => holds_steps) (triple_of_keep (by infer_instance))

/-- So does a poll of an open UDP socket. -/
theorem owns_netCheckUdpSocket (i : Slot) :
    Triple (HandlesIn (HoldsAt t (.inr i) (some x))) (netCheckUdpSocket host.traced i)
      fun _ => HandlesIn (HandleSteps t) := by
  intro l h
  obtain ⟨-, rfl⟩ := eq_descriptor h.held
  unfold netCheckUdpSocket
  rw [outcome_bind, outcome_getNet]
  dsimp only
  refine Triple.bind (R := fun _ => HandlesIn (HandleSteps t)) (triple_used _)
    (fun received => ?_) l h
  -- only a failure closes it
  cases received with
  | none =>
    refine .bind (triple_of_keep (keep_getErrno _)) fun errno => .ite (fun _ => ?_) fun _ => ?_
    · refine .bind (triple_of_keep (keep_modifyUdp i fun _ => rfl)) fun _ => ?_
      refine .bind (triple_of_keep keep_getNet) fun n => ?_
      exact .ite (fun _ => owns_netUdpClose host i) fun _ => .ret fun _ => holds_steps
    · exact .bind (triple_of_keep (keep_netPanic _)) fun _ => owns_netUdpClose host i
  | some packet =>
    obtain ⟨bytes, srcIp, srcPort⟩ := packet
    have hreset : Generated KeepAction (modifyUdp i fun s => { s with inactivityTimeout := 0 } :
        N (Traced η) Unit) := keep_modifyUdp i fun _ => rfl
    exact .pre (fun _ => holds_steps) (triple_of_keep (by infer_instance))

/-- A loop over sockets polls only those that are open. -/
theorem owns_netPoll (isOpen : Net → Slot → Bool) {check : Slot → N (Traced η) Unit}
    (hcheck : ∀ i l, HandlesIn (HandleSteps t) l → isOpen l.net i = true →
      HandlesIn (HandleSteps t) (outcome (check i) l).2) (slots : List Slot) :
    Triple (HandlesIn (HandleSteps t)) (netPoll isOpen check slots)
      fun _ => HandlesIn (HandleSteps t) := by
  induction slots with
  | nil => exact .ret fun _ h => h
  | cons i rest ih =>
    intro l h
    unfold netPoll
    rw [outcome_bind, outcome_getNet]
    dsimp only
    -- the loop stops at a pending frame
    rw [outcome_ite]
    split
    · exact h
    · rw [outcome_bind]
      refine ih _ ?_
      rw [outcome_ite]
      split
      case isTrue hopen => exact hcheck i l h hopen
      case isFalse => exact h

theorem owns_netExecute :
    Triple (HandlesIn (HandleSteps t)) (netExecute host.traced)
      fun _ => HandlesIn (HandleSteps t) := by
  unfold netExecute
  refine .bind (owns_netPoll _ (fun i l h hopen => ?_) _) fun ended => .ite (fun _ => ?_) fun _ =>
    .ret fun _ h => h
  · have hfd : l.net.fdAt (.inr i) ≠ -1 := bne_iff_ne.mp hopen
    exact owns_netCheckUdpSocket host i l ⟨h, held_of_open hfd⟩
  · refine .bind (owns_netPoll _ (fun i l h hopen => ?_) _) fun _ => .ret fun _ h => h
    have hfd : l.net.fdAt (.inl i) ≠ -1 := bne_iff_ne.mp hopen
    exact owns_netCheckTcpSocket host i l ⟨h, held_of_open hfd⟩

/-- Any frame of the guest keeps the table in order. -/
theorem owns_netTxFrame (tx : ℕ → Byte) (txLen : Word) :
    Triple (HandlesIn (HandleSteps t)) (netTxFrame host.traced tx txLen)
      fun _ => HandlesIn (HandleSteps t) := by
  unfold netTxFrame netHandleIpv4
  refine .bind (triple_of_keep (keep_readTxWord _ _)) fun ethertype => ?_
  refine .ite (fun _ => triple_of_keep (by infer_instance)) fun _ =>
    .ite (fun _ => .bind (triple_of_keep (keep_readTx _ _)) fun proto => ?_) fun _ =>
    .ite (fun _ l h => ?_) fun _ => .ret fun _ h => h
  · exact .ite (fun _ => triple_of_keep (by infer_instance)) fun _ =>
      .ite (fun _ => owns_netHandleTcp host tx) fun _ =>
      .ite (fun _ => owns_netHandleUdp host tx) fun _ => .ret fun _ h => h
  · exact h.trans (steps_of_generated (own_edfsHandlePacket host tx txLen) l)

/-- **A step of the network** keeps the table in order. -/
theorem lanAfter_handles (l : Lan (Traced η)) (s : LanStep) :
    HandleSteps l.handles (lanAfter host.traced l s).handles := by
  cases s with
  | transmit tx txLen => exact owns_netTxFrame host tx txLen l .refl
  | poll => exact owns_netExecute host l .refl
  | taken => exact .refl

end Sockets

end Pc20iii
