import Pc20iii.Net.Effects

/-!
# The connections

An abstract view of the network for what concerns TCP: the TCP sockets, and of the history
the events about them (`Lan.tcp`). On it every function of `net.c` is a sequence of a few
operations: a connection is opened or closed, a segment is emitted or applied, data is
passed to the host, a timer is set. `Tcp.Plain` has those that neither open a connection nor
pass data.

* `transmit_tcp`, `poll_tcp`: what a transmitted frame and a poll do to the view. A frame is
  accepted as a SYN (`SynAccepted`), or it is data for a socket (`DataFor`), or the view
  goes through plain operations.
-/

namespace Pc20iii

open StateProgram

variable {η : Type}

/-- The events about connections. -/
def NetEvent.isTcp : NetEvent → Bool
  | .send .. | .opened .. | .applied .. | .closed .. | .segment .. => true
  | _ => false

/-- The TCP sockets, and the events about connections, newest first. -/
structure Tcp where
  sockets : Slot → NetTcpSocket
  events : List NetEvent

/-- The view of the connections. -/
def Lan.tcp (l : Lan η) : Tcp where
  sockets := l.net.tcpSockets
  events := l.log.filter NetEvent.isTcp

/-- The number that the connections of a socket start from. -/
def initialSeq (i : Slot) : BitVec 32 := BitVec.ofNat 32 i.val * 0x1000000

namespace Tcp

/-! ### Operations -/

/-- An assignment to a socket. -/
def modify (i : Slot) (f : NetTcpSocket → NetTcpSocket) (t : Tcp) : Tcp :=
  { t with sockets := Function.update t.sockets i (f (t.sockets i)) }

/-- An event. -/
def record (e : NetEvent) (t : Tcp) : Tcp := { t with events := e :: t.events }

/-- A segment for the guest; the number of the socket is advanced after it. -/
def emit (len : ℕ) (i : Slot) (flags : Byte) (advance : BitVec 32) (t : Tcp) : Tcp :=
  (t.record (.segment i (t.sockets i).sendSeq (t.sockets i).recvSeq flags len)).modify i
    fun s => { s with sendSeq := s.sendSeq + advance }

/-- A socket is closed. -/
def close (i : Slot) (t : Tcp) : Tcp :=
  (t.modify i fun s => { s with fd := -1, sendSeq := initialSeq i }).record (.closed i)

/-- A segment is emitted while a socket is closed. -/
def shut (i : Slot) (flags : Byte) (t : Tcp) : Tcp := (t.emit 0 i flags 0).close i

/-- A connection is opened, and its SYN+ACK emitted. -/
def accept (i : Slot) (fd : ℤ) (tuple : Tuple) (recvSeq : BitVec 32) (t : Tcp) : Tcp :=
  ((t.modify i fun s =>
    { fd := fd, inactivityTimeout := 0, srcPort := tuple.1, dstPort := tuple.2.1
      dstIp := tuple.2.2, sendSeq := s.sendSeq, recvSeq := recvSeq, finAckSent := false
      ackWait := 0 }).record (.opened i tuple recvSeq)).emit 0 i flagsSynAck 1

/-- The data of a segment has been taken by the host, and is acknowledged. -/
def deliver (i : Slot) (seq : BitVec 32) (start len taken : ℕ) (t : Tcp) : Tcp :=
  ((t.record (.send i seq start len (some taken))).modify i fun s =>
    { s with ackWait := 0, recvSeq := seq + BitVec.ofNat 32 len }).emit 0 i flagsAck 0

/-- What `net_check_tcp_socket` does, by what `recv` returns and whether it leaves `EAGAIN` in
`errno`. -/
def check (i : Slot) (received : Option (List Byte)) (again : Bool) (t : Tcp) : Tcp :=
  if (t.sockets i).ackWait > 0 then t.modify i fun s => { s with ackWait := s.ackWait - 1 }
  else match received with
    | none =>
      if again then
        let t := t.modify i fun s => { s with inactivityTimeout := s.inactivityTimeout + 1 }
        if (t.sockets i).inactivityTimeout > netSocketInactivityTimeout then
          t.shut i flagsRstAck
        else t
      else t.shut i flagsRstAck
    | some bytes =>
      if bytes.length = 0 ∧ again then
        if (t.sockets i).finAckSent = false then
          (t.emit 0 i flagsFinAck 1).modify i fun s => { s with finAckSent := true }
        else t
      else
        (t.modify i fun s => { s with
          inactivityTimeout := 0
          ackWait := netSocketAckWait }).emit bytes.length i flagsPshAck
            (BitVec.ofNat 32 bytes.length)

theorem check_of_waiting {i : Slot} {t : Tcp} (h : (t.sockets i).ackWait > 0)
    (received : Option (List Byte)) (again : Bool) :
    t.check i received again = t.modify i fun s => { s with ackWait := s.ackWait - 1 } :=
  if_pos h

/-- What a segment of an open socket does, by what `send` takes of its data. -/
def apply (i : Slot) (flags : Byte) (seq : BitVec 32) (data : ℕ × ℕ) (taken : Option ℕ)
    (t : Tcp) : Tcp :=
  let t := t.record (.applied i (t.sockets i).tuple)
  if flags = flagsAck then t.modify i fun s => { s with ackWait := 0 }
  else if flags = flagsRst then t
  else if flags = flagsPshAck then
    match taken with
    | some taken => t.deliver i seq data.1 data.2 taken
    | none => ((t.modify i fun s => { s with ackWait := 0 }).record
        (.send i seq data.1 data.2 none)).shut i flagsRstAck
  else if flags = flagsFinAck then
    t.shut i (if (t.sockets i).finAckSent then flagsAck else flagsRstAck)
  else if flags = flagsRstAck then t.shut i flagsAck
  else t.shut i flagsRstAck

@[simp] theorem sockets_modify_self (i : Slot) (f : NetTcpSocket → NetTcpSocket) (t : Tcp) :
    (t.modify i f).sockets i = f (t.sockets i) :=
  Function.update_self ..

theorem sockets_modify_of_ne {i j : Slot} (h : j ≠ i) (f : NetTcpSocket → NetTcpSocket) (t : Tcp) :
    (t.modify i f).sockets j = t.sockets j :=
  Function.update_of_ne h ..

@[simp] theorem sockets_record (e : NetEvent) (t : Tcp) : (t.record e).sockets = t.sockets := rfl

/-- What the assignment leaves alone, it leaves alone in every socket. -/
theorem sockets_modify_congr {γ : Type} {p : NetTcpSocket → γ} {f : NetTcpSocket → NetTcpSocket}
    (h : ∀ s, p (f s) = p s) (i j : Slot) (t : Tcp) :
    p ((t.modify i f).sockets j) = p (t.sockets j) := by
  rcases eq_or_ne j i with rfl | hji
  · rw [sockets_modify_self, h]
  · rw [sockets_modify_of_ne hji]

theorem modify_modify (i : Slot) (f g : NetTcpSocket → NetTcpSocket) (t : Tcp) :
    (t.modify i f).modify i g = t.modify i fun s => g (f s) := by
  simp only [modify, Function.update_self, Function.update_idem]

@[simp] theorem sockets_close_self (i : Slot) (t : Tcp) :
    (t.close i).sockets i = { t.sockets i with fd := -1, sendSeq := initialSeq i } := by
  rw [close, sockets_record, sockets_modify_self]

theorem sockets_close_of_ne {i j : Slot} (h : j ≠ i) (t : Tcp) :
    (t.close i).sockets j = t.sockets j := by
  rw [close, sockets_record, sockets_modify_of_ne h]

@[simp] theorem sockets_emit_self (len : ℕ) (i : Slot) (flags : Byte) (advance : BitVec 32)
    (t : Tcp) : (t.emit len i flags advance).sockets i =
      { t.sockets i with sendSeq := (t.sockets i).sendSeq + advance } := by
  rw [emit, sockets_modify_self, sockets_record]

theorem sockets_emit_of_ne {i j : Slot} (h : j ≠ i) (len : ℕ) (flags : Byte) (advance : BitVec 32)
    (t : Tcp) : (t.emit len i flags advance).sockets j = t.sockets j := by
  rw [emit, sockets_modify_of_ne h, sockets_record]

@[simp] theorem sockets_accept_self (i : Slot) (fd : ℤ) (tuple : Tuple) (recvSeq : BitVec 32)
    (t : Tcp) : (t.accept i fd tuple recvSeq).sockets i =
      { fd := fd, inactivityTimeout := 0, srcPort := tuple.1, dstPort := tuple.2.1
        dstIp := tuple.2.2, sendSeq := (t.sockets i).sendSeq + 1, recvSeq := recvSeq
        finAckSent := false, ackWait := 0 } := by
  rw [accept, sockets_emit_self, sockets_record, sockets_modify_self]

theorem sockets_accept_of_ne {i j : Slot} (h : j ≠ i) (fd : ℤ) (tuple : Tuple)
    (recvSeq : BitVec 32) (t : Tcp) : (t.accept i fd tuple recvSeq).sockets j = t.sockets j := by
  rw [accept, sockets_emit_of_ne h, sockets_record, sockets_modify_of_ne h]

@[simp] theorem sockets_shut_self (i : Slot) (flags : Byte) (t : Tcp) :
    (t.shut i flags).sockets i = { t.sockets i with fd := -1, sendSeq := initialSeq i } := by
  rw [shut, sockets_close_self, sockets_emit_self]

theorem sockets_shut_of_ne {i j : Slot} (h : j ≠ i) (flags : Byte) (t : Tcp) :
    (t.shut i flags).sockets j = t.sockets j := by
  rw [shut, sockets_close_of_ne h, sockets_emit_of_ne h]

@[simp] theorem sockets_deliver_self (i : Slot) (seq : BitVec 32) (start len taken : ℕ) (t : Tcp) :
    (t.deliver i seq start len taken).sockets i =
      { t.sockets i with ackWait := 0, recvSeq := seq + BitVec.ofNat 32 len } := by
  have hsame : (t.sockets i).sendSeq + 0 = (t.sockets i).sendSeq := BitVec.add_zero _
  rw [deliver, sockets_emit_self, sockets_modify_self, sockets_record]
  dsimp only
  rw [hsame]

theorem sockets_deliver_of_ne {i j : Slot} (h : j ≠ i) (seq : BitVec 32) (start len taken : ℕ)
    (t : Tcp) : (t.deliver i seq start len taken).sockets j = t.sockets j := by
  rw [deliver, sockets_emit_of_ne h, sockets_modify_of_ne h, sockets_record]

/-- A segment is about one socket. -/
theorem sockets_apply_of_ne {i j : Slot} (h : j ≠ i) (flags : Byte) (seq : BitVec 32)
    (data : ℕ × ℕ) (taken : Option ℕ) (t : Tcp) :
    (t.apply i flags seq data taken).sockets j = t.sockets j := by
  unfold apply
  dsimp only
  split
  -- an ACK only stops the wait
  · rw [sockets_modify_of_ne h, sockets_record]
  split
  · rfl
  split
  · cases taken with
    -- the host did not take the data
    | none =>
      dsimp only
      rw [sockets_shut_of_ne h, sockets_record, sockets_modify_of_ne h, sockets_record]
    | some taken =>
      dsimp only
      rw [sockets_deliver_of_ne h, sockets_record]
  split
  · rw [sockets_shut_of_ne h, sockets_record]
  split <;> rw [sockets_shut_of_ne h, sockets_record]

/-- A poll is about one socket. -/
theorem sockets_check_of_ne {i j : Slot} (h : j ≠ i) (received : Option (List Byte))
    (again : Bool) (t : Tcp) : (t.check i received again).sockets j = t.sockets j := by
  unfold check
  split
  -- a socket that waits for an ACK is not read
  · exact sockets_modify_of_ne h _ t
  cases received with
  | none =>
    dsimp only
    split
    · split
      · rw [sockets_shut_of_ne h, sockets_modify_of_ne h]
      · exact sockets_modify_of_ne h _ t
    · exact sockets_shut_of_ne h _ t
  | some bytes =>
    dsimp only
    split
    · split
      · rw [sockets_modify_of_ne h, sockets_emit_of_ne h]
      · rfl
    · rw [sockets_emit_of_ne h, sockets_modify_of_ne h]

theorem events_accept (i : Slot) (fd : ℤ) (tuple : Tuple) (recvSeq : BitVec 32) (t : Tcp) :
    (t.accept i fd tuple recvSeq).events =
      .segment i (t.sockets i).sendSeq recvSeq flagsSynAck 0 :: .opened i tuple recvSeq ::
        t.events := by
  have hemit : ∀ t' : Tcp, (t'.emit 0 i flagsSynAck 1).events =
      .segment i (t'.sockets i).sendSeq (t'.sockets i).recvSeq flagsSynAck 0 :: t'.events :=
    fun _ => rfl
  rw [accept, hemit, sockets_record, sockets_modify_self]
  rfl

theorem record_modify (e : NetEvent) (i : Slot) (f : NetTcpSocket → NetTcpSocket) (t : Tcp) :
    (t.modify i f).record e = (t.record e).modify i f := rfl

/-- An assignment that changes nothing. -/
theorem modify_eq_self {i : Slot} {f : NetTcpSocket → NetTcpSocket} {t : Tcp}
    (h : f (t.sockets i) = t.sockets i) : t.modify i f = t := by
  rw [modify, h, Function.update_eq_self]

/-- The fields that are not timers are the same. -/
structure KeepsConnection (f : NetTcpSocket → NetTcpSocket) : Prop where
  fd : ∀ s, (f s).fd = s.fd
  tuple : ∀ s, (f s).tuple = s.tuple
  sendSeq : ∀ s, (f s).sendSeq = s.sendSeq
  recvSeq : ∀ s, (f s).recvSeq = s.recvSeq
  finAckSent : ∀ s, (f s).finAckSent = s.finAckSent

/-- The socket is open. -/
def IsOpen (t : Tcp) (i : Slot) : Prop := (t.sockets i).fd ≠ -1

instance (t : Tcp) (i : Slot) : Decidable (t.IsOpen i) := inferInstanceAs (Decidable (_ ≠ _))

theorem IsOpen.modify {i j : Slot} {f : NetTcpSocket → NetTcpSocket} {t : Tcp} (h : t.IsOpen i)
    (hf : KeepsConnection f) : (t.modify j f).IsOpen i := by
  rw [IsOpen, sockets_modify_congr hf.fd]
  exact h

/-- An assignment that keeps or closes the socket opens none. -/
theorem isOpen_of_modify {i j : Slot} {f : NetTcpSocket → NetTcpSocket} {t : Tcp}
    (hf : ∀ s, (f s).fd = s.fd ∨ (f s).fd = -1) (h : (t.modify i f).IsOpen j) : t.IsOpen j := by
  rcases eq_or_ne j i with rfl | hji
  · rw [IsOpen, sockets_modify_self] at h
    rwa [(hf _).resolve_right h] at h
  · rwa [IsOpen, sockets_modify_of_ne hji] at h

/-- The operations that neither open a connection nor pass data to the host. -/
inductive Plain : Tcp → Tcp → Prop
  /-- A timer is set. -/
  | timer (t : Tcp) (i : Slot) (f : NetTcpSocket → NetTcpSocket) (hf : KeepsConnection f) :
      Plain t (t.modify i f)
  /-- A segment is applied to an open socket. -/
  | applied (t : Tcp) (i : Slot) (hopen : t.IsOpen i) :
      Plain t (t.record (.applied i (t.sockets i).tuple))
  /-- The host does not take the data of a segment. -/
  | refused (t : Tcp) (i : Slot) (seq : BitVec 32) (start len : ℕ) :
      Plain t (t.record (.send i seq start len none))
  /-- The host has closed the connection. -/
  | finished (t : Tcp) (i : Slot) (hopen : t.IsOpen i) (hfin : (t.sockets i).finAckSent = false) :
      Plain t ((t.emit 0 i flagsFinAck 1).modify i fun s => { s with finAckSent := true })
  /-- Data of the host. -/
  | data (t : Tcp) (i : Slot) (hopen : t.IsOpen i) (len : ℕ) :
      Plain t (t.emit len i flagsPshAck (BitVec.ofNat 32 len))
  /-- A connection that the host has not accepted, or one that is taken down without a
  segment. -/
  | closed (t : Tcp) (i : Slot) : Plain t (t.close i)
  /-- A connection is taken down. -/
  | shut (t : Tcp) (i : Slot) (hopen : t.IsOpen i) (flags : Byte)
      (hflags : flags = flagsAck ∨ flags = flagsRstAck) : Plain t (t.shut i flags)

theorem keepsConnection_ackWait (f : NetTcpSocket → ℤ) :
    KeepsConnection fun s => { s with ackWait := f s } :=
  ⟨fun _ => rfl, fun _ => rfl, fun _ => rfl, fun _ => rfl, fun _ => rfl⟩

theorem keepsConnection_inactivity (f : NetTcpSocket → ℤ) :
    KeepsConnection fun s => { s with inactivityTimeout := f s } :=
  ⟨fun _ => rfl, fun _ => rfl, fun _ => rfl, fun _ => rfl, fun _ => rfl⟩

theorem keepsConnection_timers (inactivityTimeout ackWait : ℤ) :
    KeepsConnection fun s =>
      { s with inactivityTimeout := inactivityTimeout, ackWait := ackWait } :=
  ⟨fun _ => rfl, fun _ => rfl, fun _ => rfl, fun _ => rfl, fun _ => rfl⟩

/-- A segment with data that the host takes. -/
theorem apply_of_taken (i : Slot) (seq : BitVec 32) (data : ℕ × ℕ) (taken : ℕ) (t : Tcp) :
    t.apply i flagsPshAck seq data (some taken) =
      (t.record (.applied i (t.sockets i).tuple)).deliver i seq data.1 data.2 taken := by
  rfl

/-- Any other segment of an open socket. -/
theorem plain_apply {t : Tcp} {i : Slot} (hopen : t.IsOpen i) {flags : Byte} {taken : Option ℕ}
    (h : flags = flagsPshAck → taken = none) (seq : BitVec 32) (data : ℕ × ℕ) :
    Relation.ReflTransGen Plain t (t.apply i flags seq data taken) := by
  -- the segment counts as applied before its flags are looked at
  have happlied : Relation.ReflTransGen Plain t (t.record (.applied i (t.sockets i).tuple)) :=
    .single (.applied t i hopen)
  have hopen' : (t.record (.applied i (t.sockets i).tuple)).IsOpen i := hopen
  have hshut : ∀ {flags}, flags = flagsAck ∨ flags = flagsRstAck →
      Relation.ReflTransGen Plain t
        ((t.record (.applied i (t.sockets i).tuple)).shut i flags) :=
    fun hflags => happlied.tail (.shut _ i hopen' _ hflags)
  unfold apply
  dsimp only
  split
  · exact happlied.tail (.timer _ i _ (keepsConnection_ackWait _))
  split
  · exact happlied
  split
  case isTrue hflags =>
    rw [h hflags]
    -- `send` failed: no acknowledgement is awaited any more, and the socket is reset
    refine ((happlied.tail (.timer _ i _ (keepsConnection_ackWait fun _ => 0))).tail
      (.refused _ i seq _ _)).tail (.shut _ i ?_ _ (.inr rfl))
    exact hopen'.modify (keepsConnection_ackWait fun _ => 0)
  split
  · refine hshut ?_
    split
    · exact .inl rfl
    · exact .inr rfl
  split
  · exact hshut (.inl rfl)
  · exact hshut (.inr rfl)

/-- A poll of an open socket. -/
theorem plain_check {t : Tcp} {i : Slot} (hopen : t.IsOpen i) (received : Option (List Byte))
    (again : Bool) : Relation.ReflTransGen Plain t (t.check i received again) := by
  unfold check
  split
  -- a socket that waits for an ACK is not read
  · exact .single (.timer _ i _ (keepsConnection_ackWait _))
  cases received with
  | none =>
    have hkeeps := keepsConnection_inactivity fun s => s.inactivityTimeout + 1
    have htimer := Plain.timer t i _ hkeeps
    dsimp only
    split
    · split
      -- nothing for too long
      · exact .tail (.single htimer) (.shut _ i (hopen.modify hkeeps) _ (.inr rfl))
      · exact .single htimer
    · exact .single (.shut _ i hopen _ (.inr rfl))
  | some bytes =>
    dsimp only
    split
    · split
      -- the remote end has closed
      · exact .single (.finished t i hopen ‹_›)
      · exact .refl
    · have hkeeps := keepsConnection_timers 0 netSocketAckWait
      exact .tail (.single (.timer t i _ hkeeps)) (.data _ i (hopen.modify hkeeps) bytes.length)

end Tcp

/-! ### Primitives -/

@[simp] theorem tcp_note (e : NetEvent) (l : Lan η) :
    (outcome (note e) l).2.tcp = if e.isTcp then l.tcp.record e else l.tcp := by
  change (⟨l.net.tcpSockets, (e :: l.log).filter NetEvent.isTcp⟩ : Tcp) = _
  rw [List.filter_cons]
  split <;> rfl

@[simp] theorem tcp_modifyTcp (i : Slot) (f : NetTcpSocket → NetTcpSocket) (l : Lan η) :
    (outcome (modifyTcp i f) l).2.tcp = l.tcp.modify i f := by
  rfl

@[simp] theorem tcp_setHost (l : Lan η) (h : η) : ({ l with host := h } : Lan η).tcp = l.tcp := rfl

@[simp] theorem tcp_netPanic (text : String) (l : Lan η) :
    (outcome (netPanic text) l).2.tcp = l.tcp := by
  rfl

/-- What has nothing to do with TCP leaves the view alone. -/
theorem tcp_of_generated {α : Type} {x : N η α}
    (hx : Generated (LanAction (fun e => e.isTcp = false) (fun n _ => n.tcpSockets)) x)
    (l : Lan η) : (outcome x l).2.tcp = l.tcp := by
  obtain ⟨hsockets, es, hlog, hes⟩ := extends_of_generated hx l
  have hfilter : es.filter NetEvent.isTcp = [] :=
    List.filter_eq_nil_iff.mpr fun e he => by rw [hes e he]; exact Bool.false_ne_true
  rw [Lan.tcp, hsockets, hlog, List.filter_append, hfilter]
  rfl

instance : EdfsEvents (fun e : NetEvent => e.isTcp = false) (fun n _ => n.tcpSockets) where
  rxWrite _ := rfl
  ipHeader := rfl
  setBytes _ _ _ := rfl
  ipId _ _ := rfl
  rxLen _ _ := rfl
  txRead _ := rfl
  rxWrites _ _ := rfl
  ipChecksum _ _ := rfl
  hostPath _ := rfl
  buffer _ _ := rfl
  edfsPath _ _ := rfl
  crash := rfl
  edfs _ _ _ := rfl

instance : ReadyEvents (fun e : NetEvent => e.isTcp = false) (fun n _ => n.tcpSockets) where
  built := rfl
  rxReady _ := rfl

instance : SendtoEvents fun e : NetEvent => e.isTcp = false where
  sendto _ _ _ _ := rfl

instance : UdpChanges (fun n _ => n.tcpSockets) where
  udpSockets _ _ := rfl

/-! ### Segments -/

theorem tcp_netTcpReply (len : ℕ) (i : Slot) (flags : Byte) (l : Lan η) :
    (outcome (netTcpReply len i flags) l).2.tcp = l.tcp.record
      (.segment i (l.tcp.sockets i).sendSeq (l.tcp.sockets i).recvSeq flags len) := by
  unfold netTcpReply
  rw [outcome_bind]
  dsimp only
  rw [outcome_bind, tcp_of_generated, tcp_note]
  · rfl
  · repeat' first
      | with_reducible refine .seq _ _ ?_ fun _ => ?_
      | infer_instance

@[simp] theorem tcp_netTcpSegment (len : ℕ) (i : Slot) (flags : Byte) (dstIp advance : BitVec 32)
    (l : Lan η) :
    (outcome (netTcpSegment len i flags dstIp advance) l).2.tcp =
      l.tcp.emit len i flags advance := by
  unfold netTcpSegment
  rw [outcome_bind, outcome_bind, tcp_of_generated, tcp_modifyTcp, tcp_netTcpReply]
  · rfl
  · infer_instance

section Functions

variable (host : Host η)

theorem tcp_netTcpClose_of_pos {flags : Byte} (h : flags > 0) (i : Slot) (l : Lan η) :
    (outcome (netTcpClose host i flags) l).2.tcp = l.tcp.shut i flags := by
  have hsegment := tcp_netTcpSegment 0 i flags (l.net.tcpSockets i).dstIp 0 l
  simp only [netTcpClose, if_pos h, outcome_bind, outcome_getNet, outcome_hostCall, tcp_note,
    tcp_modifyTcp]
  change (Tcp.modify i _ (outcome (netTcpSegment 0 i flags _ 0) l).2.tcp).record _ = _
  rw [hsegment]
  rfl

theorem tcp_netTcpClose_zero (i : Slot) (l : Lan η) :
    (outcome (netTcpClose host i 0) l).2.tcp = l.tcp.close i := by
  rfl

/-! ### SYN -/

/-- The host accepts a connection: `socket`, `connect` and `fcntl` succeed. -/
def Host.accepts (tuple : Tuple) (h : η) : Option ℕ :=
  match host.socket .stream h with
  | (none, _) => none
  | (some fd, h) =>
    let r := host.connect fd tuple.2.2 tuple.2.1 h
    if r.1 ∧ (host.fcntl fd (host.fcntl fd r.2).2).1 ≠ 1 then some fd else none

/-- A SYN that the host accepts opens a connection. -/
theorem tcp_netTcpSyn_of_accepts {tuple : Tuple} {l : Lan η} {i : Slot} {fd : ℕ}
    (hfree : l.net.freeTcp = some i) (haccepts : host.accepts tuple l.host = some fd)
    (recvSeq : BitVec 32) :
    (outcome (netTcpSyn host tuple recvSeq) l).2.tcp = l.tcp.accept i fd tuple (recvSeq + 1) := by
  unfold Host.accepts at haccepts
  rcases hsocket : host.socket .stream l.host with ⟨_ | fd', h⟩
  · rw [hsocket] at haccepts
    cases haccepts
  · rw [hsocket] at haccepts
    dsimp only at haccepts
    split at haccepts
    case isFalse => cases haccepts
    case isTrue hok =>
      -- `socket`, `connect` and `fcntl` succeed
      obtain ⟨hconnect, hfcntl⟩ := hok
      cases haccepts
      simp only [netTcpSyn, outcome_bind, outcome_getNet, hfree, outcome_hostCall, hsocket,
        host_modifyTcp, if_pos hconnect, if_neg hfcntl, tcp_netTcpSegment, tcp_note,
        tcp_modifyTcp, tcp_setHost, Tcp.modify_modify]
      rfl

theorem freeTcp_eq_some {n : Net} {i : Slot} (h : n.freeTcp = some i) :
    (n.tcpSockets i).fd = -1 := by
  simpa using List.find?_some h

/-- A socket that was free is free again. -/
theorem close_of_free (i : Slot) (fd : ℕ) (t : Tcp) :
    (t.modify i fun s => { s with fd := fd }).close i = t.close i := by
  rw [Tcp.close, Tcp.modify_modify]
  rfl

/-- Any other SYN opens none; a free socket may be closed once more. -/
theorem tcp_netTcpSyn_of_not {tuple : Tuple} {l : Lan η}
    (h : l.net.freeTcp = none ∨ host.accepts tuple l.host = none) (recvSeq : BitVec 32) :
    (outcome (netTcpSyn host tuple recvSeq) l).2.tcp = l.tcp ∨
      ∃ i, ¬ l.tcp.IsOpen i ∧
        (outcome (netTcpSyn host tuple recvSeq) l).2.tcp = l.tcp.close i := by
  cases hfree : l.net.freeTcp with
  | none =>
    simp only [netTcpSyn, outcome_bind, outcome_getNet, hfree]
    exact .inl rfl
  | some i =>
    have haccepts := h.resolve_left (hfree ▸ Option.some_ne_none i)
    unfold Host.accepts at haccepts
    rcases hsocket : host.socket .stream l.host with ⟨_ | fd, h⟩
    · -- the socket stays free
      simp only [netTcpSyn, outcome_bind, outcome_getNet, hfree, outcome_hostCall, hsocket]
      rw [tcp_netPanic, tcp_modifyTcp, Tcp.modify_eq_self]
      · exact .inl rfl
      · rw [← freeTcp_eq_some hfree]
        rfl
    · -- the socket is closed again
      rw [hsocket] at haccepts
      dsimp only at haccepts
      split at haccepts
      case isTrue => cases haccepts
      case isFalse hnot =>
        have hclose : (outcome (netTcpSyn host tuple recvSeq) l).2.tcp = l.tcp.close i := by
          simp only [netTcpSyn, outcome_bind, outcome_getNet, hfree, outcome_hostCall, hsocket,
            host_modifyTcp]
          split
          case isTrue hconnect =>
            have hfcntl := not_not.mp (not_and.mp hnot hconnect)
            simp only [outcome_bind, outcome_hostCall, if_pos hfcntl, tcp_netTcpClose_zero,
              tcp_netPanic, tcp_setHost, tcp_modifyTcp]
            exact close_of_free i fd l.tcp
          case isFalse => exact close_of_free i fd l.tcp
        exact .inr ⟨i, fun hopen => hopen (freeTcp_eq_some hfree), hclose⟩

/-! ### Segments of a connection -/

/-- How many bytes the host takes of the data of a segment for socket `i`. -/
def Host.takes (tx : ℕ → Byte) (data : ℕ × ℕ) (i : Slot) (l : Lan η) : Option ℕ :=
  (host.send (l.net.tcpSockets i).fd (fun k => tx (data.1 + k)) data.2 l.host).1

theorem tcp_netTcpData_of_some {tx : ℕ → Byte} {i : Slot} {ipLen : Word} {dataOffset : Byte}
    {l : Lan η} {taken : ℕ} (h : host.takes tx (tcpData ipLen dataOffset) i l = some taken)
    (recvSeq dstIp : BitVec 32) :
    (outcome (netTcpData host tx i ipLen dataOffset recvSeq dstIp) l).2.tcp =
      l.tcp.deliver i recvSeq (tcpData ipLen dataOffset).1 (tcpData ipLen dataOffset).2 taken := by
  unfold Host.takes at h
  simp only [netTcpData, outcome_bind, outcome_getNet, outcome_hostCall, tcpSockets_modifyTcp,
    host_modifyTcp, h, tcp_netTcpSegment, tcp_modifyTcp, tcp_note, tcp_setHost]
  rw [if_pos (by rfl), Tcp.record_modify, Tcp.modify_modify]
  rfl

/-- Data that the host does not take resets the connection. -/
theorem tcp_netTcpData_of_none {tx : ℕ → Byte} {i : Slot} {ipLen : Word} {dataOffset : Byte}
    {l : Lan η} (h : host.takes tx (tcpData ipLen dataOffset) i l = none)
    (recvSeq dstIp : BitVec 32) :
    (outcome (netTcpData host tx i ipLen dataOffset recvSeq dstIp) l).2.tcp =
      ((l.tcp.modify i fun s => { s with ackWait := 0 }).record
        (.send i recvSeq (tcpData ipLen dataOffset).1 (tcpData ipLen dataOffset).2 none)).shut i
          flagsRstAck := by
  unfold Host.takes at h
  simp only [netTcpData, outcome_bind, outcome_getNet, outcome_hostCall, tcpSockets_modifyTcp,
    host_modifyTcp, h]
  rw [tcp_netTcpClose_of_pos host (by decide), tcp_netPanic, tcp_note, tcp_setHost, tcp_modifyTcp]
  rfl

/-- A segment of a socket. -/
theorem tcp_netTcpApply (tx : ℕ → Byte) (i : Slot) (ipLen : Word) (dataOffset flags : Byte)
    (seq dstIp : BitVec 32) (l : Lan η) :
    (outcome (netTcpApply host tx i ipLen dataOffset flags seq dstIp) l).2.tcp =
      l.tcp.apply i flags seq (tcpData ipLen dataOffset)
        (host.takes tx (tcpData ipLen dataOffset) i l) := by
  -- the state in which the flags are looked at
  let l' := (outcome (do
    note (.applied i ((← getNet).tcpSockets i).tuple)
    modifyUdp i fun s => { s with inactivityTimeout := 0 }) l).2
  have hl' : l'.tcp = l.tcp.record (.applied i (l.tcp.sockets i).tuple) := rfl
  have hshut : ∀ {flags}, flags = flagsAck ∨ flags = flagsRstAck →
      (outcome (netTcpClose host i flags) l').2.tcp =
        (l.tcp.record (.applied i (l.tcp.sockets i).tuple)).shut i flags := by
    intro flags hflags
    rw [tcp_netTcpClose_of_pos host (by rcases hflags with rfl | rfl <;> decide), hl']
  change (outcome (if flags = flagsAck then _ else _) l').2.tcp = _
  unfold Tcp.apply
  dsimp only
  split
  · rw [tcp_modifyTcp, hl']
  split
  · exact hl'
  split
  · cases htakes : host.takes tx (tcpData ipLen dataOffset) i l with
    | none => rw [tcp_netTcpData_of_none host (l := l') htakes, hl']
    | some taken => rw [tcp_netTcpData_of_some host (l := l') htakes, hl']
  split
  · rw [outcome_bind, outcome_getNet]
    dsimp only
    split
    · rw [hshut (.inl rfl), if_pos (by assumption)]
    · rw [hshut (.inr rfl), if_neg (by assumption)]
  split
  · exact hshut (.inl rfl)
  · rw [outcome_bind, tcp_netTcpClose_of_pos host (by decide), tcp_netPanic, hl']

/-! ### Transmitted frames -/

/-- The frame is a SYN for which a socket is free and which the host accepts. -/
structure SynAccepted (l : Lan η) (tx : ℕ → Byte) (i : Slot) (fd : ℕ) : Prop where
  frame : IsTcpFrame tx
  flags : tcpFlags tx = flagsSyn
  free : l.net.freeTcp = some i
  accepts : host.accepts (tcpTuple tx) l.host = some fd

/-- The frame is data for an open socket, of which the host takes some bytes. -/
structure DataTaken (l : Lan η) (tx : ℕ → Byte) (i : Slot) (taken : ℕ) : Prop where
  frame : IsTcpFrame tx
  flags : tcpFlags tx = flagsPshAck
  found : l.net.findTcp (tcpTuple tx) = some i
  takes : host.takes tx (tcpRange tx) i l = some taken

theorem findTcp_eq_some {n : Net} {tuple : Tuple} {i : Slot} (h : n.findTcp tuple = some i) :
    (n.tcpSockets i).fd ≠ -1 ∧ (n.tcpSockets i).tuple = tuple := by
  simpa using List.find?_some h

@[simp] theorem tcp_reading (is : List ℕ) (l : Lan η) : (l.reading is).tcp = l.tcp := by
  have hfilter : ((is.map NetEvent.txRead).reverse).filter NetEvent.isTcp = [] :=
    List.filter_eq_nil_iff.mpr fun e he => by
      obtain ⟨i, -, rfl⟩ := List.mem_map.mp (List.mem_reverse.mp he)
      exact Bool.false_ne_true
  change (⟨l.net.tcpSockets, ((is.map NetEvent.txRead).reverse ++ l.log).filter _⟩ : Tcp) = _
  rw [List.filter_append, hfilter]
  rfl

theorem tcp_transmit_of_syn {l : Lan η} {tx : ℕ → Byte} {i : Slot} {fd : ℕ}
    (h : SynAccepted host l tx i fd) (txLen : Word) :
    (outcome (netTxFrame host tx txLen) l).2.tcp =
      l.tcp.accept i fd (tcpTuple tx) (tcpSeq tx + 1) := by
  rw [outcome_netTxFrame_tcp host h.frame, netTcpDispatch, if_pos h.flags,
    tcp_netTcpSyn_of_accepts host (l := l.reading _) h.free h.accepts, tcp_reading]

/-- The handlers of the other frames have nothing to do with TCP. -/
theorem tcp_transmit_of_not_frame {tx : ℕ → Byte} (h : ¬ IsTcpFrame tx) (txLen : Word) (l : Lan η) :
    (outcome (netTxFrame host tx txLen) l).2.tcp = l.tcp := by
  rw [netTxFrame, outcome_bind, outcome_readTxWord, ← tcp_reading [0x0C, 0x0D] l]
  dsimp only
  -- by the ethertype, and of IPv4 by the protocol
  split
  · exact tcp_of_generated inferInstance _
  split
  case isTrue hipv4 =>
    rw [netHandleIpv4, outcome_bind, outcome_readTx, ← tcp_reading [0x17]]
    dsimp only
    split
    · exact tcp_of_generated inferInstance _
    split
    · exact absurd ⟨hipv4, ‹_›⟩ h
    split
    · exact tcp_of_generated inferInstance _
    · rfl
  split
  · exact tcp_of_generated inferInstance _
  · rfl

/-- The frame is a segment of the connection of socket `i`, other than a SYN. -/
structure SegmentFor (l : Lan η) (tx : ℕ → Byte) (i : Slot) : Prop where
  frame : IsTcpFrame tx
  flags : tcpFlags tx ≠ flagsSyn
  found : l.net.findTcp (tcpTuple tx) = some i

/-- A segment without SYN goes to the socket of its ends. -/
theorem tcp_transmit_of_segment {l : Lan η} {tx : ℕ → Byte} {i : Slot} (h : SegmentFor l tx i)
    (txLen : Word) :
    (outcome (netTxFrame host tx txLen) l).2.tcp =
      l.tcp.apply i (tcpFlags tx) (tcpSeq tx) (tcpRange tx)
        (host.takes tx (tcpRange tx) i l) := by
  rw [outcome_netTxFrame_tcp host h.frame, netTcpDispatch, if_neg h.flags, outcome_bind,
    outcome_getNet]
  dsimp only
  rw [net_reading, h.found]
  dsimp only
  rw [tcp_netTcpApply, tcp_reading]
  rfl

theorem tcp_transmit_of_data {l : Lan η} {tx : ℕ → Byte} {i : Slot} {taken : ℕ}
    (h : DataTaken host l tx i taken) (txLen : Word) :
    (outcome (netTxFrame host tx txLen) l).2.tcp =
      (l.tcp.record (.applied i (tcpTuple tx))).deliver i (tcpSeq tx) (tcpRange tx).1
        (tcpRange tx).2 taken := by
  have hsegment : SegmentFor l tx i := ⟨h.frame, by rw [h.flags]; decide, h.found⟩
  rw [tcp_transmit_of_segment host hsegment, h.flags, h.takes, Tcp.apply_of_taken,
    ← (findTcp_eq_some h.found).2]
  rfl

/-- What a transmitted frame does to the connections. -/
theorem tcp_transmit_cases (l : Lan η) (tx : ℕ → Byte) (txLen : Word) :
    (∃ i fd, SynAccepted host l tx i fd ∧ (outcome (netTxFrame host tx txLen) l).2.tcp =
      l.tcp.accept i fd (tcpTuple tx) (tcpSeq tx + 1)) ∨
    (∃ i, SegmentFor l tx i ∧ (outcome (netTxFrame host tx txLen) l).2.tcp =
      l.tcp.apply i (tcpFlags tx) (tcpSeq tx) (tcpRange tx) (host.takes tx (tcpRange tx) i l)) ∨
    ((∀ i, ¬ SegmentFor l tx i) ∧
      ((outcome (netTxFrame host tx txLen) l).2.tcp = l.tcp ∨
        ∃ i, ¬ l.tcp.IsOpen i ∧
          (outcome (netTxFrame host tx txLen) l).2.tcp = l.tcp.close i)) := by
  by_cases hframe : IsTcpFrame tx
  · by_cases hflags : tcpFlags tx = flagsSyn
    · by_cases hsyn : ∃ i fd, SynAccepted host l tx i fd
      · obtain ⟨i, fd, h⟩ := hsyn
        exact .inl ⟨i, fd, h, tcp_transmit_of_syn host h txLen⟩
      refine .inr (.inr ⟨fun i h => h.flags hflags, ?_⟩)
      rw [outcome_netTxFrame_tcp host hframe, netTcpDispatch, if_pos hflags,
        ← tcp_reading ([0x0C, 0x0D, 0x17] ++ tcpHeader) l]
      -- without a free socket, or one that the host opens, nothing is accepted
      refine tcp_netTcpSyn_of_not host ?_ _
      by_contra hnot
      obtain ⟨hfree, haccepts⟩ := not_or.mp hnot
      obtain ⟨i, hi⟩ := Option.ne_none_iff_exists'.mp hfree
      obtain ⟨fd, hfd⟩ := Option.ne_none_iff_exists'.mp haccepts
      exact hsyn ⟨i, fd, hframe, hflags, hi, hfd⟩
    · cases hfound : l.net.findTcp (tcpTuple tx) with
      | none =>
        refine .inr (.inr ⟨fun i h => ?_, .inl ?_⟩)
        · rw [h.found] at hfound
          cases hfound
        · rw [outcome_netTxFrame_tcp host hframe, netTcpDispatch, if_neg hflags, outcome_bind,
            outcome_getNet]
          dsimp only
          rw [net_reading, hfound]
          exact tcp_reading _ l
      | some i =>
        have h : SegmentFor l tx i := ⟨hframe, hflags, hfound⟩
        exact .inr (.inl ⟨i, h, tcp_transmit_of_segment host h txLen⟩)
  · exact .inr (.inr ⟨fun i h => hframe h.frame,
      .inl (tcp_transmit_of_not_frame host hframe txLen l)⟩)

/-- A frame that opens nothing and brings nothing takes plain steps only. -/
theorem tcp_transmit_of_not {l : Lan η} {tx : ℕ → Byte}
    (hsyn : ∀ i fd, ¬ SynAccepted host l tx i fd) (hdata : ∀ i taken, ¬ DataTaken host l tx i taken)
    (txLen : Word) :
    Relation.ReflTransGen Tcp.Plain l.tcp (outcome (netTxFrame host tx txLen) l).2.tcp := by
  rcases tcp_transmit_cases host l tx txLen with ⟨i, fd, h, -⟩ | ⟨i, h, hafter⟩ |
    ⟨-, hafter | ⟨i, -, hafter⟩⟩
  · exact absurd h (hsyn i fd)
  · have hopen : l.tcp.IsOpen i := (findTcp_eq_some h.found).1
    rw [hafter]
    refine Tcp.plain_apply hopen (fun hpsh => ?_) _ _
    -- data that the host took would have been brought
    by_contra htakes
    obtain ⟨taken, ht⟩ := Option.ne_none_iff_exists'.mp htakes
    exact hdata i taken ⟨h.frame, hpsh, h.found, ht⟩
  · rw [hafter]
  · rw [hafter]
    exact .single (.closed l.tcp i)

/-! ### Polls -/

/-- What `recv` returns in a poll of socket `i`. -/
def Host.received (i : Slot) (l : Lan η) : Option (List Byte) × η :=
  host.recv (l.net.tcpSockets i).fd (netMtu - 0x36) l.host

/-- A poll of a socket. -/
theorem tcp_netCheckTcpSocket (i : Slot) (l : Lan η) :
    (outcome (netCheckTcpSocket host i) l).2.tcp =
      l.tcp.check i (host.received i l).1 (host.errno (host.received i l).2 = eagain) := by
  unfold netCheckTcpSocket Tcp.check
  rw [outcome_bind, outcome_getNet]
  dsimp only
  by_cases hwait : (l.tcp.sockets i).ackWait > 0
  · have hwaiting : (l.net.tcpSockets i).ackWait > 0 := hwait
    rw [if_pos hwait, if_pos hwaiting]
    exact tcp_modifyTcp i _ l
  have hnot : ¬ (l.net.tcpSockets i).ackWait > 0 := hwait
  rw [if_neg hwait, if_neg hnot, outcome_bind, outcome_hostCall, Host.received]
  dsimp only
  rcases host.recv (l.net.tcpSockets i).fd (netMtu - 0x36) l.host with ⟨received, h⟩
  dsimp only
  -- from here on only the state behind `recv` matters
  obtain ⟨l', hl'⟩ : ∃ l' : Lan η, l' = { l with host := h } := ⟨_, rfl⟩
  have htcp : l.tcp = l'.tcp := by rw [hl']; rfl
  have hhost : h = l'.host := by rw [hl']
  rw [← hl', htcp, hhost]
  cases received with
  | none =>
    simp only [outcome_bind, outcome_getErrno, outcome_getNet, outcome_ite, decide_eq_true_eq]
    split
    · split
      · rw [tcp_netTcpClose_of_pos host (by decide), tcp_modifyTcp, if_pos]
        assumption
      · rw [if_neg]
        · rfl
        · assumption
    · rw [tcp_netTcpClose_of_pos host (by decide), tcp_netPanic]
  | some bytes =>
    -- the data is in the frame before the socket is looked at again
    have hwrite : (outcome (writeRx 0x36 bytes) l').2.tcp = l'.tcp :=
      tcp_of_generated inferInstance l'
    have hkept : (outcome (writeRx 0x36 bytes) l').2.host = l'.host := rfl
    dsimp only
    rw [outcome_bind, ← hwrite, ← hkept]
    generalize (outcome (writeRx 0x36 bytes) l').2 = l''
    simp only [outcome_bind, outcome_getErrno, outcome_getNet, outcome_ite, decide_eq_true_eq]
    split
    · split
      · rw [tcp_modifyTcp, tcp_netTcpSegment, if_pos]
        assumption
      · rw [if_neg]
        · rfl
        · assumption
    · rw [tcp_netTcpSegment, tcp_modifyTcp]

/-- What every check of an open socket relates, a loop over the sockets relates. -/
theorem netPoll_rel {isOpen : Net → Slot → Bool} {check : Slot → N η Unit}
    {R : Lan η → Lan η → Prop} (hrefl : ∀ l, R l l)
    (htrans : ∀ {l l' l''}, R l l' → R l' l'' → R l l'')
    (hcheck : ∀ i l, isOpen l.net i = true → R l (outcome (check i) l).2) (slots : List Slot)
    (l : Lan η) : R l (outcome (netPoll isOpen check slots) l).2 := by
  induction slots generalizing l with
  | nil => exact hrefl l
  | cons i rest ih =>
    unfold netPoll
    rw [outcome_bind, outcome_getNet]
    dsimp only
    split
    -- a pending frame stops the loop
    · exact hrefl l
    rw [outcome_bind]
    split
    · exact htrans (hcheck i l ‹_›) (ih _)
    · exact ih l

/-- The poll takes plain steps only. The sockets of UDP are not its concern. -/
theorem tcp_poll (l : Lan η) :
    Relation.ReflTransGen Tcp.Plain l.tcp (outcome (netExecute host) l).2.tcp := by
  let R (l l' : Lan η) : Prop := Relation.ReflTransGen Tcp.Plain l.tcp l'.tcp
  have hudp : ∀ l, R l (outcome (netPoll (fun n i => (n.udpSockets i).fd != -1)
      (netCheckUdpSocket host) (List.finRange 5)) l).2 :=
    netPoll_rel (fun _ => .refl) (fun h h' => h.trans h')
      (fun i l _ => by
        change Relation.ReflTransGen Tcp.Plain _ _
        rw [tcp_of_generated inferInstance]) _
  -- an open socket is polled once
  have htcp : ∀ l, R l (outcome (netPoll (fun n i => (n.tcpSockets i).fd != -1)
      (netCheckTcpSocket host) (List.finRange 5)) l).2 :=
    netPoll_rel (fun _ => .refl) (fun h h' => h.trans h')
      (fun i l hopen => by
        change Relation.ReflTransGen Tcp.Plain _ _
        rw [tcp_netCheckTcpSocket]
        exact Tcp.plain_check (bne_iff_ne.mp hopen) _ _) _
  unfold netExecute
  rw [outcome_bind]
  split
  · exact (hudp l).trans (htcp _)
  · exact hudp l

/-- **What a step of the network does to the connections.** -/
theorem lanAfter_tcp_cases (l : Lan η) (s : LanStep) :
    (∃ tx txLen i fd, s = .transmit tx txLen ∧ SynAccepted host l tx i fd ∧
      (lanAfter host l s).tcp = l.tcp.accept i fd (tcpTuple tx) (tcpSeq tx + 1)) ∨
    (∃ tx txLen i taken, s = .transmit tx txLen ∧ DataTaken host l tx i taken ∧
      (lanAfter host l s).tcp = (l.tcp.record (.applied i (tcpTuple tx))).deliver i (tcpSeq tx)
        (tcpRange tx).1 (tcpRange tx).2 taken) ∨
    ((∀ tx txLen i fd, s = .transmit tx txLen → ¬ SynAccepted host l tx i fd) ∧
      (∀ tx txLen i taken, s = .transmit tx txLen → ¬ DataTaken host l tx i taken) ∧
      Relation.ReflTransGen Tcp.Plain l.tcp (lanAfter host l s).tcp) := by
  cases s with
  | taken => exact .inr (.inr ⟨nofun, nofun, .refl⟩)
  | poll => exact .inr (.inr ⟨nofun, nofun, tcp_poll host l⟩)
  | transmit tx txLen =>
    by_cases hsyn : ∃ i fd, SynAccepted host l tx i fd
    · obtain ⟨i, fd, h⟩ := hsyn
      exact .inl ⟨tx, txLen, i, fd, rfl, h, tcp_transmit_of_syn host h txLen⟩
    by_cases hdata : ∃ i taken, DataTaken host l tx i taken
    · obtain ⟨i, taken, h⟩ := hdata
      exact .inr (.inl ⟨tx, txLen, i, taken, rfl, h, tcp_transmit_of_data host h txLen⟩)
    -- neither a connection nor data, so the steps are plain
    have hsyn' : ∀ i fd, ¬ SynAccepted host l tx i fd := fun i fd h => hsyn ⟨i, fd, h⟩
    have hdata' : ∀ i taken, ¬ DataTaken host l tx i taken := fun i taken h => hdata ⟨i, taken, h⟩
    refine .inr (.inr ⟨?_, ?_, tcp_transmit_of_not host hsyn' hdata' txLen⟩)
    · rintro _ _ i fd ⟨⟩
      exact hsyn' i fd
    · rintro _ _ i taken ⟨⟩
      exact hdata' i taken

end Functions

end Pc20iii
