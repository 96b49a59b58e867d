import Pc20iii.Net.Segment
import Pc20iii.Net.Tuples

/-!
# The guest's end of the connections

What the frames that the network hands over tell a TCP stack in the guest. For each connection it
keeps the number that it expects next and the bytes that it has got in order (`Receiver`, `Guest`).
How the frames get to it, through the ring of the card, is the subject of `Pc20iii.Net.Streams`.

* `Tcp.Emits`: what a step does to the connection of a socket, with the segment that goes to the
  guest and the data of the host that is in it. A poll and a packet of the guest are such steps.
* `Ends.Delivered`: the invariant. A guest that has read every frame expects the number that the
  socket will send next, and has got all that `recv` has returned for the connection.
* `delivered_endsAfter`: a step keeps it, if no frame is transmitted while another one is pending,
  and no SYN for ends that an open socket has.
-/

namespace Pc20iii

open StateProgram

variable {η : Type}

/-! ### What a step emits -/

namespace Tcp

/-- A socket that is open afterwards has been open before, and its number has been advanced. -/
def Proceeds (t t' : Tcp) (i : Slot) (n : BitVec 32) : Prop :=
  t'.IsOpen i → t.IsOpen i ∧ (t'.sockets i).tuple = (t.sockets i).tuple ∧
    (t'.sockets i).sendSeq = (t.sockets i).sendSeq + n

/-- Between the two states the socket emits a segment or none, with these bytes of the host. -/
inductive Emits (t t' : Tcp) (i : Slot) : Option TcpSegment → List Byte → Prop
  | silent (h : t.Proceeds t' i 0) : Emits t t' i none []
  | ack (hopen : t.IsOpen i) (h : t.Proceeds t' i 0) :
      Emits t t' i (some (t.segment i flagsAck [])) []
  /-- The connection is over. -/
  | reset (hopen : t.IsOpen i) (h : ¬ t'.IsOpen i) :
      Emits t t' i (some (t.segment i flagsRstAck [])) []
  | fin (hopen : t.IsOpen i) (h : t.Proceeds t' i 1) :
      Emits t t' i (some (t.segment i flagsFinAck [])) []
  | data (hopen : t.IsOpen i) (bytes : List Byte)
      (h : t.Proceeds t' i (BitVec.ofNat 32 bytes.length)) :
      Emits t t' i (some (t.segment i flagsPshAck bytes)) bytes
  /-- A connection has been opened. -/
  | opened (hfree : ¬ t.IsOpen i) (hopen : t'.IsOpen i)
      (hseq : (t'.sockets i).sendSeq = (t.sockets i).sendSeq + 1) :
      Emits t t' i (some { t.segment i flagsSynAck [] with tuple := (t'.sockets i).tuple }) []

theorem Proceeds.of_eq {t t' : Tcp} {i : Slot} (hfd : (t'.sockets i).fd = (t.sockets i).fd)
    (htuple : (t'.sockets i).tuple = (t.sockets i).tuple) {n : BitVec 32}
    (hseq : (t'.sockets i).sendSeq = (t.sockets i).sendSeq + n) : t.Proceeds t' i n := by
  intro hopen
  rw [IsOpen, hfd] at hopen
  exact ⟨hopen, htuple, hseq⟩

theorem Proceeds.of_closed {t t' : Tcp} {i : Slot} (h : ¬ t'.IsOpen i) (n : BitVec 32) :
    t.Proceeds t' i n := fun hopen => absurd hopen h

/-- A timer is set, or something is recorded. -/
theorem Proceeds.of_socket {t t' : Tcp} {i : Slot} {f : NetTcpSocket → NetTcpSocket}
    (hf : KeepsConnection f) (h : t'.sockets i = f (t.sockets i)) : t.Proceeds t' i 0 :=
  .of_eq (by rw [h, hf.fd]) (by rw [h, hf.tuple]) (by
    rw [h, hf.sendSeq]
    exact (BitVec.add_zero _).symm)

theorem not_isOpen_shut (i : Slot) (flags : Byte) (t : Tcp) : ¬ (t.shut i flags).IsOpen i := by
  rw [IsOpen, sockets_shut_self]
  exact fun h => h rfl

/-- A poll of an open socket. -/
theorem emits_check {t : Tcp} {i : Slot} (hopen : t.IsOpen i) (received : Option (List Byte))
    (again : Bool) :
    t.Emits (t.check i received again) i (t.polled i received again)
      (if (t.sockets i).ackWait > 0 then [] else received.getD []) := by
  unfold check polled
  split
  · exact .silent (.of_socket (keepsConnection_ackWait fun s => s.ackWait - 1)
      (sockets_modify_self i _ t))
  -- no data with EAGAIN may end in a RST after a while, any other failure does at once
  cases received with
  | none =>
    dsimp only
    split
    · rw [sockets_modify_self]
      dsimp only
      split
      · exact .reset hopen (not_isOpen_shut i _ _)
      · exact .silent (.of_socket (keepsConnection_inactivity fun s => s.inactivityTimeout + 1)
          (sockets_modify_self i _ t))
    · exact .reset hopen (not_isOpen_shut i _ _)
  | some bytes =>
    dsimp only
    split
    -- no bytes are the end of the stream, which is sent as a FIN once
    case isTrue hempty =>
      have hnil : bytes = [] := List.eq_nil_of_length_eq_zero hempty.1
      rw [Option.getD_some, hnil]
      split
      · refine .fin hopen (.of_eq ?_ ?_ ?_) <;> rw [sockets_modify_self, sockets_emit_self]
        rfl
      · exact .silent (.of_eq rfl rfl (BitVec.add_zero _).symm)
    case isFalse =>
      refine .data hopen bytes (.of_eq ?_ ?_ ?_) <;> rw [sockets_emit_self, sockets_modify_self]
      rfl

/-- A packet of an open connection. -/
theorem emits_apply {t : Tcp} {i : Slot} (hopen : t.IsOpen i) (flags : Byte) (seq : BitVec 32)
    (data : ℕ × ℕ) (taken : Option ℕ) :
    t.Emits (t.apply i flags seq data taken) i (t.answered i flags taken) [] := by
  -- a socket that has been shut is not open, and nothing is asked of its numbers
  have hclosed : ∀ {t' : Tcp} (flags : Byte), t.Proceeds (t'.shut i flags) i 0 :=
    fun flags => .of_closed (not_isOpen_shut i flags _) 0
  unfold apply answered
  dsimp only
  split
  · exact .silent (.of_socket (keepsConnection_ackWait fun _ => 0) (sockets_modify_self ..))
  split
  · exact .silent (.of_eq rfl rfl (BitVec.add_zero _).symm)
  split
  · cases taken with
    | none => exact .reset hopen (not_isOpen_shut i _ _)
    | some taken =>
      refine .ack hopen (.of_eq ?_ ?_ ?_) <;> dsimp only <;>
        rw [sockets_deliver_self, sockets_record]
      · rfl
      · exact (BitVec.add_zero _).symm
  split
  -- the FIN of the guest is acknowledged if it answers ours, and reset if not
  · cases hfin : (t.sockets i).finAckSent with
    | true =>
      rw [sockets_record, hfin, if_pos rfl]
      exact .ack hopen (hclosed flagsAck)
    | false =>
      rw [sockets_record, hfin, if_neg Bool.false_ne_true]
      exact .reset hopen (not_isOpen_shut i _ _)
  split
  · exact .ack hopen (hclosed flagsAck)
  · exact .reset hopen (not_isOpen_shut i _ _)

/-- A SYN that the host accepts. -/
theorem emits_accept {t : Tcp} {i : Slot} (hfree : ¬ t.IsOpen i) (fd : ℕ) (tuple : Tuple)
    (recvSeq : BitVec 32) :
    t.Emits (t.accept i fd tuple recvSeq) i
      (some { t.segment i flagsSynAck [] with tuple := tuple }) [] := by
  have htuple : ((t.accept i fd tuple recvSeq).sockets i).tuple = tuple := by
    rw [sockets_accept_self]
    rfl
  have hopen : (t.accept i fd tuple recvSeq).IsOpen i := by
    rw [IsOpen, sockets_accept_self]
    exact fun hfd : (fd : ℤ) = -1 => by omega
  have hemits := Emits.opened hfree hopen (by rw [sockets_accept_self])
  rwa [htuple] at hemits

end Tcp

/-! ### The guest -/

/-- What a TCP stack keeps of a connection. -/
structure Receiver where
  /-- The number that it expects next. -/
  next : BitVec 32
  /-- The bytes that it has got. -/
  bytes : List Byte
deriving DecidableEq

/-- What a segment does to the connection. SYN+ACK opens it and RST ends it; any other segment is
taken if it has the number that is expected. -/
def Receiver.take (s : TcpSegment) (r : Option Receiver) : Option Receiver :=
  if s.flags = flagsSynAck then some { next := s.seq + 1, bytes := [] }
  else if s.flags.getLsbD 2 then none
  else r.map fun r =>
    if s.seq = r.next then
      { next := r.next + BitVec.ofNat 32 s.payload.length + (if s.flags.getLsbD 0 then 1 else 0)
        bytes := r.bytes ++ s.payload }
    else r

/-- The connections of the guest, by their ends. -/
abbrev Guest := Tuple → Option Receiver

/-- The guest reads the segment in a frame, if there is one. -/
def Guest.receive (g : Guest) : Option TcpSegment → Guest
  | none => g
  | some s => Function.update g s.tuple (Receiver.take s (g s.tuple))

theorem receive_of_ne {g : Guest} {s : TcpSegment} {tuple : Tuple} (h : tuple ≠ s.tuple) :
    g.receive (some s) tuple = g tuple :=
  Function.update_of_ne h ..

theorem receive_self (g : Guest) (s : TcpSegment) :
    g.receive (some s) s.tuple = Receiver.take s (g s.tuple) :=
  Function.update_self ..

/-- The guest has all of the connections, with the bytes that are given for each. -/
def Tcp.Has (t : Tcp) (g : Guest) (given : Slot → List Byte) : Prop :=
  ∀ i, t.IsOpen i →
    g (t.sockets i).tuple = some { next := (t.sockets i).sendSeq, bytes := given i }

namespace Tcp

variable {t t' : Tcp} {i : Slot} {o : Option TcpSegment} {bytes : List Byte}

/-- A segment that is expected is taken. -/
theorem receive_segment {g : Guest} {given : List Byte}
    (hg : g (t.sockets i).tuple = some { next := (t.sockets i).sendSeq, bytes := given })
    {flags : Byte} (hsyn : flags ≠ flagsSynAck) (hrst : flags.getLsbD 2 = false)
    (bytes : List Byte) :
    g.receive (some (t.segment i flags bytes)) (t.sockets i).tuple =
      some
        { next := (t.sockets i).sendSeq + BitVec.ofNat 32 bytes.length +
            (if flags.getLsbD 0 then 1 else 0)
          bytes := given ++ bytes } := by
  refine (receive_self g (t.segment i flags bytes)).trans ?_
  change Receiver.take (t.segment i flags bytes) (g (t.sockets i).tuple) = _
  have hflags : (t.segment i flags bytes).flags = flags := rfl
  -- neither a SYN nor a reset, and the number is the expected one
  rw [hg, Receiver.take, hflags, if_neg hsyn, hrst, if_neg Bool.false_ne_true, Option.map_some]
  exact congrArg some (if_pos rfl)

/-- The segment is about the connection of its socket, before or after the step. -/
theorem Emits.tuple_ne (h : t.Emits t' i o bytes) (ht : t.Unambiguous) (ht' : t'.Unambiguous)
    {j : Slot} (hji : j ≠ i) (hsame : t'.sockets j = t.sockets j) (hj : t.IsOpen j) :
    ∀ s ∈ o, (t.sockets j).tuple ≠ s.tuple := by
  have hj' : t'.IsOpen j := by rwa [IsOpen, hsame]
  -- two open sockets do not have the same ends
  have hbefore : t.IsOpen i → (t.sockets j).tuple ≠ (t.sockets i).tuple :=
    fun hi heq => hji (ht j i hj hi heq)
  intro s hs
  cases h with
  | silent => cases hs
  | ack hopen => cases hs; exact hbefore hopen
  | reset hopen => cases hs; exact hbefore hopen
  | fin hopen => cases hs; exact hbefore hopen
  | data hopen => cases hs; exact hbefore hopen
  | opened hfree hopen =>
    cases hs
    rw [← hsame]
    exact fun heq => hji (ht' j i hj' hopen heq)

/-- The connection of the socket itself. -/
theorem Emits.receive (h : t.Emits t' i o bytes) {g : Guest} {given : List Byte}
    (hg : t.IsOpen i → g (t.sockets i).tuple =
      some { next := (t.sockets i).sendSeq, bytes := given })
    (hgiven : ¬ t.IsOpen i → given = []) (hopen' : t'.IsOpen i) :
    g.receive o (t'.sockets i).tuple =
      some { next := (t'.sockets i).sendSeq, bytes := given ++ bytes } := by
  have hzero : (t.sockets i).sendSeq + BitVec.ofNat 32 ([] : List Byte).length =
      (t.sockets i).sendSeq := BitVec.add_zero _
  -- what the segment counts is what `sendSeq` has gone up by
  cases h with
  | silent h =>
    obtain ⟨hopen, htuple, hseq⟩ := h hopen'
    have hzero : (t.sockets i).sendSeq + 0 = (t.sockets i).sendSeq := BitVec.add_zero _
    rw [Guest.receive, htuple, hseq, hzero, List.append_nil]
    exact hg hopen
  | ack hopen h =>
    obtain ⟨-, htuple, hseq⟩ := h hopen'
    rw [htuple, hseq, receive_segment (hg hopen) (by decide) rfl, hzero]
    rfl
  | reset hopen h => exact absurd hopen' h
  | fin hopen h =>
    obtain ⟨-, htuple, hseq⟩ := h hopen'
    rw [htuple, hseq, receive_segment (hg hopen) (by decide) rfl, hzero]
    rfl
  | data hopen _ h =>
    obtain ⟨-, htuple, hseq⟩ := h hopen'
    rw [htuple, hseq, receive_segment (hg hopen) (by decide) rfl]
    refine congrArg some ?_
    rw [Receiver.mk.injEq]
    exact ⟨BitVec.add_zero _, rfl⟩
  | opened hfree hopen hseq =>
    refine (receive_self g _).trans ?_
    rw [hgiven hfree, hseq]
    rfl

/-- **A step keeps what the guest has up to date**, if its segment is received. -/
theorem Emits.has (h : t.Emits t' i o bytes) (ht : t.Unambiguous) (ht' : t'.Unambiguous)
    (hsame : ∀ j, j ≠ i → t'.sockets j = t.sockets j) {g : Guest} {given : Slot → List Byte}
    (hhas : t.Has g given) (hgiven : ∀ j, ¬ t.IsOpen j → given j = []) :
    t'.Has (g.receive o) fun j => given j ++ if j = i then bytes else [] := by
  intro j hj'
  dsimp only
  -- the segment has the ends of socket `i`, which no other open socket has
  by_cases hji : j = i
  · rw [if_pos hji]
    rw [hji] at hj' ⊢
    exact h.receive (hhas i) (hgiven i) hj'
  · have hj : t.IsOpen j := by rwa [IsOpen, hsame j hji] at hj'
    rw [if_neg hji, List.append_nil, hsame j hji]
    have hne := h.tuple_ne ht ht' hji (hsame j hji) hj
    cases o with
    | none => exact hhas j hj
    | some s =>
      rw [receive_of_ne (hne s rfl)]
      exact hhas j hj

end Tcp

/-! ### Steps -/

variable (host : Host η)

/-- What `recv` returns in a poll of socket `i`, if it is called. -/
def Host.polls (l : Lan η) (i : Slot) : List Byte :=
  if (l.net.tcpSockets i).ackWait > 0 then [] else (host.received i l).1.getD []

/-- What the host gives in a step for socket `j`. -/
def Host.gives (l : Lan η) : SocketStep η → Slot → List Byte
  | .checkTcp i, j => if j = i ∧ l.Polled i then host.polls l i else []
  | _, _ => []

section Transmit

variable {l : Lan η} (hl : l.Idle) {tx : ℕ → Byte}

include hl

theorem segment_transmit_of_syn {i : Slot} {fd : ℕ} (h : SynAccepted host l tx i fd)
    (txLen : Word) :
    (outcome (netTxFrame host tx txLen) l).2.segment =
      some { l.tcp.segment i flagsSynAck [] with tuple := tcpTuple tx } := by
  have hsyn := segment_netTcpSyn_of_accepts host (l := l.reading ([0x0C, 0x0D, 0x17] ++ tcpHeader))
    hl h.free h.accepts (tcpSeq tx)
  rw [outcome_netTxFrame_tcp host h.frame, netTcpDispatch, if_pos h.flags, hsyn, tcp_reading]

/-- A segment for a connection is answered as the connections say. -/
theorem segment_transmit_of_segment {i : Slot} (h : SegmentFor l tx i) (txLen : Word) :
    (outcome (netTxFrame host tx txLen) l).2.segment =
      l.tcp.answered i (tcpFlags tx) (host.takes tx (tcpRange tx) i l) := by
  have haddress : (l.net.tcpSockets i).dstIp = txLong tx 0x1E :=
    congrArg (fun tuple : Tuple => tuple.2.2) (findTcp_eq_some h.found).2
  -- reading the headers is no step of the connection
  have happly := segment_netTcpApply host tx (txWord tx 0x10) (tx 0x2E >>> 4) (tcpFlags tx)
    (tcpSeq tx) (l := l.reading ([0x0C, 0x0D, 0x17] ++ tcpHeader)) ⟨hl, haddress⟩
  rw [outcome_netTxFrame_tcp host h.frame, netTcpDispatch, if_neg h.flags, outcome_bind,
    outcome_getNet]
  dsimp only
  rw [net_reading, h.found]
  dsimp only
  rw [happly, tcp_reading]
  rfl

/-- Any other frame is not answered by a segment. -/
theorem segment_transmit_of_not (hsyn : ∀ i fd, ¬ SynAccepted host l tx i fd)
    (hsegment : ∀ i, ¬ SegmentFor l tx i) (txLen : Word) :
    (outcome (netTxFrame host tx txLen) l).2.segment = none := by
  by_cases hframe : IsTcpFrame tx
  · rw [outcome_netTxFrame_tcp host hframe, netTcpDispatch]
    by_cases hflags : tcpFlags tx = flagsSyn
    · rw [if_pos hflags]
      refine segment_netTcpSyn_of_not host
        (l := l.reading ([0x0C, 0x0D, 0x17] ++ tcpHeader)) hl ?_ (tcpSeq tx)
      -- a SYN that is refused opens no socket
      by_contra hnot
      obtain ⟨hfree, haccepts⟩ := not_or.mp hnot
      obtain ⟨i, hi⟩ := Option.ne_none_iff_exists'.mp hfree
      obtain ⟨fd, hfd⟩ := Option.ne_none_iff_exists'.mp haccepts
      exact hsyn i fd ⟨hframe, hflags, hi, hfd⟩
    · rw [if_neg hflags, outcome_bind, outcome_getNet]
      dsimp only
      rw [net_reading]
      cases hfound : l.net.findTcp (tcpTuple tx) with
      | none => exact hl.segment
      | some i => exact absurd ⟨hframe, hflags, hfound⟩ (hsegment i)
  · exact mute_netTxFrame host hframe txLen l hl

end Transmit

/-- The step is about one socket, which emits a segment or none. -/
def Emission (l : Lan η) (s : SocketStep η) (i : Slot) : Prop :=
  (∀ j, j ≠ i → (socketAfter host l s).tcp.sockets j = l.tcp.sockets j ∧ host.gives l s j = []) ∧
    l.tcp.Emits (socketAfter host l s).tcp i (socketAfter host l s).segment (host.gives l s i)

/-- A step that does not touch the connections. -/
theorem emission_of_eq {l : Lan η} {s : SocketStep η}
    (htcp : (socketAfter host l s).tcp.sockets = l.tcp.sockets)
    (hsegment : (socketAfter host l s).segment = none) (hgives : ∀ i, host.gives l s i = []) :
    Emission host l s 0 := by
  refine ⟨fun j _ => ⟨congrFun htcp j, hgives j⟩, ?_⟩
  rw [hsegment, hgives]
  refine .silent (.of_eq ?_ ?_ ?_) <;> rw [htcp]
  exact (BitVec.add_zero _).symm

/-- A datagram from the host is no segment. -/
theorem segment_netPollUdp {l : Lan η} (hl : l.Idle) (i : Slot) :
    (outcome (netPollUdp host [i]) l).2.segment = none := by
  have hpoll : Mute (netPollUdp host [i]) := by
    unfold netPollUdp netPoll
    refine triple_getNet fun n => .ite (fun _ => ?_) fun _ => ?_
    · exact .ret fun _ h => h.1.segment
    · refine .pre (S := Lan.Idle) (fun _ h => h.1) ?_
      refine .bind (Q := fun _ l => l.segment = none) (.ite (fun _ => ?_) fun _ => ?_) fun _ => ?_
      · exact mute_netCheckUdpSocket host i
      · exact .ret fun _ h => h.segment
      · exact .ret fun _ h => h
  exact hpoll l hl

/-- A frame of the guest has one segment at most, of one socket. -/
theorem emission_transmit {l : Lan η} (hl : l.Idle) (tx : ℕ → Byte) (txLen : Word) :
    ∃ i, Emission host l (.transmit tx txLen) i := by
  have hafter : socketAfter host l (.transmit tx txLen) =
    (outcome (netTxFrame host tx txLen) l).2 := rfl
  -- a SYN that is accepted, a segment for a connection, and anything else
  by_cases hsyn : ∃ i fd, SynAccepted host l tx i fd
  · obtain ⟨i, fd, h⟩ := hsyn
    have htcp := tcp_transmit_of_syn host h txLen
    refine ⟨i, fun j hj => ⟨?_, rfl⟩, ?_⟩ <;> rw [hafter, htcp]
    · exact Tcp.sockets_accept_of_ne hj _ _ _ _
    · rw [segment_transmit_of_syn host hl h txLen]
      exact Tcp.emits_accept (not_isOpen_of_accepted host h) fd _ _
  by_cases hsegment : ∃ i, SegmentFor l tx i
  · obtain ⟨i, h⟩ := hsegment
    have hopen : l.tcp.IsOpen i := (findTcp_eq_some h.found).1
    have htcp := tcp_transmit_of_segment host h txLen
    refine ⟨i, fun j hj => ⟨?_, rfl⟩, ?_⟩ <;> rw [hafter, htcp]
    · exact Tcp.sockets_apply_of_ne hj _ _ _ _ _
    · rw [segment_transmit_of_segment host hl h txLen]
      exact Tcp.emits_apply hopen _ _ _ _
  have hsyn' : ∀ i fd, ¬ SynAccepted host l tx i fd := fun i fd h => hsyn ⟨i, fd, h⟩
  have hsegment' : ∀ i, ¬ SegmentFor l tx i := fun i h => hsegment ⟨i, h⟩
  have hnone := segment_transmit_of_not host hl hsyn' hsegment' txLen
  rcases tcp_transmit_cases host l tx txLen with ⟨i, fd, h, -⟩ | ⟨i, h, -⟩ |
    ⟨-, htcp | ⟨i, hfree, htcp⟩⟩
  · exact absurd h (hsyn' i fd)
  · exact absurd h (hsegment' i)
  · exact ⟨0, emission_of_eq host (congrArg Tcp.sockets htcp) hnone fun _ => rfl⟩
  · -- a socket that the host has not accepted stays free
    refine ⟨i, fun j hj => ⟨?_, rfl⟩, ?_⟩ <;> rw [hafter, htcp]
    · exact Tcp.sockets_close_of_ne hj _
    · rw [hnone]
      refine .silent (.of_closed (fun hopen => hopen ?_) 0)
      rw [Tcp.sockets_close_self]

/-- So has the poll of a socket. -/
theorem emission_checkTcp {l : Lan η} (hl : l.Idle) (i : Slot) :
    ∃ j, Emission host l (.checkTcp i) j := by
  have hafter := socketAfter_checkTcp host l i
  -- a socket that is not polled gives nothing
  by_cases h : l.Polled i
  · rw [if_pos h] at hafter
    refine ⟨i, fun j hj => ⟨?_, if_neg fun hji => hj hji.1⟩, ?_⟩
    · rw [hafter, tcp_netCheckTcpSocket, Tcp.sockets_check_of_ne hj]
    · have hgives : host.gives l (.checkTcp i) i = host.polls l i := if_pos ⟨rfl, h⟩
      rw [hafter, hgives, tcp_netCheckTcpSocket, segment_netCheckTcpSocket host i hl]
      have hopen : l.tcp.IsOpen i := h.2
      exact Tcp.emits_check hopen _ _
  · rw [if_neg h] at hafter
    refine ⟨0, emission_of_eq host (by rw [hafter]) ?_ fun j => if_neg fun hji => h hji.2⟩
    rw [hafter]
    exact hl.segment

/-- **A step of an idle network emits at most one segment.** -/
theorem socketAfter_emits {l : Lan η} (hl : l.Idle) (s : SocketStep η) :
    ∃ i, Emission host l s i := by
  cases s with
  | transmit tx txLen => exact emission_transmit host hl tx txLen
  | checkUdp i =>
    -- the sockets of UDP do not speak TCP
    have htcp : (socketAfter host l (.checkUdp i)).tcp = l.tcp := by
      change (outcome (netPollUdp host [i]) l).2.tcp = l.tcp
      unfold netPollUdp
      exact tcp_of_generated inferInstance l
    exact ⟨0, emission_of_eq host (congrArg Tcp.sockets htcp) (segment_netPollUdp host hl i)
      fun _ => rfl⟩
  | checkTcp i => exact emission_checkTcp host hl i
  | taken => exact ⟨0, emission_of_eq host rfl (Lan.Idle.segment rfl) fun _ => rfl⟩
  | other h => exact ⟨0, emission_of_eq host rfl hl.segment fun _ => rfl⟩

/-- A pending frame stays until it is taken. -/
theorem socketAfter_of_pending {l : Lan η} (hl : l.net.rxReady = true) {s : SocketStep η}
    (htransmit : ∀ tx txLen, s ≠ .transmit tx txLen) (htaken : s ≠ .taken) :
    (socketAfter host l s).net = l.net ∧ (socketAfter host l s).tcp = l.tcp ∧
      ∀ i, host.gives l s i = [] := by
  cases s with
  | transmit tx txLen => exact absurd rfl (htransmit tx txLen)
  | checkUdp i =>
    have hsame : socketAfter host l (.checkUdp i) = l := outcome_netPoll_of_ready _ _ hl [i]
    rw [hsame]
    exact ⟨rfl, rfl, fun _ => rfl⟩
  | checkTcp i =>
    -- the loop over the sockets stops at a pending frame
    have hnot : ¬ l.Polled i := fun h => absurd (h.1.symm.trans hl) Bool.false_ne_true
    rw [socketAfter_checkTcp, if_neg hnot]
    exact ⟨rfl, rfl, fun j => if_neg fun h => hnot h.2⟩
  | taken => exact absurd rfl htaken
  | other h => exact ⟨rfl, rfl, fun _ => rfl⟩

/-! ### Runs of the network -/

/-- The network, and what the host has given on each open connection. -/
structure Served (η : Type) where
  lan : Lan η
  given : Slot → List Byte

def servedAfter (v : Served η) (s : SocketStep η) : Served η where
  lan := socketAfter host v.lan s
  given i :=
    if (socketAfter host v.lan s).tcp.IsOpen i then v.given i ++ host.gives v.lan s i else []

/-- And what a guest has that has read every frame which the card has taken. -/
structure Ends (η : Type) extends Served η where
  guest : Guest

/-- The two ends after a step. One more frame is there to be read when the card takes it. -/
def endsAfter (e : Ends η) (s : SocketStep η) : Ends η where
  toServed := servedAfter host e.toServed s
  guest :=
    match s with
    | .taken => e.guest.receive e.lan.segment
    | _ => e.guest

theorem toServed_endsAfter (e : Ends η) (steps : List (SocketStep η)) :
    (runAll (endsAfter host) e steps).toServed = runAll (servedAfter host) e.toServed steps := by
  induction steps generalizing e with
  | nil => rfl
  | cons s steps ih => exact ih _

/-- As long as the card takes no frame, there is none to be read. -/
theorem guest_endsAfter (e : Ends η) {steps : List (SocketStep η)} (h : .taken ∉ steps) :
    (runAll (endsAfter host) e steps).guest = e.guest := by
  induction steps generalizing e with
  | nil => rfl
  | cons s steps ih =>
    rw [List.mem_cons, not_or] at h
    refine (ih _ h.2).trans ?_
    cases s with
    | taken => exact absurd rfl h.1
    | _ => rfl

theorem lan_endsAfter (e : Ends η) (steps : List (SocketStep η)) :
    (runAll (endsAfter host) e steps).lan = runAll (socketAfter host) e.lan steps := by
  induction steps generalizing e with
  | nil => rfl
  | cons s steps ih => exact ih _

/-- **The invariant of the two ends.** -/
structure Ends.Delivered (e : Ends η) : Prop where
  routed : e.lan.tcp.Routed
  /-- Once the pending frame is taken, the guest has what the host has given. -/
  has : e.lan.tcp.Has (e.guest.receive e.lan.segment) e.given
  free : ∀ i, ¬ e.lan.tcp.IsOpen i → e.given i = []

/-- A frame is transmitted while none is pending, and it is no SYN for ends that an open socket
has. -/
def Ends.Orderly (e : Ends η) : SocketStep η → Prop
  | .transmit tx txLen => e.lan.Idle ∧ SynFresh host e.lan (.transmit tx txLen)
  | _ => True

/-- Routing is kept as long as no SYN is for ends that an open socket has. -/
theorem routed_socketAfter {l : Lan η} (h : l.tcp.Routed) {s : SocketStep η}
    (hs : ∀ tx txLen, s = .transmit tx txLen → SynFresh host l (.transmit tx txLen)) :
    (socketAfter host l s).tcp.Routed := by
  cases s with
  | transmit tx txLen => exact routed_lanAfter host h (hs tx txLen rfl)
  | checkUdp i =>
    have htcp : (outcome (netPollUdp host [i]) l).2.tcp = l.tcp := by
      unfold netPollUdp
      exact tcp_of_generated inferInstance l
    change (outcome (netPollUdp host [i]) l).2.tcp.Routed
    rwa [htcp]
  | checkTcp i =>
    rw [socketAfter_checkTcp]
    split
    case isTrue hpolled =>
      -- a poll takes plain steps, which open no connection
      have hopen : l.tcp.IsOpen i := hpolled.2
      rw [tcp_netCheckTcpSocket]
      exact run_invariant (fun hstep ht => ht.plain hstep) (Tcp.plain_check hopen _ _) h
    case isFalse => exact h
  | taken => exact h
  | other h' => exact h

/-- The bytes that are given to open sockets are all that there are. -/
theorem has_given {t : Tcp} {g : Guest} {given : Slot → List Byte} (h : t.Has g given) :
    t.Has g fun i => if t.IsOpen i then given i else [] := by
  intro i hi
  dsimp only
  rw [if_pos hi]
  exact h i hi

/-- While no frame is pending, a step may build one. -/
theorem has_of_idle {e : Ends η} (h : e.Delivered) (hidle : e.lan.Idle) {s : SocketStep η}
    (hrouted : (socketAfter host e.lan s).tcp.Routed) :
    (socketAfter host e.lan s).tcp.Has (e.guest.receive (socketAfter host e.lan s).segment)
      fun i => e.given i ++ host.gives e.lan s i := by
  obtain ⟨i, hothers, hemits⟩ := socketAfter_emits host hidle s
  -- only one socket gives bytes
  have hgives : (fun j => e.given j ++ host.gives e.lan s j) =
      fun j => e.given j ++ if j = i then host.gives e.lan s i else [] := by
    funext j
    by_cases hji : j = i
    · rw [if_pos hji, hji]
    · rw [if_neg hji, (hothers j hji).2]
  have hhas := h.has
  rw [hidle.segment] at hhas
  rw [hgives]
  exact hemits.has h.routed.unambiguous hrouted.unambiguous (fun j hj => (hothers j hj).1) hhas
    h.free

/-- While a frame is pending, the steps other than a transmission leave the connections alone, and
the guest reads the frame when it is taken. -/
theorem has_of_pending {e : Ends η} (h : e.Delivered) (hready : e.lan.net.rxReady = true)
    {s : SocketStep η} (htransmit : ∀ tx txLen, s ≠ .transmit tx txLen) :
    (socketAfter host e.lan s).tcp.Has
      ((endsAfter host e s).guest.receive (socketAfter host e.lan s).segment)
      fun i => e.given i ++ host.gives e.lan s i := by
  -- the loops over the sockets stop at a pending frame, so that nothing else is sent
  have hkept : s ≠ .taken → (endsAfter host e s).guest = e.guest →
      (socketAfter host e.lan s).tcp.Has
        ((endsAfter host e s).guest.receive (socketAfter host e.lan s).segment)
        fun i => e.given i ++ host.gives e.lan s i := by
    intro htaken hguest
    obtain ⟨hnet, htcp, hgives⟩ := socketAfter_of_pending host hready htransmit htaken
    have hsegment : (socketAfter host e.lan s).segment = e.lan.segment := by
      rw [Lan.segment, hnet]
      rfl
    rw [hsegment, htcp, hguest]
    simp only [hgives, List.append_nil]
    exact h.has
  cases s with
  | transmit tx txLen => exact absurd rfl (htransmit tx txLen)
  | taken =>
    have hnone : (socketAfter host e.lan .taken).segment = none := Lan.Idle.segment rfl
    rw [hnone]
    intro i hi
    refine (h.has i hi).trans ?_
    rw [← List.append_nil (e.given i)]
    rfl
  | checkUdp i => exact hkept (fun heq => by cases heq) rfl
  | checkTcp i => exact hkept (fun heq => by cases heq) rfl
  | other h' => exact hkept (fun heq => by cases heq) rfl

/-- **A step keeps the invariant.** -/
theorem delivered_endsAfter {e : Ends η} (h : e.Delivered) {s : SocketStep η}
    (hs : e.Orderly host s) : (endsAfter host e s).Delivered := by
  have hrouted : (socketAfter host e.lan s).tcp.Routed := by
    refine routed_socketAfter host h.routed ?_
    rintro tx txLen rfl
    exact hs.2
  have hhas : (socketAfter host e.lan s).tcp.Has
      ((endsAfter host e s).guest.receive (socketAfter host e.lan s).segment)
      fun i => e.given i ++ host.gives e.lan s i := by
    -- a frame that is pending has been counted when it was built
    cases hready : e.lan.net.rxReady with
    | false =>
      have hidle : e.lan.Idle := hready
      have hguest : (endsAfter host e s).guest = e.guest := by
        cases s with
        | taken => exact congrArg e.guest.receive hidle.segment
        | _ => rfl
      rw [hguest]
      exact has_of_idle host h hidle hrouted
    | true =>
      refine has_of_pending host h hready ?_
      rintro tx txLen rfl
      exact absurd (hs.1.symm.trans hready) Bool.false_ne_true
  exact ⟨hrouted, has_given hhas, fun i hi => if_neg hi⟩

end Pc20iii
