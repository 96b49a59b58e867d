import Pc20iii.Net.Tcp

/-!
# The sequence numbers of the segments

`send_seq` is advanced in three functions after a segment has been emitted, and set back in
the one that closes a socket. This file shows that the numbers of the segments that the
guest gets are contiguous all the same, over every run of the network.

* `Numbered`: what the claim says about one segment, by the events before it.
* `Live`: for an open socket, `send_seq` is the number of the next segment, and
  `fin_ack_sent` says whether a FIN has been emitted.
* `Sequenced`: the invariant. A free socket has its initial number, an open one is live,
  and every segment so far is numbered.
-/

namespace Pc20iii

open StateProgram

/-! ### Events of a connection -/

namespace NetEvent

/-- The event opens a connection in socket `i`. -/
def opens (i : Slot) : NetEvent → Bool
  | .opened j _ _ => j = i
  | _ => false

/-- The event is a segment of socket `i`. -/
def isSegment (i : Slot) : NetEvent → Bool
  | .segment j .. => j = i
  | _ => false

/-- The event is a segment of socket `i` with a FIN. -/
def isFin (i : Slot) : NetEvent → Bool
  | .segment j _ _ flags _ => j = i ∧ flags = flagsFinAck
  | _ => false

/-- The bytes of payload, if the event is a data segment of socket `i`. -/
def payload (i : Slot) : NetEvent → ℕ
  | .segment j _ _ flags len => if j = i ∧ flags = flagsPshAck then len else 0
  | _ => 0

end NetEvent

/-- The events since the last connection in socket `i` was opened. -/
def connection (i : Slot) (events : List NetEvent) : List NetEvent :=
  events.takeWhile fun e => !e.opens i

/-- The payload of the data segments of a connection. -/
def payloadSent (i : Slot) (events : List NetEvent) : ℕ :=
  ((connection i events).map (NetEvent.payload i)).sum

/-- A FIN has been emitted on a connection. -/
def finSent (i : Slot) (events : List NetEvent) : Bool :=
  (connection i events).any (NetEvent.isFin i)

/-- The number of the next segment after the SYN+ACK: the initial number and 1, plus the
payload of the data segments, plus 1 if a FIN has been emitted. -/
def nextSeq (i : Slot) (events : List NetEvent) : BitVec 32 :=
  initialSeq i + 1 + BitVec.ofNat 32 (payloadSent i events) + if finSent i events then 1 else 0

/-- A segment carries the right number, given the events before it. -/
structure Numbered (i : Slot) (seq : BitVec 32) (flags : Byte) (len : ℕ)
    (older : List NetEvent) : Prop where
  /-- The segment belongs to a connection that has been opened and not closed. -/
  opened : ∃ tuple recvSeq, .opened i tuple recvSeq ∈ older
  notClosed : .closed i ∉ connection i older
  /-- The SYN+ACK is the first segment and carries the initial number. -/
  syn : flags = flagsSynAck →
    seq = initialSeq i ∧ ∀ e ∈ connection i older, e.isSegment i = false
  /-- Every later segment carries the next number. -/
  later : flags ≠ flagsSynAck → seq = nextSeq i older
  /-- Only data segments have a payload. -/
  payload : flags ≠ flagsPshAck → len = 0

/-- What an event does to the events of a connection, if it does not open one. -/
theorem connection_cons {i : Slot} {e : NetEvent} (h : e.opens i = false)
    (events : List NetEvent) : connection i (e :: events) = e :: connection i events := by
  rw [connection, List.takeWhile_cons_of_pos (by rw [h]; rfl)]
  rfl

theorem connection_opened (i : Slot) (tuple : Tuple) (recvSeq : BitVec 32)
    (events : List NetEvent) : connection i (.opened i tuple recvSeq :: events) = [] := by
  rw [connection, List.takeWhile_cons_of_neg]
  simp [NetEvent.opens]

theorem nextSeq_cons {i : Slot} {e : NetEvent} (h : e.opens i = false) (events : List NetEvent) :
    nextSeq i (e :: events) = initialSeq i + 1 +
      BitVec.ofNat 32 (e.payload i + payloadSent i events) +
        if e.isFin i || finSent i events then 1 else 0 := by
  rw [nextSeq, payloadSent, finSent, connection_cons h, List.map_cons, List.sum_cons,
    List.any_cons]
  rfl

namespace Tcp

/-! ### The invariant -/

/-- An open socket: its connection, the number of its next segment, and the FIN. -/
structure Live (t : Tcp) (i : Slot) : Prop where
  opened : ∃ tuple recvSeq, .opened i tuple recvSeq ∈ t.events
  notClosed : .closed i ∉ connection i t.events
  sendSeq : (t.sockets i).sendSeq = nextSeq i t.events
  finSent : finSent i t.events = (t.sockets i).finAckSent

/-- **The invariant of the sequence numbers.** -/
structure Sequenced (t : Tcp) : Prop where
  free : ∀ i, ¬ t.IsOpen i → (t.sockets i).sendSeq = initialSeq i
  live : ∀ i, t.IsOpen i → t.Live i
  numbered : ∀ i seq ack flags len older, .segment i seq ack flags len :: older <:+ t.events →
    Numbered i seq flags len older

/-- The event has no part in the connections of socket `i`. -/
structure Neutral (i : Slot) (e : NetEvent) : Prop where
  opens : e.opens i = false
  closed : e ≠ .closed i
  payload : e.payload i = 0
  isFin : e.isFin i = false

/-- What is about another socket is neutral. -/
theorem Neutral.of_ne {i j : Slot} (hij : j ≠ i) {e : NetEvent}
    (he : (∃ tuple recvSeq, e = .opened i tuple recvSeq) ∨ e = .closed i ∨
      ∃ seq ack flags len, e = .segment i seq ack flags len) : Neutral j e := by
  rcases he with ⟨tuple, recvSeq, rfl⟩ | rfl | ⟨seq, ack, flags, len, rfl⟩
  · exact ⟨by simp [NetEvent.opens, hij.symm], nofun, rfl, rfl⟩
  · exact ⟨rfl, fun h => hij.symm (by injection h), rfl, rfl⟩
  · exact ⟨rfl, nofun, by simp [NetEvent.payload, hij.symm], by simp [NetEvent.isFin, hij.symm]⟩

/-- An event that is not about the connection leaves it live, whatever else the step changes. -/
theorem Live.neutral {t t' : Tcp} {i : Slot} {e : NetEvent} (h : t.Live i) (he : Neutral i e)
    (hevents : t'.events = e :: t.events)
    (hseq : (t'.sockets i).sendSeq = (t.sockets i).sendSeq)
    (hfin : (t'.sockets i).finAckSent = (t.sockets i).finAckSent) : t'.Live i where
  opened := by
    obtain ⟨tuple, recvSeq, hmem⟩ := h.opened
    exact ⟨tuple, recvSeq, hevents ▸ List.mem_cons_of_mem e hmem⟩
  notClosed := by
    rw [hevents, connection_cons he.opens, List.mem_cons, not_or]
    exact ⟨he.closed.symm, h.notClosed⟩
  -- the event neither opens, closes nor sends
  sendSeq := by
    rw [hseq, h.sendSeq, hevents, nextSeq_cons he.opens, he.payload, he.isFin, Nat.zero_add,
      Bool.false_or]
    rfl
  finSent := by
    rw [hfin, ← h.finSent, hevents, Pc20iii.finSent, connection_cons he.opens, List.any_cons,
      he.isFin, Bool.false_or]
    rfl

/-- A step that records one event keeps the invariant, if it does so for the socket that the
event is about. -/
theorem Sequenced.next {t t' : Tcp} (h : t.Sequenced) {e : NetEvent} {i : Slot}
    (hevents : t'.events = e :: t.events)
    (hothers : ∀ j, j ≠ i → t'.sockets j = t.sockets j ∧ Neutral j e)
    (hfree : ¬ t'.IsOpen i → (t'.sockets i).sendSeq = initialSeq i)
    (hlive : t'.IsOpen i → t'.Live i)
    (hnumbered : ∀ j seq ack flags len, e = .segment j seq ack flags len →
      Numbered j seq flags len t.events) : t'.Sequenced where
  free j hj := by
    rcases eq_or_ne j i with rfl | hji
    · exact hfree hj
    · rw [IsOpen, (hothers j hji).1] at hj
      rw [(hothers j hji).1]
      exact h.free j hj
  live j hj := by
    rcases eq_or_ne j i with rfl | hji
    · exact hlive hj
    · obtain ⟨hsocket, hneutral⟩ := hothers j hji
      rw [IsOpen, hsocket] at hj
      exact (h.live j hj).neutral hneutral hevents (by rw [hsocket]) (by rw [hsocket])
  numbered j seq ack flags len older hsuffix := by
    rw [hevents, List.suffix_cons_iff] at hsuffix
    rcases hsuffix with heq | hsuffix
    -- the event of this step
    · injection heq with he hes
      rw [hes]
      exact hnumbered j seq ack flags len he.symm
    -- an earlier one
    · exact h.numbered j seq ack flags len older hsuffix

/-- A step that records no event. -/
theorem Sequenced.modify {t : Tcp} (h : t.Sequenced) {i : Slot}
    {f : NetTcpSocket → NetTcpSocket} (hfd : ∀ s, (f s).fd = s.fd)
    (hseq : ∀ s, (f s).sendSeq = s.sendSeq) (hfin : ∀ s, (f s).finAckSent = s.finAckSent) :
    (t.modify i f).Sequenced := by
  have hfd' := fun j => sockets_modify_congr hfd i j t
  have hseq' := fun j => sockets_modify_congr hseq i j t
  have hfin' := fun j => sockets_modify_congr hfin i j t
  refine ⟨fun j hj => ?_, fun j hj => ?_, h.numbered⟩ <;> rw [IsOpen, hfd'] at hj
  · exact (hseq' j).trans (h.free j hj)
  · obtain ⟨hopened, hnotClosed, hsend, hfinSent⟩ := h.live j hj
    exact ⟨hopened, hnotClosed, (hseq' j).trans hsend, hfinSent.trans (hfin' j).symm⟩

/-! ### Steps -/

/-- A segment of an open socket. Its number is the next one, and it advances the number by
its payload and its FIN. -/
theorem Sequenced.segment {t t' : Tcp} (h : t.Sequenced) {i : Slot} (hopen : t.IsOpen i)
    {ack : BitVec 32} {flags : Byte} {len : ℕ} (hsyn : flags ≠ flagsSynAck)
    (hlen : flags ≠ flagsPshAck → len = 0)
    (hevents : t'.events = .segment i (t.sockets i).sendSeq ack flags len :: t.events)
    (hothers : ∀ j, j ≠ i → t'.sockets j = t.sockets j)
    (hfin : flags = flagsFinAck → (t.sockets i).finAckSent = false)
    (hfin' : (t'.sockets i).finAckSent = (decide (flags = flagsFinAck) || (t.sockets i).finAckSent))
    (hfd : (t'.sockets i).fd = (t.sockets i).fd)
    (hseq : (t'.sockets i).sendSeq = (t.sockets i).sendSeq + BitVec.ofNat 32 len +
      if flags = flagsFinAck then 1 else 0) : t'.Sequenced := by
  have hlive := h.live i hopen
  refine h.next hevents (fun j hj => ⟨hothers j hj, .of_ne hj (.inr (.inr ⟨_, _, _, _, rfl⟩))⟩)
    (fun hfree => absurd hopen (by rwa [IsOpen, hfd] at hfree)) (fun _ => ?_) ?_
  -- only data segments have a payload
  · have hpayload : (NetEvent.segment i (t.sockets i).sendSeq ack flags len).payload i = len := by
      by_cases hpsh : flags = flagsPshAck
      · simp [NetEvent.payload, hpsh]
      · simp [NetEvent.payload, hlen hpsh]
    have hisFin : (NetEvent.segment i (t.sockets i).sendSeq ack flags len).isFin i =
        decide (flags = flagsFinAck) := by
      simp [NetEvent.isFin]
    refine ⟨?_, ?_, ?_, ?_⟩
    · obtain ⟨tuple, recvSeq, hmem⟩ := hlive.opened
      exact ⟨tuple, recvSeq, hevents ▸ List.mem_cons_of_mem _ hmem⟩
    · rw [hevents, connection_cons rfl, List.mem_cons, not_or]
      refine ⟨fun hclosed => ?_, hlive.notClosed⟩
      cases hclosed
    · -- a FIN is sent once, so that its number counts once
      rw [hseq, hlive.sendSeq, hevents, nextSeq_cons rfl, hpayload, hisFin, BitVec.ofNat_add,
        nextSeq, hlive.finSent]
      by_cases hflags : flags = flagsFinAck
      · rw [hfin hflags, hflags]
        simp only [decide_true, Bool.true_or, if_true, if_neg Bool.false_ne_true]
        ac_rfl
      · simp only [hflags, decide_false, Bool.false_or, if_false]
        ac_rfl
    · rw [hfin', hevents, Pc20iii.finSent, connection_cons rfl, List.any_cons, hisFin]
      rw [← hlive.finSent]
      rfl
  · rintro j seq ack' flags' len' ⟨⟩
    exact ⟨hlive.opened, hlive.notClosed, fun hs => absurd hs hsyn, fun _ => hlive.sendSeq, hlen⟩

/-- An event that is neither a segment nor a change of a connection. -/
theorem Sequenced.record {t : Tcp} (h : t.Sequenced) {e : NetEvent}
    (he : (∃ i tuple, e = .applied i tuple) ∨
      ∃ i seq start len taken, e = .send i seq start len taken) :
    (t.record e).Sequenced := by
  have hneutral : ∀ i, Neutral i e := by
    rcases he with ⟨i, tuple, rfl⟩ | ⟨i, seq, start, len, taken, rfl⟩ <;>
      exact fun j => ⟨rfl, nofun, rfl, rfl⟩
  refine h.next (i := 0) rfl (fun j _ => ⟨rfl, hneutral j⟩) (h.free 0)
    (fun hopen => (h.live 0 hopen).neutral (hneutral 0) rfl rfl rfl) ?_
  rcases he with ⟨i, tuple, rfl⟩ | ⟨i, seq, start, len, taken, rfl⟩ <;> nofun

/-- A segment that does not advance the number. -/
theorem Sequenced.emit {t : Tcp} (h : t.Sequenced) {i : Slot} (hopen : t.IsOpen i) {flags : Byte}
    (hflags : flags = flagsAck ∨ flags = flagsRstAck) : (t.emit 0 i flags 0).Sequenced := by
  have hfin : flags ≠ flagsFinAck := by rcases hflags with rfl | rfl <;> decide
  refine h.segment hopen ?_ (fun _ => rfl) rfl (fun j hj => sockets_emit_of_ne hj ..)
    (fun hf => absurd hf hfin) ?_ ?_ ?_
  · rcases hflags with rfl | rfl <;> decide
  all_goals simp [hfin]

theorem Sequenced.close {t : Tcp} (h : t.Sequenced) (i : Slot) : (t.close i).Sequenced := by
  refine h.next (i := i) rfl
    (fun j hj => ⟨sockets_close_of_ne hj t, .of_ne hj (.inr (.inl rfl))⟩) (fun _ => ?_)
    (fun hopen => absurd ?_ hopen) nofun
  all_goals rw [sockets_close_self]

/-- A SYN that the host accepts. -/
theorem Sequenced.accept {t : Tcp} (h : t.Sequenced) {i : Slot} (hfree : ¬ t.IsOpen i) (fd : ℕ)
    (tuple : Tuple) (recvSeq : BitVec 32) : (t.accept i fd tuple recvSeq).Sequenced := by
  -- the connection is opened while the socket is still free
  have hopened : (t.record (.opened i tuple recvSeq)).Sequenced :=
    h.next (i := i) rfl (fun j hj => ⟨rfl, .of_ne hj (.inl ⟨_, _, rfl⟩)⟩)
      (fun _ => h.free i hfree) (fun hopen => absurd hopen hfree) fun j seq ack flags len h => by
        cases h
  have hevents := events_accept i fd tuple recvSeq t
  have hseq := h.free i hfree
  refine hopened.next (i := i) hevents
    (fun j hj => ⟨sockets_accept_of_ne hj .., .of_ne hj (.inr (.inr ⟨_, _, _, _, rfl⟩))⟩)
    (fun hfree' => absurd ?_ hfree') (fun _ => ⟨⟨tuple, recvSeq, ?_⟩, ?_, ?_, ?_⟩) ?_
  · rw [IsOpen, sockets_accept_self]
    exact fun hfd : (fd : ℤ) = -1 => by omega
  · rw [hevents]
    exact List.mem_cons_of_mem _ List.mem_cons_self
  · rw [hevents, connection_cons rfl, connection_opened]
    intro hmem
    have hclosed := List.mem_singleton.mp hmem
    cases hclosed
  · rw [sockets_accept_self, hevents, nextSeq_cons rfl, payloadSent, finSent, connection_opened,
      hseq]
    simp [NetEvent.payload, NetEvent.isFin, show flagsSynAck ≠ flagsPshAck by decide,
      show flagsSynAck ≠ flagsFinAck by decide]
  · rw [sockets_accept_self, hevents, Pc20iii.finSent, connection_cons rfl, connection_opened]
    simp [NetEvent.isFin, show flagsSynAck ≠ flagsFinAck by decide]
  · rintro j seq ack flags len ⟨⟩
    have hnone : connection i (t.record (.opened i tuple recvSeq)).events = [] :=
      connection_opened i tuple recvSeq t.events
    refine ⟨⟨tuple, recvSeq, List.mem_cons_self⟩, ?_, fun _ => ⟨hseq, ?_⟩, fun hs => absurd rfl hs,
      fun _ => rfl⟩
    · rw [hnone]
      exact List.not_mem_nil
    · rw [hnone]
      exact List.forall_mem_nil _

/-- Data that the host takes. -/
theorem Sequenced.deliver {t : Tcp} (h : t.Sequenced) {i : Slot} (hopen : t.IsOpen i)
    (seq : BitVec 32) (start len taken : ℕ) : (t.deliver i seq start len taken).Sequenced := by
  have hsend := h.record (.inr ⟨i, seq, start, len, some taken, rfl⟩)
  refine Sequenced.emit (Sequenced.modify hsend ?_ ?_ ?_) ?_ (.inl rfl)
  · exact fun _ => rfl
  · exact fun _ => rfl
  · exact fun _ => rfl
  · rw [IsOpen, sockets_modify_self]
    exact hopen

/-- The operations keep the invariant. -/
theorem Sequenced.plain {t t' : Tcp} (h : t.Sequenced) (hstep : Plain t t') : t'.Sequenced := by
  cases hstep with
  | timer i f hf => exact h.modify hf.fd hf.sendSeq hf.finAckSent
  | applied i hopen => exact h.record (.inl ⟨i, _, rfl⟩)
  | refused i seq start len => exact h.record (.inr ⟨i, seq, start, len, none, rfl⟩)
  | finished i hopen hfin =>
    refine h.segment hopen (by decide) (fun _ => rfl) rfl (fun j hj => ?_) (fun _ => hfin) ?_ ?_ ?_
    · rw [sockets_modify_of_ne hj, sockets_emit_of_ne hj]
    -- a FIN counts as one byte
    all_goals simp
  | data i hopen len =>
    refine h.segment hopen (by decide) (fun hpsh => absurd rfl hpsh) rfl
      (fun j hj => sockets_emit_of_ne hj ..) (fun hf => absurd hf (by decide)) ?_ ?_ ?_
    all_goals simp [show flagsPshAck ≠ flagsFinAck by decide]
  | closed i => exact h.close i
  | shut i hopen flags hflags => exact (h.emit hopen hflags).close i

end Tcp

/-! ### Runs -/

variable {η : Type} (host : Host η)

theorem sequenced_lanInit (edfs : Edfs) (h : η) : (lanInit edfs h).tcp.Sequenced where
  free _ _ := rfl
  live _ hopen := absurd rfl hopen
  numbered _ _ _ _ _ _ hsuffix := by cases List.suffix_nil.mp hsuffix

theorem sequenced_lanAfter {l : Lan η} (h : l.tcp.Sequenced) (s : LanStep) :
    (lanAfter host l s).tcp.Sequenced := by
  rcases lanAfter_tcp_cases host l s with ⟨tx, txLen, i, fd, -, hsyn, hafter⟩ |
    ⟨tx, txLen, i, taken, -, hdata, hafter⟩ | ⟨-, -, hplain⟩
  · rw [hafter]
    have hfree : (l.net.tcpSockets i).fd = -1 := freeTcp_eq_some hsyn.free
    exact h.accept (fun hopen => hopen hfree) fd _ _
  · rw [hafter]
    have hopen : l.tcp.IsOpen i := (findTcp_eq_some hdata.found).1
    exact (h.record (.inl ⟨i, _, rfl⟩)).deliver hopen _ _ _ _
  · exact run_invariant (fun hstep ht => ht.plain hstep) hplain h

/-- A frame that is ready for the guest has these numbers and flags in its TCP header. -/
structure Carries (n : Net) (seq ack : BitVec 32) (flags : Byte) : Prop where
  ready : n.rxReady = true
  seq : ∀ k < 4, n.rxFrame (0x26 + k) = (longBytes seq).getD k 0
  ack : ∀ k < 4, n.rxFrame (0x2A + k) = (longBytes ack).getD k 0
  flags : n.rxFrame 0x2F = flags

/-- What the history records of a segment is what its frame carries. -/
theorem carries_netTcpSegment (len : ℕ) (i : Slot) (flags : Byte) (dstIp advance : BitVec 32)
    (l : Lan η) : ∃ seq ack,
    (outcome (netTcpSegment len i flags dstIp advance) l).2.tcp.events =
        .segment i seq ack flags len :: l.tcp.events ∧
      Carries (outcome (netTcpSegment len i flags dstIp advance) l).2.net seq ack flags := by
  obtain ⟨hready, hseq, hack, hflags⟩ := rxFrame_netTcpSegment len i flags dstIp advance l
  refine ⟨_, _, ?_, hready, hseq, hack, hflags⟩
  rw [tcp_netTcpSegment]
  rfl

/-- **The sequence numbers of the segments.** Over every run, every segment for the guest is
numbered by the ones before it on its connection, and a free socket has its initial
number. A segment is recorded with the numbers and the flags that its frame carries. -/
theorem segments_numbered (edfs : Edfs) (h : η) (steps : List LanStep) :
    let l := runAll (lanAfter host) (lanInit edfs h) steps
    (∀ i seq ack flags len older, .segment i seq ack flags len :: older <:+ l.tcp.events →
      Numbered i seq flags len older) ∧
    (∀ i, (l.net.tcpSockets i).fd = -1 → (l.net.tcpSockets i).sendSeq = initialSeq i) ∧
    ∀ len i flags dstIp advance (l : Lan η), ∃ seq ack,
      (outcome (netTcpSegment len i flags dstIp advance) l).2.tcp.events =
          .segment i seq ack flags len :: l.tcp.events ∧
        Carries (outcome (netTcpSegment len i flags dstIp advance) l).2.net seq ack flags := by
  have hrun := runAll_invariant (I := fun l : Lan η => l.tcp.Sequenced)
    (fun _ s hl => sequenced_lanAfter host hl s) (sequenced_lanInit edfs h) steps
  exact ⟨hrun.numbered, fun i hfree => hrun.free i fun hopen => hopen hfree,
    carries_netTcpSegment⟩

end Pc20iii
