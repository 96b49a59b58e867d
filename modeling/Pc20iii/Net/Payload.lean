import Pc20iii.Net.Bounds

/-!
# The data that is passed to the host

Which part of a transmitted frame `net_handle_tcp` passes to `send` and `net_handle_udp` to
`sendto`, against the payload as the headers of the frame delimit it (`tcpPayload`,
`udpPayload`).

The handlers compute the range from their own fields only. They take it for granted that the
IP header has 20 bytes, and that the lengths are consistent with each other and with the
frame; a length that is too small wraps to a huge one. So what reaches the host is the payload
exactly when the headers are consistent and the fields are where the handlers look for them
(`sendsPayload_iff`).
-/

namespace Pc20iii

open StateProgram

variable {η : Type} (host : Host η)

/-! ### The payload -/

/-- Where the data of a TCP packet starts, and how many bytes it has, by the headers. -/
def tcpPayload (tx : ℕ → Byte) : ℕ × ℕ :=
  (14 + ipHeaderLen tx + tcpHeaderLen tx,
    (txWord tx 0x10).toNat - (ipHeaderLen tx + tcpHeaderLen tx))

/-- The headers of a TCP packet are consistent with each other and with a frame of `n`
bytes. -/
structure TcpDelimited (tx : ℕ → Byte) (n : ℕ) : Prop where
  ihl : 5 ≤ (tx 0x0E &&& 0x0F).toNat
  dataOffset : 5 ≤ (tx (14 + ipHeaderLen tx + 12) >>> 4).toNat
  headers : ipHeaderLen tx + tcpHeaderLen tx ≤ (txWord tx 0x10).toNat
  total : 14 + (txWord tx 0x10).toNat ≤ n

/-- The length field of a UDP packet. -/
def udpLen (tx : ℕ → Byte) : ℕ := (txWord tx (14 + ipHeaderLen tx + 4)).toNat

/-- Where the data of a UDP packet starts, and how many bytes it has, by the headers. -/
def udpPayload (tx : ℕ → Byte) : ℕ × ℕ := (14 + ipHeaderLen tx + 8, udpLen tx - 8)

/-- The headers of a UDP packet are consistent with each other and with a frame of `n`
bytes. -/
structure UdpDelimited (tx : ℕ → Byte) (n : ℕ) : Prop where
  ihl : 5 ≤ (tx 0x0E &&& 0x0F).toNat
  length : 8 ≤ udpLen tx
  headers : ipHeaderLen tx + udpLen tx ≤ (txWord tx 0x10).toNat
  total : 14 + (txWord tx 0x10).toNat ≤ n

/-- The payload lies inside the frame. -/
theorem TcpDelimited.inside {tx : ℕ → Byte} {n : ℕ} (h : TcpDelimited tx n) :
    (tcpPayload tx).1 + (tcpPayload tx).2 ≤ n := by
  have hheaders := h.headers
  have htotal := h.total
  unfold tcpPayload
  omega

theorem UdpDelimited.inside {tx : ℕ → Byte} {n : ℕ} (h : UdpDelimited tx n) :
    (udpPayload tx).1 + (udpPayload tx).2 ≤ n := by
  have hlength := h.length
  have hheaders := h.headers
  have htotal := h.total
  unfold udpPayload
  omega

/-- What the event passes to the host, if anything, is the payload of a consistent frame of
`n` bytes. -/
def NetEvent.PassesPayload (tx : ℕ → Byte) (n : ℕ) : NetEvent → Prop
  | .send _ _ start len _ => TcpDelimited tx n ∧ (start, len) = tcpPayload tx ∧ start + len ≤ n
  | .sendto _ start len _ => UdpDelimited tx n ∧ (start, len) = udpPayload tx ∧ start + len ≤ n
  | _ => True

/-- All that `net_tx_frame` passes to the host is the payload of the frame. -/
def SendsPayload (tx : ℕ → Byte) (txLen : Word) (l : Lan η) : Prop :=
  ∃ es, (outcome (netTxFrame host tx txLen) l).2.log = es ++ l.log ∧
    ∀ e ∈ es, e.PassesPayload tx txLen.toNat

/-! ### When data is passed to the host -/

/-- The frame is data for an open connection. -/
structure TcpSends (l : Lan η) (tx : ℕ → Byte) (i : Slot) : Prop where
  frame : IsTcpFrame tx
  flags : tcpFlags tx = flagsPshAck
  found : l.net.findTcp (tcpTuple tx) = some i

/-- The frame goes to `net_handle_udp`. -/
def IsUdpFrame (tx : ℕ → Byte) : Prop := txWord tx 0x0C = ethertypeIpv4 ∧ tx 0x17 = ipprotoUdp

/-- A UDP socket is open for the frame, or one is free and the host opens it. -/
def UdpSocketFor (l : Lan η) (tx : ℕ → Byte) : Prop :=
  l.net.findUdp (txWord tx 0x22) (txLong tx 0x1E) ≠ none ∨
    l.net.freeUdp ≠ none ∧ (host.socket .datagram l.host).1 ≠ none

/-- The frame is a UDP packet that is not a broadcast, and there is a socket for it. -/
structure UdpSends (l : Lan η) (tx : ℕ → Byte) : Prop where
  frame : IsUdpFrame tx
  address : txLong tx 0x1E ≠ 0xFFFFFFFF
  socket : UdpSocketFor host l tx

/-! ### What is passed to the host -/

/-- The event passes data to the host. -/
def NetEvent.isSend : NetEvent → Bool
  | .send .. | .sendto .. => true
  | _ => false

/-- The calls that pass data to the host, newest first. -/
def Lan.sends (l : Lan η) : List NetEvent := l.log.filter NetEvent.isSend

instance : EdfsEvents (fun e => e.isSend = false) (fun _ _ => ()) where
  rxWrite _ := rfl
  ipHeader := rfl
  setBytes _ _ _ := rfl
  ipId _ _ := rfl
  rxLen _ _ := rfl
  txRead _ := rfl
  rxWrites _ _ := rfl
  ipChecksum _ _ := rfl
  hostPath _ := rfl
  buffer _ _ := rfl
  edfsPath _ _ := rfl
  crash := rfl
  edfs _ _ _ := rfl

instance : ReadyEvents (fun e => e.isSend = false) (fun _ _ => ()) where
  built := rfl
  rxReady _ := rfl

instance : TcpEvents (fun e => e.isSend = false) (fun _ _ => ()) where
  opened _ _ _ := rfl
  applied _ _ := rfl
  closed _ := rfl
  segment _ _ _ _ _ := rfl
  tcpSockets _ _ := rfl

theorem sends_of_generated {α : Type} {x : N η α}
    (hx : Generated (LanAction (fun e => e.isSend = false) (fun _ _ => ())) x) (l : Lan η) :
    (outcome x l).2.sends = l.sends := by
  obtain ⟨es, hlog, hes⟩ := (extends_of_generated hx l).log
  have hnone : es.filter NetEvent.isSend = [] :=
    List.filter_eq_nil_iff.mpr fun e he => by rw [hes e he]; exact Bool.false_ne_true
  rw [Lan.sends, hlog, List.filter_append, hnone]
  rfl

@[simp] theorem sends_reading (is : List ℕ) (l : Lan η) : (l.reading is).sends = l.sends := by
  have hnone : ((is.map NetEvent.txRead).reverse).filter NetEvent.isSend = [] :=
    List.filter_eq_nil_iff.mpr fun e he => by
      obtain ⟨i, -, rfl⟩ := List.mem_map.mp (List.mem_reverse.mp he)
      exact Bool.false_ne_true
  change ((is.map NetEvent.txRead).reverse ++ l.log).filter NetEvent.isSend = _
  rw [List.filter_append, hnone]
  rfl

/-- What is passed to the host decides. -/
theorem sendsPayload_of_sends {tx : ℕ → Byte} {txLen : Word} {l : Lan η} (new : List NetEvent)
    (h : (outcome (netTxFrame host tx txLen) l).2.sends = new ++ l.sends) :
    SendsPayload host tx txLen l ↔ ∀ e ∈ new, e.PassesPayload tx txLen.toNat := by
  have hext : l.Extends (fun _ => True) (fun _ _ => ()) (outcome (netTxFrame host tx txLen) l).2 :=
    extends_of_generated (generated_netTxFrame host tx txLen) l
  obtain ⟨es, hlog, -⟩ := hext.log
  -- the events of the frame are determined by what they are put in front of
  have hnew : es.filter NetEvent.isSend = new := by
    rw [Lan.sends, hlog, List.filter_append] at h
    exact List.append_cancel_right h
  rw [← hnew]
  constructor
  · rintro ⟨es', hlog', hes'⟩ e he
    cases List.append_cancel_right (hlog.symm.trans hlog')
    exact hes' e (List.mem_filter.mp he).1
  · refine fun hall => ⟨es, hlog, fun e he => ?_⟩
    cases hsend : e.isSend with
    | true => exact hall e (List.mem_filter.mpr ⟨he, hsend⟩)
    | false => cases e <;> trivial

section Handlers

variable {tx : ℕ → Byte} {txLen : Word} {l : Lan η}

/-- The data of a TCP packet, whatever the host takes of it. -/
theorem sends_netTcpData (tx : ℕ → Byte) (i : Slot) (ipLen : Word) (dataOffset : Byte)
    (recvSeq dstIp : BitVec 32) (l : Lan η) : ∃ taken,
    (outcome (netTcpData host tx i ipLen dataOffset recvSeq dstIp) l).2.sends =
      .send i recvSeq (tcpData ipLen dataOffset).1 (tcpData ipLen dataOffset).2 taken ::
        l.sends := by
  refine ⟨host.takes tx (tcpData ipLen dataOffset) i l, ?_⟩
  unfold netTcpData
  simp only [outcome_bind, outcome_getNet, outcome_hostCall, tcpSockets_modifyTcp, host_modifyTcp]
  refine (sends_of_generated ?_ _).trans ?_
  · split <;> infer_instance
  · rfl

/-- A segment with data passes one range of the frame to the host, the one that the source computes.
-/
theorem sends_of_tcpSends (txLen : Word) {i : Slot} (h : TcpSends l tx i) : ∃ taken,
    (outcome (netTxFrame host tx txLen) l).2.sends =
      [.send i (tcpSeq tx) (tcpRange tx).1 (tcpRange tx).2 taken] ++ l.sends := by
  rw [outcome_netTxFrame_tcp host h.frame, netTcpDispatch, if_neg (by rw [h.flags]; decide),
    outcome_bind, outcome_getNet]
  dsimp only
  rw [net_reading, h.found, h.flags]
  dsimp only
  rw [netTcpApply_eq]
  simp only [outcome_bind, outcome_getNet]
  -- PSH+ACK is the case that sends
  rw [netTcpFlags, if_neg (by decide), if_neg (by decide), if_pos rfl]
  obtain ⟨taken, hsends⟩ := sends_netTcpData host tx i (txWord tx 0x10) (tx 0x2E >>> 4)
    (tcpSeq tx) (txLong tx 0x1E) _
  refine ⟨taken, hsends.trans (congrArg (List.cons _) ?_)⟩
  exact sends_reading (l := l) _

/-- No other TCP packet passes data to the host. -/
theorem sends_of_not_tcpSends (txLen : Word) (hframe : IsTcpFrame tx) (h : ∀ i, ¬ TcpSends l tx i) :
    (outcome (netTxFrame host tx txLen) l).2.sends = l.sends := by
  rw [outcome_netTxFrame_tcp host hframe, netTcpDispatch]
  split
  · rw [sends_of_generated inferInstance, sends_reading]
  rw [outcome_bind, outcome_getNet]
  dsimp only
  rw [net_reading]
  cases hfound : l.net.findTcp (tcpTuple tx) with
  | none => exact sends_reading _ _
  | some i =>
    -- the socket is there, so that the flags are others
    have hflags : tcpFlags tx ≠ flagsPshAck := fun hflags => h i ⟨hframe, hflags, hfound⟩
    dsimp only
    rw [netTcpApply_eq, sends_of_generated, sends_reading]
    repeat' first
      | with_reducible refine .seq _ _ ?_ fun _ => ?_
      | exact generated_note rfl
      | exact generated_netTcpFlags_of_ne host hflags _ _ _ _ _ _
      | infer_instance

/-- There is a socket for a UDP packet. -/
theorem udpSocketFor_iff : UdpSocketFor host l tx ↔
    (outcome (netUdpSocket host (txWord tx 0x22, txWord tx 0x24, txLong tx 0x1E)) l).1 ≠ none := by
  unfold UdpSocketFor netUdpSocket
  simp only [outcome_bind, outcome_getNet]
  cases hfind : l.net.findUdp (txWord tx 0x22) (txLong tx 0x1E) with
  | some i => simp
  | none =>
    cases hfree : l.net.freeUdp with
    | none => simp
    | some i =>
      simp only [outcome_bind, outcome_hostCall]
      cases (host.socket .datagram l.host).1 <;> simp

/-- The data of a UDP packet, if there is a socket for it. -/
theorem sends_netUdpSend (l : Lan η) :
    (UdpSocketFor host l tx → ∃ i taken, (outcome (netUdpSend host tx) l).2.sends =
      .sendto i (udpData (txWord tx 0x26)).1 (udpData (txWord tx 0x26)).2 taken :: l.sends) ∧
    (¬ UdpSocketFor host l tx → (outcome (netUdpSend host tx) l).2.sends = l.sends) := by
  rw [udpSocketFor_iff, netUdpSend, outcome_bind]
  have hsocket := sends_of_generated (x := netUdpSocket host
    (txWord tx 0x22, txWord tx 0x24, txLong tx 0x1E)) inferInstance l
  cases (outcome (netUdpSocket host (txWord tx 0x22, txWord tx 0x24, txLong tx 0x1E)) l).1 with
  -- no socket is free, or the host gives none
  | none => exact ⟨fun h => absurd rfl h, fun _ => hsocket⟩
  | some i =>
    refine ⟨fun _ => ⟨i, ?_⟩, fun h => absurd (Option.some_ne_none i) h⟩
    simp only [outcome_bind, outcome_getNet, outcome_hostCall]
    apply Exists.intro
    refine (sends_of_generated ?_ _).trans ?_
    · infer_instance
    · rw [← hsocket]
      rfl

theorem sends_of_udpSends (txLen : Word) (h : UdpSends host l tx) : ∃ i taken,
    (outcome (netTxFrame host tx txLen) l).2.sends =
      [.sendto i (udpData (txWord tx 0x26)).1 (udpData (txWord tx 0x26)).2 taken] ++ l.sends := by
  rw [outcome_netTxFrame_udp host txLen h.frame.1 h.frame.2, outcome_netHandleUdp, reading_reading,
    if_neg h.address]
  obtain ⟨i, taken, hsends⟩ := (sends_netUdpSend host (l.reading _)).1 h.socket
  exact ⟨i, taken, hsends.trans (congrArg (List.cons _) (sends_reading _ l))⟩

/-- No other UDP packet passes data to the host. -/
theorem sends_of_not_udpSends (hframe : IsUdpFrame tx) (h : ¬ UdpSends host l tx) :
    (outcome (netTxFrame host tx txLen) l).2.sends = l.sends := by
  rw [outcome_netTxFrame_udp host txLen hframe.1 hframe.2, outcome_netHandleUdp, reading_reading]
  split
  · split
    · rw [sends_of_generated inferInstance, sends_reading]
    · exact sends_reading _ _
  · rw [(sends_netUdpSend host (l.reading _)).2 fun hsocket => h ⟨hframe, ‹_›, hsocket⟩,
      sends_reading]

/-- The other frames do not. -/
theorem sends_of_not_frame (htcp : ¬ IsTcpFrame tx) (hudp : ¬ IsUdpFrame tx) :
    (outcome (netTxFrame host tx txLen) l).2.sends = l.sends := by
  rw [netTxFrame, outcome_bind, outcome_readTxWord, ← sends_reading [0x0C, 0x0D] l]
  dsimp only
  -- by the ethertype, and of IPv4 by the protocol
  split
  · exact sends_of_generated inferInstance _
  split
  case isTrue hipv4 =>
    rw [netHandleIpv4, outcome_bind, outcome_readTx, ← sends_reading [0x17]]
    dsimp only
    split
    · exact sends_of_generated inferInstance _
    rw [if_neg fun h => htcp ⟨hipv4, h⟩, if_neg fun h => hudp ⟨hipv4, h⟩]
    rfl
  split
  · exact sends_of_generated inferInstance _
  · rfl

end Handlers

/-! ### The range against the payload -/

section Range

variable {tx : ℕ → Byte} {n : ℕ}

/-- The data of a TCP packet starts where `net_handle_tcp` looks for it. -/
def TcpInPlace (tx : ℕ → Byte) : Prop :=
  ipHeaderLen tx + tcpHeaderLen tx = 20 + 4 * (tx 0x2E >>> 4).toNat

/-- This range is the payload if and only if the headers are delimited and have the lengths that the
source takes for granted. -/
theorem passesPayload_send {i : Slot} {seq : BitVec 32} {taken : Option ℕ} :
    (NetEvent.send i seq (tcpRange tx).1 (tcpRange tx).2 taken).PassesPayload tx n ↔
      TcpDelimited tx n ∧ TcpInPlace tx := by
  have hstart : (tcpRange tx).1 = 0x22 + (tx 0x2E >>> 4).toNat * 4 := rfl
  refine and_congr_right fun hdelimited => ⟨fun h => ?_, fun hplace => ?_⟩
  · -- the source counts 20 bytes of IP header, so the starts are equal for such a header only
    have heq := congrArg Prod.fst h.1
    have hpayload : (tcpPayload tx).1 = 14 + ipHeaderLen tx + tcpHeaderLen tx := rfl
    unfold TcpInPlace
    dsimp only at heq
    omega
  · -- the length of the source is a `size_t`, which does not wrap for a delimited segment
    have hrange : ((tcpRange tx).1, (tcpRange tx).2) = tcpPayload tx := by
      have hheaders := hdelimited.headers
      have hlt := (txWord tx 0x10).isLt
      unfold TcpInPlace at hplace
      refine Prod.ext ?_ ?_
      · change 0x22 + (tx 0x2E >>> 4).toNat * 4 = 14 + ipHeaderLen tx + tcpHeaderLen tx
        omega
      · change sizeT _ = _ - (ipHeaderLen tx + tcpHeaderLen tx)
        unfold sizeT
        omega
    refine ⟨hrange, ?_⟩
    have hinside := hdelimited.inside
    rw [← hrange] at hinside
    exact hinside

/-- Likewise for a datagram. -/
theorem passesPayload_sendto {i : Slot} {taken : Option ℕ} :
    (NetEvent.sendto i (udpData (txWord tx 0x26)).1 (udpData (txWord tx 0x26)).2
        taken).PassesPayload tx n ↔
      UdpDelimited tx n ∧ ipHeaderLen tx = 20 := by
  refine and_congr_right fun hdelimited => ⟨fun h => ?_, fun hplace => ?_⟩
  · have heq : 0x2A = 14 + ipHeaderLen tx + 8 := congrArg Prod.fst h.1
    omega
  · have hrange : ((udpData (txWord tx 0x26)).1, (udpData (txWord tx 0x26)).2) = udpPayload tx := by
      have hlength := hdelimited.length
      have hlen : udpLen tx = (txWord tx 0x26).toNat := by rw [udpLen, hplace]
      have hlt := (txWord tx 0x26).isLt
      refine Prod.ext ?_ ?_
      · change 0x2A = 14 + ipHeaderLen tx + 8
        omega
      · change sizeT _ = udpLen tx - 8
        unfold sizeT
        omega
    refine ⟨hrange, ?_⟩
    have hinside := hdelimited.inside
    rw [← hrange] at hinside
    exact hinside

end Range

variable {tx : ℕ → Byte} {txLen : Word} {l : Lan η}

theorem sendsPayload_udp_iff (hframe : IsUdpFrame tx) :
    SendsPayload host tx txLen l ↔
      (UdpSends host l tx → UdpDelimited tx txLen.toNat ∧ ipHeaderLen tx = 20) := by
  by_cases hsends : UdpSends host l tx
  · obtain ⟨i, taken, h⟩ := sends_of_udpSends host txLen hsends
    rw [sendsPayload_of_sends host _ h, List.forall_mem_singleton, passesPayload_sendto]
    exact (imp_iff_right hsends).symm
  · rw [sendsPayload_of_sends host [] (sends_of_not_udpSends host hframe hsends)]
    exact iff_of_true (List.forall_mem_nil _) fun h => absurd h hsends

theorem sendsPayload_tcp_iff (hframe : IsTcpFrame tx) :
    SendsPayload host tx txLen l ↔
      ((∃ i, TcpSends l tx i) → TcpDelimited tx txLen.toNat ∧ TcpInPlace tx) := by
  by_cases hsends : ∃ i, TcpSends l tx i
  · obtain ⟨i, hi⟩ := hsends
    obtain ⟨taken, h⟩ := sends_of_tcpSends host txLen hi
    rw [sendsPayload_of_sends host _ h, List.forall_mem_singleton, passesPayload_send]
    exact (imp_iff_right ⟨i, hi⟩).symm
  · have h := sends_of_not_tcpSends host txLen hframe fun i hi => hsends ⟨i, hi⟩
    rw [sendsPayload_of_sends host [] h]
    exact iff_of_true (List.forall_mem_nil _) fun h => absurd h hsends

/-- **The data that is passed to the host.** In every state, what a frame passes to the host
is its payload, inside the frame, exactly when its headers are consistent and its fields are
where the handlers look for them, or it is no frame whose data is passed on. -/
theorem sendsPayload_iff (tx : ℕ → Byte) (txLen : Word) (l : Lan η) :
    SendsPayload host tx txLen l ↔
      ((∃ i, TcpSends l tx i) → TcpDelimited tx txLen.toNat ∧ TcpInPlace tx) ∧
        (UdpSends host l tx → UdpDelimited tx txLen.toNat ∧ ipHeaderLen tx = 20) := by
  -- a packet has one protocol
  have hboth : IsTcpFrame tx → ¬ IsUdpFrame tx := fun htcp hudp =>
    absurd (htcp.2.symm.trans hudp.2) (by decide)
  by_cases htcp : IsTcpFrame tx
  · rw [sendsPayload_tcp_iff host htcp]
    exact (and_iff_left fun hudp => absurd hudp.frame (hboth htcp)).symm
  have hnotTcp : ¬ ∃ i, TcpSends l tx i := fun ⟨i, hi⟩ => htcp hi.frame
  by_cases hudp : IsUdpFrame tx
  · rw [sendsPayload_udp_iff host hudp]
    exact (and_iff_right fun h => absurd h hnotTcp).symm
  · rw [sendsPayload_of_sends host [] (sends_of_not_frame host htcp hudp)]
    exact iff_of_true (List.forall_mem_nil _)
      ⟨fun h => absurd h hnotTcp, fun h => absurd h.frame hudp⟩

/-- A UDP packet without data whose length field is 0. -/
def udpFrame : ℕ → Byte
  | 0x0C => 0x08
  | 0x0E => 0x45
  | 0x11 => 28
  | 0x17 => ipprotoUdp
  | _ => 0

/-- A UDP packet whose length field is 0 passes more to the host than there is. -/
theorem sends_beyond : ¬ ∀ (η : Type) (host : Host η) (edfs : Edfs) (h : η) (tx : ℕ → Byte)
    (txLen : Word), txLen.toNat ≤ netMtu → SendsPayload host tx txLen (lanInit edfs h) := by
  intro h
  have hsends := h Unit acceptingHost (edfsInit []) () udpFrame 42 (Nat.le_of_ble_eq_true rfl)
  rw [sendsPayload_udp_iff acceptingHost (by exact ⟨by decide, rfl⟩)] at hsends
  have hsocket : UdpSocketFor acceptingHost (lanInit (edfsInit []) ()) udpFrame :=
    .inr ⟨by decide, by decide⟩
  have hdelimited := (hsends ⟨⟨by decide, rfl⟩, by decide, hsocket⟩).1
  have hlength : ¬ 8 ≤ udpLen udpFrame := by decide
  exact hlength hdelimited.length

end Pc20iii
