import Pc20iii.Edfs.Header
import Pc20iii.Net.Checksum
import Pc20iii.Net.Polls

/-!
# Segments for the guest

What a TCP stack in the guest finds in the frames that the network builds. It takes a frame by its
ethertype and its protocol, drops it if the sums do not check or the headers do not fit the frame,
and looks for the ends, the number, the flags and the data where the headers say they are
(`tcpSegmentOf`). So it looks at nothing but the bytes of the frame (`tcpSegmentOf_congr`).

* `segment_netTcpSegment`: the segment in a frame that `net_tcp_reply` has filled is the one that
  the socket stands for, with the data that is in place.
* `Tcp.Emits`: what emitting a segment, or none, does to the connection of a socket.
* `socketAfter_emits`: a step of an idle network emits at most one segment, and every other frame
  that it builds is none for a TCP stack.
-/

namespace Pc20iii

open StateProgram

variable {η : Type}

/-! ### What the guest reads -/

/-- A TCP segment. -/
structure TcpSegment where
  /-- The ends of the connection, from the side of the guest. -/
  tuple : Tuple
  seq : BitVec 32
  flags : Byte
  payload : List Byte
deriving DecidableEq

instance (frame : ℕ → Byte) (len : Word) : Decidable (PacketChecks frame len) :=
  decidable_of_iff
    (onesSum (messageWords frame 0x0E 20) = 0xFFFF ∧
      (txWord frame 0x10).toNat + 14 = len.toNat ∧
      (frame 0x17 = ipprotoIcmp ∨ frame 0x17 = ipprotoTcp ∨ frame 0x17 = ipprotoUdp) ∧
      (frame 0x17 = ipprotoIcmp →
        onesSum (messageWords frame 0x22 (len.toNat - 0x22)) = 0xFFFF) ∧
      (frame 0x17 ≠ ipprotoIcmp →
        onesSum (pseudoHeader (txLong frame 0x1A) (txLong frame 0x1E) (frame 0x17)
          (txWord frame 0x10 - 20) ++ messageWords frame 0x22 (len.toNat - 0x22)) = 0xFFFF) ∧
      (frame 0x17 = ipprotoUdp → txWord frame 0x28 ≠ 0))
    ⟨fun ⟨h₁, h₂, h₃, h₄, h₅, h₆⟩ => ⟨h₁, h₂, h₃, h₄, h₅, h₆⟩,
      fun h => ⟨h.header, h.length, h.proto, h.icmp, h.transport, h.udp⟩⟩

instance (frame : ℕ → Byte) (n : ℕ) : Decidable (TcpDelimited frame n) :=
  decidable_of_iff
    (5 ≤ (frame 0x0E &&& 0x0F).toNat ∧
      5 ≤ (frame (14 + ipHeaderLen frame + 12) >>> 4).toNat ∧
      ipHeaderLen frame + tcpHeaderLen frame ≤ (txWord frame 0x10).toNat ∧
      14 + (txWord frame 0x10).toNat ≤ n)
    ⟨fun ⟨h₁, h₂, h₃, h₄⟩ => ⟨h₁, h₂, h₃, h₄⟩,
      fun h => ⟨h.ihl, h.dataOffset, h.headers, h.total⟩⟩

/-- A TCP packet that checks, with headers that fit the frame of `len` bytes. -/
structure IsSegment (frame : ℕ → Byte) (len : Word) : Prop where
  tcp : IsTcpFrame frame
  delimited : TcpDelimited frame len.toNat
  checks : PacketChecks frame len

instance (frame : ℕ → Byte) (len : Word) : Decidable (IsSegment frame len) :=
  decidable_of_iff (IsTcpFrame frame ∧ TcpDelimited frame len.toNat ∧ PacketChecks frame len)
    ⟨fun ⟨h₁, h₂, h₃⟩ => ⟨h₁, h₂, h₃⟩, fun h => ⟨h.tcp, h.delimited, h.checks⟩⟩

/-- The segment in a frame of `len` bytes, if there is one. The port of the guest is the
destination. -/
def tcpSegmentOf (frame : ℕ → Byte) (len : Word) : Option TcpSegment :=
  let tcp := 14 + ipHeaderLen frame
  let data := tcpPayload frame
  if IsSegment frame len then
    some
      { tuple := (txWord frame (tcp + 2), txWord frame tcp, txLong frame 0x1A)
        seq := txLong frame (tcp + 4)
        flags := frame (tcp + 13)
        payload := (List.range data.2).map fun k => frame (data.1 + k) }
  else none

/-- The segment in the pending frame. -/
def Lan.segment (l : Lan η) : Option TcpSegment :=
  if l.net.rxReady then tcpSegmentOf l.net.rxFrame l.net.rxLen else none

theorem segmentOf_of_not {frame : ℕ → Byte} (h : ¬ IsTcpFrame frame) (len : Word) :
    tcpSegmentOf frame len = none :=
  if_neg fun hsegment => h hsegment.tcp

theorem Lan.Idle.segment {l : Lan η} (h : l.Idle) : l.segment = none := by
  have hidle : l.net.rxReady = false := h
  rw [Lan.segment, hidle]
  rfl

/-- A pending frame that is not for the TCP stack. -/
theorem segment_of_not {l : Lan η} (h : ¬ IsTcpFrame l.net.rxFrame) : l.segment = none := by
  unfold Lan.segment
  split
  · exact segmentOf_of_not h _
  · rfl

/-! ### The bytes that matter -/

section Congr

variable {frame frame' : ℕ → Byte}

/-- What two frames with the same bytes have in common. -/
structure SameHeaders (frame frame' : ℕ → Byte) : Prop where
  ip : ipHeaderLen frame' = ipHeaderLen frame
  tcp : tcpHeaderLen frame' = tcpHeaderLen frame
  word : ∀ k < 0x35, txWord frame' k = txWord frame k
  long : ∀ k < 0x33, txLong frame' k = txLong frame k

/-- The headers of a segment are among the bytes of its frame. -/
theorem TcpDelimited.sameHeaders {n : ℕ} (h : TcpDelimited frame n)
    (hframe : ∀ k < n, frame' k = frame k) : 0x36 ≤ n ∧ SameHeaders frame frame' := by
  have hheaders := h.headers
  have htotal := h.total
  have hipLen : 20 ≤ ipHeaderLen frame := Nat.le_max_left ..
  have htcpLen : 20 ≤ tcpHeaderLen frame := Nat.le_max_left ..
  have hword : ∀ k < 0x35, txWord frame' k = txWord frame k := by
    intro k hk
    rw [txWord, txWord, hframe k (by omega), hframe (k + 1) (by omega)]
  have hip : ipHeaderLen frame' = ipHeaderLen frame := by
    rw [ipHeaderLen, ipHeaderLen, hframe 0x0E (by omega)]
  refine ⟨by omega, hip, ?_, hword, fun k hk => ?_⟩
  · rw [tcpHeaderLen, tcpHeaderLen, hip, hframe _ (by omega)]
  · rw [txLong, txLong, hword k (by omega), hword (k + 2) (by omega)]

/-- Whether the headers fit the frame is seen from its bytes. -/
theorem TcpDelimited.congr {n : ℕ} (h : TcpDelimited frame n)
    (hframe : ∀ k < n, frame' k = frame k) : TcpDelimited frame' n := by
  obtain ⟨hlen, hsame⟩ := h.sameHeaders hframe
  have htotal : txWord frame' 0x10 = txWord frame 0x10 := hsame.word 0x10 (by decide)
  -- the data offset is within the headers, which are inside the frame
  -- the data offset is inside what was read
  have hoffset : 14 + ipHeaderLen frame + 12 < n := by
    have hheaders := h.headers
    have htcpLen : 20 ≤ tcpHeaderLen frame := Nat.le_max_left ..
    have hend := h.total
    omega
  refine ⟨?_, ?_, ?_, ?_⟩
  · rw [hframe 0x0E (by omega)]
    exact h.ihl
  · rw [hsame.ip, hframe _ hoffset]
    exact h.dataOffset
  · rw [hsame.ip, hsame.tcp, htotal]
    exact h.headers
  · rw [htotal]
    exact h.total

/-- Whether a packet checks is seen from its bytes. -/
theorem PacketChecks.congr {len : Word} (h : PacketChecks frame len) (hlen : 0x36 ≤ len.toNat)
    (hsame : SameHeaders frame frame') (hframe : ∀ k < len.toNat, frame' k = frame k) :
    PacketChecks frame' len := by
  have hproto : frame' 0x17 = frame 0x17 := hframe 0x17 (by omega)
  have htotal : txWord frame' 0x10 = txWord frame 0x10 := hsame.word 0x10 (by decide)
  -- the words of the message are made of its bytes
  have hmessage : messageWords frame' 0x22 (len.toNat - 0x22) =
      messageWords frame 0x22 (len.toNat - 0x22) :=
    messageWords_congr _ fun k _ hk => hframe k (by omega)
  refine ⟨?_, ?_, ?_, ?_, ?_, ?_⟩
  · rw [messageWords_congr 20 fun k _ hk => hframe k (by omega)]
    exact h.header
  · rw [htotal]
    exact h.length
  · rw [hproto]
    exact h.proto
  · rw [hproto, hmessage]
    exact h.icmp
  · rw [hproto, hmessage, htotal, hsame.long 0x1A (by decide), hsame.long 0x1E (by decide)]
    exact h.transport
  · rw [hproto, hsame.word 0x28 (by decide)]
    exact h.udp

/-- Whether a frame is a segment is seen from its bytes. -/
theorem IsSegment.congr {len : Word} (h : IsSegment frame len)
    (hframe : ∀ k < len.toNat, frame' k = frame k) : IsSegment frame' len := by
  obtain ⟨hlen, hsame⟩ := h.delimited.sameHeaders hframe
  refine ⟨⟨?_, ?_⟩, h.delimited.congr hframe, h.checks.congr hlen hsame hframe⟩
  · rw [hsame.word 0x0C (by decide), h.tcp.1]
  · rw [hframe 0x17 (by omega), h.tcp.2]

/-- **Only the bytes of the frame matter.** -/
theorem tcpSegmentOf_congr {len : Word} (hframe : ∀ k < len.toNat, frame' k = frame k) :
    tcpSegmentOf frame' len = tcpSegmentOf frame len := by
  by_cases h : IsSegment frame len
  -- without a segment in one frame there is none in the other
  case neg =>
    have h' : ¬ IsSegment frame' len :=
      fun h' => h (h'.congr fun k hk => (hframe k hk).symm)
    rw [tcpSegmentOf, tcpSegmentOf, if_neg h, if_neg h']
  case pos =>
    obtain ⟨hlen, hsame⟩ := h.delimited.sameHeaders hframe
    have hinside := h.delimited.inside
    have hdata : tcpPayload frame' = tcpPayload frame := by
      rw [tcpPayload, tcpPayload, hsame.ip, hsame.tcp, hsame.word _ (by decide)]
    have hipLen : 14 + ipHeaderLen frame + 20 ≤ len.toNat := by
      have hheaders := h.delimited.headers
      have htotal := h.delimited.total
      have htcpLen : 20 ≤ tcpHeaderLen frame := Nat.le_max_left ..
      omega
    have hword : ∀ k < 19, txWord frame' (14 + ipHeaderLen frame + k) =
        txWord frame (14 + ipHeaderLen frame + k) := by
      intro k hk
      rw [txWord, txWord, hframe _ (by omega), hframe _ (by omega)]
    rw [tcpSegmentOf, tcpSegmentOf, if_pos h, if_pos (h.congr hframe), hsame.ip, hdata,
      hsame.long _ (by decide)]
    refine congrArg some ?_
    rw [TcpSegment.mk.injEq]
    refine ⟨?_, ?_, ?_, List.map_congr_left fun k hk => ?_⟩
    · rw [hword 2 (by decide)]
      exact Prod.ext rfl (Prod.ext (hword 0 (by decide)) rfl)
    · exact congrArg₂ (· ++ ·) (hword 4 (by decide)) (hword 6 (by decide))
    · exact hframe _ (by omega)
    · rw [List.mem_range] at hk
      exact hframe _ (by omega)

end Congr

/-! ### The frame of a segment -/

/-- The bytes of an IP header that are always the same. -/
theorem rxFrame_netIpv4Reply_start (ipLen : Word) (proto : Byte) (srcIp : BitVec 32) (l : Lan η) :
    let frame := (outcome (netIpv4Reply ipLen proto srcIp) l).2.net.rxFrame
    txWord frame 0x0C = ethertypeIpv4 ∧ frame 0x0E = 0x45 := by
  rw [net_netIpv4Reply]
  dsimp only [Net.ipv4Header]
  constructor
  · iterate 8 rw [txWord_setBytes_of_not (.inl (by decide))]
    exact txWord_setBytes 0x0C ethertypeIpv4 _
  · iterate 7 rw [rxFrame_setBytes_of_not (.inl (by decide))]
    have hfirst : 0 < ([0x45, 0x00] : List Byte).length := Nat.zero_lt_two
    exact rxFrame_setBytes 0x0E hfirst _

/-- The fields of a TCP header, whatever the checksum. -/
theorem rxFrame_netTcpReply_fields (len : ℕ) (i : Slot) (flags : Byte) (l : Lan η) :
    let frame := (outcome (netTcpReply len i flags) l).2.net.rxFrame
    txWord frame 0x22 = (l.net.tcpSockets i).dstPort ∧
      txWord frame 0x24 = (l.net.tcpSockets i).srcPort ∧
      txLong frame 0x26 = (l.net.tcpSockets i).sendSeq ∧ frame 0x2E = 0x50 ∧
      frame 0x2F = flags ∧ ∀ k, frame (0x36 + k) = l.net.rxFrame (0x36 + k) := by
  rw [net_netTcpReply]
  dsimp only [Net.tcpHeader]
  refine ⟨?_, ?_, ?_, ?_, ?_, fun k => ?_⟩
  -- the writes behind a field leave it alone
  · iterate 6 rw [txWord_setBytes_of_not (.inl (by decide))]
    exact txWord_setBytes 0x22 _ _
  · iterate 5 rw [txWord_setBytes_of_not (.inl (by decide))]
    exact txWord_setBytes 0x24 _ _
  · iterate 4 rw [txLong_setBytes_of_not (.inl (by decide))]
    exact txLong_setBytes 0x26 _ _
  · iterate 2 rw [rxFrame_setBytes_of_not (.inl (by decide))]
    have hfirst : 0 < [0x50, flags].length := Nat.zero_lt_two
    exact rxFrame_setBytes 0x2E hfirst _
  · iterate 2 rw [rxFrame_setBytes_of_not (.inl (by decide))]
    have hsecond : 1 < [0x50, flags].length := Nat.one_lt_two
    exact rxFrame_setBytes 0x2E hsecond _
  -- no field of the header reaches the data
  · iterate 7 rw [rxFrame_setBytes_of_not (.inr (by simp <;> omega))]

/-- What is behind the IP header is as `net_tcp_reply` has left it. -/
theorem rxFrame_netTcpSegment_of_le {j : ℕ} (h : 0x22 ≤ j) (len : ℕ) (i : Slot) (flags : Byte)
    (dstIp advance : BitVec 32) (l : Lan η) :
    (outcome (netTcpSegment len i flags dstIp advance) l).2.net.rxFrame j =
      (outcome (netTcpReply len i flags) l).2.net.rxFrame j := by
  rw [netTcpSegment, outcome_bind, outcome_bind, rxFrame_ending (by omega), rxFrame_netIpv4Reply h]
  rfl

/-- The segment that a socket stands for. -/
def Tcp.segment (t : Tcp) (i : Slot) (flags : Byte) (payload : List Byte) : TcpSegment where
  tuple := (t.sockets i).tuple
  seq := (t.sockets i).sendSeq
  flags := flags
  payload := payload

/-- **The frame of a segment.** The guest finds in it the segment of the socket, with the data that
is in place. -/
theorem segment_netTcpSegment {len : ℕ} (hlen : 0x36 + len ≤ netMtu) (i : Slot) (flags : Byte)
    (dstIp advance : BitVec 32) {l : Lan η} (hl : l.IdleAt i dstIp) :
    (outcome (netTcpSegment len i flags dstIp advance) l).2.segment =
      some (l.tcp.segment i flags ((List.range len).map fun k => l.net.rxFrame (0x36 + k))) := by
  have hmtu : 0x36 + len ≤ 1514 := hlen
  have hready : (outcome (netTcpSegment len i flags dstIp advance) l).2.net.rxReady = true := rfl
  have hchecks := triple_netTcpSegment hlen i flags dstIp advance l hl hready
  have hbehind := fun {j} (h : 0x22 ≤ j) =>
    rxFrame_netTcpSegment_of_le h len i flags dstIp advance l
  obtain ⟨hdst, hsrc, hseq, hoffset, hflags, hdata⟩ := rxFrame_netTcpReply_fields len i flags l
  -- the header comes from `net_ipv4_reply`, behind the TCP header
  obtain ⟨l', hl'⟩ : ∃ l', l' = (outcome
      (modifyTcp i fun s => { s with sendSeq := s.sendSeq + advance })
      (outcome (netTcpReply len i flags) l).2).2 := ⟨_, rfl⟩
  have hsplit : (outcome (netTcpSegment len i flags dstIp advance) l).2 = (outcome (do
      netIpv4Reply (BitVec.ofNat 16 (20 + 20 + len)) ipprotoTcp dstIp
      netEthernetReply
      rxComplete (BitVec.ofNat 16 (14 + 20 + 20 + len))) l').2 := by
    rw [hl', netTcpSegment, outcome_bind, outcome_bind]
  have hfront := fun {j} (h : 0x0C ≤ j) => rxFrame_ending h (BitVec.ofNat 16 (20 + 20 + len))
    ipprotoTcp dstIp (BitVec.ofNat 16 (14 + 20 + 20 + len)) l'
  have hheader := (hasHeader_netIpv4Reply (BitVec.ofNat 16 (20 + 20 + len)) ipprotoTcp dstIp
    l').congr fun j hj => hfront hj
  obtain ⟨hethertype, hversion⟩ := rxFrame_netIpv4Reply_start (BitVec.ofNat 16 (20 + 20 + len))
    ipprotoTcp dstIp l'
  rw [← hsplit] at hheader hfront
  rw [Lan.segment, hready, if_pos rfl]
  generalize (outcome (netTcpSegment len i flags dstIp advance) l).2.net = n at *
  have hethertype' : txWord n.rxFrame 0x0C = ethertypeIpv4 := by
    rw [txWord, hfront (by decide), hfront (by decide), ← txWord, hethertype]
  have hip : ipHeaderLen n.rxFrame = 20 := by
    rw [ipHeaderLen, hfront (by decide), hversion]
    rfl
  have htcp : tcpHeaderLen n.rxFrame = 20 := by
    rw [tcpHeaderLen, hip, hbehind (by decide), hoffset]
    rfl
  have htotal : (txWord n.rxFrame 0x10).toNat = 40 + len := by
    rw [hheader.ipLen, BitVec.toNat_ofNat]
    omega
  have hword : ∀ {j}, 0x22 ≤ j → txWord n.rxFrame j =
      txWord (outcome (netTcpReply len i flags) l).2.net.rxFrame j := fun hj => by
    rw [txWord, txWord, hbehind hj, hbehind (Nat.le_succ_of_le hj)]
  have hpayload : tcpPayload n.rxFrame = (0x36, len) := by
    rw [tcpPayload, hip, htcp, htotal, Nat.add_sub_cancel_left]
  have hdelimited : TcpDelimited n.rxFrame n.rxLen.toNat := by
    refine ⟨?_, ?_, ?_, ?_⟩
    · rw [hfront (by decide), hversion]
      decide
    · rw [hip, hbehind (by decide), hoffset]
      decide
    · rw [hip, htcp, htotal]
      omega
    · rw [← hchecks.length, Nat.add_comm]
  rw [tcpSegmentOf, if_pos ⟨⟨hethertype', hheader.proto⟩, hdelimited, hchecks⟩, hip, hpayload]
  refine congrArg some ?_
  rw [Tcp.segment, TcpSegment.mk.injEq]
  refine ⟨?_, ?_, ?_, ?_⟩
  · rw [hword (by decide), hword (by decide), hdst, hsrc, hheader.srcIp, ← hl.2]
    rfl
  · rw [txLong, hword (by decide), hword (by decide), ← txLong, hseq]
    rfl
  · rw [hbehind (by decide), hflags]
  · refine List.map_congr_left fun k _ => ?_
    rw [hbehind (by omega), hdata]

/-! ### Frames that are no segments -/

/-- A reply over IP for another protocol. -/
theorem segment_ending {proto : Byte} (h : proto ≠ ipprotoTcp) (ipLen rxLen : Word)
    (srcIp : BitVec 32) (l : Lan η) :
    (outcome (do
      netIpv4Reply ipLen proto srcIp
      netEthernetReply
      rxComplete rxLen) l).2.segment = none := by
  refine segment_of_not fun htcp => h ?_
  rw [← htcp.2, rxFrame_ending (by decide)]
  exact (hasHeader_netIpv4Reply ipLen proto srcIp l).proto.symm

section Functions

variable {α : Type}

/-- No segment is emitted. -/
abbrev Mute (x : N η α) : Prop := Triple Lan.Idle x fun _ l => l.segment = none

/-- What comes before the ending does not matter. -/
theorem triple_skip {x : N η α} {P : Lan η → Prop} :
    Triple P x fun _ _ => True := fun _ _ => trivial

theorem mute_of_quiet {x : N η α} (hx : Generated QuietAction x) : Mute x :=
  (triple_idle hx).post fun _ _ => Lan.Idle.segment

theorem mute_netHandleIcmp (tx : ℕ → Byte) (txLen : Word) :
    Mute (netHandleIcmp tx txLen : N η Unit) := by
  unfold netHandleIcmp
  refine .bind (triple_idle inferInstance) fun type => ?_
  refine .ite (fun _ => ?_) fun _ => mute_of_quiet inferInstance
  refine .bind (triple_idle inferInstance) fun dstIp => ?_
  refine .ite (fun _ => ?_) fun _ => mute_of_quiet inferInstance
  iterate 6 refine triple_skip.bind fun _ => ?_
  exact fun l _ => segment_ending (by decide) _ _ _ l

/-- A reply of DHCP is a packet of UDP. -/
theorem mute_netHandleDhcp (tx : ℕ → Byte) : Mute (netHandleDhcp tx : N η Unit) := by
  have hreply : ∀ type, Mute (netDhcpReply tx type : N η Unit) := by
    intro type
    unfold netDhcpReply
    -- only the ending decides, the fields before it are not looked at
    iterate 11 refine triple_skip.bind fun _ => ?_
    exact fun l _ => segment_ending (by decide) _ _ _ l
  unfold netHandleDhcp
  refine .bind (triple_idle inferInstance) fun cookie => ?_
  refine .ite (fun _ => ?_) fun _ => mute_of_quiet inferInstance
  refine .bind (triple_idle inferInstance) fun type => ?_
  refine .ite (fun _ => hreply 0x02) fun _ => ?_
  refine .bind (triple_idle inferInstance) fun type => ?_
  exact .ite (fun _ => hreply 0x05) fun _ => mute_of_quiet inferInstance

theorem mute_netHandleUdp (host : Host η) (tx : ℕ → Byte) : Mute (netHandleUdp host tx) := by
  unfold netHandleUdp
  iterate 4 refine .bind (triple_idle inferInstance) fun _ => ?_
  refine .ite (fun _ => ?_) fun _ => ?_
  · exact .ite (fun _ => mute_netHandleDhcp tx) fun _ => mute_of_quiet inferInstance
  · refine mute_of_quiet ?_
    repeat' first
      | with_reducible refine Generated.seq _ _ ?_ fun _ => ?_
      | split
      | exact generated_note rfl
      | infer_instance

theorem mute_netCheckUdpSocket (host : Host η) (i : Slot) : Mute (netCheckUdpSocket host i) := by
  unfold netCheckUdpSocket
  refine .bind (triple_idle inferInstance) fun n => ?_
  dsimp only
  refine .bind (triple_idle inferInstance) fun received => ?_
  split
  · refine .bind (triple_idle inferInstance) fun errno => ?_
    exact mute_of_quiet inferInstance
  · iterate 4 refine triple_skip.bind fun _ => ?_
    exact fun l _ => segment_ending (by decide) _ _ _ l

/-- An ARP reply has the ethertype of ARP. -/
theorem mute_netHandleArp (tx : ℕ → Byte) (txLen : Word) :
    Mute (netHandleArp tx txLen : N η Unit) := by
  -- the ethertype stays, since every later write is behind it
  let Marked (l : Lan η) : Prop := l.Idle ∧ txWord l.net.rxFrame 0x0C = ethertypeArp
  have hbehind : ∀ {start : ℕ} {bytes : List Byte}, 0x0E ≤ start →
      Triple Marked (writeRx start bytes : N η Unit) fun _ => Marked := by
    refine fun {start bytes} h l hl => ⟨hl.1, ?_⟩
    exact (txWord_setBytes_of_not (.inl h) l.net).trans hl.2
  have hidle : ∀ {l : Lan η}, Marked l → l.segment = none := fun h => h.1.segment
  unfold netHandleArp
  refine .ite (fun _ => mute_of_quiet inferInstance) fun _ => ?_
  refine .bind (triple_idle inferInstance) fun oper => ?_
  refine .ite (fun _ => ?_) fun _ => mute_of_quiet inferInstance
  refine .bind (Q := fun _ => Marked) (fun l hl => ⟨hl, ?_⟩) fun _ => ?_
  · exact txWord_setBytes 0x0C ethertypeArp l.net
  refine .bind (hbehind (by decide)) fun _ => .bind (hbehind (by decide)) fun _ => ?_
  refine .bind (Q := fun _ => Marked) (fun l hl => hl) fun whoHasIp => ?_
  dsimp only
  split
  -- the request is for another address, so nothing is sent
  · exact .ret fun l hl => hl.1.segment
  · refine .bind (hbehind (by decide)) fun _ => .bind (hbehind (by decide)) fun _ => ?_
    refine .bind (hbehind (by decide)) fun _ => .bind (hbehind (by decide)) fun _ => ?_
    intro l hl
    -- `net_ethernet_reply` writes the addresses only
    refine segment_of_not fun htcp => ?_
    have hethertype := htcp.1
    rw [outcome_bind] at hethertype
    change txWord (outcome netEthernetReply l).2.net.rxFrame 0x0C = _ at hethertype
    rw [txWord, rxFrame_netEthernetReply_of_le (by decide),
      rxFrame_netEthernetReply_of_le (by decide), ← txWord, hl.2] at hethertype
    exact absurd hethertype (by decide)

/-- A reply of EtherDFS has the ethertype of the request. -/
theorem mute_edfsHandlePacket (host : Host η) {tx : ℕ → Byte}
    (h : txWord tx 0x0C ≠ ethertypeIpv4) (txLen : Word) :
    Mute (edfsHandlePacket host tx txLen) := by
  have hmute : ∀ text, Mute (netPanic text : N η Unit) := fun text => mute_of_quiet inferInstance
  unfold edfsHandlePacket
  refine .bind (triple_idle inferInstance) fun e => ?_
  refine .ite (fun _ => ?_) fun _ => mute_of_quiet inferInstance
  refine .bind (triple_idle inferInstance) fun ver => ?_
  refine .bind (triple_idle inferInstance) fun func => ?_
  refine .ite (fun _ => hmute _) fun _ => ?_
  refine .bind (triple_idle inferInstance) fun rxLen => ?_
  split
  · exact mute_of_quiet inferInstance
  · refine .bind (triple_idle ?_) fun _ l _ => ?_
    · exact generated_modifyNet fun n => rfl
    have hreply := (triple_has_edfsReply (e := l.edfs) (h := l.host) tx l ⟨⟨rfl, rfl⟩, rfl⟩).net
    -- the ethertype is among the bytes of the request that the reply copies
    have hcopied : ∀ k < 2, (0x0C + k, [tx (0x0C + k)]) ∈ headerFields tx l.net.rxLen := by
      intro k hk
      refine List.mem_append_left _ (List.mem_append_left _ (List.mem_append_right _ ?_))
      exact List.mem_map.mpr ⟨k, List.mem_range.mpr hk, rfl⟩
    refine segment_of_not fun htcp => h ?_
    rw [← htcp.1]
    change _ = txWord (outcome (edfsReply tx) l).2.net.rxFrame 0x0C
    rw [hreply, txWord, txWord, rxFrame_withHeader tx _ (hcopied 0 (by decide)),
      rxFrame_withHeader tx _ (hcopied 1 (by decide))]

/-- What the guest transmits is answered by a segment only if it is a TCP packet itself. -/
theorem mute_netTxFrame (host : Host η) {tx : ℕ → Byte} (h : ¬ IsTcpFrame tx) (txLen : Word) :
    Mute (netTxFrame host tx txLen) := by
  have hread : Triple Lan.Idle (readTxWord tx 0x0C : N η Word) fun w l =>
      w = txWord tx 0x0C ∧ l.Idle := fun _ hl => ⟨rfl, hl⟩
  have hproto : Triple Lan.Idle (readTx tx 0x17 : N η Byte) fun byte l =>
      byte = tx 0x17 ∧ l.Idle := fun _ hl => ⟨rfl, hl⟩
  unfold netTxFrame netHandleIpv4
  refine .bind hread fun ethertype => .of_and fun hethertype => ?_
  refine .ite (fun _ => mute_netHandleArp tx txLen) fun _ => ?_
  refine .ite (fun hipv4 => ?_) fun hnot => ?_
  · refine .bind hproto fun proto => .of_and fun hbyte => ?_
    refine .ite (fun _ => mute_netHandleIcmp tx txLen) fun _ => ?_
    refine .ite (fun htcp => ?_) fun _ => ?_
    · exact absurd ⟨hethertype.symm.trans hipv4, hbyte.symm.trans htcp⟩ h
    · exact .ite (fun _ => mute_netHandleUdp host tx) fun _ => mute_of_quiet inferInstance
  · refine .ite (fun _ => ?_) fun _ => mute_of_quiet inferInstance
    exact mute_edfsHandlePacket host (fun hipv4 => hnot (hethertype.trans hipv4)) txLen

end Functions

/-! ### The segments of the sockets -/

@[simp] theorem segment_note (e : NetEvent) (l : Lan η) :
    (outcome (note e) l).2.segment = l.segment := by
  rfl

@[simp] theorem segment_modifyTcp (i : Slot) (f : NetTcpSocket → NetTcpSocket) (l : Lan η) :
    (outcome (modifyTcp i f) l).2.segment = l.segment := by
  rfl

@[simp] theorem segment_netPanic (text : String) (l : Lan η) :
    (outcome (netPanic text) l).2.segment = l.segment := by
  rfl

@[simp] theorem segment_setHost (l : Lan η) (h : η) :
    ({ l with host := h } : Lan η).segment = l.segment := rfl

@[simp] theorem segment_reading (is : List ℕ) (l : Lan η) :
    (l.reading is).segment = l.segment := rfl

/-- A segment without data. -/
theorem segment_netTcpSegment_zero (i : Slot) (flags : Byte) (dstIp advance : BitVec 32)
    {l : Lan η} (hl : l.IdleAt i dstIp) :
    (outcome (netTcpSegment 0 i flags dstIp advance) l).2.segment =
      some (l.tcp.segment i flags []) :=
  segment_netTcpSegment (by decide) i flags dstIp advance hl

section Functions

variable (host : Host η)

theorem segment_netTcpClose_of_pos {flags : Byte} (h : flags > 0) (i : Slot) {l : Lan η}
    (hl : l.Idle) :
    (outcome (netTcpClose host i flags) l).2.segment = some (l.tcp.segment i flags []) := by
  rw [← segment_netTcpSegment_zero i flags _ 0 ⟨hl, rfl⟩]
  simp only [netTcpClose, if_pos h, outcome_bind, outcome_getNet, outcome_hostCall, segment_note,
    segment_modifyTcp]
  rfl

/-- A SYN that the host accepts is answered, from the ends that it has asked for. -/
theorem segment_netTcpSyn_of_accepts {tuple : Tuple} {l : Lan η} {i : Slot} {fd : ℕ}
    (hl : l.Idle) (hfree : l.net.freeTcp = some i)
    (haccepts : host.accepts tuple l.host = some fd) (recvSeq : BitVec 32) :
    (outcome (netTcpSyn host tuple recvSeq) l).2.segment =
      some { l.tcp.segment i flagsSynAck [] with tuple := tuple } := by
  unfold Host.accepts at haccepts
  rcases hsocket : host.socket .stream l.host with ⟨_ | fd', h⟩
  · rw [hsocket] at haccepts
    cases haccepts
  · rw [hsocket] at haccepts
    dsimp only at haccepts
    split at haccepts
    case isFalse => cases haccepts
    case isTrue hok =>
      -- `socket`, `connect` and `fcntl` succeed, so the SYN+ACK is sent
      obtain ⟨hconnect, hfcntl⟩ := hok
      simp only [netTcpSyn, outcome_bind, outcome_getNet, hfree, outcome_hostCall, hsocket,
        host_modifyTcp, if_pos hconnect, if_neg hfcntl]
      refine Eq.trans (segment_netTcpSegment_zero i flagsSynAck _ 1 ?_) ?_
      · refine ⟨hl, ?_⟩
        rw [net_note, tcpSockets_modifyTcp]
      · refine congrArg some ?_
        simp only [Tcp.segment, tcp_note, tcp_modifyTcp, tcp_setHost]
        simp only [NetEvent.isTcp, if_true, Tcp.sockets_record, Tcp.sockets_modify_self]
        rfl

/-- Any other SYN is not answered. -/
theorem segment_netTcpSyn_of_not {tuple : Tuple} {l : Lan η} (hl : l.Idle)
    (h : l.net.freeTcp = none ∨ host.accepts tuple l.host = none) (recvSeq : BitVec 32) :
    (outcome (netTcpSyn host tuple recvSeq) l).2.segment = none := by
  have hnone : l.segment = none := hl.segment
  cases hfree : l.net.freeTcp with
  | none =>
    simp only [netTcpSyn, outcome_bind, outcome_getNet, hfree]
    exact hnone
  | some i =>
    have haccepts := h.resolve_left (hfree ▸ Option.some_ne_none i)
    -- one of the three calls of the host fails
    unfold Host.accepts at haccepts
    rcases hsocket : host.socket .stream l.host with ⟨_ | fd, h⟩
    · simp only [netTcpSyn, outcome_bind, outcome_getNet, hfree, outcome_hostCall, hsocket]
      exact hnone
    · rw [hsocket] at haccepts
      dsimp only at haccepts
      split at haccepts
      case isTrue => cases haccepts
      case isFalse hnot =>
        simp only [netTcpSyn, outcome_bind, outcome_getNet, hfree, outcome_hostCall, hsocket,
          host_modifyTcp]
        split
        case isTrue hconnect =>
          have hfcntl := not_not.mp (not_and.mp hnot hconnect)
          simp only [outcome_bind, outcome_hostCall, if_pos hfcntl]
          exact hnone
        case isFalse => exact hnone

/-- Data is acknowledged, if the host takes it. -/
theorem segment_netTcpData (tx : ℕ → Byte) {i : Slot} (ipLen : Word) (dataOffset : Byte)
    (recvSeq : BitVec 32) {dstIp : BitVec 32} {l : Lan η} (hl : l.IdleAt i dstIp) :
    (outcome (netTcpData host tx i ipLen dataOffset recvSeq dstIp) l).2.segment =
      some (l.tcp.segment i (if (host.takes tx (tcpData ipLen dataOffset) i l).isSome then
        flagsAck else flagsRstAck) []) := by
  unfold Host.takes
  simp only [netTcpData, outcome_bind, outcome_getNet, outcome_hostCall, tcpSockets_modifyTcp,
    host_modifyTcp]
  cases hsend : (host.send (l.net.tcpSockets i).fd
    (fun k => tx ((tcpData ipLen dataOffset).1 + k)) (tcpData ipLen dataOffset).2 l.host).1 with
  -- `send` fails, and the connection is reset
  | none =>
    dsimp only
    rw [outcome_bind, segment_netTcpClose_of_pos host (by decide) i]
    · simp only [Tcp.segment, tcp_netPanic, tcp_note, tcp_modifyTcp, tcp_setHost, NetEvent.isTcp,
        if_true, Tcp.sockets_record, Tcp.sockets_modify_self]
      rfl
    · exact hl.1
  -- what was taken is acknowledged
  | some taken =>
    dsimp only
    rw [outcome_bind, segment_netTcpSegment_zero i flagsAck dstIp 0]
    · simp only [Tcp.segment, tcp_note, tcp_modifyTcp, tcp_setHost, NetEvent.isTcp, if_true,
        Tcp.sockets_record, Tcp.sockets_modify_self]
      rfl
    · refine ⟨hl.1, ?_⟩
      rw [tcpSockets_modifyTcp, net_note]
      dsimp only
      rw [tcpSockets_modifyTcp]
      exact hl.2

end Functions

namespace Tcp

/-- What the guest gets for a packet of an open connection, by what `send` takes of its data. -/
def answered (i : Slot) (flags : Byte) (taken : Option ℕ) (t : Tcp) : Option TcpSegment :=
  if flags = flagsAck then none
  else if flags = flagsRst then none
  else if flags = flagsPshAck then
    some (t.segment i (if taken.isSome then flagsAck else flagsRstAck) [])
  else if flags = flagsFinAck then
    some (t.segment i (if (t.sockets i).finAckSent then flagsAck else flagsRstAck) [])
  else if flags = flagsRstAck then some (t.segment i flagsAck [])
  else some (t.segment i flagsRstAck [])

/-- What the guest gets from a poll, by what `recv` returns and whether it leaves `EAGAIN` in
`errno`. -/
def polled (i : Slot) (received : Option (List Byte)) (again : Bool) (t : Tcp) :
    Option TcpSegment :=
  if (t.sockets i).ackWait > 0 then none
  else match received with
    | none =>
      if again then
        if (t.sockets i).inactivityTimeout + 1 > netSocketInactivityTimeout then
          some (t.segment i flagsRstAck [])
        else none
      else some (t.segment i flagsRstAck [])
    | some bytes =>
      if bytes.length = 0 ∧ again then
        if (t.sockets i).finAckSent = false then some (t.segment i flagsFinAck []) else none
      else some (t.segment i flagsPshAck bytes)

end Tcp

section Functions

variable (host : Host η)

/-- A packet of an open connection. -/
theorem segment_netTcpApply (tx : ℕ → Byte) {i : Slot} (ipLen : Word) (dataOffset flags : Byte)
    (seq : BitVec 32) {dstIp : BitVec 32} {l : Lan η} (hl : l.IdleAt i dstIp) :
    (outcome (netTcpApply host tx i ipLen dataOffset flags seq dstIp) l).2.segment =
      l.tcp.answered i flags (host.takes tx (tcpData ipLen dataOffset) i l) := by
  -- the state in which the flags are looked at
  let l' := (outcome (do
    note (.applied i ((← getNet).tcpSockets i).tuple)
    modifyUdp i fun s => { s with inactivityTimeout := 0 }) l).2
  have hnone : l'.segment = none := Lan.Idle.segment (l := l') hl.1
  have hclose : ∀ {flags}, flags > 0 → (outcome (netTcpClose host i flags) l').2.segment =
      some (l.tcp.segment i flags []) :=
    fun h => segment_netTcpClose_of_pos host h i (l := l') hl.1
  change (outcome (if flags = flagsAck then _ else _) l').2.segment = _
  unfold Tcp.answered
  split
  · exact hnone
  split
  · exact hnone
  split
  · have hl' : l'.IdleAt i dstIp := ⟨hl.1, hl.2⟩
    have hsame : ∀ flags, l'.tcp.segment i flags [] = l.tcp.segment i flags [] := fun _ => rfl
    rw [segment_netTcpData host tx ipLen dataOffset seq hl', hsame]
    rfl
  split
  · rw [outcome_bind, outcome_getNet]
    dsimp only
    split
    · rw [hclose (by decide), if_pos (by assumption)]
    · rw [hclose (by decide), if_neg (by assumption)]
  split
  · exact hclose (by decide)
  · rw [outcome_bind, segment_netTcpClose_of_pos host (by decide) i]
    · rfl
    · exact hl.1

/-- A poll of a socket. -/
theorem segment_netCheckTcpSocket (i : Slot) {l : Lan η} (hl : l.Idle) :
    (outcome (netCheckTcpSocket host i) l).2.segment =
      l.tcp.polled i (host.received i l).1 (host.errno (host.received i l).2 = eagain) := by
  have hnone : l.segment = none := hl.segment
  unfold netCheckTcpSocket Tcp.polled
  rw [outcome_bind, outcome_getNet]
  dsimp only
  by_cases hwait : (l.tcp.sockets i).ackWait > 0
  · have hwaiting : (l.net.tcpSockets i).ackWait > 0 := hwait
    rw [if_pos hwait, if_pos hwaiting]
    exact hnone
  have hnot : ¬ (l.net.tcpSockets i).ackWait > 0 := hwait
  rw [if_neg hwait, if_neg hnot, outcome_bind, outcome_hostCall, Host.received]
  dsimp only
  rcases hrecv : host.recv (l.net.tcpSockets i).fd (netMtu - 0x36) l.host with ⟨received, h⟩
  dsimp only
  -- from here on only the state behind `recv` matters
  obtain ⟨l', hl'⟩ : ∃ l' : Lan η, l' = { l with host := h } := ⟨_, rfl⟩
  have htcp : l.tcp = l'.tcp := by rw [hl']; rfl
  have hhost : h = l'.host := by rw [hl']
  have hidle : l'.Idle := by rw [hl']; exact hl
  have haddress : (l.net.tcpSockets i).dstIp = (l'.net.tcpSockets i).dstIp := by rw [hl']
  rw [← hl', htcp, hhost, haddress]
  cases received with
  | none =>
    simp only [outcome_bind, outcome_getErrno, outcome_getNet, outcome_ite, decide_eq_true_eq,
      tcpSockets_modifyTcp]
    split
    · split
      · rw [if_pos (by assumption), segment_netTcpClose_of_pos host (by decide) i]
        · refine congrArg some ?_
          simp only [Tcp.segment, tcp_modifyTcp, Tcp.sockets_modify_self]
          rfl
        · exact hidle
      · rw [if_neg (by assumption)]
        exact hidle.segment
    · rw [segment_netTcpClose_of_pos host (by decide) i]
      · rfl
      · exact hidle
  | some bytes =>
    have hlen : bytes.length ≤ 1460 := host.recv_le (congrArg Prod.fst hrecv)
    have hfits : 0x36 + bytes.length ≤ netMtu := by
      change _ ≤ 1514
      omega
    -- the data is in the frame before the socket is looked at again
    obtain ⟨l'', hl''⟩ : ∃ l'' : Lan η, l'' = (outcome (writeRx 0x36 bytes) l').2 := ⟨_, rfl⟩
    have hwrite : l'.tcp = l''.tcp := by
      rw [hl'']
      exact (tcp_of_generated inferInstance l').symm
    have hplace : (List.range bytes.length).map (fun k => l''.net.rxFrame (0x36 + k)) = bytes := by
      refine List.ext_getElem (by simp) fun k hk hk' => ?_
      rw [List.getElem_map, List.getElem_range, hl'', rxFrame_writeRx hk']
      exact (List.getElem_eq_getD 0).symm
    have hidle' : l''.IdleAt i (l'.net.tcpSockets i).dstIp := by
      rw [hl'']
      exact ⟨hidle, rfl⟩
    have hkept : l'.host = l''.host := by rw [hl'']; rfl
    dsimp only
    rw [outcome_bind, ← hl'', hwrite, hkept]
    generalize l'.net.tcpSockets i = socket at hidle' ⊢
    simp only [outcome_bind, outcome_getErrno, outcome_getNet, outcome_ite, decide_eq_true_eq]
    split
    · split
      · rw [segment_modifyTcp, segment_netTcpSegment_zero i flagsFinAck _ 1 hidle',
          if_pos (by assumption)]
      · rw [if_neg (by assumption)]
        exact hidle'.1.segment
    · rw [segment_netTcpSegment hfits i flagsPshAck socket.dstIp]
      · refine congrArg some ?_
        simp only [Tcp.segment, tcp_modifyTcp, Tcp.sockets_modify_self]
        rw [TcpSegment.mk.injEq]
        exact ⟨rfl, rfl, rfl, hplace⟩
      · refine ⟨hidle'.1, ?_⟩
        rw [tcpSockets_modifyTcp]
        exact hidle'.2

end Functions

end Pc20iii
