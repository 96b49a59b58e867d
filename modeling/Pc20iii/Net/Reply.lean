import Pc20iii.Net.Lan
import Mathlib.Tactic.SplitIfs

/-!
# Frames for the guest

`net.c`: the checksums, and the functions that put the headers of a reply into
`rx_frame`.
-/

namespace Pc20iii

open StateProgram

variable {η : Type}

/-- `IPPROTO_ICMP`. -/
def ipprotoIcmp : Byte := 1

/-- `IPPROTO_TCP`. -/
def ipprotoTcp : Byte := 6

/-- `IPPROTO_UDP`. -/
def ipprotoUdp : Byte := 17

/-! The TCP flags that the source uses. -/

def flagsSyn : Byte := 0x02
def flagsRst : Byte := 0x04
def flagsAck : Byte := 0x10
def flagsFinAck : Byte := 0x11
def flagsSynAck : Byte := 0x12
def flagsRstAck : Byte := 0x14
def flagsPshAck : Byte := 0x18

/-! ### Checksums -/

/-- The loop of both checksums over a buffer. -/
def checksumAdd (buffer : ℕ → Byte) (len : ℕ) (add : BitVec 32) : BitVec 32 :=
  (List.range ((len + 1) / 2)).foldl (fun add k =>
    let add := add + (buffer (2 * k)).setWidth 32 <<< 8
    if 2 * k + 1 < len then add + (buffer (2 * k + 1)).setWidth 32 else add) add

/-- The loop of both checksums over the carry, `add >> 16`, for at most the given number
of passes. -/
def checksumFold (carry : BitVec 32 → BitVec 32) : ℕ → BitVec 32 → BitVec 32
  | 0, add => add
  | n + 1, add =>
    if carry add = 0 then add else checksumFold carry n ((add &&& 0xFFFF) + carry add)

/-- `add >> 16` of an `int32_t`. -/
def signedCarry (add : BitVec 32) : BitVec 32 := add.sshiftRight 16

/-- `add >> 16` of a `uint32_t`. -/
def unsignedCarry (add : BitVec 32) : BitVec 32 := add >>> 16

/-- The passes that the loop over the carry needs at most. -/
def checksumPasses : ℕ := 4

/-- The numbers that a pass over an `int32_t` takes to another. -/
theorem toInt_signedFold (add : BitVec 32) :
    ((add &&& 0xFFFF) + signedCarry add).toInt = add.toInt % 65536 + add.toInt / 65536 := by
  have hmask : (0xFFFF : BitVec 32).toNat = 2 ^ 16 - 1 := rfl
  have hlow : (add &&& 0xFFFF).toInt = add.toInt % 65536 := by
    have hnat : (add &&& 0xFFFF).toNat = add.toNat % 2 ^ 16 := by
      rw [BitVec.toNat_and, hmask, Nat.and_two_pow_sub_one_eq_mod]
    rw [BitVec.toInt_eq_toNat_of_lt (by omega), hnat, BitVec.toInt_eq_toNat_cond add]
    split <;> omega
  -- the shift is arithmetic, so the carry of a negative sum is negative
  have hcarry : (signedCarry add).toInt = add.toInt / 65536 := by
    rw [signedCarry, BitVec.toInt_sshiftRight, Int.shiftRight_eq_div_pow]
    rfl
  have hlt := add.toInt_lt
  have hle := add.le_toInt
  rw [BitVec.toInt_add, hlow, hcarry, Int.bmod_eq_of_le] <;> omega

theorem signedCarry_eq_zero {add : BitVec 32} :
    signedCarry add = 0 ↔ 0 ≤ add.toInt ∧ add.toInt < 65536 := by
  rw [← BitVec.toInt_inj, signedCarry, BitVec.toInt_sshiftRight, Int.shiftRight_eq_div_pow]
  have hzero : (0 : BitVec 32).toInt = 0 := rfl
  rw [hzero]
  omega

/-- The loop of `net_ip_checksum` over the carry ends within its passes. -/
theorem signedCarry_checksumFold (add : BitVec 32) :
    signedCarry (checksumFold signedCarry checksumPasses add) = 0 := by
  have hlt := add.toInt_lt
  have hle := add.le_toInt
  simp only [checksumPasses, checksumFold]
  split_ifs
  all_goals first
    | assumption
    | simp only [signedCarry_eq_zero, toInt_signedFold] at *; omega

/-- The numbers that a pass over a `uint32_t` takes to another. -/
theorem toNat_unsignedFold (add : BitVec 32) :
    ((add &&& 0xFFFF) + unsignedCarry add).toNat = add.toNat % 65536 + add.toNat / 65536 := by
  have hmask : (0xFFFF : BitVec 32).toNat = 2 ^ 16 - 1 := rfl
  rw [BitVec.toNat_add, BitVec.toNat_and, hmask, Nat.and_two_pow_sub_one_eq_mod, unsignedCarry,
    BitVec.toNat_ushiftRight, Nat.shiftRight_eq_div_pow]
  omega

theorem unsignedCarry_eq_zero {add : BitVec 32} : unsignedCarry add = 0 ↔ add.toNat < 65536 := by
  have hzero : (0 : BitVec 32).toNat = 0 := rfl
  rw [← BitVec.toNat_inj, unsignedCarry, BitVec.toNat_ushiftRight, Nat.shiftRight_eq_div_pow, hzero]
  omega

/-- The loop of `net_proto_checksum` over the carry ends within its passes. -/
theorem unsignedCarry_checksumFold (add : BitVec 32) :
    unsignedCarry (checksumFold unsignedCarry checksumPasses add) = 0 := by
  have hlt := add.isLt
  simp only [checksumPasses, checksumFold]
  split_ifs
  all_goals first
    | assumption
    | simp only [unsignedCarry_eq_zero, toNat_unsignedFold] at *; omega

/-- `net_ip_checksum`. -/
def netIpChecksum (buffer : ℕ → Byte) (len : ℕ) : Word :=
  (~~~checksumFold signedCarry checksumPasses (checksumAdd buffer len (-1))).setWidth 16

/-- `net_proto_checksum`. -/
def netProtoChecksum (buffer : ℕ → Byte) (len : ℕ) (srcIp dstIp : BitVec 32) (proto : Byte) :
    Word :=
  -- the pseudo header
  let add := (srcIp >>> 16) + (srcIp &&& 0xFFFF) + (dstIp >>> 16) + (dstIp &&& 0xFFFF) +
    proto.setWidth 32 + BitVec.ofNat 32 len
  let checksum : Word :=
    (~~~checksumFold unsignedCarry checksumPasses (checksumAdd buffer len add)).setWidth 16
  -- zero is not a valid checksum for UDP
  if proto = ipprotoUdp ∧ checksum = 0 then 0xFFFF else checksum

/-! ### Headers -/

/-- `net_ethernet_reply`. -/
def netEthernetReply : N η Unit := do
  writeRx 0x00 (List.replicate 6 netMacLocal)
  writeRx 0x06 (List.replicate 6 netMacRemote)

/-- `net_ipv4_reply`. -/
def netIpv4Reply (ipLen : Word) (proto : Byte) (srcIp : BitVec 32) : N η Unit := do
  writeRx 0x0C [0x08, 0x00]  -- Ethertype
  writeRx 0x0E [0x45, 0x00]  -- Version, IHL and TOS
  writeRx 0x10 (wordBytes ipLen)
  writeRx 0x12 (wordBytes (← getNet).ipId)
  writeRx 0x14 [0x00, 0x00, 0x40, proto]  -- Flags, Fragment Offset, TTL and Protocol
  writeRx 0x18 [0x00, 0x01]  -- Header Checksum
  writeRx 0x1A (longBytes srcIp)
  writeRx 0x1E (longBytes netIpLocal)
  note (.ipChecksum 0x0E 20)
  let rxFrame := (← getNet).rxFrame
  writeRx 0x18 (wordBytes (netIpChecksum (fun i => rxFrame (0x0E + i)) 20))
  modifyNet fun n => { n with ipId := n.ipId + 1 }

/-- `net_udp_reply`. -/
def netUdpReply (recvBytes : ℕ) (srcIp : BitVec 32) (srcPort dstPort : Word) : N η Unit := do
  writeRx 0x22 (wordBytes srcPort)
  writeRx 0x24 (wordBytes dstPort)
  writeRx 0x26 (wordBytes (BitVec.ofNat 16 (8 + recvBytes)))
  writeRx 0x28 [0x00, 0x00]  -- UDP Checksum
  let rxFrame := (← getNet).rxFrame
  writeRx 0x28 (wordBytes (netProtoChecksum (fun i => rxFrame (0x22 + i)) (8 + recvBytes)
    srcIp netIpLocal ipprotoUdp))

/-- `net_tcp_reply`, for a payload of `len` bytes that is in place. -/
def netTcpReply (len : ℕ) (socketIndex : Slot) (flags : Byte) : N η Unit := do
  let socket := (← getNet).tcpSockets socketIndex
  note (.segment socketIndex socket.sendSeq socket.recvSeq flags len)
  writeRx 0x22 (wordBytes socket.dstPort)
  writeRx 0x24 (wordBytes socket.srcPort)
  writeRx 0x26 (longBytes socket.sendSeq)
  writeRx 0x2A (longBytes socket.recvSeq)
  writeRx 0x2E [0x50, flags]  -- Data Offset
  writeRx 0x30 [0xFF, 0x00, 0x00, 0x00, 0x00, 0x00]  -- Window Size, Checksum, Urgent Pointer
  let rxFrame := (← getNet).rxFrame
  writeRx 0x32 (wordBytes (netProtoChecksum (fun i => rxFrame (0x22 + i)) (20 + len)
    socket.dstIp netIpLocal ipprotoTcp))

/-- A TCP segment for the guest: the three headers, and the frame is ready. `send_seq` is
advanced after the TCP header, "increment after". -/
def netTcpSegment (len : ℕ) (socketIndex : Slot) (flags : Byte) (dstIp : BitVec 32)
    (advance : BitVec 32) : N η Unit := do
  netTcpReply len socketIndex flags
  modifyTcp socketIndex fun s => { s with sendSeq := s.sendSeq + advance }
  netIpv4Reply (BitVec.ofNat 16 (20 + 20 + len)) ipprotoTcp dstIp
  netEthernetReply
  rxComplete (BitVec.ofNat 16 (14 + 20 + 20 + len))

/-! ### What a segment carries -/

/-- A write leaves the bytes outside it alone. -/
theorem rxFrame_writeRx_of_not {start i : ℕ} {bytes : List Byte}
    (h : i < start ∨ start + bytes.length ≤ i) (l : Lan η) :
    (outcome (writeRx start bytes) l).2.net.rxFrame i = l.net.rxFrame i :=
  if_neg (by omega)

/-- A write puts its bytes in place. -/
theorem rxFrame_writeRx {start k : ℕ} {bytes : List Byte} (h : k < bytes.length) (l : Lan η) :
    (outcome (writeRx start bytes) l).2.net.rxFrame (start + k) = bytes.getD k 0 := by
  refine (if_pos (by omega)).trans ?_
  rw [Nat.add_sub_cancel_left]

@[simp] theorem length_wordBytes (w : Word) : (wordBytes w).length = 2 := rfl

@[simp] theorem length_longBytes (w : BitVec 32) : (longBytes w).length = 4 := rfl

/-- A write to the headers in front of a segment leaves the segment alone. -/
theorem rxFrame_writeRx_of_le {start i : ℕ} {bytes : List Byte} (hi : 0x22 ≤ i)
    (h : start + bytes.length ≤ 0x22) (l : Lan η) :
    (outcome (writeRx start bytes) l).2.net.rxFrame i = l.net.rxFrame i :=
  rxFrame_writeRx_of_not (.inr (by omega)) l

theorem rxFrame_netIpv4Reply {i : ℕ} (h : 0x22 ≤ i) (ipLen : Word) (proto : Byte)
    (srcIp : BitVec 32) (l : Lan η) :
    (outcome (netIpv4Reply ipLen proto srcIp) l).2.net.rxFrame i = l.net.rxFrame i := by
  have hid : ∀ l : Lan η, (outcome (modifyNet fun n => { n with ipId := n.ipId + 1 })
      l).2.net.rxFrame i = l.net.rxFrame i := fun _ => rfl
  simp (disch := exact Nat.le_of_ble_eq_true rfl) only [netIpv4Reply, outcome_bind,
    outcome_getNet, hid, net_note, rxFrame_writeRx_of_le h]

theorem rxFrame_netEthernetReply {i : ℕ} (h : 0x22 ≤ i) (l : Lan η) :
    (outcome netEthernetReply l).2.net.rxFrame i = l.net.rxFrame i := by
  simp (disch := exact Nat.le_of_ble_eq_true rfl) only [netEthernetReply, outcome_bind,
    rxFrame_writeRx_of_le h]

/-- The fields of a TCP header that the history records: the numbers and the flags. -/
theorem rxFrame_netTcpReply (len : ℕ) (i : Slot) (flags : Byte) (l : Lan η) :
    let n := (outcome (netTcpReply len i flags) l).2.net
    (∀ k < 4, n.rxFrame (0x26 + k) = (longBytes (l.net.tcpSockets i).sendSeq).getD k 0) ∧
      (∀ k < 4, n.rxFrame (0x2A + k) = (longBytes (l.net.tcpSockets i).recvSeq).getD k 0) ∧
      n.rxFrame 0x2F = flags := by
  -- the fields are written in their order
  have hafter : ∀ {start j : ℕ} {bytes : List Byte} (l : Lan η), j < start →
      (outcome (writeRx start bytes) l).2.net.rxFrame j = l.net.rxFrame j :=
    fun l h => rxFrame_writeRx_of_not (.inl h) l
  simp only [netTcpReply, outcome_bind, outcome_getNet]
  refine ⟨fun k hk => ?_, fun k hk => ?_, ?_⟩
  · iterate 4 rw [hafter _ (by omega)]
    exact rxFrame_writeRx hk _
  · iterate 3 rw [hafter _ (by omega)]
    exact rxFrame_writeRx hk _
  · iterate 2 rw [hafter _ (by omega)]
    exact rxFrame_writeRx (k := 1) (by simp) _

/-- The frame of a segment has the numbers of the socket and the flags in its TCP header. -/
theorem rxFrame_netTcpSegment (len : ℕ) (i : Slot) (flags : Byte) (dstIp advance : BitVec 32)
    (l : Lan η) :
    let n := (outcome (netTcpSegment len i flags dstIp advance) l).2.net
    n.rxReady = true ∧
      (∀ k < 4, n.rxFrame (0x26 + k) = (longBytes (l.net.tcpSockets i).sendSeq).getD k 0) ∧
      (∀ k < 4, n.rxFrame (0x2A + k) = (longBytes (l.net.tcpSockets i).recvSeq).getD k 0) ∧
      n.rxFrame 0x2F = flags := by
  -- the headers of IP and Ethernet end before the TCP header
  have hframe : ∀ {j : ℕ}, 0x22 ≤ j →
      (outcome (netTcpSegment len i flags dstIp advance) l).2.net.rxFrame j =
        (outcome (netTcpReply len i flags) l).2.net.rxFrame j := by
    intro j hj
    have hcomplete : ∀ (len : Word) (l : Lan η),
        (outcome (rxComplete len) l).2.net.rxFrame j = l.net.rxFrame j := fun _ _ => rfl
    rw [netTcpSegment, outcome_bind, outcome_bind, outcome_bind, outcome_bind, hcomplete,
      rxFrame_netEthernetReply hj, rxFrame_netIpv4Reply hj]
    rfl
  obtain ⟨hseq, hack, hflags⟩ := rxFrame_netTcpReply len i flags l
  refine ⟨rfl, fun k hk => ?_, fun k hk => ?_, ?_⟩
  · rw [hframe (by omega)]
    exact hseq k hk
  · rw [hframe (by omega)]
    exact hack k hk
  · rw [hframe (by omega)]
    exact hflags

end Pc20iii
