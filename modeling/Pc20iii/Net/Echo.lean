import Pc20iii.Net.Checksum

/-!
# Echo replies

What `net_handle_icmp` answers to an echo request for the address 10.0.0.1.

The reply is as long as the frame of the request, whatever the IP header says. A driver pads a
short frame to 60 bytes, so the reply has the length of the request exactly from a total length
of 46 on (`echo_reply_iff`); a shorter request is answered with the padding as data.
-/

namespace Pc20iii

open StateProgram

variable {η : Type} (host : Host η)

/-- The total length in the IP header of a frame. -/
def ipTotalLength (frame : ℕ → Byte) : ℕ := (txWord frame 0x10).toNat

/-- An echo request for 10.0.0.1, with an IP header of 20 bytes, in a frame that is padded to
60 bytes. -/
structure EchoRequest (tx : ℕ → Byte) (txLen : Word) : Prop where
  ethertype : txWord tx 0x0C = ethertypeIpv4
  header : tx 0x0E = 0x45
  proto : tx 0x17 = ipprotoIcmp
  dstIp : txLong tx 0x1E = netIpRemote
  type : tx 0x22 = 8
  le_length : 28 ≤ ipTotalLength tx
  length_le : ipTotalLength tx ≤ 1500
  padded : txLen.toNat = max 60 (14 + ipTotalLength tx)

/-- The frame for the guest is the echo reply: it has the total length, the identifier, the
sequence number and the data of the request, and ends there. -/
structure EchoReply (tx : ℕ → Byte) (n : Net) : Prop where
  ready : n.rxReady = true
  type : n.rxFrame 0x22 = 0
  length : ipTotalLength n.rxFrame = ipTotalLength tx
  identifier : txWord n.rxFrame 0x26 = txWord tx 0x26
  sequence : txWord n.rxFrame 0x28 = txWord tx 0x28
  data : ∀ k < ipTotalLength tx - 28, n.rxFrame (0x2A + k) = tx (0x2A + k)
  unpadded : n.rxLen.toNat = 14 + ipTotalLength tx

/-- The message of the reply. -/
def netEchoMessage (tx : ℕ → Byte) (txLen : Word) : N η Unit := do
  writeRx 0x22 [0x00, 0x00]
  writeRx 0x24 [0x00, 0x01]
  copyTx tx 0x26 (txLen.toNat - 0x26)
  let len := sizeT (txLen.toNat - 0x22)
  note (.ipChecksum 0x22 len)
  let rxFrame := (← getNet).rxFrame
  writeRx 0x24 (wordBytes (netIpChecksum (fun i => rxFrame (0x22 + i)) len))

/-- An echo request is answered with its message, behind the headers of a reply. -/
theorem outcome_netTxFrame_echo {tx : ℕ → Byte} {txLen : Word} (h : EchoRequest tx txLen)
    (l : Lan η) :
    outcome (netTxFrame host tx txLen) l =
      outcome (do
        netIpv4Reply (txLen - 14) ipprotoIcmp netIpRemote
        netEthernetReply
        rxComplete txLen)
      (outcome (netEchoMessage tx txLen)
        (l.reading [0x0C, 0x0D, 0x17, 0x22, 0x1E, 0x1F, 0x20, 0x21])).2 := by
  -- the dispatch reads the ethertype and the protocol, the function the type and the address
  have hicmp : outcome (netTxFrame host tx txLen) l =
      outcome (netHandleIcmp tx txLen) (l.reading [0x0C, 0x0D, 0x17]) := by
    simp only [netTxFrame, netHandleIpv4, outcome_bind, outcome_readTxWord, outcome_ite,
      outcome_readTx, h.ethertype, h.proto, reading_reading]
    rw [if_neg (by decide), if_pos trivial, if_pos trivial]
    rfl
  have hecho : outcome (netHandleIcmp tx txLen) (l.reading [0x0C, 0x0D, 0x17]) =
      outcome (do
        netEchoMessage tx txLen
        netIpv4Reply (txLen - 14) ipprotoIcmp netIpRemote
        netEthernetReply
        rxComplete txLen) (l.reading [0x0C, 0x0D, 0x17, 0x22, 0x1E, 0x1F, 0x20, 0x21]) := by
    simp only [netHandleIcmp, netEchoMessage, outcome_bind, outcome_readTx, outcome_ite, h.type,
      outcome_readTxLong, h.dstIp, reading_reading]
    rw [if_pos trivial, if_pos trivial]
    rfl
  rw [hicmp, hecho, outcome_bind]

/-! ### The message -/

/-- Behind its checksum the message is that of the request. -/
theorem rxFrame_netEchoMessage {tx : ℕ → Byte} {txLen : Word} {i : ℕ} (hi : 0x26 ≤ i)
    (h : i < txLen.toNat) (l : Lan η) :
    (outcome (netEchoMessage tx txLen) l).2.net.rxFrame i = tx i := by
  simp only [netEchoMessage, outcome_bind, outcome_getNet]
  rw [rxFrame_writeRx_of_not (.inr hi), net_note, rxFrame_copyTx, if_pos (by omega)]

theorem rxFrame_netEchoMessage_type (tx : ℕ → Byte) (txLen : Word) (l : Lan η) :
    (outcome (netEchoMessage tx txLen) l).2.net.rxFrame 0x22 = 0 := by
  simp only [netEchoMessage, outcome_bind, outcome_getNet]
  rw [rxFrame_writeRx_of_not (.inl (by decide)), net_note, rxFrame_copyTx,
    if_neg (by omega), rxFrame_writeRx_of_not (.inl (by decide))]
  exact rxFrame_writeRx (k := 0) (by decide) _

/-- **Echo replies.** The reply to an echo request has the length of the request, its
identifier, sequence number and data, and no padding, exactly when the request has needed no
padding. -/
theorem echo_reply_iff {tx : ℕ → Byte} {txLen : Word} (h : EchoRequest tx txLen) (l : Lan η) :
    EchoReply tx (outcome (netTxFrame host tx txLen) l).2.net ↔ 46 ≤ ipTotalLength tx := by
  have hpadded := h.padded
  have hmin := h.le_length
  have hmax := h.length_le
  rw [outcome_netTxFrame_echo host h]
  obtain ⟨l', hl'⟩ : ∃ l', l' = l.reading [0x0C, 0x0D, 0x17, 0x22, 0x1E, 0x1F, 0x20, 0x21] :=
    ⟨_, rfl⟩
  rw [← hl']
  obtain ⟨n, hn⟩ : ∃ n, n = (outcome (do
    netIpv4Reply (txLen - 14) ipprotoIcmp netIpRemote
    netEthernetReply
    rxComplete txLen) (outcome (netEchoMessage tx txLen) l').2).2.net := ⟨_, rfl⟩
  rw [← hn]
  -- the headers of the reply are in front of its message
  have hmessage : ∀ i, 0x22 ≤ i →
      n.rxFrame i = (outcome (netEchoMessage tx txLen) l').2.net.rxFrame i := by
    intro i hi
    rw [hn, rxFrame_ending (by omega), rxFrame_netIpv4Reply hi]
  have hcopied : ∀ i, 0x26 ≤ i → i < txLen.toNat → n.rxFrame i = tx i := fun i hi hlt =>
    (hmessage i (by omega)).trans (rxFrame_netEchoMessage hi hlt l')
  have hlength : ipTotalLength n.rxFrame = txLen.toNat - 14 := by
    have hheader := (hasHeader_netIpv4Reply (txLen - 14) ipprotoIcmp netIpRemote
      (outcome (netEchoMessage tx txLen) l').2).ipLen
    rw [ipTotalLength, txWord, hn, rxFrame_ending (by decide), rxFrame_ending (by decide),
      ← txWord, hheader]
    bv_omega
  constructor
  · -- the length of the reply is that of the frame, padding included
    intro hreply
    have hequal := hlength.symm.trans hreply.length
    omega
  · intro hlong
    have hexact : txLen.toNat = 14 + ipTotalLength tx := by omega
    refine ⟨?_, ?_, ?_, ?_, ?_, fun k hk => hcopied _ (by omega) (by omega), ?_⟩
    · rw [hn]
      rfl
    · rw [hmessage _ (by decide), rxFrame_netEchoMessage_type]
    · rw [hlength, hexact, Nat.add_sub_cancel_left]
    · rw [txWord, txWord, hcopied _ (by decide) (by omega), hcopied _ (by decide) (by omega)]
    · rw [txWord, txWord, hcopied _ (by decide) (by omega), hcopied _ (by decide) (by omega)]
    · have hrxLen : n.rxLen = txLen := by
        rw [hn]
        rfl
      rw [hrxLen, hexact]

/-- An echo request of this total length. -/
def echoOfLength (length : Word) (i : ℕ) : Byte :=
  if i = 0x0E then 0x45
  else if i = 0x10 then highByte length
  else if i = 0x11 then lowByte length
  else echoRequest i

theorem echo_reply_hundred :
    EchoReply (echoOfLength 100)
      (outcome (netTxFrame failingHost (echoOfLength 100) 114) (lanInit (edfsInit []) ())).2.net ↔
        46 ≤ ipTotalLength (echoOfLength 100) :=
  echo_reply_iff failingHost ⟨by decide, by decide, by decide, by decide, by decide, by decide,
    by decide, by decide⟩ (lanInit (edfsInit []) ())

/-- The reply to a request without data has 18 bytes of padding as its data. -/
theorem echo_reply_padded : ¬ ∀ (η : Type) (host : Host η) (tx : ℕ → Byte) (txLen : Word),
    EchoRequest tx txLen → ∀ l : Lan η,
      EchoReply tx (outcome (netTxFrame host tx txLen) l).2.net := by
  intro h
  have hreply := h Unit failingHost (echoOfLength 28) 60 ⟨by decide, by decide, by decide,
    by decide, by decide, by decide, by decide, by decide⟩ (lanInit (edfsInit []) ())
  have hlength := hreply.unpadded
  exact absurd hlength (by decide +kernel)

end Pc20iii
