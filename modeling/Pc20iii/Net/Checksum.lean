import Pc20iii.Net.Handover
import Pc20iii.Net.Tcp
import Pc20iii.Program.OnesComplement
import Pc20iii.Program.Triple

/-!
# The checksums of the frames for the guest

A receiver adds up the words of the IP header, and those of the message, for TCP and UDP behind
a pseudo header, and expects all ones (`PacketChecks`). The two loops of `net.c` start from
different seeds, `-1` over a placeholder of 1 and the sum of the pseudo header over one of 0,
and both leave the complement of what the receiver's sum is without the checksum.

* `onesSum_netIpChecksum`, `onesSum_netProtoChecksum`: a message checks once its checksum is in
  place.
* `HasHeader`, `HasMessage`: what the functions that build the two parts of a packet leave in
  `rx_frame`. `sound_ending` puts them together.
* `Lan.Sound`: a pending frame checks. The triples below take a state without a pending frame
  to such a state, function by function.
* `packets_check`: every packet over IP that is built checks.
-/

namespace Pc20iii

open StateProgram

variable {η : Type} (host : Host η)

/-! ### What a receiver adds up -/

/-- The word at `2 * k` of the message of `len` bytes at `start`, padded at its end. -/
def messageWord (frame : ℕ → Byte) (start len k : ℕ) : Word :=
  wordOf (if 2 * k + 1 < len then frame (start + (2 * k + 1)) else 0) (frame (start + 2 * k))

/-- The words of the message of `len` bytes at `start`. -/
def messageWords (frame : ℕ → Byte) (start len : ℕ) : List Word :=
  (List.range ((len + 1) / 2)).map (messageWord frame start len)

/-- The pseudo header of a message of `len` bytes. -/
def pseudoHeader (srcIp dstIp : BitVec 32) (proto : Byte) (len : Word) : List Word :=
  [srcIp.extractLsb' 16 16, srcIp.extractLsb' 0 16, dstIp.extractLsb' 16 16,
    dstIp.extractLsb' 0 16, proto.setWidth 16, len]

/-- The check that a receiver makes of an IP packet in a frame of `len` bytes succeeds. -/
structure PacketChecks (frame : ℕ → Byte) (len : Word) : Prop where
  header : onesSum (messageWords frame 0x0E 20) = 0xFFFF
  length : (txWord frame 0x10).toNat + 14 = len.toNat
  proto : frame 0x17 = ipprotoIcmp ∨ frame 0x17 = ipprotoTcp ∨ frame 0x17 = ipprotoUdp
  icmp : frame 0x17 = ipprotoIcmp →
    onesSum (messageWords frame 0x22 (len.toNat - 0x22)) = 0xFFFF
  transport : frame 0x17 ≠ ipprotoIcmp →
    onesSum (pseudoHeader (txLong frame 0x1A) (txLong frame 0x1E) (frame 0x17)
      (txWord frame 0x10 - 20) ++ messageWords frame 0x22 (len.toNat - 0x22)) = 0xFFFF
  udp : frame 0x17 = ipprotoUdp → txWord frame 0x28 ≠ 0

/-! ### The loops -/

section Loops

variable (frame : ℕ → Byte) (start len : ℕ)

/-- The loop over a buffer adds the words of a message. -/
theorem checksumAdd_eq (add : BitVec 32) :
    checksumAdd (fun i => frame (start + i)) len add =
      add + BitVec.ofNat 32 (plainSum (messageWords frame start len)) := by
  -- each turn adds one word, the last of an odd message without its low byte
  have hstep : ∀ (add : BitVec 32) (k : ℕ),
      (let add := add + (frame (start + 2 * k)).setWidth 32 <<< 8
        if 2 * k + 1 < len then add + (frame (start + (2 * k + 1))).setWidth 32 else add) =
        add + BitVec.ofNat 32 (messageWord frame start len k).toNat := by
    intro add k
    have hhi : (frame (start + 2 * k)).setWidth 32 <<< 8 =
        BitVec.ofNat 32 (256 * (frame (start + 2 * k)).toNat) := by
      bv_omega
    dsimp only
    rw [messageWord, wordOf_toNat, hhi]
    by_cases hlast : 2 * k + 1 < len
    · rw [if_pos hlast, if_pos hlast, Nat.add_comm (frame (start + (2 * k + 1))).toNat,
        BitVec.ofNat_add, BitVec.ofNat_toNat 32 (frame (start + (2 * k + 1))), BitVec.add_assoc]
    · have hpad : (0 : Byte).toNat = 0 := rfl
      rw [if_neg hlast, if_neg hlast, hpad, Nat.zero_add]
  rw [checksumAdd, messageWords]
  -- the induction is on the words that are left
  generalize List.range ((len + 1) / 2) = ks
  induction ks generalizing add with
  | nil => exact (BitVec.add_zero add).symm
  | cons k ks ih =>
    rw [List.foldl_cons, hstep, ih, List.map_cons, plainSum_cons, BitVec.ofNat_add,
      BitVec.add_assoc]

theorem plainSum_messageWords_le :
    plainSum (messageWords frame start len) ≤ (len + 1) / 2 * 65535 := by
  have hle := plainSum_le (messageWords frame start len)
  rwa [messageWords, List.length_map, List.length_range] at hle

end Loops

/-- The loop over the carry: where the sum ends. -/
structure Folded (n : ℕ) (r : BitVec 32) : Prop where
  lt : r.toNat < 65536
  modEq : r.toNat ≡ n [MOD 65535]
  eq_zero_iff : r.toNat = 0 ↔ n = 0

/-- The loop over a `uint32_t` folds the sum to 16 bits, the same modulo 65535 and 0 only for 0. -/
theorem folded_unsigned (add : BitVec 32) :
    Folded add.toNat (checksumFold unsignedCarry checksumPasses add) := by
  -- a pass keeps both, and the number of passes is enough to end the loop
  have hpasses : ∀ (passes : ℕ) (add : BitVec 32),
      (checksumFold unsignedCarry passes add).toNat ≡ add.toNat [MOD 65535] ∧
        ((checksumFold unsignedCarry passes add).toNat = 0 ↔ add.toNat = 0) := by
    intro passes
    induction passes with
    | zero => exact fun _ => ⟨rfl, Iff.rfl⟩
    | succ passes ih =>
      intro add
      rw [checksumFold]
      split
      · exact ⟨rfl, Iff.rfl⟩
      · obtain ⟨hmod, hzero⟩ := ih ((add &&& 0xFFFF) + unsignedCarry add)
        rw [toNat_unsignedFold] at hmod hzero
        exact ⟨hmod.trans (foldCarry_modEq 16 _), hzero.trans (foldCarry_eq_zero_iff 16 _)⟩
  obtain ⟨hmod, hzero⟩ := hpasses checksumPasses add
  exact ⟨unsignedCarry_eq_zero.mp (unsignedCarry_checksumFold add), hmod, hzero⟩

/-- On a sum that is not negative, the signed loop is the unsigned one. -/
theorem checksumFold_signed {add : BitVec 32} (h : add.toNat < 2 ^ 31) (passes : ℕ) :
    checksumFold signedCarry passes add = checksumFold unsignedCarry passes add := by
  induction passes generalizing add with
  | zero => rfl
  | succ passes ih =>
    have hcarry : signedCarry add = unsignedCarry add :=
      BitVec.sshiftRight_eq_of_msb_false (BitVec.msb_eq_false_iff_two_mul_lt.mpr (by omega))
    rw [checksumFold, checksumFold, hcarry]
    have hnext : ((add &&& 0xFFFF) + unsignedCarry add).toNat < 2 ^ 31 := by
      rw [toNat_unsignedFold]
      omega
    rw [ih hnext]

/-- What the loop over the carry leaves, complemented, adds to the sum a number that checks. -/
theorem complement_checks {n : ℕ} {r : BitVec 32} (h : Folded n r) :
    65535 ∣ n + ((~~~r).setWidth 16 : Word).toNat ∧
      0 < n + ((~~~r).setWidth 16 : Word).toNat := by
  have hlt := h.lt
  have hcomplement : ((~~~r).setWidth 16 : Word).toNat = 2 ^ 16 - 1 - r.toNat := by
    rw [BitVec.toNat_setWidth, BitVec.toNat_not]
    omega
  rw [hcomplement]
  exact sum_complement_of_modEq hlt h.modEq h.eq_zero_iff (by decide)

theorem onesSum_eq_of_checks {words : List Word} {n : ℕ} (hsum : plainSum words = n)
    (h : 65535 ∣ n ∧ 0 < n) : onesSum words = 0xFFFF := by
  refine (onesSum_eq_allOnes_iff (by decide)).mpr ?_
  rwa [hsum]

/-! ### Placing a checksum -/

section Placing

variable {n : Net} {start len j : ℕ}

theorem rxFrame_setBytes_of_not {i : ℕ} {bytes : List Byte}
    (h : i < start ∨ start + bytes.length ≤ i) (n : Net) :
    (n.setBytes start bytes).rxFrame i = n.rxFrame i :=
  if_neg (by omega)

theorem rxFrame_setBytes (start : ℕ) {k : ℕ} {bytes : List Byte} (h : k < bytes.length)
    (n : Net) :
    (n.setBytes start bytes).rxFrame (start + k) = bytes.getD k 0 := by
  refine (if_pos (by omega)).trans ?_
  rw [Nat.add_sub_cancel_left]

theorem txWord_setBytes (start : ℕ) (w : Word) (n : Net) :
    txWord (n.setBytes start (wordBytes w)).rxFrame start = w := by
  have hhi : (n.setBytes start (wordBytes w)).rxFrame start = highByte w :=
    rxFrame_setBytes start (k := 0) (by rw [length_wordBytes]; decide) n
  have hlo : (n.setBytes start (wordBytes w)).rxFrame (start + 1) = lowByte w :=
    rxFrame_setBytes start (k := 1) (by rw [length_wordBytes]; decide) n
  rw [txWord, hhi, hlo, wordOf_lowByte_highByte]

theorem messageWord_eq_txWord (frame : ℕ → Byte) (start : ℕ) (hj : 2 * j + 1 < len) :
    messageWord frame start len j = txWord frame (start + 2 * j) := by
  rw [messageWord, if_pos hj]
  rfl

/-- A word of a message is replaced. -/
theorem plainSum_setBytes (n : Net) (start : ℕ) (hj : 2 * j + 1 < len) (w : Word) :
    plainSum (messageWords (n.setBytes (start + 2 * j) (wordBytes w)).rxFrame start len) +
        (txWord n.rxFrame (start + 2 * j)).toNat =
      plainSum (messageWords n.rxFrame start len) + w.toNat := by
  have hword := messageWord_eq_txWord n.rxFrame start hj
  have hplaced := messageWord_eq_txWord
    (n.setBytes (start + 2 * j) (wordBytes w)).rxFrame start hj
  rw [txWord_setBytes] at hplaced
  rw [← hword]
  nth_rewrite 2 [← hplaced]
  refine plainSum_range_add (by omega) fun k hk => ?_
  -- the other words of the message are as they were
  have hother : ∀ i, i < 2 * j ∨ 2 * j + 2 ≤ i →
      (n.setBytes (start + 2 * j) (wordBytes w)).rxFrame (start + i) = n.rxFrame (start + i) := by
    intro i hi
    refine rxFrame_setBytes_of_not ?_ n
    rw [length_wordBytes]
    omega
  rw [messageWord, messageWord, hother _ (by omega), hother _ (by omega)]

theorem plainSum_lt (frame : ℕ → Byte) (start : ℕ) (hlen : len ≤ netMtu) :
    plainSum (messageWords frame start len) < 2 ^ 26 := by
  have hbound := plainSum_messageWords_le frame start len
  have hmtu : len ≤ 1514 := hlen
  omega

/-- The checksum of `net_ip_checksum` in the place that has held 1. -/
theorem onesSum_netIpChecksum (start : ℕ) (hlen : len ≤ netMtu) (hj : 2 * j + 1 < len)
    (hplace : txWord n.rxFrame (start + 2 * j) = 1) :
    onesSum (messageWords (n.setBytes (start + 2 * j)
      (wordBytes (netIpChecksum (fun i => n.rxFrame (start + i)) len))).rxFrame start len) =
      0xFFFF := by
  obtain ⟨sum, hsum⟩ : ∃ sum, sum = plainSum (messageWords n.rxFrame start len) := ⟨_, rfl⟩
  have hlt : sum < 2 ^ 26 := hsum ▸ plainSum_lt n.rxFrame start hlen
  have hone : (1 : Word).toNat = 1 := rfl
  -- the sum starts from -1, and the placeholder makes up for it
  have hpos : 1 ≤ sum := by
    have hcleared := plainSum_setBytes n start hj 0
    rw [hplace, hone, ← hsum] at hcleared
    have hzero : (0 : Word).toNat = 0 := rfl
    omega
  have hadd : (checksumAdd (fun i => n.rxFrame (start + i)) len (-1)).toNat = sum - 1 := by
    rw [checksumAdd_eq, ← hsum]
    bv_omega
  have hfolded := folded_unsigned (checksumAdd (fun i => n.rxFrame (start + i)) len (-1))
  rw [← checksumFold_signed (by omega), hadd] at hfolded
  refine onesSum_eq_of_checks ?_ (complement_checks hfolded)
  have hplaced := plainSum_setBytes n start hj
    (netIpChecksum (fun i => n.rxFrame (start + i)) len)
  rw [hplace, hone, ← hsum] at hplaced
  change _ = sum - 1 + (netIpChecksum (fun i => n.rxFrame (start + i)) len).toNat
  omega

/-- The sum that `net_proto_checksum` starts with is that of the words of the pseudo header. -/
theorem plainSum_pseudoHeader (srcIp dstIp : BitVec 32) (proto : Byte) (hlen : len ≤ netMtu) :
    ((srcIp >>> 16) + (srcIp &&& 0xFFFF) + (dstIp >>> 16) + (dstIp &&& 0xFFFF) +
      proto.setWidth 32 + BitVec.ofNat 32 len).toNat =
        plainSum (pseudoHeader srcIp dstIp proto (BitVec.ofNat 16 len)) := by
  have hmtu : len ≤ 1514 := hlen
  have hcast : ((65535 : ℕ) : BitVec 32) = 0xFFFF := rfl
  have hmask : (0xFFFF : BitVec 32).toNat = 2 ^ 16 - 1 := rfl
  have hproto : proto.toNat < 256 := proto.isLt
  -- an address is its two words
  have hlow : ∀ x : BitVec 32, (x.extractLsb' 0 16).toNat = x.toNat % 65536 := by
    intro x
    rw [BitVec.extractLsb'_toNat, Nat.shiftRight_zero]
  have hhigh : ∀ x : BitVec 32, (x.extractLsb' 16 16).toNat = x.toNat / 65536 := by
    intro x
    have hx : x.toNat < 2 ^ 32 := x.isLt
    rw [BitVec.extractLsb'_toNat, Nat.shiftRight_eq_div_pow]
    omega
  have hsrc : srcIp.toNat < 2 ^ 32 := srcIp.isLt
  have hdst : dstIp.toNat < 2 ^ 32 := dstIp.isLt
  rw [hcast]
  simp only [pseudoHeader, plainSum_cons, hlow, hhigh, BitVec.toNat_add, BitVec.toNat_ushiftRight,
    BitVec.toNat_and, hmask, Nat.and_two_pow_sub_one_eq_mod, Nat.shiftRight_eq_div_pow,
    BitVec.toNat_setWidth, BitVec.toNat_ofNat]
  have hnil : plainSum ([] : List Word) = 0 := rfl
  rw [hnil]
  omega

/-- The checksum of `net_proto_checksum` in the place that has held 0. -/
theorem onesSum_netProtoChecksum (start : ℕ) (hlen : len ≤ netMtu) (hj : 2 * j + 1 < len)
    (hplace : txWord n.rxFrame (start + 2 * j) = 0) (srcIp dstIp : BitVec 32) (proto : Byte) :
    onesSum (pseudoHeader srcIp dstIp proto (BitVec.ofNat 16 len) ++
      messageWords (n.setBytes (start + 2 * j) (wordBytes
        (netProtoChecksum (fun i => n.rxFrame (start + i)) len srcIp dstIp proto))).rxFrame
          start len) = 0xFFFF := by
  obtain ⟨sum, hsum⟩ : ∃ sum, sum = plainSum (messageWords n.rxFrame start len) := ⟨_, rfl⟩
  have hlt : sum < 2 ^ 26 := hsum ▸ plainSum_lt n.rxFrame start hlen
  obtain ⟨header, hheader⟩ : ∃ header, header =
      plainSum (pseudoHeader srcIp dstIp proto (BitVec.ofNat 16 len)) := ⟨_, rfl⟩
  have hheaderlt : header ≤ 6 * 65535 := hheader ▸ plainSum_le _
  obtain ⟨checksum, hchecksum⟩ : ∃ checksum, checksum =
      netProtoChecksum (fun i => n.rxFrame (start + i)) len srcIp dstIp proto := ⟨_, rfl⟩
  have hzero : (0 : Word).toNat = 0 := rfl
  rw [← hchecksum]
  have hplaced := plainSum_setBytes n start hj checksum
  rw [hplace, hzero, Nat.add_zero, ← hsum] at hplaced
  refine onesSum_eq_of_checks (n := header + sum + checksum.toNat) ?_ ?_
  · rw [plainSum_append, ← hheader, hplaced, Nat.add_assoc]
  · obtain ⟨add, hadd⟩ : ∃ add, add = checksumAdd (fun i => n.rxFrame (start + i)) len
        ((srcIp >>> 16) + (srcIp &&& 0xFFFF) + (dstIp >>> 16) + (dstIp &&& 0xFFFF) +
          proto.setWidth 32 + BitVec.ofNat 32 len) := ⟨_, rfl⟩
    have htotal : add.toNat = header + sum := by
      rw [hadd, checksumAdd_eq, BitVec.toNat_add, plainSum_pseudoHeader srcIp dstIp proto hlen,
        ← hheader, ← hsum, BitVec.toNat_ofNat]
      omega
    have hchecks := complement_checks (folded_unsigned add)
    rw [htotal] at hchecks
    rw [hchecksum, netProtoChecksum, ← hadd]
    split
    case isTrue hudp =>
      -- zero is replaced by all ones, which makes no difference to the sum
      rw [hudp.2, hzero, Nat.add_zero] at hchecks
      exact ⟨Nat.dvd_add hchecks.1 dvd_rfl, Nat.add_pos_left hchecks.2 _⟩
    case isFalse => exact hchecks

/-- The checksum field of UDP is not 0. -/
theorem netProtoChecksum_udp_ne_zero (buffer : ℕ → Byte) (len : ℕ) (srcIp dstIp : BitVec 32) :
    netProtoChecksum buffer len srcIp dstIp ipprotoUdp ≠ 0 := by
  rw [netProtoChecksum]
  split
  case isTrue => decide
  case isFalse h => exact fun hzero => h ⟨rfl, hzero⟩

theorem txWord_setBytes_of_not {i : ℕ} {bytes : List Byte}
    (h : i + 2 ≤ start ∨ start + bytes.length ≤ i) (n : Net) :
    txWord (n.setBytes start bytes).rxFrame i = txWord n.rxFrame i := by
  rw [txWord, txWord, rxFrame_setBytes_of_not (by omega), rxFrame_setBytes_of_not (by omega)]

theorem txLong_setBytes_of_not {i : ℕ} {bytes : List Byte}
    (h : i + 4 ≤ start ∨ start + bytes.length ≤ i) (n : Net) :
    txLong (n.setBytes start bytes).rxFrame i = txLong n.rxFrame i := by
  rw [txLong, txLong, txWord_setBytes_of_not (by omega), txWord_setBytes_of_not (by omega)]

/-- A double word is read back where it has been put. -/
theorem txLong_setBytes (start : ℕ) (w : BitVec 32) (n : Net) :
    txLong (n.setBytes start (longBytes w)).rxFrame start = w := by
  have hbyte : ∀ {k : ℕ}, k < 4 →
      (n.setBytes start (longBytes w)).rxFrame (start + k) = (longBytes w).getD k 0 :=
    fun hk => rxFrame_setBytes start hk n
  have hfirst : (n.setBytes start (longBytes w)).rxFrame start = (longBytes w).getD 0 0 :=
    hbyte (k := 0) (by decide)
  -- it is made of two words, each of two bytes
  have hhi : txWord (n.setBytes start (longBytes w)).rxFrame start = w.extractLsb' 16 16 := by
    rw [txWord, hbyte (k := 1) (by decide), hfirst]
    exact wordOf_lowByte_highByte _
  have hlo : txWord (n.setBytes start (longBytes w)).rxFrame (start + 2) =
      w.extractLsb' 0 16 := by
    rw [txWord, Nat.add_assoc, hbyte (k := 3) (by decide), hbyte (k := 2) (by decide)]
    exact wordOf_lowByte_highByte _
  have hw : w.toNat < 2 ^ 32 := w.isLt
  rw [txLong, hhi, hlo, ← BitVec.toNat_inj, BitVec.toNat_append, BitVec.extractLsb'_toNat,
    BitVec.extractLsb'_toNat, ← Nat.shiftLeft_add_eq_or_of_lt (Nat.mod_lt _ (by decide)),
    Nat.shiftRight_eq_div_pow, Nat.shiftLeft_eq, Nat.shiftRight_zero]
  omega

end Placing

/-! ### The IP header -/

/-- A frame has an IP header with these fields, and the header checks. -/
structure HasHeader (ipLen : Word) (proto : Byte) (srcIp : BitVec 32) (frame : ℕ → Byte) :
    Prop where
  sum : onesSum (messageWords frame 0x0E 20) = 0xFFFF
  ipLen : txWord frame 0x10 = ipLen
  proto : frame 0x17 = proto
  srcIp : txLong frame 0x1A = srcIp
  dstIp : txLong frame 0x1E = netIpLocal

/-- A frame has a message of `len` bytes for an IP header with these fields, and the message
checks. -/
structure HasMessage (proto : Byte) (srcIp : BitVec 32) (len : ℕ) (frame : ℕ → Byte) : Prop where
  known : proto = ipprotoIcmp ∨ proto = ipprotoTcp ∨ proto = ipprotoUdp
  icmp : proto = ipprotoIcmp → onesSum (messageWords frame 0x22 len) = 0xFFFF
  transport : proto ≠ ipprotoIcmp →
    onesSum (pseudoHeader srcIp netIpLocal proto (BitVec.ofNat 16 len) ++
      messageWords frame 0x22 len) = 0xFFFF
  udp : proto = ipprotoUdp → txWord frame 0x28 ≠ 0

/-- What `net_ipv4_reply` writes up to the checksum. -/
def Net.ipv4Header (ipLen : Word) (proto : Byte) (srcIp : BitVec 32) (n : Net) : Net :=
  let n := n.setBytes 0x0C [0x08, 0x00]
  let n := n.setBytes 0x0E [0x45, 0x00]
  let n := n.setBytes 0x10 (wordBytes ipLen)
  let n := n.setBytes 0x12 (wordBytes n.ipId)
  let n := n.setBytes 0x14 [0x00, 0x00, 0x40, proto]
  let n := n.setBytes 0x18 (wordBytes 1)
  let n := n.setBytes 0x1A (longBytes srcIp)
  n.setBytes 0x1E (longBytes netIpLocal)

section Header

variable (ipLen : Word) (proto : Byte) (srcIp : BitVec 32)

theorem net_netIpv4Reply (l : Lan η) :
    (outcome (netIpv4Reply ipLen proto srcIp) l).2.net =
      let n := l.net.ipv4Header ipLen proto srcIp
      { n.setBytes 0x18 (wordBytes (netIpChecksum (fun i => n.rxFrame (0x0E + i)) 20)) with
        ipId := n.ipId + 1 } := rfl

/-- The fields of the header, whatever the checksum. -/
theorem ipv4Header_fields (checksum : Word) (n : Net) :
    let frame := ((n.ipv4Header ipLen proto srcIp).setBytes 0x18 (wordBytes checksum)).rxFrame
    txWord frame 0x10 = ipLen ∧ frame 0x17 = proto ∧ txLong frame 0x1A = srcIp ∧
      txLong frame 0x1E = netIpLocal := by
  dsimp only [Net.ipv4Header]
  refine ⟨?_, ?_, ?_, ?_⟩
  -- the writes behind a field are at other places
  · iterate 6 rw [txWord_setBytes_of_not (.inl (by decide))]
    exact txWord_setBytes 0x10 ipLen _
  · iterate 4 rw [rxFrame_setBytes_of_not (.inl (by decide))]
    have hlast : 3 < ([0x00, 0x00, 0x40, proto] : List Byte).length := Nat.lt_succ_self 3
    exact rxFrame_setBytes 0x14 hlast _
  · rw [txLong_setBytes_of_not (.inr (by rw [length_wordBytes])),
      txLong_setBytes_of_not (.inl (by decide))]
    exact txLong_setBytes 0x1A srcIp _
  · rw [txLong_setBytes_of_not (.inr (by rw [length_wordBytes]; decide))]
    exact txLong_setBytes 0x1E netIpLocal _

theorem hasHeader_netIpv4Reply (l : Lan η) :
    HasHeader ipLen proto srcIp (outcome (netIpv4Reply ipLen proto srcIp) l).2.net.rxFrame := by
  rw [net_netIpv4Reply]
  obtain ⟨hipLen, hproto, hsrcIp, hdstIp⟩ := ipv4Header_fields ipLen proto srcIp
    (netIpChecksum (fun i => (l.net.ipv4Header ipLen proto srcIp).rxFrame (0x0E + i)) 20) l.net
  refine ⟨?_, hipLen, hproto, hsrcIp, hdstIp⟩
  refine onesSum_netIpChecksum 0x0E (j := 5) (by decide) (by decide) ?_
  rw [Net.ipv4Header, txWord_setBytes_of_not (.inl (by decide)),
    txWord_setBytes_of_not (.inl (by decide))]
  exact txWord_setBytes 0x18 1 _

end Header

theorem messageWords_congr {frame frame' : ℕ → Byte} {start : ℕ} (len : ℕ)
    (h : ∀ i, start ≤ i → i < start + len → frame' i = frame i) :
    messageWords frame' start len = messageWords frame start len := by
  refine List.map_congr_left fun k hk => ?_
  rw [List.mem_range] at hk
  rw [messageWord, messageWord, h (start + 2 * k) (by omega) (by omega)]
  split
  · rw [h _ (by omega) (by omega)]
  · rfl

/-- The header of a frame is in its bytes from 0x0C on. -/
theorem HasHeader.congr {ipLen : Word} {proto : Byte} {srcIp : BitVec 32}
    {frame frame' : ℕ → Byte} (h : HasHeader ipLen proto srcIp frame)
    (hframe : ∀ i, 0x0C ≤ i → frame' i = frame i) : HasHeader ipLen proto srcIp frame' := by
  have hlong : ∀ i, 0x0C ≤ i → txLong frame' i = txLong frame i := by
    intro i hi
    rw [txLong, txLong, txWord, txWord, txWord, txWord, hframe _ (by omega), hframe _ (by omega),
      hframe _ (by omega), hframe _ (by omega)]
  refine ⟨?_, ?_, ?_, ?_, ?_⟩
  · rw [messageWords_congr 20 fun i hi _ => hframe i (by omega), h.sum]
  · rw [txWord, hframe _ (by decide), hframe _ (by decide), ← txWord, h.ipLen]
  · rw [hframe _ (by decide), h.proto]
  · rw [hlong _ (by decide), h.srcIp]
  · rw [hlong _ (by decide), h.dstIp]

theorem HasMessage.congr {proto : Byte} {srcIp : BitVec 32} {len : ℕ} {frame frame' : ℕ → Byte}
    (h : HasMessage proto srcIp len frame) (hframe : ∀ i, 0x22 ≤ i → frame' i = frame i) :
    HasMessage proto srcIp len frame' := by
  have hwords := messageWords_congr len fun i hi _ => hframe i hi
  refine ⟨h.known, ?_, ?_, ?_⟩
  · rw [hwords]
    exact h.icmp
  · rw [hwords]
    exact h.transport
  · rw [txWord, hframe _ (by decide), hframe _ (by decide)]
    exact h.udp

/-- A header and the message it goes with. -/
theorem packetChecks_of {ipLen : Word} {proto : Byte} {srcIp : BitVec 32} {len : ℕ} {rxLen : Word}
    {frame : ℕ → Byte} (hheader : HasHeader ipLen proto srcIp frame)
    (hmessage : HasMessage proto srcIp len frame) (hipLen : ipLen.toNat = 20 + len)
    (hrxLen : rxLen.toNat = 34 + len) : PacketChecks frame rxLen := by
  -- the lengths in the header and of the frame say where the message ends
  have hlen : rxLen.toNat - 0x22 = len := by omega
  have hmessageLen : ipLen - 20 = BitVec.ofNat 16 len := by
    bv_omega
  refine ⟨hheader.sum, ?_, ?_, ?_, ?_, ?_⟩
  · rw [hheader.ipLen, hipLen, hrxLen]
    omega
  · rw [hheader.proto]
    exact hmessage.known
  · rw [hheader.proto, hlen]
    exact hmessage.icmp
  · rw [hheader.proto, hheader.ipLen, hheader.srcIp, hheader.dstIp, hmessageLen, hlen]
    exact hmessage.transport
  · rw [hheader.proto]
    exact hmessage.udp

/-! ### Frames that are completed -/

/-- A pending frame is an IP packet that checks. -/
def Lan.Sound (l : Lan η) : Prop := l.net.rxReady = true → PacketChecks l.net.rxFrame l.net.rxLen

theorem rxFrame_netEthernetReply_of_le {i : ℕ} (h : 0x0C ≤ i) (l : Lan η) :
    (outcome netEthernetReply l).2.net.rxFrame i = l.net.rxFrame i := by
  rw [netEthernetReply, outcome_bind, rxFrame_writeRx_of_not, rxFrame_writeRx_of_not]
  · exact .inr (by rw [List.length_replicate]; omega)
  · exact .inr (by rw [List.length_replicate]; omega)

/-- What all replies over IP end with, after the IP header. -/
theorem rxFrame_ending {i : ℕ} (h : 0x0C ≤ i) (ipLen : Word) (proto : Byte) (srcIp : BitVec 32)
    (rxLen : Word) (l : Lan η) :
    (outcome (do
      netIpv4Reply ipLen proto srcIp
      netEthernetReply
      rxComplete rxLen) l).2.net.rxFrame i =
        (outcome (netIpv4Reply ipLen proto srcIp) l).2.net.rxFrame i := by
  have hcomplete : ∀ l : Lan η, (outcome (rxComplete rxLen) l).2.net.rxFrame i =
      l.net.rxFrame i := fun _ => rfl
  rw [outcome_bind, outcome_bind, hcomplete]
  exact rxFrame_netEthernetReply_of_le h _

/-- A message that checks is completed by its headers. -/
theorem sound_ending {proto : Byte} {srcIp : BitVec 32} {len : ℕ} {l : Lan η}
    (h : HasMessage proto srcIp len l.net.rxFrame) {ipLen rxLen : Word}
    (hipLen : ipLen.toNat = 20 + len) (hrxLen : rxLen.toNat = 34 + len) :
    (outcome (do
      netIpv4Reply ipLen proto srcIp
      netEthernetReply
      rxComplete rxLen) l).2.Sound := by
  intro _
  have hheader := (hasHeader_netIpv4Reply ipLen proto srcIp l).congr
    fun i hi => rxFrame_ending hi ipLen proto srcIp rxLen l
  -- the headers are in front of the message, and leave it alone
  have hmessage := h.congr fun i hi =>
    (rxFrame_ending (by omega) ipLen proto srcIp rxLen l).trans
      (rxFrame_netIpv4Reply hi ipLen proto srcIp l)
  exact packetChecks_of hheader hmessage hipLen hrxLen

/-! ### Messages -/

/-- What `net_tcp_reply` writes up to the checksum. -/
def Net.tcpHeader (socket : NetTcpSocket) (flags : Byte) (n : Net) : Net :=
  let n := n.setBytes 0x22 (wordBytes socket.dstPort)
  let n := n.setBytes 0x24 (wordBytes socket.srcPort)
  let n := n.setBytes 0x26 (longBytes socket.sendSeq)
  let n := n.setBytes 0x2A (longBytes socket.recvSeq)
  let n := n.setBytes 0x2E [0x50, flags]
  n.setBytes 0x30 [0xFF, 0x00, 0x00, 0x00, 0x00, 0x00]

theorem net_netTcpReply (len : ℕ) (i : Slot) (flags : Byte) (l : Lan η) :
    (outcome (netTcpReply len i flags) l).2.net =
      let n := l.net.tcpHeader (l.net.tcpSockets i) flags
      n.setBytes 0x32 (wordBytes (netProtoChecksum (fun k => n.rxFrame (0x22 + k)) (20 + len)
        (l.net.tcpSockets i).dstIp netIpLocal ipprotoTcp)) := rfl

/-- What `net_tcp_reply` builds is a message that checks. -/
theorem hasMessage_netTcpReply {len : ℕ} (hlen : 0x36 + len ≤ netMtu) (i : Slot) (flags : Byte)
    (l : Lan η) :
    HasMessage ipprotoTcp (l.net.tcpSockets i).dstIp (20 + len)
      (outcome (netTcpReply len i flags) l).2.net.rxFrame := by
  have hmtu : 0x36 + len ≤ 1514 := hlen
  refine ⟨.inr (.inl rfl), fun hicmp => absurd hicmp (by decide), fun _ => ?_,
    fun hudp => absurd hudp (by decide)⟩
  rw [net_netTcpReply]
  refine onesSum_netProtoChecksum 0x22 (j := 8) ?_ (by omega) ?_ _ _ _
  · change 20 + len ≤ 1514
    omega
  -- the checksum has been 0 when the sum was taken
  · have hbyte : ∀ {k : ℕ} (h : k < 6) (n : Net),
        (n.setBytes 0x30 [0xFF, 0x00, 0x00, 0x00, 0x00, 0x00]).rxFrame (0x30 + k) = _ :=
      fun h n => rxFrame_setBytes 0x30 h n
    rw [Net.tcpHeader, txWord, hbyte (k := 2) (by decide), hbyte (k := 3) (by decide)]
    rfl

/-- What `net_udp_reply` writes up to the checksum. -/
def Net.udpHeader (recvBytes : ℕ) (srcPort dstPort : Word) (n : Net) : Net :=
  let n := n.setBytes 0x22 (wordBytes srcPort)
  let n := n.setBytes 0x24 (wordBytes dstPort)
  let n := n.setBytes 0x26 (wordBytes (BitVec.ofNat 16 (8 + recvBytes)))
  n.setBytes 0x28 (wordBytes 0)

theorem net_netUdpReply (recvBytes : ℕ) (srcIp : BitVec 32) (srcPort dstPort : Word) (l : Lan η) :
    (outcome (netUdpReply recvBytes srcIp srcPort dstPort) l).2.net =
      let n := l.net.udpHeader recvBytes srcPort dstPort
      n.setBytes 0x28 (wordBytes (netProtoChecksum (fun k => n.rxFrame (0x22 + k))
        (8 + recvBytes) srcIp netIpLocal ipprotoUdp)) := rfl

/-- So is what `net_udp_reply` builds, and its checksum is not 0. -/
theorem hasMessage_netUdpReply (recvBytes : ℕ) (hlen : 0x2A + recvBytes ≤ netMtu)
    (srcIp : BitVec 32) (srcPort dstPort : Word) (l : Lan η) :
    HasMessage ipprotoUdp srcIp (8 + recvBytes)
      (outcome (netUdpReply recvBytes srcIp srcPort dstPort) l).2.net.rxFrame := by
  have hmtu : 0x2A + recvBytes ≤ 1514 := hlen
  rw [net_netUdpReply]
  refine ⟨.inr (.inr rfl), fun hicmp => absurd hicmp (by decide), fun _ => ?_, fun _ => ?_⟩
  · refine onesSum_netProtoChecksum 0x22 (j := 3) ?_ (by omega) ?_ _ _ _
    · change 8 + recvBytes ≤ 1514
      omega
    · exact txWord_setBytes 0x28 0 _
  · rw [txWord_setBytes]
    exact netProtoChecksum_udp_ne_zero _ _ _ _

/-- A copy puts the bytes of its range in place. -/
theorem rxFrame_copyTx (start : ℕ) (tx : ℕ → Byte) (len i : ℕ) (l : Lan η) :
    (outcome (copyTx tx start len) l).2.net.rxFrame i =
      if start ≤ i ∧ i < start + len then tx i else l.net.rxFrame i := by
  -- the loop over any list of offsets
  have hloop : ∀ (ks : List ℕ) (l : Lan η),
      (outcome (ks.forM fun k => do
        let byte ← readTx tx (start + k)
        writeRx (start + k) [byte]) l).2.net.rxFrame i =
          if ∃ k ∈ ks, i = start + k then tx i else l.net.rxFrame i := by
    intro ks
    induction ks with
    | nil => exact fun l => (if_neg (by simp)).symm
    | cons k ks ih =>
      intro l
      rw [outcome_forM_cons, ih, outcome_bind, outcome_readTx]
      by_cases hrest : ∃ k ∈ ks, i = start + k
      · rw [if_pos hrest, if_pos (by simp [hrest])]
      · rw [if_neg hrest]
        by_cases hhere : i = start + k
        · rw [if_pos (by simp [hhere]), hhere]
          have hone : 0 < [tx (start + k)].length := Nat.one_pos
          exact rxFrame_writeRx hone _
        · rw [if_neg (by simp [hhere, hrest]), rxFrame_writeRx_of_not]
          · rfl
          · rw [List.length_singleton]
            omega
  rw [copyTx, hloop]
  refine if_congr ?_ rfl rfl
  constructor
  · rintro ⟨k, hk, rfl⟩
    have hlt := List.mem_range.mp hk
    omega
  · intro h
    exact ⟨i - start, List.mem_range.mpr (by omega), by omega⟩

/-! ### Functions that complete a frame -/

/-- No frame is pending. -/
def Lan.Idle (l : Lan η) : Prop := l.net.rxReady = false

theorem Lan.Idle.sound {l : Lan η} (h : l.Idle) : l.Sound :=
  fun hready => absurd (h.symm.trans hready) Bool.false_ne_true

section Functions

variable {α : Type}

theorem triple_idle {x : N η α} (hx : Generated QuietAction x) :
    Triple Lan.Idle x fun _ => Lan.Idle :=
  fun l h => (extends_of_generated hx l).kept.trans h

theorem triple_idle_sound {x : N η α} (hx : Generated QuietAction x) :
    Triple Lan.Idle x fun _ => Lan.Sound :=
  (triple_idle hx).post fun _ _ => Lan.Idle.sound

/-- The answer to an echo request checks, if the frame has the data that the lengths count. -/
theorem triple_netHandleIcmp {tx : ℕ → Byte} {txLen : Word} (hmin : 0x2A ≤ txLen.toNat)
    (hmax : txLen.toNat ≤ netMtu) :
    Triple Lan.Idle (netHandleIcmp tx txLen : N η Unit) fun _ => Lan.Sound := by
  have hmtu : txLen.toNat ≤ 1514 := hmax
  unfold netHandleIcmp
  refine .bind (triple_idle inferInstance) fun type => ?_
  refine .ite (fun _ => ?_) fun _ => triple_idle_sound inferInstance
  refine .bind (triple_idle inferInstance) fun dstIp => ?_
  refine .ite (fun _ => ?_) fun _ => triple_idle_sound inferInstance
  have hlen : sizeT ((txLen.toNat : ℤ) - 0x22) = txLen.toNat - 0x22 := by
    unfold sizeT
    omega
  -- the length of the reply in words, below where it could wrap
  have hipLen : (txLen - 14).toNat = 20 + (txLen.toNat - 0x22) := by bv_omega
  have hrxLen : txLen.toNat = 34 + (txLen.toNat - 0x22) := by omega
  -- the message up to its checksum, with the placeholder in place
  refine .bind (Q := fun _ _ => True) (fun _ _ => trivial) fun _ => ?_
  have hplaceholder : ([0x00, 0x01] : List Byte) = wordBytes 1 := rfl
  rw [hplaceholder]
  refine .bind (Q := fun _ l => txWord l.net.rxFrame 0x24 = 1) (fun l _ => ?_) fun _ => ?_
  · exact txWord_setBytes 0x24 1 l.net
  refine .bind (Q := fun _ l => txWord l.net.rxFrame 0x24 = 1) (fun l hplace => ?_) fun _ => ?_
  · -- the copied data starts behind the placeholder
    have hcopy : ∀ i < 0x26, (outcome (copyTx tx 0x26 (txLen.toNat - 0x26)) l).2.net.rxFrame i =
        l.net.rxFrame i := fun i hi => by rw [rxFrame_copyTx, if_neg (by omega)]
    change txWord (outcome (copyTx tx 0x26 (txLen.toNat - 0x26)) l).2.net.rxFrame 0x24 = 1
    rw [txWord, hcopy _ (by decide), hcopy _ (by decide)]
    exact hplace
  dsimp only
  rw [hlen]
  refine .bind (Q := fun _ l => txWord l.net.rxFrame 0x24 = 1) (fun _ h => h) fun _ => ?_
  intro l hplace
  -- the placeholder makes up for the -1 that the sum starts from
  have hmessage : HasMessage ipprotoIcmp netIpRemote (txLen.toNat - 0x22)
      (l.net.setBytes 0x24 (wordBytes (netIpChecksum (fun i => l.net.rxFrame (0x22 + i))
        (txLen.toNat - 0x22)))).rxFrame := by
    refine ⟨.inl rfl, fun _ => ?_, fun hicmp => absurd rfl hicmp, fun hudp =>
      absurd hudp (by decide)⟩
    refine onesSum_netIpChecksum 0x22 (j := 1) ?_ (by omega) hplace
    change _ ≤ 1514
    omega
  rw [outcome_bind, outcome_getNet, outcome_bind]
  exact sound_ending (l := (outcome (writeRx 0x24 (wordBytes (netIpChecksum
    (fun i => l.net.rxFrame (0x22 + i)) (txLen.toNat - 0x22)))) l).2) hmessage hipLen hrxLen

theorem triple_netDhcpReply (tx : ℕ → Byte) (type : Byte) :
    Triple Lan.Idle (netDhcpReply tx type : N η Unit) fun _ => Lan.Sound := by
  unfold netDhcpReply
  iterate 10 refine .bind (triple_idle inferInstance) fun _ => ?_
  intro l _
  rw [outcome_bind]
  have hmessage := hasMessage_netUdpReply 548 (by decide) netIpRemote 67 68 l
  exact sound_ending hmessage rfl rfl

theorem triple_netHandleDhcp (tx : ℕ → Byte) :
    Triple Lan.Idle (netHandleDhcp tx : N η Unit) fun _ => Lan.Sound := by
  unfold netHandleDhcp
  refine .bind (triple_idle inferInstance) fun cookie => ?_
  refine .ite (fun _ => ?_) fun _ => triple_idle_sound inferInstance
  refine .bind (triple_idle inferInstance) fun type => ?_
  refine .ite (fun _ => triple_netDhcpReply tx 0x02) fun _ => ?_
  refine .bind (triple_idle inferInstance) fun type => ?_
  exact .ite (fun _ => triple_netDhcpReply tx 0x05) fun _ => triple_idle_sound inferInstance

/-- Of the datagrams only DHCP is answered at once. -/
theorem triple_netHandleUdp (tx : ℕ → Byte) :
    Triple Lan.Idle (netHandleUdp host tx) fun _ => Lan.Sound := by
  unfold netHandleUdp
  iterate 4 refine .bind (triple_idle inferInstance) fun _ => ?_
  refine .ite (fun _ => ?_) fun _ => ?_
  · exact .ite (fun _ => triple_netHandleDhcp tx) fun _ => triple_idle_sound inferInstance
  · -- the host takes the data, and nothing is answered
    refine triple_idle_sound ?_
    repeat' first
      | with_reducible refine Generated.seq _ _ ?_ fun _ => ?_
      | split
      | exact generated_note rfl
      | infer_instance

/-- No frame is pending, and the TCP socket has the address. -/
def Lan.IdleAt (i : Slot) (dstIp : BitVec 32) (l : Lan η) : Prop :=
  l.Idle ∧ (l.net.tcpSockets i).dstIp = dstIp

/-- The steps that keep the address of a TCP socket and complete no frame. -/
abbrev AddressAction (i : Slot) : ∀ α : Type, N η α → Prop :=
  LanAction (fun _ => True) (fun n _ => (n.rxReady, (n.tcpSockets i).dstIp))

instance (i : Slot) :
    FrameEvents (fun _ => True) (fun n _ => (n.rxReady, (n.tcpSockets i).dstIp)) :=
  .of_all (fun _ _ _ => rfl) (fun _ _ => rfl) fun _ _ => rfl

theorem generated_modifyTcp_of_dstIp (i : Slot) {f : NetTcpSocket → NetTcpSocket}
    (h : ∀ s, (f s).dstIp = s.dstIp) :
    Generated (AddressAction i) (modifyTcp i f : N η Unit) := by
  refine generated_modifyNet fun n => ?_
  dsimp only
  rw [Function.update_self, h]

theorem triple_idleAt {i : Slot} {dstIp : BitVec 32} {x : N η α}
    (hx : Generated (AddressAction i) x) :
    Triple (Lan.IdleAt i dstIp) x fun _ => Lan.IdleAt i dstIp := by
  intro l h
  have hkept := (extends_of_generated hx l).kept
  obtain ⟨hready, haddress⟩ := Prod.ext_iff.mp hkept
  exact ⟨hready.trans h.1, haddress.trans h.2⟩

/-- A look at the registers. -/
theorem triple_getNet {P : Lan η → Prop} {f : Net → N η α} {Q : α → Lan η → Prop}
    (h : ∀ n, Triple (fun l => P l ∧ l.net = n) (f n) Q) : Triple P (getNet >>= f) Q :=
  fun l hl => h l.net l ⟨hl, rfl⟩

/-- A segment of a socket checks, whose address is that of the frame. -/
theorem triple_netTcpSegment {len : ℕ} (hlen : 0x36 + len ≤ netMtu) (i : Slot) (flags : Byte)
    (dstIp advance : BitVec 32) :
    Triple (Lan.IdleAt i dstIp) (netTcpSegment len i flags dstIp advance : N η Unit)
      fun _ => Lan.Sound := by
  have hmtu : 0x36 + len ≤ 1514 := hlen
  intro l h
  -- the pseudo header has the address that the segment goes to
  have hmessage := hasMessage_netTcpReply hlen i flags l
  rw [h.2] at hmessage
  have hipLen : (BitVec.ofNat 16 (20 + 20 + len)).toNat = 20 + (20 + len) := by
    rw [BitVec.toNat_ofNat]
    omega
  have hrxLen : (BitVec.ofNat 16 (14 + 20 + 20 + len)).toNat = 34 + (20 + len) := by
    rw [BitVec.toNat_ofNat]
    omega
  rw [netTcpSegment, outcome_bind, outcome_bind]
  exact sound_ending (l := (outcome (modifyTcp i fun s => { s with sendSeq := s.sendSeq + advance })
    (outcome (netTcpReply len i flags) l).2).2) hmessage hipLen hrxLen

theorem triple_netTcpClose (i : Slot) (flags : Byte) :
    Triple Lan.Idle (netTcpClose host i flags) fun _ => Lan.Sound := by
  unfold netTcpClose
  refine .bind (Q := fun _ => Lan.Sound) (.ite (fun _ => ?_) fun _ => ?_) fun _ l h => ?_
  · refine triple_getNet fun n => ?_
    refine .pre (fun l h => ?_) (triple_netTcpSegment (by decide) i flags _ 0)
    exact ⟨h.1, by rw [h.2]⟩
  · exact triple_idle_sound inferInstance
  · -- the socket is closed, and the frame is left alone
    exact h

/-- So does the answer to a SYN, or the RST of a connection that is refused. -/
theorem triple_netTcpSyn (tuple : Tuple) (recvSeq : BitVec 32) :
    Triple Lan.Idle (netTcpSyn host tuple recvSeq) fun _ => Lan.Sound := by
  unfold netTcpSyn
  refine .bind (triple_idle inferInstance) fun n => ?_
  split
  · exact triple_idle_sound inferInstance
  case h_2 i _ =>
    refine .bind (triple_idle inferInstance) fun opened => ?_
    split
    · exact triple_idle_sound inferInstance
    refine .bind (triple_idle inferInstance) fun _ => ?_
    refine .bind (triple_idle inferInstance) fun connected => ?_
    refine .ite (fun _ => ?_) fun _ => triple_netTcpClose host _ 0
    refine .bind (triple_idle inferInstance) fun _ => ?_
    refine .bind (triple_idle inferInstance) fun nonBlocking => ?_
    refine .ite (fun _ => ?_) fun _ => ?_
    · exact .bind (triple_idle inferInstance) fun _ => triple_netTcpClose host _ 0
    -- the address of the connection becomes that of the socket
    refine .bind (Q := fun _ => Lan.IdleAt i tuple.2.2) (fun l h => ⟨h, ?_⟩) fun _ => ?_
    · rw [tcpSockets_modifyTcp]
    refine .bind (triple_idleAt (generated_note trivial)) fun _ => ?_
    exact triple_netTcpSegment (by decide) i flagsSynAck tuple.2.2 1

/-- So does what data from the guest is answered with. -/
theorem triple_netTcpData (tx : ℕ → Byte) (i : Slot) (ipLen : Word) (dataOffset : Byte)
    (recvSeq dstIp : BitVec 32) :
    Triple (Lan.IdleAt i dstIp) (netTcpData host tx i ipLen dataOffset recvSeq dstIp)
      fun _ => Lan.Sound := by
  unfold netTcpData
  refine .bind (triple_idleAt (generated_modifyTcp_of_dstIp i fun _ => rfl)) fun _ => ?_
  refine .bind (triple_idleAt inferInstance) fun n => ?_
  dsimp only
  refine .bind (triple_idleAt inferInstance) fun sent => ?_
  refine .bind (triple_idleAt (generated_note trivial)) fun _ => ?_
  split
  -- the host does not take the data
  · refine .bind (triple_idleAt inferInstance) fun _ => ?_
    exact .pre (fun _ h => h.1) (triple_netTcpClose host i flagsRstAck)
  · refine .bind (triple_idleAt (generated_modifyTcp_of_dstIp i fun _ => rfl)) fun _ => ?_
    exact triple_netTcpSegment (by decide) i flagsAck dstIp 0

/-- So does the answer to any segment for a connection. -/
theorem triple_netTcpFlags (tx : ℕ → Byte) (i : Slot) (ipLen : Word) (dataOffset flags : Byte)
    (recvSeq dstIp : BitVec 32) :
    Triple (Lan.IdleAt i dstIp) (netTcpFlags host tx i ipLen dataOffset flags recvSeq dstIp)
      fun _ => Lan.Sound := by
  -- the last segment is sent with the socket as it is
  have hclose : ∀ flags, Triple (Lan.IdleAt i dstIp) (netTcpClose host i flags)
      fun _ => Lan.Sound :=
    fun flags => .pre (fun _ h => h.1) (triple_netTcpClose host i flags)
  unfold netTcpFlags
  refine .ite (fun _ => ?_) fun _ => ?_
  · exact .pre (fun _ h => h.1) (triple_idle_sound inferInstance)
  refine .ite (fun _ => ?_) fun _ => ?_
  · exact .pre (fun _ h => h.1) (triple_idle_sound inferInstance)
  refine .ite (fun _ => triple_netTcpData host tx i ipLen dataOffset recvSeq dstIp) fun _ => ?_
  refine .ite (fun _ => ?_) fun _ => ?_
  · refine .bind (triple_idleAt inferInstance) fun n => ?_
    exact .ite (fun _ => hclose flagsAck) fun _ => hclose flagsRstAck
  refine .ite (fun _ => hclose flagsAck) fun _ => ?_
  exact .bind (triple_idleAt inferInstance) fun _ => hclose flagsRstAck

/-- So do the answers to TCP. -/
theorem triple_netHandleTcp (tx : ℕ → Byte) :
    Triple Lan.Idle (netHandleTcp host tx) fun _ => Lan.Sound := by
  unfold netHandleTcp
  refine .bind (triple_idle inferInstance) fun ipLen => ?_
  refine .bind (triple_idle inferInstance) fun dstIp => ?_
  refine .bind (triple_idle inferInstance) fun srcPort => ?_
  refine .bind (triple_idle inferInstance) fun dstPort => ?_
  refine .bind (triple_idle inferInstance) fun recvSeq => ?_
  refine .bind (triple_idle inferInstance) fun dataOffset => ?_
  refine .bind (triple_idle inferInstance) fun flags => ?_
  refine .bind (triple_idle inferInstance) fun winSize => ?_
  refine .ite (fun _ => triple_netTcpSyn host _ _) fun _ => ?_
  refine triple_getNet fun n => ?_
  split
  · exact .pre (fun _ h => h.1) (triple_idle_sound inferInstance)
  case h_2 i hfind =>
    -- the connection that is found has the address of the frame
    have haddress : (n.tcpSockets i).dstIp = dstIp :=
      congrArg (fun tuple : Tuple => tuple.2.2) (findTcp_eq_some hfind).2
    rw [netTcpApply_eq]
    refine .pre (S := Lan.IdleAt i dstIp) (fun l h => ⟨h.1, ?_⟩) ?_
    · rw [h.2]
      exact haddress
    refine .bind (triple_idleAt inferInstance) fun _ => ?_
    refine .bind (triple_idleAt (generated_note trivial)) fun _ => ?_
    refine .bind (triple_idleAt ?_) fun _ => triple_netTcpFlags host tx i _ _ _ _ _
    exact generated_modifyNet fun _ => rfl

/-- So do the answers to any packet over IP. -/
theorem triple_netHandleIpv4 {tx : ℕ → Byte} {txLen : Word}
    (h : tx 0x17 = ipprotoIcmp → 0x2A ≤ txLen.toNat ∧ txLen.toNat ≤ netMtu) :
    Triple Lan.Idle (netHandleIpv4 host tx txLen) fun _ => Lan.Sound := by
  unfold netHandleIpv4
  have hread : Triple Lan.Idle (readTx tx 0x17 : N η Byte) fun byte l => byte = tx 0x17 ∧ l.Idle :=
    fun _ h => ⟨rfl, h⟩
  refine .bind hread fun proto => .of_and fun hproto => ?_
  refine .ite (fun hicmp => ?_) fun _ => ?_
  · obtain ⟨hmin, hmax⟩ := h (hproto.symm.trans hicmp)
    exact triple_netHandleIcmp hmin hmax
  refine .ite (fun _ => triple_netHandleTcp host tx) fun _ => ?_
  exact .ite (fun _ => triple_netHandleUdp host tx) fun _ => triple_idle_sound inferInstance

/-- So does a datagram from the host. -/
theorem triple_netCheckUdpSocket (i : Slot) :
    Triple Lan.Idle (netCheckUdpSocket host i) fun _ => Lan.Sound := by
  unfold netCheckUdpSocket
  refine .bind (triple_idle inferInstance) fun n => ?_
  dsimp only
  -- `recvfrom` is asked for at most what fits behind the headers
  have hrecv : Triple Lan.Idle (hostCall (host.recvfrom (n.udpSockets i).fd (netMtu - 0x2A)))
      fun received l => (∀ r, received = some r → r.1.length ≤ netMtu - 0x2A) ∧ l.Idle :=
    fun l h => ⟨fun r hr => host.recvfrom_le hr, h⟩
  refine .bind hrecv fun received => .of_and fun hlen => ?_
  split
  · refine .bind (triple_idle inferInstance) fun errno => ?_
    refine triple_idle_sound ?_
    infer_instance
  case h_2 bytes srcIp srcPort =>
    have hle : bytes.length ≤ 1472 := hlen _ rfl
    have hmtu : 0x2A + bytes.length ≤ 1514 := by omega
    refine .bind (triple_idle inferInstance) fun _ => ?_
    refine .bind (triple_idle inferInstance) fun _ => ?_
    refine .bind (triple_idle inferInstance) fun n => ?_
    intro l _
    have hmessage := hasMessage_netUdpReply bytes.length hmtu srcIp srcPort
      (n.udpSockets i).srcPort l
    have hipLen : (BitVec.ofNat 16 (20 + 8 + bytes.length)).toNat = 20 + (8 + bytes.length) := by
      rw [BitVec.toNat_ofNat]
      omega
    have hrxLen : (BitVec.ofNat 16 (14 + 20 + 8 + bytes.length)).toNat =
        34 + (8 + bytes.length) := by
      rw [BitVec.toNat_ofNat]
      omega
    rw [outcome_bind]
    exact sound_ending hmessage hipLen hrxLen

/-- So does a segment with data from the host, or with a FIN or RST. -/
theorem triple_netCheckTcpSocket (i : Slot) :
    Triple Lan.Idle (netCheckTcpSocket host i) fun _ => Lan.Sound := by
  unfold netCheckTcpSocket
  refine triple_getNet fun n => ?_
  dsimp only
  obtain ⟨dstIp, hdstIp⟩ : ∃ dstIp, dstIp = (n.tcpSockets i).dstIp := ⟨_, rfl⟩
  rw [← hdstIp]
  -- the last segment is sent with the socket as it is
  have hclose : ∀ flags, Triple (Lan.IdleAt i dstIp) (netTcpClose host i flags)
      fun _ => Lan.Sound :=
    fun flags => .pre (fun _ h => h.1) (triple_netTcpClose host i flags)
  refine .pre (S := Lan.IdleAt i dstIp) (fun l h => ⟨h.1, by rw [h.2, hdstIp]⟩) ?_
  refine .ite (fun _ => ?_) fun _ => ?_
  · exact .pre (fun _ h => h.1) (triple_idle_sound inferInstance)
  -- `recv` is asked for at most what fits behind the headers
  have hrecv : Triple (Lan.IdleAt i dstIp)
      (hostCall (host.recv (n.tcpSockets i).fd (netMtu - 0x36)))
      fun received l => (∀ bytes, received = some bytes → bytes.length ≤ netMtu - 0x36) ∧
        l.IdleAt i dstIp :=
    fun l h => ⟨fun bytes hbytes => host.recv_le hbytes, h⟩
  refine .bind hrecv fun received => .of_and fun hlen => ?_
  split
  · refine .bind (triple_idleAt inferInstance) fun errno => ?_
    refine .ite (fun _ => ?_) fun _ => ?_
    · refine .bind (triple_idleAt (generated_modifyTcp_of_dstIp i fun _ => rfl)) fun _ => ?_
      refine .bind (triple_idleAt inferInstance) fun n => ?_
      refine .ite (fun _ => hclose flagsRstAck) fun _ => ?_
      exact .pre (fun _ h => h.1) (triple_idle_sound inferInstance)
    · exact .bind (triple_idleAt inferInstance) fun _ => hclose flagsRstAck
  case h_2 bytes =>
    have hle : bytes.length ≤ 1460 := hlen _ rfl
    have hmtu : 0x36 + bytes.length ≤ 1514 := by omega
    refine .bind (triple_idleAt inferInstance) fun _ => ?_
    refine .bind (triple_idleAt inferInstance) fun errno => ?_
    refine .ite (fun _ => ?_) fun _ => ?_
    · refine .bind (triple_idleAt inferInstance) fun n => ?_
      refine .ite (fun _ => ?_) fun _ => ?_
      · -- the socket remembers the FIN, and the frame is left alone
        refine .bind (triple_netTcpSegment (by decide) i flagsFinAck dstIp 1) fun _ _ h => ?_
        exact h
      · exact .pre (fun _ h => h.1) (triple_idle_sound inferInstance)
    · refine .bind (triple_idleAt (generated_modifyTcp_of_dstIp i fun _ => rfl)) fun _ => ?_
      exact triple_netTcpSegment hmtu i flagsPshAck dstIp _

/-- A loop over the sockets stops at a frame. -/
theorem sound_netPoll (isOpen : Net → Slot → Bool) {check : Slot → N η Unit}
    (hcheck : ∀ i, Triple Lan.Idle (check i) fun _ => Lan.Sound) (slots : List Slot) :
    Triple Lan.Sound (netPoll isOpen check slots) fun _ => Lan.Sound := by
  induction slots with
  | nil => exact .ret fun _ h => h
  | cons i rest ih =>
    unfold netPoll
    refine triple_getNet fun n => ?_
    -- a frame that is there is left for the card
    refine .ite (fun _ => .ret fun _ h => h.1) fun hready => ?_
    refine .bind (Q := fun _ => Lan.Sound) (.ite (fun _ => ?_) fun _ => ?_) fun _ => ih
    · refine .pre (fun l h => ?_) (hcheck i)
      change l.net.rxReady = false
      rw [h.2]
      exact Bool.eq_false_iff.mpr hready
    · exact .ret fun _ h => h.1

theorem sound_netExecute : Triple Lan.Sound (netExecute host) fun _ => Lan.Sound := by
  unfold netExecute
  refine .bind (sound_netPoll _ (triple_netCheckUdpSocket host) _) fun done => ?_
  refine .ite (fun _ => ?_) fun _ => .ret fun _ h => h
  exact .bind (sound_netPoll _ (triple_netCheckTcpSocket host) _) fun _ => .ret fun _ h => h

end Functions

/-! ### Packets -/

/-- The steps that build packets over IP: polls, and frames of the guest with the ethertype of
IPv4, among those of ICMP the ones that have at least an ICMP header and at most `NET_MTU`
bytes. -/
def IsIpStep : LanStep → Prop
  | .transmit tx txLen => txWord tx 0x0C = ethertypeIpv4 ∧
      (tx 0x17 = ipprotoIcmp → 0x2A ≤ txLen.toNat ∧ txLen.toNat ≤ netMtu)
  | .poll => True
  | .taken => False

/-- **The checks of a receiver.** From every state without a pending frame, every packet over
IP that a step builds checks. -/
theorem packets_check {l : Lan η} {s : LanStep} (hidle : l.net.rxReady = false)
    (hstep : IsIpStep s) (hready : (lanAfter host l s).net.rxReady = true) :
    PacketChecks (lanAfter host l s).net.rxFrame (lanAfter host l s).net.rxLen := by
  have hsound : (lanAfter host l s).Sound := by
    cases s with
    | transmit tx txLen =>
      obtain ⟨hethertype, hicmp⟩ := hstep
      have harp : ethertypeIpv4 ≠ ethertypeArp := by decide
      -- the two bytes of the ethertype are read first, and decide
      have hsplit : (lanAfter host l (.transmit tx txLen)) =
          (outcome (netHandleIpv4 host tx txLen) (l.reading [0x0C, 0x0D])).2 := by
        rw [lanAfter, netTxFrame, outcome_bind, outcome_readTxWord, hethertype,
          if_neg harp, if_pos rfl]
      rw [hsplit]
      exact triple_netHandleIpv4 host hicmp _ hidle
    | poll =>
      have hnone : l.Sound := Lan.Idle.sound hidle
      exact sound_netExecute host l hnone
    | taken => exact hstep.elim
  exact hsound hready

/-- An echo request without a payload. -/
def echoRequest (i : ℕ) : Byte :=
  if i = 0x0C ∨ i = 0x22 then 0x08
  else if i = 0x17 then ipprotoIcmp
  else if i = 0x1E then 0x0A
  else if i = 0x21 then 0x01
  else 0x00

/-- A host on which a TCP server sends three bytes and a UDP server five. -/
def talkingHost : Host Unit :=
  { failingHost with
    recv := fun _ len h => (some (([0x61, 0xFF, 0x63] : List Byte).take len), h)
    recvfrom := fun _ len h =>
      (some (([0x31, 0x32, 0x33, 0x34, 0xFF] : List Byte).take len, 0xC0A80001, 53), h)
    recv_le := by
      intro fd len h bytes hbytes
      cases hbytes
      exact List.length_take_le ..
    recvfrom_le := by
      intro fd len h r hr
      cases hr
      exact List.length_take_le .. }

/-- A connection to 192.168.0.1 is open. -/
def tcpOpen : Lan Unit :=
  let l := lanInit (edfsInit []) ()
  { l with net := { l.net with
    tcpSockets := fun i => { l.net.tcpSockets i with
      fd := if i = 0 then 3 else -1
      srcPort := 0xC000
      dstPort := 80
      dstIp := 0xC0A80001 } } }

/-- A UDP socket is open. -/
def udpOpen : Lan Unit :=
  let l := lanInit (edfsInit []) ()
  { l with net := { l.net with
    udpSockets := fun i => { l.net.udpSockets i with
      fd := if i = 0 then 3 else -1
      srcPort := 0xC000
      dstPort := 53
      dstIp := 0xC0A80001 } } }

/-- An echo, a TCP segment with three bytes and a UDP datagram with five. -/
theorem packets_check_odd :
    let echo := (lanAfter talkingHost tcpOpen (.transmit echoRequest 0x2A)).net
    let tcp := (lanAfter talkingHost tcpOpen .poll).net
    let udp := (lanAfter talkingHost udpOpen .poll).net
    PacketChecks echo.rxFrame echo.rxLen ∧
      (PacketChecks tcp.rxFrame tcp.rxLen ∧ tcp.rxFrame 0x17 = ipprotoTcp ∧
        tcp.rxLen.toNat = 0x36 + 3) ∧
      PacketChecks udp.rxFrame udp.rxLen ∧ udp.rxFrame 0x17 = ipprotoUdp ∧
        udp.rxLen.toNat = 0x2A + 5 := by
  -- the lengths and the protocols are evaluated, the checksums are not
  refine ⟨?_, ⟨?_, by decide +kernel, by decide +kernel⟩, ?_, by decide +kernel, by decide +kernel⟩
  · exact packets_check talkingHost rfl ⟨by decide, fun _ => ⟨by decide, by decide⟩⟩
      (by decide +kernel)
  · exact packets_check talkingHost (s := .poll) rfl trivial (by decide +kernel)
  · exact packets_check talkingHost (s := .poll) rfl trivial (by decide +kernel)

end Pc20iii
