import Pc20iii.Net.Tcp

/-!
# The bounds of a frame

Where the handlers of ARP and IPv4 access `tx_frame` and `rx_frame`, for one transmitted
frame in any state of the network.

* `NetEvent.InBounds`: an access is inside the frame, or inside `rx_frame`.
* `announced`: how many bytes the headers of a frame take, as the frame announces them.
* `FrameContained`: the accesses of `net_tx_frame` are in bounds, and a frame that is too short
  for its headers is dropped.

Only `net_handle_arp` looks at the length of the frame, and its bound is one byte short. The
other handlers read their fields at fixed places, whatever the length, so that
`FrameContained` holds exactly for the frames that are long enough for what is done with them
(`frameContained_iff`). The ranges that are passed to `send` and `sendto` are no accesses of
the handlers.
-/

namespace Pc20iii

open StateProgram

variable {η : Type} (host : Host η)

/-! ### Bounds -/

/-- The access is in bounds, for a transmitted frame of `n` bytes. -/
def NetEvent.InBounds (n : ℕ) : NetEvent → Prop
  | .txRead i => i < n
  | .rxWrite start len => start + len ≤ netMtu
  | .ipChecksum start len => start + len ≤ netMtu ∧ len ≤ n
  | _ => True

/-- The length of the IP header, by the header itself. -/
def ipHeaderLen (tx : ℕ → Byte) : ℕ := max 20 (4 * (tx 0x0E &&& 0x0F).toNat)

/-- The length of the TCP header, by the header itself. -/
def tcpHeaderLen (tx : ℕ → Byte) : ℕ := max 20 (4 * (tx (14 + ipHeaderLen tx + 12) >>> 4).toNat)

/-- How many bytes the headers of a frame take: those of Ethernet, of ARP or IP, and of the
protocol on top of IP. -/
def announced (tx : ℕ → Byte) : ℕ :=
  if txWord tx 0x0C = ethertypeArp then 14 + 28
  else 14 + ipHeaderLen tx +
    if tx 0x17 = ipprotoIcmp then 8
    else if tx 0x17 = ipprotoTcp then tcpHeaderLen tx
    else if tx 0x17 = ipprotoUdp then 8
    else 0

/-- Nothing has changed but the history, and no frame has been built. -/
structure Lan.Dropped (l l' : Lan η) : Prop where
  same : l' = { l with log := l'.log }
  built : l'.log.count .built = l.log.count .built

/-- The accesses of `net_tx_frame` are in bounds, and a frame that is too short for its
headers is dropped. -/
structure FrameContained (tx : ℕ → Byte) (txLen : Word) (l : Lan η) : Prop where
  bounds : ∃ es, (outcome (netTxFrame host tx txLen) l).2.log = es ++ l.log ∧
    ∀ e ∈ es, e.InBounds txLen.toNat
  dropped : txLen.toNat < announced tx → l.Dropped (outcome (netTxFrame host tx txLen) l).2

/-! ### Frames that are long enough -/

/-- The frame is an echo request for the emulated host. -/
def IsEcho (tx : ℕ → Byte) : Prop := tx 0x22 = 8 ∧ txLong tx 0x1E = netIpRemote

/-- The ports are those of DHCP. -/
def IsDhcp (tx : ℕ → Byte) : Prop := txWord tx 0x24 = 67 ∧ txWord tx 0x22 = 68

instance (tx : ℕ → Byte) : Decidable (IsDhcp tx) := inferInstanceAs (Decidable (_ ∧ _))

/-- Where the magic cookie is read: up to the first byte that differs. -/
def cookieReads (tx : ℕ → Byte) : List (ℕ × Byte) → List ℕ
  | [] => []
  | (i, byte) :: rest => i :: if tx i = byte then cookieReads tx rest else []

/-- The frame has the magic cookie. -/
def HasCookie (tx : ℕ → Byte) (cookie : List (ℕ × Byte)) : Prop := ∀ p ∈ cookie, tx p.1 = p.2

instance (tx : ℕ → Byte) (cookie : List (ℕ × Byte)) : Decidable (HasCookie tx cookie) :=
  inferInstanceAs (Decidable (∀ p ∈ cookie, tx p.1 = p.2))

/-- The frame is long enough for what the handlers do with it. -/
def LongEnough (tx : ℕ → Byte) (txLen : ℕ) : Prop :=
  if txWord tx 0x0C = ethertypeArp then
    14 ≤ txLen ∧ (txLen < 0x29 ∨ txWord tx 0x14 ≠ 1 ∨ announced tx ≤ txLen)
  else
    0x18 ≤ txLen ∧
      if tx 0x17 = ipprotoIcmp then
        0x23 ≤ txLen ∧ (IsEcho tx → announced tx ≤ txLen)
      else if tx 0x17 = ipprotoTcp then
        announced tx ≤ txLen
      else if tx 0x17 = ipprotoUdp then
        0x28 ≤ txLen ∧
          if txLong tx 0x1E = 0xFFFFFFFF then
            IsDhcp tx → (∀ i ∈ cookieReads tx dhcpCookie, i < txLen) ∧
              (HasCookie tx dhcpCookie → 0x11C < txLen)
          else
            announced tx ≤ txLen
      else True

/-! ### Where the fields are read -/

theorem outcome_netTxFrame_arp {tx : ℕ → Byte} (h : txWord tx 0x0C = ethertypeArp)
    (txLen : Word) (l : Lan η) : outcome (netTxFrame host tx txLen) l =
      outcome (netHandleArp tx txLen) (l.reading [0x0C, 0x0D]) := by
  simp only [netTxFrame, outcome_bind, outcome_readTxWord, outcome_ite]
  rw [if_pos h]

/-- `net_handle_ipv4` behind its read. -/
def netIpv4Dispatch (tx : ℕ → Byte) (txLen : Word) : N η Unit := do
  if tx 0x17 = ipprotoIcmp then netHandleIcmp tx txLen
  else if tx 0x17 = ipprotoTcp then netHandleTcp host tx
  else if tx 0x17 = ipprotoUdp then netHandleUdp host tx

theorem outcome_netTxFrame_ipv4 {tx : ℕ → Byte} (h : txWord tx 0x0C = ethertypeIpv4)
    (txLen : Word) (l : Lan η) : outcome (netTxFrame host tx txLen) l =
      outcome (netIpv4Dispatch host tx txLen) (l.reading [0x0C, 0x0D, 0x17]) := by
  simp only [netTxFrame, outcome_bind, outcome_readTxWord, outcome_ite, h]
  rw [if_neg (by decide), if_pos trivial]
  rfl

/-- What `net_handle_udp` reads. -/
def udpHeader : List ℕ := [0x1E, 0x1F, 0x20, 0x21, 0x22, 0x23, 0x24, 0x25, 0x26, 0x27]

/-- `net_handle_udp` behind its reads, for a packet that is not a broadcast. -/
def netUdpSend (tx : ℕ → Byte) : N η Unit := do
  match ← netUdpSocket host (txWord tx 0x22, txWord tx 0x24, txLong tx 0x1E) with
  | none => return
  | some i =>
    modifyUdp i fun s => { s with inactivityTimeout := 0 }
    let fd := ((← getNet).udpSockets i).fd
    let (dataIndex, dataLen) := udpData (txWord tx 0x26)
    let sent ← hostCall
      (host.sendto fd (fun k => tx (dataIndex + k)) dataLen (txLong tx 0x1E) (txWord tx 0x24))
    note (.sendto i dataIndex dataLen sent)
    if sent = none then
      netPanic "sendto() failed with errno: %d\n"
      netUdpClose host i

theorem outcome_netHandleUdp (tx : ℕ → Byte) (l : Lan η) :
    outcome (netHandleUdp host tx) l =
      if txLong tx 0x1E = 0xFFFFFFFF then
        if IsDhcp tx then outcome (netHandleDhcp tx) (l.reading udpHeader)
        else ((), l.reading udpHeader)
      else outcome (netUdpSend host tx) (l.reading udpHeader) := by
  simp only [netHandleUdp, outcome_bind, outcome_readTxLong, outcome_readTxWord, outcome_ite,
    outcome_pure, reading_reading]
  rfl

/-- The bytes of the cookie are read up to the first one that differs. -/
theorem outcome_readCookie (tx : ℕ → Byte) (cookie : List (ℕ × Byte)) (l : Lan η) :
    outcome (readCookie tx cookie) l =
      (decide (HasCookie tx cookie), l.reading (cookieReads tx cookie)) := by
  induction cookie generalizing l with
  | nil => rfl
  | cons p rest ih =>
    obtain ⟨i, byte⟩ := p
    simp only [readCookie, outcome_bind, outcome_readTx, outcome_ite, outcome_pure, cookieReads]
    -- the conjunction of the source stops at the first byte that differs
    by_cases h : tx i = byte
    · have hrest : HasCookie tx ((i, byte) :: rest) ↔ HasCookie tx rest :=
        List.forall_mem_cons.trans (and_iff_right h)
      rw [if_pos h, if_pos h, ih, reading_reading, decide_eq_decide.mpr hrest]
      rfl
    · have hrest : ¬ HasCookie tx ((i, byte) :: rest) :=
        fun hall => h (List.forall_mem_cons.mp hall).1
      rw [if_neg h, if_neg h, decide_eq_false hrest]

/-- `net_handle_dhcp` behind the magic cookie and the message type. -/
def netDhcpType (tx : ℕ → Byte) : N η Unit := do
  if tx 0x11C = 0x01 then
    netDhcpReply tx 0x02
  else
    let type ← readTx tx 0x11C
    if type = 0x03 then
      netDhcpReply tx 0x05

/-- The type of a DHCP message is read behind its cookie. -/
theorem outcome_netHandleDhcp (tx : ℕ → Byte) (l : Lan η) :
    outcome (netHandleDhcp tx) l =
      if HasCookie tx dhcpCookie then
        outcome (netDhcpType tx) (l.reading (cookieReads tx dhcpCookie ++ [0x11C]))
      else ((), l.reading (cookieReads tx dhcpCookie)) := by
  rw [netHandleDhcp, outcome_bind, outcome_readCookie]
  dsimp only
  by_cases h : HasCookie tx dhcpCookie
  · rw [decide_eq_true h, if_pos rfl, if_pos h, outcome_bind, outcome_readTx, reading_reading]
    rfl
  · rw [decide_eq_false h, if_neg Bool.false_ne_true, if_neg h]
    rfl

/-! ### Frames that are contained -/

section Contained

variable {host} {tx : ℕ → Byte} {txLen : Word} {l : Lan η}

theorem extends_reading {n : ℕ} {is : List ℕ} (h : ∀ i ∈ is, i < n) (l : Lan η) :
    l.Extends (NetEvent.InBounds n) (fun _ _ => ()) (l.reading is) where
  kept := rfl
  log := by
    refine ⟨(is.map NetEvent.txRead).reverse, rfl, fun e he => ?_⟩
    obtain ⟨i, hi, rfl⟩ := List.mem_map.mp (List.mem_reverse.mp he)
    exact h i hi

/-- The handler of the frame is in bounds, behind some reads of fields. -/
theorem contained_of_extends (is : List ℕ) (hlong : announced tx ≤ txLen.toNat)
    (his : ∀ i ∈ is, i < txLen.toNat)
    (h : (l.reading is).Extends (NetEvent.InBounds txLen.toNat) (fun _ _ => ())
      (outcome (netTxFrame host tx txLen) l).2) : FrameContained host tx txLen l where
  bounds := ((extends_reading his l).trans h).log
  dropped := fun hshort => absurd hlong (Nat.not_le.mpr hshort)

/-- The frame is dropped after some reads of fields. -/
theorem contained_of_reading (is : List ℕ) (his : ∀ i ∈ is, i < txLen.toNat)
    (h : (outcome (netTxFrame host tx txLen) l).2 = l.reading is) :
    FrameContained host tx txLen l where
  bounds := by
    rw [h]
    exact (extends_reading his l).log
  dropped := fun _ => by
    rw [h]
    refine ⟨rfl, ?_⟩
    -- a read builds no frame
    have hnone : ((is.map NetEvent.txRead).reverse).count .built = 0 := by
      refine List.count_eq_zero.mpr fun hmem => ?_
      obtain ⟨i, -, hi⟩ := List.mem_map.mp (List.mem_reverse.mp hmem)
      cases hi
    change ((is.map NetEvent.txRead).reverse ++ l.log).count .built = _
    rw [List.count_append, hnone, Nat.zero_add]

end Contained

section Instances

variable {n : ℕ}

theorem replyEvents_inBounds (h : 20 ≤ n) : ReplyEvents (NetEvent.InBounds n) (fun _ _ => ()) where
  rxWrite hlen := hlen
  ipHeader := ⟨by decide, h⟩
  setBytes _ _ _ := rfl
  ipId _ _ := rfl
  rxLen _ _ := rfl

instance : ReadyEvents (NetEvent.InBounds n) (fun _ _ => ()) where
  built := trivial
  rxReady _ := rfl

instance : SendEvents (NetEvent.InBounds n) where
  send _ _ _ _ _ := trivial

instance : UdpChanges (fun _ _ => ()) where
  udpSockets _ _ := rfl

instance : TcpEvents (NetEvent.InBounds n) (fun _ _ => ()) where
  opened _ _ _ := trivial
  applied _ _ := trivial
  closed _ := trivial
  segment _ _ _ _ _ := trivial
  tcpSockets _ _ := rfl

end Instances

theorem ipHeaderLen_le (tx : ℕ → Byte) : 20 ≤ ipHeaderLen tx := le_max_left ..

section Handlers

variable {host} {tx : ℕ → Byte} {txLen : Word}

theorem announced_of_ipv4 (h : txWord tx 0x0C = ethertypeIpv4) :
    announced tx = 14 + ipHeaderLen tx +
      if tx 0x17 = ipprotoIcmp then 8
      else if tx 0x17 = ipprotoTcp then tcpHeaderLen tx
      else if tx 0x17 = ipprotoUdp then 8
      else 0 :=
  if_neg (by rw [h]; decide)

/-- An ARP frame that is long enough is contained. -/
theorem contained_arp (harp : txWord tx 0x0C = ethertypeArp) (hlong : LongEnough tx txLen.toNat)
    (l : Lan η) : FrameContained host tx txLen l := by
  have hannounced : announced tx = 42 := if_pos harp
  rw [LongEnough, if_pos harp] at hlong
  obtain ⟨hethernet, hlong⟩ := hlong
  -- a frame that is too short is dropped before its operation is read
  by_cases hshort : txLen.toNat < 0x29
  · refine contained_of_reading [0x0C, 0x0D] ?_ ?_
    · simp; omega
    · rw [outcome_netTxFrame_arp host harp, netHandleArp, if_pos hshort]
      rfl
  -- only a request is answered, and the answer reads the whole of it
  by_cases hoper : txWord tx 0x14 = 1
  · have hlen := (hlong.resolve_left hshort).resolve_left (not_not.mpr hoper)
    refine contained_of_extends [0x0C, 0x0D] hlen ?_ ?_
    · simp; omega
    rw [outcome_netTxFrame_arp host harp]
    refine extends_of_generated ?_ _
    have := replyEvents_inBounds (n := txLen.toNat) (by omega)
    unfold netHandleArp
    rw [if_neg hshort]
    repeat' first
      | with_reducible refine .seq _ _ ?_ fun _ => ?_
      | split
      | exact generated_readTxWord_of (fun k hk => show 0x14 + k < txLen.toNat by omega) tx
      | exact generated_readTxLong_of (fun k hk => show 0x26 + k < txLen.toNat by omega) tx
      | exact generated_writeRx_of_le (Nat.le_of_ble_eq_true rfl)
      | infer_instance
  · refine contained_of_reading [0x0C, 0x0D, 0x14, 0x15] ?_ ?_
    · simp; omega
    · rw [outcome_netTxFrame_arp host harp, netHandleArp, if_neg hshort, outcome_bind,
        outcome_readTxWord]
      dsimp only
      rw [if_neg hoper]
      rfl

/-- So is an ICMP message, which is read as far as it is looked at. -/
theorem contained_icmp (hipv4 : txWord tx 0x0C = ethertypeIpv4) (hicmp : tx 0x17 = ipprotoIcmp)
    (hmtu : txLen.toNat ≤ netMtu) (hlong : 0x23 ≤ txLen.toNat)
    (hecho : IsEcho tx → announced tx ≤ txLen.toNat) (l : Lan η) :
    FrameContained host tx txLen l := by
  have houtcome : ∀ l : Lan η, outcome (netTxFrame host tx txLen) l =
      outcome (netHandleIcmp tx txLen) (l.reading [0x0C, 0x0D, 0x17]) := fun l => by
    rw [outcome_netTxFrame_ipv4 host hipv4, netIpv4Dispatch, if_pos hicmp]
  -- only an echo request to the remote address is answered
  by_cases hisEcho : IsEcho tx
  · have hlen := hecho hisEcho
    have hannounced := announced_of_ipv4 hipv4
    rw [if_pos hicmp] at hannounced
    have hheader := ipHeaderLen_le tx
    refine contained_of_extends [0x0C, 0x0D, 0x17] hlen ?_ ?_
    · simp; omega
    rw [houtcome]
    refine extends_of_generated ?_ _
    have := replyEvents_inBounds (n := txLen.toNat) (by omega)
    -- the length of the data does not wrap
    have hpayload : sizeT (txLen.toNat - 0x22) = txLen.toNat - 0x22 := by
      have hlt := txLen.isLt
      unfold sizeT
      omega
    unfold netHandleIcmp
    repeat' first
      | with_reducible refine .seq _ _ ?_ fun _ => ?_
      | split
      | exact generated_readTx_of (show 0x22 < txLen.toNat by omega) tx
      | exact generated_readTxLong_of (fun k hk => show 0x1E + k < txLen.toNat by omega) tx
      | exact generated_writeRx_of_le (Nat.le_of_ble_eq_true rfl)
      | exact generated_copyTx_of (by omega) (fun k hk => show 0x26 + k < txLen.toNat by omega) tx
      | exact generated_note ⟨by omega, by omega⟩
      | infer_instance
  · -- of other messages the type is read, and of echo requests the address as well
    by_cases htype : tx 0x22 = 8
    · refine contained_of_reading [0x0C, 0x0D, 0x17, 0x22, 0x1E, 0x1F, 0x20, 0x21] ?_ ?_
      · simp; omega
      · have hdst : txLong tx 0x1E ≠ netIpRemote := fun hdst => hisEcho ⟨htype, hdst⟩
        rw [houtcome, netHandleIcmp, outcome_bind, outcome_readTx]
        dsimp only
        rw [if_pos htype, outcome_bind, outcome_readTxLong]
        dsimp only
        rw [if_neg hdst]
        rfl
    · refine contained_of_reading [0x0C, 0x0D, 0x17, 0x22] ?_ ?_
      · simp; omega
      · rw [houtcome, netHandleIcmp, outcome_bind, outcome_readTx]
        dsimp only
        rw [if_neg htype]
        rfl

/-- So is a TCP segment, whose headers are all read. -/
theorem contained_tcp (hipv4 : txWord tx 0x0C = ethertypeIpv4) (htcp : tx 0x17 = ipprotoTcp)
    (hlong : announced tx ≤ txLen.toNat) (l : Lan η) : FrameContained host tx txLen l := by
  have hannounced := announced_of_ipv4 hipv4
  rw [if_neg (by rw [htcp]; decide), if_pos htcp] at hannounced
  have hip := ipHeaderLen_le tx
  have htcpHeader : 20 ≤ tcpHeaderLen tx := le_max_left ..
  refine contained_of_extends ([0x0C, 0x0D, 0x17] ++ tcpHeader) hlong (fun i hi => ?_) ?_
  · have hfields : ∀ i ∈ [0x0C, 0x0D, 0x17] ++ tcpHeader, i < 0x32 := by decide
    have := hfields i hi
    omega
  · rw [outcome_netTxFrame_tcp host ⟨hipv4, htcp⟩]
    have := replyEvents_inBounds (n := txLen.toNat) (by omega)
    exact extends_of_generated inferInstance _

theorem outcome_netTxFrame_udp (host : Host η) (txLen : Word)
    (hipv4 : txWord tx 0x0C = ethertypeIpv4) (hudp : tx 0x17 = ipprotoUdp) (l : Lan η) :
    outcome (netTxFrame host tx txLen) l =
      outcome (netHandleUdp host tx) (l.reading [0x0C, 0x0D, 0x17]) := by
  rw [outcome_netTxFrame_ipv4 host hipv4, netIpv4Dispatch, if_neg (by rw [hudp]; decide),
    if_neg (by rw [hudp]; decide), if_pos hudp]

/-- So is a UDP datagram, sent or broadcast. -/
theorem contained_udp (hipv4 : txWord tx 0x0C = ethertypeIpv4) (hudp : tx 0x17 = ipprotoUdp)
    (hlen : 0x28 ≤ txLen.toNat)
    (hsend : txLong tx 0x1E ≠ 0xFFFFFFFF → announced tx ≤ txLen.toNat)
    (hdhcp : txLong tx 0x1E = 0xFFFFFFFF → IsDhcp tx →
      (∀ i ∈ cookieReads tx dhcpCookie, i < txLen.toNat) ∧
        (HasCookie tx dhcpCookie → 0x11C < txLen.toNat))
    (l : Lan η) : FrameContained host tx txLen l := by
  -- the headers that are always read
  have hfields : ∀ i ∈ [0x0C, 0x0D, 0x17] ++ udpHeader, i < txLen.toNat := by
    have hbelow : ∀ i ∈ [0x0C, 0x0D, 0x17] ++ udpHeader, i < 0x28 := by decide
    exact fun i hi => (hbelow i hi).trans_le hlen
  have := replyEvents_inBounds (n := txLen.toNat) (by omega)
  have houtcome := outcome_netTxFrame_udp host txLen hipv4 hudp l
  rw [outcome_netHandleUdp, reading_reading] at houtcome
  by_cases hbroadcast : txLong tx 0x1E = 0xFFFFFFFF
  · -- a broadcast is answered if it is DHCP, and dropped if not
    rw [if_pos hbroadcast] at houtcome
    by_cases hports : IsDhcp tx
    · obtain ⟨hcookie, htype⟩ := hdhcp hbroadcast hports
      rw [if_pos hports] at houtcome
      by_cases hhas : HasCookie tx dhcpCookie
      · -- the message is long enough for all headers
        have hlong := htype hhas
        have hheader : ipHeaderLen tx ≤ 60 := by
          have hnibble : (tx 0x0E &&& 0x0F).toNat ≤ 0x0F := by
            rw [BitVec.toNat_and]
            exact Nat.and_le_right
          exact max_le (by decide) (by omega)
        have hannounced := announced_of_ipv4 hipv4
        rw [if_neg (by rw [hudp]; decide), if_neg (by rw [hudp]; decide), if_pos hudp] at hannounced
        refine contained_of_extends _ (by omega) hfields ?_
        rw [houtcome, outcome_netHandleDhcp, if_pos hhas]
        refine (extends_reading (List.forall_mem_append.mpr ⟨hcookie, ?_⟩) _).trans
          (extends_of_generated ?_ _)
        · exact List.forall_mem_singleton.mpr hlong
        unfold netDhcpType
        repeat' first
          | with_reducible refine .seq _ _ ?_ fun _ => ?_
          | split
          | exact generated_readTx_of (show 0x11C < txLen.toNat from hlong) tx
          | exact generated_netDhcpReply_of (fun k hk => show 0x2B + k < txLen.toNat by omega) tx _
          | infer_instance
      · refine contained_of_reading ([0x0C, 0x0D, 0x17] ++ udpHeader ++
          cookieReads tx dhcpCookie) (List.forall_mem_append.mpr ⟨hfields, hcookie⟩) ?_
        rw [houtcome, outcome_netHandleDhcp, if_neg hhas, reading_reading]
    · refine contained_of_reading _ hfields ?_
      rw [houtcome, if_neg hports]
  · -- anything else is sent, with the payload that the lengths of the headers announce
    rw [if_neg hbroadcast] at houtcome
    refine contained_of_extends _ (hsend hbroadcast) hfields ?_
    rw [houtcome]
    refine extends_of_generated ?_ _
    unfold netUdpSend
    repeat' first
      | with_reducible refine .seq _ _ ?_ fun _ => ?_
      | split
      | exact generated_note trivial
      | infer_instance

theorem contained_other (hipv4 : txWord tx 0x0C = ethertypeIpv4) (hicmp : tx 0x17 ≠ ipprotoIcmp)
    (htcp : tx 0x17 ≠ ipprotoTcp) (hudp : tx 0x17 ≠ ipprotoUdp) (hlen : 0x18 ≤ txLen.toNat)
    (l : Lan η) : FrameContained host tx txLen l := by
  refine contained_of_reading [0x0C, 0x0D, 0x17] ?_ ?_
  · simp; omega
  · rw [outcome_netTxFrame_ipv4 host hipv4, netIpv4Dispatch, if_neg hicmp, if_neg htcp,
      if_neg hudp]
    rfl

/-- **One direction.** A frame of either protocol that is long enough is contained. -/
theorem contained_of_longEnough
    (htype : txWord tx 0x0C = ethertypeArp ∨ txWord tx 0x0C = ethertypeIpv4)
    (hmtu : txLen.toNat ≤ netMtu) (hlong : LongEnough tx txLen.toNat) (l : Lan η) :
    FrameContained host tx txLen l := by
  rcases htype with harp | hipv4
  · exact contained_arp harp hlong l
  rw [LongEnough, if_neg (by rw [hipv4]; decide)] at hlong
  obtain ⟨hlen, hlong⟩ := hlong
  -- the protocols in the order in which `LongEnough` looks at them
  split at hlong
  · exact contained_icmp hipv4 ‹_› hmtu hlong.1 hlong.2 l
  split at hlong
  · exact contained_tcp hipv4 ‹_› hlong l
  split at hlong
  case isTrue hudp =>
    obtain ⟨hlen, hlong⟩ := hlong
    refine contained_udp hipv4 hudp hlen (fun hsend => ?_) (fun hbroadcast => ?_) l
    · rwa [if_neg hsend] at hlong
    · rwa [if_pos hbroadcast] at hlong
  case isFalse hudp => exact contained_other hipv4 ‹_› ‹_› hudp hlen l

end Handlers

/-! ### Frames that are too short -/

section Short

variable {host} {tx : ℕ → Byte} {txLen : Word} {l : Lan η}

/-- What has been read of a frame that is contained lies inside it. -/
theorem read_lt_of_contained (is : List ℕ) (h : FrameContained host tx txLen l)
    (hread : (l.reading is).Extends (fun _ => True) (fun _ _ => ())
      (outcome (netTxFrame host tx txLen) l).2) : ∀ i ∈ is, i < txLen.toNat := by
  intro i hi
  obtain ⟨es, hlog, hes⟩ := h.bounds
  obtain ⟨es', hlog', -⟩ := hread.log
  have hmem : NetEvent.txRead i ∈ es := by
    -- the reads are among the events of the step
    have heq : es = es' ++ (is.map NetEvent.txRead).reverse := by
      refine List.append_cancel_right (hlog.symm.trans (?_ : _ = _ ++ l.log))
      rw [hlog', List.append_assoc]
      rfl
    rw [heq]
    exact List.mem_append_right _ (List.mem_reverse.mpr (List.mem_map_of_mem hi))
  exact hes _ hmem

theorem Lan.Dropped.net {l' : Lan η} (h : l.Dropped l') : l'.net = l.net := by rw [h.same]

instance : EdfsEvents (fun _ => True) (fun _ _ => ()) where
  rxWrite _ := trivial
  ipHeader := trivial
  setBytes _ _ _ := rfl
  ipId _ _ := rfl
  rxLen _ _ := rfl
  txRead _ := trivial
  rxWrites _ _ := trivial
  ipChecksum _ _ := trivial
  hostPath _ := trivial
  buffer _ _ := trivial
  edfsPath _ _ := trivial
  crash := trivial
  edfs _ _ _ := rfl

instance : ReadyEvents (fun _ => True) (fun _ _ => ()) where
  built := trivial
  rxReady _ := rfl

instance : TcpEvents (fun _ => True) (fun _ _ => ()) :=
  .of_all fun _ _ => rfl

/-- The history is only extended. -/
theorem mem_log_of_generated {α : Type} {x : N η α} {e : NetEvent}
    (hx : Generated (LanAction (fun _ => True) (fun _ _ => ())) x) (he : e ∈ l.log) :
    e ∈ (outcome x l).2.log := by
  obtain ⟨es, hlog, -⟩ := (extends_of_generated hx l).log
  rw [hlog]
  exact List.mem_append_right _ he

instance generated_netUdpSend :
    Generated (LanAction (fun _ => True) (fun _ _ => ())) (netUdpSend host tx) := by
  unfold netUdpSend
  repeat' first
    | with_reducible refine .seq _ _ ?_ fun _ => ?_
    | split
    | exact generated_note trivial
    | infer_instance

instance generated_netIpv4Dispatch :
    Generated (LanAction (fun _ => True) (fun _ _ => ())) (netIpv4Dispatch host tx txLen) := by
  unfold netIpv4Dispatch netHandleTcp
  repeat' first
    | with_reducible refine .seq _ _ ?_ fun _ => ?_
    | split
    | infer_instance

/-- A frame that is contained, in every state of every host. -/
def AlwaysContained (tx : ℕ → Byte) (txLen : Word) : Prop :=
  ∀ (η : Type) (host : Host η) (l : Lan η), FrameContained host tx txLen l

/-- The network after its initialisation, in front of a host. -/
def lanStart : Lan Unit := lanInit (edfsInit []) ()

/-- An ARP frame that is always contained is long enough: what it reads at the start of a run is
inside. -/
theorem longEnough_of_arp (h : AlwaysContained tx txLen) (harp : txWord tx 0x0C = ethertypeArp) :
    LongEnough tx txLen.toNat := by
  have hcontained := h Unit failingHost lanStart
  have houtcome := outcome_netTxFrame_arp failingHost harp txLen lanStart
  have hannounced : announced tx = 42 := if_pos harp
  rw [LongEnough, if_pos harp]
  constructor
  · have hread := read_lt_of_contained [0x0C, 0x0D] hcontained (by
      rw [houtcome]
      exact extends_of_generated inferInstance _)
    exact hread 0x0D (by decide)
  · by_contra hnot
    obtain ⟨hshort, hnot⟩ := not_or.mp hnot
    obtain ⟨hoper, hlen⟩ := not_or.mp hnot
    -- the last byte of the address is read
    obtain ⟨es, hlog, hes⟩ := hcontained.bounds
    have hread : NetEvent.txRead 0x29 ∈
        (outcome (netTxFrame failingHost tx txLen) lanStart).2.log := by
      rw [houtcome, netHandleArp, if_neg hshort, outcome_bind, outcome_readTxWord]
      dsimp only
      rw [if_pos (not_not.mp hoper)]
      simp only [outcome_bind, outcome_readTxLong]
      refine mem_log_of_generated ?_ List.mem_cons_self
      repeat' first
        | with_reducible refine .seq _ _ ?_ fun _ => ?_
        | split
        | infer_instance
    rw [hlog, show lanStart.log = [] from rfl, List.append_nil] at hread
    have := hes _ hread
    change 0x29 < txLen.toNat at this
    omega

/-- So is an ICMP message, as an echo request is answered even when it is cut off. -/
theorem longEnough_icmp (h : AlwaysContained tx txLen) (hipv4 : txWord tx 0x0C = ethertypeIpv4)
    (hicmp : tx 0x17 = ipprotoIcmp) :
    0x23 ≤ txLen.toNat ∧ (IsEcho tx → announced tx ≤ txLen.toNat) := by
  have hcontained := h Unit failingHost lanStart
  have houtcome : outcome (netTxFrame failingHost tx txLen) lanStart =
      outcome (netHandleIcmp tx txLen) (lanStart.reading [0x0C, 0x0D, 0x17]) := by
    rw [outcome_netTxFrame_ipv4 failingHost hipv4, netIpv4Dispatch, if_pos hicmp]
  constructor
  · have hread := read_lt_of_contained [0x0C, 0x0D, 0x17, 0x22] hcontained (by
      rw [houtcome, netHandleIcmp, outcome_bind, outcome_readTx, reading_reading]
      refine extends_of_generated ?_ _
      repeat' first
        | with_reducible refine .seq _ _ ?_ fun _ => ?_
        | split
        | exact generated_note trivial
        | infer_instance)
    exact hread 0x22 (by decide)
  · rintro ⟨htype, hdst⟩
    by_contra hshort
    have hnet := (hcontained.dropped (Nat.lt_of_not_le hshort)).net
    -- the frame is answered
    have hready : (outcome (netTxFrame failingHost tx txLen) lanStart).2.net.rxReady = true := by
      rw [houtcome, netHandleIcmp, outcome_bind, outcome_readTx]
      dsimp only
      rw [if_pos htype, outcome_bind, outcome_readTxLong]
      dsimp only
      rw [if_pos hdst]
      rfl
    rw [hnet] at hready
    exact absurd hready Bool.false_ne_true

/-- What TCP does leaves the UDP sockets alone, behind the reset of the timer. -/
instance : ReplyEvents (fun _ => True) (fun n _ => n.udpSockets) where
  rxWrite _ := trivial
  ipHeader := trivial
  setBytes _ _ _ := rfl
  ipId _ _ := rfl
  rxLen _ _ := rfl

instance : ReadyEvents (fun _ => True) (fun n _ => n.udpSockets) where
  built := trivial
  rxReady _ := rfl

instance : TcpEvents (fun _ => True) (fun n _ => n.udpSockets) :=
  .of_all fun _ _ => rfl

/-- A packet of a connection resets the timer of the UDP socket with the same index. -/
theorem udpSockets_netTcpApply (i : Slot) (ipLen : Word) (dataOffset flags : Byte)
    (recvSeq dstIp : BitVec 32) :
    (outcome (netTcpApply host tx i ipLen dataOffset flags recvSeq dstIp) l).2.net.udpSockets =
      Function.update l.net.udpSockets i
        { l.net.udpSockets i with inactivityTimeout := 0 } := by
  rw [netTcpApply_eq]
  exact (extends_of_generated (E := fun _ => True) (p := (fun n _ => n.udpSockets))
    (generated_netTcpFlags host tx i ipLen dataOffset flags recvSeq dstIp) _).kept

/-- A network on which every TCP socket has the given ends, and every timer runs. -/
def lanConnected (tuple : Tuple) : Lan Unit :=
  { lanStart with net := { netInit with
      udpSockets := fun i => { netInit.udpSockets i with inactivityTimeout := 1 }
      tcpSockets := fun i => { netInit.tcpSockets i with
        fd := 3
        srcPort := tuple.1
        dstPort := tuple.2.1
        dstIp := tuple.2.2 } } }

/-- So is a TCP segment, as one that is cut off still has an effect: on its own connection, or on
the timer of a UDP socket. -/
theorem announced_le_tcp (h : AlwaysContained tx txLen) (hipv4 : txWord tx 0x0C = ethertypeIpv4)
    (htcp : tx 0x17 = ipprotoTcp) : announced tx ≤ txLen.toNat := by
  by_contra hshort
  have hshort := Nat.lt_of_not_le hshort
  by_cases hflags : tcpFlags tx = flagsSyn
  · -- a connection is opened
    have hnet := ((h Unit acceptingHost lanStart).dropped hshort).net
    have hsyn : SynAccepted acceptingHost lanStart tx 0 3 :=
      ⟨⟨hipv4, htcp⟩, hflags, by decide, rfl⟩
    have hopened : ((outcome (netTxFrame acceptingHost tx txLen) lanStart).2.net.tcpSockets 0).fd =
        3 := by
      refine (congrArg (fun t => (t.sockets 0).fd)
        (tcp_transmit_of_syn acceptingHost hsyn txLen)).trans ?_
      rw [Tcp.sockets_accept_self]
      rfl
    rw [hnet] at hopened
    exact absurd hopened (by decide)
  · -- a timer is reset
    have hnet := ((h Unit failingHost (lanConnected (tcpTuple tx))).dropped hshort).net
    have hfound : (lanConnected (tcpTuple tx)).net.findTcp (tcpTuple tx) = some 0 := by
      simp [Net.findTcp, lanConnected, List.finRange_succ, NetTcpSocket.tuple]
    have hsockets : (outcome (netTxFrame failingHost tx txLen)
        (lanConnected (tcpTuple tx))).2.net.udpSockets 0 =
          { (lanConnected (tcpTuple tx)).net.udpSockets 0 with inactivityTimeout := 0 } := by
      rw [outcome_netTxFrame_tcp failingHost ⟨hipv4, htcp⟩, netTcpDispatch, if_neg hflags,
        outcome_bind, outcome_getNet]
      dsimp only
      rw [net_reading, hfound]
      dsimp only
      rw [udpSockets_netTcpApply, Function.update_self, net_reading]
    rw [hnet] at hsockets
    have htimer : (1 : ℤ) = 0 := congrArg NetUdpSocket.inactivityTimeout hsockets
    exact absurd htimer (by decide)

/-- So is a UDP datagram: what is broadcast is read, and what is sent opens a socket. -/
theorem longEnough_udp (h : AlwaysContained tx txLen) (hipv4 : txWord tx 0x0C = ethertypeIpv4)
    (hudp : tx 0x17 = ipprotoUdp) :
    0x28 ≤ txLen.toNat ∧
      if txLong tx 0x1E = 0xFFFFFFFF then
        IsDhcp tx → (∀ i ∈ cookieReads tx dhcpCookie, i < txLen.toNat) ∧
          (HasCookie tx dhcpCookie → 0x11C < txLen.toNat)
      else
        announced tx ≤ txLen.toNat := by
  have hcontained := h Unit acceptingHost lanStart
  have houtcome := outcome_netTxFrame_udp acceptingHost txLen hipv4 hudp lanStart
  rw [outcome_netHandleUdp, reading_reading] at houtcome
  constructor
  · have hread := read_lt_of_contained ([0x0C, 0x0D, 0x17] ++ udpHeader) hcontained (by
      rw [houtcome]
      split_ifs
      · exact extends_of_generated inferInstance _
      · exact .refl _
      · exact extends_of_generated inferInstance _)
    exact hread 0x27 (by decide)
  split
  · rename_i hbroadcast
    intro hports
    rw [if_pos hbroadcast, if_pos hports, outcome_netHandleDhcp, reading_reading] at houtcome
    -- the cookie is read up to the first byte that differs, the message type only behind it
    by_cases hhas : HasCookie tx dhcpCookie
    · rw [if_pos hhas] at houtcome
      -- the UDP header is read up to its length in any case
      have hread := read_lt_of_contained ([0x0C, 0x0D, 0x17] ++ udpHeader ++
          (cookieReads tx dhcpCookie ++ [0x11C])) hcontained (by
        rw [houtcome]
        refine extends_of_generated ?_ _
        unfold netDhcpType
        infer_instance)
      obtain ⟨hcookie, htype⟩ := List.forall_mem_append.mp (List.forall_mem_append.mp hread).2
      exact ⟨hcookie, fun _ => htype _ (List.mem_singleton_self _)⟩
    · rw [if_neg hhas] at houtcome
      have hread := read_lt_of_contained ([0x0C, 0x0D, 0x17] ++ udpHeader ++
          cookieReads tx dhcpCookie) hcontained (by
        rw [houtcome, reading_reading]
        exact .refl _)
      exact ⟨(List.forall_mem_append.mp hread).2, fun h => absurd h hhas⟩
  · rename_i hsend
    by_contra hshort
    have hnet := (hcontained.dropped (Nat.lt_of_not_le hshort)).net
    -- a socket is opened
    have hopened : ((outcome (netTxFrame acceptingHost tx txLen) lanStart).2.net.udpSockets 0).fd =
        3 := by
      rw [houtcome, if_neg hsend]
      rfl
    rw [hnet] at hopened
    exact absurd hopened (by decide)

/-- **The other direction.** A frame that is contained in every state is long enough. -/
theorem longEnough_of_contained
    (htype : txWord tx 0x0C = ethertypeArp ∨ txWord tx 0x0C = ethertypeIpv4)
    (h : AlwaysContained tx txLen) : LongEnough tx txLen.toNat := by
  rcases htype with harp | hipv4
  · exact longEnough_of_arp h harp
  rw [LongEnough, if_neg (by rw [hipv4]; decide)]
  constructor
  · have hread := read_lt_of_contained [0x0C, 0x0D, 0x17] (h Unit failingHost lanStart) (by
      rw [outcome_netTxFrame_ipv4 failingHost hipv4]
      exact extends_of_generated inferInstance _)
    exact hread 0x17 (by decide)
  -- the protocols in the order in which `LongEnough` looks at them
  split
  · exact longEnough_icmp h hipv4 ‹_›
  split
  · exact announced_le_tcp h hipv4 ‹_›
  split
  · exact longEnough_udp h hipv4 ‹_›
  · trivial

/-- **The bounds of a frame.** The handlers of an ARP or IPv4 frame stay in bounds, and drop
what is too short for its headers, in every state exactly when the frame is long enough for
what they do with it. -/
theorem frameContained_iff
    (htype : txWord tx 0x0C = ethertypeArp ∨ txWord tx 0x0C = ethertypeIpv4)
    (hmtu : txLen.toNat ≤ netMtu) :
    (∀ (η : Type) (host : Host η) (l : Lan η), FrameContained host tx txLen l) ↔
      LongEnough tx txLen.toNat :=
  ⟨longEnough_of_contained htype, fun hlong _ _ l => contained_of_longEnough htype hmtu hlong l⟩

end Short

/-- An ARP request for the emulated host. -/
def arpFrame : ℕ → Byte
  | 0x0C => 0x08
  | 0x0D => 0x06
  | 0x15 => 1
  | 0x26 => 10
  | 0x29 => 1
  | _ => 0

theorem frameContained_iff_arp :
    (txWord arpFrame 0x0C = ethertypeArp ∨ txWord arpFrame 0x0C = ethertypeIpv4) ∧
      (42 : Word).toNat ≤ netMtu ∧
      ((∀ (η : Type) (host : Host η) (l : Lan η), FrameContained host arpFrame 42 l) ↔
        LongEnough arpFrame 42) :=
  ⟨.inl (by decide), Nat.le_of_ble_eq_true rfl,
    frameContained_iff (.inl (by decide)) (Nat.le_of_ble_eq_true rfl)⟩

/-- An ARP request of 41 bytes is read one byte beyond its end. -/
theorem frame_not_contained : ¬ ∀ (η : Type) (host : Host η) (l : Lan η) (tx : ℕ → Byte)
    (txLen : Word), (txWord tx 0x0C = ethertypeArp ∨ txWord tx 0x0C = ethertypeIpv4) →
      txLen.toNat ≤ netMtu → FrameContained host tx txLen l := by
  intro h
  have hlong : LongEnough arpFrame (41 : Word).toNat := longEnough_of_arp
    (fun η host l => h η host l arpFrame 41 (.inl (by decide)) (Nat.le_of_ble_eq_true rfl))
    (by decide)
  have hshort : ¬ (14 ≤ 41 ∧ (41 < 0x29 ∨ txWord arpFrame 0x14 ≠ 1 ∨ announced arpFrame ≤ 41)) := by
    decide
  exact hshort ((if_pos (by decide)).mp hlong)

end Pc20iii
