import Pc20iii.Net.Frame

/-!
# What the functions of the network leave alone

Two questions about a function of `net.c` or `edfs.c`: which events it records, and which part of
the variables it leaves alone. `LanAction E p` is the family of primitive steps that record events
of `E` only and leave the part `p` of `net_t` and of `edfs.c` alone; `Lan.Extends E p` is what
every program generated by it does. That a function is generated by the family is left to instance
search, which follows its text. The classes below say what an `E` and a `p` need for which
functions, from the functions that build the headers of a reply (`ReplyEvents`) to those of
EtherDFS (`EdfsEvents`).
-/

namespace Pc20iii

open StateProgram

-- Instance search follows the syntax of the functions below.
set_option synthInstance.maxSize 1000

variable {η γ : Type}

/-- The primitive steps that record events of `E` only and leave `p` alone. -/
inductive LanAction (E : NetEvent → Prop) (p : Net → Edfs → γ) : ∀ α : Type, N η α → Prop
  | note (e : NetEvent) (h : E e) : LanAction E p Unit (note e)
  | panic (text : String) : LanAction E p Unit (netPanic text)
  | host {α : Type} (f : η → α × η) : LanAction E p α (hostCall f)
  | edfs (f : Edfs → Edfs) (h : ∀ n e, p n (f e) = p n e) : LanAction E p Unit (modifyEdfs f)
  | net (f : Net → Net) (h : ∀ n, p (f n) = p n) : LanAction E p Unit (modifyNet f)

/-- The part `p` of the variables is the same, and the history has been extended by events of
`E`. -/
structure Lan.Extends (E : NetEvent → Prop) (p : Net → Edfs → γ) (l l' : Lan η) : Prop where
  kept : p l'.net l'.edfs = p l.net l.edfs
  log : ∃ es, l'.log = es ++ l.log ∧ ∀ e ∈ es, E e

namespace Lan.Extends

variable {E : NetEvent → Prop} {p : Net → Edfs → γ}

theorem refl (l : Lan η) : l.Extends E p l := ⟨rfl, [], rfl, nofun⟩

theorem trans {l l' l'' : Lan η} (h : l.Extends E p l') (h' : l'.Extends E p l'') :
    l.Extends E p l'' := by
  obtain ⟨hkept, es, hlog, hes⟩ := h
  obtain ⟨hkept', es', hlog', hes'⟩ := h'
  refine ⟨hkept'.trans hkept, es' ++ es, ?_, fun e he => ?_⟩
  · rw [hlog', hlog, List.append_assoc]
  · exact (List.mem_append.mp he).elim (hes' e) (hes e)

end Lan.Extends

theorem extends_of_generated {E : NetEvent → Prop} {p : Net → Edfs → γ} {α : Type} {x : N η α}
    (hx : Generated (LanAction E p) x) (l : Lan η) : l.Extends E p (outcome x l).2 := by
  refine hx.rel Lan.Extends.refl Lan.Extends.trans ?_ l
  intro α x hact l
  cases hact with
  | note e h => exact ⟨rfl, [e], rfl, fun e' he' => List.mem_singleton.mp he' ▸ h⟩
  | edfs f h => exact ⟨h l.net l.edfs, [], rfl, nofun⟩
  | net f h => exact ⟨congrFun (h l.net) l.edfs, [], rfl, nofun⟩
  | _ => exact ⟨rfl, [], rfl, nofun⟩

/-! ### Primitives -/

section Primitives

variable {E : NetEvent → Prop} {p : Net → Edfs → γ}

theorem generated_note {e : NetEvent} (h : E e) :
    Generated (LanAction E p) (note e : N η Unit) := .action _ (.note e h)

instance generated_netPanic (text : String) :
    Generated (LanAction E p) (netPanic text : N η Unit) := .action _ (.panic text)

instance generated_hostCall {α : Type} (f : η → α × η) :
    Generated (LanAction E p) (hostCall f) := .action _ (.host f)

instance generated_getNet : Generated (LanAction E p) (getNet : N η Net) := by
  unfold getNet
  infer_instance

instance generated_getEdfs : Generated (LanAction E p) (getEdfs : N η Edfs) := by
  unfold getEdfs
  infer_instance

instance generated_getErrno (host : Host η) : Generated (LanAction E p) (getErrno host) := by
  unfold getErrno
  infer_instance

theorem generated_modifyNet {f : Net → Net} (h : ∀ n, p (f n) = p n) :
    Generated (LanAction E p) (modifyNet f : N η Unit) := .action _ (.net f h)

theorem generated_readTx_of {i : ℕ} (h : E (.txRead i)) (tx : ℕ → Byte) :
    Generated (LanAction E p) (readTx tx i : N η Byte) :=
  .seq _ _ (generated_note h) fun _ => .ret _

theorem generated_readTxWord_of {i : ℕ} (h : ∀ k < 2, E (.txRead (i + k))) (tx : ℕ → Byte) :
    Generated (LanAction E p) (readTxWord tx i : N η Word) := by
  have hhi := generated_readTx_of (η := η) (p := p) (h 0 (by decide)) tx
  have hlo := generated_readTx_of (η := η) (p := p) (h 1 (by decide)) tx
  exact .seq _ _ hhi fun _ => .seq _ _ hlo fun _ => .ret _

theorem generated_readTxLong_of {i : ℕ} (h : ∀ k < 4, E (.txRead (i + k))) (tx : ℕ → Byte) :
    Generated (LanAction E p) (readTxLong tx i : N η (BitVec 32)) := by
  have hhi := generated_readTxWord_of (η := η) (p := p) (fun k hk => h k (by omega)) tx
  have hlo := generated_readTxWord_of (η := η) (p := p) (i := i + 2) (fun k hk => by
    rw [Nat.add_assoc]
    exact h (2 + k) (by omega)) tx
  exact .seq _ _ hhi fun _ => .seq _ _ hlo fun _ => .ret _

end Primitives

/-! ### Replies -/

/-- `E` and `p` allow the functions that build the headers of a reply. -/
class ReplyEvents (E : NetEvent → Prop) (p : Net → Edfs → γ) : Prop where
  rxWrite : ∀ {start len : ℕ}, start + len ≤ netMtu → E (.rxWrite start len)
  ipHeader : E (.ipChecksum 0x0E 20)
  setBytes : ∀ start bytes n, p (Net.setBytes start bytes n) = p n
  ipId : ∀ (n : Net) ipId, p { n with ipId := ipId } = p n
  rxLen : ∀ (n : Net) rxLen, p { n with rxLen := rxLen } = p n

/-- `E` and `p` allow that a frame is completed. -/
class ReadyEvents (E : NetEvent → Prop) (p : Net → Edfs → γ) : Prop where
  built : E .built
  rxReady : ∀ n : Net, p { n with rxReady := true } = p n

section Replies

variable {E : NetEvent → Prop} {p : Net → Edfs → γ} [ReplyEvents E p]

theorem generated_writeRx_of {start : ℕ} {bytes : List Byte}
    (h : E (.rxWrite start bytes.length)) :
    Generated (LanAction E p) (writeRx start bytes : N η Unit) :=
  .seq _ _ (generated_note h) fun _ =>
    generated_modifyNet (ReplyEvents.setBytes E start bytes)

/-- A write inside `rx_frame`. -/
theorem generated_writeRx_of_le {start : ℕ} {bytes : List Byte}
    (h : start + bytes.length ≤ netMtu) :
    Generated (LanAction E p) (writeRx start bytes : N η Unit) :=
  generated_writeRx_of (ReplyEvents.rxWrite p h)

theorem generated_writeRx_replicate {start len : ℕ} (h : start + len ≤ netMtu) (byte : Byte) :
    Generated (LanAction E p) (writeRx start (List.replicate len byte) : N η Unit) :=
  generated_writeRx_of_le (by rwa [List.length_replicate])

theorem generated_copyTx_of {start len : ℕ} (hlen : start + len ≤ netMtu)
    (h : ∀ k < len, E (.txRead (start + k))) (tx : ℕ → Byte) :
    Generated (LanAction E p) (copyTx tx start len : N η Unit) := by
  refine .forM fun k hk => ?_
  have hlt := List.mem_range.mp hk
  refine .seq _ _ (generated_readTx_of (h k hlt) tx) fun byte => ?_
  exact generated_writeRx_of_le (by rw [List.length_singleton]; omega)

instance generated_netEthernetReply :
    Generated (LanAction E p) (netEthernetReply : N η Unit) := by
  unfold netEthernetReply
  repeat' first
    | with_reducible refine .seq _ _ ?_ fun _ => ?_
    | exact generated_writeRx_of_le (Nat.le_of_ble_eq_true rfl)

instance generated_netIpv4Reply (ipLen : Word) (proto : Byte) (srcIp : BitVec 32) :
    Generated (LanAction E p) (netIpv4Reply ipLen proto srcIp : N η Unit) := by
  unfold netIpv4Reply
  repeat' first
    | with_reducible refine .seq _ _ ?_ fun _ => ?_
    | exact generated_writeRx_of_le (Nat.le_of_ble_eq_true rfl)
    | exact generated_note (ReplyEvents.ipHeader p)
    | exact generated_modifyNet fun n => ReplyEvents.ipId E n _
    | infer_instance

instance generated_netUdpReply (recvBytes : ℕ) (srcIp : BitVec 32) (srcPort dstPort : Word) :
    Generated (LanAction E p) (netUdpReply recvBytes srcIp srcPort dstPort : N η Unit) := by
  unfold netUdpReply
  repeat' first
    | with_reducible refine .seq _ _ ?_ fun _ => ?_
    | exact generated_writeRx_of_le (Nat.le_of_ble_eq_true rfl)
    | infer_instance

instance generated_rxComplete [ReadyEvents E p] (len : Word) :
    Generated (LanAction E p) (rxComplete len : N η Unit) :=
  .seq _ _ (generated_modifyNet fun n =>
    (ReadyEvents.rxReady E { n with rxLen := len }).trans (ReplyEvents.rxLen E n len)) fun _ =>
      generated_note (ReadyEvents.built p)

/-- The reply of DHCP copies some fields. -/
theorem generated_netDhcpReply_of [ReadyEvents E p] (h : ∀ k < 7, E (.txRead (0x2B + k)))
    (tx : ℕ → Byte) (type : Byte) :
    Generated (LanAction E p) (netDhcpReply tx type : N η Unit) := by
  unfold netDhcpReply
  repeat' first
    | with_reducible refine .seq _ _ ?_ fun _ => ?_
    | exact generated_writeRx_replicate (Nat.le_of_ble_eq_true rfl) 0
    | exact generated_writeRx_of_le (Nat.le_of_ble_eq_true rfl)
    | exact generated_copyTx_of (Nat.le_of_ble_eq_true rfl) h tx
    | infer_instance

end Replies

/-! ### Frames -/

/-- `E` and `p` allow the functions that read frames and build replies. -/
class FrameEvents (E : NetEvent → Prop) (p : Net → Edfs → γ) : Prop extends ReplyEvents E p where
  txRead : ∀ i, E (.txRead i)
  rxWrites : ∀ start len, E (.rxWrite start len)
  ipChecksum : ∀ start len, E (.ipChecksum start len)

/-- What is said of all events asks nothing of a frame. -/
theorem FrameEvents.of_all {p : Net → Edfs → γ}
    (setBytes : ∀ start bytes n, p (Net.setBytes start bytes n) = p n)
    (ipId : ∀ (n : Net) ipId, p { n with ipId := ipId } = p n)
    (rxLen : ∀ (n : Net) rxLen, p { n with rxLen := rxLen } = p n) :
    FrameEvents (fun _ => True) p where
  rxWrite _ := trivial
  ipHeader := trivial
  setBytes := setBytes
  ipId := ipId
  rxLen := rxLen
  txRead _ := trivial
  rxWrites _ _ := trivial
  ipChecksum _ _ := trivial

section Frames

variable {E : NetEvent → Prop} {p : Net → Edfs → γ} [FrameEvents E p]

instance generated_readTx (tx : ℕ → Byte) (i : ℕ) :
    Generated (LanAction E p) (readTx tx i : N η Byte) :=
  generated_readTx_of (FrameEvents.txRead p i) tx

instance generated_readTxWord (tx : ℕ → Byte) (i : ℕ) :
    Generated (LanAction E p) (readTxWord tx i : N η Word) :=
  generated_readTxWord_of (fun k _ => FrameEvents.txRead p (i + k)) tx

instance generated_readTxLong (tx : ℕ → Byte) (i : ℕ) :
    Generated (LanAction E p) (readTxLong tx i : N η (BitVec 32)) :=
  generated_readTxLong_of (fun k _ => FrameEvents.txRead p (i + k)) tx

instance generated_writeRx (start : ℕ) (bytes : List Byte) :
    Generated (LanAction E p) (writeRx start bytes : N η Unit) :=
  generated_writeRx_of (FrameEvents.rxWrites p start bytes.length)

instance generated_copyTx (tx : ℕ → Byte) (start len : ℕ) :
    Generated (LanAction E p) (copyTx tx start len : N η Unit) := by
  unfold copyTx
  infer_instance

instance generated_readCookie (tx : ℕ → Byte) (cookie : List (ℕ × Byte)) :
    Generated (LanAction E p) (readCookie tx cookie : N η Bool) := by
  induction cookie with
  | nil => exact .ret true
  | cons p rest ih =>
    unfold readCookie
    infer_instance

variable [ReadyEvents E p]

instance generated_netHandleIcmp (tx : ℕ → Byte) (txLen : Word) :
    Generated (LanAction E p) (netHandleIcmp tx txLen : N η Unit) := by
  unfold netHandleIcmp
  repeat' first
    | with_reducible refine .seq _ _ ?_ fun _ => ?_
    | split
    | exact generated_note (FrameEvents.ipChecksum p _ _)
    | infer_instance

instance generated_netHandleArp (tx : ℕ → Byte) (txLen : Word) :
    Generated (LanAction E p) (netHandleArp tx txLen : N η Unit) := by
  unfold netHandleArp
  repeat' first
    | with_reducible refine .seq _ _ ?_ fun _ => ?_
    | split
    | infer_instance

instance generated_netDhcpReply (tx : ℕ → Byte) (type : Byte) :
    Generated (LanAction E p) (netDhcpReply tx type : N η Unit) :=
  generated_netDhcpReply_of (fun k _ => FrameEvents.txRead p (0x2B + k)) tx type

instance generated_netHandleDhcp (tx : ℕ → Byte) :
    Generated (LanAction E p) (netHandleDhcp tx : N η Unit) := by
  unfold netHandleDhcp
  repeat' first
    | with_reducible refine .seq _ _ ?_ fun _ => ?_
    | split
    | infer_instance

end Frames

/-! ### UDP -/

/-- `E` has the calls of `sendto`. -/
class SendtoEvents (E : NetEvent → Prop) : Prop where
  sendto : ∀ i start len taken, E (.sendto i start len taken)

instance : SendtoEvents (fun _ => True) where
  sendto _ _ _ _ := trivial

/-- `p` leaves out the UDP sockets. -/
class UdpChanges (p : Net → Edfs → γ) : Prop where
  udpSockets : ∀ (n : Net) sockets, p { n with udpSockets := sockets } = p n

section Udp

variable {E : NetEvent → Prop} {p : Net → Edfs → γ} [UdpChanges p] (host : Host η)

instance generated_modifyUdp (i : Slot) (f : NetUdpSocket → NetUdpSocket) :
    Generated (LanAction E p) (modifyUdp i f : N η Unit) :=
  generated_modifyNet fun n => UdpChanges.udpSockets n _

instance generated_netUdpClose (i : Slot) : Generated (LanAction E p) (netUdpClose host i) := by
  unfold netUdpClose
  infer_instance

instance generated_netUdpSocket (tuple : Tuple) :
    Generated (LanAction E p) (netUdpSocket host tuple) := by
  unfold netUdpSocket
  repeat' first
    | with_reducible refine .seq _ _ ?_ fun _ => ?_
    | split
    | infer_instance

variable [FrameEvents E p] [ReadyEvents E p]

instance generated_netHandleUdp [SendtoEvents E] (tx : ℕ → Byte) :
    Generated (LanAction E p) (netHandleUdp host tx) := by
  unfold netHandleUdp
  repeat' first
    | with_reducible refine .seq _ _ ?_ fun _ => ?_
    | split
    | exact generated_note (SendtoEvents.sendto _ _ _ _)
    | infer_instance

instance generated_netCheckUdpSocket (i : Slot) :
    Generated (LanAction E p) (netCheckUdpSocket host i) := by
  unfold netCheckUdpSocket
  repeat' first
    | with_reducible refine .seq _ _ ?_ fun _ => ?_
    | split
    | infer_instance

end Udp

/-! ### TCP -/

/-- `E` has the calls of `send`. -/
class SendEvents (E : NetEvent → Prop) : Prop where
  send : ∀ i seq start len taken, E (.send i seq start len taken)

instance : SendEvents (fun _ => True) where
  send _ _ _ _ _ := trivial

/-- `E` and `p` allow the functions for the TCP sockets. -/
class TcpEvents (E : NetEvent → Prop) (p : Net → Edfs → γ) : Prop where
  opened : ∀ i tuple recvSeq, E (.opened i tuple recvSeq)
  applied : ∀ i tuple, E (.applied i tuple)
  closed : ∀ i, E (.closed i)
  segment : ∀ i seq ack flags len, E (.segment i seq ack flags len)
  tcpSockets : ∀ (n : Net) sockets, p { n with tcpSockets := sockets } = p n

theorem TcpEvents.of_all {p : Net → Edfs → γ}
    (tcpSockets : ∀ (n : Net) sockets, p { n with tcpSockets := sockets } = p n) :
    TcpEvents (fun _ => True) p where
  opened _ _ _ := trivial
  applied _ _ := trivial
  closed _ := trivial
  segment _ _ _ _ _ := trivial
  tcpSockets := tcpSockets

/-- The part of `net_handle_tcp` for the packets of a connection, behind the reset of the
timer. -/
def netTcpFlags (host : Host η) (tx : ℕ → Byte) (i : Slot) (ipLen : Word)
    (dataOffset flags : Byte) (recvSeq dstIp : BitVec 32) : N η Unit := do
  if flags = flagsAck then
    modifyTcp i fun s => { s with ackWait := 0 }
  else if flags = flagsRst then
    return
  else if flags = flagsPshAck then
    netTcpData host tx i ipLen dataOffset recvSeq dstIp
  else if flags = flagsFinAck then
    if ((← getNet).tcpSockets i).finAckSent then
      netTcpClose host i flagsAck
    else
      netTcpClose host i flagsRstAck
  else if flags = flagsRstAck then
    netTcpClose host i flagsAck
  else
    netPanic "Unhandled TCP flags: %02x\n"
    netTcpClose host i flagsRstAck

theorem netTcpApply_eq (host : Host η) (tx : ℕ → Byte) (i : Slot) (ipLen : Word)
    (dataOffset flags : Byte) (recvSeq dstIp : BitVec 32) :
    netTcpApply host tx i ipLen dataOffset flags recvSeq dstIp = (do
      note (.applied i ((← getNet).tcpSockets i).tuple)
      modifyUdp i fun s => { s with inactivityTimeout := 0 }
      netTcpFlags host tx i ipLen dataOffset flags recvSeq dstIp) := by
  rfl

section Tcp

variable {E : NetEvent → Prop} {p : Net → Edfs → γ} [TcpEvents E p] (host : Host η)

instance generated_modifyTcp (i : Slot) (f : NetTcpSocket → NetTcpSocket) :
    Generated (LanAction E p) (modifyTcp i f : N η Unit) :=
  generated_modifyNet fun n => TcpEvents.tcpSockets E n _

variable [ReplyEvents E p]

instance generated_netTcpReply (len : ℕ) (i : Slot) (flags : Byte) :
    Generated (LanAction E p) (netTcpReply len i flags : N η Unit) := by
  unfold netTcpReply
  repeat' first
    | with_reducible refine .seq _ _ ?_ fun _ => ?_
    | exact generated_writeRx_of_le (Nat.le_of_ble_eq_true rfl)
    | exact generated_note (TcpEvents.segment p _ _ _ _ _)
    | infer_instance

variable [ReadyEvents E p]

instance generated_netTcpSegment (len : ℕ) (i : Slot) (flags : Byte) (dstIp advance : BitVec 32) :
    Generated (LanAction E p) (netTcpSegment len i flags dstIp advance : N η Unit) := by
  unfold netTcpSegment
  infer_instance

instance generated_netTcpClose (i : Slot) (flags : Byte) :
    Generated (LanAction E p) (netTcpClose host i flags) := by
  unfold netTcpClose
  repeat' first
    | with_reducible refine .seq _ _ ?_ fun _ => ?_
    | exact generated_note (TcpEvents.closed p i)
    | infer_instance

instance generated_netTcpSyn (tuple : Tuple) (recvSeq : BitVec 32) :
    Generated (LanAction E p) (netTcpSyn host tuple recvSeq) := by
  unfold netTcpSyn
  repeat' first
    | with_reducible refine .seq _ _ ?_ fun _ => ?_
    | split
    | exact generated_note (TcpEvents.opened p _ _ _)
    | infer_instance

instance generated_netTcpData [SendEvents E] (tx : ℕ → Byte) (i : Slot) (ipLen : Word)
    (dataOffset : Byte)
    (recvSeq dstIp : BitVec 32) :
    Generated (LanAction E p) (netTcpData host tx i ipLen dataOffset recvSeq dstIp) := by
  unfold netTcpData
  repeat' first
    | with_reducible refine .seq _ _ ?_ fun _ => ?_
    | split
    | exact generated_note (SendEvents.send _ _ _ _ _)
    | infer_instance

/-- Only a packet with data passes it to the host. -/
theorem generated_netTcpFlags_of_ne {flags : Byte} (h : flags ≠ flagsPshAck) (tx : ℕ → Byte)
    (i : Slot) (ipLen : Word) (dataOffset : Byte) (recvSeq dstIp : BitVec 32) :
    Generated (LanAction E p) (netTcpFlags host tx i ipLen dataOffset flags recvSeq dstIp) := by
  unfold netTcpFlags
  rw [if_neg h]
  infer_instance

instance generated_netTcpFlags [SendEvents E] (tx : ℕ → Byte) (i : Slot) (ipLen : Word)
    (dataOffset flags : Byte) (recvSeq dstIp : BitVec 32) :
    Generated (LanAction E p) (netTcpFlags host tx i ipLen dataOffset flags recvSeq dstIp) := by
  unfold netTcpFlags
  infer_instance

instance generated_netTcpApply [SendEvents E] [UdpChanges p] (tx : ℕ → Byte) (i : Slot)
    (ipLen : Word) (dataOffset flags : Byte) (recvSeq dstIp : BitVec 32) :
    Generated (LanAction E p) (netTcpApply host tx i ipLen dataOffset flags recvSeq dstIp) := by
  rw [netTcpApply_eq]
  repeat' first
    | with_reducible refine .seq _ _ ?_ fun _ => ?_
    | exact generated_note (TcpEvents.applied p _ _)
    | infer_instance

instance generated_netTcpDispatch [SendEvents E] [UdpChanges p] (tx : ℕ → Byte) :
    Generated (LanAction E p) (netTcpDispatch host tx) := by
  unfold netTcpDispatch
  repeat' first
    | with_reducible refine .seq _ _ ?_ fun _ => ?_
    | split
    | infer_instance

end Tcp

/-! ### Frames and polls -/

section Polls

variable {E : NetEvent → Prop} {p : Net → Edfs → γ} [FrameEvents E p] [ReadyEvents E p]
  [UdpChanges p] [TcpEvents E p] (host : Host η)

instance generated_netCheckTcpSocket (i : Slot) :
    Generated (LanAction E p) (netCheckTcpSocket host i) := by
  unfold netCheckTcpSocket
  refine .seq _ _ inferInstance fun n => ?_
  dsimp only
  repeat' first
    | with_reducible refine .seq _ _ ?_ fun _ => ?_
    | split
    | infer_instance

instance generated_netPoll (isOpen : Net → Slot → Bool) (check : Slot → N η Unit)
    [∀ i, Generated (LanAction E p) (check i)] (slots : List Slot) :
    Generated (LanAction E p) (netPoll isOpen check slots) := by
  induction slots with
  | nil => exact .ret true
  | cons i rest ih =>
    unfold netPoll
    infer_instance

instance generated_netExecute : Generated (LanAction E p) (netExecute host) := by
  unfold netExecute
  infer_instance

instance generated_netHandleTcp [SendEvents E] (tx : ℕ → Byte) :
    Generated (LanAction E p) (netHandleTcp host tx) := by
  unfold netHandleTcp
  repeat' first
    | with_reducible refine .seq _ _ ?_ fun _ => ?_
    | split
    | infer_instance

instance generated_netHandleIpv4 [SendEvents E] [SendtoEvents E] (tx : ℕ → Byte) (txLen : Word) :
    Generated (LanAction E p) (netHandleIpv4 host tx txLen) := by
  unfold netHandleIpv4
  infer_instance

end Polls

/-! ### EtherDFS -/

section EdfsReplies

variable {E : NetEvent → Prop} {p : Net → Edfs → γ} [FrameEvents E p] (host : Host η)

instance generated_edfsSetResult (code : Word) :
    Generated (LanAction E p) (edfsSetResult code : N η Unit) := by
  unfold edfsSetResult
  repeat' first
    | with_reducible refine .seq _ _ ?_ fun _ => ?_
    | split
    | infer_instance

instance generated_edfsFail (code : Word) :
    Generated (LanAction E p) (edfsFail code : N η Word) := by
  unfold edfsFail
  repeat' first
    | with_reducible refine .seq _ _ ?_ fun _ => ?_
    | split
    | infer_instance

instance generated_edfsRootPath (path : CString) :
    Generated (LanAction E p) (edfsRootPath path : N η CString) := by
  unfold edfsRootPath
  repeat' first
    | with_reducible refine .seq _ _ ?_ fun _ => ?_
    | split
    | infer_instance

instance generated_edfsEntry (s : EdfsSearch) (filefcb : List Byte) (st : FileStat) (pos : Word) :
    Generated (LanAction E p) (edfsEntry host s filefcb st pos) := by
  unfold edfsEntry
  repeat' first
    | with_reducible refine .seq _ _ ?_ fun _ => ?_
    | split
    | infer_instance

instance generated_edfsOpened (path83 : CString) (attrib action cluster : Word) (st : FileStat) :
    Generated (LanAction E p) (edfsOpened host path83 attrib action cluster st) := by
  unfold edfsOpened
  repeat' first
    | with_reducible refine .seq _ _ ?_ fun _ => ?_
    | split
    | infer_instance

instance generated_readTxWordLE (tx : ℕ → Byte) (i : ℕ) :
    Generated (LanAction E p) (readTxWordLE tx i : N η Word) := by
  unfold readTxWordLE
  repeat' first
    | with_reducible refine .seq _ _ ?_ fun _ => ?_
    | split
    | infer_instance

instance generated_readTxLongLE (tx : ℕ → Byte) (i : ℕ) :
    Generated (LanAction E p) (readTxLongLE tx i : N η (BitVec 32)) := by
  unfold readTxLongLE
  repeat' first
    | with_reducible refine .seq _ _ ?_ fun _ => ?_
    | split
    | infer_instance

instance generated_edfsReply (tx : ℕ → Byte) :
    Generated (LanAction E p) (edfsReply tx : N η Unit) := by
  unfold edfsReply
  repeat' first
    | with_reducible refine .seq _ _ ?_ fun _ => ?_
    | split
    | infer_instance

end EdfsReplies

/-- `E` and `p` allow the operations of EtherDFS that only look at its variables. -/
class HostEvents (E : NetEvent → Prop) (p : Net → Edfs → γ) : Prop extends FrameEvents E p where
  hostPath : ∀ path, E (.hostPath path)
  crash : E .crash

section Host

variable {E : NetEvent → Prop} {p : Net → Edfs → γ} [HostEvents E p] (host : Host η)

instance (path : CString) : Generated (LanAction E p) (note (.hostPath path) : N η Unit) :=
  generated_note (HostEvents.hostPath p path)

instance : Generated (LanAction E p) (note .crash : N η Unit) :=
  generated_note (HostEvents.crash p)

instance generated_hostPath {α : Type} (path : CString) (f : CString → η → α × η) :
    Generated (LanAction E p) (hostPath path f) := by
  unfold hostPath
  repeat' first
    | with_reducible refine .seq _ _ ?_ fun _ => ?_
    | split
    | infer_instance

instance generated_edfsTouch (path : CString) :
    Generated (LanAction E p) (edfsTouch host path) := by
  unfold edfsTouch
  repeat' first
    | with_reducible refine .seq _ _ ?_ fun _ => ?_
    | split
    | infer_instance

instance generated_edfsOpenFile (path83 : CString) (attrib action cluster : Word) (path : CString) :
    Generated (LanAction E p) (edfsOpenFile host path83 attrib action cluster path) := by
  unfold edfsOpenFile
  repeat' first
    | with_reducible refine .seq _ _ ?_ fun _ => ?_
    | split
    | infer_instance

instance generated_edfsChdir (path83 : CString) :
    Generated (LanAction E p) (edfsChdir host path83) := by
  unfold edfsChdir
  repeat' first
    | with_reducible refine .seq _ _ ?_ fun _ => ?_
    | split
    | infer_instance

instance generated_edfsGetattr (path83 : CString) :
    Generated (LanAction E p) (edfsGetattr host path83) := by
  unfold edfsGetattr
  repeat' first
    | with_reducible refine .seq _ _ ?_ fun _ => ?_
    | split
    | infer_instance

instance generated_edfsRead (offset : BitVec 32) (cluster len : Word) :
    Generated (LanAction E p) (edfsRead host offset cluster len) := by
  unfold edfsRead
  repeat' first
    | with_reducible refine .seq _ _ ?_ fun _ => ?_
    | split
    | infer_instance

instance generated_edfsWrite (offset : BitVec 32) (cluster : Word) (data : ℕ → Byte) (len : Word) :
    Generated (LanAction E p) (edfsWrite host offset cluster data len) := by
  unfold edfsWrite
  repeat' first
    | with_reducible refine .seq _ _ ?_ fun _ => ?_
    | split
    | infer_instance

theorem generated_edfsPath_of {txLen offset : ℕ} (h : E (.edfsPath offset txLen))
    (tx : ℕ → Byte) :
    Generated (LanAction E p) (edfsPath tx txLen offset : N η (Option (Option CString))) := by
  unfold edfsPath
  refine .seq _ _ (generated_note h) fun _ => ?_
  infer_instance

theorem generated_edfsWithPath_of {α : Type} {txLen offset : ℕ} (h : E (.edfsPath offset txLen))
    (tx : ℕ → Byte) (operation : CString → N η α)
    [∀ path, Generated (LanAction E p) (operation path)] :
    Generated (LanAction E p) (edfsWithPath tx txLen offset operation) := by
  unfold edfsWithPath
  refine .seq _ _ (generated_edfsPath_of h tx) fun _ => ?_
  repeat' first
    | with_reducible refine .seq _ _ ?_ fun _ => ?_
    | split
    | infer_instance

end Host

/-- `E` and `p` allow the operations of EtherDFS. -/
class FileEvents (E : NetEvent → Prop) (p : Net → Edfs → γ) : Prop extends HostEvents E p where
  buffer : ∀ capacity len, E (.buffer capacity len)
  edfs : ∀ n (f : Edfs → Edfs) e, p n (f e) = p n e

/-- `E` and `p` allow the functions of EtherDFS. -/
class EdfsEvents (E : NetEvent → Prop) (p : Net → Edfs → γ) : Prop extends FileEvents E p where
  edfsPath : ∀ offset txLen, E (.edfsPath offset txLen)

section Edfs

variable {E : NetEvent → Prop} {p : Net → Edfs → γ} [FileEvents E p] (host : Host η)

instance generated_modifyEdfs (f : Edfs → Edfs) :
    Generated (LanAction E p) (modifyEdfs f : N η Unit) :=
  .action _ (.edfs f fun n => FileEvents.edfs E n f)

instance (capacity len : ℕ) : Generated (LanAction E p) (note (.buffer capacity len) : N η Unit) :=
  generated_note (FileEvents.buffer p capacity len)

instance generated_edfsClusterRegister (path path83 : CString) :
    Generated (LanAction E p) (edfsClusterRegister path path83 : N η Unit) := by
  unfold edfsClusterRegister
  repeat' first
    | with_reducible refine .seq _ _ ?_ fun _ => ?_
    | split
    | infer_instance

instance generated_edfsClusterUnregister (path : CString) :
    Generated (LanAction E p) (edfsClusterUnregister path : N η Unit) := by
  unfold edfsClusterUnregister
  repeat' first
    | with_reducible refine .seq _ _ ?_ fun _ => ?_
    | split
    | infer_instance

instance generated_edfsDirLookup (path83 : CString) :
    Generated (LanAction E p) (edfsDirLookup path83 : N η (Option (Word × CString))) := by
  unfold edfsDirLookup
  repeat' first
    | with_reducible refine .seq _ _ ?_ fun _ => ?_
    | split
    | infer_instance

instance generated_edfsUnixpath (path83 : CString) :
    Generated (LanAction E p) (edfsUnixpath path83 : N η CString) := by
  unfold edfsUnixpath
  repeat' first
    | with_reducible refine .seq _ _ ?_ fun _ => ?_
    | split
    | infer_instance

/-- The search of EtherDFS, by its recursion over the entries. -/
instance generated_edfsFindLoop (s : EdfsSearch) (entries : List CString) (pos : Word) :
    Generated (LanAction E p) (edfsFindLoop host s entries pos) := by
  induction entries generalizing pos with
  | nil =>
    unfold edfsFindLoop
    infer_instance
  | cons name rest ih =>
    unfold edfsFindLoop
    repeat' first
      | with_reducible refine .seq _ _ ?_ fun _ => ?_
      | split
      | infer_instance

instance generated_edfsFind (attrib : Byte) (pattern : CString) (cluster targetPos : Word) :
    Generated (LanAction E p) (edfsFind host attrib pattern cluster targetPos) := by
  unfold edfsFind
  repeat' first
    | with_reducible refine .seq _ _ ?_ fun _ => ?_
    | split
    | infer_instance

instance generated_edfsOpen (path83 : CString) (attrib action : Word) :
    Generated (LanAction E p) (edfsOpen host path83 attrib action) := by
  unfold edfsOpen
  repeat' first
    | with_reducible refine .seq _ _ ?_ fun _ => ?_
    | split
    | infer_instance

instance generated_edfsRemove (remove : CString → η → Bool × η) (unknown : Word)
    (path83 : CString) :
    Generated (LanAction E p) (edfsRemove remove unknown path83) := by
  unfold edfsRemove
  repeat' first
    | with_reducible refine .seq _ _ ?_ fun _ => ?_
    | split
    | infer_instance

instance generated_edfsRmdir (path83 : CString) :
    Generated (LanAction E p) (edfsRmdir host path83) := by
  unfold edfsRmdir
  repeat' first
    | with_reducible refine .seq _ _ ?_ fun _ => ?_
    | split
    | infer_instance

instance generated_edfsDelete (path83 : CString) :
    Generated (LanAction E p) (edfsDelete host path83) := by
  unfold edfsDelete
  repeat' first
    | with_reducible refine .seq _ _ ?_ fun _ => ?_
    | split
    | infer_instance

instance generated_edfsMkdir (path83 : CString) :
    Generated (LanAction E p) (edfsMkdir host path83) := by
  unfold edfsMkdir
  repeat' first
    | with_reducible refine .seq _ _ ?_ fun _ => ?_
    | split
    | infer_instance

instance generated_edfsRename (path83Src path83Dst : CString) :
    Generated (LanAction E p) (edfsRename host path83Src path83Dst) := by
  unfold edfsRename
  repeat' first
    | with_reducible refine .seq _ _ ?_ fun _ => ?_
    | split
    | infer_instance

/-- Where the path of a request starts, behind the first path of RENAME. -/
def edfsPathOffset (tx : ℕ → Byte) (func : Byte) : Option ℕ :=
  if func ∈ [edfsFuncRmdir, edfsFuncMkdir, edfsFuncChdir, edfsFuncGetattr, edfsFuncDelete] then
    some 0x3C
  else if func ∈ [edfsFuncSetattr, edfsFuncFindfirst] then some 0x3D
  else if func = edfsFuncFindnext then some 0x41
  else if func = edfsFuncRename then some (0x3D + (tx 0x3C).toNat)
  else if func ∈ [edfsFuncOpen, edfsFuncCreate, edfsFuncSpopnfil] then some 0x42
  else none

/-- A request calls `edfs_path` for its path, and RENAME for the path in front of it. -/
theorem generated_edfsDispatch_of {tx : ℕ → Byte} {txLen : Word} {func : Byte}
    (h : ∀ offset ∈ edfsPathOffset tx func, E (.edfsPath offset txLen.toNat))
    (hsrc : func = edfsFuncRename → E (.edfsPath 0x3D (61 + (tx 0x3C).toNat))) :
    Generated (LanAction E p) (edfsDispatch host tx txLen func) := by
  -- the functions with one path at `edfsPathOffset`
  have hpath : ∀ {α : Type} {offset : ℕ} (operation : CString → N η α)
      [∀ path, Generated (LanAction E p) (operation path)],
      edfsPathOffset tx func = some offset →
        Generated (LanAction E p) (edfsWithPath tx txLen.toNat offset operation) :=
    fun operation _ hoffset => generated_edfsWithPath_of (h _ hoffset) tx operation
  apply edfsDispatch_cases (motive := fun x => Generated (LanAction E p) x)
  case rmdir => exact fun hfunc => hpath _ (by rw [hfunc]; rfl)
  case mkdir => exact fun hfunc => hpath _ (by rw [hfunc]; rfl)
  case chdir => exact fun hfunc => hpath _ (by rw [hfunc]; rfl)
  case closefile => exact fun _ => inferInstance
  case readfile => exact fun _ => inferInstance
  case writefile => exact fun _ => inferInstance
  case diskspace => exact fun _ => inferInstance
  case setattr =>
    intro hfunc
    -- SETATTR decodes its path itself, and operates on it only if it is one
    have hoffset : edfsPathOffset tx func = some 0x3D := by rw [hfunc]; rfl
    refine .seq _ _ inferInstance fun _ => ?_
    refine .seq _ _ (generated_edfsPath_of (h _ hoffset) tx) fun path => ?_
    split <;> infer_instance
  case getattr => exact fun hfunc => hpath _ (by rw [hfunc]; rfl)
  case findfirst =>
    exact fun hfunc => .seq _ _ inferInstance fun _ => hpath _ (by rw [hfunc]; rfl)
  case findnext =>
    intro hfunc
    refine .seq _ _ inferInstance fun _ => .seq _ _ inferInstance fun _ => ?_
    exact .seq _ _ inferInstance fun _ => hpath _ (by rw [hfunc]; rfl)
  case rename =>
    intro hfunc
    -- the offset is the byte that is read
    have hread : ∀ f : Byte → N η (Option Word),
        readTx tx 0x3C >>= f = note (.txRead 0x3C) >>= fun _ => f (tx 0x3C) := fun _ => rfl
    rw [hread]
    refine .seq _ _ (generated_note (FrameEvents.txRead p 0x3C)) fun _ => ?_
    refine .seq _ _ (hpath _ (by rw [hfunc]; rfl)) fun dst => ?_
    split
    · infer_instance
    · -- the old path is decoded only behind the new one
      exact generated_edfsWithPath_of (hsrc hfunc) tx _
  case delete => exact fun hfunc => hpath _ (by rw [hfunc]; rfl)
  case openfile =>
    exact fun hfunc => .seq _ _ inferInstance fun _ => hpath _ (by rw [hfunc]; rfl)
  case create =>
    exact fun hfunc => .seq _ _ inferInstance fun _ => hpath _ (by rw [hfunc]; rfl)
  case spopnfil =>
    intro hfunc
    refine .seq _ _ inferInstance fun _ => .seq _ _ inferInstance fun _ => ?_
    exact .seq _ _ inferInstance fun _ => hpath _ (by rw [hfunc]; rfl)
  case other => exact fun _ => inferInstance

instance generated_edfsWithPath {E : NetEvent → Prop} {p : Net → Edfs → γ} [EdfsEvents E p]
    {α : Type} (tx : ℕ → Byte) (txLen offset : ℕ) (operation : CString → N η α)
    [∀ path, Generated (LanAction E p) (operation path)] :
    Generated (LanAction E p) (edfsWithPath tx txLen offset operation) :=
  generated_edfsWithPath_of (EdfsEvents.edfsPath p offset txLen) tx operation

instance generated_edfsDispatch {E : NetEvent → Prop} {p : Net → Edfs → γ} [EdfsEvents E p]
    (tx : ℕ → Byte) (txLen : Word) (func : Byte) :
    Generated (LanAction E p) (edfsDispatch host tx txLen func) :=
  generated_edfsDispatch_of host (fun _ _ => EdfsEvents.edfsPath p _ _)
    fun _ => EdfsEvents.edfsPath p _ _

/-- `edfs_handle_packet` behind its checks. -/
def edfsAnswer (tx : ℕ → Byte) (txLen : Word) (func : Byte) : N η Unit := do
  match ← edfsDispatch host tx txLen func with
  | none => return
  | some rxLen =>
    modifyNet fun n => { n with rxLen := rxLen }
    edfsReply tx
    modifyNet fun n => { n with rxReady := true }
    note .built

theorem edfsHandlePacket_eq (tx : ℕ → Byte) (txLen : Word) :
    edfsHandlePacket host tx txLen = (do
      if (← getEdfs).inited then
        let ver := (← readTx tx 0x38) &&& 0x7F
        let func ← readTx tx 0x3B
        if ver ≠ 2 then netPanic "Unsupported EtherDFS version: %d\n"
        else edfsAnswer host tx txLen func) := by
  rfl

instance generated_edfsAnswer [ReadyEvents E p] (tx : ℕ → Byte) (txLen : Word) (func : Byte)
    [Generated (LanAction E p) (edfsDispatch host tx txLen func)] :
    Generated (LanAction E p) (edfsAnswer host tx txLen func) := by
  unfold edfsAnswer
  repeat' first
    | with_reducible refine .seq _ _ ?_ fun _ => ?_
    | split
    | exact generated_modifyNet fun n => ReplyEvents.rxLen E n _
    | exact generated_modifyNet (ReadyEvents.rxReady E)
    | exact generated_note (ReadyEvents.built p)
    | infer_instance

variable {E : NetEvent → Prop} {p : Net → Edfs → γ} [EdfsEvents E p]

instance generated_edfsHandlePacket [ReadyEvents E p] (tx : ℕ → Byte) (txLen : Word) :
    Generated (LanAction E p) (edfsHandlePacket host tx txLen) := by
  rw [edfsHandlePacket_eq]
  infer_instance

instance generated_netTxFrame [ReadyEvents E p] [UdpChanges p] [TcpEvents E p] [SendEvents E]
    [SendtoEvents E] (tx : ℕ → Byte) (txLen : Word) :
    Generated (LanAction E p) (netTxFrame host tx txLen) := by
  unfold netTxFrame
  infer_instance

end Edfs

end Pc20iii
