import Pc20iii.Machine.Word
import Pc20iii.Program.Labelled
import Mathlib.Logic.Function.Basic

/-!
# The emulated network

The state behind the network card: `net_t`, the static variables of `edfs.c`, and the host
that both call.

The host is a parameter of the development: a state type `η` of its own and a structure
`Host η` with one function for each call that the source makes, which takes the state of
the host to the result of the call and its next state. Nothing is assumed about it but
what the documentation of the calls says about lengths. A result of -1 or `NULL` is
`none`.

A frame that the guest transmits is a map on all indices, since the source passes it
without its buffer; what lies beyond its length is unspecified. The buffer `rx_frame` is a
map on all indices as well. The history in `log` records at which indices the two are
accessed, what is passed to the host, and the segments and frames that are built. No
function reads it.
-/

namespace Pc20iii

open StateProgram

/-- `NET_MTU`. -/
def netMtu : ℕ := 1514

/-- `NET_SOCKET_INACTIVITY_TIMEOUT`. -/
def netSocketInactivityTimeout : ℤ := 1000000

/-- `NET_SOCKET_ACK_WAIT`. -/
def netSocketAckWait : ℤ := 100

/-- `NET_MAC_REMOTE`. -/
def netMacRemote : Byte := 0x11

/-- `NET_MAC_LOCAL`. -/
def netMacLocal : Byte := 0x22

/-- `NET_IP_REMOTE`: 10.0.0.1. -/
def netIpRemote : BitVec 32 := 0x0A000001

/-- `NET_IP_LOCAL`: 10.0.0.2. -/
def netIpLocal : BitVec 32 := 0x0A000002

/-! ### Sockets -/

/-- `net_udp_socket_t`. -/
structure NetUdpSocket where
  fd : ℤ
  inactivityTimeout : ℤ
  srcPort : Word
  dstPort : Word
  dstIp : BitVec 32
deriving DecidableEq, Repr

/-- `net_tcp_socket_t`. -/
structure NetTcpSocket where
  fd : ℤ
  inactivityTimeout : ℤ
  srcPort : Word
  dstPort : Word
  dstIp : BitVec 32
  /-- Next number to send to client. -/
  sendSeq : BitVec 32
  /-- Last received number from client. -/
  recvSeq : BitVec 32
  /-- Used during graceful shutdown. -/
  finAckSent : Bool
  /-- Wait counter for flow control. -/
  ackWait : ℤ
deriving DecidableEq, Repr

/-- An index of a socket. -/
abbrev Slot := Fin 5

/-- `net_t`. -/
structure Net where
  rxFrame : ℕ → Byte
  rxLen : Word
  rxReady : Bool
  ipId : Word
  udpSockets : Slot → NetUdpSocket
  tcpSockets : Slot → NetTcpSocket

/-! ### EtherDFS -/

/-- A C string, without its terminator. -/
abbrev CString := List Byte

/-- `edfs_cluster_t`. -/
structure EdfsCluster where
  path : CString
  path83 : CString
deriving DecidableEq, Repr

/-- The static variables of `edfs.c`, without the trace buffer. -/
structure Edfs where
  inited : Bool
  root : CString
  cluster : ℕ → EdfsCluster
  clusterUsed : ℕ

/-! ### The host -/

/-- The socket types that the source opens. -/
inductive SocketType where
  | stream
  | datagram
deriving DecidableEq, Repr

/-- The modes that the source opens files with. -/
inductive FileMode where
  /-- `"rb"` -/
  | read
  /-- `"w+b"` -/
  | create
  /-- `"ab"` -/
  | append
deriving DecidableEq, Repr

/-- What the source uses of `struct stat`. -/
structure FileStat where
  isDir : Bool
  isReg : Bool
  mtime : ℤ
  size : ℤ
deriving DecidableEq, Repr

/-- What the source uses of `struct tm`. -/
structure Tm where
  sec : ℤ
  min : ℤ
  hour : ℤ
  mday : ℤ
  mon : ℤ
  year : ℤ
deriving DecidableEq, Repr

/-- The calls that the network makes to the host. -/
structure Host (η : Type) where
  errno : η → ℤ
  /-- What an uninitialised local array holds. -/
  stack : η → ℕ → Byte
  socket : SocketType → η → Option ℕ × η
  connect : (fd : ℤ) → (ip : BitVec 32) → (port : Word) → η → Bool × η
  fcntl : (fd : ℤ) → η → ℤ × η
  send : (fd : ℤ) → (data : ℕ → Byte) → (len : ℕ) → η → Option ℕ × η
  sendto : (fd : ℤ) → (data : ℕ → Byte) → (len : ℕ) → (ip : BitVec 32) → (port : Word) → η →
    Option ℕ × η
  recv : (fd : ℤ) → (len : ℕ) → η → Option (List Byte) × η
  recvfrom : (fd : ℤ) → (len : ℕ) → η → Option (List Byte × BitVec 32 × Word) × η
  close : (fd : ℤ) → η → η
  /-- The entries that `readdir` gives for the opened directory. -/
  opendir : CString → η → Option (List CString) × η
  stat : CString → η → Option FileStat × η
  fopen : CString → FileMode → η → Option ℕ × η
  /-- `fseek` and `fread`. -/
  fread : (file : ℕ) → (offset : BitVec 32) → (len : ℕ) → η → List Byte × η
  fwrite : (file : ℕ) → (data : ℕ → Byte) → (len : ℕ) → η → ℕ × η
  fclose : (file : ℕ) → η → η
  mkdir : CString → η → Bool × η
  rmdir : CString → η → Bool × η
  unlink : CString → η → Bool × η
  rename : CString → CString → η → Bool × η
  localtime : ℤ → Tm
  send_le : ∀ {fd data len h n}, (send fd data len h).1 = some n → n ≤ len
  sendto_le : ∀ {fd data len ip port h n}, (sendto fd data len ip port h).1 = some n → n ≤ len
  recv_le : ∀ {fd len h bytes}, (recv fd len h).1 = some bytes → bytes.length ≤ len
  recvfrom_le : ∀ {fd len h r}, (recvfrom fd len h).1 = some r → r.1.length ≤ len
  fread_le : ∀ file offset len h, (fread file offset len h).1.length ≤ len
  fwrite_le : ∀ file data len h, (fwrite file data len h).1 ≤ len

/-- A host on which every call fails. -/
def failingHost : Host Unit where
  errno _ := 0
  stack _ _ := 0
  socket _ h := (none, h)
  connect _ _ _ h := (false, h)
  fcntl _ h := (-1, h)
  send _ _ _ h := (none, h)
  sendto _ _ _ _ _ h := (none, h)
  recv _ _ h := (none, h)
  recvfrom _ _ h := (none, h)
  close _ h := h
  opendir _ h := (none, h)
  stat _ h := (none, h)
  fopen _ _ h := (none, h)
  fread _ _ _ h := ([], h)
  fwrite _ _ _ h := (0, h)
  fclose _ h := h
  mkdir _ h := (false, h)
  rmdir _ h := (false, h)
  unlink _ h := (false, h)
  rename _ _ h := (false, h)
  localtime _ := { sec := 0, min := 0, hour := 0, mday := 1, mon := 0, year := 80 }
  send_le := nofun
  sendto_le := nofun
  recv_le := nofun
  recvfrom_le := nofun
  fread_le _ _ _ _ := Nat.zero_le _
  fwrite_le _ _ _ _ := Nat.zero_le _

/-- A host on which connections are accepted and all data is taken. -/
def acceptingHost : Host Unit :=
  { failingHost with
    socket := fun _ h => (some 3, h)
    connect := fun _ _ _ h => (true, h)
    fcntl := fun _ h => (0, h)
    send := fun _ _ len h => (some len, h)
    sendto := fun _ _ len _ _ h => (some len, h)
    send_le := fun h => Nat.le_of_eq (Option.some.inj h).symm
    sendto_le := fun h => Nat.le_of_eq (Option.some.inj h).symm }

/-! ### State and history -/

/-- The ends of a guest connection: source port, destination port, destination address. -/
abbrev Tuple := Word × Word × BitVec 32

/-- What the history of the network records. -/
inductive NetEvent where
  /-- A read of `tx_frame`. -/
  | txRead (i : ℕ)
  /-- A write of `len` bytes to `rx_frame`. -/
  | rxWrite (start len : ℕ)
  /-- A call of `net_ip_checksum` for `len` bytes of `rx_frame`. -/
  | ipChecksum (start len : ℕ)
  /-- A call of `send` for the data of a segment with sequence number `seq`, and how many
  bytes the host took. -/
  | send (i : Slot) (seq : BitVec 32) (start len : ℕ) (taken : Option ℕ)
  /-- A call of `sendto`. -/
  | sendto (i : Slot) (start len : ℕ) (taken : Option ℕ)
  /-- A connection has been opened by a SYN segment. -/
  | opened (i : Slot) (tuple : Tuple) (recvSeq : BitVec 32)
  /-- A segment other than SYN has been applied to a connection. -/
  | applied (i : Slot) (tuple : Tuple)
  /-- A connection has been closed. -/
  | closed (i : Slot)
  /-- A segment for the guest with `len` bytes of payload. -/
  | segment (i : Slot) (seq ack : BitVec 32) (flags : Byte) (len : ℕ)
  /-- `rx_ready` has been set. -/
  | built
  /-- The card has taken the frame. -/
  | taken
  /-- A path passed to the host. -/
  | hostPath (path : CString)
  /-- A string of `len` bytes put into an array. -/
  | buffer (capacity len : ℕ)
  /-- A path argument taken from a frame. -/
  | edfsPath (offset : ℕ) (txLen : ℕ)
  /-- The emulator does not survive the call. -/
  | crash
deriving DecidableEq, Repr

/-- The network: `net_t`, EtherDFS and the host, the panics since the device last looked,
and the history, newest event first. -/
structure Lan (η : Type) where
  net : Net
  edfs : Edfs
  host : η
  panics : List String
  log : List NetEvent

/-- The functions of the network. -/
abbrev N (η : Type) (α : Type) := StateM (Lan η) α

variable {η : Type}

/-- Record an event in the history. -/
def note (e : NetEvent) : N η Unit :=
  modify fun l => { l with log := e :: l.log }

/-- `panic`. -/
def netPanic (text : String) : N η Unit :=
  modify fun l => { l with panics := text :: l.panics }

/-- The registers of `net_t`. -/
def getNet : N η Net := do
  return (← get).net

/-- An assignment to `net_t`. -/
def modifyNet (f : Net → Net) : N η Unit :=
  modify fun l => { l with net := f l.net }

/-- A call of the host. -/
def hostCall {α : Type} (f : η → α × η) : N η α := do
  let r := f (← get).host
  modify fun l => { l with host := r.2 }
  return r.1

/-- `errno`. -/
def getErrno (host : Host η) : N η ℤ := do
  return host.errno (← get).host

/-- An assignment to the variables of `edfs.c`. -/
def modifyEdfs (f : Edfs → Edfs) : N η Unit :=
  modify fun l => { l with edfs := f l.edfs }

/-- An assignment to a UDP socket. -/
def modifyUdp (i : Slot) (f : NetUdpSocket → NetUdpSocket) : N η Unit :=
  modifyNet fun n => { n with udpSockets := Function.update n.udpSockets i (f (n.udpSockets i)) }

/-- An assignment to a TCP socket. -/
def modifyTcp (i : Slot) (f : NetTcpSocket → NetTcpSocket) : N η Unit :=
  modifyNet fun n => { n with tcpSockets := Function.update n.tcpSockets i (f (n.tcpSockets i)) }

@[simp] theorem outcome_getNet (l : Lan η) : outcome getNet l = (l.net, l) := by
  rfl

@[simp] theorem outcome_hostCall {α : Type} (f : η → α × η) (l : Lan η) :
    outcome (hostCall f) l = ((f l.host).1, { l with host := (f l.host).2 }) := by
  rfl

@[simp] theorem outcome_getErrno (host : Host η) (l : Lan η) :
    outcome (getErrno host) l = (host.errno l.host, l) := by
  rfl

@[simp] theorem host_note (e : NetEvent) (l : Lan η) : (outcome (note e) l).2.host = l.host := by
  rfl

@[simp] theorem net_note (e : NetEvent) (l : Lan η) : (outcome (note e) l).2.net = l.net := by
  rfl

@[simp] theorem host_modifyUdp (i : Slot) (f : NetUdpSocket → NetUdpSocket) (l : Lan η) :
    (outcome (modifyUdp i f) l).2.host = l.host := by
  rfl

@[simp] theorem tcpSockets_modifyUdp (i : Slot) (f : NetUdpSocket → NetUdpSocket) (l : Lan η) :
    (outcome (modifyUdp i f) l).2.net.tcpSockets = l.net.tcpSockets := by
  rfl

@[simp] theorem tcpSockets_modifyTcp (i : Slot) (f : NetTcpSocket → NetTcpSocket) (l : Lan η) :
    (outcome (modifyTcp i f) l).2.net.tcpSockets i = f (l.net.tcpSockets i) :=
  Function.update_self ..

@[simp] theorem host_modifyTcp (i : Slot) (f : NetTcpSocket → NetTcpSocket) (l : Lan η) :
    (outcome (modifyTcp i f) l).2.host = l.host := by
  rfl

/-- `tx_frame[i]`. -/
def readTx (tx : ℕ → Byte) (i : ℕ) : N η Byte := do
  note (.txRead i)
  return tx i

/-- Two bytes of `tx_frame`, most significant first. -/
def readTxWord (tx : ℕ → Byte) (i : ℕ) : N η Word := do
  let hi ← readTx tx i
  let lo ← readTx tx (i + 1)
  return wordOf lo hi

/-- Four bytes of `tx_frame`, most significant first. -/
def readTxLong (tx : ℕ → Byte) (i : ℕ) : N η (BitVec 32) := do
  let hi ← readTxWord tx i
  let lo ← readTxWord tx (i + 2)
  return hi ++ lo

/-- Successive bytes of `rx_frame`. -/
def Net.setBytes (start : ℕ) (bytes : List Byte) (n : Net) : Net :=
  { n with rxFrame := fun i =>
      if start ≤ i ∧ i < start + bytes.length then bytes.getD (i - start) 0 else n.rxFrame i }

/-- Assignments to successive bytes of `rx_frame`. -/
def writeRx (start : ℕ) (bytes : List Byte) : N η Unit := do
  note (.rxWrite start bytes.length)
  modifyNet (Net.setBytes start bytes)

/-- `rx_frame[i] = tx_frame[i]` for successive bytes. -/
def copyTx (tx : ℕ → Byte) (start len : ℕ) : N η Unit :=
  (List.range len).forM fun k => do
    let byte ← readTx tx (start + k)
    writeRx (start + k) [byte]

/-- `rx_len` and `rx_ready` of a frame that is complete. -/
def rxComplete (len : Word) : N η Unit := do
  modifyNet fun n => { n with rxLen := len, rxReady := true }
  note .built

/-- A signed length as the `size_t` that it is passed as. -/
def sizeT (len : ℤ) : ℕ := (len % 2 ^ 64).toNat

/-- The two bytes of a word, most significant first. -/
def wordBytes (w : Word) : List Byte := [highByte w, lowByte w]

/-- The four bytes of a long word, most significant first. -/
def longBytes (w : BitVec 32) : List Byte :=
  wordBytes (w.extractLsb' 16 16) ++ wordBytes (w.extractLsb' 0 16)

/-- `net_init`. -/
def netInit : Net where
  rxFrame := fun _ => 0
  rxLen := 0
  rxReady := false
  ipId := 0
  udpSockets := fun _ =>
    { fd := -1, inactivityTimeout := 0, srcPort := 0, dstPort := 0, dstIp := 0 }
  tcpSockets := fun i =>
    { fd := -1, inactivityTimeout := 0, srcPort := 0, dstPort := 0, dstIp := 0
      sendSeq := BitVec.ofNat 32 i.val * 0x1000000, recvSeq := 0, finAckSent := false
      ackWait := 0 }

end Pc20iii
