import Pc20iii.Net.Reply

/-!
# The emulated remote host

`net.c`: what the emulated network does with the frames of the guest, and how it polls the
sockets of the host.
-/

namespace Pc20iii

open StateProgram

variable {η : Type} (host : Host η)

/-- `EAGAIN`. -/
def eagain : ℤ := 11

/-! ### ICMP and ARP -/

/-- `net_handle_icmp`. -/
def netHandleIcmp (tx : ℕ → Byte) (txLen : Word) : N η Unit := do
  let type ← readTx tx 0x22
  -- only echo requests
  if type = 8 then
    let dstIp ← readTxLong tx 0x1E
    -- other addresses are ignored
    if dstIp = netIpRemote then
      writeRx 0x22 [0x00, 0x00]  -- Type = Echo Reply, Code
      writeRx 0x24 [0x00, 0x01]  -- ICMP Checksum
      copyTx tx 0x26 (txLen.toNat - 0x26)
      let len := sizeT (txLen.toNat - 0x22)
      note (.ipChecksum 0x22 len)
      let rxFrame := (← getNet).rxFrame
      writeRx 0x24 (wordBytes (netIpChecksum (fun i => rxFrame (0x22 + i)) len))
      netIpv4Reply (txLen - 14) ipprotoIcmp netIpRemote
      netEthernetReply
      rxComplete txLen

/-- `net_handle_arp`. -/
def netHandleArp (tx : ℕ → Byte) (txLen : Word) : N η Unit := do
  if txLen.toNat < 0x29 then
    return
  else
    let oper ← readTxWord tx 0x14
    -- only requests
    if oper = 1 then
      writeRx 0x0C [0x08, 0x06]  -- Ethertype
      writeRx 0x0E [0x00, 0x01, 0x08, 0x00, 0x06, 0x04]  -- HTYPE, PTYPE, HLEN and PLEN
      writeRx 0x14 [0x00, 0x02]  -- OPER = Reply
      let whoHasIp ← readTxLong tx 0x26
      let sender : Option (Byte × BitVec 32) :=
        if whoHasIp = netIpRemote then some (netMacRemote, netIpRemote)
        else if whoHasIp = netIpLocal then some (netMacLocal, netIpLocal)
        else none
      match sender with
      | none => return
      | some (mac, ip) =>
        writeRx 0x16 (List.replicate 6 mac)
        writeRx 0x1C (longBytes ip)
        writeRx 0x20 (List.replicate 6 netMacLocal)
        writeRx 0x26 (longBytes netIpLocal)
        netEthernetReply
        rxComplete 0x2A

/-! ### Closing sockets -/

/-- `net_udp_close`. -/
def netUdpClose (socketIndex : Slot) : N η Unit := do
  let fd := ((← getNet).udpSockets socketIndex).fd
  hostCall fun h => ((), host.close fd h)
  modifyUdp socketIndex fun s => { s with fd := -1 }

/-- `net_tcp_close`. With flags, a segment is sent while taking down the connection. -/
def netTcpClose (socketIndex : Slot) (flags : Byte) : N η Unit := do
  (if flags > 0 then do
    let dstIp := ((← getNet).tcpSockets socketIndex).dstIp
    netTcpSegment 0 socketIndex flags dstIp 0
  else
    pure ())
  let fd := ((← getNet).tcpSockets socketIndex).fd
  hostCall fun h => ((), host.close fd h)
  modifyTcp socketIndex fun s => { s with
    fd := -1
    sendSeq := BitVec.ofNat 32 socketIndex.val * 0x1000000 }
  note (.closed socketIndex)

/-! ### TCP -/

/-- The ends of the connection of a socket. -/
def NetTcpSocket.tuple (s : NetTcpSocket) : Tuple := (s.srcPort, s.dstPort, s.dstIp)

/-- The first free TCP socket. -/
def Net.freeTcp (n : Net) : Option Slot :=
  (List.finRange 5).find? fun i => (n.tcpSockets i).fd = -1

/-- The first TCP socket of a connection. -/
def Net.findTcp (n : Net) (tuple : Tuple) : Option Slot :=
  (List.finRange 5).find? fun i => (n.tcpSockets i).fd ≠ -1 ∧ (n.tcpSockets i).tuple = tuple

/-- The first part of `net_handle_tcp`: a SYN packet opens a socket. -/
def netTcpSyn (tuple : Tuple) (recvSeq : BitVec 32) : N η Unit := do
  match (← getNet).freeTcp with
  | none => netPanic "No more TCP sockets available!\n"
  | some i =>
    match ← hostCall (host.socket .stream) with
    | none =>
      modifyTcp i fun s => { s with fd := -1 }
      netPanic "socket() failed with errno: %d\n"
    | some fd =>
      modifyTcp i fun s => { s with fd := fd }
      if ← hostCall (host.connect fd tuple.2.2 tuple.2.1) then
        -- non-blocking from here on
        let _ ← hostCall (host.fcntl fd)
        if (← hostCall (host.fcntl fd)) = 1 then
          netPanic "fcntl() failed with errno: %d\n"
          netTcpClose host i 0
        else
          modifyTcp i fun s => { s with
            srcPort := tuple.1
            dstPort := tuple.2.1
            dstIp := tuple.2.2
            recvSeq := recvSeq + 1
            inactivityTimeout := 0
            finAckSent := false
            ackWait := 0 }
          note (.opened i tuple (recvSeq + 1))
          netTcpSegment 0 i flagsSynAck tuple.2.2 1
      else
        -- time out
        netTcpClose host i 0

/-- The data of a PSH+ACK packet: from where in the frame, and how many bytes. -/
def tcpData (ipLen : Word) (dataOffset : Byte) : ℕ × ℕ :=
  (0x22 + dataOffset.toNat * 4, sizeT (ipLen.toNat - 20 - dataOffset.toNat * 4))

/-- The PSH+ACK case of `net_handle_tcp`: data for the host. -/
def netTcpData (tx : ℕ → Byte) (i : Slot) (ipLen : Word) (dataOffset : Byte)
    (recvSeq dstIp : BitVec 32) : N η Unit := do
  modifyTcp i fun s => { s with ackWait := 0 }
  let fd := ((← getNet).tcpSockets i).fd
  let (dataIndex, dataLen) := tcpData ipLen dataOffset
  let sent ← hostCall (host.send fd (fun k => tx (dataIndex + k)) dataLen)
  note (.send i recvSeq dataIndex dataLen sent)
  match sent with
  | none =>
    netPanic "send() failed with errno: %d\n"
    netTcpClose host i flagsRstAck
  | some _ =>
    modifyTcp i fun s => { s with recvSeq := recvSeq + BitVec.ofNat 32 dataLen }
    netTcpSegment 0 i flagsAck dstIp 0

/-- The second part of `net_handle_tcp`: a packet of the connection of socket `i`. The first
assignment is to `udp_sockets`, as in the source. -/
def netTcpApply (tx : ℕ → Byte) (i : Slot) (ipLen : Word) (dataOffset flags : Byte)
    (recvSeq dstIp : BitVec 32) : N η Unit := do
  note (.applied i ((← getNet).tcpSockets i).tuple)
  modifyUdp i fun s => { s with inactivityTimeout := 0 }
  if flags = flagsAck then
    -- possibly let the next incoming packet through
    modifyTcp i fun s => { s with ackWait := 0 }
  else if flags = flagsRst then
    return
  else if flags = flagsPshAck then
    netTcpData host tx i ipLen dataOffset recvSeq dstIp
  else if flags = flagsFinAck then
    if ((← getNet).tcpSockets i).finAckSent then
      -- the remote host closed the socket, this is the final ACK
      netTcpClose host i flagsAck
    else
      netTcpClose host i flagsRstAck
  else if flags = flagsRstAck then
    netTcpClose host i flagsAck
  else
    netPanic "Unhandled TCP flags: %02x\n"
    netTcpClose host i flagsRstAck

/-- `net_handle_tcp`. -/
def netHandleTcp (tx : ℕ → Byte) : N η Unit := do
  let ipLen ← readTxWord tx 0x10
  let dstIp ← readTxLong tx 0x1E
  let srcPort ← readTxWord tx 0x22
  let dstPort ← readTxWord tx 0x24
  let recvSeq ← readTxLong tx 0x26
  let dataOffset := (← readTx tx 0x2E) >>> 4
  let flags ← readTx tx 0x2F
  let _ ← readTxWord tx 0x30
  if flags = flagsSyn then
    netTcpSyn host (srcPort, dstPort, dstIp) recvSeq
  else
    match (← getNet).findTcp (srcPort, dstPort, dstIp) with
    -- ignored if there is no active connection
    | none => return
    | some i => netTcpApply host tx i ipLen dataOffset flags recvSeq dstIp

/-! ### UDP and DHCP -/

/-- The table of `net_handle_dhcp` behind the fields that are copied from the request. -/
def dhcpOptions (type : Byte) : List Byte :=
  [0x63, 0x82, 0x53, 0x63]  -- DHCP Magic Cookie
    ++ [0x35, 0x01, type]  -- DHCP Message Type
    ++ [0x01, 0x04, 0xFF, 0xFF, 0xFF, 0x00]  -- Subnet Mask
    ++ [0x03, 0x04] ++ longBytes netIpRemote  -- Gateway
    ++ [0x36, 0x04] ++ longBytes netIpRemote  -- DHCP Server
    ++ [0x33, 0x04, 0xFF, 0xFF, 0xFF, 0xFF]  -- Lease Time

/-- The reply of `net_handle_dhcp`. -/
def netDhcpReply (tx : ℕ → Byte) (type : Byte) : N η Unit := do
  writeRx 0x2A [2]  -- OP = BOOTREPLY
  copyTx tx 0x2B 7  -- HTYPE, HLEN, HOPS and XID
  writeRx 0x32 [0, 0, 0, 0]  -- SECS and FLAGS
  writeRx 0x36 [0, 0, 0, 0]  -- CIADDR
  writeRx 0x3A (longBytes netIpLocal)  -- YIADDR
  writeRx 0x3E (longBytes netIpRemote)  -- SIADDR
  writeRx 0x42 [0, 0, 0, 0]  -- GIADDR
  writeRx 0x46 (List.replicate 208 0)
  writeRx 0x116 (dhcpOptions type)
  writeRx 0x135 (List.replicate 0x119 0)
  netUdpReply 548 netIpRemote 67 68
  netIpv4Reply (20 + 8 + 548) ipprotoUdp netIpRemote
  netEthernetReply
  rxComplete (14 + 20 + 8 + 548)

/-- The four bytes of the magic cookie, read until one of them differs. -/
def readCookie (tx : ℕ → Byte) : List (ℕ × Byte) → N η Bool
  | [] => return true
  | (i, byte) :: rest => do
    if (← readTx tx i) = byte then readCookie tx rest else return false

/-- The magic cookie of DHCP. -/
def dhcpCookie : List (ℕ × Byte) := [(0x116, 0x63), (0x117, 0x82), (0x118, 0x53), (0x119, 0x63)]

/-- `net_handle_dhcp`. The message type is assumed to be the first option. -/
def netHandleDhcp (tx : ℕ → Byte) : N η Unit := do
  if ← readCookie tx dhcpCookie then
    let type ← readTx tx 0x11C
    if type = 0x01 then  -- DHCPDISCOVER
      netDhcpReply tx 0x02
    else
      let type ← readTx tx 0x11C
      if type = 0x03 then  -- DHCPREQUEST
        netDhcpReply tx 0x05

/-- The UDP socket that is open for a source port and a destination. -/
def Net.findUdp (n : Net) (srcPort : Word) (dstIp : BitVec 32) : Option Slot :=
  (List.finRange 5).find? fun i =>
    (n.udpSockets i).fd ≠ -1 ∧ (n.udpSockets i).srcPort = srcPort ∧ (n.udpSockets i).dstIp = dstIp

/-- The first free UDP socket. -/
def Net.freeUdp (n : Net) : Option Slot :=
  (List.finRange 5).find? fun i => (n.udpSockets i).fd = -1

/-- The socket of `net_handle_udp`: one that is open, or else a new one. -/
def netUdpSocket (tuple : Tuple) : N η (Option Slot) := do
  let n ← getNet
  match n.findUdp tuple.1 tuple.2.2 with
  | some i => return some i
  | none =>
    match n.freeUdp with
    | none =>
      netPanic "No more UDP sockets available!\n"
      return none
    | some i =>
      match ← hostCall (host.socket .datagram) with
      | none =>
        modifyUdp i fun s => { s with fd := -1 }
        netPanic "socket() failed with errno: %d\n"
        return none
      | some fd =>
        modifyUdp i fun s => { s with
          fd := fd
          srcPort := tuple.1
          dstPort := tuple.2.1
          dstIp := tuple.2.2 }
        return some i

/-- The data of a UDP packet: from where in the frame, and how many bytes. -/
def udpData (sendLen : Word) : ℕ × ℕ := (0x2A, sizeT (sendLen.toNat - 8))

/-- `net_handle_udp`. -/
def netHandleUdp (tx : ℕ → Byte) : N η Unit := do
  let dstIp ← readTxLong tx 0x1E
  let srcPort ← readTxWord tx 0x22
  let dstPort ← readTxWord tx 0x24
  let sendLen ← readTxWord tx 0x26
  -- broadcasts are intercepted
  if dstIp = 0xFFFFFFFF then
    if dstPort = 67 ∧ srcPort = 68 then
      netHandleDhcp tx
  else
    match ← netUdpSocket host (srcPort, dstPort, dstIp) with
    | none => return
    | some i =>
      modifyUdp i fun s => { s with inactivityTimeout := 0 }
      let fd := ((← getNet).udpSockets i).fd
      let (dataIndex, dataLen) := udpData sendLen
      let sent ← hostCall (host.sendto fd (fun k => tx (dataIndex + k)) dataLen dstIp dstPort)
      note (.sendto i dataIndex dataLen sent)
      if sent = none then
        netPanic "sendto() failed with errno: %d\n"
        netUdpClose host i

/-! ### Polling -/

/-- `net_check_tcp_socket`. -/
def netCheckTcpSocket (socketIndex : Slot) : N η Unit := do
  let socket := (← getNet).tcpSockets socketIndex
  if socket.ackWait > 0 then
    -- wait for the ACK from the client
    modifyTcp socketIndex fun s => { s with ackWait := s.ackWait - 1 }
  else
    match ← hostCall (host.recv socket.fd (netMtu - 0x36)) with
    | none =>
      if (← getErrno host) = eagain then
        modifyTcp socketIndex fun s => { s with inactivityTimeout := s.inactivityTimeout + 1 }
        if ((← getNet).tcpSockets socketIndex).inactivityTimeout > netSocketInactivityTimeout then
          netTcpClose host socketIndex flagsRstAck
      else
        netPanic "recv() failed with errno: %d\n"
        netTcpClose host socketIndex flagsRstAck
    | some bytes =>
      writeRx 0x36 bytes
      if bytes.length = 0 ∧ (← getErrno host) = eagain then
        -- most likely the remote socket was closed: a graceful shutdown
        if ((← getNet).tcpSockets socketIndex).finAckSent = false then
          netTcpSegment 0 socketIndex flagsFinAck socket.dstIp 1
          modifyTcp socketIndex fun s => { s with finAckSent := true }
      else
        modifyTcp socketIndex fun s => { s with
          inactivityTimeout := 0
          ackWait := netSocketAckWait }
        netTcpSegment bytes.length socketIndex flagsPshAck socket.dstIp
          (BitVec.ofNat 32 bytes.length)

/-- `net_check_udp_socket`. -/
def netCheckUdpSocket (socketIndex : Slot) : N η Unit := do
  let socket := (← getNet).udpSockets socketIndex
  match ← hostCall (host.recvfrom socket.fd (netMtu - 0x2A)) with
  | none =>
    if (← getErrno host) = eagain then
      modifyUdp socketIndex fun s => { s with inactivityTimeout := s.inactivityTimeout + 1 }
      if ((← getNet).udpSockets socketIndex).inactivityTimeout > netSocketInactivityTimeout then
        netUdpClose host socketIndex
    else
      netPanic "recvfrom() failed with errno: %d\n"
      netUdpClose host socketIndex
  | some (bytes, srcIp, srcPort) =>
    writeRx 0x2A bytes
    modifyUdp socketIndex fun s => { s with inactivityTimeout := 0 }
    let dstPort := ((← getNet).udpSockets socketIndex).srcPort
    netUdpReply bytes.length srcIp srcPort dstPort
    netIpv4Reply (BitVec.ofNat 16 (20 + 8 + bytes.length)) ipprotoUdp srcIp
    netEthernetReply
    rxComplete (BitVec.ofNat 16 (14 + 20 + 8 + bytes.length))

/-- One of the two loops of `net_execute`; the result says whether it ran to its end. A
pending packet is not overwritten. -/
def netPoll (isOpen : Net → Slot → Bool) (check : Slot → N η Unit) : List Slot → N η Bool
  | [] => return true
  | i :: rest => do
    let n ← getNet
    if n.rxReady then
      return false
    else
      (if isOpen n i then check i else pure ())
      netPoll isOpen check rest

/-- `net_execute`. -/
def netExecute : N η Unit := do
  if ← netPoll (fun n i => (n.udpSockets i).fd != -1) (netCheckUdpSocket host)
      (List.finRange 5) then
    let _ ← netPoll (fun n i => (n.tcpSockets i).fd != -1) (netCheckTcpSocket host)
      (List.finRange 5)

end Pc20iii
