import Pc20iii.Net.Handle
import Pc20iii.Edfs.Packet

/-!
# Frames of the guest

`net.c`: `net_tx_frame`, which hands a frame to the handler of its ethertype, and the runs
of the network: transmitted frames, polls, and in between the card that takes the frame in
`rx_frame`.
-/

namespace Pc20iii

open StateProgram

variable {η : Type} (host : Host η)

/-! The ethertypes that `net_tx_frame` handles. -/

def ethertypeArp : Word := 0x0806
def ethertypeIpv4 : Word := 0x0800
def ethertypeEdfs : Word := 0xEDF5

/-- `net_handle_ipv4`. -/
def netHandleIpv4 (tx : ℕ → Byte) (txLen : Word) : N η Unit := do
  let proto ← readTx tx 0x17
  if proto = ipprotoIcmp then netHandleIcmp tx txLen
  else if proto = ipprotoTcp then netHandleTcp host tx
  else if proto = ipprotoUdp then netHandleUdp host tx

/-- `net_tx_frame`. -/
def netTxFrame (tx : ℕ → Byte) (txLen : Word) : N η Unit := do
  let ethertype ← readTxWord tx 0x0C
  if ethertype = ethertypeArp then netHandleArp tx txLen
  else if ethertype = ethertypeIpv4 then netHandleIpv4 host tx txLen
  else if ethertype = ethertypeEdfs then edfsHandlePacket host tx txLen

/-- What happens next to the network. -/
inductive LanStep where
  /-- The guest transmits a frame. -/
  | transmit (tx : ℕ → Byte) (txLen : Word)
  /-- The main loop polls the network. -/
  | poll
  /-- The card takes the frame for the guest. -/
  | taken

/-- The network after a step. -/
def lanAfter (l : Lan η) : LanStep → Lan η
  | .transmit tx txLen => (outcome (netTxFrame host tx txLen) l).2
  | .poll => (outcome (netExecute host) l).2
  | .taken => { l with net := { l.net with rxReady := false } }

/-- The network after `net_init`, on a host in state `h`. -/
def lanInit (edfs : Edfs) (h : η) : Lan η where
  net := netInit
  edfs := edfs
  host := h
  panics := []
  log := []

/-! ### The fields of a frame -/

/-- Two bytes of a frame, most significant first. -/
def txWord (tx : ℕ → Byte) (i : ℕ) : Word := wordOf (tx (i + 1)) (tx i)

/-- Four bytes of a frame, most significant first. -/
def txLong (tx : ℕ → Byte) (i : ℕ) : BitVec 32 := txWord tx i ++ txWord tx (i + 2)

/-- The network after reads of `tx_frame`. -/
def Lan.reading (is : List ℕ) (l : Lan η) : Lan η :=
  { l with log := (is.map NetEvent.txRead).reverse ++ l.log }

@[simp] theorem outcome_readTx (tx : ℕ → Byte) (i : ℕ) (l : Lan η) :
    outcome (readTx tx i) l = (tx i, l.reading [i]) := by
  rfl

@[simp] theorem outcome_readTxWord (tx : ℕ → Byte) (i : ℕ) (l : Lan η) :
    outcome (readTxWord tx i) l = (txWord tx i, l.reading [i, i + 1]) := by
  rfl

@[simp] theorem outcome_readTxLong (tx : ℕ → Byte) (i : ℕ) (l : Lan η) :
    outcome (readTxLong tx i) l = (txLong tx i, l.reading [i, i + 1, i + 2, i + 3]) := by
  rfl

theorem reading_reading (is js : List ℕ) (l : Lan η) :
    (l.reading is).reading js = l.reading (is ++ js) := by
  simp only [Lan.reading, List.map_append, List.reverse_append, List.append_assoc]

@[simp] theorem net_reading (is : List ℕ) (l : Lan η) : (l.reading is).net = l.net := rfl

@[simp] theorem host_reading (is : List ℕ) (l : Lan η) : (l.reading is).host = l.host := rfl

/-- The ends of the connection of a TCP frame. -/
def tcpTuple (tx : ℕ → Byte) : Tuple := (txWord tx 0x22, txWord tx 0x24, txLong tx 0x1E)

/-- The sequence number of a TCP frame. -/
def tcpSeq (tx : ℕ → Byte) : BitVec 32 := txLong tx 0x26

/-- The flags of a TCP frame. -/
def tcpFlags (tx : ℕ → Byte) : Byte := tx 0x2F

/-- The range of a TCP frame that is passed to `send`. -/
def tcpRange (tx : ℕ → Byte) : ℕ × ℕ := tcpData (txWord tx 0x10) (tx 0x2E >>> 4)

/-- What `net_handle_tcp` reads. -/
def tcpHeader : List ℕ :=
  [0x10, 0x11, 0x1E, 0x1F, 0x20, 0x21, 0x22, 0x23, 0x24, 0x25, 0x26, 0x27, 0x28, 0x29, 0x2E, 0x2F,
    0x30, 0x31]

/-- `net_handle_tcp` behind its reads. -/
def netTcpDispatch (tx : ℕ → Byte) : N η Unit := do
  if tcpFlags tx = flagsSyn then
    netTcpSyn host (tcpTuple tx) (tcpSeq tx)
  else
    match (← getNet).findTcp (tcpTuple tx) with
    | none => return
    | some i =>
      netTcpApply host tx i (txWord tx 0x10) (tx 0x2E >>> 4) (tcpFlags tx) (tcpSeq tx)
        (txLong tx 0x1E)

theorem outcome_netHandleTcp (tx : ℕ → Byte) (l : Lan η) :
    outcome (netHandleTcp host tx) l = outcome (netTcpDispatch host tx) (l.reading tcpHeader) := by
  rfl

/-- The frame goes to `net_handle_tcp`. -/
def IsTcpFrame (tx : ℕ → Byte) : Prop := txWord tx 0x0C = ethertypeIpv4 ∧ tx 0x17 = ipprotoTcp

instance (tx : ℕ → Byte) : Decidable (IsTcpFrame tx) := inferInstanceAs (Decidable (_ ∧ _))

theorem outcome_netTxFrame_tcp {tx : ℕ → Byte} (h : IsTcpFrame tx) (txLen : Word) (l : Lan η) :
    outcome (netTxFrame host tx txLen) l =
      outcome (netTcpDispatch host tx) (l.reading ([0x0C, 0x0D, 0x17] ++ tcpHeader)) := by
  rw [← reading_reading, ← outcome_netHandleTcp]
  simp only [netTxFrame, netHandleIpv4, outcome_bind, outcome_readTxWord, outcome_ite,
    outcome_readTx, h.1, h.2, reading_reading]
  rw [if_neg (by decide), if_pos trivial, if_neg (by decide), if_pos trivial]
  rfl

end Pc20iii
