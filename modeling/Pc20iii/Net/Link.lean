import Pc20iii.Net.Echo
import Pc20iii.Net.Ring
import Pc20iii.Net.Transmit

/-!
# From the data port and back to it

The guest puts a frame into the memory of the card through the data port and gives the transmit
command; the answer of the emulated network comes into the ring, and the guest reads it through
the data port again.

* `dev_dp8390SendFrame`: what the guest does to transmit a frame hands its bytes to `net_tx_frame`.
* `link_transparent`: the guest reads back what the network has answered, byte for byte. The frame
  has at most `NET_MTU` bytes, which is what `tx_frame` of `dp8390_transmit_packet` takes.
* `ping_answered`: in particular an echo request is answered by its echo reply.
-/

namespace Pc20iii

open StateProgram

variable {η : Type} (host : Host η)

/-! ### Transmitting -/

/-- Writes of the data port. -/
def dp8390WriteData : List Byte → M (Dp8390 η) Unit
  | [] => return
  | value :: values => do
    dp8390RegisterWrite host 0x310 value
    dp8390WriteData values

/-- What the guest does to transmit a frame from the start of a page on: it sets the remote
address, writes the data port, sets the page and the byte count, and gives the command. -/
def dp8390SendFrame (page : Byte) (frame : List Byte) : M (Dp8390 η) Unit := do
  dp8390RegisterWrite host 0x308 0
  dp8390RegisterWrite host 0x309 page
  dp8390WriteData host frame
  dp8390RegisterWrite host 0x304 page
  dp8390RegisterWrite host 0x305 (lowByte (BitVec.ofNat 16 frame.length))
  dp8390RegisterWrite host 0x306 (highByte (BitVec.ofNat 16 frame.length))
  dp8390RegisterWrite host 0x300 0x26

namespace Dp8390

/-- The `len` bytes from the start of a page on are none of the ring. -/
def Outside (x : Dp8390 η) (page : Byte) (len : ℕ) : Prop :=
  page.toNat * 256 + len ≤ x.pstart.toNat * 256 ∨
    x.pstop.toNat ≤ page.toNat ∧ page.toNat * 256 + len ≤ 65536

variable {x : Dp8390 η} {page : Byte} {len : ℕ}

theorem nextAddress_congr {y : Dp8390 η} (hpstart : y.pstart = x.pstart)
    (hpstop : y.pstop = x.pstop) : y.nextAddress = x.nextAddress := by
  funext address
  rw [nextAddress, nextAddress, hpstart, hpstop]

/-- Outside the ring the remote address counts up. -/
theorem nextAddress_outside (h : x.Outside page len) (hring : x.pstart.toNat < x.pstop.toNat)
    {k : ℕ} (hk : k < len) :
    x.nextAddress^[k] (pageAddress page) = pageAddress page + BitVec.ofNat 16 k := by
  induction k with
  | zero => exact (BitVec.add_zero _).symm
  | succ k ih =>
    rw [Function.iterate_succ_apply', ih (Nat.lt_of_succ_lt hk), nextAddress, if_neg]
    · rw [BitVec.add_assoc, BitVec.ofNat_add]
      rfl
    -- an address at the end of the ring would be in it
    · intro heq
      have hpage := page.isLt
      have hstop := x.pstop.isLt
      rw [← BitVec.toNat_inj, BitVec.add_assoc, BitVec.toNat_add, BitVec.toNat_add,
        toNat_pageAddress, toNat_pageAddress, BitVec.toNat_ofNat] at heq
      have hone : (1 : Word).toNat = 1 := rfl
      rw [hone] at heq
      unfold Outside at h
      omega

theorem toNat_outside (h : x.Outside page len) (hring : x.pstart.toNat < x.pstop.toNat) {k : ℕ}
    (hk : k < len) : (pageAddress page + BitVec.ofNat 16 k).toNat = page.toNat * 256 + k := by
  have hpage := page.isLt
  have hstop := x.pstop.isLt
  rw [BitVec.toNat_add, toNat_pageAddress, BitVec.toNat_ofNat]
  unfold Outside at h
  omega

theorem separate_outside (h : x.Outside page len) (hring : x.pstart.toNat < x.pstop.toNat) :
    Separate x.nextAddress (pageAddress page) len := by
  intro j hj k hk heq
  change j < len at hj
  change k < len at hk
  dsimp only at heq
  rw [nextAddress_outside h hring hj, nextAddress_outside h hring hk, ← BitVec.toNat_inj,
    toNat_outside h hring hj, toNat_outside h hring hk] at heq
  exact Nat.add_left_cancel heq

end Dp8390

section Transmitting

variable {m : Machine (Dp8390 η)}

theorem dev_dp8390RegisterWrite_data (value : Byte) :
    (outcome (dp8390RegisterWrite host 0x310 value) m).2.dev =
      { m.dev with
        ring := Function.update m.dev.ring m.dev.crda value
        crda := m.dev.nextAddress m.dev.crda } := rfl

/-- The writes go along the memory of the card. -/
theorem dev_dp8390WriteData (values : List Byte) :
    (outcome (dp8390WriteData host values) m).2.dev =
      { m.dev with
        ring := storeAlong m.dev.nextAddress m.dev.ring m.dev.crda values
        crda := m.dev.nextAddress^[values.length] m.dev.crda } := by
  induction values generalizing m with
  | nil => rfl
  | cons value values ih =>
    rw [dp8390WriteData, outcome_bind, ih, dev_dp8390RegisterWrite_data]
    rfl

/-- What a transmission does to the card. -/
theorem dev_dp8390TransmitPacket_eq :
    ∃ isr stores frames, (outcome (dp8390TransmitPacket host) m).2.dev =
      { m.dev with
        tsr := 1
        isr := isr
        stores := stores
        frames := frames
        lan := (outcome (netTxFrame host (m.dev.txFrame (host.stack m.dev.lan.host)) m.dev.tbcr)
          { m.dev.lan with panics := [] }).2 } := by
  simp only [dp8390TransmitPacket, outcome_bind, outcome_modifyDev, outcome_getDev, dev_runLan,
    dev_dp8390Irq]
  exact ⟨_, _, _, rfl⟩

/-- The registers of the transmission. -/
theorem dev_dp8390RegisterWrite_tbcr (page lo hi : Byte) (hpage : m.dev.page = 0) :
    (outcome (do
      dp8390RegisterWrite host 0x304 page
      dp8390RegisterWrite host 0x305 lo
      dp8390RegisterWrite host 0x306 hi) m).2.dev =
      { m.dev with tpsr := Dp8390.pageAddress page, tbcr := wordOf lo hi } := by
  -- each of the three registers is written on page 0
  have htpsr : dp8390RegisterWrite host 0x304 page =
      onPage0 fun x => { x with tpsr := Dp8390.pageAddress page } := rfl
  have hlo : dp8390RegisterWrite host 0x305 lo =
      onPage0 fun x => { x with tbcr := wordOf lo (highByte x.tbcr) } := rfl
  have hhi : dp8390RegisterWrite host 0x306 hi =
      onPage0 fun x => { x with tbcr := wordOf (lowByte x.tbcr) hi } := rfl
  have h₁ := dev_onPage0 hpage fun x => { x with tpsr := Dp8390.pageAddress page }
  rw [outcome_bind, outcome_bind, htpsr, hlo, hhi]
  generalize (outcome (onPage0 _) m).2 = m₁ at h₁ ⊢
  have h₂ := dev_onPage0 (m := m₁) (by rw [h₁]; exact hpage)
    fun x => { x with tbcr := wordOf lo (highByte x.tbcr) }
  generalize (outcome (onPage0 _) m₁).2 = m₂ at h₂ ⊢
  rw [dev_onPage0 (by rw [h₂, h₁]; exact hpage), h₂, h₁]
  simp only [lowByte_wordOf]

theorem wordOf_zero_page (page : Byte) : wordOf 0 page = Dp8390.pageAddress page := by
  rw [← BitVec.toNat_inj, wordOf_toNat, Dp8390.toNat_pageAddress, Nat.mul_comm]
  exact Nat.zero_add _

/-- The card with the frame in its memory, before the command. -/
theorem dev_frameStored (page : Byte) (frame : List Byte) (hpage : m.dev.page = 0) :
    (outcome (do
      dp8390RegisterWrite host 0x308 0
      dp8390RegisterWrite host 0x309 page
      dp8390WriteData host frame
      dp8390RegisterWrite host 0x304 page
      dp8390RegisterWrite host 0x305 (lowByte (BitVec.ofNat 16 frame.length))
      dp8390RegisterWrite host 0x306 (highByte (BitVec.ofNat 16 frame.length))) m).2.dev =
      { m.dev with
        rsar := Dp8390.pageAddress page
        crda := m.dev.nextAddress^[frame.length] (Dp8390.pageAddress page)
        ring := storeAlong m.dev.nextAddress m.dev.ring (Dp8390.pageAddress page) frame
        tpsr := Dp8390.pageAddress page
        tbcr := BitVec.ofNat 16 frame.length } := by
  have h₁ := dev_dp8390RegisterWrite_rsar host hpage 0 page
  rw [wordOf_zero_page] at h₁
  generalize hm₁ : (outcome (do
    dp8390RegisterWrite host 0x308 0
    dp8390RegisterWrite host 0x309 page) m).2 = m₁ at h₁
  -- the remote address, the data, and the registers of the transmission, one after another
  have h₂ := dev_dp8390WriteData host (m := m₁) frame
  generalize hm₂ : (outcome (dp8390WriteData host frame) m₁).2 = m₂ at h₂
  have h₃ := dev_dp8390RegisterWrite_tbcr host (m := m₂) page
    (lowByte (BitVec.ofNat 16 frame.length)) (highByte (BitVec.ofNat 16 frame.length))
    (by rw [h₂, h₁]; exact hpage)
  rw [wordOf_lowByte_highByte, h₂, h₁] at h₃
  rw [← hm₂, ← hm₁] at h₃
  exact h₃

/-- In `y` the frame is in the memory of the card, and the network has been handed `tx`. -/
structure Transmitted (x : Dp8390 η) (page : Byte) (frame : List Byte) (tx : ℕ → Byte)
    (y : Dp8390 η) : Prop where
  lan : y.lan = (outcome (netTxFrame host tx (BitVec.ofNat 16 frame.length))
    { x.lan with panics := [] }).2
  ring : y.ring = storeAlong x.nextAddress x.ring (Dp8390.pageAddress page) frame
  page : y.page = 0
  tcr : y.tcr = x.tcr
  pstart : y.pstart = x.pstart
  pstop : y.pstop = x.pstop
  curr : y.curr = x.curr

/-- **Transmitting.** The network is handed the bytes that the guest has written, and what it
answers is received at once. -/
theorem dev_dp8390SendFrame (page : Byte) {frame : List Byte} (hpage : m.dev.page = 0)
    (hring : m.dev.pstart.toNat < m.dev.pstop.toNat) (hlen : frame.length < 65536)
    (houtside : m.dev.Outside page frame.length) :
    ∃ (tx : ℕ → Byte) (m₁ : Machine (Dp8390 η)) (isr : Byte),
      (∀ k (h : k < frame.length), tx k = frame[k]) ∧
      Transmitted host m.dev page frame tx m₁.dev ∧
      (outcome (dp8390SendFrame host page frame) m).2.dev =
        { (outcome dp8390Execute m₁).2.dev with isr := isr } := by
  have hstored := dev_frameStored host page frame hpage
  generalize hm₀ : (outcome _ m).2 = m₀ at hstored
  -- the command leaves what has been stored alone
  obtain ⟨mc, isr₁, isr₂, hmc, hend⟩ := dev_dp8390CrWrite host 0x26 m₀
  obtain ⟨isr₃, stores, frames, htransmit⟩ := dev_dp8390TransmitPacket_eq host (m := mc)
  have hring_mc : mc.dev.ring =
      storeAlong m.dev.nextAddress m.dev.ring (Dp8390.pageAddress page) frame := by
    rw [hmc, hstored]
  have hlan : mc.dev.lan = m.dev.lan := by rw [hmc, hstored]
  have htbcr : mc.dev.tbcr = BitVec.ofNat 16 frame.length := by rw [hmc, hstored]
  refine ⟨mc.dev.txFrame (host.stack mc.dev.lan.host), (outcome (dp8390TransmitPacket host) mc).2,
    isr₂, fun k hk => ?_, ?_, ?_⟩
  · -- the loop of the transmission goes over the bytes of the frame
    have hcount : k < mc.dev.tbcr.toNat := by
      rw [htbcr, BitVec.toNat_ofNat, Nat.mod_eq_of_lt hlen]
      exact hk
    have htpsr : mc.dev.tpsr = Dp8390.pageAddress page := by rw [hmc, hstored]
    rw [Dp8390.txFrame_eq _ _ hcount, hring_mc, htpsr,
      ← Dp8390.nextAddress_outside houtside hring hk]
    exact storeAlong_iterate (Dp8390.separate_outside houtside hring) hk
  · rw [htransmit]
    exact
      { lan := by rw [← hlan, ← htbcr]
        ring := hring_mc
        page := by
          have hcr : mc.dev.cr = 0x26 &&& 0xFB := by rw [hmc]
          show mc.dev.cr >>> 6 = 0
          rw [hcr]
          decide
        tcr := by rw [hmc, hstored]
        pstart := by rw [hmc, hstored]
        pstop := by rw [hmc, hstored]
        curr := by rw [hmc, hstored] }
  · rw [if_pos (by decide)] at hend
    rw [← hend, ← hm₀]
    rfl

end Transmitting

/-! ### The answer -/

/-- What the network answers to a frame. -/
def netAnswer (tx : ℕ → Byte) (len : ℕ) (l : Lan η) : Net :=
  (outcome (netTxFrame host tx (BitVec.ofNat 16 len)) { l with panics := [] }).2.net

/-- The guest reads back what the network has answered. -/
theorem dp8390ReadPage_answer {m m₁ m' : Machine (Dp8390 η)} {page isr : Byte}
    {frame : List Byte} {tx : ℕ → Byte} (hm₁ : Transmitted host m.dev page frame tx m₁.dev)
    (hm' : m'.dev = { (outcome dp8390Execute m₁).2.dev with isr := isr })
    (hloopback : (m.dev.tcr >>> 1) &&& 0x3 ≠ 1) (hring : m.dev.RingOk)
    (hready : (netAnswer host tx frame.length m.dev.lan).rxReady = true)
    (hfits : (netAnswer host tx frame.length m.dev.lan).rxLen.toNat + 4 ≤ m.dev.ringSize) :
    let n := netAnswer host tx frame.length m.dev.lan
    (outcome (dp8390ReadPage host m.dev.curr (n.rxLen.toNat + 4)) m').1 =
      [0x01, m'.dev.curr, lowByte (n.rxLen + 4), highByte (n.rxLen + 4)] ++
        (List.range n.rxLen.toNat).map n.rxFrame := by
  have hnet : m₁.dev.lan.net = netAnswer host tx frame.length m.dev.lan :=
    congrArg Lan.net hm₁.lan
  rw [← hnet] at hready hfits ⊢
  have hring₁ : m₁.dev.RingOk := by
    obtain ⟨h₁, h₂, h₃, h₄⟩ := hring
    constructor <;> simpa only [hm₁.pstart, hm₁.pstop, hm₁.curr]
  have hloopback₁ : (m₁.dev.tcr >>> 1) &&& 0x3 ≠ 1 := by
    rw [hm₁.tcr]
    exact hloopback
  have hsize : m₁.dev.ringSize = m.dev.ringSize := by
    rw [Dp8390.ringSize, Dp8390.ringSize, hm₁.pstart, hm₁.pstop]
  -- what is received is read back, and the status bits do not matter to a read
  have hexecuted := dev_dp8390Execute_of_ringOk hready hring₁
  have hlength := Dp8390.length_packet m₁.dev
  generalize (outcome dp8390Execute m₁).2 = e at hm' hexecuted
  have hstored : e.dev.ring = storeAlong m₁.dev.nextAddress m₁.dev.ring
      (Dp8390.pageAddress m₁.dev.curr) m₁.dev.packet := by rw [hexecuted]
  have hread : readAlong m₁.dev.nextAddress e.dev.ring (Dp8390.pageAddress m₁.dev.curr)
      m₁.dev.packet.length = m₁.dev.packet := by
    rw [hstored]
    refine readAlong_storeAlong (Dp8390.separate_of_le hring₁.inRing ?_)
    rw [hlength, hsize]
    exact hfits
  have hpstart : e.dev.pstart = m₁.dev.pstart := by rw [hexecuted]
  have hpstop : e.dev.pstop = m₁.dev.pstop := by rw [hexecuted]
  have hcurr : e.dev.curr = m₁.dev.nextPacket (m₁.dev.lan.net.rxLen + 4) := by rw [hexecuted]
  have hcr : e.dev.page = 0 := by
    rw [hexecuted]
    exact hm₁.page
  have htcr : e.dev.tcr = m₁.dev.tcr := by rw [hexecuted]
  have hnext : m'.dev.nextAddress = m₁.dev.nextAddress :=
    Dp8390.nextAddress_congr (by rw [hm']; exact hpstart) (by rw [hm']; exact hpstop)
  have hring' : m'.dev.ring = e.dev.ring := by rw [hm']
  have hcurr' : m'.dev.curr = e.dev.curr := by rw [hm']
  have htcr' : m'.dev.tcr = e.dev.tcr := by rw [hm']
  have hpage' : m'.dev.page = 0 := by
    rw [hm']
    exact hcr
  have hloopback' : (m'.dev.tcr >>> 1) &&& 0x3 ≠ 1 := by
    rw [htcr', htcr]
    exact hloopback₁
  dsimp only
  rw [dp8390ReadPage_fst host _ _ hpage' hloopback', hnext, hring', ← hm₁.curr, ← hlength, hread,
    hcurr', hcurr, Dp8390.packet]

/-- The frame for the guest is the echo of a request: an IP packet for the guest that checks, from
the address that was asked, with the bytes of the request behind the checksum. -/
structure Echoes (tx : ℕ → Byte) (len : ℕ) (n : Net) : Prop where
  ready : n.rxReady = true
  length : n.rxLen.toNat = len
  checks : PacketChecks n.rxFrame n.rxLen
  srcIp : txLong n.rxFrame 0x1A = txLong tx 0x1E
  dstIp : txLong n.rxFrame 0x1E = netIpLocal
  proto : n.rxFrame 0x17 = ipprotoIcmp
  type : n.rxFrame 0x22 = 0
  message : ∀ k, 0x26 ≤ k → k < len → n.rxFrame k = tx k

/-- Only the bytes of the frame matter. -/
theorem EchoRequest.congr {tx tx' : ℕ → Byte} {txLen : Word} (h : EchoRequest tx txLen)
    (hframe : ∀ k < txLen.toNat, tx' k = tx k) : EchoRequest tx' txLen := by
  have hpadded := h.padded
  -- the fields are all within the padded frame
  have hword : ∀ i, i + 1 < 60 → txWord tx' i = txWord tx i := by
    intro i hi
    rw [txWord, txWord, hframe i (by omega), hframe (i + 1) (by omega)]
  have hlength : ipTotalLength tx' = ipTotalLength tx :=
    congrArg BitVec.toNat (hword 0x10 (by decide))
  refine ⟨?_, ?_, ?_, ?_, ?_, ?_, ?_, ?_⟩
  · rw [hword 0x0C (by decide), h.ethertype]
  · rw [hframe _ (by omega), h.header]
  · rw [hframe _ (by omega), h.proto]
  · rw [txLong, hword 0x1E (by decide), hword 0x20 (by decide), ← h.dstIp, txLong]
  · rw [hframe _ (by omega), h.type]
  · rw [hlength]
    exact h.le_length
  · rw [hlength]
    exact h.length_le
  · rw [hlength]
    exact hpadded

/-- A pending answer to an IP packet checks. -/
theorem packetChecks_netTxFrame {tx : ℕ → Byte} {txLen : Word}
    (hip : txWord tx 0x0C = ethertypeIpv4)
    (hicmp : tx 0x17 = ipprotoIcmp → 0x2A ≤ txLen.toNat ∧ txLen.toNat ≤ netMtu) {l : Lan η}
    (hidle : l.net.rxReady = false) : (outcome (netTxFrame host tx txLen) l).2.Sound := by
  have hsplit : (outcome (netTxFrame host tx txLen) l).2 =
      (outcome (netHandleIpv4 host tx txLen) (l.reading [0x0C, 0x0D])).2 := by
    have harp : ethertypeIpv4 ≠ ethertypeArp := by decide
    rw [netTxFrame, outcome_bind, outcome_readTxWord, hip, if_neg harp, if_pos rfl]
  rw [hsplit]
  exact triple_netHandleIpv4 host hicmp _ hidle

/-- An echo request is answered by its echo. -/
theorem echoes_netAnswer {tx : ℕ → Byte} {len : ℕ} (h : EchoRequest tx (BitVec.ofNat 16 len))
    (hlen : len ≤ netMtu) {l : Lan η} (hidle : l.net.rxReady = false) :
    Echoes tx len (netAnswer host tx len l) := by
  have htxLen : (BitVec.ofNat 16 len).toNat = len := by
    have hmtu : len ≤ 1514 := hlen
    rw [BitVec.toNat_ofNat, Nat.mod_eq_of_lt (by omega)]
  have hpadded := h.padded
  have hsound : (netAnswer host tx len l).rxReady = true →
      PacketChecks (netAnswer host tx len l).rxFrame (netAnswer host tx len l).rxLen := by
    refine packetChecks_netTxFrame host h.ethertype (fun _ => ?_)
      (l := { l with panics := [] }) hidle
    rw [htxLen]
    exact ⟨by omega, hlen⟩
  have hanswer : netAnswer host tx len l = (outcome (netTxFrame host tx (BitVec.ofNat 16 len))
      { l with panics := [] }).2.net := rfl
  rw [outcome_netTxFrame_echo host h] at hanswer
  generalize Lan.reading _ _ = l' at hanswer
  generalize hl'' : (outcome (netEchoMessage tx (BitVec.ofNat 16 len)) l').2 = l'' at hanswer
  -- the headers are put in front of the message
  have hheader := (hasHeader_netIpv4Reply (BitVec.ofNat 16 len - 14) ipprotoIcmp netIpRemote
    l'').congr fun i hi => rxFrame_ending hi _ _ _ (BitVec.ofNat 16 len) l''
  have hmessage : ∀ i, 0x22 ≤ i → (netAnswer host tx len l).rxFrame i = l''.net.rxFrame i := by
    intro i hi
    rw [hanswer, rxFrame_ending (by omega), rxFrame_netIpv4Reply hi]
  rw [← hanswer] at hheader
  have hready : (netAnswer host tx len l).rxReady = true := by
    rw [hanswer]
    rfl
  refine ⟨hready, ?_, hsound hready, ?_, hheader.dstIp, hheader.proto, ?_, fun k hk hlt => ?_⟩
  · have hrxLen : (netAnswer host tx len l).rxLen = BitVec.ofNat 16 len := by
      rw [hanswer]
      rfl
    rw [hrxLen, htxLen]
  · rw [hheader.srcIp, h.dstIp]
  · rw [hmessage _ (by decide), ← hl'']
    exact rxFrame_netEchoMessage_type ..
  · rw [hmessage _ (by omega), ← hl'']
    exact rxFrame_netEchoMessage hk (by rw [htxLen]; exact hlt) l'

/-- **A ping is answered.** The guest transmits an echo request through the card, and reads back
its echo: a packet for the guest that checks, from the address it has asked, with the identifier,
the sequence number and the data of the request. -/
theorem ping_answered {m : Machine (Dp8390 η)} {page : Byte} {frame : List Byte}
    (hpage : m.dev.page = 0) (hloopback : (m.dev.tcr >>> 1) &&& 0x3 ≠ 1) (hring : m.dev.RingOk)
    (houtside : m.dev.Outside page frame.length) (hfits : frame.length + 4 ≤ m.dev.ringSize)
    (hidle : m.dev.lan.net.rxReady = false)
    (hrequest : EchoRequest (fun k => frame.getD k 0) (BitVec.ofNat 16 frame.length))
    (hlen : frame.length ≤ netMtu) :
    let m' := (outcome (dp8390SendFrame host page frame) m).2
    ∃ n : Net, Echoes (fun k => frame.getD k 0) frame.length n ∧
      (outcome (dp8390ReadPage host m.dev.curr (frame.length + 4)) m').1 =
        [0x01, m'.dev.curr, lowByte (n.rxLen + 4), highByte (n.rxLen + 4)] ++
          (List.range frame.length).map n.rxFrame := by
  have hmtu : frame.length ≤ 1514 := hlen
  obtain ⟨tx, m₁, isr, htx, hm₁, hend⟩ :=
    dev_dp8390SendFrame host page hpage hring.pstart_lt (by omega) houtside
  have hlength : (BitVec.ofNat 16 frame.length).toNat = frame.length := by
    rw [BitVec.toNat_ofNat, Nat.mod_eq_of_lt (by omega)]
  have htx' : ∀ k < frame.length, tx k = frame.getD k 0 := by
    intro k hk
    rw [htx k hk]
    exact (List.getElem_eq_getD 0)
  -- what is transmitted is what has been written
  have hrequest' : EchoRequest tx (BitVec.ofNat 16 frame.length) :=
    hrequest.congr (by rwa [hlength])
  have hechoes := echoes_netAnswer host hrequest' hlen hidle
  -- the card has put the answer where CURR has been
  have hread := dp8390ReadPage_answer host hm₁ hend hloopback hring hechoes.ready
    (by rw [hechoes.length]; exact hfits)
  dsimp only at hread
  rw [hechoes.length] at hread
  have hasked : txLong tx 0x1E = txLong (fun k => frame.getD k 0) 0x1E := by
    have hpadded := hrequest.padded
    rw [txLong, txLong, txWord, txWord, txWord, txWord, htx' _ (by omega), htx' _ (by omega),
      htx' _ (by omega), htx' _ (by omega)]
  exact ⟨_, { hechoes with
    srcIp := hechoes.srcIp.trans hasked
    message := fun k hk hlt => (hechoes.message k hk hlt).trans (htx' k hlt) }, hread⟩

/-- A card with a ring of the pages 0x46 to 0x7F and a buffer in front of it. -/
def listeningCard : Dp8390 Unit :=
  { dp8390Init (lanInit (edfsInit []) ()) with
    pstart := 0x46
    pstop := 0x80
    curr := 0x46
    cr := 0x22 }

/-- An echo request without data, as a driver pads it. -/
def paddedPing : List Byte := (List.range 60).map (echoOfLength 28)

/-- A ping that is padded, and read back from page 46h. -/
theorem ping_answered_padded :
    let m' := (outcome (dp8390SendFrame failingHost 0x40 paddedPing)
      (machineInit listeningCard)).2
    ∃ n : Net, Echoes (fun k => paddedPing.getD k 0) 60 n ∧
      (outcome (dp8390ReadPage failingHost 0x46 64) m').1 =
        [0x01, m'.dev.curr, lowByte (n.rxLen + 4), highByte (n.rxLen + 4)] ++
          (List.range 60).map n.rxFrame := by
  have houtside : listeningCard.Outside 0x40 paddedPing.length := .inl (by decide)
  exact ping_answered failingHost (m := machineInit listeningCard)
    (by decide) (by decide) ⟨by decide, by decide, by decide, by decide⟩ houtside
    (by decide) rfl
    ⟨by decide, by decide, by decide, by decide, by decide, by decide, by decide, by decide⟩
    (by decide)

end Pc20iii
