import Pc20iii.I8088.Execute
import Pc20iii.Program.Labelled
import Pc20iii.Serial.I8250

/-!
# The transmitter of the UART

A guest that polls the line status register writes a byte to the transmitter only when the
register reports the holding register empty. Such a byte goes into the transmit ring, and
each call of `i8250_execute` takes one out and writes it to the TTY.

The bit is set by `i8250_init` and never changed again (`Serving`), so the guest is told to
go on also when the ring is full and the byte is dropped.

* `uart_after_cases`: what a step does to the transmitter.
* `delivered_iff`: a run delivers the guest's bytes exactly when each finds a free cell.
* `transmitter_tells_iff`: it does so with a status register that tells a full ring
  exactly when no byte fills it.
-/

namespace Pc20iii

open StateProgram

/-! ### Runs -/

/-- What happens next, as the UART sees it. -/
inductive UartStep where
  /-- An access to a port, or something outside of the two chips. -/
  | access (a : Access I8250)
  /-- A call of `i8250_execute`. -/
  | execute (received : Option Byte)
  /-- A call of `mos5720_mouse_data`. -/
  | mouse (data : Byte)

/-- The machine after a step. -/
def uartAfter (m : Machine I8250) : UartStep → Machine I8250
  | .access a => serialDevices.after m a
  | .execute received => (outcome (i8250Execute received) m).2
  | .mouse data => (outcome (mos5720MouseData data) m).2

/-- The byte that a step writes to the transmit register. -/
def thrWritten (m : Machine I8250) : UartStep → List Byte
  | .access (.write 0x3F8#16 value) => if m.dev.dlab then [] else [value]
  | _ => []

/-- `I8250_LSR` as the guest reads it. -/
def lsrRead (m : Machine I8250) : Byte := (outcome (i8250RegisterRead 0x3FD) m).1

/-- The line status register reports the transmitter holding register empty. -/
def HoldingEmpty (m : Machine I8250) : Prop :=
  lsrRead m &&& i8250LsrTransmitHoldingEmpty ≠ 0

/-- A write of the transmit register is made while the holding register is reported empty. -/
def Polite (m : Machine I8250) (a : UartStep) : Prop :=
  thrWritten m a ≠ [] → HoldingEmpty m

/-- The test of `i8250_tx_fifo_write` for a full ring. -/
def I8250.TxFull (x : I8250) : Prop :=
  (x.txFifo.head + 1) % i8250TxFifoSize = x.txFifo.tail

/-- A ring that cannot take another byte is reported. -/
def TellsFull (m : Machine I8250) : Prop :=
  m.dev.TxFull → ¬HoldingEmpty m

/-- The bytes written to the TTY, oldest first. -/
def I8250.ttyBytes (x : I8250) : List Byte := x.tty.written.reverse

/-- The bytes written to the TTY, and behind them those that wait in the transmit ring. -/
def I8250.sent (x : I8250) : List Byte := x.ttyBytes ++ x.txFifo.queued

/-- The bytes written to the TTY are those of the guest, in order and none lost: what is not
written yet is queued, and written by that many calls of `i8250_execute`. -/
structure Delivered (m : Machine I8250) (as : List UartStep) : Prop where
  inOrder : (runAll uartAfter m as).dev.sent = collect uartAfter thrWritten m as
  written : (runAll uartAfter (runAll uartAfter m as)
      (List.replicate (runAll uartAfter m as).dev.txFifo.length (.execute none))).dev.ttyBytes =
    collect uartAfter thrWritten m as

/-- A byte of the guest finds a free cell in the transmit ring. -/
def FindsRoom (m : Machine I8250) (a : UartStep) : Prop :=
  thrWritten m a ≠ [] → m.dev.txFifo.length + 1 < i8250TxFifoSize

/-- A byte of the guest leaves a free cell in the transmit ring. -/
def LeavesRoom (m : Machine I8250) (a : UartStep) : Prop :=
  thrWritten m a ≠ [] → m.dev.txFifo.length + 2 < i8250TxFifoSize

/-! ### What a step does to the transmitter -/

/-- The two states have the same transmitter. -/
structure I8250.SameTransmitter (x y : I8250) : Prop where
  txFifo : y.txFifo = x.txFifo
  written : y.tty.written = x.tty.written
  holdingEmpty : y.lsr &&& i8250LsrTransmitHoldingEmpty = x.lsr &&& i8250LsrTransmitHoldingEmpty

namespace I8250.SameTransmitter

variable {x y z : I8250}

theorem refl (x : I8250) : x.SameTransmitter x := ⟨rfl, rfl, rfl⟩

theorem trans (h : x.SameTransmitter y) (h' : y.SameTransmitter z) : x.SameTransmitter z where
  txFifo := h'.txFifo.trans h.txFifo
  written := h'.written.trans h.written
  holdingEmpty := h'.holdingEmpty.trans h.holdingEmpty

theorem setIir (x : I8250) (iir : Byte) : x.SameTransmitter { x with iir := iir } :=
  ⟨rfl, rfl, rfl⟩

theorem sent (h : x.SameTransmitter y) : y.sent = x.sent := by
  unfold I8250.sent I8250.ttyBytes
  rw [h.txFifo, h.written]

end I8250.SameTransmitter

instance : IsPreorder I8250 I8250.SameTransmitter where
  refl := .refl
  trans _ _ _ := .trans

/-- A program leaves the transmitter as it is. -/
def KeepsTransmitter {α : Type} (p : M I8250 α) : Prop :=
  ∀ m : Machine I8250, m.dev.SameTransmitter (outcome p m).2.dev

namespace KeepsTransmitter

variable {α β : Type}

theorem bind {p : M I8250 α} {f : α → M I8250 β} (hp : KeepsTransmitter p)
    (hf : ∀ a, KeepsTransmitter (f a)) : KeepsTransmitter (p >>= f) :=
  RelatesDev.bind hp hf

theorem ite {c : Prop} [Decidable c] {p q : M I8250 α} (hp : KeepsTransmitter p)
    (hq : KeepsTransmitter q) : KeepsTransmitter (if c then p else q) :=
  RelatesDev.ite hp hq

theorem pure (a : α) : KeepsTransmitter (Pure.pure a : M I8250 α) :=
  RelatesDev.pure a

theorem getDev : KeepsTransmitter (Pc20iii.getDev : M I8250 I8250) :=
  RelatesDev.getDev

theorem own {f : Local I8250 α} (hf : ∀ x : I8250, x.SameTransmitter (f x).2.1) :
    KeepsTransmitter (runLocal f) :=
  RelatesDev.own hf

theorem modify {f : I8250 → I8250} (hf : ∀ x : I8250, x.SameTransmitter (f x)) :
    KeepsTransmitter (modifyDev f) :=
  RelatesDev.modify hf

theorem irq (irqNo : Fin 8) : KeepsTransmitter (fe2010Irq irqNo : M I8250 Unit) :=
  RelatesDev.irq irqNo

end KeepsTransmitter

/-! The programs that keep the transmitter. -/

theorem keeps_updateTtySettings : KeepsTransmitter (runLocal i8250UpdateTtySettings) := by
  refine .own fun x => ?_
  unfold i8250UpdateTtySettings
  split
  · exact .refl x
  · split_ifs <;> exact ⟨rfl, rfl, rfl⟩

/-- Reading a register does not change the transmitter. -/
theorem same_register (port : Word) (x : I8250) :
    x.SameTransmitter (i8250Register port x).2 := by
  have hrbr : x.SameTransmitter (i8250RbrRead x).2 := by
    -- the data ready bit is another bit
    have hbit : (x.lsr &&& ~~~i8250LsrDataReady) &&& i8250LsrTransmitHoldingEmpty =
        x.lsr &&& i8250LsrTransmitHoldingEmpty := by
      rw [BitVec.and_assoc]
      rfl
    rw [i8250RbrRead_eq]
    exact ⟨rfl, rfl, hbit⟩
  have hiir : x.SameTransmitter (i8250IirRead x).2 := by
    unfold i8250IirRead
    dsimp only
    split_ifs
    · exact ⟨rfl, rfl, rfl⟩
    · exact .refl x
  unfold i8250Register
  split
  case h_1 =>
    split_ifs
    · exact .refl x
    · exact hrbr
  case h_3 => exact hiir
  all_goals exact .refl x

/-- The interrupt changes the interrupt identification register at most. -/
theorem dev_thrIrq (m : Machine I8250) :
    ∃ iir, (outcome i8250ThrIrq m).2.dev = { m.dev with iir := iir } := by
  unfold i8250ThrIrq
  rw [outcome_bind, outcome_getDev, outcome_ite]
  split
  · refine ⟨i8250IirThr, ?_⟩
    rw [outcome_bind, dev_fe2010Irq, outcome_modifyDev]
  · exact ⟨m.dev.iir, rfl⟩

theorem keeps_thrIrq : KeepsTransmitter i8250ThrIrq := by
  intro m
  obtain ⟨iir, hdev⟩ := dev_thrIrq m
  rw [hdev]
  exact ⟨rfl, rfl, rfl⟩

theorem keeps_receive (byte : Byte) : KeepsTransmitter (i8250Receive byte) := by
  refine .bind (.modify fun _ => ⟨rfl, rfl, rfl⟩) fun _ => .bind (.modify fun x => ?_) fun _ =>
    .bind .getDev fun _ =>
      .ite (.bind (.modify fun _ => ⟨rfl, rfl, rfl⟩) fun _ => .irq _) (.pure _)
  have hbit : (x.lsr ||| i8250LsrDataReady) &&& i8250LsrTransmitHoldingEmpty =
      x.lsr &&& i8250LsrTransmitHoldingEmpty := by
    rw [BitVec.and_or_distrib_right]
    exact BitVec.or_zero
  exact ⟨rfl, rfl, hbit⟩

theorem keeps_read (port : Word) : KeepsTransmitter (i8250RegisterRead port) := by
  refine .own fun x => ?_
  split
  · exact same_register port x
  · exact .refl x

theorem keeps_ierWrite (value : Byte) : KeepsTransmitter (i8250IerWrite value) :=
  .bind .getDev fun _ => .ite
    (.bind (.modify fun _ => ⟨rfl, rfl, rfl⟩) fun _ => keeps_updateTtySettings)
    (.bind (.modify fun _ => ⟨rfl, rfl, rfl⟩) fun _ => keeps_thrIrq)

theorem keeps_lcrWrite (value : Byte) : KeepsTransmitter (i8250LcrWrite value) :=
  .bind (.modify fun _ => ⟨rfl, rfl, rfl⟩) fun _ => keeps_updateTtySettings

/-- Of the registers, only the transmit register reaches the transmitter. -/
theorem keeps_write {port : Word} (h : port ≠ 0x3F8) (value : Byte) :
    KeepsTransmitter (i8250RegisterWrite port value) := by
  refine .bind .getDev fun _ => .ite ?_ (.pure _)
  split
  case h_1 => exact absurd rfl h
  case h_2 => exact keeps_ierWrite value
  case h_3 => exact keeps_lcrWrite value
  case h_4 => exact .modify fun _ => ⟨rfl, rfl, rfl⟩
  case h_5 => exact .modify fun _ => ⟨rfl, rfl, rfl⟩
  case h_6 => exact .pure _

/-! ### The three kinds of steps -/

/-- A byte written to the transmit register of a selected UART goes into the ring. -/
theorem dev_thrWrite {m : Machine I8250} (hselect : mos5720UartChipSelect m.dev.mos5720 = true)
    (hdlab : m.dev.dlab = false) (value : Byte) :
    ∃ iir, (outcome (i8250RegisterWrite 0x3F8 value) m).2.dev =
      { i8250TxFifoWrite value m.dev with iir := iir } := by
  have hwrite : outcome (i8250RegisterWrite 0x3F8 value) m =
      outcome i8250ThrIrq (outcome (modifyDev (i8250TxFifoWrite value)) m).2 := by
    unfold i8250RegisterWrite
    rw [outcome_bind, outcome_getDev, outcome_ite, if_pos hselect]
    show outcome (i8250ThrWrite value) m = _
    unfold i8250ThrWrite
    rw [outcome_bind, outcome_getDev, outcome_ite, if_neg (by rw [hdlab]; exact nofun),
      outcome_bind]
  rw [hwrite]
  exact dev_thrIrq (outcome (modifyDev (i8250TxFifoWrite value)) m).2

/-- With the Divisor Latch Access Bit the same port is that of the divisor. -/
theorem same_dllWrite {m : Machine I8250} (hdlab : m.dev.dlab = true) (value : Byte) :
    m.dev.SameTransmitter (outcome (i8250RegisterWrite 0x3F8 value) m).2.dev := by
  unfold i8250RegisterWrite
  rw [outcome_bind, outcome_getDev, outcome_ite]
  split
  case isFalse => exact .refl _
  show m.dev.SameTransmitter (outcome (i8250ThrWrite value) m).2.dev
  unfold i8250ThrWrite
  rw [outcome_bind, outcome_getDev, outcome_ite, if_pos hdlab]
  -- the divisor and the settings of the terminal
  have hkeeps : KeepsTransmitter (do
      modifyDev fun x : I8250 => { x with divisorLow := value }
      runLocal i8250UpdateTtySettings) :=
    .bind (.modify fun _ => ⟨rfl, rfl, rfl⟩) fun _ => keeps_updateTtySettings
  exact hkeeps m

/-- Without chip select a write of a register does nothing. -/
theorem registerWrite_of_not_selected {m : Machine I8250}
    (h : mos5720UartChipSelect m.dev.mos5720 = false) (port : Word) (value : Byte) :
    (outcome (i8250RegisterWrite port value) m).2 = m := by
  unfold i8250RegisterWrite
  rw [outcome_bind, outcome_getDev, outcome_ite, if_neg (by rw [h]; exact nofun)]
  rfl

/-- A call of `i8250_execute` sends from a state with the transmitter it found. -/
theorem execute_eq (received : Option Byte) (m : Machine I8250) :
    ∃ x, m.dev.SameTransmitter x ∧
      (outcome (i8250Execute received) m).2.dev = i8250Transmit x := by
  cases received with
  | none => exact ⟨m.dev, .refl _, rfl⟩
  | some byte => exact ⟨_, keeps_receive byte m, rfl⟩

/-- A step sends a byte, leaves the transmitter alone, or writes to the transmit register,
which puts the byte into the ring of a selected UART. -/
theorem uart_after_cases (m : Machine I8250) (a : UartStep) :
    (∃ received, a = .execute received ∧
      ∃ x, m.dev.SameTransmitter x ∧ (uartAfter m a).dev = i8250Transmit x) ∨
    ((∀ received, a ≠ .execute received) ∧ thrWritten m a = [] ∧
      m.dev.SameTransmitter (uartAfter m a).dev) ∨
    (∃ value, thrWritten m a = [value] ∧
      if mos5720UartChipSelect m.dev.mos5720 then
        ∃ iir, (uartAfter m a).dev = { i8250TxFifoWrite value m.dev with iir := iir }
      else uartAfter m a = m) := by
  cases a with
  | execute received =>
    obtain ⟨x, hsame, hx⟩ := execute_eq received m
    exact .inl ⟨received, rfl, x, hsame, hx⟩
  | mouse data =>
    have hkeeps : KeepsTransmitter (mos5720MouseData data) :=
      .bind (.modify fun _ => ⟨rfl, rfl, rfl⟩) fun _ => .irq _
    -- no read of a register takes a byte from the transmit ring
    exact .inr (.inl ⟨nofun, rfl, hkeeps m⟩)
  | access a =>
    cases a with
    | other m' => exact .inr (.inl ⟨nofun, rfl, .refl _⟩)
    | read port =>
      exact .inr (.inl ⟨nofun, rfl,
        relates_serialRead (fun _ _ => ⟨rfl, rfl, rfl⟩) (keeps_read port m)⟩)
    | write port value =>
      by_cases hport : port = 0x3F8
      · -- only the register at the base port can put a byte into the ring
        subst hport
        have hfunc : serialDevices.write 0x3F8 = some i8250RegisterWrite := rfl
        have hafter : uartAfter m (.access (.write 0x3F8 value)) =
            (outcome (i8250RegisterWrite 0x3F8 value) m).2 := Devices.after_write hfunc value m
        cases hdlab : m.dev.dlab with
        -- with DLAB the write goes to the divisor latch
        | true =>
          refine .inr (.inl ⟨nofun, if_pos hdlab, ?_⟩)
          rw [hafter]
          exact same_dllWrite hdlab value
        | false =>
          refine .inr (.inr ⟨value, if_neg (by rw [hdlab]; exact nofun), ?_⟩)
          rw [hafter]
          split
          case isTrue hselect => exact dev_thrWrite hselect hdlab value
          case isFalse hselect =>
            exact registerWrite_of_not_selected (Bool.not_eq_true _ ▸ hselect) _ value
      · refine .inr (.inl ⟨nofun, ?_, ?_⟩)
        · unfold thrWritten
          split
          case h_1 h => cases h; exact absurd rfl hport
          case h_2 => rfl
        · exact relates_serialWrite (fun _ _ => ⟨rfl, rfl, rfl⟩) (keeps_write hport value m)

/-! ### What is sent -/

/-- The holding register is reported empty, as `i8250_init` leaves it. -/
structure I8250.Serving (x : I8250) : Prop where
  holdingEmpty : x.lsr &&& i8250LsrTransmitHoldingEmpty = i8250LsrTransmitHoldingEmpty
  wellFormed : x.txFifo.WellFormed

theorem I8250.SameTransmitter.serving {x y : I8250} (h : x.SameTransmitter y) (hx : x.Serving) :
    y.Serving where
  holdingEmpty := h.holdingEmpty.trans hx.holdingEmpty
  wellFormed := by
    rw [h.txFifo]
    exact hx.wellFormed

namespace I8250.Serving

variable {x : I8250}

theorem txFifoWrite (hx : x.Serving) (value : Byte) : (i8250TxFifoWrite value x).Serving :=
  ⟨hx.holdingEmpty, hx.wellFormed.push value⟩

theorem transmit_of_empty (hx : x.Serving) (h : x.txFifo.length = 0) : i8250Transmit x = x := by
  unfold i8250Transmit i8250TxFifoRead
  rw [RingBuffer.pop_of_empty hx.wellFormed h]

/-- Of a ring that is not empty, the oldest byte is written. -/
theorem transmit_of_queued (hx : x.Serving) {n : ℕ} (h : x.txFifo.length = n + 1) :
    ∃ byte, x.txFifo.queued = byte :: x.txFifo.pop.2.queued ∧
      i8250Transmit x = { x with txFifo := x.txFifo.pop.2
                                 tty := { x.tty with written := byte :: x.tty.written } } := by
  obtain ⟨byte, hbyte, hqueued⟩ := RingBuffer.queued_pop hx.wellFormed h
  refine ⟨byte, hqueued, ?_⟩
  unfold i8250Transmit i8250TxFifoRead
  rw [hbyte]

theorem transmit (hx : x.Serving) : (i8250Transmit x).Serving := by
  cases hlength : x.txFifo.length with
  | zero =>
    rw [hx.transmit_of_empty hlength]
    exact hx
  | succ n =>
    obtain ⟨byte, -, htransmit⟩ := hx.transmit_of_queued hlength
    rw [htransmit]
    exact ⟨hx.holdingEmpty, hx.wellFormed.pop⟩

/-- A byte that is sent was the next one. -/
theorem sent_transmit (hx : x.Serving) : (i8250Transmit x).sent = x.sent := by
  cases hlength : x.txFifo.length with
  | zero => rw [hx.transmit_of_empty hlength]
  | succ n =>
    obtain ⟨byte, hqueued, htransmit⟩ := hx.transmit_of_queued hlength
    rw [htransmit]
    unfold sent ttyBytes
    dsimp only
    rw [hqueued, List.reverse_cons, List.append_assoc, List.singleton_append]

theorem length_transmit (hx : x.Serving) :
    (i8250Transmit x).txFifo.length = x.txFifo.length - 1 := by
  cases hlength : x.txFifo.length with
  | zero => rw [hx.transmit_of_empty hlength, hlength]
  | succ n =>
    obtain ⟨byte, hqueued, htransmit⟩ := hx.transmit_of_queued hlength
    have hcount := congrArg List.length hqueued
    rw [List.length_cons, RingBuffer.length_queued, RingBuffer.length_queued, hlength] at hcount
    rw [htransmit]
    dsimp only
    omega

theorem sent_txFifoWrite (hx : x.Serving) (hroom : x.txFifo.length + 1 < i8250TxFifoSize)
    (value : Byte) : (i8250TxFifoWrite value x).sent = x.sent ++ [value] := by
  unfold sent ttyBytes i8250TxFifoWrite
  dsimp only
  rw [RingBuffer.queued_push hx.wellFormed hroom, List.append_assoc]

/-- A byte for a full ring is dropped. -/
theorem txFifoWrite_of_full (hx : x.Serving) (hfull : x.txFifo.length + 1 = i8250TxFifoSize)
    (value : Byte) : i8250TxFifoWrite value x = x := by
  unfold i8250TxFifoWrite
  rw [RingBuffer.push_of_full hx.wellFormed hfull]

theorem txFull_iff (hx : x.Serving) : x.TxFull ↔ x.txFifo.length + 1 = i8250TxFifoSize :=
  RingBuffer.full_iff hx.wellFormed

theorem length_lt (hx : x.Serving) : x.txFifo.length < i8250TxFifoSize :=
  RingBuffer.length_lt hx.wellFormed

end I8250.Serving

/-- What the guest reads of the bit that is always set: the chip select. -/
theorem holdingEmpty_iff {m : Machine I8250} (hm : m.dev.Serving) :
    HoldingEmpty m ↔ mos5720UartChipSelect m.dev.mos5720 = true := by
  have hread : lsrRead m = if mos5720UartChipSelect m.dev.mos5720 then m.dev.lsr else 0 := by
    show (if _ then _ else _ : Byte × I8250 × List String).1 = _
    split <;> rfl
  unfold HoldingEmpty
  rw [hread]
  split
  case isTrue h =>
    rw [hm.holdingEmpty]
    exact iff_of_true (by decide) h
  case isFalse h => exact iff_of_false (fun h' => h' rfl) h

/-- The bit stays set in every run. -/
theorem serving_after (m : Machine I8250) (a : UartStep) (hm : m.dev.Serving) :
    (uartAfter m a).dev.Serving := by
  rcases uart_after_cases m a with ⟨-, -, x, hsame, hx⟩ | ⟨-, -, hsame⟩ | ⟨value, -, h⟩
  · rw [hx]
    exact (hsame.serving hm).transmit
  · exact hsame.serving hm
  · split at h
    · obtain ⟨iir, hdev⟩ := h
      rw [hdev]
      exact (I8250.SameTransmitter.setIir _ iir).serving (hm.txFifoWrite value)
    · rw [h]
      exact hm

/-! ### One step -/

/-- A polite byte that finds room is sent, and nothing else is. -/
theorem sent_after {m : Machine I8250} {a : UartStep} (hm : m.dev.Serving)
    (hpolite : Polite m a) (hroom : FindsRoom m a) :
    (uartAfter m a).dev.sent = m.dev.sent ++ thrWritten m a := by
  rcases uart_after_cases m a with ⟨received, rfl, x, hsame, hx⟩ | ⟨-, hthr, hsame⟩ |
    ⟨value, hthr, h⟩
  · have hthr : thrWritten m (.execute received) = [] := rfl
    rw [hthr, List.append_nil, hx, (hsame.serving hm).sent_transmit, hsame.sent]
  · rw [hthr, List.append_nil, hsame.sent]
  -- a byte was written, so the guest had been told to
  · have hwrites : thrWritten m a ≠ [] := by
      rw [hthr]
      exact nofun
    rw [if_pos ((holdingEmpty_iff hm).1 (hpolite hwrites))] at h
    obtain ⟨iir, hdev⟩ := h
    rw [hdev, (I8250.SameTransmitter.setIir _ iir).sent, hm.sent_txFifoWrite (hroom hwrites), hthr]

/-- Any other byte is lost. -/
theorem sent_after_lost {m : Machine I8250} {a : UartStep} (hm : m.dev.Serving)
    (h : ¬(Polite m a ∧ FindsRoom m a)) :
    (uartAfter m a).dev.sent.length < m.dev.sent.length + (thrWritten m a).length := by
  rcases uart_after_cases m a with ⟨received, rfl, -⟩ | ⟨-, hthr, -⟩ | ⟨value, hthr, hafter⟩
  · exact absurd ⟨fun hne => absurd rfl hne, fun hne => absurd rfl hne⟩ h
  · exact absurd ⟨fun hne => absurd hthr hne, fun hne => absurd hthr hne⟩ h
  have hsame : (uartAfter m a).dev.sent = m.dev.sent := by
    split at hafter
    case isFalse => rw [hafter]
    case isTrue hselect =>
      -- the byte is polite, so it is the room that is missing
      have hfull : ¬m.dev.txFifo.length + 1 < i8250TxFifoSize := fun hlt =>
        h ⟨fun _ => (holdingEmpty_iff hm).2 hselect, fun _ => hlt⟩
      have hlt := hm.length_lt
      obtain ⟨iir, hdev⟩ := hafter
      rw [hdev, (I8250.SameTransmitter.setIir _ iir).sent, hm.txFifoWrite_of_full (by omega)]
  rw [hsame, hthr, List.length_singleton]
  exact Nat.lt_succ_self _

/-- The number of bytes in the ring after a step. -/
theorem length_after_le (m : Machine I8250) {a : UartStep} (hm : m.dev.Serving)
    (hthr : thrWritten m a = []) :
    (uartAfter m a).dev.txFifo.length ≤ m.dev.txFifo.length := by
  rcases uart_after_cases m a with ⟨-, -, x, hsame, hx⟩ | ⟨-, -, hsame⟩ | ⟨value, hvalue, -⟩
  · rw [hx, (hsame.serving hm).length_transmit, hsame.txFifo]
    omega
  · rw [hsame.txFifo]
  · rw [hthr] at hvalue
    exact absurd hvalue nofun

/-- A polite byte makes the ring longer by one, unless it is full. -/
theorem length_after_thr {m : Machine I8250} {a : UartStep} (hm : m.dev.Serving)
    (hpolite : Polite m a) (hthr : thrWritten m a ≠ []) :
    (uartAfter m a).dev.txFifo.length =
        min (m.dev.txFifo.length + 1) (i8250TxFifoSize - 1) ∧
      HoldingEmpty (uartAfter m a) := by
  have hlt := hm.length_lt
  -- only a write to the transmit register is left
  rcases uart_after_cases m a with ⟨received, rfl, -⟩ | ⟨-, hnil, -⟩ | ⟨value, -, h⟩
  · exact absurd rfl hthr
  · exact absurd hnil hthr
  have hselect := (holdingEmpty_iff hm).1 (hpolite hthr)
  rw [if_pos hselect] at h
  obtain ⟨iir, hdev⟩ := h
  constructor
  case right =>
    rw [holdingEmpty_iff (serving_after m a hm), hdev]
    exact hselect
  rw [hdev]
  -- a full ring drops the byte
  by_cases hroom : m.dev.txFifo.length + 1 < i8250TxFifoSize
  · have hqueued := congrArg List.length (RingBuffer.queued_push hm.wellFormed hroom value)
    rw [List.length_append, List.length_singleton, RingBuffer.length_queued,
      RingBuffer.length_queued] at hqueued
    unfold i8250TxFifoWrite
    dsimp only
    omega
  · rw [hm.txFifoWrite_of_full (by omega)]
    dsimp only
    omega

/-! ### Runs -/

/-- A machine whose UART has just been initialised. -/
def Machine.withUart (m : Machine I8250) (fails : ℕ → Bool) : Machine I8250 :=
  { m with dev := i8250Init fails }

theorem serving_withUart (m : Machine I8250) (fails : ℕ → Bool) :
    (m.withUart fails).dev.Serving where
  holdingEmpty := by
    show (i8250LsrTransmitShiftEmpty ||| i8250LsrTransmitHoldingEmpty) &&& _ = _
    decide
  wellFormed := ⟨Nat.zero_lt_succ _, Nat.zero_lt_succ _⟩

/-- As many calls of `i8250_execute` as there are bytes in the ring write all of them. -/
theorem ttyBytes_drained {n : ℕ} {m : Machine I8250} (hm : m.dev.Serving)
    (h : m.dev.txFifo.length = n) :
    (runAll uartAfter m (List.replicate n (.execute none))).dev.ttyBytes = m.dev.sent := by
  induction n generalizing m with
  | zero =>
    unfold I8250.sent
    rw [RingBuffer.queued_of_empty h, List.append_nil]
    rfl
  | succ n ih =>
    have hafter : (uartAfter m (.execute none)).dev = i8250Transmit m.dev := rfl
    rw [List.replicate_succ, runAll_cons, ih (serving_after m _ hm), hafter, hm.sent_transmit]
    rw [hafter, hm.length_transmit, h]
    rfl

theorem delivered_iff_sent {m : Machine I8250} (hm : m.dev.Serving) (as : List UartStep) :
    Delivered m as ↔ (runAll uartAfter m as).dev.sent = collect uartAfter thrWritten m as := by
  refine ⟨fun h => h.inOrder, fun h => ⟨h, ?_⟩⟩
  have hend := runAll_invariant serving_after hm as
  rw [ttyBytes_drained hend rfl, h]

/-- A polite run delivers the bytes of the guest exactly when each finds a free cell. -/
theorem delivered_iff {m : Machine I8250} (hm : m.dev.Serving) (hnew : m.dev.sent = [])
    {as : List UartStep} (hpolite : Along uartAfter Polite m as) :
    Delivered m as ↔ Along uartAfter FindsRoom m as := by
  have hall := collect_iff (P := fun m a => Polite m a ∧ FindsRoom m a)
    (fun m : Machine I8250 => m.dev.sent) serving_after
    (fun m a hm h => sent_after hm h.1 h.2) (fun m a hm h => sent_after_lost hm h) hm as
  rw [hnew, List.nil_append] at hall
  rw [delivered_iff_sent hm, hall, along_and]
  exact and_iff_right hpolite

/-- In a polite run a full ring is told exactly when no byte fills it. -/
theorem tells_iff {m : Machine I8250} (hm : m.dev.Serving) (hnot : ¬m.dev.TxFull)
    {as : List UartStep} (hpolite : Along uartAfter Polite m as) :
    Along uartAfter (fun m a => TellsFull (uartAfter m a)) m as ↔
      Along uartAfter LeavesRoom m as := by
  have hsize : i8250TxFifoSize = 1024 := rfl
  -- as long as no byte fills the ring, it is not full
  have hkeeps : ∀ m a, m.dev.Serving ∧ ¬m.dev.TxFull → Polite m a ∧ LeavesRoom m a →
      (uartAfter m a).dev.Serving ∧ ¬(uartAfter m a).dev.TxFull := by
    intro m a ⟨hm, hnot⟩ ⟨hpolite, hleaves⟩
    have hafter := serving_after m a hm
    refine ⟨hafter, ?_⟩
    rw [hafter.txFull_iff]
    rw [hm.txFull_iff] at hnot
    by_cases hthr : thrWritten m a = []
    · have hlt := hm.length_lt
      have hle := length_after_le m hm hthr
      omega
    · have hlength := (length_after_thr hm hpolite hthr).1
      have hroom := hleaves hthr
      omega
  have hstep : ∀ m a, m.dev.Serving ∧ ¬m.dev.TxFull →
      (Polite m a ∧ TellsFull (uartAfter m a) ↔ Polite m a ∧ LeavesRoom m a) := by
    intro m a hm
    refine and_congr_right fun hpolite => ⟨fun htells hthr => ?_, fun hleaves hfull => ?_⟩
    · -- a byte that fills the ring leaves the bit set
      obtain ⟨hlength, hempty⟩ := length_after_thr hm.1 hpolite hthr
      by_contra hfills
      refine htells ?_ hempty
      rw [(serving_after m a hm.1).txFull_iff]
      omega
    · exact absurd hfull (hkeeps m a hm ⟨hpolite, hleaves⟩).2
  have hall := along_iff hkeeps hstep ⟨hm, hnot⟩ as
  rw [along_and, along_and] at hall
  have hiff := and_congr_right_iff.1 hall
  exact hiff hpolite

/-- **The bytes of the transmitter.** In every run in which the guest writes a byte only when
the status register reports the holding register empty, the bytes written to the TTY are
the guest's exactly when each finds a free cell in the ring; and with it, a full ring is
reported exactly when no byte fills it. -/
theorem transmitter_tells_iff (m : Machine I8250) (fails : ℕ → Bool) (as : List UartStep)
    (hpolite : Along uartAfter Polite (m.withUart fails) as) :
    (Delivered (m.withUart fails) as ↔ Along uartAfter FindsRoom (m.withUart fails) as) ∧
      (Delivered (m.withUart fails) as ∧
          Along uartAfter (fun m a => TellsFull (uartAfter m a)) (m.withUart fails) as ↔
        Along uartAfter LeavesRoom (m.withUart fails) as) := by
  have hserving := serving_withUart m fails
  have hnew : (m.withUart fails).dev.sent = [] := by
    have hempty := (RingBuffer.length_eq_zero_iff hserving.wellFormed).2 rfl
    unfold I8250.sent
    rw [RingBuffer.queued_of_empty hempty]
    rfl
  have hnot : ¬(m.withUart fails).dev.TxFull := fun h =>
    absurd (show (0 + 1) % i8250TxFifoSize = 0 from h) (by decide)
  have hdelivered := delivered_iff hserving hnew hpolite
  refine ⟨hdelivered, ?_⟩
  rw [hdelivered, tells_iff hserving hnot hpolite]
  -- a byte that leaves room finds room
  refine and_iff_right_of_imp fun h => along_mono (fun m a hleaves hthr => ?_) h
  have hroom := hleaves hthr
  omega

/-- A guest selects the UART, writes `n` bytes to it, and does not stop for the TTY. -/
def selectAndWrite (n : ℕ) : List UartStep :=
  .access (.write 0x230 0x89) :: List.replicate n (.access (.write 0x3F8 0x41))

/-- A machine whose UART has just been initialised, on a TTY that does not fail. -/
def machineWithUart : Machine I8250 :=
  (machineInit (i8250Init fun _ => false)).withUart fun _ => false

/-- One byte is delivered by a call of `i8250_execute`. -/
theorem transmitter_tells_iff_byte :
    Along uartAfter LeavesRoom machineWithUart (selectAndWrite 1 ++ [.execute none]) ∧
      Delivered machineWithUart (selectAndWrite 1 ++ [.execute none]) := by
  have hleaves : Along uartAfter LeavesRoom machineWithUart
      (selectAndWrite 1 ++ [.execute none]) :=
    ⟨fun _ => by decide, fun _ => by decide, fun _ => by decide, trivial⟩
  have hpolite : Along uartAfter Polite machineWithUart (selectAndWrite 1 ++ [.execute none]) :=
    ⟨fun h => absurd rfl h, fun _ => by unfold HoldingEmpty; decide, fun h => absurd rfl h, trivial⟩
  exact ⟨hleaves, ((transmitter_tells_iff _ _ _ hpolite).2.2 hleaves).1⟩

/-- A guest that writes bytes to a selected UART is told to go on, and nothing is sent. -/
theorem writes_without_execute (n : ℕ) {m : Machine I8250}
    (hselect : mos5720UartChipSelect m.dev.mos5720 = true) (hdlab : m.dev.dlab = false)
    (hm : m.dev.Serving) :
    Along uartAfter Polite m (List.replicate n (.access (.write 0x3F8 0x41))) ∧
      (collect uartAfter thrWritten m
        (List.replicate n (.access (.write 0x3F8 0x41)))).length = n ∧
      (runAll uartAfter m (List.replicate n (.access (.write 0x3F8 0x41)))).dev.ttyBytes =
        m.dev.ttyBytes := by
  induction n generalizing m with
  | zero => exact ⟨trivial, rfl, rfl⟩
  | succ n ih =>
    obtain ⟨iir, hdev⟩ := dev_thrWrite hselect hdlab 0x41
    have hafter : (uartAfter m (.access (.write 0x3F8 0x41))).dev =
        { i8250TxFifoWrite 0x41 m.dev with iir := iir } := hdev
    have hthr : thrWritten m (.access (.write 0x3F8 0x41)) = [0x41] :=
      if_neg (by rw [hdlab]; exact nofun)
    obtain ⟨hpolite, hlength, htty⟩ := ih (m := uartAfter m (.access (.write 0x3F8 0x41)))
      (by rw [hafter]; exact hselect) (by rw [hafter]; exact hdlab) (serving_after m _ hm)
    rw [List.replicate_succ, along_cons, collect_cons, runAll_cons, htty, hafter, hthr,
      List.length_append, hlength]
    -- the holding register is reported empty, whatever the ring holds
    exact ⟨⟨fun _ => (holdingEmpty_iff hm).2 hselect, hpolite⟩, Nat.add_comm 1 n, rfl⟩

/-- Of `n` bytes written at once, those that do not fit are lost. -/
theorem selectAndWrite_drops {n : ℕ} (hn : i8250TxFifoSize ≤ n) :
    Along uartAfter Polite machineWithUart (selectAndWrite n) ∧
      ¬Delivered machineWithUart (selectAndWrite n) := by
  have hserving : machineWithUart.dev.Serving := serving_withUart _ _
  -- the mode write selects the UART
  have hselected := serving_after machineWithUart (.access (.write 0x230 0x89)) hserving
  obtain ⟨hpolite, hlength, htty⟩ := writes_without_execute n
    (m := uartAfter machineWithUart (.access (.write 0x230 0x89))) rfl rfl hselected
  refine ⟨⟨fun hne => absurd rfl hne, hpolite⟩, fun hdelivered => ?_⟩
  have hend := runAll_invariant serving_after hserving (selectAndWrite n)
  have hsent := congrArg List.length hdelivered.inOrder
  unfold I8250.sent at hsent
  unfold selectAndWrite at hsent hend
  rw [runAll_cons] at hsent hend
  rw [collect_cons, htty, List.length_append, List.length_append, hlength,
    RingBuffer.length_queued] at hsent
  -- the ring holds less than its size, and nothing has been written yet
  have hshort := hend.length_lt
  have htty : (uartAfter machineWithUart (.access (.write 0x230 0x89))).dev.ttyBytes.length = 0 :=
    rfl
  omega

/-- Of 1024 bytes written at once, the last one is lost. -/
theorem transmitter_drops : ¬ ∀ (m : Machine I8250) (fails : ℕ → Bool) (as : List UartStep),
    Along uartAfter Polite (m.withUart fails) as →
      Delivered (m.withUart fails) as ∧
        Along uartAfter (fun m a => TellsFull (uartAfter m a)) (m.withUart fails) as := by
  intro h
  obtain ⟨hpolite, hlost⟩ := selectAndWrite_drops (n := 1024) (Nat.le_refl _)
  exact hlost (h (machineInit (i8250Init fun _ => false)) (fun _ => false) (selectAndWrite 1024)
    hpolite).1

end Pc20iii
