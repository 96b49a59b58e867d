import Pc20iii.Serial.Fifos

/-!
# The pending interrupt of the UART

IIR holds one cause. A byte that arrives puts the one of the receiver there, a write of THR or
of IER the one of the transmitter over it, and a read of IIR or of RBR takes away the cause that
it acknowledges (`interrupts_after`), whether or not there is another reason for an interrupt.

`receive_pending_iff` says which runs keep the receive interrupt: those in which no such step
leaves the register empty while a byte is queued whose interrupt is enabled.
-/

namespace Pc20iii

open StateProgram

/-- The receive interrupt is enabled. -/
def I8250.RbrEnabled (x : I8250) : Prop := x.ier.getLsbD i8250IerRbr = true

/-- While a byte is queued whose interrupt is enabled, a read of IIR reports an interrupt. -/
def I8250.TellsReceived (x : I8250) : Prop :=
  x.RbrEnabled → x.rxFifo.queued ≠ [] → (i8250IirRead x).1 ≠ i8250IirNoPending

instance (x : I8250) : Decidable x.RbrEnabled := by
  unfold I8250.RbrEnabled
  infer_instance

/-- A step that may leave IIR without a cause does so only when no byte is queued behind it:
a read of RBR that acknowledges the receiver takes the last byte, and a read of IIR that
acknowledges the transmitter finds none, unless the receive interrupt is disabled; and a write
of IER that enables the receive interrupt alone finds a cause or no byte. -/
def KeepsCause (m : Machine I8250) : UartStep → Prop
  | .access (.read port) =>
    (port = 0x3F8 → m.dev.Reachable → m.dev.RbrEnabled → m.dev.iir = i8250IirRbr →
      m.dev.rxFifo.length ≤ 1) ∧
    (port = 0x3FA → mos5720UartChipSelect m.dev.mos5720 = true → m.dev.RbrEnabled →
      m.dev.iir = i8250IirThr → m.dev.rxFifo.length = 0)
  | .access (.write port value) =>
    port = 0x3F9 → m.dev.Reachable → value.getLsbD i8250IerRbr = true →
      value.getLsbD i8250IerThr = false → m.dev.iir = i8250IirNoPending →
        m.dev.rxFifo.length = 0
  | _ => True

/-! ### What a step does to the two registers -/

/-- The two states have the same interrupts enabled and pending. -/
structure I8250.SameInterrupts (x y : I8250) : Prop where
  ier : y.ier = x.ier
  iir : y.iir = x.iir

instance : IsPreorder I8250 I8250.SameInterrupts where
  refl _ := ⟨rfl, rfl⟩
  trans _ _ _ h h' := ⟨h'.ier.trans h.ier, h'.iir.trans h.iir⟩

/-- IER and IIR after a step. -/
def interruptsAfter (m : Machine I8250) : UartStep → Byte × Byte
  | .execute (some _) =>
    (m.dev.ier, if m.dev.RbrEnabled then i8250IirRbr else m.dev.iir)
  | .access (.read port) =>
    if port = 0x3F8 ∧ m.dev.Reachable then
      (m.dev.ier, if m.dev.iir = i8250IirRbr then i8250IirNoPending else m.dev.iir)
    else if port = 0x3FA ∧ mos5720UartChipSelect m.dev.mos5720 = true then
      (m.dev.ier, if m.dev.iir = i8250IirThr then i8250IirNoPending else m.dev.iir)
    else (m.dev.ier, m.dev.iir)
  | .access (.write port value) =>
    if port = 0x3F8 ∧ m.dev.Reachable then
      (m.dev.ier, if m.dev.ier.getLsbD i8250IerThr then i8250IirThr else m.dev.iir)
    else if port = 0x3F9 ∧ m.dev.Reachable then
      (value, if value.getLsbD i8250IerThr then i8250IirThr else m.dev.iir)
    else (m.dev.ier, m.dev.iir)
  | _ => (m.dev.ier, m.dev.iir)

section Registers

variable {m : Machine I8250} {port : Word} {value : Byte}

theorem interruptsAfter_rbr (h : port = 0x3F8 ∧ m.dev.Reachable) :
    interruptsAfter m (.access (.read port)) =
      (m.dev.ier, if m.dev.iir = i8250IirRbr then i8250IirNoPending else m.dev.iir) :=
  if_pos h

theorem interruptsAfter_iir (h : port = 0x3FA ∧ mos5720UartChipSelect m.dev.mos5720 = true) :
    interruptsAfter m (.access (.read port)) =
      (m.dev.ier, if m.dev.iir = i8250IirThr then i8250IirNoPending else m.dev.iir) := by
  have hnot : ¬(port = 0x3F8 ∧ m.dev.Reachable) := by
    rw [h.1]
    exact fun h' => absurd h'.1 (by decide)
  exact (if_neg hnot).trans (if_pos h)

theorem interruptsAfter_read (hrbr : ¬(port = 0x3F8 ∧ m.dev.Reachable))
    (hiir : ¬(port = 0x3FA ∧ mos5720UartChipSelect m.dev.mos5720 = true)) :
    interruptsAfter m (.access (.read port)) = (m.dev.ier, m.dev.iir) :=
  (if_neg hrbr).trans (if_neg hiir)

theorem interruptsAfter_thr (h : port = 0x3F8 ∧ m.dev.Reachable) :
    interruptsAfter m (.access (.write port value)) =
      (m.dev.ier, if m.dev.ier.getLsbD i8250IerThr then i8250IirThr else m.dev.iir) :=
  if_pos h

theorem interruptsAfter_ier (h : port = 0x3F9 ∧ m.dev.Reachable) :
    interruptsAfter m (.access (.write port value)) =
      (value, if value.getLsbD i8250IerThr then i8250IirThr else m.dev.iir) := by
  have hnot : ¬(port = 0x3F8 ∧ m.dev.Reachable) := by
    rw [h.1]
    exact fun h' => absurd h'.1 (by decide)
  exact (if_neg hnot).trans (if_pos h)

theorem interruptsAfter_write (hthr : ¬(port = 0x3F8 ∧ m.dev.Reachable))
    (hier : ¬(port = 0x3F9 ∧ m.dev.Reachable)) :
    interruptsAfter m (.access (.write port value)) = (m.dev.ier, m.dev.iir) :=
  (if_neg hthr).trans (if_neg hier)

end Registers

theorem sameInterrupts_updateTtySettings :
    RelatesDev I8250.SameInterrupts (runLocal i8250UpdateTtySettings) := by
  refine RelatesDev.own fun x => ?_
  unfold i8250UpdateTtySettings
  split
  · exact ⟨rfl, rfl⟩
  · split_ifs <;> exact ⟨rfl, rfl⟩

theorem sameInterrupts_transmit (x : I8250) : x.SameInterrupts (i8250Transmit x) := by
  unfold i8250Transmit i8250TxFifoRead
  cases x.txFifo.pop.1 <;> exact ⟨rfl, rfl⟩

/-- A register that is neither RBR nor IIR is read. -/
theorem sameInterrupts_register {port : Word} {x : I8250}
    (hrbr : port = 0x3F8 → x.dlab = true) (hiir : port ≠ 0x3FA) :
    x.SameInterrupts (i8250Register port x).2 := by
  unfold i8250Register
  split
  case h_1 =>
    rw [if_pos (hrbr rfl)]
    exact ⟨rfl, rfl⟩
  case h_3 => exact absurd rfl hiir
  all_goals exact ⟨rfl, rfl⟩

/-- The interrupt for a cause that is enabled: the cause goes over whatever is pending. -/
theorem iir_irq (bit : ℕ) (cause : Byte) (m : Machine I8250) :
    let x := (outcome (do
      if (← getDev).ier.getLsbD bit then
        modifyDev fun x : I8250 => { x with iir := cause }
        fe2010Irq fe2010IrqCom1) m).2.dev
    (x.ier, x.iir) = (m.dev.ier, if m.dev.ier.getLsbD bit then cause else m.dev.iir) := by
  dsimp only
  rw [outcome_bind, outcome_getDev, outcome_ite]
  split
  · rw [outcome_bind, dev_fe2010Irq, outcome_modifyDev]
  · rfl

/-- What a read does to a selected UART. -/
theorem dev_registerRead (port : Word) (m : Machine I8250) :
    (outcome (i8250RegisterRead port) m).2.dev =
      if mos5720UartChipSelect m.dev.mos5720 then (i8250Register port m.dev).2 else m.dev := by
  show (if _ then _ else _ : Byte × I8250 × List String).2.1 = _
  split <;> rfl

/-- What a read does to the two interrupts. -/
theorem interrupts_read (port : Word) (m : Machine I8250) :
    let x := (serialDevices.after m (.read port)).dev
    (x.ier, x.iir) = interruptsAfter m (.access (.read port)) := by
  intro x
  by_cases hrbr : port = 0x3F8 ∧ m.dev.Reachable
  · -- the receive register drops the interrupt of the receiver, whatever is left in the ring
    have hfunc : serialDevices.read 0x3F8 = some i8250RegisterRead := rfl
    have hregister : i8250Register 0x3F8 m.dev = i8250RbrRead m.dev :=
      if_neg (by simp [hrbr.2.dlab])
    have hx : x = (i8250RbrRead m.dev).2 := by
      show (serialDevices.after m (.read port)).dev = _
      rw [hrbr.1, Devices.after_read hfunc, dev_registerRead, if_pos hrbr.2.selected, hregister]
    rw [interruptsAfter_rbr hrbr, hx, i8250RbrRead_eq]
  by_cases hiir : port = 0x3FA ∧ mos5720UartChipSelect m.dev.mos5720 = true
  · -- the identification register drops the interrupt of the transmitter
    have hfunc : serialDevices.read 0x3FA = some i8250RegisterRead := rfl
    have hx : x = (i8250IirRead m.dev).2 := by
      show (serialDevices.after m (.read port)).dev = _
      rw [hiir.1, Devices.after_read hfunc, dev_registerRead, if_pos hiir.2]
      rfl
    rw [interruptsAfter_iir hiir, hx]
    unfold i8250IirRead
    dsimp only
    split_ifs <;> rfl
  -- no other register does
  · have hsame : m.dev.SameInterrupts x := by
      refine relates_serialRead (fun _ _ => ⟨rfl, rfl⟩) ?_
      rw [dev_registerRead]
      split
      case isFalse => exact ⟨rfl, rfl⟩
      case isTrue hselect =>
        refine sameInterrupts_register (fun hport => ?_) fun hport => hiir ⟨hport, hselect⟩
        exact Bool.eq_true_of_not_eq_false fun hdlab => hrbr ⟨hport, hselect, hdlab⟩
    rw [interruptsAfter_read hrbr hiir, hsame.ier, hsame.iir]

/-- The writes of a selected UART that reach neither THR nor IER. -/
theorem sameInterrupts_write {port : Word} {m : Machine I8250} (value : Byte)
    (hthr : ¬(port = 0x3F8 ∧ m.dev.Reachable)) (hier : ¬(port = 0x3F9 ∧ m.dev.Reachable)) :
    m.dev.SameInterrupts (outcome (i8250RegisterWrite port value) m).2.dev := by
  -- the settings of the terminal are no interrupt
  have hdivisor : ∀ f : I8250 → I8250, (∀ x : I8250, x.SameInterrupts (f x)) →
      RelatesDev I8250.SameInterrupts (do modifyDev f; runLocal i8250UpdateTtySettings) :=
    fun f hf => RelatesDev.bind (.modify hf) fun _ => sameInterrupts_updateTtySettings
  unfold i8250RegisterWrite
  rw [outcome_bind, outcome_getDev, outcome_ite]
  split
  case isFalse => exact ⟨rfl, rfl⟩
  case isTrue hselect =>
    split
    case h_1 =>
      have hdlab : m.dev.dlab = true :=
        Bool.eq_true_of_not_eq_false fun h => hthr ⟨rfl, hselect, h⟩
      unfold i8250ThrWrite
      rw [outcome_bind, outcome_getDev, outcome_ite, if_pos hdlab]
      exact hdivisor (fun x => { x with divisorLow := value }) (fun _ => ⟨rfl, rfl⟩) m
    case h_2 =>
      have hdlab : m.dev.dlab = true :=
        Bool.eq_true_of_not_eq_false fun h => hier ⟨rfl, hselect, h⟩
      unfold i8250IerWrite
      rw [outcome_bind, outcome_getDev, outcome_ite, if_pos hdlab]
      exact hdivisor (fun x => { x with divisorHigh := value }) (fun _ => ⟨rfl, rfl⟩) m
    case h_3 => exact hdivisor (fun x => { x with lcr := value }) (fun _ => ⟨rfl, rfl⟩) m
    all_goals exact ⟨rfl, rfl⟩

/-- What a write does to the two interrupts. -/
theorem interrupts_write (port : Word) (value : Byte) (m : Machine I8250) :
    let x := (serialDevices.after m (.write port value)).dev
    (x.ier, x.iir) = interruptsAfter m (.access (.write port value)) := by
  intro x
  by_cases hthr : port = 0x3F8 ∧ m.dev.Reachable
  · -- a byte to send raises the interrupt of the transmitter
    have hfunc : serialDevices.write 0x3F8 = some i8250RegisterWrite := rfl
    have hdlab : ¬m.dev.dlab = true := by simp [hthr.2.dlab]
    have hx :
        x = (outcome i8250ThrIrq (outcome (modifyDev (i8250TxFifoWrite value)) m).2).2.dev := by
      show (serialDevices.after m (.write port value)).dev = _
      rw [hthr.1, Devices.after_write hfunc]
      unfold i8250RegisterWrite
      rw [outcome_bind, outcome_getDev, outcome_ite, if_pos hthr.2.selected]
      show (outcome (i8250ThrWrite value) m).2.dev = _
      unfold i8250ThrWrite
      rw [outcome_bind, outcome_getDev, outcome_ite, if_neg hdlab, outcome_bind]
    rw [interruptsAfter_thr hthr, hx]
    exact iir_irq i8250IerThr i8250IirThr (outcome (modifyDev (i8250TxFifoWrite value)) m).2
  by_cases hier : port = 0x3F9 ∧ m.dev.Reachable
  · -- so does enabling it, with the new mask
    have hfunc : serialDevices.write 0x3F9 = some i8250RegisterWrite := rfl
    have hdlab : ¬m.dev.dlab = true := by simp [hier.2.dlab]
    have hx : x = (outcome i8250ThrIrq
        (outcome (modifyDev fun x : I8250 => { x with ier := value }) m).2).2.dev := by
      show (serialDevices.after m (.write port value)).dev = _
      rw [hier.1, Devices.after_write hfunc]
      unfold i8250RegisterWrite
      rw [outcome_bind, outcome_getDev, outcome_ite, if_pos hier.2.selected]
      show (outcome (i8250IerWrite value) m).2.dev = _
      unfold i8250IerWrite
      rw [outcome_bind, outcome_getDev, outcome_ite, if_neg hdlab, outcome_bind]
    rw [interruptsAfter_ier hier, hx]
    exact iir_irq i8250IerThr i8250IirThr
      (outcome (modifyDev fun x : I8250 => { x with ier := value }) m).2
  · have hsame : m.dev.SameInterrupts x :=
      relates_serialWrite (fun _ _ => ⟨rfl, rfl⟩) (sameInterrupts_write value hthr hier)
    rw [interruptsAfter_write hthr hier, hsame.ier, hsame.iir]

/-- IER and IIR after every step. -/
theorem interrupts_after (m : Machine I8250) (a : UartStep) :
    ((uartAfter m a).dev.ier, (uartAfter m a).dev.iir) = interruptsAfter m a := by
  cases a with
  | access a =>
    cases a with
    | read port => exact interrupts_read port m
    | write port value => exact interrupts_write port value m
    | other m' => rfl
  | mouse data =>
    -- the mouse raises its line itself, without the registers
    have hkeeps : RelatesDev I8250.SameInterrupts (mos5720MouseData data) :=
      RelatesDev.bind (.modify fun _ => ⟨rfl, rfl⟩) fun _ => .irq _
    exact Prod.ext (hkeeps m).ier (hkeeps m).iir
  | execute received =>
    cases received with
    | none =>
      have hsame := sameInterrupts_transmit m.dev
      exact Prod.ext hsame.ier hsame.iir
    | some byte =>
      have hsame := sameInterrupts_transmit (outcome (i8250Receive byte) m).2.dev
      -- the byte raises the interrupt of the receiver, and what is sent raises none
      have hreceive : ((outcome (i8250Receive byte) m).2.dev.ier,
          (outcome (i8250Receive byte) m).2.dev.iir) =
            interruptsAfter m (.execute (some byte)) :=
        iir_irq i8250IerRbr i8250IirRbr { m with
          dev := { m.dev with
            rxFifo := m.dev.rxFifo.push byte
            lsr := m.dev.lsr ||| i8250LsrDataReady } }
      rw [← hreceive]
      exact Prod.ext hsame.ier hsame.iir

/-! ### One step -/

/-- The ring is one, and the interrupt of a byte in it is pending. -/
structure I8250.Notified (x : I8250) : Prop where
  wellFormed : x.rxFifo.WellFormed
  tells : x.TellsReceived

theorem I8250.tellsReceived_iff (x : I8250) :
    x.TellsReceived ↔ (x.RbrEnabled → 0 < x.rxFifo.length → x.iir ≠ i8250IirNoPending) := by
  unfold TellsReceived
  rw [RingBuffer.queued_ne_nil_iff]
  rfl

/-- The property after a step, from the registers and the ring that it leaves. -/
theorem tellsReceived_after {m : Machine I8250} {a : UartStep} {ier iir : Byte}
    {fifo : RingBuffer i8250RxFifoSize Byte} (hregisters : interruptsAfter m a = (ier, iir))
    (hfifo : runAll RingBuffer.after m.dev.rxFifo (uartRxOps m a) = fifo) :
    (uartAfter m a).dev.TellsReceived ↔
      (ier.getLsbD i8250IerRbr = true → 0 < fifo.length → iir ≠ i8250IirNoPending) := by
  obtain ⟨hier, hiir⟩ := Prod.mk.inj ((interrupts_after m a).trans hregisters)
  rw [I8250.tellsReceived_iff, I8250.RbrEnabled, hier, hiir, rxFifo_uartAfter, hfifo]

/-- A cause that is acknowledged leaves none behind. -/
theorem tells_acknowledged_iff {iir cause : Byte} {enabled : Prop} {before after : ℕ}
    (hle : after ≤ before)
    (htells : enabled → 0 < before → iir ≠ i8250IirNoPending) :
    (enabled → 0 < after → (if iir = cause then i8250IirNoPending else iir) ≠ i8250IirNoPending) ↔
      (enabled → iir = cause → after = 0) := by
  by_cases heq : iir = cause
  · rw [if_pos heq]
    refine imp_congr_right fun _ => ?_
    rw [ne_self_iff_false, imp_false, Nat.not_lt, Nat.le_zero, imp_iff_right heq]
  · rw [if_neg heq]
    exact iff_of_true (fun henabled hpos => htells henabled (by omega)) fun _ h => absurd h heq

/-- A step that leaves the registers and the ring alone. -/
theorem tellsReceived_of_kept {m : Machine I8250} (hm : m.dev.Notified) {a : UartStep}
    (hregisters : interruptsAfter m a = (m.dev.ier, m.dev.iir)) (hops : uartRxOps m a = []) :
    (uartAfter m a).dev.TellsReceived := by
  have hfifo : runAll RingBuffer.after m.dev.rxFifo (uartRxOps m a) = m.dev.rxFifo :=
    congrArg (runAll RingBuffer.after m.dev.rxFifo) hops
  rw [tellsReceived_after hregisters hfifo]
  exact (I8250.tellsReceived_iff m.dev).1 hm.tells

/-- A read of RBR acknowledges the cause of the byte, a read of IIR that of THR. -/
theorem tellsReceived_read_iff {m : Machine I8250} (hm : m.dev.Notified) (port : Word) :
    (uartAfter m (.access (.read port))).dev.TellsReceived ↔
      KeepsCause m (.access (.read port)) := by
  have htells := (I8250.tellsReceived_iff m.dev).1 hm.tells
  by_cases hrbr : port = 0x3F8 ∧ m.dev.Reachable
  · have hfifo : runAll RingBuffer.after m.dev.rxFifo (uartRxOps m (.access (.read port))) =
        m.dev.rxFifo.pop.2 := congrArg (runAll RingBuffer.after m.dev.rxFifo) (if_pos hrbr)
    have hlength := RingBuffer.length_pop hm.wellFormed
    have hnot : ¬port = 0x3FA := by
      rw [hrbr.1]
      decide
    rw [tellsReceived_after (interruptsAfter_rbr hrbr) hfifo]
    refine (tells_acknowledged_iff (by omega) htells).trans ?_
    -- nothing is left behind exactly when at most one byte was queued
    rw [KeepsCause, imp_iff_right hrbr.1, imp_iff_right hrbr.2,
      and_iff_left fun h => absurd h hnot, hlength]
    refine imp_congr_right fun _ => imp_congr_right fun _ => ?_
    omega
  by_cases hiir : port = 0x3FA ∧ mos5720UartChipSelect m.dev.mos5720 = true
  · have hfifo : runAll RingBuffer.after m.dev.rxFifo (uartRxOps m (.access (.read port))) =
        m.dev.rxFifo := congrArg (runAll RingBuffer.after m.dev.rxFifo) (if_neg hrbr)
    have hnot : ¬port = 0x3F8 := by
      rw [hiir.1]
      decide
    rw [tellsReceived_after (interruptsAfter_iir hiir) hfifo]
    refine (tells_acknowledged_iff le_rfl htells).trans ?_
    rw [KeepsCause, imp_iff_right hiir.1, imp_iff_right hiir.2,
      and_iff_right fun h => absurd h hnot]
  -- no other register is about interrupts
  · refine iff_of_true ?_ ⟨?_, ?_⟩
    · exact tellsReceived_of_kept hm (interruptsAfter_read hrbr hiir) (if_neg hrbr)
    · exact fun hport hreachable => absurd ⟨hport, hreachable⟩ hrbr
    · exact fun hport hselect => absurd ⟨hport, hselect⟩ hiir

/-- A write of THR puts its own cause into IIR or leaves IIR alone. A write of IER does the same,
but by the new bits: with that of the byte it enables a cause that IIR need not hold. -/
theorem tellsReceived_write_iff {m : Machine I8250} (hm : m.dev.Notified) (port : Word)
    (value : Byte) :
    (uartAfter m (.access (.write port value))).dev.TellsReceived ↔
      KeepsCause m (.access (.write port value)) := by
  have hfifo : runAll RingBuffer.after m.dev.rxFifo (uartRxOps m (.access (.write port value))) =
      m.dev.rxFifo := rfl
  by_cases hthr : port = 0x3F8 ∧ m.dev.Reachable
  · have hnot : ¬port = 0x3F9 := by
      rw [hthr.1]
      decide
    rw [tellsReceived_after (interruptsAfter_thr hthr) hfifo]
    refine iff_of_true (fun henabled hpos => ?_) fun h => absurd h hnot
    split
    case isTrue => decide
    case isFalse => exact (I8250.tellsReceived_iff m.dev).1 hm.tells henabled hpos
  by_cases hier : port = 0x3F9 ∧ m.dev.Reachable
  · rw [tellsReceived_after (interruptsAfter_ier hier) hfifo]
    rw [KeepsCause, imp_iff_right hier.1, imp_iff_right hier.2]
    refine imp_congr_right fun _ => ?_
    cases hbit : value.getLsbD i8250IerThr with
    | true =>
      rw [if_pos rfl]
      exact iff_of_true (fun _ => by decide) nofun
    | false =>
      -- IIR stays, so the byte needs a cause that is pending already
      rw [if_neg Bool.false_ne_true, imp_iff_right rfl]
      constructor
      · exact fun h hnone => Nat.le_zero.1 (Nat.not_lt.1 fun hpos => h hpos hnone)
      · exact fun h hpos hnone => absurd (h hnone) (Nat.ne_of_gt hpos)
  · refine iff_of_true (tellsReceived_of_kept hm (interruptsAfter_write hthr hier) rfl) ?_
    exact fun hport hreachable => absurd ⟨hport, hreachable⟩ hier

/-- A step keeps the property unless it takes away the last cause. -/
theorem tellsReceived_after_iff {m : Machine I8250} (hm : m.dev.Notified) (a : UartStep) :
    (uartAfter m a).dev.TellsReceived ↔ KeepsCause m a := by
  cases a with
  | mouse data => exact iff_of_true (tellsReceived_of_kept hm rfl rfl) trivial
  | execute received =>
    cases received with
    | none => exact iff_of_true (tellsReceived_of_kept hm rfl rfl) trivial
    | some byte =>
      -- the cause of the byte is put into IIR if it is enabled
      have hregisters : interruptsAfter m (.execute (some byte)) =
          (m.dev.ier, if m.dev.RbrEnabled then i8250IirRbr else m.dev.iir) := rfl
      rw [tellsReceived_after hregisters rfl]
      refine iff_of_true (fun henabled _ => ?_) trivial
      rw [if_pos (show m.dev.RbrEnabled from henabled)]
      decide
  | access a =>
    cases a with
    | other m' => exact iff_of_true (tellsReceived_of_kept hm rfl rfl) trivial
    | read port => exact tellsReceived_read_iff hm port
    | write port value => exact tellsReceived_write_iff hm port value

theorem notified_after {m : Machine I8250} {a : UartStep} (hm : m.dev.Notified)
    (ha : KeepsCause m a) : (uartAfter m a).dev.Notified :=
  ⟨wellFormed_after hm.wellFormed a, (tellsReceived_after_iff hm a).2 ha⟩

/-! ### Runs -/

theorem notified_withUart (m : Machine I8250) (fails : ℕ → Bool) :
    (m.withUart fails).dev.Notified where
  wellFormed := (receiving_withUart m fails).wellFormed
  tells := by
    have hdisabled : ¬(0 : Byte).getLsbD i8250IerRbr = true := by decide
    exact fun h => absurd h hdisabled

/-- **The receive interrupt.** In every run of arrivals and register accesses, a read of IIR
reports an interrupt in every state in which a byte is queued whose interrupt is enabled, if and
only if no step takes away the last cause in front of such a byte. -/
theorem receive_pending_iff (m : Machine I8250) (fails : ℕ → Bool) (as : List UartStep) :
    Along uartAfter (fun m a => (uartAfter m a).dev.TellsReceived) (m.withUart fails) as ↔
      Along uartAfter KeepsCause (m.withUart fails) as :=
  along_iff (I := fun m => m.dev.Notified) (fun _ _ hm ha => notified_after hm ha)
    (fun _ a hm => tellsReceived_after_iff hm a) (notified_withUart m fails) as

/-- Both interrupts are enabled, a byte arrives, and another one is sent; then the guest reads
IIR. -/
def transmitterAcknowledged : List UartStep :=
  [.access (.write 0x230 0x89), .access (.write 0x3F9 0x03), .execute (some 0x41),
    .access (.write 0x3F8 0x58), .access (.read 0x3FA)]

/-- The byte is still queued, and nothing is pending. -/
theorem receive_pending_lost : ¬ ∀ (m : Machine I8250) (fails : ℕ → Bool) (as : List UartStep),
    Along uartAfter (fun m a => (uartAfter m a).dev.TellsReceived) (m.withUart fails) as := by
  intro h
  have htells := h (machineInit (i8250Init fun _ => false)) (fun _ => false)
    transmitterAcknowledged
  have hlast := (I8250.tellsReceived_iff _).1 htells.2.2.2.2.1
  exact hlast (by decide) (by decide) (by decide)

end Pc20iii
