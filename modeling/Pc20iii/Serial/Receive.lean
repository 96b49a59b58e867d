import Pc20iii.Serial.Transmit

/-!
# The receiver of the UART

A byte that arrives from the TTY goes into the receive ring and sets DATA_READY in the line
status register; a read of RBR takes the oldest byte out of the ring and clears the bit, also
when there are more (`receive_cases`).

A guest that polls the register and reads RBR while the bit is set therefore stops at the first
byte. `data_ready_iff` says when the bit is right: in exactly the runs in which each read of RBR
takes the last byte. After such a run, polling obtains the bytes that are left exactly when there
is one at most.
-/

namespace Pc20iii

open StateProgram

/-! ### The bit and the guest -/

/-- DATA_READY is set. -/
def I8250.DataReady (x : I8250) : Prop := x.lsr &&& i8250LsrDataReady ≠ 0

/-- The bit is set exactly when a byte is queued. -/
def I8250.TellsData (x : I8250) : Prop := x.DataReady ↔ x.rxFifo.queued ≠ []

/-- The guest reaches RBR: the UART is selected, and the Divisor Latch Access Bit is clear. -/
structure I8250.Reachable (x : I8250) : Prop where
  selected : mos5720UartChipSelect x.mos5720 = true
  dlab : x.dlab = false

/-- The line status register reports a byte. -/
def DataReported (m : Machine I8250) : Prop := lsrRead m &&& i8250LsrDataReady ≠ 0

instance (m : Machine I8250) : Decidable (DataReported m) := by
  unfold DataReported
  infer_instance

instance (x : I8250) : Decidable x.DataReady := by
  unfold I8250.DataReady
  infer_instance

instance (x : I8250) : Decidable x.Reachable :=
  decidable_of_iff (mos5720UartChipSelect x.mos5720 = true ∧ x.dlab = false)
    ⟨fun h => ⟨h.1, h.2⟩, fun h => ⟨h.1, h.2⟩⟩

/-- The byte of a step that arrives and finds a free cell. -/
def received (m : Machine I8250) : UartStep → List Byte
  | .execute (some byte) => if m.dev.rxFifo.length + 1 < i8250RxFifoSize then [byte] else []
  | _ => []

/-- The byte that the guest obtains: what it reads from RBR while a byte is reported. -/
def obtained (m : Machine I8250) : UartStep → List Byte
  | .access (.read 0x3F8#16) =>
    if DataReported m ∧ m.dev.Reachable then [(outcome (i8250RegisterRead 0x3F8) m).1] else []
  | _ => []

/-- One poll: a read of the line status register, and one of RBR if it reports a byte. -/
def poll (m : Machine I8250) : List UartStep :=
  .access (.read 0x3FD) :: if DataReported m then [.access (.read 0x3F8)] else []

/-- `n` polls, with nothing else between them. -/
def polls : ℕ → Machine I8250 → List UartStep
  | 0, _ => []
  | n + 1, m => poll m ++ polls n (runAll uartAfter m (poll m))

/-- Polling obtains what is left of the bytes received. -/
def ObtainsAll (m : Machine I8250) (as : List UartStep) : Prop :=
  ∀ n, (runAll uartAfter m as).dev.rxFifo.length ≤ n →
    collect uartAfter obtained m (as ++ polls n (runAll uartAfter m as)) =
      collect uartAfter received m as

/-- The step is a read of RBR. -/
def ReadsRbr (m : Machine I8250) (a : UartStep) : Prop :=
  a = .access (.read 0x3F8) ∧ m.dev.Reachable

/-- A read of RBR finds one byte at most. -/
def TakesLast (m : Machine I8250) (a : UartStep) : Prop :=
  ReadsRbr m a → m.dev.rxFifo.length ≤ 1

/-! ### What a step does to the receiver -/

/-- The two states have the same receiver. -/
def I8250.SameReceiver (x y : I8250) : Prop := y.rxFifo = x.rxFifo ∧ y.lsr = x.lsr

instance : IsPreorder I8250 I8250.SameReceiver where
  refl _ := ⟨rfl, rfl⟩
  trans _ _ _ h h' := ⟨h'.1.trans h.1, h'.2.trans h.2⟩

/-- A program leaves the receiver as it is. -/
def KeepsReceiver {α : Type} (p : M I8250 α) : Prop := RelatesDev I8250.SameReceiver p

theorem keepsReceiver_updateTtySettings : KeepsReceiver (runLocal i8250UpdateTtySettings) := by
  refine RelatesDev.own fun x => ?_
  unfold i8250UpdateTtySettings
  split
  · exact ⟨rfl, rfl⟩
  · split_ifs <;> exact ⟨rfl, rfl⟩

theorem keepsReceiver_thrIrq : KeepsReceiver i8250ThrIrq := by
  intro m
  obtain ⟨iir, hdev⟩ := dev_thrIrq m
  rw [hdev]
  exact ⟨rfl, rfl⟩

theorem keepsReceiver_thrWrite (value : Byte) : KeepsReceiver (i8250ThrWrite value) :=
  RelatesDev.bind .getDev fun _ => .ite
    (.bind (.modify fun _ => ⟨rfl, rfl⟩) fun _ => keepsReceiver_updateTtySettings)
    (.bind (.modify fun _ => ⟨rfl, rfl⟩) fun _ => keepsReceiver_thrIrq)

theorem keepsReceiver_ierWrite (value : Byte) : KeepsReceiver (i8250IerWrite value) :=
  RelatesDev.bind .getDev fun _ => .ite
    (.bind (.modify fun _ => ⟨rfl, rfl⟩) fun _ => keepsReceiver_updateTtySettings)
    (.bind (.modify fun _ => ⟨rfl, rfl⟩) fun _ => keepsReceiver_thrIrq)

/-- No write of a register reaches the receiver. -/
theorem keepsReceiver_write (port : Word) (value : Byte) :
    KeepsReceiver (i8250RegisterWrite port value) := by
  refine RelatesDev.bind .getDev fun _ => .ite ?_ (.pure _)
  split
  case h_1 => exact keepsReceiver_thrWrite value
  case h_2 => exact keepsReceiver_ierWrite value
  case h_3 => exact RelatesDev.bind (.modify fun _ => ⟨rfl, rfl⟩) fun _ =>
      keepsReceiver_updateTtySettings
  case h_4 => exact RelatesDev.modify fun _ => ⟨rfl, rfl⟩
  case h_5 => exact RelatesDev.modify fun _ => ⟨rfl, rfl⟩
  case h_6 => exact RelatesDev.pure _

/-- Of the registers, only RBR reaches the receiver. -/
theorem keepsReceiver_register {port : Word} {x : I8250} (h : port = 0x3F8 → ¬x.dlab = false) :
    x.SameReceiver (i8250Register port x).2 := by
  unfold i8250Register
  split
  case h_1 =>
    rw [if_pos (Bool.not_eq_false _ ▸ h rfl)]
    exact ⟨rfl, rfl⟩
  case h_3 =>
    unfold i8250IirRead
    dsimp only
    split_ifs <;> exact ⟨rfl, rfl⟩
  all_goals exact ⟨rfl, rfl⟩

/-- A read of a register that is not RBR leaves the receiver alone. -/
theorem keepsReceiver_read {m : Machine I8250} {port : Word}
    (h : ¬ReadsRbr m (.access (.read port))) :
    m.dev.SameReceiver (outcome (i8250RegisterRead port) m).2.dev := by
  show m.dev.SameReceiver (if _ then _ else _ : Byte × I8250 × List String).2.1
  split
  case isFalse => exact ⟨rfl, rfl⟩
  case isTrue hselect =>
    refine keepsReceiver_register fun hport hdlab => h ⟨by rw [hport], hselect, hdlab⟩

theorem sameReceiver_transmit (x : I8250) : x.SameReceiver (i8250Transmit x) := by
  unfold i8250Transmit i8250TxFifoRead
  cases x.txFifo.pop.1 <;> exact ⟨rfl, rfl⟩

/-- A byte that arrives is queued, and reported. -/
theorem execute_some (byte : Byte) (m : Machine I8250) :
    (outcome (i8250Execute (some byte)) m).2.dev.rxFifo = m.dev.rxFifo.push byte ∧
      (outcome (i8250Execute (some byte)) m).2.dev.lsr = m.dev.lsr ||| i8250LsrDataReady := by
  -- the interrupt that follows the two assignments
  have hirq : KeepsReceiver (do
      if (← getDev).ier.getLsbD i8250IerRbr then
        modifyDev fun x => { x with iir := i8250IirRbr }
        fe2010Irq fe2010IrqCom1) :=
    RelatesDev.bind .getDev fun _ =>
      .ite (.bind (.modify fun _ => ⟨rfl, rfl⟩) fun _ => .irq _) (.pure _)
  have hreceive := hirq { m with
    dev := { m.dev with
      rxFifo := m.dev.rxFifo.push byte
      lsr := m.dev.lsr ||| i8250LsrDataReady } }
  exact trans_of I8250.SameReceiver hreceive (sameReceiver_transmit _)

/-- A read of RBR takes the oldest byte, and clears the bit. -/
theorem read_rbr {m : Machine I8250} (h : m.dev.Reachable) :
    (outcome (i8250RegisterRead 0x3F8) m).1 = m.dev.rxFifo.pop.1.getD 0 ∧
      (outcome (i8250RegisterRead 0x3F8) m).2.dev.rxFifo = m.dev.rxFifo.pop.2 ∧
      (outcome (i8250RegisterRead 0x3F8) m).2.dev.lsr = m.dev.lsr &&& ~~~i8250LsrDataReady := by
  have hregister : i8250Register 0x3F8 m.dev = i8250RbrRead m.dev := if_neg (by simp [h.dlab])
  -- an empty ring reads as zero, and is left empty
  have hread : (i8250RbrRead m.dev).1 = m.dev.rxFifo.pop.1.getD 0 ∧
      (i8250RbrRead m.dev).2.rxFifo = m.dev.rxFifo.pop.2 ∧
      (i8250RbrRead m.dev).2.lsr = m.dev.lsr &&& ~~~i8250LsrDataReady := by
    rw [i8250RbrRead_eq]
    exact ⟨rfl, rfl, rfl⟩
  have hselected : (if mos5720UartChipSelect m.dev.mos5720 then
      ((i8250Register 0x3F8 m.dev).1, (i8250Register 0x3F8 m.dev).2, [])
      else (0, m.dev, []) : Byte × I8250 × List String) =
      ((i8250RbrRead m.dev).1, (i8250RbrRead m.dev).2, []) := by
    rw [if_pos h.selected, hregister]
  have hvalue : (outcome (i8250RegisterRead 0x3F8) m).1 = (i8250RbrRead m.dev).1 :=
    congrArg Prod.fst hselected
  have hdev : (outcome (i8250RegisterRead 0x3F8) m).2.dev = (i8250RbrRead m.dev).2 :=
    congrArg (fun r => r.2.1) hselected
  rw [hvalue, hdev]
  exact hread

/-- A step leaves the receiver alone, or a byte arrives, or RBR is read. -/
theorem receive_cases (m : Machine I8250) (a : UartStep) :
    (¬ReadsRbr m a ∧ (∀ byte, a ≠ .execute (some byte)) ∧
      m.dev.SameReceiver (uartAfter m a).dev) ∨
    (∃ byte, a = .execute (some byte) ∧
      (uartAfter m a).dev.rxFifo = m.dev.rxFifo.push byte ∧
      (uartAfter m a).dev.lsr = m.dev.lsr ||| i8250LsrDataReady) ∨
    (ReadsRbr m a ∧ (uartAfter m a).dev.rxFifo = m.dev.rxFifo.pop.2 ∧
      (uartAfter m a).dev.lsr = m.dev.lsr &&& ~~~i8250LsrDataReady) := by
  cases a with
  | execute received =>
    cases received with
    | none => exact .inl ⟨nofun, nofun, sameReceiver_transmit _⟩
    | some byte => exact .inr (.inl ⟨byte, rfl, execute_some byte m⟩)
  | mouse data =>
    have hkeeps : KeepsReceiver (mos5720MouseData data) :=
      RelatesDev.bind (.modify fun _ => ⟨rfl, rfl⟩) fun _ => .irq _
    exact .inl ⟨nofun, nofun, hkeeps m⟩
  | access a =>
    cases a with
    | other m' => exact .inl ⟨nofun, nofun, rfl, rfl⟩
    | write port value =>
      exact .inl ⟨nofun, nofun,
        relates_serialWrite (fun _ _ => ⟨rfl, rfl⟩) (keepsReceiver_write port value m)⟩
    | read port =>
      by_cases hreads : ReadsRbr m (.access (.read port))
      -- a read of another register, or of one that is not selected
      case neg =>
        exact .inl ⟨hreads, nofun,
          relates_serialRead (fun _ _ => ⟨rfl, rfl⟩) (keepsReceiver_read hreads)⟩
      case pos =>
        refine .inr (.inr ⟨hreads, ?_⟩)
        obtain ⟨hport, hreachable⟩ := hreads
        cases hport
        have hfunc : serialDevices.read 0x3F8 = some i8250RegisterRead := rfl
        show (serialDevices.after m (.read 0x3F8)).dev.rxFifo = _ ∧
          (serialDevices.after m (.read 0x3F8)).dev.lsr = _
        rw [Devices.after_read hfunc]
        exact (read_rbr hreachable).2

/-! ### One step -/

/-- The ring is one, and the bit is right. -/
structure I8250.Receiving (x : I8250) : Prop where
  wellFormed : x.rxFifo.WellFormed
  tells : x.TellsData

theorem I8250.tellsData_iff (x : I8250) :
    x.TellsData ↔ (x.DataReady ↔ 0 < x.rxFifo.length) := by
  rw [TellsData, RingBuffer.queued_ne_nil_iff]

theorem dataReady_set {x : I8250} {lsr : Byte} (h : x.lsr = lsr ||| i8250LsrDataReady) :
    x.DataReady := by
  unfold I8250.DataReady
  rw [h]
  clear h
  revert lsr
  decide

theorem dataReady_clear {x : I8250} {lsr : Byte} (h : x.lsr = lsr &&& ~~~i8250LsrDataReady) :
    ¬x.DataReady := by
  unfold I8250.DataReady
  rw [h]
  clear h
  revert lsr
  decide

theorem wellFormed_after {m : Machine I8250} (hm : m.dev.rxFifo.WellFormed) (a : UartStep) :
    (uartAfter m a).dev.rxFifo.WellFormed := by
  rcases receive_cases m a with ⟨-, -, hfifo, -⟩ | ⟨byte, -, hfifo, -⟩ | ⟨-, hfifo, -⟩
  · rw [hfifo]
    exact hm
  · rw [hfifo]
    exact hm.push byte
  · rw [hfifo]
    exact hm.pop

/-- A step keeps the bit right, unless it reads RBR and leaves a byte. -/
theorem tells_after_iff {m : Machine I8250} (hm : m.dev.Receiving) (a : UartStep) :
    (uartAfter m a).dev.TellsData ↔ TakesLast m a := by
  rcases receive_cases m a with ⟨hnot, -, hfifo, hlsr⟩ | ⟨byte, rfl, hfifo, hlsr⟩ |
    ⟨hreads, hfifo, hlsr⟩
  · have htells : (uartAfter m a).dev.TellsData := by
      unfold I8250.TellsData I8250.DataReady
      rw [hfifo, hlsr]
      exact hm.tells
    exact iff_of_true htells fun h => absurd h hnot
  -- a byte that arrives sets the bit, and is in the ring
  · have hqueued : 0 < (m.dev.rxFifo.push byte).length :=
      RingBuffer.length_push_pos hm.wellFormed (by decide) byte
    rw [I8250.tellsData_iff, hfifo]
    exact iff_of_true (iff_of_true (dataReady_set hlsr) hqueued) fun h => absurd h.1 nofun
  · -- the bit is clear now, and the ring is shorter by one
    rw [I8250.tellsData_iff, iff_false_left (dataReady_clear hlsr), hfifo,
      RingBuffer.length_pop hm.wellFormed]
    unfold TakesLast
    rw [imp_iff_right hreads]
    omega

theorem receiving_after {m : Machine I8250} {a : UartStep} (hm : m.dev.Receiving)
    (ha : TakesLast m a) : (uartAfter m a).dev.Receiving :=
  ⟨wellFormed_after hm.wellFormed a, (tells_after_iff hm a).2 ha⟩

/-- What the guest reads of the line status register. -/
theorem lsrRead_eq (m : Machine I8250) :
    lsrRead m = if mos5720UartChipSelect m.dev.mos5720 then m.dev.lsr else 0 := by
  show (if _ then _ else _ : Byte × I8250 × List String).1 = _
  split <;> rfl

theorem dataReported_iff (m : Machine I8250) :
    DataReported m ↔ mos5720UartChipSelect m.dev.mos5720 = true ∧ m.dev.DataReady := by
  unfold DataReported
  rw [lsrRead_eq]
  split
  case isTrue h => exact (and_iff_right h).symm
  case isFalse h => exact iff_of_false (fun h' => h' rfl) fun h' => h h'.1

/-- What the guest obtains from RBR depends on the UART only. -/
theorem obtained_rbr_eq (m : Machine I8250) :
    obtained m (.access (.read 0x3F8)) =
      if m.dev.DataReady ∧ m.dev.Reachable then [m.dev.rxFifo.pop.1.getD 0] else [] := by
  have hcond : DataReported m ∧ m.dev.Reachable ↔ m.dev.DataReady ∧ m.dev.Reachable := by
    refine and_congr_left fun h => ?_
    rw [dataReported_iff, and_iff_right h.selected]
  show (if DataReported m ∧ m.dev.Reachable then _ else _) = _
  rw [if_congr hcond rfl rfl]
  split
  case isTrue h => rw [(read_rbr h.2).1]
  case isFalse => rfl

/-- What a reachable RBR gives of a ring that is told. -/
theorem obtained_rbr {m : Machine I8250} (hm : m.dev.Receiving) (h : m.dev.Reachable) :
    obtained m (.access (.read 0x3F8)) ++ m.dev.rxFifo.pop.2.queued = m.dev.rxFifo.queued := by
  -- the guest reads when it is told to, which is when there is a byte
  have hready : m.dev.DataReady ∧ m.dev.Reachable ↔ 0 < m.dev.rxFifo.length := by
    rw [and_iff_left h]
    exact (I8250.tellsData_iff m.dev).1 hm.tells
  rw [obtained_rbr_eq, if_congr hready rfl rfl]
  cases hlength : m.dev.rxFifo.length with
  | zero =>
    rw [if_neg (Nat.lt_irrefl 0), RingBuffer.pop_of_empty hm.wellFormed hlength]
    rfl
  | succ n =>
    obtain ⟨byte, hbyte, hqueued⟩ := RingBuffer.queued_pop hm.wellFormed hlength
    rw [if_pos (Nat.succ_pos n), hbyte, hqueued]
    rfl

/-- Nothing is obtained but from RBR. -/
theorem obtained_of_not_reads {m : Machine I8250} {a : UartStep} (h : ¬ReadsRbr m a) :
    obtained m a = [] := by
  unfold obtained
  split
  · exact if_neg fun h' => h ⟨rfl, h'.2⟩
  · rfl

theorem received_of_not_arrives {m : Machine I8250} {a : UartStep}
    (h : ∀ byte, a ≠ .execute (some byte)) : received m a = [] := by
  unfold received
  split
  · exact absurd rfl (h _)
  · rfl

/-- What arrives is queued, and what is queued is obtained in order. -/
theorem conserves_after {m : Machine I8250} (hm : m.dev.Receiving) (a : UartStep) :
    obtained m a ++ (uartAfter m a).dev.rxFifo.queued = m.dev.rxFifo.queued ++ received m a := by
  rcases receive_cases m a with ⟨hnot, hno, hfifo, -⟩ | ⟨byte, rfl, hfifo, -⟩ |
    ⟨hreads, hfifo, -⟩
  · rw [obtained_of_not_reads hnot, received_of_not_arrives hno, hfifo, List.append_nil]
    rfl
  · have hlt := RingBuffer.length_lt hm.wellFormed
    -- a byte that finds the ring full is not received
    have hreceived : received m (.execute (some byte)) =
        if m.dev.rxFifo.length + 1 < i8250RxFifoSize then [byte] else [] := rfl
    have hnot : ¬ReadsRbr m (.execute (some byte)) := fun h => absurd h.1 nofun
    rw [obtained_of_not_reads hnot, hfifo, hreceived, List.nil_append]
    split
    case isTrue hroom => exact RingBuffer.queued_push hm.wellFormed hroom byte
    case isFalse hfull =>
      rw [RingBuffer.push_of_full hm.wellFormed (by omega), List.append_nil]
  · obtain ⟨rfl, hreachable⟩ := hreads
    rw [hfifo, obtained_rbr hm hreachable]
    exact (List.append_nil _).symm

/-! ### Polling -/

/-- A read of the line status register changes nothing. -/
theorem dev_readLsr (m : Machine I8250) : (uartAfter m (.access (.read 0x3FD))).dev = m.dev := by
  have hfunc : serialDevices.read 0x3FD = some i8250RegisterRead := rfl
  show (serialDevices.after m (.read 0x3FD)).dev = _
  rw [Devices.after_read hfunc]
  show (if _ then _ else _ : Byte × I8250 × List String).2.1 = _
  split <;> rfl

theorem dataReported_congr {m m' : Machine I8250} (h : m'.dev = m.dev) :
    DataReported m' ↔ DataReported m := by
  rw [dataReported_iff, dataReported_iff, h]

/-- As long as no byte is reported, polling obtains nothing. -/
theorem polls_of_not_reported (n : ℕ) {m : Machine I8250} (h : ¬DataReported m) :
    collect uartAfter obtained m (polls n m) = [] := by
  induction n generalizing m with
  | zero => rfl
  | succ n ih =>
    have hpoll : poll m = [.access (.read 0x3FD)] := by
      unfold poll
      rw [if_neg h]
    unfold polls
    rw [collect_append, hpoll]
    exact ih (mt (dataReported_congr (dev_readLsr m)).1 h)

/-- A byte that is reported is obtained, and the ones behind it are not. -/
theorem polls_of_reported (n : ℕ) {m : Machine I8250} (h : DataReported m)
    (hreachable : m.dev.Reachable) :
    collect uartAfter obtained m (polls (n + 1) m) = obtained m (.access (.read 0x3F8)) := by
  have hpoll : poll m = [.access (.read 0x3FD), .access (.read 0x3F8)] := by
    unfold poll
    rw [if_pos h]
  have hdev := dev_readLsr m
  rw [← hdev] at hreachable
  -- the read takes a byte, and leaves the bit clear
  have hread := receive_cases (uartAfter m (.access (.read 0x3FD))) (.access (.read 0x3F8))
  rcases hread with ⟨hnot, -⟩ | ⟨byte, hbyte, -⟩ | ⟨-, -, hlsr⟩
  · exact absurd ⟨rfl, hreachable⟩ hnot
  · cases hbyte
  have hrest : ¬DataReported
      (uartAfter (uartAfter m (.access (.read 0x3FD))) (.access (.read 0x3F8))) := by
    rw [dataReported_iff]
    exact fun h => dataReady_clear hlsr h.2
  have hsame : obtained (uartAfter m (.access (.read 0x3FD))) (.access (.read 0x3F8)) =
      obtained m (.access (.read 0x3F8)) := by
    rw [obtained_rbr_eq, obtained_rbr_eq, hdev]
  unfold polls
  rw [collect_append, hpoll, runAll_cons, runAll_cons, runAll_nil, polls_of_not_reported n hrest,
    List.append_nil, collect_cons, collect_cons, collect_nil, List.append_nil, hsame]
  rfl

/-! ### Runs -/

theorem receiving_withUart (m : Machine I8250) (fails : ℕ → Bool) :
    (m.withUart fails).dev.Receiving where
  wellFormed := ⟨Nat.zero_lt_succ _, Nat.zero_lt_succ _⟩
  tells := by
    have hwell : (m.withUart fails).dev.rxFifo.WellFormed :=
      ⟨Nat.zero_lt_succ _, Nat.zero_lt_succ _⟩
    have hempty := (RingBuffer.length_eq_zero_iff hwell).2 rfl
    rw [I8250.tellsData_iff, hempty]
    have hbit : (i8250LsrTransmitShiftEmpty ||| i8250LsrTransmitHoldingEmpty) &&&
        i8250LsrDataReady = 0 := by decide
    exact iff_of_false (fun h => h hbit) (Nat.lt_irrefl 0)

/-- The bit is right after every step exactly when each read of RBR takes the last byte. -/
theorem tellsData_along_iff {m : Machine I8250} (hm : m.dev.Receiving) (as : List UartStep) :
    Along uartAfter (fun m a => (uartAfter m a).dev.TellsData) m as ↔
      Along uartAfter TakesLast m as :=
  along_iff (I := fun m => m.dev.Receiving) (fun _ _ hm ha => receiving_after hm ha)
    (fun _ a hm => tells_after_iff hm a) hm as

/-- With the bit right, one byte at most is obtained by polling. -/
theorem obtainsAll_iff {m : Machine I8250} (hm : m.dev.Receiving) (hnew : m.dev.rxFifo.length = 0)
    {as : List UartStep} (has : Along uartAfter TakesLast m as)
    (hreachable : (runAll uartAfter m as).dev.Reachable) :
    ObtainsAll m as ↔ (runAll uartAfter m as).dev.rxFifo.length ≤ 1 := by
  have hend : (runAll uartAfter m as).dev.Receiving :=
    runAll_keeps (I := fun m => m.dev.Receiving) (fun _ _ hm ha => receiving_after hm ha) hm has
  have hconserves := collect_conserves (I := fun m => m.dev.Receiving) (g := received)
    (fun m : Machine I8250 => m.dev.rxFifo.queued) (fun _ _ hm ha => receiving_after hm ha)
    (fun _ a hm _ => conserves_after hm a) hm has
  rw [RingBuffer.queued_of_empty hnew, List.nil_append] at hconserves
  -- what is left to obtain is what is queued
  have hall : ObtainsAll m as ↔ ∀ n, (runAll uartAfter m as).dev.rxFifo.length ≤ n →
      collect uartAfter obtained (runAll uartAfter m as) (polls n (runAll uartAfter m as)) =
        (runAll uartAfter m as).dev.rxFifo.queued := by
    refine forall₂_congr fun n _ => ?_
    rw [collect_append, ← hconserves, List.append_cancel_left_eq]
  rw [hall]
  generalize runAll uartAfter m as = s at hreachable hend
  have hreported : DataReported s ↔ 0 < s.dev.rxFifo.length := by
    rw [dataReported_iff, and_iff_right hreachable.selected]
    exact (I8250.tellsData_iff s.dev).1 hend.tells
  -- only the first poll finds the bit set: a read of RBR clears it, however much is left
  cases hlength : s.dev.rxFifo.length with
  | zero =>
    refine iff_of_true (fun n _ => ?_) (Nat.zero_le 1)
    rw [polls_of_not_reported n (mt hreported.1 (by omega)), RingBuffer.queued_of_empty hlength]
  | succ k =>
    have hqueued := obtained_rbr hend hreachable
    have hrest := RingBuffer.length_pop hend.wellFormed
    rw [hlength] at hrest
    have hpos : DataReported s := hreported.2 (by omega)
    constructor
    · intro hpolls
      have hone := hpolls (k + 1) (Nat.le_refl _)
      rw [polls_of_reported k hpos hreachable, ← hqueued, List.self_eq_append_right] at hone
      have hnone := congrArg List.length hone
      rw [RingBuffer.length_queued, hrest] at hnone
      exact Nat.succ_le_succ (Nat.le_of_eq hnone)
    · intro hk n hn
      have hnone : s.dev.rxFifo.pop.2.length = 0 := by omega
      obtain ⟨j, rfl⟩ : ∃ j, n = j + 1 := ⟨n - 1, by omega⟩
      rw [polls_of_reported j hpos hreachable, ← hqueued, RingBuffer.queued_of_empty hnone,
        List.append_nil]

/-- **The data ready bit.** In every run of arrivals and register accesses, DATA_READY is set
exactly when the receive ring holds a byte, after every step, if and only if each read of RBR
finds one byte at most. And at the end of such a run a guest that reaches RBR obtains what is
left of the received bytes by polling if and only if it is one byte at most. -/
theorem data_ready_iff (m : Machine I8250) (fails : ℕ → Bool) (as : List UartStep) :
    (Along uartAfter (fun m a => (uartAfter m a).dev.TellsData) (m.withUart fails) as ↔
        Along uartAfter TakesLast (m.withUart fails) as) ∧
      (Along uartAfter TakesLast (m.withUart fails) as →
        (runAll uartAfter (m.withUart fails) as).dev.Reachable →
        (ObtainsAll (m.withUart fails) as ↔
          (runAll uartAfter (m.withUart fails) as).dev.rxFifo.length ≤ 1)) := by
  have hm := receiving_withUart m fails
  exact ⟨tellsData_along_iff hm as, fun has hreachable =>
    obtainsAll_iff hm ((RingBuffer.length_eq_zero_iff hm.wellFormed).2 rfl) has hreachable⟩

/-- The UART is selected, two bytes arrive, and the guest reads one of them. -/
def twoArrive : List UartStep :=
  [.access (.write 0x230 0x89), .execute (some 0x41), .execute (some 0x42),
    .access (.read 0x3F8)]

/-- The byte of a single arrival is obtained, the second of two is not. -/
theorem data_ready_iff_byte :
    ObtainsAll machineWithUart [.access (.write 0x230 0x89), .execute (some 0x41)] ∧
      ¬ObtainsAll machineWithUart
        [.access (.write 0x230 0x89), .execute (some 0x41), .execute (some 0x42)] := by
  have hone := (data_ready_iff (machineInit (i8250Init fun _ => false)) (fun _ => false)
    [.access (.write 0x230 0x89), .execute (some 0x41)]).2
    ⟨fun h => absurd h.1 nofun, fun h => absurd h.1 nofun, trivial⟩ ⟨rfl, rfl⟩
  have htwo := (data_ready_iff (machineInit (i8250Init fun _ => false)) (fun _ => false)
    [.access (.write 0x230 0x89), .execute (some 0x41), .execute (some 0x42)]).2
    ⟨fun h => absurd h.1 nofun, fun h => absurd h.1 nofun, fun h => absurd h.1 nofun, trivial⟩
    ⟨rfl, rfl⟩
  exact ⟨hone.2 (by decide), fun h => absurd (htwo.1 h) (by decide)⟩

/-- After the read a byte is queued, and the bit is clear. -/
theorem data_ready_lost : ¬ ∀ (m : Machine I8250) (fails : ℕ → Bool) (as : List UartStep),
    Along uartAfter (fun m a => (uartAfter m a).dev.TellsData) (m.withUart fails) as := by
  intro h
  have htells := h (machineInit (i8250Init fun _ => false)) (fun _ => false) twoArrive
  rw [tellsData_along_iff (receiving_withUart _ _)] at htells
  have hread := htells.2.2.2.1 ⟨rfl, rfl, rfl⟩
  exact absurd hread (by decide)

end Pc20iii
