import Pc20iii.Program.BoundedQueue
import Pc20iii.Serial.Receive

/-!
# The rings of the UART as queues

`rx_fifo` and `tx_fifo` with the four functions that work on them. Each ring has 1024 cells, of
which one stays free, and refines a bounded queue of 1023 bytes (`fifos_refine`), in every
interleaving of the calls.

No other function of the UART touches the rings: what a run of the machine does to them is what
the calls do that its steps make (`rxFifo_uartAfter`, `txFifo_uartAfter`), so that they stand for
queues in every state of the machine (`represents_rxFifo`, `represents_txFifo`).
-/

namespace Pc20iii

open StateProgram

/-- A call of one of the four functions. -/
inductive FifoStep where
  | rxRead
  | rxWrite (byte : Byte)
  | txRead
  | txWrite (byte : Byte)
deriving DecidableEq, Repr

/-- The UART after a call. -/
def fifoAfter (x : I8250) : FifoStep → I8250
  | .rxRead => (i8250RxFifoRead x).2
  | .rxWrite byte => i8250RxFifoWrite byte x
  | .txRead => (i8250TxFifoRead x).2
  | .txWrite byte => i8250TxFifoWrite byte x

/-- What a call of `i8250_rx_fifo_read` returns. -/
def rxAnswers (x : I8250) : FifoStep → List (Option Byte)
  | .rxRead => [(i8250RxFifoRead x).1]
  | _ => []

/-- What a call of `i8250_tx_fifo_read` returns. -/
def txAnswers (x : I8250) : FifoStep → List (Option Byte)
  | .txRead => [(i8250TxFifoRead x).1]
  | _ => []

/-- The operations of a call on the queue of received bytes. -/
def rxOps (_ : I8250) : FifoStep → List (QueueOp Byte)
  | .rxRead => [.pop]
  | .rxWrite byte => [.push byte]
  | _ => []

/-- The operations of a call on the queue of bytes to be sent. -/
def txOps (_ : I8250) : FifoStep → List (QueueOp Byte)
  | .txRead => [.pop]
  | .txWrite byte => [.push byte]
  | _ => []

/-- A ring has been a queue of `capacity` bytes: it stands for the queue after the operations,
the answers have been those of the queue, the bytes in them and behind them those in the ring
are the ones that the queue has accepted, and a byte for a full ring changes nothing. -/
structure IsFifo (capacity : ℕ) {size : ℕ} (ring : RingBuffer size Byte)
    (ops : List (QueueOp Byte)) (answers : List (Option Byte)) : Prop where
  represents : Represents ring (runAll BoundedQueue.after (BoundedQueue.empty capacity) ops)
  answered : answers = collect BoundedQueue.after BoundedQueue.answers
    (BoundedQueue.empty capacity) ops
  inOrder : answers.reduceOption ++ ring.queued = collect BoundedQueue.after BoundedQueue.accepted
    (BoundedQueue.empty capacity) ops
  full : ring.queued.length = capacity → ∀ byte, ring.push byte = ring

/-- A ring that does what the queue's operations say is a queue. -/
theorem isFifo_of_ring {capacity size : ℕ} {ring : RingBuffer size Byte}
    (h : Represents ring (BoundedQueue.empty capacity)) (ops : List (QueueOp Byte)) :
    IsFifo capacity (runAll RingBuffer.after ring ops) ops
      (collect RingBuffer.after RingBuffer.answers ring ops) := by
  have hend := h.runAll ops
  have hanswers := h.answers ops
  refine ⟨hend, hanswers, ?_, fun hfull byte => ?_⟩
  · rw [hanswers, ← BoundedQueue.popped_eq, hend.queued]
    exact BoundedQueue.conserves (BoundedQueue.empty capacity) ops
  · rw [RingBuffer.length_queued] at hfull
    exact RingBuffer.push_of_full hend.wellFormed (by rw [hfull, hend.size_eq]) byte

/-- The rings of `i8250_init` are empty. -/
theorem represents_empty {capacity size : ℕ} {ring : RingBuffer size Byte}
    (hsize : size = capacity + 1) (hhead : ring.head = 0) (htail : ring.tail = 0) :
    Represents ring (BoundedQueue.empty capacity) := by
  have hwell : ring.WellFormed := by
    constructor
    · rw [hhead, hsize]
      exact Nat.succ_pos capacity
    · rw [htail, hsize]
      exact Nat.succ_pos capacity
  exact ⟨hsize, hwell, RingBuffer.queued_of_empty ((RingBuffer.length_eq_zero_iff hwell).2
    (htail.trans hhead.symm))⟩

/-- **The rings are queues.** In every interleaving of calls of the four functions, from
`i8250_init` on, each of the two rings is a first-in-first-out queue of 1023 bytes. -/
theorem fifos_refine (fails : ℕ → Bool) (steps : List FifoStep) :
    IsFifo 1023 (runAll fifoAfter (i8250Init fails) steps).rxFifo
        (collect fifoAfter rxOps (i8250Init fails) steps)
        (collect fifoAfter rxAnswers (i8250Init fails) steps) ∧
      IsFifo 1023 (runAll fifoAfter (i8250Init fails) steps).txFifo
        (collect fifoAfter txOps (i8250Init fails) steps)
        (collect fifoAfter txAnswers (i8250Init fails) steps) := by
  -- each ring sees the steps on itself only
  have hrx : ∀ x s, (fifoAfter x s).rxFifo = runAll RingBuffer.after x.rxFifo (rxOps x s) := by
    intro x s
    cases s <;> rfl
  have htx : ∀ x s, (fifoAfter x s).txFifo = runAll RingBuffer.after x.txFifo (txOps x s) := by
    intro x s
    cases s <;> rfl
  have hrxAnswers : ∀ x s,
      rxAnswers x s = collect RingBuffer.after RingBuffer.answers x.rxFifo (rxOps x s) := by
    intro x s
    cases s <;> rfl
  have htxAnswers : ∀ x s,
      txAnswers x s = collect RingBuffer.after RingBuffer.answers x.txFifo (txOps x s) := by
    intro x s
    cases s <;> rfl
  rw [runAll_component I8250.rxFifo hrx, runAll_component I8250.txFifo htx,
    collect_component I8250.rxFifo hrx hrxAnswers, collect_component I8250.txFifo htx htxAnswers]
  exact ⟨isFifo_of_ring (represents_empty rfl rfl rfl) _,
    isFifo_of_ring (represents_empty rfl rfl rfl) _⟩

/-! ### The rings of the machine -/

/-- The calls of a step that work on the receive ring, as operations of its queue. -/
def uartRxOps (m : Machine I8250) : UartStep → List (QueueOp Byte)
  | .execute (some byte) => [.push byte]
  | .access (.read port) => if port = 0x3F8 ∧ m.dev.Reachable then [.pop] else []
  | _ => []

/-- The calls of a step that work on the transmit ring. -/
def uartTxOps (m : Machine I8250) : UartStep → List (QueueOp Byte)
  | .execute _ => [.pop]
  | a => if mos5720UartChipSelect m.dev.mos5720 then (thrWritten m a).map .push else []

/-- A step does nothing else to the receive ring. -/
theorem rxFifo_uartAfter (m : Machine I8250) (a : UartStep) :
    (uartAfter m a).dev.rxFifo = runAll RingBuffer.after m.dev.rxFifo (uartRxOps m a) := by
  rcases receive_cases m a with ⟨hnot, hno, hfifo, -⟩ | ⟨byte, rfl, hfifo, -⟩ |
    ⟨⟨rfl, hreachable⟩, hfifo, -⟩
  -- neither an arrival nor a read of RBR
  · have hops : uartRxOps m a = [] := by
      unfold uartRxOps
      split
      case h_1 => exact absurd rfl (hno _)
      case h_2 port => exact if_neg fun h => hnot ⟨by rw [h.1], h.2⟩
      case h_3 => rfl
    rw [hops, hfifo]
    rfl
  · exact hfifo
  · have hops : uartRxOps m (.access (.read 0x3F8)) = [.pop] := if_pos ⟨rfl, hreachable⟩
    rw [hops, hfifo]
    rfl

/-- A step does nothing else to the transmit ring. -/
theorem txFifo_uartAfter (m : Machine I8250) (a : UartStep) :
    (uartAfter m a).dev.txFifo = runAll RingBuffer.after m.dev.txFifo (uartTxOps m a) := by
  have htransmit : ∀ x : I8250, (i8250Transmit x).txFifo = x.txFifo.pop.2 := by
    intro x
    unfold i8250Transmit i8250TxFifoRead
    cases x.txFifo.pop.1 <;> rfl
  -- the loop takes a byte out, a write of THR puts one in, and nothing else touches the ring
  rcases uart_after_cases m a with ⟨received, rfl, x, hsame, hx⟩ | ⟨hno, hthr, hsame⟩ |
    ⟨value, hthr, h⟩
  · rw [hx, htransmit, hsame.txFifo]
    rfl
  · have hops : uartTxOps m a = [] := by
      unfold uartTxOps
      split
      case h_1 received => exact absurd rfl (hno received)
      case h_2 => rw [hthr, List.map_nil, ite_self]
    rw [hops, hsame.txFifo]
    rfl
  · have hops : uartTxOps m a =
        if mos5720UartChipSelect m.dev.mos5720 then [.push value] else [] := by
      unfold uartTxOps
      split
      case h_1 => cases hthr
      case h_2 => rw [hthr, List.map_singleton]
    rw [hops]
    split at h
    case isTrue hselect =>
      obtain ⟨iir, hdev⟩ := h
      rw [if_pos hselect, hdev]
      rfl
    case isFalse hselect =>
      rw [if_neg hselect, h]
      rfl

/-- In every state of the machine the receive ring stands for a queue. -/
theorem represents_rxFifo (m : Machine I8250) (fails : ℕ → Bool) (as : List UartStep) :
    Represents (runAll uartAfter (m.withUart fails) as).dev.rxFifo
      (runAll BoundedQueue.after (BoundedQueue.empty 1023)
        (collect uartAfter uartRxOps (m.withUart fails) as)) := by
  have hrun := runAll_component (fun m : Machine I8250 => m.dev.rxFifo) rxFifo_uartAfter
    (m.withUart fails) as
  rw [hrun]
  exact (represents_empty rfl rfl rfl).runAll _

/-- And the transmit ring for another. -/
theorem represents_txFifo (m : Machine I8250) (fails : ℕ → Bool) (as : List UartStep) :
    Represents (runAll uartAfter (m.withUart fails) as).dev.txFifo
      (runAll BoundedQueue.after (BoundedQueue.empty 1023)
        (collect uartAfter uartTxOps (m.withUart fails) as)) := by
  have hrun := runAll_component (fun m : Machine I8250 => m.dev.txFifo) txFifo_uartAfter
    (m.withUart fails) as
  rw [hrun]
  exact (represents_empty rfl rfl rfl).runAll _

end Pc20iii
