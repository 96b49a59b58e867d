import Pc20iii.Program.RingBuffer
import Pc20iii.Serial.Mos5720

/-!
# The UART

`i8250.c`: the registers at the ports 0x3F8 to 0x3FF, the two rings between them and the
TTY, and `i8250_execute`, which the main loop calls again and again. The chip is only there
while the MOS 5720 selects it, so the state of that chip is part of this one's.

The TTY is the environment. What arrives from it is an argument of `i8250Execute`; which
calls of `tcgetattr` and `tcsetattr` fail is a parameter of its state (`Tty.fails`), as
are the bytes given to `write` so far (`Tty.written`).
-/

namespace Pc20iii

open StateProgram

/-- `I8250_RX_FIFO_SIZE`. -/
def i8250RxFifoSize : ℕ := 1024

/-- `I8250_TX_FIFO_SIZE`. -/
def i8250TxFifoSize : ℕ := 1024

/-- `FE2010_IRQ_COM1`. -/
def fe2010IrqCom1 : Fin 8 := 4

/-! Interrupt enable bit offsets. -/

def i8250IerRbr : ℕ := 0
def i8250IerThr : ℕ := 1

/-! Interrupt pending byte contents. -/

def i8250IirNoPending : Byte := 1
def i8250IirThr : Byte := 2
def i8250IirRbr : Byte := 4

/-! Line status flags. -/

def i8250LsrTransmitShiftEmpty : Byte := 0x40
def i8250LsrTransmitHoldingEmpty : Byte := 0x20
def i8250LsrDataReady : Byte := 0x01

/-! Modem status flags. -/

def i8250MsrCarrierDetect : Byte := 0x80
def i8250MsrDataSetReady : Byte := 0x20
def i8250MsrClearToSend : Byte := 0x10

/-! ### State -/

/-- The parity of a line. -/
inductive Parity where
  | none
  | odd
  | even
deriving DecidableEq, Repr

/-- What `i8250_update_tty_settings` sets of the `termios` of the TTY, beside the raw mode. -/
structure TtySettings where
  /-- The baud rate, in both directions. -/
  speed : ℕ
  dataBits : ℕ
  parity : Parity
deriving DecidableEq, Repr

/-- The TTY behind `tty_fd`. -/
structure Tty where
  /-- Whether the `n`-th call of `tcgetattr` or `tcsetattr` fails. -/
  fails : ℕ → Bool
  /-- History: the number of these calls. -/
  calls : ℕ
  /-- The settings of the last `tcsetattr`. -/
  settings : Option TtySettings
  /-- History: the bytes given to `write`, newest first. -/
  written : List Byte

/-- `i8250_t`, without the pointer to the chipset. -/
structure I8250 where
  ier : Byte
  iir : Byte
  lcr : Byte
  mcr : Byte
  lsr : Byte
  msr : Byte
  scratch : Byte
  divisorLow : Byte
  divisorHigh : Byte
  tty : Tty
  rxFifo : RingBuffer i8250RxFifoSize Byte
  txFifo : RingBuffer i8250TxFifoSize Byte
  mos5720 : Mos5720

namespace I8250

/-- `divisor`, which shares its memory with the two bytes. -/
def divisor (x : I8250) : Word := wordOf x.divisorLow x.divisorHigh

/-- `lcr >> 7`: the Divisor Latch Access Bit. -/
def dlab (x : I8250) : Bool := x.lcr.getLsbD 7

end I8250

/-! ### The rings -/

/-- `i8250_rx_fifo_read`. -/
def i8250RxFifoRead (x : I8250) : Option Byte × I8250 :=
  (x.rxFifo.pop.1, { x with rxFifo := x.rxFifo.pop.2 })

/-- `i8250_rx_fifo_write`. -/
def i8250RxFifoWrite (byte : Byte) (x : I8250) : I8250 :=
  { x with rxFifo := x.rxFifo.push byte }

/-- `i8250_tx_fifo_read`. -/
def i8250TxFifoRead (x : I8250) : Option Byte × I8250 :=
  (x.txFifo.pop.1, { x with txFifo := x.txFifo.pop.2 })

/-- `i8250_tx_fifo_write`. -/
def i8250TxFifoWrite (byte : Byte) (x : I8250) : I8250 :=
  { x with txFifo := x.txFifo.push byte }

/-! ### The settings of the TTY -/

/-- The `switch` over the divisor, `none` for an invalid baud rate. -/
def i8250Speed (divisor : Word) : Option ℕ :=
  match divisor with
  | 2304#16 => some 50
  | 1047#16 => some 110
  | 384#16 => some 300
  | 192#16 => some 600
  | 96#16 => some 1200
  | 48#16 => some 2400
  | 24#16 => some 4800
  | 12#16 => some 9600
  | 6#16 => some 19200
  | 3#16 => some 38400
  | 2#16 => some 57600
  | 1#16 => some 115200
  | _ => none

/-- The two `switch`es over the line control register. -/
def i8250Settings (speed : ℕ) (lcr : Byte) : TtySettings where
  speed := speed
  dataBits := 5 + (lcr &&& 0x3).toNat
  parity :=
    match (lcr >>> 3) &&& 0x3 with
    | 0b01#8 => .odd
    | 0b11#8 => .even
    | _ => .none

/-- `i8250_update_tty_settings`. -/
def i8250UpdateTtySettings : Local I8250 Unit := fun x =>
  match i8250Speed x.divisor with
  | none => ((), x, [])
  | some speed =>
    if x.tty.fails x.tty.calls then
      ((), { x with tty := { x.tty with calls := x.tty.calls + 1 } },
        ["tcgetattr() failed with errno: %d\n"])
    else if x.tty.fails (x.tty.calls + 1) then
      ((), { x with tty := { x.tty with calls := x.tty.calls + 2 } },
        ["tcsetattr() failed with errno: %d\n"])
    else
      ((), { x with tty := { x.tty with calls := x.tty.calls + 2
                                        settings := some (i8250Settings speed x.lcr) } }, [])

/-! ### Ports -/

/-- A read of `I8250_RBR` without the Divisor Latch Access Bit. -/
def i8250RbrRead (x : I8250) : Byte × I8250 :=
  -- Clear RBR interrupt when reading RBR register.
  let x := if x.iir = i8250IirRbr then { x with iir := i8250IirNoPending } else x
  let x := { x with lsr := x.lsr &&& ~~~i8250LsrDataReady }
  match i8250RxFifoRead x with
  | (some value, x) => (value, x)
  | (none, x) => (0, x)

/-- What a read of RBR gives and leaves, from a ring with bytes or without. -/
theorem i8250RbrRead_eq (x : I8250) :
    i8250RbrRead x = (x.rxFifo.pop.1.getD 0, { x with
      iir := if x.iir = i8250IirRbr then i8250IirNoPending else x.iir
      lsr := x.lsr &&& ~~~i8250LsrDataReady
      rxFifo := x.rxFifo.pop.2 }) := by
  unfold i8250RbrRead i8250RxFifoRead
  cases hpop : x.rxFifo.pop.1 <;> split_ifs <;> dsimp only <;> rw [hpop] <;> rfl

/-- A read of `I8250_IIR`. -/
def i8250IirRead (x : I8250) : Byte × I8250 :=
  -- Clear THR interrupt when reading IIR register.
  (x.iir, if x.iir = i8250IirThr then { x with iir := i8250IirNoPending } else x)

/-- The `switch` of `i8250_register_read`. -/
def i8250Register (port : Word) (x : I8250) : Byte × I8250 :=
  match port with
  | 0x3F8#16 => if x.dlab then (x.divisorLow, x) else i8250RbrRead x
  | 0x3F9#16 => (if x.dlab then x.divisorHigh else x.ier, x)
  | 0x3FA#16 => i8250IirRead x
  | 0x3FB#16 => (x.lcr, x)
  | 0x3FC#16 => (x.mcr, x)
  | 0x3FD#16 => (x.lsr, x)
  | 0x3FE#16 => (x.msr, x)
  | 0x3FF#16 => (x.scratch, x)
  | _ => (0, x)

/-- `i8250_register_read`. -/
def i8250RegisterRead : ReadHook I8250 := fun port => runLocal fun x =>
  if mos5720UartChipSelect x.mos5720 then
    ((i8250Register port x).1, (i8250Register port x).2, [])
  else (0, x, [])

/-- The interrupt for the transmitter, if it is enabled. -/
def i8250ThrIrq : M I8250 Unit := do
  if (← getDev).ier.getLsbD i8250IerThr then
    modifyDev fun x => { x with iir := i8250IirThr }
    fe2010Irq fe2010IrqCom1

/-- A write of `I8250_THR`. -/
def i8250ThrWrite (value : Byte) : M I8250 Unit := do
  if (← getDev).dlab then
    modifyDev fun x => { x with divisorLow := value }
    runLocal i8250UpdateTtySettings
  else
    modifyDev (i8250TxFifoWrite value)
    i8250ThrIrq

/-- A write of `I8250_IER`. -/
def i8250IerWrite (value : Byte) : M I8250 Unit := do
  if (← getDev).dlab then
    modifyDev fun x => { x with divisorHigh := value }
    runLocal i8250UpdateTtySettings
  else
    modifyDev fun x => { x with ier := value }
    i8250ThrIrq

/-- A write of `I8250_LCR`. -/
def i8250LcrWrite (value : Byte) : M I8250 Unit := do
  modifyDev fun x => { x with lcr := value }
  runLocal i8250UpdateTtySettings

/-- `i8250_register_write`. -/
def i8250RegisterWrite : WriteHook I8250 := fun port value => do
  if mos5720UartChipSelect (← getDev).mos5720 then
    match port with
    | 0x3F8#16 => i8250ThrWrite value
    | 0x3F9#16 => i8250IerWrite value
    | 0x3FB#16 => i8250LcrWrite value
    | 0x3FC#16 => modifyDev fun x => { x with mcr := value }
    | 0x3FF#16 => modifyDev fun x => { x with scratch := value }
    | _ => return

/-- A function of the MOS 5720, run on the chip that the UART points to. -/
def onMos5720 {α : Type} (f : Local Mos5720 α) : Local I8250 α := fun x =>
  ((f x.mos5720).1, { x with mos5720 := (f x.mos5720).2.1 }, (f x.mos5720).2.2)

/-- The read hooks of `i8250_init`, and those of the MOS 5720. -/
def serialReads (port : Word) : Option (ReadHook I8250) :=
  if 0x3F8 ≤ port ∧ port ≤ 0x3FF then some i8250RegisterRead
  else (mos5720Reads port).map fun func p => runLocal (onMos5720 (func p))

/-- The write hooks of `i8250_init`, and those of the MOS 5720. -/
def serialWrites (port : Word) : Option (WriteHook I8250) :=
  if 0x3F8 ≤ port ∧ port ≤ 0x3FF then some i8250RegisterWrite
  else (mos5720Writes port).map fun func p v => runLocal (onMos5720 (func p v))

instance generated_i8250ThrIrq : Generated DeviceAction i8250ThrIrq := by
  unfold i8250ThrIrq
  infer_instance

instance generated_i8250ThrWrite (value : Byte) :
    Generated DeviceAction (i8250ThrWrite value) := by
  unfold i8250ThrWrite
  infer_instance

instance generated_i8250IerWrite (value : Byte) :
    Generated DeviceAction (i8250IerWrite value) := by
  unfold i8250IerWrite
  infer_instance

instance generated_i8250LcrWrite (value : Byte) :
    Generated DeviceAction (i8250LcrWrite value) := by
  unfold i8250LcrWrite
  infer_instance

instance generated_i8250RegisterWrite (port : Word) (value : Byte) :
    Generated DeviceAction (i8250RegisterWrite port value) := by
  refine .seq _ _ inferInstance fun x => ?_
  split
  · split <;> infer_instance
  · infer_instance

theorem serialReads_generated {port : Word} {func : ReadHook I8250}
    (h : serialReads port = some func) (p : Word) : Generated DeviceAction (func p) := by
  unfold serialReads at h
  split at h
  · cases h
    exact generated_runLocal _
  · obtain ⟨f, -, rfl⟩ := Option.map_eq_some_iff.1 h
    exact generated_runLocal _

theorem serialWrites_generated {port : Word} {func : WriteHook I8250}
    (h : serialWrites port = some func) (p : Word) (v : Byte) :
    Generated DeviceAction (func p v) := by
  unfold serialWrites at h
  split at h
  · cases h
    infer_instance
  · obtain ⟨f, -, rfl⟩ := Option.map_eq_some_iff.1 h
    exact generated_runLocal _

/-- The two chips claim no port of the chipset. -/
theorem serialReads_low (port : Word) (h : port < 0x100) : serialReads port = none := by
  unfold serialReads mos5720Reads
  rw [if_neg fun h' => absurd h (by bv_omega)]
  split <;> simp_all

theorem serialWrites_low (port : Word) (h : port < 0x100) : serialWrites port = none := by
  unfold serialWrites mos5720Writes
  rw [if_neg fun h' => absurd h (by bv_omega)]
  split <;> simp_all

/-- The ports of the UART and of the MOS 5720. -/
def serialDevices : Devices I8250 where
  read := serialReads
  write := serialWrites
  read_generated := serialReads_generated
  write_generated := serialWrites_generated
  read_low := serialReads_low
  write_low := serialWrites_low

section Relates

variable {R : I8250 → I8250 → Prop} [IsPreorder I8250 R]
  (hmos5720 : ∀ x (mos5720 : Mos5720), R x { x with mos5720 := mos5720 }) {m : Machine I8250}
  {port : Word}

include hmos5720

/-- What the accesses of the other chip keep, a read keeps if that of the register does. -/
theorem relates_serialRead (h : R m.dev (outcome (i8250RegisterRead port) m).2.dev) :
    R m.dev (serialDevices.after m (.read port)).dev := by
  cases hfunc : serialReads port with
  | none =>
    rw [Devices.after_read_none hfunc]
    exact refl_of R m.dev
  | some func =>
    rw [Devices.after_read hfunc]
    unfold serialReads at hfunc
    -- the register file, or a port of the other chip
    split at hfunc
    · cases hfunc
      exact h
    · obtain ⟨f, -, rfl⟩ := Option.map_eq_some_iff.1 hfunc
      exact hmos5720 m.dev _

/-- A write of a port is one of a register, or concerns the MOS5720. -/
theorem relates_serialWrite {value : Byte}
    (h : R m.dev (outcome (i8250RegisterWrite port value) m).2.dev) :
    R m.dev (serialDevices.after m (.write port value)).dev := by
  cases hfunc : serialWrites port with
  | none =>
    rw [Devices.after_write_none hfunc]
    exact refl_of R m.dev
  | some func =>
    rw [Devices.after_write hfunc]
    unfold serialWrites at hfunc
    split at hfunc
    · cases hfunc
      exact h
    · obtain ⟨f, -, rfl⟩ := Option.map_eq_some_iff.1 hfunc
      exact hmos5720 m.dev _

end Relates

/-! ### The main loop -/

/-- A byte that has arrived. -/
def i8250Receive (byte : Byte) : M I8250 Unit := do
  modifyDev (i8250RxFifoWrite byte)
  modifyDev fun x => { x with lsr := x.lsr ||| i8250LsrDataReady }
  -- Send interrupt for RBR if enabled.
  if (← getDev).ier.getLsbD i8250IerRbr then
    modifyDev fun x => { x with iir := i8250IirRbr }
    fe2010Irq fe2010IrqCom1

/-- The byte that is to be sent next, if there is one. -/
def i8250Transmit (x : I8250) : I8250 :=
  match i8250TxFifoRead x with
  | (some byte, x) => { x with tty := { x.tty with written := byte :: x.tty.written } }
  | (none, x) => x

/-- `i8250_execute`; `received` is the byte that `poll` and `read` give, if any. -/
def i8250Execute (received : Option Byte) : M I8250 Unit := do
  match received with
  | some byte => i8250Receive byte
  | none => pure ()
  modifyDev i8250Transmit

/-- `mos5720_mouse_data`. -/
def mos5720MouseData (data : Byte) : M I8250 Unit := do
  modifyDev fun x => { x with mos5720 := { x.mos5720 with mouseData := data } }
  fe2010Irq fe2010IrqMouse

/-- The state of `i8250_init` on an open TTY. -/
def i8250Init (fails : ℕ → Bool) : I8250 where
  ier := 0
  iir := i8250IirNoPending
  lcr := 0
  mcr := 0
  lsr := i8250LsrTransmitShiftEmpty ||| i8250LsrTransmitHoldingEmpty
  msr := i8250MsrCarrierDetect ||| i8250MsrDataSetReady ||| i8250MsrClearToSend
  scratch := 0
  divisorLow := 0
  divisorHigh := 0
  tty := { fails := fails, calls := 0, settings := none, written := [] }
  rxFifo := { cells := fun _ => 0, head := 0, tail := 0 }
  txFifo := { cells := fun _ => 0, head := 0, tail := 0 }
  mos5720 := mos5720Init

end Pc20iii
