import Pc20iii.I8088.Interrupt

/-!
# The FE2010 chipset

`fe2010.c`: the interrupt controller, the DMA controller, the timers and the keyboard
registers, as functions on the machine.

`fe2010_irq` is called by the devices, by the timer and again by the pending loop of
`fe2010_execute`; the history marks the calls of the loop (`Event.irqRetry`). What a request
keeps, wherever it comes from, is shown by the three cases of `fe2010Irq_cases`.
-/

namespace Pc20iii

open StateProgram

variable {δ : Type}

/-! ### Interrupt requests -/

/-- `fe2010_irq`. The mask test shifts the whole mask register. -/
def fe2010Irq (irqNo : Fin 8) : M δ Unit := do
  let m ← get
  record (.irqCall irqNo m.fe2010.irqMask m.cpu.flags.i)
  if m.fe2010.irqMask >>> irqNo.val ≠ 0 then
    let pending ← i8088Irq irqNo
    modifyFe2010 fun f => { f with irqPending := Function.update f.irqPending irqNo pending }

/-- `FE2010_IRQ_TIMER`. -/
def fe2010IrqTimer : Fin 8 := 0

/-- `FE2010_IRQ_KEYBOARD`. -/
def fe2010IrqKeyboard : Fin 8 := 1

/-- One pass of the loop over the pending requests in `fe2010_execute`. -/
def pendingPass (irqNo : Fin 8) : M δ Unit := do
  if (← get).fe2010.irqPending irqNo then
    record (.irqRetry irqNo)
    fe2010Irq irqNo

/-- "Check for pending IRQs." -/
def pendingLoop : M δ Unit := [0, 1, 2, 3, 4, 5, 6, 7].forM pendingPass

section Requests

variable {m : Machine δ} (irqNo : Fin 8)

/-- The machine in which `fe2010_irq` has been called. -/
def Machine.called (m : Machine δ) (irqNo : Fin 8) : Machine δ :=
  { m with log := .irqCall irqNo m.fe2010.irqMask m.cpu.flags.i :: m.log }

/-- The mask test of `fe2010_irq`. -/
def Machine.passes (m : Machine δ) (irqNo : Fin 8) : Bool :=
  m.fe2010.irqMask >>> irqNo.val != 0

/-- The assignment to `irq_pending[irq_no]`. -/
def Machine.setPending (m : Machine δ) (irqNo : Fin 8) (pending : Bool) : Machine δ :=
  { m with fe2010 := { m.fe2010 with
      irqPending := Function.update m.fe2010.irqPending irqNo pending } }

@[simp] theorem called_log :
    (m.called irqNo).log = .irqCall irqNo m.fe2010.irqMask m.cpu.flags.i :: m.log := rfl

@[simp] theorem called_fe2010 : (m.called irqNo).fe2010 = m.fe2010 := rfl

@[simp] theorem called_cpu : (m.called irqNo).cpu = m.cpu := rfl

@[simp] theorem called_mem : (m.called irqNo).mem = m.mem := rfl

@[simp] theorem setPending_log (b : Bool) : (m.setPending irqNo b).log = m.log := rfl

@[simp] theorem setPending_cpu (b : Bool) : (m.setPending irqNo b).cpu = m.cpu := rfl

@[simp] theorem setPending_mem (b : Bool) : (m.setPending irqNo b).mem = m.mem := rfl

@[simp] theorem setPending_self (b : Bool) :
    (m.setPending irqNo b).fe2010.irqPending irqNo = b := Function.update_self ..

theorem setPending_of_ne {n : Fin 8} (h : n ≠ irqNo) (b : Bool) :
    (m.setPending irqNo b).fe2010.irqPending n = m.fe2010.irqPending n :=
  Function.update_of_ne h ..

/-- The two branches of `fe2010_irq`. -/
theorem outcome_fe2010Irq (m : Machine δ) :
    outcome (fe2010Irq irqNo) m =
      if m.passes irqNo then
        let r := outcome (i8088Irq irqNo) (m.called irqNo)
        ((), r.2.setPending irqNo r.1)
      else
        ((), m.called irqNo) := by
  simp only [fe2010Irq, outcome_bind, outcome_get, outcome_record, outcome_ite, outcome_pure,
    outcome_modifyFe2010, Machine.passes, bne_iff_ne, ne_eq]
  rfl

/-- A request that fails the mask test does nothing. -/
theorem outcome_fe2010Irq_of_fail (h : m.passes irqNo = false) :
    outcome (fe2010Irq irqNo) m = ((), m.called irqNo) := by
  rw [outcome_fe2010Irq, if_neg (by simp [h])]

/-- A request that passes the mask test with IF clear becomes pending. -/
theorem outcome_fe2010Irq_of_clear (h : m.passes irqNo = true) (hi : m.cpu.flags.i = false) :
    outcome (fe2010Irq irqNo) m =
      ((), { m.called irqNo with cpu := { m.cpu with halt := false } }.setPending irqNo true) := by
  have hi' : (m.called irqNo).cpu.flags.i = false := hi
  rw [outcome_fe2010Irq, if_pos h, outcome_i8088Irq_of_clear hi']
  rfl

/-- A request that passes the mask test with IF set enters its interrupt. -/
theorem outcome_fe2010Irq_of_set (h : m.passes irqNo = true) (hi : m.cpu.flags.i = true) :
    outcome (fe2010Irq irqNo) m =
      ((), ((m.called irqNo).irqEntered irqNo).setPending irqNo false) := by
  have hi' : (m.called irqNo).cpu.flags.i = true := hi
  rw [outcome_fe2010Irq, if_pos h, outcome_i8088Irq_of_set hi']

/-- **What a request does.** It is refused by the mask test, left pending while IF is clear, or
entered. -/
theorem fe2010Irq_cases (m : Machine δ) :
    (m.passes irqNo = false ∧ outcome (fe2010Irq irqNo) m = ((), m.called irqNo)) ∨
    (m.passes irqNo = true ∧ m.cpu.flags.i = false ∧ outcome (fe2010Irq irqNo) m =
      ((), { m.called irqNo with cpu := { m.cpu with halt := false } }.setPending irqNo true)) ∨
    (m.passes irqNo = true ∧ m.cpu.flags.i = true ∧ outcome (fe2010Irq irqNo) m =
      ((), ((m.called irqNo).irqEntered irqNo).setPending irqNo false)) := by
  cases hp : m.passes irqNo with
  | false => exact .inl ⟨rfl, outcome_fe2010Irq_of_fail irqNo hp⟩
  | true =>
    cases hi : m.cpu.flags.i with
    | false => exact .inr (.inl ⟨rfl, rfl, outcome_fe2010Irq_of_clear irqNo hp hi⟩)
    | true => exact .inr (.inr ⟨rfl, rfl, outcome_fe2010Irq_of_set irqNo hp hi⟩)

end Requests

/-! ### Timers -/

/-- The assignment of one timer. -/
def Fe2010.setPit (f : Fe2010) (i : Fin 3) (p : Pit) : Fe2010 :=
  { f with pit := Function.update f.pit i p }

/-- One decrement of timer `i`. -/
def pitTick (i : Fin 3) : M δ Unit := do
  modifyFe2010 fun f => f.setPit i { f.pit i with counter := (f.pit i).counter - 1 }
  if ((← get).fe2010.pit i).counter = 0 then
    if i = 0 then
      fe2010Irq fe2010IrqTimer
    else if i = 2 then
      modifyFe2010 fun f => { f with timer2Output := false }

/-- "Operate PIT timers.": three rounds over the three timers. -/
def pitLoop : M δ Unit := [0, 1, 2, 0, 1, 2, 0, 1, 2].forM pitTick

/-- `fe2010_execute`. -/
def fe2010Execute : M δ Unit := do
  modifyFe2010 fun f => { f with cycle := f.cycle + 1 }
  if (← get).fe2010.cycle > 6 then
    modifyFe2010 fun f => { f with cycle := 0 }
    pendingLoop
    pitLoop

/-! ### DMA -/

/-- What a device does on its own: a value, its next state, and the texts of its panics. -/
abbrev Local (δ α : Type) := δ → α × δ × List String

/-- Run a device on its own state. -/
def runLocal {α : Type} (f : Local δ α) : M δ α := do
  let m ← get
  let r := f m.dev
  modify fun m =>
    { m with dev := r.2.1, log := (r.2.2.map fun text => .panic (.device text)) ++ m.log }
  return r.1

/-- The address a DMA channel starts at. -/
def Fe2010.dmaAddress (f : Fe2010) (channelNo : Fin 4) : BitVec 32 :=
  (f.dmaReg (Fin.ofNat 8 (channelNo * 2))).setWidth 32 + ((f.dmaPage channelNo).setWidth 32 <<< 16)

/-- The count of a DMA channel. -/
def Fe2010.dmaCount (f : Fe2010) (channelNo : Fin 4) : Word :=
  f.dmaReg (Fin.ofNat 8 (channelNo * 2 + 1))

/-- `(dma_mode >> 2) & 0x3`. -/
def Fe2010.dmaTransfer (f : Fe2010) (channelNo : Fin 4) : Byte :=
  (f.dmaMode channelNo >>> 2) &&& 0x3

/-- `DMA_MODE_WRITE`. -/
def dmaModeWrite : Byte := 1

/-- `DMA_MODE_READ`. -/
def dmaModeRead : Byte := 2

/-- `fe2010_dma_write`: from the device to memory. -/
def fe2010DmaWrite (channelNo : Fin 4) (callback : Local δ Byte) : M δ Unit := do
  let f := (← get).fe2010
  if f.dmaTransfer channelNo = dmaModeWrite then
    (List.range ((f.dmaCount channelNo).toNat + 1)).forM fun i => do
      let value ← runLocal callback
      memWrite .dma (f.dmaAddress channelNo + BitVec.ofNat 32 i) value

/-- `fe2010_dma_read`: from memory to the device. -/
def fe2010DmaRead (channelNo : Fin 4) (callback : Byte → Local δ Unit) : M δ Unit := do
  let f := (← get).fe2010
  if f.dmaTransfer channelNo = dmaModeRead then
    (List.range ((f.dmaCount channelNo).toNat + 1)).forM fun i => do
      let value ← memRead .dma (f.dmaAddress channelNo + BitVec.ofNat 32 i)
      runLocal (callback value)

/-! ### Keyboard -/

/-- `fe2010_keyboard_press`. -/
def fe2010KeyboardPress (scancode : Byte) : M δ Unit := do
  if (← get).fe2010.ctrl.getLsbD 6 then
    modifyFe2010 fun f => { f with scancode := scancode }
    fe2010Irq fe2010IrqKeyboard

/-! ### Port registers

The functions behind the ports take the port, as the port table passes it. -/

def fe2010ScancodeRead (_ : Word) : M δ Byte := do
  return (← get).fe2010.scancode

def fe2010CtrlRead (_ : Word) : M δ Byte := do
  return (← get).fe2010.ctrl

def fe2010CtrlWrite (_ : Word) (value : Byte) : M δ Unit := do
  (if value.getLsbD 7 then
    modifyFe2010 fun f => { f with scancode := 0 }
  else
    pure ())
  -- a flank from 0 to 1 on the keyboard clock answers with the BIOS check scancode
  (if (← get).fe2010.ctrl.getLsbD 6 = false ∧ value.getLsbD 6 = true then do
    modifyFe2010 fun f => { f with scancode := 0xAA }
    fe2010Irq fe2010IrqKeyboard
  else
    pure ())
  modifyFe2010 fun f => { f with ctrl := value }

def fe2010SwitchRead (_ : Word) : M δ Byte := do
  let f := (← get).fe2010
  let value := if f.ctrl.getLsbD 2 then f.switches &&& 0xF else f.switches >>> 4
  let timer2 : Byte := (BitVec.ofBool f.timer2Output).setWidth 8
  return value ||| (timer2 <<< 4) ||| (timer2 <<< 5)

def fe2010ConfRead (_ : Word) : M δ Byte := do
  return (← get).fe2010.conf

def fe2010ConfWrite (_ : Word) (value : Byte) : M δ Unit :=
  modifyFe2010 fun f => { f with conf := value }

/-- `port & 7`. -/
def dmaIndex (port : Word) : Fin 8 := Fin.ofNat 8 port.toNat

def i8237DmaRegRead (port : Word) : M δ Byte := do
  let f := (← get).fe2010
  if f.dmaFlipFlop then
    modifyFe2010 fun f => { f with dmaFlipFlop := false }
    return highByte (f.dmaReg (dmaIndex port))
  else
    modifyFe2010 fun f => { f with dmaFlipFlop := true }
    return lowByte (f.dmaReg (dmaIndex port))

def i8237DmaRegWrite (port : Word) (value : Byte) : M δ Unit := do
  let i := dmaIndex port
  if (← get).fe2010.dmaFlipFlop then
    modifyFe2010 fun f => { f with
      dmaFlipFlop := false
      dmaReg := Function.update f.dmaReg i (f.dmaReg i + value.setWidth 16 * 0x100) }
  else
    modifyFe2010 fun f => { f with
      dmaFlipFlop := true
      dmaReg := Function.update f.dmaReg i (value.setWidth 16) }

def i8237DmaStatusRead (_ : Word) : M δ Byte := do
  let f := (← get).fe2010
  let running (i : Fin 8) : Byte := (BitVec.ofBool (f.dmaReg i != 0xFFFF)).setWidth 8
  return running 1 ||| (running 3 <<< 1) ||| (running 5 <<< 2) ||| (running 7 <<< 3)

def i8237DmaModeWrite (_ : Word) (value : Byte) : M δ Unit :=
  modifyFe2010 fun f => { f with
    dmaMode := Function.update f.dmaMode (Fin.ofNat 4 value.toNat) (value &&& 0xFC) }

def i8237DmaPageWrite (port : Word) (value : Byte) : M δ Unit :=
  let setPage (i : Fin 4) : M δ Unit :=
    modifyFe2010 fun f => { f with dmaPage := Function.update f.dmaPage i value }
  if port = 0x87 then setPage 0
  else if port = 0x83 then setPage 1
  else if port = 0x81 then setPage 2
  else if port = 0x82 then setPage 3
  else pure ()

/-- "Just return zero to satisfy tests." -/
def i8259IrqServiceRead (_ : Word) : M δ Byte := return 0

def i8259IrqMaskRead (_ : Word) : M δ Byte := do
  return (← get).fe2010.irqMask

def i8259IrqMaskWrite (_ : Word) (value : Byte) : M δ Unit :=
  modifyFe2010 fun f => { f with irqMask := value }

def i8259NmiMaskWrite (_ : Word) (value : Byte) : M δ Unit :=
  modifyFe2010 fun f => { f with nmiMask := value }

/-- The field `rl` of the control byte. -/
def Pit.rl (p : Pit) : BitVec 2 := p.control.extractLsb' 4 2

/-- The field `mode` of the control byte. -/
def Pit.mode (p : Pit) : BitVec 3 := p.control.extractLsb' 1 3

/-- The timer behind a counter port. -/
def pitSelect (port : Word) : Option (Fin 3) :=
  if port = 0x40 then some 0
  else if port = 0x41 then some 1
  else if port = 0x42 then some 2
  else none

/-- The value and the next state of a read of a counter port. -/
def Pit.counterRead (p : Pit) : Byte × Pit :=
  match p.rl with
  | 0b00#2 =>
    if p.flipFlop then (highByte p.latch, { p with flipFlop := false })
    else (lowByte p.latch, { p with flipFlop := true })
  | 0b01#2 => (lowByte p.counter, p)
  | 0b10#2 => (highByte p.counter, p)
  | _ =>
    if p.flipFlop then (highByte p.counter, { p with flipFlop := false })
    else (lowByte p.counter, { p with flipFlop := true })

def i8253PitCounterRead (port : Word) : M δ Byte := do
  match pitSelect port with
  | none => return 0
  | some i =>
    let r := ((← get).fe2010.pit i).counterRead
    modifyFe2010 fun f => f.setPit i r.2
    return r.1

/-- The next state of a write of a counter port whose `rl` field is not zero. -/
def Pit.counterWrite (p : Pit) (value : Byte) : Pit :=
  match p.rl with
  | 0b01#2 => { p with counter := wordOf value 0 }
  | 0b10#2 => { p with counter := wordOf 0 value }
  | _ =>
    if p.flipFlop then
      { p with flipFlop := false, counter := wordOf (lowByte p.counter) value }
    else
      { p with flipFlop := true, counter := wordOf value (highByte p.counter) }

def i8253PitCounterWrite (port : Word) (value : Byte) : M δ Unit := do
  match pitSelect port with
  | none => return
  | some i =>
    if ((← get).fe2010.pit i).rl = 0 then
      panic .pitLatchedLoad
    else
      modifyFe2010 fun f => f.setPit i ((f.pit i).counterWrite value)

/-- The assignment of the control byte, which a latch command follows by the latch. -/
def Pit.controlWrite (p : Pit) (value : Byte) : Pit :=
  let p := { p with control := value &&& 0x3F }
  if p.rl = 0 then { p with latch := p.counter } else p

def i8253PitControlWrite (_ : Word) (value : Byte) : M δ Unit := do
  let select := value >>> 6
  if select > 2 then
    panic (.illegalPit select)
  else
    let i := Fin.ofNat 3 select.toNat
    modifyFe2010 fun f => f.setPit i ((f.pit i).controlWrite value)
    if i = 2 then
      -- `PIT_MODE_INT`
      modifyFe2010 fun f => { f with timer2Output := (f.pit 2).mode == 0 }

/-- `fe2010_init`: the registers after the `memset` and the DIP switches. -/
def fe2010Init : Fe2010 where
  ctrl := 0
  conf := 0
  scancode := 0
  switches := 0b01011101
  timer2Output := false
  dmaReg := fun _ => 0
  dmaFlipFlop := false
  dmaPage := fun _ => 0
  dmaMode := fun _ => 0
  irqMask := 0
  nmiMask := 0
  irqPending := fun _ => false
  pit := fun _ => { control := 0, counter := 0, latch := 0, flipFlop := false }
  cycle := 0

end Pc20iii
