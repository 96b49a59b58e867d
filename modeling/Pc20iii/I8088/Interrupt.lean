import Pc20iii.Machine.Mem
import Pc20iii.I8088.Alu

/-!
# Interrupt entry

`i8088_interrupt` pushes IP, CS and FLAGS and jumps through the interrupt vector;
`i8088_irq` is the hardware request that enters an interrupt when IF is set. The
divisions are here as well, since they raise the divide error.
-/

namespace Pc20iii

open StateProgram

variable {δ : Type}

/-- `INT_DIVIDE_ERROR`. -/
def intDivideError : Byte := 0

/-- `INT_1_BYTE`. -/
def int1Byte : Byte := 3

/-- `INT_OVERFLOW`. -/
def intOverflow : Byte := 4

/-- `(int_no * 4) + k`. -/
def vectorAddress (intNo : Byte) (k : BitVec 32) : BitVec 32 := intNo.setWidth 32 * 4 + k

/-- A read of byte `k` of the vector of an interrupt. -/
def readVector (intNo : Byte) (k : Fin 4) : M δ Byte :=
  memRead .cpu (vectorAddress intNo (BitVec.ofNat 32 k))

/-- The first half of `i8088_interrupt`: IP, CS and FLAGS go to the stack. -/
def pushFrame : M δ Unit := do
  modifyCpu fun c => { c with sp := c.sp - 6 }
  let c ← getCpu
  memWriteBySegment c.ss c.sp (lowByte c.ip)
  memWriteBySegment c.ss (c.sp + 1) (highByte c.ip)
  memWriteBySegment c.ss (c.sp + 2) (lowByte c.cs)
  memWriteBySegment c.ss (c.sp + 3) (highByte c.cs)
  memWriteBySegment c.ss (c.sp + 4) (lowByte c.flags.toWord)
  memWriteBySegment c.ss (c.sp + 5) (highByte c.flags.toWord)

/-- The second half of `i8088_interrupt`: the jump through the vector. -/
def jumpVector (intNo : Byte) : M δ Unit := do
  let ipLow ← readVector intNo 0
  let ipHigh ← readVector intNo 1
  modifyCpu fun c => { c with ip := wordOf ipLow ipHigh }
  let csLow ← readVector intNo 2
  let csHigh ← readVector intNo 3
  modifyCpu fun c => { c with cs := wordOf csLow csHigh }
  modifyFlags fun f => { f with t := false }

/-- `i8088_interrupt`. -/
def i8088Interrupt (intNo : Byte) : M δ Unit := do
  record (.interrupt intNo)
  pushFrame
  jumpVector intNo

/-- `i8088_reset`. -/
def i8088Reset : M δ Unit :=
  modifyCpu fun c =>
    { c with flags := Flags.ofWord 0, ip := 0, cs := 0xFFFF, ds := 0, ss := 0, es := 0 }

/-- `irq_no + 8`. -/
def irqInt (irqNo : Fin 8) : Byte := BitVec.ofNat 8 (irqNo + 8)

/-- `i8088_irq`; the result says that the request stays pending. -/
def i8088Irq (irqNo : Fin 8) : M δ Bool := do
  modifyCpu fun c => { c with halt := false }
  if (← getCpu).flags.i = false then
    return true
  else
    record (.irqEntry irqNo)
    i8088Interrupt (irqInt irqNo)
    modifyFlags fun f => { f with i := false }
    return false

/-! ### The effect of an interrupt -/

theorem vectorAddress_lt (intNo : Byte) (k : Fin 4) :
    ¬ vectorAddress intNo (BitVec.ofNat 32 k) ≥ memSizeMax := by
  have hn := intNo.isLt
  have hk := k.isLt
  have hmax : memSizeMax.toNat = 2 ^ 20 := rfl
  have h4 : (4 : BitVec 32).toNat = 4 := rfl
  rw [ge_iff_le, BitVec.le_def, hmax, vectorAddress, BitVec.toNat_add, BitVec.toNat_mul,
    BitVec.toNat_setWidth, BitVec.toNat_ofNat, h4]
  omega

/-- Byte `k` of the vector of an interrupt. -/
def Mem.vector (mem : Mem) (intNo : Byte) (k : Fin 4) : Byte :=
  mem.m ((vectorAddress intNo (BitVec.ofNat 32 k)).setWidth 20)

@[simp] theorem outcome_readVector (intNo : Byte) (k : Fin 4) (m : Machine δ) :
    outcome (readVector intNo k) m = (m.mem.vector intNo k, m) := by
  rw [readVector, memRead, if_neg (vectorAddress_lt intNo k)]
  simp [Mem.vector]

/-- The memory after the push of IP, CS and FLAGS. -/
def Machine.frame (m : Machine δ) : Mem :=
  let c := m.cpu
  let sp := c.sp - 6
  ((m.mem.storeWord c.ss sp c.ip).storeWord c.ss (sp + 2) c.cs).storeWord c.ss (sp + 4)
    c.flags.toWord

@[simp] theorem frame_readonly (m : Machine δ) : m.frame.readonly = m.mem.readonly := by
  simp [Machine.frame]

@[simp] theorem outcome_pushFrame (m : Machine δ) :
    outcome pushFrame m =
      ((), { m with mem := m.frame, cpu := { m.cpu with sp := m.cpu.sp - 6 } }) := by
  simp [pushFrame, Machine.frame, Mem.storeWord, BitVec.add_assoc]

/-- The machine after `i8088_interrupt`. -/
def Machine.interrupted (m : Machine δ) (intNo : Byte) : Machine δ :=
  { m with
    mem := m.frame
    cpu := { m.cpu with
      sp := m.cpu.sp - 6
      ip := wordOf (m.frame.vector intNo 0) (m.frame.vector intNo 1)
      cs := wordOf (m.frame.vector intNo 2) (m.frame.vector intNo 3)
      flags := { m.cpu.flags with t := false } }
    log := .interrupt intNo :: m.log }

@[simp] theorem outcome_i8088Interrupt (intNo : Byte) (m : Machine δ) :
    outcome (i8088Interrupt intNo) m = ((), m.interrupted intNo) := by
  simp [i8088Interrupt, jumpVector, Machine.interrupted, Machine.frame]

/-- The machine that the hardware interrupt of a line interrupts: `HLT` has ended, and the
history has the entry. -/
def Machine.accepting (m : Machine δ) (irqNo : Fin 8) : Machine δ :=
  { m with cpu := { m.cpu with halt := false }, log := .irqEntry irqNo :: m.log }

/-- The machine after an accepted hardware interrupt. -/
def Machine.irqEntered (m : Machine δ) (irqNo : Fin 8) : Machine δ :=
  let m := (m.accepting irqNo).interrupted (irqInt irqNo)
  { m with cpu := { m.cpu with flags := { m.cpu.flags with i := false } } }

@[simp] theorem irqEntered_log (m : Machine δ) (irqNo : Fin 8) :
    (m.irqEntered irqNo).log = .interrupt (irqInt irqNo) :: .irqEntry irqNo :: m.log := rfl

@[simp] theorem irqEntered_fe2010 (m : Machine δ) (irqNo : Fin 8) :
    (m.irqEntered irqNo).fe2010 = m.fe2010 := rfl

@[simp] theorem irqEntered_i (m : Machine δ) (irqNo : Fin 8) :
    (m.irqEntered irqNo).cpu.flags.i = false := rfl

@[simp] theorem irqEntered_t (m : Machine δ) (irqNo : Fin 8) :
    (m.irqEntered irqNo).cpu.flags.t = false := rfl

/-- With IF clear the request stays pending, and `HLT` ends. -/
theorem outcome_i8088Irq_of_clear {m : Machine δ} (h : m.cpu.flags.i = false) (irqNo : Fin 8) :
    outcome (i8088Irq irqNo) m = (true, { m with cpu := { m.cpu with halt := false } }) := by
  simp [i8088Irq, h]

/-- With IF set the interrupt is entered. -/
theorem outcome_i8088Irq_of_set {m : Machine δ} (h : m.cpu.flags.i = true) (irqNo : Fin 8) :
    outcome (i8088Irq irqNo) m = (false, m.irqEntered irqNo) := by
  simp [i8088Irq, h, Machine.irqEntered, Machine.accepting]

/-! ### Division -/

/-- `i8088_div_8`. -/
def i8088Div8 (input : Byte) : M δ Unit := do
  let c ← getCpu
  if input = 0 then
    i8088Interrupt intDivideError
  else
    let quotient := c.ax / input.setWidth 16
    let remainder := c.ax % input.setWidth 16
    if quotient > 0xFF then
      i8088Interrupt intDivideError
    else
      modifyCpu fun c => (c.setAl (lowByte quotient)).setAh (lowByte remainder)

/-- `(dx << 16) + ax`. -/
def I8088.dxax (c : I8088) : BitVec 32 := (c.dx.setWidth 32 <<< 16) + c.ax.setWidth 32

/-- `i8088_div_16`. -/
def i8088Div16 (input : Word) : M δ Unit := do
  let c ← getCpu
  if input = 0 then
    i8088Interrupt intDivideError
  else
    let quotient := c.dxax / input.setWidth 32
    let remainder := c.dxax % input.setWidth 32
    if quotient > 0xFFFF then
      i8088Interrupt intDivideError
    else
      modifyCpu fun c => { c with ax := quotient.setWidth 16, dx := remainder.setWidth 16 }

/-- `i8088_idiv_8`. The operands are promoted to `int`, and the quotient is stored in an
`int16_t`. -/
def i8088Idiv8 (input : Byte) : M δ Unit := do
  let c ← getCpu
  if input = 0 then
    i8088Interrupt intDivideError
  else if c.ax = 0x8000 then
    i8088Interrupt intDivideError
  else
    let quotient : Word := ((c.ax.signExtend 32).sdiv (input.signExtend 32)).setWidth 16
    let remainder : Byte := ((c.ax.signExtend 32).srem (input.signExtend 32)).setWidth 8
    if quotient.toInt > 127 ∨ quotient.toInt ≤ -128 then
      i8088Interrupt intDivideError
    else
      modifyCpu fun c => (c.setAl (lowByte quotient)).setAh remainder

/-- `i8088_idiv_16`. -/
def i8088Idiv16 (input : Word) : M δ Unit := do
  let c ← getCpu
  if input = 0 then
    i8088Interrupt intDivideError
  else if c.dx = 0x8000 ∧ c.ax = 0 then
    i8088Interrupt intDivideError
  else
    let quotient : BitVec 32 := c.dxax.sdiv (input.signExtend 32)
    let remainder : Word := (c.dxax.srem (input.signExtend 32)).setWidth 16
    if quotient.toInt > 32767 ∨ quotient.toInt ≤ -32768 then
      i8088Interrupt intDivideError
    else
      modifyCpu fun c => { c with ax := quotient.setWidth 16, dx := remainder }

end Pc20iii
