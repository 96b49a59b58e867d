import Pc20iii.I8088.ModRM
import Pc20iii.I8088.Interrupt

/-!
# Operand forms and group opcodes

The shapes that the cases of `i8088_execute` share (an ALU operation on a register or
memory operand, a push, a conditional jump), and the opcodes whose operation is selected
by the ModRM byte: `i8088_opcode_80` to `i8088_opcode_ff`.

The argument `eaddr` of a form is what the local variable `eaddr` of the source holds
when it is declared: an arbitrary value that a memory operand overwrites.
-/

namespace Pc20iii

open StateProgram

variable {δ : Type}

/-! ### Building blocks -/

/-- Run an operation on the flags and keep the flags it leaves. -/
def withFlags {α : Type} (op : Flags → α × Flags) : M δ α := do
  let r := op (← getCpu).flags
  modifyCpu fun c => { c with flags := r.2 }
  return r.1

/-- The two writes of a push, after `cpu->sp -= 2`. -/
def pushWord (value : Word) : M δ Unit := do
  modifyCpu fun c => { c with sp := c.sp - 2 }
  let c ← getCpu
  memWriteBySegment c.ss c.sp (lowByte value)
  memWriteBySegment c.ss (c.sp + 1) (highByte value)

/-- The writes of a far call: IP below CS. -/
def pushFar (ip cs : Word) : M δ Unit := do
  modifyCpu fun c => { c with sp := c.sp - 4 }
  let c ← getCpu
  memWriteBySegment c.ss c.sp (lowByte ip)
  memWriteBySegment c.ss (c.sp + 1) (highByte ip)
  memWriteBySegment c.ss (c.sp + 2) (lowByte cs)
  memWriteBySegment c.ss (c.sp + 3) (highByte cs)

/-- The word at `ss:sp + offset`. -/
def stackWord (offset : Word) : M δ Word := do
  let c ← getCpu
  let lo ← memReadBySegment c.ss (c.sp + offset)
  let hi ← memReadBySegment c.ss (c.sp + offset + 1)
  return wordOf lo hi

/-- `cpu->sp += size`. -/
def addSp (size : Word) : M δ Unit := modifyCpu fun c => { c with sp := c.sp + size }

/-- The two reads of a pop, and `cpu->sp += 2`. -/
def popWord : M δ Word := do
  let value ← stackWord 0
  addSp 2
  return value

/-- `cpu->flags |= 0b1111000000000010; cpu->flags &= ~0b0000000000101000;`. -/
def reservedFlags (w : Word) : Word := (w ||| 0b1111000000000010) &&& ~~~0b0000000000101000

/-- A short jump that is taken when the condition holds after the fetch. -/
def jumpIf (condition : I8088 → Bool) : M δ Unit := do
  let disp ← fetch
  let c ← getCpu
  if condition c then
    modifyCpu fun c => { c with ip := c.ip + disp.signExtend 16 }
  else
    return

/-! ### Forms of the ALU operations -/

/-- The operations of 8 bits and of 16 bits that give a result. -/
abbrev Alu8 := Flags → Byte → Byte → Byte × Flags
abbrev Alu16 := Flags → Word → Word → Word × Flags

/-- `op r/m8, reg8`. -/
def aluRmReg8 (op : Alu8) (eaddr : Word) : M δ Unit := do
  let modrm ← fetch
  let value ← modrmGetRm8 modrm eaddr
  let reg ← modrmGetReg8 modrm
  let result ← withFlags fun f => op f value.1 reg
  modrmSetRmEaddr8 modrm value.2 result

/-- `op r/m16, reg16`. -/
def aluRmReg16 (op : Alu16) (eaddr : Word) : M δ Unit := do
  let modrm ← fetch
  let value ← modrmGetRm16 modrm eaddr
  let reg ← modrmGetReg16 modrm
  let result ← withFlags fun f => op f value.1 reg
  modrmSetRmEaddr16 modrm value.2 result

/-- `op reg8, r/m8`. -/
def aluRegRm8 (op : Alu8) : M δ Unit := do
  let modrm ← fetch
  let reg ← modrmGetReg8 modrm
  let value ← modrmGetRm8 modrm 0
  let result ← withFlags fun f => op f reg value.1
  modrmSetReg8 modrm result

/-- `op reg16, r/m16`. -/
def aluRegRm16 (op : Alu16) : M δ Unit := do
  let modrm ← fetch
  let reg ← modrmGetReg16 modrm
  let value ← modrmGetRm16 modrm 0
  let result ← withFlags fun f => op f reg value.1
  modrmSetReg16 modrm result

/-- `op al, imm8`. -/
def aluAlImm (op : Alu8) : M δ Unit := do
  let data ← fetch
  let al := (← getCpu).al
  let result ← withFlags fun f => op f al data
  modifyCpu fun c => c.setAl result

/-- `op al, imm8` as `ADD` and `ADC` write it: they pass `cpu->ax` to a parameter of eight
bits. -/
def aluAxImm8 (op : Alu8) : M δ Unit := do
  let data ← fetch
  let ax := (← getCpu).ax
  let result ← withFlags fun f => op f (lowByte ax) data
  modifyCpu fun c => c.setAl result

/-- `op ax, imm16`. -/
def aluAxImm (op : Alu16) : M δ Unit := do
  let data ← fetchWord
  let ax := (← getCpu).ax
  let result ← withFlags fun f => op f ax data
  modifyCpu fun c => { c with ax := result }

/-- `cmp r/m8, reg8`. -/
def cmpRmReg8 : M δ Unit := do
  let modrm ← fetch
  let value ← modrmGetRm8 modrm 0
  let reg ← modrmGetReg8 modrm
  modifyCpu fun c => { c with flags := i8088Cmp8 c.flags value.1 reg }

/-- `cmp r/m16, reg16`. -/
def cmpRmReg16 : M δ Unit := do
  let modrm ← fetch
  let value ← modrmGetRm16 modrm 0
  let reg ← modrmGetReg16 modrm
  modifyCpu fun c => { c with flags := i8088Cmp16 c.flags value.1 reg }

/-- `cmp reg8, r/m8`. -/
def cmpRegRm8 : M δ Unit := do
  let modrm ← fetch
  let reg ← modrmGetReg8 modrm
  let value ← modrmGetRm8 modrm 0
  modifyCpu fun c => { c with flags := i8088Cmp8 c.flags reg value.1 }

/-- `cmp reg16, r/m16`. -/
def cmpRegRm16 : M δ Unit := do
  let modrm ← fetch
  let reg ← modrmGetReg16 modrm
  let value ← modrmGetRm16 modrm 0
  modifyCpu fun c => { c with flags := i8088Cmp16 c.flags reg value.1 }

/-- `cmp al, imm8`. -/
def cmpAlImm : M δ Unit := do
  let data ← fetch
  modifyCpu fun c => { c with flags := i8088Cmp8 c.flags c.al data }

/-- `cmp ax, imm16`. -/
def cmpAxImm : M δ Unit := do
  let data ← fetchWord
  modifyCpu fun c => { c with flags := i8088Cmp16 c.flags c.ax data }

/-- `test reg8, r/m8`. -/
def testRegRm8 : M δ Unit := do
  let modrm ← fetch
  let reg ← modrmGetReg8 modrm
  let value ← modrmGetRm8 modrm 0
  modifyCpu fun c => { c with flags := (i8088And8 c.flags reg value.1).2 }

/-- `test reg16, r/m16`. -/
def testRegRm16 : M δ Unit := do
  let modrm ← fetch
  let reg ← modrmGetReg16 modrm
  let value ← modrmGetRm16 modrm 0
  modifyCpu fun c => { c with flags := (i8088And16 c.flags reg value.1).2 }

/-! ### The group opcodes -/

/-- The switch of `i8088_opcode_80`: the value to write back, and the flags. The field has
three bits, so that the default branch of the source is not reached. -/
def group80 (opcode : BitVec 3) (f : Flags) (value data : Byte) : Byte × Flags :=
  match opcode with
  | 0b000#3 => i8088Add8 f value data
  | 0b001#3 => i8088Or8 f value data
  | 0b010#3 => i8088Adc8 f value data
  | 0b011#3 => i8088Sbb8 f value data
  | 0b100#3 => i8088And8 f value data
  | 0b101#3 => i8088Sub8 f value data
  | 0b110#3 => i8088Xor8 f value data
  | _ => (value, i8088Cmp8 f value data)

/-- The switch of `i8088_opcode_81` and of `i8088_opcode_83`. -/
def group81 (opcode : BitVec 3) (f : Flags) (value data : Word) : Word × Flags :=
  match opcode with
  | 0b000#3 => i8088Add16 f value data
  | 0b001#3 => i8088Or16 f value data
  | 0b010#3 => i8088Adc16 f value data
  | 0b011#3 => i8088Sbb16 f value data
  | 0b100#3 => i8088And16 f value data
  | 0b101#3 => i8088Sub16 f value data
  | 0b110#3 => i8088Xor16 f value data
  | _ => (value, i8088Cmp16 f value data)

/-- `i8088_opcode_80`. -/
def i8088Opcode80 (eaddr : Word) : M δ Unit := do
  let modrm ← fetch
  let value ← modrmGetRm8 modrm eaddr
  let data ← fetch
  let result ← withFlags fun f => group80 (modrmReg modrm) f value.1 data
  modrmSetRmEaddr8 modrm value.2 result

/-- `i8088_opcode_81`. -/
def i8088Opcode81 (eaddr : Word) : M δ Unit := do
  let modrm ← fetch
  let value ← modrmGetRm16 modrm eaddr
  let data ← fetchWord
  let result ← withFlags fun f => group81 (modrmReg modrm) f value.1 data
  modrmSetRmEaddr16 modrm value.2 result

/-- `i8088_opcode_83`, whose immediate byte is an `int8_t`. -/
def i8088Opcode83 (eaddr : Word) : M δ Unit := do
  let modrm ← fetch
  let value ← modrmGetRm16 modrm eaddr
  let data ← fetch
  let result ← withFlags fun f => group81 (modrmReg modrm) f value.1 (data.signExtend 16)
  modrmSetRmEaddr16 modrm value.2 result

/-- The switch of `i8088_opcode_d0_d2`. -/
def groupD0D2 (opcode : BitVec 3) (value count : Byte) : M δ Byte :=
  match opcode with
  | 0b000#3 => withFlags fun f => i8088Rol8 f value count
  | 0b001#3 => withFlags fun f => i8088Ror8 f value count
  | 0b010#3 => withFlags fun f => i8088Rcl8 f value count
  | 0b011#3 => withFlags fun f => i8088Rcr8 f value count
  | 0b100#3 => withFlags fun f => i8088Shl8 f value count
  | 0b101#3 => withFlags fun f => i8088Shr8 f value count
  | 0b111#3 => withFlags fun f => i8088Sar8 f value count
  | opcode => do
    panic (.unhandledD0D2 opcode)
    return value

/-- `i8088_opcode_d0_d2`. -/
def i8088OpcodeD0D2 (eaddr : Word) (count : Byte) : M δ Unit := do
  let modrm ← fetch
  let value ← modrmGetRm8 modrm eaddr
  let result ← groupD0D2 (modrmReg modrm) value.1 count
  modrmSetRmEaddr8 modrm value.2 result

/-- The switch of `i8088_opcode_d1_d3`. -/
def groupD1D3 (opcode : BitVec 3) (value : Word) (count : Byte) : M δ Word :=
  match opcode with
  | 0b000#3 => withFlags fun f => i8088Rol16 f value count
  | 0b001#3 => withFlags fun f => i8088Ror16 f value count
  | 0b010#3 => withFlags fun f => i8088Rcl16 f value count
  | 0b011#3 => withFlags fun f => i8088Rcr16 f value count
  | 0b100#3 => withFlags fun f => i8088Shl16 f value count
  | 0b101#3 => withFlags fun f => i8088Shr16 f value count
  | 0b111#3 => withFlags fun f => i8088Sar16 f value count
  | opcode => do
    panic (.unhandledD1D3 opcode)
    return value

/-- `i8088_opcode_d1_d3`. -/
def i8088OpcodeD1D3 (eaddr : Word) (count : Byte) : M δ Unit := do
  let modrm ← fetch
  let value ← modrmGetRm16 modrm eaddr
  let result ← groupD1D3 (modrmReg modrm) value.1 count
  modrmSetRmEaddr16 modrm value.2 result

/-- `TEST` through 0xF6: the operand is written back unchanged. -/
def testRmImm8 (modrm : Byte) (value : Byte × Word) : M δ Unit := do
  let data ← fetch
  modifyCpu fun c => { c with flags := (i8088And8 c.flags data value.1).2 }
  modrmSetRmEaddr8 modrm value.2 value.1

/-- `i8088_opcode_f6`; the multiplications and divisions do not write back. -/
def i8088OpcodeF6 (eaddr : Word) : M δ Unit := do
  let modrm ← fetch
  let value ← modrmGetRm8 modrm eaddr
  match modrmReg modrm with
  | 0b000#3 => testRmImm8 modrm value
  | 0b001#3 => testRmImm8 modrm value
  | 0b010#3 => modrmSetRmEaddr8 modrm value.2 (~~~value.1)
  | 0b011#3 => do
    let result ← withFlags fun f => i8088Sub8 f 0 value.1
    modrmSetRmEaddr8 modrm value.2 result
  | 0b100#3 => modifyCpu fun c => i8088Mul8 c value.1
  | 0b101#3 => modifyCpu fun c => i8088Imul8 c value.1
  | 0b110#3 => i8088Div8 value.1
  | _ => i8088Idiv8 value.1

/-- `TEST` through 0xF7. -/
def testRmImm16 (modrm : Byte) (value : Word × Word) : M δ Unit := do
  let data ← fetchWord
  modifyCpu fun c => { c with flags := (i8088And16 c.flags data value.1).2 }
  modrmSetRmEaddr16 modrm value.2 value.1

/-- `i8088_opcode_f7`. -/
def i8088OpcodeF7 (eaddr : Word) : M δ Unit := do
  let modrm ← fetch
  let value ← modrmGetRm16 modrm eaddr
  match modrmReg modrm with
  | 0b000#3 => testRmImm16 modrm value
  | 0b001#3 => testRmImm16 modrm value
  | 0b010#3 => modrmSetRmEaddr16 modrm value.2 (~~~value.1)
  | 0b011#3 => do
    let result ← withFlags fun f => i8088Sub16 f 0 value.1
    modrmSetRmEaddr16 modrm value.2 result
  | 0b100#3 => modifyCpu fun c => i8088Mul16 c value.1
  | 0b101#3 => modifyCpu fun c => i8088Imul16 c value.1
  | 0b110#3 => i8088Div16 value.1
  | _ => i8088Idiv16 value.1

/-- The switch of `i8088_opcode_fe`. -/
def groupFe (opcode : BitVec 3) (value : Byte) : M δ Byte :=
  match opcode with
  | 0b000#3 => withFlags fun f => i8088Inc8 f value
  | 0b001#3 => withFlags fun f => i8088Dec8 f value
  | opcode => do
    panic (.unhandledFe opcode)
    return value

/-- `i8088_opcode_fe`. -/
def i8088OpcodeFe (eaddr : Word) : M δ Unit := do
  let modrm ← fetch
  let value ← modrmGetRm8 modrm eaddr
  let result ← groupFe (modrmReg modrm) value.1
  modrmSetRmEaddr8 modrm value.2 result

/-- `CALL` through 0xFF, near and far. -/
def callNear (target : Word) : M δ Unit := do
  pushWord (← getCpu).ip
  modifyCpu fun c => { c with ip := target }

def callFar (modrm : Byte) (value : Word × Word) : M δ Unit := do
  let c ← getCpu
  pushFar c.ip c.cs
  modifyCpu fun c => { c with ip := value.1 }
  let segment ← modrmGetRmEaddr16 modrm (value.2 + 2)
  modifyCpu fun c => { c with cs := segment }

/-- `JMP` far through 0xFF. -/
def jmpFar (modrm : Byte) (value : Word × Word) : M δ Unit := do
  modifyCpu fun c => { c with ip := value.1 }
  let segment ← modrmGetRmEaddr16 modrm (value.2 + 2)
  modifyCpu fun c => { c with cs := segment }

/-- `PUSH` through 0xFF. "Handle the unusual case of pushing the stack pointer." -/
def pushRm (modrm : Byte) (value : Word) : M δ Unit :=
  if modrmMod modrm = 0b11#2 ∧ modrmRm modrm = 0b100#3 then
    pushWord (value - 2)
  else
    pushWord value

/-- `i8088_opcode_ff`. -/
def i8088OpcodeFf (eaddr : Word) : M δ Unit := do
  let modrm ← fetch
  let value ← modrmGetRm16 modrm eaddr
  match modrmReg modrm with
  | 0b000#3 => do
    let result ← withFlags fun f => i8088Inc16 f value.1
    modrmSetRmEaddr16 modrm value.2 result
  | 0b001#3 => do
    let result ← withFlags fun f => i8088Dec16 f value.1
    modrmSetRmEaddr16 modrm value.2 result
  | 0b010#3 => callNear value.1
  | 0b011#3 => callFar modrm value
  | 0b100#3 => modifyCpu fun c => { c with ip := value.1 }
  | 0b101#3 => jmpFar modrm value
  | 0b110#3 => pushRm modrm value.1
  | _ => pushRm modrm value.1

end Pc20iii
