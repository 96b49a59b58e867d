import Pc20iii.I8088.Group
import Pc20iii.I8088.String
import Pc20iii.Fe2010.Ports

/-!
# Instruction execution

`i8088_execute`: the prefix loop, the switch over the opcode, and one call of the
function. The switch is divided by the upper four bits of the opcode, one function for
each row of sixteen; its cases are in the order of the source, and an opcode without a
case has `none`.

The function runs on fuel, which the prefix loop and the repeated string instructions
use; the result says whether the call returned within it.
-/

namespace Pc20iii

open StateProgram

variable {δ : Type}

/-! ### The switch, row by row -/

/-- `ADD`, `OR`. -/
def opcode0 (eaddr : Word) (opcode : Byte) : Option (M δ Unit) :=
  match opcode with
  | 0x00#8 => some (aluRmReg8 i8088Add8 eaddr)
  | 0x01#8 => some (aluRmReg16 i8088Add16 eaddr)
  | 0x02#8 => some (aluRegRm8 i8088Add8)
  | 0x03#8 => some (aluRegRm16 i8088Add16)
  | 0x04#8 => some (aluAxImm8 i8088Add8)
  | 0x05#8 => some (aluAxImm i8088Add16)
  | 0x06#8 => some do pushWord (← getCpu).es
  | 0x07#8 => some do
    let value ← popWord
    modifyCpu fun c => { c with es := value }
  | 0x08#8 => some (aluRmReg8 i8088Or8 eaddr)
  | 0x09#8 => some (aluRmReg16 i8088Or16 eaddr)
  | 0x0A#8 => some (aluRegRm8 i8088Or8)
  | 0x0B#8 => some (aluRegRm16 i8088Or16)
  | 0x0C#8 => some (aluAlImm i8088Or8)
  | 0x0D#8 => some (aluAxImm i8088Or16)
  | 0x0E#8 => some do pushWord (← getCpu).cs
  | 0x0F#8 => some do
    let value ← popWord
    modifyCpu fun c => { c with cs := value }
  | _ => none

/-- `ADC`, `SBB`. -/
def opcode1 (eaddr : Word) (opcode : Byte) : Option (M δ Unit) :=
  match opcode with
  | 0x10#8 => some (aluRmReg8 i8088Adc8 eaddr)
  | 0x11#8 => some (aluRmReg16 i8088Adc16 eaddr)
  | 0x12#8 => some (aluRegRm8 i8088Adc8)
  | 0x13#8 => some (aluRegRm16 i8088Adc16)
  | 0x14#8 => some (aluAxImm8 i8088Adc8)
  | 0x15#8 => some (aluAxImm i8088Adc16)
  | 0x16#8 => some do pushWord (← getCpu).ss
  | 0x17#8 => some do
    let value ← popWord
    modifyCpu fun c => { c with ss := value }
  | 0x18#8 => some (aluRmReg8 i8088Sbb8 eaddr)
  | 0x19#8 => some (aluRmReg16 i8088Sbb16 eaddr)
  | 0x1A#8 => some (aluRegRm8 i8088Sbb8)
  | 0x1B#8 => some (aluRegRm16 i8088Sbb16)
  | 0x1C#8 => some (aluAlImm i8088Sbb8)
  | 0x1D#8 => some (aluAxImm i8088Sbb16)
  | 0x1E#8 => some do pushWord (← getCpu).ds
  | 0x1F#8 => some do
    let value ← popWord
    modifyCpu fun c => { c with ds := value }
  | _ => none

/-- `AND`, `SUB`. The cases 0x26 and 0x2E go back to the prefix loop. -/
def opcode2 (eaddr : Word) (opcode : Byte) : Option (M δ Unit) :=
  match opcode with
  | 0x20#8 => some (aluRmReg8 i8088And8 eaddr)
  | 0x21#8 => some (aluRmReg16 i8088And16 eaddr)
  | 0x22#8 => some (aluRegRm8 i8088And8)
  | 0x23#8 => some (aluRegRm16 i8088And16)
  | 0x24#8 => some (aluAlImm i8088And8)
  | 0x25#8 => some (aluAxImm i8088And16)
  | 0x27#8 => some (modifyCpu i8088Daa)
  | 0x28#8 => some (aluRmReg8 i8088Sub8 eaddr)
  | 0x29#8 => some (aluRmReg16 i8088Sub16 eaddr)
  | 0x2A#8 => some (aluRegRm8 i8088Sub8)
  | 0x2B#8 => some (aluRegRm16 i8088Sub16)
  | 0x2C#8 => some (aluAlImm i8088Sub8)
  | 0x2D#8 => some (aluAxImm i8088Sub16)
  | 0x2F#8 => some (modifyCpu i8088Das)
  | _ => none

/-- `XOR`, `CMP`. The cases 0x36 and 0x3E go back to the prefix loop. -/
def opcode3 (eaddr : Word) (opcode : Byte) : Option (M δ Unit) :=
  match opcode with
  | 0x30#8 => some (aluRmReg8 i8088Xor8 eaddr)
  | 0x31#8 => some (aluRmReg16 i8088Xor16 eaddr)
  | 0x32#8 => some (aluRegRm8 i8088Xor8)
  | 0x33#8 => some (aluRegRm16 i8088Xor16)
  | 0x34#8 => some (aluAlImm i8088Xor8)
  | 0x35#8 => some (aluAxImm i8088Xor16)
  | 0x37#8 => some (modifyCpu i8088Aaa)
  | 0x38#8 => some cmpRmReg8
  | 0x39#8 => some cmpRmReg16
  | 0x3A#8 => some cmpRegRm8
  | 0x3B#8 => some cmpRegRm16
  | 0x3C#8 => some cmpAlImm
  | 0x3D#8 => some cmpAxImm
  | 0x3F#8 => some (modifyCpu i8088Aas)
  | _ => none

/-- `INC` and `DEC` of a word register: `get` and `set` are its accesses. -/
def stepRegister (op : Flags → Word → Word × Flags) (get : I8088 → Word)
    (set : I8088 → Word → I8088) : M δ Unit := do
  let value := get (← getCpu)
  let result ← withFlags fun f => op f value
  modifyCpu fun c => set c result

/-- `INC`, `DEC`. -/
def opcode4 (opcode : Byte) : Option (M δ Unit) :=
  match opcode with
  | 0x40#8 => some (stepRegister i8088Inc16 (·.ax) fun c v => { c with ax := v })
  | 0x41#8 => some (stepRegister i8088Inc16 (·.cx) fun c v => { c with cx := v })
  | 0x42#8 => some (stepRegister i8088Inc16 (·.dx) fun c v => { c with dx := v })
  | 0x43#8 => some (stepRegister i8088Inc16 (·.bx) fun c v => { c with bx := v })
  | 0x44#8 => some (stepRegister i8088Inc16 (·.sp) fun c v => { c with sp := v })
  | 0x45#8 => some (stepRegister i8088Inc16 (·.bp) fun c v => { c with bp := v })
  | 0x46#8 => some (stepRegister i8088Inc16 (·.si) fun c v => { c with si := v })
  | 0x47#8 => some (stepRegister i8088Inc16 (·.di) fun c v => { c with di := v })
  | 0x48#8 => some (stepRegister i8088Dec16 (·.ax) fun c v => { c with ax := v })
  | 0x49#8 => some (stepRegister i8088Dec16 (·.cx) fun c v => { c with cx := v })
  | 0x4A#8 => some (stepRegister i8088Dec16 (·.dx) fun c v => { c with dx := v })
  | 0x4B#8 => some (stepRegister i8088Dec16 (·.bx) fun c v => { c with bx := v })
  | 0x4C#8 => some (stepRegister i8088Dec16 (·.sp) fun c v => { c with sp := v })
  | 0x4D#8 => some (stepRegister i8088Dec16 (·.bp) fun c v => { c with bp := v })
  | 0x4E#8 => some (stepRegister i8088Dec16 (·.si) fun c v => { c with si := v })
  | 0x4F#8 => some (stepRegister i8088Dec16 (·.di) fun c v => { c with di := v })
  | _ => none

/-- `PUSH SP` pushes the stack pointer after its decrement. -/
def pushSp : M δ Unit := do
  pushWord ((← getCpu).sp - 2)

/-- `PUSH`, `POP`. -/
def opcode5 (opcode : Byte) : Option (M δ Unit) :=
  match opcode with
  | 0x50#8 => some do pushWord (← getCpu).ax
  | 0x51#8 => some do pushWord (← getCpu).cx
  | 0x52#8 => some do pushWord (← getCpu).dx
  | 0x53#8 => some do pushWord (← getCpu).bx
  | 0x54#8 => some pushSp
  | 0x55#8 => some do pushWord (← getCpu).bp
  | 0x56#8 => some do pushWord (← getCpu).si
  | 0x57#8 => some do pushWord (← getCpu).di
  | 0x58#8 => some do
    let value ← popWord
    modifyCpu fun c => { c with ax := value }
  | 0x59#8 => some do
    let value ← popWord
    modifyCpu fun c => { c with cx := value }
  | 0x5A#8 => some do
    let value ← popWord
    modifyCpu fun c => { c with dx := value }
  | 0x5B#8 => some do
    let value ← popWord
    modifyCpu fun c => { c with bx := value }
  | 0x5C#8 => some do
    let value ← stackWord 0
    modifyCpu fun c => { c with sp := value }
  | 0x5D#8 => some do
    let value ← popWord
    modifyCpu fun c => { c with bp := value }
  | 0x5E#8 => some do
    let value ← popWord
    modifyCpu fun c => { c with si := value }
  | 0x5F#8 => some do
    let value ← popWord
    modifyCpu fun c => { c with di := value }
  | _ => none

/-- Conditional jumps. -/
def opcode7 (opcode : Byte) : Option (M δ Unit) :=
  match opcode with
  | 0x70#8 => some (jumpIf fun c => c.flags.o)
  | 0x71#8 => some (jumpIf fun c => !c.flags.o)
  | 0x72#8 => some (jumpIf fun c => c.flags.c)
  | 0x73#8 => some (jumpIf fun c => !c.flags.c)
  | 0x74#8 => some (jumpIf fun c => c.flags.z)
  | 0x75#8 => some (jumpIf fun c => !c.flags.z)
  | 0x76#8 => some (jumpIf fun c => c.flags.c || c.flags.z)
  | 0x77#8 => some (jumpIf fun c => !c.flags.c && !c.flags.z)
  | 0x78#8 => some (jumpIf fun c => c.flags.s)
  | 0x79#8 => some (jumpIf fun c => !c.flags.s)
  | 0x7A#8 => some (jumpIf fun c => c.flags.p)
  | 0x7B#8 => some (jumpIf fun c => !c.flags.p)
  | 0x7C#8 => some (jumpIf fun c => c.flags.s != c.flags.o)
  | 0x7D#8 => some (jumpIf fun c => c.flags.s == c.flags.o)
  | 0x7E#8 => some (jumpIf fun c => c.flags.z || c.flags.s != c.flags.o)
  | 0x7F#8 => some (jumpIf fun c => !c.flags.z && c.flags.s == c.flags.o)
  | _ => none

/-- `XCHG reg8, r/m8`. -/
def xchgRegRm8 (eaddr : Word) : M δ Unit := do
  let modrm ← fetch
  let data ← modrmGetReg8 modrm
  let value ← modrmGetRm8 modrm eaddr
  modrmSetReg8 modrm value.1
  modrmSetRmEaddr8 modrm value.2 data

/-- `XCHG reg16, r/m16`. -/
def xchgRegRm16 (eaddr : Word) : M δ Unit := do
  let modrm ← fetch
  let data ← modrmGetReg16 modrm
  let value ← modrmGetRm16 modrm eaddr
  modrmSetReg16 modrm value.1
  modrmSetRmEaddr16 modrm value.2 data

/-- `POP r/m16`. -/
def popRm (eaddr : Word) : M δ Unit := do
  let modrm ← fetch
  let value ← modrmGetRm16 modrm eaddr
  let data ← popWord
  modrmSetRmEaddr16 modrm value.2 data

/-- Groups 80 to 83, `TEST`, `XCHG`, `MOV`, `LEA`, `POP`. -/
def opcode8 (eaddr : Word) (opcode : Byte) : Option (M δ Unit) :=
  match opcode with
  | 0x80#8 => some (i8088Opcode80 eaddr)
  | 0x81#8 => some (i8088Opcode81 eaddr)
  | 0x82#8 => some (i8088Opcode80 eaddr)
  | 0x83#8 => some (i8088Opcode83 eaddr)
  | 0x84#8 => some testRegRm8
  | 0x85#8 => some testRegRm16
  | 0x86#8 => some (xchgRegRm8 eaddr)
  | 0x87#8 => some (xchgRegRm16 eaddr)
  | 0x88#8 => some do
    let modrm ← fetch
    let value ← modrmGetReg8 modrm
    modrmSetRm8 modrm value
  | 0x89#8 => some do
    let modrm ← fetch
    let value ← modrmGetReg16 modrm
    modrmSetRm16 modrm value
  | 0x8A#8 => some do
    let modrm ← fetch
    let value ← modrmGetRm8 modrm 0
    modrmSetReg8 modrm value.1
  | 0x8B#8 => some do
    let modrm ← fetch
    let value ← modrmGetRm16 modrm 0
    modrmSetReg16 modrm value.1
  | 0x8C#8 => some do
    let modrm ← fetch
    let value ← modrmGetRegSeg modrm
    modrmSetRm16 modrm value
  | 0x8D#8 => some do
    let modrm ← fetch
    let value ← modrmGetRm16 modrm eaddr
    modrmSetReg16 modrm value.2
  | 0x8E#8 => some do
    let modrm ← fetch
    let value ← modrmGetRm16 modrm 0
    modrmSetRegSeg modrm value.1
  | 0x8F#8 => some (popRm eaddr)
  | _ => none

/-- `CALL FAR` with an immediate address. -/
def callFarImm : M δ Unit := do
  let offset ← fetchWord
  let segment ← fetchWord
  let c ← getCpu
  pushFar c.ip c.cs
  modifyCpu fun c => { c with ip := offset, cs := segment }

/-- `SAHF`. -/
def sahf (c : I8088) : I8088 :=
  { c with flags := { c.flags with
      s := c.ah.getLsbD 7
      z := c.ah.getLsbD 6
      a := c.ah.getLsbD 4
      p := c.ah.getLsbD 2
      c := c.ah.getLsbD 0 } }

/-- `LAHF`. -/
def lahf (c : I8088) : I8088 :=
  let f := c.flags
  c.setAh (BitVec.ofBoolListLE [f.c, true, f.p, false, f.a, false, f.z, f.s])

/-- `XCHG` with AX, and the conversions of the accumulator. -/
def opcode9 (opcode : Byte) : Option (M δ Unit) :=
  match opcode with
  | 0x90#8 => some (return)
  | 0x91#8 => some (modifyCpu fun c => { c with ax := c.cx, cx := c.ax })
  | 0x92#8 => some (modifyCpu fun c => { c with ax := c.dx, dx := c.ax })
  | 0x93#8 => some (modifyCpu fun c => { c with ax := c.bx, bx := c.ax })
  | 0x94#8 => some (modifyCpu fun c => { c with ax := c.sp, sp := c.ax })
  | 0x95#8 => some (modifyCpu fun c => { c with ax := c.bp, bp := c.ax })
  | 0x96#8 => some (modifyCpu fun c => { c with ax := c.si, si := c.ax })
  | 0x97#8 => some (modifyCpu fun c => { c with ax := c.di, di := c.ax })
  | 0x98#8 => some (modifyCpu fun c => c.setAh (if c.al < 0x80 then 0 else 0xFF))
  | 0x99#8 => some (modifyCpu fun c => { c with dx := if c.ax < 0x8000 then 0 else 0xFFFF })
  | 0x9A#8 => some callFarImm
  | 0x9B#8 => some (panic .wait)
  | 0x9C#8 => some do pushWord (← getCpu).flags.toWord
  | 0x9D#8 => some do
    let value ← popWord
    modifyCpu fun c => { c with flags := Flags.ofWord (reservedFlags value) }
  | 0x9E#8 => some (modifyCpu sahf)
  | 0x9F#8 => some (modifyCpu lahf)
  | _ => none

/-- `MOV` between the accumulator and memory, string instructions, `TEST`. -/
def opcodeA (fuel : ℕ) (opcode : Byte) : Option (M δ Bool) :=
  match opcode with
  | 0xA0#8 => some do
    let eaddr ← fetchWord
    let value ← eaddrRead8 (← getCpu).ds eaddr
    modifyCpu fun c => c.setAl value.1
    return true
  | 0xA1#8 => some do
    let eaddr ← fetchWord
    let value ← eaddrRead16 (← getCpu).ds eaddr
    modifyCpu fun c => { c with ax := value.1 }
    return true
  | 0xA2#8 => some do
    let eaddr ← fetchWord
    let c ← getCpu
    eaddrWrite8 c.ds eaddr c.al
    return true
  | 0xA3#8 => some do
    let eaddr ← fetchWord
    let c ← getCpu
    eaddrWrite16 c.ds eaddr c.ax
    return true
  | 0xA4#8 => some (repeated i8088Movsb fuel)
  | 0xA5#8 => some (repeated i8088Movsw fuel)
  | 0xA6#8 => some (repeatedZ i8088Cmpsb fuel)
  | 0xA7#8 => some (repeatedZ i8088Cmpsw fuel)
  | 0xA8#8 => some do
    let data ← fetch
    modifyCpu fun c => { c with flags := (i8088And8 c.flags c.al data).2 }
    return true
  | 0xA9#8 => some do
    let data ← fetchWord
    modifyCpu fun c => { c with flags := (i8088And16 c.flags c.ax data).2 }
    return true
  | 0xAA#8 => some (repeated i8088Stosb fuel)
  | 0xAB#8 => some (repeated i8088Stosw fuel)
  | 0xAC#8 => some (repeated i8088Lodsb fuel)
  | 0xAD#8 => some (repeated i8088Lodsw fuel)
  | 0xAE#8 => some (repeatedZ i8088Scasb fuel)
  | 0xAF#8 => some (repeatedZ i8088Scasw fuel)
  | _ => none

/-- `MOV reg8, imm8`. -/
def movImm8 (set : I8088 → Byte → I8088) : M δ Unit := do
  let data ← fetch
  modifyCpu fun c => set c data

/-- `MOV reg16, imm16`. -/
def movImm16 (set : I8088 → Word → I8088) : M δ Unit := do
  let data ← fetchWord
  modifyCpu fun c => set c data

/-- `MOV` of an immediate value. -/
def opcodeB (opcode : Byte) : Option (M δ Unit) :=
  match opcode with
  | 0xB0#8 => some (movImm8 I8088.setAl)
  | 0xB1#8 => some (movImm8 I8088.setCl)
  | 0xB2#8 => some (movImm8 I8088.setDl)
  | 0xB3#8 => some (movImm8 I8088.setBl)
  | 0xB4#8 => some (movImm8 I8088.setAh)
  | 0xB5#8 => some (movImm8 I8088.setCh)
  | 0xB6#8 => some (movImm8 I8088.setDh)
  | 0xB7#8 => some (movImm8 I8088.setBh)
  | 0xB8#8 => some (movImm16 fun c v => { c with ax := v })
  | 0xB9#8 => some (movImm16 fun c v => { c with cx := v })
  | 0xBA#8 => some (movImm16 fun c v => { c with dx := v })
  | 0xBB#8 => some (movImm16 fun c v => { c with bx := v })
  | 0xBC#8 => some (movImm16 fun c v => { c with sp := v })
  | 0xBD#8 => some (movImm16 fun c v => { c with bp := v })
  | 0xBE#8 => some (movImm16 fun c v => { c with si := v })
  | 0xBF#8 => some (movImm16 fun c v => { c with di := v })
  | _ => none

/-- The reads of a near return. -/
def popIp : M δ Unit := do
  let ip ← popWord
  modifyCpu fun c => { c with ip := ip }

/-- The reads of a far return. -/
def popFar : M δ Unit := do
  let ip ← stackWord 0
  let cs ← stackWord 2
  modifyCpu fun c => { c with ip := ip, cs := cs }
  addSp 4

/-- `IRET`. -/
def iret : M δ Unit := do
  let ip ← stackWord 0
  let cs ← stackWord 2
  let flags ← stackWord 4
  modifyCpu fun c => { c with ip := ip, cs := cs, flags := Flags.ofWord (reservedFlags flags) }
  addSp 6

/-- `LES` and `LDS`; `set` assigns the segment register. -/
def loadFar (set : I8088 → Word → I8088) (eaddr : Word) : M δ Unit := do
  let modrm ← fetch
  let value ← modrmGetRm16 modrm eaddr
  modrmSetReg16 modrm value.1
  let segment ← modrmGetRmEaddr16 modrm (value.2 + 2)
  modifyCpu fun c => set c segment

/-- `INTO`. -/
def into : M δ Unit := do
  if (← getCpu).flags.o then
    i8088Interrupt intOverflow
  else
    return

/-- Returns, far loads, `MOV` to memory, interrupts. -/
def opcodeC (eaddr : Word) (opcode : Byte) : Option (M δ Unit) :=
  match opcode with
  | 0xC2#8 => some do
    let data ← fetchWord
    popIp
    addSp data
  | 0xC3#8 => some popIp
  | 0xC4#8 => some (loadFar (fun c v => { c with es := v }) eaddr)
  | 0xC5#8 => some (loadFar (fun c v => { c with ds := v }) eaddr)
  | 0xC6#8 => some do
    let modrm ← fetch
    let value ← modrmGetRm8 modrm eaddr
    let data ← fetch
    modrmSetRmEaddr8 modrm value.2 data
  | 0xC7#8 => some do
    let modrm ← fetch
    let value ← modrmGetRm16 modrm eaddr
    let data ← fetchWord
    modrmSetRmEaddr16 modrm value.2 data
  | 0xCA#8 => some do
    let data ← fetchWord
    popFar
    addSp data
  | 0xCB#8 => some popFar
  | 0xCC#8 => some (i8088Interrupt int1Byte)
  | 0xCD#8 => some do i8088Interrupt (← fetch)
  | 0xCE#8 => some into
  | 0xCF#8 => some iret
  | _ => none

/-- The flags of `AAM` and `AAD`. -/
def I8088.setAlPsz (c : I8088) : I8088 := { c with flags := c.flags.setPsz c.al }

/-- `AAM`. -/
def aam : M δ Unit := do
  let data ← fetch
  if data = 0 then
    i8088Interrupt intDivideError
  else
    modifyCpu fun c => ((c.setAh (c.al / data)).setAl (c.al % data)).setAlPsz

/-- `AAD`. -/
def aad : M δ Unit := do
  let data ← fetch
  modifyCpu fun c => ((c.setAl (c.ah * data + c.al)).setAh 0).setAlPsz

/-- `ESC`: "this is needed to advance the instruction pointer correctly". -/
def esc : M δ Unit := do
  let modrm ← fetch
  modrmVoidRm16 modrm

/-- Rotates and shifts, `AAM`, `AAD`, `XLAT`, `ESC`. -/
def opcodeD (eaddr : Word) (opcode : Byte) : Option (M δ Unit) :=
  match opcode with
  | 0xD0#8 => some (i8088OpcodeD0D2 eaddr 1)
  | 0xD1#8 => some (i8088OpcodeD1D3 eaddr 1)
  | 0xD2#8 => some do i8088OpcodeD0D2 eaddr (← getCpu).cl
  | 0xD3#8 => some do i8088OpcodeD1D3 eaddr (← getCpu).cl
  | 0xD4#8 => some aam
  | 0xD5#8 => some aad
  | 0xD7#8 => some do
    let c ← getCpu
    let value ← eaddrRead8 c.ds (c.bx + c.al.setWidth 16)
    modifyCpu fun c => c.setAl value.1
  | 0xD8#8 => some esc
  | 0xD9#8 => some esc
  | 0xDA#8 => some esc
  | 0xDB#8 => some esc
  | 0xDC#8 => some esc
  | 0xDD#8 => some esc
  | 0xDE#8 => some esc
  | 0xDF#8 => some esc
  | _ => none

/-- `LOOP` and its conditional forms. -/
def loopIf (condition : I8088 → Bool) : M δ Unit := do
  let disp ← fetch
  decrementCx
  let c ← getCpu
  if condition c then
    modifyCpu fun c => { c with ip := c.ip + disp.signExtend 16 }
  else
    return

/-- `IN AX`: two reads, from the port that `port` takes from the registers and the next. -/
def inAx (io : Devices δ) (port : I8088 → Word) : M δ Unit := do
  let al ← ioRead io (port (← getCpu))
  modifyCpu fun c => c.setAl al
  let ah ← ioRead io (port (← getCpu) + 1)
  modifyCpu fun c => c.setAh ah

/-- `OUT AX`: two writes. -/
def outAx (io : Devices δ) (port : I8088 → Word) : M δ Unit := do
  let c ← getCpu
  ioWrite io (port c) c.al
  let c ← getCpu
  ioWrite io (port c + 1) c.ah

/-- Loops, port access, near calls and jumps. -/
def opcodeE (io : Devices δ) (opcode : Byte) : Option (M δ Unit) :=
  match opcode with
  | 0xE0#8 => some (loopIf fun c => !c.flags.z && c.cx != 0)
  | 0xE1#8 => some (loopIf fun c => c.flags.z && c.cx != 0)
  | 0xE2#8 => some (loopIf fun c => c.cx != 0)
  | 0xE3#8 => some (jumpIf fun c => c.cx == 0)
  | 0xE4#8 => some do
    let data ← fetch
    let al ← ioRead io (data.setWidth 16)
    modifyCpu fun c => c.setAl al
  | 0xE5#8 => some do
    let data ← fetch
    inAx io fun _ => data.setWidth 16
  | 0xE6#8 => some do
    let data ← fetch
    ioWrite io (data.setWidth 16) (← getCpu).al
  | 0xE7#8 => some do
    let data ← fetch
    outAx io fun _ => data.setWidth 16
  | 0xE8#8 => some do
    let offset ← fetchWord
    pushWord (← getCpu).ip
    modifyCpu fun c => { c with ip := c.ip + offset }
  | 0xE9#8 => some do
    let offset ← fetchWord
    modifyCpu fun c => { c with ip := c.ip + offset }
  | 0xEA#8 => some do
    let offset ← fetchWord
    let segment ← fetchWord
    modifyCpu fun c => { c with ip := offset, cs := segment }
  | 0xEB#8 => some (jumpIf fun _ => true)
  | 0xEC#8 => some do
    let al ← ioRead io (← getCpu).dx
    modifyCpu fun c => c.setAl al
  | 0xED#8 => some (inAx io fun c => c.dx)
  | 0xEE#8 => some do
    let c ← getCpu
    ioWrite io c.dx c.al
  | 0xEF#8 => some (outAx io fun c => c.dx)
  | _ => none

/-- Flag control, `HLT`, groups F6, F7, FE and FF. The prefixes 0xF0, 0xF2 and 0xF3 have no
case. -/
def opcodeF (eaddr : Word) (opcode : Byte) : Option (M δ Unit) :=
  match opcode with
  | 0xF4#8 => some (modifyCpu fun c => { c with halt := true })
  | 0xF5#8 => some (modifyFlags fun f => { f with c := !f.c })
  | 0xF6#8 => some (i8088OpcodeF6 eaddr)
  | 0xF7#8 => some (i8088OpcodeF7 eaddr)
  | 0xF8#8 => some (modifyFlags fun f => { f with c := false })
  | 0xF9#8 => some (modifyFlags fun f => { f with c := true })
  | 0xFA#8 => some (modifyFlags fun f => { f with i := false })
  | 0xFB#8 => some (modifyFlags fun f => { f with i := true })
  | 0xFC#8 => some (modifyFlags fun f => { f with d := false })
  | 0xFD#8 => some (modifyFlags fun f => { f with d := true })
  | 0xFE#8 => some (i8088OpcodeFe eaddr)
  | 0xFF#8 => some (i8088OpcodeFf eaddr)
  | _ => none

/-- A case that always returns. -/
def returning (x : M δ Unit) : M δ Bool := do
  x
  return true

/-- The case of the switch for an opcode, `none` when there is none. The cases 0x26, 0x2E,
0x36 and 0x3E go back to the prefix loop and are part of it. -/
def i8088Case (io : Devices δ) (eaddr : Word) (fuel : ℕ) (opcode : Byte) : Option (M δ Bool) :=
  match opcode.extractLsb' 4 4 with
  | 0x0#4 => (opcode0 eaddr opcode).map returning
  | 0x1#4 => (opcode1 eaddr opcode).map returning
  | 0x2#4 => (opcode2 eaddr opcode).map returning
  | 0x3#4 => (opcode3 eaddr opcode).map returning
  | 0x4#4 => (opcode4 opcode).map returning
  | 0x5#4 => (opcode5 opcode).map returning
  | 0x7#4 => (opcode7 opcode).map returning
  | 0x8#4 => (opcode8 eaddr opcode).map returning
  | 0x9#4 => (opcode9 opcode).map returning
  | 0xA#4 => opcodeA fuel opcode
  | 0xB#4 => (opcodeB opcode).map returning
  | 0xC#4 => (opcodeC eaddr opcode).map returning
  | 0xD#4 => (opcodeD eaddr opcode).map returning
  | 0xE#4 => (opcodeE io opcode).map returning
  | 0xF#4 => (opcodeF eaddr opcode).map returning
  | _ => none

/-- "`switch (opcode)`", with its default branch. -/
def i8088Opcode (io : Devices δ) (eaddr : Word) (fuel : ℕ) (opcode : Byte) : M δ Bool :=
  (i8088Case io eaddr fuel opcode).getD (returning (panic (.unhandledOpcode opcode)))

/-! ### Prefixes -/

/-- An assignment to the segment override, and the fetch of the next byte. -/
def overrideWith (s : Segment) : M δ Byte := do
  modifyCpu fun c => { c with segmentOverride := s }
  fetch

/-- The first chain of the prefix loop: segment overrides and `LOCK`. -/
def prefixSegment (opcode : Byte) : M δ Byte :=
  if opcode = 0x26 then overrideWith .es
  else if opcode = 0x2E then overrideWith .cs
  else if opcode = 0x36 then overrideWith .ss
  else if opcode = 0x3E then overrideWith .ds
  else if opcode = 0xF0 then do
    panic .lock
    fetch
  else return opcode

/-- An assignment to the repeat prefix, and the fetch of the next byte. -/
def repeatWith (r : Repeat) : M δ Byte := do
  modifyCpu fun c => { c with repeatPrefix := r }
  fetch

/-- The second chain of the prefix loop: repeat prefixes. -/
def prefixRepeat (opcode : Byte) : M δ Byte :=
  if opcode = 0xF2 then repeatWith .nenz
  else if opcode = 0xF3 then repeatWith .ez
  else return opcode

/-- The cases of the switch that are `goto i8088_execute_segment_override`. -/
def isSegmentPrefix (opcode : Byte) : Bool :=
  opcode == 0x26 || opcode == 0x2E || opcode == 0x36 || opcode == 0x3E

/-- From the label `i8088_execute_segment_override` to the switch: the opcode that the
switch is entered with, `none` when the fuel ran out. -/
def prefixLoop : ℕ → Byte → M δ (Option Byte)
  | 0, _ => return none
  | fuel + 1, opcode => do
    let opcode ← prefixSegment opcode
    let opcode ← prefixRepeat opcode
    if isSegmentPrefix opcode then
      prefixLoop fuel opcode
    else
      return some opcode

/-- `i8088_execute` up to the switch. -/
def i8088Decode (fuel : ℕ) : M δ (Option Byte) := do
  modifyCpu fun c => { c with segmentOverride := .none, repeatPrefix := .none }
  let opcode ← fetch
  prefixLoop fuel opcode

/-- `i8088_execute`. -/
def i8088Execute (io : Devices δ) (eaddr : Word) (fuel : ℕ) : M δ Bool := do
  if (← getCpu).halt then
    return true  -- waiting for IRQ
  else
    match ← i8088Decode fuel with
    | none => return false
    | some opcode => i8088Opcode io eaddr fuel opcode

/-! ### The machine at reset -/

/-- The machine that `main` starts the loop with, before any ROM is loaded: everything is
cleared, and the CPU is reset. -/
def machineInit (dev : δ) : Machine δ where
  cpu :=
    { es := 0, cs := 0xFFFF, ss := 0, ds := 0, ip := 0, sp := 0, bp := 0, si := 0, di := 0
      ax := 0, bx := 0, cx := 0, dx := 0, flags := Flags.ofWord 0
      segmentOverride := .none, repeatPrefix := .none, halt := false }
  mem := memInit
  fe2010 := fe2010Init
  dev := dev
  log := []

/-- A machine with the given bytes at the reset vector, and `NOP` elsewhere. -/
def machineWith (code : List Byte) : Machine Unit :=
  { machineInit () with
    mem :=
      { m := fun a => code.getD (a - 0xFFFF0).toNat 0x90
        readonly := fun _ => false } }

end Pc20iii
