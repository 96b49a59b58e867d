import Pc20iii.Machine.Mem

/-!
# Instruction fetch and the ModRM operand

`fetch`, the accesses at an effective address, and the decoders of the ModRM byte. The
source has eight decoders of the r/m operand, each with its own copy of the addressing
modes; they are translated one by one, and `Operand.lean` shows that they agree.

Each decoder is a switch over the `mod` field, which fetches the displacement, followed
by a switch over the `rm` field, which accesses memory. The second switch has a name of
its own here, ending in `Mem`.

The pointer argument `eaddr` becomes a value in and a value out: a register operand
leaves the variable of the caller as it was. Where the source passes `NULL` the value
that comes out is not used.
-/

namespace Pc20iii

open StateProgram

variable {δ : Type}

/-- `fetch`. -/
def fetch : M δ Byte := do
  let c ← getCpu
  let mc ← memReadBySegment c.cs c.ip
  modifyCpu fun c => { c with ip := c.ip + 1 }
  return mc

/-- Two fetches, low byte first, as the source reads every word operand. -/
def fetchWord : M δ Word := do
  let lo ← fetch
  let hi ← fetch
  return wordOf lo hi

/-! ### Accesses at an effective address -/

/-- The segment of an effective address: the override in force, else the default. -/
def I8088.overridden (c : I8088) (segmentDefault : Word) : Word :=
  match c.segmentOverride with
  | .cs => c.cs
  | .ds => c.ds
  | .es => c.es
  | .ss => c.ss
  | .none => segmentDefault

/-- `eaddr_read_8`; the second component is the address stored for later use. -/
def eaddrRead8 (segmentDefault address : Word) : M δ (Byte × Word) := do
  let c ← getCpu
  let value ← memReadBySegment (c.overridden segmentDefault) address
  return (value, address)

/-- `eaddr_write_8`. -/
def eaddrWrite8 (segmentDefault address : Word) (value : Byte) : M δ Unit := do
  let c ← getCpu
  memWriteBySegment (c.overridden segmentDefault) address value

/-- `eaddr_read_16`. -/
def eaddrRead16 (segmentDefault address : Word) : M δ (Word × Word) := do
  let c ← getCpu
  let lo ← memReadBySegment (c.overridden segmentDefault) address
  let hi ← memReadBySegment (c.overridden segmentDefault) (address + 1)
  return (wordOf lo hi, address)

/-- `eaddr_write_16`. -/
def eaddrWrite16 (segmentDefault address value : Word) : M δ Unit := do
  let c ← getCpu
  memWriteBySegment (c.overridden segmentDefault) address (lowByte value)
  memWriteBySegment (c.overridden segmentDefault) (address + 1) (highByte value)

/-! ### The fields of the ModRM byte -/

/-- `modrm_mod`. -/
def modrmMod (modrm : Byte) : BitVec 2 := modrm.extractLsb' 6 2

/-- `modrm_reg`, and `modrm_opcode` in the group instructions. -/
def modrmReg (modrm : Byte) : BitVec 3 := modrm.extractLsb' 3 3

/-- `modrm_rm`. -/
def modrmRm (modrm : Byte) : BitVec 3 := modrm.extractLsb' 0 3

/-! ### The decoders of the r/m operand -/

/-- The addressing modes of `modrm_get_rm_8`. -/
def modrmGetRm8Mem (modrm : Byte) (disp : Word) : M δ (Byte × Word) := do
  let c ← getCpu
  match modrmRm modrm with
  | 0b000#3 => eaddrRead8 c.ds (c.bx + c.si + disp)
  | 0b001#3 => eaddrRead8 c.ds (c.bx + c.di + disp)
  | 0b010#3 => eaddrRead8 c.ss (c.bp + c.si + disp)
  | 0b011#3 => eaddrRead8 c.ss (c.bp + c.di + disp)
  | 0b100#3 => eaddrRead8 c.ds (c.si + disp)
  | 0b101#3 => eaddrRead8 c.ds (c.di + disp)
  | 0b110#3 =>
    if modrmMod modrm = 0b00#2 then
      -- direct addressing
      let disp ← fetchWord
      eaddrRead8 c.ds disp
    else
      eaddrRead8 c.ss (c.bp + disp)
  | _ => eaddrRead8 c.ds (c.bx + disp)

/-- `modrm_get_rm_8`. -/
def modrmGetRm8 (modrm : Byte) (eaddr : Word) : M δ (Byte × Word) := do
  match modrmMod modrm with
  | 0b11#2 =>
    let c ← getCpu
    match modrmRm modrm with
    | 0b000#3 => return (c.al, eaddr)
    | 0b001#3 => return (c.cl, eaddr)
    | 0b010#3 => return (c.dl, eaddr)
    | 0b011#3 => return (c.bl, eaddr)
    | 0b100#3 => return (c.ah, eaddr)
    | 0b101#3 => return (c.ch, eaddr)
    | 0b110#3 => return (c.dh, eaddr)
    | _ => return (c.bh, eaddr)
  | 0b01#2 =>
    let disp ← fetch
    modrmGetRm8Mem modrm (disp.signExtend 16)
  | 0b10#2 =>
    let disp ← fetchWord
    modrmGetRm8Mem modrm disp
  | _ => modrmGetRm8Mem modrm 0

/-- The addressing modes of `modrm_set_rm_8`. -/
def modrmSetRm8Mem (modrm : Byte) (disp : Word) (value : Byte) : M δ Unit := do
  let c ← getCpu
  match modrmRm modrm with
  | 0b000#3 => eaddrWrite8 c.ds (c.bx + c.si + disp) value
  | 0b001#3 => eaddrWrite8 c.ds (c.bx + c.di + disp) value
  | 0b010#3 => eaddrWrite8 c.ss (c.bp + c.si + disp) value
  | 0b011#3 => eaddrWrite8 c.ss (c.bp + c.di + disp) value
  | 0b100#3 => eaddrWrite8 c.ds (c.si + disp) value
  | 0b101#3 => eaddrWrite8 c.ds (c.di + disp) value
  | 0b110#3 =>
    if modrmMod modrm = 0b00#2 then
      -- direct addressing
      let disp ← fetchWord
      eaddrWrite8 c.ds disp value
    else
      eaddrWrite8 c.ss (c.bp + disp) value
  | _ => eaddrWrite8 c.ds (c.bx + disp) value

/-- `modrm_set_rm_8`. -/
def modrmSetRm8 (modrm : Byte) (value : Byte) : M δ Unit := do
  match modrmMod modrm with
  | 0b11#2 =>
    match modrmRm modrm with
    | 0b000#3 => modifyCpu fun c => c.setAl value
    | 0b001#3 => modifyCpu fun c => c.setCl value
    | 0b010#3 => modifyCpu fun c => c.setDl value
    | 0b011#3 => modifyCpu fun c => c.setBl value
    | 0b100#3 => modifyCpu fun c => c.setAh value
    | 0b101#3 => modifyCpu fun c => c.setCh value
    | 0b110#3 => modifyCpu fun c => c.setDh value
    | _ => modifyCpu fun c => c.setBh value
  | 0b01#2 =>
    let disp ← fetch
    modrmSetRm8Mem modrm (disp.signExtend 16) value
  | 0b10#2 =>
    let disp ← fetchWord
    modrmSetRm8Mem modrm disp value
  | _ => modrmSetRm8Mem modrm 0 value

/-- The addressing modes of `modrm_set_rm_eaddr_8`. -/
def modrmSetRmEaddr8Mem (modrm : Byte) (eaddr : Word) (value : Byte) : M δ Unit := do
  let c ← getCpu
  match modrmRm modrm with
  | 0b000#3 => eaddrWrite8 c.ds eaddr value
  | 0b001#3 => eaddrWrite8 c.ds eaddr value
  | 0b010#3 => eaddrWrite8 c.ss eaddr value
  | 0b011#3 => eaddrWrite8 c.ss eaddr value
  | 0b100#3 => eaddrWrite8 c.ds eaddr value
  | 0b101#3 => eaddrWrite8 c.ds eaddr value
  | 0b110#3 =>
    if modrmMod modrm = 0b00#2 then
      -- direct addressing
      eaddrWrite8 c.ds eaddr value
    else
      eaddrWrite8 c.ss eaddr value
  | _ => eaddrWrite8 c.ds eaddr value

/-- `modrm_set_rm_eaddr_8`. -/
def modrmSetRmEaddr8 (modrm : Byte) (eaddr : Word) (value : Byte) : M δ Unit := do
  match modrmMod modrm with
  | 0b11#2 =>
    match modrmRm modrm with
    | 0b000#3 => modifyCpu fun c => c.setAl value
    | 0b001#3 => modifyCpu fun c => c.setCl value
    | 0b010#3 => modifyCpu fun c => c.setDl value
    | 0b011#3 => modifyCpu fun c => c.setBl value
    | 0b100#3 => modifyCpu fun c => c.setAh value
    | 0b101#3 => modifyCpu fun c => c.setCh value
    | 0b110#3 => modifyCpu fun c => c.setDh value
    | _ => modifyCpu fun c => c.setBh value
  | _ => modrmSetRmEaddr8Mem modrm eaddr value

/-- The addressing modes of `modrm_get_rm_16`. -/
def modrmGetRm16Mem (modrm : Byte) (disp : Word) : M δ (Word × Word) := do
  let c ← getCpu
  match modrmRm modrm with
  | 0b000#3 => eaddrRead16 c.ds (c.bx + c.si + disp)
  | 0b001#3 => eaddrRead16 c.ds (c.bx + c.di + disp)
  | 0b010#3 => eaddrRead16 c.ss (c.bp + c.si + disp)
  | 0b011#3 => eaddrRead16 c.ss (c.bp + c.di + disp)
  | 0b100#3 => eaddrRead16 c.ds (c.si + disp)
  | 0b101#3 => eaddrRead16 c.ds (c.di + disp)
  | 0b110#3 =>
    if modrmMod modrm = 0b00#2 then
      -- direct addressing
      let disp ← fetchWord
      eaddrRead16 c.ds disp
    else
      eaddrRead16 c.ss (c.bp + disp)
  | _ => eaddrRead16 c.ds (c.bx + disp)

/-- `modrm_get_rm_16`. -/
def modrmGetRm16 (modrm : Byte) (eaddr : Word) : M δ (Word × Word) := do
  match modrmMod modrm with
  | 0b11#2 =>
    let c ← getCpu
    match modrmRm modrm with
    | 0b000#3 => return (c.ax, eaddr)
    | 0b001#3 => return (c.cx, eaddr)
    | 0b010#3 => return (c.dx, eaddr)
    | 0b011#3 => return (c.bx, eaddr)
    | 0b100#3 => return (c.sp, eaddr)
    | 0b101#3 => return (c.bp, eaddr)
    | 0b110#3 => return (c.si, eaddr)
    | _ => return (c.di, eaddr)
  | 0b01#2 =>
    let disp ← fetch
    modrmGetRm16Mem modrm (disp.signExtend 16)
  | 0b10#2 =>
    let disp ← fetchWord
    modrmGetRm16Mem modrm disp
  | _ => modrmGetRm16Mem modrm 0

/-- The addressing modes of `modrm_get_rm_eaddr_16`. -/
def modrmGetRmEaddr16Mem (modrm : Byte) (eaddr : Word) : M δ Word := do
  let c ← getCpu
  match modrmRm modrm with
  | 0b000#3 => return (← eaddrRead16 c.ds eaddr).1
  | 0b001#3 => return (← eaddrRead16 c.ds eaddr).1
  | 0b010#3 => return (← eaddrRead16 c.ss eaddr).1
  | 0b011#3 => return (← eaddrRead16 c.ss eaddr).1
  | 0b100#3 => return (← eaddrRead16 c.ds eaddr).1
  | 0b101#3 => return (← eaddrRead16 c.ds eaddr).1
  | 0b110#3 =>
    if modrmMod modrm = 0b00#2 then
      -- direct addressing
      return (← eaddrRead16 c.ds eaddr).1
    else
      return (← eaddrRead16 c.ss eaddr).1
  | _ => return (← eaddrRead16 c.ds eaddr).1

/-- `modrm_get_rm_eaddr_16`. -/
def modrmGetRmEaddr16 (modrm : Byte) (eaddr : Word) : M δ Word := do
  match modrmMod modrm with
  | 0b11#2 =>
    let c ← getCpu
    match modrmRm modrm with
    | 0b000#3 => return c.ax
    | 0b001#3 => return c.cx
    | 0b010#3 => return c.dx
    | 0b011#3 => return c.bx
    | 0b100#3 => return c.sp
    | 0b101#3 => return c.bp
    | 0b110#3 => return c.si
    | _ => return c.di
  | _ => modrmGetRmEaddr16Mem modrm eaddr

/-- The addressing modes of `modrm_set_rm_16`. -/
def modrmSetRm16Mem (modrm : Byte) (disp : Word) (value : Word) : M δ Unit := do
  let c ← getCpu
  match modrmRm modrm with
  | 0b000#3 => eaddrWrite16 c.ds (c.bx + c.si + disp) value
  | 0b001#3 => eaddrWrite16 c.ds (c.bx + c.di + disp) value
  | 0b010#3 => eaddrWrite16 c.ss (c.bp + c.si + disp) value
  | 0b011#3 => eaddrWrite16 c.ss (c.bp + c.di + disp) value
  | 0b100#3 => eaddrWrite16 c.ds (c.si + disp) value
  | 0b101#3 => eaddrWrite16 c.ds (c.di + disp) value
  | 0b110#3 =>
    if modrmMod modrm = 0b00#2 then
      -- direct addressing
      let disp ← fetchWord
      eaddrWrite16 c.ds disp value
    else
      eaddrWrite16 c.ss (c.bp + disp) value
  | _ => eaddrWrite16 c.ds (c.bx + disp) value

/-- `modrm_set_rm_16`. -/
def modrmSetRm16 (modrm : Byte) (value : Word) : M δ Unit := do
  match modrmMod modrm with
  | 0b11#2 =>
    match modrmRm modrm with
    | 0b000#3 => modifyCpu fun c => { c with ax := value }
    | 0b001#3 => modifyCpu fun c => { c with cx := value }
    | 0b010#3 => modifyCpu fun c => { c with dx := value }
    | 0b011#3 => modifyCpu fun c => { c with bx := value }
    | 0b100#3 => modifyCpu fun c => { c with sp := value }
    | 0b101#3 => modifyCpu fun c => { c with bp := value }
    | 0b110#3 => modifyCpu fun c => { c with si := value }
    | _ => modifyCpu fun c => { c with di := value }
  | 0b01#2 =>
    let disp ← fetch
    modrmSetRm16Mem modrm (disp.signExtend 16) value
  | 0b10#2 =>
    let disp ← fetchWord
    modrmSetRm16Mem modrm disp value
  | _ => modrmSetRm16Mem modrm 0 value

/-- The addressing modes of `modrm_set_rm_eaddr_16`. -/
def modrmSetRmEaddr16Mem (modrm : Byte) (eaddr : Word) (value : Word) : M δ Unit := do
  let c ← getCpu
  match modrmRm modrm with
  | 0b000#3 => eaddrWrite16 c.ds eaddr value
  | 0b001#3 => eaddrWrite16 c.ds eaddr value
  | 0b010#3 => eaddrWrite16 c.ss eaddr value
  | 0b011#3 => eaddrWrite16 c.ss eaddr value
  | 0b100#3 => eaddrWrite16 c.ds eaddr value
  | 0b101#3 => eaddrWrite16 c.ds eaddr value
  | 0b110#3 =>
    if modrmMod modrm = 0b00#2 then
      -- direct addressing
      eaddrWrite16 c.ds eaddr value
    else
      eaddrWrite16 c.ss eaddr value
  | _ => eaddrWrite16 c.ds eaddr value

/-- `modrm_set_rm_eaddr_16`. -/
def modrmSetRmEaddr16 (modrm : Byte) (eaddr : Word) (value : Word) : M δ Unit := do
  match modrmMod modrm with
  | 0b11#2 =>
    match modrmRm modrm with
    | 0b000#3 => modifyCpu fun c => { c with ax := value }
    | 0b001#3 => modifyCpu fun c => { c with cx := value }
    | 0b010#3 => modifyCpu fun c => { c with dx := value }
    | 0b011#3 => modifyCpu fun c => { c with bx := value }
    | 0b100#3 => modifyCpu fun c => { c with sp := value }
    | 0b101#3 => modifyCpu fun c => { c with bp := value }
    | 0b110#3 => modifyCpu fun c => { c with si := value }
    | _ => modifyCpu fun c => { c with di := value }
  | _ => modrmSetRmEaddr16Mem modrm eaddr value

/-- The addressing modes of `modrm_void_rm_16`, which only consumes the operand. -/
def modrmVoidRm16Mem (modrm : Byte) : M δ Unit := do
  match modrmRm modrm with
  | 0b110#3 =>
    if modrmMod modrm = 0b00#2 then
      -- direct addressing
      let _ ← fetchWord
  | _ => return

/-- `modrm_void_rm_16`. -/
def modrmVoidRm16 (modrm : Byte) : M δ Unit := do
  match modrmMod modrm with
  | 0b11#2 => return
  | 0b01#2 =>
    let _ ← fetch
    modrmVoidRm16Mem modrm
  | 0b10#2 =>
    let _ ← fetchWord
    modrmVoidRm16Mem modrm
  | _ => modrmVoidRm16Mem modrm

/-! ### The register operand -/

/-- `modrm_get_reg_8`. -/
def modrmGetReg8 (modrm : Byte) : M δ Byte := do
  let c ← getCpu
  match modrmReg modrm with
  | 0b000#3 => return c.al
  | 0b001#3 => return c.cl
  | 0b010#3 => return c.dl
  | 0b011#3 => return c.bl
  | 0b100#3 => return c.ah
  | 0b101#3 => return c.ch
  | 0b110#3 => return c.dh
  | _ => return c.bh

/-- `modrm_set_reg_8`. -/
def modrmSetReg8 (modrm : Byte) (value : Byte) : M δ Unit :=
  match modrmReg modrm with
  | 0b000#3 => modifyCpu fun c => c.setAl value
  | 0b001#3 => modifyCpu fun c => c.setCl value
  | 0b010#3 => modifyCpu fun c => c.setDl value
  | 0b011#3 => modifyCpu fun c => c.setBl value
  | 0b100#3 => modifyCpu fun c => c.setAh value
  | 0b101#3 => modifyCpu fun c => c.setCh value
  | 0b110#3 => modifyCpu fun c => c.setDh value
  | _ => modifyCpu fun c => c.setBh value

/-- `modrm_get_reg_16`. -/
def modrmGetReg16 (modrm : Byte) : M δ Word := do
  let c ← getCpu
  match modrmReg modrm with
  | 0b000#3 => return c.ax
  | 0b001#3 => return c.cx
  | 0b010#3 => return c.dx
  | 0b011#3 => return c.bx
  | 0b100#3 => return c.sp
  | 0b101#3 => return c.bp
  | 0b110#3 => return c.si
  | _ => return c.di

/-- `modrm_set_reg_16`. -/
def modrmSetReg16 (modrm : Byte) (value : Word) : M δ Unit :=
  match modrmReg modrm with
  | 0b000#3 => modifyCpu fun c => { c with ax := value }
  | 0b001#3 => modifyCpu fun c => { c with cx := value }
  | 0b010#3 => modifyCpu fun c => { c with dx := value }
  | 0b011#3 => modifyCpu fun c => { c with bx := value }
  | 0b100#3 => modifyCpu fun c => { c with sp := value }
  | 0b101#3 => modifyCpu fun c => { c with bp := value }
  | 0b110#3 => modifyCpu fun c => { c with si := value }
  | _ => modifyCpu fun c => { c with di := value }

/-- `modrm_get_reg_seg`, which looks at two bits of the register field. -/
def modrmGetRegSeg (modrm : Byte) : M δ Word := do
  let c ← getCpu
  match modrmReg modrm &&& 3 with
  | 0b000#3 => return c.es
  | 0b001#3 => return c.cs
  | 0b010#3 => return c.ss
  | _ => return c.ds

/-- `modrm_set_reg_seg`. -/
def modrmSetRegSeg (modrm : Byte) (value : Word) : M δ Unit :=
  match modrmReg modrm &&& 3 with
  | 0b000#3 => modifyCpu fun c => { c with es := value }
  | 0b001#3 => modifyCpu fun c => { c with cs := value }
  | 0b010#3 => modifyCpu fun c => { c with ss := value }
  | _ => modifyCpu fun c => { c with ds := value }

end Pc20iii
