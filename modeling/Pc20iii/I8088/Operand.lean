import Pc20iii.I8088.Execute

/-!
# The operand of a ModRM byte

What the decoders of the r/m operand have in common. A ModRM byte and the bytes after it
name an `Operand`, a register or a place in a segment; each decoder consumes `dispLength`
bytes and reads or writes that operand, and those that are given the saved offset address
the same place (`decoders_agree`).

The eight decoders are copies of one another. Each is shown to be an instance of one
traversal of the addressing modes (`traverse`, and `traverseAt` for those that are given
the offset), of which the effect is proved once.
-/

namespace Pc20iii

open StateProgram

variable {δ : Type}

/-! ### The instruction stream -/

/-- The byte `k` places after the instruction pointer. -/
def Machine.code (m : Machine δ) (k : Word) : Byte := m.mem.m (linear m.cpu.cs (m.cpu.ip + k))

/-- The word `k` places after the instruction pointer. -/
def Machine.codeWord (m : Machine δ) (k : Word) : Word := wordOf (m.code k) (m.code (k + 1))

/-- The machine that has consumed `k` bytes. -/
def Machine.skip (m : Machine δ) (k : Word) : Machine δ :=
  { m with cpu := { m.cpu with ip := m.cpu.ip + k } }

section Stream

variable (m : Machine δ) (k j : Word)

@[simp] theorem skip_mem : (m.skip k).mem = m.mem := rfl
@[simp] theorem skip_fe2010 : (m.skip k).fe2010 = m.fe2010 := rfl
@[simp] theorem skip_log : (m.skip k).log = m.log := rfl
@[simp] theorem skip_ip : (m.skip k).cpu.ip = m.cpu.ip + k := rfl

@[simp] theorem skip_skip : (m.skip k).skip j = m.skip (k + j) := by
  simp [Machine.skip, BitVec.add_assoc]

@[simp] theorem skip_zero : m.skip 0#16 = m := by
  simp [Machine.skip]

@[simp] theorem skip_code : (m.skip k).code j = m.code (k + j) := by
  simp [Machine.skip, Machine.code, BitVec.add_assoc]

@[simp] theorem skip_codeWord : (m.skip k).codeWord j = m.codeWord (k + j) := by
  simp [Machine.codeWord, BitVec.add_assoc]

@[simp] theorem outcome_fetch : outcome fetch m = (m.code 0, m.skip 1) := by
  simp [fetch, Machine.code, Machine.skip]

@[simp] theorem outcome_fetchWord : outcome fetchWord m = (m.codeWord 0, m.skip 2) := by
  simp [fetchWord, Machine.codeWord]

end Stream

/-! ### The register file -/

/-- The byte register of a field. -/
def I8088.reg8 (c : I8088) (r : BitVec 3) : Byte :=
  match r with
  | 0b000#3 => c.al
  | 0b001#3 => c.cl
  | 0b010#3 => c.dl
  | 0b011#3 => c.bl
  | 0b100#3 => c.ah
  | 0b101#3 => c.ch
  | 0b110#3 => c.dh
  | _ => c.bh

/-- The assignment to the byte register of a field. -/
def I8088.setReg8 (c : I8088) (r : BitVec 3) (v : Byte) : I8088 :=
  match r with
  | 0b000#3 => c.setAl v
  | 0b001#3 => c.setCl v
  | 0b010#3 => c.setDl v
  | 0b011#3 => c.setBl v
  | 0b100#3 => c.setAh v
  | 0b101#3 => c.setCh v
  | 0b110#3 => c.setDh v
  | _ => c.setBh v

/-- The word register of a field. -/
def I8088.reg16 (c : I8088) (r : BitVec 3) : Word :=
  match r with
  | 0b000#3 => c.ax
  | 0b001#3 => c.cx
  | 0b010#3 => c.dx
  | 0b011#3 => c.bx
  | 0b100#3 => c.sp
  | 0b101#3 => c.bp
  | 0b110#3 => c.si
  | _ => c.di

/-- The assignment to the word register of a field. -/
def I8088.setReg16 (c : I8088) (r : BitVec 3) (v : Word) : I8088 :=
  match r with
  | 0b000#3 => { c with ax := v }
  | 0b001#3 => { c with cx := v }
  | 0b010#3 => { c with dx := v }
  | 0b011#3 => { c with bx := v }
  | 0b100#3 => { c with sp := v }
  | 0b101#3 => { c with bp := v }
  | 0b110#3 => { c with si := v }
  | _ => { c with di := v }

/-- The values of a three-bit field. -/
theorem field_cases (r : BitVec 3) :
    r = 0 ∨ r = 1 ∨ r = 2 ∨ r = 3 ∨ r = 4 ∨ r = 5 ∨ r = 6 ∨ r = 7 := by
  revert r
  decide

namespace I8088

variable (c : I8088) (r : BitVec 3)

@[simp] theorem reg8_setReg8 (v : Byte) : (c.setReg8 r v).reg8 r = v := by
  rcases field_cases r with rfl | rfl | rfl | rfl | rfl | rfl | rfl | rfl <;>
    simp [setReg8, reg8, al, ah, bl, bh, cl, ch, dl, dh, setAl, setAh, setBl, setBh, setCl,
      setCh, setDl, setDh]

@[simp] theorem reg16_setReg16 (v : Word) : (c.setReg16 r v).reg16 r = v := by
  rcases field_cases r with rfl | rfl | rfl | rfl | rfl | rfl | rfl | rfl <;> rfl

@[simp] theorem setReg8_reg8 : c.setReg8 r (c.reg8 r) = c := by
  rcases field_cases r with rfl | rfl | rfl | rfl | rfl | rfl | rfl | rfl <;>
    simp [setReg8, reg8, al, ah, bl, bh, cl, ch, dl, dh, setAl, setAh, setBl, setBh, setCl,
      setCh, setDl, setDh]

@[simp] theorem setReg16_reg16 : c.setReg16 r (c.reg16 r) = c := by
  rcases field_cases r with rfl | rfl | rfl | rfl | rfl | rfl | rfl | rfl <;> rfl

end I8088

@[simp] theorem outcome_modrmGetReg8 (modrm : Byte) (m : Machine δ) :
    outcome (modrmGetReg8 modrm) m = (m.cpu.reg8 (modrmReg modrm), m) := by
  unfold modrmGetReg8
  generalize modrmReg modrm = r
  rcases field_cases r with rfl | rfl | rfl | rfl | rfl | rfl | rfl | rfl <;> rfl

@[simp] theorem outcome_modrmGetReg16 (modrm : Byte) (m : Machine δ) :
    outcome (modrmGetReg16 modrm) m = (m.cpu.reg16 (modrmReg modrm), m) := by
  unfold modrmGetReg16
  generalize modrmReg modrm = r
  rcases field_cases r with rfl | rfl | rfl | rfl | rfl | rfl | rfl | rfl <;> rfl

@[simp] theorem outcome_modrmSetReg8 (modrm v : Byte) (m : Machine δ) :
    outcome (modrmSetReg8 modrm v) m =
      ((), { m with cpu := m.cpu.setReg8 (modrmReg modrm) v }) := by
  unfold modrmSetReg8
  generalize modrmReg modrm = r
  rcases field_cases r with rfl | rfl | rfl | rfl | rfl | rfl | rfl | rfl <;> rfl

@[simp] theorem outcome_modrmSetReg16 (modrm : Byte) (v : Word) (m : Machine δ) :
    outcome (modrmSetReg16 modrm v) m =
      ((), { m with cpu := m.cpu.setReg16 (modrmReg modrm) v }) := by
  unfold modrmSetReg16
  generalize modrmReg modrm = r
  rcases field_cases r with rfl | rfl | rfl | rfl | rfl | rfl | rfl | rfl <;> rfl

/-! ### Operands -/

/-- What a ModRM byte names: a register by its field, or an offset in a segment. -/
inductive Operand where
  | reg (r : BitVec 3)
  | mem (segment offset : Word)
deriving DecidableEq, Repr

namespace Operand

variable (o : Operand) (m : Machine δ)

/-- The byte of an operand. -/
def get8 : Byte :=
  match o with
  | reg r => m.cpu.reg8 r
  | mem segment offset => m.mem.m (linear segment offset)

/-- The word of an operand. -/
def get16 : Word :=
  match o with
  | reg r => m.cpu.reg16 r
  | mem segment offset => m.mem.word segment offset

/-- The assignment of a byte. -/
def put8 (v : Byte) : Machine δ :=
  match o with
  | reg r => { m with cpu := m.cpu.setReg8 r v }
  | mem segment offset => { m with mem := m.mem.store (linear segment offset) v }

/-- The assignment of a word. -/
def put16 (v : Word) : Machine δ :=
  match o with
  | reg r => { m with cpu := m.cpu.setReg16 r v }
  | mem segment offset => { m with mem := m.mem.storeWord segment offset v }

/-- The offset that a read saves for later use: a register leaves the variable as it was. -/
def saved (eaddr : Word) : Word :=
  match o with
  | reg _ => eaddr
  | mem _ offset => offset

/-- The memory that a byte operand occupies. -/
def place8 : List (BitVec 20) :=
  match o with
  | reg _ => []
  | mem segment offset => [linear segment offset]

/-- The memory that a word operand occupies. -/
def place16 : List (BitVec 20) :=
  match o with
  | reg _ => []
  | mem segment offset => [linear segment offset, linear segment (offset + 1)]

/-- A byte operand that can be written. -/
def Writable8 (mem : Mem) : Operand → Prop
  | reg _ => True
  | Operand.mem segment offset => mem.Writable segment offset

/-- A word operand that can be written. -/
def Writable16 (mem : Mem) : Operand → Prop
  | reg _ => True
  | Operand.mem segment offset =>
    mem.Writable segment offset ∧ mem.Writable segment (offset + 1)

end Operand

/-- The register sum of an addressing mode. -/
def I8088.base (c : I8088) (rm : BitVec 3) : Word :=
  match rm with
  | 0b000#3 => c.bx + c.si
  | 0b001#3 => c.bx + c.di
  | 0b010#3 => c.bp + c.si
  | 0b011#3 => c.bp + c.di
  | 0b100#3 => c.si
  | 0b101#3 => c.di
  | 0b110#3 => c.bp
  | _ => c.bx

/-- The ModRM byte of a direct address. -/
def isDirect (modrm : Byte) : Bool := modrmMod modrm == 0b00#2 && modrmRm modrm == 0b110#3

/-- The default segment of an addressing mode: the modes that use BP are in the stack
segment. -/
def I8088.defaultSegment (c : I8088) (modrm : Byte) : Word :=
  if modrmRm modrm = 0b010#3 ∨ modrmRm modrm = 0b011#3 ∨
      (modrmRm modrm = 0b110#3 ∧ isDirect modrm = false) then
    c.ss
  else
    c.ds

/-- The number of bytes between the ModRM byte and the rest of the instruction. -/
def dispLength (modrm : Byte) : Word :=
  match modrmMod modrm with
  | 0b11#2 => 0
  | 0b01#2 => 1
  | 0b10#2 => 2
  | _ => if isDirect modrm then 2 else 0

/-- The displacement that the `mod` field asks for. -/
def Machine.displacement (m : Machine δ) (modrm : Byte) : Word :=
  match modrmMod modrm with
  | 0b01#2 => (m.code 0).signExtend 16
  | 0b10#2 => m.codeWord 0
  | _ => 0

/-- The effective offset of a ModRM byte that has just been consumed. -/
def Machine.effectiveOffset (m : Machine δ) (modrm : Byte) : Word :=
  if isDirect modrm then m.codeWord 0
  else m.cpu.base (modrmRm modrm) + m.displacement modrm

/-- The operand of a ModRM byte at a given offset. -/
def I8088.operandAt (c : I8088) (modrm : Byte) (offset : Word) : Operand :=
  if modrmMod modrm = 0b11#2 then .reg (modrmRm modrm)
  else .mem (c.overridden (c.defaultSegment modrm)) offset

/-- The operand of a ModRM byte that has just been consumed. -/
def Machine.operand (m : Machine δ) (modrm : Byte) : Operand :=
  m.cpu.operandAt modrm (m.effectiveOffset modrm)

section Frame

variable (m : Machine δ) (k : Word) (modrm : Byte) (offset : Word)

@[simp] theorem skip_operandAt :
    (m.skip k).cpu.operandAt modrm offset = m.cpu.operandAt modrm offset := rfl

@[simp] theorem skip_defaultSegment :
    (m.skip k).cpu.defaultSegment modrm = m.cpu.defaultSegment modrm := rfl

@[simp] theorem skip_base (rm : BitVec 3) : (m.skip k).cpu.base rm = m.cpu.base rm := rfl

@[simp] theorem skip_flags : (m.skip k).cpu.flags = m.cpu.flags := rfl

@[simp] theorem skip_reg8 (r : BitVec 3) : (m.skip k).cpu.reg8 r = m.cpu.reg8 r := by
  rcases field_cases r with rfl | rfl | rfl | rfl | rfl | rfl | rfl | rfl <;> rfl

@[simp] theorem skip_reg16 (r : BitVec 3) : (m.skip k).cpu.reg16 r = m.cpu.reg16 r := by
  rcases field_cases r with rfl | rfl | rfl | rfl | rfl | rfl | rfl | rfl <;> rfl

@[simp] theorem skip_overridden (segment : Word) :
    (m.skip k).cpu.overridden segment = m.cpu.overridden segment := rfl

@[simp] theorem skip_get8 (o : Operand) : o.get8 (m.skip k) = o.get8 m := by
  cases o with
  | reg r => exact skip_reg8 m k r
  | mem segment offset => rfl

@[simp] theorem skip_get16 (o : Operand) : o.get16 (m.skip k) = o.get16 m := by
  cases o with
  | reg r => exact skip_reg16 m k r
  | mem segment offset => rfl

end Frame

/-! ### One traversal of the addressing modes -/

section Traverse

variable {α : Type} (reg : BitVec 3 → M δ α) (access : Word → Word → M δ α)

/-- The addressing modes of a decoder that accesses memory by `access`. -/
def traverseMem (modrm : Byte) (disp : Word) : M δ α := do
  let c ← getCpu
  match modrmRm modrm with
  | 0b000#3 => access c.ds (c.bx + c.si + disp)
  | 0b001#3 => access c.ds (c.bx + c.di + disp)
  | 0b010#3 => access c.ss (c.bp + c.si + disp)
  | 0b011#3 => access c.ss (c.bp + c.di + disp)
  | 0b100#3 => access c.ds (c.si + disp)
  | 0b101#3 => access c.ds (c.di + disp)
  | 0b110#3 =>
    if modrmMod modrm = 0b00#2 then
      let disp ← fetchWord
      access c.ds disp
    else
      access c.ss (c.bp + disp)
  | _ => access c.ds (c.bx + disp)

/-- A decoder that treats registers by `reg` and memory by `access`. -/
def traverse (modrm : Byte) : M δ α := do
  match modrmMod modrm with
  | 0b11#2 => reg (modrmRm modrm)
  | 0b01#2 =>
    let disp ← fetch
    traverseMem access modrm (disp.signExtend 16)
  | 0b10#2 =>
    let disp ← fetchWord
    traverseMem access modrm disp
  | _ => traverseMem access modrm 0

/-- A decoder that is given the offset of its operand. -/
def traverseAt (modrm : Byte) (offset : Word) : M δ α := do
  if modrmMod modrm = 0b11#2 then
    reg (modrmRm modrm)
  else
    access ((← getCpu).defaultSegment modrm) offset

theorem outcome_traverseMem (modrm : Byte) (disp : Word) (m : Machine δ) :
    outcome (traverseMem access modrm disp) m =
      if isDirect modrm then
        outcome (access (m.cpu.defaultSegment modrm) (m.codeWord 0)) (m.skip 2)
      else
        outcome (access (m.cpu.defaultSegment modrm) (m.cpu.base (modrmRm modrm) + disp)) m := by
  rcases field_cases (modrmRm modrm) with h | h | h | h | h | h | h | h <;>
    by_cases hmod : modrmMod modrm = 0b00#2 <;>
    simp [traverseMem, isDirect, I8088.defaultSegment, I8088.base, h, hmod]

/-- The values of the `mod` field. -/
theorem mode_cases (r : BitVec 2) : r = 0 ∨ r = 1 ∨ r = 2 ∨ r = 3 := by
  revert r
  decide

/-- The effect of a decoder. -/
theorem outcome_traverse (modrm : Byte) (m : Machine δ) :
    outcome (traverse reg access modrm) m =
      if modrmMod modrm = 0b11#2 then
        outcome (reg (modrmRm modrm)) m
      else
        outcome (access (m.cpu.defaultSegment modrm) (m.effectiveOffset modrm))
          (m.skip (dispLength modrm)) := by
  -- the four modes, of which 00 has the direct address as a special case
  rcases mode_cases (modrmMod modrm) with h | h | h | h
  · cases hd : isDirect modrm <;>
      simp [traverse, outcome_traverseMem, Machine.effectiveOffset, Machine.displacement,
        dispLength, h, hd]
  · have hd : isDirect modrm = false := by simp [isDirect, h]
    simp [traverse, outcome_traverseMem, Machine.effectiveOffset, Machine.displacement,
      dispLength, h, hd]
  · have hd : isDirect modrm = false := by simp [isDirect, h]
    simp [traverse, outcome_traverseMem, Machine.effectiveOffset, Machine.displacement,
      dispLength, h, hd]
  · simp [traverse, h]

theorem outcome_traverseAt (modrm : Byte) (offset : Word) (m : Machine δ) :
    outcome (traverseAt reg access modrm offset) m =
      if modrmMod modrm = 0b11#2 then
        outcome (reg (modrmRm modrm)) m
      else
        outcome (access (m.cpu.defaultSegment modrm) offset) m := by
  unfold traverseAt
  split <;> rfl

end Traverse

/-! ### The decoders are traversals -/

section Decoders

variable (modrm : Byte) (eaddr : Word) (m : Machine δ)

theorem modrmGetRm8_eq : (modrmGetRm8 modrm eaddr : M δ _) =
    traverse (fun r => do return ((← getCpu).reg8 r, eaddr)) eaddrRead8 modrm := by
  rcases mode_cases (modrmMod modrm) with h | h | h | h
  · simp only [modrmGetRm8, traverse, h]; rfl
  · simp only [modrmGetRm8, traverse, h]; rfl
  · simp only [modrmGetRm8, traverse, h]; rfl
  · rcases field_cases (modrmRm modrm) with h' | h' | h' | h' | h' | h' | h' | h' <;>
      simp only [modrmGetRm8, traverse, h, h'] <;> rfl

theorem modrmSetRm8_eq (v : Byte) : (modrmSetRm8 modrm v : M δ _) =
    traverse (fun r => modifyCpu fun c => c.setReg8 r v) (eaddrWrite8 · · v) modrm := by
  rcases mode_cases (modrmMod modrm) with h | h | h | h
  · simp only [modrmSetRm8, traverse, h]; rfl
  · simp only [modrmSetRm8, traverse, h]; rfl
  · simp only [modrmSetRm8, traverse, h]; rfl
  · rcases field_cases (modrmRm modrm) with h' | h' | h' | h' | h' | h' | h' | h' <;>
      simp only [modrmSetRm8, traverse, h, h'] <;> rfl

theorem modrmGetRm16_eq : (modrmGetRm16 modrm eaddr : M δ _) =
    traverse (fun r => do return ((← getCpu).reg16 r, eaddr)) eaddrRead16 modrm := by
  rcases mode_cases (modrmMod modrm) with h | h | h | h
  · simp only [modrmGetRm16, traverse, h]; rfl
  · simp only [modrmGetRm16, traverse, h]; rfl
  · simp only [modrmGetRm16, traverse, h]; rfl
  · rcases field_cases (modrmRm modrm) with h' | h' | h' | h' | h' | h' | h' | h' <;>
      simp only [modrmGetRm16, traverse, h, h'] <;> rfl

theorem modrmSetRm16_eq (v : Word) : (modrmSetRm16 modrm v : M δ _) =
    traverse (fun r => modifyCpu fun c => c.setReg16 r v) (eaddrWrite16 · · v) modrm := by
  rcases mode_cases (modrmMod modrm) with h | h | h | h
  · simp only [modrmSetRm16, traverse, h]; rfl
  · simp only [modrmSetRm16, traverse, h]; rfl
  · simp only [modrmSetRm16, traverse, h]; rfl
  · rcases field_cases (modrmRm modrm) with h' | h' | h' | h' | h' | h' | h' | h' <;>
      simp only [modrmSetRm16, traverse, h, h'] <;> rfl

theorem modrmVoidRm16_eq : (modrmVoidRm16 modrm : M δ _) =
    traverse (fun _ => return) (fun _ _ => return) modrm := by
  rcases mode_cases (modrmMod modrm) with h | h | h | h
  · rcases field_cases (modrmRm modrm) with h' | h' | h' | h' | h' | h' | h' | h' <;>
      simp only [modrmVoidRm16, modrmVoidRm16Mem, traverse, traverseMem, h, h'] <;> rfl
  · rcases field_cases (modrmRm modrm) with h' | h' | h' | h' | h' | h' | h' | h' <;>
      simp only [modrmVoidRm16, modrmVoidRm16Mem, traverse, traverseMem, h, h'] <;> rfl
  · rcases field_cases (modrmRm modrm) with h' | h' | h' | h' | h' | h' | h' | h' <;>
      simp only [modrmVoidRm16, modrmVoidRm16Mem, traverse, traverseMem, h, h'] <;> rfl
  · simp only [modrmVoidRm16, traverse, h]; rfl

theorem modrmSetRmEaddr8_eq (v : Byte) : (modrmSetRmEaddr8 modrm eaddr v : M δ _) =
    traverseAt (fun r => modifyCpu fun c => c.setReg8 r v) (eaddrWrite8 · · v) modrm eaddr := by
  rcases mode_cases (modrmMod modrm) with h | h | h | h <;>
    rcases field_cases (modrmRm modrm) with h' | h' | h' | h' | h' | h' | h' | h' <;>
    simp only [modrmSetRmEaddr8, modrmSetRmEaddr8Mem, traverseAt, I8088.defaultSegment, isDirect,
      h, h'] <;>
    rfl

theorem modrmSetRmEaddr16_eq (v : Word) : (modrmSetRmEaddr16 modrm eaddr v : M δ _) =
    traverseAt (fun r => modifyCpu fun c => c.setReg16 r v) (eaddrWrite16 · · v) modrm eaddr := by
  rcases mode_cases (modrmMod modrm) with h | h | h | h <;>
    rcases field_cases (modrmRm modrm) with h' | h' | h' | h' | h' | h' | h' | h' <;>
    simp only [modrmSetRmEaddr16, modrmSetRmEaddr16Mem, traverseAt, I8088.defaultSegment,
      isDirect, h, h'] <;>
    rfl

theorem modrmGetRmEaddr16_eq : (modrmGetRmEaddr16 modrm eaddr : M δ _) =
    traverseAt (fun r => do return (← getCpu).reg16 r)
      (fun segment offset => do return (← eaddrRead16 segment offset).1) modrm eaddr := by
  rcases mode_cases (modrmMod modrm) with h | h | h | h <;>
    rcases field_cases (modrmRm modrm) with h' | h' | h' | h' | h' | h' | h' | h' <;>
    simp only [modrmGetRmEaddr16, modrmGetRmEaddr16Mem, traverseAt, I8088.defaultSegment,
      isDirect, h, h'] <;>
    rfl

/-! ### The effect of the decoders -/

@[simp] theorem outcome_eaddrRead8 (segment address : Word) :
    outcome (eaddrRead8 segment address) m =
      ((m.mem.m (linear (m.cpu.overridden segment) address), address), m) := by
  simp [eaddrRead8]

@[simp] theorem outcome_eaddrRead16 (segment address : Word) :
    outcome (eaddrRead16 segment address) m =
      ((m.mem.word (m.cpu.overridden segment) address, address), m) := by
  simp [eaddrRead16, Mem.word]

@[simp] theorem outcome_eaddrWrite8 (segment address : Word) (v : Byte) :
    outcome (eaddrWrite8 segment address v) m =
      ((), { m with mem := m.mem.store (linear (m.cpu.overridden segment) address) v }) := by
  simp [eaddrWrite8]

@[simp] theorem outcome_eaddrWrite16 (segment address v : Word) :
    outcome (eaddrWrite16 segment address v) m =
      ((), { m with mem := m.mem.storeWord (m.cpu.overridden segment) address v }) := by
  simp [eaddrWrite16, Mem.storeWord]

theorem operand_of_reg {modrm : Byte} (h : modrmMod modrm = 0b11#2) :
    m.operand modrm = .reg (modrmRm modrm) := by
  simp [Machine.operand, I8088.operandAt, h]

theorem operand_of_mem {modrm : Byte} (h : modrmMod modrm ≠ 0b11#2) :
    m.operand modrm =
      .mem (m.cpu.overridden (m.cpu.defaultSegment modrm)) (m.effectiveOffset modrm) := by
  simp [Machine.operand, I8088.operandAt, h]

theorem dispLength_of_reg {modrm : Byte} (h : modrmMod modrm = 0b11#2) : dispLength modrm = 0 := by
  simp [dispLength, h]

@[simp] theorem outcome_modrmGetRm8 :
    outcome (modrmGetRm8 modrm eaddr) m =
      (((m.operand modrm).get8 m, (m.operand modrm).saved eaddr), m.skip (dispLength modrm)) := by
  rw [modrmGetRm8_eq, outcome_traverse]
  split
  · next h => simp [operand_of_reg m h, dispLength_of_reg h, Operand.get8, Operand.saved]
  · next h => simp [operand_of_mem m h, Operand.get8, Operand.saved]

@[simp] theorem outcome_modrmSetRm8 (v : Byte) :
    outcome (modrmSetRm8 modrm v) m =
      ((), (m.operand modrm).put8 (m.skip (dispLength modrm)) v) := by
  rw [modrmSetRm8_eq, outcome_traverse]
  split
  · next h => simp [operand_of_reg m h, dispLength_of_reg h, Operand.put8]
  · next h => simp [operand_of_mem m h, Operand.put8]

@[simp] theorem outcome_modrmSetRmEaddr8 (v : Byte) :
    outcome (modrmSetRmEaddr8 modrm eaddr v) m =
      ((), (m.cpu.operandAt modrm eaddr).put8 m v) := by
  rw [modrmSetRmEaddr8_eq, outcome_traverseAt, I8088.operandAt]
  split <;> simp [Operand.put8]

@[simp] theorem outcome_modrmGetRm16 :
    outcome (modrmGetRm16 modrm eaddr) m =
      (((m.operand modrm).get16 m, (m.operand modrm).saved eaddr), m.skip (dispLength modrm)) := by
  rw [modrmGetRm16_eq, outcome_traverse]
  split
  · next h => simp [operand_of_reg m h, dispLength_of_reg h, Operand.get16, Operand.saved]
  · next h => simp [operand_of_mem m h, Operand.get16, Operand.saved]

@[simp] theorem outcome_modrmGetRmEaddr16 :
    outcome (modrmGetRmEaddr16 modrm eaddr) m =
      ((m.cpu.operandAt modrm eaddr).get16 m, m) := by
  rw [modrmGetRmEaddr16_eq, outcome_traverseAt, I8088.operandAt]
  split <;> simp [Operand.get16]

@[simp] theorem outcome_modrmSetRm16 (v : Word) :
    outcome (modrmSetRm16 modrm v) m =
      ((), (m.operand modrm).put16 (m.skip (dispLength modrm)) v) := by
  rw [modrmSetRm16_eq, outcome_traverse]
  split
  · next h => simp [operand_of_reg m h, dispLength_of_reg h, Operand.put16]
  · next h => simp [operand_of_mem m h, Operand.put16]

@[simp] theorem outcome_modrmSetRmEaddr16 (v : Word) :
    outcome (modrmSetRmEaddr16 modrm eaddr v) m =
      ((), (m.cpu.operandAt modrm eaddr).put16 m v) := by
  rw [modrmSetRmEaddr16_eq, outcome_traverseAt, I8088.operandAt]
  split <;> simp [Operand.put16]

@[simp] theorem outcome_modrmVoidRm16 :
    outcome (modrmVoidRm16 modrm) m = ((), m.skip (dispLength modrm)) := by
  rw [modrmVoidRm16_eq, outcome_traverse]
  split
  · next h => simp [dispLength_of_reg h]
  · simp

end Decoders

/-! ### Stores and loads of an operand -/

namespace Operand

variable {o : Operand} {m : Machine δ}

theorem get8_put8 (h : o.Writable8 m.mem) (v : Byte) : o.get8 (o.put8 m v) = v := by
  cases o with
  | reg r => exact m.cpu.reg8_setReg8 r v
  | mem segment offset => exact m.mem.store_of_writable _ v h

theorem get16_put16 (h : o.Writable16 m.mem) (v : Word) : o.get16 (o.put16 m v) = v := by
  cases o with
  | reg r => exact m.cpu.reg16_setReg16 r v
  | mem segment offset => exact m.mem.word_storeWord h.1 h.2

/-- Writing back the byte that is there changes nothing. -/
@[simp] theorem put8_get8 : o.put8 m (o.get8 m) = m := by
  cases o with
  | reg r => simp [put8, get8]
  | mem segment offset => simp [put8, get8]

@[simp] theorem put16_get16 : o.put16 m (o.get16 m) = m := by
  cases o with
  | reg r => simp [put16, get16]
  | mem segment offset => simp [put16, get16, Mem.storeWord_word]

end Operand

/-- The r/m operand of a ModRM byte at the instruction pointer. -/
def Machine.rm (n : Machine δ) : Operand := (n.skip 1).operand (n.code 0)

/-- The bytes of a ModRM byte at the instruction pointer and of its displacement. -/
def Machine.rmLength (n : Machine δ) : Word := 1 + dispLength (n.code 0)

/-! ### Agreement of the decoders -/

/-- The segment registers and the override are the same. -/
structure SameSegments (c c' : I8088) : Prop where
  es : c'.es = c.es
  cs : c'.cs = c.cs
  ss : c'.ss = c.ss
  ds : c'.ds = c.ds
  segmentOverride : c'.segmentOverride = c.segmentOverride

theorem SameSegments.operandAt {c c' : I8088} (h : SameSegments c c') (modrm : Byte)
    (offset : Word) : c'.operandAt modrm offset = c.operandAt modrm offset := by
  simp [I8088.operandAt, I8088.overridden, I8088.defaultSegment, h.es, h.cs, h.ss, h.ds,
    h.segmentOverride]

/-- The offset that a read saves names the operand that was read. -/
@[simp] theorem operandAt_saved (m : Machine δ) (modrm : Byte) (eaddr : Word) :
    m.cpu.operandAt modrm ((m.operand modrm).saved eaddr) = m.operand modrm := by
  by_cases h : modrmMod modrm = 0b11#2 <;>
    simp [Machine.operand, I8088.operandAt, Operand.saved, h]

@[simp] theorem skip_operandAt_saved (m : Machine δ) (k : Word) (modrm : Byte) (eaddr : Word) :
    m.cpu.operandAt modrm (((m.skip k).operand modrm).saved eaddr) = (m.skip k).operand modrm :=
  operandAt_saved (m.skip k) modrm eaddr

/-- The general and segment registers and the override are the same. -/
def SameRegisters (c c' : I8088) : Prop :=
  c' = { c with ip := c'.ip, flags := c'.flags, repeatPrefix := c'.repeatPrefix, halt := c'.halt }

/-- The same ModRM byte and displacement name the same operand. -/
theorem operand_congr {m m' : Machine δ} {modrm : Byte} (hc : SameRegisters m.cpu m'.cpu)
    (hcode : ∀ k, k < dispLength modrm → m'.code k = m.code k) :
    m'.operand modrm = m.operand modrm := by
  have hsegments : ∀ offset, m'.cpu.operandAt modrm offset = m.cpu.operandAt modrm offset := by
    intro offset
    rw [hc]
    rfl
  by_cases hreg : modrmMod modrm = 0b11#2
  · rw [operand_of_reg m hreg, operand_of_reg m' hreg]
  · have hbase : m'.cpu.base (modrmRm modrm) = m.cpu.base (modrmRm modrm) := by
      rw [hc]
      rfl
    have hword : dispLength modrm = 2 → m'.codeWord 0#16 = m.codeWord 0#16 := by
      intro hn
      rw [Machine.codeWord, Machine.codeWord, hcode 0#16 (by rw [hn]; decide),
        hcode (0#16 + 1) (by rw [hn]; decide)]
    have hoffset : m'.effectiveOffset modrm = m.effectiveOffset modrm := by
      -- mode 0 has no displacement, the direct address apart; modes 1 and 2 have a byte and a word
      rcases mode_cases (modrmMod modrm) with h | h | h | h
      · cases hd : isDirect modrm with
        | true =>
          have hn : dispLength modrm = 2 := by simp [dispLength, h, hd]
          simp [Machine.effectiveOffset, hd, hword hn]
        | false => simp [Machine.effectiveOffset, Machine.displacement, h, hd, hbase]
      · have hn : dispLength modrm = 1 := by simp [dispLength, h]
        have hbyte : m'.code 0#16 = m.code 0#16 := hcode 0#16 (by rw [hn]; decide)
        have hd : isDirect modrm = false := by simp [isDirect, h]
        simp [Machine.effectiveOffset, Machine.displacement, h, hd, hbase, hbyte]
      · have hn : dispLength modrm = 2 := by simp [dispLength, h]
        have hd : isDirect modrm = false := by simp [isDirect, h]
        simp [Machine.effectiveOffset, Machine.displacement, h, hd, hbase, hword hn]
      · exact absurd h hreg
    rw [Machine.operand, hoffset, hsegments, Machine.operand]

/-- All decoders of a ModRM byte consume `n` bytes and access the operand `o`. -/
structure Decodes (m : Machine δ) (modrm : Byte) (eaddr n : Word) (o : Operand) : Prop where
  getRm8 : outcome (modrmGetRm8 modrm eaddr) m = ((o.get8 m, o.saved eaddr), m.skip n)
  setRm8 : ∀ v, outcome (modrmSetRm8 modrm v) m = ((), o.put8 (m.skip n) v)
  getRm16 : outcome (modrmGetRm16 modrm eaddr) m = ((o.get16 m, o.saved eaddr), m.skip n)
  setRm16 : ∀ v, outcome (modrmSetRm16 modrm v) m = ((), o.put16 (m.skip n) v)
  voidRm16 : outcome (modrmVoidRm16 modrm) m = ((), m.skip n)
  /-- With the saved offset, in any later machine with the same segments. -/
  setRmEaddr8 : ∀ m' : Machine δ, SameSegments m.cpu m'.cpu → ∀ v,
    outcome (modrmSetRmEaddr8 modrm (o.saved eaddr) v) m' = ((), o.put8 m' v)
  getRmEaddr16 : ∀ m' : Machine δ, SameSegments m.cpu m'.cpu →
    outcome (modrmGetRmEaddr16 modrm (o.saved eaddr)) m' = (o.get16 m', m')
  setRmEaddr16 : ∀ m' : Machine δ, SameSegments m.cpu m'.cpu → ∀ v,
    outcome (modrmSetRmEaddr16 modrm (o.saved eaddr) v) m' = ((), o.put16 m' v)

/-- Machine `m'` is about to decode the displacement that `m` decoded, with the registers
that `set` left, and the bytes that it left in the place of the operand. -/
structure Revisits (m set m' : Machine δ) (n : Word) (place : List (BitVec 20)) : Prop where
  registers : SameRegisters set.cpu m'.cpu
  code : ∀ k, k < n → m'.code k = m.code k
  memory : ∀ a ∈ place, m'.mem.m a = set.mem.m a

theorem decodes (m : Machine δ) (modrm : Byte) (eaddr : Word) :
    Decodes m modrm eaddr (dispLength modrm) (m.operand modrm) where
  getRm8 := outcome_modrmGetRm8 ..
  setRm8 := outcome_modrmSetRm8 modrm m
  getRm16 := outcome_modrmGetRm16 ..
  setRm16 := outcome_modrmSetRm16 modrm m
  voidRm16 := outcome_modrmVoidRm16 ..
  setRmEaddr8 m' h v := by rw [outcome_modrmSetRmEaddr8, h.operandAt, operandAt_saved]
  getRmEaddr16 m' h := by rw [outcome_modrmGetRmEaddr16, h.operandAt, operandAt_saved]
  setRmEaddr16 m' h v := by rw [outcome_modrmSetRmEaddr16, h.operandAt, operandAt_saved]

section RoundTrip

variable {m m' set : Machine δ} {modrm : Byte} {n : Word} {o : Operand} {place : List (BitVec 20)}
  (eaddr : Word)

theorem SameRegisters.trans {c c' c'' : I8088} (h : SameRegisters c c')
    (h' : SameRegisters c' c'') : SameRegisters c c'' := by
  rw [SameRegisters, h', h]

theorem SameRegisters.segments {c c' : I8088} (h : SameRegisters c c') : SameSegments c c' := by
  rw [h]
  exact ⟨rfl, rfl, rfl, rfl, rfl⟩

theorem SameRegisters.reg8 {c c' : I8088} (h : SameRegisters c c') (r : BitVec 3) :
    c'.reg8 r = c.reg8 r := by
  rw [h]
  rcases field_cases r with rfl | rfl | rfl | rfl | rfl | rfl | rfl | rfl <;> rfl

theorem SameRegisters.reg16 {c c' : I8088} (h : SameRegisters c c') (r : BitVec 3) :
    c'.reg16 r = c.reg16 r := by
  rw [h]
  rcases field_cases r with rfl | rfl | rfl | rfl | rfl | rfl | rfl | rfl <;> rfl

/-- The decoder finds the operand of a store again, when a store to memory has left the
registers alone. -/
theorem Revisits.operand (h : Revisits m set m' (dispLength modrm) place)
    (hset : ∀ segment offset, m.operand modrm = .mem segment offset →
      SameRegisters m.cpu set.cpu) : m'.operand modrm = m.operand modrm := by
  by_cases hreg : modrmMod modrm = 0b11#2
  · rw [operand_of_reg m hreg, operand_of_reg m' hreg]
  · exact operand_congr ((hset _ _ (operand_of_mem m hreg)).trans h.registers) h.code

theorem Revisits.get8 (h : Revisits m set m' n o.place8) : o.get8 m' = o.get8 set := by
  cases o with
  | reg r => exact h.registers.reg8 r
  | mem segment offset => exact h.memory _ (by simp [Operand.place8])

theorem Revisits.get16 (h : Revisits m set m' n o.place16) : o.get16 m' = o.get16 set := by
  cases o with
  | reg r => exact h.registers.reg16 r
  | mem segment offset =>
    have hlow := h.memory (linear segment offset) (by simp [Operand.place16])
    have hhigh := h.memory (linear segment (offset + 1)) (by simp [Operand.place16])
    rw [Operand.get16, Mem.word, hlow, hhigh, Operand.get16, Mem.word]

/-- A byte that was put into the operand is what a later get returns. -/
theorem getRm8_put8 {v : Byte} (hr : SameRegisters m.cpu set.cpu)
    (hw : (m.operand modrm).Writable8 set.mem)
    (h : Revisits m ((m.operand modrm).put8 set v) m' (dispLength modrm)
      (m.operand modrm).place8) :
    (outcome (modrmGetRm8 modrm eaddr) m').1.1 = v := by
  have ho : m'.operand modrm = m.operand modrm := h.operand fun _ _ hmem => by rwa [hmem]
  rw [outcome_modrmGetRm8, ho]
  exact h.get8.trans (Operand.get8_put8 hw v)

/-- A word that was put into the operand is what a later get returns. -/
theorem getRm16_put16 {v : Word} (hr : SameRegisters m.cpu set.cpu)
    (hw : (m.operand modrm).Writable16 set.mem)
    (h : Revisits m ((m.operand modrm).put16 set v) m' (dispLength modrm)
      (m.operand modrm).place16) :
    (outcome (modrmGetRm16 modrm eaddr) m').1.1 = v := by
  have ho : m'.operand modrm = m.operand modrm := h.operand fun _ _ hmem => by rwa [hmem]
  rw [outcome_modrmGetRm16, ho]
  exact h.get16.trans (Operand.get16_put16 hw v)

end RoundTrip

/-- The values of a set come back: `o` is the operand, and `n` the number of its bytes. -/
structure RoundTrips (m : Machine δ) (modrm : Byte) (eaddr n : Word) (o : Operand) : Prop where
  rm8 : ∀ v m', o.Writable8 m.mem →
    Revisits m (outcome (modrmSetRm8 modrm v) m).2 m' n o.place8 →
    (outcome (modrmGetRm8 modrm eaddr) m').1.1 = v
  rm16 : ∀ v m', o.Writable16 m.mem →
    Revisits m (outcome (modrmSetRm16 modrm v) m).2 m' n o.place16 →
    (outcome (modrmGetRm16 modrm eaddr) m').1.1 = v
  /-- With the saved offset, in any later machine with the same registers. -/
  eaddr8 : ∀ v set m', SameRegisters m.cpu set.cpu → o.Writable8 set.mem →
    Revisits m (outcome (modrmSetRmEaddr8 modrm (o.saved eaddr) v) set).2 m' n o.place8 →
    (outcome (modrmGetRm8 modrm eaddr) m').1.1 = v
  eaddr16 : ∀ v set m', SameRegisters m.cpu set.cpu → o.Writable16 set.mem →
    Revisits m (outcome (modrmSetRmEaddr16 modrm (o.saved eaddr) v) set).2 m' n o.place16 →
    (outcome (modrmGetRm16 modrm eaddr) m').1.1 = v

/-- What is written through a decoder is read back through it, unless the place is read-only. -/
theorem roundTrips (m : Machine δ) (modrm : Byte) (eaddr : Word) :
    RoundTrips m modrm eaddr (dispLength modrm) (m.operand modrm) where
  rm8 v m' hw h := by
    have hr : SameRegisters m.cpu (m.skip (dispLength modrm)).cpu := rfl
    rw [outcome_modrmSetRm8] at h
    exact getRm8_put8 eaddr hr hw h
  rm16 v m' hw h := by
    have hr : SameRegisters m.cpu (m.skip (dispLength modrm)).cpu := rfl
    rw [outcome_modrmSetRm16] at h
    exact getRm16_put16 eaddr hr hw h
  -- the saved offset is read as it was decoded, while the segments stay
  eaddr8 v set m' hr hw h := by
    rw [(decodes m modrm eaddr).setRmEaddr8 set hr.segments] at h
    exact getRm8_put8 eaddr hr hw h
  eaddr16 v set m' hr hw h := by
    rw [(decodes m modrm eaddr).setRmEaddr16 set hr.segments] at h
    exact getRm16_put16 eaddr hr hw h

/-- **The ModRM decoders agree.** For every ModRM byte in every machine, all decoders consume
`dispLength` bytes and access one operand; the second byte of a word at offset 0xFFFF is at
offset 0 of its segment; and a value that is set through writable memory is what a later get
with the same displacement and registers returns. -/
theorem decoders_agree (m : Machine δ) (modrm : Byte) (eaddr : Word) :
    Decodes m modrm eaddr (dispLength modrm) (m.operand modrm) ∧
      RoundTrips m modrm eaddr (dispLength modrm) (m.operand modrm) ∧
      ∀ segment, m.operand modrm = .mem segment 0xFFFF → (m.operand modrm).get16 m =
        wordOf (m.mem.m (linear segment 0xFFFF)) (m.mem.m (linear segment 0)) := by
  refine ⟨decodes m modrm eaddr, roundTrips m modrm eaddr, fun segment ho => ?_⟩
  rw [ho]
  rfl

/-- `[0xFFFF]`, as an operand of a word: it comes back, although it wraps. -/
theorem decoders_agree_wrapped :
    let m := machineWith [0xFF, 0xFF]
    let stored := (outcome (modrmSetRm16 0x06 0x1234) m).2
    let again := { stored with cpu := { stored.cpu with ip := 0 } }
    Decodes m 0x06 0 2 (.mem 0 0xFFFF) ∧
      (outcome (modrmGetRm16 0x06 0) again).1.1 = 0x1234 ∧
      (m.operand 0x06).get16 m =
        wordOf (m.mem.m (linear 0 0xFFFF)) (m.mem.m (linear 0 0)) := by
  intro m stored again
  obtain ⟨hdecodes, hround, hwraps⟩ := decoders_agree m 0x06 0
  have hoperand : m.operand 0x06 = .mem 0 0xFFFF := by
    unfold Machine.operand
    decide +kernel
  have hlength : dispLength 0x06 = 2 := by decide
  rw [hoperand, hlength] at hdecodes
  refine ⟨hdecodes, hround.rm16 0x1234 again ?_ ⟨rfl, fun k hk => ?_, fun a _ => rfl⟩,
    hwraps 0 hoperand⟩
  · rw [hoperand]
    exact ⟨rfl, rfl⟩
  -- the displacement lies outside of the word
  have hcases : k = 0 ∨ k = 1 := by
    rw [hlength] at hk
    bv_omega
  rcases hcases with rfl | rfl <;> decide +kernel

end Pc20iii
