import Pc20iii.I8088.Prefix

/-!
# The encodings of the ALU operations

Each of `ADD`, `OR`, `ADC`, `SBB`, `AND`, `SUB`, `XOR` and `CMP` has six forms: two with a
register and an r/m operand, one with the accumulator and an immediate operand, and those of
the groups 80 to 83. An encoding has a destination, a source value and a length (`Encodes8`,
`Encodes16`), and these alone decide what it does: every form is `alu8` or `alu16` of its
operation (`Encodes8.run`, `Encodes16.run`).

The forms are translated in `Group.lean` from the cases of the source; that `CMP` writes back
nothing, or the value it has read, makes no difference here.
-/

namespace Pc20iii

open StateProgram

variable {δ : Type}

/-! ### What an ALU operation does -/

/-- The assignment of the flags. -/
def Machine.setFlags (m : Machine δ) (f : Flags) : Machine δ :=
  { m with cpu := { m.cpu with flags := f } }

section Flags

variable (m : Machine δ) (f : Flags)

@[simp] theorem setFlags_mem : (m.setFlags f).mem = m.mem := rfl

@[simp] theorem setFlags_operandAt (modrm : Byte) (offset : Word) :
    (m.setFlags f).cpu.operandAt modrm offset = m.cpu.operandAt modrm offset := rfl

@[simp] theorem setFlags_get8 (o : Operand) : o.get8 (m.setFlags f) = o.get8 m := by
  cases o with
  | reg r => rcases field_cases r with rfl | rfl | rfl | rfl | rfl | rfl | rfl | rfl <;> rfl
  | mem segment offset => rfl

@[simp] theorem setFlags_get16 (o : Operand) : o.get16 (m.setFlags f) = o.get16 m := by
  cases o with
  | reg r => rcases field_cases r with rfl | rfl | rfl | rfl | rfl | rfl | rfl | rfl <;> rfl
  | mem segment offset => rfl

/-- Writing back what was read, after an assignment to the flags. -/
@[simp] theorem put8_setFlags_get8 (o : Operand) :
    o.put8 (m.setFlags f) (o.get8 m) = m.setFlags f := by
  rw [← setFlags_get8 m f o, Operand.put8_get8]

@[simp] theorem put16_setFlags_get16 (o : Operand) :
    o.put16 (m.setFlags f) (o.get16 m) = m.setFlags f := by
  rw [← setFlags_get16 m f o, Operand.put16_get16]

@[simp] theorem put8_setFlags_skip_get8 (o : Operand) (k : Word) :
    o.put8 ((m.skip k).setFlags f) (o.get8 m) = (m.skip k).setFlags f := by
  rw [← skip_get8 m k o, put8_setFlags_get8]

@[simp] theorem put16_setFlags_skip_get16 (o : Operand) (k : Word) :
    o.put16 ((m.skip k).setFlags f) (o.get16 m) = (m.skip k).setFlags f := by
  rw [← skip_get16 m k o, put16_setFlags_get16]

@[simp] theorem outcome_withFlags {α : Type} (op : Flags → α × Flags) :
    outcome (withFlags op) m = ((op m.cpu.flags).1, m.setFlags (op m.cpu.flags).2) := by
  rfl

end Flags

/-- An operation on a byte operand: the flags first, then the result. -/
def alu8 (op : Alu8) (o : Operand) (v : Byte) (m : Machine δ) : Machine δ :=
  let result := op m.cpu.flags (o.get8 m) v
  o.put8 (m.setFlags result.2) result.1

/-- An operation on a word operand. -/
def alu16 (op : Alu16) (o : Operand) (v : Word) (m : Machine δ) : Machine δ :=
  let result := op m.cpu.flags (o.get16 m) v
  o.put16 (m.setFlags result.2) result.1

/-- `CMP`, as an operation that gives back its destination. -/
def cmp8 : Alu8 := fun f input1 input2 => (input1, i8088Cmp8 f input1 input2)
def cmp16 : Alu16 := fun f input1 input2 => (input1, i8088Cmp16 f input1 input2)

/-- `CMP` changes the flags only. -/
theorem alu8_cmp8 (o : Operand) (v : Byte) (m : Machine δ) :
    alu8 cmp8 o v m = m.setFlags (i8088Cmp8 m.cpu.flags (o.get8 m) v) :=
  put8_setFlags_get8 ..

theorem alu16_cmp16 (o : Operand) (v : Word) (m : Machine δ) :
    alu16 cmp16 o v m = m.setFlags (i8088Cmp16 m.cpu.flags (o.get16 m) v) :=
  put16_setFlags_get16 ..

/-! ### The forms -/

section Forms

variable (n : Machine δ) (eaddr : Word) (op8 : Alu8) (op16 : Alu16)

theorem outcome_aluRmReg8 :
    outcome (aluRmReg8 op8 eaddr) n =
      ((), alu8 op8 n.rm (n.cpu.reg8 (modrmReg (n.code 0))) (n.skip n.rmLength)) := by
  simp [aluRmReg8, alu8, Machine.rm, Machine.rmLength]

theorem outcome_aluRmReg16 :
    outcome (aluRmReg16 op16 eaddr) n =
      ((), alu16 op16 n.rm (n.cpu.reg16 (modrmReg (n.code 0))) (n.skip n.rmLength)) := by
  simp [aluRmReg16, alu16, Machine.rm, Machine.rmLength]

theorem outcome_aluRegRm8 :
    outcome (aluRegRm8 op8) n =
      ((), alu8 op8 (.reg (modrmReg (n.code 0))) (n.rm.get8 n) (n.skip n.rmLength)) := by
  simp [aluRegRm8, alu8, Machine.rm, Machine.rmLength, Operand.get8, Operand.put8]

theorem outcome_aluRegRm16 :
    outcome (aluRegRm16 op16) n =
      ((), alu16 op16 (.reg (modrmReg (n.code 0))) (n.rm.get16 n) (n.skip n.rmLength)) := by
  simp [aluRegRm16, alu16, Machine.rm, Machine.rmLength, Operand.get16, Operand.put16]

theorem outcome_aluAlImm :
    outcome (aluAlImm op8) n = ((), alu8 op8 (.reg 0) (n.code 0) (n.skip 1)) := by
  simp only [aluAlImm, outcome_bind, outcome_fetch, outcome_getCpu, outcome_withFlags,
    outcome_modifyCpu]
  rfl

theorem outcome_aluAxImm8 :
    outcome (aluAxImm8 op8) n = ((), alu8 op8 (.reg 0) (n.code 0) (n.skip 1)) := by
  simp only [aluAxImm8, outcome_bind, outcome_fetch, outcome_getCpu, outcome_withFlags,
    outcome_modifyCpu]
  rfl

theorem outcome_aluAxImm :
    outcome (aluAxImm op16) n = ((), alu16 op16 (.reg 0) (n.codeWord 0) (n.skip 2)) := by
  simp only [aluAxImm, outcome_bind, outcome_fetchWord, outcome_getCpu, outcome_withFlags,
    outcome_modifyCpu]
  rfl

theorem outcome_cmpRmReg8 :
    outcome cmpRmReg8 n =
      ((), alu8 cmp8 n.rm (n.cpu.reg8 (modrmReg (n.code 0))) (n.skip n.rmLength)) := by
  simp [cmpRmReg8, alu8_cmp8, Machine.rm, Machine.rmLength]
  rfl

theorem outcome_cmpRmReg16 :
    outcome cmpRmReg16 n =
      ((), alu16 cmp16 n.rm (n.cpu.reg16 (modrmReg (n.code 0))) (n.skip n.rmLength)) := by
  simp [cmpRmReg16, alu16_cmp16, Machine.rm, Machine.rmLength]
  rfl

theorem outcome_cmpRegRm8 :
    outcome cmpRegRm8 n =
      ((), alu8 cmp8 (.reg (modrmReg (n.code 0))) (n.rm.get8 n) (n.skip n.rmLength)) := by
  simp [cmpRegRm8, alu8_cmp8, Machine.rm, Machine.rmLength, Operand.get8]
  rfl

theorem outcome_cmpRegRm16 :
    outcome cmpRegRm16 n =
      ((), alu16 cmp16 (.reg (modrmReg (n.code 0))) (n.rm.get16 n) (n.skip n.rmLength)) := by
  simp [cmpRegRm16, alu16_cmp16, Machine.rm, Machine.rmLength, Operand.get16]
  rfl

theorem outcome_cmpAlImm :
    outcome cmpAlImm n = ((), alu8 cmp8 (.reg 0) (n.code 0) (n.skip 1)) := by
  simp only [cmpAlImm, outcome_bind, outcome_fetch, outcome_modifyCpu, alu8_cmp8]
  rfl

theorem outcome_cmpAxImm :
    outcome cmpAxImm n = ((), alu16 cmp16 (.reg 0) (n.codeWord 0) (n.skip 2)) := by
  simp only [cmpAxImm, outcome_bind, outcome_fetchWord, outcome_modifyCpu, alu16_cmp16]
  rfl

theorem outcome_i8088Opcode80 :
    outcome (i8088Opcode80 eaddr) n =
      ((), alu8 (group80 (modrmReg (n.code 0))) n.rm (n.code n.rmLength)
        (n.skip (n.rmLength + 1))) := by
  simp [i8088Opcode80, alu8, Machine.rm, Machine.rmLength]

theorem outcome_i8088Opcode81 :
    outcome (i8088Opcode81 eaddr) n =
      ((), alu16 (group81 (modrmReg (n.code 0))) n.rm (n.codeWord n.rmLength)
        (n.skip (n.rmLength + 2))) := by
  simp [i8088Opcode81, alu16, Machine.rm, Machine.rmLength]

theorem outcome_i8088Opcode83 :
    outcome (i8088Opcode83 eaddr) n =
      ((), alu16 (group81 (modrmReg (n.code 0))) n.rm ((n.code n.rmLength).signExtend 16)
        (n.skip (n.rmLength + 1))) := by
  simp [i8088Opcode83, alu16, Machine.rm, Machine.rmLength]

end Forms

/-! ### The encodings -/

/-- The ALU operations with six forms. -/
inductive AluOp where
  | add
  | or
  | adc
  | sbb
  | and
  | sub
  | xor
  | cmp
deriving DecidableEq, Repr

namespace AluOp

/-- The operation on bytes. -/
def run8 : AluOp → Alu8
  | add => i8088Add8
  | or => i8088Or8
  | adc => i8088Adc8
  | sbb => i8088Sbb8
  | and => i8088And8
  | sub => i8088Sub8
  | xor => i8088Xor8
  | cmp => cmp8

/-- The operation on words. -/
def run16 : AluOp → Alu16
  | add => i8088Add16
  | or => i8088Or16
  | adc => i8088Adc16
  | sbb => i8088Sbb16
  | and => i8088And16
  | sub => i8088Sub16
  | xor => i8088Xor16
  | cmp => cmp16

/-- The number of the operation: its field in the groups, and its place in the opcode. -/
def field : AluOp → BitVec 3
  | add => 0
  | or => 1
  | adc => 2
  | sbb => 3
  | and => 4
  | sub => 5
  | xor => 6
  | cmp => 7

/-- The opcode of one of the six forms outside the groups. -/
def opcode (op : AluOp) (form : Byte) : Byte := (op.field.setWidth 8 <<< 3) + form

theorem group80_field (op : AluOp) : Pc20iii.group80 op.field = op.run8 := by
  cases op <;> rfl

theorem group81_field (op : AluOp) : Pc20iii.group81 op.field = op.run16 := by
  cases op <;> rfl

end AluOp

/-- In `n`, where an opcode has just been consumed, the opcode and the bytes that follow
encode the byte operation `op` with a destination and a source value, in so many bytes. -/
inductive Encodes8 (op : AluOp) (n : Machine δ) : Byte → Operand → Byte → Word → Prop
  | rmReg : Encodes8 op n (op.opcode 0) n.rm (n.cpu.reg8 (modrmReg (n.code 0))) n.rmLength
  | regRm : Encodes8 op n (op.opcode 2) (.reg (modrmReg (n.code 0))) (n.rm.get8 n) n.rmLength
  | alImm : Encodes8 op n (op.opcode 4) (.reg 0) (n.code 0) 1
  | group80 (h : modrmReg (n.code 0) = op.field) :
      Encodes8 op n 0x80 n.rm (n.code n.rmLength) (n.rmLength + 1)
  | group82 (h : modrmReg (n.code 0) = op.field) :
      Encodes8 op n 0x82 n.rm (n.code n.rmLength) (n.rmLength + 1)

/-- The encodings of the word operation `op`. -/
inductive Encodes16 (op : AluOp) (n : Machine δ) : Byte → Operand → Word → Word → Prop
  | rmReg : Encodes16 op n (op.opcode 1) n.rm (n.cpu.reg16 (modrmReg (n.code 0))) n.rmLength
  | regRm : Encodes16 op n (op.opcode 3) (.reg (modrmReg (n.code 0))) (n.rm.get16 n) n.rmLength
  | axImm : Encodes16 op n (op.opcode 5) (.reg 0) (n.codeWord 0) 2
  | group81 (h : modrmReg (n.code 0) = op.field) :
      Encodes16 op n 0x81 n.rm (n.codeWord n.rmLength) (n.rmLength + 2)
  | group83 (h : modrmReg (n.code 0) = op.field) :
      Encodes16 op n 0x83 n.rm ((n.code n.rmLength).signExtend 16) (n.rmLength + 1)

section Encodings

variable {io : Devices δ} {eaddr : Word} {fuel : ℕ} {op : AluOp} {n : Machine δ} {opcode : Byte}
  {o : Operand} {len : Word}

/-- Every encoding of a byte operation does the operation. -/
theorem Encodes8.run {v : Byte} (h : Encodes8 op n opcode o v len) :
    outcome (i8088Opcode io eaddr fuel opcode) n = (true, alu8 op.run8 o v (n.skip len)) := by
  cases h with
  | rmReg =>
    cases op with
    -- `CMP` has a branch of its own in each form
    | cmp => exact outcome_i8088Opcode rfl (outcome_cmpRmReg8 n)
    | _ => exact outcome_i8088Opcode rfl (outcome_aluRmReg8 n eaddr _)
  | regRm =>
    cases op with
    | cmp => exact outcome_i8088Opcode rfl (outcome_cmpRegRm8 n)
    | _ => exact outcome_i8088Opcode rfl (outcome_aluRegRm8 n _)
  | alImm =>
    cases op with
    | cmp => exact outcome_i8088Opcode rfl (outcome_cmpAlImm n)
    | add => exact outcome_i8088Opcode rfl (outcome_aluAxImm8 n _)
    | adc => exact outcome_i8088Opcode rfl (outcome_aluAxImm8 n _)
    | _ => exact outcome_i8088Opcode rfl (outcome_aluAlImm n _)
  -- the groups take the operation from the `reg` field, as 82 does what 80 does
  | group80 hfield =>
    refine outcome_i8088Opcode rfl ?_
    rw [outcome_i8088Opcode80, hfield, op.group80_field]
  | group82 hfield =>
    refine outcome_i8088Opcode rfl ?_
    rw [outcome_i8088Opcode80, hfield, op.group80_field]

/-- Every encoding of a word operation does the operation. -/
theorem Encodes16.run {v : Word} (h : Encodes16 op n opcode o v len) :
    outcome (i8088Opcode io eaddr fuel opcode) n = (true, alu16 op.run16 o v (n.skip len)) := by
  cases h with
  | rmReg =>
    cases op with
    | cmp => exact outcome_i8088Opcode rfl (outcome_cmpRmReg16 n)
    | _ => exact outcome_i8088Opcode rfl (outcome_aluRmReg16 n eaddr _)
  | regRm =>
    cases op with
    | cmp => exact outcome_i8088Opcode rfl (outcome_cmpRegRm16 n)
    | _ => exact outcome_i8088Opcode rfl (outcome_aluRegRm16 n _)
  | axImm =>
    cases op with
    | cmp => exact outcome_i8088Opcode rfl (outcome_cmpAxImm n)
    | _ => exact outcome_i8088Opcode rfl (outcome_aluAxImm n _)
  -- the groups take the operation from the `reg` field
  | group81 hfield =>
    refine outcome_i8088Opcode rfl ?_
    rw [outcome_i8088Opcode81, hfield, op.group81_field]
  | group83 hfield =>
    refine outcome_i8088Opcode rfl ?_
    rw [outcome_i8088Opcode83, hfield, op.group81_field]

end Encodings

/-! ### Agreement of the encodings -/

namespace Agree

variable {m n : Machine δ} (h : Agree m n)

include h

theorem flags : n.cpu.flags = m.cpu.flags := by
  rw [h.cpu]

theorem get8 (o : Operand) : o.get8 n = o.get8 m := by
  cases o with
  | reg r =>
    rw [Operand.get8, h.cpu]
    rcases field_cases r with rfl | rfl | rfl | rfl | rfl | rfl | rfl | rfl <;> rfl
  | mem segment offset => rw [Operand.get8, h.mem, Operand.get8]

theorem get16 (o : Operand) : o.get16 n = o.get16 m := by
  cases o with
  | reg r =>
    rw [Operand.get16, h.cpu]
    rcases field_cases r with rfl | rfl | rfl | rfl | rfl | rfl | rfl | rfl <;> rfl
  | mem segment offset => rw [Operand.get16, h.mem, Operand.get16]

theorem setFlags (f : Flags) : Agree (m.setFlags f) (n.setFlags f) where
  cpu := by rw [Machine.setFlags, h.cpu]; rfl
  mem := h.mem
  fe2010 := h.fe2010
  dev := h.dev

theorem put8 (o : Operand) (v : Byte) : Agree (o.put8 m v) (o.put8 n v) := by
  cases o with
  | reg r =>
    refine ⟨?_, h.mem, h.fe2010, h.dev⟩
    rw [Operand.put8, Operand.put8, h.cpu]
    rcases field_cases r with rfl | rfl | rfl | rfl | rfl | rfl | rfl | rfl <;> rfl
  | mem segment offset =>
    exact ⟨h.cpu, by rw [Operand.put8, Operand.put8, h.mem], h.fe2010, h.dev⟩

theorem put16 (o : Operand) (v : Word) : Agree (o.put16 m v) (o.put16 n v) := by
  cases o with
  | reg r =>
    refine ⟨?_, h.mem, h.fe2010, h.dev⟩
    rw [Operand.put16, Operand.put16, h.cpu]
    rcases field_cases r with rfl | rfl | rfl | rfl | rfl | rfl | rfl | rfl <;> rfl
  | mem segment offset =>
    exact ⟨h.cpu, by rw [Operand.put16, Operand.put16, h.mem], h.fe2010, h.dev⟩

theorem alu8 (op : Alu8) (o : Operand) (v : Byte) :
    Agree (Pc20iii.alu8 op o v m) (Pc20iii.alu8 op o v n) := by
  rw [Pc20iii.alu8, Pc20iii.alu8, h.flags, h.get8]
  exact (h.setFlags _).put8 ..

theorem alu16 (op : Alu16) (o : Operand) (v : Word) :
    Agree (Pc20iii.alu16 op o v m) (Pc20iii.alu16 op o v n) := by
  rw [Pc20iii.alu16, Pc20iii.alu16, h.flags, h.get16]
  exact (h.setFlags _).put16 ..

end Agree

/-- The flags are all that changes, apart from the instruction pointer and the latches. -/
def OnlyFlags (m m' : Machine δ) : Prop := ∃ f, Agree (m.setFlags f) m'

/-- An assignment to the flags that reads the registers. -/
theorem outcome_modifyCpu_flags (g : I8088 → Flags) (m : Machine δ) :
    outcome (modifyCpu fun c => { c with flags := g c }) m = ((), m.setFlags (g m.cpu)) := by
  rfl

/-- `TEST` through 0xF6 writes back the operand it has read. -/
theorem outcome_testF6 {n : Machine δ} (eaddr : Word)
    (h : modrmReg (n.code 0) = 0 ∨ modrmReg (n.code 0) = 1) :
    outcome (i8088OpcodeF6 eaddr) n =
      ((), (n.skip (n.rmLength + 1)).setFlags
        (i8088And8 n.cpu.flags (n.code n.rmLength) (n.rm.get8 n)).2) := by
  have htest : outcome (i8088OpcodeF6 eaddr) n =
      outcome (testRmImm8 (n.code 0) (n.rm.get8 n, n.rm.saved eaddr)) (n.skip n.rmLength) := by
    simp only [i8088OpcodeF6, outcome_bind, outcome_fetch, outcome_modrmGetRm8]
    rcases h with h | h <;> rw [h] <;> simp [Machine.rm, Machine.rmLength]
  rw [htest, testRmImm8, outcome_bind, outcome_fetch, outcome_bind, outcome_modifyCpu_flags,
    outcome_modrmSetRmEaddr8]
  simp [Machine.rm]

/-- `TEST` through 0xF7 writes back the operand it has read. -/
theorem outcome_testF7 {n : Machine δ} (eaddr : Word)
    (h : modrmReg (n.code 0) = 0 ∨ modrmReg (n.code 0) = 1) :
    outcome (i8088OpcodeF7 eaddr) n =
      ((), (n.skip (n.rmLength + 2)).setFlags
        (i8088And16 n.cpu.flags (n.codeWord n.rmLength) (n.rm.get16 n)).2) := by
  have htest : outcome (i8088OpcodeF7 eaddr) n =
      outcome (testRmImm16 (n.code 0) (n.rm.get16 n, n.rm.saved eaddr)) (n.skip n.rmLength) := by
    simp only [i8088OpcodeF7, outcome_bind, outcome_fetch, outcome_modrmGetRm16]
    rcases h with h | h <;> rw [h] <;> simp [Machine.rm, Machine.rmLength]
  rw [htest, testRmImm16, outcome_bind, outcome_fetchWord, outcome_bind, outcome_modifyCpu_flags,
    outcome_modrmSetRmEaddr16]
  simp [Machine.rm]

/-- Behind the prefixes and the operands, machines that agreed still do. -/
theorem agree_skip {m₁ n₁ m₂ n₂ : Machine δ} {fuel₁ fuel₂ : ℕ} {opcode₁ opcode₂ : Byte}
    (hm : Agree m₁ m₂) (hd₁ : Dispatches m₁ fuel₁ opcode₁ n₁)
    (hd₂ : Dispatches m₂ fuel₂ opcode₂ n₂) (len₁ len₂ : Word) :
    Agree (n₁.skip len₁) (n₂.skip len₂) := by
  have hn : Agree n₁ n₂ := (hd₁.agree.symm.trans hm).trans hd₂.agree
  exact ((Agree.skip n₁ len₁).symm.trans hn).trans (.skip n₂ len₂)

/-- **The encodings of an ALU operation agree.** From machines that agree, two encodings of
one operation with the same destination and source value lead to machines that agree: they
differ at most in the instruction pointer, the latches of the prefixes and the history. Each
encoding consumes its bytes and does the operation. `CMP`, and `TEST` through the groups F6
and F7, change the flags only. -/
theorem alu_encodings_agree (io : Devices δ) (op : AluOp) :
    (∀ {m n : Machine δ} {fuel opcode o v len} (eaddr), Dispatches m fuel opcode n →
      Encodes8 op n opcode o v len →
      outcome (i8088Execute io eaddr fuel) m = (true, alu8 op.run8 o v (n.skip len))) ∧
    (∀ {m n : Machine δ} {fuel opcode o v len} (eaddr), Dispatches m fuel opcode n →
      Encodes16 op n opcode o v len →
      outcome (i8088Execute io eaddr fuel) m = (true, alu16 op.run16 o v (n.skip len))) ∧
    (∀ {m₁ n₁ m₂ n₂ : Machine δ} {fuel₁ fuel₂ opcode₁ opcode₂ o v len₁ len₂} (eaddr₁ eaddr₂),
      Agree m₁ m₂ → Dispatches m₁ fuel₁ opcode₁ n₁ → Dispatches m₂ fuel₂ opcode₂ n₂ →
      Encodes8 op n₁ opcode₁ o v len₁ → Encodes8 op n₂ opcode₂ o v len₂ →
      Agree (outcome (i8088Execute io eaddr₁ fuel₁) m₁).2
        (outcome (i8088Execute io eaddr₂ fuel₂) m₂).2) ∧
    (∀ {m₁ n₁ m₂ n₂ : Machine δ} {fuel₁ fuel₂ opcode₁ opcode₂ o v len₁ len₂} (eaddr₁ eaddr₂),
      Agree m₁ m₂ → Dispatches m₁ fuel₁ opcode₁ n₁ → Dispatches m₂ fuel₂ opcode₂ n₂ →
      Encodes16 op n₁ opcode₁ o v len₁ → Encodes16 op n₂ opcode₂ o v len₂ →
      Agree (outcome (i8088Execute io eaddr₁ fuel₁) m₁).2
        (outcome (i8088Execute io eaddr₂ fuel₂) m₂).2) ∧
    (∀ {m n : Machine δ} {fuel opcode o v len} (eaddr), Dispatches m fuel opcode n →
      Encodes8 .cmp n opcode o v len → OnlyFlags m (outcome (i8088Execute io eaddr fuel) m).2) ∧
    (∀ {m n : Machine δ} {fuel opcode o v len} (eaddr), Dispatches m fuel opcode n →
      Encodes16 .cmp n opcode o v len → OnlyFlags m (outcome (i8088Execute io eaddr fuel) m).2) ∧
    ∀ {m n : Machine δ} {fuel opcode} (eaddr), Dispatches m fuel opcode n →
      opcode = 0xF6 ∨ opcode = 0xF7 → modrmReg (n.code 0) = 0 ∨ modrmReg (n.code 0) = 1 →
      OnlyFlags m (outcome (i8088Execute io eaddr fuel) m).2 := by
  have hone8 : ∀ {op : AluOp} {m n : Machine δ} {fuel opcode o v len} (eaddr),
      Dispatches m fuel opcode n → Encodes8 op n opcode o v len →
      outcome (i8088Execute io eaddr fuel) m = (true, alu8 op.run8 o v (n.skip len)) :=
    fun eaddr hd he => (hd.execute io eaddr).trans he.run
  have hone16 : ∀ {op : AluOp} {m n : Machine δ} {fuel opcode o v len} (eaddr),
      Dispatches m fuel opcode n → Encodes16 op n opcode o v len →
      outcome (i8088Execute io eaddr fuel) m = (true, alu16 op.run16 o v (n.skip len)) :=
    fun eaddr hd he => (hd.execute io eaddr).trans he.run
  -- what two encodings do is what either does on its own
  refine ⟨hone8, hone16, ?_, ?_, ?_, ?_, ?_⟩
  · intro m₁ n₁ m₂ n₂ fuel₁ fuel₂ opcode₁ opcode₂ o v len₁ len₂ eaddr₁ eaddr₂ hm hd₁ hd₂ he₁ he₂
    rw [hone8 eaddr₁ hd₁ he₁, hone8 eaddr₂ hd₂ he₂]
    exact (agree_skip hm hd₁ hd₂ len₁ len₂).alu8 ..
  · intro m₁ n₁ m₂ n₂ fuel₁ fuel₂ opcode₁ opcode₂ o v len₁ len₂ eaddr₁ eaddr₂ hm hd₁ hd₂ he₁ he₂
    rw [hone16 eaddr₁ hd₁ he₁, hone16 eaddr₂ hd₂ he₂]
    exact (agree_skip hm hd₁ hd₂ len₁ len₂).alu16 ..
  · -- a comparison ends in its flags
    intro m n fuel opcode o v len eaddr hd he
    rw [hone8 eaddr hd he]
    exact ⟨_, by rw [AluOp.run8, alu8_cmp8]; exact (hd.agree.trans (.skip n len)).setFlags _⟩
  · intro m n fuel opcode o v len eaddr hd he
    rw [hone16 eaddr hd he]
    exact ⟨_, by rw [AluOp.run16, alu16_cmp16]; exact (hd.agree.trans (.skip n len)).setFlags _⟩
  · -- `TEST` is in the group tables and not among the operations
    intro m n fuel opcode eaddr hd hopcode hfield
    rw [hd.execute io eaddr]
    rcases hopcode with rfl | rfl
    · rw [outcome_i8088Opcode rfl (outcome_testF6 eaddr hfield)]
      exact ⟨_, (hd.agree.trans (.skip n _)).setFlags _⟩
    · rw [outcome_i8088Opcode rfl (outcome_testF7 eaddr hfield)]
      exact ⟨_, (hd.agree.trans (.skip n _)).setFlags _⟩

/-- A machine that is about to execute the bytes from one of them on. -/
def machineAt (code : List Byte) (ip : Word) : Machine Unit :=
  let m := machineWith code
  { m with cpu := { m.cpu with ip := ip } }

/-- `ADD AL, 5` as 04 and as 80 /0, `ADD AX, 0x1234` as 05 and as 81 /0, and `CMP AL, 5`. -/
theorem alu_encodings_agree_immediate :
    let after (code : List Byte) (ip : Word) :=
      (outcome (i8088Execute Devices.none 0 1) (machineAt code ip)).2
    let bytes := [0x04, 0x05, 0x80, 0xC0, 0x05]
    let words := [0x05, 0x34, 0x12, 0x81, 0xC0, 0x34, 0x12]
    Agree (after bytes 0) (after bytes 2) ∧ Agree (after words 0) (after words 3) ∧
      OnlyFlags (machineAt [0x3C, 0x05] 0) (after [0x3C, 0x05] 0) := by
  intro after bytes words
  have hagree : ∀ code ip ip', Agree (machineAt code ip) (machineAt code ip') :=
    fun code ip ip' => ⟨rfl, rfl, rfl, rfl⟩
  have hd : ∀ {code : List Byte} {ip : Word} (opcode : Byte),
      (outcome (i8088Decode 1) (machineAt code ip)).1 = some opcode →
      Dispatches (machineAt code ip) 1 opcode (outcome (i8088Decode 1) (machineAt code ip)).2 :=
    fun _ hopcode => ⟨rfl, Prod.ext hopcode rfl⟩
  obtain ⟨-, -, hbytes, hwords, -⟩ := alu_encodings_agree (Devices.none : Devices Unit) .add
  obtain ⟨-, -, -, -, hcompares, -⟩ := alu_encodings_agree (Devices.none : Devices Unit) .cmp
  let start (code : List Byte) (ip : Word) := (outcome (i8088Decode 1) (machineAt code ip)).2
  refine ⟨?_, ?_, ?_⟩
  -- the group has its immediate byte behind the ModRM byte
  · have hgroup : Encodes8 .add (start bytes 2) 0x80 (start bytes 2).rm
        ((start bytes 2).code (start bytes 2).rmLength) _ := .group80 (by decide)
    have hrm : (start bytes 2).rm = .reg 0 := by decide +kernel
    have hvalue : (start bytes 2).code (start bytes 2).rmLength = (start bytes 0).code 0 := by
      decide +kernel
    rw [hrm, hvalue] at hgroup
    exact hbytes 0 0 (hagree ..) (hd 0x04 (by decide)) (hd 0x80 (by decide)) .alImm hgroup
  · have hgroup : Encodes16 .add (start words 3) 0x81 (start words 3).rm
        ((start words 3).codeWord (start words 3).rmLength) _ := .group81 (by decide)
    have hrm : (start words 3).rm = .reg 0 := by decide +kernel
    have hvalue : (start words 3).codeWord (start words 3).rmLength =
        (start words 0).codeWord 0 := by
      decide +kernel
    rw [hrm, hvalue] at hgroup
    exact hwords 0 0 (hagree ..) (hd 0x05 (by decide)) (hd 0x81 (by decide)) .axImm hgroup
  · exact hcompares 0 (hd 0x3C (by decide)) .alImm

end Pc20iii
