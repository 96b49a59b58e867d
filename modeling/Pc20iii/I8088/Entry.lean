import Pc20iii.I8088.Stack

/-!
# Entering and leaving interrupts

Every way an interrupt is entered, and the round trip to `IRET` (`iret_resumes`).

Five kinds of instruction call `i8088_interrupt` (`Interrupts`): `INT`, `INT 3`, `INTO`, the
divisions and `AAM`. The hardware request calls it as well, and clears IF when the frame has
been pushed. In every case the frame has the registers of the interrupted program, `e`, with
the address of the next instruction (`Enters.entered`).
-/

namespace Pc20iii

open StateProgram

variable {δ : Type}

/-! ### Faults -/

namespace I8088

/-- `DIV` of a byte fails: the divisor is 0, or the quotient is too large. -/
def Div8Fails (c : I8088) (input : Byte) : Prop :=
  input = 0 ∨ c.ax / input.setWidth 16 > 0xFF

/-- `DIV` of a word fails. -/
def Div16Fails (c : I8088) (input : Word) : Prop :=
  input = 0 ∨ c.dxax / input.setWidth 32 > 0xFFFF

/-- The quotient of `IDIV` of a byte. -/
def idiv8 (c : I8088) (input : Byte) : Word :=
  ((c.ax.signExtend 32).sdiv (input.signExtend 32)).setWidth 16

/-- `IDIV` of a byte fails: the divisor is 0, or the quotient is out of range. -/
def Idiv8Fails (c : I8088) (input : Byte) : Prop :=
  input = 0 ∨ c.ax = 0x8000 ∨ (c.idiv8 input).toInt > 127 ∨ (c.idiv8 input).toInt ≤ -128

/-- The quotient of `IDIV` of a word. -/
def idiv16 (c : I8088) (input : Word) : BitVec 32 := c.dxax.sdiv (input.signExtend 32)

/-- `IDIV` of a word fails. -/
def Idiv16Fails (c : I8088) (input : Word) : Prop :=
  input = 0 ∨ (c.dx = 0x8000 ∧ c.ax = 0) ∨ (c.idiv16 input).toInt > 32767 ∨
    (c.idiv16 input).toInt ≤ -32768

end I8088

section Faults

variable {m : Machine δ}

theorem outcome_i8088Div8_of_fails {input : Byte} (h : m.cpu.Div8Fails input) :
    outcome (i8088Div8 input) m = ((), m.interrupted intDivideError) := by
  simp only [i8088Div8, outcome_bind, outcome_getCpu, outcome_ite, outcome_i8088Interrupt]
  split_ifs with h₀ h₁
  · rfl
  · rfl
  · exact absurd h (not_or.mpr ⟨h₀, h₁⟩)

theorem outcome_i8088Div16_of_fails {input : Word} (h : m.cpu.Div16Fails input) :
    outcome (i8088Div16 input) m = ((), m.interrupted intDivideError) := by
  simp only [i8088Div16, outcome_bind, outcome_getCpu, outcome_ite, outcome_i8088Interrupt]
  split_ifs with h₀ h₁
  · rfl
  · rfl
  · exact absurd h (not_or.mpr ⟨h₀, h₁⟩)

theorem outcome_i8088Idiv8_of_fails {input : Byte} (h : m.cpu.Idiv8Fails input) :
    outcome (i8088Idiv8 input) m = ((), m.interrupted intDivideError) := by
  simp only [i8088Idiv8, outcome_bind, outcome_getCpu, outcome_ite, outcome_i8088Interrupt]
  split_ifs with h₀ h₁ h₂
  · rfl
  · rfl
  · rfl
  · exact absurd h (not_or.mpr ⟨h₀, not_or.mpr ⟨h₁, h₂⟩⟩)

theorem outcome_i8088Idiv16_of_fails {input : Word} (h : m.cpu.Idiv16Fails input) :
    outcome (i8088Idiv16 input) m = ((), m.interrupted intDivideError) := by
  simp only [i8088Idiv16, outcome_bind, outcome_getCpu, outcome_ite, outcome_i8088Interrupt]
  split_ifs with h₀ h₁ h₂
  · rfl
  · rfl
  · rfl
  · exact absurd h (not_or.mpr ⟨h₀, not_or.mpr ⟨h₁, h₂⟩⟩)

theorem outcome_aam_of_zero (h : m.code 0 = 0) :
    outcome aam m = ((), (m.skip 1).interrupted intDivideError) := by
  rw [aam, outcome_bind, outcome_fetch, if_pos h, outcome_i8088Interrupt]

theorem outcome_into_of_set (h : m.cpu.flags.o = true) :
    outcome into m = ((), m.interrupted intOverflow) := by
  rw [into, outcome_bind, outcome_getCpu, if_pos h, outcome_i8088Interrupt]

end Faults

/-! ### Entries -/

/-- In `n`, where an opcode has just been consumed, the instruction calls `i8088_interrupt`:
the opcode, the number of the interrupt, and the bytes of the instruction that are left. -/
inductive Interrupts (n : Machine δ) : Byte → Byte → Word → Prop
  | int3 : Interrupts n 0xCC int1Byte 0
  | int : Interrupts n 0xCD (n.code 0) 1
  | into (h : n.cpu.flags.o = true) : Interrupts n 0xCE intOverflow 0
  | div8 (hfield : modrmReg (n.code 0) = 6) (h : n.cpu.Div8Fails (n.rm.get8 n)) :
      Interrupts n 0xF6 intDivideError n.rmLength
  | idiv8 (hfield : modrmReg (n.code 0) = 7) (h : n.cpu.Idiv8Fails (n.rm.get8 n)) :
      Interrupts n 0xF6 intDivideError n.rmLength
  | div16 (hfield : modrmReg (n.code 0) = 6) (h : n.cpu.Div16Fails (n.rm.get16 n)) :
      Interrupts n 0xF7 intDivideError n.rmLength
  | idiv16 (hfield : modrmReg (n.code 0) = 7) (h : n.cpu.Idiv16Fails (n.rm.get16 n)) :
      Interrupts n 0xF7 intDivideError n.rmLength
  | aam (h : n.code 0 = 0) : Interrupts n 0xD4 intDivideError 1

/-- Every instruction that interrupts leaves the machine as `i8088_interrupt` does, with the
instruction behind it. -/
theorem Interrupts.effect {n : Machine δ} {opcode intNo : Byte} {length : Word}
    (h : Interrupts n opcode intNo length) (io : Devices δ) (eaddr : Word) (fuel : ℕ) :
    outcome (i8088Opcode io eaddr fuel opcode) n =
      (true, (n.skip length).interrupted intNo) := by
  cases h with
  | int3 =>
    rw [outcome_i8088Opcode rfl (outcome_i8088Interrupt int1Byte n)]
    exact congrArg _ (congrArg (·.interrupted int1Byte) (skip_zero n).symm)
  | int =>
    refine outcome_i8088Opcode rfl ?_
    rw [outcome_bind, outcome_fetch, outcome_i8088Interrupt]
  | into h =>
    rw [outcome_i8088Opcode rfl (outcome_into_of_set h)]
    exact congrArg _ (congrArg (·.interrupted intOverflow) (skip_zero n).symm)
  -- a division that fails has decoded its operand, so that the frame has the address behind it
  | div8 hfield h =>
    refine outcome_i8088Opcode rfl ?_
    simp only [i8088OpcodeF6, outcome_bind, outcome_fetch, outcome_modrmGetRm8, skip_skip]
    rw [hfield]
    exact outcome_i8088Div8_of_fails (m := n.skip n.rmLength) h
  | idiv8 hfield h =>
    refine outcome_i8088Opcode rfl ?_
    simp only [i8088OpcodeF6, outcome_bind, outcome_fetch, outcome_modrmGetRm8, skip_skip]
    rw [hfield]
    exact outcome_i8088Idiv8_of_fails (m := n.skip n.rmLength) h
  | div16 hfield h =>
    refine outcome_i8088Opcode rfl ?_
    simp only [i8088OpcodeF7, outcome_bind, outcome_fetch, outcome_modrmGetRm16, skip_skip]
    rw [hfield]
    exact outcome_i8088Div16_of_fails (m := n.skip n.rmLength) h
  | idiv16 hfield h =>
    refine outcome_i8088Opcode rfl ?_
    simp only [i8088OpcodeF7, outcome_bind, outcome_fetch, outcome_modrmGetRm16, skip_skip]
    rw [hfield]
    exact outcome_i8088Idiv16_of_fails (m := n.skip n.rmLength) h
  | aam h =>
    exact outcome_i8088Opcode rfl (outcome_aam_of_zero h)

/-- A halted CPU is woken. -/
def Machine.awake (m : Machine δ) : Machine δ :=
  { m with cpu := { m.cpu with halt := false } }

/-- An interrupt is entered in `m`: by an instruction, or by a request of the hardware. The
interrupted program is in state `e`, and the handler starts in `m'`. -/
inductive Enters (io : Devices δ) (m : Machine δ) : Bool → Machine δ → Machine δ → Prop
  | software {fuel : ℕ} {opcode intNo : Byte} {length : Word} {n : Machine δ} (eaddr : Word)
      (hd : Dispatches m fuel opcode n) (h : Interrupts n opcode intNo length) :
      Enters io m false (n.skip length) (outcome (i8088Execute io eaddr fuel) m).2
  | hardware (irqNo : Fin 8) (hi : m.cpu.flags.i = true) :
      Enters io m true (m.accepting irqNo) (outcome (i8088Irq irqNo) m).2

/-- The flags that a handler starts with: a software interrupt leaves IF as it is. -/
def Flags.entered (f : Flags) (hardware : Bool) : Flags :=
  { f with t := false, i := f.i && !hardware }

/-- An entry, by an instruction or by a line, pushes the frame and changes nothing but CS, IP, SP
and the flags. -/
theorem Enters.entered {io : Devices δ} {m e m' : Machine δ} {hardware : Bool}
    (h : Enters io m hardware e m') :
    Agree m.awake e ∧ m'.mem = e.frame ∧ m'.fe2010 = e.fe2010 ∧ m'.dev = e.dev ∧
      m'.cpu = { e.cpu with
        ip := m'.cpu.ip, cs := m'.cpu.cs, sp := e.cpu.sp - 6
        flags := e.cpu.flags.entered hardware } := by
  cases h with
  | software eaddr hd h =>
    -- an instruction is executed by a CPU that is not halted
    have hawake : m.awake = m := by
      rw [Machine.awake, ← hd.running]
    rw [hd.execute io eaddr, h.effect, hawake]
    refine ⟨hd.agree.trans (.skip ..), rfl, rfl, rfl, ?_⟩
    simp [Machine.interrupted, Flags.entered]
  | hardware irqNo hi =>
    rw [outcome_i8088Irq_of_set hi]
    refine ⟨⟨rfl, rfl, rfl, rfl⟩, rfl, rfl, rfl, ?_⟩
    simp [Machine.irqEntered, Machine.interrupted, Flags.entered]

/-! ### The frame -/

section Frame

variable (m : Machine δ)

theorem frame_eq :
    m.frame = ((m.mem.storeWord m.cpu.ss (m.cpu.sp - 6) m.cpu.ip).storeWord m.cpu.ss
      (m.cpu.sp - 4) m.cpu.cs).storeWord m.cpu.ss (m.cpu.sp - 2) m.cpu.flags.toWord := by
  have hcs : m.cpu.sp - 6 + 2 = m.cpu.sp - 4 := by bv_omega
  have hflags : m.cpu.sp - 6 + 4 = m.cpu.sp - 2 := by bv_omega
  rw [Machine.frame, hcs, hflags]

theorem frame_outside {a : BitVec 20} (h : ¬ m.cpu.Below 6 a) : m.frame.m a = m.mem.m a := by
  rw [frame_eq]
  calc _ = _ := storeWord_outside (k := 0) h _ _ (by omega)
    _ = _ := storeWord_outside (k := 2) h _ _ (by omega)
    _ = _ := storeWord_outside (k := 4) h _ _ (by omega)

variable {m} (h : m.StackWritable 6)

include h

theorem frame_ip : m.frame.word m.cpu.ss (m.cpu.sp - 6) = m.cpu.ip := by
  rw [frame_eq, Mem.word_storeWord_of_apart _ (by bv_omega) (by bv_omega) (by bv_omega),
    Mem.word_storeWord_of_apart _ (by bv_omega) (by bv_omega) (by bv_omega)]
  exact word_storeWord_below (k := 4) h _ le_rfl

theorem frame_cs : m.frame.word m.cpu.ss (m.cpu.sp - 4) = m.cpu.cs := by
  rw [frame_eq, Mem.word_storeWord_of_apart _ (by bv_omega) (by bv_omega) (by bv_omega)]
  refine word_storeWord_below (k := 2) (fun k hk => ?_) _ (by omega : 2 + 2 ≤ 6)
  rw [Mem.storeWord_writable]
  exact h k hk

theorem frame_flags : m.frame.word m.cpu.ss (m.cpu.sp - 2) = m.cpu.flags.toWord := by
  rw [frame_eq]
  refine word_storeWord_below (k := 0) (fun k hk => ?_) _ (by omega : 0 + 2 ≤ 6)
  rw [Mem.storeWord_writable, Mem.storeWord_writable]
  exact h k hk

end Frame

/-! ### `IRET` -/

/-- The flags with the reserved bits as `IRET` forces them. -/
def Flags.forced (f : Flags) : Flags := { f with x1 := true, x2 := false, x3 := false, x4 := 0xF }

theorem Flags.getElem_toWord (f : Flags) {k : ℕ} (hk : k < 16) :
    f.toWord[k] = f.bits.getD k false := by
  rw [← BitVec.getLsbD_eq_getElem, Flags.getLsbD_toWord]

theorem ofWord_reservedFlags (f : Flags) : Flags.ofWord (reservedFlags f.toWord) = f.forced := by
  have hx4 : (reservedFlags f.toWord).extractLsb' 12 4 = 0xF := by
    apply BitVec.eq_of_getLsbD_eq
    intro k hk
    rw [BitVec.getLsbD_extractLsb', reservedFlags]
    interval_cases k <;> simp
  rw [Flags.ofWord, hx4, reservedFlags]
  simp [Flags.getElem_toWord, Flags.bits, Flags.forced]

/-- The machine after `IRET`. -/
def Machine.resumed (n : Machine δ) : Machine δ :=
  { n with cpu := { n.cpu with
      ip := n.mem.word n.cpu.ss n.cpu.sp
      cs := n.mem.word n.cpu.ss (n.cpu.sp + 2)
      flags := Flags.ofWord (reservedFlags (n.mem.word n.cpu.ss (n.cpu.sp + 4)))
      sp := n.cpu.sp + 6 } }

theorem outcome_iret (n : Machine δ) : outcome iret n = ((), n.resumed) := by
  simp [iret, addSp, Machine.resumed]

/-- When an interrupt of `e` has been entered the frame of `e` is below its stack pointer, and
nothing else has changed but CS:IP and the flags. -/
structure Interrupted (e m : Machine δ) : Prop where
  cpu : m.cpu = { e.cpu with
    ip := m.cpu.ip, cs := m.cpu.cs, sp := e.cpu.sp - 6, flags := m.cpu.flags }
  ip : m.mem.word e.cpu.ss (e.cpu.sp - 6) = e.cpu.ip
  cs : m.mem.word e.cpu.ss (e.cpu.sp - 4) = e.cpu.cs
  flags : m.mem.word e.cpu.ss (e.cpu.sp - 2) = e.cpu.flags.toWord
  outside : ∀ a, ¬ e.cpu.Below 6 a → m.mem.m a = e.mem.m a
  fe2010 : m.fe2010 = e.fe2010
  dev : m.dev = e.dev

theorem Enters.interrupted {io : Devices δ} {m e m' : Machine δ} {hardware : Bool}
    (h : Enters io m hardware e m') (hstack : m.StackWritable 6) : Interrupted e m' := by
  obtain ⟨hagree, hmem, hfe, hdev, hcpu⟩ := h.entered
  have hwritable : e.StackWritable 6 := hagree.stackWritable hstack
  refine ⟨?_, ?_, ?_, ?_, ?_, hfe, hdev⟩
  · rw [hcpu]
  · rw [hmem, frame_ip hwritable]
  · rw [hmem, frame_cs hwritable]
  · rw [hmem, frame_flags hwritable]
  · intro a ha
    rw [hmem, frame_outside e ha]

/-- `IRET` finds what the entry has left. -/
theorem Interrupted.resumed {e m r n : Machine δ} (h : Interrupted e m)
    (hss : r.cpu.ss = m.cpu.ss) (hsp : r.cpu.sp = m.cpu.sp)
    (hframe : ∀ a, e.cpu.Below 6 a → r.mem.m a = m.mem.m a) (hn : Agree r n) :
    n.resumed.cpu.ip = e.cpu.ip ∧
      Agree { r with cpu := { r.cpu with
        cs := e.cpu.cs, sp := e.cpu.sp, flags := e.cpu.flags.forced } } n.resumed := by
  have hss' : n.cpu.ss = e.cpu.ss := by rw [hn.cpu, hss, h.cpu]
  have hsp' : n.cpu.sp = e.cpu.sp - 6 := by rw [hn.cpu, hsp, h.cpu]
  have hsp₂ : n.cpu.sp + 2 = e.cpu.sp - 4 := by bv_omega
  have hsp₄ : n.cpu.sp + 4 = e.cpu.sp - 2 := by bv_omega
  -- the three words of the frame are where SP stands, in the order of the pops
  have hip : n.mem.word n.cpu.ss n.cpu.sp = e.cpu.ip := by
    rw [hss', hsp', hn.mem, ← h.ip]
    exact word_below_congr (k := 4) hframe le_rfl
  have hcs : n.mem.word n.cpu.ss (n.cpu.sp + 2) = e.cpu.cs := by
    rw [hss', hsp₂, hn.mem, ← h.cs]
    exact word_below_congr (k := 2) hframe (by omega)
  have hflags : n.mem.word n.cpu.ss (n.cpu.sp + 4) = e.cpu.flags.toWord := by
    rw [hss', hsp₄, hn.mem, ← h.flags]
    exact word_below_congr (k := 0) hframe (by omega)
  have hsp₆ : n.cpu.sp + 6 = e.cpu.sp := by bv_omega
  refine ⟨hip, ?_, hn.mem, hn.fe2010, hn.dev⟩
  calc n.resumed.cpu
      = { n.cpu with
          ip := n.resumed.cpu.ip, cs := e.cpu.cs, sp := e.cpu.sp
          flags := e.cpu.flags.forced } := by
        rw [← hcs, ← hsp₆, ← ofWord_reservedFlags, ← hflags]
        rfl
    _ = _ := by
      rw [hn.cpu]
      rfl

/-- **`IRET` resumes the interrupted program.** However an interrupt was entered, `IRET` with the
frame in place restores CS, IP, SP and FLAGS, the reserved bits apart, and changes neither
memory nor another register; the entry has changed no other register either, and no memory but
the six bytes below SS:SP, wherever SP wraps. -/
theorem iret_resumes {io : Devices δ} {m e m' r n : Machine δ} {hardware : Bool} {fuel : ℕ}
    (h : Enters io m hardware e m') (hstack : m.StackWritable 6) (hss : r.cpu.ss = m'.cpu.ss)
    (hsp : r.cpu.sp = m'.cpu.sp) (hframe : ∀ a, m.cpu.Below 6 a → r.mem.m a = m'.mem.m a)
    (hd : Dispatches r fuel 0xCF n) (eaddr : Word) :
    (∃ s, outcome (i8088Execute io eaddr fuel) r = (true, s) ∧
      s.cpu.ip = e.cpu.ip ∧
      Agree { r with cpu := { r.cpu with
        cs := m.cpu.cs, sp := m.cpu.sp, flags := m.cpu.flags.forced } } s) ∧
    Agree { m.awake with
      mem := m'.mem
      cpu := { m.awake.cpu with cs := m'.cpu.cs, sp := m'.cpu.sp, flags := m'.cpu.flags } } m' ∧
    ∀ a, ¬ m.cpu.Below 6 a → m'.mem.m a = m.mem.m a := by
  -- the entry starts from the machine that was interrupted, out of `HLT`
  have hagree : Agree m.awake e := h.entered.1
  have hinterrupted := h.interrupted hstack
  have hbelow : ∀ a, e.cpu.Below 6 a ↔ m.cpu.Below 6 a := fun a => hagree.below
  have hcs : e.cpu.cs = m.cpu.cs := by
    rw [hagree.cpu]
    rfl
  have hsp₀ : e.cpu.sp = m.cpu.sp := by
    rw [hagree.cpu]
    rfl
  have hflags : e.cpu.flags = m.cpu.flags := by
    rw [hagree.cpu]
    rfl
  obtain ⟨hip, hresumed⟩ := hinterrupted.resumed hss hsp
    (fun a ha => hframe a ((hbelow a).mp ha)) hd.agree
  rw [hcs, hsp₀, hflags] at hresumed
  refine ⟨⟨n.resumed, ?_, hip, hresumed⟩, ⟨?_, rfl, ?_, ?_⟩, fun a ha => ?_⟩
  · rw [hd.execute io eaddr, outcome_i8088Opcode rfl (outcome_iret n)]
  · rw [hinterrupted.cpu, hagree.cpu]
  · exact hinterrupted.fe2010.trans hagree.fe2010
  · exact hinterrupted.dev.trans hagree.dev
  · rw [hinterrupted.outside a (mt (hbelow a).mp ha), hagree.mem]
    rfl

/-- `INT 3` with SP = 0, and `IRET` at once. -/
theorem iret_resumes_wraps :
    let m := { machineInit () with
      mem := { m := fun a => if a = 0xFFFF0 then 0xCC else 0xCF, readonly := fun _ => false } }
    let m' := (outcome (i8088Execute Devices.none 0 2) m).2
    (∃ s, outcome (i8088Execute Devices.none 0 2) m' = (true, s) ∧
      s.cpu.ip = 1 ∧
      Agree { m' with cpu := { m'.cpu with
        cs := m.cpu.cs, sp := m.cpu.sp, flags := m.cpu.flags.forced } } s) ∧
    Agree { m.awake with
      mem := m'.mem
      cpu := { m.awake.cpu with cs := m'.cpu.cs, sp := m'.cpu.sp, flags := m'.cpu.flags } } m' ∧
    ∀ a, ¬ m.cpu.Below 6 a → m'.mem.m a = m.mem.m a := by
  intro m m'
  have hint : Dispatches m 2 0xCC (outcome (i8088Decode 2) m).2 := ⟨rfl, Prod.ext (by decide) rfl⟩
  have hiret : Dispatches m' 2 0xCF (outcome (i8088Decode 2) m').2 :=
    ⟨by decide, Prod.ext (by decide) rfl⟩
  have hip : ((outcome (i8088Decode 2) m).2.skip 0).cpu.ip = 1 := by decide
  have hwritable : m.StackWritable 6 := fun _ _ => rfl
  -- SP wraps to FFFA
  have henters : Enters Devices.none m false ((outcome (i8088Decode 2) m).2.skip 0) m' :=
    .software 0 hint .int3
  obtain ⟨⟨s, hs, hresume, hagree⟩, hentry⟩ :=
    iret_resumes henters hwritable rfl rfl (fun _ _ => rfl) hiret 0
  rw [hip] at hresume
  exact ⟨⟨s, hs, hresume, hagree⟩, hentry⟩

end Pc20iii
