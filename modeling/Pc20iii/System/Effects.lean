import Pc20iii.System.Action

/-!
# The actions of instructions, ports and devices

Every function of the model is generated by the actions of the machine. The lemmas follow
the call graph from the bottom: operand decoding, interrupt entry, string instructions,
the ports of the chipset, the devices, the groups, the rows of the opcode switch, and at
the end one call of `i8088_execute` and of `fe2010_execute`.

Only `POPF`, `IRET` and `STI` raise IF or TF (`mayRaise`); every other
instruction is generated by `Action false`.
-/

namespace Pc20iii

open StateProgram

variable {δ : Type} {raises reports : Bool}

-- the longest bodies have more than a hundred actions and subterms
set_option synthInstance.maxSize 1000

/-! ### Operands -/

instance : Generated (CoreAction raises reports) (fetch : M δ Byte) := by
  unfold fetch
  infer_instance

instance : Generated (CoreAction raises reports) (fetchWord : M δ Word) := by
  unfold fetchWord
  infer_instance

instance (s a : Word) :
    Generated (CoreAction raises reports) (eaddrRead8 s a : M δ (Byte × Word)) := by
  unfold eaddrRead8
  infer_instance

instance (s a : Word) :
    Generated (CoreAction raises reports) (eaddrRead16 s a : M δ (Word × Word)) := by
  unfold eaddrRead16
  infer_instance

instance (s a : Word) (v : Byte) :
    Generated (CoreAction raises reports) (eaddrWrite8 s a v : M δ Unit) := by
  unfold eaddrWrite8
  infer_instance

instance (s a v : Word) :
    Generated (CoreAction raises reports) (eaddrWrite16 s a v : M δ Unit) := by
  unfold eaddrWrite16
  infer_instance

section Decoders

variable (modrm : Byte) (w v : Word) (b : Byte)

instance : Generated (CoreAction raises reports) (modrmGetRm8Mem modrm w : M δ (Byte × Word)) := by
  unfold modrmGetRm8Mem
  refine .seq _ _ inferInstance fun c => ?_
  split <;> infer_instance

instance : Generated (CoreAction raises reports) (modrmGetRm8 modrm w : M δ (Byte × Word)) := by
  unfold modrmGetRm8
  split
  · refine .seq _ _ inferInstance fun c => ?_
    split <;> infer_instance
  all_goals infer_instance

instance : Generated (CoreAction raises reports) (modrmSetRm8Mem modrm w b : M δ Unit) := by
  unfold modrmSetRm8Mem
  refine .seq _ _ inferInstance fun c => ?_
  split <;> infer_instance

instance : Generated (CoreAction raises reports) (modrmSetRm8 modrm b : M δ Unit) := by
  unfold modrmSetRm8
  split
  · split <;> infer_instance
  all_goals infer_instance

instance : Generated (CoreAction raises reports) (modrmSetRmEaddr8Mem modrm w b : M δ Unit) := by
  unfold modrmSetRmEaddr8Mem
  refine .seq _ _ inferInstance fun c => ?_
  split <;> infer_instance

instance : Generated (CoreAction raises reports) (modrmSetRmEaddr8 modrm w b : M δ Unit) := by
  unfold modrmSetRmEaddr8
  split
  · split <;> infer_instance
  all_goals infer_instance

instance : Generated (CoreAction raises reports) (modrmGetRm16Mem modrm w : M δ (Word × Word)) := by
  unfold modrmGetRm16Mem
  refine .seq _ _ inferInstance fun c => ?_
  split <;> infer_instance

instance : Generated (CoreAction raises reports) (modrmGetRm16 modrm w : M δ (Word × Word)) := by
  unfold modrmGetRm16
  split
  · refine .seq _ _ inferInstance fun c => ?_
    split <;> infer_instance
  all_goals infer_instance

instance : Generated (CoreAction raises reports) (modrmGetRmEaddr16Mem modrm w : M δ Word) := by
  unfold modrmGetRmEaddr16Mem
  refine .seq _ _ inferInstance fun c => ?_
  split <;> infer_instance

instance : Generated (CoreAction raises reports) (modrmGetRmEaddr16 modrm w : M δ Word) := by
  unfold modrmGetRmEaddr16
  split
  · refine .seq _ _ inferInstance fun c => ?_
    split <;> infer_instance
  all_goals infer_instance

instance : Generated (CoreAction raises reports) (modrmSetRm16Mem modrm w v : M δ Unit) := by
  unfold modrmSetRm16Mem
  refine .seq _ _ inferInstance fun c => ?_
  split <;> infer_instance

instance : Generated (CoreAction raises reports) (modrmSetRm16 modrm v : M δ Unit) := by
  unfold modrmSetRm16
  split
  · split <;> infer_instance
  all_goals infer_instance

instance : Generated (CoreAction raises reports) (modrmSetRmEaddr16Mem modrm w v : M δ Unit) := by
  unfold modrmSetRmEaddr16Mem
  refine .seq _ _ inferInstance fun c => ?_
  split <;> infer_instance

instance : Generated (CoreAction raises reports) (modrmSetRmEaddr16 modrm w v : M δ Unit) := by
  unfold modrmSetRmEaddr16
  split
  · split <;> infer_instance
  all_goals infer_instance

instance : Generated (CoreAction raises reports) (modrmVoidRm16Mem modrm : M δ Unit) := by
  unfold modrmVoidRm16Mem
  split
  · split <;> infer_instance
  · infer_instance

instance : Generated (CoreAction raises reports) (modrmVoidRm16 modrm : M δ Unit) := by
  unfold modrmVoidRm16
  split <;> infer_instance

instance : Generated (CoreAction raises reports) (modrmGetReg8 modrm : M δ Byte) := by
  unfold modrmGetReg8
  refine .seq _ _ inferInstance fun c => ?_
  split <;> infer_instance

instance : Generated (CoreAction raises reports) (modrmSetReg8 modrm b : M δ Unit) := by
  unfold modrmSetReg8
  split <;> infer_instance

instance : Generated (CoreAction raises reports) (modrmGetReg16 modrm : M δ Word) := by
  unfold modrmGetReg16
  refine .seq _ _ inferInstance fun c => ?_
  split <;> infer_instance

instance : Generated (CoreAction raises reports) (modrmSetReg16 modrm v : M δ Unit) := by
  unfold modrmSetReg16
  split <;> infer_instance

instance : Generated (CoreAction raises reports) (modrmGetRegSeg modrm : M δ Word) := by
  unfold modrmGetRegSeg
  refine .seq _ _ inferInstance fun c => ?_
  split <;> infer_instance

instance : Generated (CoreAction raises reports) (modrmSetRegSeg modrm v : M δ Unit) := by
  unfold modrmSetRegSeg
  split <;> infer_instance

end Decoders

/-! ### Interrupts and divisions -/

instance : Generated (CoreAction raises reports) (pushFrame : M δ Unit) := by
  unfold pushFrame
  infer_instance

instance (intNo : Byte) : Generated (CoreAction raises reports) (jumpVector intNo : M δ Unit) := by
  unfold jumpVector
  infer_instance

instance (intNo : Byte) :
    Generated (CoreAction raises reports) (i8088Interrupt intNo : M δ Unit) := by
  unfold i8088Interrupt
  infer_instance

instance (b : Byte) : Generated (CoreAction raises reports) (i8088Div8 b : M δ Unit) := by
  unfold i8088Div8
  infer_instance

instance (w : Word) : Generated (CoreAction raises reports) (i8088Div16 w : M δ Unit) := by
  unfold i8088Div16
  infer_instance

instance (b : Byte) : Generated (CoreAction raises reports) (i8088Idiv8 b : M δ Unit) := by
  unfold i8088Idiv8
  infer_instance

instance (w : Word) : Generated (CoreAction raises reports) (i8088Idiv16 w : M δ Unit) := by
  unfold i8088Idiv16
  infer_instance

/-! ### String instructions -/

instance : Generated (CoreAction raises reports) (i8088Movsb : M δ Unit) := by
  unfold i8088Movsb advanceBoth
  infer_instance

instance : Generated (CoreAction raises reports) (i8088Movsw : M δ Unit) := by
  unfold i8088Movsw advanceBoth
  infer_instance

instance : Generated (CoreAction raises reports) (i8088Lodsb : M δ Unit) := by
  unfold i8088Lodsb advanceSi
  infer_instance

instance : Generated (CoreAction raises reports) (i8088Lodsw : M δ Unit) := by
  unfold i8088Lodsw advanceSi
  infer_instance

instance : Generated (CoreAction raises reports) (i8088Stosb : M δ Unit) := by
  unfold i8088Stosb advanceDi
  infer_instance

instance : Generated (CoreAction raises reports) (i8088Stosw : M δ Unit) := by
  unfold i8088Stosw advanceDi
  infer_instance

instance : Generated (CoreAction raises reports) (i8088Scasb : M δ Unit) := by
  unfold i8088Scasb advanceDi
  infer_instance

instance : Generated (CoreAction raises reports) (i8088Scasw : M δ Unit) := by
  unfold i8088Scasw advanceDi readEsDi
  infer_instance

instance : Generated (CoreAction raises reports) (i8088Cmpsb : M δ Unit) := by
  unfold i8088Cmpsb advanceBoth
  infer_instance

instance : Generated (CoreAction raises reports) (i8088Cmpsw : M δ Unit) := by
  unfold i8088Cmpsw advanceBoth readEsDi
  infer_instance

section Repetition

variable (body : M δ Unit) [Generated (CoreAction raises reports) body] (fuel : ℕ)

instance : Generated (CoreAction raises reports) (decrementCx : M δ Unit) := by
  unfold decrementCx
  infer_instance

instance : Generated (CoreAction raises reports) (whileCx body fuel) := by
  unfold whileCx
  infer_instance

instance (z : Bool) : Generated (CoreAction raises reports) (whileCxZ z body fuel) := by
  unfold whileCxZ
  infer_instance

instance : Generated (CoreAction raises reports) (repeated body fuel) := by
  unfold repeated
  refine .seq _ _ inferInstance fun c => ?_
  split <;> infer_instance

instance (z : Bool) : Generated (CoreAction raises reports) (repeatWhileZ z body fuel) := by
  unfold repeatWhileZ
  infer_instance

instance : Generated (CoreAction raises reports) (repeatedZ body fuel) := by
  unfold repeatedZ
  refine .seq _ _ inferInstance fun c => ?_
  split <;> infer_instance

end Repetition

/-! ### Ports and devices -/

section Ports

variable (port : Word) (v : Byte)

instance : Generated (CoreAction raises reports) (fe2010KeyboardPress v : M δ Unit) := by
  unfold fe2010KeyboardPress
  infer_instance

instance (channelNo : Fin 4) (callback : Local δ Byte) :
    Generated (Action raises reports) (fe2010DmaWrite channelNo callback) := by
  unfold fe2010DmaWrite
  infer_instance

instance (channelNo : Fin 4) (callback : Byte → Local δ Unit) :
    Generated (Action raises reports) (fe2010DmaRead channelNo callback) := by
  unfold fe2010DmaRead
  infer_instance

/-- What a device does is a sequence of actions of the machine. -/
theorem DeviceAction.generated {α : Type} {x : M δ α} (h : DeviceAction α x) :
    Generated (Action raises reports) x := by
  cases h <;> infer_instance

theorem generated_of_device {α : Type} {x : M δ α} (h : Generated DeviceAction x) :
    Generated (Action raises reports) x :=
  StateProgram.Generated.mono DeviceAction.generated h

/-- The read hooks of the chipset. -/
theorem fe2010Reads_generated {func : ReadHook δ} (h : fe2010Reads port = some func) (p : Word) :
    Generated (CoreAction raises reports) (func p) := by
  unfold fe2010Reads at h
  split at h
  case h_1 => cases h; unfold fe2010ScancodeRead; infer_instance
  case h_2 => cases h; unfold fe2010CtrlRead; infer_instance
  case h_3 => cases h; unfold fe2010SwitchRead; infer_instance
  case h_4 => cases h; unfold fe2010ConfRead; infer_instance
  case h_5 => cases h; unfold i8237DmaStatusRead; infer_instance
  case h_6 => cases h; unfold i8259IrqServiceRead; infer_instance
  case h_7 => cases h; unfold i8259IrqMaskRead; infer_instance
  case h_11 =>
    split at h
    · cases h
      unfold i8237DmaRegRead
      infer_instance
    · cases h
  -- the three counters
  all_goals
    cases h
    unfold i8253PitCounterRead
    split <;> infer_instance

/-- The write hooks of the chipset. -/
theorem fe2010Writes_generated {func : WriteHook δ} (h : fe2010Writes port = some func) (p : Word) :
    Generated (CoreAction raises reports) (func p v) := by
  unfold fe2010Writes at h
  split at h
  case h_1 => cases h; unfold fe2010CtrlWrite; infer_instance
  case h_2 => cases h; unfold fe2010ConfWrite; infer_instance
  case h_3 => cases h; unfold i8237DmaModeWrite; infer_instance
  case h_8 => cases h; unfold i8259IrqMaskWrite; infer_instance
  case h_9 => cases h; unfold i8259NmiMaskWrite; infer_instance
  case h_13 => cases h; unfold i8253PitControlWrite; infer_instance
  case h_14 =>
    split at h
    · cases h
      unfold i8237DmaRegWrite
      infer_instance
    · cases h
  -- the three counters
  case h_10 | h_11 | h_12 =>
    cases h
    unfold i8253PitCounterWrite
    split <;> infer_instance
  -- the pages of the channels
  all_goals
    cases h
    unfold i8237DmaPageWrite
    infer_instance

instance (io : Devices δ) : Generated (Action raises reports) (ioRead io port) := by
  unfold ioRead
  split
  · next func h =>
    rcases Option.or_eq_some_iff.mp h with h | ⟨-, h⟩
    · exact generated_of_core (h := fe2010Reads_generated port h port)
    · exact generated_of_device (io.read_generated h port)
  · infer_instance

instance (io : Devices δ) : Generated (Action raises reports) (ioWrite io port v) := by
  unfold ioWrite
  split
  · next func h =>
    rcases Option.or_eq_some_iff.mp h with h | ⟨-, h⟩
    · exact generated_of_core (h := fe2010Writes_generated port v h port)
    · exact generated_of_device (io.write_generated h port v)
  · infer_instance

end Ports

instance : Generated (CoreAction raises reports) (fe2010Execute : M δ Unit) := by
  have htick (i : Fin 3) : Generated (CoreAction raises reports) (pitTick i : M δ Unit) := by
    unfold pitTick
    infer_instance
  unfold fe2010Execute pendingLoop pitLoop
  infer_instance

/-! ### Groups and operand forms -/

section Forms

variable (eaddr value target : Word) (modrm count b : Byte)

instance : Generated (CoreAction raises reports) (pushWord value : M δ Unit) := by
  unfold pushWord
  infer_instance

instance : Generated (CoreAction raises reports) (pushFar value target : M δ Unit) := by
  unfold pushFar
  infer_instance

instance : Generated (CoreAction raises reports) (stackWord value : M δ Word) := by
  unfold stackWord
  infer_instance

instance : Generated (CoreAction raises reports) (addSp value : M δ Unit) := by
  unfold addSp
  infer_instance

instance : Generated (CoreAction raises reports) (popWord : M δ Word) := by
  unfold popWord
  infer_instance

instance (condition : I8088 → Bool) :
    Generated (CoreAction raises reports) (jumpIf condition : M δ Unit) := by
  unfold jumpIf
  infer_instance

section Alu

variable (op₈ : Alu8) (op₁₆ : Alu16) [AluKeepsI op₈] [AluKeepsI op₁₆]

instance : Generated (CoreAction raises reports) (aluRmReg8 op₈ eaddr : M δ Unit) := by
  unfold aluRmReg8
  infer_instance

instance : Generated (CoreAction raises reports) (aluRmReg16 op₁₆ eaddr : M δ Unit) := by
  unfold aluRmReg16
  infer_instance

instance : Generated (CoreAction raises reports) (aluRegRm8 op₈ : M δ Unit) := by
  unfold aluRegRm8
  infer_instance

instance : Generated (CoreAction raises reports) (aluRegRm16 op₁₆ : M δ Unit) := by
  unfold aluRegRm16
  infer_instance

instance : Generated (CoreAction raises reports) (aluAlImm op₈ : M δ Unit) := by
  unfold aluAlImm
  infer_instance

instance : Generated (CoreAction raises reports) (aluAxImm8 op₈ : M δ Unit) := by
  unfold aluAxImm8
  infer_instance

instance : Generated (CoreAction raises reports) (aluAxImm op₁₆ : M δ Unit) := by
  unfold aluAxImm
  infer_instance

end Alu

instance : Generated (CoreAction raises reports) (cmpRmReg8 : M δ Unit) := by
  unfold cmpRmReg8
  infer_instance

instance : Generated (CoreAction raises reports) (cmpRmReg16 : M δ Unit) := by
  unfold cmpRmReg16
  infer_instance

instance : Generated (CoreAction raises reports) (cmpRegRm8 : M δ Unit) := by
  unfold cmpRegRm8
  infer_instance

instance : Generated (CoreAction raises reports) (cmpRegRm16 : M δ Unit) := by
  unfold cmpRegRm16
  infer_instance

instance : Generated (CoreAction raises reports) (cmpAlImm : M δ Unit) := by
  unfold cmpAlImm
  infer_instance

instance : Generated (CoreAction raises reports) (cmpAxImm : M δ Unit) := by
  unfold cmpAxImm
  infer_instance

instance : Generated (CoreAction raises reports) (testRegRm8 : M δ Unit) := by
  unfold testRegRm8
  infer_instance

instance : Generated (CoreAction raises reports) (testRegRm16 : M δ Unit) := by
  unfold testRegRm16
  infer_instance

instance : Generated (CoreAction raises reports) (i8088Opcode80 eaddr : M δ Unit) := by
  unfold i8088Opcode80
  infer_instance

instance : Generated (CoreAction raises reports) (i8088Opcode81 eaddr : M δ Unit) := by
  unfold i8088Opcode81
  infer_instance

instance : Generated (CoreAction raises reports) (i8088Opcode83 eaddr : M δ Unit) := by
  unfold i8088Opcode83
  infer_instance

instance (op : BitVec 3) :
    Generated (CoreAction raises reports) (groupD0D2 op b count : M δ Byte) := by
  unfold groupD0D2
  split <;> infer_instance

instance : Generated (CoreAction raises reports) (i8088OpcodeD0D2 eaddr count : M δ Unit) := by
  unfold i8088OpcodeD0D2
  infer_instance

instance (op : BitVec 3) :
    Generated (CoreAction raises reports) (groupD1D3 op value count : M δ Word) := by
  unfold groupD1D3
  split <;> infer_instance

instance : Generated (CoreAction raises reports) (i8088OpcodeD1D3 eaddr count : M δ Unit) := by
  unfold i8088OpcodeD1D3
  infer_instance

instance : Generated (CoreAction raises reports) (i8088OpcodeF6 eaddr : M δ Unit) := by
  unfold i8088OpcodeF6 testRmImm8
  refine .seq _ _ inferInstance fun modrm => .seq _ _ inferInstance fun value => ?_
  split <;> infer_instance

instance : Generated (CoreAction raises reports) (i8088OpcodeF7 eaddr : M δ Unit) := by
  unfold i8088OpcodeF7 testRmImm16
  refine .seq _ _ inferInstance fun modrm => .seq _ _ inferInstance fun value => ?_
  split <;> infer_instance

instance (op : BitVec 3) : Generated (CoreAction raises reports) (groupFe op b : M δ Byte) := by
  unfold groupFe
  split <;> infer_instance

instance : Generated (CoreAction raises reports) (i8088OpcodeFe eaddr : M δ Unit) := by
  unfold i8088OpcodeFe
  infer_instance

instance : Generated (CoreAction raises reports) (callNear target : M δ Unit) := by
  unfold callNear
  infer_instance

instance (value : Word × Word) :
    Generated (CoreAction raises reports) (callFar modrm value : M δ Unit) := by
  unfold callFar
  infer_instance

instance (value : Word × Word) :
    Generated (CoreAction raises reports) (jmpFar modrm value : M δ Unit) := by
  unfold jmpFar
  infer_instance

instance : Generated (CoreAction raises reports) (pushRm modrm value : M δ Unit) := by
  unfold pushRm
  infer_instance

instance : Generated (CoreAction raises reports) (i8088OpcodeFf eaddr : M δ Unit) := by
  unfold i8088OpcodeFf
  refine .seq _ _ inferInstance fun modrm => .seq _ _ inferInstance fun value => ?_
  split <;> infer_instance

end Forms

/-! ### The rows of the opcode switch -/

section Rows

instance (op : Flags → Word → Word × Flags) [StepKeepsI op] (get : I8088 → Word)
    (set : I8088 → Word → I8088) [∀ v, Lowers fun c => set c v] :
    Generated (CoreAction raises reports) (stepRegister op get set : M δ Unit) := by
  unfold stepRegister
  infer_instance

instance : Generated (CoreAction raises reports) (pushSp : M δ Unit) := by
  unfold pushSp
  infer_instance

instance (eaddr : Word) : Generated (CoreAction raises reports) (xchgRegRm8 eaddr : M δ Unit) := by
  unfold xchgRegRm8
  infer_instance

instance (eaddr : Word) : Generated (CoreAction raises reports) (xchgRegRm16 eaddr : M δ Unit) := by
  unfold xchgRegRm16
  infer_instance

instance (eaddr : Word) : Generated (CoreAction raises reports) (popRm eaddr : M δ Unit) := by
  unfold popRm
  infer_instance

instance : Generated (CoreAction raises reports) (callFarImm : M δ Unit) := by
  unfold callFarImm
  infer_instance

instance (set : I8088 → Byte → I8088) [∀ v, Lowers fun c => set c v] :
    Generated (CoreAction raises reports) (movImm8 set : M δ Unit) := by
  unfold movImm8
  infer_instance

instance (set : I8088 → Word → I8088) [∀ v, Lowers fun c => set c v] :
    Generated (CoreAction raises reports) (movImm16 set : M δ Unit) := by
  unfold movImm16
  infer_instance

instance : Generated (CoreAction raises reports) (popIp : M δ Unit) := by
  unfold popIp
  infer_instance

instance : Generated (CoreAction raises reports) (popFar : M δ Unit) := by
  unfold popFar
  infer_instance

instance : Generated (CoreAction true reports) (iret : M δ Unit) := by
  unfold iret
  infer_instance

instance (set : I8088 → Word → I8088) [∀ v, Lowers fun c => set c v] (eaddr : Word) :
    Generated (CoreAction raises reports) (loadFar set eaddr : M δ Unit) := by
  unfold loadFar
  infer_instance

instance : Generated (CoreAction raises reports) (into : M δ Unit) := by
  unfold into
  infer_instance

instance : Generated (CoreAction raises reports) (aam : M δ Unit) := by
  unfold aam
  infer_instance

instance : Generated (CoreAction raises reports) (aad : M δ Unit) := by
  unfold aad
  infer_instance

instance : Generated (CoreAction raises reports) (esc : M δ Unit) := by
  unfold esc
  infer_instance

instance (condition : I8088 → Bool) :
    Generated (CoreAction raises reports) (loopIf condition : M δ Unit) := by
  unfold loopIf
  infer_instance

instance (io : Devices δ) (port : I8088 → Word) :
    Generated (Action raises reports) (inAx io port) := by
  unfold inAx
  infer_instance

instance (io : Devices δ) (port : I8088 → Word) :
    Generated (Action raises reports) (outAx io port) := by
  unfold outAx
  infer_instance

/-- The instructions that may set IF or TF: `POPF`, `IRET` and `STI`. -/
def mayRaise (opcode : Byte) : Bool := opcode == 0x9D || opcode == 0xCF || opcode == 0xFB

variable {eaddr : Word} {opcode : Byte}

theorem opcode0_generated {x : M δ Unit} (hx : opcode0 eaddr opcode = some x) :
    Generated (CoreAction raises reports) x := by
  unfold opcode0 at hx
  split at hx
  all_goals first | (cases hx; infer_instance) | cases hx

theorem opcode1_generated {x : M δ Unit} (hx : opcode1 eaddr opcode = some x) :
    Generated (CoreAction raises reports) x := by
  unfold opcode1 at hx
  split at hx
  all_goals first | (cases hx; infer_instance) | cases hx

theorem opcode2_generated {x : M δ Unit} (hx : opcode2 eaddr opcode = some x) :
    Generated (CoreAction raises reports) x := by
  unfold opcode2 at hx
  split at hx
  all_goals first | (cases hx; infer_instance) | cases hx

theorem opcode3_generated {x : M δ Unit} (hx : opcode3 eaddr opcode = some x) :
    Generated (CoreAction raises reports) x := by
  unfold opcode3 at hx
  split at hx
  all_goals first | (cases hx; infer_instance) | cases hx

theorem opcode4_generated {x : M δ Unit} (hx : opcode4 opcode = some x) :
    Generated (CoreAction raises reports) x := by
  unfold opcode4 at hx
  split at hx
  all_goals first | (cases hx; infer_instance) | cases hx

theorem opcode5_generated {x : M δ Unit} (hx : opcode5 opcode = some x) :
    Generated (CoreAction raises reports) x := by
  unfold opcode5 at hx
  split at hx
  all_goals first | (cases hx; infer_instance) | cases hx

theorem opcode7_generated {x : M δ Unit} (hx : opcode7 opcode = some x) :
    Generated (CoreAction raises reports) x := by
  unfold opcode7 at hx
  split at hx
  all_goals first | (cases hx; infer_instance) | cases hx

theorem opcode8_generated {x : M δ Unit} (hx : opcode8 eaddr opcode = some x) :
    Generated (CoreAction raises reports) x := by
  unfold opcode8 at hx
  split at hx
  all_goals first | (cases hx; infer_instance) | cases hx

theorem opcodeA_generated {fuel : ℕ} {x : M δ Bool} (hx : opcodeA fuel opcode = some x) :
    Generated (CoreAction raises reports) x := by
  unfold opcodeA at hx
  split at hx
  all_goals first | (cases hx; infer_instance) | cases hx

theorem opcodeB_generated {x : M δ Unit} (hx : opcodeB opcode = some x) :
    Generated (CoreAction raises reports) x := by
  unfold opcodeB at hx
  split at hx
  all_goals first | (cases hx; infer_instance) | cases hx

theorem opcodeD_generated {x : M δ Unit} (hx : opcodeD eaddr opcode = some x) :
    Generated (CoreAction raises reports) x := by
  unfold opcodeD at hx
  split at hx
  all_goals first | (cases hx; infer_instance) | cases hx

theorem opcodeE_generated {io : Devices δ} {x : M δ Unit} (hx : opcodeE io opcode = some x) :
    Generated (Action raises reports) x := by
  unfold opcodeE at hx
  split at hx
  all_goals first | (cases hx; infer_instance) | cases hx

variable (h : mayRaise opcode = true → raises = true)

include h

theorem opcode9_generated {x : M δ Unit} (hx : opcode9 opcode = some x) :
    Generated (CoreAction raises reports) x := by
  unfold opcode9 at hx
  split at hx
  case h_14 =>
    cases hx
    obtain rfl := h rfl
    infer_instance
  all_goals first | (cases hx; infer_instance) | cases hx

theorem opcodeC_generated {x : M δ Unit} (hx : opcodeC eaddr opcode = some x) :
    Generated (CoreAction raises reports) x := by
  unfold opcodeC at hx
  split at hx
  case h_12 =>
    cases hx
    obtain rfl := h rfl
    infer_instance
  all_goals first | (cases hx; infer_instance) | cases hx

theorem opcodeF_generated {x : M δ Unit} (hx : opcodeF eaddr opcode = some x) :
    Generated (CoreAction raises reports) x := by
  unfold opcodeF at hx
  split at hx
  case h_8 =>
    cases hx
    obtain rfl := h rfl
    infer_instance
  all_goals first | (cases hx; infer_instance) | cases hx

/-- Every case of the switch leaves the devices alone, except those of `IN` and `OUT`. -/
theorem i8088Case_cases {io : Devices δ} {fuel : ℕ} {x : M δ Bool}
    (hx : i8088Case io eaddr fuel opcode = some x) :
    Generated (CoreAction raises reports) x ∨
      ∃ y, opcodeE io opcode = some y ∧ x = returning y := by
  unfold i8088Case at hx
  split at hx
  case h_10 => exact .inl (opcodeA_generated hx)
  -- `IN` and `OUT` are in this row
  case h_14 =>
    obtain ⟨y, hy, rfl⟩ := Option.map_eq_some_iff.mp hx
    exact .inr ⟨y, hy, rfl⟩
  case h_16 => cases hx
  all_goals
    obtain ⟨y, hy, rfl⟩ := Option.map_eq_some_iff.mp hx
    have hg : Generated (CoreAction raises reports) y := by
      first
      | exact opcode0_generated hy | exact opcode1_generated hy | exact opcode2_generated hy
      | exact opcode3_generated hy | exact opcode4_generated hy | exact opcode5_generated hy
      | exact opcode7_generated hy | exact opcode8_generated hy | exact opcode9_generated h hy
      | exact opcodeB_generated hy | exact opcodeC_generated h hy | exact opcodeD_generated hy
      | exact opcodeF_generated h hy
    unfold returning
    exact .inl inferInstance

/-- Every case of the switch is a sequence of actions that reports no unhandled opcode. -/
theorem i8088Case_generated {io : Devices δ} {fuel : ℕ} {x : M δ Bool}
    (hx : i8088Case io eaddr fuel opcode = some x) : Generated (Action raises reports) x := by
  rcases i8088Case_cases h hx with hcore | ⟨y, hy, rfl⟩
  · exact generated_of_core (h := hcore)
  · have hg : Generated (Action raises reports) y := opcodeE_generated hy
    unfold returning
    infer_instance

/-- Every instruction is a sequence of actions. -/
theorem i8088Opcode_generated (io : Devices δ) (fuel : ℕ) :
    Generated (Action raises true) (i8088Opcode io eaddr fuel opcode) := by
  unfold i8088Opcode returning
  cases hx : i8088Case io eaddr fuel opcode with
  | none => exact .seq _ _ inferInstance fun _ => .ret true
  | some x => exact i8088Case_generated h hx

end Rows

/-! ### One call of `i8088_execute` -/

instance (s : Segment) : Generated (CoreAction raises reports) (overrideWith s : M δ Byte) := by
  unfold overrideWith
  infer_instance

instance (r : Repeat) : Generated (CoreAction raises reports) (repeatWith r : M δ Byte) := by
  unfold repeatWith
  infer_instance

instance (fuel : ℕ) (opcode : Byte) :
    Generated (CoreAction raises reports) (prefixLoop fuel opcode : M δ (Option Byte)) := by
  induction fuel generalizing opcode with
  | zero => exact .ret none
  | succ fuel ih =>
    unfold prefixLoop prefixSegment prefixRepeat
    infer_instance

instance (fuel : ℕ) :
    Generated (CoreAction raises reports) (i8088Decode fuel : M δ (Option Byte)) := by
  unfold i8088Decode
  infer_instance

instance (io : Devices δ) (eaddr : Word) (fuel : ℕ) :
    Generated (Action true true) (i8088Execute io eaddr fuel) := by
  unfold i8088Execute
  refine .seq _ _ inferInstance fun c => ?_
  split
  · infer_instance
  · refine .seq _ _ inferInstance fun opcode => ?_
    cases opcode with
    | none => exact .ret false
    | some opcode => exact i8088Opcode_generated (fun _ => rfl) io fuel

end Pc20iii
