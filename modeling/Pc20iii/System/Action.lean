import Pc20iii.I8088.Execute
import Pc20iii.Device.Access
import Mathlib.Order.BooleanAlgebra.Basic

/-!
# The actions of the machine

Everything the machine does is a sequence of the actions listed in `Action`: assignments
to CPU registers, memory accesses by segment and offset, reads of interrupt vectors, DMA
accesses by physical address, interrupt requests, retries of the pending loop,
assignments to chipset registers, work of the devices on their own state, and panics.

The parameter `raises` says whether an assignment to the CPU may set IF or TF; without it,
every assignment leaves them cleared when they are (`Lowers`). Instance
search derives `Generated (Action raises reports) x` for the functions of the model from their
bodies, and a property that every action keeps is a property of every instruction and of
every run.
-/

namespace Pc20iii

open StateProgram

variable {δ : Type}

/-- The panics that are not about an address. -/
def Panic.isMemory : Panic → Bool
  | memoryRead .. => true
  | memoryWrite .. => true
  | _ => false

/-- The actions of the machine. -/
inductive Action (raises reports : Bool) : ∀ α : Type, M δ α → Prop
  | assign (f : I8088 → I8088)
      (h : raises = true ∨ ∀ c, (f c).flags.control ≤ c.flags.control) :
      Action raises reports Unit (modifyCpu f)
  | flags {α : Type} (op : Flags → α × Flags) (h : ∀ f, (op f).2.control = f.control) :
      Action raises reports α (withFlags op)
  | load (segment offset : Word) : Action raises reports Byte (memReadBySegment segment offset)
  | store (segment offset : Word) (v : Byte) :
      Action raises reports Unit (memWriteBySegment segment offset v)
  | vector (intNo : Byte) (k : Fin 4) : Action raises reports Byte (readVector intNo k)
  | interrupt (intNo : Byte) : Action raises reports Unit (record (.interrupt intNo))
  | irq (irqNo : Fin 8) : Action raises reports Unit (fe2010Irq irqNo)
  | retry (irqNo : Fin 8) : Action raises reports Unit (pendingPass irqNo)
  | chipset (f : Fe2010 → Fe2010) (h : ∀ x, (f x).irqPending = x.irqPending) :
      Action raises reports Unit (modifyFe2010 f)
  | dmaLoad (address : BitVec 32) : Action raises reports Byte (memRead .dma address)
  | dmaStore (address : BitVec 32) (v : Byte) : Action raises reports Unit (memWrite .dma address v)
  | own {α : Type} (f : Local δ α) : Action raises reports α (runLocal f)
  | panic (p : Panic) (h : p.isMemory = false)
      (hr : reports = true ∨ ∀ opcode, p ≠ .unhandledOpcode opcode) :
      Action raises reports Unit (panic p)

/-! ### Assignments that do not raise IF or TF -/

/-- A flag computation that does not raise IF or TF. -/
class LowersFlags (φ : I8088 → Flags) : Prop where
  lowers : ∀ c, (φ c).control ≤ c.flags.control

/-- An assignment that does not raise IF or TF. -/
class Lowers (f : I8088 → I8088) : Prop where
  lowers : ∀ c, (f c).flags.control ≤ c.flags.control

/-- An assignment to flags that does not raise IF or TF. -/
class LowersI (f : Flags → Flags) : Prop where
  lowers : ∀ x, (f x).control ≤ x.control

/-- An operation on the flags that keeps IF and TF. -/
class KeepsI {α : Type} (op : Flags → α × Flags) : Prop where
  keeps : ∀ f, (op f).2.control = f.control

/-- Assignments to flags other than `i` and `t`. -/
instance (g₁ g₂ g₃ g₄ g₅ g₆ g₇ g₈ g₉ g₁₀ : Flags → Bool) (g₁₁ : Flags → BitVec 4) :
    LowersI fun f =>
      ⟨g₁ f, g₂ f, g₃ f, g₄ f, g₅ f, g₆ f, g₇ f, g₈ f, f.t, f.i, g₉ f, g₁₀ f, g₁₁ f⟩ :=
  ⟨fun _ => le_rfl⟩

/-- Assignments that clear `t`. -/
instance (g₁ g₂ g₃ g₄ g₅ g₆ g₇ g₈ g₉ g₁₀ : Flags → Bool) (g₁₁ : Flags → BitVec 4) :
    LowersI fun f =>
      ⟨g₁ f, g₂ f, g₃ f, g₄ f, g₅ f, g₆ f, g₇ f, g₈ f, false, f.i, g₉ f, g₁₀ f, g₁₁ f⟩ :=
  ⟨fun _ => ⟨le_rfl, Bool.false_le _⟩⟩

/-- Assignments that clear `i`. -/
instance (g₁ g₂ g₃ g₄ g₅ g₆ g₇ g₈ g₉ g₁₀ : Flags → Bool) (g₁₁ : Flags → BitVec 4) :
    LowersI fun f =>
      ⟨g₁ f, g₂ f, g₃ f, g₄ f, g₅ f, g₆ f, g₇ f, g₈ f, f.t, false, g₉ f, g₁₀ f, g₁₁ f⟩ :=
  ⟨fun _ => ⟨Bool.false_le _, le_rfl⟩⟩

instance : LowersFlags fun c => c.flags := ⟨fun _ => le_rfl⟩

/-- Assignments to registers. -/
instance (g₁ g₂ g₃ g₄ g₅ g₆ g₇ g₈ g₉ g₁₀ g₁₁ g₁₂ g₁₃ : I8088 → Word) (φ : I8088 → Flags)
    [h : LowersFlags φ] (g₁₄ : I8088 → Segment) (g₁₅ : I8088 → Repeat) (g₁₆ : I8088 → Bool) :
    Lowers fun c =>
      ⟨g₁ c, g₂ c, g₃ c, g₄ c, g₅ c, g₆ c, g₇ c, g₈ c, g₉ c, g₁₀ c, g₁₁ c, g₁₂ c, g₁₃ c,
        φ c, g₁₄ c, g₁₅ c, g₁₆ c⟩ :=
  ⟨h.lowers⟩

instance instLowersId : Lowers fun c => c := ⟨fun _ => le_rfl⟩

section Bytes

variable (f : I8088 → I8088) (v : I8088 → Byte) [h : Lowers f]

instance : Lowers fun c => (f c).setAl (v c) := ⟨h.lowers⟩
instance : Lowers fun c => (f c).setAh (v c) := ⟨h.lowers⟩
instance : Lowers fun c => (f c).setBl (v c) := ⟨h.lowers⟩
instance : Lowers fun c => (f c).setBh (v c) := ⟨h.lowers⟩
instance : Lowers fun c => (f c).setCl (v c) := ⟨h.lowers⟩
instance : Lowers fun c => (f c).setCh (v c) := ⟨h.lowers⟩
instance : Lowers fun c => (f c).setDl (v c) := ⟨h.lowers⟩
instance : Lowers fun c => (f c).setDh (v c) := ⟨h.lowers⟩
instance : Lowers fun c => (f c).setAlPsz := ⟨h.lowers⟩

end Bytes

instance : Lowers sahf := ⟨fun _ => le_rfl⟩
instance : Lowers lahf := ⟨fun _ => le_rfl⟩
instance (v : Byte) : Lowers fun c => i8088Mul8 c v := ⟨fun _ => le_rfl⟩
instance (v : Word) : Lowers fun c => i8088Mul16 c v := ⟨fun _ => le_rfl⟩
instance (v : Byte) : Lowers fun c => i8088Imul8 c v := ⟨fun _ => le_rfl⟩
instance (v : Word) : Lowers fun c => i8088Imul16 c v := ⟨fun _ => le_rfl⟩

instance : Lowers i8088Aaa where
  lowers c := by
    have hcontrol : (i8088Aaa c).flags.control = c.flags.control := by
      unfold i8088Aaa
      split_ifs <;> rfl
    exact hcontrol.le

instance : Lowers i8088Aas where
  lowers c := by
    have hcontrol : (i8088Aas c).flags.control = c.flags.control := by
      unfold i8088Aas
      split_ifs <;> rfl
    exact hcontrol.le

instance : Lowers i8088Daa where
  lowers c := by
    have hcontrol : (i8088Daa c).flags.control = c.flags.control := by
      dsimp only [i8088Daa, I8088.setAlFlags, Flags.setPsz]
      split_ifs <;> rfl
    exact hcontrol.le

instance : Lowers i8088Das where
  lowers c := by
    have hcontrol : (i8088Das c).flags.control = c.flags.control := by
      dsimp only [i8088Das, I8088.setAlFlags, Flags.setPsz]
      split_ifs <;> rfl
    exact hcontrol.le

/-- An assignment to chipset registers other than the pending requests. -/
class KeepsPending (f : Fe2010 → Fe2010) : Prop where
  keeps : ∀ x, (f x).irqPending = x.irqPending

instance (g₁ g₂ g₃ g₄ : Fe2010 → Byte) (g₅ : Fe2010 → Bool) (g₆ : Fe2010 → Fin 8 → Word)
    (g₇ : Fe2010 → Bool) (g₈ g₉ : Fe2010 → Fin 4 → Byte) (g₁₀ g₁₁ : Fe2010 → Byte)
    (g₁₂ : Fe2010 → Fin 3 → Pit) (g₁₃ : Fe2010 → ℕ) :
    KeepsPending fun x =>
      ⟨g₁ x, g₂ x, g₃ x, g₄ x, g₅ x, g₆ x, g₇ x, g₈ x, g₉ x, g₁₀ x, g₁₁ x, x.irqPending, g₁₂ x,
        g₁₃ x⟩ :=
  ⟨fun _ => rfl⟩

instance (i : Fin 3) (g : Fe2010 → Pit) : KeepsPending fun x => x.setPit i (g x) :=
  ⟨fun _ => rfl⟩

/-! ### The operations of the ALU keep IF and TF -/

section Alu

variable {w : ℕ} (a b : BitVec w) (carry : Bool) (f : Flags)

@[simp] theorem addFlags_control : (addFlags carry f a b).2.control = f.control := rfl
@[simp] theorem subFlags_control : (subFlags carry f a b).2.control = f.control := rfl
@[simp] theorem andFlags_control : (andFlags f a b).2.control = f.control := rfl
@[simp] theorem logicFlags_control : (logicFlags f a).2.control = f.control := rfl
@[simp] theorem incFlags_control : (incFlags b f a).2.control = f.control := rfl

/-- Each pass of a rotate keeps IF and TF, and so does the rotate. -/
theorem rotate_control (step : BitVec w × Flags → BitVec w × Flags)
    (hstep : ∀ s, (step s).2.control = s.2.control) (o : BitVec w → Flags → Bool) (count : Byte) :
    (rotate step o f a count).2.control = f.control := by
  -- a count of 1 is one pass, and any other one as many
  have hiter : ∀ n s, (step^[n] s).2.control = s.2.control := by
    intro n
    induction n with
    | zero => intro s; rfl
    | succ n ih => intro s; rw [Function.iterate_succ_apply, ih, hstep]
  unfold rotate
  split
  · rfl
  · split
    · exact hstep (a, f)
    · exact hiter _ _

theorem shift_control (step : BitVec w × Flags → BitVec w × Flags)
    (hstep : ∀ s, (step s).2.control = s.2.control) (o : BitVec w → Flags → Bool) (count : Byte) :
    (shift step o f a count).2.control = f.control := by
  unfold shift
  split
  · rfl
  · exact rotate_control a f step hstep o count

end Alu

/-- An operation of the ALU, for every pair of operands. -/
class AluKeepsI {α : Type} (op : Flags → α → α → α × Flags) : Prop where
  keeps : ∀ f a b, (op f a b).2.control = f.control

instance {α : Type} (op : Flags → α → α → α × Flags) [h : AluKeepsI op] (a b : α) :
    KeepsI fun f => op f a b := ⟨fun f => h.keeps f a b⟩

instance : AluKeepsI i8088Add8 := ⟨fun _ _ _ => rfl⟩
instance : AluKeepsI i8088Add16 := ⟨fun _ _ _ => rfl⟩
instance : AluKeepsI i8088Adc8 := ⟨fun _ _ _ => rfl⟩
instance : AluKeepsI i8088Adc16 := ⟨fun _ _ _ => rfl⟩
instance : AluKeepsI i8088Sbb8 := ⟨fun _ _ _ => rfl⟩
instance : AluKeepsI i8088Sbb16 := ⟨fun _ _ _ => rfl⟩
instance : AluKeepsI i8088Sub8 := ⟨fun _ _ _ => rfl⟩
instance : AluKeepsI i8088Sub16 := ⟨fun _ _ _ => rfl⟩
instance : AluKeepsI i8088And8 := ⟨fun _ _ _ => rfl⟩
instance : AluKeepsI i8088And16 := ⟨fun _ _ _ => rfl⟩
instance : AluKeepsI i8088Or8 := ⟨fun _ _ _ => rfl⟩
instance : AluKeepsI i8088Or16 := ⟨fun _ _ _ => rfl⟩
instance : AluKeepsI i8088Xor8 := ⟨fun _ _ _ => rfl⟩
instance : AluKeepsI i8088Xor16 := ⟨fun _ _ _ => rfl⟩

instance (op : BitVec 3) : AluKeepsI (group80 op) where
  keeps f a b := by
    unfold group80
    split <;> rfl

instance (op : BitVec 3) : AluKeepsI (group81 op) where
  keeps f a b := by
    unfold group81
    split <;> rfl

/-- `INC`, `DEC`: an operation with one operand. -/
class StepKeepsI {α : Type} (op : Flags → α → α × Flags) : Prop where
  keeps : ∀ f a, (op f a).2.control = f.control

instance {α : Type} (op : Flags → α → α × Flags) [h : StepKeepsI op] (a : α) :
    KeepsI fun f => op f a := ⟨fun f => h.keeps f a⟩

instance : StepKeepsI i8088Inc8 := ⟨fun _ _ => rfl⟩
instance : StepKeepsI i8088Inc16 := ⟨fun _ _ => rfl⟩
instance : StepKeepsI i8088Dec8 := ⟨fun _ _ => rfl⟩
instance : StepKeepsI i8088Dec16 := ⟨fun _ _ => rfl⟩

/-- Rotates and shifts: an operand and a count. -/
class ShiftKeepsI {w : ℕ} (op : Flags → BitVec w → Byte → BitVec w × Flags) : Prop where
  keeps : ∀ f a count, (op f a count).2.control = f.control

instance {w : ℕ} (op : Flags → BitVec w → Byte → BitVec w × Flags) [h : ShiftKeepsI op]
    (a : BitVec w) (count : Byte) : KeepsI fun f => op f a count :=
  ⟨fun f => h.keeps f a count⟩

instance : ShiftKeepsI i8088Rcl8 := ⟨fun f a n => rotate_control a f rclStep (fun _ => rfl) _ n⟩
instance : ShiftKeepsI i8088Rcl16 := ⟨fun f a n => rotate_control a f rclStep (fun _ => rfl) _ n⟩
instance : ShiftKeepsI i8088Rcr8 := ⟨fun f a n => rotate_control a f rcrStep (fun _ => rfl) _ n⟩
instance : ShiftKeepsI i8088Rcr16 := ⟨fun f a n => rotate_control a f rcrStep (fun _ => rfl) _ n⟩
instance : ShiftKeepsI i8088Rol8 := ⟨fun f a n => rotate_control a f rolStep (fun _ => rfl) _ n⟩
instance : ShiftKeepsI i8088Rol16 := ⟨fun f a n => rotate_control a f rolStep (fun _ => rfl) _ n⟩
instance : ShiftKeepsI i8088Ror8 := ⟨fun f a n => rotate_control a f rorStep (fun _ => rfl) _ n⟩
instance : ShiftKeepsI i8088Ror16 := ⟨fun f a n => rotate_control a f rorStep (fun _ => rfl) _ n⟩
instance : ShiftKeepsI i8088Sar8 :=
  ⟨fun f a n => shift_control a f (sarStep a.msb) (fun _ => rfl) _ n⟩
instance : ShiftKeepsI i8088Sar16 :=
  ⟨fun f a n => shift_control a f (sarStep a.msb) (fun _ => rfl) _ n⟩
instance : ShiftKeepsI i8088Shl8 := ⟨fun f a n => shift_control a f shlStep (fun _ => rfl) _ n⟩
instance : ShiftKeepsI i8088Shl16 := ⟨fun f a n => shift_control a f shlStep (fun _ => rfl) _ n⟩
instance : ShiftKeepsI i8088Shr8 := ⟨fun f a n => shift_control a f shrStep (fun _ => rfl) _ n⟩
instance : ShiftKeepsI i8088Shr16 := ⟨fun f a n => shift_control a f shrStep (fun _ => rfl) _ n⟩

/-! `CMP` and `TEST` assign the flags alone. -/

instance (a b : I8088 → Byte) : LowersFlags fun c => i8088Cmp8 c.flags (a c) (b c) :=
  ⟨fun _ => le_rfl⟩

instance (a b : I8088 → Word) : LowersFlags fun c => i8088Cmp16 c.flags (a c) (b c) :=
  ⟨fun _ => le_rfl⟩

instance (a b : I8088 → Byte) : LowersFlags fun c => (i8088And8 c.flags (a c) (b c)).2 :=
  ⟨fun _ => le_rfl⟩

instance (a b : I8088 → Word) : LowersFlags fun c => (i8088And16 c.flags (a c) (b c)).2 :=
  ⟨fun _ => le_rfl⟩

/-! ### The actions that leave the devices alone -/

/-- An action that leaves the devices alone. -/
def CoreAction (raises reports : Bool) (α : Type) (x : M δ α) : Prop :=
  Action raises reports α x ∧ ∀ m : Machine δ, (outcome x m).2.dev = m.dev

/-- What leaves the devices alone is a sequence of actions as well. -/
instance (priority := low) generated_of_core {raises reports : Bool} {α : Type} {x : M δ α}
    [h : Generated (CoreAction raises reports) x] : Generated (Action raises reports) x :=
  h.mono fun hx => .action _ hx.1

theorem dev_pendingPass (irqNo : Fin 8) (m : Machine δ) :
    (outcome (pendingPass irqNo) m).2.dev = m.dev := by
  simp only [pendingPass, outcome_bind, outcome_get, outcome_ite]
  split
  · rw [outcome_record, dev_fe2010Irq]
  · rfl

theorem dev_memRead (who : Initiator) (address : BitVec 32) (m : Machine δ) :
    (outcome (memRead who address) m).2.dev = m.dev := by
  rw [outcome_memRead]
  split <;> rfl

/-! ### The actions as instances -/

section Instances

variable {raises reports : Bool}

instance (priority := low) (f : I8088 → I8088) :
    Generated (CoreAction true reports) (modifyCpu f : M δ Unit) :=
  .action _ ⟨.assign f (.inl rfl), fun _ => rfl⟩

instance (f : I8088 → I8088) [h : Lowers f] :
    Generated (CoreAction raises reports) (modifyCpu f : M δ Unit) :=
  .action _ ⟨.assign f (.inr h.lowers), fun _ => rfl⟩

instance (priority := low) (f : Flags → Flags) :
    Generated (CoreAction true reports) (modifyFlags f : M δ Unit) :=
  .action _ ⟨.assign _ (.inl rfl), fun _ => rfl⟩

instance (f : Flags → Flags) [h : LowersI f] :
    Generated (CoreAction raises reports) (modifyFlags f : M δ Unit) :=
  .action _ ⟨.assign _ (.inr fun c => h.lowers c.flags), fun _ => rfl⟩

instance {α : Type} (op : Flags → α × Flags) [h : KeepsI op] :
    Generated (CoreAction raises reports) (withFlags op : M δ α) :=
  .action _ ⟨.flags op h.keeps, fun _ => rfl⟩

instance (segment offset : Word) :
    Generated (CoreAction raises reports) (memReadBySegment segment offset : M δ Byte) :=
  .action _ ⟨.load segment offset, dev_memRead _ _⟩

instance (segment offset : Word) (v : Byte) :
    Generated (CoreAction raises reports) (memWriteBySegment segment offset v : M δ Unit) :=
  .action _ ⟨.store segment offset v, dev_memWrite _ _ v⟩

instance (intNo : Byte) (k : Fin 4) :
    Generated (CoreAction raises reports) (readVector intNo k : M δ Byte) :=
  .action _ ⟨.vector intNo k, fun _ => dev_memRead _ _ _⟩

instance (intNo : Byte) :
    Generated (CoreAction raises reports) (record (.interrupt intNo) : M δ Unit) :=
  .action _ ⟨.interrupt intNo, fun _ => rfl⟩

instance (irqNo : Fin 8) : Generated (CoreAction raises reports) (fe2010Irq irqNo : M δ Unit) :=
  .action _ ⟨.irq irqNo, dev_fe2010Irq irqNo⟩

instance (irqNo : Fin 8) : Generated (CoreAction raises reports) (pendingPass irqNo : M δ Unit) :=
  .action _ ⟨.retry irqNo, dev_pendingPass irqNo⟩

instance (f : Fe2010 → Fe2010) [h : KeepsPending f] :
    Generated (CoreAction raises reports) (modifyFe2010 f : M δ Unit) :=
  .action _ ⟨.chipset f h.keeps, fun _ => rfl⟩

instance (address : BitVec 32) :
    Generated (CoreAction raises reports) (memRead .dma address : M δ Byte) :=
  .action _ ⟨.dmaLoad address, dev_memRead _ address⟩

instance (address : BitVec 32) (v : Byte) :
    Generated (CoreAction raises reports) (memWrite .dma address v : M δ Unit) :=
  .action _ ⟨.dmaStore address v, dev_memWrite _ address v⟩

instance {α : Type} (f : Local δ α) : Generated (Action raises reports) (runLocal f) :=
  .action _ (.own f)

instance : Generated (CoreAction raises reports) (panic .lock : M δ Unit) :=
  .action _ ⟨.panic _ rfl (.inr nofun), fun _ => rfl⟩
instance : Generated (CoreAction raises reports) (panic .wait : M δ Unit) :=
  .action _ ⟨.panic _ rfl (.inr nofun), fun _ => rfl⟩
instance : Generated (CoreAction raises reports) (panic .pitLatchedLoad : M δ Unit) :=
  .action _ ⟨.panic _ rfl (.inr nofun), fun _ => rfl⟩

instance (opcode : Byte) :
    Generated (CoreAction raises true) (panic (.unhandledOpcode opcode) : M δ Unit) :=
  .action _ ⟨.panic _ rfl (.inl rfl), fun _ => rfl⟩

instance (opcode : BitVec 3) :
    Generated (CoreAction raises reports) (panic (.unhandledD0D2 opcode) : M δ Unit) :=
  .action _ ⟨.panic _ rfl (.inr nofun), fun _ => rfl⟩

instance (opcode : BitVec 3) :
    Generated (CoreAction raises reports) (panic (.unhandledD1D3 opcode) : M δ Unit) :=
  .action _ ⟨.panic _ rfl (.inr nofun), fun _ => rfl⟩

instance (opcode : BitVec 3) :
    Generated (CoreAction raises reports) (panic (.unhandledFe opcode) : M δ Unit) :=
  .action _ ⟨.panic _ rfl (.inr nofun), fun _ => rfl⟩

instance (select : Byte) :
    Generated (CoreAction raises reports) (panic (.illegalPit select) : M δ Unit) :=
  .action _ ⟨.panic _ rfl (.inr nofun), fun _ => rfl⟩

instance instGetCpu : Generated (CoreAction raises reports) (getCpu : M δ I8088) := by
  unfold getCpu
  infer_instance

end Instances

end Pc20iii
