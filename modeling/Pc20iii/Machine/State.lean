import Pc20iii.Machine.Word
import Pc20iii.Program.Generated
import Mathlib.Tactic.IntervalCases

/-!
# The state of the machine

The data the emulator keeps: the CPU (`i8088_t`), the memory (`mem_t`) and the chipset
(`fe2010_t`), put together with the state `δ` of the devices behind the remaining
ports.

The unions of the source are modelled by their word view: `ax` holds `al` and `ah`, the
counter of a timer holds its two bytes. The flags are kept as one Boolean for each bit
field, and `Flags.toWord` is the word view of that union.

The field `log` of `Machine` is history, not state: it records the calls of `panic`,
the interrupts that `i8088_trace_int` records, and the calls of `fe2010_irq`. No
function reads it.
-/

namespace Pc20iii

open StateProgram

/-- The bit fields of `i8088_t.flags`, lowest first. -/
structure Flags where
  /-- Carry -/
  c : Bool
  x1 : Bool
  /-- Parity -/
  p : Bool
  x2 : Bool
  /-- Auxiliary Carry -/
  a : Bool
  x3 : Bool
  /-- Zero -/
  z : Bool
  /-- Sign -/
  s : Bool
  /-- Trap -/
  t : Bool
  /-- Interrupt Enable -/
  i : Bool
  /-- Direction -/
  d : Bool
  /-- Overflow -/
  o : Bool
  x4 : BitVec 4
deriving DecidableEq, Repr

namespace Flags

/-- The bits of the union, lowest first. -/
def bits (f : Flags) : List Bool :=
  [f.c, f.x1, f.p, f.x2, f.a, f.x3, f.z, f.s, f.t, f.i, f.d, f.o,
    f.x4.getLsbD 0, f.x4.getLsbD 1, f.x4.getLsbD 2, f.x4.getLsbD 3]

/-- The `flags` member of the union. -/
def toWord (f : Flags) : Word := BitVec.ofBoolListLE f.bits

/-- An assignment to the `flags` member of the union. -/
def ofWord (w : Word) : Flags where
  c := w.getLsbD 0
  x1 := w.getLsbD 1
  p := w.getLsbD 2
  x2 := w.getLsbD 3
  a := w.getLsbD 4
  x3 := w.getLsbD 5
  z := w.getLsbD 6
  s := w.getLsbD 7
  t := w.getLsbD 8
  i := w.getLsbD 9
  d := w.getLsbD 10
  o := w.getLsbD 11
  x4 := w.extractLsb' 12 4

/-- The flags that control interrupts and single steps: IF and TF. -/
def control (f : Flags) : Bool × Bool := (f.i, f.t)

theorem getLsbD_toWord (f : Flags) (k : ℕ) : f.toWord.getLsbD k = f.bits.getD k false :=
  BitVec.getLsbD_ofBoolListLE

@[simp] theorem ofWord_toWord (f : Flags) : ofWord f.toWord = f := by
  have hx4 : f.toWord.extractLsb' 12 4 = f.x4 := by
    apply BitVec.eq_of_getLsbD_eq
    intro k hk
    rw [BitVec.getLsbD_extractLsb', getLsbD_toWord]
    interval_cases k <;> simp [bits]
  simp only [ofWord, getLsbD_toWord, hx4]
  rfl

@[simp] theorem toWord_ofWord (w : Word) : (ofWord w).toWord = w := by
  apply BitVec.eq_of_getLsbD_eq
  intro k hk
  rw [getLsbD_toWord]
  interval_cases k <;> simp [bits, ofWord]

end Flags

/-- `segment_t`: the segment override prefix in force. -/
inductive Segment where
  | none
  | cs
  | ds
  | es
  | ss
deriving DecidableEq, Repr

/-- `repeat_t`: the repeat prefix in force. -/
inductive Repeat where
  | none
  | ez
  | nenz
deriving DecidableEq, Repr

/-- `i8088_t`, without the pointer to the port table. -/
structure I8088 where
  es : Word
  cs : Word
  ss : Word
  ds : Word
  ip : Word
  sp : Word
  bp : Word
  si : Word
  di : Word
  ax : Word
  bx : Word
  cx : Word
  dx : Word
  flags : Flags
  segmentOverride : Segment
  repeatPrefix : Repeat
  halt : Bool
deriving DecidableEq, Repr

namespace I8088

/-! The byte members of the register unions. -/

def al (c : I8088) : Byte := lowByte c.ax
def ah (c : I8088) : Byte := highByte c.ax
def bl (c : I8088) : Byte := lowByte c.bx
def bh (c : I8088) : Byte := highByte c.bx
def cl (c : I8088) : Byte := lowByte c.cx
def ch (c : I8088) : Byte := highByte c.cx
def dl (c : I8088) : Byte := lowByte c.dx
def dh (c : I8088) : Byte := highByte c.dx

def setAl (c : I8088) (v : Byte) : I8088 := { c with ax := wordOf v c.ah }
def setAh (c : I8088) (v : Byte) : I8088 := { c with ax := wordOf c.al v }
def setBl (c : I8088) (v : Byte) : I8088 := { c with bx := wordOf v c.bh }
def setBh (c : I8088) (v : Byte) : I8088 := { c with bx := wordOf c.bl v }
def setCl (c : I8088) (v : Byte) : I8088 := { c with cx := wordOf v c.ch }
def setCh (c : I8088) (v : Byte) : I8088 := { c with cx := wordOf c.cl v }
def setDl (c : I8088) (v : Byte) : I8088 := { c with dx := wordOf v c.dh }
def setDh (c : I8088) (v : Byte) : I8088 := { c with dx := wordOf c.dl v }

end I8088

/-- `mem_t`: one megabyte, write protected in sections of 8192 bytes. -/
structure Mem where
  m : BitVec 20 → Byte
  readonly : BitVec 7 → Bool

/-- `pit_t`. The control byte holds the fields `bcd`, `mode`, `rl` and `sc`. -/
structure Pit where
  control : Byte
  counter : Word
  latch : Word
  flipFlop : Bool
deriving DecidableEq, Repr

/-- `fe2010_t`, without the pointers to the CPU and the memory, and with the static
variable `cycle` of `fe2010_execute`. -/
structure Fe2010 where
  /-- Control Register -/
  ctrl : Byte
  /-- Configuration Register -/
  conf : Byte
  scancode : Byte
  switches : Byte
  timer2Output : Bool
  dmaReg : Fin 8 → Word
  dmaFlipFlop : Bool
  dmaPage : Fin 4 → Byte
  dmaMode : Fin 4 → Byte
  irqMask : Byte
  nmiMask : Byte
  irqPending : Fin 8 → Bool
  pit : Fin 3 → Pit
  cycle : ℕ

/-! ### History -/

/-- Who asks `mem_read` or `mem_write` for an address. -/
inductive Initiator where
  | cpu
  | dma
deriving DecidableEq, Repr

/-- The calls of `panic` with their arguments. -/
inductive Panic where
  | memoryRead (who : Initiator) (address : BitVec 32)
  | memoryWrite (who : Initiator) (address : BitVec 32)
  | lock
  | wait
  | unhandledOpcode (opcode : Byte)
  | unhandledD0D2 (opcode : BitVec 3)
  | unhandledD1D3 (opcode : BitVec 3)
  | unhandledFe (opcode : BitVec 3)
  | pitLatchedLoad
  | illegalPit (pitSelect : Byte)
  | device (text : String)
deriving DecidableEq, Repr

/-- What the history records. -/
inductive Event where
  /-- A call of `panic`. -/
  | panic (p : Panic)
  /-- A call of `i8088_interrupt`, as `i8088_trace_int` records it. -/
  | interrupt (intNo : Byte)
  /-- A call of `i8088_irq` that enters the interrupt of line `irqNo`. -/
  | irqEntry (irqNo : Fin 8)
  /-- A call of `fe2010_irq`, with the mask register and the interrupt flag it finds. -/
  | irqCall (irqNo : Fin 8) (mask : Byte) (i : Bool)
  /-- The next call of `fe2010_irq` is one of the pending loop of `fe2010_execute`. -/
  | irqRetry (irqNo : Fin 8)
deriving DecidableEq, Repr

/-- The machine: CPU, memory, chipset, the state of the other devices, and the history,
newest event first. -/
structure Machine (δ : Type) where
  cpu : I8088
  mem : Mem
  fe2010 : Fe2010
  dev : δ
  log : List Event

/-- The functions of the emulator: programs over the machine. -/
abbrev M (δ : Type) (α : Type) := StateM (Machine δ) α

variable {δ : Type}

/-- The CPU registers. -/
def getCpu : M δ I8088 := do
  return (← get).cpu

/-- An assignment to CPU registers. -/
def modifyCpu (f : I8088 → I8088) : M δ Unit :=
  modify fun m => { m with cpu := f m.cpu }

/-- An assignment to flags. -/
def modifyFlags (f : Flags → Flags) : M δ Unit := modifyCpu fun c => { c with flags := f c.flags }

/-- An assignment to chipset registers. -/
def modifyFe2010 (f : Fe2010 → Fe2010) : M δ Unit :=
  modify fun m => { m with fe2010 := f m.fe2010 }

/-- Record an event in the history. -/
def record (e : Event) : M δ Unit :=
  modify fun m => { m with log := e :: m.log }

/-- `panic`. -/
def panic (p : Panic) : M δ Unit := record (.panic p)

@[simp] theorem outcome_getCpu (m : Machine δ) : outcome getCpu m = (m.cpu, m) := by
  rfl

@[simp] theorem outcome_modifyCpu (f : I8088 → I8088) (m : Machine δ) :
    outcome (modifyCpu f) m = ((), { m with cpu := f m.cpu }) := by
  rfl

@[simp] theorem outcome_modifyFlags (f : Flags → Flags) (m : Machine δ) :
    outcome (modifyFlags f) m = ((), { m with cpu := { m.cpu with flags := f m.cpu.flags } }) := by
  rfl

@[simp] theorem outcome_modifyFe2010 (f : Fe2010 → Fe2010) (m : Machine δ) :
    outcome (modifyFe2010 f) m = ((), { m with fe2010 := f m.fe2010 }) := by
  rfl

@[simp] theorem outcome_record (e : Event) (m : Machine δ) :
    outcome (record e) m = ((), { m with log := e :: m.log }) := by
  rfl

@[simp] theorem outcome_panic (p : Panic) (m : Machine δ) :
    outcome (panic p) m = ((), { m with log := .panic p :: m.log }) := by
  rfl

end Pc20iii
