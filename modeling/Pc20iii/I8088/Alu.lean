import Pc20iii.Machine.State

/-!
# Arithmetic and logic

The functions of `i8088.c` that compute results and flags. Those that only read and write
the flags are functions of the flags and their operands; those that work on fixed
registers (`AAA` and its kin, the multiplications) are functions of the registers. None of
them touches memory.

The 8-bit and 16-bit members of a family are instances of one definition over the width,
except where the source makes a difference (`i8088Dec8` and `i8088Dec16`). Intermediate
values of C type `int` are 32-bit vectors.
-/

namespace Pc20iii

open StateProgram

variable {w : ℕ}

/-- The assignments to `p`, `s` and `z` that close most operations. -/
def Flags.setPsz (f : Flags) (result : BitVec w) : Flags :=
  { f with p := parityEven (result.setWidth 16), s := result.msb, z := result == 0 }

/-- A Boolean as a 32-bit `int`. -/
def intOf (b : Bool) : BitVec 32 := (BitVec.ofBool b).setWidth 32

/-- `input & 0xF`, promoted to `int`. -/
def nibble (input : BitVec w) : BitVec 32 := input.setWidth 32 &&& 0xF

/-! ### Addition and subtraction -/

/-- Addition of two operands and a carry. -/
def addFlags (carry : Bool) (f : Flags) (input1 input2 : BitVec w) : BitVec w × Flags :=
  let result := input1 + input2 + (BitVec.ofBool carry).setWidth w
  (result, ({ f with
    a := (nibble input1 + nibble input2 + intOf carry).getLsbD 4
    c := (input1.setWidth 32 + input2.setWidth 32 + intOf carry).getLsbD w
    o := (input1.msb && input2.msb && !result.msb)
      || (!input1.msb && !input2.msb && result.msb) } : Flags).setPsz result)

/-- Subtraction of an operand and a borrow. -/
def subFlags (borrow : Bool) (f : Flags) (input1 input2 : BitVec w) : BitVec w × Flags :=
  let result := input1 - input2 - (BitVec.ofBool borrow).setWidth w
  (result, ({ f with
    a := (nibble input1 - nibble input2 - intOf borrow).getLsbD 4
    c := (input1.setWidth 32 - input2.setWidth 32 - intOf borrow).getLsbD w
    o := (input1.msb && !input2.msb && !result.msb)
      || (!input1.msb && input2.msb && result.msb) } : Flags).setPsz result)

def i8088Adc8 (f : Flags) (input1 input2 : Byte) : Byte × Flags := addFlags f.c f input1 input2
def i8088Adc16 (f : Flags) (input1 input2 : Word) : Word × Flags := addFlags f.c f input1 input2
def i8088Add8 (f : Flags) (input1 input2 : Byte) : Byte × Flags := addFlags false f input1 input2
def i8088Add16 (f : Flags) (input1 input2 : Word) : Word × Flags := addFlags false f input1 input2
def i8088Sbb8 (f : Flags) (input1 input2 : Byte) : Byte × Flags := subFlags f.c f input1 input2
def i8088Sbb16 (f : Flags) (input1 input2 : Word) : Word × Flags := subFlags f.c f input1 input2
def i8088Sub8 (f : Flags) (input1 input2 : Byte) : Byte × Flags := subFlags false f input1 input2
def i8088Sub16 (f : Flags) (input1 input2 : Word) : Word × Flags := subFlags false f input1 input2
def i8088Cmp8 (f : Flags) (input1 input2 : Byte) : Flags := (subFlags false f input1 input2).2
def i8088Cmp16 (f : Flags) (input1 input2 : Word) : Flags := (subFlags false f input1 input2).2

/-- Increment; `top` is the largest positive operand. -/
def incFlags (top : BitVec w) (f : Flags) (input : BitVec w) : BitVec w × Flags :=
  let result := input + 1
  (result, ({ f with
    a := nibble result == 0
    o := input == top } : Flags).setPsz result)

def i8088Inc8 : Flags → Byte → Byte × Flags := incFlags 0x7F
def i8088Inc16 : Flags → Word → Word × Flags := incFlags 0x7FFF

def i8088Dec8 (f : Flags) (input : Byte) : Byte × Flags :=
  let result := input - 1
  (result, ({ f with
    a := nibble input == 0
    o := input.msb && !result.msb } : Flags).setPsz result)

/-- Unlike `i8088Dec8`, the word form always clears the overflow flag. -/
def i8088Dec16 (f : Flags) (input : Word) : Word × Flags :=
  let result := input - 1
  (result, ({ f with
    a := nibble input == 0
    o := false } : Flags).setPsz result)

/-! ### Logic -/

def andFlags (f : Flags) (input1 input2 : BitVec w) : BitVec w × Flags :=
  let result := input1 &&& input2
  (result, ({ f with
    c := false
    o := (input1.msb && input2.msb && !result.msb)
      || (!input1.msb && !input2.msb && result.msb) } : Flags).setPsz result)

/-- The flags of `OR` and `XOR`, which clear `c` and `o`. -/
def logicFlags (f : Flags) (result : BitVec w) : BitVec w × Flags :=
  (result, ({ f with c := false, o := false } : Flags).setPsz result)

def i8088And8 : Flags → Byte → Byte → Byte × Flags := andFlags
def i8088And16 : Flags → Word → Word → Word × Flags := andFlags
def i8088Or8 (f : Flags) (input1 input2 : Byte) : Byte × Flags := logicFlags f (input1 ||| input2)
def i8088Or16 (f : Flags) (input1 input2 : Word) : Word × Flags := logicFlags f (input1 ||| input2)
def i8088Xor8 (f : Flags) (input1 input2 : Byte) : Byte × Flags := logicFlags f (input1 ^^^ input2)
def i8088Xor16 (f : Flags) (input1 input2 : Word) : Word × Flags :=
  logicFlags f (input1 ^^^ input2)

/-! ### Rotates and shifts

Each function tests for the counts 0 and 1 and otherwise runs its loop, which decrements
the local `count` to zero. That loop always ends, with `step^[count]` of what it started
from (`outcome_countLoop`). -/

/-- `while (count > 0) { ...; count--; }`. -/
def countLoop {α : Type} (step : α → α) : ℕ → StateM (Byte × α) Bool :=
  whileFuel (fun s => s.1 != 0) (modify fun s => (s.1 - 1, step s.2))

/-- A loop that counts down to 0 makes as many steps as the counter says, given fuel for them. -/
theorem outcome_countLoop {α : Type} (step : α → α) {fuel : ℕ} {count : Byte} (x : α)
    (h : count.toNat < fuel) :
    outcome (countLoop step fuel) (count, x) = (true, (0, step^[count.toNat] x)) := by
  induction fuel generalizing count x with
  | zero => exact absurd h (Nat.not_lt_zero _)
  | succ fuel ih =>
    -- the fuel goes down with the counter, and 0 is left when the loop ends
    by_cases hzero : count = 0
    · subst hzero
      exact whileFuel_succ_of_not rfl fuel
    · have hone : (1 : Byte).toNat = 1 := rfl
      have hpos : count.toNat ≠ 0 := fun h0 => hzero (BitVec.eq_of_toNat_eq h0)
      have hpred : count.toNat = (count - 1).toNat + 1 := by
        have hlt := count.isLt
        rw [BitVec.toNat_sub, hone]
        omega
      have hstep : outcome (countLoop step (fuel + 1)) (count, x) =
          outcome (countLoop step fuel) (count - 1, step x) :=
        whileFuel_succ_of (by simpa using hzero) fuel
      rw [hstep, ih (step x) (by omega), hpred, Function.iterate_succ_apply]

/-- The lowest or highest bit of a vector, as the operand of `|=`. -/
def bitAt (k : ℕ) (b : Bool) : BitVec w := (BitVec.ofBool b).setWidth w <<< k

/-- The shape of the four rotates; `o` is the overflow flag of the single-bit form. -/
def rotate (step : BitVec w × Flags → BitVec w × Flags) (o : BitVec w → Flags → Bool)
    (f : Flags) (input : BitVec w) (count : Byte) : BitVec w × Flags :=
  if count = 0 then
    (input, f)
  else if count = 1 then
    let (input, f) := step (input, f)
    (input, { f with o := o input f })
  else
    step^[count.toNat] (input, f)

def rclStep : BitVec w × Flags → BitVec w × Flags := fun (input, f) =>
  ((input <<< 1) ||| bitAt 0 f.c, { f with c := input.msb })

def rcrStep : BitVec w × Flags → BitVec w × Flags := fun (input, f) =>
  ((input >>> 1) ||| bitAt (w - 1) f.c, { f with c := input.getLsbD 0 })

def rolStep : BitVec w × Flags → BitVec w × Flags := fun (input, f) =>
  ((input <<< 1) ||| bitAt 0 input.msb, { f with c := input.msb })

def rorStep : BitVec w × Flags → BitVec w × Flags := fun (input, f) =>
  ((input >>> 1) ||| bitAt (w - 1) (input.getLsbD 0), { f with c := input.getLsbD 0 })

/-- `((input >> 7) & 1) != cpu->c`. -/
def leftOverflow (input : BitVec w) (f : Flags) : Bool := input.msb != f.c

/-- `((input >> 7) & 1) ^ ((input >> 6) & 1)`. -/
def rightOverflow (input : BitVec w) (_ : Flags) : Bool := input.msb ^^ input.getLsbD (w - 2)

def i8088Rcl8 : Flags → Byte → Byte → Byte × Flags := rotate rclStep leftOverflow
def i8088Rcl16 : Flags → Word → Byte → Word × Flags := rotate rclStep leftOverflow
def i8088Rcr8 : Flags → Byte → Byte → Byte × Flags := rotate rcrStep rightOverflow
def i8088Rcr16 : Flags → Word → Byte → Word × Flags := rotate rcrStep rightOverflow
def i8088Rol8 : Flags → Byte → Byte → Byte × Flags := rotate rolStep leftOverflow
def i8088Rol16 : Flags → Word → Byte → Word × Flags := rotate rolStep leftOverflow
def i8088Ror8 : Flags → Byte → Byte → Byte × Flags := rotate rorStep rightOverflow
def i8088Ror16 : Flags → Word → Byte → Word × Flags := rotate rorStep rightOverflow

/-- The shape of the three shifts: as `rotate`, but a count other than 0 also sets `p`, `s`
and `z`. -/
def shift (step : BitVec w × Flags → BitVec w × Flags) (o : BitVec w → Flags → Bool)
    (f : Flags) (input : BitVec w) (count : Byte) : BitVec w × Flags :=
  if count = 0 then
    (input, f)
  else
    let (result, f) := rotate step o f input count
    (result, f.setPsz result)

def shlStep : BitVec w × Flags → BitVec w × Flags := fun (input, f) =>
  (input <<< 1, { f with c := input.msb })

def shrStep : BitVec w × Flags → BitVec w × Flags := fun (result, f) =>
  (result >>> 1, { f with c := result.getLsbD 0 })

/-- `sign` is `input & 0x80` of the operand the loop started from. -/
def sarStep (sign : Bool) : BitVec w × Flags → BitVec w × Flags := fun (result, f) =>
  ((result >>> 1) ||| bitAt (w - 1) sign, { f with c := result.getLsbD 0 })

/-- `cpu->c ^ (input >> 7)`. -/
def shlOverflow (input : BitVec w) (f : Flags) : Bool := f.c ^^ input.msb

/-- `(input & 0x80) && !(result & 0x80)`. -/
def signLost (sign : Bool) (result : BitVec w) (_ : Flags) : Bool := sign && !result.msb

def i8088Sar8 (f : Flags) (input : Byte) (count : Byte) : Byte × Flags :=
  shift (sarStep input.msb) (signLost input.msb) f input count
def i8088Sar16 (f : Flags) (input : Word) (count : Byte) : Word × Flags :=
  shift (sarStep input.msb) (signLost input.msb) f input count
def i8088Shl8 : Flags → Byte → Byte → Byte × Flags := shift shlStep shlOverflow
def i8088Shl16 : Flags → Word → Byte → Word × Flags := shift shlStep shlOverflow
def i8088Shr8 (f : Flags) (input : Byte) (count : Byte) : Byte × Flags :=
  shift shrStep (signLost input.msb) f input count
def i8088Shr16 (f : Flags) (input : Word) (count : Byte) : Word × Flags :=
  shift shrStep (signLost input.msb) f input count

/-! ### Decimal adjustments -/

/-- `p`, `s` and `z` of `al`, with the overflow flag `o`. -/
def I8088.setAlFlags (c : I8088) (o : Bool) : I8088 :=
  { c with flags := ({ c.flags with o := o } : Flags).setPsz c.al }

def i8088Aaa (c : I8088) : I8088 :=
  let initial := c.al
  let c :=
    if c.al &&& 0x0F > 9 ∨ c.flags.a = true then
      let c := c.setAh (c.ah + 1)
      let c := c.setAl (c.al + 6)
      { c with flags := { c.flags with a := true, c := true } }
    else
      { c with flags := { c.flags with a := false, c := false } }
  let c := c.setAlFlags (!initial.msb && c.al.msb)
  c.setAl (c.al &&& 0x0F)

def i8088Aas (c : I8088) : I8088 :=
  let initial := c.al
  let c :=
    if c.al &&& 0x0F > 9 ∨ c.flags.a = true then
      let c := c.setAl (c.al - 6)
      let c := c.setAh (c.ah - 1)
      { c with flags := { c.flags with a := true, c := true } }
    else
      { c with flags := { c.flags with a := false, c := false } }
  let c := c.setAlFlags (initial.msb && !c.al.msb)
  c.setAl (c.al &&& 0x0F)

def i8088Daa (c : I8088) : I8088 :=
  let initial := c.al
  let tempA := c.flags.a
  let c :=
    if c.al &&& 0x0F > 9 ∨ c.flags.a = true then
      let c := c.setAl (c.al + 6)
      { c with flags := { c.flags with a := true } }
    else c
  let c :=
    if initial > (if tempA then 0x9F else 0x99) ∨ c.flags.c = true then
      let c := c.setAl (c.al + 0x60)
      { c with flags := { c.flags with c := true } }
    else c
  c.setAlFlags (!initial.msb && c.al.msb)

def i8088Das (c : I8088) : I8088 :=
  let initial := c.al
  let tempA := c.flags.a
  let c :=
    if c.al &&& 0x0F > 9 ∨ c.flags.a = true then
      let c := c.setAl (c.al - 6)
      { c with flags := { c.flags with a := true } }
    else c
  let c :=
    if initial > (if tempA then 0x9F else 0x99) ∨ c.flags.c = true then
      let c := c.setAl (c.al - 0x60)
      { c with flags := { c.flags with c := true } }
    else c
  c.setAlFlags (initial.msb && !c.al.msb)

/-! ### Multiplication -/

/-- The flags of the multiplications: `high` is the upper half of the product, `c` says
that it matters. -/
def Flags.setProduct (f : Flags) (c : Bool) (high : BitVec w) : Flags :=
  ({ f with c := c, o := c } : Flags).setPsz high

def i8088Imul8 (c : I8088) (input : Byte) : I8088 :=
  let ax : Word := c.al.signExtend 16 * input.signExtend 16
  { c with
    ax := ax
    flags := c.flags.setProduct (ax != (lowByte ax).signExtend 16) (highByte ax) }

def i8088Imul16 (c : I8088) (input : Word) : I8088 :=
  let result : BitVec 32 := c.ax.signExtend 32 * input.signExtend 32
  let high : Word := (result >>> 16).setWidth 16
  { c with
    ax := result.setWidth 16
    dx := high
    flags := c.flags.setProduct (result != (result.setWidth 16).signExtend 32) high }

def i8088Mul8 (c : I8088) (input : Byte) : I8088 :=
  let ax : Word := c.al.setWidth 16 * input.setWidth 16
  { c with
    ax := ax
    flags := c.flags.setProduct (highByte ax != 0) (highByte ax) }

def i8088Mul16 (c : I8088) (input : Word) : I8088 :=
  let result : BitVec 32 := c.ax.setWidth 32 * input.setWidth 32
  let high : Word := (result >>> 16).setWidth 16
  { c with
    ax := result.setWidth 16
    dx := high
    flags := c.flags.setProduct (high != 0) high }

end Pc20iii
