import Pc20iii.I8088.ModRM
import Pc20iii.I8088.Alu

/-!
# String instructions

The six string operations and their repeated forms. A repeated string instruction is a
loop on `cx`, and for the comparisons also on the zero flag; it runs on fuel here, and
`repeated_ends` shows that 65536 passes are always enough.

The byte reads and writes of `lodsw`, `movsw` and `stosw` follow the source: `lodsw`
reads two words and keeps their low bytes.
-/

namespace Pc20iii

open StateProgram

variable {δ : Type}

/-- The move of an index register: down when the direction flag is set. -/
def I8088.strideBy (c : I8088) (size index : Word) : Word :=
  if c.flags.d then index - size else index + size

/-- "`cpu->di -= size; cpu->si -= size`", or the additions. -/
def advanceBoth (size : Word) : M δ Unit :=
  modifyCpu fun c => { c with di := c.strideBy size c.di, si := c.strideBy size c.si }

/-- The move of `si` alone. -/
def advanceSi (size : Word) : M δ Unit :=
  modifyCpu fun c => { c with si := c.strideBy size c.si }

/-- The move of `di` alone. -/
def advanceDi (size : Word) : M δ Unit :=
  modifyCpu fun c => { c with di := c.strideBy size c.di }

/-- The word at `es:di`, as `cmpsw` and `scasw` read it. -/
def readEsDi : M δ Word := do
  let c ← getCpu
  let lo ← memReadBySegment c.es c.di
  let hi ← memReadBySegment c.es (c.di + 1)
  return wordOf lo hi

/-- `i8088_cmpsb`. -/
def i8088Cmpsb : M δ Unit := do
  let c ← getCpu
  let input1 ← eaddrRead8 c.ds c.si
  let input2 ← memReadBySegment c.es c.di
  modifyCpu fun c => { c with flags := i8088Cmp8 c.flags input1.1 input2 }
  advanceBoth 1

/-- `i8088_cmpsw`. -/
def i8088Cmpsw : M δ Unit := do
  let data ← readEsDi
  let c ← getCpu
  let input1 ← eaddrRead16 c.ds c.si
  modifyCpu fun c => { c with flags := i8088Cmp16 c.flags input1.1 data }
  advanceBoth 2

/-- `i8088_lodsb`. -/
def i8088Lodsb : M δ Unit := do
  let c ← getCpu
  let value ← eaddrRead8 c.ds c.si
  modifyCpu fun c => c.setAl value.1
  advanceSi 1

/-- `i8088_lodsw`. -/
def i8088Lodsw : M δ Unit := do
  let c ← getCpu
  let low ← eaddrRead16 c.ds c.si
  modifyCpu fun c => c.setAl (lowByte low.1)
  let high ← eaddrRead16 c.ds (c.si + 1)
  modifyCpu fun c => c.setAh (lowByte high.1)
  advanceSi 2

/-- `i8088_movsb`. -/
def i8088Movsb : M δ Unit := do
  let c ← getCpu
  let value ← eaddrRead8 c.ds c.si
  memWriteBySegment c.es c.di value.1
  advanceBoth 1

/-- `i8088_movsw`. -/
def i8088Movsw : M δ Unit := do
  let c ← getCpu
  let low ← eaddrRead8 c.ds c.si
  memWriteBySegment c.es c.di low.1
  let high ← eaddrRead8 c.ds (c.si + 1)
  memWriteBySegment c.es (c.di + 1) high.1
  advanceBoth 2

/-- `i8088_scasb`. -/
def i8088Scasb : M δ Unit := do
  let c ← getCpu
  let value ← memReadBySegment c.es c.di
  modifyCpu fun c => { c with flags := i8088Cmp8 c.flags c.al value }
  advanceDi 1

/-- `i8088_scasw`. -/
def i8088Scasw : M δ Unit := do
  let data ← readEsDi
  modifyCpu fun c => { c with flags := i8088Cmp16 c.flags c.ax data }
  advanceDi 2

/-- `i8088_stosb`. -/
def i8088Stosb : M δ Unit := do
  let c ← getCpu
  memWriteBySegment c.es c.di c.al
  advanceDi 1

/-- `i8088_stosw`. -/
def i8088Stosw : M δ Unit := do
  let c ← getCpu
  memWriteBySegment c.es c.di c.al
  memWriteBySegment c.es (c.di + 1) c.ah
  advanceDi 2

/-! ### Repetition

The result of each of these says whether the instruction ended within the fuel. -/

/-- `cpu->cx--`. -/
def decrementCx : M δ Unit := modifyCpu fun c => { c with cx := c.cx - 1 }

/-- `while (cpu->cx != 0) { body; cpu->cx--; }`. -/
def whileCx (body : M δ Unit) : ℕ → M δ Bool :=
  whileFuel (fun m => m.cpu.cx != 0) (do body; decrementCx)

/-- `while (cpu->cx != 0 && cpu->z == z) { body; cpu->cx--; }`. -/
def whileCxZ (z : Bool) (body : M δ Unit) : ℕ → M δ Bool :=
  whileFuel (fun m => m.cpu.cx != 0 && m.cpu.flags.z == z) (do body; decrementCx)

/-- The cases of `MOVS`, `STOS` and `LODS`. -/
def repeated (body : M δ Unit) (fuel : ℕ) : M δ Bool := do
  match (← getCpu).repeatPrefix with
  | .none =>
    body
    return true
  | .ez => whileCx body fuel
  | .nenz => whileCx body fuel

/-- The repetition of `CMPS` and `SCAS` while the zero flag is `z`. -/
def repeatWhileZ (z : Bool) (body : M δ Unit) (fuel : ℕ) : M δ Bool := do
  if (← getCpu).cx ≠ 0 then
    body
    decrementCx
    if (← getCpu).flags.z = z then
      whileCxZ z body fuel
    else
      return true
  else
    return true

/-- The cases of `CMPS` and `SCAS`. -/
def repeatedZ (body : M δ Unit) (fuel : ℕ) : M δ Bool := do
  match (← getCpu).repeatPrefix with
  | .none =>
    body
    return true
  | .ez => repeatWhileZ true body fuel
  | .nenz => repeatWhileZ false body fuel

/-! ### Termination -/

section Termination

variable {body : M δ Unit}

/-- A body that does not touch the counter. -/
def KeepsCx (body : M δ Unit) : Prop := ∀ m : Machine δ, (outcome body m).2.cpu.cx = m.cpu.cx

/-- The decrement lowers a counter that is not zero. -/
theorem cx_decrement_lt (hcx : KeepsCx body) {m : Machine δ} (h : m.cpu.cx ≠ 0) :
    (outcome (do body; decrementCx) m).2.cpu.cx.toNat < m.cpu.cx.toNat := by
  have hpos : m.cpu.cx.toNat ≠ 0 := fun h0 => h (BitVec.eq_of_toNat_eq h0)
  have hone : (1 : Word).toNat = 1 := rfl
  have hlt := m.cpu.cx.isLt
  simp only [outcome_bind, decrementCx, outcome_modifyCpu, hcx m, BitVec.toNat_sub, hone]
  omega

theorem whileCx_ends (hcx : KeepsCx body) {fuel : ℕ} (hfuel : 65536 ≤ fuel) (m : Machine δ) :
    (outcome (whileCx body fuel) m).1 = true := by
  refine whileFuel_ends (μ := fun m => m.cpu.cx.toNat) (fun m hm => ?_) fuel m
    (m.cpu.cx.isLt.trans_le hfuel)
  exact cx_decrement_lt hcx (by simpa using hm)

theorem whileCxZ_ends (hcx : KeepsCx body) (z : Bool) {fuel : ℕ} (hfuel : 65536 ≤ fuel)
    (m : Machine δ) : (outcome (whileCxZ z body fuel) m).1 = true := by
  refine whileFuel_ends (μ := fun m => m.cpu.cx.toNat) (fun m hm => ?_) fuel m
    (m.cpu.cx.isLt.trans_le hfuel)
  rw [Bool.and_eq_true] at hm
  exact cx_decrement_lt hcx (by simpa using hm.1)

/-- A repeated `MOVS`, `STOS` or `LODS` ends within 65536 passes. -/
theorem repeated_ends (hcx : KeepsCx body) {fuel : ℕ} (hfuel : 65536 ≤ fuel) (m : Machine δ) :
    (outcome (repeated body fuel) m).1 = true := by
  rw [repeated, outcome_bind, outcome_getCpu]
  cases m.cpu.repeatPrefix with
  | none => rfl
  | ez => exact whileCx_ends hcx hfuel m
  | nenz => exact whileCx_ends hcx hfuel m

theorem repeatWhileZ_ends (hcx : KeepsCx body) (z : Bool) {fuel : ℕ} (hfuel : 65536 ≤ fuel)
    (m : Machine δ) : (outcome (repeatWhileZ z body fuel) m).1 = true := by
  simp only [repeatWhileZ, outcome_bind, outcome_getCpu, outcome_ite]
  split_ifs
  · exact whileCxZ_ends hcx z hfuel _
  · rfl
  · rfl

/-- A repeated `CMPS` or `SCAS` ends within 65536 passes. -/
theorem repeatedZ_ends (hcx : KeepsCx body) {fuel : ℕ} (hfuel : 65536 ≤ fuel) (m : Machine δ) :
    (outcome (repeatedZ body fuel) m).1 = true := by
  rw [repeatedZ, outcome_bind, outcome_getCpu]
  cases m.cpu.repeatPrefix with
  | none => rfl
  | ez => exact repeatWhileZ_ends hcx true hfuel m
  | nenz => exact repeatWhileZ_ends hcx false hfuel m

end Termination

/-! The string operations do not touch the counter. -/

theorem keepsCx_cmpsb : KeepsCx (i8088Cmpsb : M δ Unit) := fun m => by
  simp [i8088Cmpsb, advanceBoth, eaddrRead8]

theorem keepsCx_cmpsw : KeepsCx (i8088Cmpsw : M δ Unit) := fun m => by
  simp [i8088Cmpsw, advanceBoth, readEsDi, eaddrRead16]

theorem keepsCx_lodsb : KeepsCx (i8088Lodsb : M δ Unit) := fun m => by
  simp [i8088Lodsb, advanceSi, eaddrRead8, I8088.setAl]

theorem keepsCx_lodsw : KeepsCx (i8088Lodsw : M δ Unit) := fun m => by
  simp [i8088Lodsw, advanceSi, eaddrRead16, I8088.setAl, I8088.setAh]

theorem keepsCx_movsb : KeepsCx (i8088Movsb : M δ Unit) := fun m => by
  simp [i8088Movsb, advanceBoth, eaddrRead8]

theorem keepsCx_movsw : KeepsCx (i8088Movsw : M δ Unit) := fun m => by
  simp [i8088Movsw, advanceBoth, eaddrRead8]

theorem keepsCx_scasb : KeepsCx (i8088Scasb : M δ Unit) := fun m => by
  simp [i8088Scasb, advanceDi]

theorem keepsCx_scasw : KeepsCx (i8088Scasw : M δ Unit) := fun m => by
  simp [i8088Scasw, advanceDi, readEsDi]

theorem keepsCx_stosb : KeepsCx (i8088Stosb : M δ Unit) := fun m => by
  simp [i8088Stosb, advanceDi]

theorem keepsCx_stosw : KeepsCx (i8088Stosw : M δ Unit) := fun m => by
  simp [i8088Stosw, advanceDi]

end Pc20iii
