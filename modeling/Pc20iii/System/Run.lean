import Pc20iii.System.Effects
import Pc20iii.I8088.Prefix

/-!
# Runs of the machine

The steps of the machine are the calls the main loop makes, in any order: a call of
`i8088_execute`, a poll of `fe2010_execute`, and the work of a device. A run is a sequence
of steps; `main` interleaves them in one particular way.

An action changes the machine in one of three ways (`Action.effect`): it is a request, a
retry of the pending loop, or `Plain`, which touches neither the pending requests nor the
part of the history that is about them. A property that holds across these three holds
across every run (`RunOf.rel`).

A call of `i8088_execute` whose fuel runs out leaves the machine in the middle of an
instruction. Such states count as reached, so that what is proved of runs is also proved
of calls that never return.
-/

namespace Pc20iii

open StateProgram

variable {δ : Type} {raises reports : Bool}

/-! ### The effect of an action -/

/-- The events of a plain action: not those of hardware interrupts, and no panic about an
address the CPU asks for. -/
def Event.Plain (reports : Bool) : Event → Prop
  | panic (.memoryRead .cpu _) => False
  | panic (.memoryWrite .cpu _) => False
  | panic (.unhandledOpcode _) => reports = true
  | panic _ => True
  | interrupt _ => True
  | irqEntry _ => False
  | irqCall .. => False
  | irqRetry _ => False

/-- The effect of an action that is neither a request nor a retry. -/
structure Plain (raises reports : Bool) (m m' : Machine δ) : Prop where
  /-- Memory changes by one store at most. -/
  mem : m'.mem = m.mem ∨ ∃ a v, m'.mem = m.mem.store a v
  pending : m'.fe2010.irqPending = m.fe2010.irqPending
  /-- IF and TF are raised only where `raises` allows it. -/
  lowers : raises = true ∨ m'.cpu.flags.control ≤ m.cpu.flags.control
  /-- The history grows by plain events. -/
  log : ∃ es, m'.log = es ++ m.log ∧ ∀ e ∈ es, e.Plain reports

theorem Plain.refl (m : Machine δ) : Plain raises reports m m where
  mem := .inl rfl
  pending := rfl
  lowers := .inr le_rfl
  log := ⟨[], rfl, nofun⟩

/-- A plain action that records one event. -/
theorem Plain.of_event {e : Event} (he : e.Plain reports) (m : Machine δ) :
    Plain raises reports m { m with log := e :: m.log } where
  mem := .inl rfl
  pending := rfl
  lowers := .inr le_rfl
  log := ⟨[e], rfl, by simpa using he⟩

theorem Panic.plain {p : Panic} (h : p.isMemory = false)
    (hr : reports = true ∨ ∀ opcode, p ≠ .unhandledOpcode opcode) :
    (Event.panic p).Plain reports := by
  cases p with
  | memoryRead who address => cases h
  | memoryWrite who address => cases h
  | unhandledOpcode opcode => exact hr.resolve_right fun hn => hn opcode rfl
  | _ => trivial

theorem plain_dmaLoad (address : BitVec 32) (m : Machine δ) :
    Plain raises reports m (outcome (memRead .dma address) m).2 := by
  have he : (Event.panic (.memoryRead .dma address)).Plain reports := trivial
  unfold memRead
  split
  · exact Plain.of_event he m
  · exact Plain.refl m

/-- A store of a transfer changes at most one byte of the memory, or is reported. -/
theorem plain_dmaStore (address : BitVec 32) (v : Byte) (m : Machine δ) :
    Plain raises reports m (outcome (memWrite .dma address v) m).2 := by
  have he : (Event.panic (.memoryWrite .dma address)).Plain reports := trivial
  unfold memWrite
  split
  · exact Plain.of_event he m
  · next h =>
    have hmem : (outcome (memWrite .dma address v) m).2 =
        { m with mem := m.mem.store (address.setWidth 20) v } := by
      simp only [memWrite, if_neg h, outcome_bind, outcome_get, outcome_ite, outcome_modify,
        outcome_pure, sectionOf_eq h, Mem.store]
      split <;> rfl
    simp only [memWrite, if_neg h] at hmem
    rw [hmem]
    exact ⟨.inr ⟨_, _, rfl⟩, rfl, .inr le_rfl, [], rfl, List.forall_mem_nil _⟩

theorem plain_own {α : Type} (f : Local δ α) (m : Machine δ) :
    Plain raises reports m (outcome (runLocal f) m).2 where
  mem := .inl rfl
  pending := rfl
  lowers := .inr le_rfl
  log := by
    refine ⟨_, rfl, fun e he => ?_⟩
    obtain ⟨text, -, rfl⟩ := List.mem_map.mp he
    trivial

/-- What an action does: it is plain, a request or a retry. -/
theorem Action.effect {α : Type} {x : M δ α} (hx : Action raises reports α x) (m : Machine δ) :
    Plain raises reports m (outcome x m).2 ∨
      (∃ n, (outcome x m).2 = (outcome (fe2010Irq n) m).2) ∨
      ∃ n, (outcome x m).2 = (outcome (pendingPass n) m).2 := by
  cases hx with
  | assign f h => exact .inl ⟨.inl rfl, rfl, h.imp_right fun h => h m.cpu, [], rfl, nofun⟩
  | flags op h =>
    have hcontrol : (outcome (withFlags op) m).2.cpu.flags.control = m.cpu.flags.control :=
      h m.cpu.flags
    exact .inl ⟨.inl rfl, rfl, .inr hcontrol.le, [], rfl, nofun⟩
  | load segment offset =>
    rw [outcome_memReadBySegment]
    exact .inl (.refl m)
  | store segment offset v =>
    rw [outcome_memWriteBySegment]
    exact .inl ⟨.inr ⟨_, _, rfl⟩, rfl, .inr le_rfl, [], rfl, nofun⟩
  | vector intNo k =>
    rw [outcome_readVector]
    exact .inl (.refl m)
  | interrupt intNo =>
    have he : (Event.interrupt intNo).Plain reports := trivial
    exact .inl (.of_event he m)
  -- the other two kinds keep their own lemmas
  | irq irqNo => exact .inr (.inl ⟨irqNo, rfl⟩)
  | retry irqNo => exact .inr (.inr ⟨irqNo, rfl⟩)
  | chipset f h => exact .inl ⟨.inl rfl, h m.fe2010, .inr le_rfl, [], rfl, nofun⟩
  | dmaLoad address => exact .inl (plain_dmaLoad address m)
  | dmaStore address v => exact .inl (plain_dmaStore address v m)
  | own f => exact .inl (plain_own f m)
  | panic p h hr => exact .inl (.of_event (Panic.plain h hr) m)

/-- A retry is a request with a mark in the history, when the request is pending. -/
theorem outcome_pendingPass (irqNo : Fin 8) (m : Machine δ) :
    outcome (pendingPass irqNo) m =
      if m.fe2010.irqPending irqNo then
        outcome (fe2010Irq irqNo) { m with log := .irqRetry irqNo :: m.log }
      else
        ((), m) := by
  simp [pendingPass]

/-! ### Steps and runs -/

/-- One call of `i8088_execute` in state `m` enters the switch with `opcode`. -/
def Executes (m : Machine δ) (fuel : ℕ) (opcode : Byte) : Prop :=
  m.cpu.halt = false ∧ (outcome (i8088Decode fuel) m).1 = some opcode

/-- A call from the main loop, or the work of a device. The instructions executed satisfy
`allowed`. -/
inductive Step (io : Devices δ) (allowed : Byte → Prop) : Machine δ → Machine δ → Prop
  | execute (eaddr : Word) (fuel : ℕ) (m : Machine δ)
      (h : ∀ opcode, Executes m fuel opcode → allowed opcode) :
      Step io allowed m (outcome (i8088Execute io eaddr fuel) m).2
  | chipset (m : Machine δ) : Step io allowed m (outcome fe2010Execute m).2
  | device {α : Type} {x : M δ α} (hx : Generated DeviceAction x) (m : Machine δ) :
      Step io allowed m (outcome x m).2

/-- A run whose instructions satisfy `allowed`. -/
abbrev RunOf (io : Devices δ) (allowed : Byte → Prop) : Machine δ → Machine δ → Prop :=
  Relation.ReflTransGen (Step io allowed)

/-- A run. -/
abbrev Run (io : Devices δ) : Machine δ → Machine δ → Prop := RunOf io fun _ => True

section Rules

variable {R : Machine δ → Machine δ → Prop} (hrefl : ∀ m, R m m)
  (htrans : ∀ {m₁ m₂ m₃}, R m₁ m₂ → R m₂ m₃ → R m₁ m₃)
  (hplain : ∀ {m m'}, Plain raises reports m m' → R m m')
  (hirq : ∀ m n, R m (outcome (fe2010Irq n) m).2)
  (hretry : ∀ m n, R m (outcome (pendingPass n) m).2)

include hrefl htrans hplain hirq hretry

/-- The rule for programs: what plain actions, requests and retries relate. -/
theorem generated_rel {α : Type} {x : M δ α} (hx : Generated (Action raises reports) x)
    (m : Machine δ) : R m (outcome x m).2 := by
  refine Generated.rel hrefl htrans (fun hx m => ?_) hx m
  rcases hx.effect m with h | ⟨n, h⟩ | ⟨n, h⟩
  · exact hplain h
  · exact h ▸ hirq m n
  · exact h ▸ hretry m n

variable (hreports : reports = true) {io : Devices δ} {allowed : Byte → Prop}
  (hallowed : ∀ opcode, allowed opcode → mayRaise opcode = true → raises = true)

include hreports hallowed

/-- The rule for steps. -/
theorem Step.rel {m m' : Machine δ} (h : Step io allowed m m') : R m m' := by
  have hgen := @generated_rel δ raises reports R hrefl htrans hplain hirq hretry
  subst hreports
  cases h with
  | execute eaddr fuel m h =>
    cases hh : m.cpu.halt with
    | true =>
      rw [outcome_i8088Execute_of_halt io eaddr fuel hh]
      exact hrefl m
    | false =>
      rw [outcome_i8088Execute io eaddr fuel hh]
      have hdec : R m (outcome (i8088Decode fuel) m).2 := hgen inferInstance m
      -- a call that does not return has only read prefixes
      cases hd : (outcome (i8088Decode fuel) m).1 with
      | none =>
        rw [show outcome (i8088Decode fuel) m = (none, (outcome (i8088Decode fuel) m).2) from
          Prod.ext hd rfl]
        exact hdec
      | some opcode =>
        rw [show outcome (i8088Decode fuel) m = (some opcode, (outcome (i8088Decode fuel) m).2) from
          Prod.ext hd rfl]
        exact htrans hdec
          (hgen (i8088Opcode_generated (hallowed opcode (h opcode ⟨hh, hd⟩)) io fuel) _)
  | chipset m => exact hgen inferInstance m
  | device hx m => exact hgen (generated_of_device hx) m

/-- The rule for runs: what plain actions, requests and retries relate, a run relates. -/
theorem RunOf.rel {m m' : Machine δ} (h : RunOf io allowed m m') : R m m' :=
  run_rel hrefl htrans
    (Step.rel hrefl htrans hplain hirq hretry hreports hallowed) h

end Rules

end Pc20iii
