import Pc20iii.System.Masking
import Pc20iii.I8088.Entry

/-!
# The start of interrupt handlers

A handler should start with IF and TF clear, so that no request is accepted before it allows
that. `i8088_interrupt` clears TF and `i8088_irq` clears IF, after the frame has been pushed;
the entries by an instruction leave IF as it is.

* `Quiet`: while IF and TF are clear and no instruction raises them, they stay clear, and no
  interrupt of the hardware is entered.
* `handler_quiet_iff`: a handler starts so exactly when it was entered by the hardware, or when
  IF was clear already.
-/

namespace Pc20iii

open StateProgram

variable {δ : Type}

/-- Between two machines IF and TF are not raised, and when IF is clear at first no interrupt of
the hardware is entered. -/
structure Quiet (m m' : Machine δ) : Prop where
  lowers : m'.cpu.flags.control ≤ m.cpu.flags.control
  log : m.cpu.flags.i = false → ∃ es, m'.log = es ++ m.log ∧ ∀ e ∈ es, ∀ n, e ≠ .irqEntry n

namespace Quiet

variable {m m' m'' : Machine δ} {reports : Bool}

theorem refl (m : Machine δ) : Quiet m m := ⟨le_rfl, fun _ => ⟨[], rfl, nofun⟩⟩

theorem i (h : Quiet m m') (hi : m.cpu.flags.i = false) : m'.cpu.flags.i = false := by
  have hle : m'.cpu.flags.i ≤ m.cpu.flags.i := h.lowers.1
  rw [hi] at hle
  exact Bool.eq_false_of_le_false hle

theorem t (h : Quiet m m') (ht : m.cpu.flags.t = false) : m'.cpu.flags.t = false := by
  have hle : m'.cpu.flags.t ≤ m.cpu.flags.t := h.lowers.2
  rw [ht] at hle
  exact Bool.eq_false_of_le_false hle

theorem trans (h : Quiet m m') (h' : Quiet m' m'') : Quiet m m'' where
  lowers := h'.lowers.trans h.lowers
  log := by
    intro hi
    obtain ⟨es, hes, hall⟩ := h.log hi
    obtain ⟨es', hes', hall'⟩ := h'.log (h.i hi)
    refine ⟨es' ++ es, by rw [hes', hes, List.append_assoc], fun e he => ?_⟩
    exact (List.mem_append.mp he).elim (hall' e) (hall e)

theorem of_plain (h : Plain false reports m m') : Quiet m m' where
  lowers := h.lowers.resolve_left Bool.false_ne_true
  log := by
    intro _
    obtain ⟨es, hes, hall⟩ := h.log
    refine ⟨es, hes, fun e he n heq => ?_⟩
    have hplain := hall e he
    rw [heq] at hplain
    exact hplain

/-- A request is not accepted while IF is clear, and otherwise leaves both flags clear. -/
theorem irq (m : Machine δ) (n : Fin 8) : Quiet m (outcome (fe2010Irq n) m).2 := by
  rcases fe2010Irq_cases n m with ⟨-, h⟩ | ⟨-, -, h⟩ | ⟨-, hi, h⟩ <;> rw [h]
  · exact ⟨le_rfl, fun _ => ⟨[_], rfl, by simp⟩⟩
  · exact ⟨le_rfl, fun _ => ⟨[_], rfl, by simp⟩⟩
  · exact ⟨⟨Bool.false_le _, Bool.false_le _⟩, fun hi' => absurd (hi.symm.trans hi') (by simp)⟩

theorem retry (m : Machine δ) (n : Fin 8) : Quiet m (outcome (pendingPass n) m).2 := by
  rw [outcome_pendingPass]
  split
  · have hmark : Quiet m { m with log := .irqRetry n :: m.log } :=
      ⟨le_rfl, fun _ => ⟨[_], rfl, by simp⟩⟩
    exact hmark.trans (irq _ n)
  · exact refl m

end Quiet

/-- A run without `POPF`, `IRET` and `STI` is quiet. -/
theorem RunOf.quiet {io : Devices δ} {m m' : Machine δ}
    (h : RunOf io (fun opcode => mayRaise opcode = false) m m') : Quiet m m' :=
  RunOf.rel Quiet.refl Quiet.trans Quiet.of_plain Quiet.irq Quiet.retry rfl
    (fun _ hallowed hraise => absurd (hallowed.symm.trans hraise) Bool.false_ne_true) h

/-- Until an instruction raises them, IF and TF are clear and no interrupt of the hardware is
entered. -/
def QuietFrom (io : Devices δ) (m : Machine δ) : Prop :=
  ∀ m', RunOf io (fun opcode => mayRaise opcode = false) m m' →
    m'.cpu.flags.i = false ∧ m'.cpu.flags.t = false ∧
      ∃ es, m'.log = es ++ m.log ∧ ∀ e ∈ es, ∀ n, e ≠ .irqEntry n

theorem quietFrom_iff {io : Devices δ} {m : Machine δ} :
    QuietFrom io m ↔ m.cpu.flags.i = false ∧ m.cpu.flags.t = false := by
  constructor
  · intro h
    obtain ⟨hi, ht, -⟩ := h m .refl
    exact ⟨hi, ht⟩
  · rintro ⟨hi, ht⟩ m' hrun
    have hquiet := RunOf.quiet hrun
    exact ⟨hquiet.i hi, hquiet.t ht, hquiet.log hi⟩

/-- **Which handlers start with interrupts disabled.** Whatever enters an interrupt, the handler
runs with IF and TF clear, and without an interrupt of the hardware, until it executes `STI`,
`POPF` or `IRET`, exactly when the hardware has entered it or IF was clear before. -/
theorem handler_quiet_iff {io : Devices δ} {m e m' : Machine δ} {hardware : Bool}
    (h : Enters io m hardware e m') :
    QuietFrom io m' ↔ hardware = true ∨ m.cpu.flags.i = false := by
  obtain ⟨hagree, -, -, -, hcpu⟩ := h.entered
  have hflags : m'.cpu.flags = m.cpu.flags.entered hardware := by
    rw [hcpu, hagree.cpu]
    rfl
  rw [quietFrom_iff, hflags]
  cases hardware <;> simp [Flags.entered]

/-- The reset machine with interrupts enabled, at the given bytes. -/
def enabledWith (code : List Byte) : Machine Unit :=
  { enabledMachine with mem := (machineWith code).mem }

/-- With interrupts enabled `INT 0x21` enters its handler with IF set, and the next request of
the timer is accepted before the first instruction of the handler. -/
theorem int_enabled :
    let m := enabledWith [0xCD, 0x21]
    let m' := (outcome (i8088Execute Devices.none 0 2) m).2
    Enters Devices.none m false ((outcome (i8088Decode 2) m).2.skip 1) m' ∧
      ¬ QuietFrom Devices.none m' ∧ (outcome (i8088Irq 0) m').1 = false := by
  intro m m'
  have hint : Dispatches m 2 0xCD (outcome (i8088Decode 2) m).2 := ⟨rfl, Prod.ext (by decide) rfl⟩
  have hi : m'.cpu.flags.i = true := by decide
  refine ⟨.software 0 hint .int, ?_, ?_⟩
  · rw [quietFrom_iff, hi]
    exact fun h => Bool.noConfusion h.1
  · rw [outcome_i8088Irq_of_set hi]

/-- A request of the timer starts its handler with both flags clear. -/
theorem handler_quiet_iff_timer :
    QuietFrom Devices.none (outcome (i8088Irq 0) enabledMachine).2 :=
  (handler_quiet_iff (.hardware 0 rfl)).mpr (.inl rfl)

end Pc20iii
