import Pc20iii.System.Run

/-!
# One call of `i8088_execute`

Whether a call returns, and what a sequence of prefixes does to it.

A call returns unless the code segment consists of prefixes with no two adjacent repeat
prefixes, which the prefix loop reads for ever (`i8088Execute_returns_iff`): every
instruction ends, and so does the loop once it finds anything else.

A sequence of prefixes has its effect exactly when no two repeat prefixes are adjacent
(`prefixes_iff`). The second of two adjacent ones has no case in the switch.
-/

namespace Pc20iii

open StateProgram

variable {δ : Type} {raises reports : Bool}

/-! ### Termination -/

section Termination

variable {io : Devices δ} {eaddr : Word} {fuel : ℕ} {opcode : Byte}

/-- The string instructions end, repeated or not. -/
theorem opcodeA_ends (hfuel : 65536 ≤ fuel) {x : M δ Bool} (hx : opcodeA fuel opcode = some x)
    (m : Machine δ) : (outcome x m).1 = true := by
  unfold opcodeA at hx
  split at hx <;> cases hx
  case h_5 => exact repeated_ends keepsCx_movsb hfuel m
  case h_6 => exact repeated_ends keepsCx_movsw hfuel m
  case h_7 => exact repeatedZ_ends keepsCx_cmpsb hfuel m
  case h_8 => exact repeatedZ_ends keepsCx_cmpsw hfuel m
  case h_11 => exact repeated_ends keepsCx_stosb hfuel m
  case h_12 => exact repeated_ends keepsCx_stosw hfuel m
  case h_13 => exact repeated_ends keepsCx_lodsb hfuel m
  case h_14 => exact repeated_ends keepsCx_lodsw hfuel m
  case h_15 => exact repeatedZ_ends keepsCx_scasb hfuel m
  case h_16 => exact repeatedZ_ends keepsCx_scasw hfuel m
  -- the others of the row are no string instructions
  all_goals rfl

/-- Every instruction ends within 65536 passes of its loop. -/
theorem i8088Opcode_ends (hfuel : 65536 ≤ fuel) (m : Machine δ) :
    (outcome (i8088Opcode io eaddr fuel opcode) m).1 = true := by
  unfold i8088Opcode
  cases hx : i8088Case io eaddr fuel opcode with
  | none => rfl
  | some x =>
    unfold i8088Case at hx
    split at hx
    case h_10 => exact opcodeA_ends hfuel hx m
    case h_16 => cases hx
    all_goals
      obtain ⟨y, -, rfl⟩ := Option.map_eq_some_iff.mp hx
      rfl

/-- A call that finds no way out of the prefixes does not return. -/
theorem i8088Execute_stuck (io : Devices δ) (eaddr : Word) (fuel : ℕ) {m : Machine δ}
    (hrun : m.cpu.halt = false) (h : ∀ k, ¬ m.Escapes k) :
    (outcome (i8088Execute io eaddr fuel) m).1 = false := by
  rw [outcome_i8088Execute io eaddr fuel hrun]
  rcases hd : outcome (i8088Decode fuel) m with ⟨_ | opcode, n⟩
  · rfl
  · obtain ⟨k, hk⟩ := i8088Decode_ends_iff.mp ⟨fuel, opcode, n, hd⟩
    exact absurd hk (h k)

/-- A call that finds a way out of the prefixes returns. -/
theorem i8088Execute_returns (io : Devices δ) (eaddr : Word) {m : Machine δ}
    (hrun : m.cpu.halt = false) {k : Word} (h : m.Escapes k) :
    ∃ fuel, (outcome (i8088Execute io eaddr fuel) m).1 = true := by
  obtain ⟨fuel, opcode, n, hd⟩ := i8088Decode_ends_iff.mpr ⟨k, h⟩
  -- enough fuel for the loop and for every instruction
  have hdecode := i8088Decode_mono (le_max_left fuel 65536) hd
  refine ⟨max fuel 65536, ?_⟩
  rw [outcome_i8088Execute_of_decode io eaddr hrun hdecode]
  exact i8088Opcode_ends (le_max_right ..) n

/-- **When a call of `i8088_execute` returns.** In every machine it returns exactly when the
CPU is halted, or the code segment has a byte that is not a prefix or two adjacent repeat
prefixes. Every instruction returns once its opcode is found, and so does every loop of the
rotates and shifts. -/
theorem i8088Execute_returns_iff (io : Devices δ) (eaddr : Word) (m : Machine δ) :
    ((∃ fuel, (outcome (i8088Execute io eaddr fuel) m).1 = true) ↔
      m.cpu.halt = true ∨ ∃ k, m.Escapes k) ∧
    (∀ opcode, ∃ fuel, (outcome (i8088Opcode io eaddr fuel opcode) m).1 = true) ∧
    ∀ {α : Type} (step : α → α) (count : Byte) (x : α), ∃ fuel,
      outcome (countLoop step fuel) (count, x) = (true, (0, step^[count.toNat] x)) := by
  refine ⟨⟨?_, ?_⟩, fun opcode => ⟨65536, i8088Opcode_ends le_rfl m⟩,
    fun step count x => ⟨count.toNat + 1, outcome_countLoop step x (Nat.lt_succ_self _)⟩⟩
  · rintro ⟨fuel, h⟩
    -- a segment of prefixes only keeps the decoder in its loop
    by_contra hnone
    rw [not_or, not_exists] at hnone
    have hstuck := i8088Execute_stuck io eaddr fuel (Bool.eq_false_iff.mpr hnone.1) hnone.2
    rw [hstuck] at h
    cases h
  · intro h
    cases hrun : m.cpu.halt with
    | true => exact ⟨0, by rw [outcome_i8088Execute_of_halt io eaddr 0 hrun]⟩
    | false =>
      obtain ⟨k, hk⟩ := h.resolve_left (by rw [hrun]; exact Bool.false_ne_true)
      exact i8088Execute_returns io eaddr hrun hk

/-- In a memory of segment overrides no call returns. -/
theorem overrides_stuck :
    let m : Machine Unit :=
      { machineInit () with mem := { m := fun _ => 0x26, readonly := fun _ => false } }
    ¬ ∃ fuel, (outcome (i8088Execute Devices.none 0 fuel) m).1 = true := by
  rintro m ⟨fuel, h⟩
  have hstuck := i8088Execute_stuck Devices.none 0 fuel (m := m) rfl fun _ =>
    not_escapes_of_segment rfl
  rw [hstuck] at h
  cases h

end Termination

/-! ### Sequences of prefixes -/

/-- No unhandled opcode is reported between the machines. -/
def Unreported (m m' : Machine δ) : Prop :=
  ∃ es, m'.log = es ++ m.log ∧ ∀ e ∈ es, ∀ opcode, e ≠ .panic (.unhandledOpcode opcode)

namespace Unreported

variable {m m' m'' : Machine δ}

theorem refl (m : Machine δ) : Unreported m m := ⟨[], rfl, nofun⟩

theorem trans (h : Unreported m m') (h' : Unreported m' m'') : Unreported m m'' := by
  obtain ⟨es, hes, hall⟩ := h
  obtain ⟨es', hes', hall'⟩ := h'
  refine ⟨es' ++ es, by rw [hes', hes, List.append_assoc], fun e he => ?_⟩
  rcases List.mem_append.mp he with he | he
  · exact hall' e he
  · exact hall e he

theorem of_plain (h : Plain raises false m m') : Unreported m m' := by
  obtain ⟨es, hes, hall⟩ := h.log
  refine ⟨es, hes, fun e he opcode heq => ?_⟩
  have hplain := hall e he
  rw [heq] at hplain
  exact absurd hplain Bool.false_ne_true

/-- An interrupt reports no opcode. -/
theorem irq (m : Machine δ) (n : Fin 8) : Unreported m (outcome (fe2010Irq n) m).2 := by
  rcases fe2010Irq_cases n m with ⟨-, h⟩ | ⟨-, -, h⟩ | ⟨-, -, h⟩ <;> rw [h]
  · exact ⟨[_], rfl, by simp⟩
  · exact ⟨[_], rfl, by simp⟩
  · exact ⟨[_, _, _], rfl, by simp⟩

theorem retry (m : Machine δ) (n : Fin 8) : Unreported m (outcome (pendingPass n) m).2 := by
  rw [outcome_pendingPass]
  split
  · have hmark : Unreported m { m with log := .irqRetry n :: m.log } := ⟨[_], rfl, by simp⟩
    exact hmark.trans (irq _ n)
  · exact refl m

/-- An instruction that has a case reports nothing. -/
theorem of_case {io : Devices δ} {eaddr : Word} {fuel : ℕ} {opcode : Byte}
    (h : (i8088Case io eaddr fuel opcode).isSome = true) (m : Machine δ) :
    Unreported m (outcome (i8088Opcode io eaddr fuel opcode) m).2 := by
  obtain ⟨x, hx⟩ := Option.isSome_iff_exists.mp h
  have hgen : Generated (Action true false) x := i8088Case_generated (fun _ => rfl) hx
  rw [i8088Opcode, hx]
  exact generated_rel refl trans of_plain irq retry hgen m

end Unreported

/-- An opcode that has a case is not a prefix. -/
theorem not_prefix_of_case {io : Devices δ} {eaddr : Word} {fuel : ℕ} {op : Byte}
    (h : (i8088Case io eaddr fuel op).isSome = true) :
    isSegmentPrefix op = false ∧ isRepeatPrefix op = false ∧ op ≠ 0xF0 := by
  refine ⟨Bool.eq_false_iff.mpr fun hs => ?_, Bool.eq_false_iff.mpr fun hr => ?_, ?_⟩
  · rcases segment_cases hs with rfl | rfl | rfl | rfl <;> cases h
  · rcases repeat_cases hr with rfl | rfl <;> cases h
  · rintro rfl
    cases h

section Sequences

variable (io : Devices δ) (eaddr : Word) {m : Machine δ} {ps : List Byte} {op : Byte}
  (hrun : m.cpu.halt = false)
  (hps : ∀ p ∈ ps, isSegmentPrefix p = true ∨ isRepeatPrefix p = true)
  (hcase : ∀ fuel, (i8088Case io eaddr fuel op).isSome = true) (hread : m.Reads ps op)

include hps hcase hread in
/-- Decoding a sequence of prefixes is a scan with enough fuel. -/
theorem decode_reads {fuel : ℕ} (hfuel : ps.length + 1 ≤ fuel) :
    ∃ fuel', ps.length ≤ fuel' ∧ outcome (i8088Decode fuel) m = scan fuel' m.unlatched := by
  obtain ⟨fuel, rfl⟩ : ∃ f, fuel = f + 1 := ⟨fuel - 1, by omega⟩
  -- the byte at IP is no LOCK, so it is the first of the scan
  have hlock : m.code 0 ≠ 0xF0 := by
    cases ps with
    | nil =>
      obtain rfl : m.code 0 = op := hread
      exact (not_prefix_of_case (hcase 0)).2.2
    | cons p ps =>
      obtain rfl : m.code 0 = p := hread.1
      intro hl
      rcases hps _ (.head _) with h | h <;>
        · rw [hl] at h
          cases h
  refine ⟨_, ?_, outcome_i8088Decode_scan fuel hlock⟩
  split <;> omega

include hrun hps hcase hread in
/-- A sequence of prefixes without adjacent repeat prefixes has its effect. -/
theorem execute_reads (hapart : RepeatsApart ps) {fuel : ℕ} (hfuel : ps.length + 1 ≤ fuel) :
    outcome (i8088Execute io eaddr fuel) m =
      outcome (i8088Opcode io eaddr fuel op) (m.unlatched.prefixed ps) := by
  obtain ⟨hs, hr, -⟩ := not_prefix_of_case (hcase 0)
  obtain ⟨fuel', hfuel', hdecode⟩ := decode_reads io eaddr hps hcase hread hfuel
  have hread' : m.unlatched.Reads ps op := hread.unlatched
  rw [scan_reads hs hr ps hps hapart hread' hfuel'] at hdecode
  exact outcome_i8088Execute_of_decode io eaddr hrun hdecode

include hrun hps hcase hread in
/-- Of two adjacent repeat prefixes the second is reported as an unhandled opcode. -/
theorem execute_adjacent (hadjacent : ¬ RepeatsApart ps) {fuel : ℕ}
    (hfuel : ps.length + 1 ≤ fuel) : ¬ Unreported m (outcome (i8088Execute io eaddr fuel) m).2 := by
  obtain ⟨fuel', hfuel', hdecode⟩ := decode_reads io eaddr hps hcase hread hfuel
  have hread' : m.unlatched.Reads ps op := hread.unlatched
  obtain ⟨r, n, hr, hscan⟩ := scan_adjacent ps hps hadjacent hread'
  rw [hscan fuel' hfuel'] at hdecode
  -- the second prefix is not among the cases of the switch
  have hopcode : (outcome (i8088Opcode io eaddr fuel r) n).2.log =
      .panic (.unhandledOpcode r) :: n.log := by
    rcases repeat_cases hr with rfl | rfl <;> rfl
  -- so its report is the one that a call without reports lacks
  have hbefore : Unreported m n := by
    have hgen : Generated (Action true false) (i8088Decode fuel : M δ _) := inferInstance
    have h := generated_rel Unreported.refl Unreported.trans Unreported.of_plain Unreported.irq
      Unreported.retry hgen m
    rwa [hdecode] at h
  obtain ⟨es, hes, -⟩ := hbefore
  rw [outcome_i8088Execute_of_decode io eaddr hrun hdecode]
  rintro ⟨es', hes', hall⟩
  rw [hopcode, hes, ← List.cons_append] at hes'
  have heq := List.append_cancel_right hes'
  exact hall _ (heq ▸ List.mem_cons_self) r rfl

include hrun hps hcase hread in
/-- **When a sequence of prefixes has its effect.** For every sequence of segment overrides
and repeat prefixes before an opcode that has a case, one call executes that opcode behind the
prefixes, with the last prefix of each kind in force and no unhandled opcode reported, exactly
when no two repeat prefixes are adjacent. -/
theorem prefixes_iff :
    (∃ fuel₀, ∀ fuel, fuel₀ ≤ fuel →
      outcome (i8088Execute io eaddr fuel) m =
          outcome (i8088Opcode io eaddr fuel op) (m.unlatched.prefixed ps) ∧
        Unreported m (outcome (i8088Execute io eaddr fuel) m).2) ↔
      RepeatsApart ps := by
  constructor
  -- the report is there with any fuel that is enough
  · rintro ⟨fuel₀, h⟩
    by_contra hadjacent
    exact execute_adjacent io eaddr hrun hps hcase hread hadjacent (le_max_right fuel₀ _)
      (h _ (le_max_left ..)).2
  · intro hapart
    refine ⟨ps.length + 1, fun fuel hfuel => ?_⟩
    have hexecute := execute_reads io eaddr hrun hps hcase hread hapart hfuel
    have hprefixes : Unreported m (m.unlatched.prefixed ps) := ⟨[], rfl, nofun⟩
    refine ⟨hexecute, ?_⟩
    rw [hexecute]
    exact hprefixes.trans (.of_case (hcase fuel) _)

end Sequences

/-- A repeated `REP` before `MOVSB` is reported as an unhandled opcode. -/
theorem repeats_unhandled :
    let m := machineWith [0xF3, 0xF3, 0xA4]
    m.Reads [0xF3, 0xF3] 0xA4 ∧
      ¬ ∃ fuel₀, ∀ fuel, fuel₀ ≤ fuel →
        outcome (i8088Execute Devices.none 0 fuel) m =
            outcome (i8088Opcode Devices.none 0 fuel 0xA4) (m.unlatched.prefixed [0xF3, 0xF3]) ∧
          Unreported m (outcome (i8088Execute Devices.none 0 fuel) m).2 := by
  intro m
  have hread : m.Reads [0xF3, 0xF3] 0xA4 := by decide
  -- two equal prefixes are adjacent
  have hadjacent : ¬ RepeatsApart [0xF3, 0xF3] := fun h =>
    absurd (List.isChain_cons_cons.mp h).1 (by decide)
  refine ⟨hread, ?_⟩
  rintro ⟨fuel₀, h⟩
  exact execute_adjacent Devices.none 0 rfl (by decide) (fun _ => rfl) hread hadjacent
    (le_max_right fuel₀ _) (h _ (le_max_left ..)).2

/-- `REP ES:` before `MOVSB` has its effect. -/
theorem prefixes_iff_movsb :
    let m := machineWith [0xF3, 0x26, 0xA4]
    ∃ fuel₀, ∀ fuel, fuel₀ ≤ fuel →
      outcome (i8088Execute Devices.none 0 fuel) m =
          outcome (i8088Opcode Devices.none 0 fuel 0xA4) (m.unlatched.prefixed [0xF3, 0x26]) ∧
        Unreported m (outcome (i8088Execute Devices.none 0 fuel) m).2 := by
  intro m
  have hread : m.Reads [0xF3, 0x26] 0xA4 := by decide
  exact (prefixes_iff Devices.none 0 rfl (by decide) (fun _ => rfl) hread).mpr
    (List.isChain_cons_cons.mpr ⟨rfl, .singleton _⟩)

end Pc20iii
