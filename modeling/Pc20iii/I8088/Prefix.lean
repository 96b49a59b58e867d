import Pc20iii.I8088.Operand
import Pc20iii.I8088.Execute
import Mathlib.Data.List.Chain

/-!
# The prefix loop

`i8088_execute` up to the switch over the opcode. A pass of the prefix loop takes at most
one segment override and then at most one repeat prefix, and goes back to its start only
when it finds a segment override. Seen from the byte at the instruction pointer this is a
`scan` with four cases: a segment override is taken, a repeat prefix is taken together with
the segment override behind it, a repeat prefix followed by anything else ends the loop
with that byte, and any other byte ends the loop.

* `scan_reads`: a sequence of prefixes without two adjacent repeat prefixes is consumed, and
  the last prefix of each kind counts.
* `scan_adjacent`: two adjacent repeat prefixes end the loop with the second as the opcode.
* `scan_ends_iff`: the loop ends exactly when the code segment has a byte that is not a
  prefix, or two adjacent repeat prefixes.
-/

namespace Pc20iii

open StateProgram

variable {δ : Type}

/-! ### What decoding leaves alone -/

/-- Two machines that differ in the instruction pointer, the latches of the prefixes and the
history only. -/
structure Agree (m n : Machine δ) : Prop where
  cpu : n.cpu = { m.cpu with
    ip := n.cpu.ip, segmentOverride := n.cpu.segmentOverride
    repeatPrefix := n.cpu.repeatPrefix }
  mem : n.mem = m.mem
  fe2010 : n.fe2010 = m.fe2010
  dev : n.dev = m.dev

namespace Agree

variable {m n k : Machine δ}

theorem refl (m : Machine δ) : Agree m m := ⟨rfl, rfl, rfl, rfl⟩

theorem symm (h : Agree m n) : Agree n m where
  cpu := by rw [h.cpu]
  mem := h.mem.symm
  fe2010 := h.fe2010.symm
  dev := h.dev.symm

theorem trans (h : Agree m n) (h' : Agree n k) : Agree m k where
  cpu := by rw [h'.cpu, h.cpu]
  mem := h'.mem.trans h.mem
  fe2010 := h'.fe2010.trans h.fe2010
  dev := h'.dev.trans h.dev

theorem skip (m : Machine δ) (k : Word) : Agree m (m.skip k) := ⟨rfl, rfl, rfl, rfl⟩

end Agree

theorem agree_prefixSegment (opcode : Byte) (m : Machine δ) :
    Agree m (outcome (prefixSegment opcode) m).2 := by
  unfold prefixSegment overrideWith
  split_ifs <;> simp only [outcome_bind, outcome_modifyCpu, outcome_panic, outcome_fetch,
    outcome_pure] <;> exact ⟨rfl, rfl, rfl, rfl⟩

theorem agree_prefixRepeat (opcode : Byte) (m : Machine δ) :
    Agree m (outcome (prefixRepeat opcode) m).2 := by
  unfold prefixRepeat repeatWith
  split_ifs <;> simp only [outcome_bind, outcome_modifyCpu, outcome_fetch, outcome_pure] <;>
    exact ⟨rfl, rfl, rfl, rfl⟩

theorem agree_prefixLoop (fuel : ℕ) (opcode : Byte) (m : Machine δ) :
    Agree m (outcome (prefixLoop fuel opcode) m).2 := by
  induction fuel generalizing opcode m with
  | zero => exact .refl m
  | succ fuel ih =>
    have hsegment := agree_prefixSegment opcode m
    have hpass := hsegment.trans (agree_prefixRepeat (outcome (prefixSegment opcode) m).1 _)
    simp only [prefixLoop, outcome_bind, outcome_ite]
    split
    · exact hpass.trans (ih _ _)
    · exact hpass

/-- The machine with the latches of the prefixes cleared. -/
def Machine.unlatched (m : Machine δ) : Machine δ :=
  { m with cpu := { m.cpu with segmentOverride := .none, repeatPrefix := .none } }

theorem outcome_i8088Decode (fuel : ℕ) (m : Machine δ) :
    outcome (i8088Decode fuel) m =
      outcome (prefixLoop fuel (m.unlatched.code 0)) (m.unlatched.skip 1) := by
  rw [i8088Decode, outcome_bind, outcome_modifyCpu, outcome_bind, outcome_fetch]
  rfl

theorem agree_i8088Decode (fuel : ℕ) (m : Machine δ) :
    Agree m (outcome (i8088Decode fuel) m).2 := by
  have hclear : Agree m (m.unlatched.skip 1) := ⟨rfl, rfl, rfl, rfl⟩
  rw [outcome_i8088Decode]
  exact hclear.trans (agree_prefixLoop ..)

/-! ### Prefix bytes -/

/-- The override that a segment prefix asks for. -/
def segmentOf (b : Byte) : Option Segment :=
  match b with
  | 0x26#8 => some .es
  | 0x2E#8 => some .cs
  | 0x36#8 => some .ss
  | 0x3E#8 => some .ds
  | _ => none

/-- The repetition that a repeat prefix asks for. -/
def repeatOf (b : Byte) : Option Repeat :=
  match b with
  | 0xF2#8 => some .nenz
  | 0xF3#8 => some .ez
  | _ => none

/-- The repeat prefixes. -/
def isRepeatPrefix (b : Byte) : Bool := b == 0xF2 || b == 0xF3

theorem segment_cases {b : Byte} (h : isSegmentPrefix b = true) :
    b = 0x26 ∨ b = 0x2E ∨ b = 0x36 ∨ b = 0x3E := by
  simpa [isSegmentPrefix, or_assoc] using h

theorem repeat_cases {b : Byte} (h : isRepeatPrefix b = true) : b = 0xF2 ∨ b = 0xF3 := by
  simpa [isRepeatPrefix] using h

theorem not_segment_of_repeat {b : Byte} (h : isRepeatPrefix b = true) :
    isSegmentPrefix b = false := by
  rcases repeat_cases h with rfl | rfl <;> rfl

theorem not_repeat_of_segment {b : Byte} (h : isSegmentPrefix b = true) :
    isRepeatPrefix b = false := by
  rcases segment_cases h with rfl | rfl | rfl | rfl <;> rfl

/-- The latches that a prefix byte sets. -/
def Machine.latch (m : Machine δ) (b : Byte) : Machine δ :=
  { m with cpu := { m.cpu with
      segmentOverride := (segmentOf b).getD m.cpu.segmentOverride
      repeatPrefix := (repeatOf b).getD m.cpu.repeatPrefix } }

@[simp] theorem latch_code (m : Machine δ) (b : Byte) (k : Word) :
    (m.latch b).code k = m.code k := rfl

section Chains

variable {b : Byte} (m : Machine δ)

theorem outcome_prefixSegment_of_segment (h : isSegmentPrefix b = true) :
    outcome (prefixSegment b) m = (m.code 0, (m.latch b).skip 1) := by
  rcases segment_cases h with rfl | rfl | rfl | rfl <;>
    simp [prefixSegment, overrideWith] <;> exact ⟨rfl, rfl⟩

theorem outcome_prefixSegment_of_other (h : isSegmentPrefix b = false) (hl : b ≠ 0xF0) :
    outcome (prefixSegment b) m = (b, m) := by
  simp only [isSegmentPrefix, Bool.or_eq_false_iff, beq_eq_false_iff_ne] at h
  obtain ⟨⟨⟨h26, h2E⟩, h36⟩, h3E⟩ := h
  rw [prefixSegment, if_neg h26, if_neg h2E, if_neg h36, if_neg h3E, if_neg hl, outcome_pure]

theorem outcome_prefixSegment_lock :
    outcome (prefixSegment 0xF0) m =
      (m.code 0, { m with log := .panic .lock :: m.log }.skip 1) := by
  simp only [prefixSegment]
  exact outcome_fetch _

theorem outcome_prefixRepeat_of_repeat (h : isRepeatPrefix b = true) :
    outcome (prefixRepeat b) m = (m.code 0, (m.latch b).skip 1) := by
  rcases repeat_cases h with rfl | rfl <;>
    simp [prefixRepeat, repeatWith] <;> exact ⟨rfl, rfl⟩

theorem outcome_prefixRepeat_of_other (h : isRepeatPrefix b = false) :
    outcome (prefixRepeat b) m = (b, m) := by
  simp only [isRepeatPrefix, Bool.or_eq_false_iff, beq_eq_false_iff_ne] at h
  rw [prefixRepeat, if_neg h.1, if_neg h.2, outcome_pure]

end Chains

/-! ### The loop, from the byte at the instruction pointer -/

/-- The rest of a pass of the prefix loop, after its first chain. -/
def prefixRest (fuel : ℕ) (opcode : Byte) : M δ (Option Byte) := do
  let opcode ← prefixRepeat opcode
  if isSegmentPrefix opcode then
    prefixLoop fuel opcode
  else
    return some opcode

/-- The rest of a pass, from the byte at the instruction pointer on. -/
def scan (fuel : ℕ) (m : Machine δ) : Option Byte × Machine δ :=
  outcome (prefixRest fuel (m.code 0)) (m.skip 1)

/-- The prefix at the instruction pointer is consumed. -/
def Machine.take (m : Machine δ) : Machine δ := (m.latch (m.code 0)).skip 1

@[simp] theorem take_code (m : Machine δ) (k : Word) : m.take.code k = m.code (1 + k) := by
  simp [Machine.take]

theorem prefixLoop_succ (fuel : ℕ) (opcode : Byte) (m : Machine δ) :
    outcome (prefixLoop (fuel + 1) opcode) m =
      outcome (prefixRest fuel (outcome (prefixSegment opcode) m).1)
        (outcome (prefixSegment opcode) m).2 := by
  rfl

/-- A pass that starts with a segment override. -/
theorem prefixLoop_of_segment (fuel : ℕ) {m : Machine δ} (h : isSegmentPrefix (m.code 0) = true) :
    outcome (prefixLoop (fuel + 1) (m.code 0)) (m.skip 1) = scan fuel m.take := by
  rw [prefixLoop_succ, outcome_prefixSegment_of_segment _ h, scan, take_code, skip_code]
  rfl

/-- A pass that starts with another byte, `LOCK` apart. -/
theorem prefixLoop_of_other (fuel : ℕ) {m : Machine δ} (h : isSegmentPrefix (m.code 0) = false)
    (hl : m.code 0 ≠ 0xF0) :
    outcome (prefixLoop (fuel + 1) (m.code 0)) (m.skip 1) = scan fuel m := by
  rw [prefixLoop_succ, outcome_prefixSegment_of_other _ h hl, scan]

section Scan

variable {m : Machine δ} (fuel : ℕ)

theorem scan_eq (m : Machine δ) :
    scan fuel m =
      let r := outcome (prefixRepeat (m.code 0)) (m.skip 1)
      if isSegmentPrefix r.1 then outcome (prefixLoop fuel r.1) r.2 else (some r.1, r.2) := by
  rw [scan, prefixRest, outcome_bind, outcome_ite, outcome_pure]

theorem scan_of_segment (hs : isSegmentPrefix (m.code 0) = true) :
    scan fuel m = outcome (prefixLoop fuel (m.code 0)) (m.skip 1) := by
  rw [scan_eq, outcome_prefixRepeat_of_other _ (not_repeat_of_segment hs)]
  exact if_pos hs

theorem scan_of_repeat (hr : isRepeatPrefix (m.code 0) = true) :
    scan fuel m =
      if isSegmentPrefix (m.take.code 0) then
        outcome (prefixLoop fuel (m.take.code 0)) (m.take.skip 1)
      else
        (some (m.take.code 0), m.take.skip 1) := by
  have hnext : (m.skip 1).code 0 = m.take.code 0 := by rw [skip_code, take_code]
  have hmachine : ((m.skip 1).latch (m.code 0)).skip 1 = m.take.skip 1 := rfl
  rw [scan_eq, outcome_prefixRepeat_of_repeat _ hr, hnext, hmachine]

/-- A byte that is not a prefix ends the loop. -/
theorem scan_opcode (hs : isSegmentPrefix (m.code 0) = false)
    (hr : isRepeatPrefix (m.code 0) = false) : scan fuel m = (some (m.code 0), m.skip 1) := by
  rw [scan_eq, outcome_prefixRepeat_of_other _ hr]
  exact if_neg (by rw [hs]; exact Bool.false_ne_true)

/-- A segment override is taken. -/
theorem scan_segment (hs : isSegmentPrefix (m.code 0) = true) :
    scan (fuel + 1) m = scan fuel m.take := by
  rw [scan_of_segment _ hs, prefixLoop_of_segment _ hs]

/-- A repeat prefix is taken together with the segment override behind it. -/
theorem scan_repeat_segment (hr : isRepeatPrefix (m.code 0) = true)
    (hs : isSegmentPrefix (m.take.code 0) = true) :
    scan (fuel + 1) m = scan fuel m.take.take := by
  rw [scan_of_repeat _ hr, if_pos hs, prefixLoop_of_segment _ hs]

/-- A repeat prefix that no segment override follows ends the loop with the next byte. -/
theorem scan_repeat_stop (hr : isRepeatPrefix (m.code 0) = true)
    (hs : isSegmentPrefix (m.take.code 0) = false) :
    scan fuel m = (some (m.take.code 0), m.take.skip 1) := by
  rw [scan_of_repeat _ hr, hs]
  rfl

end Scan

/-! ### Sequences of prefixes -/

/-- The bytes at the instruction pointer are the prefixes `ps`, and then `op`. -/
def Machine.Reads : Machine δ → List Byte → Byte → Prop
  | m, [], op => m.code 0 = op
  | m, p :: ps, op => m.code 0 = p ∧ (m.skip 1).Reads ps op

instance Machine.decidableReads : ∀ (m : Machine δ) (ps : List Byte) (op : Byte),
    Decidable (m.Reads ps op)
  | m, [], op => inferInstanceAs (Decidable (m.code 0 = op))
  | m, p :: ps, op =>
    have := Machine.decidableReads (m.skip 1) ps op
    inferInstanceAs (Decidable (m.code 0 = p ∧ (m.skip 1).Reads ps op))

/-- No two repeat prefixes are adjacent. -/
def RepeatsApart (ps : List Byte) : Prop :=
  ps.IsChain fun p q => (isRepeatPrefix p && isRepeatPrefix q) = false

/-- The machine at the switch: the prefixes `ps` and the opcode have been consumed, and the
last prefix of each kind is in its latch. -/
def Machine.prefixed (m : Machine δ) (ps : List Byte) : Machine δ :=
  { m with cpu := { m.cpu with
      ip := m.cpu.ip + BitVec.ofNat 16 (ps.length + 1)
      segmentOverride := (ps.filterMap segmentOf).getLastD m.cpu.segmentOverride
      repeatPrefix := (ps.filterMap repeatOf).getLastD m.cpu.repeatPrefix } }

theorem Machine.Reads.congr {m n : Machine δ} {ps : List Byte} {op : Byte}
    (h : ∀ k, m.code k = n.code k) (hm : m.Reads ps op) : n.Reads ps op := by
  induction ps generalizing m n with
  | nil => exact (h 0).symm.trans hm
  | cons p ps ih =>
    refine ⟨(h 0).symm.trans hm.1, ih (fun k => ?_) hm.2⟩
    rw [skip_code, skip_code, h]

theorem Machine.Reads.unlatched {m : Machine δ} {ps : List Byte} {op : Byte}
    (h : m.Reads ps op) : m.unlatched.Reads ps op :=
  Machine.Reads.congr (m := m) (fun _ => rfl) h

/-- What is read after a prefix is read from the machine that has taken it. -/
theorem Machine.Reads.take {m : Machine δ} {p op : Byte} {ps : List Byte}
    (h : m.Reads (p :: ps) op) : m.take.Reads ps op :=
  h.2.congr fun k => by rw [skip_code, take_code]

theorem getLastD_filterMap_cons {α β : Type} (f : α → Option β) (a : α) (l : List α) (d : β) :
    ((a :: l).filterMap f).getLastD d = (l.filterMap f).getLastD ((f a).getD d) := by
  rw [List.filterMap_cons]
  cases f a with
  | none => rfl
  | some b => exact List.getLastD_cons

theorem prefixed_nil (m : Machine δ) : m.prefixed [] = m.skip 1 := rfl

theorem prefixed_cons (m : Machine δ) (ps : List Byte) :
    m.prefixed (m.code 0 :: ps) = m.take.prefixed ps := by
  have hip : m.cpu.ip + BitVec.ofNat 16 (ps.length + 1 + 1) =
      m.cpu.ip + 1#16 + BitVec.ofNat 16 (ps.length + 1) := by
    rw [BitVec.ofNat_add, BitVec.add_assoc, BitVec.add_comm (BitVec.ofNat 16 _)]
  simp only [Machine.prefixed, getLastD_filterMap_cons, List.length_cons, hip]
  rfl

section Sequences

variable {op : Byte} (hs : isSegmentPrefix op = false) (hr : isRepeatPrefix op = false)

include hs hr

/-- A sequence of prefixes without adjacent repeat prefixes is consumed. -/
theorem scan_reads : ∀ (ps : List Byte) {fuel : ℕ} {m : Machine δ},
    (∀ p ∈ ps, isSegmentPrefix p = true ∨ isRepeatPrefix p = true) → RepeatsApart ps →
    m.Reads ps op → ps.length ≤ fuel → scan fuel m = (some op, m.prefixed ps)
  | [], fuel, m, _, _, hread, _ => by
    obtain rfl : m.code 0 = op := hread
    rw [scan_opcode fuel hs hr, prefixed_nil]
  | p :: ps, fuel, m, hps, hapart, hread, hfuel => by
    obtain rfl : m.code 0 = p := hread.1
    obtain ⟨fuel, rfl⟩ : ∃ f, fuel = f + 1 := ⟨fuel - 1, by rw [List.length_cons] at hfuel; omega⟩
    have htake := hread.take
    rw [List.length_cons] at hfuel
    rw [prefixed_cons]
    -- the fuel goes down by one for each prefix that is consumed
    rcases hps _ (.head _) with hseg | hrep
    · rw [scan_segment fuel hseg]
      exact scan_reads ps (fun q hq => hps q (.tail _ hq)) (List.IsChain.tail hapart) htake
        (by omega)
    · -- the repeat prefix is followed by the opcode or by a segment override
      match ps, htake with
      | [], htake =>
        obtain rfl : m.take.code 0 = op := htake
        rw [scan_repeat_stop _ hrep hs, prefixed_nil]
      | q :: ps, htake =>
        obtain rfl : m.take.code 0 = q := htake.1
        have hq : isRepeatPrefix (m.take.code 0) = false := by
          have hpair := (List.isChain_cons_cons.mp hapart).1
          rwa [hrep, Bool.true_and] at hpair
        have hseg : isSegmentPrefix (m.take.code 0) = true :=
          (hps _ (.tail _ (.head _))).resolve_right (by rw [hq]; exact Bool.false_ne_true)
        rw [scan_repeat_segment fuel hrep hseg, prefixed_cons]
        exact scan_reads ps (fun r hr => hps r (.tail _ (.tail _ hr)))
          (List.IsChain.tail (List.IsChain.tail hapart)) htake.take
          (by rw [List.length_cons] at hfuel; omega)

end Sequences

/-- Two adjacent repeat prefixes end the loop, and the second is the opcode. -/
theorem scan_adjacent {op : Byte} : ∀ (ps : List Byte) {m : Machine δ},
    (∀ p ∈ ps, isSegmentPrefix p = true ∨ isRepeatPrefix p = true) → ¬ RepeatsApart ps →
    m.Reads ps op →
    ∃ r n, isRepeatPrefix r = true ∧ ∀ fuel, ps.length ≤ fuel → scan fuel m = (some r, n)
  | [], m, _, hadjacent, _ => absurd List.IsChain.nil hadjacent
  | [p], m, _, hadjacent, _ => absurd (List.IsChain.singleton p) hadjacent
  | p :: q :: ps, m, hps, hadjacent, hread => by
    obtain rfl : m.code 0 = p := hread.1
    have htake := hread.take
    obtain rfl : m.take.code 0 = q := htake.1
    have hrest : ∀ r ∈ m.take.code 0 :: ps, isSegmentPrefix r = true ∨ isRepeatPrefix r = true :=
      fun r hr => hps r (.tail _ hr)
    -- the first adjacent pair is looked for from the front
    rcases hps _ (.head _) with hseg | hrep
    · -- a segment prefix is passed over
      have hadjacent' : ¬ RepeatsApart (m.take.code 0 :: ps) := by
        intro h
        refine hadjacent (List.isChain_cons_cons.mpr ⟨?_, h⟩)
        rw [not_repeat_of_segment hseg, Bool.false_and]
      obtain ⟨r, n, hr, hscan⟩ := scan_adjacent _ hrest hadjacent' htake
      refine ⟨r, n, hr, fun fuel hfuel => ?_⟩
      obtain ⟨fuel, rfl⟩ : ∃ f, fuel = f + 1 := ⟨fuel - 1, by rw [List.length_cons] at hfuel; omega⟩
      rw [scan_segment fuel hseg]
      exact hscan fuel (by simp only [List.length_cons] at hfuel ⊢; omega)
    · rcases hrest _ (.head _) with hseg | hrep'
      · -- a repeat prefix takes the segment prefix behind it along
        have hadjacent' : ¬ RepeatsApart ps := by
          intro h
          have hseg' := not_repeat_of_segment hseg
          refine hadjacent (List.isChain_cons_cons.mpr ⟨by rw [hseg', Bool.and_false], ?_⟩)
          refine List.isChain_cons.mpr ⟨fun r _ => ?_, h⟩
          rw [hseg', Bool.false_and]
        obtain ⟨r, n, hr, hscan⟩ :=
          scan_adjacent ps (fun r hr => hrest r (.tail _ hr)) hadjacent' htake.take
        refine ⟨r, n, hr, fun fuel hfuel => ?_⟩
        obtain ⟨fuel, rfl⟩ : ∃ f, fuel = f + 1 :=
          ⟨fuel - 1, by rw [List.length_cons] at hfuel; omega⟩
        rw [scan_repeat_segment fuel hrep hseg]
        exact hscan fuel (by simp only [List.length_cons] at hfuel ⊢; omega)
      · exact ⟨_, _, hrep', fun fuel _ => scan_repeat_stop fuel hrep (not_segment_of_repeat hrep')⟩
termination_by ps => ps.length

/-! ### Termination of the loop -/

/-- The loop does not get past offset `k`: there is a byte that is not a prefix, or a repeat
prefix with another behind it. -/
def Machine.Escapes (m : Machine δ) (k : Word) : Prop :=
  (isSegmentPrefix (m.code k) = false ∧ isRepeatPrefix (m.code k) = false) ∨
    (isRepeatPrefix (m.code k) = true ∧ isRepeatPrefix (m.code (k + 1)) = true)

theorem escapes_take {m : Machine δ} {k : Word} : m.take.Escapes k ↔ m.Escapes (1 + k) := by
  rw [Machine.Escapes, take_code, take_code, Machine.Escapes, BitVec.add_assoc]

theorem not_escapes_of_segment {m : Machine δ} {k : Word}
    (h : isSegmentPrefix (m.code k) = true) : ¬ m.Escapes k := by
  rintro (⟨hs, -⟩ | ⟨hr, -⟩)
  · rw [h] at hs
    cases hs
  · rw [not_repeat_of_segment h] at hr
    cases hr

/-- The distance to an offset where the loop ends bounds its passes: a pass takes one byte
or two, and never jumps over such an offset. -/
theorem scan_ends : ∀ (d : ℕ) {m : Machine δ}, m.Escapes (BitVec.ofNat 16 d) →
    ∃ fuel op n, scan fuel m = (some op, n)
  | d, m, h => by
    cases hs : isSegmentPrefix (m.code 0) with
    | true =>
      match d, h with
      | 0, h => exact absurd h (not_escapes_of_segment hs)
      | d + 1, h =>
        rw [Nat.add_comm, BitVec.ofNat_add] at h
        obtain ⟨fuel, op, n, hscan⟩ := scan_ends d (escapes_take.mpr h)
        exact ⟨fuel + 1, op, n, (scan_segment fuel hs).trans hscan⟩
    | false =>
      cases hr : isRepeatPrefix (m.code 0) with
      | false => exact ⟨0, _, _, scan_opcode 0 hs hr⟩
      | true =>
        cases hs' : isSegmentPrefix (m.take.code 0) with
        | false => exact ⟨0, _, _, scan_repeat_stop 0 hr hs'⟩
        | true =>
          -- the pass takes the repeat prefix and the segment prefix behind it
          have hnot : ¬ m.Escapes 1 := by
            have := not_escapes_of_segment hs'
            rwa [escapes_take] at this
          match d, h with
          | 0, h =>
            have hnext := not_repeat_of_segment hs'
            rw [take_code] at hnext
            rcases h with ⟨-, h⟩ | ⟨-, h⟩
            · exact absurd (hr.symm.trans h) Bool.false_ne_true.symm
            · exact absurd (hnext.symm.trans h) Bool.false_ne_true
          | 1, h => exact absurd h hnot
          | d + 2, h =>
            have h' : m.take.take.Escapes (BitVec.ofNat 16 d) := by
              rw [escapes_take, escapes_take]
              rwa [Nat.add_comm, show 2 + d = 1 + (1 + d) by omega, BitVec.ofNat_add,
                BitVec.ofNat_add] at h
            obtain ⟨fuel, op, n, hscan⟩ := scan_ends d h'
            exact ⟨fuel + 1, op, n, (scan_repeat_segment fuel hr hs').trans hscan⟩

/-- Without an offset where it ends the loop goes on for ever. -/
theorem scan_none (fuel : ℕ) {m : Machine δ} (h : ∀ k, ¬ m.Escapes k) : (scan fuel m).1 = none := by
  have htake : ∀ k, ¬ m.take.Escapes k := fun k => by rw [escapes_take]; exact h _
  cases hs : isSegmentPrefix (m.code 0) with
  | true =>
    cases fuel with
    | zero =>
      rw [scan_of_segment _ hs]
      rfl
    | succ fuel =>
      rw [scan_segment fuel hs]
      exact scan_none fuel htake
  | false =>
    have hr : isRepeatPrefix (m.code 0) = true := by
      by_contra hr
      exact h 0 (.inl ⟨hs, Bool.eq_false_iff.mpr hr⟩)
    -- behind a repeat prefix only a segment prefix keeps the loop going
    have hr' : isRepeatPrefix (m.take.code 0) = false := by
      by_contra hr'
      refine h 0 (.inr ⟨hr, ?_⟩)
      rw [take_code] at hr'
      exact Bool.not_eq_false _ ▸ hr'
    have hs' : isSegmentPrefix (m.take.code 0) = true := by
      by_contra hs'
      exact htake 0 (.inl ⟨Bool.eq_false_iff.mpr hs', hr'⟩)
    cases fuel with
    | zero =>
      rw [scan_of_repeat _ hr, if_pos hs']
      rfl
    | succ fuel =>
      rw [scan_repeat_segment fuel hr hs']
      exact scan_none fuel fun k => by rw [escapes_take]; exact htake _

/-! ### Decoding -/

/-- Decoding is a scan, `LOCK` apart. -/
theorem outcome_i8088Decode_scan (fuel : ℕ) {m : Machine δ} (hl : m.code 0 ≠ 0xF0) :
    outcome (i8088Decode (fuel + 1)) m =
      scan (if isSegmentPrefix (m.code 0) then fuel + 1 else fuel) m.unlatched := by
  rw [outcome_i8088Decode]
  split
  · next hs =>
    have hs' : isSegmentPrefix (m.unlatched.code 0) = true := hs
    rw [prefixLoop_of_segment fuel hs', scan_segment fuel hs']
  · next hs => exact prefixLoop_of_other fuel (Bool.eq_false_iff.mpr hs) hl

/-- `LOCK` as the first byte is reported and passed over. -/
def Machine.locked (m : Machine δ) : Machine δ :=
  { m.unlatched with log := .panic .lock :: m.log }

theorem outcome_i8088Decode_lock (fuel : ℕ) {m : Machine δ} (hl : m.code 0 = 0xF0) :
    outcome (i8088Decode (fuel + 1)) m = scan fuel (m.locked.skip 1) := by
  have hl' : m.unlatched.code 0 = 0xF0 := hl
  rw [outcome_i8088Decode, prefixLoop_succ, hl', outcome_prefixSegment_lock]
  rfl

theorem escapes_skip {m : Machine δ} {k : Word} : (m.skip 1).Escapes k ↔ m.Escapes (1 + k) := by
  rw [Machine.Escapes, skip_code, skip_code, Machine.Escapes, BitVec.add_assoc]

/-- Decoding ends exactly when the code segment has a byte that is not a prefix, or two
adjacent repeat prefixes. -/
theorem i8088Decode_ends_iff {m : Machine δ} :
    (∃ fuel op n, outcome (i8088Decode fuel) m = (some op, n)) ↔ ∃ k, m.Escapes k := by
  constructor
  · rintro ⟨fuel, op, n, h⟩
    by_contra hnone
    have hescapes : ∀ k, ¬ m.Escapes k := not_exists.mp hnone
    -- a LOCK in front would be such a byte
    have hl : m.code 0 ≠ 0xF0 := by
      intro hl
      refine hescapes 0 (.inl ?_)
      rw [hl]
      exact ⟨rfl, rfl⟩
    cases fuel with
    | zero =>
      rw [outcome_i8088Decode] at h
      cases h
    | succ fuel =>
      have hscan := scan_none (m := m.unlatched)
        (if isSegmentPrefix (m.code 0) then fuel + 1 else fuel) hescapes
      rw [outcome_i8088Decode_scan fuel hl] at h
      rw [h] at hscan
      cases hscan
  · rintro ⟨k, hk⟩
    by_cases hl : m.code 0 = 0xF0
    · -- the segment wraps, so that the loop comes back to the byte before it
      have hnext : m.Escapes (1 + (k - 1)) := by
        rwa [BitVec.add_comm, BitVec.sub_add_cancel]
      have hk' : (m.locked.skip 1).Escapes (BitVec.ofNat 16 (k - 1).toNat) := by
        rw [BitVec.ofNat_toNat, BitVec.setWidth_eq]
        exact escapes_skip.mpr hnext
      obtain ⟨fuel, op, n, h⟩ := scan_ends _ hk'
      exact ⟨fuel + 1, op, n, (outcome_i8088Decode_lock fuel hl).trans h⟩
    · have hk' : m.unlatched.Escapes (BitVec.ofNat 16 k.toNat) := by
        rwa [BitVec.ofNat_toNat, BitVec.setWidth_eq]
      obtain ⟨fuel, op, n, h⟩ := scan_ends _ hk'
      -- the first segment prefix has used up one pass of the loop already
      cases hs : isSegmentPrefix (m.code 0) with
      | true =>
        cases fuel with
        | zero =>
          have hs' : isSegmentPrefix (m.unlatched.code 0) = true := hs
          rw [scan_of_segment 0 hs'] at h
          cases h
        | succ fuel =>
          exact ⟨fuel + 1, op, n, by rw [outcome_i8088Decode_scan fuel hl, hs]; exact h⟩
      | false => exact ⟨fuel + 1, op, n, by rw [outcome_i8088Decode_scan fuel hl, hs]; exact h⟩

/-- A loop that has ended is not changed by more fuel. -/
theorem prefixLoop_mono {fuel fuel' : ℕ} (hle : fuel ≤ fuel') {b op : Byte} {m n : Machine δ}
    (h : outcome (prefixLoop fuel b) m = (some op, n)) :
    outcome (prefixLoop fuel' b) m = (some op, n) := by
  induction fuel generalizing fuel' b m with
  | zero => cases h
  | succ fuel ih =>
    obtain ⟨fuel', rfl⟩ : ∃ f, fuel' = f + 1 := ⟨fuel' - 1, by omega⟩
    rw [prefixLoop_succ, prefixRest, outcome_bind, outcome_ite] at h ⊢
    -- a prefix goes on with what is left, any other byte is the opcode
    split at h
    · next hs =>
      rw [if_pos hs]
      exact ih (by omega) h
    · next hs =>
      rw [if_neg hs]
      exact h

theorem i8088Decode_mono {fuel fuel' : ℕ} (hle : fuel ≤ fuel') {op : Byte} {m n : Machine δ}
    (h : outcome (i8088Decode fuel) m = (some op, n)) :
    outcome (i8088Decode fuel') m = (some op, n) := by
  rw [outcome_i8088Decode] at h ⊢
  exact prefixLoop_mono hle h

/-! ### One call -/

/-- A halted CPU does nothing. -/
theorem outcome_i8088Execute_of_halt (io : Devices δ) (eaddr : Word) (fuel : ℕ) {m : Machine δ}
    (h : m.cpu.halt = true) : outcome (i8088Execute io eaddr fuel) m = (true, m) := by
  simp [i8088Execute, h]

/-- The two phases of a call: decoding, and the switch. -/
theorem outcome_i8088Execute (io : Devices δ) (eaddr : Word) (fuel : ℕ) {m : Machine δ}
    (h : m.cpu.halt = false) :
    outcome (i8088Execute io eaddr fuel) m =
      match outcome (i8088Decode fuel) m with
      | (none, m') => (false, m')
      | (some opcode, m') => outcome (i8088Opcode io eaddr fuel opcode) m' := by
  simp only [i8088Execute, outcome_bind, outcome_getCpu, h, Bool.false_eq_true, if_false]
  rcases outcome (i8088Decode fuel) m with ⟨_ | opcode, m'⟩ <;> rfl

/-- A call that enters the switch runs the instruction. -/
theorem outcome_i8088Execute_of_decode (io : Devices δ) (eaddr : Word) {fuel : ℕ}
    {m m' : Machine δ} {opcode : Byte} (h : m.cpu.halt = false)
    (hd : outcome (i8088Decode fuel) m = (some opcode, m')) :
    outcome (i8088Execute io eaddr fuel) m = outcome (i8088Opcode io eaddr fuel opcode) m' := by
  rw [outcome_i8088Execute io eaddr fuel h, hd]

/-- The effect of an opcode is that of its case. -/
theorem outcome_i8088Opcode {io : Devices δ} {eaddr : Word} {fuel : ℕ} {opcode : Byte}
    {x : M δ Unit} {n n' : Machine δ}
    (h : i8088Case io eaddr fuel opcode = some (returning x)) (hx : outcome x n = ((), n')) :
    outcome (i8088Opcode io eaddr fuel opcode) n = (true, n') := by
  rw [i8088Opcode, h, Option.getD_some, returning, outcome_bind, hx]
  rfl

/-- One call of `i8088_execute` in `m` enters the switch with `opcode`, in state `n`. -/
structure Dispatches (m : Machine δ) (fuel : ℕ) (opcode : Byte) (n : Machine δ) : Prop where
  running : m.cpu.halt = false
  decode : outcome (i8088Decode fuel) m = (some opcode, n)

namespace Dispatches

variable {m n : Machine δ} {fuel : ℕ} {opcode : Byte}

theorem execute (h : Dispatches m fuel opcode n) (io : Devices δ) (eaddr : Word) :
    outcome (i8088Execute io eaddr fuel) m = outcome (i8088Opcode io eaddr fuel opcode) n :=
  outcome_i8088Execute_of_decode io eaddr h.running h.decode

theorem agree (h : Dispatches m fuel opcode n) : Agree m n := by
  have hagree := agree_i8088Decode fuel m
  rwa [h.decode] at hagree

end Dispatches

end Pc20iii
