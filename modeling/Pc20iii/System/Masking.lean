import Pc20iii.System.Requests

/-!
# The interrupt mask

Bit `n` of the mask register masks line `n`. The test of `fe2010_irq` shifts the whole
register instead of looking at that bit, so it lets a request pass exactly when line `n`
or a line above it is masked (`shift_ne_zero_iff`).

A request is therefore treated as the mask register asks only when its line is not masked
and a line above it is (`Unobstructed`). The history of a run has the shape `Settled`,
which says of each call with IF set whether it enters its interrupt, and so carries the
result over to runs (`mask_decides_iff`).
-/

namespace Pc20iii

open StateProgram

variable {δ : Type} {raises reports : Bool}

/-! ### The mask test -/

/-- Line `n` is not masked, and some line above it is. -/
def Unobstructed (mask : Byte) (n : Fin 8) : Prop :=
  mask.getLsbD n = false ∧ ∃ k : Fin 8, n.val < k.val ∧ mask.getLsbD k = true

instance (mask : Byte) (n : Fin 8) : Decidable (Unobstructed mask n) :=
  inferInstanceAs (Decidable (_ ∧ _))

/-- The mask test passes when a line from `n` on is masked. -/
theorem shift_ne_zero_iff {mask : Byte} {n : Fin 8} :
    mask >>> n.val ≠ 0 ↔ ∃ k : Fin 8, n.val ≤ k.val ∧ mask.getLsbD k = true := by
  constructor
  · intro h
    by_contra hnone
    push Not at hnone
    -- bit j of the shift is bit n + j of the register
    refine h (BitVec.eq_of_getLsbD_eq fun j hj => ?_)
    rw [BitVec.getLsbD_ushiftRight, BitVec.ofNat_eq_ofNat, BitVec.getLsbD_zero]
    by_cases hlt : n.val + j < 8
    · simpa using hnone ⟨n.val + j, hlt⟩ (Nat.le_add_right ..)
    · exact BitVec.getLsbD_of_ge _ _ (by omega)
  · rintro ⟨k, hle, hk⟩ h
    have hbit := congrArg (BitVec.getLsbD · (k.val - n.val)) h
    rw [BitVec.getLsbD_ushiftRight, Nat.add_sub_cancel' hle, hk] at hbit
    simp at hbit

/-- The mask test does what the mask register asks exactly when the line is unobstructed. -/
theorem passes_iff_unmasked_iff {mask : Byte} {n : Fin 8} :
    (mask >>> n.val ≠ 0 ↔ mask.getLsbD n = false) ↔ Unobstructed mask n := by
  rw [shift_ne_zero_iff, Unobstructed]
  cases hn : mask.getLsbD n with
  | true =>
    have hex : ∃ k : Fin 8, n.val ≤ k.val ∧ mask.getLsbD k = true := ⟨n, le_rfl, hn⟩
    simp only [hex, Bool.true_eq_false, iff_false, not_true_eq_false, false_and]
  | false =>
    -- line n is not masked itself, so what obstructs it is above
    have hlt : (∃ k : Fin 8, n.val ≤ k.val ∧ mask.getLsbD k = true) ↔
        ∃ k : Fin 8, n.val < k.val ∧ mask.getLsbD k = true := by
      refine exists_congr fun k => and_congr_left fun hk => ?_
      refine ⟨fun hle => lt_of_le_of_ne hle fun heq => ?_, le_of_lt⟩
      rw [← heq, hn] at hk
      cases hk
    rw [hlt, iff_true_right rfl, and_iff_right rfl]

/-! ### One request -/

/-- A call of `fe2010_irq(n)` enters interrupt `n + 8`. -/
def Machine.enters (m : Machine δ) (n : Fin 8) : Prop :=
  (outcome (fe2010Irq n) m).2.log = .interrupt (irqInt n) :: .irqEntry n :: (m.called n).log

/-- With IF set, a call enters its interrupt when it passes the mask test. -/
theorem enters_iff {m : Machine δ} (hi : m.cpu.flags.i = true) (n : Fin 8) :
    m.enters n ↔ m.fe2010.irqMask >>> n.val ≠ 0 := by
  cases hp : m.passes n with
  | true =>
    have hne : m.fe2010.irqMask >>> n.val ≠ 0 := by simpa [Machine.passes] using hp
    rw [Machine.enters, outcome_fe2010Irq_of_set n hp hi]
    exact iff_of_true rfl hne
  | false =>
    have heq : m.fe2010.irqMask >>> n.val = 0 := by simpa [Machine.passes] using hp
    rw [Machine.enters, outcome_fe2010Irq_of_fail n hp]
    exact iff_of_false (by simp) (not_not_intro heq)

/-! ### The history of a run -/

/-- A history in which every entry follows its call, and every call with IF set that passes
the mask test is followed by its entry. -/
inductive Settled : List Event → Prop
  | nil : Settled []
  /-- A call that is not followed by an entry. -/
  | refused {n : Fin 8} {mask : Byte} {i : Bool} {log : List Event}
      (h : i = true → mask >>> n.val = 0) : Settled log → Settled (.irqCall n mask i :: log)
  /-- A call and its entry. -/
  | entered {n : Fin 8} {mask : Byte} {log : List Event} (h : mask >>> n.val ≠ 0) :
      Settled log → Settled (.irqEntry n :: .irqCall n mask true :: log)
  /-- An event that is neither a call nor an entry. -/
  | other {e : Event} {log : List Event} (hcall : ∀ n mask i, e ≠ .irqCall n mask i)
      (hentry : ∀ n, e ≠ .irqEntry n) : Settled log → Settled (e :: log)

namespace Settled

variable {log : List Event}

theorem append_plain {es : List Event} (hes : ∀ e ∈ es, e.Plain reports) (h : Settled log) :
    Settled (es ++ log) := by
  induction es with
  | nil => exact h
  | cons e es ih =>
    have he := hes e (.head _)
    refine .other ?_ ?_ (ih fun e' he' => hes e' (.tail _ he'))
    · rintro n mask i rfl
      exact he
    · rintro n rfl
      exact he

/-- A request settles its call. -/
theorem irq {m : Machine δ} (h : Settled m.log) (n : Fin 8) :
    Settled (outcome (fe2010Irq n) m).2.log := by
  rcases fe2010Irq_cases n m with ⟨hp, hafter⟩ | ⟨-, hi, hafter⟩ | ⟨hp, hi, hafter⟩ <;> rw [hafter]
  · have heq : m.fe2010.irqMask >>> n.val = 0 := by simpa [Machine.passes] using hp
    exact .refused (fun _ => heq) h
  · exact .refused (fun hi' => absurd (hi.symm.trans hi') Bool.false_ne_true) h
  · have hne : m.fe2010.irqMask >>> n.val ≠ 0 := by simpa [Machine.passes] using hp
    have hentered : Settled (.irqEntry n :: (m.called n).log) := by
      rw [called_log, hi]
      exact .entered hne h
    -- what the entry records of the stack says nothing of requests
    refine .other ?_ ?_ hentered
    · intro k mask i h
      cases h
    · intro k h
      cases h

theorem retry {m : Machine δ} (h : Settled m.log) (n : Fin 8) :
    Settled (outcome (pendingPass n) m).2.log := by
  rw [outcome_pendingPass]
  split
  · exact irq (m := { m with log := .irqRetry n :: m.log }) (.other nofun nofun h) n
  · exact h

/-- A call with IF set is followed by its entry exactly when it passes the mask test. -/
theorem getLast?_iff (h : Settled log) {newer older : List Event} {n : Fin 8} {mask : Byte}
    (hlog : log = newer ++ .irqCall n mask true :: older) :
    newer.getLast? = some (.irqEntry n) ↔ mask >>> n.val ≠ 0 := by
  induction h generalizing newer with
  | nil => cases newer <;> cases hlog
  -- the call has failed the test, and no entry follows
  | refused hmask _ ih =>
    cases newer with
    | nil =>
      cases hlog
      simp [hmask rfl]
    | cons e newer =>
      obtain ⟨rfl, rfl⟩ := List.cons.inj hlog
      rw [← ih rfl]
      cases newer <;> simp
  -- the entry is the next event behind the call
  | entered hmask _ ih =>
    match newer with
    | [] => cases hlog
    | [e] =>
      cases hlog
      exact iff_of_true rfl hmask
    | e :: e' :: newer =>
      obtain ⟨rfl, htail⟩ := List.cons.inj hlog
      obtain ⟨rfl, rfl⟩ := List.cons.inj htail
      rw [← ih rfl]
      cases newer <;> simp
  | other hcall hentry _ ih =>
    cases newer with
    | nil =>
      obtain ⟨rfl, rfl⟩ := List.cons.inj hlog
      exact absurd rfl (hcall n mask true)
    | cons e newer =>
      obtain ⟨rfl, rfl⟩ := List.cons.inj hlog
      rw [← ih rfl]
      cases newer <;> simp [hentry]

/-- Every entry follows a call with IF set that passes the mask test. -/
theorem entry (h : Settled log) {newer older : List Event} {n : Fin 8}
    (hlog : log = newer ++ .irqEntry n :: older) :
    ∃ mask earlier, older = .irqCall n mask true :: earlier ∧ mask >>> n.val ≠ 0 := by
  induction h generalizing newer with
  | nil => cases newer <;> cases hlog
  | refused hmask _ ih =>
    cases newer with
    | nil => cases hlog
    | cons e newer => exact ih (List.cons.inj hlog).2
  -- the newest event may be the entry itself, or the call before it
  | entered hmask _ ih =>
    match newer with
    | [] =>
      cases hlog
      exact ⟨_, _, rfl, hmask⟩
    | [e] => cases hlog
    | e :: e' :: newer => exact ih (List.cons.inj (List.cons.inj hlog).2).2
  | other hcall hentry _ ih =>
    cases newer with
    | nil => exact absurd (List.cons.inj hlog).1 (hentry n)
    | cons e newer => exact ih (List.cons.inj hlog).2

end Settled

/-- Every run keeps the history settled. -/
theorem Run.settled {io : Devices δ} {m m' : Machine δ} (h : Run io m m')
    (hm : Settled m.log) : Settled m'.log :=
  RunOf.rel (R := fun m m' => Settled m.log → Settled m'.log) (fun _ => id)
    (fun h h' hm => h' (h hm))
    (fun hplain hm => by
      obtain ⟨es, hes, hall⟩ := hplain.log
      exact hes ▸ hm.append_plain hall)
    (fun _ n hm => hm.irq n) (fun _ n hm => hm.retry n) rfl (fun _ _ _ => rfl) h hm

/-! ### The decision -/

/-- In a history, every call of `fe2010_irq(n)` with IF set is treated as the mask register
asks: its entry follows when bit `n` is clear, and only then. -/
def Decided (n : Fin 8) (log : List Event) : Prop :=
  ∀ newer older mask, log = newer ++ .irqCall n mask true :: older →
    (newer.getLast? = some (.irqEntry n) ↔ mask.getLsbD n = false)

/-- In a history, every call of `fe2010_irq(n)` with IF set finds line `n` unobstructed. -/
def AllUnobstructed (n : Fin 8) (log : List Event) : Prop :=
  ∀ mask, .irqCall n mask true ∈ log → Unobstructed mask n

theorem Settled.decided_iff {log : List Event} (h : Settled log) (n : Fin 8) :
    Decided n log ↔ AllUnobstructed n log := by
  constructor
  · intro hd mask hmem
    obtain ⟨newer, older, rfl⟩ := List.append_of_mem hmem
    exact passes_iff_unmasked_iff.mp ((h.getLast?_iff rfl).symm.trans (hd newer older mask rfl))
  · intro hu newer older mask hlog
    have hmem : Event.irqCall n mask true ∈ log := by simp [hlog]
    exact (h.getLast?_iff hlog).trans (passes_iff_unmasked_iff.mpr (hu mask hmem))

/-- In a settled history whose calls are unobstructed, a masked line is not entered. -/
theorem Settled.unmasked_of_entry {log : List Event} (h : Settled log) {n : Fin 8}
    (hu : AllUnobstructed n log) {newer older : List Event}
    (hlog : log = newer ++ .irqEntry n :: older) :
    ∃ mask earlier, older = .irqCall n mask true :: earlier ∧ mask.getLsbD n = false := by
  obtain ⟨mask, earlier, rfl, -⟩ := h.entry hlog
  have hmem : Event.irqCall n mask true ∈ log := by simp [hlog]
  exact ⟨mask, earlier, rfl, (hu mask hmem).1⟩

/-- **The mask register decides exactly for unobstructed lines.** For every line `n`:
* after a write of port 0x21 a call with IF set enters interrupt `n + 8` if and only if
  bit `n` of the value is clear, precisely when the value leaves line `n` unobstructed;
* in every run from an idle machine all calls with IF set are decided so precisely when they
  all find line `n` unobstructed;
* in a run whose calls do, an entry follows a call that finds line `n` unmasked;
* two calls with IF set in such runs, with mask registers that agree on bit `n`, are
  treated alike. -/
theorem mask_decides_iff (io : Devices δ) (n : Fin 8) :
    (∀ (mask : Byte) (m : Machine δ), m.cpu.flags.i = true →
      (((outcome (ioWrite io 0x21 mask) m).2.enters n ↔ mask.getLsbD n = false) ↔
        Unobstructed mask n)) ∧
    (∀ m m' : Machine δ, m.Idle → Run io m m' →
      (Decided n m'.log ↔ AllUnobstructed n m'.log)) ∧
    (∀ m m' : Machine δ, m.Idle → Run io m m' → AllUnobstructed n m'.log →
      ∀ newer older, m'.log = newer ++ .irqEntry n :: older →
        ∃ mask earlier, older = .irqCall n mask true :: earlier ∧ mask.getLsbD n = false) ∧
    ∀ m₁ m₁' m₂ m₂' : Machine δ, m₁.Idle → Run io m₁ m₁' → m₂.Idle → Run io m₂ m₂' →
      AllUnobstructed n m₁'.log → AllUnobstructed n m₂'.log →
      ∀ newer₁ older₁ mask₁ newer₂ older₂ mask₂,
        m₁'.log = newer₁ ++ .irqCall n mask₁ true :: older₁ →
        m₂'.log = newer₂ ++ .irqCall n mask₂ true :: older₂ →
        mask₁.getLsbD n = mask₂.getLsbD n →
        (newer₁.getLast? = some (.irqEntry n) ↔ newer₂.getLast? = some (.irqEntry n)) := by
  have hsettled : ∀ m m' : Machine δ, m.Idle → Run io m m' → Settled m'.log :=
    fun m m' hm h => h.settled (hm.log ▸ .nil)
  -- every log of a run is settled, so the log decides all but the first part
  refine ⟨fun mask m hi => ?_, fun m m' hm h => (hsettled m m' hm h).decided_iff n,
    fun m m' hm h hu newer older hlog => (hsettled m m' hm h).unmasked_of_entry hu hlog, ?_⟩
  · rw [outcome_ioWrite_irqMask, enters_iff]
    · exact passes_iff_unmasked_iff
    · exact hi
  · intro m₁ m₁' m₂ m₂' hm₁ h₁ hm₂ h₂ hu₁ hu₂ newer₁ older₁ mask₁ newer₂ older₂ mask₂ hlog₁ hlog₂
      hagree
    have hd₁ := ((hsettled m₁ m₁' hm₁ h₁).decided_iff n).mpr hu₁ newer₁ older₁ mask₁ hlog₁
    have hd₂ := ((hsettled m₂ m₂' hm₂ h₂).decided_iff n).mpr hu₂ newer₂ older₂ mask₂ hlog₂
    rw [hd₁, hd₂, hagree]

/-- The reset machine with interrupts enabled. -/
def enabledMachine : Machine Unit :=
  let m := machineInit ()
  { m with cpu := { m.cpu with flags := { m.cpu.flags with i := true } } }

/-- With every line masked, a request of the timer enters all the same. -/
theorem masked_timer_enters :
    enabledMachine.cpu.flags.i = true ∧
      ¬ ((outcome (ioWrite Devices.none 0x21 0xFF) enabledMachine).2.enters 0 ↔
        (0xFF : Byte).getLsbD (0 : Fin 8) = false) := by
  refine ⟨rfl, ?_⟩
  rw [outcome_ioWrite_irqMask, enters_iff rfl]
  decide

/-- The mask that leaves the timer alone and masks the keyboard is decided as it asks. -/
theorem mask_decides_iff_timer :
    (outcome (ioWrite Devices.none 0x21 0x02) enabledMachine).2.enters 0 ↔
      (0x02 : Byte).getLsbD (0 : Fin 8) = false :=
  ((mask_decides_iff Devices.none 0).1 0x02 enabledMachine rfl).mpr (by decide)

end Pc20iii
