import Pc20iii.Device.Embed
import Pc20iii.System.Effects

/-!
# The port table

What an instruction does to the devices it does through the port table: it calls hooks, and
between these calls it leaves the devices alone (`i8088Execute_bus`).

In a table that is put together from the ports of several devices (`Hosts`), a hook is one of a
device at its own port, or one of another device, of which this one sees nothing. Therefore an
instruction is for each device a run of accesses to its own ports, with anything else in between
(`bus_simulates`).
-/

namespace Pc20iii

open StateProgram

variable {ε δ : Type} {raises reports : Bool}

/-! ### The actions behind the port table -/

/-- What leaves the devices alone, and the hooks of the table. -/
inductive BusAction (io : Devices ε) : ∀ α : Type, M ε α → Prop
  | core {α : Type} (x : M ε α) (h : ∀ m, (outcome x m).2.dev = m.dev) : BusAction io α x
  | read {port : Word} {func : ReadHook ε} (h : io.read port = some func) :
      BusAction io Byte (func port)
  | write {port : Word} {func : WriteHook ε} (h : io.write port = some func) (value : Byte) :
      BusAction io Unit (func port value)

/-- What leaves the devices alone calls no hook. -/
theorem bus_of_core {io : Devices ε} {α : Type} {x : M ε α}
    (hx : Generated (CoreAction raises reports) x) : Generated (BusAction io) x :=
  hx.mono fun h => .action _ (.core _ h.2)

section Execute

variable {io : Devices ε} {port : Word} {v : Byte}

instance bus_ioRead : Generated (BusAction io) (ioRead io port) := by
  unfold ioRead
  split
  · next func h =>
    rcases Option.or_eq_some_iff.mp h with h | ⟨-, h⟩
    · have hcore : Generated (CoreAction true true) (func port) :=
        fe2010Reads_generated port h port
      exact bus_of_core hcore
    · exact .action _ (.read h)
  · infer_instance

instance bus_ioWrite : Generated (BusAction io) (ioWrite io port v) := by
  unfold ioWrite
  split
  · next func h =>
    rcases Option.or_eq_some_iff.mp h with h | ⟨-, h⟩
    · have hcore : Generated (CoreAction true true) (func port v) :=
        fe2010Writes_generated port v h port
      exact bus_of_core hcore
    · exact .action _ (.write h v)
  · infer_instance

instance (priority := low) bus_generated {α : Type} {x : M ε α}
    [h : Generated (CoreAction true true) x] : Generated (BusAction io) x := bus_of_core h

instance bus_inAx (port : I8088 → Word) : Generated (BusAction io) (inAx io port) := by
  unfold inAx
  infer_instance

instance bus_outAx (port : I8088 → Word) : Generated (BusAction io) (outAx io port) := by
  unfold outAx
  infer_instance

variable {eaddr : Word} {opcode : Byte} {fuel : ℕ}

theorem bus_opcodeE {x : M ε Unit} (hx : opcodeE io opcode = some x) :
    Generated (BusAction io) x := by
  unfold opcodeE at hx
  split at hx
  all_goals first | (cases hx; infer_instance) | cases hx

/-- An instruction reaches the devices through the table of the ports only. -/
theorem bus_i8088Opcode : Generated (BusAction io) (i8088Opcode io eaddr fuel opcode) := by
  unfold i8088Opcode
  cases hx : i8088Case io eaddr fuel opcode with
  | none =>
    unfold returning
    exact .seq _ _ inferInstance fun _ => .ret true
  | some x =>
    change Generated (BusAction io) x
    have hcases : Generated (CoreAction true true) x ∨
        ∃ y, opcodeE io opcode = some y ∧ x = returning y := i8088Case_cases (fun _ => rfl) hx
    rcases hcases with hcore | ⟨y, hy, rfl⟩
    · exact bus_of_core hcore
    · -- `IN` and `OUT`
      have hgen : Generated (BusAction io) y := bus_opcodeE hy
      unfold returning
      infer_instance

/-- A call of `i8088_execute` touches the devices through their hooks only. -/
theorem i8088Execute_bus (io : Devices ε) (eaddr : Word) (fuel : ℕ) :
    Generated (BusAction io) (i8088Execute io eaddr fuel) := by
  unfold i8088Execute
  refine .seq _ _ inferInstance fun c => ?_
  split
  · infer_instance
  · refine .seq _ _ inferInstance fun opcode => ?_
    cases opcode with
    | none => exact .ret false
    | some opcode => exact bus_i8088Opcode

end Execute

/-! ### One device of the table -/

/-- The table holds the ports `D` of the device behind `l`; what else it holds does not change the
device. -/
structure Hosts (io : Devices ε) (l : Lens ε δ) (D : Devices δ) : Prop where
  read : ∀ {port func}, io.read port = some func →
    (∃ own, D.read port = some own ∧ func port = embed l (own port)) ∨
      ∀ m, l.get (outcome (func port) m).2.dev = l.get m.dev
  write : ∀ {port func}, io.write port = some func → ∀ value,
    (∃ own, D.write port = some own ∧ func port value = embed l (own port value)) ∨
      ∀ m, l.get (outcome (func port value) m).2.dev = l.get m.dev

section Simulation

variable {io : Devices ε} {l : Lens ε δ} {D : Devices δ}

/-- What the device does not see is something else that happens to the machine. -/
theorem simulates_of_unseen {m m' : Machine ε} (h : l.get m'.dev = l.get m.dev) :
    Simulates D.after (m.view l) (m'.view l) := by
  refine ⟨[.other (m'.view l)], ?_⟩
  change m'.view l = { m'.view l with dev := l.get m.dev }
  rw [← h]
  rfl

/-- What leaves the devices alone is nothing to a device. -/
theorem simulates_of_core {α : Type} {x : M ε α} (hx : Generated (CoreAction raises reports) x)
    (m : Machine ε) : Simulates D.after (m.view l) ((outcome x m).2.view l) := by
  have htrans : ∀ {m m' m'' : Machine ε}, m'.dev = m.dev → m''.dev = m'.dev → m''.dev = m.dev := by
    intro m m' m'' h h'
    exact h'.trans h
  have hdev : (outcome x m).2.dev = m.dev :=
    Generated.rel (R := fun m m' => m'.dev = m.dev) (fun _ => rfl) htrans (fun h m => h.2 m) hx m
  exact simulates_of_unseen (congrArg l.get hdev)

/-- A hook of the device is an access to its port. -/
theorem simulates_embed {α : Type} {x : M δ α} {a : Access δ} {m : Machine ε}
    (h : D.after (m.view l) a = (outcome x (m.view l)).2) :
    Simulates D.after (m.view l) ((outcome (embed l x) m).2.view l) := by
  refine ⟨[a], ?_⟩
  rw [runAll_cons, runAll_nil, h]
  exact get_zoom x m

/-- **Every device sees its own accesses.** What is done through the table is, for a device in
it, a run of accesses to its ports. -/
theorem bus_simulates (h : Hosts io l D) {α : Type} {x : M ε α} (hx : Generated (BusAction io) x)
    (m : Machine ε) : Simulates D.after (m.view l) ((outcome x m).2.view l) := by
  have hact : ∀ {α : Type} {x : M ε α}, BusAction io α x → ∀ m : Machine ε,
      Simulates D.after (m.view l) ((outcome x m).2.view l) := by
    intro α x hx m
    -- a port is the hook of this device, or something that it does not see
    cases hx with
    | core x hdev => exact simulates_of_unseen (congrArg l.get (hdev m))
    | read hread =>
      rcases h.read hread with ⟨own, hown, heq⟩ | hunseen
      · rw [heq]
        exact simulates_embed (Devices.after_read hown _)
      · exact simulates_of_unseen (hunseen m)
    | write hwrite value =>
      rcases h.write hwrite value with ⟨own, hown, heq⟩ | hunseen
      · rw [heq]
        exact simulates_embed (Devices.after_write hown value _)
      · exact simulates_of_unseen (hunseen m)
  have htrans : ∀ {m m' m'' : Machine ε}, Simulates D.after (m.view l) (m'.view l) →
      Simulates D.after (m'.view l) (m''.view l) → Simulates D.after (m.view l) (m''.view l) := by
    intro m m' m'' h h'
    exact h.trans h'
  exact Generated.rel (R := fun m m' => Simulates D.after (m.view l) (m'.view l))
    (fun m => .refl _) htrans hact hx m

end Simulation

/-! ### Tables put together -/

/-- The ports of two devices; those of the first hide those of the second. -/
def Devices.or (a b : Devices ε) : Devices ε where
  read port := (a.read port).or (b.read port)
  write port := (a.write port).or (b.write port)
  read_generated := by
    intro port func h p
    rcases Option.or_eq_some_iff.mp h with h | ⟨-, h⟩
    · exact a.read_generated h p
    · exact b.read_generated h p
  write_generated := by
    intro port func h p v
    rcases Option.or_eq_some_iff.mp h with h | ⟨-, h⟩
    · exact a.write_generated h p v
    · exact b.write_generated h p v
  read_low port h := by rw [a.read_low port h, b.read_low port h, Option.or_none]
  write_low port h := by rw [a.write_low port h, b.write_low port h, Option.or_none]

/-- The ports of a device that satisfy a condition. -/
def Devices.on (c : Word → Bool) (a : Devices ε) : Devices ε where
  read port := (a.read port).filter fun _ => c port
  write port := (a.write port).filter fun _ => c port
  read_generated h p := a.read_generated (Option.eq_some_of_filter_eq_some h) p
  write_generated h p v := a.write_generated (Option.eq_some_of_filter_eq_some h) p v
  read_low port h := by
    rw [a.read_low port h]
    rfl
  write_low port h := by
    rw [a.write_low port h]
    rfl

namespace Hosts

variable {a b : Devices ε} {l : Lens ε δ} {D : Devices δ}

theorem or (ha : Hosts a l D) (hb : Hosts b l D) : Hosts (a.or b) l D where
  read h := by
    rcases Option.or_eq_some_iff.mp h with h | ⟨-, h⟩
    · exact ha.read h
    · exact hb.read h
  write h value := by
    rcases Option.or_eq_some_iff.mp h with h | ⟨-, h⟩
    · exact ha.write h value
    · exact hb.write h value

theorem on (c : Word → Bool) (h : Hosts a l D) : Hosts (a.on c) l D where
  read hread := h.read (Option.eq_some_of_filter_eq_some hread)
  write hwrite value := h.write (Option.eq_some_of_filter_eq_some hwrite) value

/-- The ports of the device itself. -/
theorem embed : Hosts (D.embed l) l D where
  read h := by
    obtain ⟨own, hown, rfl⟩ := Option.map_eq_some_iff.mp h
    exact .inl ⟨own, hown, rfl⟩
  write h value := by
    obtain ⟨own, hown, rfl⟩ := Option.map_eq_some_iff.mp h
    exact .inl ⟨own, hown, rfl⟩

/-- The ports of another device. -/
theorem apart {δ' : Type} {l' : Lens ε δ'} (h : l.Apart l') (D' : Devices δ') :
    Hosts (D'.embed l') l D where
  read hread := by
    obtain ⟨func, -, rfl⟩ := Option.map_eq_some_iff.mp hread
    exact .inr fun m => Lens.Apart.machine h _ m
  write hwrite value := by
    obtain ⟨func, -, rfl⟩ := Option.map_eq_some_iff.mp hwrite
    exact .inr fun m => Lens.Apart.machine h _ m

end Hosts

end Pc20iii
