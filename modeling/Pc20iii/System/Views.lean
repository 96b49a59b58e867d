import Pc20iii.System.Main

/-!
# The devices in the whole emulator

What has been proved of runs of one device is about any accesses to its ports, with anything else
in between. Here a run of the whole emulator is seen through the lens of a device: it is such a
run, whatever the guest executes and whatever the other devices do.

* `Sees`: a program of the emulator is, for a device, a run of its steps.
* `main_simulates`: so is every run of the loop, for each of the six devices.
-/

namespace Pc20iii

open StateProgram Peripherals

variable {η ε δ β : Type}

/-! ### What a device sees of a program -/

/-- For the device behind `l` the program is a run of its steps. -/
def Sees {α : Type} (l : Lens ε δ) (step : Machine δ → β → Machine δ) (x : M ε α) : Prop :=
  ∀ m : Machine ε, Simulates step (m.view l) ((outcome x m).2.view l)

namespace Sees

variable {α α' : Type} {l : Lens ε δ} {step : Machine δ → β → Machine δ}

theorem pure (a : α) : Sees l step (Pure.pure a : M ε α) := fun m => .refl (m.view l)

theorem getDev : Sees l step (Pc20iii.getDev : M ε ε) := fun m => .refl (m.view l)

theorem bind {x : M ε α} {f : α → M ε α'} (hx : Sees l step x) (hf : ∀ a, Sees l step (f a)) :
    Sees l step (x >>= f) := by
  intro m
  rw [outcome_bind]
  exact (hx m).trans (hf _ _)

theorem ite {c : Prop} [Decidable c] {x y : M ε α} (hx : Sees l step x) (hy : Sees l step y) :
    Sees l step (if c then x else y) := by
  split
  · exact hx
  · exact hy

/-- A step of the device. -/
theorem own {x : M δ α} (h : ∀ m, ∃ b, step m b = (outcome x m).2) : Sees l step (embed l x) := by
  intro m
  obtain ⟨b, hb⟩ := h (m.view l)
  refine ⟨[b], ?_⟩
  rw [runAll_cons, runAll_nil, hb]
  exact get_zoom x m

/-- A sequence of steps of the device. -/
theorem forM {γ : Type} {f : γ → M δ Unit} (h : ∀ c m, ∃ b, step m b = (outcome (f c) m).2)
    (cs : List γ) : Sees l step (embed l (cs.forM f)) := by
  rw [embed, zoom_forM]
  induction cs with
  | nil => exact pure ()
  | cons c cs ih => exact bind (own (h c)) fun _ => ih

section Access

variable {D : Devices δ} {f : Access δ → β} (hf : ∀ m a, step m (f a) = D.after m a)

include hf

/-- What another device does is something else for this one. -/
theorem apart {δ' : Type} {l' : Lens ε δ'} (h : l.Apart l') (x : M δ' α) :
    Sees l step (embed l' x) :=
  fun m => (simulates_of_unseen (Lens.Apart.machine h x m)).map hf

/-- So is what the chipset does. -/
theorem core {x : M ε α} (hx : Generated (CoreAction true true) x) : Sees l step x :=
  fun m => (simulates_of_core hx m).map hf

/-- An instruction is a run of accesses. -/
theorem execute {io : Devices ε} (h : Hosts io l D) (eaddr : Word) (fuel : ℕ) :
    Sees l step (i8088Execute io eaddr fuel) :=
  fun m => (bus_simulates h (i8088Execute_bus io eaddr fuel) m).map hf

end Access

end Sees

/-! ### The rule for the loop -/

section Loop

variable {s : Setting η} {l : Lens (Peripherals η) δ} {D : Devices δ}
  {step : Machine δ → β → Machine δ} {f : Access δ → β}

/-- A device sees its steps in every run, if it does in the calls of the loop. -/
theorem mainRun_sees (hosts : Hosts s.devices l D) (hf : ∀ m a, step m (f a) = D.after m a)
    (hkeyboard : ∀ input, Sees l step (embed consoleLens (consoleExecuteKeyboard s.keyboard input)))
    (hmouse : ∀ data, Sees l step (embed serialLens (mos5720MouseData data)))
    (hnet : Sees l step (embed dp8390Lens do runLan (netExecute s.host); dp8390Execute))
    (huart : ∀ received, Sees l step (embed serialLens (i8250Execute received)))
    (hload : ∀ loads, Sees l step (embed fdc9268Lens (List.forM loads debuggerLoad)))
    (e : Emulator η) (ps : List Pass) :
    Simulates step (e.machine.view l) ((runAll (mainAfter s) e ps).machine.view l) := by
  -- a pass is made of calls that the device sees as its own
  have hpoll : ∀ input, Sees l step (mainPoll s input) := fun input =>
    .bind (.bind .getDev fun _ => .bind (hkeyboard input) fun _ => .ite (hmouse _) (.pure ()))
      fun _ => hnet
  have hdevices : ∀ cycle p, Sees l step (mainDevices s cycle p) := fun cycle p =>
    .bind (.ite (hpoll _) (.pure ())) fun _ =>
      .bind (.ite (huart _) (.pure ())) fun _ => hload _
  have hpass : ∀ cycle p, Sees l step (mainPass s cycle p) := fun cycle p =>
    .bind (.execute hf hosts _ _) fun _ =>
      .ite (.bind (.core hf inferInstance) fun _ => .bind (hdevices cycle p) fun _ => .pure true)
        (.pure false)
  have hstep : ∀ (e : Emulator η) p,
      Simulates step (e.machine.view l) ((mainAfter s e p).machine.view l) :=
    fun e p => hpass e.cycle p e.machine
  exact view_runAll hstep e ps

end Loop

/-! ### The steps of the devices -/

/-- What happens next, as the floppy disk controller sees it. -/
inductive FloppyStep where
  | access (a : Access Fdc9268)
  /-- An image is loaded. -/
  | load (load : Fin 2 × Option (List Byte))

/-- The machine after a step. -/
def floppyAfter (m : Machine Fdc9268) : FloppyStep → Machine Fdc9268
  | .access a => fdcDevices.after m a
  | .load load => (outcome (debuggerLoad load) m).2

/-- What happens next, as the console sees it. -/
inductive ConsoleStep where
  | access (a : Access Console)
  /-- A call of `console_execute_keyboard`. -/
  | execute (input : CursesInput)

/-- The machine after a step. -/
def consoleAfter (host : KeyboardHost) (nb : Neighbour) (m : Machine Console) :
    ConsoleStep → Machine Console
  | .access a => (consoleDevices nb).after m a
  | .execute input => (outcome (consoleExecuteKeyboard host input) m).2

/-! ### The port table -/

section Hosts

variable (s : Setting η)

theorem hosts_serial : Hosts s.devices serialLens serialDevices :=
  .or (.on _ (.apart (fun _ _ => rfl) _)) <| .or (.apart (fun _ _ => rfl) _) <|
    .or (.on _ .embed) <| .or (.apart (fun _ _ => rfl) _) <|
      .or (.apart (fun _ _ => rfl) _) (.apart (fun _ _ => rfl) _)

theorem hosts_fdc9268 : Hosts s.devices fdc9268Lens fdcDevices :=
  .or (.on _ (.apart (fun _ _ => rfl) _)) <| .or (.apart (fun _ _ => rfl) _) <|
    .or (.on _ (.apart (fun _ _ => rfl) _)) <| .or (.apart (fun _ _ => rfl) _) <|
      .or (.apart (fun _ _ => rfl) _) .embed

theorem hosts_m6242 : Hosts s.devices m6242Lens m6242Devices :=
  .or (.on _ (.apart (fun _ _ => rfl) _)) <| .or (.apart (fun _ _ => rfl) _) <|
    .or (.on _ (.apart (fun _ _ => rfl) _)) <| .or (.apart (fun _ _ => rfl) _) <|
      .or .embed (.apart (fun _ _ => rfl) _)

theorem hosts_dp8390 : Hosts s.devices dp8390Lens (dp8390Devices s.host) :=
  .or (.on _ (.apart (fun _ _ => rfl) _)) <| .or (.apart (fun _ _ => rfl) _) <|
    .or (.on _ (.apart (fun _ _ => rfl) _)) <| .or .embed <|
      .or (.apart (fun _ _ => rfl) _) (.apart (fun _ _ => rfl) _)

theorem hosts_xthdc : Hosts s.devices xthdcLens xthdcDevices :=
  .or (.on _ .embed) <| .or (.apart (fun _ _ => rfl) _) <|
    .or (.on _ (.apart (fun _ _ => rfl) _)) <| .or (.apart (fun _ _ => rfl) _) <|
      .or (.apart (fun _ _ => rfl) _) (.apart (fun _ _ => rfl) _)

theorem hosts_console : Hosts s.devices consoleLens (consoleDevices s.neighbour) :=
  .or (.on _ (.apart (fun _ _ => rfl) _)) <| .or .embed <|
    .or (.on _ (.apart (fun _ _ => rfl) _)) <| .or (.apart (fun _ _ => rfl) _) <|
      .or (.apart (fun _ _ => rfl) _) (.apart (fun _ _ => rfl) _)

end Hosts

/-! ### The six devices -/

section Devices

variable (s : Setting η) (e : Emulator η) (ps : List Pass)

theorem main_serial : Simulates uartAfter (e.machine.view serialLens)
    ((runAll (mainAfter s) e ps).machine.view serialLens) := by
  have hf : ∀ m a, uartAfter m (.access a) = serialDevices.after m a := fun _ _ => rfl
  exact mainRun_sees (hosts_serial s) hf (fun _ => .apart hf (fun _ _ => rfl) _)
    (fun data => .own fun _ => ⟨.mouse data, rfl⟩) (.apart hf (fun _ _ => rfl) _)
    (fun received => .own fun _ => ⟨.execute received, rfl⟩)
    (fun _ => .apart hf (fun _ _ => rfl) _) e ps

theorem main_fdc9268 : Simulates floppyAfter (e.machine.view fdc9268Lens)
    ((runAll (mainAfter s) e ps).machine.view fdc9268Lens) := by
  have hf : ∀ m a, floppyAfter m (.access a) = fdcDevices.after m a := fun _ _ => rfl
  exact mainRun_sees (hosts_fdc9268 s) hf (fun _ => .apart hf (fun _ _ => rfl) _)
    (fun _ => .apart hf (fun _ _ => rfl) _) (.apart hf (fun _ _ => rfl) _)
    (fun _ => .apart hf (fun _ _ => rfl) _)
    (.forM fun load _ => ⟨.load load, rfl⟩) e ps

theorem main_m6242 : Simulates m6242Devices.after (e.machine.view m6242Lens)
    ((runAll (mainAfter s) e ps).machine.view m6242Lens) := by
  have hf : ∀ (m : Machine M6242) a, m6242Devices.after m a = m6242Devices.after m a :=
    fun _ _ => rfl
  exact mainRun_sees (f := id) (hosts_m6242 s) hf (fun _ => .apart hf (fun _ _ => rfl) _)
    (fun _ => .apart hf (fun _ _ => rfl) _) (.apart hf (fun _ _ => rfl) _)
    (fun _ => .apart hf (fun _ _ => rfl) _) (fun _ => .apart hf (fun _ _ => rfl) _) e ps

theorem main_dp8390 : Simulates (cardAfter s.host) (e.machine.view dp8390Lens)
    ((runAll (mainAfter s) e ps).machine.view dp8390Lens) := by
  have hf : ∀ m a, cardAfter s.host m (.access a) = (dp8390Devices s.host).after m a :=
    fun _ _ => rfl
  exact mainRun_sees (hosts_dp8390 s) hf (fun _ => .apart hf (fun _ _ => rfl) _)
    (fun _ => .apart hf (fun _ _ => rfl) _) (.own fun _ => ⟨.tick, rfl⟩)
    (fun _ => .apart hf (fun _ _ => rfl) _) (fun _ => .apart hf (fun _ _ => rfl) _) e ps

theorem main_xthdc : Simulates xthdcDevices.after (e.machine.view xthdcLens)
    ((runAll (mainAfter s) e ps).machine.view xthdcLens) := by
  have hf : ∀ (m : Machine Xthdc) a, xthdcDevices.after m a = xthdcDevices.after m a :=
    fun _ _ => rfl
  exact mainRun_sees (f := id) (hosts_xthdc s) hf (fun _ => .apart hf (fun _ _ => rfl) _)
    (fun _ => .apart hf (fun _ _ => rfl) _) (.apart hf (fun _ _ => rfl) _)
    (fun _ => .apart hf (fun _ _ => rfl) _) (fun _ => .apart hf (fun _ _ => rfl) _) e ps

theorem main_console : Simulates (consoleAfter s.keyboard s.neighbour)
    (e.machine.view consoleLens) ((runAll (mainAfter s) e ps).machine.view consoleLens) := by
  have hf : ∀ m a, consoleAfter s.keyboard s.neighbour m (.access a) =
      (consoleDevices s.neighbour).after m a := fun _ _ => rfl
  exact mainRun_sees (hosts_console s) hf (fun input => .own fun _ => ⟨.execute input, rfl⟩)
    (fun _ => .apart hf (fun _ _ => rfl) _) (.apart hf (fun _ _ => rfl) _)
    (fun _ => .apart hf (fun _ _ => rfl) _) (fun _ => .apart hf (fun _ _ => rfl) _) e ps

end Devices

/-- **Every device sees its own run.** Seen through the lens of a device, a run of the whole
emulator is a run of that device, whatever the guest executes and the other devices do. -/
theorem main_simulates (s : Setting η) (e : Emulator η) (ps : List Pass) :
    let e' := runAll (mainAfter s) e ps
    Simulates uartAfter (e.machine.view serialLens) (e'.machine.view serialLens) ∧
    Simulates floppyAfter (e.machine.view fdc9268Lens) (e'.machine.view fdc9268Lens) ∧
    Simulates m6242Devices.after (e.machine.view m6242Lens) (e'.machine.view m6242Lens) ∧
    Simulates (cardAfter s.host) (e.machine.view dp8390Lens) (e'.machine.view dp8390Lens) ∧
    Simulates xthdcDevices.after (e.machine.view xthdcLens) (e'.machine.view xthdcLens) ∧
    Simulates (consoleAfter s.keyboard s.neighbour) (e.machine.view consoleLens)
      (e'.machine.view consoleLens) :=
  ⟨main_serial s e ps, main_fdc9268 s e ps, main_m6242 s e ps, main_dp8390 s e ps,
    main_xthdc s e ps, main_console s e ps⟩

end Pc20iii
