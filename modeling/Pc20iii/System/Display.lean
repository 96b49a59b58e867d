import Pc20iii.Console.Screen
import Pc20iii.System.Safety

/-!
# The emulator with its screen

The loop of `main.c` once more, with all the calls that reach the terminal in it:

* `console_execute_screen` in every 10000th pass, and, under `CPU_RELAX`, which the Makefile
  defines, whenever the CPU stands at the entry of INT 16h behind the devices. The wait for a key
  that follows there changes nothing and is left out, as `CPM` is not defined.
* `console_pause` and `console_resume` around a session of the debugger. It may come in any pass,
  as `debugger_break` is set from outside, by a panic and by a breakpoint. With the command `s` it
  returns without `console_resume`.

The state has what curses keeps beside the devices; the functions are those of
`Pc20iii.System.Main`, each run on its piece.

Nothing of what curses keeps gets back to the machine, so that the loop does to the machine what
the loop without the screen does, and to the terminal the calls of each pass
(`mainAfterScreen_spec`). So the terminal follows the display over every run (`screen_shows`): it
shows the text page that was drawn last, unless it is the debugger's.

`getch` refreshes the terminal as well. It finds the window as it was refreshed before. The window
is not resized while the emulator runs.
-/

namespace Pc20iii

open StateProgram Peripherals

variable {η τ : Type}

/-! ### The loop -/

/-- The static variables of `main.c`, and the state of curses. -/
structure Station (η τ : Type) where
  peripherals : Peripherals η
  terminal : τ

/-- All but the terminal. -/
def peripheralsLens : Lens (Station η τ) (Peripherals η) where
  get x := x.peripherals
  set p x := { x with peripherals := p }
  get_set _ _ := rfl
  set_get _ := rfl
  set_set _ _ _ := rfl

/-- What the functions of the screen work on. -/
def screenLens : Lens (Station η τ) (Screen τ) where
  get x := { console := x.peripherals.console, terminal := x.terminal }
  set y x := { peripherals := { x.peripherals with console := y.console }, terminal := y.terminal }
  get_set _ _ := rfl
  set_get _ := rfl
  set_set _ _ _ := rfl

/-- A pass, and what the debugger returns if `debugger_break` is set in it: whether the next pass
is to break as well. Images are loaded in the debugger only. -/
structure ScreenPass where
  pass : Pass
  debugger : Option Bool
  loads : debugger = none → pass.loads = []

/-- The calls of every 10000th pass. -/
def mainPollScreen (s : Setting η) (curses : Curses τ) (input : CursesInput) :
    M (Station η τ) Unit := do
  embed peripheralsLens (executeKeyboard s input)
  embed screenLens (consoleExecuteScreen curses)
  embed peripheralsLens <| embed dp8390Lens do
    runLan (netExecute s.host)
    dp8390Execute

/-- The calls of every 100th pass with a TTY. -/
def mainTty (s : Setting η) (cycle : BitVec 32) (p : Pass) : M (Peripherals η) Unit :=
  if s.tty ∧ cycle % 100 = 0 then embed serialLens (i8250Execute p.received) else pure ()

/-- The CPU stands at the entry of INT 16h, by the vector in memory. -/
def Machine.AtKeyboardService {δ : Type} (m : Machine δ) : Prop :=
  m.cpu.cs = wordOf (m.mem.m 0x5A) (m.mem.m 0x5B) ∧
    m.cpu.ip = wordOf (m.mem.m 0x58) (m.mem.m 0x59)

instance {δ : Type} (m : Machine δ) : Decidable m.AtKeyboardService :=
  inferInstanceAs (Decidable (_ ∧ _))

/-- The part of the loop under `CPU_RELAX`. -/
def mainRelax (curses : Curses τ) : M (Station η τ) Unit := do
  let m ← get
  if m.AtKeyboardService then embed screenLens (consoleExecuteScreen curses) else pure ()

/-- The commands of the debugger that change the machine. -/
def debuggerLoads (p : Pass) : M (Peripherals η) Unit :=
  embed fdc9268Lens (p.loads.forM debuggerLoad)

/-- The session of the debugger, if there is one. -/
def mainDebugger (curses : Curses τ) (p : ScreenPass) : M (Station η τ) Unit :=
  match p.debugger with
  | none => pure ()
  | some debuggerBreak => do
    embed screenLens (consolePause curses)
    embed peripheralsLens (debuggerLoads p.pass)
    (if debuggerBreak = false then embed screenLens (consoleResume curses) else pure ())

/-- A pass of the loop of `main`. -/
def mainPassScreen (s : Setting η) (curses : Curses τ) (cycle : BitVec 32) (p : ScreenPass) :
    M (Station η τ) Bool := do
  if ← embed peripheralsLens (i8088Execute s.devices p.pass.eaddr p.pass.fuel) then
    embed peripheralsLens fe2010Execute
    (if cycle % 10000 = 0 then mainPollScreen s curses p.pass.curses else pure ())
    embed peripheralsLens (mainTty s cycle p.pass)
    mainRelax curses
    mainDebugger curses p
    return true
  else
    return false

/-- The emulator, and what curses keeps. -/
structure Visible (η τ : Type) where
  machine : Machine (Station η τ)
  cycle : BitVec 32

/-- The emulator after a pass. -/
def mainAfterScreen (s : Setting η) (curses : Curses τ) (v : Visible η τ) (p : ScreenPass) :
    Visible η τ :=
  let r := outcome (mainPassScreen s curses v.cycle p) v.machine
  { machine := r.2, cycle := if r.1 then v.cycle + 1 else v.cycle }

/-- The emulator alone. -/
def Visible.emulator (v : Visible η τ) : Emulator η where
  machine := v.machine.view peripheralsLens
  cycle := v.cycle

def Visible.terminal (v : Visible η τ) : τ := v.machine.dev.terminal

/-- An emulator with the terminal that `console_init` leaves. -/
def Emulator.visible (e : Emulator η) (curses : Curses τ) : Visible η τ where
  machine :=
    { cpu := e.machine.cpu
      mem := e.machine.mem
      fe2010 := e.machine.fe2010
      dev := { peripherals := e.machine.dev, terminal := consoleInitScreen curses }
      log := e.machine.log }
  cycle := e.cycle

/-! ### The calls of a pass

They are given by the machine alone. -/

/-- The text page of the machine is drawn. -/
def Machine.draws (m : Machine (Peripherals η)) : ScreenCall := .draw m.mem m.dev.console

/-- A poll that is due draws behind the keyboard. -/
def pollCalls (s : Setting η) (cycle : BitVec 32) (input : CursesInput)
    (m : Machine (Peripherals η)) : List ScreenCall :=
  if cycle % 10000 = 0 then [(outcome (executeKeyboard s input) m).2.draws] else []

/-- `CPU_RELAX` draws at the entry of INT 16h. -/
def relaxCalls (m : Machine (Peripherals η)) : List ScreenCall :=
  if m.AtKeyboardService then [m.draws] else []

/-- The debugger takes the terminal, and gives it back unless it breaks again. -/
def debuggerCalls : Option Bool → List ScreenCall
  | none => []
  | some debuggerBreak => .pause :: if debuggerBreak = false then [.resume] else []

/-- The calls between `fe2010_execute` and the debugger. -/
def mainPolls (s : Setting η) (cycle : BitVec 32) (p : Pass) : M (Peripherals η) Unit := do
  (if cycle % 10000 = 0 then mainPoll s p.curses else pure ())
  mainTty s cycle p

/-- The calls of a pass of the loop. -/
def Emulator.screenCalls (s : Setting η) (e : Emulator η) (p : ScreenPass) : List ScreenCall :=
  let r := outcome (i8088Execute s.devices p.pass.eaddr p.pass.fuel) e.machine
  let m := (outcome fe2010Execute r.2).2
  if r.1 then
    pollCalls s e.cycle p.pass.curses m ++
      (relaxCalls (outcome (mainPolls s e.cycle p.pass) m).2 ++ debuggerCalls p.debugger)
  else []

/-- The calls of a run of the loop. -/
def Emulator.screenCallsAll (s : Setting η) : Emulator η → List ScreenPass → List ScreenCall
  | _, [] => []
  | e, p :: ps => e.screenCalls s p ++ (mainAfter s e p.pass).screenCallsAll s ps

/-! ### The loop on the machine and on the terminal -/

/-- The program does `g` to the machine without the terminal, and to the terminal the calls that
`calls` gives for this machine. -/
structure Beside (curses : Curses τ) (x : M (Station η τ) Unit)
    (g : Machine (Peripherals η) → Machine (Peripherals η))
    (calls : Machine (Peripherals η) → List ScreenCall) : Prop where
  machine : ∀ m, (outcome x m).2.view peripheralsLens = g (m.view peripheralsLens)
  terminal : ∀ m, (outcome x m).2.dev.terminal =
    runAll curses.perform m.dev.terminal (calls (m.view peripheralsLens))

namespace Beside

variable {curses : Curses τ} {x x' : M (Station η τ) Unit}
  {g g' : Machine (Peripherals η) → Machine (Peripherals η)}
  {calls calls' : Machine (Peripherals η) → List ScreenCall}

/-- What runs on the devices does not reach the terminal. -/
theorem devices (y : M (Peripherals η) Unit) :
    Beside curses (embed peripheralsLens y) (fun m => (outcome y m).2) fun _ => [] where
  machine m := get_zoom y m
  terminal _ := rfl

theorem nothing : Beside curses (pure () : M (Station η τ) Unit) (fun m => m) fun _ => [] where
  machine _ := rfl
  terminal _ := rfl

/-- What draws does not reach the devices. -/
theorem draw : Beside curses
    (embed screenLens (consoleExecuteScreen curses) : M (Station η τ) Unit) (fun m => m)
    fun m => [m.draws] where
  machine m := by
    rw [outcome_zoom, outcome_consoleExecuteScreen]
    rfl
  terminal m := by
    rw [outcome_zoom, outcome_consoleExecuteScreen]
    rfl

theorem pause : Beside curses (embed screenLens (consolePause curses) : M (Station η τ) Unit)
    (fun m => m) fun _ => [.pause] where
  machine _ := rfl
  terminal _ := rfl

theorem resume : Beside curses (embed screenLens (consoleResume curses) : M (Station η τ) Unit)
    (fun m => m) fun _ => [.resume] where
  machine _ := rfl
  terminal _ := rfl

/-- The calls of the second program are those for the machine behind the first. -/
theorem seq (h : Beside curses x g calls) (h' : Beside curses x' g' calls') :
    Beside curses (do x; x') (fun m => g' (g m)) fun m => calls m ++ calls' (g m) where
  machine m := by
    rw [outcome_bind, h'.machine, h.machine]
  terminal m := by
    rw [outcome_bind, h'.terminal, h.terminal, h.machine, runAll_append]

/-- What is called may depend on the machine. -/
theorem choose {P : Machine (Peripherals η) → Prop} [DecidablePred P] (h : Beside curses x g calls)
    (h' : Beside curses x' g calls') :
    Beside curses (do
        let m ← get
        if P (m.view peripheralsLens) then x else x')
      g fun m => if P m then calls m else calls' m where
  machine m := by
    rw [outcome_bind, outcome_get]
    dsimp only
    split
    · exact h.machine m
    · exact h'.machine m
  terminal m := by
    rw [outcome_bind, outcome_get]
    dsimp only
    -- the choice sees the machine without the terminal, so both make the same one
    split
    · exact h.terminal m
    · exact h'.terminal m

end Beside

section Pass

variable (s : Setting η) (curses : Curses τ)

/-- The poll draws the machine behind the keyboard. -/
theorem beside_poll (cycle : BitVec 32) (input : CursesInput) :
    Beside curses (if cycle % 10000 = 0 then mainPollScreen s curses input else pure ())
      (fun m => (outcome (if cycle % 10000 = 0 then mainPoll s input else pure ()) m).2)
      (pollCalls s cycle input) := by
  have hpoll : Beside curses (mainPollScreen s curses input)
      (fun m => (outcome (mainPoll s input) m).2)
      fun m => [(outcome (executeKeyboard s input) m).2.draws] :=
    (Beside.devices _).seq (Beside.draw.seq (.devices _))
  unfold pollCalls
  split
  · exact hpoll
  · exact .nothing

theorem beside_relax :
    Beside curses (mainRelax curses) (fun m : Machine (Peripherals η) => m) relaxCalls :=
  Beside.draw.choose (P := Machine.AtKeyboardService) .nothing

/-- Without the debugger no image is loaded. -/
theorem beside_debugger (p : ScreenPass) :
    Beside curses (mainDebugger curses p)
      (fun m : Machine (Peripherals η) => (outcome (debuggerLoads p.pass) m).2)
      fun _ => debuggerCalls p.debugger := by
  unfold mainDebugger
  cases hdebugger : p.debugger with
  | none =>
    -- no debugger, no image
    have hloads : debuggerLoads p.pass = (pure () : M (Peripherals η) Unit) := by
      unfold debuggerLoads
      rw [p.loads hdebugger]
      exact zoom_pure ()
    rw [hloads]
    exact .nothing
  | some debuggerBreak =>
    cases debuggerBreak with
    | false => exact Beside.pause.seq ((Beside.devices _).seq .resume)
    | true => exact Beside.pause.seq ((Beside.devices _).seq .nothing)

/-- The calls of a pass behind the instruction. -/
theorem beside_devices (cycle : BitVec 32) (p : ScreenPass) :
    Beside curses (do
        embed peripheralsLens fe2010Execute
        (if cycle % 10000 = 0 then mainPollScreen s curses p.pass.curses else pure ())
        embed peripheralsLens (mainTty s cycle p.pass)
        mainRelax curses
        mainDebugger curses p)
      (fun m => (outcome (do fe2010Execute; mainDevices s cycle p.pass) m).2)
      fun m =>
        let m := (outcome fe2010Execute m).2
        pollCalls s cycle p.pass.curses m ++
          (relaxCalls (outcome (mainPolls s cycle p.pass) m).2 ++ debuggerCalls p.debugger) :=
  (Beside.devices _).seq <| (beside_poll s curses cycle p.pass.curses).seq <|
    (Beside.devices _).seq <| (beside_relax curses).seq (beside_debugger curses p)

/-- **A pass with the screen** does to the machine what it does without, and to the terminal its
calls. -/
theorem mainAfterScreen_spec (v : Visible η τ) (p : ScreenPass) :
    (mainAfterScreen s curses v p).emulator = mainAfter s v.emulator p.pass ∧
      (mainAfterScreen s curses v p).terminal =
        runAll curses.perform v.terminal (v.emulator.screenCalls s p) := by
  obtain ⟨r, m₁, hexecute⟩ : ∃ r m₁, outcome (embed peripheralsLens
      (i8088Execute s.devices p.pass.eaddr p.pass.fuel)) v.machine = (r, m₁) := ⟨_, _, rfl⟩
  have hterminal : m₁.dev.terminal = v.terminal := by
    have hkept : (outcome (embed peripheralsLens
      (i8088Execute s.devices p.pass.eaddr p.pass.fuel)) v.machine).2.dev.terminal =
        v.machine.dev.terminal := rfl
    rw [hexecute] at hkept
    exact hkept
  -- the CPU does not see the terminal
  have hview : outcome (i8088Execute s.devices p.pass.eaddr p.pass.fuel) v.emulator.machine =
      (r, m₁.view peripheralsLens) := by
    have hreturns := congrArg Prod.fst hexecute
    have hmachine := get_zoom (l := Machine.lens peripheralsLens)
      (i8088Execute s.devices p.pass.eaddr p.pass.fuel) v.machine
    rw [hexecute] at hmachine
    exact Prod.ext hreturns hmachine.symm
  have hbehind := beside_devices s curses v.cycle p
  cases r with
  -- a call that does not return leaves the pass unfinished
  | false =>
    refine ⟨?_, ?_⟩
    · unfold mainAfterScreen mainAfter mainPassScreen mainPass
      rw [outcome_bind, outcome_bind, hexecute, hview]
      rfl
    · unfold mainAfterScreen mainPassScreen Emulator.screenCalls
      rw [outcome_bind, hexecute, hview]
      exact hterminal
  | true =>
    refine ⟨?_, ?_⟩
    · unfold mainAfterScreen mainAfter mainPassScreen mainPass
      rw [outcome_bind, outcome_bind, hexecute, hview]
      exact congrArg (fun m => Emulator.mk m (v.cycle + 1)) (hbehind.machine m₁)
    · unfold mainAfterScreen mainPassScreen Emulator.screenCalls
      rw [outcome_bind, hexecute, hview]
      exact (hbehind.terminal m₁).trans (by rw [hterminal]; rfl)

end Pass

/-- **A run with the screen** runs the machine as without, and makes the calls of its passes. -/
theorem runScreen_spec (s : Setting η) (curses : Curses τ) (v : Visible η τ)
    (ps : List ScreenPass) :
    (runAll (mainAfterScreen s curses) v ps).emulator =
        runAll (mainAfter s) v.emulator (ps.map ScreenPass.pass) ∧
      (runAll (mainAfterScreen s curses) v ps).terminal =
        runAll curses.perform v.terminal (v.emulator.screenCallsAll s ps) := by
  induction ps generalizing v with
  | nil => exact ⟨rfl, rfl⟩
  | cons p ps ih =>
    obtain ⟨hemulator, hterminal⟩ := mainAfterScreen_spec s curses v p
    -- the calls of the first pass come first
    obtain ⟨hmachine, hcalls⟩ := ih (mainAfterScreen s curses v p)
    rw [runAll_cons, List.map_cons, runAll_cons]
    refine ⟨?_, ?_⟩
    · rw [hmachine, hemulator]
    · rw [hcalls, hterminal, hemulator, ← runAll_append]
      rfl

/-- Curses with colours, in a window of 25 lines and 80 columns. The cursor goes to the place behind
a character that is added. -/
def plainCurses : Curses Terminal where
  initscr :=
    { lines := 25
      cols := 80
      colorPairs := 0
      pairs := fun _ => (colorWhite, colorBlack)
      rendition := .normal
      cell := fun _ _ => ⟨.char 0x20, .normal⟩
      cursor := (0, 0)
      shown := fun _ _ => ⟨.char 0x20, .normal⟩
      shownCursor := (0, 0)
      visual := true }
  hasColors := true
  startColor t := { t with colorPairs := 256 }
  initPair n fg bg t := t.initPair n fg bg
  attron a t := t.attron a
  attroff a t := t.attroff a
  mvaddch y x ch t :=
    let cursor :=
      if t.Inside y (x + 1) then (y, x + 1)
      else if t.Inside (y + 1) 0 then (y + 1, 0) else t.cursor
    { t.put y x ch with cursor := cursor }
  move y x t := t.move y x
  refresh t := t.refresh
  endwin t := t.endwin
  timeout _ t := t

theorem documented_plainCurses : plainCurses.Documented id where
  initscr := rfl
  startColor t := ⟨256, t.pairs, rfl⟩
  initPair _ _ _ _ := rfl
  attron _ _ := rfl
  attroff _ _ := rfl
  mvaddch _ _ _ _ _ := ⟨_, rfl⟩
  move _ _ _ := rfl
  refresh _ := rfl
  endwin _ := rfl
  timeout _ _ := rfl

/-- A pass without the debugger, and one in which the user continues from it. -/
def plainPass : ScreenPass := ⟨bytePass, none, fun _ => rfl⟩

def continuedPass : ScreenPass := ⟨bytePass, some false, fun _ => rfl⟩

end Pc20iii
