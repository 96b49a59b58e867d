import Pc20iii.Clock.M6242
import Pc20iii.Console.Keyboard
import Pc20iii.Disk.Fdc9268Phase
import Pc20iii.Disk.Xthdc
import Pc20iii.Net.Dp8390
import Pc20iii.Serial.Transmit
import Pc20iii.System.Bus
import Pc20iii.System.Protection

/-!
# The whole emulator

`main.c`: the devices put together behind one port table, and the loop that runs the CPU, the
chipset and the devices.

The environment is in the arguments of a pass (`Pass`): the key that curses reports, the byte that
arrives from the TTY, and the floppy images that the user loads in the debugger. What the host
answers to the network, and when the calls of the TTY fail, is in the states of these devices.
The calls of the screen, which change nothing of this, are added in `Pc20iii.System.Display`: those
of every 10000th pass, those of the part under `CPU_RELAX`, which the Makefile defines, and those
around the debugger. The wait of `CPU_RELAX` for a key has no effect, and is left out.

* `mainPass`: one pass of the loop.
* `mainStart`: the machine that the loop starts with, unless an image cannot be loaded.
* `mainRun_run`: a run of the loop is a run of the machine.
-/

namespace Pc20iii

open StateProgram

-- Instance search follows the syntax of the functions below.
set_option synthInstance.maxSize 1000

variable {η : Type}

/-! ### The machine -/

/-- The static variables of `main.c`, beside those of the machine. -/
structure Peripherals (η : Type) where
  /-- `i8250`, and `mos5720`, which it points to. -/
  serial : I8250
  fdc9268 : Fdc9268
  m6242 : M6242
  /-- `dp8390`, and `net`, which it points to. -/
  dp8390 : Dp8390 η
  xthdc : Xthdc
  /-- The static variables of `console.c`. -/
  console : Console

namespace Peripherals

def serialLens : Lens (Peripherals η) I8250 where
  get p := p.serial
  set x p := { p with serial := x }
  get_set _ _ := rfl
  set_get _ := rfl
  set_set _ _ _ := rfl

def fdc9268Lens : Lens (Peripherals η) Fdc9268 where
  get p := p.fdc9268
  set x p := { p with fdc9268 := x }
  get_set _ _ := rfl
  set_get _ := rfl
  set_set _ _ _ := rfl

def m6242Lens : Lens (Peripherals η) M6242 where
  get p := p.m6242
  set x p := { p with m6242 := x }
  get_set _ _ := rfl
  set_get _ := rfl
  set_set _ _ _ := rfl

def dp8390Lens : Lens (Peripherals η) (Dp8390 η) where
  get p := p.dp8390
  set x p := { p with dp8390 := x }
  get_set _ _ := rfl
  set_get _ := rfl
  set_set _ _ _ := rfl

def xthdcLens : Lens (Peripherals η) Xthdc where
  get p := p.xthdc
  set x p := { p with xthdc := x }
  get_set _ _ := rfl
  set_get _ := rfl
  set_set _ _ _ := rfl

def consoleLens : Lens (Peripherals η) Console where
  get p := p.console
  set x p := { p with console := x }
  get_set _ _ := rfl
  set_get _ := rfl
  set_set _ _ _ := rfl

end Peripherals

open Peripherals

/-- What does not change while the emulator runs: the options, and what is outside the source. -/
structure Setting (η : Type) where
  /-- A TTY is given. -/
  tty : Bool
  /-- A hard disk image is given. -/
  hardDisk : Bool
  host : Host η
  /-- What `isupper` gives for a value that is no character. -/
  isupperElse : ℤ → Bool
  neighbour : Neighbour

namespace Setting

variable (s : Setting η)

/-- The port table. Of two calls that fill it the later one comes first. -/
def devices : Devices (Peripherals η) :=
  ((xthdcDevices.embed xthdcLens).on fun _ => s.hardDisk).or <|
    ((consoleDevices s.neighbour).embed consoleLens).or <|
      -- the ports of the UART are only there with a TTY
      ((serialDevices.embed serialLens).on fun port => s.tty || decide (port < 0x3F8)).or <|
        ((dp8390Devices s.host).embed dp8390Lens).or <|
          (m6242Devices.embed m6242Lens).or (fdcDevices.embed fdc9268Lens)

/-- What the keyboard calls on its own piece; the mouse is another one's. -/
def keyboard : KeyboardHost where
  isupperElse := s.isupperElse
  mos5720MouseData _ := pure ()

end Setting

/-! ### The loop -/

/-- The arguments of `mos5720_mouse_data`. -/
def mouseData : ButtonState → Byte
  | .button1Pressed => 0x60
  | .button3Pressed => 0xC0
  | .other => 0xE0

instance (c : Console) : Decidable c.Asks := inferInstanceAs (Decidable (_ = _))

/-- `console_execute_keyboard`. A mouse event is looked at when the FIFO has no scan code. -/
def executeKeyboard (s : Setting η) (input : CursesInput) : M (Peripherals η) Unit := do
  let asks := decide (← getDev).console.Asks
  embed consoleLens (consoleExecuteKeyboard s.keyboard input)
  if asks ∧ input.ch = keyMouse then
    embed serialLens (mos5720MouseData (mouseData input.bstate))

/-- What comes from outside in a pass of the loop. -/
structure Pass where
  /-- The local variable of `i8088_execute` that no assignment has reached. -/
  eaddr : Word
  /-- The fuel of `i8088_execute`. -/
  fuel : ℕ
  curses : CursesInput
  /-- What `poll` and `read` give of the TTY. -/
  received : Option Byte
  /-- The images that the user loads in the debugger, by drive and contents. -/
  loads : List (Fin 2 × Option (List Byte))

/-- The commands `a` and `b` of the debugger. -/
def debuggerLoad (load : Fin 2 × Option (List Byte)) : M Fdc9268 Unit :=
  modifyDev fun x => (fdc9268ImageLoad (load.1.castLE (by decide)) load.2 0 x).2

/-- The calls of every 10000th pass. -/
def mainPoll (s : Setting η) (input : CursesInput) : M (Peripherals η) Unit := do
  executeKeyboard s input
  embed dp8390Lens do
    runLan (netExecute s.host)
    dp8390Execute

/-- The calls of a pass behind that of `fe2010_execute`. -/
def mainDevices (s : Setting η) (cycle : BitVec 32) (p : Pass) : M (Peripherals η) Unit := do
  (if cycle % 10000 = 0 then mainPoll s p.curses else pure ())
  (if s.tty ∧ cycle % 100 = 0 then embed serialLens (i8250Execute p.received) else pure ())
  embed fdc9268Lens (p.loads.forM debuggerLoad)

/-- A pass of the loop of `main`; the result says whether `i8088_execute` has returned. -/
def mainPass (s : Setting η) (cycle : BitVec 32) (p : Pass) : M (Peripherals η) Bool := do
  if ← i8088Execute s.devices p.eaddr p.fuel then
    fe2010Execute
    mainDevices s cycle p
    return true
  else
    return false

/-- The machine, and the local variable `cycle` of `main`. -/
structure Emulator (η : Type) where
  machine : Machine (Peripherals η)
  cycle : BitVec 32

/-- The emulator after a pass. A pass in which `i8088_execute` does not return is the last one of
`main`; the states behind it are states of no run, and covered as well. -/
def mainAfter (s : Setting η) (e : Emulator η) (p : Pass) : Emulator η :=
  let r := outcome (mainPass s e.cycle p) e.machine
  { machine := r.2, cycle := if r.1 then e.cycle + 1 else e.cycle }

/-! ### The start -/

/-- The files that the options name, with what `fopen` and `fgetc` give, and the environment of
the devices. -/
structure Boot (η : Type) where
  rom : Option (List Byte)
  romAddress : BitVec 32
  floppyA : Option (Option (List Byte))
  floppyB : Option (Option (List Byte))
  spt : ℤ
  hardDisk : Option (Option (List Byte))
  /-- Which calls of `tcgetattr` and `tcsetattr` fail. -/
  ttyFails : ℕ → Bool
  clock : ℕ → LocalTime
  edfs : Edfs
  host : η

/-- The call of `fdc9268_image_load` for an option. -/
def loadFloppy (ds : Fin 4) (image : Option (Option (List Byte))) (spt : ℤ) (x : Fdc9268) :
    Option Fdc9268 :=
  match image with
  | none => some x
  | some file =>
    let r := fdc9268ImageLoad ds file spt x
    if r.1 = 0 then some r.2 else none

/-- The calls of `xthdc_init` and `xthdc_image_load`. -/
def loadDisk (image : Option (Option (List Byte))) : Option Xthdc :=
  match image with
  | none => some xthdcInit
  | some file =>
    let r := xthdcImageLoad file xthdcInit
    if r.1 = 0 then some r.2 else none

/-- `main` up to the loop; `none` when it returns `EXIT_FAILURE`. -/
def mainStart (b : Boot η) : Option (Emulator η) := do
  let rom := memLoadRom b.rom b.romAddress memInit
  if rom.1 ≠ 0 then none
  let fdc ← loadFloppy 0 b.floppyA b.spt fdc9268Init
  let fdc ← loadFloppy 1 b.floppyB b.spt fdc
  let disk ← loadDisk b.hardDisk
  let m := machineInit
    { serial := i8250Init b.ttyFails
      fdc9268 := fdc
      m6242 := m6242Init b.clock
      dp8390 := dp8390Init (lanInit b.edfs b.host)
      xthdc := disk
      console := consoleInit }
  return { machine := (outcome i8088Reset { m with mem := rom.2 }).2, cycle := 0 }

/-! ### Runs of the loop -/

section Run

variable (s : Setting η)

instance generated_keyboardPress (scancode : Byte) :
    Generated DeviceAction (keyboardPress scancode) :=
  .seq _ _ (generated_modifyDev _) fun _ => .action _ (.keyboard scancode)

instance generated_consoleScancodeFifoRead : Generated DeviceAction consoleScancodeFifoRead :=
  generated_runLocal _

instance generated_consoleScancodeFifoWrite (scancode : Byte) :
    Generated DeviceAction (consoleScancodeFifoWrite scancode) :=
  generated_modifyDev _

instance generated_getch (ch : ℤ) : Generated DeviceAction (getch ch) := by
  unfold getch
  infer_instance

theorem generated_consoleExecuteKeyboard (input : CursesInput) :
    Generated DeviceAction (consoleExecuteKeyboard s.keyboard input) := by
  unfold consoleExecuteKeyboard Setting.keyboard
  refine .seq _ _ inferInstance fun scancode => .ite (.seq _ _ inferInstance fun ch => ?_) ?_
  · refine .ite ?_ ?_
    · split <;> infer_instance
    · dsimp only
      infer_instance
  · infer_instance

theorem generated_i8250Execute (received : Option Byte) :
    Generated DeviceAction (i8250Execute received) := by
  unfold i8250Execute
  cases received with
  | none => infer_instance
  | some byte =>
    unfold i8250Receive
    infer_instance

/-- The keyboard and the mouse do what a device can do. -/
theorem generated_executeKeyboard (input : CursesInput) :
    Generated DeviceAction (executeKeyboard s input) := by
  have hconsole : Generated DeviceAction
      (embed consoleLens (consoleExecuteKeyboard s.keyboard input) : M (Peripherals η) Unit) :=
    generated_embed _ (generated_consoleExecuteKeyboard s input)
  have hmouse : Generated DeviceAction
      (embed serialLens (mos5720MouseData (mouseData input.bstate)) : M (Peripherals η) Unit) := by
    refine generated_embed _ ?_
    unfold mos5720MouseData
    infer_instance
  unfold executeKeyboard
  infer_instance

/-- What a pass does behind the CPU is what devices can do. -/
theorem generated_mainDevices (cycle : BitVec 32) (p : Pass) :
    Generated DeviceAction (mainDevices s cycle p) := by
  have hkeyboard := generated_executeKeyboard s p.curses
  have hnet : Generated DeviceAction (embed dp8390Lens (do
      runLan (netExecute s.host)
      dp8390Execute) : M (Peripherals η) Unit) :=
    generated_embed _ inferInstance
  have huart : Generated DeviceAction
      (embed serialLens (i8250Execute p.received) : M (Peripherals η) Unit) :=
    generated_embed _ (generated_i8250Execute p.received)
  have hloads : Generated DeviceAction
      (embed fdc9268Lens (p.loads.forM debuggerLoad) : M (Peripherals η) Unit) :=
    generated_embed _ (.forM fun load _ => generated_modifyDev _)
  unfold mainDevices mainPoll
  infer_instance

/-- A pass is an instruction, a poll of the chipset and work of the devices. -/
theorem mainPass_run (cycle : BitVec 32) (p : Pass) (m : Machine (Peripherals η)) :
    Run s.devices m (outcome (mainPass s cycle p) m).2 := by
  have hcpu : Run s.devices m (outcome (i8088Execute s.devices p.eaddr p.fuel) m).2 :=
    .single (.execute p.eaddr p.fuel m fun _ _ => trivial)
  unfold mainPass
  rw [outcome_bind, outcome_ite]
  split
  · refine hcpu.trans (.head (.chipset _) (.single ?_))
    exact .device (generated_mainDevices s cycle p) _
  · exact hcpu

/-- **A run of the loop is a run of the machine.** -/
theorem mainRun_run (e : Emulator η) (ps : List Pass) :
    Run s.devices e.machine (runAll (mainAfter s) e ps).machine := by
  induction ps generalizing e with
  | nil => exact .refl
  | cons p ps ih => exact (mainPass_run s e.cycle p e.machine).trans (ih (mainAfter s e p))

end Run

end Pc20iii
