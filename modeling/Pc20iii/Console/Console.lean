import Pc20iii.Device.Access
import Pc20iii.Program.RingBuffer

/-!
# The console

`console.c`: the ports of the CGA adapter, and the keyboard, which makes scan codes of the keys
that curses reports.

The registers of the CRTC are an array of `UINT8_MAX` bytes, and the select register is a byte, so
that one of its values selects no register. What is read and written there is another variable,
which one the compiler decides; it is a parameter (`Neighbour`).

The state has a history: the keys that `getch` has given, and the scan codes that have been passed
to `fe2010_keyboard_press`, oldest first. No function reads it.
-/

namespace Pc20iii

open StateProgram

/-- `UINT8_MAX`. -/
def uint8Max : ℕ := 255

/-- `CONSOLE_SCANCODE_FIFO_SIZE`. -/
def consoleScancodeFifoSize : ℕ := 8

/-- The static variables of `console.c`. -/
structure Console where
  cgaMode : Byte
  crtcRegisterSelect : Byte
  crtcRegister : Fin uint8Max → Byte
  scancodeFifo : RingBuffer consoleScancodeFifoSize Byte
  /-- `toggle` of `cga_status_read`. -/
  toggle : Bool
  /-- `alt_toggle` of `console_execute_keyboard`. -/
  altToggle : Bool
  /-- The keys that have been read. -/
  keys : List ℤ
  /-- The scan codes that have been pressed. -/
  pressed : List Byte

/-- The cleared variables. -/
def consoleInit : Console where
  cgaMode := 0
  crtcRegisterSelect := 0
  crtcRegister := fun _ => 0
  scancodeFifo := { cells := fun _ => 0, head := 0, tail := 0 }
  toggle := false
  altToggle := false
  keys := []
  pressed := []

/-! ### Ports -/

/-- The byte behind the registers of the CRTC. -/
structure Neighbour where
  read : Console → Byte
  write : Byte → Console → Console

/-- `cga_status_read`. -/
def cgaStatusRead (_port : Word) : Local Console Byte := fun c =>
  if c.toggle then (0x00, { c with toggle := false }, [])
  else (0x09, { c with toggle := true }, [])

/-- `cga_mode_write`. -/
def cgaModeWrite (_port : Word) (value : Byte) : Local Console Unit := fun c =>
  ((), { c with cgaMode := value }, [])

/-- `cga_crtc_select_write`. -/
def cgaCrtcSelectWrite (_port : Word) (value : Byte) : Local Console Unit := fun c =>
  ((), { c with crtcRegisterSelect := value }, [])

/-- `cga_crtc_register_write`. -/
def cgaCrtcRegisterWrite (nb : Neighbour) (_port : Word) (value : Byte) : Local Console Unit :=
  fun c =>
    if h : c.crtcRegisterSelect.toNat < uint8Max then
      ((), { c with crtcRegister :=
                      Function.update c.crtcRegister ⟨c.crtcRegisterSelect.toNat, h⟩ value }, [])
    else ((), nb.write value c, [])

/-- `cga_crtc_register_read`. -/
def cgaCrtcRegisterRead (nb : Neighbour) (_port : Word) : Local Console Byte := fun c =>
  if h : c.crtcRegisterSelect.toNat < uint8Max then
    (c.crtcRegister ⟨c.crtcRegisterSelect.toNat, h⟩, c, [])
  else (nb.read c, c, [])

/-- The read hooks of `console_init`. -/
def consoleReads (nb : Neighbour) : Word → Option (ReadHook Console)
  | 0x3DA#16 => some fun port => runLocal (cgaStatusRead port)
  | 0x3D5#16 => some fun port => runLocal (cgaCrtcRegisterRead nb port)
  | _ => none

/-- The write hooks of `console_init`. -/
def consoleWrites (nb : Neighbour) : Word → Option (WriteHook Console)
  | 0x3D8#16 => some fun port value => runLocal (cgaModeWrite port value)
  | 0x3D4#16 => some fun port value => runLocal (cgaCrtcSelectWrite port value)
  | 0x3D5#16 => some fun port value => runLocal (cgaCrtcRegisterWrite nb port value)
  | _ => none

theorem consoleReads_generated {nb : Neighbour} {port : Word} {func : ReadHook Console}
    (h : consoleReads nb port = some func) (p : Word) : Generated DeviceAction (func p) := by
  unfold consoleReads at h
  split at h <;> cases h
  all_goals exact generated_runLocal _

theorem consoleWrites_generated {nb : Neighbour} {port : Word} {func : WriteHook Console}
    (h : consoleWrites nb port = some func) (p : Word) (v : Byte) :
    Generated DeviceAction (func p v) := by
  unfold consoleWrites at h
  split at h <;> cases h
  all_goals exact generated_runLocal _

/-- The console claims no port of the chipset. -/
theorem consoleReads_low (nb : Neighbour) (port : Word) (h : port < 0x100) :
    consoleReads nb port = none := by
  unfold consoleReads
  split <;> simp_all

theorem consoleWrites_low (nb : Neighbour) (port : Word) (h : port < 0x100) :
    consoleWrites nb port = none := by
  unfold consoleWrites
  split <;> simp_all

/-- The ports of the console. -/
def consoleDevices (nb : Neighbour) : Devices Console where
  read := consoleReads nb
  write := consoleWrites nb
  read_generated := consoleReads_generated
  write_generated := consoleWrites_generated
  read_low := consoleReads_low nb
  write_low := consoleWrites_low nb

end Pc20iii
