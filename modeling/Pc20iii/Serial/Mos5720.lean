import Pc20iii.Device.Access

/-!
# The MOS 5720

`mos5720.c`: the mode register, whose value selects the UART, and the registers of the
mouse. The functions behind the ports work on the chip's own state only; the UART lifts
them to its own (`Serial.I8250`).
-/

namespace Pc20iii

/-- `mos5720_t`, without the pointer to the chipset. -/
structure Mos5720 where
  mode : Byte
  mouseSignature : Byte
  mouseControl : Byte
  mouseData : Byte
deriving DecidableEq, Repr

/-- `FE2010_IRQ_MOUSE`. -/
def fe2010IrqMouse : Fin 8 := 2

/-- `mos5720_mode_read`. -/
def mos5720ModeRead (_port : Word) : Local Mos5720 Byte := fun x => (x.mode, x, [])

/-- `mos5720_mode_write`. -/
def mos5720ModeWrite (_port : Word) (value : Byte) : Local Mos5720 Unit := fun x =>
  ((), { x with mode := value }, [])

/-- `mos5720_reg_232_write`. -/
def mos5720Reg232Write (_port : Word) (value : Byte) : Local Mos5720 Unit := fun x =>
  -- the start of the BIOS detects the onboard mouse by this
  if value = 0x99 ∧ x.mode = 0x89 then ((), { x with mouseSignature := 0 }, [])
  else ((), x, [])

/-- `mos5720_mouse_read`. -/
def mos5720MouseRead (port : Word) : Local Mos5720 Byte := fun x =>
  match port with
  | 0x23C#16 => (x.mouseData, x, [])
  | 0x23D#16 => (x.mouseSignature, x, [])
  | 0x23E#16 =>
    let x := { x with mouseControl := if x.mouseControl = 0x07 then 0x0F else 0x07 }
    (x.mouseControl, x, [])
  | _ => (0xFF, x, [])

/-- `mos5720_mouse_write`. -/
def mos5720MouseWrite (port : Word) (value : Byte) : Local Mos5720 Unit := fun x =>
  match port with
  | 0x23D#16 => ((), { x with mouseSignature := value }, [])
  | _ => ((), x, [])

/-- `mos5720_uart_chip_select`. -/
def mos5720UartChipSelect (x : Mos5720) : Bool :=
  if x.mode = 0x89 then true -- Enabled by BIOS.
  else if x.mode = 0x81 then false -- Disabled by BIOS.
  else if x.mode = 0xD9 then true -- Enabled after boot.
  else false

/-- The read hooks of `mos5720_init`. -/
def mos5720Reads : Word → Option (Word → Local Mos5720 Byte)
  | 0x230#16 => some mos5720ModeRead
  | 0x23C#16 => some mos5720MouseRead
  | 0x23D#16 => some mos5720MouseRead
  | 0x23E#16 => some mos5720MouseRead
  | 0x23F#16 => some mos5720MouseRead
  | _ => none

/-- The write hooks of `mos5720_init`. -/
def mos5720Writes : Word → Option (Word → Byte → Local Mos5720 Unit)
  | 0x230#16 => some mos5720ModeWrite
  | 0x232#16 => some mos5720Reg232Write
  | 0x23C#16 => some mos5720MouseWrite
  | 0x23D#16 => some mos5720MouseWrite
  | 0x23E#16 => some mos5720MouseWrite
  | 0x23F#16 => some mos5720MouseWrite
  | _ => none

/-- The state of `mos5720_init`. -/
def mos5720Init : Mos5720 where
  mode := 0
  mouseSignature := 0
  mouseControl := 0
  mouseData := 0

end Pc20iii
