import Pc20iii.Fe2010.Chipset

/-!
# I/O ports

`io.c`, and the hooks that `fe2010_init` puts into the port table.

The devices behind the other ports are a parameter of the development. What the rest of
the source bears out of them is stated once, in the structure `Devices`: a hook works on
the rest of the machine only through `fe2010_irq`, the two DMA functions and
`fe2010_keyboard_press` (`DeviceAction`), and no device claims a port below 0x100.
-/

namespace Pc20iii

open StateProgram

variable {δ : Type}

/-- `io_read_hook_t.func`. -/
abbrev ReadHook (δ : Type) := Word → M δ Byte

/-- `io_write_hook_t.func`. -/
abbrev WriteHook (δ : Type) := Word → Byte → M δ Unit

/-! ### The ports of the chipset -/

/-- The read hooks of `fe2010_init`. -/
def fe2010Reads : Word → Option (ReadHook δ)
  | 0x60#16 => some fe2010ScancodeRead
  | 0x61#16 => some fe2010CtrlRead
  | 0x62#16 => some fe2010SwitchRead
  | 0x63#16 => some fe2010ConfRead
  | 0x08#16 => some i8237DmaStatusRead
  | 0x20#16 => some i8259IrqServiceRead
  | 0x21#16 => some i8259IrqMaskRead
  | 0x40#16 => some i8253PitCounterRead
  | 0x41#16 => some i8253PitCounterRead
  | 0x42#16 => some i8253PitCounterRead
  | port => if port ≤ 0x07 then some i8237DmaRegRead else none

/-- The write hooks of `fe2010_init`. -/
def fe2010Writes : Word → Option (WriteHook δ)
  | 0x61#16 => some fe2010CtrlWrite
  | 0x63#16 => some fe2010ConfWrite
  | 0x0B#16 => some i8237DmaModeWrite
  | 0x87#16 => some i8237DmaPageWrite
  | 0x83#16 => some i8237DmaPageWrite
  | 0x81#16 => some i8237DmaPageWrite
  | 0x82#16 => some i8237DmaPageWrite
  | 0x21#16 => some i8259IrqMaskWrite
  | 0xA0#16 => some i8259NmiMaskWrite
  | 0x40#16 => some i8253PitCounterWrite
  | 0x41#16 => some i8253PitCounterWrite
  | 0x42#16 => some i8253PitCounterWrite
  | 0x43#16 => some i8253PitControlWrite
  | port => if port ≤ 0x07 then some i8237DmaRegWrite else none

/-! ### The devices -/

/-- What a device does to the machine. -/
inductive DeviceAction : ∀ α : Type, M δ α → Prop
  /-- A hardware interrupt request. -/
  | irq (irqNo : Fin 8) : DeviceAction Unit (fe2010Irq irqNo)
  /-- A DMA transfer to memory. -/
  | dmaWrite (channelNo : Fin 4) (callback : Local δ Byte) :
      DeviceAction Unit (fe2010DmaWrite channelNo callback)
  /-- A DMA transfer from memory. -/
  | dmaRead (channelNo : Fin 4) (callback : Byte → Local δ Unit) :
      DeviceAction Unit (fe2010DmaRead channelNo callback)
  /-- A key. -/
  | keyboard (scancode : Byte) : DeviceAction Unit (fe2010KeyboardPress scancode)
  /-- Work on the device's own state. -/
  | own {α : Type} (f : Local δ α) : DeviceAction α (runLocal f)

/-- The hooks of the devices other than the chipset, each a program of device actions. -/
structure Devices (δ : Type) where
  read : Word → Option (ReadHook δ)
  write : Word → Option (WriteHook δ)
  read_generated : ∀ {port func}, read port = some func → ∀ p, Generated DeviceAction (func p)
  write_generated : ∀ {port func}, write port = some func → ∀ p v, Generated DeviceAction (func p v)
  read_low : ∀ port, port < 0x100 → read port = none
  write_low : ∀ port, port < 0x100 → write port = none

/-- A machine without further devices. -/
def Devices.none : Devices Unit where
  read := fun _ => .none
  write := fun _ => .none
  read_generated := nofun
  write_generated := nofun
  read_low := fun _ _ => rfl
  write_low := fun _ _ => rfl

/-- `io_read`. -/
def ioRead (io : Devices δ) (port : Word) : M δ Byte :=
  match (fe2010Reads port).or (io.read port) with
  | some func => func port
  | none => return 0xFF

/-- `io_write`. -/
def ioWrite (io : Devices δ) (port : Word) (value : Byte) : M δ Unit :=
  match (fe2010Writes port).or (io.write port) with
  | some func => func port value
  | none => return

/-- A write of port 0x21 sets the interrupt mask register. -/
@[simp] theorem outcome_ioWrite_irqMask (io : Devices δ) (value : Byte) (m : Machine δ) :
    outcome (ioWrite io 0x21 value) m =
      ((), { m with fe2010 := { m.fe2010 with irqMask := value } }) := by
  rfl

end Pc20iii
