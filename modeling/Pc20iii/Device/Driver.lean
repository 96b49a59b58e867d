import Pc20iii.Fe2010.Dma
import Pc20iii.Program.Interleave

/-!
# Drivers

A driver is a list of accesses to ports. While it works the rest of the machine works as well: the
timer ticks, interrupts are entered, other devices are served. What these do between two accesses
of the driver is a relation on machines, of which only what the driver needs is asked.

`ensures_dmaScript` is the part that drivers of disks have in common: six writes program a channel
of the DMA controller, if the byte flip-flop is clear before them and the surroundings leave the
flip-flop and the channel alone. The flip-flop is then clear again.
-/

namespace Pc20iii

open StateProgram

variable {δ : Type}

/-- An access of a driver to a port. -/
inductive PortStep where
  | read (port : Word)
  | write (port : Word) (value : Byte)

/-- The machine after an access. -/
def Devices.driven (io : Devices δ) (m : Machine δ) : PortStep → Machine δ
  | .read port => (outcome (ioRead io port) m).2
  | .write port value => (outcome (ioWrite io port value) m).2

/-- Above the ports of the chipset an access is one to the device. -/
theorem driven_read (io : Devices δ) (m : Machine δ) {port : Word}
    (h : (fe2010Reads port : Option (ReadHook δ)) = none) :
    io.driven m (.read port) = io.after m (.read port) := by
  unfold Devices.driven ioRead Devices.after
  dsimp only
  rw [h, Option.none_or]
  cases io.read port <;> rfl

theorem driven_write (io : Devices δ) (m : Machine δ) {port : Word} (value : Byte)
    (h : (fe2010Writes port : Option (WriteHook δ)) = none) :
    io.driven m (.write port value) = io.after m (.write port value) := by
  unfold Devices.driven ioWrite Devices.after
  dsimp only
  rw [h, Option.none_or]
  cases io.write port <;> rfl

/-! ### A channel of the DMA controller -/

/-- What a channel is programmed to. -/
@[ext] structure DmaChannel where
  page : Byte
  start : Word
  count : Word
  transfer : Byte

namespace Fe2010

/-- The registers of a channel. -/
def channel (f : Fe2010) (n : Fin 4) : DmaChannel :=
  ⟨f.dmaPage n, f.dmaStart n, f.dmaCount n, f.dmaTransfer n⟩

end Fe2010

/-- The port of the page register of a channel. -/
def dmaPagePort (n : Fin 4) : Word := [0x87, 0x83, 0x81, 0x82].getD n 0

/-- The ports of the address register and of the count register of a channel. -/
def dmaStartPort (n : Fin 4) : Word := BitVec.ofNat 16 (n * 2)

def dmaCountPort (n : Fin 4) : Word := BitVec.ofNat 16 (n * 2 + 1)

/-- The mode register: single transfers of the channel in a direction. -/
def dmaModeByte (n : Fin 4) (transfer : Byte) : Byte :=
  0x40 ||| ((transfer &&& 0x3) <<< 2) ||| BitVec.ofNat 8 n

/-- The six writes that program a channel. -/
def dmaScript (n : Fin 4) (c : DmaChannel) : List PortStep :=
  [.write (dmaPagePort n) c.page, .write 0x0B (dmaModeByte n c.transfer),
    .write (dmaStartPort n) (lowByte c.start), .write (dmaStartPort n) (highByte c.start),
    .write (dmaCountPort n) (lowByte c.count), .write (dmaCountPort n) (highByte c.count)]

/-- A machine with other registers of the chipset. -/
def Machine.withChipset (m : Machine δ) (f : Fe2010) : Machine δ := { m with fe2010 := f }

theorem dmaChannel_cases : ∀ n : Fin 4, n = 0 ∨ n = 1 ∨ n = 2 ∨ n = 3 := by
  decide

section Writes

variable (io : Devices δ) (m : Machine δ) (n : Fin 4) (v : Byte)

theorem driven_dmaPage : io.driven m (.write (dmaPagePort n) v) =
    m.withChipset { m.fe2010 with dmaPage := Function.update m.fe2010.dmaPage n v } := by
  rcases dmaChannel_cases n with rfl | rfl | rfl | rfl <;> rfl

theorem driven_dmaMode (transfer : Byte) :
    io.driven m (.write 0x0B (dmaModeByte n transfer)) =
      m.withChipset { m.fe2010 with
        dmaMode := Function.update m.fe2010.dmaMode n (dmaModeByte n transfer &&& 0xFC) } := by
  have hselect : Fin.ofNat 4 (dmaModeByte n transfer).toNat = n := by
    revert n transfer
    decide +kernel
  change m.withChipset { m.fe2010 with
    dmaMode := Function.update m.fe2010.dmaMode (Fin.ofNat 4 (dmaModeByte n transfer).toNat) _ } = _
  rw [hselect]

/-- A write of one of the eight registers, as the flip-flop directs it. -/
def Fe2010.dmaRegWritten (f : Fe2010) (i : Fin 8) (v : Byte) : Fe2010 :=
  if f.dmaFlipFlop then
    { f with
      dmaFlipFlop := false
      dmaReg := Function.update f.dmaReg i (f.dmaReg i + v.setWidth 16 * 0x100) }
  else
    { f with
      dmaFlipFlop := true
      dmaReg := Function.update f.dmaReg i (v.setWidth 16) }

theorem outcome_i8237DmaRegWrite (port : Word) :
    (outcome (i8237DmaRegWrite port v) m).2 =
      m.withChipset (m.fe2010.dmaRegWritten (dmaIndex port) v) := by
  simp only [i8237DmaRegWrite, outcome_bind, outcome_get, outcome_ite, outcome_modifyFe2010,
    Fe2010.dmaRegWritten]
  split <;> rfl

theorem driven_dmaStart : io.driven m (.write (dmaStartPort n) v) =
    m.withChipset (m.fe2010.dmaRegWritten (Fin.ofNat 8 (n * 2)) v) := by
  rcases dmaChannel_cases n with rfl | rfl | rfl | rfl <;> exact outcome_i8237DmaRegWrite m v _

theorem driven_dmaCount : io.driven m (.write (dmaCountPort n) v) =
    m.withChipset (m.fe2010.dmaRegWritten (Fin.ofNat 8 (n * 2 + 1)) v) := by
  rcases dmaChannel_cases n with rfl | rfl | rfl | rfl <;> exact outcome_i8237DmaRegWrite m v _

end Writes

/-! ### Programming a channel -/

namespace Fe2010

variable (f : Fe2010) (n : Fin 4) (v : Byte)

theorem channel_dmaPage :
    { f with dmaPage := Function.update f.dmaPage n v }.channel n =
      { f.channel n with page := v } :=
  DmaChannel.ext (Function.update_self ..) rfl rfl rfl

theorem channel_dmaMode :
    { f with dmaMode := Function.update f.dmaMode n v }.channel n =
      { f.channel n with transfer := (v >>> 2) &&& 0x3 } := by
  refine DmaChannel.ext rfl rfl rfl ?_
  change (Function.update f.dmaMode n v n >>> 2) &&& 0x3 = _
  rw [Function.update_self]

theorem dmaRegs_ne : Fin.ofNat 8 (n.val * 2) ≠ Fin.ofNat 8 (n.val * 2 + 1) := by
  revert n
  decide

variable {f}

/-- The address register takes the low byte first. -/
theorem channel_dmaStart_low (h : f.dmaFlipFlop = false) :
    (f.dmaRegWritten (Fin.ofNat 8 (n * 2)) v).channel n =
      { f.channel n with start := v.setWidth 16 } := by
  unfold dmaRegWritten
  rw [if_neg (by simp [h])]
  exact DmaChannel.ext rfl (Function.update_self ..)
    (Function.update_of_ne (dmaRegs_ne n).symm ..) rfl

theorem channel_dmaStart_high (h : f.dmaFlipFlop = true) :
    (f.dmaRegWritten (Fin.ofNat 8 (n * 2)) v).channel n =
      { f.channel n with start := (f.channel n).start + v.setWidth 16 * 0x100 } := by
  unfold dmaRegWritten
  rw [if_pos h]
  exact DmaChannel.ext rfl (Function.update_self ..)
    (Function.update_of_ne (dmaRegs_ne n).symm ..) rfl

/-- So does the count register. -/
theorem channel_dmaCount_low (h : f.dmaFlipFlop = false) :
    (f.dmaRegWritten (Fin.ofNat 8 (n * 2 + 1)) v).channel n =
      { f.channel n with count := v.setWidth 16 } := by
  unfold dmaRegWritten
  rw [if_neg (by simp [h])]
  exact DmaChannel.ext rfl (Function.update_of_ne (dmaRegs_ne n) ..)
    (Function.update_self ..) rfl

theorem channel_dmaCount_high (h : f.dmaFlipFlop = true) :
    (f.dmaRegWritten (Fin.ofNat 8 (n * 2 + 1)) v).channel n =
      { f.channel n with count := (f.channel n).count + v.setWidth 16 * 0x100 } := by
  unfold dmaRegWritten
  rw [if_pos h]
  exact DmaChannel.ext rfl (Function.update_of_ne (dmaRegs_ne n) ..)
    (Function.update_self ..) rfl

theorem dmaFlipFlop_dmaRegWritten (i : Fin 8) :
    (f.dmaRegWritten i v).dmaFlipFlop = !f.dmaFlipFlop := by
  unfold dmaRegWritten
  split
  · next h => rw [h]; rfl
  · next h => rw [Bool.not_eq_true _ |>.mp h]; rfl

theorem irqMask_dmaRegWritten (i : Fin 8) : (f.dmaRegWritten i v).irqMask = f.irqMask := by
  unfold dmaRegWritten
  split <;> rfl

end Fe2010

theorem dmaModeByte_transfer (n : Fin 4) {transfer : Byte} (h : transfer &&& 0x3 = transfer) :
    (((dmaModeByte n transfer &&& 0xFC) >>> 2) &&& 0x3) = transfer := by
  revert n transfer
  decide +kernel

/-- The surroundings leave a channel and the flip-flop alone. -/
def KeepsChannel (n : Fin 4) (m m' : Machine δ) : Prop :=
  m'.fe2010.dmaFlipFlop = m.fe2010.dmaFlipFlop ∧ m'.fe2010.channel n = m.fe2010.channel n

/-- What is said of the machine does not depend on the DMA controller. -/
def ApartFromDma (J : Machine δ → Prop) : Prop :=
  ∀ (m : Machine δ) (f : Fe2010), f.irqMask = m.fe2010.irqMask → J m → J (m.withChipset f)

/-- The flip-flop and the channel in the middle of the script. -/
structure Programming (J : Machine δ → Prop) (n : Fin 4) (flipFlop : Bool)
    (P : DmaChannel → Prop) (m : Machine δ) : Prop where
  rest : J m
  flipFlop : m.fe2010.dmaFlipFlop = flipFlop
  channel : P (m.fe2010.channel n)

section Programming

variable {io : Devices δ} {rely : Machine δ → Machine δ → Prop} {J : Machine δ → Prop}
  {n : Fin 4} {flipFlop : Bool} {P Q : DmaChannel → Prop}

theorem stable_programming (hrely : ∀ m m', rely m m' → KeepsChannel n m m')
    (hJ : Stable rely J) : Stable rely (Programming J n flipFlop P) := by
  intro m m' h hm
  obtain ⟨hflipFlop, hchannel⟩ := hrely m m' h
  exact ⟨hJ m m' h hm.rest, hflipFlop.trans hm.flipFlop, hchannel ▸ hm.channel⟩

/-- A write that the DMA controller takes in. -/
theorem Programming.written (hapart : ApartFromDma J) {m : Machine δ} {f : Fe2010}
    (hm : Programming J n flipFlop P m) {flipFlop' : Bool} (hirqMask : f.irqMask = m.fe2010.irqMask)
    (hflipFlop : f.dmaFlipFlop = flipFlop') (hchannel : Q (f.channel n)) :
    Programming J n flipFlop' Q (m.withChipset f) :=
  ⟨hapart m f hirqMask hm.rest, hflipFlop, hchannel⟩

/-- **Programming a channel.** With the flip-flop clear the script leads to the channel that it is
for, and the flip-flop is clear again. -/
theorem ensures_dmaScript (hrely : ∀ m m', rely m m' → KeepsChannel n m m')
    (hJ : Stable rely J) (hapart : ApartFromDma J) {c : DmaChannel}
    (hc : c.transfer &&& 0x3 = c.transfer) :
    Ensures io.driven rely (Programming J n false fun _ => True) (dmaScript n c)
      (Programming J n false (· = c)) := by
  have hstable : ∀ {flipFlop P}, Stable rely (Programming J n flipFlop P) :=
    stable_programming hrely hJ
  -- what each write adds to what the ones before it have programmed
  refine .cons (R := Programming J n false fun x => x.page = c.page) hstable ?page <|
    .cons (R := Programming J n false fun x => x.page = c.page ∧ x.transfer = c.transfer)
      hstable ?mode <|
    .cons (R := Programming J n true fun x => (x.page = c.page ∧ x.transfer = c.transfer) ∧
      x.start = (lowByte c.start).setWidth 16) hstable ?startLow <|
    .cons (R := Programming J n false fun x => (x.page = c.page ∧ x.transfer = c.transfer) ∧
      x.start = c.start) hstable ?startHigh <|
    .cons (R := Programming J n true fun x => ((x.page = c.page ∧ x.transfer = c.transfer) ∧
      x.start = c.start) ∧ x.count = (lowByte c.count).setWidth 16) hstable ?countLow <|
    .cons hstable ?countHigh (.nil hstable)
  all_goals intro m hm
  case page =>
    rw [driven_dmaPage]
    refine hm.written hapart rfl hm.flipFlop ?_
    rw [Fe2010.channel_dmaPage]
  case mode =>
    rw [driven_dmaMode]
    refine hm.written hapart rfl hm.flipFlop ?_
    rw [Fe2010.channel_dmaMode, dmaModeByte_transfer n hc]
    exact ⟨hm.channel, rfl⟩
  case startLow =>
    rw [driven_dmaStart]
    refine hm.written hapart (Fe2010.irqMask_dmaRegWritten ..) ?_ ?_
    · rw [Fe2010.dmaFlipFlop_dmaRegWritten, hm.flipFlop]
      rfl
    · rw [Fe2010.channel_dmaStart_low n _ hm.flipFlop]
      exact ⟨hm.channel, rfl⟩
  case startHigh =>
    rw [driven_dmaStart]
    refine hm.written hapart (Fe2010.irqMask_dmaRegWritten ..) ?_ ?_
    · rw [Fe2010.dmaFlipFlop_dmaRegWritten, hm.flipFlop]
      rfl
    · -- the high byte is added to the low one
      rw [Fe2010.channel_dmaStart_high n _ hm.flipFlop, hm.channel.2]
      exact ⟨hm.channel.1, wordOf_lowByte_highByte c.start⟩
  case countLow =>
    rw [driven_dmaCount]
    refine hm.written hapart (Fe2010.irqMask_dmaRegWritten ..) ?_ ?_
    · rw [Fe2010.dmaFlipFlop_dmaRegWritten, hm.flipFlop]
      rfl
    · rw [Fe2010.channel_dmaCount_low n _ hm.flipFlop]
      exact ⟨hm.channel, rfl⟩
  case countHigh =>
    rw [driven_dmaCount]
    refine hm.written hapart (Fe2010.irqMask_dmaRegWritten ..) ?_ ?_
    · rw [Fe2010.dmaFlipFlop_dmaRegWritten, hm.flipFlop]
      rfl
    · rw [Fe2010.channel_dmaCount_high n _ hm.flipFlop, hm.channel.2]
      obtain ⟨⟨⟨hpage, htransfer⟩, hstart⟩, -⟩ := hm.channel
      exact DmaChannel.ext hpage hstart (wordOf_lowByte_highByte c.count) htransfer

end Programming

end Pc20iii
