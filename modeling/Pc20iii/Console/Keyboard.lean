import Pc20iii.Console.Console
import Pc20iii.System.Halt

/-!
# The keyboard

Each call of `console_execute_keyboard` gives the chipset one scan code. The first one of a key
is given as soon as curses reports the key; the others wait in a FIFO of eight cells, and curses
is not asked again before the FIFO is empty. The codes of a key come together so, between the
make and the break of its modifier (`keyGroup`).

A read of the FIFO gives 0 when it is empty, and 0 is also the scan code of a key that the table
does not have. If such a key has a modifier, the 0 is in the FIFO, where the next call takes it for
the end: it is dropped, and the next key comes before the modifier is released.
`pressed_keyGroups_iff` says that nothing else goes wrong. The crux is `keyboardKeeps`: as long as
no 0 has gone into the FIFO, a key finds it empty, so that its codes have room; and what is missing
once is missing at the end.
-/

namespace Pc20iii

open StateProgram

/-! ### The keys of curses -/

/-- `ERR`, which is `EOF` as well. -/
def err : ℤ := -1

def keyDown : ℤ := 258
def keyUp : ℤ := 259
def keyLeft : ℤ := 260
def keyRight : ℤ := 261
def keyHome : ℤ := 262
def keyBackspace : ℤ := 263

/-- `KEY_F`. -/
def keyF (n : ℤ) : ℤ := 264 + n

def keyNpage : ℤ := 338
def keyPpage : ℤ := 339
def keyEnd : ℤ := 360
def keyMouse : ℤ := 409

/-- A character as `getch` gives it. -/
def ascii (c : Char) : ℤ := c.toNat

/-- The buttons that a mouse event reports. -/
inductive ButtonState where
  | button1Pressed
  | button3Pressed
  | other

/-- What curses has: the key for `getch`, and the buttons for `getmouse`. -/
structure CursesInput where
  ch : ℤ
  bstate : ButtonState

/-- What the keyboard calls. -/
structure KeyboardHost where
  /-- What `isupper` gives for a value that is no character, which is not defined. -/
  isupperElse : ℤ → Bool
  /-- `mos5720_mouse_data`, for a chip that is not part of this machine. -/
  mos5720MouseData : Byte → M Console Unit

/-! ### Scan codes -/

/-- The cases of `console_xt_keyboard_scancode`. -/
def xtScancodes : List (ℤ × Byte) :=
  [(ascii '1', 0x02), (ascii '2', 0x03), (ascii '3', 0x04), (ascii '4', 0x05), (ascii '5', 0x06),
    (ascii '6', 0x07), (ascii '7', 0x08), (ascii '8', 0x09), (ascii '9', 0x0A), (ascii '0', 0x0B),
    (ascii 'a', 0x1E), (ascii 'b', 0x30), (ascii 'c', 0x2E), (ascii 'd', 0x20), (ascii 'e', 0x12),
    (ascii 'f', 0x21), (ascii 'g', 0x22), (ascii 'h', 0x23), (ascii 'i', 0x17), (ascii 'j', 0x24),
    (ascii 'k', 0x25), (ascii 'l', 0x26), (ascii 'm', 0x32), (ascii 'n', 0x31), (ascii 'o', 0x18),
    (ascii 'p', 0x19), (ascii 'q', 0x10), (ascii 'r', 0x13), (ascii 's', 0x1F), (ascii 't', 0x14),
    (ascii 'u', 0x16), (ascii 'v', 0x2F), (ascii 'w', 0x11), (ascii 'x', 0x2D), (ascii 'y', 0x15),
    (ascii 'z', 0x2C),
    (keyF 1, 0x3B), (keyF 2, 0x3C), (keyF 3, 0x3D), (keyF 4, 0x3E), (keyF 5, 0x3F),
    (keyF 6, 0x40), (keyF 7, 0x41), (keyF 8, 0x42), (keyF 9, 0x43), (keyF 10, 0x44),
    (keyBackspace, 0x0E), (keyUp, 0x48), (keyDown, 0x50), (keyLeft, 0x4B), (keyRight, 0x4D),
    (keyHome, 0x47), (keyEnd, 0x4F), (keyNpage, 0x51), (keyPpage, 0x49),
    -- the space, the quotation mark, the backslash, and the brackets by their numbers
    (0x20, 0x39), (ascii ',', 0x33), (ascii '-', 0x0C), (ascii '.', 0x34), (ascii '/', 0x35),
    (ascii ';', 0x27), (ascii '=', 0x0D), (0x5B, 0x1A), (0x27, 0x28), (0x5C, 0x2B),
    (0x0A, 0x1C), (0x09, 0x0F), (0x5D, 0x1B), (0x60, 0x29), (0x1B, 0x01),
    (ascii '!', 0x02), (ascii '@', 0x03), (ascii '#', 0x04), (ascii '$', 0x05), (ascii '%', 0x06),
    (ascii '^', 0x07), (ascii '&', 0x08), (ascii '*', 0x09), (0x28, 0x0A), (0x29, 0x0B),
    (ascii 'A', 0x1E), (ascii 'B', 0x30), (ascii 'C', 0x2E), (ascii 'D', 0x20), (ascii 'E', 0x12),
    (ascii 'F', 0x21), (ascii 'G', 0x22), (ascii 'H', 0x23), (ascii 'I', 0x17), (ascii 'J', 0x24),
    (ascii 'K', 0x25), (ascii 'L', 0x26), (ascii 'M', 0x32), (ascii 'N', 0x31), (ascii 'O', 0x18),
    (ascii 'P', 0x19), (ascii 'Q', 0x10), (ascii 'R', 0x13), (ascii 'S', 0x1F), (ascii 'T', 0x14),
    (ascii 'U', 0x16), (ascii 'V', 0x2F), (ascii 'W', 0x11), (ascii 'X', 0x2D), (ascii 'Y', 0x15),
    (ascii 'Z', 0x2C),
    (ascii '<', 0x33), (ascii '_', 0x0C), (ascii '>', 0x34), (ascii '?', 0x35), (ascii ':', 0x27),
    (ascii '+', 0x0D), (0x7B, 0x1A), (0x22, 0x28), (ascii '|', 0x2B), (0x7D, 0x1B),
    (ascii '~', 0x29),
    -- Ctrl-@ to Ctrl-Z, without Ctrl-H, Ctrl-I, Ctrl-J and Ctrl-M
    (0x00, 0x03), (0x01, 0x1E), (0x02, 0x30), (0x03, 0x2E), (0x04, 0x20), (0x05, 0x12),
    (0x06, 0x21), (0x07, 0x22), (0x0B, 0x25), (0x0C, 0x26), (0x0E, 0x31), (0x0F, 0x18),
    (0x10, 0x19), (0x11, 0x10), (0x12, 0x13), (0x13, 0x1F), (0x14, 0x14), (0x15, 0x16),
    (0x16, 0x2F), (0x17, 0x11), (0x18, 0x2D), (0x19, 0x15), (0x1A, 0x2C)]

/-- `console_xt_keyboard_scancode`. -/
def consoleXtKeyboardScancode (ch : ℤ) : Byte := (xtScancodes.lookup ch).getD 0

/-- `isupper` in the C locale, which the program does not leave. -/
def isupper (host : KeyboardHost) (ch : ℤ) : Bool :=
  if ch = err ∨ 0 ≤ ch ∧ ch ≤ uint8Max then decide (ascii 'A' ≤ ch ∧ ch ≤ ascii 'Z')
  else host.isupperElse ch

/-- The symbols that need Shift. -/
def shiftedSymbols : List ℤ :=
  [ascii '!', ascii '@', ascii '#', ascii '$', ascii '%', ascii '^', ascii '&', ascii '*', 0x28,
    0x29, ascii '<', ascii '_', ascii '>', ascii '?', ascii ':', ascii '+', 0x7B, 0x22, ascii '|',
    0x7D, ascii '~']

/-- `console_character_is_shifted`. -/
def consoleCharacterIsShifted (host : KeyboardHost) (ch : ℤ) : Bool :=
  if isupper host ch then true else decide (ch ∈ shiftedSymbols)

/-- `console_character_is_control`. -/
def consoleCharacterIsControl (ch : ℤ) : Bool :=
  if ch = 0x0D ∨ ch = 0x0A ∨ ch = 0x09 ∨ ch = 0x08 then false else decide (ch ≤ 0x1A)

/-! ### The calls -/

/-- `console_scancode_fifo_read`. -/
def consoleScancodeFifoRead : M Console Byte := runLocal fun c =>
  (c.scancodeFifo.pop.1.getD 0, { c with scancodeFifo := c.scancodeFifo.pop.2 }, [])

/-- `console_scancode_fifo_write`. -/
def consoleScancodeFifoWrite (scancode : Byte) : M Console Unit :=
  modifyDev fun c => { c with scancodeFifo := c.scancodeFifo.push scancode }

/-- `getch`, and the history of the keys. -/
def getch (ch : ℤ) : M Console ℤ := do
  if ch ≠ err then
    modifyDev fun c => { c with keys := c.keys ++ [ch] }
  return ch

/-- A call of `fe2010_keyboard_press`, and the history of the scan codes. -/
def keyboardPress (scancode : Byte) : M Console Unit := do
  modifyDev fun c => { c with pressed := c.pressed ++ [scancode] }
  fe2010KeyboardPress scancode

/-- `console_execute_keyboard`. -/
def consoleExecuteKeyboard (host : KeyboardHost) (input : CursesInput) : M Console Unit := do
  let scancode ← consoleScancodeFifoRead
  if scancode = 0 then
    let ch ← getch input.ch
    if ch = keyMouse then
      match input.bstate with
      | .button1Pressed => host.mos5720MouseData 0x60
      | .button3Pressed => host.mos5720MouseData 0xC0
      | .other => host.mos5720MouseData 0xE0
    else if ch ≠ err then
      if ch = keyF 12 then
        keyboardPress 0x1D
        consoleScancodeFifoWrite 0x46
        consoleScancodeFifoWrite 0xC6
        consoleScancodeFifoWrite 0x9D
      else if ch = keyF 11 then
        modifyDev fun c => { c with altToggle := true }
      else
        let scancode := consoleXtKeyboardScancode ch
        if consoleCharacterIsShifted host ch then
          keyboardPress 0x2A
          consoleScancodeFifoWrite scancode
          consoleScancodeFifoWrite (scancode + 0x80)
          consoleScancodeFifoWrite 0xAA
        else if consoleCharacterIsControl ch then
          keyboardPress 0x1D
          consoleScancodeFifoWrite scancode
          consoleScancodeFifoWrite (scancode + 0x80)
          consoleScancodeFifoWrite 0x9D
        else if (← getDev).altToggle then
          keyboardPress 0x38
          consoleScancodeFifoWrite scancode
          consoleScancodeFifoWrite (scancode + 0x80)
          consoleScancodeFifoWrite 0xB8
          modifyDev fun c => { c with altToggle := false }
        else
          keyboardPress scancode
          consoleScancodeFifoWrite (scancode + 0x80)
  else
    keyboardPress scancode

/-- What happens next, as the keyboard sees it. -/
inductive KeyboardStep where
  /-- A call, without a mouse event. -/
  | execute (input : CursesInput) (h : input.ch ≠ keyMouse)
  /-- Anything else: the rest of the machine becomes that of `m`. -/
  | other (m : Machine Console)

/-- The machine after a step. -/
def keyboardAfter (host : KeyboardHost) (m : Machine Console) : KeyboardStep → Machine Console
  | .execute input _ => (outcome (consoleExecuteKeyboard host input) m).2
  | .other m' => { m' with dev := m.dev }

/-- A call that finds no key. -/
def idle : KeyboardStep := .execute { ch := err, bstate := .other } (by decide)

/-- The machine after as many calls as empty the FIFO. -/
def emptied (host : KeyboardHost) (m : Machine Console) : Machine Console :=
  runAll (keyboardAfter host) m (List.replicate consoleScancodeFifoSize idle)

/-! ### What the keys mean -/

/-- The make code of the modifier of a key, with Alt toggled or not. -/
def modifierOf (host : KeyboardHost) (alt : Bool) (ch : ℤ) : Option Byte :=
  if ch = keyF 12 then some 0x1D
  else if consoleCharacterIsShifted host ch then some 0x2A
  else if consoleCharacterIsControl ch then some 0x1D
  else if alt then some 0x38
  else none

/-- The make code of a key. F12 is Ctrl and Scroll Lock. -/
def keyCode (ch : ℤ) : Byte := if ch = keyF 12 then 0x46 else consoleXtKeyboardScancode ch

/-- The scan codes of a key: its make and its break, between those of its modifier. F11 has none. -/
def keyGroup (host : KeyboardHost) (alt : Bool) (ch : ℤ) : List Byte :=
  if ch = keyF 11 then []
  else match modifierOf host alt ch with
    | some modifier => [modifier, keyCode ch, keyCode ch + 0x80, modifier + 0x80]
    | none => [keyCode ch, keyCode ch + 0x80]

/-- F11 toggles Alt, for the next key that has no modifier of its own. -/
def altAfter (host : KeyboardHost) (alt : Bool) (ch : ℤ) : Bool :=
  if ch = keyF 11 then true
  else alt && (ch = keyF 12 || consoleCharacterIsShifted host ch || consoleCharacterIsControl ch)

/-- The scan codes of some keys, one group for each. -/
def keyGroups (host : KeyboardHost) : Bool → List ℤ → List Byte
  | _, [] => []
  | alt, ch :: keys => keyGroup host alt ch ++ keyGroups host (altAfter host alt ch) keys

/-- The call finds the FIFO at its end, or at a 0. -/
def Console.Asks (c : Console) : Prop := c.scancodeFifo.pop.1.getD 0 = 0

instance (c : Console) : Decidable c.Asks := by
  unfold Console.Asks
  infer_instance

/-- If the step takes a key with a modifier, the key has a scan code. -/
def Coded (host : KeyboardHost) (m : Machine Console) : KeyboardStep → Prop
  | .execute input _ => m.dev.Asks → input.ch ≠ err → input.ch ≠ keyF 11 →
      modifierOf host m.dev.altToggle input.ch ≠ none → keyCode input.ch ≠ 0
  | .other _ => True

variable {host : KeyboardHost} {m : Machine Console}

/-! ### What a call does -/

/-- The console, with the oldest scan code out of the FIFO. -/
def Console.rest (c : Console) : Console := { c with scancodeFifo := c.scancodeFifo.pop.2 }

/-- A key has been taken: the first of its scan codes goes to the chipset, and the others into
the FIFO. -/
def Console.take (host : KeyboardHost) (ch : ℤ) (c : Console) : Console :=
  let group := keyGroup host c.altToggle ch
  { c with
    keys := c.keys ++ [ch]
    altToggle := altAfter host c.altToggle ch
    pressed := c.pressed ++ group.take 1
    scancodeFifo := (group.drop 1).foldl RingBuffer.push c.scancodeFifo }

@[simp] theorem dev_fe2010KeyboardPress (scancode : Byte) (m : Machine Console) :
    (outcome (fe2010KeyboardPress scancode) m).2.dev = m.dev := by
  rw [outcome_fe2010KeyboardPress]
  split
  · exact dev_fe2010Irq _ _
  · rfl

@[simp] theorem dev_keyboardPress (scancode : Byte) (m : Machine Console) :
    (outcome (keyboardPress scancode) m).2.dev =
      { m.dev with pressed := m.dev.pressed ++ [scancode] } := by
  rw [keyboardPress, outcome_bind, dev_fe2010KeyboardPress, outcome_modifyDev]

@[simp] theorem outcome_consoleScancodeFifoWrite (scancode : Byte) (m : Machine Console) :
    outcome (consoleScancodeFifoWrite scancode) m =
      ((), { m with dev := { m.dev with scancodeFifo := m.dev.scancodeFifo.push scancode } }) :=
  rfl

theorem outcome_getch {ch : ℤ} (h : ch ≠ err) (m : Machine Console) :
    outcome (getch ch) m = (ch, { m with dev := { m.dev with keys := m.dev.keys ++ [ch] } }) := by
  rw [getch, outcome_ite, if_pos h]
  rfl

/-- A queued scan code goes to the chipset. -/
theorem dev_of_not_asks (host : KeyboardHost) (input : CursesInput) (h : ¬m.dev.Asks) :
    (outcome (consoleExecuteKeyboard host input) m).2.dev =
      { m.dev.rest with pressed := m.dev.pressed ++ [m.dev.scancodeFifo.pop.1.getD 0] } := by
  have hread : ¬(outcome consoleScancodeFifoRead m).1 = 0 := h
  rw [consoleExecuteKeyboard, outcome_bind, outcome_ite, if_neg hread, dev_keyboardPress]
  rfl

/-- There is neither a queued scan code nor a key. -/
theorem dev_of_err (host : KeyboardHost) {input : CursesInput} (hasks : m.dev.Asks)
    (hch : input.ch = err) :
    (outcome (consoleExecuteKeyboard host input) m).2.dev = m.dev.rest := by
  have hread : (outcome consoleScancodeFifoRead m).1 = 0 := hasks
  rw [consoleExecuteKeyboard, outcome_bind, outcome_ite, if_pos hread, getch, hch]
  rfl

/-- A key is taken. -/
theorem dev_of_key (host : KeyboardHost) {input : CursesInput} (hasks : m.dev.Asks)
    (hmouse : input.ch ≠ keyMouse) (herr : input.ch ≠ err) :
    (outcome (consoleExecuteKeyboard host input) m).2.dev = m.dev.rest.take host input.ch := by
  have hread : (outcome consoleScancodeFifoRead m).1 = 0 := hasks
  rw [consoleExecuteKeyboard, outcome_bind, outcome_ite, if_pos hread, outcome_bind,
    outcome_getch herr, outcome_ite, if_neg hmouse, outcome_ite, if_pos herr]
  have hdev : (outcome consoleScancodeFifoRead m).2.dev = m.dev.rest := rfl
  generalize (outcome consoleScancodeFifoRead m).2 = n at hdev ⊢
  generalize input.ch = ch
  rw [← hdev, outcome_ite]
  -- the keys of the emulator itself come before the table
  by_cases hscroll : ch = keyF 12
  · simp [hscroll, Console.take, keyGroup, modifierOf, altAfter, keyCode, keyF]
  by_cases htoggle : ch = keyF 11
  · simp [htoggle, Console.take, keyGroup, altAfter, keyF]
  rw [if_neg hscroll, outcome_ite, if_neg htoggle]
  -- the modifiers in the order of the source
  cases hshifted : consoleCharacterIsShifted host ch with
  | true => simp [hscroll, htoggle, hshifted, Console.take, keyGroup, modifierOf, altAfter, keyCode]
  | false =>
  cases hcontrol : consoleCharacterIsControl ch with
  | true =>
    simp [hscroll, htoggle, hshifted, hcontrol, Console.take, keyGroup, modifierOf, altAfter,
      keyCode]
  | false =>
  cases halt : n.dev.altToggle with
  | true =>
    simp [hscroll, htoggle, hshifted, hcontrol, halt, Console.take, keyGroup, modifierOf, altAfter,
      keyCode]
  | false =>
    simp [hscroll, htoggle, hshifted, hcontrol, halt, Console.take, keyGroup, modifierOf, altAfter,
      keyCode]

/-! ### The FIFO -/

/-- What will have been pressed when the FIFO is empty. -/
def Console.due (c : Console) : List Byte := c.pressed ++ c.scancodeFifo.queued.filter (· ≠ 0)

/-- The FIFO has lost its oldest scan code, and nothing that is due has changed. -/
structure Console.Drained (c c' : Console) : Prop where
  keys : c'.keys = c.keys
  altToggle : c'.altToggle = c.altToggle
  due : c'.due = c.due
  wellFormed : c'.scancodeFifo.WellFormed
  queued : c'.scancodeFifo.queued = c.scancodeFifo.queued.tail

/-- A 0 at the end of the FIFO is not due. -/
theorem drained_rest {c : Console} (hfifo : c.scancodeFifo.WellFormed) (hasks : c.Asks) :
    c.Drained c.rest := by
  have hqueued : c.rest.scancodeFifo.queued = c.scancodeFifo.queued.tail :=
    RingBuffer.queued_pop_snd hfifo
  refine ⟨rfl, rfl, ?_, hfifo.pop, hqueued⟩
  rw [Console.Asks, RingBuffer.pop_fst hfifo] at hasks
  rw [Console.due, Console.due, hqueued]
  -- nothing is queued, or a 0, which is taken as nothing
  cases h : c.scancodeFifo.queued with
  | nil => rfl
  | cons b queued =>
    rw [h] at hasks
    have hzero : b = 0 := hasks
    rw [List.tail_cons, hzero, List.filter_cons_of_neg (by decide)]
    rfl

/-- A scan code that is taken from the FIFO is pressed, and is due no longer. -/
theorem drained_pressed {c : Console} (hfifo : c.scancodeFifo.WellFormed) (hasks : ¬c.Asks) :
    c.Drained { c.rest with pressed := c.pressed ++ [c.scancodeFifo.pop.1.getD 0] } := by
  have hqueued : c.rest.scancodeFifo.queued = c.scancodeFifo.queued.tail :=
    RingBuffer.queued_pop_snd hfifo
  refine ⟨rfl, rfl, ?_, hfifo.pop, hqueued⟩
  rw [Console.Asks, RingBuffer.pop_fst hfifo] at hasks
  show (c.pressed ++ [c.scancodeFifo.pop.1.getD 0]) ++ c.rest.scancodeFifo.queued.filter _ = c.due
  rw [Console.due, hqueued, RingBuffer.pop_fst hfifo]
  cases h : c.scancodeFifo.queued with
  | nil =>
    rw [h] at hasks
    exact absurd rfl hasks
  | cons b queued =>
    rw [h] at hasks
    have hcode : b ≠ 0 := hasks
    rw [List.filter_cons, if_pos (decide_eq_true hcode), List.append_assoc]
    rfl

/-- A call without a key takes one scan code out of the FIFO. -/
theorem drained_idle (host : KeyboardHost) (hfifo : m.dev.scancodeFifo.WellFormed) :
    m.dev.Drained (keyboardAfter host m idle).dev := by
  by_cases hasks : m.dev.Asks
  · have hdev : (keyboardAfter host m idle).dev = _ := dev_of_err host hasks rfl
    rw [hdev]
    exact drained_rest hfifo hasks
  · have hdev : (keyboardAfter host m idle).dev = _ := dev_of_not_asks host _ hasks
    rw [hdev]
    exact drained_pressed hfifo hasks

/-- A FIFO of `n` codes is empty after `n` calls without a key. -/
theorem pressed_idles (host : KeyboardHost) {n : ℕ} (hfifo : m.dev.scancodeFifo.WellFormed)
    (hlength : m.dev.scancodeFifo.queued.length ≤ n) :
    (runAll (keyboardAfter host) m (List.replicate n idle)).dev.pressed = m.dev.due := by
  induction n generalizing m with
  | zero =>
    have hempty := List.eq_nil_of_length_eq_zero (Nat.le_zero.mp hlength)
    rw [Console.due, hempty]
    exact (List.append_nil _).symm
  | succ n ih =>
    -- each call takes one scan code, so as many calls as there are codes empty the FIFO
    have hstep := drained_idle host hfifo
    rw [List.replicate_succ, runAll_cons, ih hstep.wellFormed, hstep.due]
    rw [hstep.queued, List.length_tail]
    omega

/-- The calls that empty the FIFO press what is due. -/
theorem pressed_emptied (host : KeyboardHost) (hfifo : m.dev.scancodeFifo.WellFormed) :
    (emptied host m).dev.pressed = m.dev.due := by
  rw [emptied, pressed_idles host hfifo]
  rw [RingBuffer.length_queued]
  exact Nat.le_of_lt (RingBuffer.length_lt hfifo)

/-! ### The groups -/

/-- A scan code of the table is a make code. -/
theorem consoleXtKeyboardScancode_lt (ch : ℤ) : consoleXtKeyboardScancode ch < 0x80 := by
  -- the table is checked entry by entry, and a key outside it has code 0
  have htable : ∀ entry ∈ xtScancodes, entry.2 < 0x80 := by decide +kernel
  rw [consoleXtKeyboardScancode]
  cases h : xtScancodes.lookup ch with
  | none => exact (by decide : (0 : Byte) < 0x80)
  | some code =>
    obtain ⟨before, after, hsplit, -⟩ := List.lookup_eq_some_iff.mp h
    exact htable (ch, code) (hsplit ▸ List.mem_append_right _ List.mem_cons_self)

theorem keyGroups_append (host : KeyboardHost) (alt : Bool) (keys : List ℤ) (ch : ℤ) :
    keyGroups host alt (keys ++ [ch]) =
      keyGroups host alt keys ++ keyGroup host (keys.foldl (altAfter host) alt) ch := by
  induction keys generalizing alt with
  | nil => exact List.append_nil _
  | cons key keys ih =>
    rw [List.cons_append, keyGroups, keyGroups, ih, List.append_assoc, List.foldl_cons]

theorem length_keyGroup_le (host : KeyboardHost) (alt : Bool) (ch : ℤ) :
    (keyGroup host alt ch).length ≤ 4 := by
  unfold keyGroup
  split
  · exact Nat.zero_le _
  · split
    · exact Nat.le_refl _
    · exact (by decide : 2 ≤ 4)

/-- The break of a modifier is not 0. -/
theorem modifierOf_break {alt : Bool} {ch : ℤ} {modifier : Byte}
    (h : modifierOf host alt ch = some modifier) : modifier + 0x80 ≠ 0 := by
  unfold modifierOf at h
  split_ifs at h <;> cases h <;> decide

theorem keyCode_break (ch : ℤ) : keyCode ch + 0x80 ≠ 0 := by
  have hlt : keyCode ch < 0x80 := by
    unfold keyCode
    split
    · decide
    · exact consoleXtKeyboardScancode_lt ch
  intro hzero
  bv_omega

/-- Behind the first scan code of a group, a 0 is the make of a key without a scan code. -/
theorem zero_mem_keyGroup {alt : Bool} {ch : ℤ} :
    0 ∈ (keyGroup host alt ch).drop 1 ↔
      ch ≠ keyF 11 ∧ modifierOf host alt ch ≠ none ∧ keyCode ch = 0 := by
  have hbreak := keyCode_break ch
  unfold keyGroup
  split
  case isTrue htoggle => exact iff_of_false List.not_mem_nil fun h => h.1 htoggle
  case isFalse htoggle =>
    cases hmodifier : modifierOf host alt ch with
    | none =>
      refine iff_of_false (fun hmem => hbreak ?_) fun h => h.2.1 rfl
      exact (List.mem_singleton.mp hmem).symm
    | some modifier =>
      -- releases are never 0, so only the make can be
      have hrelease := modifierOf_break hmodifier
      constructor
      · intro hmem
        have hcode : 0 ∈ [keyCode ch, keyCode ch + 0x80, modifier + 0x80] := hmem
        rcases List.mem_cons.mp hcode with hmake | hrest
        · exact ⟨htoggle, nofun, hmake.symm⟩
        · rcases List.mem_cons.mp hrest with hzero | hlast
          · exact absurd hzero.symm hbreak
          · exact absurd (List.mem_singleton.mp hlast).symm hrelease
      · rintro ⟨-, -, hmake⟩
        exact List.mem_cons.mpr (.inl hmake.symm)

/-- A host where `isupper` is false for a value that is no character. -/
def plainHost : KeyboardHost where
  isupperElse := fun _ => false
  mos5720MouseData := fun _ => return ()

/-- Every character that needs Shift or Ctrl has a scan code: one that has none is pressed with a
modifier only when Alt is toggled. -/
theorem keyCode_of_modifier (host : KeyboardHost) {ch : ℤ} (hchar : 0 ≤ ch ∧ ch ≤ uint8Max)
    (h : modifierOf host false ch ≠ none) : keyCode ch ≠ 0 := by
  have htable : ∀ n < uint8Max + 1, modifierOf plainHost false (n : ℕ) ≠ none →
      keyCode (n : ℕ) ≠ 0 := by decide +kernel
  have hupper : isupper host ch = isupper plainHost ch := by
    rw [isupper, if_pos (Or.inr hchar), isupper, if_pos (Or.inr hchar)]
  -- without Alt a modifier depends on the character alone
  have hsame : modifierOf host false ch = modifierOf plainHost false ch := by
    rw [modifierOf, consoleCharacterIsShifted, hupper]
    rfl
  lift ch to ℕ using hchar.1
  have hlt : ch < uint8Max + 1 := Nat.lt_succ_of_le (Int.ofNat_le.mp hchar.2)
  exact htable ch hlt (hsame ▸ h)

/-! ### Runs -/

/-- The indices of the FIFO are right, and so is the Alt toggle. -/
structure Console.Sound (host : KeyboardHost) (c : Console) : Prop where
  wellFormed : c.scancodeFifo.WellFormed
  altToggle : c.altToggle = c.keys.foldl (altAfter host) false

/-- The groups of the keys are due, and no 0 is among what waits. -/
structure Console.Kept (host : KeyboardHost) (c : Console) : Prop where
  due : c.due = keyGroups host false c.keys
  zero : 0 ∉ c.scancodeFifo.queued

/-- Less is due than the groups of the keys. -/
def Console.Lost (host : KeyboardHost) (c : Console) : Prop :=
  c.due.length < (keyGroups host false c.keys).length

/-- A key adds no more than its group to what is due, without a 0. -/
theorem length_due_take_le {c : Console} (host : KeyboardHost) (ch : ℤ)
    (hfifo : c.scancodeFifo.WellFormed) :
    (c.take host ch).due.length ≤ c.due.length + ((keyGroup host c.altToggle ch).take 1).length +
      (((keyGroup host c.altToggle ch).drop 1).filter (· ≠ 0)).length := by
  have hqueued : (c.take host ch).scancodeFifo.queued = _ := RingBuffer.queued_foldl_push hfifo _
  -- the codes that the FIFO has no room for are not due
  have hroom := ((List.take_sublist (consoleScancodeFifoSize - 1 - c.scancodeFifo.length)
    ((keyGroup host c.altToggle ch).drop 1)).filter (· ≠ 0)).length_le
  have hpressed : (c.take host ch).pressed =
    c.pressed ++ (keyGroup host c.altToggle ch).take 1 := rfl
  rw [Console.due, Console.due, hqueued, hpressed, List.filter_append, List.length_append,
    List.length_append, List.length_append, List.length_append]
  omega

theorem groups_take (host : KeyboardHost) {c : Console} (hsound : c.Sound host) (ch : ℤ) :
    keyGroups host false (c.take host ch).keys =
      keyGroups host false c.keys ++ keyGroup host c.altToggle ch := by
  rw [hsound.altToggle]
  exact keyGroups_append host false c.keys ch

theorem Console.Sound.take {c : Console} (hsound : c.Sound host) (ch : ℤ) :
    (c.take host ch).Sound host := by
  refine ⟨hsound.wellFormed.foldl_push _, ?_⟩
  show altAfter host c.altToggle ch = (c.keys ++ [ch]).foldl (altAfter host) false
  rw [List.foldl_append, ← hsound.altToggle]
  rfl

theorem Console.Lost.take {c : Console} (hsound : c.Sound host) (hlost : c.Lost host) (ch : ℤ) :
    (c.take host ch).Lost host := by
  have hdue := length_due_take_le host ch hsound.wellFormed
  have hfilter := List.length_filter_le (· ≠ 0) ((keyGroup host c.altToggle ch).drop 1)
  have hgroup := congrArg List.length (List.take_append_drop 1 (keyGroup host c.altToggle ch))
  unfold Console.Lost at hlost ⊢
  rw [groups_take host hsound, List.length_append]
  rw [List.length_append] at hgroup
  omega

/-- A 0 in the FIFO is lost. -/
theorem lost_take_of_zero {c : Console} (hsound : c.Sound host) (hkept : c.Kept host) {ch : ℤ}
    (hzero : 0 ∈ (keyGroup host c.altToggle ch).drop 1) : (c.take host ch).Lost host := by
  have hdue := length_due_take_le host ch hsound.wellFormed
  -- the 0 is taken for an empty FIFO when it is read, and never pressed
  have hfilter : (((keyGroup host c.altToggle ch).drop 1).filter (· ≠ 0)).length <
      ((keyGroup host c.altToggle ch).drop 1).length :=
    List.length_filter_lt_length_iff_exists.mpr ⟨0, hzero, by decide⟩
  have hgroup := congrArg List.length (List.take_append_drop 1 (keyGroup host c.altToggle ch))
  unfold Console.Lost
  rw [groups_take host hsound, List.length_append, ← hkept.due]
  rw [List.length_append] at hgroup
  omega

/-- A key that finds the FIFO empty has room for its scan codes. -/
theorem kept_take {c : Console} (hsound : c.Sound host) (hkept : c.Kept host)
    (hempty : c.scancodeFifo.queued = []) {ch : ℤ}
    (hcodes : 0 ∉ (keyGroup host c.altToggle ch).drop 1) : (c.take host ch).Kept host := by
  have hlength : c.scancodeFifo.length = 0 := by
    rw [← RingBuffer.length_queued, hempty, List.length_nil]
  -- a group without its first code is shorter than the FIFO
  have hroom : ((keyGroup host c.altToggle ch).drop 1).length ≤ 7 := by
    have hgroup := length_keyGroup_le host c.altToggle ch
    rw [List.length_drop]
    omega
  have hqueued : (c.take host ch).scancodeFifo.queued = (keyGroup host c.altToggle ch).drop 1 := by
    refine (RingBuffer.queued_foldl_push hsound.wellFormed _).trans ?_
    rw [hempty, hlength, List.nil_append]
    exact List.take_of_length_le hroom
  -- no code is 0, so each of them is going to be read
  have hfilter : ((keyGroup host c.altToggle ch).drop 1).filter (· ≠ 0) =
      (keyGroup host c.altToggle ch).drop 1 :=
    List.filter_eq_self.mpr fun b hb => decide_eq_true (ne_of_mem_of_not_mem hb hcodes)
  have hdue : c.due = c.pressed := by
    rw [Console.due, hempty]
    exact List.append_nil _
  refine ⟨?_, hqueued ▸ hcodes⟩
  calc (c.take host ch).due
      = c.pressed ++ (keyGroup host c.altToggle ch).take 1 ++
          (keyGroup host c.altToggle ch).drop 1 := by
        rw [Console.due, hqueued, hfilter]
        rfl
    _ = c.due ++ keyGroup host c.altToggle ch := by
        rw [List.append_assoc, List.take_append_drop, hdue]
    _ = keyGroups host false (c.take host ch).keys := by
        rw [hkept.due, groups_take host hsound]

namespace Console.Drained

variable {c c' : Console} (h : c.Drained c')
include h

theorem sound (hsound : c.Sound host) : c'.Sound host :=
  ⟨h.wellFormed, by rw [h.altToggle, h.keys, hsound.altToggle]⟩

theorem kept (hkept : c.Kept host) : c'.Kept host := by
  refine ⟨by rw [h.due, h.keys, hkept.due], ?_⟩
  rw [h.queued]
  exact fun hzero => hkept.zero (List.mem_of_mem_tail hzero)

theorem lost (hlost : c.Lost host) : c'.Lost host := by
  unfold Console.Lost
  rw [h.due, h.keys]
  exact hlost

end Console.Drained

/-- What a call does, in the terms of what is due: it takes a scan code out of the FIFO, or a key
as well. -/
theorem drained_or_take (host : KeyboardHost) {input : CursesInput} (h : input.ch ≠ keyMouse)
    (hfifo : m.dev.scancodeFifo.WellFormed) :
    (¬(m.dev.Asks ∧ input.ch ≠ err) ∧
      m.dev.Drained (keyboardAfter host m (.execute input h)).dev) ∨
    (m.dev.Asks ∧ input.ch ≠ err ∧
      (keyboardAfter host m (.execute input h)).dev = m.dev.rest.take host input.ch) := by
  show _ ∧ m.dev.Drained (outcome (consoleExecuteKeyboard host input) m).2.dev ∨
    _ ∧ _ ∧ (outcome (consoleExecuteKeyboard host input) m).2.dev = _
  -- curses is asked for a key only when the FIFO has no scan code
  by_cases hasks : m.dev.Asks
  · by_cases herr : input.ch = err
    · refine .inl ⟨fun hkey => hkey.2 herr, ?_⟩
      rw [dev_of_err host hasks herr]
      exact drained_rest hfifo hasks
    · exact .inr ⟨hasks, herr, dev_of_key host hasks h herr⟩
  · refine .inl ⟨fun hkey => hasks hkey.1, ?_⟩
    rw [dev_of_not_asks host input hasks]
    exact drained_pressed hfifo hasks

/-- If no 0 waits, a call asks for a key only when nothing waits. -/
theorem rest_queued_of_kept (hsound : m.dev.Sound host) (hkept : m.dev.Kept host)
    (hasks : m.dev.Asks) : m.dev.rest.scancodeFifo.queued = [] := by
  rw [Console.Asks, RingBuffer.pop_fst hsound.wellFormed] at hasks
  have hzero := hkept.zero
  have hqueued : m.dev.rest.scancodeFifo.queued = _ := RingBuffer.queued_pop_snd hsound.wellFormed
  rw [hqueued]
  cases hfifo : m.dev.scancodeFifo.queued with
  | nil => rfl
  | cons b queued =>
    rw [hfifo] at hasks hzero
    have hhead : b = 0 := hasks
    exact absurd (hhead ▸ List.mem_cons_self) hzero

/-- What a step keeps or loses. -/
structure KeyboardKeeps (host : KeyboardHost) (m : Machine Console) (a : KeyboardStep) : Prop where
  sound : (keyboardAfter host m a).dev.Sound host
  lost : m.dev.Lost host → (keyboardAfter host m a).dev.Lost host
  kept : m.dev.Kept host → Coded host m a → (keyboardAfter host m a).dev.Kept host
  lost_of_not_coded : m.dev.Kept host → ¬Coded host m a →
    (keyboardAfter host m a).dev.Lost host

/-- What is lost stays lost, and what is kept stays kept exactly when the key that is taken has a
scan code. -/
theorem keyboardKeeps (hsound : m.dev.Sound host) (a : KeyboardStep) : KeyboardKeeps host m a := by
  cases a with
  | other m' => exact ⟨hsound, id, fun hkept _ => hkept, fun _ h => absurd trivial h⟩
  | execute input hmouse =>
    rcases drained_or_take host hmouse hsound.wellFormed with
      ⟨hnokey, hstep⟩ | ⟨hasks, herr, hstep⟩
    -- no key is taken, so none can lack a code
    · have hcoded : Coded host m (.execute input hmouse) :=
        fun hasks herr => absurd ⟨hasks, herr⟩ hnokey
      exact ⟨hstep.sound hsound, hstep.lost, fun hkept _ => hstep.kept hkept,
        fun _ h => absurd hcoded h⟩
    · -- the FIFO ran empty and a key came
      have hrest := drained_rest hsound.wellFormed hasks
      have hsound' := hrest.sound hsound
      have hcoded : Coded host m (.execute input hmouse) ↔
          0 ∉ (keyGroup host m.dev.rest.altToggle input.ch).drop 1 := by
        rw [zero_mem_keyGroup, not_and, not_and]
        exact ⟨fun h => h hasks herr, fun h _ _ => h⟩
      refine ⟨?_, fun hlost => ?_, fun hkept h => ?_, fun hkept h => ?_⟩ <;> rw [hstep]
      · exact hsound'.take input.ch
      · exact (hrest.lost hlost).take hsound' input.ch
      · exact kept_take hsound' (hrest.kept hkept) (rest_queued_of_kept hsound hkept hasks)
          (hcoded.mp h)
      · exact lost_take_of_zero hsound' (hrest.kept hkept) (not_not.mp (mt hcoded.mpr h))

/-- The invariant of all runs: the groups of the keys are due, or something is missing. -/
structure KeyboardInv (host : KeyboardHost) (m : Machine Console) : Prop where
  sound : m.dev.Sound host
  kept_or_lost : m.dev.Kept host ∨ m.dev.Lost host

theorem not_lost_of_kept {c : Console} (hkept : c.Kept host) : ¬c.Lost host := by
  intro hlost
  unfold Console.Lost at hlost
  rw [hkept.due] at hlost
  exact Nat.lt_irrefl _ hlost

/-- Either all codes are kept or one is lost for good, and a key without a code loses one. -/
theorem keyboardInv_step (h : KeyboardInv host m) (a : KeyboardStep) :
    KeyboardInv host (keyboardAfter host m a) ∧
      ((keyboardAfter host m a).dev.Kept host ↔ m.dev.Kept host ∧ Coded host m a) := by
  have hstep := keyboardKeeps h.sound a
  rcases h.kept_or_lost with hkept | hlost
  · by_cases hcoded : Coded host m a
    · have hkept' := hstep.kept hkept hcoded
      exact ⟨⟨hstep.sound, .inl hkept'⟩, iff_of_true hkept' ⟨hkept, hcoded⟩⟩
    · have hlost' := hstep.lost_of_not_coded hkept hcoded
      exact ⟨⟨hstep.sound, .inr hlost'⟩,
        iff_of_false (fun hkept' => not_lost_of_kept hkept' hlost') fun h => hcoded h.2⟩
  -- what is lost stays lost
  · have hlost' := hstep.lost hlost
    exact ⟨⟨hstep.sound, .inr hlost'⟩, iff_of_false
      (fun hkept' => not_lost_of_kept hkept' hlost') fun h => not_lost_of_kept h.1 hlost⟩

/-- The scan codes that have been pressed, once the FIFO is empty, are the groups of the keys. -/
def AllPressed (host : KeyboardHost) (m : Machine Console) : Prop :=
  (emptied host m).dev.pressed = keyGroups host false m.dev.keys

theorem allPressed_iff (h : KeyboardInv host m) : AllPressed host m ↔ m.dev.Kept host := by
  unfold AllPressed
  rw [pressed_emptied host h.sound.wellFormed]
  constructor
  · intro hdue
    refine h.kept_or_lost.resolve_right fun hlost => ?_
    unfold Console.Lost at hlost
    rw [hdue] at hlost
    exact Nat.lt_irrefl _ hlost
  · exact Console.Kept.due

/-- The machine before the first call. -/
def consoleStart (m : Machine Console) : Machine Console := { m with dev := consoleInit }

theorem sound_consoleInit (host : KeyboardHost) : consoleInit.Sound host :=
  ⟨⟨by decide, by decide⟩, rfl⟩

theorem kept_consoleInit (host : KeyboardHost) : consoleInit.Kept host :=
  ⟨rfl, (List.not_mem_nil : (0 : Byte) ∉ [])⟩

/-- **The scan codes of the keys.** In every run, the scan codes that are pressed are the groups of
the keys, in their order, exactly when each key that is taken with a modifier has a scan code. -/
theorem pressed_keyGroups_iff (host : KeyboardHost) (m : Machine Console)
    (as : List KeyboardStep) :
    AllPressed host (runAll (keyboardAfter host) (consoleStart m) as) ↔
      Along (keyboardAfter host) (Coded host) (consoleStart m) as := by
  -- at the start nothing is due
  have hkept := kept_consoleInit host
  have hstart : KeyboardInv host (consoleStart m) := ⟨sound_consoleInit host, .inl hkept⟩
  have hI : ∀ n a, KeyboardInv host n → KeyboardInv host (keyboardAfter host n a) :=
    fun _ a h => (keyboardInv_step h a).1
  have hQ : ∀ n a, KeyboardInv host n →
      ((keyboardAfter host n a).dev.Kept host ↔ n.dev.Kept host ∧ Coded host n a) :=
    fun _ a h => (keyboardInv_step h a).2
  calc AllPressed host (runAll (keyboardAfter host) (consoleStart m) as)
      ↔ (runAll (keyboardAfter host) (consoleStart m) as).dev.Kept host :=
        allPressed_iff (runAll_invariant hI hstart as)
    _ ↔ (consoleStart m).dev.Kept host ∧
          Along (keyboardAfter host) (Coded host) (consoleStart m) as :=
        runAll_iff (Q := fun n => n.dev.Kept host) hI hQ hstart as
    _ ↔ Along (keyboardAfter host) (Coded host) (consoleStart m) as := and_iff_right hkept

/-- A call that finds a key. -/
def pressKey (ch : ℤ) (h : ch ≠ keyMouse) : KeyboardStep :=
  .execute { ch := ch, bstate := .other } h

/-- `KEY_DC`. -/
def keyDc : ℤ := 330

/-- F11, the Delete key, and `a`. -/
def altDelete : List KeyboardStep :=
  [pressKey (keyF 11) (by decide), pressKey keyDc (by decide), pressKey (ascii 'a') (by decide)]

/-- The codes of `a` come before the release of Alt: what is pressed is 38, 1E, 80, B8, 9E. -/
theorem alt_key_interleaved : ¬ ∀ (host : KeyboardHost) (m : Machine Console)
    (as : List KeyboardStep),
    AllPressed host (runAll (keyboardAfter host) (consoleStart m) as) := by
  intro h
  have hpressed : _ = _ := h plainHost (machineInit consoleInit) altDelete
  exact absurd hpressed (by decide)

end Pc20iii
