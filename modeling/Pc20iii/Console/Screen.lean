import Pc20iii.Console.Console
import Pc20iii.Console.Curses

/-!
# The screen

`console_execute_screen` of `console.c`, which draws the text page of the CGA adapter with curses,
and `console_pause` and `console_resume`, between which the terminal is the debugger's.

* `TextPage`: what the adapter would show, read from the memory and the registers.
* `Terminal.ShowsPage`: the terminal shows a page, as far as the page fits into its window.
* `outcome_consoleExecuteScreen`: a call changes nothing but the terminal.
* `paints_drawCells`: the loop paints the cells of the page in order. What carries it is that no
  attribute is on between two cells.
* `drawPage_shows`: behind a call the terminal shows the page, and is ready for the next one.
* `ready_consoleInitScreen`: `console_init` leaves it ready for the first one.
* `Display.Agrees.perform`: the terminal follows the `Display` through draws, pauses and
  resumptions. While it is not the debugger's, it shows the page that was drawn last.
-/

namespace Pc20iii

open StateProgram

/-! ### The source -/

/-- `console_color_map`. -/
def consoleColorMap : Fin 8 → Color
  | 0 => colorBlack
  | 1 => colorBlue
  | 2 => colorGreen
  | 3 => colorCyan
  | 4 => colorRed
  | 5 => colorMagenta
  | 6 => colorYellow
  | 7 => colorWhite

/-- `console_graphic`. -/
def consoleGraphic (byte : Byte) : Chtype :=
  if byte ≥ 0x20 ∧ byte < 0x7F then .char byte
  else match byte with
    | 0xB3#8 | 0xBA#8 => .acs .vline
    | 0xC4#8 | 0xCD#8 => .acs .hline
    | 0xC5#8 | 0xCE#8 | 0xD7#8 | 0xD8#8 => .acs .plus
    | 0xC9#8 | 0xD5#8 | 0xD6#8 | 0xDA#8 => .acs .ulcorner
    | 0xB7#8 | 0xB8#8 | 0xBB#8 | 0xBF#8 => .acs .urcorner
    | 0xC0#8 | 0xC8#8 | 0xD3#8 | 0xD4#8 => .acs .llcorner
    | 0xBC#8 | 0xBD#8 | 0xBE#8 | 0xD9#8 => .acs .lrcorner
    | 0xC1#8 | 0xCA#8 | 0xCF#8 | 0xD0#8 => .acs .btee
    | 0xC2#8 | 0xCB#8 | 0xD1#8 | 0xD2#8 => .acs .ttee
    | 0xC3#8 | 0xC6#8 | 0xC7#8 | 0xCC#8 => .acs .ltee
    | 0xB4#8 | 0xB5#8 | 0xB6#8 | 0xB9#8 => .acs .rtee
    | 0xB0#8 | 0xB1#8 | 0xB2#8 => .acs .ckboard
    | 0xDB#8 => .acs .block
    | 0x07#8 | 0x09#8 | 0x0A#8 => .acs .bullet
    | 0x19#8 | 0x1F#8 => .acs .darrow
    | 0x18#8 | 0x1E#8 => .acs .uarrow
    | 0x1B#8 => .acs .larrow
    | 0x1A#8 => .acs .rarrow
    | 0xF8#8 => .acs .degree
    | 0xF2#8 => .acs .gequal
    | 0xF3#8 => .acs .lequal
    | 0xE3#8 => .acs .pi
    | 0xF1#8 => .acs .plminus
    | _ => .char 0x2E

/-- What `console_execute_screen` works on: the static variables of `console.c`, and curses. -/
structure Screen (τ : Type) where
  console : Console
  terminal : τ

section Source

variable {τ : Type} (c : Curses τ)

/-- The calls of curses in `console_init` that the screen depends on. -/
def consoleInitScreen : τ :=
  if c.hasColors then
    (List.finRange 8).foldl (fun t bg =>
      (List.finRange 8).foldl (fun t fg =>
        c.initPair (bg.val * 8 + fg.val + 1) (consoleColorMap fg) (consoleColorMap bg) t) t)
      (c.startColor c.initscr)
  else c.initscr

/-- A call of curses. -/
def onTerminal (f : τ → τ) : M (Screen τ) Unit :=
  modifyDev fun x => { x with terminal := f x.terminal }

/-- The body of the loop of `console_execute_screen`. -/
def drawCell (columns i : ℕ) : M (Screen τ) Unit := do
  let ch ← memRead .cpu (0xB8000 + BitVec.ofNat 32 (i * 2))
  let attrib ← memRead .cpu (0xB8000 + BitVec.ofNat 32 (i * 2) + 1)
  let mode := (← getDev).console.cgaMode
  let fg := (attrib &&& 0x7).toNat
  let bold := attrib.getLsbD 3
  let bg := ((attrib >>> 4) &&& 0x7).toNat
  let blink := if mode.getLsbD 5 then attrib.getLsbD 7 else false
  (if bold then onTerminal (c.attron .bold) else pure ())
  (if blink then onTerminal (c.attron .blink) else pure ())
  (if c.hasColors then onTerminal (c.attron (.pair (bg * 8 + fg + 1))) else pure ())
  onTerminal (c.mvaddch (i / columns) (i % columns) (consoleGraphic ch))
  (if c.hasColors then onTerminal (c.attroff (.pair (bg * 8 + fg + 1))) else pure ())
  (if blink then onTerminal (c.attroff .blink) else pure ())
  (if bold then onTerminal (c.attroff .bold) else pure ())

/-- `console_execute_screen`. -/
def consoleExecuteScreen : M (Screen τ) Unit := do
  let console := (← getDev).console
  let columns := if console.cgaMode.getLsbD 0 then 80 else 40
  (List.range (25 * columns)).forM (drawCell c columns)
  let pos : Word :=
    (console.crtcRegister ⟨0xF, by decide⟩).setWidth 16 +
      (console.crtcRegister ⟨0xE, by decide⟩).setWidth 16 * 0x100
  onTerminal (c.move (pos.toNat / columns) (pos.toNat % columns))
  onTerminal c.refresh

/-- `console_pause`. -/
def consolePause : M (Screen τ) Unit := do
  onTerminal c.endwin
  onTerminal (c.timeout (-1))

/-- `console_resume`. -/
def consoleResume : M (Screen τ) Unit := do
  onTerminal (c.timeout 0)
  onTerminal c.refresh

end Source

/-! ### The text page -/

/-- A character of the text page, as the adapter shows it. -/
structure TextCell where
  ch : Byte
  foreground : Color
  background : Color
  bold : Bool
  blink : Bool

/-- The text page: 25 lines, and the cursor by line and column. -/
structure TextPage where
  columns : ℕ
  cell : ℕ → ℕ → TextCell
  cursor : ℕ × ℕ

/-- The lines of the page. -/
def textLines : ℕ := 25

/-- A character and its attribute byte; bit 7 makes it blink when the mode says so. -/
def textCell (ch attrib : Byte) (blinking : Bool) : TextCell where
  ch := ch
  foreground := ⟨attrib.getLsbD 2, attrib.getLsbD 1, attrib.getLsbD 0⟩
  background := ⟨attrib.getLsbD 6, attrib.getLsbD 5, attrib.getLsbD 4⟩
  bold := attrib.getLsbD 3
  blink := blinking && attrib.getLsbD 7

/-- The character with a number, line after line. -/
def textCellAt (mem : Mem) (c : Console) (i : ℕ) : TextCell :=
  textCell (mem.m (0xB8000 + BitVec.ofNat 20 (2 * i)))
    (mem.m (0xB8000 + BitVec.ofNat 20 (2 * i + 1))) (c.cgaMode.getLsbD 5)

/-- The columns of the page. -/
def Console.columns (c : Console) : ℕ := if c.cgaMode.getLsbD 0 then 80 else 40

/-- The cursor address of the CRTC. -/
def Console.cursor (c : Console) : ℕ :=
  (c.crtcRegister ⟨0xF, by decide⟩).toNat + (c.crtcRegister ⟨0xE, by decide⟩).toNat * 0x100

/-- **The text page** of the memory from `B8000` on. -/
def textPage (mem : Mem) (c : Console) : TextPage where
  columns := c.columns
  cell row col := textCellAt mem c (row * c.columns + col)
  cursor := (c.cursor / c.columns, c.cursor % c.columns)

/-- The number of a colour for the adapter. -/
def Color.number (c : Color) : ℕ := c.red.toNat * 4 + c.green.toNat * 2 + c.blue.toNat

/-- The number of the pair for the colours of a character. -/
def TextCell.pairNumber (x : TextCell) : ℕ := x.background.number * 8 + x.foreground.number + 1

/-- How a character is drawn. -/
def TextCell.picture (colored : Bool) (x : TextCell) : ScreenCell where
  ch := consoleGraphic x.ch
  rendition :=
    { bold := x.bold, blink := x.blink, pair := if colored then x.pairNumber else 0 }

/-- The pairs that the terminal has show the colours that they are numbered by. -/
def Terminal.Colored (t : Terminal) : Prop :=
  ∀ x : TextCell, x.pairNumber < t.colorPairs → t.pairs x.pairNumber = (x.foreground, x.background)

/-- A character is shown: its glyph, its attributes, and its colours if their pair exists. -/
structure Terminal.ShowsCell (t : Terminal) (colored : Bool) (s : ScreenCell) (x : TextCell) :
    Prop where
  glyph : s.ch = consoleGraphic x.ch
  bold : s.rendition.bold = x.bold
  blink : s.rendition.blink = x.blink
  /-- The pairs are numbered from 1 to 64. -/
  pair : if colored then 1 ≤ s.rendition.pair ∧ s.rendition.pair ≤ 64 else s.rendition.pair = 0
  colors : colored = true → s.rendition.pair < t.colorPairs →
    t.pairs s.rendition.pair = (x.foreground, x.background)

/-- **The terminal shows the page**, as far as it is in the window. -/
structure Terminal.ShowsPage (t : Terminal) (colored : Bool) (p : TextPage) : Prop where
  visual : t.visual = true
  cells : ∀ row < textLines, ∀ col < p.columns, t.Inside row col →
    t.ShowsCell colored (t.shown row col) (p.cell row col)
  cursor : t.Inside p.cursor.1 p.cursor.2 → t.shownCursor = p.cursor

/-! ### Characters and colours -/

/-- The emulator adds no character that curses cannot print. -/
theorem printable_consoleGraphic (byte : Byte) : (consoleGraphic byte).Printable := by
  unfold consoleGraphic
  split
  · next h => exact h
  · split <;> decide

theorem Color.number_lt (c : Color) : c.number < 8 := by
  rcases c with ⟨_ | _, _ | _, _ | _⟩ <;> decide

/-- The table of the source turns the numbers of the adapter into those of curses. -/
theorem consoleColorMap_number (c : Color) : consoleColorMap ⟨c.number, c.number_lt⟩ = c := by
  rcases c with ⟨_ | _, _ | _, _ | _⟩ <;> rfl

theorem TextCell.pairNumber_bounds (x : TextCell) : 1 ≤ x.pairNumber ∧ x.pairNumber ≤ 64 := by
  have hfg := x.foreground.number_lt
  have hbg := x.background.number_lt
  unfold pairNumber
  omega

/-- The number in the three lowest bits. -/
theorem toNat_and_seven (v : Byte) :
    (v &&& 0x7).toNat = Color.number ⟨v.getLsbD 2, v.getLsbD 1, v.getLsbD 0⟩ := by
  revert v
  decide

/-- The pair that the source computes of an attribute byte. -/
theorem pairNumber_textCell (ch attrib : Byte) (blinking : Bool) :
    ((attrib >>> 4) &&& 0x7).toNat * 8 + (attrib &&& 0x7).toNat + 1 =
      (textCell ch attrib blinking).pairNumber := by
  rw [toNat_and_seven, toNat_and_seven]
  simp only [BitVec.getLsbD_ushiftRight]
  rfl

/-- A character that is drawn is shown. -/
theorem Terminal.Colored.shows {t : Terminal} {colored : Bool}
    (ht : colored = true → t.Colored) (x : TextCell) :
    t.ShowsCell colored (x.picture colored) x where
  glyph := rfl
  bold := rfl
  blink := rfl
  pair := by
    unfold TextCell.picture
    -- without colours the pair is 0
    cases colored with
    | false => exact rfl
    | true => exact x.pairNumber_bounds
  colors := by
    rintro rfl hlt
    exact ht rfl x hlt

/-! ### What a call does to the terminal -/

section Calls

variable {τ : Type} (c : Curses τ)

/-- The terminal behind the calls of curses for a character. -/
def Curses.draw (y x : ℕ) (cell : TextCell) (t : τ) : τ :=
  let t := if cell.bold then c.attron .bold t else t
  let t := if cell.blink then c.attron .blink t else t
  let t := if c.hasColors then c.attron (.pair cell.pairNumber) t else t
  let t := c.mvaddch y x (consoleGraphic cell.ch) t
  let t := if c.hasColors then c.attroff (.pair cell.pairNumber) t else t
  let t := if cell.blink then c.attroff .blink t else t
  if cell.bold then c.attroff .bold t else t

/-- Behind the first `k` characters of the page. -/
def Curses.drawCells (mem : Mem) (x : Console) (k : ℕ) (t : τ) : τ :=
  (List.range k).foldl
    (fun t i => c.draw (i / x.columns) (i % x.columns) (textCellAt mem x i) t) t

/-- Behind all calls. -/
def Curses.drawPage (mem : Mem) (x : Console) (t : τ) : τ :=
  c.refresh <| c.move (x.cursor / x.columns) (x.cursor % x.columns) <|
    c.drawCells mem x (25 * x.columns) t

theorem columns_pos (x : Console) : 0 < x.columns := by
  unfold Console.columns
  split <;> decide

theorem columns_le (x : Console) : x.columns ≤ 80 := by
  unfold Console.columns
  split <;> decide

/-- The text page is below one megabyte. -/
theorem toNat_textPage {k : ℕ} (hk : k < 4000) :
    (0xB8000 + BitVec.ofNat 32 k).toNat = 0xB8000 + k := by
  rw [BitVec.toNat_add, BitVec.toNat_ofNat, Nat.mod_eq_of_lt (by omega : k < 2 ^ 32)]
  exact Nat.mod_eq_of_lt (by change 0xB8000 + k < 2 ^ 32; omega)

/-- The byte of the text page with a number. -/
theorem outcome_memRead_textPage {k : ℕ} (hk : k < 4000) (m : Machine (Screen τ)) :
    outcome (memRead .cpu (0xB8000 + BitVec.ofNat 32 k)) m =
      (m.mem.m (0xB8000 + BitVec.ofNat 20 k), m) := by
  have hlow : ¬ 0xB8000 + BitVec.ofNat 32 k ≥ memSizeMax := by
    rw [ge_iff_le, BitVec.le_def, toNat_textPage hk]
    change ¬ 0x100000 ≤ 0xB8000 + k
    omega
  rw [outcome_memRead, Machine.dmaByte, if_neg hlow, if_neg hlow,
    BitVec.setWidth_add _ _ (by decide), BitVec.setWidth_ofNat_of_le (by decide)]
  rfl

/-- The machine with another terminal. -/
def Machine.withTerminal (m : Machine (Screen τ)) (t : τ) : Machine (Screen τ) :=
  { m with dev := { m.dev with terminal := t } }

/-- The program changes the terminal, as `f` says, and nothing else. -/
def Draws (x : M (Screen τ) Unit) (f : τ → τ) : Prop :=
  ∀ m, outcome x m = ((), m.withTerminal (f m.dev.terminal))

theorem draws_call (f : τ → τ) : Draws (onTerminal f) f := fun _ => rfl

theorem draws_if (b : Bool) (f : τ → τ) :
    Draws (if b then onTerminal f else pure ()) fun t => if b then f t else t := by
  intro m
  cases b <;> rfl

theorem Draws.seq {x y : M (Screen τ) Unit} {f g : τ → τ} (hx : Draws x f) (hy : Draws y g) :
    Draws (do x; y) fun t => g (f t) := by
  intro m
  rw [outcome_bind, hx m]
  exact hy _

/-- The body of the loop draws a character of the page. -/
theorem outcome_drawCell {columns i : ℕ} (hi : i < 2000) (m : Machine (Screen τ)) :
    outcome (drawCell c columns i) m =
      ((), m.withTerminal (c.draw (i / columns) (i % columns)
        (textCellAt m.mem m.dev.console i) m.dev.terminal)) := by
  have hplace : 0xB8000 + BitVec.ofNat 32 (2 * i) + 1 =
      0xB8000 + BitVec.ofNat 32 (2 * i + 1) := by
    rw [BitVec.ofNat_add, BitVec.add_assoc]
    rfl
  obtain ⟨ch, hch⟩ : ∃ ch, ch = m.mem.m (0xB8000 + BitVec.ofNat 20 (2 * i)) := ⟨_, rfl⟩
  obtain ⟨attrib, hattrib⟩ : ∃ attrib, attrib = m.mem.m (0xB8000 + BitVec.ofNat 20 (2 * i + 1)) :=
    ⟨_, rfl⟩
  have hcell : textCellAt m.mem m.dev.console i =
      textCell ch attrib (m.dev.console.cgaMode.getLsbD 5) := by
    rw [hch, hattrib]
    rfl
  -- the two reads of the source are of one cell
  have hblink : (if m.dev.console.cgaMode.getLsbD 5 then attrib.getLsbD 7 else false) =
      (m.dev.console.cgaMode.getLsbD 5 && attrib.getLsbD 7) := by
    cases m.dev.console.cgaMode.getLsbD 5 <;> rfl
  unfold drawCell
  rw [Nat.mul_comm i 2, hplace, outcome_bind, outcome_memRead_textPage (by omega)]
  dsimp only
  rw [outcome_bind, outcome_memRead_textPage (by omega)]
  dsimp only
  rw [outcome_bind, outcome_getDev, ← hch, ← hattrib, hblink, hcell,
    pairNumber_textCell ch attrib (m.dev.console.cgaMode.getLsbD 5)]
  -- each statement that draws is one call of curses
  exact ((draws_if _ _).seq <| (draws_if _ _).seq <| (draws_if _ _).seq <| (draws_call _).seq <|
    (draws_if _ _).seq <| (draws_if _ _).seq (draws_if _ _)) m

/-- The cursor address is put together from two registers. -/
theorem toNat_cursor (x : Console) :
    ((x.crtcRegister ⟨0xF, by decide⟩).setWidth 16 +
      (x.crtcRegister ⟨0xE, by decide⟩).setWidth 16 * 0x100 : Word).toNat = x.cursor := by
  have hlow := (x.crtcRegister ⟨0xF, by decide⟩).isLt
  have hhigh := (x.crtcRegister ⟨0xE, by decide⟩).isLt
  have hpage : (0x100 : Word).toNat = 0x100 := rfl
  unfold Console.cursor
  simp only [BitVec.toNat_add, BitVec.toNat_mul, BitVec.toNat_setWidth, hpage]
  omega

/-- The loop draws one character after the other. -/
theorem outcome_drawCells {m : Machine (Screen τ)} {k : ℕ}
    (hk : k ≤ 25 * m.dev.console.columns) :
    outcome ((List.range k).forM (drawCell c m.dev.console.columns)) m =
      ((), m.withTerminal (c.drawCells m.mem m.dev.console k m.dev.terminal)) := by
  have hcolumns := columns_le m.dev.console
  induction k with
  | zero => rfl
  | succ k ih =>
    rw [List.range_succ, outcome_forM_append, ih (by omega)]
    unfold Curses.drawCells
    rw [List.range_succ, List.foldl_append]
    exact outcome_drawCell c (by omega) _

/-- **A call changes nothing but the terminal.** -/
theorem outcome_consoleExecuteScreen (m : Machine (Screen τ)) :
    outcome (consoleExecuteScreen c) m =
      ((), m.withTerminal (c.drawPage m.mem m.dev.console m.dev.terminal)) := by
  have hcolumns : (if m.dev.console.cgaMode.getLsbD 0 = true then 80 else 40) =
      m.dev.console.columns := rfl
  unfold consoleExecuteScreen
  rw [outcome_bind, outcome_getDev]
  dsimp only
  rw [hcolumns, outcome_bind, outcome_drawCells c (Nat.le_refl _), toNat_cursor]
  rfl

end Calls

/-! ### The page is drawn -/

section Draw

variable {τ : Type} {c : Curses τ} {see : τ → Terminal}

/-- The calls for a character paint it. -/
theorem paints_draw (hc : c.Documented see) {y x : ℕ} {cell : TextCell} {t : τ}
    (hnormal : (see t).rendition = .normal) {f : ℕ → ℕ → ScreenCell}
    (hf : f y x = cell.picture c.hasColors) :
    (see t).Paints (fun row col => row = y ∧ col = x) f (see (c.draw y x cell t)) := by
  obtain ⟨t₁, ht₁⟩ : ∃ t₁, t₁ = (let t := if cell.bold then c.attron .bold t else t
      let t := if cell.blink then c.attron .blink t else t
      if c.hasColors then c.attron (.pair cell.pairNumber) t else t) := ⟨_, rfl⟩
  -- the attributes that are put on are those of the picture
  have hon : see t₁ = (see t).withRendition (cell.picture c.hasColors).rendition := by
    rw [ht₁]
    dsimp only
    rw [see_attron_if hc, see_attron_if hc, see_attron_if hc, hnormal]
    exact congrArg (see t).withRendition (on_picture ..)
  obtain ⟨cursor, hput⟩ := hc.mvaddch y x _ t₁ (printable_consoleGraphic cell.ch)
  obtain ⟨t₂, ht₂⟩ : ∃ t₂, t₂ = c.mvaddch y x (consoleGraphic cell.ch) t₁ := ⟨_, rfl⟩
  have hrendition : (see t₂).rendition = (cell.picture c.hasColors).rendition := by
    rw [ht₂, hput, hon]
    unfold Terminal.put
    split <;> rfl
  -- and they are put off again, so the next character starts normal
  have hoff : see (c.draw y x cell t) = (see t₂).withRendition .normal := by
    unfold Curses.draw
    dsimp only at ht₁ ⊢
    rw [← ht₁, ← ht₂, see_attroff_if hc, see_attroff_if hc, see_attroff_if hc]
    change (see t₂).withRendition _ = _
    refine congrArg (see t₂).withRendition ?_
    dsimp only [Terminal.withRendition]
    rw [hrendition]
    exact off_picture ..
  rw [hoff, ht₂, hput, hon, ← hnormal]
  exact .put (see t) cursor hf

/-- The places of the first `k` characters of the page, of which there is a next one. -/
theorem place_succ_iff {columns k row col : ℕ} (hcolumns : 0 < columns) :
    col < columns ∧ row * columns + col < k + 1 ↔
      (col < columns ∧ row * columns + col < k) ∨ (row = k / columns ∧ col = k % columns) := by
  constructor
  · rintro ⟨hcol, hlt⟩
    -- a place is the quotient and the remainder of its number
    rcases Nat.lt_or_eq_of_le (Nat.le_of_lt_succ hlt) with hbefore | rfl
    · exact .inl ⟨hcol, hbefore⟩
    · refine .inr ⟨?_, ?_⟩
      · rw [Nat.mul_comm, Nat.mul_add_div hcolumns, Nat.div_eq_of_lt hcol, Nat.add_zero]
      · rw [Nat.mul_comm, Nat.mul_add_mod, Nat.mod_eq_of_lt hcol]
  · rintro (⟨hcol, hlt⟩ | ⟨rfl, rfl⟩)
    · exact ⟨hcol, Nat.lt_succ_of_lt hlt⟩
    · refine ⟨Nat.mod_lt k hcolumns, ?_⟩
      rw [Nat.mul_comm, Nat.div_add_mod]
      exact Nat.lt_succ_self k

/-- What the next call may rely on: no attribute is on, and the pairs have their colours. -/
structure Terminal.Ready (t : Terminal) (colored : Bool) : Prop where
  normal : t.rendition = .normal
  colored : colored = true → t.Colored

/-- **The loop paints the page**, character after character. -/
theorem paints_drawCells (hc : c.Documented see) {t : τ}
    (hnormal : (see t).rendition = .normal) (mem : Mem) (x : Console) (k : ℕ) :
    (see t).Paints (fun row col => col < x.columns ∧ row * x.columns + col < k)
      (fun row col => ((textPage mem x).cell row col).picture c.hasColors)
      (see (c.drawCells mem x k t)) := by
  induction k with
  | zero =>
    refine (Terminal.Paints.nothing _ _).congr fun row col => ?_
    exact iff_of_false id fun h => Nat.not_lt_zero _ h.2
  | succ k hpaints =>
    have hnormal' : (see (c.drawCells mem x k t)).rendition = .normal := by
      rw [hpaints.frame]
      exact hnormal
    have hpicture : ((textPage mem x).cell (k / x.columns) (k % x.columns)).picture c.hasColors =
        (textCellAt mem x k).picture c.hasColors := by
      change (textCellAt mem x (k / x.columns * x.columns + k % x.columns)).picture _ = _
      rw [Nat.div_add_mod']
    have hsucc : c.drawCells mem x (k + 1) t =
        c.draw (k / x.columns) (k % x.columns) (textCellAt mem x k) (c.drawCells mem x k t) := by
      unfold Curses.drawCells
      rw [List.range_succ, List.foldl_append]
      rfl
    -- the place of character `k` joins those before it
    rw [hsucc]
    exact (hpaints.trans (paints_draw hc hnormal' hpicture)).congr fun row col =>
      (place_succ_iff (columns_pos x)).symm

/-- **A call shows the page**, and leaves the terminal ready for the next one. -/
theorem drawPage_shows (hc : c.Documented see) {t : τ} (hready : (see t).Ready c.hasColors)
    (mem : Mem) (x : Console) :
    (see (c.drawPage mem x t)).ShowsPage c.hasColors (textPage mem x) ∧
      (see (c.drawPage mem x t)).Ready c.hasColors := by
  have hpaints := paints_drawCells hc hready.normal mem x (25 * x.columns)
  have hsee : see (c.drawPage mem x t) =
      ((see (c.drawCells mem x (25 * x.columns) t)).move (x.cursor / x.columns)
        (x.cursor % x.columns)).refresh := by
    unfold Curses.drawPage
    rw [hc.refresh, hc.move]
  have hframe := hpaints.frame
  rw [hsee]
  generalize see (c.drawCells mem x (25 * x.columns) t) = w at hframe hpaints
  -- the move of the cursor does not change what is painted
  obtain ⟨cursor, hmove⟩ : ∃ cursor, w.move (x.cursor / x.columns) (x.cursor % x.columns) =
      { w with cursor := cursor } := by
    unfold Terminal.move
    split
    · exact ⟨_, rfl⟩
    · exact ⟨w.cursor, rfl⟩
  have hready' :
      (w.move (x.cursor / x.columns) (x.cursor % x.columns)).refresh.Ready c.hasColors := by
    rw [hmove, hframe]
    exact ⟨hready.normal, hready.colored⟩
  refine ⟨⟨rfl, fun row hrow col hcol hinside => ?_, fun hinside => ?_⟩, hready'⟩
  -- a visible cell is one of the characters that were drawn
  · have hplace : row * x.columns + col < 25 * x.columns := by
      have hrow' : row + 1 ≤ 25 := hrow
      calc row * x.columns + col < row * x.columns + x.columns := Nat.add_lt_add_left hcol _
        _ = (row + 1) * x.columns := (Nat.succ_mul row x.columns).symm
        _ ≤ 25 * x.columns := Nat.mul_le_mul_right _ hrow'
    have hcell : (w.move (x.cursor / x.columns) (x.cursor % x.columns)).refresh.shown row col =
        ((textPage mem x).cell row col).picture c.hasColors := by
      rw [hmove, hframe] at hinside
      rw [hmove]
      exact hpaints.painted row col ⟨hcol, hplace⟩ hinside
    rw [hcell]
    exact Terminal.Colored.shows hready'.colored _
  · have hinside' : w.Inside (x.cursor / x.columns) (x.cursor % x.columns) := by
      rw [hmove] at hinside
      exact hinside
    unfold Terminal.move
    rw [if_pos hinside']
    rfl

/-! ### The start -/

/-- A loop in which each pass brings something about, and keeps what others have, brings it about
for all. -/
theorem foldl_establishes {α σ : Type} {f : σ → α → σ} {P : α → σ → Prop}
    (hset : ∀ s a, P a (f s a)) (hkeep : ∀ s a b, P b s → P b (f s a)) (l : List α) (s : σ) :
    ∀ a ∈ l, P a (l.foldl f s) := by
  induction l generalizing s with
  | nil => exact List.forall_mem_nil _
  | cons a l ih =>
    refine List.forall_mem_cons.mpr ⟨?_, ih _⟩
    exact List.foldlRecOn l f (hset s a) fun s h b _ => hkeep s b a h

theorem Terminal.rendition_initPair (t : Terminal) (n : ℕ) (fg bg : Color) :
    (t.initPair n fg bg).rendition = t.rendition := by
  unfold Terminal.initPair
  split <;> rfl

/-- The pair of two colours by their numbers has these colours, if there is such a pair. -/
def Terminal.HasPair (bg fg : Fin 8) (t : Terminal) : Prop :=
  bg.val * 8 + fg.val + 1 < t.colorPairs →
    t.pairs (bg.val * 8 + fg.val + 1) = (consoleColorMap fg, consoleColorMap bg)

/-- `init_pair` sets a pair up. -/
theorem Terminal.hasPair_initPair (bg fg : Fin 8) (t : Terminal) :
    (t.initPair (bg.val * 8 + fg.val + 1) (consoleColorMap fg) (consoleColorMap bg)).HasPair
      bg fg := by
  unfold Terminal.initPair
  split
  case isTrue => exact fun _ => Function.update_self ..
  case isFalse h => exact fun hlt => absurd ⟨Nat.succ_pos _, hlt⟩ h

/-- The other pairs stay. -/
theorem Terminal.HasPair.initPair {bg fg : Fin 8} {t : Terminal} (h : t.HasPair bg fg)
    (bg' fg' : Fin 8) :
    (t.initPair (bg'.val * 8 + fg'.val + 1) (consoleColorMap fg') (consoleColorMap bg')).HasPair
      bg fg := by
  by_cases hsame : bg = bg' ∧ fg = fg'
  · obtain ⟨rfl, rfl⟩ := hsame
    exact t.hasPair_initPair bg fg
  -- two colours give different pairs
  have hne : bg.val * 8 + fg.val + 1 ≠ bg'.val * 8 + fg'.val + 1 := by
    intro heq
    exact hsame ⟨Fin.ext (by omega), Fin.ext (by omega)⟩
  unfold Terminal.initPair
  split
  · intro hlt
    exact (Function.update_of_ne hne _ _).trans (h hlt)
  · exact h

/-- The inner loop of `console_init` sets up the pairs of a background. -/
theorem hasPair_row (hc : c.Documented see) (bg fg : Fin 8) (t : τ) :
    (see ((List.finRange 8).foldl (fun t fg => c.initPair (bg.val * 8 + fg.val + 1)
      (consoleColorMap fg) (consoleColorMap bg) t) t)).HasPair bg fg := by
  refine foldl_establishes (P := fun fg t => (see t).HasPair bg fg) ?_ ?_ _ t fg
    (List.mem_finRange fg)
  · intro t fg
    rw [hc.initPair]
    exact Terminal.hasPair_initPair bg fg (see t)
  · intro t fg' fg h
    rw [hc.initPair]
    exact h.initPair bg fg'

/-- It keeps the pairs of the others. -/
theorem hasPair_row_of_hasPair (hc : c.Documented see) {bg fg : Fin 8} {t : τ}
    (h : (see t).HasPair bg fg) (bg' : Fin 8) :
    (see ((List.finRange 8).foldl (fun t fg => c.initPair (bg'.val * 8 + fg.val + 1)
      (consoleColorMap fg) (consoleColorMap bg') t) t)).HasPair bg fg := by
  refine List.foldlRecOn (motive := fun t => (see t).HasPair bg fg) _ _ h ?_
  intro t h fg' _
  rw [hc.initPair]
  exact h.initPair bg' fg'

/-- Pairs by the numbers of their colours. -/
theorem Terminal.HasPair.colored {t : Terminal} (h : ∀ bg fg, t.HasPair bg fg) : t.Colored := by
  intro x hlt
  have hpair := h ⟨x.background.number, x.background.number_lt⟩
    ⟨x.foreground.number, x.foreground.number_lt⟩ hlt
  rw [consoleColorMap_number, consoleColorMap_number] at hpair
  exact hpair

/-- **`console_init` leaves the terminal ready.** -/
theorem ready_consoleInitScreen (hc : c.Documented see) :
    (see (consoleInitScreen c)).Ready c.hasColors := by
  unfold consoleInitScreen
  split
  case isFalse hcolors => exact ⟨hc.initscr, fun h => absurd h hcolors⟩
  refine ⟨?_, fun _ => Terminal.HasPair.colored fun bg => ?_⟩
  · have hstart : (see (c.startColor c.initscr)).rendition = .normal := by
      obtain ⟨colorPairs, pairs, hsee⟩ := hc.startColor c.initscr
      rw [hsee]
      exact hc.initscr
    refine List.foldlRecOn (motive := fun t => (see t).rendition = .normal) _ _ hstart ?_
    intro t ht bg _
    refine List.foldlRecOn (motive := fun t => (see t).rendition = .normal) _ _ ht ?_
    intro t ht fg _
    rw [hc.initPair, Terminal.rendition_initPair]
    exact ht
  -- each pair is set once, and is not set again to something else
  · refine foldl_establishes (P := fun bg t => ∀ fg, (see t).HasPair bg fg) ?_ ?_ _ _ bg
      (List.mem_finRange bg)
    · exact fun t bg fg => hasPair_row hc bg fg t
    · exact fun t bg' bg h fg => hasPair_row_of_hasPair hc (h fg) bg'

/-! ### The display -/

/-- A call of `console_execute_screen`, with what it draws, of `console_pause` or of
`console_resume`. -/
inductive ScreenCall
  | draw (mem : Mem) (console : Console)
  | pause
  | resume

/-- What a call does to the terminal. -/
def Curses.perform (c : Curses τ) (t : τ) : ScreenCall → τ
  | .draw mem console => c.drawPage mem console t
  | .pause => c.timeout (-1) (c.endwin t)
  | .resume => c.refresh (c.timeout 0 t)

/-- What is to be seen: the page that was drawn last, unless the terminal is the debugger's. -/
structure Display where
  page : Option TextPage
  visual : Bool

namespace Display

/-- Nothing has been drawn. -/
def blank : Display := ⟨none, true⟩

/-- The display after a call. A draw takes the terminal from the debugger as well. -/
def after (d : Display) : ScreenCall → Display
  | .draw mem console => ⟨some (textPage mem console), true⟩
  | .pause => { d with visual := false }
  | .resume => { d with visual := true }

/-- The terminal agrees with the display. Its window holds the page, also while it is not shown. -/
structure Agrees (d : Display) (t : Terminal) (colored : Bool) : Prop where
  ready : t.Ready colored
  holds : ∀ page, d.page = some page → t.refresh.ShowsPage colored page
  shows : ∀ page, d.page = some page → d.visual = true → t.ShowsPage colored page

/-- **The terminal follows the display**, call by call. -/
theorem Agrees.perform (hc : c.Documented see) {d : Display} {t : τ}
    (h : d.Agrees (see t) c.hasColors) (call : ScreenCall) :
    (d.after call).Agrees (see (c.perform t call)) c.hasColors := by
  cases call with
  | draw mem console =>
    obtain ⟨hshows, hready⟩ := drawPage_shows hc h.ready mem console
    refine ⟨hready, ?_, ?_⟩
    · rintro page ⟨⟩
      -- a page that is drawn is refreshed already
      have hrefreshed :
          (see (c.drawPage mem console t)).refresh = see (c.drawPage mem console t) := by
        unfold Curses.drawPage
        rw [hc.refresh]
        rfl
      change (see (c.drawPage mem console t)).refresh.ShowsPage _ _
      rw [hrefreshed]
      exact hshows
    · rintro page ⟨⟩ -
      exact hshows
  | pause =>
    have hsee : see (c.perform t .pause) = (see t).endwin := by
      change see (c.timeout (-1) (c.endwin t)) = _
      rw [hc.timeout, hc.endwin]
    rw [hsee]
    refine ⟨⟨h.ready.normal, h.ready.colored⟩, h.holds, fun _ _ hvisual => ?_⟩
    exact absurd hvisual Bool.false_ne_true
  | resume =>
    have hsee : see (c.perform t .resume) = (see t).refresh := by
      change see (c.refresh (c.timeout 0 t)) = _
      rw [hc.refresh, hc.timeout]
    rw [hsee]
    exact ⟨⟨h.ready.normal, h.ready.colored⟩, h.holds, fun page hpage _ => h.holds page hpage⟩

/-- And over any calls. -/
theorem Agrees.performAll (hc : c.Documented see) {d : Display} {t : τ}
    (h : d.Agrees (see t) c.hasColors) (calls : List ScreenCall) :
    (runAll after d calls).Agrees (see (runAll c.perform t calls)) c.hasColors := by
  induction calls generalizing d t with
  | nil => exact h
  | cons call calls ih =>
    rw [runAll_cons, runAll_cons]
    exact ih (h.perform hc call)

/-- `console_init` leaves a terminal for the blank display. -/
theorem agrees_blank (hc : c.Documented see) :
    blank.Agrees (see (consoleInitScreen c)) c.hasColors where
  ready := ready_consoleInitScreen hc
  holds _ h := by cases h
  shows _ h := by cases h

end Display

end Draw

end Pc20iii
