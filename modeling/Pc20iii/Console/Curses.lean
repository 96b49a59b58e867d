import Pc20iii.Machine.Word

/-!
# Curses

The part of curses that the screen is drawn with. Curses is not in the source; it is a parameter
(`Curses`), of which only what its documentation says is known (`Curses.Documented`): each function
does to what can be seen of the terminal what the function of the same name does here to a
`Terminal`. Where the cursor stands after a character has been added is left open, and so is what
becomes of characters that cannot be printed.

* `Terminal`: the window `stdscr` with its attributes, and what the user sees of it while curses has
  the terminal. `endwin` gives it back, and the next `refresh` takes it again.
* `Terminal.Paints`: some cells of the window have got given pictures. One area can be painted after
  the other (`Terminal.Paints.trans`); what is outside the window is not painted.
* `off_picture`: the attributes that have been turned on for a character are off behind it.
-/

namespace Pc20iii

/-- A colour by its components. -/
structure Color where
  red : Bool
  green : Bool
  blue : Bool
deriving DecidableEq

def colorBlack : Color := ⟨false, false, false⟩
def colorRed : Color := ⟨true, false, false⟩
def colorGreen : Color := ⟨false, true, false⟩
def colorYellow : Color := ⟨true, true, false⟩
def colorBlue : Color := ⟨false, false, true⟩
def colorMagenta : Color := ⟨true, false, true⟩
def colorCyan : Color := ⟨false, true, true⟩
def colorWhite : Color := ⟨true, true, true⟩

/-- The symbols of curses that are used (`ACS_VLINE` and so on). -/
inductive AcsSymbol
  | vline | hline | plus | ulcorner | urcorner | llcorner | lrcorner | btee | ttee | ltee | rtee
  | ckboard | block | bullet | darrow | uarrow | larrow | rarrow | degree | gequal | lequal | pi
  | plminus
deriving DecidableEq

/-- A `chtype` without attributes. -/
inductive Chtype
  | char (byte : Byte)
  | acs (symbol : AcsSymbol)
deriving DecidableEq

/-- The others are control characters, or no ASCII. -/
def Chtype.Printable : Chtype → Prop
  | .char byte => 0x20 ≤ byte ∧ byte < 0x7F
  | .acs _ => True

instance : DecidablePred Chtype.Printable := fun ch => by
  cases ch <;> unfold Chtype.Printable <;> infer_instance

/-- An argument of `attron` and `attroff`: `A_BOLD`, `A_BLINK` and `COLOR_PAIR(n)`. -/
inductive Attr
  | bold
  | blink
  | pair (n : ℕ)

/-- The attributes that are on. -/
structure Rendition where
  bold : Bool
  blink : Bool
  pair : ℕ
deriving DecidableEq

namespace Rendition

/-- `A_NORMAL`. -/
def normal : Rendition := ⟨false, false, 0⟩

def on (r : Rendition) : Attr → Rendition
  | .bold => { r with bold := true }
  | .blink => { r with blink := true }
  | .pair n => { r with pair := n }

def off (r : Rendition) : Attr → Rendition
  | .bold => { r with bold := false }
  | .blink => { r with blink := false }
  | .pair _ => { r with pair := 0 }

end Rendition

/-- A character of the window, with its attributes. -/
structure ScreenCell where
  ch : Chtype
  rendition : Rendition
deriving DecidableEq

/-- What the documentation of curses speaks of: the window `stdscr`, and what the user sees. -/
structure Terminal where
  lines : ℕ
  cols : ℕ
  /-- `COLOR_PAIRS`. -/
  colorPairs : ℕ
  /-- The colours of a pair, in front and behind. -/
  pairs : ℕ → Color × Color
  rendition : Rendition
  cell : ℕ → ℕ → ScreenCell
  cursor : ℕ × ℕ
  /-- The window as it was refreshed last. -/
  shown : ℕ → ℕ → ScreenCell
  shownCursor : ℕ × ℕ
  /-- The terminal is in the visual mode of curses, and shows the window. -/
  visual : Bool

namespace Terminal

variable (t : Terminal)

/-- A place in the window. -/
def Inside (y x : ℕ) : Prop := y < t.lines ∧ x < t.cols

instance (y x : ℕ) : Decidable (t.Inside y x) := inferInstanceAs (Decidable (_ ∧ _))

def initPair (n : ℕ) (fg bg : Color) : Terminal :=
  if 1 ≤ n ∧ n < t.colorPairs then { t with pairs := Function.update t.pairs n (fg, bg) } else t

def withRendition (r : Rendition) : Terminal := { t with rendition := r }

def attron (a : Attr) : Terminal := t.withRendition (t.rendition.on a)

def attroff (a : Attr) : Terminal := t.withRendition (t.rendition.off a)

/-- `mvaddch`, up to the cursor. Nothing is added outside the window. -/
def put (y x : ℕ) (ch : Chtype) : Terminal :=
  if t.Inside y x then
    { t with cell := fun row col =>
        if row = y ∧ col = x then ⟨ch, t.rendition⟩ else t.cell row col }
  else t

def move (y x : ℕ) : Terminal := if t.Inside y x then { t with cursor := (y, x) } else t

/-- `refresh`, which resumes the visual mode. -/
def refresh : Terminal := { t with shown := t.cell, shownCursor := t.cursor, visual := true }

def endwin : Terminal := { t with visual := false }

end Terminal

/-- The functions of curses that the screen is drawn with, on the state `τ` that curses keeps. -/
structure Curses (τ : Type) where
  /-- `initscr`. -/
  initscr : τ
  /-- `has_colors`. -/
  hasColors : Bool
  /-- `start_color`. -/
  startColor : τ → τ
  /-- `init_pair`. -/
  initPair : ℕ → Color → Color → τ → τ
  attron : Attr → τ → τ
  attroff : Attr → τ → τ
  mvaddch : ℕ → ℕ → Chtype → τ → τ
  move : ℕ → ℕ → τ → τ
  refresh : τ → τ
  endwin : τ → τ
  /-- `timeout`, with the delay of `getch`. -/
  timeout : ℤ → τ → τ

/-- **What is documented of curses.** `see` is what can be seen of its state. -/
structure Curses.Documented {τ : Type} (c : Curses τ) (see : τ → Terminal) : Prop where
  initscr : (see c.initscr).rendition = .normal
  startColor : ∀ t, ∃ colorPairs pairs,
    see (c.startColor t) = { see t with colorPairs := colorPairs, pairs := pairs }
  initPair : ∀ n fg bg t, see (c.initPair n fg bg t) = (see t).initPair n fg bg
  attron : ∀ a t, see (c.attron a t) = (see t).attron a
  attroff : ∀ a t, see (c.attroff a t) = (see t).attroff a
  mvaddch : ∀ y x ch t, ch.Printable →
    ∃ cursor, see (c.mvaddch y x ch t) = { (see t).put y x ch with cursor := cursor }
  move : ∀ y x t, see (c.move y x t) = (see t).move y x
  refresh : ∀ t, see (c.refresh t) = (see t).refresh
  endwin : ∀ t, see (c.endwin t) = (see t).endwin
  timeout : ∀ delay t, see (c.timeout delay t) = see t

/-! ### Painting -/

/-- From `t` to `t'` the cells of `A` in the window have got the pictures of `f`, and nothing else
has changed but the cursor. -/
structure Terminal.Paints (A : ℕ → ℕ → Prop) (f : ℕ → ℕ → ScreenCell) (t t' : Terminal) : Prop where
  frame : t' = { t with cell := t'.cell, cursor := t'.cursor }
  painted : ∀ row col, A row col → t.Inside row col → t'.cell row col = f row col
  kept : ∀ row col, ¬ (A row col ∧ t.Inside row col) → t'.cell row col = t.cell row col

namespace Terminal.Paints

variable {A B : ℕ → ℕ → Prop} {f : ℕ → ℕ → ScreenCell} {t t' t'' : Terminal}

theorem nothing (t : Terminal) (f : ℕ → ℕ → ScreenCell) : t.Paints (fun _ _ => False) f t where
  frame := rfl
  painted _ _ h := h.elim
  kept _ _ _ := rfl

theorem congr (h : t.Paints A f t') (hAB : ∀ row col, A row col ↔ B row col) :
    t.Paints B f t' where
  frame := h.frame
  painted row col hB := h.painted row col ((hAB row col).mpr hB)
  kept row col hB := h.kept row col fun hA => hB ⟨(hAB row col).mp hA.1, hA.2⟩

theorem inside (h : t.Paints A f t') (row col : ℕ) : t'.Inside row col ↔ t.Inside row col := by
  rw [h.frame]
  exact Iff.rfl

/-- One area after the other, from the same picture. -/
theorem trans (h : t.Paints A f t') (h' : t'.Paints B f t'') :
    t.Paints (fun row col => A row col ∨ B row col) f t'' where
  frame := by
    have hframe := h'.frame
    rw [h.frame] at hframe
    exact hframe
  painted row col hAB hinside := by
    -- what both paint has the same picture
    by_cases hB : B row col
    · exact h'.painted row col hB ((h.inside row col).mpr hinside)
    · rw [h'.kept row col fun hand => hB hand.1]
      exact h.painted row col (hAB.resolve_right hB) hinside
  kept row col hAB := by
    rw [h'.kept row col fun hB => hAB ⟨.inr hB.1, (h.inside row col).mp hB.2⟩]
    exact h.kept row col fun hA => hAB ⟨.inl hA.1, hA.2⟩

/-- A character is added with the attributes of its picture, which are off again behind it. -/
theorem put (t : Terminal) {y x : ℕ} {ch : Chtype} {r : Rendition} (cursor : ℕ × ℕ)
    (hf : f y x = ⟨ch, r⟩) :
    t.Paints (fun row col => row = y ∧ col = x) f
      ({ (t.withRendition r).put y x ch with cursor := cursor }.withRendition t.rendition) := by
  unfold Terminal.put
  split
  case isTrue hinside =>
    refine ⟨rfl, fun row col hplace _ => ?_, fun row col hplace => ?_⟩
    · rw [hplace.1, hplace.2, hf]
      exact if_pos ⟨rfl, rfl⟩
    · refine if_neg fun h => hplace ⟨h, ?_⟩
      rw [h.1, h.2]
      exact hinside
  case isFalse houtside =>
    refine ⟨rfl, fun row col hplace h => ?_, fun _ _ _ => rfl⟩
    rw [hplace.1, hplace.2] at h
    exact absurd h houtside

end Terminal.Paints

section Attributes

variable {τ : Type} {c : Curses τ} {see : τ → Terminal}

/-- Attributes are turned on. -/
theorem see_attron_if (hc : c.Documented see) (b : Bool) (a : Attr) (t : τ) :
    see (if b then c.attron a t else t) =
      (see t).withRendition
        (if b then (see t).rendition.on a else (see t).rendition) := by
  cases b with
  | false => rfl
  | true => exact hc.attron a t

/-- Attributes are turned off. -/
theorem see_attroff_if (hc : c.Documented see) (b : Bool) (a : Attr) (t : τ) :
    see (if b then c.attroff a t else t) =
      (see t).withRendition
        (if b then (see t).rendition.off a else (see t).rendition) := by
  cases b with
  | false => rfl
  | true => exact hc.attroff a t

/-- The attributes of a picture. -/
theorem on_picture (bold blink colored : Bool) (n : ℕ) :
    (let r := if bold then Rendition.normal.on .bold else .normal
     let r := if blink then r.on .blink else r
     if colored then r.on (.pair n) else r) = ⟨bold, blink, if colored then n else 0⟩ := by
  cases bold <;> cases blink <;> cases colored <;> rfl

/-- What has been turned on is turned off. -/
theorem off_picture (bold blink colored : Bool) (n : ℕ) :
    (let r : Rendition := ⟨bold, blink, if colored then n else 0⟩
     let r := if colored then r.off (.pair n) else r
     let r := if blink then r.off .blink else r
     if bold then r.off .bold else r) = .normal := by
  cases bold <;> cases blink <;> cases colored <;> rfl

end Attributes

end Pc20iii
