import Pc20iii.Console.Console
import Pc20iii.I8088.Execute

/-!
# The registers of the CRTC

The guest selects a register at port 0x3D4, and reads and writes it at port 0x3D5. What it reads
should be what it has written there last, for each of the 256 values of the select register.

The array has `UINT8_MAX` elements, which is one too few. Register 255 is the byte behind it: what
is read there is not what has been written, and what is written there goes to another variable.
`crtc_store_iff` says that this is all: whatever the byte behind the array is, a register has what
was written last and nothing else has changed, exactly when the register is another one and
register 255 has not been written.
-/

namespace Pc20iii

open StateProgram

/-! ### Writes -/

/-- What the guest writes. -/
inductive CrtcWrite where
  /-- To port 0x3D4. -/
  | select (value : Byte)
  /-- To port 0x3D5. -/
  | data (value : Byte)

/-- The machine after a write. -/
def crtcAfter (nb : Neighbour) (m : Machine Console) : CrtcWrite → Machine Console
  | .select value => (outcome (ioWrite (consoleDevices nb) 0x3D4 value) m).2
  | .data value => (outcome (ioWrite (consoleDevices nb) 0x3D5 value) m).2

/-- What the guest reads after it has selected a register. -/
def crtcRead (nb : Neighbour) (m : Machine Console) (r : Byte) : Byte :=
  (outcome (ioRead (consoleDevices nb) 0x3D5) (crtcAfter nb m (.select r))).1

/-- The machine with cleared registers. -/
def crtcCleared (m : Machine Console) : Machine Console :=
  { m with dev := { m.dev with crtcRegister := fun _ => 0 } }

/-- The register that is selected after some writes. -/
def selectedAfter (select : Byte) : List CrtcWrite → Byte
  | [] => select
  | .select value :: ws => selectedAfter value ws
  | .data _ :: ws => selectedAfter select ws

/-- The values that are written to a register, in order. -/
def valuesTo (r : Byte) : Byte → List CrtcWrite → List Byte
  | _, [] => []
  | _, .select value :: ws => valuesTo r value ws
  | select, .data value :: ws =>
    if select = r then value :: valuesTo r select ws else valuesTo r select ws

/-- The guest reads what has been written last, and nothing else has changed. -/
structure StoresLast (nb : Neighbour) (m : Machine Console) (ws : List CrtcWrite) (r : Byte) :
    Prop where
  read : crtcRead nb (runAll (crtcAfter nb) (crtcCleared m) ws) r =
    (valuesTo r m.dev.crtcRegisterSelect ws).getLastD 0
  select : (runAll (crtcAfter nb) (crtcCleared m) ws).dev.crtcRegisterSelect =
    selectedAfter m.dev.crtcRegisterSelect ws
  /-- The other variables of the console. -/
  others : { (runAll (crtcAfter nb) (crtcCleared m) ws).dev with
    crtcRegister := m.dev.crtcRegister
    crtcRegisterSelect := m.dev.crtcRegisterSelect } = m.dev

variable {nb : Neighbour} {m : Machine Console}

/-! ### What a write does -/

theorem crtcAfter_data (nb : Neighbour) (value : Byte)
    (h : m.dev.crtcRegisterSelect.toNat < uint8Max) :
    crtcAfter nb m (.data value) =
      { m with dev := { m.dev with crtcRegister :=
                          Function.update m.dev.crtcRegister ⟨_, h⟩ value } } := by
  have hwrite : cgaCrtcRegisterWrite nb 0x3D5 value m.dev = _ := dif_pos h
  show { m with dev := (cgaCrtcRegisterWrite nb 0x3D5 value m.dev).2.1, log := _ } = _
  rw [hwrite]
  rfl

theorem crtcAfter_data_behind (nb : Neighbour) (value : Byte)
    (h : ¬m.dev.crtcRegisterSelect.toNat < uint8Max) :
    crtcAfter nb m (.data value) = { m with dev := nb.write value m.dev } := by
  have hwrite : cgaCrtcRegisterWrite nb 0x3D5 value m.dev = _ := dif_neg h
  show { m with dev := (cgaCrtcRegisterWrite nb 0x3D5 value m.dev).2.1, log := _ } = _
  rw [hwrite]
  rfl

/-- The register of a value of the select register, 0 behind the array. -/
def Console.crtcCell (c : Console) (r : Byte) : Byte :=
  if h : r.toNat < uint8Max then c.crtcRegister ⟨r.toNat, h⟩ else 0

theorem lt_uint8Max_iff (r : Byte) : r.toNat < uint8Max ↔ r ≠ 0xFF := by
  unfold uint8Max
  constructor
  · rintro h rfl
    exact absurd h (by decide)
  · intro h
    bv_omega

theorem crtcRead_eq (nb : Neighbour) (m : Machine Console) {r : Byte} (h : r ≠ 0xFF) :
    crtcRead nb m r = m.dev.crtcCell r := by
  have hlt := (lt_uint8Max_iff r).mpr h
  have hread : cgaCrtcRegisterRead nb 0x3D5 { m.dev with crtcRegisterSelect := r } = _ :=
    dif_pos hlt
  show (cgaCrtcRegisterRead nb 0x3D5 { m.dev with crtcRegisterSelect := r }).1 = _
  rw [hread, Console.crtcCell, dif_pos hlt]

theorem crtcRead_behind (nb : Neighbour) (m : Machine Console) :
    crtcRead nb m 0xFF = nb.read { m.dev with crtcRegisterSelect := 0xFF } :=
  rfl

/-- A value goes to the selected register, and to no other one, while 255 is not selected. -/
theorem crtcCell_data (nb : Neighbour) (value : Byte) (h : m.dev.crtcRegisterSelect ≠ 0xFF)
    (r : Byte) : (crtcAfter nb m (.data value)).dev.crtcCell r =
      if m.dev.crtcRegisterSelect = r then value else m.dev.crtcCell r := by
  have hlt := (lt_uint8Max_iff _).mpr h
  rw [crtcAfter_data nb value hlt]
  by_cases hr : r.toNat < uint8Max
  · rw [Console.crtcCell, Console.crtcCell, dif_pos hr, dif_pos hr]
    by_cases hselect : m.dev.crtcRegisterSelect = r
    · subst hselect
      rw [if_pos rfl]
      exact Function.update_self _ _ _
    · have hindex : (⟨r.toNat, hr⟩ : Fin uint8Max) ≠ ⟨_, hlt⟩ := by
        intro heq
        exact hselect (BitVec.eq_of_toNat_eq (Fin.val_eq_of_eq heq).symm)
      rw [if_neg hselect]
      exact Function.update_of_ne hindex _ _
  -- register 255 is no element of the array
  · have hselect : m.dev.crtcRegisterSelect ≠ r := fun heq => hr (heq ▸ hlt)
    rw [Console.crtcCell, Console.crtcCell, dif_neg hr, dif_neg hr, if_neg hselect]

/-! ### Runs -/

/-- The writes that go behind the array are those of register 255. -/
theorem select_ne_of_valuesTo {select value : Byte} {ws : List CrtcWrite}
    (h : valuesTo 0xFF select (.data value :: ws) = []) :
    select ≠ 0xFF ∧ valuesTo 0xFF select ws = [] := by
  rw [valuesTo] at h
  split at h
  case isTrue => exact absurd h (List.cons_ne_nil _ _)
  case isFalse hselect => exact ⟨hselect, h⟩

/-- As long as register 255 is not written, only the registers and the select register change. -/
theorem dev_crtcRun (nb : Neighbour) (ws : List CrtcWrite)
    (h : valuesTo 0xFF m.dev.crtcRegisterSelect ws = []) :
    ∃ registers, (runAll (crtcAfter nb) m ws).dev =
      { m.dev with
        crtcRegister := registers
        crtcRegisterSelect := selectedAfter m.dev.crtcRegisterSelect ws } := by
  induction ws generalizing m with
  | nil => exact ⟨m.dev.crtcRegister, rfl⟩
  | cons w ws ih =>
    cases w with
    | select value => exact ih (m := crtcAfter nb m (.select value)) h
    | data value =>
      -- the value goes to a register of the array, and the select register stays
      obtain ⟨hselect, hrest⟩ := select_ne_of_valuesTo h
      have hstep := crtcAfter_data nb value ((lt_uint8Max_iff _).mpr hselect)
      obtain ⟨registers, hdev⟩ :=
        ih (m := crtcAfter nb m (.data value)) (by rw [hstep]; exact hrest)
      refine ⟨registers, ?_⟩
      rw [runAll_cons, hdev, hstep]
      rfl

/-- As long as register 255 is not written, each register has what was written last. -/
theorem crtcCell_crtcRun (nb : Neighbour) (ws : List CrtcWrite)
    (h : valuesTo 0xFF m.dev.crtcRegisterSelect ws = []) (r : Byte) :
    (runAll (crtcAfter nb) m ws).dev.crtcCell r =
      (valuesTo r m.dev.crtcRegisterSelect ws).getLastD (m.dev.crtcCell r) := by
  induction ws generalizing m with
  | nil => rfl
  | cons w ws ih =>
    cases w with
    | select value => exact ih (m := crtcAfter nb m (.select value)) h
    | data value =>
      obtain ⟨hselect, hrest⟩ := select_ne_of_valuesTo h
      have hsame : (crtcAfter nb m (.data value)).dev.crtcRegisterSelect =
          m.dev.crtcRegisterSelect := by
        rw [crtcAfter_data nb value ((lt_uint8Max_iff _).mpr hselect)]
      -- the selection stays, so the rest is about the same registers
      rw [runAll_cons, ih (m := crtcAfter nb m (.data value)) (by rw [hsame]; exact hrest), hsame,
        crtcCell_data nb value hselect, valuesTo]
      split
      · rw [List.getLastD_cons]
      · rfl

/-! ### The byte behind the array -/

/-- A byte behind the array that sets the mode register to `mode`, whatever is written, and reads
as `value`. -/
def modeNeighbour (mode value : Byte) : Neighbour where
  read := fun _ => value
  write := fun _ c => { c with cgaMode := mode }

theorem byte_succ_ne (b : Byte) : b + 1 ≠ b := by
  intro h
  bv_omega

/-- If register 255 is written, the byte behind the array is. -/
theorem cgaMode_crtcRun (mode value : Byte) (ws : List CrtcWrite) :
    (runAll (crtcAfter (modeNeighbour mode value)) m ws).dev.cgaMode =
      if valuesTo 0xFF m.dev.crtcRegisterSelect ws = [] then m.dev.cgaMode else mode := by
  induction ws generalizing m with
  | nil => rfl
  | cons w ws ih =>
    cases w with
    | select select => exact ih
    | data written =>
      rw [runAll_cons, ih, valuesTo]
      by_cases hselect : m.dev.crtcRegisterSelect = 0xFF
      -- the store behind the array
      · have hlt : ¬m.dev.crtcRegisterSelect.toNat < uint8Max :=
          fun h => (lt_uint8Max_iff _).mp h hselect
        rw [if_pos hselect, if_neg (List.cons_ne_nil _ _),
          crtcAfter_data_behind (modeNeighbour mode value) written hlt]
        exact ite_self mode
      -- inside the array, the neighbour is left alone
      · rw [if_neg hselect, crtcAfter_data (modeNeighbour mode value) written
          ((lt_uint8Max_iff _).mpr hselect)]

/-- **The registers of the CRTC.** After any writes to the two ports, the guest reads from a
register what it has written there last, and nothing else of the console has changed, whatever the
byte behind the array is, exactly when the register is not 255 and 255 has not been written. -/
theorem crtc_store_iff (m : Machine Console) (ws : List CrtcWrite) (r : Byte) :
    (∀ nb, StoresLast nb m ws r) ↔
      r ≠ 0xFF ∧ valuesTo 0xFF m.dev.crtcRegisterSelect ws = [] := by
  constructor
  · intro h
    constructor
    · rintro rfl
      -- what is read behind the array need not be what was written
      have hread := (h (modeNeighbour 0
        ((valuesTo 0xFF m.dev.crtcRegisterSelect ws).getLastD 0 + 1))).read
      rw [crtcRead_behind] at hread
      exact byte_succ_ne _ hread
    · by_contra hwritten
      -- a write behind the array sets a mode that was not there
      have hothers := (h (modeNeighbour (m.dev.cgaMode + 1) 0)).others
      have hmode := congrArg Console.cgaMode hothers
      have hrun := (cgaMode_crtcRun (m := crtcCleared m) (m.dev.cgaMode + 1) 0 ws).trans
        (if_neg hwritten)
      exact byte_succ_ne _ (hrun.symm.trans hmode)
  · rintro ⟨hr, hwritten⟩ nb
    obtain ⟨registers, hdev⟩ := dev_crtcRun (m := crtcCleared m) nb ws hwritten
    have hcell := crtcCell_crtcRun (m := crtcCleared m) nb ws hwritten r
    refine ⟨?_, ?_, ?_⟩
    · rw [crtcRead_eq nb _ hr, hcell]
      congr 1
      unfold Console.crtcCell
      split <;> rfl
    · rw [hdev]
      rfl
    · rw [hdev]
      rfl

/-- The select register behind the array. -/
def selectNeighbour : Neighbour where
  read := Console.crtcRegisterSelect
  write := fun value c => { c with crtcRegisterSelect := value }

/-- A write to register 255 selects register 14. -/
theorem crtc_select_overwritten :
    ¬ ∀ (nb : Neighbour) (m : Machine Console) (ws : List CrtcWrite) (r : Byte),
      StoresLast nb m ws r := by
  intro h
  have hstores := h selectNeighbour (machineInit consoleInit) [.select 0xFF, .data 0x0E] 0
  exact absurd hstores.select (by decide)

end Pc20iii
