import Pc20iii.Device.Access
import Pc20iii.I8088.Execute
import Pc20iii.Net.Lan
import Mathlib.Data.List.Induction

/-!
# The real time clock

`m6242.c`: the digits of the local time at the ports 0x2C0 to 0x2CC, and three control registers.
The time is that of the host, so a write of a digit has no effect.

The host is the environment: what `clock_gettime` and `localtime_r` give at the `n`-th read is a
parameter of the state (`M6242.clock`).

* `m6242_shows`: in every run the digits are those of the local time, with the years counted from
  1980 modulo 100. The one exception is the hack for the BIOS: the first read of the ones of the
  seconds is two behind. The control registers E and F hold what was written to them last, and D
  reads back without its BUSY bit.
-/

namespace Pc20iii

open StateProgram

/-- `struct tm`, with the day of the week. -/
structure LocalTime extends Tm where
  wday : ℤ
deriving DecidableEq, Repr

/-- The values that `localtime_r` gives, with a leap second, for the years from 1900 on. -/
structure LocalTime.Valid (tm : LocalTime) : Prop where
  sec : 0 ≤ tm.sec ∧ tm.sec ≤ 60
  min : 0 ≤ tm.min ∧ tm.min < 60
  hour : 0 ≤ tm.hour ∧ tm.hour < 24
  mday : 1 ≤ tm.mday ∧ tm.mday ≤ 31
  mon : 0 ≤ tm.mon ∧ tm.mon < 12
  year : 0 ≤ tm.year
  wday : 0 ≤ tm.wday ∧ tm.wday < 7

/-- `m6242_t`, and the time. -/
structure M6242 where
  biosProbe : Bool
  controlD : Byte
  controlE : Byte
  controlF : Byte
  /-- The local time at the `n`-th read. -/
  clock : ℕ → LocalTime
  /-- History: the number of reads. -/
  reads : ℕ

namespace M6242

/-- The local time at the next read. -/
def tm (x : M6242) : LocalTime := x.clock x.reads

end M6242

/-- The conversion of an `int` to `uint8_t`. -/
def byteOfInt (z : ℤ) : Byte := BitVec.ofInt 8 z

/-- `m6242_register_read`. -/
def m6242RegisterRead (port : Word) : Local M6242 Byte := fun x =>
  let tm := x.tm
  let x := { x with reads := x.reads + 1 }
  match port with
  | 0x2C0#16 =>
    -- the BIOS detects the clock by a change of this digit
    if x.biosProbe = false then
      (byteOfInt ((tm.sec - 2).tmod 10), { x with biosProbe := true }, [])
    else (byteOfInt (tm.sec.tmod 10), x, [])
  | 0x2C1#16 => (byteOfInt (tm.sec.tdiv 10), x, [])
  | 0x2C2#16 => (byteOfInt (tm.min.tmod 10), x, [])
  | 0x2C3#16 => (byteOfInt (tm.min.tdiv 10), x, [])
  | 0x2C4#16 => (byteOfInt (tm.hour.tmod 10), x, [])
  | 0x2C5#16 => (byteOfInt (tm.hour.tdiv 10), x, [])
  | 0x2C6#16 => (byteOfInt (tm.mday.tmod 10), x, [])
  | 0x2C7#16 => (byteOfInt (tm.mday.tdiv 10), x, [])
  | 0x2C8#16 => (byteOfInt ((tm.mon + 1).tmod 10), x, [])
  | 0x2C9#16 => (byteOfInt ((tm.mon + 1).tdiv 10), x, [])
  | 0x2CA#16 => (byteOfInt (tm.year.tmod 10), x, [])
  | 0x2CB#16 => (byteOfInt ((tm.year.tdiv 10 + 2).tmod 10), x, [])
  | 0x2CC#16 => (byteOfInt tm.wday, x, [])
  | 0x2CD#16 => (x.controlD &&& 0b1101, x, [])  -- clear the BUSY bit
  | 0x2CE#16 => (x.controlE, x, [])
  | 0x2CF#16 => (x.controlF, x, [])
  | _ => (0, x, [])

/-- `m6242_register_write`. -/
def m6242RegisterWrite (port : Word) (value : Byte) : Local M6242 Unit := fun x =>
  match port with
  | 0x2CD#16 => ((), { x with controlD := value }, [])
  | 0x2CE#16 => ((), { x with controlE := value }, [])
  | 0x2CF#16 => ((), { x with controlF := value }, [])
  | _ => ((), x, [])

/-- The read hooks of `m6242_init`. -/
def m6242Reads (port : Word) : Option (ReadHook M6242) :=
  if 0x2C0 ≤ port ∧ port ≤ 0x2CF then some fun port => runLocal (m6242RegisterRead port) else none

/-- The write hooks of `m6242_init`. -/
def m6242Writes (port : Word) : Option (WriteHook M6242) :=
  if 0x2C0 ≤ port ∧ port ≤ 0x2CF then
    some fun port value => runLocal (m6242RegisterWrite port value)
  else none

/-- The state of `m6242_init`. -/
def m6242Init (clock : ℕ → LocalTime) : M6242 where
  biosProbe := false
  controlD := 0
  controlE := 0
  controlF := 0
  clock := clock
  reads := 0

/-- The ports of the clock. -/
def m6242Devices : Devices M6242 where
  read := m6242Reads
  write := m6242Writes
  read_generated := by
    intro port func h p
    unfold m6242Reads at h
    split at h
    · cases h
      exact generated_runLocal _
    · cases h
  write_generated := by
    intro port func h p v
    unfold m6242Writes at h
    split at h
    · cases h
      exact generated_runLocal _
    · cases h
  read_low := by
    intro port h
    rw [m6242Reads, if_neg]
    bv_omega
  write_low := by
    intro port h
    rw [m6242Writes, if_neg]
    bv_omega

/-! ### Steps -/

/-- The seconds are read. -/
def Access.readsS1 : Access M6242 → Bool
  | .read port => port == 0x2C0
  | _ => false

/-- What an access writes to a register that holds `v`. -/
def Access.stored (port : Word) (v : Byte) : Access M6242 → Byte
  | .write p value => if p = port then value else v
  | _ => v

/-- What an access does to the clock. -/
structure M6242.Steps (x y : M6242) (a : Access M6242) : Prop where
  biosProbe : y.biosProbe = (x.biosProbe || a.readsS1)
  controlD : y.controlD = a.stored 0x2CD x.controlD
  controlE : y.controlE = a.stored 0x2CE x.controlE
  controlF : y.controlF = a.stored 0x2CF x.controlF
  clock : y.clock = x.clock

/-- A read of a register changes the probe flag only, and only at the port of the ones of the
seconds. -/
theorem steps_read (x : M6242) (port : Word) :
    x.Steps (m6242RegisterRead port x).2.1 (.read port) := by
  unfold m6242RegisterRead
  dsimp only
  split
  case h_1 =>
    cases h : x.biosProbe with
    | false => exact ⟨by rw [h]; rfl, rfl, rfl, rfl, rfl⟩
    | true => exact ⟨by rw [h]; rfl, rfl, rfl, rfl, rfl⟩
  case h_17 h _ _ _ _ _ _ _ _ _ _ _ _ _ _ _ =>
    have hs1 : (port == 0x2C0) = false := beq_false_of_ne h
    exact ⟨by rw [Access.readsS1, hs1, Bool.or_false], rfl, rfl, rfl, rfl⟩
  all_goals exact ⟨(Bool.or_false _).symm, rfl, rfl, rfl, rfl⟩

theorem steps_write (x : M6242) (port : Word) (value : Byte) :
    x.Steps (m6242RegisterWrite port value x).2.1 (.write port value) := by
  unfold m6242RegisterWrite
  split
  case h_4 hd he hf =>
    exact ⟨(Bool.or_false _).symm, (if_neg hd).symm, (if_neg he).symm, (if_neg hf).symm, rfl⟩
  all_goals exact ⟨(Bool.or_false _).symm, rfl, rfl, rfl, rfl⟩

/-- An access to a port that is not the clock's. -/
theorem steps_elsewhere (x : M6242) {a : Access M6242}
    (hread : a.readsS1 = false) (hwrite : ∀ port v, 0x2C0 ≤ port ∧ port ≤ 0x2CF →
      a.stored port v = v) : x.Steps x a where
  biosProbe := by rw [hread, Bool.or_false]
  controlD := (hwrite _ _ (by decide)).symm
  controlE := (hwrite _ _ (by decide)).symm
  controlF := (hwrite _ _ (by decide)).symm
  clock := rfl

/-- An access is a read or a write of a register, or is about another device. -/
theorem m6242_steps (m : Machine M6242) (a : Access M6242) :
    m.dev.Steps (m6242Devices.after m a).dev a := by
  cases a with
  | other m' => exact ⟨(Bool.or_false _).symm, rfl, rfl, rfl, rfl⟩
  | read port =>
    by_cases hport : 0x2C0 ≤ port ∧ port ≤ 0x2CF
    · have hhook : m6242Devices.read port = some fun p => runLocal (m6242RegisterRead p) :=
        if_pos hport
      rw [Devices.after_read hhook]
      exact steps_read m.dev port
    -- the clock has no hook there
    · have hhook : m6242Devices.read port = none := if_neg hport
      rw [Devices.after_read_none hhook]
      refine steps_elsewhere _ (beq_false_of_ne ?_) fun _ _ _ => rfl
      rintro rfl
      exact hport (by decide)
  | write port value =>
    by_cases hport : 0x2C0 ≤ port ∧ port ≤ 0x2CF
    · have hhook : m6242Devices.write port = some fun p v => runLocal (m6242RegisterWrite p v) :=
        if_pos hport
      rw [Devices.after_write hhook]
      exact steps_write m.dev port value
    -- the clock has no hook there
    · have hhook : m6242Devices.write port = none := if_neg hport
      rw [Devices.after_write_none hhook]
      refine steps_elsewhere _ rfl fun p v hp => if_neg ?_
      rintro rfl
      exact hport hp

/-! ### Runs -/

/-- A machine whose clock has just been initialised. -/
def Machine.withClock (m : Machine M6242) (clock : ℕ → LocalTime) : Machine M6242 :=
  { m with dev := m6242Init clock }

/-- What the register at `port` holds after a run: the last value that was written to it. -/
def lastStored (port : Word) (as : List (Access M6242)) : Byte :=
  as.foldl (fun v a => a.stored port v) 0

/-- What a run leaves in the clock. -/
structure M6242.After (clock : ℕ → LocalTime) (as : List (Access M6242)) (x : M6242) : Prop where
  biosProbe : x.biosProbe = as.any Access.readsS1
  controlD : x.controlD = lastStored 0x2CD as
  controlE : x.controlE = lastStored 0x2CE as
  controlF : x.controlF = lastStored 0x2CF as
  clock : x.clock = clock

/-- The run rule of the clock. -/
theorem m6242_after (m : Machine M6242) (clock : ℕ → LocalTime) (as : List (Access M6242)) :
    (runAll m6242Devices.after (m.withClock clock) as).dev.After clock as := by
  induction as using List.reverseRecOn with
  | nil => exact ⟨rfl, rfl, rfl, rfl, rfl⟩
  | append_singleton as a ih =>
    have hstep := m6242_steps (runAll m6242Devices.after (m.withClock clock) as) a
    -- the last access decides what a register stores
    have hstored : ∀ port, lastStored port (as ++ [a]) = a.stored port (lastStored port as) := by
      intro port
      rw [lastStored, List.foldl_append]
      rfl
    rw [runAll_append, runAll_cons, runAll_nil]
    refine ⟨?_, ?_, ?_, ?_, hstep.clock.trans ih.clock⟩
    · rw [hstep.biosProbe, ih.biosProbe, List.any_append, List.any_cons, List.any_nil,
        Bool.or_false]
    · rw [hstep.controlD, ih.controlD, hstored]
    · rw [hstep.controlE, ih.controlE, hstored]
    · rw [hstep.controlF, ih.controlF, hstored]

/-! ### What is read -/

/-- What a read of a port returns. -/
def Machine.clockByte (m : Machine M6242) (port : Word) : Byte :=
  (outcome (runLocal (m6242RegisterRead port)) m).1

/-- The value of two decimal digits. -/
structure Decimal (tens ones : Byte) (n : ℤ) : Prop where
  tens_lt : tens.toNat < 10
  ones_lt : ones.toNat < 10
  value : 10 * (tens.toNat : ℤ) + ones.toNat = n

theorem toNat_byteOfInt {z : ℤ} (h : 0 ≤ z ∧ z < 256) : ((byteOfInt z).toNat : ℤ) = z := by
  rw [byteOfInt, BitVec.toNat_ofInt, Int.toNat_of_nonneg (Int.emod_nonneg _ (by decide))]
  exact Int.emod_eq_of_lt h.1 h.2

/-- The two digits of a number. -/
theorem decimal_digits {z : ℤ} (h : 0 ≤ z ∧ z < 100) :
    Decimal (byteOfInt (z.tdiv 10)) (byteOfInt (z.tmod 10)) z := by
  rw [Int.tdiv_eq_ediv_of_nonneg h.1, Int.tmod_eq_emod_of_nonneg h.1]
  have htens := toNat_byteOfInt (z := z / 10) (by omega)
  have hones := toNat_byteOfInt (z := z % 10) (by omega)
  constructor <;> omega

/-- The digits of the year count from 1980. -/
theorem decimal_year {year : ℤ} (h : 0 ≤ year) :
    Decimal (byteOfInt ((year.tdiv 10 + 2).tmod 10)) (byteOfInt (year.tmod 10))
      ((year - 80) % 100) := by
  rw [Int.tdiv_eq_ediv_of_nonneg h, Int.tmod_eq_emod_of_nonneg h,
    Int.tmod_eq_emod_of_nonneg (by omega)]
  have htens := toNat_byteOfInt (z := (year / 10 + 2) % 10) (by omega)
  have hones := toNat_byteOfInt (z := year % 10) (by omega)
  constructor <;> omega

/-- The ports show the time, from the minutes on. -/
structure Machine.ShowsTime (m : Machine M6242) (tm : LocalTime) : Prop where
  min : Decimal (m.clockByte 0x2C3) (m.clockByte 0x2C2) tm.min
  hour : Decimal (m.clockByte 0x2C5) (m.clockByte 0x2C4) tm.hour
  mday : Decimal (m.clockByte 0x2C7) (m.clockByte 0x2C6) tm.mday
  mon : Decimal (m.clockByte 0x2C9) (m.clockByte 0x2C8) (tm.mon + 1)
  year : Decimal (m.clockByte 0x2CB) (m.clockByte 0x2CA) ((tm.year - 80) % 100)
  wday : ((m.clockByte 0x2CC).toNat : ℤ) = tm.wday

theorem showsTime (m : Machine M6242) (h : m.dev.tm.Valid) : m.ShowsTime m.dev.tm where
  min := decimal_digits ⟨h.min.1, h.min.2.trans (by decide)⟩
  hour := decimal_digits ⟨h.hour.1, h.hour.2.trans (by decide)⟩
  mday := decimal_digits (by have := h.mday; omega)
  mon := decimal_digits (by have := h.mon; omega)
  year := decimal_year h.year
  wday := toNat_byteOfInt ⟨h.wday.1, h.wday.2.trans (by decide)⟩

/-- The seconds, before and after the BIOS has looked for the clock. -/
theorem clockByte_seconds (m : Machine M6242) :
    m.clockByte 0x2C0 = byteOfInt
      ((if m.dev.biosProbe = false then m.dev.tm.sec - 2 else m.dev.tm.sec).tmod 10) := by
  change (if m.dev.biosProbe = false then (_, _, _) else (_, _, _) : Byte × M6242 × List String).1 =
    byteOfInt (Int.tmod (if m.dev.biosProbe = false then _ else _) 10)
  split <;> rfl

/-- **The real time clock.** After every run, the ports show the local time of the host, the years
counted from 1980 modulo 100. Of the ones of the seconds the first read alone is two behind, which
in the first two seconds of a minute is no digit; the tens are right from the start. The control
registers read back what was written last, D without its BUSY bit. -/
theorem m6242_shows (m : Machine M6242) (clock : ℕ → LocalTime) (as : List (Access M6242)) :
    let s := runAll m6242Devices.after (m.withClock clock) as
    let tm := clock s.dev.reads
    (tm.Valid → s.ShowsTime tm ∧ ((s.clockByte 0x2C1).toNat : ℤ) = tm.sec / 10 ∧
      if as.any Access.readsS1 then Decimal (s.clockByte 0x2C1) (s.clockByte 0x2C0) tm.sec
      else if 2 ≤ tm.sec then ((s.clockByte 0x2C0).toNat : ℤ) = (tm.sec - 2) % 10
      else s.clockByte 0x2C0 ≥ 0xFE) ∧
    s.clockByte 0x2CD = lastStored 0x2CD as &&& 0b1101 ∧
    s.clockByte 0x2CE = lastStored 0x2CE as ∧
    s.clockByte 0x2CF = lastStored 0x2CF as := by
  intro s tm
  obtain ⟨hprobe, hd, he, hf, hclock⟩ := m6242_after m clock as
  have htm : s.dev.tm = tm := congrFun hclock s.dev.reads
  have hs10 : s.clockByte 0x2C1 = byteOfInt (tm.sec.tdiv 10) := by
    rw [← htm]
    rfl
  refine ⟨fun hvalid => ⟨htm ▸ showsTime s (htm ▸ hvalid), ?_, ?_⟩, ?_, he, hf⟩
  · have hsec := hvalid.sec
    rw [hs10, Int.tdiv_eq_ediv_of_nonneg hsec.1]
    exact toNat_byteOfInt (by omega)
  · have hs1 := clockByte_seconds s
    rw [htm] at hs1
    have hsec := hvalid.sec
    -- the first read of the ones finds `bios_probe` clear, every later one finds it set
    split_ifs with hread hlate
    · rw [hprobe, hread, if_neg (by decide)] at hs1
      rw [hs1, hs10]
      exact decimal_digits ⟨hsec.1, hsec.2.trans_lt (by decide)⟩
    · rw [Bool.not_eq_true] at hread
      rw [hprobe, hread, if_pos rfl, Int.tmod_eq_emod_of_nonneg (by omega)] at hs1
      rw [hs1, toNat_byteOfInt (by omega)]
    · rw [Bool.not_eq_true] at hread
      rw [hprobe, hread, if_pos rfl] at hs1
      rw [hs1]
      obtain h | h : tm.sec = 0 ∨ tm.sec = 1 := by omega
      · rw [h]
        decide
      · rw [h]
        decide
  · change s.dev.controlD &&& _ = _
    rw [hd]

/-- A clock that stands at one second past nine. -/
def secondPastNine : ℕ → LocalTime := fun _ => ⟨⟨1, 0, 9, 24, 6, 124⟩, 3⟩

/-- Behind the first read, its seconds are shown. -/
theorem m6242_shows_second :
    let s := runAll m6242Devices.after
      ((machineInit (m6242Init secondPastNine)).withClock secondPastNine) [.read 0x2C0]
    Decimal (s.clockByte 0x2C1) (s.clockByte 0x2C0) 1 :=
  ((m6242_shows (machineInit (m6242Init secondPastNine)) secondPastNine [.read 0x2C0]).1
    ⟨by decide, by decide, by decide, by decide, by decide, by decide, by decide⟩).2.2

end Pc20iii
