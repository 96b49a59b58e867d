import Pc20iii.Net.Handover
import Pc20iii.Net.Sequence
import Pc20iii.Serial.Fifos
import Pc20iii.System.Requests
import Pc20iii.System.Views

/-!
# What holds in every run of the emulator

The emulator is started with any ROM, any images and any options, the guest executes whatever it
finds in memory, the user types and loads images, and the host answers the network as it likes.
In every state that the loop of `main` reaches (`main_consistent`):

* the ROM is in place, and the CPU has made no access at or above one megabyte (a DMA transfer may,
  with a page register beyond);
* no hardware interrupt has been entered that was not asked for;
* the main status register of the floppy disk controller shows its phase;
* the two rings of the UART are queues of 1023 bytes;
* no frame is on its way to the guest, none has been overwritten before the card has taken it, and
  none has been taken twice;
* the segments for the guest are numbered by the bytes before them.
-/

namespace Pc20iii

open StateProgram Peripherals

variable {η : Type}

/-! ### The connections behind the card -/

/-- `dp8390_execute` leaves the connections alone. -/
theorem tcp_dp8390Execute (m : Machine (Dp8390 η)) :
    (outcome dp8390Execute m).2.dev.lan.tcp = m.dev.lan.tcp := by
  cases hready : m.dev.lan.net.rxReady with
  | false => rw [dev_dp8390Execute_of_not_ready hready]
  | true =>
    rw [dev_dp8390Execute_of_ready hready]
    rfl

/-- What the steps of the network keep of the connections, the steps of the card keep. -/
theorem tcp_cardAfter (host : Host η) {I : Tcp → Prop}
    (hstep : ∀ l s, I (Lan.tcp l) → I (lanAfter host l s).tcp) {m : Machine (Dp8390 η)}
    (h : I m.dev.lan.tcp) (s : CardStep η) : I (cardAfter host m s).dev.lan.tcp := by
  rcases cardAfter_cases host m s with ⟨value, rfl, hafter⟩ | rfl | ⟨-, -, hquiet⟩
  · rw [hafter]
    obtain ⟨m₁, isr₁, isr₂, hm₁, hend⟩ := dev_dp8390CrWrite host value m
    rw [hend]
    have hlan : m₁.dev.lan = m.dev.lan := by rw [hm₁]
    cases value.getLsbD 2 with
    | false =>
      change I m₁.dev.lan.tcp
      rw [hlan]
      exact h
    -- bit TXP sends the frame to the stack
    | true =>
      change I (outcome dp8390Execute (outcome (dp8390TransmitPacket host) m₁).2).2.dev.lan.tcp
      rw [tcp_dp8390Execute]
      simp only [dp8390TransmitPacket, outcome_bind, outcome_modifyDev, outcome_getDev, dev_runLan,
        dev_dp8390Irq]
      exact hstep { m₁.dev.lan with panics := [] } (.transmit _ _) (hlan ▸ h)
  · change I (outcome dp8390Execute (outcome (runLan (netExecute host)) m).2).2.dev.lan.tcp
    rw [tcp_dp8390Execute, dev_runLan]
    exact hstep { m.dev.lan with panics := [] } .poll h
  · rw [hquiet.lan]
    exact h

/-! ### The start -/

section Start

variable {b : Boot η} {e : Emulator η}

/-- What `main` starts the loop with. -/
structure Booted (b : Boot η) (e : Emulator η) : Prop where
  rom : ∃ file, b.rom = some file ∧ ¬ b.romAddress ≥ memSizeMax ∧
    e.machine.mem = (memLoadRom (some file) b.romAddress memInit).2
  idle : e.machine.Idle
  log : e.machine.log = []
  floppy : e.machine.dev.fdc9268.Shows
  serial : e.machine.dev.serial = i8250Init b.ttyFails
  dp8390 : e.machine.dev.dp8390 = dp8390Init (lanInit b.edfs b.host)
  m6242 : e.machine.dev.m6242 = m6242Init b.clock
  console : e.machine.dev.console = consoleInit
  cycle : e.cycle = 0

theorem loadFloppy_shows {ds : Fin 4} {image : Option (Option (List Byte))} {spt : ℤ}
    {x y : Fdc9268} (h : loadFloppy ds image spt x = some y) (hx : x.Shows) : y.Shows := by
  unfold loadFloppy at h
  dsimp only at h
  split at h
  · cases h
    exact hx
  · split at h
    · cases h
      exact fdc9268ImageLoad_shows ds _ spt hx
    · cases h

/-- What `main` has set up, when it does not give up. -/
theorem booted (h : mainStart b = some e) : Booted b e := by
  unfold mainStart at h
  dsimp only at h
  split at h
  · cases h
  next hrom =>
    -- the drives and the disk, each of which may fail
    obtain ⟨fdcA, hA, h⟩ := Option.bind_eq_some_iff.mp h
    obtain ⟨fdc, hB, h⟩ := Option.bind_eq_some_iff.mp h
    obtain ⟨disk, hdisk, h⟩ := Option.bind_eq_some_iff.mp h
    cases h
    refine ⟨?_, ⟨fun _ => rfl, rfl⟩, rfl, ?_, rfl, rfl, rfl, rfl, rfl⟩
    · unfold memLoadRom at hrom
      split at hrom
      · exact absurd (by decide) hrom
      next haddress =>
        split at hrom
        · exact absurd (by decide) hrom
        next file hfile =>
          exact ⟨file, hfile, haddress,
            congrArg (fun rom => (memLoadRom rom b.romAddress memInit).2) hfile⟩
    · have hfresh : fdc9268Init.Shows := rfl
      exact loadFloppy_shows hB (loadFloppy_shows hA hfresh)

end Start

/-! ### Runs -/

/-- What holds between two passes of the loop. -/
structure Emulator.Consistent (b : Boot η) (e : Emulator η) : Prop where
  rom : ∀ file, b.rom = some file → ∀ k, (hk : k < file.length) →
    b.romAddress.toNat + k < 2 ^ 20 →
      e.machine.mem.m (BitVec.ofNat 20 (b.romAddress.toNat + k)) = file[k]
  addresses : ∀ event ∈ e.machine.log, ¬ event.OutOfRange
  interrupts : ∀ n, entries n e.machine.log ≤ raisedBy n e.machine.log
  floppy : e.machine.dev.fdc9268.StatusAgrees
  rxFifo : ∃ ops, Represents e.machine.dev.serial.rxFifo
    (runAll BoundedQueue.after (BoundedQueue.empty 1023) ops)
  txFifo : ∃ ops, Represents e.machine.dev.serial.txFifo
    (runAll BoundedQueue.after (BoundedQueue.empty 1023) ops)
  idle : e.machine.dev.dp8390.lan.net.rxReady = false
  frames : HandedOver e.machine.dev.dp8390.lan.log
  segments : ∀ i seq ack flags len older,
    .segment i seq ack flags len :: older <:+ e.machine.dev.dp8390.lan.tcp.events →
      Numbered i seq flags len older

section Runs

variable (s : Setting η) {b : Boot η} {e : Emulator η} (h : Booted b e) (ps : List Pass)

include h

theorem main_rom {file : List Byte} (hfile : b.rom = some file) {k : ℕ} (hk : k < file.length)
    (hfit : b.romAddress.toNat + k < 2 ^ 20) :
    (runAll (mainAfter s) e ps).machine.mem.m (BitVec.ofNat 20 (b.romAddress.toNat + k)) =
      file[k] := by
  obtain ⟨file', hfile', haddress, hmem⟩ := h.rom
  cases hfile.symm.trans hfile'
  exact run_rom s.devices haddress hmem (mainRun_run s e ps) hk hfit

theorem main_addresses {event : Event} (hevent : event ∈ (runAll (mainAfter s) e ps).machine.log) :
    ¬ event.OutOfRange := by
  obtain ⟨es, hlog, hes⟩ := (Run.protected (mainRun_run s e ps)).log
  rw [hlog, h.log, List.append_nil] at hevent
  exact hes event hevent

theorem main_floppy : (runAll (mainAfter s) e ps).machine.dev.fdc9268.StatusAgrees := by
  have hstep : ∀ (m : Machine Fdc9268) (a : FloppyStep), m.dev.Shows →
      (floppyAfter m a).dev.Shows := by
    intro m a hm
    cases a with
    | access a => exact shows_after hm a
    | load load => exact fdc9268ImageLoad_shows _ load.2 0 hm
  have hshows : (e.machine.view fdc9268Lens).dev.Shows := h.floppy
  exact ((main_fdc9268 s e ps).invariant (I := fun m : Machine Fdc9268 => m.dev.Shows)
    hstep hshows).statusAgrees

/-- The two rings of the UART. -/
theorem main_queues :
    (∃ ops, Represents (runAll (mainAfter s) e ps).machine.dev.serial.rxFifo
      (runAll BoundedQueue.after (BoundedQueue.empty 1023) ops)) ∧
    ∃ ops, Represents (runAll (mainAfter s) e ps).machine.dev.serial.txFifo
      (runAll BoundedQueue.after (BoundedQueue.empty 1023) ops) := by
  obtain ⟨steps, hsteps⟩ := main_serial s e ps
  -- the UART of `main` is the one of `i8250_init`
  have hstart : e.machine.view serialLens = (e.machine.view serialLens).withUart b.ttyFails := by
    unfold Machine.withUart
    rw [← h.serial]
    rfl
  rw [hstart] at hsteps
  have hserial : (runAll (mainAfter s) e ps).machine.dev.serial =
      (runAll uartAfter ((e.machine.view serialLens).withUart b.ttyFails) steps).dev :=
    congrArg Machine.dev hsteps
  rw [hserial]
  exact ⟨⟨_, represents_rxFifo _ b.ttyFails steps⟩, _, represents_txFifo _ b.ttyFails steps⟩

theorem card_start : (e.machine.view dp8390Lens).dev.lan = lanInit b.edfs b.host := by
  change e.machine.dev.dp8390.lan = _
  rw [h.dp8390]
  rfl

/-- The frames for the guest. -/
theorem main_frames : ((runAll (mainAfter s) e ps).machine.view dp8390Lens).RxIdle := by
  refine (main_dp8390 s e ps).invariant (fun _ a hm => rxIdle_cardAfter s.host hm a) ?_
  unfold Machine.RxIdle
  rw [card_start h]
  exact ⟨rfl, 0, .nil, rfl, rfl⟩

/-- The segments for the guest. -/
theorem main_segments :
    (runAll (mainAfter s) e ps).machine.dev.dp8390.lan.tcp.Sequenced := by
  refine (main_dp8390 s e ps).invariant (I := fun m : Machine (Dp8390 η) => m.dev.lan.tcp.Sequenced)
    (fun m a hm => tcp_cardAfter s.host (fun _ s' hl => sequenced_lanAfter s.host hl s') hm a) ?_
  rw [card_start h]
  exact sequenced_lanInit b.edfs b.host

end Runs

/-- **The emulator is consistent in every run.** From every start that succeeds, whatever the
guest executes, the user does and the host answers. -/
theorem main_consistent (s : Setting η) {b : Boot η} {e : Emulator η}
    (hstart : mainStart b = some e) (ps : List Pass) :
    (runAll (mainAfter s) e ps).Consistent b := by
  -- each part is the run theorem of its device, from what `main` has set up
  have hboot := booted hstart
  obtain ⟨hrx, htx⟩ := main_queues s hboot ps
  obtain ⟨hidle, n, hframes⟩ := main_frames s hboot ps
  exact
    { rom := fun file hfile k hk hfit => main_rom s hboot ps hfile hk hfit
      addresses := fun event hevent => main_addresses s hboot ps hevent
      interrupts := fun n => entries_le_raisedBy hboot.idle (mainRun_run s e ps) n
      floppy := main_floppy s hboot ps
      rxFifo := hrx
      txFifo := htx
      idle := hidle
      frames := hframes.log
      segments := (main_segments s hboot ps).numbered }

/-- A ROM that halts at once, and no images. -/
def haltBoot : Boot Unit where
  rom := some [0xF4]
  romAddress := 0xFFFF0
  floppyA := none
  floppyB := none
  spt := 0
  hardDisk := none
  ttyFails _ := false
  clock := secondPastNine
  edfs := edfsInit []
  host := ()

/-- An emulator with a TTY, on a host without a network. -/
def plainSetting : Setting Unit where
  tty := true
  hardDisk := false
  host := failingHost
  isupperElse _ := false
  neighbour := { read := fun _ => 0, write := fun _ c => c }

/-- The emulator that executes the `HLT`. -/
def haltStart : Emulator Unit := (mainStart haltBoot).get (by decide)

/-- A pass in which a byte arrives from the TTY. -/
def bytePass : Pass where
  eaddr := 0
  fuel := 1
  curses := { ch := err, bstate := .other }
  received := some 0x41
  loads := []

theorem main_consistent_halt :
    (runAll (mainAfter plainSetting) haltStart [bytePass, bytePass]).Consistent haltBoot :=
  main_consistent plainSetting (Option.some_get _).symm _

end Pc20iii
