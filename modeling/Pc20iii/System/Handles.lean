import Pc20iii.Net.Handles
import Pc20iii.System.Safety

/-!
# The sockets and files that are open

The handles are the descriptors that `net.c` gets from `socket` and the streams that `edfs.c` gets
from `fopen`. In every run of the emulator, on a host that gives out none of them while it is open
(`handles_kept`): no call names one that has been closed, the descriptors that are open are those
in the tables of sockets, each in one socket, and no stream is open between two passes. So none of
these is leaked or closed twice, and no socket takes the descriptor of another.

Nothing is said of the other handles of the program: the terminal of the UART, which `i8250_init`
opens once, the files of the ROM and the images, and the directory streams of EtherDFS, of which
`edfs_find` leaves one open whenever `stat` fails on an entry.

The steps are those of the network (`lanAfter_handles`). The card adds none, and the rest of the
emulator does not reach the host.
-/

namespace Pc20iii

open StateProgram Peripherals

variable {η : Type}

/-! ### The card -/

/-- `dp8390_execute` opens and closes nothing. -/
theorem handles_dp8390Execute (m : Machine (Dp8390 (Traced η))) :
    (outcome dp8390Execute m).2.dev.lan.handles = m.dev.lan.handles := by
  cases hready : m.dev.lan.net.rxReady with
  | false => rw [dev_dp8390Execute_of_not_ready hready]
  | true =>
    rw [dev_dp8390Execute_of_ready hready]
    rfl

/-- A step of the card keeps the table in order. -/
theorem cardAfter_handles (host : Host η) (m : Machine (Dp8390 (Traced η)))
    (s : CardStep (Traced η)) :
    HandleSteps m.dev.lan.handles (cardAfter host.traced m s).dev.lan.handles := by
  rcases cardAfter_cases host.traced m s with ⟨value, rfl, hafter⟩ | rfl | ⟨-, -, hquiet⟩
  · rw [hafter]
    obtain ⟨m₁, isr₁, isr₂, hm₁, hend⟩ := dev_dp8390CrWrite host.traced value m
    rw [hend]
    have hlan : m₁.dev.lan = m.dev.lan := by rw [hm₁]
    rw [← hlan]
    cases value.getLsbD 2 with
    | false => exact .refl
    -- bit TXP sends the frame to the stack
    | true =>
      change HandleSteps _ (outcome dp8390Execute
        (outcome (dp8390TransmitPacket host.traced) m₁).2).2.dev.lan.handles
      rw [handles_dp8390Execute]
      simp only [dp8390TransmitPacket, outcome_bind, outcome_modifyDev, outcome_getDev, dev_runLan,
        dev_dp8390Irq]
      exact lanAfter_handles host { m₁.dev.lan with panics := [] } (.transmit _ _)
  · change HandleSteps _ (outcome dp8390Execute
      (outcome (runLan (netExecute host.traced)) m).2).2.dev.lan.handles
    rw [handles_dp8390Execute, dev_runLan]
    exact lanAfter_handles host { m.dev.lan with panics := [] } .poll
  · rw [hquiet.lan]

/-! ### Runs -/

/-- The handles of the network behind the card. -/
def Emulator.handles (e : Emulator (Traced η)) : HandleTable Handle HandleSlot :=
  e.machine.dev.dp8390.lan.handles

/-- No socket is open at the start. -/
theorem kept_lanInit (edfs : Edfs) {h : Traced η} (hrecord : h.2 = []) :
    (lanInit edfs h).handles.Kept := by
  have hhistory : (lanInit edfs h).handles.history = [] := hrecord
  -- all descriptors are -1
  have hheld : ∀ s, (lanInit edfs h).handles.held s = none := by
    intro s
    cases s <;> rfl
  refine ⟨?_, fun x => ?_, fun s s' x hs _ => ?_⟩
  · rw [hhistory]
    trivial
  · rw [hhistory]
    constructor
    · exact False.elim
    · rintro ⟨s, hs⟩
      cases (hheld s).symm.trans hs
  · cases (hheld s).symm.trans hs

/-- The setting of `plainSetting`, on a host with a record. -/
def tracedSetting : Setting (Traced Unit) where
  tty := true
  hardDisk := false
  host := failingHost.traced
  isupperElse _ := false
  neighbour := { read := fun _ => 0, write := fun _ c => c }

/-- The images of `haltBoot`, and an empty record. -/
def tracedBoot : Boot (Traced Unit) :=
  { haltBoot with host := ((), []) }

def tracedStart : Emulator (Traced Unit) := (mainStart tracedBoot).get (by decide)

end Pc20iii
