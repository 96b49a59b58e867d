import Pc20iii.Net.Guest
import Pc20iii.Net.Link
import Pc20iii.Net.PacketQueue

/-!
# What the card is offered

A step of the card, in terms of the network behind it. A call of the main loop and a write of the
command register run `dp8390_execute`, on the network as the polls or the transmission leave it
(`CardStep.offers`). Any other step does not touch the network.

* `exists_execution`: such a step is `dp8390_execute` on a card that has been offered this.
* `runAll_socketSteps`: what is offered, and what a guest then has that has read every frame, is
  what the steps of the network lead to (`CardStep.socketSteps`), socket by socket.
* `orderly_socketSteps`: these steps are in order, if no SYN is accepted for the ends of an open
  socket.
-/

namespace Pc20iii

open StateProgram Dp8390

variable {η : Type} (host : Host η)

/-! ### The network behind the card -/

/-- What a step of the card does to the network, socket by socket. -/
def CardStep.socketSteps (m : Machine (Dp8390 η)) : CardStep η → List (SocketStep η)
  | .access (.write port value) =>
    if port = 0x300 ∧ value.getLsbD 2 then
      [.transmit (m.dev.txFrame (host.stack m.dev.lan.host)) m.dev.tbcr, .taken]
    else []
  | .access _ => []
  | .tick => LanStep.poll.socketSteps ++ [.taken]

/-- The network as the card hands it its frames, the panics of earlier calls forgotten. -/
def Dp8390.calling (x : Dp8390 η) : Lan η := { x.lan with panics := [] }

/-- The network when `dp8390_execute` looks for a frame in a step of the card. -/
def CardStep.offers (m : Machine (Dp8390 η)) : CardStep η → Lan η
  | .access (.write port value) =>
    if port = 0x300 ∧ value.getLsbD 2 then
      (outcome (netTxFrame host (m.dev.txFrame (host.stack m.dev.lan.host)) m.dev.tbcr)
        m.dev.calling).2
    else m.dev.calling
  | .access _ => m.dev.calling
  | .tick => (outcome (netExecute host) m.dev.calling).2

/-- The step transmits no SYN that is accepted for ends that an open socket has. -/
def TransmitsFresh (m : Machine (Dp8390 η)) (s : CardStep η) : Prop :=
  ∀ tx txLen, .transmit tx txLen ∈ s.socketSteps host m →
    SynFresh host m.dev.calling (.transmit tx txLen)

/-- The step is a call of the main loop, or a write of the command register. -/
def CardStep.Executes (s : CardStep η) : Prop :=
  s = .tick ∨ ∃ value, s = .access (.write 0x300 value)

/-- What a step of the card is, in terms of `dp8390_execute` on a card that has the network in the
state in which it is offered. -/
structure CardStep.Execution (s : CardStep η) (m m₁ : Machine (Dp8390 η)) (isr : Byte) : Prop where
  after : (cardAfter host m s).dev = { (outcome dp8390Execute m₁).2.dev with isr := isr }
  net : m₁.dev.lan.net = (s.offers host m).net
  tcp : m₁.dev.lan.tcp = (s.offers host m).tcp
  pages : m.dev.SamePages m₁.dev
  curr : m₁.dev.curr = m.dev.curr
  crda : m₁.dev.crda = m.dev.crda
  ring : m₁.dev.ring = m.dev.ring

/-- A step that executes the card does so from a card that has the frame offered, with its ring as
it was. -/
theorem exists_execution {m : Machine (Dp8390 η)} (hidle : m.dev.lan.Idle) {s : CardStep η}
    (hs : s.Executes) : ∃ m₁ isr, s.Execution host m m₁ isr := by
  -- a poll of the main loop, and a write of the command register
  rcases hs with rfl | ⟨value, rfl⟩
  · refine ⟨(outcome (runLan (netExecute host)) m).2, _, rfl, ?_, ?_, ⟨?_, ?_⟩, ?_, ?_, ?_⟩ <;>
      rw [dev_runLan] <;> rfl
  · have hfunc : (dp8390Devices host).write 0x300 = some (dp8390RegisterWrite host) := by
      change dp8390Writes host 0x300 = _
      exact if_pos (by decide)
    have hafter : cardAfter host m (.access (.write 0x300 value)) =
        (outcome (dp8390CrWrite host value) m).2 := Devices.after_write hfunc value m
    obtain ⟨m₁, isr₁, isr₂, hm₁, hdev⟩ := dev_dp8390CrWrite host value m
    rw [← hafter] at hdev
    cases hbit : value.getLsbD 2 with
    | false =>
      -- nothing is transmitted, and no frame is pending
      have hoffers : (CardStep.access (.write 0x300 value)).offers host m = m.dev.calling := by
        refine if_neg fun h => ?_
        exact Bool.false_ne_true (hbit.symm.trans h.2)
      have hnot : m₁.dev.lan.net.rxReady = false := by
        rw [hm₁]
        exact hidle
      rw [hbit, if_neg Bool.false_ne_true, ← dev_dp8390Execute_of_not_ready hnot] at hdev
      refine ⟨m₁, isr₂, hdev, ?_, ?_, ⟨?_, ?_⟩, ?_, ?_, ?_⟩ <;> rw [hm₁]
      · rw [hoffers]
        rfl
      · rw [hoffers]
        rfl
    | true =>
      have hoffers : (CardStep.access (.write 0x300 value)).offers host m =
          (outcome (netTxFrame host (m.dev.txFrame (host.stack m.dev.lan.host)) m.dev.tbcr)
            m.dev.calling).2 := if_pos ⟨rfl, hbit⟩
      obtain ⟨isr, stores, frames, htransmit⟩ := dev_dp8390TransmitPacket_eq host (m := m₁)
      have hlan : m₁.dev.lan = m.dev.lan := by rw [hm₁]
      have htx : m₁.dev.txFrame = m.dev.txFrame := by
        rw [hm₁]
        rfl
      have htbcr : m₁.dev.tbcr = m.dev.tbcr := by rw [hm₁]
      rw [hbit, if_pos rfl] at hdev
      refine ⟨_, isr₂, hdev, ?_, ?_, ⟨?_, ?_⟩, ?_, ?_, ?_⟩ <;> rw [htransmit]
      · rw [hoffers, hlan, htx, htbcr]
        rfl
      · rw [hoffers, hlan, htx, htbcr]
        rfl
      all_goals rw [hm₁]

/-- Any other step finds the network as it is, and leaves it alone. -/
theorem quiet_of_not_executes {m : Machine (Dp8390 η)} {s : CardStep η} (hs : ¬ s.Executes) :
    s.offers host m = m.dev.calling ∧ s.socketSteps host m = [] ∧
      m.dev.Quiet (cardAfter host m s).dev := by
  rcases cardAfter_cases host m s with ⟨value, rfl, -⟩ | rfl | ⟨hcr, htick, hquiet⟩
  · exact absurd (.inr ⟨value, rfl⟩) hs
  · exact absurd (.inl rfl) hs
  rcases s with (_ | ⟨port, value⟩ | _) | _
  · exact ⟨rfl, rfl, hquiet⟩
  -- a write that does not transmit
  · have hport : ¬ (port = 0x300 ∧ value.getLsbD 2 = true) := by
      rintro ⟨rfl, -⟩
      exact hcr value rfl
    exact ⟨if_neg hport, if_neg hport, hquiet⟩
  · exact ⟨rfl, rfl, hquiet⟩
  · exact absurd rfl htick

/-- `dp8390_execute` takes the frame that is pending. -/
theorem lan_dp8390Execute (m : Machine (Dp8390 η)) :
    (outcome dp8390Execute m).2.dev.lan.tcp = m.dev.lan.tcp ∧
      (outcome dp8390Execute m).2.dev.lan.Idle := by
  cases hready : m.dev.lan.net.rxReady with
  | false =>
    rw [dev_dp8390Execute_of_not_ready hready]
    exact ⟨rfl, hready⟩
  | true =>
    rw [dev_dp8390Execute_of_ready hready]
    exact ⟨rfl, rfl⟩

/-- The connections behind a step are those that it has been offered, and no frame is pending. -/
theorem lan_cardAfter {m : Machine (Dp8390 η)} (hidle : m.dev.lan.Idle) (s : CardStep η) :
    (cardAfter host m s).dev.lan.tcp = (s.offers host m).tcp ∧
      (cardAfter host m s).dev.lan.Idle := by
  by_cases hs : s.Executes
  case pos =>
    obtain ⟨m₁, isr, hexecution⟩ := exists_execution host hidle hs
    obtain ⟨htcp, hafter⟩ := lan_dp8390Execute m₁
    rw [hexecution.after]
    exact ⟨htcp.trans hexecution.tcp, hafter⟩
  case neg =>
    obtain ⟨hoffers, -, hquiet⟩ := quiet_of_not_executes host (m := m) hs
    rw [hoffers, hquiet.lan]
    exact ⟨rfl, hidle⟩

/-! ### The two ends behind a step of the card -/

section Ends

variable {m : Machine (Dp8390 η)} {e : Ends η}

/-- What the network offers is what its steps lead to before the card takes the frame, which a
guest that has read every frame then has. -/
theorem runAll_socketSteps (he : e.lan = m.dev.calling) (hidle : m.dev.lan.Idle) (s : CardStep η) :
    let e' := runAll (endsAfter host) e (s.socketSteps host m)
    e'.lan.tcp = (s.offers host m).tcp ∧ e'.lan.Idle ∧
      e'.guest = e.guest.receive (s.offers host m).segment := by
  -- without a step of the network there is nothing new
  have hquiet : s.socketSteps host m = [] → s.offers host m = m.dev.calling →
      let e' := runAll (endsAfter host) e (s.socketSteps host m)
      e'.lan.tcp = (s.offers host m).tcp ∧ e'.lan.Idle ∧
        e'.guest = e.guest.receive (s.offers host m).segment := by
    intro hsteps hoffers
    have hnone : m.dev.calling.segment = none := Lan.Idle.segment hidle
    rw [hsteps, hoffers, hnone, runAll_nil]
    dsimp only
    rw [he]
    exact ⟨rfl, hidle, rfl⟩
  by_cases hs : s.Executes
  case neg =>
    obtain ⟨hoffers, hsteps, -⟩ := quiet_of_not_executes host (m := m) hs
    exact hquiet hsteps hoffers
  case pos =>
    rcases hs with rfl | ⟨value, rfl⟩
    · -- the polls, and then the frame is taken
      have hpoll := lanAfter_eq_runAll host m.dev.calling .poll
      have hlan : (runAll (endsAfter host) e LanStep.poll.socketSteps).lan =
          (outcome (netExecute host) m.dev.calling).2 := by
        rw [lan_endsAfter, he, ← hpoll]
        rfl
      have hguest : (runAll (endsAfter host) e LanStep.poll.socketSteps).guest = e.guest :=
        guest_endsAfter host e (by simp [LanStep.socketSteps])
      dsimp only
      rw [CardStep.socketSteps, runAll_append]
      generalize runAll (endsAfter host) e LanStep.poll.socketSteps = e' at hlan hguest ⊢
      refine ⟨?_, rfl, ?_⟩
      · change e'.lan.tcp = _
        rw [hlan]
        rfl
      · change e'.guest.receive e'.lan.segment = _
        rw [hguest, hlan]
        rfl
    · cases hbit : value.getLsbD 2 with
      | false =>
        have hnot : ¬ ((0x300 : Word) = 0x300 ∧ value.getLsbD 2 = true) := fun h =>
          Bool.false_ne_true (hbit.symm.trans h.2)
        exact hquiet (if_neg hnot) (if_neg hnot)
      | true =>
        have hsteps : (CardStep.access (.write 0x300 value)).socketSteps host m =
            [.transmit (m.dev.txFrame (host.stack m.dev.lan.host)) m.dev.tbcr, .taken] :=
          if_pos ⟨rfl, hbit⟩
        have hoffers : (CardStep.access (.write 0x300 value)).offers host m =
            (outcome (netTxFrame host (m.dev.txFrame (host.stack m.dev.lan.host)) m.dev.tbcr)
              e.lan).2 := by
          rw [he]
          exact if_pos ⟨rfl, hbit⟩
        rw [hsteps, hoffers]
        exact ⟨rfl, rfl, rfl⟩

/-- The steps of the network behind a step of the card are in order. -/
theorem orderly_socketSteps (he : e.lan = m.dev.calling) (hidle : m.dev.lan.Idle) {s : CardStep η}
    (hs : TransmitsFresh host m s) :
    Along (endsAfter host) (Ends.Orderly host) e (s.socketSteps host m) := by
  -- polls, and the card that takes the frame
  have hothers : ∀ (steps : List (SocketStep η)) (e : Ends η),
      (∀ tx txLen, .transmit tx txLen ∉ steps) →
        Along (endsAfter host) (Ends.Orderly host) e steps := by
    intro steps
    induction steps with
    | nil => exact fun _ _ => trivial
    | cons s steps ih =>
      intro e hnone
      refine ⟨?_, ih _ fun tx txLen hmem => hnone tx txLen (List.mem_cons_of_mem s hmem)⟩
      cases s with
      | transmit tx txLen => exact absurd List.mem_cons_self (hnone tx txLen)
      | _ => trivial
  rcases s with (_ | ⟨port, value⟩ | _) | _
  · trivial
  · unfold TransmitsFresh at hs
    dsimp only [CardStep.socketSteps] at hs ⊢
    split at hs
    case isTrue hcommand =>
      rw [if_pos hcommand]
      refine ⟨⟨?_, ?_⟩, trivial, trivial⟩
      · rw [he]
        exact hidle
      · rw [he]
        exact hs _ _ List.mem_cons_self
    case isFalse hcommand =>
      rw [if_neg hcommand]
      trivial
  · trivial
  · refine hothers _ _ fun tx txLen hmem => ?_
    simp [CardStep.socketSteps, LanStep.socketSteps] at hmem

/-- What the invariant of the two ends says when no frame is pending. -/
theorem Ends.Delivered.of_idle {e e' : Ends η} (h : e.Delivered) (hidle : e.lan.Idle)
    (hidle' : e'.lan.Idle) (htcp : e'.lan.tcp = e.lan.tcp) (hgiven : e'.given = e.given)
    (hguest : e'.guest = e.guest) : e'.Delivered := by
  have hhas := h.has
  rw [hidle.segment] at hhas
  refine ⟨?_, ?_, ?_⟩
  · rw [htcp]
    exact h.routed
  · rw [htcp, hidle'.segment, hgiven, hguest]
    exact hhas
  · rw [htcp, hgiven]
    exact h.free

end Ends

end Pc20iii
