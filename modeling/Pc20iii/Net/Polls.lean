import Pc20iii.Net.Tcp

/-!
# The network, socket by socket

A poll of the network comes to several sockets, one after the other. The steps here are finer: a
step of the main loop is about one socket, and between two of them the rest of the emulator may
call the host, which leaves in `errno` what it likes.

* `lanAfter_eq_runAll`: the steps of `lanAfter` are runs of these.
* `tcp_socketAfter`: what a step does to the connections.
-/

namespace Pc20iii

open StateProgram

variable {η : Type} (host : Host η)

/-- What happens next to the network. -/
inductive SocketStep (η : Type) where
  /-- The guest transmits a frame. -/
  | transmit (tx : ℕ → Byte) (txLen : Word)
  /-- The main loop comes to a UDP socket. -/
  | checkUdp (i : Slot)
  /-- The main loop comes to a TCP socket. -/
  | checkTcp (i : Slot)
  /-- The card takes the frame for the guest. -/
  | taken
  /-- Other calls of the host. -/
  | other (h : η)

/-- The loop of `net_execute` over the UDP sockets. -/
def netPollUdp : List Slot → N η Bool :=
  netPoll (fun n i => (n.udpSockets i).fd != -1) (netCheckUdpSocket host)

/-- The loop of `net_execute` over the TCP sockets. -/
def netPollTcp : List Slot → N η Bool :=
  netPoll (fun n i => (n.tcpSockets i).fd != -1) (netCheckTcpSocket host)

/-- The network after a step. -/
def socketAfter (l : Lan η) : SocketStep η → Lan η
  | .transmit tx txLen => (outcome (netTxFrame host tx txLen) l).2
  | .checkUdp i => (outcome (netPollUdp host [i]) l).2
  | .checkTcp i => (outcome (netPollTcp host [i]) l).2
  | .taken => { l with net := { l.net with rxReady := false } }
  | .other h => { l with host := h }

/-- The finer steps of a step. -/
def LanStep.socketSteps : LanStep → List (SocketStep η)
  | .transmit tx txLen => [.transmit tx txLen]
  | .poll => (List.finRange 5).map .checkUdp ++ (List.finRange 5).map .checkTcp
  | .taken => [.taken]

/-! ### Loops over the sockets -/

section Poll

variable (isOpen : Net → Slot → Bool) (check : Slot → N η Unit)

theorem outcome_netPoll_of_ready {l : Lan η} (h : l.net.rxReady = true) (slots : List Slot) :
    (outcome (netPoll isOpen check slots) l).2 = l := by
  cases slots with
  | nil => rfl
  | cons i rest =>
    rw [netPoll, outcome_bind, outcome_getNet]
    exact congrArg Prod.snd (congrArg (fun x : N η Bool => outcome x l) (if_pos h))

/-- The loop does what its passes do. -/
theorem outcome_netPoll (slots : List Slot) (l : Lan η) :
    (outcome (netPoll isOpen check slots) l).2 =
      slots.foldl (fun l i => (outcome (netPoll isOpen check [i]) l).2) l := by
  induction slots generalizing l with
  | nil => rfl
  | cons i rest ih =>
    rw [List.foldl_cons, ← ih]
    -- a pending frame stops the loop, and each of the passes
    cases hready : l.net.rxReady with
    | true => rw [outcome_netPoll_of_ready isOpen check hready,
        outcome_netPoll_of_ready isOpen check hready, outcome_netPoll_of_ready isOpen check hready]
    | false =>
      have hnot : ¬ l.net.rxReady = true := by rw [hready]; exact Bool.false_ne_true
      simp only [netPoll, outcome_bind, outcome_getNet, if_neg hnot]
      rfl

/-- A loop that does not run to its end has met a frame. -/
theorem rxReady_of_netPoll {slots : List Slot} {l : Lan η}
    (h : (outcome (netPoll isOpen check slots) l).1 = false) :
    (outcome (netPoll isOpen check slots) l).2.net.rxReady = true := by
  induction slots generalizing l with
  | nil => cases h
  | cons i rest ih =>
    rw [netPoll, outcome_bind, outcome_getNet] at h ⊢
    dsimp only at h ⊢
    split at h
    · rw [if_pos (by assumption)]
      assumption
    · rw [if_neg (by assumption)]
      exact ih h

end Poll

/-- **A step of the network is a run of the finer steps.** -/
theorem lanAfter_eq_runAll (l : Lan η) (s : LanStep) :
    lanAfter host l s = runAll (socketAfter host) l s.socketSteps := by
  cases s with
  | transmit tx txLen => rfl
  | taken => rfl
  | poll =>
    have hudp : ∀ (slots : List Slot) (l : Lan η),
        runAll (socketAfter host) l (slots.map .checkUdp) =
          (outcome (netPollUdp host slots) l).2 := by
      intro slots l
      rw [netPollUdp, outcome_netPoll, runAll, List.foldl_map]
      rfl
    have htcp : ∀ (slots : List Slot) (l : Lan η),
        runAll (socketAfter host) l (slots.map .checkTcp) =
          (outcome (netPollTcp host slots) l).2 := by
      intro slots l
      rw [netPollTcp, outcome_netPoll, runAll, List.foldl_map]
      rfl
    rw [LanStep.socketSteps, runAll_append, hudp, htcp]
    change (outcome (netExecute host) l).2 = _
    have hexecute : netExecute host = (do
        if ← netPollUdp host (List.finRange 5) then
          let _ ← netPollTcp host (List.finRange 5)) := rfl
    rw [hexecute, outcome_bind]
    -- a frame that waits for the guest ends the poll, and the TCP sockets are not reached
    cases hend : (outcome (netPollUdp host (List.finRange 5)) l).1 with
    | true => rfl
    | false => exact (outcome_netPoll_of_ready _ _ (rxReady_of_netPoll _ _ hend) _).symm

/-! ### Connections -/

/-- The loop comes to the TCP socket and polls it. -/
def Lan.Polled (l : Lan η) (i : Slot) : Prop :=
  l.net.rxReady = false ∧ (l.net.tcpSockets i).fd ≠ -1

instance (l : Lan η) (i : Slot) : Decidable (l.Polled i) := inferInstanceAs (Decidable (_ ∧ _))

/-- A pass of the loop over one socket polls it, if it is open and no frame is pending. -/
theorem socketAfter_checkTcp (l : Lan η) (i : Slot) :
    socketAfter host l (.checkTcp i) =
      if l.Polled i then (outcome (netCheckTcpSocket host i) l).2 else l := by
  have hpass : socketAfter host l (.checkTcp i) = (outcome (netPollTcp host [i]) l).2 := rfl
  rw [hpass, netPollTcp, netPoll, outcome_bind, outcome_getNet]
  dsimp only
  split
  -- a frame is pending, so the pass does nothing
  case isTrue hready =>
    rw [if_neg]
    · rfl
    · exact fun h : l.Polled i => absurd (h.1.symm.trans hready) Bool.false_ne_true
  case isFalse hready =>
    have hidle : l.net.rxReady = false := Bool.eq_false_iff.mpr hready
    rw [outcome_bind]
    split
    case isTrue hopen =>
      rw [if_pos ⟨hidle, bne_iff_ne.mp hopen⟩]
      rfl
    case isFalse hclosed =>
      rw [if_neg]
      · rfl
      · exact fun h : l.Polled i => hclosed (bne_iff_ne.mpr h.2)

/-- What a step does to the connections. -/
theorem tcp_socketAfter (l : Lan η) (s : SocketStep η) :
    (∃ tx txLen i fd, s = .transmit tx txLen ∧ SynAccepted host l tx i fd ∧
      (socketAfter host l s).tcp = l.tcp.accept i fd (tcpTuple tx) (tcpSeq tx + 1)) ∨
    (∃ tx txLen i, s = .transmit tx txLen ∧ SegmentFor l tx i ∧
      (socketAfter host l s).tcp = l.tcp.apply i (tcpFlags tx) (tcpSeq tx) (tcpRange tx)
        (host.takes tx (tcpRange tx) i l)) ∨
    (∃ i, s = .checkTcp i ∧ l.Polled i ∧ (socketAfter host l s).tcp =
      l.tcp.check i (host.received i l).1 (host.errno (host.received i l).2 = eagain)) ∨
    ((∀ tx txLen i, s = .transmit tx txLen → ¬ SegmentFor l tx i) ∧
      (∀ i, s = .checkTcp i → ¬ l.Polled i) ∧
      ((socketAfter host l s).tcp = l.tcp ∨
        ∃ i, ¬ l.tcp.IsOpen i ∧ (socketAfter host l s).tcp = l.tcp.close i)) := by
  cases s with
  | transmit tx txLen =>
    rcases tcp_transmit_cases host l tx txLen with ⟨i, fd, h, hafter⟩ | ⟨i, h, hafter⟩ |
      ⟨hnone, hafter⟩
    · exact .inl ⟨tx, txLen, i, fd, rfl, h, hafter⟩
    · exact .inr (.inl ⟨tx, txLen, i, rfl, h, hafter⟩)
    · refine .inr (.inr (.inr ⟨?_, nofun, hafter⟩))
      rintro _ _ i ⟨⟩
      exact hnone i
  -- datagrams are not about connections
  | checkUdp i =>
    refine .inr (.inr (.inr ⟨nofun, nofun, .inl ?_⟩))
    have hpass : socketAfter host l (.checkUdp i) = (outcome (netPollUdp host [i]) l).2 := rfl
    rw [hpass, netPollUdp]
    exact tcp_of_generated inferInstance l
  | checkTcp i =>
    rw [socketAfter_checkTcp]
    by_cases h : l.Polled i
    · rw [if_pos h]
      exact .inr (.inr (.inl ⟨i, rfl, h, tcp_netCheckTcpSocket host i l⟩))
    · rw [if_neg h]
      refine .inr (.inr (.inr ⟨nofun, ?_, .inl rfl⟩))
      rintro _ ⟨⟩
      exact h
  | taken => exact .inr (.inr (.inr ⟨nofun, nofun, .inl rfl⟩))
  | other h => exact .inr (.inr (.inr ⟨nofun, nofun, .inl rfl⟩))

end Pc20iii
