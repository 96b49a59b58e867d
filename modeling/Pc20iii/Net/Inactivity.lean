import Pc20iii.Net.Polls
import Pc20iii.Net.Bounds

/-!
# The timer of a connection

A TCP socket is closed after a certain time of inactivity, which its polls count.
`net_handle_tcp` means to reset the counter for each segment of the guest, but resets that of the
UDP socket with the same index. So a segment does what it should exactly when both counters are
0 already, or the UDP one is and the segment closes the connection (`resetsTimer_iff`); and as
long as this is so, a connection is closed for inactivity only after enough idle polls
(`closed_when_idle_iff`).
-/

namespace Pc20iii

open StateProgram

/-! ### Segments -/

/-- A segment with these flags leaves the connection open, if `send` takes that much. -/
def LeavesOpen (flags : Byte) (taken : Option ℕ) : Prop :=
  flags = flagsAck ∨ flags = flagsRst ∨ flags = flagsPshAck ∧ taken ≠ none

namespace Tcp

variable {i : Slot} {t : Tcp} (flags : Byte) (seq : BitVec 32) (data : ℕ × ℕ) (taken : Option ℕ)

/-- A segment leaves the counter alone, and its flags decide whether the socket stays open. -/
theorem apply_timer (hopen : t.IsOpen i) :
    ((t.apply i flags seq data taken).sockets i).inactivityTimeout =
        (t.sockets i).inactivityTimeout ∧
      ((t.apply i flags seq data taken).IsOpen i ↔ LeavesOpen flags taken) := by
  have hopen' : (t.sockets i).fd ≠ -1 := hopen
  unfold apply LeavesOpen IsOpen
  dsimp only
  -- the flags in the order of the source
  split
  case isTrue h => simp [h, hopen']
  case isFalse hack =>
  split
  case isTrue h => simp [h, hopen']
  case isFalse hrst =>
  split
  case isTrue h =>
    subst h
    cases taken <;> simp [hack, hrst, hopen']
  case isFalse hpsh =>
  split
  · simp [hack, hrst, hpsh]
  split <;> simp [hack, hrst, hpsh]

end Tcp

variable {η : Type} (host : Host η) {l : Lan η} {tx : ℕ → Byte} {i : Slot}

instance (l : Lan η) (tx : ℕ → Byte) (i : Slot) : Decidable (SegmentFor l tx i) :=
  decidable_of_iff (IsTcpFrame tx ∧ tcpFlags tx ≠ flagsSyn ∧
    l.net.findTcp (tcpTuple tx) = some i)
    ⟨fun ⟨hframe, hflags, hfound⟩ => ⟨hframe, hflags, hfound⟩,
      fun h => ⟨h.frame, h.flags, h.found⟩⟩

/-- The UDP sockets are left alone, and the counter of the TCP socket is 0, if it is open. -/
structure ResetsTimer (i : Slot) (l l' : Lan η) : Prop where
  udp : l'.net.udpSockets = l.net.udpSockets
  tcp : (l'.net.tcpSockets i).fd ≠ -1 → (l'.net.tcpSockets i).inactivityTimeout = 0

/-- The counters are 0 already, but for that of a connection that the segment closes. -/
structure TimersClear (l : Lan η) (tx : ℕ → Byte) (i : Slot) : Prop where
  udp : (l.net.udpSockets i).inactivityTimeout = 0
  tcp : LeavesOpen (tcpFlags tx) (host.takes tx (tcpRange tx) i l) →
    (l.net.tcpSockets i).inactivityTimeout = 0

theorem udpSockets_transmit_of_segment (h : SegmentFor l tx i) (txLen : Word) :
    (outcome (netTxFrame host tx txLen) l).2.net.udpSockets =
      Function.update l.net.udpSockets i { l.net.udpSockets i with inactivityTimeout := 0 } := by
  rw [outcome_netTxFrame_tcp host h.frame, netTcpDispatch, if_neg h.flags, outcome_bind,
    outcome_getNet]
  dsimp only
  rw [net_reading, h.found]
  dsimp only
  rw [udpSockets_netTcpApply, net_reading]

/-- **One segment.** -/
theorem resetsTimer_iff (h : SegmentFor l tx i) (txLen : Word) :
    ResetsTimer i l (outcome (netTxFrame host tx txLen) l).2 ↔ TimersClear host l tx i := by
  -- the source resets the timer of the UDP socket with the same number
  have hudp := udpSockets_transmit_of_segment host h txLen
  have hopen : l.tcp.IsOpen i := (findTcp_eq_some h.found).1
  obtain ⟨htimer, hleaves⟩ := Tcp.apply_timer (tcpFlags tx) (tcpSeq tx) (tcpRange tx)
    (host.takes tx (tcpRange tx) i l) hopen
  rw [← tcp_transmit_of_segment host h txLen] at htimer hleaves
  constructor
  · rintro ⟨hkept, hzero⟩
    refine ⟨?_, fun hstays => ?_⟩
    · rw [hudp] at hkept
      have hsocket := congrFun hkept i
      rw [Function.update_self] at hsocket
      exact (congrArg NetUdpSocket.inactivityTimeout hsocket).symm
    · exact htimer.symm.trans (hzero (hleaves.mpr hstays))
  · rintro ⟨hclear, hzero⟩
    refine ⟨?_, fun hstays => ?_⟩
    · have hsocket : ({ l.net.udpSockets i with inactivityTimeout := 0 } : NetUdpSocket) =
          l.net.udpSockets i := by
        rw [← hclear]
      rw [hudp, hsocket, Function.update_eq_self]
    · exact htimer.trans (hzero (hleaves.mp hstays))

/-! ### Idle polls -/

/-- The step calls `recv` for socket `i`. -/
def CallsRecv (i : Slot) (l : Lan η) (s : SocketStep η) : Prop :=
  s = .checkTcp i ∧ l.Polled i ∧ ¬ (l.net.tcpSockets i).ackWait > 0

/-- A poll that finds nothing. -/
structure IdlePoll (i : Slot) (l : Lan η) (s : SocketStep η) : Prop where
  calls : CallsRecv i l s
  received : (host.received i l).1 = none
  errno : host.errno (host.received i l).2 = eagain

/-- The network, and how many polls of a socket have been idle since its connection was opened,
the guest has sent a segment or the host has sent data. -/
structure Watched (η : Type) where
  lan : Lan η
  idle : ℕ

/-- The count of the idle polls after a step. -/
def idleAfter (i : Slot) (w : Watched η) : SocketStep η → ℕ
  | .transmit tx _ =>
    if (w.lan.net.tcpSockets i).fd = -1 ∨ SegmentFor w.lan tx i then 0 else w.idle
  | .checkTcp j =>
    if j = i ∧ w.lan.Polled i ∧ ¬ (w.lan.net.tcpSockets i).ackWait > 0 then
      match (host.received i w.lan).1 with
      | none => if host.errno (host.received i w.lan).2 = eagain then w.idle + 1 else w.idle
      | some bytes => if bytes = [] then w.idle else 0
    else w.idle
  | _ => w.idle

/-- The network after a step, with the count. -/
def watchedAfter (i : Slot) (w : Watched η) (s : SocketStep η) : Watched η where
  lan := socketAfter host w.lan s
  idle := idleAfter host i w s

/-- The step closes the connection for inactivity. -/
def ClosesIdle (i : Slot) (l : Lan η) (s : SocketStep η) : Prop :=
  IdlePoll host i l s ∧ ¬ (socketAfter host l s).tcp.IsOpen i

/-- A segment of the guest resets the counter and leaves the UDP sockets alone, and a connection
is closed for inactivity only after more idle polls than the timeout. -/
structure TimerRight (i : Slot) (w : Watched η) (s : SocketStep η) : Prop where
  segment : ∀ tx txLen, s = .transmit tx txLen → SegmentFor w.lan tx i →
    ResetsTimer i w.lan (socketAfter host w.lan s)
  closes : ClosesIdle host i w.lan s → netSocketInactivityTimeout < idleAfter host i w s

/-- The segments of the guest find their counters at 0. -/
def SegmentsClear (i : Slot) (w : Watched η) (s : SocketStep η) : Prop :=
  ∀ tx txLen, s = .transmit tx txLen → SegmentFor w.lan tx i → TimersClear host w.lan tx i

/-- The counter of an open socket is at most the count. -/
def Watched.Timed (i : Slot) (w : Watched η) : Prop :=
  w.lan.tcp.IsOpen i → (w.lan.tcp.sockets i).inactivityTimeout ≤ w.idle

theorem idleAfter_of_idle {i : Slot} {w : Watched η} {s : SocketStep η}
    (h : IdlePoll host i w.lan s) : idleAfter host i w s = w.idle + 1 := by
  obtain ⟨⟨rfl, hpolled, hwait⟩, hreceived, herrno⟩ := h
  rw [idleAfter, if_pos ⟨rfl, hpolled, hwait⟩, hreceived]
  exact if_pos herrno

/-- A poll counts, resets the counter because of data, or leaves it. -/
theorem timer_check {t : Tcp} (received : Option (List Byte)) (again : Bool) :
    ((t.check i received again).sockets i).inactivityTimeout =
      if (t.sockets i).ackWait > 0 then (t.sockets i).inactivityTimeout
      else match received with
        | none => if again then (t.sockets i).inactivityTimeout + 1
          else (t.sockets i).inactivityTimeout
        | some bytes =>
          if bytes.length = 0 ∧ again then (t.sockets i).inactivityTimeout else 0 := by
  unfold Tcp.check
  split
  · rw [Tcp.sockets_modify_self]
  -- a failure counts if it is EAGAIN, and data resets the counter
  cases received with
  | none =>
    dsimp only
    split
    · split
      · rw [Tcp.sockets_shut_self, Tcp.sockets_modify_self]
      · rw [Tcp.sockets_modify_self]
    · rw [Tcp.sockets_shut_self]
  | some bytes =>
    dsimp only
    split
    · split
      · rw [Tcp.sockets_modify_self, Tcp.sockets_emit_self]
      · rfl
    · rw [Tcp.sockets_emit_self, Tcp.sockets_modify_self]

/-- A step that leaves the socket alone, and the count as well if the socket is open. -/
theorem timed_of_same {i : Slot} {w : Watched η} {s : SocketStep η} (h : w.Timed i)
    (hsocket : (socketAfter host w.lan s).tcp.sockets i = w.lan.tcp.sockets i)
    (hidle : w.lan.tcp.IsOpen i → idleAfter host i w s = w.idle) :
    (watchedAfter host i w s).Timed i := by
  intro hopen'
  change ((socketAfter host w.lan s).tcp.sockets i).inactivityTimeout ≤ idleAfter host i w s
  change ((socketAfter host w.lan s).tcp.sockets i).fd ≠ -1 at hopen'
  rw [hsocket] at hopen' ⊢
  rw [hidle hopen']
  exact h hopen'

/-- A connection that is accepted starts with its counter at 0. -/
theorem timed_accepted {i j : Slot} {w : Watched η} {tx : ℕ → Byte} {txLen : Word} {fd : ℕ}
    (h : w.Timed i) (hsyn : SynAccepted host w.lan tx j fd)
    (hafter : (socketAfter host w.lan (.transmit tx txLen)).tcp =
      w.lan.tcp.accept j fd (tcpTuple tx) (tcpSeq tx + 1)) :
    (watchedAfter host i w (.transmit tx txLen)).Timed i := by
  -- the new connection starts from 0, and the others are left alone
  by_cases hji : j = i
  · subst hji
    intro _
    change ((socketAfter host w.lan (.transmit tx txLen)).tcp.sockets j).inactivityTimeout ≤
      idleAfter host j w (.transmit tx txLen)
    rw [hafter, Tcp.sockets_accept_self]
    exact Int.natCast_nonneg _
  · refine timed_of_same host h ?_ fun hopen => if_neg ?_
    · rw [hafter, Tcp.sockets_accept_of_ne (Ne.symm hji)]
    · rintro (hfree | hfor)
      · exact hopen hfree
      · -- a SYN is a segment for no connection
        exact hfor.flags hsyn.flags

/-- A segment restarts the count; that it does not reset the counter makes no difference if the
counter is 0. -/
theorem timed_applied {i j : Slot} {w : Watched η} {tx : ℕ → Byte} {txLen : Word}
    (h : w.Timed i) (hsegment : SegmentFor w.lan tx j)
    (hclear : SegmentsClear host i w (.transmit tx txLen))
    (hafter : (socketAfter host w.lan (.transmit tx txLen)).tcp =
      w.lan.tcp.apply j (tcpFlags tx) (tcpSeq tx) (tcpRange tx)
        (host.takes tx (tcpRange tx) j w.lan)) :
    (watchedAfter host i w (.transmit tx txLen)).Timed i := by
  by_cases hji : j = i
  · subst hji
    intro hopen'
    change ((socketAfter host w.lan (.transmit tx txLen)).tcp.sockets j).inactivityTimeout ≤
      idleAfter host j w (.transmit tx txLen)
    have hopen : w.lan.tcp.IsOpen j := (findTcp_eq_some hsegment.found).1
    obtain ⟨htimer, hleaves⟩ := Tcp.apply_timer (tcpFlags tx) (tcpSeq tx) (tcpRange tx)
      (host.takes tx (tcpRange tx) j w.lan) hopen
    rw [← hafter] at htimer hleaves
    -- the code resets another timer, but this one is 0 already
    have hzero : (w.lan.tcp.sockets j).inactivityTimeout = 0 :=
      (hclear tx txLen rfl hsegment).tcp (hleaves.mp hopen')
    rw [htimer, hzero]
    exact Int.natCast_nonneg _
  · refine timed_of_same host h ?_ fun hopen => if_neg ?_
    · rw [hafter, Tcp.sockets_apply_of_ne (Ne.symm hji)]
    · rintro (hfree | hfor)
      · exact hopen hfree
      · -- the segment would be one for both sockets
        exact hji (Option.some.inj (hsegment.found.symm.trans hfor.found))

/-- A poll counts one more in both, or restarts them with the data that it finds. -/
theorem timed_polled {i j : Slot} {w : Watched η} (h : w.Timed i) (hpolled : w.lan.Polled j)
    (hafter : (socketAfter host w.lan (.checkTcp j)).tcp =
      w.lan.tcp.check j (host.received j w.lan).1
        (host.errno (host.received j w.lan).2 = eagain)) :
    (watchedAfter host i w (.checkTcp j)).Timed i := by
  by_cases hji : j = i
  · subst hji
    intro _
    -- the poll is of this socket: both counters see the same result of `recv`
    change ((socketAfter host w.lan (.checkTcp j)).tcp.sockets j).inactivityTimeout ≤
      idleAfter host j w (.checkTcp j)
    have htimer := timer_check (t := w.lan.tcp) (i := j) (host.received j w.lan).1
      (decide (host.errno (host.received j w.lan).2 = eagain))
    have hle := h hpolled.2
    rw [← hafter] at htimer
    by_cases hwait : (w.lan.tcp.sockets j).ackWait > 0
    · -- while data waits for its ACK there is no call of `recv`, and both stay
      have hcount : idleAfter host j w (.checkTcp j) = w.idle :=
        if_neg fun hcalls => hcalls.2.2 hwait
      rw [htimer, if_pos hwait, hcount]
      exact hle
    have hcount : idleAfter host j w (.checkTcp j) =
        match (host.received j w.lan).1 with
        | none => if host.errno (host.received j w.lan).2 = eagain then w.idle + 1 else w.idle
        | some bytes => if bytes = [] then w.idle else 0 :=
      if_pos ⟨rfl, hpolled, hwait⟩
    rw [htimer, if_neg hwait, hcount]
    cases (host.received j w.lan).1 with
    | none =>
      simp only [decide_eq_true_eq]
      split
      · push_cast
        omega
      · exact hle
    | some bytes =>
      simp only [decide_eq_true_eq, List.length_eq_zero_iff]
      by_cases hbytes : bytes = []
      · -- a closed connection: the counter stays or is reset, by `errno`, and the count stays
        rw [if_pos hbytes]
        split <;> omega
      · -- data arrived, and both are zero
        rw [if_neg fun hempty => hbytes hempty.1, if_neg hbytes]
        exact Int.natCast_nonneg 0
  · -- a poll of another socket changes neither counter
    refine timed_of_same host h ?_ fun _ => if_neg fun hcalls => hji hcalls.1
    rw [hafter, Tcp.sockets_check_of_ne (Ne.symm hji)]

/-- The steps that are about no connection. -/
theorem timed_other {i : Slot} {w : Watched η} {s : SocketStep η} (h : w.Timed i)
    (hnone : ∀ tx txLen j, s = .transmit tx txLen → ¬ SegmentFor w.lan tx j)
    (hnot : ∀ j, s = .checkTcp j → ¬ w.lan.Polled j)
    (hafter : (socketAfter host w.lan s).tcp = w.lan.tcp ∨
      ∃ j, ¬ w.lan.tcp.IsOpen j ∧ (socketAfter host w.lan s).tcp = w.lan.tcp.close j) :
    (watchedAfter host i w s).Timed i := by
  by_cases hsocket : (socketAfter host w.lan s).tcp.sockets i = w.lan.tcp.sockets i
  · refine timed_of_same host h hsocket fun hopen => ?_
    -- a counter is reset or counted by steps about the socket only
    cases s with
    | transmit tx txLen =>
      refine if_neg ?_
      rintro (hfree | hfor)
      · exact hopen hfree
      · exact hnone tx txLen i rfl hfor
    | checkTcp j =>
      refine if_neg ?_
      rintro ⟨rfl, hpolled, -⟩
      exact hnot j rfl hpolled
    | _ => rfl
  · -- the socket has been closed, so that nothing is asked of its counter
    intro hopen'
    rcases hafter with hafter | ⟨j, -, hafter⟩
    · exact absurd (by rw [hafter]) hsocket
    · have hji : j = i := by
        by_contra hji
        exact hsocket (by rw [hafter, Tcp.sockets_close_of_ne (Ne.symm hji)])
      change ((socketAfter host w.lan s).tcp.sockets i).fd ≠ -1 at hopen'
      rw [hafter, hji, Tcp.sockets_close_self] at hopen'
      exact absurd rfl hopen'

/-- The count goes along with the counter. -/
theorem timed_watchedAfter {i : Slot} {w : Watched η} {s : SocketStep η} (h : w.Timed i)
    (hclear : SegmentsClear host i w s) : (watchedAfter host i w s).Timed i := by
  rcases tcp_socketAfter host w.lan s with ⟨tx, txLen, j, fd, rfl, hsyn, hafter⟩ |
    ⟨tx, txLen, j, rfl, hsegment, hafter⟩ | ⟨j, rfl, hpolled, hafter⟩ | ⟨hnone, hnot, hafter⟩
  · exact timed_accepted host h hsyn hafter
  · exact timed_applied host h hsegment hclear hafter
  · exact timed_polled host h hpolled hafter
  · exact timed_other host h hnone hnot hafter

/-- A poll that closes an idle connection has counted enough of them. -/
theorem timeout_lt_of_closesIdle {i : Slot} {w : Watched η} {s : SocketStep η} (h : w.Timed i)
    (hcloses : ClosesIdle host i w.lan s) :
    netSocketInactivityTimeout < idleAfter host i w s := by
  obtain ⟨hidle, hclosed⟩ := hcloses
  rw [idleAfter_of_idle host hidle]
  obtain ⟨⟨rfl, hpolled, hwait⟩, hreceived, herrno⟩ := hidle
  have hopen : w.lan.tcp.IsOpen i := hpolled.2
  have hle := h hopen
  rw [socketAfter_checkTcp, if_pos hpolled, tcp_netCheckTcpSocket, hreceived, Tcp.IsOpen,
    decide_eq_true herrno] at hclosed
  unfold Tcp.check at hclosed
  rw [if_neg (show ¬ (w.lan.tcp.sockets i).ackWait > 0 from hwait)] at hclosed
  simp only [if_true] at hclosed
  -- with fewer polls the guard of the source is not met, and the socket stays open
  by_contra hfew
  rw [if_neg] at hclosed
  · rw [Tcp.sockets_modify_self] at hclosed
    exact hclosed hopen
  · rw [Tcp.sockets_modify_self]
    dsimp only
    push_cast at hfew
    omega

/-- **The timer of a connection.** In every run from a state whose counter is at most the count
of idle polls, the segments of the guest reset the counter and leave the UDP sockets alone, and
the connection is closed for inactivity only after more idle polls than the timeout, exactly when
each segment finds its counters at 0 already. -/
theorem closed_when_idle_iff {i : Slot} {w : Watched η} (h : w.Timed i)
    (steps : List (SocketStep η)) :
    Along (watchedAfter host i) (TimerRight host i) w steps ↔
      Along (watchedAfter host i) (SegmentsClear host i) w steps := by
  refine along_iff (I := fun w => w.Timed i) (fun w s => timed_watchedAfter host) ?_ h steps
  intro w s htimed
  constructor
  · rintro ⟨hsegment, -⟩ tx txLen rfl hfor
    exact (resetsTimer_iff host hfor txLen).mp (hsegment tx txLen rfl hfor)
  · intro hclear
    refine ⟨?_, timeout_lt_of_closesIdle host htimed⟩
    rintro tx txLen rfl hfor
    exact (resetsTimer_iff host hfor txLen).mpr (hclear tx txLen rfl hfor)

/-- An ACK of the guest, from port 0 to port 0 of the address 0.0.0.0. -/
def ackFrame (i : ℕ) : Byte :=
  if i = 0x0C then 0x08
  else if i = 0x17 then ipprotoTcp
  else if i = 0x2F then flagsAck
  else 0

/-- The network with the connection of `ackFrame` in socket 0, after this many idle polls. -/
def lanIdle (polls : ℕ) : Watched Unit where
  lan :=
    let lan := lanInit (edfsInit []) ()
    { lan with net := { netInit with tcpSockets := fun i =>
        { netInit.tcpSockets i with fd := 3, inactivityTimeout := polls } } }
  idle := polls

theorem timed_lanIdle (polls : ℕ) : (lanIdle polls).Timed 0 := fun _ => Int.le_refl polls

theorem closed_when_idle_ack :
    (lanIdle 5).Timed 0 ∧
      (Along (watchedAfter failingHost 0) (TimerRight failingHost 0) (lanIdle 5)
          [.checkTcp 0, .transmit ackFrame 60] ↔
        Along (watchedAfter failingHost 0) (SegmentsClear failingHost 0) (lanIdle 5)
          [.checkTcp 0, .transmit ackFrame 60]) :=
  ⟨timed_lanIdle 5, closed_when_idle_iff failingHost (timed_lanIdle 5) _⟩

/-- A segment does not reset the counter of its connection. -/
theorem timer_not_reset : ¬ ∀ (η : Type) (host : Host η) (i : Slot) (w : Watched η),
    w.Timed i → ∀ steps : List (SocketStep η),
      Along (watchedAfter host i) (TimerRight host i) w steps := by
  intro h
  have hrun := h Unit failingHost 0 (lanIdle 5) (timed_lanIdle 5) [.transmit ackFrame 60]
  have hfor : SegmentFor (lanIdle 5).lan ackFrame 0 := by decide +kernel
  have hclear := (resetsTimer_iff failingHost hfor 60).mp (hrun.1.segment ackFrame 60 rfl hfor)
  exact absurd (hclear.tcp (.inl (by decide))) (by decide)

end Pc20iii
