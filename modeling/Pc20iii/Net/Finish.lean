import Pc20iii.Net.Polls
import Pc20iii.Net.Sequence

/-!
# The end of a connection

What the guest gets when the host has closed a connection, so that `recv` keeps returning 0.

`net_check_tcp_socket` looks at `errno` then, which `recv` has not set: only `EAGAIN` makes it
emit a FIN, and only once; any other value makes it emit a data segment without data. So the FIN
is emitted and is the last of these segments exactly when some poll finds `EAGAIN` in `errno` and
every later one does as well (`finishes_iff`). What else happens on the network, and to `errno`,
is open.
-/

namespace Pc20iii

open StateProgram

/-! ### Segments with data or a FIN -/

/-- The flags, if the event is a segment of socket `i` with data or a FIN. -/
def NetEvent.sentFlags (i : Slot) : NetEvent → Option Byte
  | .segment j _ _ flags _ =>
    if j = i ∧ (flags = flagsPshAck ∨ flags = flagsFinAck) then some flags else none
  | _ => none

/-- The segments of a connection with data or a FIN, oldest first, by their flags. -/
def sentFlags (i : Slot) (events : List NetEvent) : List Byte :=
  ((connection i events).filterMap (NetEvent.sentFlags i)).reverse

/-- One FIN, and it is the last of these segments. -/
def Finishes (sent : List Byte) : Prop :=
  ∃ n, sent = List.replicate n flagsPshAck ++ [flagsFinAck]

theorem sentFlags_cons {i : Slot} {e : NetEvent} (h : e.opens i = false)
    (events : List NetEvent) :
    sentFlags i (e :: events) = sentFlags i events ++ (e.sentFlags i).toList := by
  rw [sentFlags, connection_cons h, List.filterMap_cons, sentFlags]
  cases e.sentFlags i with
  | none => exact (List.append_nil _).symm
  | some flags => exact List.reverse_cons

theorem finishes_fin_cons (sent : List Byte) : Finishes (flagsFinAck :: sent) ↔ sent = [] := by
  constructor
  · rintro ⟨n, hn⟩
    cases n with
    | zero => exact (List.cons.inj hn).2
    | succ n => exact absurd (List.cons.inj hn).1 (by decide)
  · rintro rfl
    exact ⟨0, rfl⟩

theorem finishes_psh_cons (sent : List Byte) :
    Finishes (flagsPshAck :: sent) ↔ Finishes sent := by
  constructor
  · rintro ⟨n, hn⟩
    cases n with
    | zero => exact absurd (List.cons.inj hn).1 (by decide)
    | succ n => exact ⟨n, (List.cons.inj hn).2⟩
  · rintro ⟨n, rfl⟩
    exact ⟨n + 1, rfl⟩

theorem finishes_append {data : List Byte} (h : ∀ flags ∈ data, flags = flagsPshAck)
    (sent : List Byte) : Finishes (data ++ sent) ↔ Finishes sent := by
  induction data with
  | nil => exact Iff.rfl
  | cons flags data ih =>
    rw [h flags List.mem_cons_self, List.cons_append, finishes_psh_cons]
    exact ih fun flags hflags => h flags (List.mem_cons_of_mem _ hflags)

/-! ### The answers to polls -/

/-- What the polls emit for which `recv` returns 0, by whether `errno` is `EAGAIN`, if a FIN has
been emitted or not. -/
def finAnswers : Bool → List Bool → List Byte
  | _, [] => []
  | false, true :: again => flagsFinAck :: finAnswers true again
  | true, true :: again => finAnswers true again
  | finAckSent, false :: again => flagsPshAck :: finAnswers finAckSent again

/-- `errno` is `EAGAIN` at some poll, and from the first of these on. -/
def StaysAgain (again : List Bool) : Prop :=
  ∃ n m, again = List.replicate n false ++ List.replicate (m + 1) true

theorem finAnswers_append (finAckSent : Bool) (again again' : List Bool) :
    finAnswers finAckSent (again ++ again') =
      finAnswers finAckSent again ++ finAnswers (finAckSent || again.any id) again' := by
  induction again generalizing finAckSent with
  | nil => rw [List.any_nil, Bool.or_false]; rfl
  | cons e again ih =>
    cases finAckSent <;> cases e <;> simp [finAnswers, ih]

theorem finAnswers_eq_nil (again : List Bool) :
    finAnswers true again = [] ↔ ∀ e ∈ again, e = true := by
  induction again with
  | nil => simp [finAnswers]
  | cons e again ih => cases e <;> simp [finAnswers, ih]

/-- A run of `errno` that starts with EAGAIN stays there if all of it is. -/
theorem staysAgain_true_cons (again : List Bool) :
    StaysAgain (true :: again) ↔ ∀ e ∈ again, e = true := by
  constructor
  · rintro ⟨n, m, h⟩
    cases n with
    | zero =>
      rw [(List.cons.inj h).2]
      exact fun e he => List.eq_of_mem_replicate he
    | succ n => exact absurd (List.cons.inj h).1 (by decide)
  · intro h
    refine ⟨0, again.length, ?_⟩
    rw [List.eq_replicate_of_mem h, List.length_replicate]
    rfl

theorem staysAgain_false_cons (again : List Bool) :
    StaysAgain (false :: again) ↔ StaysAgain again := by
  constructor
  · rintro ⟨n, m, h⟩
    cases n with
    | zero => exact absurd (List.cons.inj h).1 (by decide)
    | succ n => exact ⟨n, m, (List.cons.inj h).2⟩
  · rintro ⟨n, m, rfl⟩
    exact ⟨n + 1, m, rfl⟩

/-- The polls emit one FIN and nothing after it. -/
theorem finishes_finAnswers (again : List Bool) :
    Finishes (finAnswers false again) ↔ StaysAgain again := by
  induction again with
  | nil =>
    refine ⟨fun ⟨n, hn⟩ => ?_, fun ⟨n, m, h⟩ => ?_⟩
    · exact absurd hn.symm (List.append_ne_nil_of_right_ne_nil _ (List.cons_ne_nil _ _))
    · exact absurd h.symm (List.append_ne_nil_of_right_ne_nil _ (List.cons_ne_nil _ _))
  | cons e again ih =>
    cases e with
    | false => rw [finAnswers, finishes_psh_cons, staysAgain_false_cons, ih]
    | true => rw [finAnswers, finishes_fin_cons, staysAgain_true_cons, finAnswers_eq_nil]

/-! ### Steps -/

namespace Tcp

/-- What the end of a connection is about: the segments with data or a FIN, and whether there
has been a FIN. -/
def fin (i : Slot) (t : Tcp) : List Byte × Bool :=
  (sentFlags i t.events, (t.sockets i).finAckSent)

variable {i j : Slot} {t : Tcp}

theorem fin_record {e : NetEvent} (hopens : e.opens i = false) (h : e.sentFlags i = none) :
    (t.record e).fin i = t.fin i := by
  have hflags : sentFlags i (t.record e).events = sentFlags i t.events := by
    rw [record, sentFlags_cons hopens, h]
    exact List.append_nil _
  rw [fin, hflags]
  rfl

theorem fin_modify {f : NetTcpSocket → NetTcpSocket}
    (h : ∀ s, (f s).finAckSent = s.finAckSent) : (t.modify j f).fin i = t.fin i :=
  Prod.ext rfl (sockets_modify_congr h j i t)

theorem fin_close : (t.close j).fin i = t.fin i := by
  rw [close, fin_record rfl rfl, fin_modify]
  exact fun _ => rfl

/-- A segment without data and FIN, or of another socket. -/
theorem fin_emit {flags : Byte} (h : j = i → flags ≠ flagsPshAck ∧ flags ≠ flagsFinAck) (len : ℕ)
    (advance : BitVec 32) : (t.emit len j flags advance).fin i = t.fin i := by
  rw [emit, fin_modify, fin_record rfl]
  · refine if_neg fun hsent => ?_
    obtain ⟨hpsh, hfin⟩ := h hsent.1
    exact hsent.2.elim hpsh hfin
  · exact fun _ => rfl

theorem fin_emit_self {flags : Byte} (h : flags = flagsPshAck ∨ flags = flagsFinAck) (len : ℕ)
    (advance : BitVec 32) :
    (t.emit len i flags advance).fin i =
      (sentFlags i t.events ++ [flags], (t.sockets i).finAckSent) := by
  have hmodify : (t.emit len i flags advance).fin i = (t.record (.segment i (t.sockets i).sendSeq
      (t.sockets i).recvSeq flags len)).fin i := fin_modify fun _ => rfl
  rw [hmodify, fin, record, sentFlags_cons rfl]
  have hflags : (NetEvent.segment i (t.sockets i).sendSeq (t.sockets i).recvSeq flags
      len).sentFlags i = some flags := if_pos ⟨rfl, h⟩
  rw [hflags]
  rfl

theorem fin_shut {flags : Byte} (h : flags = flagsAck ∨ flags = flagsRstAck) :
    (t.shut j flags).fin i = t.fin i := by
  rw [shut, fin_close, fin_emit]
  intro _
  rcases h with rfl | rfl <;> decide

/-- Segments of the guest are not answered with data or a FIN. -/
theorem fin_apply (flags : Byte) (seq : BitVec 32) (data : ℕ × ℕ) (taken : Option ℕ) :
    (t.apply j flags seq data taken).fin i = t.fin i := by
  have happlied : (t.record (.applied j (t.sockets j).tuple)).fin i = t.fin i :=
    fin_record rfl rfl
  unfold apply
  dsimp only
  -- ACK, RST, data, FIN, RST with ACK, and flags that are unknown
  split
  · rw [fin_modify, happlied]
    exact fun _ => rfl
  split
  · exact happlied
  split
  · -- data goes to the host: what it takes is acknowledged, and a failure resets the socket
    cases taken with
    | none =>
      dsimp only
      rw [fin_shut (.inr rfl), fin_record rfl rfl, fin_modify, happlied]
      exact fun _ => rfl
    | some taken =>
      dsimp only
      rw [deliver, fin_emit fun _ => by decide, fin_modify, fin_record rfl rfl, happlied]
      exact fun _ => rfl
  split
  · rw [fin_shut, happlied]
    split
    · exact .inl rfl
    · exact .inr rfl
  split
  · rw [fin_shut (.inl rfl), happlied]
  · rw [fin_shut (.inr rfl), happlied]

/-- Polls of other sockets. -/
theorem fin_check_of_ne (h : j ≠ i) (received : Option (List Byte)) (again : Bool) :
    (t.check j received again).fin i = t.fin i := by
  unfold check
  split
  · exact fin_modify fun _ => rfl
  -- whatever is sent, it is from another socket
  cases received with
  | none =>
    dsimp only
    split
    · split
      · rw [fin_shut (.inr rfl)]
        exact fin_modify fun _ => rfl
      · exact fin_modify fun _ => rfl
    · exact fin_shut (.inr rfl)
  | some bytes =>
    dsimp only
    split
    · split
      · have hfin : ∀ t : Tcp, (t.modify j fun s => { s with finAckSent := true }).fin i =
            t.fin i := fun t => by rw [fin, sockets_modify_of_ne h.symm]; rfl
        rw [hfin, fin_emit fun hji => absurd hji h]
      · rfl
    · rw [fin_emit fun hji => absurd hji h]
      exact fin_modify fun _ => rfl

/-- The poll of a socket whose connection the host has closed. -/
theorem fin_check (again : Bool) :
    (t.check i (some []) again).fin i =
      let polled := if (t.sockets i).ackWait > 0 then [] else [again]
      ((t.fin i).1 ++ finAnswers (t.fin i).2 polled, (t.fin i).2 || polled.any id) := by
  unfold check
  dsimp only
  split
  · rw [fin_modify]
    · simp [finAnswers]
    · exact fun _ => rfl
  -- `errno` decides whether the closed connection is finished or reset
  cases again with
  | false =>
    rw [if_neg fun h => absurd h.2 Bool.false_ne_true, fin_emit_self (.inl rfl),
      sockets_modify_self]
    simp [finAnswers, fin, modify]
  | true =>
    rw [if_pos ⟨rfl, rfl⟩]
    cases hfin : (t.sockets i).finAckSent with
    | false =>
      rw [if_pos rfl, fin, sockets_modify_self]
      have hemit : sentFlags i (t.emit 0 i flagsFinAck 1).events =
          sentFlags i t.events ++ [flagsFinAck] :=
        congrArg Prod.fst (fin_emit_self (.inr rfl) 0 1)
      have hevents : ∀ f, ((t.emit 0 i flagsFinAck 1).modify i f).events =
          (t.emit 0 i flagsFinAck 1).events := fun _ => rfl
      rw [hevents, hemit]
      simp [fin, hfin, finAnswers]
    -- the FIN is sent once
    | true => simp [fin, hfin, finAnswers]

end Tcp

variable {η : Type} (host : Host η)

/-- Whether `errno` is `EAGAIN` behind `recv`, if the step calls it for socket `i`. -/
def recvAgain (i : Slot) (l : Lan η) : SocketStep η → List Bool
  | .checkTcp j =>
    if j = i ∧ l.Polled i ∧ ¬ (l.net.tcpSockets i).ackWait > 0 then
      [host.errno (host.received i l).2 = eagain]
    else []
  | _ => []

/-- The host has closed the connection of socket `i`: `recv` returns 0. The guest has not: the
socket stays open. -/
structure RemoteClosed (i : Slot) (l : Lan η) (s : SocketStep η) : Prop where
  received : s = .checkTcp i → l.Polled i → ¬ (l.net.tcpSockets i).ackWait > 0 →
    (host.received i l).1 = some []
  isOpen : (socketAfter host l s).tcp.IsOpen i

/-- **One step.** -/
theorem fin_socketAfter {i : Slot} {l : Lan η} {s : SocketStep η} (hopen : l.tcp.IsOpen i)
    (h : RemoteClosed host i l s) :
    (socketAfter host l s).tcp.fin i =
      ((l.tcp.fin i).1 ++ finAnswers (l.tcp.fin i).2 (recvAgain host i l s),
        (l.tcp.fin i).2 || (recvAgain host i l s).any id) := by
  -- the steps that call `recv` for no socket, or for another one
  have hsame : recvAgain host i l s = [] → (socketAfter host l s).tcp.fin i = l.tcp.fin i →
      (socketAfter host l s).tcp.fin i =
        ((l.tcp.fin i).1 ++ finAnswers (l.tcp.fin i).2 (recvAgain host i l s),
          (l.tcp.fin i).2 || (recvAgain host i l s).any id) := by
    intro hnone hkept
    rw [hnone, hkept]
    simp [finAnswers]
  rcases tcp_socketAfter host l s with ⟨tx, txLen, j, fd, rfl, hsyn, hafter⟩ |
    ⟨tx, txLen, j, rfl, -, hafter⟩ | ⟨j, rfl, hpolled, hafter⟩ | ⟨-, hnot, hafter⟩
  · -- a new connection takes a free socket, which this one is not
    refine hsame rfl ?_
    have hne : j ≠ i := by
      rintro rfl
      exact hopen (freeTcp_eq_some hsyn.free)
    rw [hafter, Tcp.accept, Tcp.fin_emit fun hji => absurd hji hne, Tcp.fin_record]
    · rw [Tcp.fin, Tcp.sockets_modify_of_ne hne.symm]
      rfl
    · simp [NetEvent.opens, hne]
    · rfl
  · exact hsame rfl (by rw [hafter, Tcp.fin_apply])
  · rw [hafter]
    by_cases hji : j = i
    · subst hji
      -- `recv` is not called while an ACK is outstanding
      by_cases hwait : (l.net.tcpSockets j).ackWait > 0
      · have hnone : recvAgain host j l (.checkTcp j) = [] := if_neg fun hp => hp.2.2 hwait
        rw [← hafter]
        refine hsame hnone ?_
        rw [hafter, Tcp.check_of_waiting hwait]
        exact Tcp.fin_modify fun _ => rfl
      · have hone : recvAgain host j l (.checkTcp j) =
            [decide (host.errno (host.received j l).2 = eagain)] :=
          if_pos ⟨rfl, hpolled, hwait⟩
        have hpoll := Tcp.fin_check (t := l.tcp) (i := j)
          (decide (host.errno (host.received j l).2 = eagain))
        rw [if_neg (show ¬ (l.tcp.sockets j).ackWait > 0 from hwait)] at hpoll
        rw [h.received rfl hpolled hwait, hone, hpoll]
    · rw [← hafter]
      exact hsame (if_neg fun hp => hji hp.1) (by rw [hafter, Tcp.fin_check_of_ne hji])
  · have hnone : recvAgain host i l s = [] := by
      cases s with
      | checkTcp j =>
        refine if_neg fun hp => ?_
        obtain ⟨rfl, hpolled, -⟩ := hp
        exact hnot j rfl hpolled
      | _ => rfl
    refine hsame hnone ?_
    -- what else is closed is a socket that is not open
    rcases hafter with hafter | ⟨j, -, hafter⟩
    · rw [hafter]
    · rw [hafter, Tcp.fin_close]

/-- What the guest gets in a run. -/
theorem fin_runAll {i : Slot} {l : Lan η} (hopen : l.tcp.IsOpen i) {steps : List (SocketStep η)}
    (h : Along (socketAfter host) (RemoteClosed host i) l steps) :
    ((runAll (socketAfter host) l steps).tcp.fin i).1 = (l.tcp.fin i).1 ++
      finAnswers (l.tcp.fin i).2 (collect (socketAfter host) (recvAgain host i) l steps) := by
  induction steps generalizing l with
  | nil => exact (List.append_nil _).symm
  | cons s steps ih =>
    obtain ⟨hstep, hrest⟩ := h
    have hone := fin_socketAfter host hopen hstep
    rw [runAll_cons, ih hstep.isOpen hrest, hone, collect_cons, finAnswers_append,
      List.append_assoc]

/-- **The end of a connection.** On an open connection without a FIN so far, in every run in
which `recv` returns 0 for it, exactly one FIN is emitted and no data segment after it, if and
only if `errno` is `EAGAIN` behind some call of `recv` and behind every later one. -/
theorem finishes_iff {i : Slot} {l : Lan η} {steps : List (SocketStep η)}
    (hopen : l.tcp.IsOpen i) (hfin : (l.net.tcpSockets i).finAckSent = false)
    (hsent : ∀ flags ∈ sentFlags i l.tcp.events, flags = flagsPshAck)
    (hclosed : Along (socketAfter host) (RemoteClosed host i) l steps) :
    Finishes (sentFlags i (runAll (socketAfter host) l steps).tcp.events) ↔
      StaysAgain (collect (socketAfter host) (recvAgain host i) l steps) := by
  have hrun := fin_runAll host hopen hclosed
  have hnone : (l.tcp.fin i).2 = false := hfin
  rw [hnone] at hrun
  change sentFlags i (runAll (socketAfter host) l steps).tcp.events = sentFlags i l.tcp.events ++ _
    at hrun
  rw [hrun, finishes_append hsent, finishes_finAnswers]

/-- A host on which `recv` returns 0, with this value in `errno`. -/
def closingHost (errno : ℤ) : Host Unit :=
  { acceptingHost with
    errno := fun _ => errno
    recv := fun _ _ h => (some [], h)
    recv_le := fun h => (Option.some.inj h) ▸ Nat.zero_le _ }

/-- The network with an open connection in socket 0. -/
def lanAccepted : Lan Unit :=
  (outcome (netTcpSyn acceptingHost (1024, 80, 0x01020304) 0) (lanInit (edfsInit []) ())).2

theorem finishes_twice :
    let steps := [.taken, .checkTcp 0, .taken, .checkTcp 0]
    Finishes (sentFlags 0 (runAll (socketAfter (closingHost eagain)) lanAccepted
        steps).tcp.events) ↔
      StaysAgain (collect (socketAfter (closingHost eagain)) (recvAgain (closingHost eagain) 0)
        lanAccepted steps) :=
  finishes_iff (closingHost eagain) (i := 0) (l := lanAccepted) (by decide +kernel)
    (by decide +kernel) (by decide +kernel)
    ⟨⟨nofun, by decide +kernel⟩, ⟨fun _ _ _ => rfl, by decide +kernel⟩,
      ⟨nofun, by decide +kernel⟩, ⟨fun _ _ _ => rfl, by decide +kernel⟩, trivial⟩

/-- With another value in `errno` the guest gets data segments without data, and no FIN. -/
theorem never_finishes : ¬ ∀ (η : Type) (host : Host η) (i : Slot) (l : Lan η)
    (steps : List (SocketStep η)), l.tcp.IsOpen i → (l.net.tcpSockets i).finAckSent = false →
      (∀ flags ∈ sentFlags i l.tcp.events, flags = flagsPshAck) →
      Along (socketAfter host) (RemoteClosed host i) l steps → .checkTcp i ∈ steps →
      Finishes (sentFlags i (runAll (socketAfter host) l steps).tcp.events) := by
  intro h
  obtain ⟨n, hn⟩ := h Unit (closingHost 0) 0 lanAccepted [.taken, .checkTcp 0]
    (by decide +kernel) (by decide +kernel) (by decide +kernel)
    ⟨⟨nofun, by decide +kernel⟩, ⟨fun _ _ _ => rfl, by decide +kernel⟩, trivial⟩ (by simp)
  -- one empty data segment, which is no FIN
  have hsent : sentFlags 0 (runAll (socketAfter (closingHost 0)) lanAccepted
      [.taken, .checkTcp 0]).tcp.events = [flagsPshAck] := by decide +kernel
  have hlast := congrArg List.getLast? (hsent.symm.trans hn)
  rw [List.getLast?_concat] at hlast
  exact absurd hlast (by decide)

end Pc20iii
