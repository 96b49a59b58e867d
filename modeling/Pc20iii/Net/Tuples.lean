import Pc20iii.Net.Sequence

/-!
# The sockets of a connection

Which socket the segments of a connection are applied to. `net_handle_tcp` takes the first
open socket with the ends of the segment, and a SYN takes the first free socket without
looking for an open one with the same ends. So the search is unambiguous, and segments go
to the connection of the latest SYN, exactly as long as no SYN is accepted for ends that an
open socket has (`connections_unambiguous_iff`).
-/

namespace Pc20iii

open StateProgram

/-- The event opens a connection with these ends. -/
def NetEvent.opensTuple (tuple : Tuple) : NetEvent → Bool
  | .opened _ tuple' _ => tuple' = tuple
  | _ => false

/-- The latest connection with these ends has been opened in socket `i`, which has neither
been closed nor opened again since. -/
def Latest (i : Slot) (tuple : Tuple) (events : List NetEvent) : Prop :=
  ∃ newer recvSeq older, events = newer ++ .opened i tuple recvSeq :: older ∧
    ∀ e ∈ newer, e.opensTuple tuple = false ∧ e.opens i = false ∧ e ≠ .closed i

theorem Latest.cons {i : Slot} {tuple : Tuple} {events : List NetEvent} (h : Latest i tuple events)
    {e : NetEvent} (he : e.opensTuple tuple = false ∧ e.opens i = false ∧ e ≠ .closed i) :
    Latest i tuple (e :: events) := by
  obtain ⟨newer, recvSeq, older, rfl, hnewer⟩ := h
  exact ⟨e :: newer, recvSeq, older, rfl, List.forall_mem_cons.mpr ⟨he, hnewer⟩⟩

namespace Tcp

/-- At most one open socket has given ends. -/
def Unambiguous (t : Tcp) : Prop :=
  ∀ i j, t.IsOpen i → t.IsOpen j → (t.sockets i).tuple = (t.sockets j).tuple → i = j

/-- Every segment so far has been applied to the connection of the latest SYN. -/
def AppliedToLatest (t : Tcp) : Prop :=
  ∀ i tuple older, .applied i tuple :: older <:+ t.events → Latest i tuple older

/-- **The invariant of the search.** -/
structure Routed (t : Tcp) : Prop where
  unambiguous : t.Unambiguous
  latest : ∀ i, t.IsOpen i → Latest i (t.sockets i).tuple t.events
  applied : t.AppliedToLatest

/-! ### Steps -/

/-- An event that is about no open connection keeps the routing. -/
theorem Routed.record {t : Tcp} (h : t.Routed) {e : NetEvent}
    (he : ∀ i, t.IsOpen i → e.opensTuple (t.sockets i).tuple = false ∧ e.opens i = false ∧
      e ≠ .closed i)
    (happlied : ∀ i tuple, e = .applied i tuple → Latest i tuple t.events) :
    (t.record e).Routed where
  unambiguous := h.unambiguous
  latest i hi := (h.latest i hi).cons (he i hi)
  applied i tuple older hsuffix := by
    rcases List.suffix_cons_iff.mp hsuffix with heq | hsuffix
    · injection heq with he hes
      rw [hes]
      exact happlied i tuple he.symm
    · exact h.applied i tuple older hsuffix

/-- An assignment that leaves the ends alone and opens no socket. -/
theorem Routed.modify {t : Tcp} (h : t.Routed) {i : Slot} {f : NetTcpSocket → NetTcpSocket}
    (hfd : ∀ s, (f s).fd = s.fd ∨ (f s).fd = -1) (htuple : ∀ s, (f s).tuple = s.tuple) :
    (t.modify i f).Routed := by
  have hopen := fun j => isOpen_of_modify (t := t) (i := i) (j := j) hfd
  have htuple' := fun j => sockets_modify_congr htuple i j t
  refine ⟨fun j k hj hk hjk => ?_, fun j hj => ?_, h.applied⟩
  · rw [htuple', htuple'] at hjk
    exact h.unambiguous j k (hopen j hj) (hopen k hk) hjk
  · rw [htuple']
    exact h.latest j (hopen j hj)

theorem Routed.emit {t : Tcp} (h : t.Routed) (len : ℕ) (i : Slot) (flags : Byte)
    (advance : BitVec 32) : (t.emit len i flags advance).Routed := by
  have hrecord := h.record (e := .segment i (t.sockets i).sendSeq (t.sockets i).recvSeq flags len)
    (fun j _ => ⟨rfl, rfl, nofun⟩) nofun
  exact hrecord.modify (fun _ => .inl rfl) fun _ => rfl

theorem Routed.close {t : Tcp} (h : t.Routed) (i : Slot) : (t.close i).Routed := by
  have hmodify : (t.modify i fun s => { s with fd := -1, sendSeq := initialSeq i }).Routed :=
    h.modify (fun _ => .inr rfl) fun _ => rfl
  refine hmodify.record (fun j hj => ⟨rfl, rfl, ?_⟩) nofun
  rintro ⟨⟩
  exact hj (by rw [sockets_modify_self])

theorem Routed.applied_record {t : Tcp} (h : t.Routed) {i : Slot} (hopen : t.IsOpen i) :
    (t.record (.applied i (t.sockets i).tuple)).Routed := by
  refine h.record (fun j _ => ⟨rfl, rfl, nofun⟩) ?_
  rintro j tuple ⟨⟩
  exact h.latest i hopen

theorem Routed.send {t : Tcp} (h : t.Routed) (i : Slot) (seq : BitVec 32) (start len : ℕ)
    (taken : Option ℕ) : (t.record (.send i seq start len taken)).Routed :=
  h.record (fun _ _ => ⟨rfl, rfl, nofun⟩) nofun

theorem Routed.plain {t t' : Tcp} (h : t.Routed) (hstep : Plain t t') : t'.Routed := by
  cases hstep with
  | timer i f hf => exact h.modify (fun s => .inl (hf.fd s)) hf.tuple
  | applied i hopen => exact h.applied_record hopen
  | refused i seq start len => exact h.send i seq start len none
  | finished i hopen hfin =>
    exact (h.emit 0 i flagsFinAck 1).modify (fun _ => .inl rfl) fun _ => rfl
  | data i hopen len => exact h.emit len i flagsPshAck _
  | closed i => exact h.close i
  | shut i hopen flags hflags => exact (h.emit 0 i flags 0).close i

theorem Routed.deliver {t : Tcp} (h : t.Routed) (i : Slot) (seq : BitVec 32)
    (start len taken : ℕ) : (t.deliver i seq start len taken).Routed := by
  have hmodify : ((t.record (.send i seq start len (some taken))).modify i fun s =>
      { s with ackWait := 0, recvSeq := seq + BitVec.ofNat 32 len }).Routed :=
    (h.send i seq start len (some taken)).modify (fun _ => .inl rfl) fun _ => rfl
  exact hmodify.emit 0 i flagsAck 0

/-- A SYN for ends that no open socket has. -/
theorem Routed.accept {t : Tcp} (h : t.Routed) {i : Slot} {tuple : Tuple}
    (hfresh : ∀ j, t.IsOpen j → (t.sockets j).tuple ≠ tuple) (fd : ℕ) (recvSeq : BitVec 32) :
    (t.accept i fd tuple recvSeq).Routed := by
  refine Routed.emit ?_ 0 i flagsSynAck 1
  refine ⟨fun j k hj hk hjk => ?_, fun j hj => ?_, fun j tuple' older hsuffix => ?_⟩
  · rw [IsOpen, sockets_record] at hj hk
    rw [sockets_record] at hjk
    -- the new socket and another one have different ends
    rcases eq_or_ne j i with rfl | hji <;> rcases eq_or_ne k j with rfl | hkj
    · rfl
    · rw [sockets_modify_of_ne hkj] at hk hjk
      rw [sockets_modify_self] at hjk
      exact absurd hjk.symm (hfresh k hk)
    · rfl
    · rw [sockets_modify_of_ne hji] at hj hjk
      rcases eq_or_ne k i with rfl | hki
      · rw [sockets_modify_self] at hjk
        exact absurd hjk (hfresh j hj)
      · rw [sockets_modify_of_ne hki] at hk hjk
        exact h.unambiguous j k hj hk hjk
  · rw [sockets_record]
    rcases eq_or_ne j i with rfl | hji
    · rw [sockets_modify_self]
      exact ⟨[], recvSeq, t.events, rfl, List.forall_mem_nil _⟩
    · rw [IsOpen, sockets_record, sockets_modify_of_ne hji] at hj
      rw [sockets_modify_of_ne hji]
      refine (h.latest j hj).cons ⟨?_, ?_, ?_⟩
      · exact decide_eq_false (hfresh j hj).symm
      · exact decide_eq_false hji.symm
      · intro hclosed
        cases hclosed
  · rcases List.suffix_cons_iff.mp hsuffix with heq | hsuffix
    · cases heq
    · exact h.applied j tuple' older hsuffix

/-- A SYN for ends that an open socket has. -/
theorem not_unambiguous_accept {t : Tcp} {i j : Slot} {tuple : Tuple} (hj : t.IsOpen j)
    (htuple : (t.sockets j).tuple = tuple) (hfree : ¬ t.IsOpen i) (fd : ℕ) (recvSeq : BitVec 32) :
    ¬ (t.accept i fd tuple recvSeq).Unambiguous := by
  have hji : j ≠ i := fun hji => hfree (hji ▸ hj)
  refine fun h => hji (h j i ?_ ?_ ?_)
  · rw [IsOpen, sockets_accept_of_ne hji]
    exact hj
  · rw [IsOpen, sockets_accept_self]
    exact fun hfd : (fd : ℤ) = -1 => by omega
  · rw [sockets_accept_of_ne hji, sockets_accept_self, htuple]
    rfl

end Tcp

/-! ### Runs -/

variable {η : Type} (host : Host η)

theorem findTcp_eq_none {n : Net} {tuple : Tuple} :
    n.findTcp tuple = none ↔ ∀ i, (n.tcpSockets i).fd ≠ -1 → (n.tcpSockets i).tuple ≠ tuple := by
  simp [Net.findTcp, List.find?_eq_none]

/-- The search is unambiguous after the step, and every segment so far has been applied to
the connection of the latest SYN. -/
def StepRoutes (l : Lan η) (s : LanStep) : Prop :=
  (lanAfter host l s).tcp.Unambiguous ∧ (lanAfter host l s).tcp.AppliedToLatest

/-- If the step is a SYN that is accepted, no open socket has its ends. -/
def SynFresh (l : Lan η) (s : LanStep) : Prop :=
  ∀ tx txLen i fd, s = .transmit tx txLen → SynAccepted host l tx i fd →
    l.net.findTcp (tcpTuple tx) = none

theorem not_isOpen_of_accepted {l : Lan η} {tx : ℕ → Byte} {i : Slot} {fd : ℕ}
    (h : SynAccepted host l tx i fd) : ¬ l.tcp.IsOpen i :=
  fun hopen => hopen (freeTcp_eq_some h.free)

theorem routed_lanAfter {l : Lan η} (h : l.tcp.Routed) {s : LanStep} (hs : SynFresh host l s) :
    (lanAfter host l s).tcp.Routed := by
  rcases lanAfter_tcp_cases host l s with ⟨tx, txLen, i, fd, hstep, hsyn, hafter⟩ |
    ⟨tx, txLen, i, taken, -, hdata, hafter⟩ | ⟨-, -, hplain⟩
  · rw [hafter]
    exact h.accept (findTcp_eq_none.mp (hs tx txLen i fd hstep hsyn)) fd _
  · obtain ⟨hopen, htuple⟩ := findTcp_eq_some hdata.found
    rw [hafter, ← htuple]
    exact (h.applied_record hopen).deliver i _ _ _ _
  · exact run_invariant (fun hstep ht => ht.plain hstep) hplain h

/-- A step routes its segments exactly when it is no SYN for ends that an open socket has. -/
theorem stepRoutes_iff {l : Lan η} (h : l.tcp.Routed) (s : LanStep) :
    StepRoutes host l s ↔ SynFresh host l s := by
  constructor
  · intro hroutes tx txLen i fd hstep hsyn
    rw [findTcp_eq_none]
    intro j hj htuple
    -- the new connection would have the ends of an open one
    refine Tcp.not_unambiguous_accept (t := l.tcp) hj htuple (not_isOpen_of_accepted host hsyn) fd
      (tcpSeq tx + 1) ?_
    rw [← tcp_transmit_of_syn host hsyn txLen]
    rw [hstep] at hroutes
    exact hroutes.1
  · intro hs
    have hafter := routed_lanAfter host h hs
    exact ⟨hafter.unambiguous, hafter.applied⟩

theorem routed_lanInit (edfs : Edfs) (h : η) : (lanInit edfs h).tcp.Routed where
  unambiguous _ _ hopen := absurd rfl hopen
  latest _ hopen := absurd rfl hopen
  applied _ _ _ hsuffix := by cases List.suffix_nil.mp hsuffix

/-- **The sockets of a connection.** Along every run, at most one open socket has given ends
and every segment is applied to the connection of the latest SYN, exactly when no SYN is
accepted for ends that an open socket has. -/
theorem connections_unambiguous_iff (edfs : Edfs) (h : η) (steps : List LanStep) :
    Along (lanAfter host) (StepRoutes host) (lanInit edfs h) steps ↔
      Along (lanAfter host) (SynFresh host) (lanInit edfs h) steps :=
  along_iff (I := fun l : Lan η => l.tcp.Routed) (fun _ _ hl hs => routed_lanAfter host hl hs)
    (fun _ s hl => stepRoutes_iff host hl s) (routed_lanInit edfs h) steps

/-- A SYN frame, with all ends 0. -/
def synFrame : ℕ → Byte
  | 0x0C => 0x08
  | 0x0E => 0x45
  | 0x11 => 0x28
  | 0x17 => ipprotoTcp
  | 0x2E => 0x50
  | 0x2F => flagsSyn
  | _ => 0

/-- A SYN that is repeated opens a second socket with the same ends. -/
theorem connections_ambiguous : ¬ ∀ (η : Type) (host : Host η) (edfs : Edfs) (h : η)
    (steps : List LanStep), Along (lanAfter host) (StepRoutes host) (lanInit edfs h) steps := by
  intro h
  have hroutes := (h Unit acceptingHost (edfsInit []) ()
    [.transmit synFrame 54, .transmit synFrame 54]).2.1.1
  have hsame : (0 : Slot) = 1 := hroutes 0 1 (by decide) (by decide) (by decide)
  exact absurd hsame (by decide)

end Pc20iii
