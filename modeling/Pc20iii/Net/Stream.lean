import Pc20iii.Net.Tuples

/-!
# The byte stream of a connection

What the host gets of the bytes that the guest sends on a TCP connection. A byte of the
stream is known by its sequence number. `net_handle_tcp` passes the data of every PSH+ACK
segment on, whatever its number, and acknowledges all of it, whatever `send` returns. So the
host has accepted exactly the bytes that `recv_seq` covers, each once and in order, exactly
as long as every segment whose data the host takes is the expected one and is taken whole
(`stream_in_order_iff`).
-/

namespace Pc20iii

open StateProgram

/-! ### Ranges of sequence numbers -/

/-- The `n` sequence numbers from `first` on. -/
def seqRange (first : BitVec 32) (n : ℕ) : List (BitVec 32) :=
  (List.range n).map fun k => first + BitVec.ofNat 32 k

@[simp] theorem length_seqRange (first : BitVec 32) (n : ℕ) : (seqRange first n).length = n := by
  rw [seqRange, List.length_map, List.length_range]

@[simp] theorem seqRange_zero (first : BitVec 32) : seqRange first 0 = [] := rfl

theorem seqRange_add (first : BitVec 32) (n k : ℕ) :
    seqRange first (n + k) = seqRange first n ++ seqRange (first + BitVec.ofNat 32 n) k := by
  rw [seqRange, List.range_add, List.map_append, List.map_map, seqRange, seqRange]
  refine congrArg _ (List.map_congr_left fun j _ => ?_)
  rw [Function.comp_apply, BitVec.ofNat_add, BitVec.add_assoc]

theorem seqRange_inj {a b : BitVec 32} {k : ℕ} : seqRange a k = seqRange b k ↔ k = 0 ∨ a = b := by
  constructor
  · intro h
    cases k with
    | zero => exact .inl rfl
    | succ k =>
      have hhead := congrArg List.head? h
      simp only [seqRange, List.range_succ_eq_map, List.map_cons, List.head?_cons] at hhead
      simpa using hhead
  · rintro (rfl | rfl) <;> rfl

/-! ### The accepted bytes -/

/-- The bytes that the host has taken, if the event is a call of `send` for socket `i`. -/
def NetEvent.bytesTaken (i : Slot) : NetEvent → List (BitVec 32)
  | .send j seq _ _ (some count) => if j = i then seqRange seq count else []
  | _ => []

/-- The number of the first byte, if the event opens a connection in socket `i`. -/
def NetEvent.firstByte (i : Slot) : NetEvent → Option (BitVec 32)
  | .opened j _ recvSeq => if j = i then some recvSeq else none
  | _ => none

/-- The bytes that the host has accepted on a connection, in the order in which it has. -/
def accepted (i : Slot) (events : List NetEvent) : List (BitVec 32) :=
  (connection i events).reverse.flatMap (NetEvent.bytesTaken i)

/-- The number of the first byte of a connection. -/
def firstSeq (i : Slot) (events : List NetEvent) : Option (BitVec 32) :=
  events.findSome? (NetEvent.firstByte i)

theorem accepted_cons {i : Slot} {e : NetEvent} (h : e.opens i = false) (events : List NetEvent) :
    accepted i (e :: events) = accepted i events ++ e.bytesTaken i := by
  rw [accepted, connection_cons h, List.reverse_cons, List.flatMap_append, List.flatMap_singleton]
  rfl

theorem firstSeq_cons {i : Slot} {e : NetEvent} (h : e.opens i = false) (events : List NetEvent) :
    firstSeq i (e :: events) = firstSeq i events := by
  have hnone : e.firstByte i = none := by
    cases e <;> try rfl
    exact if_neg (of_decide_eq_false h)
  rw [firstSeq, List.findSome?_cons, hnone]
  rfl

namespace Tcp

/-- The host has accepted exactly the bytes of the connection in socket `i` that `recv_seq`
covers, each once and in order. -/
structure InOrderAt (t : Tcp) (i : Slot) (first : BitVec 32) (n : ℕ) : Prop where
  opened : firstSeq i t.events = some first
  bytes : accepted i t.events = seqRange first n
  recvSeq : (t.sockets i).recvSeq = first + BitVec.ofNat 32 n

/-- On every open connection, the host has accepted exactly the bytes that `recv_seq`
covers, each once and in order. -/
def InOrder (t : Tcp) : Prop := ∀ i, t.IsOpen i → ∃ first n, t.InOrderAt i first n

/-! ### Steps -/

theorem InOrder.record {t : Tcp} (h : t.InOrder) {e : NetEvent}
    (he : ∀ i, t.IsOpen i → e.opens i = false ∧ e.bytesTaken i = []) : (t.record e).InOrder := by
  intro i hi
  obtain ⟨first, n, hat⟩ := h i hi
  obtain ⟨hopens, hbytes⟩ := he i hi
  refine ⟨first, n, ?_, ?_, hat.recvSeq⟩
  · exact (firstSeq_cons hopens t.events).trans hat.opened
  · refine (accepted_cons hopens t.events).trans ?_
    rw [hbytes, List.append_nil, hat.bytes]

/-- An assignment that leaves `recv_seq` alone and opens no socket. -/
theorem InOrder.modify {t : Tcp} (h : t.InOrder) {i : Slot} {f : NetTcpSocket → NetTcpSocket}
    (hfd : ∀ s, (f s).fd = s.fd ∨ (f s).fd = -1) (hrecv : ∀ s, (f s).recvSeq = s.recvSeq) :
    (t.modify i f).InOrder := by
  intro j hj
  obtain ⟨first, n, hat⟩ := h j (isOpen_of_modify hfd hj)
  exact ⟨first, n, hat.opened, hat.bytes, (sockets_modify_congr hrecv i j t).trans hat.recvSeq⟩

theorem InOrder.emit {t : Tcp} (h : t.InOrder) (len : ℕ) (i : Slot) (flags : Byte)
    (advance : BitVec 32) : (t.emit len i flags advance).InOrder := by
  have hrecord := h.record (e := .segment i (t.sockets i).sendSeq (t.sockets i).recvSeq flags len)
    fun j _ => ⟨rfl, rfl⟩
  exact hrecord.modify (fun _ => .inl rfl) fun _ => rfl

theorem InOrder.close {t : Tcp} (h : t.InOrder) (i : Slot) : (t.close i).InOrder := by
  have hmodify : (t.modify i fun s => { s with fd := -1, sendSeq := initialSeq i }).InOrder :=
    h.modify (fun _ => .inr rfl) fun _ => rfl
  exact hmodify.record fun _ _ => ⟨rfl, rfl⟩

theorem InOrder.applied {t : Tcp} (h : t.InOrder) (i : Slot) (tuple : Tuple) :
    (t.record (.applied i tuple)).InOrder :=
  h.record fun _ _ => ⟨rfl, rfl⟩

theorem InOrder.plain {t t' : Tcp} (h : t.InOrder) (hstep : Plain t t') : t'.InOrder := by
  cases hstep with
  | timer i f hf => exact h.modify (fun s => .inl (hf.fd s)) hf.recvSeq
  | applied i hopen => exact h.applied i _
  | refused i seq start len => exact h.record fun _ _ => ⟨rfl, rfl⟩
  | finished i hopen hfin =>
    exact (h.emit 0 i flagsFinAck 1).modify (fun _ => .inl rfl) fun _ => rfl
  | data i hopen len => exact h.emit len i flagsPshAck _
  | closed i => exact h.close i
  | shut i hopen flags hflags => exact (h.emit 0 i flags 0).close i

/-- A new connection has no bytes yet. -/
theorem InOrder.accept {t : Tcp} (h : t.InOrder) (i : Slot) (fd : ℤ) (tuple : Tuple)
    (recvSeq : BitVec 32) : (t.accept i fd tuple recvSeq).InOrder := by
  refine InOrder.emit (fun j hj => ?_) 0 i flagsSynAck 1
  rcases eq_or_ne j i with rfl | hji
  -- the new connection counts from the number of its SYN
  · refine ⟨recvSeq, 0, ?_, ?_, ?_⟩
    · simp [firstSeq, Tcp.record, NetEvent.firstByte]
    · change accepted j (.opened j tuple recvSeq :: t.events) = _
      rw [accepted, connection_opened]
      rfl
    · rw [sockets_record, sockets_modify_self, BitVec.add_zero]
  -- an opening elsewhere is no event of this one
  · rw [IsOpen, sockets_record, sockets_modify_of_ne hji] at hj
    obtain ⟨first, n, hat⟩ := h j hj
    have hopens : (NetEvent.opened i tuple recvSeq).opens j = false := decide_eq_false hji.symm
    refine ⟨first, n, ?_, ?_, ?_⟩
    · exact (firstSeq_cons hopens t.events).trans hat.opened
    · refine (accepted_cons hopens t.events).trans ?_
      rw [hat.bytes]
      exact List.append_nil _
    · rw [sockets_record, sockets_modify_of_ne hji]
      exact hat.recvSeq

end Tcp

/-- Data with number `seq`, of which the host takes some bytes of `len`, is the expected data
and taken whole; or the host takes nothing, and it ends at the expected number. -/
def Expected (recvSeq seq : BitVec 32) (len taken : ℕ) : Prop :=
  if taken = 0 then seq + BitVec.ofNat 32 len = recvSeq
  else seq = recvSeq ∧ BitVec.ofNat 32 len = BitVec.ofNat 32 taken

/-- Bytes that are appended to a range continue it, and the next number is that of the data
behind them. -/
theorem append_seqRange_iff {first seq : BitVec 32} {n len taken : ℕ} :
    (∃ n', seqRange first n ++ seqRange seq taken = seqRange first n' ∧
      seq + BitVec.ofNat 32 len = first + BitVec.ofNat 32 n') ↔
    Expected (first + BitVec.ofNat 32 n) seq len taken := by
  unfold Expected
  constructor
  · rintro ⟨n', hbytes, hnext⟩
    -- the lengths give the count, so the starts can be compared
    have hn' : n + taken = n' := by simpa using congrArg List.length hbytes
    rw [← hn', seqRange_add, List.append_cancel_left_eq, seqRange_inj] at hbytes
    rw [← hn', BitVec.ofNat_add, ← BitVec.add_assoc] at hnext
    split
    case isTrue htaken => rwa [htaken, BitVec.add_zero] at hnext
    case isFalse htaken =>
      have hseq := hbytes.resolve_left htaken
      rw [hseq] at hnext
      exact ⟨hseq, (BitVec.add_right_inj _).mp hnext⟩
  · intro h
    refine ⟨n + taken, ?_, ?_⟩ <;> split at h
    case refine_1.isTrue htaken => rw [htaken, seqRange_zero, List.append_nil, Nat.add_zero]
    case refine_1.isFalse => rw [seqRange_add, h.1]
    case refine_2.isTrue htaken => rw [h, htaken, Nat.add_zero]
    case refine_2.isFalse => rw [h.1, h.2, BitVec.ofNat_add, BitVec.add_assoc]

namespace Tcp

theorem isOpen_deliver {t : Tcp} {i j : Slot} {seq : BitVec 32} {start len taken : ℕ} :
    (t.deliver i seq start len taken).IsOpen j ↔ t.IsOpen j := by
  have hfd : ((t.deliver i seq start len taken).sockets j).fd = (t.sockets j).fd := by
    rcases eq_or_ne j i with rfl | hji
    · rw [deliver, sockets_emit_self, sockets_modify_self, sockets_record]
    · rw [deliver, sockets_emit_of_ne hji, sockets_modify_of_ne hji, sockets_record]
  rw [IsOpen, hfd, IsOpen]

theorem InOrderAt.deliver_of_ne {t : Tcp} {i j : Slot} (hji : j ≠ i) {first : BitVec 32} {n : ℕ}
    (h : t.InOrderAt j first n) (seq : BitVec 32) (start len taken : ℕ) :
    (t.deliver i seq start len taken).InOrderAt j first n where
  opened := (firstSeq_cons rfl _).trans ((firstSeq_cons rfl _).trans h.opened)
  bytes := by
    have hsend : (NetEvent.send i seq start len (some taken)).bytesTaken j = [] := if_neg hji.symm
    refine (accepted_cons rfl _).trans ((List.append_nil _).trans ?_)
    refine (accepted_cons rfl t.events).trans ?_
    rw [hsend, List.append_nil, h.bytes]
  recvSeq := by
    rw [deliver, sockets_emit_of_ne hji, sockets_modify_of_ne hji, sockets_record, h.recvSeq]

/-- Data that the host takes keeps the order exactly when it is expected. -/
theorem inOrder_deliver_iff {t : Tcp} (h : t.InOrder) {i : Slot} (hopen : t.IsOpen i)
    (seq : BitVec 32) (start len taken : ℕ) :
    (t.deliver i seq start len taken).InOrder ↔ Expected (t.sockets i).recvSeq seq len taken := by
  obtain ⟨first, n, hat⟩ := h i hopen
  have hrecv : ((t.deliver i seq start len taken).sockets i).recvSeq =
      seq + BitVec.ofNat 32 len := by
    rw [deliver, sockets_emit_self, sockets_modify_self]
  have hfirst : firstSeq i (t.deliver i seq start len taken).events = some first :=
    (firstSeq_cons rfl _).trans ((firstSeq_cons rfl _).trans hat.opened)
  -- what the host took goes behind what it had
  have hbytes : accepted i (t.deliver i seq start len taken).events =
      seqRange first n ++ seqRange seq taken := by
    have hsend : (NetEvent.send i seq start len (some taken)).bytesTaken i = seqRange seq taken :=
      if_pos rfl
    refine (accepted_cons rfl _).trans ((List.append_nil _).trans ?_)
    refine (accepted_cons rfl t.events).trans ?_
    rw [hsend, hat.bytes]
  rw [hat.recvSeq, ← append_seqRange_iff, ← hrecv, ← hbytes]
  constructor
  · intro horder
    obtain ⟨first', n', hat'⟩ := horder i (isOpen_deliver.mpr hopen)
    have hsame : first = first' := Option.some.inj (hfirst.symm.trans hat'.opened)
    rw [hsame]
    exact ⟨n', hat'.bytes, hat'.recvSeq⟩
  · rintro ⟨n', hbytes', hrecv'⟩ j hj
    -- the other sockets are as before
    rcases eq_or_ne j i with rfl | hji
    · exact ⟨first, n', hfirst, hbytes', hrecv'⟩
    · obtain ⟨first', n', hat'⟩ := h j (isOpen_deliver.mp hj)
      exact ⟨first', n', hat'.deliver_of_ne hji ..⟩

end Tcp

/-! ### Runs -/

variable {η : Type} (host : Host η)

/-- After the step, the host has accepted what `recv_seq` covers. -/
def StepInOrder (l : Lan η) (s : LanStep) : Prop := (lanAfter host l s).tcp.InOrder

/-- If the step is data of which the host takes some bytes, it is expected. -/
def DataExpected (l : Lan η) (s : LanStep) : Prop :=
  ∀ tx txLen i taken, s = .transmit tx txLen → DataTaken host l tx i taken →
    Expected (l.net.tcpSockets i).recvSeq (tcpSeq tx) (tcpRange tx).2 taken

/-- A step keeps the order exactly when its data is expected. -/
theorem stepInOrder_iff {l : Lan η} (h : l.tcp.InOrder) (s : LanStep) :
    StepInOrder host l s ↔ DataExpected host l s := by
  unfold StepInOrder
  rcases lanAfter_tcp_cases host l s with ⟨tx, txLen, i, fd, hstep, hsyn, hafter⟩ |
    ⟨tx, txLen, i, taken, hstep, hdata, hafter⟩ | ⟨-, hnone, hplain⟩
  · -- a SYN is no data
    refine iff_of_true (by rw [hafter]; exact h.accept i fd _ _) ?_
    rintro tx' txLen' j taken hstep' hdata
    cases hstep.symm.trans hstep'
    exact absurd (hsyn.flags.symm.trans hdata.flags) (by decide)
  · have hopen : l.tcp.IsOpen i := (findTcp_eq_some hdata.found).1
    rw [hafter, Tcp.inOrder_deliver_iff (h.applied i (tcpTuple tx)) hopen]
    constructor
    · rintro hexpected tx' txLen' j taken' hstep' hdata'
      cases hstep.symm.trans hstep'
      cases hdata.found.symm.trans hdata'.found
      cases hdata.takes.symm.trans hdata'.takes
      exact hexpected
    · exact fun hall => hall tx txLen i taken hstep hdata
  · refine iff_of_true (run_invariant (fun hstep ht => ht.plain hstep) hplain h) ?_
    exact fun tx txLen i taken hstep hdata => absurd hdata (hnone tx txLen i taken hstep)

theorem inOrder_lanInit (edfs : Edfs) (h : η) : (lanInit edfs h).tcp.InOrder :=
  fun _ hopen => absurd rfl hopen

/-- **The byte stream of the guest.** Along every run, the host has accepted on every open
connection exactly the bytes that `recv_seq` covers, exactly when all data of which the host
takes some bytes is the expected data and is taken whole. -/
theorem stream_in_order_iff (edfs : Edfs) (h : η) (steps : List LanStep) :
    Along (lanAfter host) (StepInOrder host) (lanInit edfs h) steps ↔
      Along (lanAfter host) (DataExpected host) (lanInit edfs h) steps :=
  along_iff (I := fun l : Lan η => l.tcp.InOrder)
    (fun _ s hl hs => (stepInOrder_iff host hl s).mpr hs)
    (fun _ s hl => stepInOrder_iff host hl s) (inOrder_lanInit edfs h) steps

/-- A segment with one byte of data, the first of a connection. -/
def dataFrame : ℕ → Byte
  | 0x0C => 0x08
  | 0x0E => 0x45
  | 0x11 => 0x29
  | 0x17 => ipprotoTcp
  | 0x29 => 1
  | 0x2E => 0x50
  | 0x2F => flagsPshAck
  | _ => 0

/-- A segment that is retransmitted is passed on twice. -/
theorem stream_duplicated : ¬ ∀ (η : Type) (host : Host η) (edfs : Edfs) (h : η)
    (steps : List LanStep), Along (lanAfter host) (StepInOrder host) (lanInit edfs h) steps := by
  intro h
  have horder := (h Unit acceptingHost (edfsInit []) ()
    [.transmit synFrame 54, .transmit dataFrame 55, .transmit dataFrame 55]).2.2.1
  obtain ⟨first, n, hat⟩ := horder 0 (by decide)
  have hbytes : [1, 1] = seqRange first n := hat.bytes
  have hn : 2 = n := by simpa using congrArg List.length hbytes
  rw [← hn, show seqRange first 2 = [first + 0, first + 1] from rfl] at hbytes
  injection hbytes with hone hrest
  injection hrest with htwo
  exact absurd (hone.symm.trans htwo) (by simp)

end Pc20iii
