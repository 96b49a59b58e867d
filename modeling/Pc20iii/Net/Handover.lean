import Pc20iii.Net.Payload
import Pc20iii.Net.Transmit

/-!
# The frames for the guest

`rx_frame` is the only place for a frame on its way to the guest, and the functions that
build one write it without a look at `rx_ready`. What keeps two frames apart is the order of
the calls: after everything that may build a frame, `dp8390_execute` takes it.

* `HandedOver`: in a history, `rx_frame` is written and a frame is completed only while no
  frame is pending, and a frame is taken only while one is.
* `Keeps`: the programs of the network that continue such a history from a state without a
  pending frame. They build at most one frame.
* `frames_handed_over`: over every run of the card, no frame is pending between two steps,
  and each frame that is built has been taken once. `dp8390_execute` stores its packet in the
  ring unless the write pointer meets the guard of `dp8390_ring_rx`.
-/

namespace Pc20iii

open StateProgram

variable {η : Type} (host : Host η)

/-! ### Histories -/

/-- The frames that have been built and not taken. -/
def pendingFrames (events : List NetEvent) : ℤ := events.count .built - events.count .taken

/-- `rx_frame` is written and a frame completed only while no frame is pending, and a frame is
taken only while one is. -/
structure HandedOver (events : List NetEvent) : Prop where
  write : ∀ start len older, .rxWrite start len :: older <:+ events → pendingFrames older = 0
  built : ∀ older, .built :: older <:+ events → pendingFrames older = 0
  taken : ∀ older, .taken :: older <:+ events → pendingFrames older = 1

/-- The event neither completes nor takes a frame. -/
def NetEvent.isQuiet : NetEvent → Bool
  | .built | .taken => false
  | _ => true

/-- The event does not write `rx_frame` either. -/
def NetEvent.isSilent : NetEvent → Bool
  | .built | .taken | .rxWrite .. => false
  | _ => true

theorem NetEvent.isQuiet_of_isSilent {e : NetEvent} (h : e.isSilent = true) :
    e.isQuiet = true := by
  cases e <;> first | rfl | cases h

theorem pendingFrames_quiet {e : NetEvent} (h : e.isQuiet = true) (events : List NetEvent) :
    pendingFrames (e :: events) = pendingFrames events := by
  have hbuilt : e ≠ .built := by rintro rfl; cases h
  have htaken : e ≠ .taken := by rintro rfl; cases h
  rw [pendingFrames, List.count_cons_of_ne hbuilt, List.count_cons_of_ne htaken, pendingFrames]

theorem pendingFrames_append {es : List NetEvent} (hes : ∀ e ∈ es, e.isQuiet = true)
    (events : List NetEvent) : pendingFrames (es ++ events) = pendingFrames events := by
  induction es with
  | nil => rfl
  | cons e es ih =>
    obtain ⟨he, hes⟩ := List.forall_mem_cons.mp hes
    rw [List.cons_append, pendingFrames_quiet he, ih hes]

theorem pendingFrames_built (events : List NetEvent) :
    pendingFrames (.built :: events) = pendingFrames events + 1 := by
  rw [pendingFrames, List.count_cons_self, List.count_cons_of_ne (by decide), pendingFrames]
  omega

theorem pendingFrames_taken (events : List NetEvent) :
    pendingFrames (.taken :: events) = pendingFrames events - 1 := by
  rw [pendingFrames, List.count_cons_self, List.count_cons_of_ne (by decide), pendingFrames]
  omega

namespace HandedOver

variable {events : List NetEvent}

theorem nil : HandedOver [] where
  write _ _ _ h := by cases List.suffix_nil.mp h
  built _ h := by cases List.suffix_nil.mp h
  taken _ h := by cases List.suffix_nil.mp h

/-- An event more keeps the order, if a frame is only begun without one pending and only taken with
one. -/
theorem cons (h : HandedOver events) {e : NetEvent}
    (hwrite : ∀ start len, e = .rxWrite start len → pendingFrames events = 0)
    (hbuilt : e = .built → pendingFrames events = 0)
    (htaken : e = .taken → pendingFrames events = 1) : HandedOver (e :: events) where
  write start len older hsuffix := by
    -- what is older than an event is the rest, or older than one of the rest
    rcases List.suffix_cons_iff.mp hsuffix with heq | hsuffix
    · injection heq with he hes
      rw [hes]
      exact hwrite start len he.symm
    · exact h.write start len older hsuffix
  built older hsuffix := by
    rcases List.suffix_cons_iff.mp hsuffix with heq | hsuffix
    · injection heq with he hes
      rw [hes]
      exact hbuilt he.symm
    · exact h.built older hsuffix
  taken older hsuffix := by
    rcases List.suffix_cons_iff.mp hsuffix with heq | hsuffix
    · injection heq with he hes
      rw [hes]
      exact htaken he.symm
    · exact h.taken older hsuffix

/-- Quiet events continue the history, silent ones also while a frame is pending. -/
theorem append (h : HandedOver events) {es : List NetEvent} (hes : ∀ e ∈ es, e.isQuiet = true)
    (hwrite : pendingFrames events = 0 ∨ ∀ e ∈ es, e.isSilent = true) :
    HandedOver (es ++ events) := by
  induction es with
  | nil => exact h
  | cons e es ih =>
    obtain ⟨he, hes⟩ := List.forall_mem_cons.mp hes
    have hrest := ih hes (hwrite.imp_right fun hall => (List.forall_mem_cons.mp hall).2)
    refine hrest.cons ?_ (by rintro rfl; cases he) (by rintro rfl; cases he)
    rintro start len rfl
    rcases hwrite with hpending | hsilent
    · exact (pendingFrames_append hes events).trans hpending
    · cases (List.forall_mem_cons.mp hsilent).1

end HandedOver

/-! ### Programs -/

/-- The state of the network fits its history, in which `n` frames have been taken. -/
structure Lan.Handover (l : Lan η) (n : ℕ) : Prop where
  log : HandedOver l.log
  pending : pendingFrames l.log = if l.net.rxReady then 1 else 0
  taken : l.log.count .taken = n

namespace Lan.Handover

variable {l l' : Lan η} {n : ℕ}

/-- How many frames have been built. -/
theorem built (h : l.Handover n) :
    l.log.count .built = n + if l.net.rxReady then 1 else 0 := by
  have hpending := h.pending
  have htaken := h.taken
  unfold pendingFrames at hpending
  split <;> simp_all <;> omega

/-- Quiet events, no write of `rx_frame` among them while a frame is pending. -/
theorem extend (h : l.Handover n) (hready : l'.net.rxReady = l.net.rxReady) {es : List NetEvent}
    (hlog : l'.log = es ++ l.log) (hes : ∀ e ∈ es, e.isQuiet = true)
    (hwrite : pendingFrames l.log = 0 ∨ ∀ e ∈ es, e.isSilent = true) : l'.Handover n where
  log := hlog ▸ h.log.append hes hwrite
  pending := by rw [hlog, pendingFrames_append hes, h.pending, hready]
  taken := by
    have hnone : es.count .taken = 0 :=
      List.count_eq_zero.mpr fun hmem => absurd (hes _ hmem) Bool.false_ne_true
    rw [hlog, List.count_append, hnone, Nat.zero_add, h.taken]

theorem pending_of_idle (h : l.Handover n) (hready : l.net.rxReady = false) :
    pendingFrames l.log = 0 := by
  rw [h.pending, hready]
  rfl

/-- Quiet events while no frame is pending. -/
theorem quiet (h : l.Handover n) (hready : l.net.rxReady = false)
    (hext : l.Extends (fun e => e.isQuiet = true) (fun n _ => n.rxReady) l') : l'.Handover n := by
  obtain ⟨es, hlog, hes⟩ := hext.log
  exact h.extend hext.kept hlog hes (.inl (h.pending_of_idle hready))

/-- Silent events at any time. -/
theorem silent (h : l.Handover n)
    (hext : l.Extends (fun e => e.isSilent = true) (fun n _ => n.rxReady) l') : l'.Handover n := by
  obtain ⟨es, hlog, hes⟩ := hext.log
  exact h.extend hext.kept hlog (fun e he => NetEvent.isQuiet_of_isSilent (hes e he)) (.inr hes)

/-- The frame is completed. -/
theorem complete (h : l.Handover n) (hready : l.net.rxReady = false) (rxLen : Word) :
    (outcome (rxComplete rxLen) l).2.Handover n where
  log := h.log.cons nofun (fun _ => h.pending_of_idle hready) nofun
  pending := (pendingFrames_built l.log).trans (by rw [h.pending_of_idle hready]; rfl)
  taken := (List.count_cons_of_ne (by decide)).trans h.taken

/-- The frame is taken. -/
theorem handedOver (h : l.Handover n) (hready : l.net.rxReady = true) :
    l.handedOver.Handover (n + 1) where
  log := h.log.cons nofun nofun fun _ => by rw [h.pending, hready]; rfl
  pending := (pendingFrames_taken l.log).trans (by rw [h.pending, hready]; rfl)
  taken := (List.count_cons_self).trans (congrArg (· + 1) h.taken)

end Lan.Handover

/-- The program continues the history from a state without a pending frame, and takes no
frame. So it builds at most one. -/
def Keeps {α : Type} (x : N η α) : Prop :=
  ∀ (l : Lan η) (n : ℕ), l.Handover n → l.net.rxReady = false → (outcome x l).2.Handover n

/-- The steps that neither complete nor take a frame. -/
abbrev QuietAction : ∀ α : Type, N η α → Prop :=
  LanAction (fun e => e.isQuiet = true) (fun n _ => n.rxReady)

/-- The steps that do not write `rx_frame` either. -/
abbrev SilentAction : ∀ α : Type, N η α → Prop :=
  LanAction (fun e => e.isSilent = true) (fun n _ => n.rxReady)

namespace Keeps

variable {α β : Type}

theorem quiet {x : N η α} (hx : Generated QuietAction x) : Keeps x :=
  fun l _ h hready => h.quiet hready (extends_of_generated hx l)

/-- A frame may be built at the end. -/
theorem seq {x : N η α} {f : α → N η β} (hx : Generated QuietAction x) (hf : ∀ a, Keeps (f a)) :
    Keeps (x >>= f) := fun l n h hready => by
  have hext := extends_of_generated hx l
  exact hf _ _ n (h.quiet hready hext) (hext.kept.trans hready)

/-- After a frame has been built, `rx_frame` is left alone. -/
theorem andThen {x : N η α} {f : α → N η β} (hx : Keeps x)
    (hf : ∀ a, Generated SilentAction (f a)) : Keeps (x >>= f) := fun l n h hready =>
  (hx l n h hready).silent (extends_of_generated (hf _) _)

theorem ite {c : Prop} [Decidable c] {x y : N η α} (hx : Keeps x) (hy : Keeps y) :
    Keeps (if c then x else y) := by
  split <;> assumption

theorem rxComplete (rxLen : Word) : Keeps (rxComplete rxLen : N η Unit) :=
  fun _ _ h hready => h.complete hready rxLen

end Keeps

instance : EdfsEvents (fun e => e.isQuiet = true) (fun n _ => n.rxReady) where
  rxWrite _ := rfl
  ipHeader := rfl
  setBytes _ _ _ := rfl
  ipId _ _ := rfl
  rxLen _ _ := rfl
  txRead _ := rfl
  rxWrites _ _ := rfl
  ipChecksum _ _ := rfl
  hostPath _ := rfl
  buffer _ _ := rfl
  edfsPath _ _ := rfl
  crash := rfl
  edfs _ _ _ := rfl

instance : UdpChanges (fun n _ => n.rxReady) where
  udpSockets _ _ := rfl

instance : TcpEvents (fun e => e.isQuiet = true) (fun n _ => n.rxReady) where
  opened _ _ _ := rfl
  applied _ _ := rfl
  closed _ := rfl
  segment _ _ _ _ _ := rfl
  tcpSockets _ _ := rfl

instance : TcpEvents (fun e => e.isSilent = true) (fun n _ => n.rxReady) where
  opened _ _ _ := rfl
  applied _ _ := rfl
  closed _ := rfl
  segment _ _ _ _ _ := rfl
  tcpSockets _ _ := rfl

section Handlers

variable {tx : ℕ → Byte} {txLen : Word}

theorem keeps_netTcpSegment (len : ℕ) (i : Slot) (flags : Byte) (dstIp advance : BitVec 32) :
    Keeps (netTcpSegment len i flags dstIp advance : N η Unit) := by
  unfold netTcpSegment
  repeat' first
    | with_reducible exact .rxComplete _
    | with_reducible refine .seq ?_ fun _ => ?_
    | infer_instance

theorem keeps_netTcpClose (i : Slot) (flags : Byte) : Keeps (netTcpClose host i flags) := by
  unfold netTcpClose
  refine .andThen (.ite ?_ (.quiet inferInstance)) fun _ => ?_
  · exact .seq inferInstance fun n => keeps_netTcpSegment 0 i flags (n.tcpSockets i).dstIp 0
  · repeat' first
      | with_reducible refine Generated.seq _ _ ?_ fun _ => ?_
      | exact generated_note rfl
      | infer_instance

theorem keeps_netTcpSyn (tuple : Tuple) (recvSeq : BitVec 32) :
    Keeps (netTcpSyn host tuple recvSeq) := by
  unfold netTcpSyn
  repeat' first
    | with_reducible exact keeps_netTcpSegment _ _ _ _ _
    | with_reducible exact keeps_netTcpClose host _ _
    | with_reducible refine .seq ?_ fun _ => ?_
    | split
    | exact generated_note rfl
    | with_reducible refine .quiet ?_
    | infer_instance

theorem keeps_netTcpData (i : Slot) (ipLen : Word) (dataOffset : Byte) (recvSeq dstIp : BitVec 32) :
    Keeps (netTcpData host tx i ipLen dataOffset recvSeq dstIp) := by
  unfold netTcpData
  repeat' first
    | with_reducible exact keeps_netTcpSegment _ _ _ _ _
    | with_reducible exact keeps_netTcpClose host _ _
    | with_reducible refine .seq ?_ fun _ => ?_
    | split
    | exact generated_note rfl
    | infer_instance

theorem keeps_netTcpFlags (i : Slot) (ipLen : Word) (dataOffset flags : Byte)
    (recvSeq dstIp : BitVec 32) :
    Keeps (netTcpFlags host tx i ipLen dataOffset flags recvSeq dstIp) := by
  unfold netTcpFlags
  repeat' first
    | with_reducible exact keeps_netTcpData host _ _ _ _ _
    | with_reducible exact keeps_netTcpClose host _ _
    | with_reducible refine .ite ?_ ?_
    | with_reducible refine .seq ?_ fun _ => ?_
    | with_reducible refine .quiet ?_
    | infer_instance

theorem keeps_netHandleTcp (tx : ℕ → Byte) : Keeps (netHandleTcp host tx) := by
  unfold netHandleTcp
  repeat' first
    | with_reducible exact keeps_netTcpSyn host _ _
    | with_reducible exact keeps_netTcpFlags host _ _ _ _ _ _
    | rw [netTcpApply_eq]
    | with_reducible refine .seq ?_ fun _ => ?_
    | split
    | exact generated_note rfl
    | with_reducible refine .quiet ?_
    | infer_instance

theorem keeps_netHandleIcmp (tx : ℕ → Byte) (txLen : Word) :
    Keeps (netHandleIcmp tx txLen : N η Unit) := by
  unfold netHandleIcmp
  repeat' first
    | with_reducible exact .rxComplete _
    | with_reducible refine .seq ?_ fun _ => ?_
    | split
    | exact generated_note rfl
    | with_reducible refine .quiet ?_
    | infer_instance

theorem keeps_netHandleArp (tx : ℕ → Byte) (txLen : Word) :
    Keeps (netHandleArp tx txLen : N η Unit) := by
  unfold netHandleArp
  repeat' first
    | with_reducible exact .rxComplete _
    | with_reducible refine .seq ?_ fun _ => ?_
    | split
    | with_reducible refine .quiet ?_
    | infer_instance

theorem keeps_netHandleDhcp (tx : ℕ → Byte) : Keeps (netHandleDhcp tx : N η Unit) := by
  unfold netHandleDhcp netDhcpReply
  repeat' first
    | with_reducible exact .rxComplete _
    | with_reducible refine .seq ?_ fun _ => ?_
    | split
    | with_reducible refine .quiet ?_
    | infer_instance

theorem keeps_netHandleUdp (tx : ℕ → Byte) : Keeps (netHandleUdp host tx) := by
  unfold netHandleUdp
  repeat' first
    | with_reducible exact keeps_netHandleDhcp _
    | with_reducible refine .seq ?_ fun _ => ?_
    | split
    | exact generated_note rfl
    | with_reducible refine .quiet ?_
    | infer_instance

/-- A packet of EtherDFS completes at most one frame. -/
theorem keeps_edfsHandlePacket (tx : ℕ → Byte) (txLen : Word) :
    Keeps (edfsHandlePacket host tx txLen) := by
  -- the frame is completed in two assignments
  have hready : Keeps (do
      modifyNet fun n => { n with rxReady := true }
      note .built : N η Unit) := fun l _ h hready => h.complete hready l.net.rxLen
  unfold edfsHandlePacket
  repeat' first
    | with_reducible exact hready
    | exact generated_modifyNet fun n => rfl
    | with_reducible refine .seq ?_ fun _ => ?_
    | split
    | with_reducible refine .quiet ?_
    | infer_instance

/-- So does any frame of the guest. -/
theorem keeps_netTxFrame (tx : ℕ → Byte) (txLen : Word) : Keeps (netTxFrame host tx txLen) := by
  unfold netTxFrame netHandleIpv4
  repeat' first
    | with_reducible exact keeps_netHandleArp _ _
    | with_reducible exact keeps_netHandleIcmp _ _
    | with_reducible exact keeps_netHandleTcp host _
    | with_reducible exact keeps_netHandleUdp host _
    | with_reducible exact keeps_edfsHandlePacket host _ _
    | with_reducible refine .seq ?_ fun _ => ?_
    | with_reducible refine .ite ?_ ?_
    | with_reducible refine .quiet ?_
    | infer_instance

/-- So does the poll of a TCP socket. -/
theorem keeps_netCheckTcpSocket (i : Slot) : Keeps (netCheckTcpSocket host i) := by
  unfold netCheckTcpSocket
  refine .seq inferInstance fun net => ?_
  dsimp only
  repeat' first
    | with_reducible exact keeps_netTcpSegment _ _ _ _ _
    | with_reducible exact keeps_netTcpClose host _ _
    | with_reducible refine .andThen (keeps_netTcpSegment _ _ _ _ _) fun _ => ?_
    | with_reducible refine .seq ?_ fun _ => ?_
    | split
    | with_reducible refine .quiet ?_
    | infer_instance

theorem keeps_netCheckUdpSocket (i : Slot) : Keeps (netCheckUdpSocket host i) := by
  unfold netCheckUdpSocket
  repeat' first
    | with_reducible exact .rxComplete _
    | with_reducible refine .seq ?_ fun _ => ?_
    | split
    | with_reducible refine .quiet ?_
    | infer_instance

/-- A loop over the sockets looks at `rx_ready` before each of them. -/
theorem handover_netPoll (isOpen : Net → Slot → Bool) {check : Slot → N η Unit}
    (hcheck : ∀ i, Keeps (check i)) {l : Lan η} {n : ℕ} (h : l.Handover n) (slots : List Slot) :
    (outcome (netPoll isOpen check slots) l).2.Handover n := by
  induction slots generalizing l with
  | nil => exact h
  | cons i rest ih =>
    unfold netPoll
    rw [outcome_bind, outcome_getNet]
    dsimp only
    -- a frame is pending, so nothing more is polled
    split
    · exact h
    case isFalse hready =>
      rw [outcome_bind]
      refine ih ?_
      split
      · exact hcheck i l n h (Bool.eq_false_iff.mpr hready)
      · exact h

theorem handover_netExecute {l : Lan η} {n : ℕ} (h : l.Handover n) :
    (outcome (netExecute host) l).2.Handover n := by
  have hudp := handover_netPoll (fun n i => (n.udpSockets i).fd != -1)
    (keeps_netCheckUdpSocket host) h (List.finRange 5)
  unfold netExecute
  rw [outcome_bind]
  split
  · rw [outcome_bind, outcome_pure]
    exact handover_netPoll _ (keeps_netCheckTcpSocket host) hudp _
  · exact hudp

end Handlers

/-! ### The ring -/

namespace Dp8390

/-- The store of a byte at the local address, which moves on. -/
def store (byte : Byte) (x : Dp8390 η) : Dp8390 η :=
  { x with ring := Function.update x.ring x.clda byte, clda := x.nextAddress x.clda }

/-- The card after all bytes of the packet have been stored, from its page on. -/
def copied (x : Dp8390 η) : Dp8390 η := x.packet.foldl (fun y byte => y.store byte) x.receiving

/-- Before one of the bytes of the packet, the local address meets the guard of
`dp8390_ring_rx`. -/
def GuardMet (x : Dp8390 η) : Prop :=
  ∃ k < x.packet.length,
    ((x.packet.take k).foldl (fun y byte => y.store byte) x.receiving).clda = x.bnry.setWidth 16

/-- The card with the frame of `net` in front of it. -/
def withFrame (x : Dp8390 η) (net : Net) : Dp8390 η := { x with lan := { x.lan with net := net } }

theorem ringRx_of_guard {x : Dp8390 η} (h : x.clda = x.bnry.setWidth 16) (byte : Byte) :
    x.ringRx byte = x := if_pos h

theorem ringRx_of_not {x : Dp8390 η} (h : x.clda ≠ x.bnry.setWidth 16) (byte : Byte) :
    x.ringRx byte = x.store byte := if_neg h

theorem foldl_ringRx_of_not {bytes : List Byte} {x : Dp8390 η}
    (h : ∀ k < bytes.length,
      ((bytes.take k).foldl (fun y byte => y.store byte) x).clda ≠ x.bnry.setWidth 16) :
    bytes.foldl (fun y byte => y.ringRx byte) x = bytes.foldl (fun y byte => y.store byte) x := by
  induction bytes generalizing x with
  | nil => rfl
  | cons byte bytes ih =>
    rw [List.foldl_cons, List.foldl_cons, ringRx_of_not (x := x) (h 0 (Nat.zero_lt_succ _))]
    exact ih fun k hk => h (k + 1) (Nat.succ_lt_succ hk)

/-- The parts of the card that `dp8390_ring_rx` works on are the same. -/
structure SameRing (x y : Dp8390 η) : Prop where
  ring : y.ring = x.ring
  clda : y.clda = x.clda
  pstart : y.pstart = x.pstart
  pstop : y.pstop = x.pstop
  bnry : y.bnry = x.bnry

theorem SameRing.step {x y : Dp8390 η} (h : x.SameRing y) (byte : Byte) :
    (x.ringRx byte).SameRing (y.ringRx byte) := by
  by_cases hguard : x.clda = x.bnry.setWidth 16
  · rw [ringRx_of_guard hguard, ringRx_of_guard (by rw [h.clda, h.bnry, hguard])]
    exact h
  · rw [ringRx_of_not hguard, ringRx_of_not (by rwa [h.clda, h.bnry])]
    refine ⟨?_, ?_, h.pstart, h.pstop, h.bnry⟩ <;> dsimp only [store, nextAddress]
    · rw [h.ring, h.clda]
    · rw [h.clda, h.pstart, h.pstop]

theorem SameRing.foldl {x y : Dp8390 η} (h : x.SameRing y) (bytes : List Byte) :
    (bytes.foldl (fun y byte => y.ringRx byte) x).SameRing
      (bytes.foldl (fun y byte => y.ringRx byte) y) := by
  induction bytes generalizing x y with
  | nil => exact h
  | cons byte bytes ih => exact ih (h.step byte)

end Dp8390

/-! ### Steps of the card -/

/-- What the transmission and the polls leave alone: the ring and its registers. -/
structure Dp8390.KeepsRing (x y : Dp8390 η) : Prop where
  ring : y.ring = x.ring
  curr : y.curr = x.curr
  pstart : y.pstart = x.pstart
  pstop : y.pstop = x.pstop
  bnry : y.bnry = x.bnry

/-- `dp8390_execute` behind a function of the network. -/
theorem handover_execute {m : Machine (Dp8390 η)} (m' : Machine (Dp8390 η)) {n : ℕ}
    (hring : m.dev.KeepsRing m'.dev) (h : m'.dev.lan.Handover n) :
    let x := (outcome dp8390Execute m').2.dev
    (x.lan.Handover n ∧ x.lan.net.rxReady = false) ∨
      (x.lan.Handover (n + 1) ∧ x.lan.net.rxReady = false ∧
        x.ring = ((m.dev.withFrame x.lan.net).packet.foldl (fun y byte => y.ringRx byte)
          (m.dev.withFrame x.lan.net).receiving).ring) := by
  cases hready : m'.dev.lan.net.rxReady with
  | false =>
    rw [dev_dp8390Execute_of_not_ready hready]
    exact .inl ⟨h, hready⟩
  | true =>
    rw [dev_dp8390Execute_of_ready hready]
    refine .inr ⟨h.handedOver hready, rfl, ?_⟩
    -- the packet and the ring are those of the card before
    let x := m.dev.withFrame { m'.dev.lan.net with rxReady := false }
    have hnext : ∀ count, x.nextPacket count = m'.dev.nextPacket count := fun count => by
      unfold Dp8390.nextPacket
      rw [hring.curr, hring.pstart, hring.pstop]
      rfl
    have hpacket : x.packet = m'.dev.packet := by
      unfold Dp8390.packet
      dsimp only
      rw [hnext]
      rfl
    have hsame : x.receiving.SameRing m'.dev.receiving := by
      refine ⟨hring.ring, ?_, hring.pstart, hring.pstop, hring.bnry⟩
      exact congrArg Dp8390.pageAddress hring.curr
    have hring := (hsame.foldl x.packet).ring
    rw [hpacket] at hring
    refine hring.trans ?_
    rw [← hpacket]
    rfl

theorem keepsRing_transmit (m : Machine (Dp8390 η)) :
    m.dev.KeepsRing (outcome (dp8390TransmitPacket host) m).2.dev := by
  simp only [dp8390TransmitPacket, outcome_bind, outcome_modifyDev, outcome_getDev, dev_runLan,
    dev_dp8390Irq]
  exact ⟨rfl, rfl, rfl, rfl, rfl⟩

theorem handover_transmit {m : Machine (Dp8390 η)} {n : ℕ} (h : m.dev.lan.Handover n)
    (hready : m.dev.lan.net.rxReady = false) :
    (outcome (dp8390TransmitPacket host) m).2.dev.lan.Handover n := by
  simp only [dp8390TransmitPacket, outcome_bind, outcome_modifyDev, outcome_getDev, dev_runLan,
    dev_dp8390Irq]
  exact keeps_netTxFrame host _ _ _ n ⟨h.log, h.pending, h.taken⟩ hready

/-- **What a step of the card does to the frames.** -/
theorem handover_cardAfter {m : Machine (Dp8390 η)} {n : ℕ} (h : m.dev.lan.Handover n)
    (hready : m.dev.lan.net.rxReady = false) (s : CardStep η) :
    let x := (cardAfter host m s).dev
    (x.lan.Handover n ∧ x.lan.net.rxReady = false) ∨
      (x.lan.Handover (n + 1) ∧ x.lan.net.rxReady = false ∧
        x.ring = ((m.dev.withFrame x.lan.net).packet.foldl (fun y byte => y.ringRx byte)
          (m.dev.withFrame x.lan.net).receiving).ring) := by
  rcases cardAfter_cases host m s with ⟨value, rfl, hafter⟩ | rfl | ⟨-, -, hquiet⟩
  · obtain ⟨m₁, isr₁, isr₂, hm₁, hdev⟩ := dev_dp8390CrWrite host value m
    rw [hafter, hdev]
    have hlan : m₁.dev.lan = m.dev.lan := by rw [hm₁]
    -- only a write of CR with the TXP bit transmits
    cases value.getLsbD 2 with
    | false => exact .inl ⟨hlan ▸ h, hlan ▸ hready⟩
    | true =>
      have hring : m.dev.KeepsRing (outcome (dp8390TransmitPacket host) m₁).2.dev := by
        have htransmit := keepsRing_transmit host m₁
        refine ⟨htransmit.ring.trans ?_, htransmit.curr.trans ?_, htransmit.pstart.trans ?_,
          htransmit.pstop.trans ?_, htransmit.bnry.trans ?_⟩ <;> rw [hm₁]
      exact handover_execute _ hring (handover_transmit host (hlan ▸ h) (hlan ▸ hready))
  · refine handover_execute (outcome (runLan (netExecute host)) m).2
      ⟨rfl, rfl, rfl, rfl, rfl⟩ ?_
    rw [dev_runLan]
    exact handover_netExecute host ⟨h.log, h.pending, h.taken⟩
  · exact .inl ⟨hquiet.lan ▸ h, hquiet.lan ▸ hready⟩

/-! ### Runs -/

/-- No frame is pending after the step, it has built at most one, and if it has, the whole
packet is in the ring unless the guard of `dp8390_ring_rx` has been met. -/
structure StepHandsOver (m : Machine (Dp8390 η)) (s : CardStep η) : Prop where
  idle : (cardAfter host m s).dev.lan.net.rxReady = false
  once : (cardAfter host m s).dev.lan.log.count .built ≤ m.dev.lan.log.count .built + 1
  copied : m.dev.lan.log.count .built < (cardAfter host m s).dev.lan.log.count .built →
    ¬ (m.dev.withFrame (cardAfter host m s).dev.lan.net).GuardMet →
      (cardAfter host m s).dev.ring =
        (m.dev.withFrame (cardAfter host m s).dev.lan.net).copied.ring

/-- Frames are handed over one by one, and what the ring gets is the packet of the frame. -/
theorem stepHandsOver {m : Machine (Dp8390 η)} {n : ℕ} (h : m.dev.lan.Handover n)
    (hready : m.dev.lan.net.rxReady = false) (s : CardStep η) : StepHandsOver host m s := by
  have hbefore : m.dev.lan.log.count .built = n := by rw [h.built, hready]; rfl
  rcases handover_cardAfter host h hready s with ⟨hafter, hidle⟩ | ⟨hafter, hidle, hring⟩
  -- no frame has been built
  · have hsame : (cardAfter host m s).dev.lan.log.count .built = n := by
      rw [hafter.built, hidle]
      rfl
    exact ⟨hidle, by omega, fun hlt => absurd hlt (by omega)⟩
  -- a frame has been built, and the ring has taken it
  · have hnext : (cardAfter host m s).dev.lan.log.count .built = n + 1 := by
      rw [hafter.built, hidle]
      rfl
    refine ⟨hidle, by omega, fun _ hguard => hring.trans ?_⟩
    rw [Dp8390.copied, Dp8390.foldl_ringRx_of_not]
    exact fun k hk hclda => hguard ⟨k, hk, hclda⟩

/-- No frame is pending, and the history is that of frames handed over. -/
def Machine.RxIdle (m : Machine (Dp8390 η)) : Prop :=
  m.dev.lan.net.rxReady = false ∧ ∃ n, m.dev.lan.Handover n

theorem rxIdle_cardAfter {m : Machine (Dp8390 η)} (h : m.RxIdle) (s : CardStep η) :
    (cardAfter host m s).RxIdle := by
  obtain ⟨hready, n, h⟩ := h
  rcases handover_cardAfter host h hready s with ⟨hafter, hidle⟩ | ⟨hafter, hidle, -⟩
  · exact ⟨hidle, n, hafter⟩
  · exact ⟨hidle, n + 1, hafter⟩

theorem rxIdle_init (m : Machine (Dp8390 η)) (edfs : Edfs) (h : η) :
    (m.withCard (lanInit edfs h)).RxIdle :=
  ⟨rfl, 0, .nil, rfl, rfl⟩

/-- **The frames for the guest.** Over every run, no frame is pending between two steps, a
step builds at most one frame, and every frame that is built is taken once, before `rx_frame`
is written again. -/
theorem frames_handed_over (m : Machine (Dp8390 η)) (edfs : Edfs) (h : η)
    (steps : List (CardStep η)) :
    let m' := runAll (cardAfter host) (m.withCard (lanInit edfs h)) steps
    m'.dev.lan.net.rxReady = false ∧ HandedOver m'.dev.lan.log ∧
      pendingFrames m'.dev.lan.log = 0 ∧
        Along (cardAfter host) (StepHandsOver host) (m.withCard (lanInit edfs h)) steps := by
  have hstep : ∀ (m : Machine (Dp8390 η)) s, m.RxIdle → (cardAfter host m s).RxIdle :=
    fun _ s hm => rxIdle_cardAfter host hm s
  obtain ⟨hready, n, hover⟩ := runAll_invariant hstep (rxIdle_init m edfs h) steps
  refine ⟨hready, hover.log, hover.pending_of_idle hready, ?_⟩
  refine along_of_invariant hstep (fun m s hm => ?_) (rxIdle_init m edfs h) steps
  obtain ⟨hready, n, hover⟩ := hm
  exact stepHandsOver host hover hready s

/-- If the step builds a frame, the whole packet is in the ring. -/
def StepCopies (m : Machine (Dp8390 η)) (s : CardStep η) : Prop :=
  m.dev.lan.log.count .built < (cardAfter host m s).dev.lan.log.count .built →
    (cardAfter host m s).dev.ring = (m.dev.withFrame (cardAfter host m s).dev.lan.net).copied.ring

/-- The ring gets the bytes of a SYN frame that are not 0, and is transmitted from its
start. -/
def transmitSyn : List (CardStep Unit) :=
  [.access (.write 0x308 0x0C), .access (.write 0x310 0x08),
    .access (.write 0x308 0x17), .access (.write 0x310 ipprotoTcp),
    .access (.write 0x308 0x2F), .access (.write 0x310 flagsSyn),
    .access (.write 0x305 54), .access (.write 0x300 0x06)]

/-- With the page 0 for CURR, as after `dp8390_init`, the guard keeps the whole packet out of
the ring. -/
theorem frames_lost : ¬ ∀ (η : Type) (host : Host η) (m : Machine (Dp8390 η)) (edfs : Edfs)
    (h : η) (steps : List (CardStep η)),
    Along (cardAfter host) (StepCopies host) (m.withCard (lanInit edfs h)) steps := by
  intro h
  have hcopies := (h Unit acceptingHost (machineInit (dp8390Init (lanInit (edfsInit []) ())))
    (edfsInit []) () transmitSyn).2.2.2.2.2.2.2.1
  have hring := congrFun (hcopies (by decide +kernel)) 0
  exact absurd hring (by decide +kernel)

end Pc20iii
