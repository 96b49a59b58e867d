import Pc20iii.I8088.Execute
import Pc20iii.Net.Dp8390

/-!
# The frames of the network card

What `dp8390_transmit_packet` stores in `tx_frame` and hands to the network, over all runs
of register accesses and main loops.

The byte count comes from two registers of the guest, and the loop that copies the ring
runs for as many passes. Nothing compares it with the size of the array. So a run stores
inside `tx_frame` and hands over frames of at most `NET_MTU` bytes exactly when the count
is at most `NET_MTU` at each of its transmit commands (`transmits_iff`). The bytes of the
frame are those of the ring in any case.
-/

namespace Pc20iii

open StateProgram

variable {η : Type} (host : Host η)

/-! ### The loop -/

namespace Dp8390

/-- The loop has stored the bytes of the ring. -/
theorem txFrame_eq (x : Dp8390 η) (stack : ℕ → Byte) {i : ℕ} (h : i < x.tbcr.toNat) :
    x.txFrame stack i = x.ring (x.tpsr + BitVec.ofNat 16 i) := by
  -- a byte is stored once, so later passes leave it
  have hloop : ∀ n, i < n → (List.range n).foldl (fun frame i =>
      Function.update frame i (x.ring (x.tpsr + BitVec.ofNat 16 i))) stack i =
        x.ring (x.tpsr + BitVec.ofNat 16 i) := by
    intro n
    induction n with
    | zero => exact fun hn => absurd hn (Nat.not_lt_zero _)
    | succ n ih =>
      intro hn
      rw [List.range_succ, List.foldl_append, List.foldl_cons, List.foldl_nil]
      rcases Nat.lt_succ_iff_lt_or_eq.mp hn with hlt | rfl
      · rw [Function.update_of_ne hlt.ne]
        exact ih hlt
      · exact Function.update_self ..
  exact hloop _ h

/-- Nothing is transmitted between the two states. -/
def Silent (x y : Dp8390 η) : Prop := y.stores = x.stores ∧ y.frames = x.frames

theorem silent_ringRx (bytes : List Byte) (x : Dp8390 η) :
    x.Silent (bytes.foldl (fun y byte => y.ringRx byte) x) := by
  induction bytes generalizing x with
  | nil => exact ⟨rfl, rfl⟩
  | cons byte bytes ih =>
    obtain ⟨hstores, hframes⟩ := ih (x.ringRx byte)
    refine ⟨hstores.trans ?_, hframes.trans ?_⟩ <;>
    · unfold ringRx
      split <;> rfl

end Dp8390

/-! ### Steps -/

theorem silent_dp8390Execute (m : Machine (Dp8390 η)) :
    m.dev.Silent (outcome dp8390Execute m).2.dev := by
  cases h : m.dev.lan.net.rxReady with
  | false =>
    rw [dev_dp8390Execute_of_not_ready h]
    exact ⟨rfl, rfl⟩
  | true =>
    rw [dev_dp8390Execute_of_ready h]
    exact Dp8390.silent_ringRx m.dev.packet m.dev.receiving

/-- What `dp8390_transmit_packet` stores and hands over. -/
theorem dev_dp8390TransmitPacket (m : Machine (Dp8390 η)) :
    let x := (outcome (dp8390TransmitPacket host) m).2.dev
    x.stores = (List.range m.dev.tbcr.toNat).reverse ++ m.dev.stores ∧
      x.frames = (m.dev.txFrame (host.stack m.dev.lan.host), m.dev.tbcr) :: m.dev.frames := by
  simp only [dp8390TransmitPacket, outcome_bind, outcome_modifyDev, outcome_getDev, dev_runLan,
    dev_dp8390Irq]
  trivial

/-- The step is a transmit command. -/
def IsTransmit : CardStep η → Prop
  | .access (.write port value) => port = 0x300 ∧ value.getLsbD 2 = true
  | _ => False

theorem isTransmit_write {value : Byte} :
    IsTransmit (.access (.write 0x300 value) : CardStep η) ↔ value.getLsbD 2 = true :=
  and_iff_right rfl

/-- A step that is not a transmit command transmits nothing. -/
theorem silent_cardAfter {s : CardStep η} (h : ¬ IsTransmit s) (m : Machine (Dp8390 η)) :
    m.dev.Silent (cardAfter host m s).dev := by
  rcases cardAfter_cases host m s with ⟨value, rfl, hafter⟩ | rfl | ⟨-, -, hquiet⟩
  · obtain ⟨m₁, isr₁, isr₂, hm₁, hdev⟩ := dev_dp8390CrWrite host value m
    rw [hafter, hdev, if_neg (mt isTransmit_write.mpr h), hm₁]
    exact ⟨rfl, rfl⟩
  · exact silent_dp8390Execute (outcome (runLan (netExecute host)) m).2
  · exact ⟨hquiet.stores, hquiet.frames⟩

/-- A transmit command runs `dp8390_transmit_packet` once. -/
theorem transmit_cardAfter {s : CardStep η} (h : IsTransmit s) (m : Machine (Dp8390 η)) :
    (cardAfter host m s).dev.stores = (List.range m.dev.tbcr.toNat).reverse ++ m.dev.stores ∧
      (cardAfter host m s).dev.frames =
        (m.dev.txFrame (host.stack m.dev.lan.host), m.dev.tbcr) :: m.dev.frames := by
  rcases cardAfter_cases host m s with ⟨value, rfl, hafter⟩ | rfl | ⟨hne, -, -⟩
  -- a write to CR, the only access that transmits
  · obtain ⟨m₁, isr₁, isr₂, hm₁, hdev⟩ := dev_dp8390CrWrite host value m
    obtain ⟨hstores, hframes⟩ := dev_dp8390TransmitPacket host m₁
    obtain ⟨hstores', hframes'⟩ :=
      silent_dp8390Execute (outcome (dp8390TransmitPacket host) m₁).2
    rw [hafter, hdev, if_pos (isTransmit_write.mp h)]
    refine ⟨(hstores'.trans hstores).trans ?_, (hframes'.trans hframes).trans ?_⟩ <;> rw [hm₁]
    rfl
  · exact absurd h id
  · rcases s with (_ | ⟨port, value⟩ | _) | _
    · exact absurd h id
    · obtain ⟨rfl, -⟩ := h
      exact absurd rfl (hne value)
    all_goals exact absurd h id

/-! ### Runs -/

/-- A transmit command hands one frame to the network, of at most `NET_MTU` bytes: those of
the ring from TPSR on, as many as the transmit byte count. Any other step hands over
none. -/
def TransmitsRing (m : Machine (Dp8390 η)) (s : CardStep η) : Prop :=
  (IsTransmit s → m.dev.tbcr.toNat ≤ netMtu ∧ ∃ frame : ℕ → Byte,
    (cardAfter host m s).dev.frames = (frame, m.dev.tbcr) :: m.dev.frames ∧
      ∀ i < m.dev.tbcr.toNat, frame i = m.dev.ring (m.dev.tpsr + BitVec.ofNat 16 i)) ∧
  (¬ IsTransmit s → (cardAfter host m s).dev.frames = m.dev.frames)

/-- The transmit byte count is at most `NET_MTU` when a transmit command is given. -/
def CountFits (m : Machine (Dp8390 η)) (s : CardStep η) : Prop :=
  IsTransmit s → m.dev.tbcr.toNat ≤ netMtu

theorem transmitsRing_iff (m : Machine (Dp8390 η)) (s : CardStep η) :
    TransmitsRing host m s ↔ CountFits m s := by
  constructor
  · exact fun h hs => (h.1 hs).1
  · refine fun h => ⟨fun hs => ⟨h hs, _, (transmit_cardAfter host hs m).2, ?_⟩,
      fun hs => (silent_cardAfter host hs m).2⟩
    exact fun i hi => m.dev.txFrame_eq _ hi

/-- The stores so far are inside `tx_frame`. -/
def Dp8390.StoresInside (x : Dp8390 η) : Prop := ∀ n ∈ x.stores, n < netMtu

/-- One more step stores inside the frame exactly when its count fits. -/
theorem storesInside_cardAfter (m : Machine (Dp8390 η)) (s : CardStep η) :
    (cardAfter host m s).dev.StoresInside ↔ m.dev.StoresInside ∧ CountFits m s := by
  by_cases hs : IsTransmit s
  · rw [Dp8390.StoresInside, (transmit_cardAfter host hs m).1, List.forall_mem_append, and_comm]
    refine and_congr_right fun _ => ⟨fun h _ => ?_, fun h n hn => ?_⟩
    · by_contra hlt
      -- the store at the first offset behind the frame
      have hmem : netMtu ∈ (List.range m.dev.tbcr.toNat).reverse := by
        rw [List.mem_reverse, List.mem_range]
        omega
      exact lt_irrefl _ (h _ hmem)
    · rw [List.mem_reverse, List.mem_range] at hn
      exact hn.trans_le (h hs)
  · rw [Dp8390.StoresInside, (silent_cardAfter host hs m).1]
    exact (and_iff_left fun h => absurd h hs).symm

/-- The machine after `dp8390_init`. -/
def Machine.withCard (m : Machine (Dp8390 η)) (lan : Lan η) : Machine (Dp8390 η) :=
  { m with dev := dp8390Init lan }

/-- **The frames of the network card.** Over every run, all stores are inside `tx_frame` and
every frame is the programmed part of the ring, of at most `NET_MTU` bytes, exactly when the
transmit byte count is at most `NET_MTU` at every transmit command. -/
theorem transmits_iff (m : Machine (Dp8390 η)) (lan : Lan η) (steps : List (CardStep η)) :
    (∀ n ∈ (runAll (cardAfter host) (m.withCard lan) steps).dev.stores, n < netMtu) ∧
      Along (cardAfter host) (TransmitsRing host) (m.withCard lan) steps ↔
    Along (cardAfter host) CountFits (m.withCard lan) steps := by
  have hstart : (m.withCard lan).dev.StoresInside := nofun
  have hrun := runAll_iff (I := fun _ => True) (Q := fun m => m.dev.StoresInside)
    (fun _ _ _ => trivial) (fun m s _ => storesInside_cardAfter host m s) (s := m.withCard lan)
    trivial steps
  rw [along_congr (transmitsRing_iff host)]
  exact ⟨fun h => h.2, fun h => ⟨hrun.mpr ⟨hstart, h⟩, h⟩⟩

/-- A transmit byte count of 1515 bytes, and a transmit command. -/
def transmitTooMuch : List (CardStep Unit) :=
  [.access (.write 0x305 0xEB), .access (.write 0x306 0x05), .access (.write 0x300 0x26)]

/-- The card stores beyond the end of `tx_frame`. -/
theorem transmits_beyond : ¬ ∀ (η : Type) (host : Host η) (m : Machine (Dp8390 η)) (lan : Lan η)
    (steps : List (CardStep η)),
    (∀ n ∈ (runAll (cardAfter host) (m.withCard lan) steps).dev.stores, n < netMtu) ∧
      Along (cardAfter host) (TransmitsRing host) (m.withCard lan) steps := by
  intro h
  have hring := (h Unit failingHost (machineInit (dp8390Init (lanInit (edfsInit []) ())))
    (lanInit (edfsInit []) ()) transmitTooMuch).2.2.2.1
  have hcount := (hring.1 (isTransmit_write.mpr (by decide))).1
  exact absurd hcount (by decide)

end Pc20iii
