import Pc20iii.Net.Ring
import Mathlib.Data.List.GetD

/-!
# The chain of the received packets

Each packet in the ring starts with a header, whose next packet pointer names the page of the
following one. `dp8390_execute` takes the pointer and CURR from one sum, so the packets chain
as far as this sum is right and the header is stored.

Both can fail. The sum has 8 bits and may wrap before it is compared with PSTOP, when the ring
reaches near the page 255; the wrapped page may lie before PSTART. And the guard of
`dp8390_ring_rx`, which compares a byte address with the page BNRY, may be met inside of a
header in the page 0. Otherwise the packets chain, over every sequence of receptions
(`packets_chain_iff`).
-/

namespace Pc20iii

open StateProgram

variable {η : Type}

namespace Dp8390

variable {x : Dp8390 η}

/-- The pages that the packet of the network takes. -/
def packetPages (x : Dp8390 η) : ℕ := (x.lan.net.rxLen.toNat + 4) / 256 + 1

/-- The page behind the packet has 8 bits, or what is left of it lies in the ring. -/
def PageKept (x : Dp8390 η) : Prop :=
  x.curr.toNat + x.packetPages < 256 ∨ x.pstart.toNat + 256 ≤ x.curr.toNat + x.packetPages

/-- The card with these bytes in the ring. -/
def withRing (x : Dp8390 η) (ring : Word → Byte) : Dp8390 η := { x with ring := ring }

/-- BNRY is not the address of a byte of the header. -/
def HeaderClear (x : Dp8390 η) : Prop := ¬ (x.curr = 0 ∧ x.bnry.toNat < 4)

instance : Decidable x.PageKept := inferInstanceAs (Decidable (_ ∨ _))

instance : Decidable x.HeaderClear := inferInstanceAs (Decidable (¬ _))

/-! ### The pointer -/

theorem packetPages_le (hmtu : x.lan.net.rxLen.toNat ≤ netMtu) : x.packetPages ≤ 6 := by
  change x.lan.net.rxLen.toNat ≤ 1514 at hmtu
  unfold packetPages
  omega

/-- The sum of `dp8390_execute`, which wraps. -/
theorem toNat_curr_add (hmtu : x.lan.net.rxLen.toNat ≤ netMtu) :
    (x.curr + ((x.lan.net.rxLen + 4) / 256).setWidth 8 + 1).toNat =
      (x.curr.toNat + x.packetPages) % 256 := by
  change x.lan.net.rxLen.toNat ≤ 1514 at hmtu
  have hcount : (x.lan.net.rxLen + 4).toNat = x.lan.net.rxLen.toNat + 4 :=
    BitVec.toNat_add_of_lt (show x.lan.net.rxLen.toNat + 4 < 2 ^ 16 by omega)
  rw [BitVec.toNat_add, BitVec.toNat_add, BitVec.toNat_setWidth, BitVec.toNat_udiv, hcount,
    packetPages]
  change ((x.curr.toNat + (x.lan.net.rxLen.toNat + 4) / 256 % 256) % 256 + 1) % 256 = _
  omega

/-- On a ring of six pages or more, the packet ends before it has gone around, so the pointer
stays in the ring unless it wraps to a page before PSTART. -/
theorem nextPacket_inRing_iff (h : x.InRing) (hsix : x.pstart.toNat + 6 ≤ x.pstop.toNat)
    (hmtu : x.lan.net.rxLen.toNat ≤ netMtu) :
    (x.pstart.toNat ≤ (x.nextPacket (x.lan.net.rxLen + 4)).toNat ∧
      (x.nextPacket (x.lan.net.rxLen + 4)).toNat < x.pstop.toNat) ↔ x.PageKept := by
  obtain ⟨next, hnext⟩ :
      ∃ next, next = x.curr + ((x.lan.net.rxLen + 4) / 256).setWidth 8 + 1 := ⟨_, rfl⟩
  have hsum : next.toNat = (x.curr.toNat + x.packetPages) % 256 := by
    rw [hnext, toNat_curr_add hmtu]
  have hpages := packetPages_le hmtu
  have hstart := h.pstart_le_curr
  have hcurr := h.curr_lt
  have hstop : x.pstop.toNat < 256 := x.pstop.isLt
  have hpointer : x.nextPacket (x.lan.net.rxLen + 4) =
      if next ≥ x.pstop then x.pstart + (next - x.pstop) else next := by
    rw [hnext]
    rfl
  rw [hpointer, PageKept]
  split
  case isTrue hwrap =>
    -- the sum is behind the end of the ring and has not wrapped
    have hle : x.pstop.toNat ≤ next.toNat := BitVec.le_def.mp hwrap
    have hrest : (next - x.pstop).toNat = next.toNat - x.pstop.toNat :=
      BitVec.toNat_sub_of_le hwrap
    have hsecond : (x.pstart + (next - x.pstop)).toNat =
        x.pstart.toNat + (next.toNat - x.pstop.toNat) := by
      rw [BitVec.toNat_add_of_lt (by omega), hrest]
    rw [hsecond]
    omega
  case isFalse hinside =>
    have hlt : next.toNat < x.pstop.toNat := by
      rw [ge_iff_le, BitVec.le_def] at hinside
      omega
    omega

/-! ### The header -/

/-- A packet has a place of its own for each byte. -/
theorem separate_packet (h : x.InRing) (hsix : x.pstart.toNat + 6 ≤ x.pstop.toNat)
    (hmtu : x.lan.net.rxLen.toNat ≤ netMtu) :
    Separate x.nextAddress (pageAddress x.curr) x.packet.length := by
  refine separate_of_le h ?_
  change x.lan.net.rxLen.toNat ≤ 1514 at hmtu
  rw [length_packet, ringSize]
  omega

/-- A byte of the packet is stored, whatever the ring has held, exactly when the guard is not
met up to it. -/
theorem stored_iff (hsep : Separate x.nextAddress (pageAddress x.curr) x.packet.length) {k : ℕ}
    (hk : k < x.packet.length) :
    (∀ ring : Word → Byte,
      (x.packet.foldl (fun y byte => y.ringRx byte) (x.receiving.withRing ring)).ring
        (x.ringAddress k) = x.packet[k]) ↔
      ∀ j ≤ k, x.ringAddress j ≠ x.bnry.setWidth 16 := by
  constructor
  · intro hstored
    -- a ring that does not hold the byte
    let ring : Word → Byte := fun _ => x.packet[k] + 1
    obtain ⟨n, hn⟩ := exists_storedUpTo x.packet (x.receiving.withRing ring)
    intro j hj
    -- up to the guard the bytes are stored; behind it the ring is as it was
    by_cases hkn : k < n
    · exact hn.ne_bnry j (Nat.lt_of_le_of_lt hj hkn)
    · have hkept := hstored ring
      rw [hn.ring_eq, storeAlong_of_ne] at hkept
      · have hne : x.packet[k] + 1 ≠ x.packet[k] := by simp
        exact absurd hkept hne
      · intro i hi heq
        rw [List.length_take] at hi
        have hin : i = k := (hsep hk (show i < x.packet.length by omega) heq).symm
        omega
  · intro hfree ring
    obtain ⟨n, hn⟩ := exists_storedUpTo x.packet (x.receiving.withRing ring)
    have hkn : k < n := by
      by_contra hnot
      have hlt : n < x.packet.length := by omega
      exact hfree n (by omega) (hn.guard hlt)
    have hlength : (x.packet.take n).length = n := by
      rw [List.length_take]
      exact Nat.min_eq_left hn.le_length
    have hprefix : Separate x.nextAddress (pageAddress x.curr) (x.packet.take n).length := by
      rw [hlength]
      exact hsep.mono fun i (hi : i < n) => Nat.lt_of_lt_of_le hi hn.le_length
    have hkn : k < (x.packet.take n).length := hlength.symm ▸ hkn
    rw [hn.ring_eq]
    exact (storeAlong_iterate hprefix hkn).trans List.getElem_take

/-- The first bytes of a page lie behind one another. -/
theorem ringAddress_of_lt (h : x.InRing) {k : ℕ} (hk : k < 256) :
    x.ringAddress k = pageAddress x.curr + BitVec.ofNat 16 k := by
  have hstart := h.pstart_le_curr
  have hpages : (x.curr.toNat - x.pstart.toNat) * 256 + 256 ≤ x.ringSize := by
    have hlt := h.curr_lt
    rw [ringSize]
    omega
  have hcurr : x.curr.toNat < 256 := x.curr.isLt
  rw [ringAddress_eq h, ← BitVec.toNat_inj, toNat_ringPosition h, BitVec.toNat_add,
    toNat_pageAddress, BitVec.toNat_ofNat, Nat.mod_eq_of_lt (by omega)]
  omega

/-- The header clears BNRY as long as it is not in the page 0, or BNRY is behind it. -/
theorem headerClear_iff (h : x.InRing) :
    (∀ k < 4, x.ringAddress k ≠ x.bnry.setWidth 16) ↔ x.HeaderClear := by
  have hcurr : x.curr.toNat < 256 := x.curr.isLt
  have hbnry : x.bnry.toNat < 256 := x.bnry.isLt
  -- the header is at the start of a page, so that its addresses do not wrap
  have haddress : ∀ k < 4, x.ringAddress k = x.bnry.setWidth 16 ↔
      x.curr.toNat * 256 + k = x.bnry.toNat := by
    intro k hk
    rw [ringAddress_of_lt h (by omega), ← BitVec.toNat_inj, BitVec.toNat_add, toNat_pageAddress,
      BitVec.toNat_ofNat, BitVec.toNat_setWidth]
    omega
  rw [HeaderClear, ← BitVec.toNat_inj]
  constructor
  · rintro hfree ⟨hzero, hlt⟩
    change x.curr.toNat = 0 at hzero
    exact hfree x.bnry.toNat hlt ((haddress _ hlt).mpr (by omega))
  · intro hclear k hk heq
    have hsum := (haddress k hk).mp heq
    exact hclear ⟨show x.curr.toNat = 0 by omega, by omega⟩

end Dp8390

/-! ### Receptions -/

/-- The machine, with the ring of the card at its place and CURR where the packets before have
left it. -/
def Machine.withRingOf (m : Machine (Dp8390 η)) (x : Dp8390 η) : Machine (Dp8390 η) :=
  { m with dev := { m.dev with pstart := x.pstart, pstop := x.pstop, curr := x.curr } }

/-- The machine, with these bytes in the ring. -/
def Machine.withRing (m : Machine (Dp8390 η)) (ring : Word → Byte) : Machine (Dp8390 η) :=
  { m with dev := m.dev.withRing ring }

/-- What a reception finds, with a frame in front of the card. -/
structure Reception (η : Type) where
  machine : Machine (Dp8390 η)
  ready : machine.dev.lan.net.rxReady = true
  rxLen_le : machine.dev.lan.net.rxLen.toNat ≤ netMtu

/-- What a reception finds behind the ones before it: the program and the network may have
changed anything but the ring and CURR. -/
def Reception.behind (r : Reception η) (m : Machine (Dp8390 η)) : Machine (Dp8390 η) :=
  r.machine.withRingOf m.dev

theorem Reception.ready_behind (r : Reception η) (m : Machine (Dp8390 η)) :
    (r.behind m).dev.lan.net.rxReady = true := r.ready

/-- The machine after a reception. -/
def afterReception (m : Machine (Dp8390 η)) (r : Reception η) : Machine (Dp8390 η) :=
  (outcome dp8390Execute (r.behind m)).2

/-- The reception keeps CURR in the ring, and stores a header at the page where CURR has been
that points to the page where CURR is, which is where the next header goes. -/
structure PacketChained (m : Machine (Dp8390 η)) : Prop where
  pstart_le_curr : m.dev.pstart.toNat ≤ (outcome dp8390Execute m).2.dev.curr.toNat
  curr_lt : (outcome dp8390Execute m).2.dev.curr.toNat < m.dev.pstop.toNat
  header : ∀ ring : Word → Byte,
    (List.range 4).map (fun k => (outcome dp8390Execute (m.withRing ring)).2.dev.ring
      (Dp8390.pageAddress m.dev.curr + BitVec.ofNat 16 k)) =
    [0x01, (outcome dp8390Execute m).2.dev.curr, lowByte (m.dev.lan.net.rxLen + 4),
      highByte (m.dev.lan.net.rxLen + 4)]

variable {m : Machine (Dp8390 η)}

theorem curr_dp8390Execute (hready : m.dev.lan.net.rxReady = true) :
    (outcome dp8390Execute m).2.dev.curr = m.dev.nextPacket (m.dev.lan.net.rxLen + 4) := by
  rw [dev_dp8390Execute_of_ready hready]
  exact Dp8390.curr_foldl_ringRx m.dev.packet m.dev.receiving

/-- Whatever the ring has held, the header is in it afterwards, if and only if none of its addresses
is BNRY. -/
theorem header_stored_iff (hready : m.dev.lan.net.rxReady = true) (h : m.dev.InRing)
    (hsix : m.dev.pstart.toNat + 6 ≤ m.dev.pstop.toNat)
    (hmtu : m.dev.lan.net.rxLen.toNat ≤ netMtu) :
    (∀ ring : Word → Byte,
      (List.range 4).map (fun k => (outcome dp8390Execute (m.withRing ring)).2.dev.ring
        (Dp8390.pageAddress m.dev.curr + BitVec.ofNat 16 k)) =
      [0x01, (outcome dp8390Execute m).2.dev.curr, lowByte (m.dev.lan.net.rxLen + 4),
        highByte (m.dev.lan.net.rxLen + 4)]) ↔ m.dev.HeaderClear := by
  have hsep := Dp8390.separate_packet h hsix hmtu
  have hlength : 4 ≤ m.dev.packet.length := by
    rw [Dp8390.length_packet]
    omega
  -- what the ring has held makes no difference to the rest of the card
  have hring : ∀ ring : Word → Byte, (outcome dp8390Execute (m.withRing ring)).2.dev.ring =
      (m.dev.packet.foldl (fun y byte => y.ringRx byte)
        (m.dev.receiving.withRing ring)).ring := by
    intro ring
    have hring : (m.withRing ring).dev.lan.net.rxReady = true := hready
    rw [dev_dp8390Execute_of_ready hring]
    rfl
  have hheader : (List.range 4).map (fun k => m.dev.packet.getD k 0) =
      [0x01, (outcome dp8390Execute m).2.dev.curr, lowByte (m.dev.lan.net.rxLen + 4),
        highByte (m.dev.lan.net.rxLen + 4)] := by
    rw [curr_dp8390Execute hready]
    rfl
  rw [← hheader, ← Dp8390.headerClear_iff h]
  -- a byte of the header is where the loop of the reception has put it
  have hbyte : ∀ ring : Word → Byte, ∀ k < 4,
      (outcome dp8390Execute (m.withRing ring)).2.dev.ring
        (Dp8390.pageAddress m.dev.curr + BitVec.ofNat 16 k) = m.dev.packet.getD k 0 ↔
      (m.dev.packet.foldl (fun y byte => y.ringRx byte)
        (m.dev.receiving.withRing ring)).ring (m.dev.ringAddress k) =
          m.dev.packet.getD k 0 := by
    intro ring k hk
    rw [hring, Dp8390.ringAddress_of_lt h (by omega)]
  simp only [List.map_inj_left, List.mem_range]
  constructor
  · -- the last byte is stored only if the first three are
    intro hstored k hk
    refine (Dp8390.stored_iff hsep (show 3 < _ by omega)).mp (fun ring => ?_) k (by omega)
    have hlast := (hbyte ring 3 (by omega)).mp (hstored ring 3 (by omega))
    rwa [List.getD_eq_getElem _ _ (by omega)] at hlast
  · intro hclear ring k hk
    have hkept := (Dp8390.stored_iff hsep (show k < _ by omega)).mpr
      (fun j hj => hclear j (by omega)) ring
    rw [hbyte ring k hk, hkept, List.getD_eq_getElem]

/-- **One reception.** -/
theorem packetChained_iff (hready : m.dev.lan.net.rxReady = true) (h : m.dev.InRing)
    (hsix : m.dev.pstart.toNat + 6 ≤ m.dev.pstop.toNat)
    (hmtu : m.dev.lan.net.rxLen.toNat ≤ netMtu) :
    PacketChained m ↔ m.dev.PageKept ∧ m.dev.HeaderClear := by
  rw [← Dp8390.nextPacket_inRing_iff h hsix hmtu, ← header_stored_iff hready h hsix hmtu,
    ← curr_dp8390Execute hready]
  constructor
  · rintro ⟨hstart, hstop, hheader⟩
    exact ⟨⟨hstart, hstop⟩, hheader⟩
  · rintro ⟨⟨hstart, hstop⟩, hheader⟩
    exact ⟨hstart, hstop, hheader⟩

/-- The registers of the ring after a reception. -/
theorem ring_afterReception (m : Machine (Dp8390 η)) (r : Reception η) :
    (afterReception m r).dev.pstart = m.dev.pstart ∧
      (afterReception m r).dev.pstop = m.dev.pstop := by
  -- a byte moves CURR only
  have hfold : ∀ (bytes : List Byte) (x : Dp8390 η),
      (bytes.foldl (fun y byte => y.ringRx byte) x).pstart = x.pstart ∧
        (bytes.foldl (fun y byte => y.ringRx byte) x).pstop = x.pstop := by
    intro bytes
    induction bytes with
    | nil => exact fun _ => ⟨rfl, rfl⟩
    | cons byte bytes ih =>
      intro x
      obtain ⟨hstart, hstop⟩ := ih (x.ringRx byte)
      rw [List.foldl_cons, hstart, hstop, Dp8390.ringRx]
      split <;> exact ⟨rfl, rfl⟩
  rw [afterReception, dev_dp8390Execute_of_ready (r.ready_behind m)]
  exact hfold _ _

/-- **The chain of the packets.** On a ring of six pages or more with CURR in it, every
reception keeps CURR in the ring and stores a header that points to where the next one goes,
exactly when no sum of a page and a packet wraps to before PSTART and no header in the page 0
contains the address BNRY. -/
theorem packets_chain_iff (m : Machine (Dp8390 η)) (hring : m.dev.InRing)
    (hsix : m.dev.pstart.toNat + 6 ≤ m.dev.pstop.toNat) (receptions : List (Reception η)) :
    Along afterReception (fun m r => PacketChained (r.behind m)) m receptions ↔
      Along afterReception
        (fun m r => (r.behind m).dev.PageKept ∧ (r.behind m).dev.HeaderClear) m receptions := by
  -- the ring stays, and CURR stays in it while the condition holds
  refine along_iff (I := fun m => m.dev.InRing ∧ m.dev.pstart.toNat + 6 ≤ m.dev.pstop.toNat)
    ?_ ?_ ⟨hring, hsix⟩ receptions
  · rintro m r ⟨hin, hpages⟩ hkept
    obtain ⟨hstart, hstop⟩ := ring_afterReception m r
    have hbehind : (r.behind m).dev.InRing := ⟨hin.pstart_le_curr, hin.curr_lt⟩
    obtain ⟨hle, hlt, -⟩ :=
      (packetChained_iff (m := r.behind m) r.ready hbehind hpages r.rxLen_le).mpr hkept
    refine ⟨⟨?_, ?_⟩, ?_⟩
    · rw [hstart]
      exact hle
    · rw [hstop]
      exact hlt
    · rw [hstart, hstop]
      exact hpages
  · rintro m r ⟨hin, hpages⟩
    exact packetChained_iff (m := r.behind m) r.ready ⟨hin.pstart_le_curr, hin.curr_lt⟩ hpages
      r.rxLen_le

/-- A ring from `pstart` on, and a frame of 300 bytes. -/
def frameWaiting (pstart pstop curr : Byte) : Dp8390 Unit :=
  let lan := lanInit (edfsInit []) ()
  { dp8390Init { lan with net := { lan.net with
      rxReady := true
      rxLen := 300 } } with
    pstart := pstart
    pstop := pstop
    curr := curr }

/-- The frame of `frameWaiting`. -/
def longFrame : Reception Unit where
  machine := machineInit (frameWaiting 0 0 0)
  ready := rfl
  rxLen_le := by decide

theorem packets_chain_twice :
    let m := machineInit (frameWaiting 0x46 0x80 0x7E)
    let receptions := [longFrame, longFrame]
    m.dev.InRing ∧ m.dev.pstart.toNat + 6 ≤ m.dev.pstop.toNat ∧
      (Along afterReception (fun m r => PacketChained (r.behind m)) m receptions ↔
        Along afterReception
          (fun m r => (r.behind m).dev.PageKept ∧ (r.behind m).dev.HeaderClear) m receptions) :=
  ⟨⟨by decide, by decide⟩, by decide,
    packets_chain_iff _ ⟨by decide, by decide⟩ (by decide) [longFrame, longFrame]⟩

/-- From the page 254 on, a packet of two pages ends at the page 256, which is stored as
page 0. -/
theorem chain_leaves_ring : ¬ ∀ (η : Type) (m : Machine (Dp8390 η)), m.dev.InRing →
    m.dev.pstart.toNat + 6 ≤ m.dev.pstop.toNat → ∀ receptions : List (Reception η),
      Along afterReception (fun m r => PacketChained (r.behind m)) m receptions := by
  intro h
  have hrun := h Unit (machineInit (frameWaiting 0xF0 0xFF 0xFE)) ⟨by decide, by decide⟩
    (by decide) [longFrame]
  have hstart := hrun.1.pstart_le_curr
  rw [curr_dp8390Execute (longFrame.ready_behind _)] at hstart
  exact absurd hstart (by decide)

end Pc20iii
