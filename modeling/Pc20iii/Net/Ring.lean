import Pc20iii.Net.Handover
import Pc20iii.Program.Orbit
import Mathlib.Data.Nat.ModEq

/-!
# The receive ring of the network card

What `dp8390_execute` stores in the ring, and what the guest reads of it.

The bytes of a packet go from the page CURR on around the ring, from PSTOP to PSTART. Two
pointers move that way, the local address of the card and the remote address of the guest,
each with its own test for the end of the ring. On a well formed ring that does not have the
page 0 they visit the same addresses, and the guest reads back what has been received
(`ring_read_back`).

Nothing else keeps the card from the pages that the guest has not released. The test of
`dp8390_ring_rx` compares the local address, a byte address, with BNRY, the number of a page,
and `CURR` and `ISR` are set before it. So a reception leaves these pages alone, and drops what
does not fit, exactly when the packet fits (`unreleased_kept`).
-/

namespace Pc20iii

open StateProgram

variable {η : Type} (host : Host η)

namespace Dp8390

variable {x y : Dp8390 η}

/-- Where the `k`-th byte of a packet goes: `k` steps from the page CURR on. -/
def ringAddress (x : Dp8390 η) (k : ℕ) : Word := x.nextAddress^[k] (pageAddress x.curr)

theorem length_packet (x : Dp8390 η) : x.packet.length = x.lan.net.rxLen.toNat + 4 := by
  rw [packet, List.length_append, List.length_map, List.length_range, Nat.add_comm]
  rfl

/-! ### Stores -/

/-- Stores without the guard go along the ring. -/
theorem foldl_store (bytes : List Byte) (x : Dp8390 η) :
    bytes.foldl (fun y byte => y.store byte) x =
      { x with
        ring := storeAlong x.nextAddress x.ring x.clda bytes
        clda := x.nextAddress^[bytes.length] x.clda } := by
  induction bytes generalizing x with
  | nil => rfl
  | cons byte bytes ih => exact ih (x.store byte)

/-- Once the guard is met, nothing more is stored. -/
theorem foldl_ringRx_of_guard {bytes : List Byte} (h : x.clda = x.bnry.setWidth 16) :
    bytes.foldl (fun y byte => y.ringRx byte) x = x := by
  induction bytes with
  | nil => rfl
  | cons byte bytes ih => rw [List.foldl_cons, ringRx_of_guard h, ih]

theorem curr_foldl_ringRx (bytes : List Byte) (x : Dp8390 η) :
    (bytes.foldl (fun y byte => y.ringRx byte) x).curr = x.curr := by
  induction bytes generalizing x with
  | nil => rfl
  | cons byte bytes ih =>
    refine (ih (x.ringRx byte)).trans ?_
    unfold ringRx
    split <;> rfl

/-- The first `n` of the bytes are stored, up to where the guard is met. -/
structure StoredUpTo (x : Dp8390 η) (bytes : List Byte) (n : ℕ) : Prop where
  le_length : n ≤ bytes.length
  ring_eq : (bytes.foldl (fun y byte => y.ringRx byte) x).ring =
    storeAlong x.nextAddress x.ring x.clda (bytes.take n)
  ne_bnry : ∀ k < n, x.nextAddress^[k] x.clda ≠ x.bnry.setWidth 16
  guard : n < bytes.length → x.nextAddress^[n] x.clda = x.bnry.setWidth 16

/-- The loop of the reception stores the bytes up to the first address that is BNRY. -/
theorem exists_storedUpTo (bytes : List Byte) (x : Dp8390 η) : ∃ n, x.StoredUpTo bytes n := by
  induction bytes generalizing x with
  | nil =>
    exact ⟨0, le_rfl, rfl, fun _ hk => absurd hk (Nat.not_lt_zero _),
      fun h => absurd h (Nat.lt_irrefl 0)⟩
  | cons byte bytes ih =>
    -- once the guard is met the address no longer changes
    by_cases hguard : x.clda = x.bnry.setWidth 16
    · refine ⟨0, Nat.zero_le _, ?_, fun _ hk => absurd hk (Nat.not_lt_zero _), fun _ => hguard⟩
      rw [foldl_ringRx_of_guard hguard]
      rfl
    · obtain ⟨n, hn, hring, hne, hmet⟩ := ih (x.store byte)
      refine ⟨n + 1, Nat.succ_le_succ hn, ?_, fun k hk => ?_, fun h => ?_⟩
      · rw [List.foldl_cons, ringRx_of_not hguard, hring]
        rfl
      · cases k with
        | zero => exact hguard
        | succ k => exact hne k (Nat.lt_of_succ_lt_succ hk)
      · exact hmet (Nat.lt_of_succ_lt_succ h)

/-- A reception changes no address but those of its packet. -/
theorem ring_received_of_ne {a : Word} (h : ∀ k < x.packet.length, a ≠ x.ringAddress k) :
    (x.packet.foldl (fun y byte => y.ringRx byte) x.receiving).ring a = x.ring a := by
  obtain ⟨n, hn, hring, -, -⟩ := exists_storedUpTo x.packet x.receiving
  rw [hring]
  refine storeAlong_of_ne fun k hk => h k ?_
  rw [List.length_take] at hk
  omega

/-! ### What the guest reads -/

/-- The ring is well formed and does not have the page 0, and CURR is one of its pages. -/
structure RingOk (x : Dp8390 η) : Prop where
  one_le_pstart : 1 ≤ x.pstart.toNat
  pstart_lt : x.pstart.toNat < x.pstop.toNat
  pstart_le_curr : x.pstart.toNat ≤ x.curr.toNat
  curr_lt : x.curr.toNat < x.pstop.toNat

/-- CURR is one of the pages of the ring. -/
structure InRing (x : Dp8390 η) : Prop where
  pstart_le_curr : x.pstart.toNat ≤ x.curr.toNat
  curr_lt : x.curr.toNat < x.pstop.toNat

theorem InRing.pstart_lt (h : x.InRing) : x.pstart.toNat < x.pstop.toNat :=
  Nat.lt_of_le_of_lt h.pstart_le_curr h.curr_lt

theorem RingOk.inRing (h : x.RingOk) : x.InRing := ⟨h.pstart_le_curr, h.curr_lt⟩

/-- The bytes of the ring. -/
def ringSize (x : Dp8390 η) : ℕ := (x.pstop.toNat - x.pstart.toNat) * 256

/-- The address of the `k`-th byte from the page CURR on, around the ring. -/
def ringPosition (x : Dp8390 η) (k : ℕ) : Word :=
  BitVec.ofNat 16
    (x.pstart.toNat * 256 + ((x.curr.toNat - x.pstart.toNat) * 256 + k) % x.ringSize)

theorem toNat_pageAddress (page : Byte) : (pageAddress page).toNat = page.toNat * 256 := by
  have hpage : page.toNat < 256 := page.isLt
  rw [pageAddress, BitVec.toNat_shiftLeft, BitVec.toNat_setWidth, Nat.shiftLeft_eq]
  omega

theorem ringSize_pos (h : x.InRing) : 0 < x.ringSize := by
  have hpages : 0 < x.pstop.toNat - x.pstart.toNat := Nat.sub_pos_of_lt h.pstart_lt
  exact Nat.mul_pos hpages (by decide)

theorem toNat_ringPosition (h : x.InRing) (k : ℕ) :
    (x.ringPosition k).toNat =
      x.pstart.toNat * 256 + ((x.curr.toNat - x.pstart.toNat) * 256 + k) % x.ringSize := by
  have hoffset := Nat.mod_lt ((x.curr.toNat - x.pstart.toNat) * 256 + k) (ringSize_pos h)
  have hstop : x.pstop.toNat < 256 := x.pstop.isLt
  have hend : x.pstart.toNat * 256 + x.ringSize = x.pstop.toNat * 256 := by
    rw [ringSize, ← Nat.add_mul, Nat.add_sub_cancel' h.pstart_lt.le]
  rw [ringPosition, BitVec.toNat_ofNat]
  exact Nat.mod_eq_of_lt (by omega)

/-- A step of either pointer is a step around the ring. -/
theorem nextAddress_ringPosition (h : x.InRing) (k : ℕ) :
    x.nextAddress (x.ringPosition k) = x.ringPosition (k + 1) := by
  -- as an offset from PSTART, which wraps at the size of the ring
  obtain ⟨n, hn⟩ : ∃ n, n = (x.curr.toNat - x.pstart.toNat) * 256 + k := ⟨_, rfl⟩
  obtain ⟨size, hsize⟩ : ∃ size, size = x.ringSize := ⟨_, rfl⟩
  have hstop : x.pstop.toNat < 256 := x.pstop.isLt
  have hend : x.pstart.toNat * 256 + size = x.pstop.toNat * 256 := by
    rw [hsize, ringSize, ← Nat.add_mul, Nat.add_sub_cancel' h.pstart_lt.le]
  have hoffset : n % size < size := Nat.mod_lt n (hsize ▸ ringSize_pos h)
  have hk : (x.ringPosition k).toNat = x.pstart.toNat * 256 + n % size := by
    rw [toNat_ringPosition h, hn, hsize]
  have hsucc : (x.ringPosition (k + 1)).toNat = x.pstart.toNat * 256 + (n % size + 1) % size := by
    rw [toNat_ringPosition h, Nat.mod_add_mod, hn, hsize, Nat.add_assoc _ k 1]
  have hone : (x.ringPosition k + 1).toNat = x.pstart.toNat * 256 + (n % size + 1) := by
    have hlt : (x.ringPosition k).toNat + 1 < 2 ^ 16 := by
      rw [hk]
      omega
    rw [BitVec.toNat_add_of_lt hlt, hk]
    exact Nat.add_assoc _ _ 1
  rw [nextAddress]
  by_cases hwrap : n % size + 1 = size
  · -- the last byte of the ring
    rw [if_pos]
    · rw [← BitVec.toNat_inj, hsucc, hwrap, Nat.mod_self, toNat_pageAddress, Nat.add_zero]
    · rw [← BitVec.toNat_inj, hone, hwrap, hend, toNat_pageAddress]
  · have hlast : n % size + 1 < size := Nat.lt_of_le_of_ne hoffset hwrap
    rw [if_neg]
    · rw [← BitVec.toNat_inj, hsucc, Nat.mod_eq_of_lt hlast, hone]
    · rw [← BitVec.toNat_inj, hone, toNat_pageAddress, ← hend, Nat.add_left_cancel_iff]
      exact hwrap

/-- The addresses of a packet go around the ring from CURR on. -/
theorem ringAddress_eq (h : x.InRing) (k : ℕ) : x.ringAddress k = x.ringPosition k := by
  induction k with
  | zero =>
    have hpages : x.curr.toNat - x.pstart.toNat < x.pstop.toNat - x.pstart.toNat :=
      Nat.sub_lt_sub_right h.pstart_le_curr h.curr_lt
    -- the first byte is in the page of CURR
    have hfirst : (x.curr.toNat - x.pstart.toNat) * 256 < x.ringSize :=
      Nat.mul_lt_mul_of_pos_right hpages (by decide)
    have hcurr := h.pstart_le_curr
    change pageAddress x.curr = x.ringPosition 0
    rw [← BitVec.toNat_inj, toNat_ringPosition h, toNat_pageAddress, Nat.add_zero,
      Nat.mod_eq_of_lt hfirst]
    omega
  | succ k ih =>
    rw [ringAddress, Function.iterate_succ_apply']
    change x.nextAddress (x.ringAddress k) = _
    rw [ih, nextAddress_ringPosition h]

/-- A packet that is no longer than the ring has a place of its own for each byte. -/
theorem separate_of_le (h : x.InRing) {n : ℕ} (hn : n ≤ x.ringSize) :
    Separate x.nextAddress (pageAddress x.curr) n := by
  intro j hj k hk heq
  change x.ringAddress j = x.ringAddress k at heq
  change j < n at hj
  change k < n at hk
  rw [ringAddress_eq h, ringAddress_eq h, ← BitVec.toNat_inj, toNat_ringPosition h,
    toNat_ringPosition h] at heq
  have hmod := Nat.add_left_cancel heq
  have hcancel : j ≡ k [MOD x.ringSize] := Nat.ModEq.add_left_cancel' _ hmod
  exact hcancel.eq_of_lt_of_lt (by omega) (by omega)

/-- The guard of `dp8390_ring_rx` is not met: the addresses lie behind the page 0, the number
of a page does not. -/
theorem ringAddress_ne_bnry (h : x.RingOk) (k : ℕ) :
    x.ringAddress k ≠ x.bnry.setWidth 16 := by
  intro heq
  have hbnry : x.bnry.toNat < 256 := x.bnry.isLt
  have hpstart := h.one_le_pstart
  rw [ringAddress_eq h.inRing, ← BitVec.toNat_inj, toNat_ringPosition h.inRing,
    BitVec.toNat_setWidth] at heq
  omega

/-- The whole packet is stored. -/
theorem foldl_ringRx_of_ringOk (h : x.RingOk) :
    x.packet.foldl (fun y byte => y.ringRx byte) x.receiving =
      { x.receiving with
        ring := storeAlong x.nextAddress x.ring (pageAddress x.curr) x.packet
        clda := x.ringAddress x.packet.length } := by
  have hguard : x.packet.foldl (fun y byte => y.ringRx byte) x.receiving =
      x.packet.foldl (fun y byte => y.store byte) x.receiving := by
    refine foldl_ringRx_of_not fun k hk => ?_
    rw [foldl_store]
    exact ringAddress_ne_bnry h _
  rw [hguard, foldl_store]
  rfl

end Dp8390

/-- `n` reads of the data port. -/
def dp8390ReadData : ℕ → M (Dp8390 η) (List Byte)
  | 0 => return []
  | n + 1 => do
    let value ← dp8390RegisterRead 0x310
    let values ← dp8390ReadData n
    return value :: values

/-- What the guest does to read `n` bytes from the start of a page on: it sets the remote
address and reads the data port. -/
def dp8390ReadPage (page : Byte) (n : ℕ) : M (Dp8390 η) (List Byte) := do
  dp8390RegisterWrite host 0x308 0
  dp8390RegisterWrite host 0x309 page
  dp8390ReadData n

theorem outcome_dp8390RegisterRead_data {m : Machine (Dp8390 η)}
    (h : (m.dev.tcr >>> 1) &&& 0x3 ≠ 1) :
    outcome (dp8390RegisterRead 0x310) m = (m.dev.ring m.dev.crda,
      (outcome (modifyDev fun x => { x with crda := x.nextAddress x.crda }) m).2) := by
  simp only [dp8390RegisterRead, outcome_bind, outcome_getDev]
  rw [if_neg (by decide), if_neg (by decide), if_neg (by decide), if_neg (by decide),
    if_neg (by decide), if_neg (by decide), if_neg (by decide), if_neg (by decide),
    if_pos (by decide), if_neg h]
  rfl

/-- The reads go along the ring. -/
theorem dp8390ReadData_fst (n : ℕ) {m : Machine (Dp8390 η)}
    (h : (m.dev.tcr >>> 1) &&& 0x3 ≠ 1) :
    (outcome (dp8390ReadData n) m).1 =
      readAlong m.dev.nextAddress m.dev.ring m.dev.crda n := by
  induction n generalizing m with
  | zero => rfl
  | succ n ih =>
    have hsplit : (outcome (dp8390ReadData (n + 1)) m).1 =
        (outcome (dp8390RegisterRead 0x310) m).1 ::
          (outcome (dp8390ReadData n) (outcome (dp8390RegisterRead 0x310) m).2).1 := rfl
    rw [hsplit, outcome_dp8390RegisterRead_data h, readAlong]
    congr 1
    exact ih h

theorem dev_onPage0 {m : Machine (Dp8390 η)} (h : m.dev.page = 0) (f : Dp8390 η → Dp8390 η) :
    (outcome (onPage0 f) m).2.dev = f m.dev := if_pos h

/-- The registers of the remote start address. -/
theorem dev_dp8390RegisterWrite_rsar {m : Machine (Dp8390 η)} (h : m.dev.page = 0)
    (lo hi : Byte) :
    (outcome (do
      dp8390RegisterWrite host 0x308 lo
      dp8390RegisterWrite host 0x309 hi) m).2.dev =
      { m.dev with rsar := wordOf lo hi, crda := wordOf lo hi } := by
  have hlo : dp8390RegisterWrite host 0x308 lo = onPage0 fun x => { x with
      rsar := wordOf lo (highByte x.rsar)
      crda := wordOf lo (highByte x.crda) } := rfl
  have hhi : dp8390RegisterWrite host 0x309 hi = onPage0 fun x => { x with
      rsar := wordOf (lowByte x.rsar) hi
      crda := wordOf (lowByte x.crda) hi } := rfl
  rw [hlo, hhi, outcome_bind, dev_onPage0, dev_onPage0 h]
  · simp only [lowByte_wordOf]
  · rw [dev_onPage0 h]
    exact h

/-- From the start of a page on, the bytes along the ring are read. -/
theorem dp8390ReadPage_fst (page : Byte) (n : ℕ) {m : Machine (Dp8390 η)}
    (hpage : m.dev.page = 0) (h : (m.dev.tcr >>> 1) &&& 0x3 ≠ 1) :
    (outcome (dp8390ReadPage host page n) m).1 =
      readAlong m.dev.nextAddress m.dev.ring (Dp8390.pageAddress page) n := by
  have hdev := dev_dp8390RegisterWrite_rsar host hpage 0 page
  have haddress : wordOf 0 page = Dp8390.pageAddress page := by
    rw [← BitVec.toNat_inj, wordOf_toNat, Dp8390.toNat_pageAddress, Nat.mul_comm]
    exact Nat.zero_add _
  have hread := dp8390ReadData_fst n (m := (outcome (do
    dp8390RegisterWrite host 0x308 0
    dp8390RegisterWrite host 0x309 page) m).2) (by rw [hdev]; exact h)
  rw [hdev, haddress] at hread
  exact hread

/-- A reception on a well formed ring stores the whole packet. -/
theorem dev_dp8390Execute_of_ringOk {m : Machine (Dp8390 η)}
    (hready : m.dev.lan.net.rxReady = true) (hring : m.dev.RingOk) :
    (outcome dp8390Execute m).2.dev =
      { m.dev with
        clda := m.dev.ringAddress m.dev.packet.length
        curr := m.dev.nextPacket (m.dev.lan.net.rxLen + 4)
        ring := storeAlong m.dev.nextAddress m.dev.ring (Dp8390.pageAddress m.dev.curr)
          m.dev.packet
        isr := m.dev.isr ||| bitMask 0
        lan := m.dev.lan.handedOver } := by
  rw [dev_dp8390Execute_of_ready hready, Dp8390.foldl_ringRx_of_ringOk hring]
  dsimp only [Dp8390.receiving]

/-- **Reading back.** The guest reads the header and the frame from where CURR has been, around
the ring, and the reception changes no other byte of it. -/
theorem ring_read_back {m : Machine (Dp8390 η)} (hready : m.dev.lan.net.rxReady = true)
    (hring : m.dev.RingOk) (hloopback : (m.dev.tcr >>> 1) &&& 0x3 ≠ 1) (hpage : m.dev.page = 0)
    (hmtu : m.dev.lan.net.rxLen.toNat ≤ netMtu)
    (hlen : m.dev.lan.net.rxLen.toNat + 4 ≤ m.dev.ringSize) :
    let m' := (outcome dp8390Execute m).2
    let byteCount := m.dev.lan.net.rxLen + 4
    (outcome (dp8390ReadPage host m.dev.curr (m.dev.lan.net.rxLen.toNat + 4)) m').1 =
        [0x01, m'.dev.curr, lowByte byteCount, highByte byteCount] ++
          (List.range m.dev.lan.net.rxLen.toNat).map m.dev.lan.net.rxFrame ∧
      byteCount.toNat = m.dev.lan.net.rxLen.toNat + 4 ∧
      ∀ a, (∀ k < m.dev.lan.net.rxLen.toNat + 4, a ≠ m.dev.ringPosition k) →
        m'.dev.ring a = m.dev.ring a := by
  have hdev := dev_dp8390Execute_of_ringOk hready hring
  have hlength := Dp8390.length_packet m.dev
  dsimp only
  generalize (outcome dp8390Execute m).2 = m' at hdev ⊢
  have hstored : m'.dev.ring = storeAlong m.dev.nextAddress m.dev.ring
      (Dp8390.pageAddress m.dev.curr) m.dev.packet := by rw [hdev]
  have hcurr : m'.dev.curr = m.dev.nextPacket (m.dev.lan.net.rxLen + 4) := by rw [hdev]
  refine ⟨?_, ?_, fun a ha => ?_⟩
  · have hpage' : m'.dev.page = 0 := by
      rw [hdev]
      exact hpage
    have hloopback' : (m'.dev.tcr >>> 1) &&& 0x3 ≠ 1 := by
      rw [hdev]
      exact hloopback
    have hnext : m'.dev.nextAddress = m.dev.nextAddress := by
      rw [hdev]
      rfl
    -- the positions of the packet are apart, as it fits the ring
    have hread : readAlong m.dev.nextAddress m'.dev.ring (Dp8390.pageAddress m.dev.curr)
        m.dev.packet.length = m.dev.packet := by
      rw [hstored]
      exact readAlong_storeAlong (Dp8390.separate_of_le hring.inRing (hlength ▸ hlen))
    rw [dp8390ReadPage_fst host _ _ hpage' hloopback', hnext, ← hlength, hread, hcurr,
      Dp8390.packet]
  · change m.dev.lan.net.rxLen.toNat ≤ 1514 at hmtu
    have hlt : m.dev.lan.net.rxLen.toNat + 4 < 2 ^ 16 := by omega
    exact BitVec.toNat_add_of_lt hlt
  · rw [hstored]
    refine storeAlong_of_ne fun k hk => ?_
    have hne := ha k (hlength ▸ hk)
    rw [← Dp8390.ringAddress_eq hring.inRing] at hne
    exact hne

/-- A ring of two pages with a frame of 300 bytes that goes from the last page on to the
first. -/
def straddlingCard : Dp8390 Unit :=
  let lan := lanInit (edfsInit []) ()
  { dp8390Init { lan with net := { lan.net with
      rxReady := true
      rxLen := 300
      rxFrame := fun i => BitVec.ofNat 8 i } } with
    pstart := 0x46
    pstop := 0x48
    curr := 0x47
    cr := 0x22 }

theorem ring_read_back_straddling :
    let m' := (outcome dp8390Execute (machineInit straddlingCard)).2
    (outcome (dp8390ReadPage failingHost 0x47 304) m').1 =
        [0x01, m'.dev.curr, 0x30, 0x01] ++ (List.range 300).map (BitVec.ofNat 8) ∧
      (300 + 4 : Word).toNat = 304 ∧
      ∀ a, (∀ k < 304, a ≠ straddlingCard.ringPosition k) → m'.dev.ring a = 0 :=
  ring_read_back failingHost (m := machineInit straddlingCard) rfl
    ⟨by decide, by decide, by decide, by decide⟩ (by decide) rfl (by decide) (by decide)

namespace Dp8390

variable {x y : Dp8390 η}

/-! ### Unreleased pages -/

/-- The page behind a page, from the end of the ring to its start. -/
def nextPage (x : Dp8390 η) (page : Byte) : Byte :=
  if page + 1 = x.pstop then x.pstart else page + 1

/-- The page holds data that the guest has not released: it is one of those from BNRY on,
before CURR. -/
def Unreleased (x : Dp8390 η) (page : Byte) : Prop :=
  ∃ n, x.nextPage^[n] x.bnry = page ∧ ∀ k ≤ n, x.nextPage^[k] x.bnry ≠ x.curr

/-- The packet fits in the free pages: each of its bytes has a place of its own there. -/
structure Fits (x : Dp8390 η) : Prop where
  separate : Separate x.nextAddress (pageAddress x.curr) x.packet.length
  free : ∀ k < x.packet.length, ¬ x.Unreleased (highByte (x.ringAddress k))

/-- The reception that takes the card from `x` to `y` leaves the unreleased pages alone, and
drops a frame that does not fit. -/
structure Protects (x y : Dp8390 η) : Prop where
  kept : ∀ a, x.Unreleased (highByte a) → y.ring a = x.ring a
  dropped : x.lan.net.rxReady = true → ¬ x.Fits →
    y.ring = x.ring ∧ y.curr = x.curr ∧ y.isr.getLsbD 0 = x.isr.getLsbD 0

end Dp8390

/-- A packet that fits leaves the unreleased pages alone. -/
theorem protects_dp8390Execute {m : Machine (Dp8390 η)}
    (h : m.dev.lan.net.rxReady = true → m.dev.Fits) :
    m.dev.Protects (outcome dp8390Execute m).2.dev := by
  cases hready : m.dev.lan.net.rxReady with
  | false =>
    rw [dev_dp8390Execute_of_not_ready hready]
    exact ⟨fun _ _ => rfl, fun _ _ => ⟨rfl, rfl, rfl⟩⟩
  | true =>
    have hfits := h hready
    refine ⟨fun a ha => ?_, fun _ hnot => absurd hfits hnot⟩
    -- the frame is stored in free pages
    have hunchanged := Dp8390.ring_received_of_ne (x := m.dev) (a := a) fun k hk heq =>
      hfits.free k hk (by rwa [← heq])
    rw [dev_dp8390Execute_of_ready hready]
    exact hunchanged

/-- A packet that does not fit is not dropped: CURR and the receive bit tell, if one of them
changes at all. -/
theorem not_protects_dp8390Execute {m : Machine (Dp8390 η)}
    (hready : m.dev.lan.net.rxReady = true) (hfits : ¬ m.dev.Fits)
    (htells : m.dev.isr.getLsbD 0 = false ∨
      m.dev.nextPacket (m.dev.lan.net.rxLen + 4) ≠ m.dev.curr) :
    ¬ m.dev.Protects (outcome dp8390Execute m).2.dev := by
  intro hprotects
  obtain ⟨-, hcurr, hisr⟩ := hprotects.dropped hready hfits
  rw [dev_dp8390Execute_of_ready hready] at hcurr hisr
  rcases htells with hclear | hnext
  · rw [hclear, BitVec.getLsbD_or] at hisr
    exact absurd hisr (by simp [bitMask])
  · have hadvanced := Dp8390.curr_foldl_ringRx m.dev.packet m.dev.receiving
    exact hnext (hadvanced.symm.trans hcurr)

/-! ### Runs -/

/-- A write of the command register up to its transmission. -/
def dp8390CrCommand (value : Byte) : M (Dp8390 η) Unit := do
  modifyDev fun x => { x with cr := value &&& 0xFB }
  (if value.getLsbD 0 then modifyDev fun x => { x with isr := x.isr ||| 0x80 } else pure ())
  (if value.getLsbD 1 then modifyDev fun x => { x with isr := x.isr &&& ~~~0x80 } else pure ())

/-- The machine when a step calls `dp8390_execute`: behind `net_execute` in the main loop, or
behind a transmission. -/
def beforeExecute (m : Machine (Dp8390 η)) : CardStep η → Option (Machine (Dp8390 η))
  | .tick => some (outcome (runLan (netExecute host)) m).2
  | .access (.write port value) =>
    if port = 0x300 ∧ value.getLsbD 2 = true then
      some (outcome (do dp8390CrCommand value; dp8390TransmitPacket host) m).2
    else none
  | .access _ => none

/-- The step ends as `dp8390_execute` does, but for other bits of ISR. -/
theorem dev_cardAfter_of_beforeExecute {m m' : Machine (Dp8390 η)} {s : CardStep η}
    (h : beforeExecute host m s = some m') :
    (cardAfter host m s).dev.ring = (outcome dp8390Execute m').2.dev.ring ∧
      (cardAfter host m s).dev.curr = (outcome dp8390Execute m').2.dev.curr ∧
        (cardAfter host m s).dev.isr.getLsbD 0 =
          (outcome dp8390Execute m').2.dev.isr.getLsbD 0 := by
  rcases s with (_ | ⟨port, value⟩ | _) | _
  · cases h
  · change (if port = 0x300 ∧ value.getLsbD 2 = true then some _ else none) = _ at h
    split at h
    case isFalse => cases h
    case isTrue hcommand =>
      obtain ⟨rfl, htransmit⟩ := hcommand
      cases h
      have hfunc : (dp8390Devices host).write 0x300 = some (dp8390RegisterWrite host) := by
        change dp8390Writes host 0x300 = _
        exact if_pos (by decide)
      have hafter : cardAfter host m (.access (.write 0x300 value)) =
          (outcome (dp8390CrWrite host value) m).2 := Devices.after_write hfunc value m
      -- the remote DMA command may set another bit at the end
      have hend : ∀ m₂ : Machine (Dp8390 η),
          (outcome (if (value >>> 3) &&& 0x7 ≠ 0 then dp8390Irq 6 else pure ()) m₂).2.dev.ring =
            m₂.dev.ring ∧
          (outcome (if (value >>> 3) &&& 0x7 ≠ 0 then dp8390Irq 6 else pure ()) m₂).2.dev.curr =
            m₂.dev.curr ∧
          (outcome (if (value >>> 3) &&& 0x7 ≠ 0 then dp8390Irq 6 else pure ())
            m₂).2.dev.isr.getLsbD 0 = m₂.dev.isr.getLsbD 0 := by
        intro m₂
        split
        · rw [dev_dp8390Irq]
          refine ⟨rfl, rfl, ?_⟩
          rw [BitVec.getLsbD_or]
          simp [bitMask]
        · exact ⟨rfl, rfl, rfl⟩
      rw [hafter]
      -- the parts of the handler, of which `dp8390_execute` is in the second one
      have hsplit : (outcome (dp8390CrWrite host value) m).2 =
          (outcome (if (value >>> 3) &&& 0x7 ≠ 0 then dp8390Irq 6 else pure ())
            (outcome (if value.getLsbD 2 then do
                dp8390TransmitPacket host
                dp8390Execute
              else pure ()) (outcome (dp8390CrCommand value) m).2).2).2 := rfl
      rw [hsplit, if_pos htransmit]
      exact hend _
  · cases h
  · cases h
    exact ⟨rfl, rfl, rfl⟩

/-- The receptions of a step leave the unreleased pages alone, and drop what does not fit. -/
def StepProtects (m : Machine (Dp8390 η)) (s : CardStep η) : Prop :=
  ∀ m' ∈ beforeExecute host m s, m'.dev.Protects (cardAfter host m s).dev

/-- The receptions of a step fit in the free pages. -/
def StepFits (m : Machine (Dp8390 η)) (s : CardStep η) : Prop :=
  ∀ m' ∈ beforeExecute host m s, m'.dev.lan.net.rxReady = true → m'.dev.Fits

/-- A step protects the pages if its reception does. -/
theorem stepProtects_iff {m m' : Machine (Dp8390 η)} {s : CardStep η}
    (h : beforeExecute host m s = some m') :
    StepProtects host m s ↔ m'.dev.Protects (outcome dp8390Execute m').2.dev := by
  obtain ⟨hring, hcurr, hisr⟩ := dev_cardAfter_of_beforeExecute host h
  -- the step ends with the reception, which is all that moves CURR
  have hprotects : m'.dev.Protects (cardAfter host m s).dev ↔
      m'.dev.Protects (outcome dp8390Execute m').2.dev := by
    constructor
    · rintro ⟨hkept, hdropped⟩
      rw [hring] at hkept hdropped
      rw [hcurr, hisr] at hdropped
      exact ⟨hkept, hdropped⟩
    · rintro ⟨hkept, hdropped⟩
      rw [← hring] at hkept hdropped
      rw [← hcurr, ← hisr] at hdropped
      exact ⟨hkept, hdropped⟩
  rw [StepProtects, h, ← hprotects]
  constructor
  · exact fun hstep => hstep m' (Option.mem_some_self m')
  · intro hm' m₁ hm₁
    rwa [← Option.mem_some_iff.mp hm₁]

theorem stepProtects_of_fits {m : Machine (Dp8390 η)} {s : CardStep η} (h : StepFits host m s) :
    StepProtects host m s := by
  intro m' hm'
  have hbefore := Option.mem_def.mp hm'
  exact (stepProtects_iff host hbefore).mpr (protects_dp8390Execute (h m' hm')) m' hm'

/-- **The unreleased pages.** In a run whose packets fit in the free pages, no reception
changes an unreleased page, and none has anything to drop. A packet that does not fit is not
dropped, whatever the state, unless the receive bit is set already and CURR ends where it
started. -/
theorem unreleased_kept :
    (∀ (m : Machine (Dp8390 η)) (steps : List (CardStep η)),
      Along (cardAfter host) (StepFits host) m steps →
        Along (cardAfter host) (StepProtects host) m steps) ∧
    ∀ (m m' : Machine (Dp8390 η)) (s : CardStep η), beforeExecute host m s = some m' →
      m'.dev.lan.net.rxReady = true → ¬ m'.dev.Fits →
        (m'.dev.isr.getLsbD 0 = false ∨
          m'.dev.nextPacket (m'.dev.lan.net.rxLen + 4) ≠ m'.dev.curr) →
          ¬ StepProtects host m s := by
  refine ⟨fun m steps h => ?_, fun m m' s hbefore hready hfits htells => ?_⟩
  · exact along_mono (fun _ _ => stepProtects_of_fits host) h
  · rw [stepProtects_iff host hbefore]
    exact not_protects_dp8390Execute hready hfits htells

/-- A ring of two pages, of which the first is not released, and an echo request of 300
bytes, of which few are not 0. -/
def pingTooLong : List (CardStep Unit) :=
  [.access (.write 0x301 0x46), .access (.write 0x302 0x48), .access (.write 0x303 0x46),
    .access (.write 0x300 0x40), .access (.write 0x307 0x47), .access (.write 0x300 0x00),
    .access (.write 0x308 0x0C), .access (.write 0x310 0x08),
    .access (.write 0x308 0x17), .access (.write 0x310 ipprotoIcmp),
    .access (.write 0x308 0x1E), .access (.write 0x310 0x0A),
    .access (.write 0x308 0x21), .access (.write 0x310 0x01),
    .access (.write 0x308 0x22), .access (.write 0x310 0x08),
    .access (.write 0x308 0xFC), .access (.write 0x310 0x01),
    .access (.write 0x305 0x2C), .access (.write 0x306 0x01)]

/-- The machine before the request is transmitted. -/
def pingMachine : Machine (Dp8390 Unit) :=
  runAll (cardAfter failingHost) ((machineInit (dp8390Init (lanInit (edfsInit []) ()))).withCard
    (lanInit (edfsInit []) ())) pingTooLong

/-- The reply goes on in the page that is not released. -/
theorem unreleased_overwritten : ¬ ∀ (η : Type) (host : Host η) (m : Machine (Dp8390 η))
    (lan : Lan η) (steps : List (CardStep η)),
    Along (cardAfter host) (StepProtects host) (m.withCard lan) steps := by
  intro h
  have hrun := h Unit failingHost (machineInit (dp8390Init (lanInit (edfsInit []) ())))
    (lanInit (edfsInit []) ()) (pingTooLong ++ [.access (.write 0x300 0x06)])
  -- the last step of the run is the command that transmits
  have hstep : StepProtects failingHost pingMachine (.access (.write 0x300 0x06)) :=
    ((along_append _ _ _).mp hrun).2.1
  have hkept := (hstep (outcome (do
    dp8390CrCommand 0x06
    dp8390TransmitPacket failingHost) pingMachine).2 rfl).kept 0x4600
  have hunreleased : (outcome (do
      dp8390CrCommand 0x06
      dp8390TransmitPacket failingHost) pingMachine).2.dev.Unreleased 0x46 := by
    refine ⟨0, by decide +kernel, fun k hk => ?_⟩
    rw [Nat.le_zero.mp hk]
    decide +kernel
  exact absurd (hkept hunreleased) (by decide +kernel)

end Pc20iii
