import Pc20iii.Net.Ring

/-!
# The unread packets

The ring of the card as a queue of frames. A driver in the guest keeps the page of the next packet,
and reads from there up to CURR, through the data port.

* `Dp8390.place`: the bytes from a page on, around the ring.
* `Dp8390.Queues`: from a page on the ring holds the packets of these frames one behind the other,
  up to CURR. Each header points to the next one.
* `queues_dp8390Execute`: a reception puts its frame at the end of the queue, as long as the pages
  of the queue and those of the packet leave one of the ring free.

Both tests that `Pc20iii.Net.Ring` and `Pc20iii.Net.PacketChain` find wanting are out of the way
here. The ring does not have the page 0, so that the guard of `dp8390_ring_rx` is not met, and it
ends before the page 251, so that the sum of a page and a packet does not wrap.
-/

namespace Pc20iii

open StateProgram

variable {η : Type}

namespace Dp8390

variable {x y : Dp8390 η} {page : Byte}

/-! ### Pages -/

/-- The pages of the ring. -/
def ringPages (x : Dp8390 η) : ℕ := x.pstop.toNat - x.pstart.toNat

/-- The page is one of the ring. -/
structure HasPage (x : Dp8390 η) (page : Byte) : Prop where
  pstart_le : x.pstart.toNat ≤ page.toNat
  lt_pstop : page.toNat < x.pstop.toNat

/-- The `k`-th byte from a page on, around the ring. -/
def place (x : Dp8390 η) (page : Byte) (k : ℕ) : Word := x.nextAddress^[k] (pageAddress page)

/-- The `n`-th page behind a page, around the ring. -/
def pageBehind (x : Dp8390 η) (page : Byte) (n : ℕ) : Byte :=
  BitVec.ofNat 8 (x.pstart.toNat + (page.toNat - x.pstart.toNat + n) % x.ringPages)

theorem ringSize_eq (x : Dp8390 η) : x.ringSize = x.ringPages * 256 := rfl

theorem HasPage.ringPages_pos (h : x.HasPage page) : 0 < x.ringPages :=
  Nat.sub_pos_of_lt (Nat.lt_of_le_of_lt h.pstart_le h.lt_pstop)

/-- What is known of the bytes from CURR on is known of those from any page on. -/
theorem toNat_place (h : x.HasPage page) (k : ℕ) :
    (x.place page k).toNat = x.pstart.toNat * 256 +
      ((page.toNat - x.pstart.toNat) * 256 + k) % (x.ringPages * 256) := by
  have hin : ({ x with curr := page } : Dp8390 η).InRing := ⟨h.pstart_le, h.lt_pstop⟩
  have haddress : ({ x with curr := page } : Dp8390 η).ringAddress k = x.place page k := rfl
  rw [← haddress, ringAddress_eq hin, toNat_ringPosition hin]
  rfl

theorem toNat_pageBehind (h : x.HasPage page) (n : ℕ) : (x.pageBehind page n).toNat =
    x.pstart.toNat + (page.toNat - x.pstart.toNat + n) % x.ringPages := by
  have hoffset := Nat.mod_lt (page.toNat - x.pstart.toNat + n) h.ringPages_pos
  have hstop : x.pstop.toNat < 256 := x.pstop.isLt
  have hpages : x.ringPages = x.pstop.toNat - x.pstart.toNat := rfl
  rw [pageBehind, BitVec.toNat_ofNat]
  exact Nat.mod_eq_of_lt (by omega)

theorem hasPage_pageBehind (h : x.HasPage page) (n : ℕ) : x.HasPage (x.pageBehind page n) := by
  have hoffset := Nat.mod_lt (page.toNat - x.pstart.toNat + n) h.ringPages_pos
  have hpages : x.ringPages = x.pstop.toNat - x.pstart.toNat := rfl
  constructor <;> rw [toNat_pageBehind h] <;> omega

theorem pageBehind_zero (h : x.HasPage page) : x.pageBehind page 0 = page := by
  have hpages : x.ringPages = x.pstop.toNat - x.pstart.toNat := rfl
  have hstart := h.pstart_le
  have hstop := h.lt_pstop
  rw [← BitVec.toNat_inj, toNat_pageBehind h, Nat.mod_eq_of_lt (by omega)]
  omega

theorem pageBehind_add (h : x.HasPage page) (n k : ℕ) :
    x.pageBehind (x.pageBehind page n) k = x.pageBehind page (n + k) := by
  rw [← BitVec.toNat_inj, toNat_pageBehind (hasPage_pageBehind h n), toNat_pageBehind h,
    toNat_pageBehind h, Nat.add_sub_cancel_left, Nat.mod_add_mod, Nat.add_assoc]

/-- A page further is 256 bytes further. -/
theorem place_pageBehind (h : x.HasPage page) (n k : ℕ) :
    x.place (x.pageBehind page n) k = x.place page (n * 256 + k) := by
  rw [← BitVec.toNat_inj, toNat_place (hasPage_pageBehind h n), toNat_place h, toNat_pageBehind h,
    Nat.add_sub_cancel_left, ← Nat.mul_mod_mul_right, Nat.mod_add_mod, Nat.add_mul, Nat.add_assoc]

/-- Once around the ring, no byte is met twice. -/
theorem place_inj (h : x.HasPage page) {j k : ℕ} (hj : j < x.ringPages * 256)
    (hk : k < x.ringPages * 256) (heq : x.place page j = x.place page k) : j = k :=
  separate_of_le (x := { x with curr := page }) ⟨h.pstart_le, h.lt_pstop⟩ (Nat.le_refl _) hj hk heq

/-- Pages that the ring has both of do not overlap. -/
theorem place_ne (h : x.HasPage page) {n pages k j : ℕ} (hfree : n + pages < x.ringPages)
    (hk : k < n * 256) (hj : j < pages * 256) :
    x.place page k ≠ x.place (x.pageBehind page n) j := by
  have hn : n * 256 ≤ x.ringPages * 256 := Nat.mul_le_mul_right _ (by omega)
  have hk' : k < x.ringPages * 256 := Nat.lt_of_lt_of_le hk hn
  have hj' : n * 256 + j < x.ringPages * 256 := by
    calc n * 256 + j < n * 256 + pages * 256 := Nat.add_lt_add_left hj _
      _ = (n + pages) * 256 := (Nat.add_mul ..).symm
      _ ≤ x.ringPages * 256 := Nat.mul_le_mul_right _ hfree.le
  have hne : k ≠ n * 256 + j := by omega
  rw [place_pageBehind h]
  exact fun heq => hne (place_inj h hk' hj' heq)

/-! ### The queue -/

/-- The packet of a frame, with the page of the next one in its header. -/
def packetOf (next : Byte) (frame : List Byte) : List Byte :=
  let byteCount := BitVec.ofNat 16 (frame.length + 4)
  [0x01, next, lowByte byteCount, highByte byteCount] ++ frame

theorem length_packetOf (next : Byte) (frame : List Byte) :
    (packetOf next frame).length = frame.length + 4 := by
  rw [packetOf, List.length_append, Nat.add_comm]
  rfl

/-- The pages of the packet of a frame. -/
def framePages (frame : List Byte) : ℕ := (frame.length + 4) / 256 + 1

/-- The pages of the packets of all frames. -/
def queuePages (frames : List (List Byte)) : ℕ := (frames.map framePages).sum

/-- **The ring as a queue.** From the page on it holds the packets of these frames, one behind the
other, up to CURR. -/
def Queues (x : Dp8390 η) : Byte → List (List Byte) → Prop
  | page, [] => page = x.curr
  | page, frame :: frames =>
    let next := x.pageBehind page (framePages frame)
    readAlong x.nextAddress x.ring (pageAddress page) (frame.length + 4) = packetOf next frame ∧
      Queues x next frames

/-- The frame that is pending, as the guest is to read it. -/
def frame (x : Dp8390 η) : List Byte :=
  (List.range x.lan.net.rxLen.toNat).map x.lan.net.rxFrame

theorem length_frame (x : Dp8390 η) : x.frame.length = x.lan.net.rxLen.toNat := by
  rw [frame, List.length_map, List.length_range]

theorem queuePages_append (frames : List (List Byte)) (frame : List Byte) :
    queuePages (frames ++ [frame]) = queuePages frames + framePages frame := by
  rw [queuePages, List.map_append, List.sum_append, List.map_singleton, List.sum_singleton]
  rfl

theorem lt_framePages (frame : List Byte) : frame.length + 4 < framePages frame * 256 := by
  unfold framePages
  omega

/-- CURR is as far behind the page as the packets take pages. -/
theorem Queues.curr_eq {frames : List (List Byte)} (h : x.Queues page frames)
    (hpage : x.HasPage page) : x.curr = x.pageBehind page (queuePages frames) := by
  induction frames generalizing page with
  | nil =>
    have hcurr : page = x.curr := h
    rw [← hcurr]
    exact (pageBehind_zero hpage).symm
  | cons frame frames ih =>
    rw [ih h.2 (hasPage_pageBehind hpage _), pageBehind_add hpage]
    rfl

/-- A queue with packets ends before the page where it starts, unless the ring is full. -/
theorem Queues.eq_nil {frames : List (List Byte)} (h : x.Queues page frames)
    (hpage : x.HasPage page) (hfree : queuePages frames < x.ringPages) (hcurr : page = x.curr) :
    frames = [] := by
  cases frames with
  | nil => rfl
  | cons frame frames =>
    have hpos : 0 < queuePages (frame :: frames) := Nat.lt_of_lt_of_le (Nat.succ_pos _)
      (Nat.le_add_right (framePages frame) (queuePages frames))
    have hsame := congrArg BitVec.toNat (hcurr.trans (h.curr_eq hpage))
    rw [toNat_pageBehind hpage] at hsame
    generalize queuePages (frame :: frames) = n at hfree hpos hsame
    have hstart := hpage.pstart_le
    have hpages : x.ringPages = x.pstop.toNat - x.pstart.toNat := rfl
    have hstop := hpage.lt_pstop
    -- the remainder is the sum itself, or the sum less the pages of the ring
    rcases Nat.lt_or_ge (page.toNat - x.pstart.toNat + n) x.ringPages with hlt | hge
    · rw [Nat.mod_eq_of_lt hlt] at hsame
      omega
    · rw [Nat.mod_eq_sub_mod hge, Nat.mod_eq_of_lt (by omega)] at hsame
      omega

/-- The ring has the same pages, whatever is in it. -/
structure SamePages (x y : Dp8390 η) : Prop where
  pstart : y.pstart = x.pstart
  pstop : y.pstop = x.pstop

namespace SamePages

theorem nextAddress (h : x.SamePages y) : y.nextAddress = x.nextAddress := by
  funext address
  rw [Dp8390.nextAddress, Dp8390.nextAddress, h.pstart, h.pstop]

theorem place (h : x.SamePages y) : y.place = x.place := by
  funext page k
  rw [Dp8390.place, Dp8390.place, h.nextAddress]

theorem ringPages (h : x.SamePages y) : y.ringPages = x.ringPages := by
  rw [Dp8390.ringPages, Dp8390.ringPages, h.pstart, h.pstop]

theorem pageBehind (h : x.SamePages y) : y.pageBehind = x.pageBehind := by
  funext page n
  rw [Dp8390.pageBehind, Dp8390.pageBehind, h.pstart, h.ringPages]

theorem hasPage (h : x.SamePages y) (hpage : x.HasPage page) : y.HasPage page := by
  obtain ⟨hstart, hstop⟩ := hpage
  constructor
  · rwa [h.pstart]
  · rwa [h.pstop]

end SamePages

/-- A packet is read as before while its bytes are left alone. -/
theorem readAlong_eq {n : ℕ} (hsame : x.SamePages y)
    (hring : ∀ k < n, y.ring (x.place page k) = x.ring (x.place page k)) :
    readAlong y.nextAddress y.ring (pageAddress page) n =
      readAlong x.nextAddress x.ring (pageAddress page) n := by
  rw [readAlong_eq_map, readAlong_eq_map, hsame.nextAddress]
  exact List.map_congr_left fun k hk => hring k (List.mem_range.mp hk)

/-- The bytes of the first packet of a queue, and those behind it. -/
theorem kept_of_cons {frame : List Byte} {frames : List (List Byte)} (hpage : x.HasPage page)
    (hring : ∀ k < queuePages (frame :: frames) * 256,
      y.ring (x.place page k) = x.ring (x.place page k)) :
    (∀ k < frame.length + 4, y.ring (x.place page k) = x.ring (x.place page k)) ∧
      ∀ k < queuePages frames * 256,
        y.ring (x.place (x.pageBehind page (framePages frame)) k) =
          x.ring (x.place (x.pageBehind page (framePages frame)) k) := by
  have hlt := lt_framePages frame
  have hpages : queuePages (frame :: frames) = framePages frame + queuePages frames := rfl
  refine ⟨fun k hk => hring k (by rw [hpages]; omega), fun k hk => ?_⟩
  rw [place_pageBehind hpage]
  exact hring _ (by rw [hpages, Nat.add_mul]; omega)

/-- What leaves the queue and CURR alone. -/
theorem Queues.congr {frames : List (List Byte)} (h : x.Queues page frames)
    (hpage : x.HasPage page) (hsame : x.SamePages y) (hcurr : y.curr = x.curr)
    (hring : ∀ k < queuePages frames * 256, y.ring (x.place page k) = x.ring (x.place page k)) :
    y.Queues page frames := by
  induction frames generalizing page with
  | nil =>
    have hnil : page = x.curr := h
    exact hnil.trans hcurr.symm
  | cons frame frames ih =>
    obtain ⟨hfirst, hrest⟩ := kept_of_cons hpage hring
    unfold Queues
    rw [hsame.pageBehind, readAlong_eq hsame hfirst]
    exact ⟨h.1, ih h.2 (hasPage_pageBehind hpage _) hrest⟩

/-- A packet where CURR has been comes last. -/
theorem Queues.append {frames : List (List Byte)} {frame : List Byte} (h : x.Queues page frames)
    (hpage : x.HasPage page) (hsame : x.SamePages y)
    (hring : ∀ k < queuePages frames * 256, y.ring (x.place page k) = x.ring (x.place page k))
    (hcurr : y.curr = x.pageBehind x.curr (framePages frame))
    (hpacket : readAlong y.nextAddress y.ring (pageAddress x.curr) (frame.length + 4) =
      packetOf (x.pageBehind x.curr (framePages frame)) frame) :
    y.Queues page (frames ++ [frame]) := by
  -- along the queue, each packet of which is read as before
  induction frames generalizing page with
  | nil =>
    have hnil : page = x.curr := h
    rw [List.nil_append]
    unfold Queues
    rw [hsame.pageBehind, hnil]
    exact ⟨hpacket, hcurr.symm⟩
  | cons first frames ih =>
    obtain ⟨hfirst, hrest⟩ := kept_of_cons hpage hring
    rw [List.cons_append]
    unfold Queues
    rw [hsame.pageBehind, readAlong_eq hsame hfirst]
    exact ⟨h.1, ih h.2 (hasPage_pageBehind hpage _) hrest⟩

/-! ### Receptions -/

/-- A ring as a driver sets it up: without the page 0, and with its end before the page 251. -/
structure SetUp (x : Dp8390 η) : Prop where
  one_le_pstart : 1 ≤ x.pstart.toNat
  pstop_le : x.pstop.toNat ≤ 250

theorem SetUp.congr (h : x.SetUp) (hsame : x.SamePages y) : y.SetUp := by
  obtain ⟨hstart, hstop⟩ := h
  constructor
  · rwa [hsame.pstart]
  · rwa [hsame.pstop]

/-- CURR is behind the page of the driver, so it is one of the ring. -/
theorem SetUp.ringOk (h : x.SetUp) (hcurr : x.HasPage x.curr) : x.RingOk where
  one_le_pstart := h.one_le_pstart
  pstart_lt := Nat.lt_of_le_of_lt hcurr.pstart_le hcurr.lt_pstop
  pstart_le_curr := hcurr.pstart_le
  curr_lt := hcurr.lt_pstop

/-- A frame of at most `NET_MTU` bytes takes six pages. -/
theorem framePages_le (hmtu : x.lan.net.rxLen.toNat ≤ netMtu) : framePages x.frame ≤ 6 := by
  change x.lan.net.rxLen.toNat ≤ 1514 at hmtu
  rw [framePages, length_frame]
  omega

/-- The pointer of a packet that leaves a page of the ring free is the page behind it. -/
theorem nextPacket_eq (h : x.SetUp) (hcurr : x.HasPage x.curr)
    (hmtu : x.lan.net.rxLen.toNat ≤ netMtu) (hfree : framePages x.frame < x.ringPages) :
    x.nextPacket (x.lan.net.rxLen + 4) = x.pageBehind x.curr (framePages x.frame) := by
  have hstop := h.pstop_le
  have hstart := hcurr.pstart_le
  have hlt := hcurr.lt_pstop
  have hpages : x.ringPages = x.pstop.toNat - x.pstart.toNat := rfl
  have hframe : framePages x.frame = (x.lan.net.rxLen.toNat + 4) / 256 + 1 := by
    rw [framePages, length_frame]
  have hsix := framePages_le hmtu
  rw [hframe] at hfree hsix ⊢
  have hcount : (x.lan.net.rxLen + 4).toNat = x.lan.net.rxLen.toNat + 4 :=
    BitVec.toNat_add_of_lt (show x.lan.net.rxLen.toNat + 4 < 2 ^ 16 by omega)
  -- the sum does not wrap
  obtain ⟨next, hnext⟩ :
      ∃ next, next = x.curr + ((x.lan.net.rxLen + 4) / 256).setWidth 8 + 1 := ⟨_, rfl⟩
  have hsum : next.toNat = x.curr.toNat + ((x.lan.net.rxLen.toNat + 4) / 256 + 1) := by
    rw [hnext, BitVec.toNat_add, BitVec.toNat_add, BitVec.toNat_setWidth, BitVec.toNat_udiv, hcount]
    change ((x.curr.toNat + (x.lan.net.rxLen.toNat + 4) / 256 % 256) % 256 + 1) % 256 = _
    omega
  have hpointer : x.nextPacket (x.lan.net.rxLen + 4) =
      if next ≥ x.pstop then x.pstart + (next - x.pstop) else next := by
    rw [hnext]
    rfl
  rw [hpointer, ← BitVec.toNat_inj, toNat_pageBehind hcurr]
  split
  case isTrue hwrap =>
    have hle : x.pstop.toNat ≤ next.toNat := BitVec.le_def.mp hwrap
    have hrest : (next - x.pstop).toNat = next.toNat - x.pstop.toNat :=
      BitVec.toNat_sub_of_le hwrap
    have hsecond : (x.pstart + (next - x.pstop)).toNat =
        x.pstart.toNat + (next.toNat - x.pstop.toNat) := by
      rw [BitVec.toNat_add_of_lt (by omega), hrest]
    rw [hsecond, Nat.mod_eq_sub_mod (by omega), Nat.mod_eq_of_lt (by omega)]
    omega
  case isFalse hinside =>
    have hnot : next.toNat < x.pstop.toNat := by
      rw [ge_iff_le, BitVec.le_def] at hinside
      omega
    rw [Nat.mod_eq_of_lt (by omega)]
    omega

/-- The bytes that the card puts into the ring are the packet of the frame. -/
theorem packet_eq (h : x.SetUp) (hcurr : x.HasPage x.curr)
    (hmtu : x.lan.net.rxLen.toNat ≤ netMtu) (hfree : framePages x.frame < x.ringPages) :
    x.packet = packetOf (x.pageBehind x.curr (framePages x.frame)) x.frame := by
  have hcount : BitVec.ofNat 16 (x.frame.length + 4) = x.lan.net.rxLen + 4 := by
    rw [length_frame, BitVec.ofNat_add, BitVec.ofNat_toNat, BitVec.setWidth_eq]
    rfl
  rw [packet, packetOf, nextPacket_eq h hcurr hmtu hfree, hcount]
  rfl

end Dp8390

open Dp8390

/-- **A reception puts its frame at the end of the queue**, and leaves the ring where it is. -/
theorem queues_dp8390Execute {m : Machine (Dp8390 η)} (hready : m.dev.lan.net.rxReady = true)
    {page : Byte} {frames : List (List Byte)} (hset : m.dev.SetUp) (hpage : m.dev.HasPage page)
    (h : m.dev.Queues page frames) (hmtu : m.dev.lan.net.rxLen.toNat ≤ netMtu)
    (hfree : queuePages frames + framePages m.dev.frame < m.dev.ringPages) :
    m.dev.SamePages (outcome dp8390Execute m).2.dev ∧
      (outcome dp8390Execute m).2.dev.crda = m.dev.crda ∧
      (outcome dp8390Execute m).2.dev.Queues page (frames ++ [m.dev.frame]) := by
  have hcurr := h.curr_eq hpage
  have hcurrPage : m.dev.HasPage m.dev.curr := hcurr ▸ hasPage_pageBehind hpage _
  -- the packet needs no more pages than are free, so that it does not overwrite itself
  have hfits : framePages m.dev.frame < m.dev.ringPages :=
    Nat.lt_of_le_of_lt (Nat.le_add_left ..) hfree
  have hpacket := packet_eq hset hcurrPage hmtu hfits
  have hlength : m.dev.packet.length = m.dev.frame.length + 4 := by
    rw [hpacket, length_packetOf]
  have hlt := lt_framePages m.dev.frame
  have hexecuted := dev_dp8390Execute_of_ringOk hready (hset.ringOk hcurrPage)
  generalize (outcome dp8390Execute m).2.dev = y at hexecuted
  have hsame : m.dev.SamePages y := by
    constructor <;> rw [hexecuted]
  have hstored : y.ring =
      storeAlong m.dev.nextAddress m.dev.ring (pageAddress m.dev.curr) m.dev.packet := by
    rw [hexecuted]
  have hend : y.curr = m.dev.pageBehind m.dev.curr (framePages m.dev.frame) := by
    rw [hexecuted]
    exact nextPacket_eq hset hcurrPage hmtu hfits
  refine ⟨hsame, by rw [hexecuted], h.append hpage hsame (fun k hk => ?_) hend ?_⟩
  · -- the packet goes behind what is in the queue
    rw [hstored]
    refine storeAlong_of_ne fun j hj heq => ?_
    have hj' : j < framePages m.dev.frame * 256 := Nat.lt_trans (hlength ▸ hj) hlt
    change m.dev.place page k = m.dev.place m.dev.curr j at heq
    rw [hcurr] at heq
    exact place_ne hpage hfree hk hj' heq
  · have hin : m.dev.InRing := ⟨hcurrPage.pstart_le, hcurrPage.lt_pstop⟩
    have hbytes : framePages m.dev.frame * 256 ≤ m.dev.ringPages * 256 :=
      Nat.mul_le_mul_right _ hfits.le
    have hle : m.dev.packet.length ≤ m.dev.ringSize := by
      rw [hlength, ringSize_eq]
      omega
    have hseparate : Separate m.dev.nextAddress (pageAddress m.dev.curr) m.dev.packet.length :=
      separate_of_le hin hle
    rw [hsame.nextAddress, hstored, ← hpacket, ← hlength]
    exact readAlong_storeAlong hseparate

end Pc20iii
