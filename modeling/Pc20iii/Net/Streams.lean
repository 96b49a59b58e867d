import Pc20iii.Net.Handover
import Pc20iii.Net.Offers
import Pc20iii.Program.Lens

/-!
# The streams of the servers

From `recv` on the host to the TCP stack of the guest, through the ring of the card.

A driver in the guest keeps the page of the next packet. While that is not CURR, it sets the remote
address to the page (`seek`) and reads the data port, byte by byte (`byte`), until it has as many
bytes as the header of the packet counts. Then it hands the frame to the TCP stack and goes on with
the page that the header names (`Driver`). Between two of its bytes anything may happen: polls of
the main loop that put more packets into the ring, transmissions, and other accesses that leave
alone what the driver is about to read (`Wired.Careful`).

* `Wired.Unread`: the invariant of the driver. From its page on the ring holds the packets of some
  frames, and the bytes that it has read are those of the first one.
* `Wired.Arrived`: with the frames that are unread, the guest has all that `recv` has returned.
* `Wired.Arrived.after`: every step keeps this.
* `streams_delivered`: so it holds in every run, and a driver that goes on reading gets there.
-/

namespace Pc20iii

open StateProgram Dp8390

variable {η : Type} (host : Host η)

/-! ### The driver -/

/-- The segment in a frame that has been read. -/
def frameSegment (frame : List Byte) : Option TcpSegment :=
  tcpSegmentOf (fun k => frame.getD k 0) (BitVec.ofNat 16 frame.length)

/-- The bytes are a packet, by the count in its header. -/
def WholePacket (bytes : List Byte) : Prop :=
  4 ≤ bytes.length ∧ bytes.length = (wordOf (bytes.getD 2 0) (bytes.getD 3 0)).toNat

instance : DecidablePred WholePacket := fun _ => inferInstanceAs (Decidable (_ ∧ _))

/-- The driver of the card in the guest, with the TCP stack. -/
structure Driver where
  /-- The page of the next packet. -/
  page : Byte
  /-- The bytes of the packet that is being read. -/
  reading : Option (List Byte)
  guest : Guest

/-- The driver with one more byte. -/
def Driver.put (d : Driver) (bytes : List Byte) (byte : Byte) : Driver :=
  let packet := bytes ++ [byte]
  if WholePacket packet then
    { page := packet.getD 1 0
      reading := none
      guest := d.guest.receive (frameSegment (packet.drop 4)) }
  else { d with reading := some packet }

/-- A machine with its network card, what the host has given on each open connection, and the
driver. -/
structure Wired (η : Type) where
  machine : Machine (Dp8390 η)
  given : Slot → List Byte
  driver : Driver

/-- What happens next. -/
inductive GuestStep (η : Type) where
  /-- Anything but a read of the driver. -/
  | card (s : CardStep η)
  | seek
  | byte

/-- The machine, the host and the driver after a step. -/
def wiredAfter (w : Wired η) : GuestStep η → Wired η
  | .card s =>
    { w with
      machine := cardAfter host w.machine s
      given := (runAll (servedAfter host) ⟨w.machine.dev.calling, w.given⟩
        (s.socketSteps host w.machine)).given }
  | .seek =>
    if w.driver.page = w.machine.dev.curr then w
    else
      { w with
        machine := runAll (cardAfter host) w.machine
          [.access (.write 0x308 0), .access (.write 0x309 w.driver.page)]
        driver := { w.driver with reading := some [] } }
  | .byte =>
    match w.driver.reading with
    | none => w
    | some bytes =>
      { w with
        machine := cardAfter host w.machine (.access (.read 0x310))
        driver := w.driver.put bytes (outcome (dp8390RegisterRead 0x310) w.machine).1 }

namespace Wired

/-- The pages from that of the driver up to CURR. -/
def unreadPages (w : Wired η) : ℕ :=
  (w.machine.dev.curr.toNat + w.machine.dev.ringPages - w.driver.page.toNat) %
    w.machine.dev.ringPages

/-- A frame that is handed over has at most `NET_MTU` bytes, and its packet leaves a page between
CURR and the page of the driver free. -/
structure HasRoom (w : Wired η) (n : Net) : Prop where
  mtu : n.rxLen.toNat ≤ netMtu
  free : w.unreadPages + ((n.rxLen.toNat + 4) / 256 + 1) < w.machine.dev.ringPages

/-- What the driver relies on is left alone: the registers of the ring, the pages that are unread,
and the remote address while a packet is being read. -/
structure Leaves (w : Wired η) (y : Dp8390 η) : Prop where
  pages : w.machine.dev.SamePages y
  curr : y.curr = w.machine.dev.curr
  unread : ∀ k < w.unreadPages * 256,
    y.ring (w.machine.dev.place w.driver.page k) =
      w.machine.dev.ring (w.machine.dev.place w.driver.page k)
  crda : w.driver.reading ≠ none → y.crda = w.machine.dev.crda

/-- **What the guest takes care of.** It transmits no SYN for ends that an open socket has, frames
are handed over only while there is room, and the other accesses leave alone what the driver relies
on. The driver reads with the registers of page 0 and without loopback. -/
def Careful (w : Wired η) : GuestStep η → Prop
  | .card s =>
    TransmitsFresh host w.machine s ∧
      ((s.offers host w.machine).net.rxReady = true → w.HasRoom (s.offers host w.machine).net) ∧
      (¬ s.Executes → w.Leaves (cardAfter host w.machine s).dev)
  | .seek => w.machine.dev.page = 0
  | .byte => (w.machine.dev.tcr >>> 1) &&& 0x3 ≠ 1

/-! ### What is unread -/

/-- The bytes that have been read are the first ones of the next packet, and the remote address is
that of the following one. -/
structure ReadsFirst (w : Wired η) (frames : List (List Byte)) (bytes : List Byte) : Prop where
  first : ∃ frame rest, frames = frame :: rest ∧ bytes.length < frame.length + 4 ∧
    bytes = (packetOf (w.machine.dev.pageBehind w.driver.page (framePages frame)) frame).take
      bytes.length
  crda : w.machine.dev.crda = w.machine.dev.place w.driver.page bytes.length

/-- **The invariant of the driver.** -/
structure Unread (w : Wired η) (frames : List (List Byte)) : Prop where
  setUp : w.machine.dev.SetUp
  page : w.machine.dev.HasPage w.driver.page
  queues : w.machine.dev.Queues w.driver.page frames
  free : queuePages frames < w.machine.dev.ringPages
  reading : ∀ bytes, w.driver.reading = some bytes → w.ReadsFirst frames bytes

/-- What the guest has once it has read these frames. -/
def readAll (frames : List (List Byte)) (g : Guest) : Guest :=
  frames.foldl (fun g frame => g.receive (frameSegment frame)) g

/-- The two ends, for a guest that has read the frames. -/
def ends (w : Wired η) (frames : List (List Byte)) : Ends η where
  lan := w.machine.dev.calling
  given := w.given
  guest := readAll frames w.driver.guest

/-- **The invariant.** No frame is pending between two steps, and with the frames in the ring the
guest has what has been given. -/
structure Arrived (w : Wired η) (frames : List (List Byte)) : Prop where
  idle : w.machine.dev.lan.Idle
  unread : w.Unread frames
  delivered : (w.ends frames).Delivered

variable {w : Wired η} {frames : List (List Byte)}

/-- The pages up to CURR are those of the frames that are unread. -/
theorem Unread.unreadPages_eq (h : w.Unread frames) : w.unreadPages = queuePages frames := by
  have hcurr := congrArg BitVec.toNat (h.queues.curr_eq h.page)
  rw [toNat_pageBehind h.page] at hcurr
  have hpages : w.machine.dev.ringPages =
      w.machine.dev.pstop.toNat - w.machine.dev.pstart.toNat := rfl
  have hstart := h.page.pstart_le
  have hstop := h.page.lt_pstop
  have hfree := h.free
  unfold unreadPages
  generalize w.machine.dev.ringPages = n at *
  generalize queuePages frames = k at *
  -- CURR is behind the page of the driver, or around the end of the ring in front of it
  rcases Nat.lt_or_ge (w.driver.page.toNat - w.machine.dev.pstart.toNat + k) n with hlt | hge
  · rw [Nat.mod_eq_of_lt hlt] at hcurr
    have hsum : w.machine.dev.curr.toNat + n - w.driver.page.toNat = k + n := by omega
    rw [hsum, Nat.add_mod_right, Nat.mod_eq_of_lt hfree]
  · rw [Nat.mod_eq_sub_mod hge, Nat.mod_eq_of_lt (by omega)] at hcurr
    have hsum : w.machine.dev.curr.toNat + n - w.driver.page.toNat = k := by omega
    rw [hsum, Nat.mod_eq_of_lt hfree]

/-- A frame is read as the network has built it. -/
theorem frameSegment_frame (x : Dp8390 η) :
    frameSegment x.frame = tcpSegmentOf x.lan.net.rxFrame x.lan.net.rxLen := by
  have hlen : BitVec.ofNat 16 x.frame.length = x.lan.net.rxLen := by
    rw [length_frame, BitVec.ofNat_toNat, BitVec.setWidth_eq]
  rw [frameSegment, hlen]
  refine tcpSegmentOf_congr fun k hk => ?_
  simp [Dp8390.frame, hk]

/-- The bytes of the first packet are those of the ring. -/
theorem Unread.getElem_packet {frame packet : List Byte} {rest : List (List Byte)}
    (h : w.Unread (frame :: rest))
    (hpacket : packetOf (w.machine.dev.pageBehind w.driver.page (framePages frame)) frame = packet)
    {k : ℕ} (hk : k < packet.length) :
    w.machine.dev.ring (w.machine.dev.place w.driver.page k) = packet[k] := by
  have hread := h.queues.1.trans hpacket
  have hlength := congrArg List.length hread
  rw [length_readAlong] at hlength
  rw [← List.getElem_of_eq hread (by rw [length_readAlong, hlength]; exact hk), readAlong_getElem]
  rfl

theorem readAll_append (frames arrived : List (List Byte)) (g : Guest) :
    readAll (frames ++ arrived) g = readAll arrived (readAll frames g) := List.foldl_append

/-- What leaves alone what the driver relies on. -/
theorem Unread.congr (h : w.Unread frames) {w' : Wired η}
    (hleaves : w.Leaves w'.machine.dev) (hpage : w'.driver.page = w.driver.page)
    (hreading : w'.driver.reading = w.driver.reading) : w'.Unread frames := by
  have hring := hleaves.unread
  rw [h.unreadPages_eq] at hring
  refine ⟨h.setUp.congr hleaves.pages, ?_, ?_, ?_, fun bytes hbytes => ?_⟩
  · rw [hpage]
    exact hleaves.pages.hasPage h.page
  · rw [hpage]
    exact h.queues.congr h.page hleaves.pages hleaves.curr hring
  · rw [hleaves.pages.ringPages]
    exact h.free
  · rw [hreading] at hbytes
    -- the packet that is being read is the first of the queue
    obtain ⟨⟨frame, rest, hframes, hlt, htake⟩, hcrda⟩ := h.reading bytes hbytes
    refine ⟨⟨frame, rest, hframes, hlt, ?_⟩, ?_⟩
    · rw [hleaves.pages.pageBehind, hpage]
      exact htake
    · rw [hleaves.crda (by rw [hbytes]; exact Option.some_ne_none _), hleaves.pages.place, hpage]
      exact hcrda

/-- A frame that comes last does not change what is read first. -/
theorem ReadsFirst.append {bytes : List Byte} (h : w.ReadsFirst frames bytes)
    (arrived : List (List Byte)) : w.ReadsFirst (frames ++ arrived) bytes := by
  obtain ⟨⟨frame, rest, hframes, hlt, htake⟩, hcrda⟩ := h
  exact ⟨⟨frame, rest ++ arrived, by rw [hframes, List.cons_append], hlt, htake⟩, hcrda⟩

/-! ### The steps of the card -/

/-- What a step offers to the card goes to the end of the ring, if it is a frame. -/
theorem Unread.of_execution (h : w.Unread frames) {s : CardStep η} {m₁ : Machine (Dp8390 η)}
    {isr : Byte} (hexecution : s.Execution host w.machine m₁ isr)
    (hroom : (s.offers host w.machine).net.rxReady = true →
      w.HasRoom (s.offers host w.machine).net) :
    ∃ arrived, (wiredAfter host w (.card s)).Unread (frames ++ arrived) ∧
      ∀ g, readAll arrived g = g.receive (s.offers host w.machine).segment := by
  obtain ⟨hafter, hnet, -, hpages, hcurr, hcrda, hring⟩ := hexecution
  obtain ⟨m', hm'⟩ : ∃ m', m' = cardAfter host w.machine s := ⟨_, rfl⟩
  have hmachine : (wiredAfter host w (.card s)).machine = m' := hm'.symm
  rw [← hm'] at hafter
  have hring₁ : ∀ k, m₁.dev.ring (w.machine.dev.place w.driver.page k) =
      w.machine.dev.ring (w.machine.dev.place w.driver.page k) := fun k => by rw [hring]
  cases hready : (s.offers host w.machine).net.rxReady with
  -- nothing was offered, so the call leaves the ring
  | false =>
    rw [dev_dp8390Execute_of_not_ready (by rw [hnet]; exact hready)] at hafter
    refine ⟨[], ?_, fun g => ?_⟩
    · rw [List.append_nil]
      refine h.congr ⟨?_, ?_, fun k _ => ?_, fun _ => ?_⟩ rfl rfl <;> rw [hmachine, hafter]
      · exact ⟨hpages.pstart, hpages.pstop⟩
      · exact hcurr
      · exact hring₁ k
      · exact hcrda
    · have hnone : (s.offers host w.machine).segment = none := Lan.Idle.segment hready
      rw [hnone]
      rfl
  | true =>
    -- the frame is stored behind the unread ones, for which there is room
    obtain ⟨hmtu, hfree⟩ := hroom hready
    have hlength : m₁.dev.frame.length = (s.offers host w.machine).net.rxLen.toNat := by
      rw [length_frame, hnet]
    have hqueues₁ := h.queues.congr h.page hpages hcurr fun k _ => hring₁ k
    have hfree₁ : queuePages frames + framePages m₁.dev.frame < m₁.dev.ringPages := by
      rw [h.unreadPages_eq] at hfree
      rw [hpages.ringPages, framePages, hlength]
      exact hfree
    obtain ⟨hsame, hcrda', hqueues⟩ := queues_dp8390Execute (by rw [hnet]; exact hready)
      (h.setUp.congr hpages) (hpages.hasPage h.page) hqueues₁ (by rw [hnet]; exact hmtu) hfree₁
    generalize (outcome dp8390Execute m₁).2 = m₂ at hafter hsame hcrda' hqueues
    have hsame' : w.machine.dev.SamePages m'.dev := by
      constructor <;> rw [hafter]
      · exact hsame.pstart.trans hpages.pstart
      · exact hsame.pstop.trans hpages.pstop
    refine ⟨[m₁.dev.frame], ⟨?_, ?_, ?_, ?_, fun bytes hbytes => ?_⟩, fun g => ?_⟩
    · rw [hmachine]
      exact h.setUp.congr hsame'
    · rw [hmachine]
      exact hsame'.hasPage h.page
    · rw [hmachine]
      refine hqueues.congr (hsame.hasPage (hpages.hasPage h.page)) ⟨?_, ?_⟩ ?_ fun k _ => ?_ <;>
        rw [hafter]
    · rw [hmachine, hsame'.ringPages, queuePages_append, ← hpages.ringPages]
      exact hfree₁
    · obtain ⟨⟨frame, rest, hframes, hlt, htake⟩, hcrda''⟩ :=
        (h.reading bytes hbytes).append [m₁.dev.frame]
      refine ⟨⟨frame, rest, hframes, hlt, ?_⟩, ?_⟩
      · rw [hmachine, hsame'.pageBehind]
        exact htake
      · rw [hmachine, hsame'.place, hafter]
        exact (hcrda'.trans hcrda).trans hcrda''
    -- what the guest will read there is what the stack offered
    · change g.receive (frameSegment m₁.dev.frame) = _
      rw [frameSegment_frame, hnet, Lan.segment, if_pos hready]

/-- Any other step leaves the queue alone, if the guest takes care. -/
theorem Unread.of_not_executes (h : w.Unread frames) {s : CardStep η} (hs : ¬ s.Executes)
    (hidle : w.machine.dev.lan.Idle) (hleaves : w.Leaves (cardAfter host w.machine s).dev) :
    ∃ arrived, (wiredAfter host w (.card s)).Unread (frames ++ arrived) ∧
      ∀ g, readAll arrived g = g.receive (s.offers host w.machine).segment := by
  obtain ⟨hoffers, -, -⟩ := quiet_of_not_executes host (m := w.machine) hs
  refine ⟨[], ?_, fun g => ?_⟩
  · rw [List.append_nil]
    exact h.congr hleaves rfl rfl
  · have hnone : w.machine.dev.calling.segment = none := Lan.Idle.segment hidle
    rw [hoffers, hnone]
    rfl

/-- An access, or a call of the main loop. What it brings is put behind the unread frames, and the
two ends have taken the same steps. -/
theorem Arrived.card (h : w.Arrived frames) {s : CardStep η} (hs : w.Careful host (.card s)) :
    ∃ frames', (wiredAfter host w (.card s)).Arrived frames' := by
  obtain ⟨hfresh, hroom, hleaves⟩ := hs
  obtain ⟨arrived, hunread, hguest⟩ : ∃ arrived,
      (wiredAfter host w (.card s)).Unread (frames ++ arrived) ∧
        ∀ g, readAll arrived g = g.receive (s.offers host w.machine).segment := by
    by_cases hexecutes : s.Executes
    · obtain ⟨m₁, isr, hexecution⟩ := exists_execution host h.idle hexecutes
      exact h.unread.of_execution host hexecution hroom
    · exact h.unread.of_not_executes host hexecutes h.idle (hleaves hexecutes)
  -- the connections see the step as steps of the sockets
  obtain ⟨htcp, hidle⟩ := lan_cardAfter host h.idle s
  obtain ⟨htcp', hidle', hguest'⟩ :=
    runAll_socketSteps host (e := w.ends frames) rfl h.idle s
  have hdelivered : (runAll (endsAfter host) (w.ends frames)
      (s.socketSteps host w.machine)).Delivered :=
    runAll_keeps (I := Ends.Delivered) (fun _ _ he hs => delivered_endsAfter host he hs)
      h.delivered (orderly_socketSteps host rfl h.idle hfresh)
  refine ⟨frames ++ arrived, hidle, hunread, hdelivered.of_idle hidle' hidle ?_ ?_ ?_⟩
  · exact htcp.trans htcp'.symm
  · rw [toServed_endsAfter]
    rfl
  · rw [hguest']
    change readAll (frames ++ arrived) w.driver.guest = _
    rw [readAll_append, hguest]
    rfl

/-! ### The reads -/

/-- The packet counts its bytes. -/
theorem wholePacket_take_iff {next : Byte} {frame : List Byte} (hlen : frame.length + 4 < 2 ^ 16)
    {n : ℕ} (hn : n ≤ frame.length + 4) :
    WholePacket ((packetOf next frame).take n) ↔ n = frame.length + 4 := by
  have hlength : ((packetOf next frame).take n).length = n := by
    rw [List.length_take, length_packetOf]
    exact Nat.min_eq_left hn
  rw [WholePacket, hlength]
  rcases Nat.lt_or_ge n 4 with hlt | hge
  -- without the header there is no count
  · exact iff_of_false (fun h => by omega) (by omega)
  -- the count is in the header, which the prefix has whole
  · have hcount : ∀ k < 4,
        ((packetOf next frame).take n).getD k 0 = (packetOf next frame).getD k 0 := by
      intro k hk
      rw [List.getD_eq_getElem?_getD, List.getElem?_take_of_lt (by omega),
        ← List.getD_eq_getElem?_getD]
    rw [hcount 2 (by decide), hcount 3 (by decide)]
    change 4 ≤ n ∧ n = (wordOf (lowByte (BitVec.ofNat 16 (frame.length + 4)))
      (highByte (BitVec.ofNat 16 (frame.length + 4)))).toNat ↔ _
    rw [wordOf_lowByte_highByte, BitVec.toNat_ofNat, Nat.mod_eq_of_lt hlen]
    exact and_iff_right hge

/-- The driver with one more byte of a packet. -/
theorem put_eq {d : Driver} {bytes frame : List Byte} {next byte : Byte}
    (hlen : frame.length + 4 < 2 ^ 16) (hn : bytes.length < frame.length + 4)
    (h : bytes ++ [byte] = (packetOf next frame).take (bytes.length + 1)) :
    d.put bytes byte =
      if bytes.length + 1 = frame.length + 4 then
        ⟨next, none, d.guest.receive (frameSegment frame)⟩
      else { d with reading := some ((packetOf next frame).take (bytes.length + 1)) } := by
  rw [Driver.put, h]
  split
  -- the packet is complete, so its frame goes to the guest
  case isTrue hwhole =>
    have hlast := (wholePacket_take_iff hlen hn).mp hwhole
    rw [if_pos hlast, List.take_of_length_le (by rw [length_packetOf]; omega)]
    rfl
  case isFalse hnot =>
    rw [if_neg fun hlast => hnot ((wholePacket_take_iff hlen hn).mpr hlast)]

/-- The registers after a seek. -/
theorem dev_seek {m : Machine (Dp8390 η)} (hpage : m.dev.page = 0) (page : Byte) :
    (runAll (cardAfter host) m
      [.access (.write 0x308 0), .access (.write 0x309 page)]).dev =
      { m.dev with rsar := pageAddress page, crda := pageAddress page } := by
  have hwrite : ∀ (m : Machine (Dp8390 η)) (port : Word) (value : Byte),
      0x300 ≤ port ∧ port ≤ 0x31F → cardAfter host m (.access (.write port value)) =
        (outcome (dp8390RegisterWrite host port value) m).2 := by
    intro m port value hport
    have hfunc : (dp8390Devices host).write port = some (dp8390RegisterWrite host) := if_pos hport
    exact Devices.after_write hfunc value m
  rw [runAll_cons, runAll_cons, runAll_nil, hwrite _ _ _ (by decide), hwrite _ _ _ (by decide),
    ← wordOf_zero_page]
  exact dev_dp8390RegisterWrite_rsar host hpage 0 page

/-- The register after a read of the data port, and what is read. -/
theorem dev_byte {m : Machine (Dp8390 η)} (hloopback : (m.dev.tcr >>> 1) &&& 0x3 ≠ 1) :
    (outcome (dp8390RegisterRead 0x310) m).1 = m.dev.ring m.dev.crda ∧
      (cardAfter host m (.access (.read 0x310))).dev =
        { m.dev with crda := m.dev.nextAddress m.dev.crda } := by
  have hfunc : (dp8390Devices host).read 0x310 = some dp8390RegisterRead := by
    change dp8390Reads 0x310 = _
    exact if_pos (by decide)
  have hafter : cardAfter host m (.access (.read 0x310)) =
      (outcome (dp8390RegisterRead 0x310) m).2 := Devices.after_read hfunc m
  rw [hafter, outcome_dp8390RegisterRead_data hloopback]
  exact ⟨rfl, rfl⟩

/-- The queue does not depend on the remote address. -/
theorem Unread.moved (h : w.Unread frames) {w' : Wired η} {rsar crda : Word}
    (hdev : w'.machine.dev = { w.machine.dev with rsar := rsar, crda := crda })
    (hpage : w'.driver.page = w.driver.page)
    (hreading : ∀ bytes, w'.driver.reading = some bytes → w'.ReadsFirst frames bytes) :
    w'.Unread frames := by
  have hsame : w.machine.dev.SamePages w'.machine.dev := by
    constructor <;> rw [hdev]
  refine ⟨h.setUp.congr hsame, ?_, ?_, ?_, hreading⟩
  · rw [hpage]
    exact hsame.hasPage h.page
  · rw [hpage]
    refine h.queues.congr h.page hsame ?_ fun k _ => ?_ <;> rw [hdev]
  · rw [hsame.ringPages]
    exact h.free

/-- Behind the first packet there are the others. -/
theorem Unread.tail {frame : List Byte} (h : w.Unread (frame :: frames)) (guest : Guest) :
    Unread { w with driver := ⟨w.machine.dev.pageBehind w.driver.page (framePages frame), none,
      guest⟩ } frames where
  setUp := h.setUp
  page := hasPage_pageBehind h.page _
  queues := h.queues.2
  free := Nat.lt_of_le_of_lt (Nat.le_add_left ..) h.free
  reading := nofun

/-- **A seek.** The next packet is read from its start. -/
theorem Arrived.seek (h : w.Arrived frames) (hs : w.Careful host .seek) :
    (wiredAfter host w .seek).Arrived frames := by
  have hpage : w.machine.dev.page = 0 := hs
  by_cases hcurr : w.driver.page = w.machine.dev.curr
  -- the driver has read all, and does not seek
  case pos =>
    have hkept : wiredAfter host w .seek = w := if_pos hcurr
    rw [hkept]
    exact h
  case neg =>
    obtain ⟨w', hw'⟩ : ∃ w', w' = wiredAfter host w .seek := ⟨_, rfl⟩
    have hafter := hw'.trans (if_neg hcurr)
    have hdev : w'.machine.dev = { w.machine.dev with
        rsar := pageAddress w.driver.page
        crda := pageAddress w.driver.page } := by
      rw [hafter]
      exact dev_seek host hpage w.driver.page
    have hreading : w'.driver.reading = some [] := by rw [hafter]
    have hends : w'.ends frames = w.ends frames := by
      rw [ends, calling, hdev, hafter]
      rfl
    rw [← hw']
    refine ⟨?_, h.unread.moved hdev (by rw [hafter]) fun bytes hbytes => ?_, ?_⟩
    · rw [hdev]
      exact h.idle
    · rw [hreading] at hbytes
      cases hbytes
      cases frames with
      | nil => exact absurd h.unread.queues hcurr
      | cons frame rest =>
        refine ⟨⟨frame, rest, rfl, by simp, rfl⟩, ?_⟩
        rw [hdev, hafter]
        rfl
    · rw [hends]
      exact h.delivered

/-- The packets of a queue count their bytes in a word. -/
theorem Unread.length_lt {frame : List Byte} (h : w.Unread (frame :: frames)) :
    frame.length + 4 < 2 ^ 16 := by
  have hlt := lt_framePages frame
  have hfree : framePages frame + queuePages frames < w.machine.dev.ringPages := h.free
  have hpages : w.machine.dev.ringPages =
      w.machine.dev.pstop.toNat - w.machine.dev.pstart.toNat := rfl
  have hstop := h.setUp.pstop_le
  omega

/-- The bytes that have been read, with the next one. -/
theorem Unread.take_succ {frame bytes : List Byte} (h : w.Unread (frame :: frames))
    (hreading : w.driver.reading = some bytes) :
    bytes.length < frame.length + 4 ∧
      bytes ++ [w.machine.dev.ring w.machine.dev.crda] =
        (packetOf (w.machine.dev.pageBehind w.driver.page (framePages frame)) frame).take
          (bytes.length + 1) := by
  obtain ⟨⟨frame', rest, hframes, hlt, htake⟩, hcrda⟩ := h.reading bytes hreading
  -- what is being read is the first frame of the queue
  cases hframes
  obtain ⟨packet, hpacket⟩ : ∃ packet, packetOf
      (w.machine.dev.pageBehind w.driver.page (framePages frame)) frame = packet := ⟨_, rfl⟩
  have hk : bytes.length < packet.length := by
    rw [← hpacket, length_packetOf]
    exact hlt
  refine ⟨hlt, ?_⟩
  rw [hpacket] at htake
  rw [hcrda, h.getElem_packet hpacket hk, hpacket, ← List.take_append_getElem hk, ← htake]

/-- **A byte.** It is the next one of the packet, and with the last one the frame is complete. -/
theorem Arrived.byte {frame bytes : List Byte} (h : w.Arrived (frame :: frames))
    (hs : w.Careful host .byte) (hreading : w.driver.reading = some bytes) :
    if bytes.length + 1 = frame.length + 4 then (wiredAfter host w .byte).Arrived frames
    else (wiredAfter host w .byte).Arrived (frame :: frames) ∧
      ∃ bytes', (wiredAfter host w .byte).driver.reading = some bytes' ∧
        bytes'.length = bytes.length + 1 := by
  obtain ⟨hlt, hnext⟩ := h.unread.take_succ hreading
  obtain ⟨hbyte, hdev⟩ := dev_byte host (m := w.machine) hs
  obtain ⟨w', hw'⟩ : ∃ w', w' = wiredAfter host w .byte := ⟨_, rfl⟩
  have hmachine : w'.machine.dev =
      { w.machine.dev with crda := w.machine.dev.nextAddress w.machine.dev.crda } := by
    rw [hw', ← hdev]
    simp only [wiredAfter, hreading]
  have hgiven : w'.given = w.given := by
    rw [hw']
    simp only [wiredAfter, hreading]
  have hdriver : w'.driver = w.driver.put bytes (w.machine.dev.ring w.machine.dev.crda) := by
    rw [hw', ← hbyte]
    simp only [wiredAfter, hreading]
  have hcalling : w'.machine.dev.calling = w.machine.dev.calling := by
    rw [hmachine]
    rfl
  have hidle : w'.machine.dev.lan.Idle := by
    rw [hmachine]
    exact h.idle
  rw [put_eq h.unread.length_lt hlt hnext] at hdriver
  rw [← hw']
  split
  -- the last byte, so the frame goes to the guest and leaves the ring
  case isTrue hlast =>
    rw [if_pos hlast] at hdriver
    refine ⟨hidle, (h.unread.tail _).moved hmachine (by rw [hdriver]) ?_, ?_⟩
    · intro bytes' hbytes'
      rw [hdriver] at hbytes'
      cases hbytes'
    · have hends : w'.ends frames = w.ends (frame :: frames) := by
        rw [ends, hcalling, hgiven, hdriver]
        rfl
      rw [hends]
      exact h.delivered
  -- one more byte of the same packet
  case isFalse hnot =>
    rw [if_neg hnot] at hdriver
    have hlength : ((packetOf (w.machine.dev.pageBehind w.driver.page (framePages frame))
        frame).take (bytes.length + 1)).length = bytes.length + 1 := by
      rw [← hnext, List.length_append]
      rfl
    refine ⟨⟨hidle, h.unread.moved hmachine (by rw [hdriver]) ?_, ?_⟩, _, by rw [hdriver], hlength⟩
    · intro bytes' hbytes'
      rw [hdriver] at hbytes'
      cases hbytes'
      refine ⟨⟨frame, frames, rfl, ?_, ?_⟩, ?_⟩
      · rw [hlength]
        omega
      · rw [hlength, hmachine, hdriver]
        rfl
      · rw [hlength, hmachine, hdriver, (h.unread.reading bytes hreading).crda]
        exact (Function.iterate_succ_apply' w.machine.dev.nextAddress bytes.length
          (pageAddress w.driver.page)).symm
    · have hends : w'.ends (frame :: frames) = w.ends (frame :: frames) := by
        rw [ends, hcalling, hgiven, hdriver]
        rfl
      rw [hends]
      exact h.delivered

/-- **Every step keeps the invariant.** -/
theorem Arrived.after (h : w.Arrived frames) {s : GuestStep η} (hs : w.Careful host s) :
    ∃ frames', (wiredAfter host w s).Arrived frames' := by
  cases s with
  | card s => exact h.card host hs
  | seek => exact ⟨frames, h.seek host hs⟩
  | byte =>
    cases hreading : w.driver.reading with
    | none =>
      -- there is nothing to be read
      refine ⟨frames, ?_⟩
      simp only [wiredAfter, hreading]
      exact h
    | some bytes =>
      obtain ⟨⟨frame, rest, hframes, -, -⟩, -⟩ := h.unread.reading bytes hreading
      cases hframes
      have hbyte := h.byte host hs hreading
      split at hbyte
      · exact ⟨rest, hbyte⟩
      · exact ⟨frame :: rest, hbyte.1⟩

/-! ### A driver that goes on reading -/

/-- The registers let the driver read. -/
structure Readable (w : Wired η) : Prop where
  page : w.machine.dev.page = 0
  loopback : (w.machine.dev.tcr >>> 1) &&& 0x3 ≠ 1

/-- A read changes the remote address and the driver only. -/
structure Kept (w w' : Wired η) : Prop where
  cr : w'.machine.dev.cr = w.machine.dev.cr
  tcr : w'.machine.dev.tcr = w.machine.dev.tcr
  lan : w'.machine.dev.lan = w.machine.dev.lan
  given : w'.given = w.given

theorem Kept.trans {w' w'' : Wired η} (h : w.Kept w') (h' : w'.Kept w'') : w.Kept w'' :=
  ⟨h'.cr.trans h.cr, h'.tcr.trans h.tcr, h'.lan.trans h.lan, h'.given.trans h.given⟩

theorem Readable.of_kept {w' : Wired η} (h : w.Readable) (hkept : w.Kept w') : w'.Readable := by
  obtain ⟨hpage, hloopback⟩ := h
  constructor
  · rw [Dp8390.page, hkept.cr]
    exact hpage
  · rwa [hkept.tcr]

theorem kept_seek (h : w.Readable) : w.Kept (wiredAfter host w .seek) := by
  have hdev := dev_seek host h.page w.driver.page
  unfold wiredAfter
  dsimp only
  split
  · exact ⟨rfl, rfl, rfl, rfl⟩
  · refine ⟨?_, ?_, ?_, rfl⟩ <;> rw [hdev]

theorem kept_byte (h : w.Readable) : w.Kept (wiredAfter host w .byte) := by
  obtain ⟨-, hdev⟩ := dev_byte host (m := w.machine) h.loopback
  unfold wiredAfter
  dsimp only
  split
  · exact ⟨rfl, rfl, rfl, rfl⟩
  · refine ⟨?_, ?_, ?_, rfl⟩ <;> rw [hdev]

/-- The rest of a packet is read byte by byte. -/
theorem Arrived.exists_bytes {frame bytes : List Byte} (h : w.Arrived (frame :: frames))
    (hreadable : w.Readable) (hreading : w.driver.reading = some bytes) :
    ∃ n, w.Kept (runAll (wiredAfter host) w (List.replicate n .byte)) ∧
      (runAll (wiredAfter host) w (List.replicate n .byte)).Arrived frames := by
  obtain ⟨hlt, -⟩ := h.unread.take_succ hreading
  obtain ⟨n, hn⟩ : ∃ n, n + bytes.length + 1 = frame.length + 4 :=
    ⟨frame.length + 3 - bytes.length, by omega⟩
  -- on the bytes that are missing
  induction n generalizing w bytes with
  | zero =>
    have hbyte := h.byte host hreadable.loopback hreading
    rw [if_pos (by omega)] at hbyte
    exact ⟨1, kept_byte host hreadable, hbyte⟩
  | succ n ih =>
    have hbyte := h.byte host hreadable.loopback hreading
    have hkept := kept_byte host hreadable
    rw [if_neg (by omega)] at hbyte
    obtain ⟨harrived, bytes', hreading', hlength⟩ := hbyte
    obtain ⟨k, hkept', hafter⟩ := ih harrived (hreadable.of_kept hkept) hreading' (by omega)
      (by omega)
    exact ⟨k + 1, hkept.trans hkept', hafter⟩

/-- **What is unread can be read.** A driver that does nothing else gets to CURR. -/
theorem Arrived.exists_reads (h : w.Arrived frames) (hreadable : w.Readable) :
    ∃ reads : List (GuestStep η), (∀ s ∈ reads, s = .seek ∨ s = .byte) ∧
      w.Kept (runAll (wiredAfter host) w reads) ∧
      (runAll (wiredAfter host) w reads).Arrived [] := by
  induction frames generalizing w with
  | nil => exact ⟨[], fun s hs => absurd hs List.not_mem_nil, ⟨rfl, rfl, rfl, rfl⟩, h⟩
  | cons frame frames ih =>
    -- a driver at CURR would have nothing left to read
    have hne : w.driver.page ≠ w.machine.dev.curr := fun heq =>
      List.cons_ne_nil _ _ (h.unread.queues.eq_nil h.unread.page h.unread.free heq)
    have hseek := h.seek host hreadable.page
    have hkept := kept_seek host hreadable
    have hreading : (wiredAfter host w .seek).driver.reading = some [] := by
      simp only [wiredAfter, if_neg hne]
    -- one packet at a time, and the rest by induction
    obtain ⟨n, hbytes, hafter⟩ := hseek.exists_bytes host (hreadable.of_kept hkept) hreading
    obtain ⟨reads, hreads, hkept', hdone⟩ :=
      ih hafter (hreadable.of_kept (hkept.trans hbytes))
    refine ⟨.seek :: List.replicate n .byte ++ reads, fun s hs => ?_, ?_, ?_⟩
    · rw [List.cons_append, List.mem_cons, List.mem_append] at hs
      rcases hs with rfl | hs | hs
      · exact .inl rfl
      · exact .inr (List.eq_of_mem_replicate hs)
      · exact hreads s hs
    · rw [runAll_append]
      exact (hkept.trans hbytes).trans hkept'
    · rw [runAll_append]
      exact hdone

end Wired

/-! ### Runs -/

/-- The connections stay apart, as long as no SYN is accepted for the ends of an open socket. -/
theorem routed_cardAfter {m : Machine (Dp8390 η)} (hidle : m.dev.lan.Idle)
    (hrouted : m.dev.lan.tcp.Routed) {s : CardStep η} (hs : TransmitsFresh host m s) :
    (cardAfter host m s).dev.lan.tcp.Routed := by
  let e : Ends η := ⟨⟨m.dev.calling, fun _ => []⟩, fun _ => none⟩
  have hrun : (runAll (endsAfter host) e (s.socketSteps host m)).lan.tcp.Routed := by
    refine runAll_keeps (I := fun e => e.lan.tcp.Routed) (fun e s he hs => ?_) hrouted
      (orderly_socketSteps host (e := e) rfl hidle hs)
    refine routed_socketAfter host he ?_
    rintro tx txLen rfl
    exact hs.2
  rw [(lan_cardAfter host hidle s).1, ← (runAll_socketSteps host (e := e) rfl hidle s).1]
  exact hrun

/-- A card whose ring has been set up, before the first connection. -/
structure Machine.Listens (m : Machine (Dp8390 η)) : Prop where
  setUp : m.dev.SetUp
  curr : m.dev.HasPage m.dev.curr
  closed : ∀ i, ¬ m.dev.lan.tcp.IsOpen i

/-- A driver that starts at CURR. -/
def Machine.wired (m : Machine (Dp8390 η)) : Wired η where
  machine := m
  given := fun _ => []
  driver := { page := m.dev.curr, reading := none, guest := fun _ => none }

theorem arrived_wired {m : Machine (Dp8390 η)} (hidle : m.dev.lan.Idle)
    (hrouted : m.dev.lan.tcp.Routed) (h : m.Listens) : m.wired.Arrived [] where
  idle := hidle
  unread :=
    { setUp := h.setUp
      page := h.curr
      queues := rfl
      free := h.curr.ringPages_pos
      reading := nofun }
  delivered := ⟨hrouted, fun i hopen => absurd hopen (h.closed i), fun _ _ => rfl⟩

/-- A step of the guest is accesses to the card, or a call of the main loop. -/
theorem simulates_wiredAfter (w : Wired η) (steps : List (GuestStep η)) :
    Simulates (cardAfter host) w.machine (runAll (wiredAfter host) w steps).machine := by
  induction steps generalizing w with
  | nil => exact .refl _
  | cons s steps ih =>
    refine Simulates.trans ?_ (ih (wiredAfter host w s))
    cases s with
    | card s => exact ⟨[s], rfl⟩
    | seek =>
      unfold wiredAfter
      dsimp only
      split
      · exact .refl _
      · exact ⟨_, rfl⟩
    -- a byte is one read of the data port
    | byte =>
      unfold wiredAfter
      dsimp only
      split
      · exact .refl _
      · exact ⟨[.access (.read 0x310)], rfl⟩

/-- What a driver has got, wherever it is. -/
structure Wired.Delivers (w : Wired η) : Prop where
  /-- With the frames in the ring, the guest has all that `recv` has returned. -/
  queued : ∃ frames, w.machine.dev.Queues w.driver.page frames ∧
    w.machine.dev.lan.tcp.Has (Wired.readAll frames w.driver.guest) w.given
  /-- A driver that is at CURR has it. -/
  read : w.driver.page = w.machine.dev.curr → w.machine.dev.lan.tcp.Has w.driver.guest w.given
  /-- Any other gets there by reading on. -/
  readable : w.Readable → ∃ reads : List (GuestStep η), (∀ s ∈ reads, s = .seek ∨ s = .byte) ∧
    let w' := runAll (wiredAfter host) w reads
    w.Kept w' ∧ w'.driver.page = w'.machine.dev.curr ∧
      w.machine.dev.lan.tcp.Has w'.driver.guest w.given

/-- **The streams of the servers arrive.** The card is reset and its ring set up, with pages from
1 to 249, before a connection is open. From then on a driver reads the packets at the data port,
between polls of the main loop, transmissions and other accesses of a guest that takes care, and
gives the frames to a TCP stack which drops those that do not check and takes the segments with the
number that it expects. In every state reached, the ring holds the packets of some frames from the
page of the driver up to CURR, and with them the guest has, for every open connection, exactly the
bytes that `recv` has returned for it so far, in order, and expects the number that the socket sends
next. -/
theorem streams_delivered (m : Machine (Dp8390 η)) (edfs : Edfs) (h : η)
    (setup : List (CardStep η)) (steps : List (GuestStep η))
    (hfresh : Along (cardAfter host) (TransmitsFresh host) (m.withCard (lanInit edfs h)) setup)
    (hlistens : (runAll (cardAfter host) (m.withCard (lanInit edfs h)) setup).Listens)
    (hcareful : Along (wiredAfter host) (Wired.Careful host)
      (runAll (cardAfter host) (m.withCard (lanInit edfs h)) setup).wired steps) :
    let w := runAll (wiredAfter host)
      (runAll (cardAfter host) (m.withCard (lanInit edfs h)) setup).wired steps
    Simulates (cardAfter host) (m.withCard (lanInit edfs h)) w.machine ∧
      w.machine.dev.lan.net.rxReady = false ∧ w.Delivers host := by
  -- what a queue without frames says
  have hhas : ∀ {w : Wired η} {frames : List (List Byte)}, w.Arrived frames →
      w.machine.dev.lan.tcp.Has (Wired.readAll frames w.driver.guest) w.given := by
    intro w frames harrived
    have hnone : (w.ends frames).lan.segment = none := Lan.Idle.segment harrived.idle
    have hdelivered := harrived.delivered.has
    rw [hnone] at hdelivered
    exact hdelivered
  have hsetup : ∀ (setup : List (CardStep η)) (m : Machine (Dp8390 η)), m.dev.lan.Idle →
      m.dev.lan.tcp.Routed → Along (cardAfter host) (TransmitsFresh host) m setup →
        (runAll (cardAfter host) m setup).dev.lan.Idle ∧
          (runAll (cardAfter host) m setup).dev.lan.tcp.Routed := by
    intro setup m hidle hrouted
    exact runAll_keeps (I := fun m : Machine (Dp8390 η) => m.dev.lan.Idle ∧ m.dev.lan.tcp.Routed)
      (fun m s hm hs => ⟨(lan_cardAfter host hm.1 s).2, routed_cardAfter host hm.1 hm.2 hs⟩)
      ⟨hidle, hrouted⟩
  obtain ⟨hidle, hrouted⟩ := hsetup setup (m.withCard (lanInit edfs h)) rfl
    (routed_lanInit edfs h) hfresh
  have hstart : Simulates (cardAfter host) (m.withCard (lanInit edfs h))
      (runAll (cardAfter host) (m.withCard (lanInit edfs h)) setup) := ⟨setup, rfl⟩
  generalize runAll (cardAfter host) (m.withCard (lanInit edfs h)) setup = m₁ at *
  have hrun := simulates_wiredAfter host m₁.wired steps
  obtain ⟨frames, harrived⟩ : ∃ frames,
      (runAll (wiredAfter host) m₁.wired steps).Arrived frames :=
    runAll_keeps (I := fun w => ∃ frames, Wired.Arrived w frames)
      (fun w s ⟨frames, hw⟩ hs => hw.after host hs)
      ⟨[], arrived_wired hidle hrouted hlistens⟩ hcareful
  dsimp only
  generalize runAll (wiredAfter host) m₁.wired steps = w at *
  refine ⟨hstart.trans hrun, harrived.idle, ⟨frames, harrived.unread.queues, hhas harrived⟩,
    fun hcurr => ?_, fun hreadable => ?_⟩
  · have hnil := harrived.unread.queues.eq_nil harrived.unread.page harrived.unread.free hcurr
    rw [hnil] at harrived
    exact hhas harrived
  · obtain ⟨reads, hreads, hkept, hdone⟩ := harrived.exists_reads host hreadable
    have hend := hhas hdone
    rw [hkept.lan, hkept.given] at hend
    exact ⟨reads, hreads, hkept, hdone.unread.queues, hend⟩

/-- A host on which connections are accepted, and on which a server says hi whenever it is asked. -/
def greetingHost : Host Unit :=
  { acceptingHost with
    recv := fun _ len h => (some (([0x68, 0x69] : List Byte).take len), h)
    recv_le := by
      intro fd len h bytes hbytes
      cases hbytes
      exact List.length_take_le .. }

/-- PSTART and PSTOP, CURR in the page 1 of the registers, and back to the page 0. -/
def setUpRing : List (CardStep Unit) :=
  [.access (.write 0x301 0x46), .access (.write 0x302 0x80), .access (.write 0x300 0x40),
    .access (.write 0x307 0x46), .access (.write 0x300 0x00)]

/-- While no connection is open, every SYN is fresh. -/
theorem transmitsFresh_of_closed {m : Machine (Dp8390 η)}
    (h : ∀ i, (m.dev.lan.net.tcpSockets i).fd = -1) (s : CardStep η) :
    TransmitsFresh host m s := by
  rintro tx txLen - tx' txLen' i fd - -
  exact findTcp_eq_none.mpr fun j hj => absurd (h j) hj

theorem transmitsFresh_tick (m : Machine (Dp8390 η)) : TransmitsFresh host m .tick := by
  intro tx txLen hmem
  simp [CardStep.socketSteps, LanStep.socketSteps] at hmem

instance (w : Wired η) (n : Net) : Decidable (w.HasRoom n) :=
  decidable_of_iff (n.rxLen.toNat ≤ netMtu ∧
      w.unreadPages + ((n.rxLen.toNat + 4) / 256 + 1) < w.machine.dev.ringPages)
    ⟨fun h => ⟨h.1, h.2⟩, fun h => ⟨h.mtu, h.free⟩⟩

instance (w : Wired η) (y : Dp8390 η) : Decidable (w.Leaves y) :=
  decidable_of_iff ((y.pstart = w.machine.dev.pstart ∧ y.pstop = w.machine.dev.pstop) ∧
      y.curr = w.machine.dev.curr ∧
      (∀ k < w.unreadPages * 256, y.ring (w.machine.dev.place w.driver.page k) =
        w.machine.dev.ring (w.machine.dev.place w.driver.page k)) ∧
      (w.driver.reading ≠ none → y.crda = w.machine.dev.crda))
    ⟨fun ⟨hpages, hcurr, hunread, hcrda⟩ => ⟨⟨hpages.1, hpages.2⟩, hcurr, hunread, hcrda⟩,
      fun h => ⟨⟨h.pages.pstart, h.pages.pstop⟩, h.curr, h.unread, h.crda⟩⟩

/-- The driver has read the first bytes of the packet that holds the SYN+ACK. -/
theorem streams_delivered_greeting :
    let m := machineInit (dp8390Init (lanInit (edfsInit []) ()))
    let steps : List (GuestStep Unit) :=
      transmitSyn.map .card ++ [.card .tick, .seek, .byte, .byte]
    let start := runAll (cardAfter greetingHost) (m.withCard (lanInit (edfsInit []) ())) setUpRing
    let w := runAll (wiredAfter greetingHost) start.wired steps
    Simulates (cardAfter greetingHost) (m.withCard (lanInit (edfsInit []) ())) w.machine ∧
      w.machine.dev.lan.net.rxReady = false ∧ w.Delivers greetingHost ∧
      w.driver.reading = some [0x01, 0x47] := by
  intro m steps start w
  have hsetup : Along (cardAfter greetingHost) (TransmitsFresh greetingHost)
      (m.withCard (lanInit (edfsInit []) ())) setUpRing := by
    simp only [setUpRing, along_cons, along_nil, and_true]
    refine ⟨?_, ?_, ?_, ?_, ?_⟩
    all_goals exact transmitsFresh_of_closed greetingHost (by decide) _
  have hlistens : start.Listens :=
    ⟨⟨by decide, by decide⟩, ⟨by decide, by decide⟩, by decide⟩
  have hcareful : Along (wiredAfter greetingHost) (Wired.Careful greetingHost) start.wired
      steps := by
    simp only [steps, transmitSyn, List.map_cons, List.map_nil, List.cons_append, List.nil_append,
      along_cons, along_nil, and_true]
    refine ⟨?_, ?_, ?_, ?_, ?_, ?_, ?_, ?_, ?_, ?_, ?_, ?_⟩
    case refine_8 =>
      exact ⟨transmitsFresh_of_closed greetingHost (by decide) _, fun _ => by decide +kernel,
        fun h => absurd (.inr ⟨0x06, rfl⟩) h⟩
    case refine_9 =>
      exact ⟨transmitsFresh_tick greetingHost _, fun _ => by decide +kernel,
        fun h => absurd (.inl rfl) h⟩
    case refine_10 | refine_11 | refine_12 =>
      unfold Wired.Careful
      decide +kernel
    -- nothing is transmitted yet, and the buffer is outside of the ring
    all_goals exact ⟨transmitsFresh_of_closed greetingHost (by decide) _,
      fun h => absurd h (by decide +kernel), fun _ => by decide +kernel⟩
  obtain ⟨hsimulates, hready, hdelivers⟩ :=
    streams_delivered greetingHost m (edfsInit []) () setUpRing steps hsetup hlistens hcareful
  exact ⟨hsimulates, hready, hdelivers, by decide +kernel⟩

end Pc20iii
