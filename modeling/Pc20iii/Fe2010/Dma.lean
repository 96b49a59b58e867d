import Pc20iii.Device.Transfer
import Pc20iii.I8088.Execute

/-!
# The address counter of the DMA controller

The four address registers of the DMA controller count in 16 bits, inside the page of 64 KB that
the page register selects. The source adds the number of the byte to an address of 32 bits
instead, so that a transfer goes on behind the end of its page.

`dmaAddresses` are the addresses that a transfer asks for, in order (`fe2010DmaWrite_eq`,
`fe2010DmaRead_eq`), and `dmaPlaces` those of a counter of 16 bits. `dma_keeps_page_iff` says that
a transfer is right exactly when the two agree, which is when it ends inside its page.
-/

namespace Pc20iii

open StateProgram

variable {δ : Type}

namespace Fe2010

variable (f : Fe2010) (channelNo : Fin 4)

/-- The addresses that a transfer hands to `mem_read` or `mem_write`. -/
def dmaAddresses : List (BitVec 32) :=
  (List.range ((f.dmaCount channelNo).toNat + 1)).map fun i =>
    f.dmaAddress channelNo + BitVec.ofNat 32 i

/-- The address register of a channel. -/
def dmaStart : Word := f.dmaReg (Fin.ofNat 8 (channelNo * 2))

/-- The places of a counter of 16 bits in the page. -/
def dmaPlaces : List (BitVec 32) :=
  (List.range ((f.dmaCount channelNo).toNat + 1)).map fun i =>
    ((f.dmaPage channelNo).setWidth 32 <<< 16) +
      (f.dmaStart channelNo + BitVec.ofNat 16 i).setWidth 32

/-- The transfer ends inside its page. -/
def EndsInPage : Prop := (f.dmaStart channelNo).toNat + (f.dmaCount channelNo).toNat < 2 ^ 16

instance : Decidable (f.EndsInPage channelNo) := inferInstanceAs (Decidable (_ < _))

theorem dmaAddress_toNat : (f.dmaAddress channelNo).toNat =
    (f.dmaPage channelNo).toNat * 2 ^ 16 + (f.dmaStart channelNo).toNat := by
  have hpage := (f.dmaPage channelNo).isLt
  have hstart := (f.dmaStart channelNo).isLt
  show ((f.dmaStart channelNo).setWidth 32 + ((f.dmaPage channelNo).setWidth 32 <<< 16)).toNat = _
  rw [BitVec.toNat_add, BitVec.toNat_shiftLeft, BitVec.toNat_setWidth, BitVec.toNat_setWidth,
    Nat.shiftLeft_eq]
  omega

/-- The address of byte `i`. -/
theorem address_toNat {i : ℕ} (hi : i < 2 ^ 16) :
    (f.dmaAddress channelNo + BitVec.ofNat 32 i).toNat =
      (f.dmaPage channelNo).toNat * 2 ^ 16 + ((f.dmaStart channelNo).toNat + i) := by
  have hpage := (f.dmaPage channelNo).isLt
  have hstart := (f.dmaStart channelNo).isLt
  rw [BitVec.toNat_add, dmaAddress_toNat, BitVec.toNat_ofNat]
  omega

/-- The place of byte `i`. -/
theorem place_toNat (i : ℕ) :
    (((f.dmaPage channelNo).setWidth 32 <<< 16) +
      (f.dmaStart channelNo + BitVec.ofNat 16 i).setWidth 32 : BitVec 32).toNat =
      (f.dmaPage channelNo).toNat * 2 ^ 16 + ((f.dmaStart channelNo).toNat + i) % 2 ^ 16 := by
  have hpage := (f.dmaPage channelNo).isLt
  rw [BitVec.toNat_add, BitVec.toNat_shiftLeft, BitVec.toNat_setWidth, BitVec.toNat_setWidth,
    BitVec.toNat_add, BitVec.toNat_ofNat, Nat.shiftLeft_eq]
  omega

/-- The two counters agree exactly when neither of them wraps. -/
theorem dmaAddresses_eq_iff :
    f.dmaAddresses channelNo = f.dmaPlaces channelNo ↔ f.EndsInPage channelNo := by
  have hcount := (f.dmaCount channelNo).isLt
  unfold dmaAddresses dmaPlaces EndsInPage
  rw [List.map_inj_left]
  constructor
  · intro h
    -- the last byte is the one that wraps, if any does
    have hlast := congrArg BitVec.toNat
      (h _ (List.mem_range.mpr (Nat.lt_succ_self (f.dmaCount channelNo).toNat)))
    rw [address_toNat f channelNo hcount, place_toNat] at hlast
    omega
  · intro h i hi
    have hlt := List.mem_range.mp hi
    refine BitVec.eq_of_toNat_eq ?_
    rw [address_toNat f channelNo (by omega), place_toNat]
    omega

variable {f channelNo}

/-- Inside its page a transfer stays below one megabyte. -/
theorem EndsInPage.below (h : f.EndsInPage channelNo) (hpage : (f.dmaPage channelNo).toNat < 16) :
    ∀ a ∈ f.dmaAddresses channelNo, ¬a ≥ memSizeMax := by
  have hmax : memSizeMax.toNat = 2 ^ 20 := rfl
  have hcount := (f.dmaCount channelNo).isLt
  unfold EndsInPage at h
  intro a ha
  obtain ⟨i, hi, rfl⟩ := List.mem_map.mp ha
  have hlt := List.mem_range.mp hi
  rw [ge_iff_le, BitVec.le_def, hmax, address_toNat f channelNo (by omega)]
  omega

end Fe2010

/-! ### The loops -/

theorem forM_map {σ α β : Type} (l : List α) (g : α → β) (body : β → StateM σ PUnit) :
    (l.map g).forM body = l.forM fun a => body (g a) := by
  induction l with
  | nil => rfl
  | cons a l ih => exact congrArg (fun rest => body (g a) >>= fun _ => rest) ih

/-- A transfer to memory asks for its addresses one after another. -/
theorem fe2010DmaWrite_eq {m : Machine δ} {channelNo : Fin 4}
    (h : m.fe2010.dmaTransfer channelNo = dmaModeWrite) (callback : Local δ Byte) :
    outcome (fe2010DmaWrite channelNo callback) m =
      outcome ((m.fe2010.dmaAddresses channelNo).forM fun address =>
        runLocal callback >>= memWrite .dma address) m := by
  rw [Fe2010.dmaAddresses, forM_map]
  simp only [fe2010DmaWrite, outcome_bind, outcome_get, outcome_ite]
  rw [if_pos h]

/-- A transfer from memory asks for its addresses one after another. -/
theorem fe2010DmaRead_eq {m : Machine δ} {channelNo : Fin 4}
    (h : m.fe2010.dmaTransfer channelNo = dmaModeRead) (callback : Byte → Local δ Unit) :
    outcome (fe2010DmaRead channelNo callback) m =
      outcome ((m.fe2010.dmaAddresses channelNo).forM fun address =>
        memRead .dma address >>= fun value => runLocal (callback value)) m := by
  rw [Fe2010.dmaAddresses, forM_map]
  simp only [fe2010DmaRead, outcome_bind, outcome_get, outcome_ite]
  rw [if_pos h]

/-- A byte that is not among the addresses keeps its value. -/
theorem Mem.dmaStore_of_ne (mem : Mem) {address : BitVec 32} {vs : List Byte} {a : BitVec 20}
    (h : ∀ k < vs.length, ¬address + BitVec.ofNat 32 k ≥ memSizeMax →
      a ≠ (address + BitVec.ofNat 32 k).setWidth 20) : (mem.dmaStore address vs).m a = mem.m a := by
  induction vs generalizing mem address with
  | nil => rfl
  | cons v vs ih =>
    -- the bytes behind the first have the addresses behind its
    have htail : ∀ k < vs.length, ¬address + 1 + BitVec.ofNat 32 k ≥ memSizeMax →
        a ≠ (address + 1 + BitVec.ofNat 32 k).setWidth 20 := by
      intro k hk
      have hsucc := h (k + 1) (Nat.succ_lt_succ hk)
      rw [Nat.add_comm k 1, BitVec.ofNat_add, ← BitVec.add_assoc] at hsucc
      exact hsucc
    rw [dmaStore, ih _ htail]
    split_ifs with hmax
    · rfl
    · have hhead := h 0 (Nat.succ_pos _)
      rw [BitVec.add_zero] at hhead
      unfold Mem.store
      split_ifs
      · exact Function.update_of_ne (hhead hmax) ..
      · rfl

/-! ### Right transfers -/

/-- The transfers of a channel with their callbacks are what the DMA controller does. -/
structure DmaRight (m : Machine δ) (channelNo : Fin 4) (source : Local δ Byte)
    (sink : Byte → Local δ Unit) : Prop where
  /-- In another mode nothing happens. -/
  idle_write : m.fe2010.dmaTransfer channelNo ≠ dmaModeWrite →
    outcome (fe2010DmaWrite channelNo source) m = ((), m)
  idle_read : m.fe2010.dmaTransfer channelNo ≠ dmaModeRead →
    outcome (fe2010DmaRead channelNo sink) m = ((), m)
  /-- The callback is called `count + 1` times. -/
  write_calls : m.fe2010.dmaTransfer channelNo = dmaModeWrite →
    (outcome (fe2010DmaWrite channelNo source) m).2.dev =
      (produced source ((m.fe2010.dmaCount channelNo).toNat + 1) m.dev).2
  read_calls : m.fe2010.dmaTransfer channelNo = dmaModeRead →
    (outcome (fe2010DmaRead channelNo sink) m).2.dev =
      ((m.fe2010.dmaAddresses channelNo).map m.dmaByte).foldl (fun x v => (sink v x).2.1) m.dev
  /-- The address counter wraps within 16 bits. -/
  wraps : m.fe2010.dmaTransfer channelNo = dmaModeWrite ∨
      m.fe2010.dmaTransfer channelNo = dmaModeRead →
    m.fe2010.dmaAddresses channelNo = m.fe2010.dmaPlaces channelNo
  /-- No other page is touched. -/
  page : ∀ a : BitVec 20, a.toNat / 2 ^ 16 ≠ (m.fe2010.dmaPage channelNo).toNat →
    (outcome (fe2010DmaWrite channelNo source) m).2.mem.m a = m.mem.m a
  /-- No address is one that `mem_read` and `mem_write` reject. -/
  below : m.fe2010.dmaTransfer channelNo = dmaModeWrite ∨
      m.fe2010.dmaTransfer channelNo = dmaModeRead → (m.fe2010.dmaPage channelNo).toNat < 16 →
    ∀ a ∈ m.fe2010.dmaAddresses channelNo, ¬a ≥ memSizeMax

section Right

variable {m : Machine δ} {channelNo : Fin 4} {source : Local δ Byte} {sink : Byte → Local δ Unit}

theorem outcome_fe2010DmaWrite_of_ne (h : m.fe2010.dmaTransfer channelNo ≠ dmaModeWrite) :
    outcome (fe2010DmaWrite channelNo source) m = ((), m) := by
  simp only [fe2010DmaWrite, outcome_bind, outcome_get, outcome_ite, outcome_pure]
  rw [if_neg h]

theorem outcome_fe2010DmaRead_of_ne (h : m.fe2010.dmaTransfer channelNo ≠ dmaModeRead) :
    outcome (fe2010DmaRead channelNo sink) m = ((), m) := by
  simp only [fe2010DmaRead, outcome_bind, outcome_get, outcome_ite, outcome_pure]
  rw [if_neg h]

/-- A transfer that ends inside its page changes no byte of another one. -/
theorem mem_fe2010DmaWrite (hpage : m.fe2010.EndsInPage channelNo) {a : BitVec 20}
    (ha : a.toNat / 2 ^ 16 ≠ (m.fe2010.dmaPage channelNo).toNat) :
    (outcome (fe2010DmaWrite channelNo source) m).2.mem.m a = m.mem.m a := by
  by_cases hmode : m.fe2010.dmaTransfer channelNo = dmaModeWrite
  · rw [(transferred_dmaWrite hmode source).mem]
    refine Mem.dmaStore_of_ne _ fun k hk hmax heq => ha ?_
    have hmem : memSizeMax.toNat = 2 ^ 20 := rfl
    have hcount := (m.fe2010.dmaCount channelNo).isLt
    -- all addresses have the page in their upper bits
    unfold Fe2010.EndsInPage at hpage
    rw [length_produced] at hk
    rw [ge_iff_le, BitVec.le_def, hmem, Fe2010.address_toNat _ _ (by omega)] at hmax
    rw [heq, BitVec.toNat_setWidth, Fe2010.address_toNat _ _ (by omega)]
    omega
  · rw [outcome_fe2010DmaWrite_of_ne hmode]

theorem DmaRight.of_endsInPage (h : m.fe2010.EndsInPage channelNo) :
    DmaRight m channelNo source sink where
  idle_write := outcome_fe2010DmaWrite_of_ne
  idle_read := outcome_fe2010DmaRead_of_ne
  write_calls hmode := (transferred_dmaWrite hmode source).dev
  read_calls hmode := by
    rw [(transferred_dmaRead hmode sink).dev, Machine.dmaBytes, Fe2010.dmaAddresses, List.map_map]
    rfl
  wraps _ := (Fe2010.dmaAddresses_eq_iff _ _).mpr h
  page _ ha := mem_fe2010DmaWrite h ha
  below _ hpage := h.below hpage

theorem DmaRight.of_idle (hwrite : m.fe2010.dmaTransfer channelNo ≠ dmaModeWrite)
    (hread : m.fe2010.dmaTransfer channelNo ≠ dmaModeRead) :
    DmaRight m channelNo source sink where
  idle_write := outcome_fe2010DmaWrite_of_ne
  idle_read := outcome_fe2010DmaRead_of_ne
  write_calls hmode := absurd hmode hwrite
  read_calls hmode := absurd hmode hread
  wraps hmode := (not_or.mpr ⟨hwrite, hread⟩ hmode).elim
  page _ _ := by rw [outcome_fe2010DmaWrite_of_ne hwrite]
  below hmode := (not_or.mpr ⟨hwrite, hread⟩ hmode).elim

end Right

/-- **DMA transfers.** The callbacks are called as often as the count register says, in order, and
inside the page of the channel, exactly when the transfer ends before the end of the page or the
channel is in no mode that moves data. -/
theorem dma_keeps_page_iff (m : Machine δ) (channelNo : Fin 4) (source : Local δ Byte)
    (sink : Byte → Local δ Unit) :
    DmaRight m channelNo source sink ↔
      m.fe2010.EndsInPage channelNo ∨ (m.fe2010.dmaTransfer channelNo ≠ dmaModeWrite ∧
        m.fe2010.dmaTransfer channelNo ≠ dmaModeRead) := by
  constructor
  · intro h
    by_cases hidle : m.fe2010.dmaTransfer channelNo ≠ dmaModeWrite ∧
        m.fe2010.dmaTransfer channelNo ≠ dmaModeRead
    · exact .inr hidle
    · refine .inl ((Fe2010.dmaAddresses_eq_iff _ _).mp (h.wraps ?_))
      -- a channel in neither mode would be idle
      by_contra hmode
      exact hidle (not_or.mp hmode)
  · rintro (h | ⟨hwrite, hread⟩)
    · exact .of_endsInPage h
    · exact .of_idle hwrite hread

/-- Two bytes to memory from FFFF of page 15 on. -/
def writingPageEnd : Machine Unit :=
  { machineInit () with
    fe2010 := { fe2010Init with
      dmaMode := fun _ => 0x04
      dmaPage := fun _ => 0x0F
      dmaReg := fun i => if i = 0 then 0xFFFF else 0x0001 } }

/-- The second one is above one megabyte. -/
theorem dma_leaves_page : ¬ ∀ (m : Machine Unit) (channelNo : Fin 4) (source : Local Unit Byte)
    (sink : Byte → Local Unit Unit), DmaRight m channelNo source sink := by
  intro h
  have hright := h writingPageEnd 0 (fun x => (0, x, [])) fun _ x => ((), x, [])
  have hbelow := hright.below (.inl (by decide)) (by decide) 0x100000 (by decide)
  exact hbelow (by decide)

end Pc20iii
