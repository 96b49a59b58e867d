import Pc20iii.I8088.Repeat

/-!
# Moves and stores of strings

The repeated forms of `MOVS` and `STOS` store one byte or word after the other. Their effect on
memory is the list of their stores, in order (`Mem.stores`, `StringStore.writes`): a word
transfer of more than 32768 words laps its segment and stores some bytes twice, but always the
same value (`StringStore.byte_of_dest`).

`rep_string_stores` states the effect of the whole instruction. A single `MOVSW` stores its first
byte before it reads its second, so that it is a `LODSW` and a `STOSW` except where the two words
overlap by that byte (`movsw_iff`).
-/

namespace Pc20iii

open StateProgram

variable {δ : Type}

/-! ### Stores in a row -/

/-- The memory after some stores, one after the other. -/
def Mem.stores (mem : Mem) (ws : List (BitVec 20 × Byte)) : Mem :=
  ws.foldl (fun mem w => mem.store w.1 w.2) mem

namespace Mem

variable (mem : Mem) {ws vs : List (BitVec 20 × Byte)} {a : BitVec 20} {v : Byte}

theorem stores_append : mem.stores (ws ++ vs) = (mem.stores ws).stores vs :=
  List.foldl_append

@[simp] theorem stores_readonly : (mem.stores ws).readonly = mem.readonly := by
  induction ws generalizing mem with
  | nil => rfl
  | cons w ws ih => exact (ih _).trans (mem.store_readonly w.1 w.2)

theorem stores_of_not_mem (h : ∀ w ∈ ws, w.1 ≠ a) : (mem.stores ws).m a = mem.m a := by
  induction ws generalizing mem with
  | nil => rfl
  | cons w ws ih =>
    obtain ⟨hw, hws⟩ := List.forall_mem_cons.mp h
    exact (ih _ hws).trans (mem.store_of_ne w.1 a w.2 hw.symm)

/-- A byte that is stored with one value only has that value in the end. -/
theorem stores_of_mem (hwritable : mem.readonly (pageOf a) = false)
    (hsame : ∀ w ∈ ws, w.1 = a → w.2 = v) (hmem : ∃ w ∈ ws, w.1 = a) :
    (mem.stores ws).m a = v := by
  induction ws generalizing mem with
  | nil => obtain ⟨w, hw, -⟩ := hmem; cases hw
  | cons w ws ih =>
    obtain ⟨hw, hws⟩ := List.forall_mem_cons.mp hsame
    -- the last store at the place decides
    by_cases hlater : ∃ u ∈ ws, u.1 = a
    · exact ih (mem.store w.1 w.2) (by rwa [store_readonly]) hws hlater
    · -- the first store is the only one
      have hfirst : w.1 = a := by
        obtain ⟨u, hu, hua⟩ := hmem
        rcases List.mem_cons.mp hu with rfl | hu
        · exact hua
        · exact absurd ⟨u, hu, hua⟩ hlater
      subst hfirst
      have hrest : ∀ u ∈ ws, u.1 ≠ w.1 := fun u hu hua => hlater ⟨u, hu, hua⟩
      show ((mem.store w.1 w.2).stores ws).m w.1 = v
      rw [stores_of_not_mem _ hrest, store_of_writable _ _ _ hwritable, hw rfl]

end Mem

/-! ### The instructions -/

/-- The instructions that store a string. -/
inductive StringStore where
  | movsb
  | movsw
  | stosb
  | stosw
deriving DecidableEq

namespace StringStore

/-- The opcode. -/
def opcode : StringStore → Byte
  | movsb => 0xA4
  | movsw => 0xA5
  | stosb => 0xAA
  | stosw => 0xAB

/-- The function behind the opcode. -/
def body : StringStore → M δ Unit
  | movsb => i8088Movsb
  | movsw => i8088Movsw
  | stosb => i8088Stosb
  | stosw => i8088Stosw

/-- The number of bytes of an element. -/
def size : StringStore → ℕ
  | movsb => 1
  | movsw => 2
  | stosb => 1
  | stosw => 2

/-- The instruction has a source in memory. -/
def moves : StringStore → Bool
  | movsb => true
  | movsw => true
  | stosb => false
  | stosw => false

/-- The stride of the index registers. -/
def stride (op : StringStore) : Word := BitVec.ofNat 16 op.size

/-- The address of byte `i` of the source of pass `k`, in the segment of an override. -/
def source (op : StringStore) (c : I8088) (k i : ℕ) : BitVec 20 :=
  linear (c.overridden c.ds) (c.indexAt op.stride c.si k + BitVec.ofNat 16 i)

/-- The address of byte `i` of the destination of pass `k`, in the segment `es`. -/
def dest (op : StringStore) (c : I8088) (k i : ℕ) : BitVec 20 :=
  linear c.es (c.indexAt op.stride c.di k + BitVec.ofNat 16 i)

/-- The byte that belongs there: the one of the source, or of `ax`. -/
def byte (op : StringStore) (m : Machine δ) (k i : ℕ) : Byte :=
  if op.moves then m.mem.m (op.source m.cpu k i) else if i = 0 then m.cpu.al else m.cpu.ah

/-- The stores of the first `k` passes. -/
def writes (op : StringStore) (m : Machine δ) (k : ℕ) : List (BitVec 20 × Byte) :=
  (List.range k).flatMap fun j =>
    (List.range op.size).map fun i => (op.dest m.cpu j i, op.byte m j i)

/-- The machine after the first `k` passes. -/
def after (op : StringStore) (m : Machine δ) (k : ℕ) : Machine δ :=
  { m with
    cpu := m.cpu.passed op.stride op.moves k
    mem := m.mem.stores (op.writes m k) }

end StringStore

/-- The source bytes of a repeated `MOVS` are none of its destination bytes. -/
def StringStore.Apart (op : StringStore) (c : I8088) : Prop :=
  op.moves = true → ∀ k < c.cx.toNat, ∀ i < op.size, ∀ k' < c.cx.toNat, ∀ i' < op.size,
    op.source c k i ≠ op.dest c k' i'

/-- The destination bytes lie in sections that can be written. -/
def StringStore.Writable (op : StringStore) (m : Machine δ) : Prop :=
  ∀ k < m.cpu.cx.toNat, ∀ i < op.size, m.mem.readonly (pageOf (op.dest m.cpu k i)) = false

/-- What a repeated instruction in `n` has done in `m'`. -/
structure StringStore.Stores (op : StringStore) (n m' : Machine δ) : Prop where
  /-- Every destination byte holds the byte that belongs there. -/
  bytes : ∀ k < n.cpu.cx.toNat, ∀ i < op.size, m'.mem.m (op.dest n.cpu k i) = op.byte n k i
  /-- Every other byte is unchanged. -/
  others : ∀ a, (∀ k < n.cpu.cx.toNat, ∀ i < op.size, a ≠ op.dest n.cpu k i) →
    m'.mem.m a = n.mem.m a
  readonly : m'.mem.readonly = n.mem.readonly
  /-- `cx` is 0, the index registers have moved, and no other register has changed. -/
  cpu : m'.cpu = { n.cpu with
    cx := 0
    si := if op.moves then
        if n.cpu.flags.d then n.cpu.si - n.cpu.cx * op.stride else n.cpu.si + n.cpu.cx * op.stride
      else n.cpu.si
    di := if n.cpu.flags.d then n.cpu.di - n.cpu.cx * op.stride
      else n.cpu.di + n.cpu.cx * op.stride }
  fe2010 : m'.fe2010 = n.fe2010
  dev : m'.dev = n.dev
  log : m'.log = n.log

/-! ### One pass -/

namespace StringStore

variable (op : StringStore)

/-- The memory after one pass. -/
def element (m : Machine δ) : Mem :=
  match op with
  | movsb => m.mem.store (op.dest m.cpu 0 0) (m.mem.m (op.source m.cpu 0 0))
  | movsw =>
    -- the second byte is read behind the first store
    let mem := m.mem.store (op.dest m.cpu 0 0) (m.mem.m (op.source m.cpu 0 0))
    mem.store (op.dest m.cpu 0 1) (mem.m (op.source m.cpu 0 1))
  | stosb => m.mem.store (op.dest m.cpu 0 0) m.cpu.al
  | stosw => (m.mem.store (op.dest m.cpu 0 0) m.cpu.al).store (op.dest m.cpu 0 1) m.cpu.ah

theorem source_zero (c : I8088) (i : ℕ) :
    op.source c 0 i = linear (c.overridden c.ds) (c.si + BitVec.ofNat 16 i) := by
  rw [source, indexAt_zero]

theorem dest_zero (c : I8088) (i : ℕ) :
    op.dest c 0 i = linear c.es (c.di + BitVec.ofNat 16 i) := by
  rw [dest, indexAt_zero]

/-- What one call of the function does. -/
theorem outcome_body (m : Machine δ) :
    outcome op.body m = ((), { m with
      cpu := { m.cpu with
        si := if op.moves then m.cpu.strideBy op.stride m.cpu.si else m.cpu.si
        di := m.cpu.strideBy op.stride m.cpu.di }
      mem := op.element m }) := by
  cases op <;> simp only [element, source_zero, dest_zero] <;>
    simp [body, i8088Movsb, i8088Movsw, i8088Stosb, i8088Stosw, advanceBoth, advanceDi, eaddrRead8,
      moves, stride, size]

/-! ### The passes -/

/-- The source of a pass, seen from the registers it finds. -/
theorem source_passed (c : I8088) (k i : ℕ) (h : op.moves = true) :
    op.source (c.passed op.stride op.moves k) 0 i = op.source c k i := by
  rw [source_zero, source, h]
  rfl

theorem dest_passed (c : I8088) (k i : ℕ) :
    op.dest (c.passed op.stride op.moves k) 0 i = op.dest c k i := by
  rw [dest_zero, dest]
  rfl

theorem mem_writes {m : Machine δ} {k : ℕ} {w : BitVec 20 × Byte} :
    w ∈ op.writes m k ↔
      ∃ j < k, ∃ i < op.size, w = (op.dest m.cpu j i, op.byte m j i) := by
  simp only [writes, List.mem_flatMap, List.mem_map, List.mem_range]
  exact ⟨fun ⟨j, hj, i, hi, h⟩ => ⟨j, hj, i, hi, h.symm⟩,
    fun ⟨j, hj, i, hi, h⟩ => ⟨j, hj, i, hi, h.symm⟩⟩

/-- The source bytes keep their values. -/
theorem source_kept {m : Machine δ} (hmoves : op.moves = true) (hapart : op.Apart m.cpu)
    {k j i : ℕ} (hk : k ≤ m.cpu.cx.toNat) (hj : j < m.cpu.cx.toNat) (hi : i < op.size) :
    (m.mem.stores (op.writes m k)).m (op.source m.cpu j i) = op.byte m j i := by
  have hkept : ∀ w ∈ op.writes m k, w.1 ≠ op.source m.cpu j i := by
    intro w hw
    obtain ⟨j', hj', i', hi', rfl⟩ := op.mem_writes.mp hw
    exact (hapart hmoves j hj i hi j' (hj'.trans_le hk) i' hi').symm
  rw [Mem.stores_of_not_mem _ hkept, byte, if_pos hmoves]

theorem writes_succ (m : Machine δ) (k : ℕ) :
    op.writes m (k + 1) = op.writes m k ++
      (List.range op.size).map fun i => (op.dest m.cpu k i, op.byte m k i) := by
  rw [writes, List.range_succ, List.flatMap_append, List.flatMap_singleton]
  rfl

/-- The memory after pass `k`. -/
theorem element_after {m : Machine δ} (hapart : op.Apart m.cpu) {k : ℕ}
    (hk : k < m.cpu.cx.toNat) :
    op.element (op.after m k) = m.mem.stores (op.writes m (k + 1)) := by
  -- the passes before have not stored on the bytes that this one reads
  have hkept := fun hmoves i hi => op.source_kept hmoves hapart (i := i) hk.le hk hi
  have hdest : ∀ i, op.dest (op.after m k).cpu 0 i = op.dest m.cpu k i := op.dest_passed m.cpu k
  have hsource : op.moves = true → ∀ i, op.source (op.after m k).cpu 0 i = op.source m.cpu k i :=
    fun hmoves i => op.source_passed m.cpu k i hmoves
  have hmem : (op.after m k).mem = m.mem.stores (op.writes m k) := rfl
  rw [writes_succ, Mem.stores_append, ← hmem]
  cases op with
  | movsb =>
    rw [element, hdest, hsource rfl, hmem, hkept rfl 0 Nat.zero_lt_one]
    rfl
  | movsw =>
    -- nor does the first byte of the word on its second
    have hother : movsw.source m.cpu k 1 ≠ movsw.dest m.cpu k 0 :=
      hapart rfl k hk 1 (by decide) k hk 0 (by decide)
    simp only [element]
    rw [hdest, hdest, hsource rfl, hsource rfl, hmem, hkept rfl 0 (by decide),
      Mem.store_of_ne _ _ _ _ hother, hkept rfl 1 (by decide)]
    rfl
  | stosb =>
    rw [element, hdest]
    rfl
  | stosw =>
    rw [element, hdest, hdest]
    rfl

/-- **One pass** of the loop. -/
theorem pass_after {m : Machine δ} (hapart : op.Apart m.cpu) {k : ℕ}
    (hk : k < m.cpu.cx.toNat) :
    (outcome (do op.body; decrementCx) (op.after m k)).2 = op.after m (k + 1) := by
  rw [outcome_bind, outcome_body, element_after op hapart hk]
  have hcpu := passed_succ m.cpu op.stride op.moves k
  rw [after, after, hcpu]
  rfl

theorem after_zero (m : Machine δ) : op.after m 0 = m := by
  rw [after, passed_zero]
  rfl

theorem size_cases : op.size = 1 ∨ op.size = 2 := by
  cases op <;> decide

/-- An element starts at a multiple of its size. -/
theorem toNat_stride_mod (k : ℕ) : (BitVec.ofNat 16 k * op.stride).toNat % op.size = 0 := by
  rw [BitVec.toNat_mul, BitVec.toNat_ofNat, stride, BitVec.toNat_ofNat]
  rcases op.size_cases with h | h <;> rw [h] <;> omega

/-- The byte of an element that an offset is, and the distance of the element. -/
theorem indexAt_add_inj {c : I8088} {index : Word} {k k' i i' : ℕ} (hi : i < op.size)
    (hi' : i' < op.size)
    (h : c.indexAt op.stride index k + BitVec.ofNat 16 i =
      c.indexAt op.stride index k' + BitVec.ofNat 16 i') :
    i = i' ∧ BitVec.ofNat 16 k * op.stride = BitVec.ofNat 16 k' * op.stride := by
  have hk := op.toNat_stride_mod k
  have hk' := op.toNat_stride_mod k'
  unfold I8088.indexAt at h
  generalize BitVec.ofNat 16 k * op.stride = p at *
  generalize BitVec.ofNat 16 k' * op.stride = p' at *
  have hlt := p.isLt
  have hlt' := p'.isLt
  have hx := index.isLt
  rw [← BitVec.toNat_inj] at h ⊢
  -- a word is at a multiple of two from the start, so only equal bytes meet
  rcases op.size_cases with hsize | hsize <;> rw [hsize] at hk hk' hi hi' <;> split at h <;>
    simp only [BitVec.toNat_add, BitVec.toNat_sub, BitVec.toNat_ofNat] at h <;> omega

/-- Two passes with a destination byte in common have the byte to store in common. -/
theorem byte_of_dest {m : Machine δ} {k k' i i' : ℕ} (hi : i < op.size) (hi' : i' < op.size)
    (h : op.dest m.cpu k i = op.dest m.cpu k' i') : op.byte m k i = op.byte m k' i' := by
  obtain ⟨rfl, hdistance⟩ := op.indexAt_add_inj hi hi' (linear_injective h)
  have hindex : m.cpu.indexAt op.stride m.cpu.si k = m.cpu.indexAt op.stride m.cpu.si k' := by
    unfold I8088.indexAt
    rw [hdistance]
  rw [byte, byte, source, source, hindex]

/-! ### The loop -/

/-- The machine behind a `MOVS` or `STOS` with a repeat prefix has what `Stores` describes. -/
theorem stores_after {m : Machine δ} (hwritable : op.Writable m) :
    op.Stores m (op.after m m.cpu.cx.toNat) where
  bytes k hk i hi := by
    refine Mem.stores_of_mem _ (hwritable k hk i hi) (fun w hw hwa => ?_)
      ⟨_, op.mem_writes.mpr ⟨k, hk, i, hi, rfl⟩, rfl⟩
    obtain ⟨j, hj, i', hi', rfl⟩ := op.mem_writes.mp hw
    exact op.byte_of_dest hi' hi hwa
  others a ha := by
    refine Mem.stores_of_not_mem _ fun w hw => ?_
    obtain ⟨j, hj, i', hi', rfl⟩ := op.mem_writes.mp hw
    exact (ha j hj i' hi').symm
  readonly := Mem.stores_readonly _
  cpu := by
    -- the counter has gone down to 0
    have hcx : BitVec.ofNat 16 m.cpu.cx.toNat = m.cpu.cx := by
      rw [BitVec.ofNat_toNat, BitVec.setWidth_eq]
    show m.cpu.passed op.stride op.moves m.cpu.cx.toNat = _
    unfold I8088.passed I8088.indexAt
    rw [hcx, BitVec.sub_self]
    rfl
  fe2010 := rfl
  dev := rfl
  log := rfl

/-- The case of an instruction in the switch. -/
theorem case_eq (io : Devices δ) (eaddr : Word) (fuel : ℕ) :
    i8088Case io eaddr fuel op.opcode = some (repeated op.body fuel) := by
  cases op <;> rfl

end StringStore

/-- **A repeated store of a string.** For every counter, direction and index, `REP MOVS` whose
source bytes are none of its destination bytes and `REP STOS`, on a destination that can be
written, leave in each destination byte the byte of the source, or of `ax`, change no other byte,
and end with `cx` 0 and the index registers behind the last element. Decoding has moved the
instruction pointer and latched the prefixes. -/
theorem rep_string_stores (io : Devices δ) (eaddr : Word) {m n : Machine δ} {fuel : ℕ}
    {op : StringStore} (hd : Dispatches m fuel op.opcode n) (hrep : n.cpu.repeatPrefix ≠ .none)
    (hfuel : 65536 ≤ fuel) (hapart : op.Apart n.cpu) (hwritable : op.Writable n) :
    Agree m n ∧ ∃ m', outcome (i8088Execute io eaddr fuel) m = (true, m') ∧ op.Stores n m' := by
  refine ⟨hd.agree, op.after n n.cpu.cx.toNat, ?_, op.stores_after hwritable⟩
  have hstart : (op.after n 0).cpu.repeatPrefix ≠ .none := hrep
  have hloop := outcome_repeated hstart (f := op.after n) (n := n.cpu.cx) (fun _ => rfl)
    (fun k hk => op.pass_after hapart hk) hfuel
  rw [hd.execute io eaddr, i8088Opcode, op.case_eq, Option.getD_some, ← hloop, op.after_zero]

/-- A `REP MOVSB` of two bytes from 0000:0000 to 0000:0010. -/
def movingTwoBytes : Machine Unit :=
  let m := machineWith [0xF3, 0xA4]
  { m with cpu := { m.cpu with cx := 2, di := 0x10 } }

theorem rep_string_stores_two :
    Agree movingTwoBytes (outcome (i8088Decode 2) movingTwoBytes).2 ∧
      ∃ m', outcome (i8088Execute Devices.none 0 65536) movingTwoBytes = (true, m') ∧
        StringStore.movsb.Stores (outcome (i8088Decode 2) movingTwoBytes).2 m' := by
  have hdecode : outcome (i8088Decode 2) movingTwoBytes =
      (some 0xA4, (outcome (i8088Decode 2) movingTwoBytes).2) := Prod.ext (by decide) rfl
  refine rep_string_stores Devices.none 0 ⟨rfl, i8088Decode_mono (by decide) hdecode⟩ (by decide)
    (Nat.le_refl _) ?_ ?_
  · unfold StringStore.Apart
    decide
  · exact fun _ _ _ _ => rfl

/-! ### A single word -/

/-- The two machines have the same memory and the same index registers. -/
structure SameTransfer (m m' : Machine δ) : Prop where
  mem : m'.mem = m.mem
  si : m'.cpu.si = m.cpu.si
  di : m'.cpu.di = m.cpu.di

/-- `MOVSW` does the same as `LODSW` and `STOSW`: the word at the destination is the one that the
source held. -/
structure MovesWord (m : Machine δ) : Prop where
  same : SameTransfer (outcome (do i8088Lodsw; i8088Stosw) m).2 (outcome i8088Movsw m).2
  word : (outcome i8088Movsw m).2.mem = m.mem.storeWord m.cpu.es m.cpu.di
    (m.mem.word (m.cpu.overridden m.cpu.ds) m.cpu.si)

/-- The first store changes the byte that is read behind it, and what is read is stored. -/
structure MovswOverlaps (m : Machine δ) : Prop where
  same : linear (m.cpu.overridden m.cpu.ds) (m.cpu.si + 1) = linear m.cpu.es m.cpu.di
  first : m.mem.Writable m.cpu.es m.cpu.di
  second : m.mem.Writable m.cpu.es (m.cpu.di + 1)
  differ : m.mem.m (linear (m.cpu.overridden m.cpu.ds) m.cpu.si) ≠
    m.mem.m (linear (m.cpu.overridden m.cpu.ds) (m.cpu.si + 1))

/-- The memory after `MOVSW`. -/
theorem mem_movsw (m : Machine δ) :
    (outcome (i8088Movsw : M δ Unit) m).2.mem =
      let mem := m.mem.store (linear m.cpu.es m.cpu.di)
        (m.mem.m (linear (m.cpu.overridden m.cpu.ds) m.cpu.si))
      mem.store (linear m.cpu.es (m.cpu.di + 1))
        (mem.m (linear (m.cpu.overridden m.cpu.ds) (m.cpu.si + 1))) := by
  simp [i8088Movsw, advanceBoth, eaddrRead8]

/-- What `LODSW` does: the bytes are read as the low bytes of two words. -/
theorem outcome_lodsw (m : Machine δ) :
    outcome (i8088Lodsw : M δ Unit) m = ((), { m with
      cpu := { m.cpu with
        ax := m.mem.word (m.cpu.overridden m.cpu.ds) m.cpu.si
        si := m.cpu.strideBy 2 m.cpu.si } }) := by
  have hover : ∀ ax, I8088.overridden { m.cpu with ax := ax } m.cpu.ds =
      m.cpu.overridden m.cpu.ds := fun _ => rfl
  simp [i8088Lodsw, advanceSi, eaddrRead16, I8088.setAl, I8088.setAh, I8088.al, Mem.word, hover]
  rfl

/-- The memory after `LODSW` and `STOSW`. -/
theorem mem_lodsw_stosw (m : Machine δ) :
    (outcome (do i8088Lodsw; i8088Stosw : M δ Unit) m).2.mem =
      m.mem.storeWord m.cpu.es m.cpu.di
        (m.mem.word (m.cpu.overridden m.cpu.ds) m.cpu.si) := by
  rw [outcome_bind, outcome_lodsw]
  simp [i8088Stosw, advanceDi, Mem.storeWord, I8088.al, I8088.ah]

/-- The index registers move alike. -/
theorem sameTransfer_iff_mem (m : Machine δ) :
    SameTransfer (outcome (do i8088Lodsw; i8088Stosw : M δ Unit) m).2
        (outcome (i8088Movsw : M δ Unit) m).2 ↔
      (outcome (i8088Movsw : M δ Unit) m).2.mem = m.mem.storeWord m.cpu.es m.cpu.di
        (m.mem.word (m.cpu.overridden m.cpu.ds) m.cpu.si) := by
  rw [← mem_lodsw_stosw]
  refine ⟨fun h => h.mem, fun h => ⟨h, ?_, ?_⟩⟩
  · rw [outcome_bind, outcome_lodsw]
    simp [i8088Stosw, i8088Movsw, advanceDi, advanceBoth, eaddrRead8]
  · rw [outcome_bind, outcome_lodsw]
    simp [i8088Stosw, i8088Movsw, advanceDi, advanceBoth, eaddrRead8, I8088.strideBy]

/-- Where the byte to store is the same, the memory is. -/
theorem store_inj_iff (mem : Mem) (a : BitVec 20) (v v' : Byte) :
    mem.store a v = mem.store a v' ↔ (mem.readonly (pageOf a) = false → v = v') := by
  constructor
  · intro h hwritable
    have hbyte := congrArg (fun mem : Mem => mem.m a) h
    rwa [mem.store_of_writable a v hwritable, mem.store_of_writable a v' hwritable] at hbyte
  · intro h
    by_cases hwritable : mem.readonly (pageOf a) = false
    · rw [h hwritable]
    · rw [Mem.store, Mem.store, if_neg hwritable, if_neg hwritable]

theorem movesWord_iff_mem (m : Machine δ) :
    MovesWord m ↔ (outcome (i8088Movsw : M δ Unit) m).2.mem = m.mem.storeWord m.cpu.es m.cpu.di
      (m.mem.word (m.cpu.overridden m.cpu.ds) m.cpu.si) :=
  ⟨fun h => h.word, fun h => ⟨(sameTransfer_iff_mem m).2 h, h⟩⟩

/-- **A single `MOVSW`** does the same to memory, `si` and `di` as a `LODSW` and a `STOSW`, and
stores the word of the source, if and only if the first byte it stores does not change the byte
it reads behind it, or what it reads is not stored. -/
theorem movsw_iff (m : Machine δ) : MovesWord m ↔ ¬MovswOverlaps m := by
  rw [movesWord_iff_mem, mem_movsw, Mem.storeWord, Mem.word, lowByte_wordOf, highByte_wordOf,
    store_inj_iff, Mem.store_eq_iff, Mem.store_readonly]
  constructor
  · intro h hover
    exact hover.differ (h hover.second hover.same hover.first)
  · intro h hsecond hsame hfirst
    by_contra hdiffer
    exact h ⟨hsame, hfirst, hsecond, hdiffer⟩

/-- A `MOVSW` of the bytes 0x11 and 0x22 to the address of the second. -/
def movingOverlap : Machine Unit :=
  let m := machineInit ()
  { m with
    cpu := { m.cpu with di := 1 }
    mem := (m.mem.set 0 0x11).set 1 0x22 }

/-- The first byte is stored twice. -/
theorem movsw_overlap : ¬ ∀ m : Machine Unit, MovesWord m := by
  intro h
  have hword := (movesWord_iff_mem _).1 (h movingOverlap)
  rw [mem_movsw] at hword
  have hbyte := congrArg (fun mem : Mem => mem.m 2) hword
  exact absurd hbyte (by decide)

end Pc20iii
