import Pc20iii.I8088.Entry
import Pc20iii.I8088.Execute

/-!
# The targets of indirect far transfers

Where an indirect far `CALL` or `JMP` and an interrupt go: to the pointer that was in memory
before, unless what is pushed lies over the pointer.

A pointer and the stack are in different segments as a rule, so that they can have bytes in
common at different offsets. `Mem.storeBytes_eq_iff` says what a push does to a byte of memory.
The jump reads the whole pointer and pushes nothing. The call reads the offset before it pushes
the return address, and the segment afterwards; an interrupt reads the whole vector when its
frame has been pushed (`Target.Late`).
-/

namespace Pc20iii

open StateProgram

variable {δ : Type}

/-! ### Bytes in a segment -/

/-- Writes of bytes from an offset of a segment on. -/
def Mem.storeBytes (mem : Mem) (segment offset : Word) : List Byte → Mem
  | [] => mem
  | v :: vs => (mem.store (linear segment offset) v).storeBytes segment (offset + 1) vs

/-- The writes leave the byte at `a` as it is: where one of them stores, the byte is there. -/
def Mem.Spares (mem : Mem) (segment offset : Word) (bytes : List Byte) (a : BitVec 20) : Prop :=
  ∀ k < bytes.length, a = linear segment (offset + BitVec.ofNat 16 k) →
    mem.readonly (pageOf a) = false → bytes[k]? = some (mem.m a)

instance (mem : Mem) (segment offset : Word) (bytes : List Byte) (a : BitVec 20) :
    Decidable (mem.Spares segment offset bytes a) :=
  inferInstanceAs (Decidable (∀ k < _, _))

namespace Mem

variable {mem : Mem} {segment offset : Word} {bytes : List Byte} {a : BitVec 20}

theorem offset_succ (k : ℕ) :
    offset + 1 + BitVec.ofNat 16 k = offset + BitVec.ofNat 16 (k + 1) := by
  bv_omega

/-- Bytes at other addresses keep their values. -/
theorem storeBytes_of_ne
    (h : ∀ k < bytes.length, a ≠ linear segment (offset + BitVec.ofNat 16 k)) :
    (mem.storeBytes segment offset bytes).m a = mem.m a := by
  induction bytes generalizing mem offset with
  | nil => rfl
  | cons v vs ih =>
    -- the address is none of the later ones, and not the first one
    have hfirst : a ≠ linear segment offset := by
      have h₀ := h 0 (Nat.succ_pos _)
      rwa [BitVec.add_zero] at h₀
    have hrest : ∀ k < vs.length, a ≠ linear segment (offset + 1 + BitVec.ofNat 16 k) := by
      intro k hk
      rw [offset_succ]
      exact h (k + 1) (Nat.succ_lt_succ hk)
    rw [storeBytes, ih hrest, store_of_ne _ _ _ _ hfirst]

/-- Only the first write is to the first byte. -/
theorem spares_cons_self {v : Byte} {vs : List Byte}
    (hrest : ∀ k < vs.length, a ≠ linear segment (offset + 1 + BitVec.ofNat 16 k)) :
    mem.Spares segment offset (v :: vs) a ↔
      (a = linear segment offset → mem.readonly (pageOf a) = false → v = mem.m a) := by
  constructor
  · intro h ha hwritable
    have h₀ := h 0 (Nat.succ_pos _) (by rwa [BitVec.add_zero]) hwritable
    exact Option.some.inj h₀
  · intro h k hk ha hwritable
    -- a later write is to another byte
    cases k with
    | zero =>
      rw [BitVec.add_zero] at ha
      exact congrArg some (h ha hwritable)
    | succ k =>
      rw [← offset_succ] at ha
      exact absurd ha (hrest k (Nat.lt_of_succ_lt_succ hk))

/-- The first write is to another byte. -/
theorem spares_cons_of_ne {v : Byte} {vs : List Byte} (hfirst : a ≠ linear segment offset) :
    mem.Spares segment offset (v :: vs) a ↔
      (mem.store (linear segment offset) v).Spares segment (offset + 1) vs a := by
  rw [Spares, Spares, store_readonly, store_of_ne _ _ _ _ hfirst]
  constructor
  · intro h k hk ha hwritable
    rw [offset_succ] at ha
    exact h (k + 1) (Nat.succ_lt_succ hk) ha hwritable
  · intro h k hk ha hwritable
    cases k with
    | zero =>
      rw [BitVec.add_zero] at ha
      exact absurd ha hfirst
    | succ k =>
      rw [← offset_succ] at ha
      exact h k (Nat.lt_of_succ_lt_succ hk) ha hwritable

/-- A byte is as before exactly if the writes spare it; no two of them are to one byte. -/
theorem storeBytes_eq_iff (hlength : bytes.length ≤ 2 ^ 16) :
    (mem.storeBytes segment offset bytes).m a = mem.m a ↔ mem.Spares segment offset bytes a := by
  induction bytes generalizing mem offset with
  | nil => exact iff_of_true rfl fun k hk => absurd hk (Nat.not_lt_zero k)
  | cons v vs ih =>
    rw [List.length_cons] at hlength
    by_cases hfirst : a = linear segment offset
    -- 65536 bytes fit before the offset comes round
    · have hrest : ∀ k < vs.length, a ≠ linear segment (offset + 1 + BitVec.ofNat 16 k) := by
        intro k hk ha
        have hoffset := linear_injective (hfirst.symm.trans ha)
        bv_omega
      rw [storeBytes, storeBytes_of_ne hrest, store_eq_iff, spares_cons_self hrest, hfirst]
    · have hkeeps := mem.store_of_ne _ _ v hfirst
      rw [storeBytes, ← hkeeps, ih (by omega), spares_cons_of_ne hfirst]

end Mem

/-! ### Pushes as writes of bytes -/

/-- The return address of a far call, from the stack pointer up. -/
def I8088.farBytes (c : I8088) : List Byte :=
  [lowByte c.ip, highByte c.ip, lowByte c.cs, highByte c.cs]

/-- The frame of an interrupt, from the stack pointer up. -/
def I8088.frameBytes (c : I8088) : List Byte :=
  c.farBytes ++ [lowByte c.flags.toWord, highByte c.flags.toWord]

theorem pushedFar_mem (m : Machine δ) :
    (m.pushedFar m.cpu.ip m.cpu.cs).mem =
      m.mem.storeBytes m.cpu.ss (m.cpu.sp - 4) m.cpu.farBytes := by
  have hcs : m.cpu.sp - 2 = m.cpu.sp - 4 + 1 + 1 := by bv_omega
  rw [Machine.pushedFar, hcs]
  rfl

theorem frame_eq_storeBytes (m : Machine δ) :
    m.frame = m.mem.storeBytes m.cpu.ss (m.cpu.sp - 6) m.cpu.frameBytes := by
  have hcs : m.cpu.sp - 6 + 2 = m.cpu.sp - 6 + 1 + 1 := by bv_omega
  have hflags : m.cpu.sp - 6 + 4 = m.cpu.sp - 6 + 1 + 1 + 1 + 1 := by bv_omega
  rw [Machine.frame, hcs, hflags]
  rfl

/-! ### Pointers -/

/-- A far pointer that the CPU goes to. -/
inductive Target where
  /-- The operand of an indirect far `CALL`. -/
  | call (segment offset : Word)
  /-- The operand of an indirect far `JMP`. -/
  | jump (segment offset : Word)
  /-- The vector of an interrupt. -/
  | vector (intNo : Byte)

namespace Target

/-- The address of byte `k` of the pointer. -/
def place : Target → Fin 4 → BitVec 20
  | call segment offset, k => linear segment (offset + BitVec.ofNat 16 k)
  | jump segment offset, k => linear segment (offset + BitVec.ofNat 16 k)
  | vector intNo, k => (vectorAddress intNo (BitVec.ofNat 32 k)).setWidth 20

/-- Byte `k` of the pointer is read after the pushes. -/
def Late : Target → Fin 4 → Prop
  | call .., k => 2 ≤ k
  | jump .., _ => False
  | vector _, _ => True

instance (t : Target) (k : Fin 4) : Decidable (t.Late k) :=
  match t with
  | call .. => inferInstanceAs (Decidable (2 ≤ k))
  | jump .. => inferInstanceAs (Decidable False)
  | vector _ => inferInstanceAs (Decidable True)

/-- What is pushed, from the new stack pointer up. -/
def pushes (c : I8088) : Target → List Byte
  | call .. => c.farBytes
  | jump .. => []
  | vector _ => c.frameBytes

/-- The memory that byte `k` of the pointer is read from, with the pushes of the state. -/
def readFrom (t : Target) (e : Machine δ) (k : Fin 4) : Mem :=
  if t.Late k then
    e.mem.storeBytes e.cpu.ss (e.cpu.sp - BitVec.ofNat 16 (t.pushes e.cpu).length)
      (t.pushes e.cpu)
  else
    e.mem

end Target

/-- The CPU is at the address that the pointer held in `m`. -/
structure Reaches (m : Machine δ) (t : Target) (m' : Machine δ) : Prop where
  ip : m'.cpu.ip = wordOf (m.mem.m (t.place 0)) (m.mem.m (t.place 1))
  cs : m'.cpu.cs = wordOf (m.mem.m (t.place 2)) (m.mem.m (t.place 3))

/-- What is pushed in `m` changes a byte of the pointer that is read afterwards. -/
def Overwrites (m : Machine δ) (t : Target) : Prop :=
  ∃ k, t.Late k ∧
    ¬m.mem.Spares m.cpu.ss (m.cpu.sp - BitVec.ofNat 16 (t.pushes m.cpu).length)
      (t.pushes m.cpu) (t.place k)

instance (m : Machine δ) (t : Target) : Decidable (Overwrites m t) :=
  inferInstanceAs (Decidable (∃ _ : Fin 4, _ ∧ ¬_))

instance (m : Machine δ) (t : Target) (m' : Machine δ) : Decidable (Reaches m t m') :=
  decidable_of_iff (_ ∧ _) ⟨fun h => ⟨h.1, h.2⟩, fun h => ⟨h.ip, h.cs⟩⟩

/-- A far transfer through a pointer in `m`: an indirect far `CALL` or `JMP` with an operand in
memory, or the entry of an interrupt, by an instruction or by a request of the hardware. The
instruction has been consumed in `e`, and the transfer leads to `m'`. -/
inductive Transfers (io : Devices δ) (m : Machine δ) : Target → Machine δ → Machine δ → Prop
  | call {fuel : ℕ} {n : Machine δ} {segment offset : Word} (eaddr : Word)
      (hd : Dispatches m fuel 0xFF n) (hfield : modrmReg (n.code 0) = 3)
      (hrm : n.rm = .mem segment offset) :
      Transfers io m (.call segment offset) (n.skip n.rmLength)
        (outcome (i8088Execute io eaddr fuel) m).2
  | jump {fuel : ℕ} {n : Machine δ} {segment offset : Word} (eaddr : Word)
      (hd : Dispatches m fuel 0xFF n) (hfield : modrmReg (n.code 0) = 5)
      (hrm : n.rm = .mem segment offset) :
      Transfers io m (.jump segment offset) (n.skip n.rmLength)
        (outcome (i8088Execute io eaddr fuel) m).2
  | software {fuel : ℕ} {opcode intNo : Byte} {length : Word} {n : Machine δ} (eaddr : Word)
      (hd : Dispatches m fuel opcode n) (h : Interrupts n opcode intNo length) :
      Transfers io m (.vector intNo) (n.skip length) (outcome (i8088Execute io eaddr fuel) m).2
  | hardware (irqNo : Fin 8) (hi : m.cpu.flags.i = true) :
      Transfers io m (.vector (irqInt irqNo)) (m.accepting irqNo)
        (outcome (i8088Irq irqNo) m).2

/-! ### The reads -/

/-- The operand of a ModRM byte at another offset is in the same segment. -/
theorem operandAt_mem {c : I8088} {modrm : Byte} {offset segment offset₀ : Word}
    (h : c.operandAt modrm offset₀ = .mem segment offset) (offset' : Word) :
    c.operandAt modrm offset' = .mem segment offset' ∧ offset₀ = offset := by
  unfold I8088.operandAt at h ⊢
  split at h
  · cases h
  · next hmod =>
    obtain ⟨hsegment, hoffset⟩ := Operand.mem.inj h
    rw [if_neg hmod, hsegment]
    exact ⟨rfl, hoffset⟩

/-- A far call is a far jump behind the push of the return address. -/
theorem callFar_eq (modrm : Byte) (value : Word × Word) :
    (callFar modrm value : M δ Unit) = (do
      let c ← getCpu
      pushFar c.ip c.cs
      jmpFar modrm value) := rfl

section Far

variable {n : Machine δ} {segment offset : Word} (hrm : n.rm = .mem segment offset)

include hrm

/-- The second word of the pointer is read in the state that the jump begins in. -/
theorem outcome_jmpFar {m : Machine δ} (hm : SameSegments n.cpu m.cpu) (ip : Word) :
    outcome (jmpFar (n.code 0) (ip, offset)) m =
      ((), m.jumpFar (m.mem.word segment (offset + 2)) ip) := by
  have hsegments : SameSegments n.cpu (m.jump ip).cpu :=
    ⟨hm.es, hm.cs, hm.ss, hm.ds, hm.segmentOverride⟩
  have hoperand := (operandAt_mem (c := n.cpu) hrm (offset + 2)).1
  -- the new IP is not part of where the operand is
  have hread : outcome (modrmGetRmEaddr16 (n.code 0) (offset + 2)) (m.jump ip) =
      (m.mem.word segment (offset + 2), m.jump ip) := by
    rw [outcome_modrmGetRmEaddr16, hsegments.operandAt, hoperand]
    rfl
  rw [jmpFar, outcome_bind, outcome_modifyCpu, outcome_bind]
  show outcome (modifyCpu fun c =>
      { c with cs := (outcome (modrmGetRmEaddr16 (n.code 0) (offset + 2)) (m.jump ip)).1 })
    (outcome (modrmGetRmEaddr16 (n.code 0) (offset + 2)) (m.jump ip)).2 = _
  rw [hread]
  rfl

/-- An indirect far `CALL` reads IP, pushes CS and IP, and reads CS then. -/
theorem outcome_i8088OpcodeFf_callFar (eaddr : Word) (h : modrmReg (n.code 0) = 3) :
    outcome (i8088OpcodeFf eaddr) n =
      ((), ((n.skip n.rmLength).pushedFar (n.cpu.ip + n.rmLength) n.cpu.cs).jumpFar
        (((n.skip n.rmLength).pushedFar (n.cpu.ip + n.rmLength) n.cpu.cs).mem.word segment
          (offset + 2)) (n.mem.word segment offset)) := by
  have hoperand : (n.skip 1).operand (n.code 0) = .mem segment offset := hrm
  simp only [i8088OpcodeFf, outcome_bind, outcome_fetch, outcome_modrmGetRm16, skip_skip]
  rw [h, hoperand]
  -- the pushes come between the two reads
  show outcome (callFar (n.code 0) (n.mem.word segment offset, offset)) (n.skip n.rmLength) = _
  rw [callFar_eq, outcome_bind, outcome_getCpu, outcome_bind, outcome_pushFar]
  exact outcome_jmpFar hrm
    (m := (n.skip n.rmLength).pushedFar (n.cpu.ip + n.rmLength) n.cpu.cs)
    ⟨rfl, rfl, rfl, rfl, rfl⟩ _

theorem outcome_i8088OpcodeFf_jmpFar (eaddr : Word) (h : modrmReg (n.code 0) = 5) :
    outcome (i8088OpcodeFf eaddr) n =
      ((), (n.skip n.rmLength).jumpFar (n.mem.word segment (offset + 2))
        (n.mem.word segment offset)) := by
  have hoperand : (n.skip 1).operand (n.code 0) = .mem segment offset := hrm
  simp only [i8088OpcodeFf, outcome_bind, outcome_fetch, outcome_modrmGetRm16, skip_skip]
  rw [h, hoperand]
  exact outcome_jmpFar hrm (m := n.skip n.rmLength) ⟨rfl, rfl, rfl, rfl, rfl⟩ _

end Far

/-! ### The rule -/

theorem wordOf_inj {lo hi lo' hi' : Byte} :
    wordOf lo hi = wordOf lo' hi' ↔ lo = lo' ∧ hi = hi' := by
  constructor
  · intro h
    have hlo := congrArg lowByte h
    have hhi := congrArg highByte h
    rw [lowByte_wordOf, lowByte_wordOf] at hlo
    rw [highByte_wordOf, highByte_wordOf] at hhi
    exact ⟨hlo, hhi⟩
  · rintro ⟨rfl, rfl⟩
    rfl

/-- The words of a pointer in a segment. -/
theorem word_pointer (mem : Mem) (segment offset : Word) :
    mem.word segment offset = wordOf (mem.m (linear segment (offset + BitVec.ofNat 16 0)))
        (mem.m (linear segment (offset + BitVec.ofNat 16 1))) ∧
      mem.word segment (offset + 2) = wordOf (mem.m (linear segment (offset + BitVec.ofNat 16 2)))
        (mem.m (linear segment (offset + BitVec.ofNat 16 3))) := by
  have hthree : offset + 2 + 1 = offset + BitVec.ofNat 16 3 := by bv_omega
  rw [Mem.word, Mem.word, hthree, BitVec.add_zero]
  exact ⟨rfl, rfl⟩

theorem readFrom_vector (intNo : Byte) (e : Machine δ) (k : Fin 4) :
    (Target.vector intNo).readFrom e k = e.frame := by
  rw [frame_eq_storeBytes]
  exact if_pos trivial

theorem readFrom_call_early {segment offset : Word} {k : Fin 4} (hk : k < 2) (e : Machine δ) :
    (Target.call segment offset).readFrom e k = e.mem :=
  if_neg (Fin.not_le.mpr hk)

theorem readFrom_call_late {segment offset : Word} {k : Fin 4} (hk : 2 ≤ k) (e : Machine δ) :
    (Target.call segment offset).readFrom e k = (e.pushedFar e.cpu.ip e.cpu.cs).mem := by
  rw [pushedFar_mem]
  exact if_pos hk

/-- The bytes of the pointer are read from the memory without the pushes or with them. -/
theorem Transfers.reads {io : Devices δ} {m e m' : Machine δ} {t : Target}
    (h : Transfers io m t e m') :
    e.mem = m.mem ∧
      m'.cpu.ip = wordOf ((t.readFrom e 0).m (t.place 0)) ((t.readFrom e 1).m (t.place 1)) ∧
      m'.cpu.cs = wordOf ((t.readFrom e 2).m (t.place 2)) ((t.readFrom e 3).m (t.place 3)) := by
  cases h with
  -- of a `CALL` the upper two bytes are read behind the pushes
  | call eaddr hd hfield hrm =>
    rw [hd.execute io eaddr,
      outcome_i8088Opcode rfl (outcome_i8088OpcodeFf_callFar hrm eaddr hfield),
      readFrom_call_early (by decide), readFrom_call_early (by decide),
      readFrom_call_late (by decide), readFrom_call_late (by decide)]
    exact ⟨hd.agree.mem, (word_pointer ..).1, (word_pointer ..).2⟩
  | jump eaddr hd hfield hrm =>
    rw [hd.execute io eaddr,
      outcome_i8088Opcode rfl (outcome_i8088OpcodeFf_jmpFar hrm eaddr hfield)]
    exact ⟨hd.agree.mem, word_pointer ..⟩
  | software eaddr hd h =>
    rw [hd.execute io eaddr, h.effect]
    simp only [readFrom_vector]
    exact ⟨hd.agree.mem, rfl, rfl⟩
  | hardware irqNo hi =>
    rw [outcome_i8088Irq_of_set hi]
    simp only [readFrom_vector]
    exact ⟨rfl, rfl, rfl⟩

/-- Byte `k` of the pointer is read as it was before, exactly if it is not overwritten. -/
theorem readFrom_eq_iff (t : Target) (e : Machine δ) (k : Fin 4) :
    (t.readFrom e k).m (t.place k) = e.mem.m (t.place k) ↔
      (t.Late k → e.mem.Spares e.cpu.ss
        (e.cpu.sp - BitVec.ofNat 16 (t.pushes e.cpu).length) (t.pushes e.cpu) (t.place k)) := by
  have hlength : (t.pushes e.cpu).length ≤ 2 ^ 16 := by
    cases t <;> exact of_decide_eq_true rfl
  unfold Target.readFrom
  by_cases hlate : t.Late k
  · rw [if_pos hlate, Mem.storeBytes_eq_iff hlength, imp_iff_right hlate]
  · rw [if_neg hlate]
    exact iff_of_true rfl fun h => absurd h hlate

/-- **The target of a far transfer** through a pointer, an indirect far `CALL` or `JMP` or the
entry of an interrupt, is what the pointer held before, if and only if nothing that is pushed
changes a byte of the pointer that is read afterwards. -/
theorem target_kept_iff {io : Devices δ} {m e m' : Machine δ} {t : Target}
    (h : Transfers io m t e m') : Reaches m t m' ↔ ¬Overwrites e t := by
  obtain ⟨hmem, hip, hcs⟩ := h.reads
  have hreaches : Reaches m t m' ↔
      ∀ k : Fin 4, (t.readFrom e k).m (t.place k) = e.mem.m (t.place k) := by
    rw [hmem]
    constructor
    · rintro ⟨hip', hcs'⟩ k
      obtain ⟨h₀, h₁⟩ := wordOf_inj.mp (hip.symm.trans hip')
      obtain ⟨h₂, h₃⟩ := wordOf_inj.mp (hcs.symm.trans hcs')
      match k with
      | 0 => exact h₀
      | 1 => exact h₁
      | 2 => exact h₂
      | 3 => exact h₃
    · intro hbytes
      exact ⟨hip.trans (wordOf_inj.mpr ⟨hbytes 0, hbytes 1⟩),
        hcs.trans (wordOf_inj.mpr ⟨hbytes 2, hbytes 3⟩)⟩
  -- a byte that is read from another memory has another value, or none of it is pushed
  rw [hreaches, Overwrites, not_exists]
  exact forall_congr' fun k => by rw [readFrom_eq_iff, not_and_not_right]

/-- `CALL FAR [0006]` with the pointer 1234:0100 behind it, all in the code segment, and a
stack pointer in the same segment. -/
def machineCalling (sp : Word) : Machine Unit :=
  let m := machineWith [0xFF, 0x1E, 0x06, 0x00, 0x90, 0x90, 0x00, 0x01, 0x34, 0x12]
  { m with cpu := { m.cpu with ss := 0xFFFF, ds := 0xFFFF, sp := sp } }

/-- The stack is far from the pointer. -/
theorem target_kept_far :
    Reaches (machineCalling 0x80) (.call 0xFFFF 6)
      (outcome (i8088Execute Devices.none 0 2) (machineCalling 0x80)).2 := by
  have hd : Dispatches (machineCalling 0x80) 2 0xFF
      (outcome (i8088Decode 2) (machineCalling 0x80)).2 := ⟨rfl, Prod.ext (by decide) rfl⟩
  exact (target_kept_iff (.call 0 hd (by decide) (by decide))).mpr (by decide)

/-- `INT 3` with a stack pointer in the segment of the vectors. -/
def machineTrapping (sp : Word) : Machine Unit :=
  let m := machineWith [0xCC]
  { m with cpu := { m.cpu with sp := sp } }

/-- The stack pointer is behind the pointer, so that `cs` is pushed over the segment before that
is read, and behind the vector, so that all of it is read when it has been overwritten. -/
theorem target_lost :
    (∃ e, Transfers Devices.none (machineCalling 10) (.call 0xFFFF 6) e
        (outcome (i8088Execute Devices.none 0 2) (machineCalling 10)).2 ∧
      ¬Reaches (machineCalling 10) (.call 0xFFFF 6)
        (outcome (i8088Execute Devices.none 0 2) (machineCalling 10)).2) ∧
    ∃ e, Transfers Devices.none (machineTrapping 18) (.vector 3) e
        (outcome (i8088Execute Devices.none 0 2) (machineTrapping 18)).2 ∧
      ¬Reaches (machineTrapping 18) (.vector 3)
        (outcome (i8088Execute Devices.none 0 2) (machineTrapping 18)).2 := by
  -- the bytes that are lost are shown by evaluation
  have hcall : Dispatches (machineCalling 10) 2 0xFF
      (outcome (i8088Decode 2) (machineCalling 10)).2 := ⟨rfl, Prod.ext (by decide) rfl⟩
  have htrap : Dispatches (machineTrapping 18) 2 0xCC
      (outcome (i8088Decode 2) (machineTrapping 18)).2 := ⟨rfl, Prod.ext (by decide) rfl⟩
  exact ⟨⟨_, .call 0 hcall (by decide) (by decide), by decide⟩,
    ⟨_, .software 0 htrap .int3, by decide⟩⟩

end Pc20iii
