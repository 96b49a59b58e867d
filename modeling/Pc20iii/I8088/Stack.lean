import Pc20iii.I8088.Prefix

/-!
# The stack: calls and returns

Pushes and pops as stores and loads of words below SS:SP, which wraps in the stack segment,
and the round trip of every call with its return (`call_return`).

A call pushes the address behind it (`Calls`), and the return finds it there because the
offsets of one segment are distinct bytes, wherever the segment lies and wherever SP wraps.
-/

namespace Pc20iii

open StateProgram

variable {δ : Type}

/-! ### Pushes -/

/-- One of the `size` bytes below the stack pointer. -/
def I8088.Below (c : I8088) (size : ℕ) (a : BitVec 20) : Prop :=
  ∃ k < size, a = linear c.ss (c.sp - BitVec.ofNat 16 (k + 1))

/-- The `size` bytes below the stack pointer can be written. -/
def Machine.StackWritable (m : Machine δ) (size : ℕ) : Prop :=
  ∀ k < size, m.mem.Writable m.cpu.ss (m.cpu.sp - BitVec.ofNat 16 (k + 1))

theorem Agree.stackWritable {m e : Machine δ} (h : Agree m e) {size : ℕ}
    (hm : m.StackWritable size) : e.StackWritable size := by
  have hss : e.cpu.ss = m.cpu.ss := by rw [h.cpu]
  have hsp : e.cpu.sp = m.cpu.sp := by rw [h.cpu]
  intro k hk
  rw [h.mem, hss, hsp]
  exact hm k hk

theorem Agree.below {m e : Machine δ} (h : Agree m e) {size : ℕ} {a : BitVec 20} :
    e.cpu.Below size a ↔ m.cpu.Below size a := by
  rw [h.cpu]
  rfl

/-- The machine after a push. -/
def Machine.pushed (m : Machine δ) (value : Word) : Machine δ :=
  { m with
    mem := m.mem.storeWord m.cpu.ss (m.cpu.sp - 2) value
    cpu := { m.cpu with sp := m.cpu.sp - 2 } }

/-- The machine after the push of a far address. -/
def Machine.pushedFar (m : Machine δ) (ip cs : Word) : Machine δ :=
  { m with
    mem := (m.mem.storeWord m.cpu.ss (m.cpu.sp - 4) ip).storeWord m.cpu.ss (m.cpu.sp - 2) cs
    cpu := { m.cpu with sp := m.cpu.sp - 4 } }

section Push

variable (m : Machine δ) {a : BitVec 20}

@[simp] theorem outcome_pushWord (value : Word) :
    outcome (pushWord value) m = ((), m.pushed value) := by
  simp [pushWord, Machine.pushed, Mem.storeWord]

@[simp] theorem outcome_pushFar (ip cs : Word) :
    outcome (pushFar ip cs) m = ((), m.pushedFar ip cs) := by
  have hcs : m.cpu.sp - 4 + 2 = m.cpu.sp - 2 := by bv_omega
  have hcs' : m.cpu.sp - 4 + 3 = m.cpu.sp - 2 + 1 := by bv_omega
  simp only [pushFar, outcome_bind, outcome_modifyCpu, outcome_getCpu,
    outcome_memWriteBySegment, hcs, hcs']
  rfl

@[simp] theorem outcome_stackWord (offset : Word) :
    outcome (stackWord offset) m = (m.mem.word m.cpu.ss (m.cpu.sp + offset), m) := by
  simp [stackWord, Mem.word]

/-- A word below the stack pointer is in bytes below the stack pointer. -/
theorem storeWord_outside {c : I8088} {size : ℕ} (h : ¬ c.Below size a) (mem : Mem) (value : Word)
    {k : ℕ} (hk : k + 2 ≤ size) :
    (mem.storeWord c.ss (c.sp - BitVec.ofNat 16 (k + 2)) value).m a = mem.m a := by
  have hhigh : c.sp - BitVec.ofNat 16 (k + 2) + 1 = c.sp - BitVec.ofNat 16 (k + 1) := by bv_omega
  refine mem.storeWord_of_ne (fun h₀ => h ⟨k + 1, by omega, h₀⟩) (fun h₁ => h ⟨k, by omega, ?_⟩)
  rw [h₁, hhigh]

/-- A word stored below the stack pointer is read back. -/
theorem word_storeWord_below {mem : Mem} {c : I8088} {size : ℕ}
    (h : ∀ k < size, mem.Writable c.ss (c.sp - BitVec.ofNat 16 (k + 1))) (value : Word)
    {k : ℕ} (hk : k + 2 ≤ size) :
    (mem.storeWord c.ss (c.sp - BitVec.ofNat 16 (k + 2)) value).word c.ss
      (c.sp - BitVec.ofNat 16 (k + 2)) = value := by
  have hlow := h (k + 1) (by omega)
  have hhigh := h k (by omega)
  have hnext : c.sp - BitVec.ofNat 16 (k + 2) + 1 = c.sp - BitVec.ofNat 16 (k + 1) := by bv_omega
  exact mem.word_storeWord hlow (by rwa [hnext])

/-- The words below the stack pointer are read from the bytes below it. -/
theorem word_below_congr {mem mem' : Mem} {c : I8088} {size : ℕ}
    (h : ∀ a, c.Below size a → mem'.m a = mem.m a) {k : ℕ} (hk : k + 2 ≤ size) :
    mem'.word c.ss (c.sp - BitVec.ofNat 16 (k + 2)) =
      mem.word c.ss (c.sp - BitVec.ofNat 16 (k + 2)) := by
  have hnext : c.sp - BitVec.ofNat 16 (k + 2) + 1 = c.sp - BitVec.ofNat 16 (k + 1) := by bv_omega
  rw [Mem.word, Mem.word, hnext, h _ ⟨k + 1, by omega, rfl⟩, h _ ⟨k, by omega, rfl⟩]

theorem pushed_outside (h : ¬ m.cpu.Below 2 a) (value : Word) :
    (m.pushed value).mem.m a = m.mem.m a :=
  storeWord_outside (k := 0) h m.mem value le_rfl

theorem pushedFar_outside (h : ¬ m.cpu.Below 4 a) (ip cs : Word) :
    (m.pushedFar ip cs).mem.m a = m.mem.m a :=
  (storeWord_outside (k := 0) h _ cs (by omega)).trans
    (storeWord_outside (k := 2) h m.mem ip le_rfl)

variable {m}

theorem pushed_word (h : m.StackWritable 2) (value : Word) :
    (m.pushed value).mem.word m.cpu.ss (m.cpu.sp - 2) = value :=
  word_storeWord_below (k := 0) h value le_rfl

theorem pushedFar_cs (h : m.StackWritable 4) (ip cs : Word) :
    (m.pushedFar ip cs).mem.word m.cpu.ss (m.cpu.sp - 2) = cs :=
  word_storeWord_below (k := 0) (fun k hk => (Mem.storeWord_writable _).mpr (h k hk)) cs (by omega)

theorem pushedFar_ip (h : m.StackWritable 4) (ip cs : Word) :
    (m.pushedFar ip cs).mem.word m.cpu.ss (m.cpu.sp - 4) = ip := by
  rw [Machine.pushedFar, Mem.word_storeWord_of_apart _ (by bv_omega) (by bv_omega) (by bv_omega)]
  exact word_storeWord_below (k := 2) h ip le_rfl

end Push

theorem Agree.withStack {m e : Machine δ} (h : Agree m e) (mem : Mem) (k : Word) :
    Agree { m with mem := mem, cpu := { m.cpu with sp := m.cpu.sp + k } }
      { e with mem := mem, cpu := { e.cpu with sp := e.cpu.sp + k } } where
  cpu := by rw [h.cpu]
  mem := rfl
  fe2010 := h.fe2010
  dev := h.dev

/-! ### Calls -/

/-- The assignment of the instruction pointer. -/
def Machine.jump (m : Machine δ) (ip : Word) : Machine δ :=
  { m with cpu := { m.cpu with ip := ip } }

/-- The assignment of the code segment and the instruction pointer. -/
def Machine.jumpFar (m : Machine δ) (cs ip : Word) : Machine δ :=
  { m with cpu := { m.cpu with cs := cs, ip := ip } }

/-- One call of `i8088_execute` in `m` executes a `CALL`, far or near. The instruction has been
consumed in `e`, and the call leads to `m'`. -/
inductive Calls (io : Devices δ) (m : Machine δ) : Bool → Machine δ → Machine δ → Prop
  | near {fuel : ℕ} {n : Machine δ} (eaddr : Word) (hd : Dispatches m fuel 0xE8 n) :
      Calls io m false (n.skip 2) (outcome (i8088Execute io eaddr fuel) m).2
  | nearRm {fuel : ℕ} {n : Machine δ} (eaddr : Word) (hd : Dispatches m fuel 0xFF n)
      (hfield : modrmReg (n.code 0) = 2) :
      Calls io m false (n.skip n.rmLength) (outcome (i8088Execute io eaddr fuel) m).2
  | far {fuel : ℕ} {n : Machine δ} (eaddr : Word) (hd : Dispatches m fuel 0x9A n) :
      Calls io m true (n.skip 4) (outcome (i8088Execute io eaddr fuel) m).2
  | farRm {fuel : ℕ} {n : Machine δ} (eaddr : Word) (hd : Dispatches m fuel 0xFF n)
      (hfield : modrmReg (n.code 0) = 3) :
      Calls io m true (n.skip n.rmLength) (outcome (i8088Execute io eaddr fuel) m).2

/-- In `n`, where an opcode has just been consumed, the opcode is that of a return, far or
near, that pops so many bytes behind the return address. -/
inductive Returns (n : Machine δ) : Bool → Byte → Word → Prop
  | near : Returns n false 0xC3 0
  | nearPop : Returns n false 0xC2 (n.codeWord 0)
  | far : Returns n true 0xCB 0
  | farPop : Returns n true 0xCA (n.codeWord 0)

theorem outcome_i8088OpcodeFf_near {n : Machine δ} (eaddr : Word)
    (h : modrmReg (n.code 0) = 2) :
    outcome (i8088OpcodeFf eaddr) n =
      ((), ((n.skip n.rmLength).pushed (n.cpu.ip + n.rmLength)).jump (n.rm.get16 n)) := by
  simp only [i8088OpcodeFf, outcome_bind, outcome_fetch, outcome_modrmGetRm16]
  rw [h]
  simp [callNear, Machine.rm, Machine.rmLength, Machine.jump]

/-- The segment of an indirect far call is read when the return address has been pushed. -/
theorem outcome_callFar (n : Machine δ) (modrm : Byte) (value : Word × Word) :
    ∃ cs, outcome (callFar modrm value) n =
      ((), (n.pushedFar n.cpu.ip n.cpu.cs).jumpFar cs value.1) := by
  simp only [callFar, outcome_bind, outcome_getCpu, outcome_pushFar, outcome_modifyCpu,
    outcome_modrmGetRmEaddr16]
  exact ⟨_, rfl⟩

theorem outcome_i8088OpcodeFf_far {n : Machine δ} (eaddr : Word)
    (h : modrmReg (n.code 0) = 3) :
    ∃ cs ip, outcome (i8088OpcodeFf eaddr) n =
      ((), ((n.skip n.rmLength).pushedFar (n.cpu.ip + n.rmLength) n.cpu.cs).jumpFar cs ip) := by
  simp only [i8088OpcodeFf, outcome_bind, outcome_fetch, outcome_modrmGetRm16, skip_skip]
  rw [h]
  obtain ⟨cs, hcall⟩ := outcome_callFar (n.skip n.rmLength) (n.code 0)
    (n.rm.get16 (n.skip 1), n.rm.saved eaddr)
  exact ⟨cs, _, hcall⟩

theorem outcome_i8088Opcode_call (io : Devices δ) (eaddr : Word) (fuel : ℕ) (n : Machine δ) :
    outcome (i8088Opcode io eaddr fuel 0xE8) n =
      (true, ((n.skip 2).pushed (n.cpu.ip + 2)).jump (n.cpu.ip + 2 + n.codeWord 0)) := by
  refine outcome_i8088Opcode rfl ?_
  simp only [outcome_bind, outcome_fetchWord, outcome_getCpu, outcome_pushWord,
    outcome_modifyCpu]
  rfl

theorem outcome_callFarImm (n : Machine δ) :
    outcome callFarImm n =
      ((), ((n.skip 4).pushedFar (n.cpu.ip + 4) n.cpu.cs).jumpFar
        ((n.skip 2).codeWord 0) (n.codeWord 0)) := by
  simp only [callFarImm, outcome_bind, outcome_fetchWord, outcome_getCpu, outcome_pushFar,
    outcome_modifyCpu, skip_skip]
  rfl

theorem outcome_popIp (n : Machine δ) :
    outcome popIp n =
      ((), { n with cpu := { n.cpu with
        ip := n.mem.word n.cpu.ss n.cpu.sp
        sp := n.cpu.sp + 2 } }) := by
  simp [popIp, popWord, addSp]

theorem outcome_popFar (n : Machine δ) :
    outcome popFar n =
      ((), { n with cpu := { n.cpu with
        ip := n.mem.word n.cpu.ss n.cpu.sp
        cs := n.mem.word n.cpu.ss (n.cpu.sp + 2)
        sp := n.cpu.sp + 4 } }) := by
  simp [popFar, addSp]

/-- What a call has done when it is over. -/
theorem Calls.entered {io : Devices δ} {m e m' : Machine δ} {far : Bool}
    (h : Calls io m far e m') :
    Agree m e ∧ ∃ cs ip,
      m' = if far then (e.pushedFar e.cpu.ip e.cpu.cs).jumpFar cs ip
        else (e.pushed e.cpu.ip).jump ip := by
  cases h with
  -- the direct forms have their target behind the opcode, the others in the operand
  | near eaddr hd =>
    rw [hd.execute io eaddr, outcome_i8088Opcode_call]
    exact ⟨hd.agree.trans (.skip ..), 0, _, rfl⟩
  | nearRm eaddr hd hfield =>
    rw [hd.execute io eaddr, outcome_i8088Opcode rfl (outcome_i8088OpcodeFf_near eaddr hfield)]
    exact ⟨hd.agree.trans (.skip ..), 0, _, rfl⟩
  | far eaddr hd =>
    rw [hd.execute io eaddr, outcome_i8088Opcode rfl (outcome_callFarImm _)]
    exact ⟨hd.agree.trans (.skip ..), _, _, rfl⟩
  | farRm eaddr hd hfield =>
    obtain ⟨cs, ip, hff⟩ := outcome_i8088OpcodeFf_far eaddr hfield
    rw [hd.execute io eaddr, outcome_i8088Opcode rfl hff]
    exact ⟨hd.agree.trans (.skip ..), cs, ip, rfl⟩

/-! ### Returns -/

/-- The bytes of a return address. -/
def addressSize (far : Bool) : ℕ := if far then 4 else 2

/-- The machine after a return: `k` is the immediate operand. -/
def Machine.returned (n : Machine δ) (far : Bool) (k : Word) : Machine δ :=
  { n with cpu := { n.cpu with
      ip := n.mem.word n.cpu.ss n.cpu.sp
      cs := if far then n.mem.word n.cpu.ss (n.cpu.sp + 2) else n.cpu.cs
      sp := n.cpu.sp + BitVec.ofNat 16 (addressSize far) + k } }

/-- Every form of `RET` pops the address, and takes as many bytes more off the stack as it says. -/
theorem Returns.effect {n : Machine δ} {far : Bool} {ret : Byte} {k : Word}
    (h : Returns n far ret k) (io : Devices δ) (eaddr : Word) (fuel : ℕ) :
    outcome (i8088Opcode io eaddr fuel ret) n = (true, n.returned far k) := by
  cases h with
  | near =>
    rw [outcome_i8088Opcode rfl (outcome_popIp n)]
    simp [Machine.returned, addressSize]
  -- the operand is read before the address is popped
  | nearPop =>
    refine outcome_i8088Opcode rfl ?_
    simp only [outcome_bind, outcome_fetchWord, outcome_popIp, addSp, outcome_modifyCpu]
    rfl
  | far =>
    rw [outcome_i8088Opcode rfl (outcome_popFar n)]
    simp [Machine.returned, addressSize]
  | farPop =>
    refine outcome_i8088Opcode rfl ?_
    simp only [outcome_bind, outcome_fetchWord, outcome_popFar, addSp, outcome_modifyCpu]
    rfl

/-- After a call from `e` the return address is on the stack, and nothing else has changed
below CS:IP. -/
structure Called (e : Machine δ) (far : Bool) (m : Machine δ) : Prop where
  cpu : m.cpu = { e.cpu with
    ip := m.cpu.ip
    cs := if far then m.cpu.cs else e.cpu.cs
    sp := e.cpu.sp - BitVec.ofNat 16 (addressSize far) }
  ip : m.mem.word e.cpu.ss (e.cpu.sp - BitVec.ofNat 16 (addressSize far)) = e.cpu.ip
  cs : far = true → m.mem.word e.cpu.ss (e.cpu.sp - 2) = e.cpu.cs
  outside : ∀ a, ¬ e.cpu.Below (addressSize far) a → m.mem.m a = e.mem.m a
  fe2010 : m.fe2010 = e.fe2010
  dev : m.dev = e.dev

/-- A call leaves its return address on the stack, and the memory outside of it alone. -/
theorem Calls.called {io : Devices δ} {m e m' : Machine δ} {far : Bool}
    (h : Calls io m far e m') (hstack : m.StackWritable (addressSize far)) : Called e far m' := by
  obtain ⟨hagree, cs, ip, rfl⟩ := h.entered
  have hwritable := hagree.stackWritable hstack
  cases far with
  | false =>
    exact ⟨rfl, pushed_word hwritable e.cpu.ip, nofun,
      fun a ha => pushed_outside e ha e.cpu.ip, rfl, rfl⟩
  | true =>
    exact ⟨rfl, pushedFar_ip hwritable e.cpu.ip e.cpu.cs,
      fun _ => pushedFar_cs hwritable e.cpu.ip e.cpu.cs,
      fun a ha => pushedFar_outside e ha e.cpu.ip e.cpu.cs, rfl, rfl⟩

/-- A return finds what the call has left. -/
theorem Called.returned {e m n : Machine δ} {far : Bool} (h : Called e far m) (hn : Agree m n)
    (k : Word) :
    (n.returned far k).cpu.ip = e.cpu.ip ∧
      Agree { e with mem := m.mem, cpu := { e.cpu with sp := e.cpu.sp + k } }
        (n.returned far k) := by
  have hcpu := hn.cpu
  rw [h.cpu] at hcpu
  have hss : n.cpu.ss = e.cpu.ss := by rw [hcpu]
  have hsp : n.cpu.sp = e.cpu.sp - BitVec.ofNat 16 (addressSize far) := by rw [hcpu]
  -- the return pops what the call has pushed: the instruction pointer, and behind it CS
  have hip : (n.returned far k).cpu.ip = e.cpu.ip := by
    rw [← h.ip, ← hss, ← hsp, ← hn.mem]
    rfl
  have hcs : (n.returned far k).cpu.cs = e.cpu.cs := by
    cases far with
    | false =>
      have hcs₀ : n.cpu.cs = e.cpu.cs := by rw [hcpu]; rfl
      exact hcs₀
    | true =>
      have hsp' : n.cpu.sp + 2 = e.cpu.sp - 2 := by
        rw [hsp, addressSize, if_pos rfl]
        bv_omega
      rw [← h.cs rfl, ← hss, ← hsp', ← hn.mem]
      rfl
  have hsp' : (n.returned far k).cpu.sp = e.cpu.sp + k := by
    rw [Machine.returned, hsp, BitVec.sub_add_cancel]
  refine ⟨hip, ⟨?_, hn.mem, hn.fe2010.trans h.fe2010, hn.dev.trans h.dev⟩⟩
  calc (n.returned far k).cpu
      = { n.cpu with
          ip := (n.returned far k).cpu.ip
          cs := (n.returned far k).cpu.cs
          sp := (n.returned far k).cpu.sp } := rfl
    _ = { n.cpu with
          ip := (n.returned far k).cpu.ip
          cs := e.cpu.cs
          sp := e.cpu.sp + k } := by rw [hcs, hsp']
    _ = _ := by
      rw [hcpu]
      rfl

/-- **A return undoes its call.** Every form of `CALL`, followed at its target by a return of
the same distance, resumes at the byte behind the whole call with SP as before plus the operand
of the return; no other register and no flag has changed, and no memory but the return address
below SS:SP, wherever SP wraps. -/
theorem call_return {io : Devices δ} {m e m' n : Machine δ} {far : Bool} {ret : Byte} {k : Word}
    {fuel : ℕ} (hcall : Calls io m far e m') (hstack : m.StackWritable (addressSize far))
    (hd : Dispatches m' fuel ret n) (hret : Returns n far ret k) (eaddr : Word) :
    ∃ r, outcome (i8088Execute io eaddr fuel) m' = (true, r) ∧
      r.cpu.ip = e.cpu.ip ∧
      Agree { m with mem := r.mem, cpu := { m.cpu with sp := m.cpu.sp + k } } r ∧
      ∀ a, ¬ m.cpu.Below (addressSize far) a → r.mem.m a = m.mem.m a := by
  have hagree := hcall.entered.1
  -- the pushed bytes are the address behind the call, wherever SP wraps
  have hcalled := hcall.called hstack
  obtain ⟨hip, hreturned⟩ := hcalled.returned hd.agree k
  have hmem : (n.returned far k).mem = m'.mem := hreturned.mem
  refine ⟨n.returned far k, by rw [hd.execute io eaddr, hret.effect], hip, ?_, ?_⟩
  · rw [hmem]
    exact (hagree.withStack _ k).trans hreturned
  · intro a ha
    have ha' := mt hagree.below.mp ha
    rw [hmem, hcalled.outside a ha', hagree.mem]

/-- A call over one byte to `RET 4`, with SP = 0. -/
theorem call_return_wraps :
    let m := machineWith [0xE8, 0x01, 0x00, 0x90, 0xC2, 0x04, 0x00]
    let m' := (outcome (i8088Execute Devices.none 0 2) m).2
    ∃ r, outcome (i8088Execute Devices.none 0 2) m' = (true, r) ∧
      r.cpu.ip = 3 ∧
      Agree { m with mem := r.mem, cpu := { m.cpu with sp := m.cpu.sp + 4 } } r ∧
      ∀ a, ¬ m.cpu.Below 2 a → r.mem.m a = m.mem.m a := by
  intro m m'
  have hcall : Dispatches m 2 0xE8 (outcome (i8088Decode 2) m).2 := ⟨rfl, Prod.ext (by decide) rfl⟩
  have hret : Dispatches m' 2 0xC2 (outcome (i8088Decode 2) m').2 :=
    ⟨by decide, Prod.ext (by decide) rfl⟩
  have hwritable : m.StackWritable 2 := fun _ _ => rfl
  have hip : ((outcome (i8088Decode 2) m).2.skip 2).cpu.ip = 3 := by decide
  have hpop : (outcome (i8088Decode 2) m').2.codeWord 0 = 4 := by decide
  -- SP wraps to FFFE
  have hcalls : Calls Devices.none m false ((outcome (i8088Decode 2) m).2.skip 2) m' :=
    .near 0 hcall
  obtain ⟨r, hr, hresume, hagree, houtside⟩ := call_return hcalls hwritable hret .nearPop 0
  rw [hip] at hresume
  rw [hpop] at hagree
  exact ⟨r, hr, hresume, hagree, houtside⟩

end Pc20iii
