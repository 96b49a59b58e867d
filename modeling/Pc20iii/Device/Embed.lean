import Pc20iii.Device.Access
import Pc20iii.Program.Lens

/-!
# A device of a larger machine

The hooks of a device get a pointer to its own state (the `cookie` of the port table). Here the
state of a machine has one piece for each device, and a hook is run on the machine through the
lens of its device.

* `Machine.lens`: the machine as one of its devices sees it.
* `zoom_fe2010Irq`, `zoom_runLocal`, `zoom_fe2010DmaWrite`, `zoom_fe2010DmaRead`,
  `zoom_fe2010KeyboardPress`: what a device calls of the chipset is the same on the whole
  machine, so that `zoom` adds nothing to the source.
* `Devices.embed`: the ports of a device in the port table of the whole machine.
-/

namespace Pc20iii

open StateProgram

variable {ε δ : Type}

/-- The machine as one of its devices sees it. -/
def Machine.lens (l : Lens ε δ) : Lens (Machine ε) (Machine δ) where
  get m := ⟨m.cpu, m.mem, m.fe2010, l.get m.dev, m.log⟩
  set m' m := ⟨m'.cpu, m'.mem, m'.fe2010, l.set m'.dev m.dev, m'.log⟩
  get_set m' m := by
    rw [l.get_set]
  set_get m := by
    rw [l.set_get]
  set_set m'' m' m := by
    rw [l.set_set]

/-- The view of a device. -/
abbrev Machine.view (l : Lens ε δ) (m : Machine ε) : Machine δ := (Machine.lens l).get m

/-- A program of a device, run on the whole machine. -/
abbrev embed {α : Type} (l : Lens ε δ) (x : M δ α) : M ε α := zoom (Machine.lens l) x

theorem Lens.Apart.machine {δ' : Type} {l : Lens ε δ} {l' : Lens ε δ'} (h : l'.Apart l)
    {α : Type} (x : M δ α) (m : Machine ε) :
    l'.get (outcome (embed l x) m).2.dev = l'.get m.dev := h _ _

/-- Work of a device on its own piece. -/
def Local.zoom {α : Type} (l : Lens ε δ) (f : Local δ α) : Local ε α := fun x =>
  ((f (l.get x)).1, l.set (f (l.get x)).2.1 x, (f (l.get x)).2.2)

section Calls

variable (l : Lens ε δ)

theorem zoom_runLocal {α : Type} (f : Local δ α) : embed l (runLocal f) = runLocal (f.zoom l) :=
  rfl

/-- What leaves the devices alone, and sees nothing of them, is the same on the whole machine. -/
theorem set_view {m m' : Machine ε} {m'' : Machine δ} (h : m'' = m'.view l)
    (hdev : m'.dev = m.dev) : (Machine.lens l).set m'' m = m' := by
  rw [h]
  change (⟨m'.cpu, m'.mem, m'.fe2010, l.set (l.get m'.dev) m.dev, m'.log⟩ : Machine ε) = m'
  rw [← hdev, l.set_get]

/-- An interrupt does not look at the device, so it is the same one in the whole machine. -/
theorem zoom_fe2010Irq (irqNo : Fin 8) : embed l (fe2010Irq irqNo) = fe2010Irq irqNo := by
  funext m
  have hview : (outcome (fe2010Irq irqNo) (m.view l)).2 =
      (outcome (fe2010Irq irqNo) m).2.view l := by
    -- whether it is entered is seen from the PIC and the flags
    cases hp : m.passes irqNo with
    | false =>
      rw [outcome_fe2010Irq_of_fail irqNo hp, outcome_fe2010Irq_of_fail irqNo (m := m.view l) hp]
      rfl
    | true =>
      cases hi : m.cpu.flags.i with
      | false =>
        rw [outcome_fe2010Irq_of_clear irqNo hp hi,
          outcome_fe2010Irq_of_clear irqNo (m := m.view l) hp hi]
        rfl
      | true =>
        rw [outcome_fe2010Irq_of_set irqNo hp hi,
          outcome_fe2010Irq_of_set irqNo (m := m.view l) hp hi]
        rfl
  exact Prod.ext rfl (set_view l hview (dev_fe2010Irq irqNo m))

theorem zoom_memRead (who : Initiator) (address : BitVec 32) :
    embed l (memRead who address) = memRead who address := by
  funext m
  change outcome (embed l (memRead who address)) m = outcome (memRead who address) m
  rw [outcome_zoom, outcome_memRead, outcome_memRead]
  refine Prod.ext rfl ?_
  split
  · exact set_view l rfl rfl
  · exact set_view l rfl rfl

/-- A store does not look at the device. -/
theorem zoom_memWrite (who : Initiator) (address : BitVec 32) (v : Byte) :
    embed l (memWrite who address v) = memWrite who address v := by
  funext m
  have hview : (outcome (memWrite who address v) (m.view l)).2 =
      (outcome (memWrite who address v) m).2.view l := by
    have hreadonly : (m.view l).mem.readonly = m.mem.readonly := rfl
    unfold memWrite
    split
    · rfl
    · simp only [outcome_bind, outcome_get, outcome_ite, outcome_modify, outcome_pure, hreadonly]
      split <;> rfl
  exact Prod.ext rfl (set_view l hview (dev_memWrite who address v m))

theorem zoom_fe2010DmaWrite (channelNo : Fin 4) (callback : Local δ Byte) :
    embed l (fe2010DmaWrite channelNo callback) = fe2010DmaWrite channelNo (callback.zoom l) := by
  funext m
  unfold fe2010DmaWrite
  rw [embed, zoom_bind, zoom_get]
  simp only [zoom_ite, zoom_forM, zoom_bind, zoom_memWrite, zoom_runLocal, zoom_pure]
  rfl

theorem zoom_fe2010DmaRead (channelNo : Fin 4) (callback : Byte → Local δ Unit) :
    embed l (fe2010DmaRead channelNo callback) =
      fe2010DmaRead channelNo fun value => (callback value).zoom l := by
  funext m
  unfold fe2010DmaRead
  rw [embed, zoom_bind, zoom_get]
  simp only [zoom_ite, zoom_forM, zoom_bind, zoom_memRead, zoom_runLocal, zoom_pure]
  rfl

theorem zoom_fe2010KeyboardPress (scancode : Byte) :
    embed l (fe2010KeyboardPress scancode) = fe2010KeyboardPress scancode := by
  funext m
  have hscancode : embed l (modifyFe2010 fun f => { f with scancode := scancode }) =
      modifyFe2010 fun f => { f with scancode := scancode } := by
    funext m
    exact Prod.ext rfl (set_view l rfl rfl)
  unfold fe2010KeyboardPress
  rw [embed, zoom_bind, zoom_get]
  simp only [zoom_ite, zoom_bind, zoom_fe2010Irq, zoom_pure, hscancode]
  rfl

end Calls

/-- What a device does, it does on the whole machine. -/
theorem generated_embed (l : Lens ε δ) {α : Type} {x : M δ α} (hx : Generated DeviceAction x) :
    Generated DeviceAction (embed l x) := by
  have hact : ∀ {α : Type} {x : M δ α}, DeviceAction α x → Generated DeviceAction (embed l x) := by
    intro α x h
    -- the callbacks of a transfer are zoomed with it, the rest is as it was
    cases h with
    | irq irqNo =>
      rw [zoom_fe2010Irq]
      exact .action _ (.irq irqNo)
    | dmaWrite channelNo callback =>
      rw [zoom_fe2010DmaWrite]
      exact .action _ (.dmaWrite channelNo _)
    | dmaRead channelNo callback =>
      rw [zoom_fe2010DmaRead]
      exact .action _ (.dmaRead channelNo _)
    | keyboard scancode =>
      rw [zoom_fe2010KeyboardPress]
      exact .action _ (.keyboard scancode)
    | own f => exact .action _ (.own (f.zoom l))
  exact generated_zoom hact hx

/-- The ports of a device in the port table of the whole machine. -/
def Devices.embed (l : Lens ε δ) (io : Devices δ) : Devices ε where
  read port := (io.read port).map fun func p => Pc20iii.embed l (func p)
  write port := (io.write port).map fun func p v => Pc20iii.embed l (func p v)
  read_generated := by
    intro port func h p
    obtain ⟨f, hf, rfl⟩ := Option.map_eq_some_iff.mp h
    exact generated_embed l (io.read_generated hf p)
  write_generated := by
    intro port func h p v
    obtain ⟨f, hf, rfl⟩ := Option.map_eq_some_iff.mp h
    exact generated_embed l (io.write_generated hf p v)
  read_low port hport := by
    rw [io.read_low port hport]
    rfl
  write_low port hport := by
    rw [io.write_low port hport]
    rfl

end Pc20iii
