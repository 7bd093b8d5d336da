import Hearth.Virtio.Notify

/-!
# Register accesses

Which register an exit accesses, and what an access does that notifies no queue: it leaves memory
and the device alone, and of the interrupt it changes something only if it acknowledges it.
-/

namespace Hearth
open Lib

variable {D : Type} {mem : GuestMemory} {w w' : World D}

/-- The queue that an access notifies, if it is a write to `QUEUE_NOTIFY`. -/
def Mmio.notified (exit : Mmio) : Option UInt32 :=
  if exit.isWrite ∧ (exit.physAddr &&& 0xfff).toUInt32 = 0x050 then
    some (readLe32 exit.data) else none

/-- A case distinction between other registers is another register. -/
lemma reg_ite_ne {p : Prop} [Decidable p] {a b c : Reg} (ha : a ≠ c) (hb : b ≠ c) :
    (if p then a else b) ≠ c := by
  split
  · exact ha
  · exact hb

/-- No read notifies. -/
lemma decodeRead_ne_notify (addr : UInt32) : Reg.decodeRead addr ≠ .writeQueueNotify := by
  unfold Reg.decodeRead
  repeat refine reg_ite_ne nofun ?_
  nofun

/-- One address notifies. -/
lemma decodeWrite_notify_iff (addr : UInt32) :
    Reg.decodeWrite addr = .writeQueueNotify ↔ addr = 0x050 := by
  constructor
  · refine fun h => by_contra fun hne => (?_ : Reg.decodeWrite addr ≠ .writeQueueNotify) h
    unfold Reg.decodeWrite
    rw [if_neg hne]
    repeat refine reg_ite_ne nofun ?_
    nofun
  · rintro rfl
    decide

/-- The register that an exit accesses. -/
def Mmio.reg (exit : Mmio) : Reg :=
  let addr := (exit.physAddr &&& 0xfff).toUInt32
  if exit.isWrite then Reg.decodeWrite addr else Reg.decodeRead addr

/-- What a write to a register does to the transport, where it neither notifies nor acknowledges. -/
def Reg.effect (reg : Reg) (val : UInt32) (self : VirtioMmio D) : VirtioMmio D :=
  match reg with
  | .writeDeviceFeaturesSel => { self with devFeatSel := val }
  | .writeDriverFeaturesSel => { self with drvFeatSel := val }
  | .writeQueueSel => { self with currQueue := val }
  | .writeQueueNum => self.onSelectedQueue fun q => { q with num := val }
  | .writeQueueReady => self.onSelectedQueue fun q => { q with ready := val }
  | .writeStatus => { self with status := val }
  | .writeQueueDescLow => self.onSelectedQueue fun q => { q with desc := val.toUInt64 }
  | .writeQueueDescHigh =>
    self.onSelectedQueue fun q => { q with desc := q.desc ||| val.toUInt64 <<< 32 }
  | .writeQueueAvailLow => self.onSelectedQueue fun q => { q with avail := val.toUInt64 }
  | .writeQueueAvailHigh =>
    self.onSelectedQueue fun q => { q with avail := q.avail ||| val.toUInt64 <<< 32 }
  | .writeQueueUsedLow => self.onSelectedQueue fun q => { q with used := val.toUInt64 }
  | .writeQueueUsedHigh =>
    self.onSelectedQueue fun q => { q with used := q.used ||| val.toUInt64 <<< 32 }
  | _ => self

/-- Every other access returns, and has that effect and no more. -/
lemma access_run [VirtioDevice D] {reg : Reg} (notify : reg ≠ .writeQueueNotify)
    (ack : reg ≠ .writeInterruptAck) (fuel : Nat) (mem : GuestMemory) (addr : UInt32)
    (data : List UInt8) (w : World D) :
    ∃ data', access fuel mem addr data reg w =
      (.ok data', { w with mmio := reg.effect (readLe32 data) w.mmio }) := by
  unfold access
  rw [Eff.gets_bind_run]
  cases reg
  case writeQueueNotify => exact absurd rfl notify
  case writeInterruptAck => exact absurd rfl ack
  all_goals exact ⟨_, rfl⟩

section Access

variable [VirtioDevice D] {fuel : Nat} {exit : Mmio} {data : List UInt8}

/-- An acknowledgement clears the bits it was written and lowers the line. -/
lemma handle_ack (reg : exit.reg = .writeInterruptAck)
    (e : handle fuel exit mem w = (.ok data, w')) :
    w'.host.events = w.host.events ++ [.irq w.mmio.irq 0] ∧ w'.mmio.irq = w.mmio.irq ∧
      w'.mmio.irqStatus = w.mmio.irqStatus &&& ~~~readLe32 exit.data ∧
      w'.mmio.device = w.mmio.device := by
  change access fuel mem _ exit.data exit.reg w = _ at e
  rw [reg, access, Eff.gets_bind_run] at e
  dsimp only at e
  rw [Eff.modify_bind_run] at e
  obtain ⟨_, w1, e1, e⟩ := Eff.bind_ok_iff.mp e
  obtain ⟨irq, m⟩ := onHost_ok e1
  cases e
  exact ⟨(archUpdateIrq_ok irq).2, by rw [m], by rw [m], by rw [m]⟩

/-- An access that neither acknowledges nor notifies a queue leaves the interrupt alone. -/
lemma handle_other (ack : exit.reg ≠ .writeInterruptAck)
    (notify : exit.reg = .writeQueueNotify → VirtioMmio.queueIndex (readLe32 exit.data) = none)
    (e : handle fuel exit mem w = (.ok data, w')) :
    w'.host = w.host ∧ w'.mmio.irq = w.mmio.irq ∧ w'.mmio.irqStatus = w.mmio.irqStatus ∧
      w'.mmio.device = w.mmio.device := by
  have selected : ∀ f, (VirtioMmio.onSelectedQueue f w.mmio).irq = w.mmio.irq ∧
      (VirtioMmio.onSelectedQueue f w.mmio).irqStatus = w.mmio.irqStatus ∧
      (VirtioMmio.onSelectedQueue f w.mmio).device = w.mmio.device := by
    intro f
    unfold VirtioMmio.onSelectedQueue
    split
    · exact ⟨rfl, rfl, rfl⟩
    · exact ⟨rfl, rfl, rfl⟩
  change access fuel mem _ exit.data exit.reg w = _ at e
  rw [access, Eff.gets_bind_run] at e
  cases hr : exit.reg
  case writeQueueNotify =>
    rw [hr] at e
    dsimp only at e
    rw [Eff.bind_of_ok (queueNotify_none (notify hr) w)] at e
    cases e
    exact ⟨rfl, rfl, rfl, rfl⟩
  case writeInterruptAck => exact absurd hr ack
  all_goals
    rw [hr] at e
    cases e
    first
      | exact ⟨rfl, rfl, rfl, rfl⟩
      | exact ⟨rfl, selected _⟩

/-- An access that notifies no queue leaves the device alone. -/
lemma handle_device (notify : exit.reg = .writeQueueNotify →
      VirtioMmio.queueIndex (readLe32 exit.data) = none)
    (e : handle fuel exit mem w = (.ok data, w')) : w'.mmio.device = w.mmio.device := by
  by_cases ack : exit.reg = .writeInterruptAck
  · exact (handle_ack ack e).2.2.2
  · exact (handle_other ack notify e).2.2.2

end Access

/-! ## What only the driver sets -/

/-- A queue without the device's index: what the driver has set up. -/
def VringQueue.setup (self : VringQueue) : VringQueue := { self with lastAvailIdx := 0 }

/-- The selector and what the driver has set up of the queues are the same. -/
structure SameSetup (w w' : World D) : Prop where
  currQueue : w'.mmio.currQueue = w.mmio.currQueue
  queue : ∀ q, (w'.mmio.queue q).setup = (w.mmio.queue q).setup

/-- Doing nothing keeps the set-up. -/
lemma SameSetup.refl (w : World D) : SameSetup w w := ⟨rfl, fun _ => rfl⟩

/-- What two operations keep they keep together. -/
lemma SameSetup.trans {w w' w'' : World D} (h : SameSetup w w') (h' : SameSetup w' w'') :
    SameSetup w w'' :=
  ⟨h'.currQueue.trans h.currQueue, fun q => (h'.queue q).trans (h.queue q)⟩

/-- The host has no part in the set-up. -/
lemma onHost_setup {α : Type} (x : HostM α) : Eff.Within SameSetup (onHost x : WorldM D α) :=
  fun _ => ⟨rfl, fun _ => rfl⟩

/-- The device has no part in the set-up. -/
lemma onDevice_setup {α : Type} (x : Eff IoError (Host × D) α) :
    Eff.Within SameSetup (onDevice x : WorldM D α) :=
  fun _ => ⟨rfl, fun _ => rfl⟩

section Setup

variable [VirtioDevice D]

/-- A turn changes the queue's index only. -/
lemma notifyTurn_setup (q : Fin vringQueuesMax) :
    Eff.Within SameSetup (notifyTurn (D := D) q mem) := by
  intro w
  unfold notifyTurn
  rw [Eff.gets_bind_run]
  split
  · refine Eff.rel_bind .trans (onHost_setup _ w) fun ⟨chain, queue⟩ w₁ e => ?_
    obtain ⟨pop, hmmio⟩ := onHost_ok e
    have hsetup : queue.setup = (w₁.mmio.queue q).setup := by
      obtain ⟨-, -, -, ⟨-, -, hq⟩ | ⟨-, -, hq, -⟩⟩ := VringQueue.popAvail_ok pop
      · rw [hq, hmmio]
        rfl
      · rw [hq, hmmio]
        rfl
    have set : SameSetup w₁ (World.setQueue q queue w₁) := by
      refine ⟨rfl, fun q' => ?_⟩
      show (Function.update w₁.mmio.queue q queue q').setup = _
      by_cases h : q' = q
      · rw [h, Function.update_self]
        exact hsetup
      · rw [Function.update_of_ne h]
    dsimp only
    rw [Eff.modify_bind_run]
    apply SameSetup.trans set
    cases chain with
    | none => exact .refl _
    | some chain =>
      refine Eff.rel_bind .trans (onDevice_setup _ _) fun len w₂ _ => ?_
      refine Eff.rel_bind .trans (onHost_setup _ _) fun _ w₃ _ => ?_
      rw [Eff.modify_bind_run]
      have raised : SameSetup w₃ w₃.raiseVring := ⟨rfl, fun _ => rfl⟩
      apply raised.trans
      refine Eff.rel_bind .trans (onHost_setup _ _) fun _ w₄ _ => ?_
      exact .refl w₄
  · exact .refl w

/-- A notification changes the queue's index only. -/
lemma queueNotify_setup (fuel : Nat) (queueIdx : UInt32) (mem : GuestMemory) :
    Eff.Within SameSetup (queueNotify (D := D) fuel queueIdx mem) := by
  intro w
  cases hq : VirtioMmio.queueIndex queueIdx with
  | none =>
    rw [queueNotify_none hq]
    exact .refl w
  | some q =>
    rw [queueNotify_some hq]
    split
    · exact .refl w
    · exact Eff.Within.loop .refl .trans (notifyTurn_setup q) w

/-- Neither a notification nor an acknowledgement sets anything up. -/
lemma access_setup {reg : Reg} (h : reg = .writeQueueNotify ∨ reg = .writeInterruptAck) (fuel : Nat)
    (mem : GuestMemory) (addr : UInt32) (data : List UInt8) (w : World D) :
    SameSetup w (access fuel mem addr data reg w).2 := by
  unfold access
  rw [Eff.gets_bind_run]
  rcases h with rfl | rfl
  · refine Eff.rel_bind .trans (queueNotify_setup _ _ _ w) fun _ w' _ => ?_
    exact .refl w'
  · dsimp only
    rw [Eff.modify_bind_run]
    have acked : SameSetup w
        { w with mmio := { w.mmio with irqStatus := w.mmio.irqStatus &&& ~~~readLe32 data } } :=
      ⟨rfl, fun _ => rfl⟩
    apply acked.trans
    refine Eff.rel_bind .trans (onHost_setup _ _) fun _ w' _ => ?_
    exact .refl w'

end Setup

end Hearth
