import Hearth.Virtio.Frame

/-!
# Guest memory confinement

Whatever a guest puts into the registers of a virtio device, its rings and its descriptors, each
access that the device makes through a guest pointer lies in the mapping of one region of guest
memory, and host memory outside the regions does not change. `GuestOnly` says so of two states of
the host; it is kept by each operation (`notifyTurn_guestOnly`), by any number of turns of the
notification loop (`queueNotify_guestOnly`), and by every register access (`handle_guestOnly`).
-/

namespace Hearth
open Lib

/-- The bytes an event reads or writes through a guest pointer. -/
def Event.span : Event → Option Span
  | .read s => some s
  | .write a bs => some ⟨a, bs.length⟩
  | .irq _ _ => none
  | .used _ _ _ => none

/-- If the event is an access, it lies in one region. -/
def Event.InGuest (mem : GuestMemory) (e : Event) : Prop := ∀ s, e.span = some s → Confined mem s

/-- From `h` to `h'` there were accesses inside guest memory only, and only its bytes changed. -/
def GuestOnly (mem : GuestMemory) (h h' : Host) : Prop :=
  Touches (Event.InGuest mem) (fun a => ∃ r ∈ mem, a ∈ r.span) h h'

/-- `GuestOnly` of the hosts of two worlds. -/
def World.GuestOnly {D : Type} (mem : GuestMemory) (w w' : World D) : Prop :=
  Hearth.GuestOnly mem w.host w'.host

variable {mem : GuestMemory} {D : Type}

/-- Doing nothing stays inside guest memory. -/
lemma World.GuestOnly.refl (w : World D) : w.GuestOnly mem w := Touches.refl w.host

/-- Two operations that stay inside do so together. -/
lemma World.GuestOnly.trans {w w' w'' : World D} (h : w.GuestOnly mem w')
    (h' : w'.GuestOnly mem w'') : w.GuestOnly mem w'' := Touches.trans h h'

/-- What stays inside on the host does in the transport. -/
lemma onHost_guestOnly {α : Type} {x : HostM α} (hx : Eff.Within (GuestOnly mem) x) :
    Eff.Within (World.GuestOnly mem) (onHost x : WorldM D α) :=
  Eff.Within.zoom (T := GuestOnly mem) (fun _ _ => rfl) hx

/-- Changing registers is no access. -/
lemma modify_guestOnly (f : World D → World D) (hf : ∀ w, (f w).host = w.host) :
    Eff.Within (World.GuestOnly mem) (Eff.modify f : WorldM D Unit) := by
  intro w
  change Touches _ _ w.host (f w).host
  rw [hf]
  exact .refl _

/-- A range inside a region, byte by byte. -/
lemma Confined.mem_region {s : Span} (h : Confined mem s) {a : Nat} (ha : a ∈ s) :
    ∃ r ∈ mem, a ∈ r.span := by
  obtain ⟨r, hr, hs⟩ := h
  exact ⟨r, hr, hs a ha⟩

/-- The buffers of a chain all lie in guest memory. -/
def DescChain.InGuest (mem : GuestMemory) (chain : DescChain) : Prop :=
  ∀ buf ∈ chain.writeBuf, Confined mem buf

namespace VringQueue

/-- Taking a chain reads guest memory only. -/
lemma popAvail_guestOnly (self : VringQueue) : Eff.Within (GuestOnly mem) (self.popAvail mem) := by
  refine Eff.Within.mono (fun _ _ t => t.mono ?_ fun _ h => h) (popAvail_touches mem self)
  intro e he s hs
  cases e with
  | read => cases hs; exact he
  | write => exact he.elim
  | irq => cases hs
  | used => cases hs

/-- The used ring lies in guest memory when its address was translated. -/
lemma InUsedRing.confined {self : VringQueue} {s : Span} (h : self.InUsedRing mem s) :
    Confined mem s := by
  obtain ⟨ptr, ring, inside⟩ := h
  exact (gpaToHost_confined ring).mono inside

/-- Handing a chain back writes the used ring only. -/
lemma pushUsed_guestOnly (self : VringQueue) (head : UInt16) (len : UInt32) :
    Eff.Within (GuestOnly mem) (self.pushUsed mem head len) := by
  refine Eff.Within.mono (fun _ _ t => t.mono ?_ ?_) (pushUsed_touches self head len)
  · intro e he s hs
    cases e with
    | read => cases hs; exact InUsedRing.confined he
    | write => cases hs; exact InUsedRing.confined he
    | irq => cases hs
    | used => cases hs
  · intro a ha
    exact (InUsedRing.confined ha).mem_region (by rw [Span.mem_iff]; dsimp only; omega)

/-- A buffer that is added to a chain has been translated, so it lies in guest memory. -/
lemma addDesc_inGuest {descHead : VringDesc} {chain chain' : DescChain} {h h' : Host}
    (hc : chain.InGuest mem) (e : addDesc mem descHead chain h = (.ok chain', h')) :
    chain'.InGuest mem := by
  unfold addDesc at e
  cases ht : descHead.type with
  | write =>
    rw [ht] at e
    obtain ⟨ptr, h1, e1, e2⟩ := Eff.bind_ok_iff.mp e
    cases e2
    intro buf hb
    rcases List.mem_append.mp hb with hb | hb
    · exact hc buf hb
    · rw [List.mem_singleton.mp hb]
      exact gpaToHost_confined (Eff.okOr_ok e1).1
  | read =>
    rw [ht] at e
    obtain ⟨bytes, h1, _, e2⟩ := Eff.bind_ok_iff.mp e
    cases e2
    exact hc

/-- Every buffer of a chain that is walked lies in guest memory. -/
lemma walk_inGuest {self : VringQueue} {turns : Nat} {descIdx : UInt16} {chain chain' : DescChain}
    {h h' : Host} (hc : chain.InGuest mem)
    (e : self.walk mem turns descIdx chain h = (.ok chain', h')) : chain'.InGuest mem := by
  induction turns generalizing descIdx chain h with
  | zero => cases e; exact hc
  | succ turns ih =>
    obtain ⟨descHead, h1, _, e2⟩ := Eff.bind_ok_iff.mp e
    obtain ⟨chain1, h2, e3, e4⟩ := Eff.bind_ok_iff.mp e2
    have hc1 := addDesc_inGuest hc e3
    split at e4
    · exact ih hc1 e4
    · cases e4; exact hc1

/-- Every buffer of a chain that is taken lies in guest memory. -/
lemma popAvail_inGuest {self queue : VringQueue} {chain : DescChain} {h h' : Host}
    (e : self.popAvail mem h = (.ok (some chain, queue), h')) : chain.InGuest mem := by
  obtain ⟨ptr, h1, _, e⟩ := Eff.bind_ok_iff.mp e
  obtain ⟨avail, h2, _, e⟩ := Eff.bind_ok_iff.mp e
  split at e
  · cases e
  obtain ⟨slot, h3, _, e⟩ := Eff.bind_ok_iff.mp e
  obtain ⟨head, h4, _, e⟩ := Eff.bind_ok_iff.mp e
  obtain ⟨chain1, h5, e5, e⟩ := Eff.bind_ok_iff.mp e
  cases e
  exact walk_inGuest (fun _ hb => absurd hb List.not_mem_nil) e5

end VringQueue

/-- The interrupt line is no memory. -/
lemma archUpdateIrq_guestOnly (level num : UInt32) :
    Eff.Within (GuestOnly mem) (archUpdateIrq level num) :=
  archUpdateIrq_touches _ _ nofun

section Transport

variable [ConfinedDevice D]

/-- A device that works on buffers in guest memory stays in guest memory. -/
lemma process_guestOnly (queue : UInt32) {chain : DescChain} (hc : chain.InGuest mem) :
    Eff.Within (World.GuestOnly mem)
      (onDevice (VirtioDevice.process queue chain) : WorldM D UInt32) := by
  intro w
  refine Touches.mono (ConfinedDevice.process_touches queue chain (w.host, w.mmio.device)) ?_ ?_
  · intro e he s hs
    cases e with
    | write =>
      cases hs
      obtain ⟨buf, hb, inside⟩ := he
      exact (hc buf hb).mono inside
    | read => exact he.elim
    | irq => exact he.elim
    | used => exact he.elim
  · rintro a ⟨buf, hb, ha⟩
    exact (hc buf hb).mem_region ha

/-- One turn stays inside: the chain taken has its buffers there, and the device keeps to them. -/
lemma notifyTurn_guestOnly (q : Fin vringQueuesMax) :
    Eff.Within (World.GuestOnly mem) (notifyTurn (D := D) q mem) := by
  intro w
  refine Eff.rel_bind .trans (World.GuestOnly.refl w) fun self w0 e0 => ?_
  split
  · refine Eff.rel_bind .trans (onHost_guestOnly (VringQueue.popAvail_guestOnly _) w0)
      fun ⟨chain, queue⟩ w1 e1 => ?_
    refine Eff.Within.bind .trans (modify_guestOnly (World.setQueue q queue) fun _ => rfl)
      (fun _ => ?_) w1
    cases chain with
    | none => exact fun w => .refl w
    | some chain =>
      have hc : chain.InGuest mem := by
        rw [onHost, Eff.zoom_run, Prod.mk.injEq] at e1
        exact VringQueue.popAvail_inGuest (Prod.ext_iff.mpr ⟨e1.1, rfl⟩)
      refine Eff.Within.bind .trans (process_guestOnly _ hc) fun len => ?_
      refine Eff.Within.bind .trans
        (onHost_guestOnly (VringQueue.pushUsed_guestOnly _ _ _)) fun _ => ?_
      refine Eff.Within.bind .trans (modify_guestOnly World.raiseVring fun _ => rfl) fun _ => ?_
      exact Eff.Within.bind .trans (onHost_guestOnly (archUpdateIrq_guestOnly _ _))
        fun _ w => .refl w
  · exact .refl w0

/-- A notification is turns. -/
lemma queueNotify_guestOnly (fuel : Nat) (queueIdx : UInt32) :
    Eff.Within (World.GuestOnly mem) (queueNotify (D := D) fuel queueIdx mem) := by
  unfold queueNotify
  split
  · exact fun w => .refl w
  · refine Eff.Within.bind .trans (fun w => .refl w) fun w => ?_
    split
    · exact fun w => .refl w
    · exact Eff.Within.loop .refl .trans (notifyTurn_guestOnly _)

/-- A poll is a notification of both queues. -/
lemma poll_guestOnly (fuel : Nat) : Eff.Within (World.GuestOnly mem) (poll (D := D) fuel mem) :=
  Eff.Within.bind .trans (queueNotify_guestOnly _ _) fun _ => queueNotify_guestOnly _ _

/-- Only an access that notifies reaches memory at all. -/
lemma access_guestOnly (fuel : Nat) (addr : UInt32) (data : List UInt8) (reg : Reg) :
    Eff.Within (World.GuestOnly mem) (access (D := D) fuel mem addr data reg) := by
  refine Eff.Within.bind .trans (fun w => .refl w) fun self => ?_
  cases reg
  case writeQueueNotify =>
    exact Eff.Within.bind .trans (queueNotify_guestOnly _ _) fun _ w => .refl w
  case writeInterruptAck =>
    refine Eff.Within.bind .trans (modify_guestOnly _ fun _ => rfl) fun _ => ?_
    exact Eff.Within.bind .trans (onHost_guestOnly (archUpdateIrq_guestOnly _ _)) fun _ w => .refl w
  -- the other registers leave the host alone
  all_goals exact fun w => World.GuestOnly.refl w

/-- The same for an exit of the guest. -/
lemma handle_guestOnly (fuel : Nat) (mmio : Mmio) :
    Eff.Within (World.GuestOnly mem) (handle (D := D) fuel mmio mem) :=
  access_guestOnly _ _ _ _

end Transport

/-- The accesses of a virtio-blk and of a virtio-net device to guest memory while they handle any
    register access, `QUEUE_NOTIFY` among them, or a poll: each lies in the mapping of one region,
    and no byte outside the regions changes. -/
theorem virtio_accesses_confined (mem : GuestMemory) (fuel : Nat) :
    (∀ (w : World VirtioBlk) (mmio : Mmio),
      GuestOnly mem w.host (handle fuel mmio mem w).2.host ∧
      GuestOnly mem w.host (poll fuel mem w).2.host) ∧
    (∀ (w : World VirtioNet) (mmio : Mmio),
      GuestOnly mem w.host (handle fuel mmio mem w).2.host ∧
      GuestOnly mem w.host (poll fuel mem w).2.host) :=
  ⟨fun w mmio => ⟨handle_guestOnly fuel mmio w, poll_guestOnly fuel w⟩,
    fun w mmio => ⟨handle_guestOnly fuel mmio w, poll_guestOnly fuel w⟩⟩

end Hearth
