import Hearth.Virtio.Chain

/-!
# Turns of the notification loop

`notifyTurn_ok` takes one turn of `queueNotify` apart: it stops because the device cannot go on, or
because no chain is available, or it handles one chain (`Handles`). Everything that is proved about
the loop goes through it. `Handles.run` is the converse: a chain that can be handled is.
-/

namespace Hearth
open Lib

variable {D : Type} {mem : GuestMemory} {q : Fin vringQueuesMax} {w w' : World D}

/-- A queue that is set up. -/
def VringQueue.Live (self : VringQueue) : Prop := self.ready ≠ 0 ∧ self.num ≠ 0

/-- From `w` to `w'` queue `q` handled the chain at `head`: it took the chain, the device processed
    it and wrote `len` bytes, and it was handed back and announced. -/
structure Handles [VirtioDevice D] (mem : GuestMemory) (q : Fin vringQueuesMax) (w : World D)
    (chain : DescChain) (len : UInt32) (w' : World D) where
  /-- the host once the chain is taken -/
  taken : Host
  queue : VringQueue
  /-- host and device once the chain is processed -/
  processed : Host × D
  /-- the host once the chain is handed back -/
  pushed : Host
  pop : (w.mmio.queue q).popAvail mem w.host = (.ok (some chain, queue), taken)
  process : VirtioDevice.process (UInt32.ofNat q) chain (taken, w.mmio.device) =
    (.ok len, processed)
  push : queue.pushUsed mem chain.head len processed.1 = (.ok (), pushed)
  irq : archUpdateIrq 1 w.mmio.irq pushed = (.ok (), w'.host)
  mmio : w'.mmio =
    { w.mmio with
      queue := Function.update w.mmio.queue q queue
      irqStatus := w.mmio.irqStatus ||| virtioMmioIntVring
      device := processed.2 }

/-- What goes well in the transport does on the host. -/
lemma onHost_ok {α : Type} {x : HostM α} {a : α} (e : onHost x w = (.ok a, w')) :
    x w.host = (.ok a, w'.host) ∧ w'.mmio = w.mmio := by
  rw [onHost, Eff.zoom_run, Prod.mk.injEq] at e
  obtain ⟨e1, rfl⟩ := e
  exact ⟨Prod.ext_iff.mpr ⟨e1, rfl⟩, rfl⟩

/-- What goes well in the transport does in the device. -/
lemma onDevice_ok {α : Type} {x : Eff IoError (Host × D) α} {a : α}
    (e : onDevice x w = (.ok a, w')) :
    x (w.host, w.mmio.device) = (.ok a, (w'.host, w'.mmio.device)) ∧
      w'.mmio = { w.mmio with device := w'.mmio.device } := by
  rw [onDevice, Eff.zoom_run, Prod.mk.injEq] at e
  obtain ⟨e1, rfl⟩ := e
  exact ⟨Prod.ext_iff.mpr ⟨e1, rfl⟩, rfl⟩

/-- What goes well on the host does in the transport. -/
lemma onHost_run {α : Type} {x : HostM α} {a : α} {h : Host} (e : x w.host = (.ok a, h)) :
    onHost x w = (.ok a, { w with host := h }) := by
  rw [onHost, Eff.zoom_run, e]

/-- What goes well in the device does in the transport. -/
lemma onDevice_run {α : Type} {x : Eff IoError (Host × D) α} {a : α} {s : Host × D}
    (e : x (w.host, w.mmio.device) = (.ok a, s)) :
    onDevice x w = (.ok a, { w with host := s.1, mmio := { w.mmio with device := s.2 } }) := by
  rw [onDevice, Eff.zoom_run, e]

section Turn

variable [VirtioDevice D]

/-- What a turn that goes well does. -/
lemma notifyTurn_ok {b : Bool} (e : notifyTurn q mem w = (.ok b, w')) :
    (b = false ∧ VirtioDevice.canProcess w.mmio.device (UInt32.ofNat q) = false ∧ w' = w) ∨
    (b = false ∧ VirtioDevice.canProcess w.mmio.device (UInt32.ofNat q) = true ∧
      w'.mmio = w.mmio ∧
      (w.mmio.queue q).popAvail mem w.host = (.ok (none, w.mmio.queue q), w'.host)) ∨
    (b = true ∧ VirtioDevice.canProcess w.mmio.device (UInt32.ofNat q) = true ∧
      ∃ chain len, Nonempty (Handles mem q w chain len w')) := by
  obtain ⟨self, w0, e0, e⟩ := Eff.bind_ok_iff.mp e
  cases e0
  dsimp only [id] at e
  split at e
  · next can =>
    obtain ⟨⟨chain, queue⟩, w1, e1, e⟩ := Eff.bind_ok_iff.mp e
    obtain ⟨pop, m1⟩ := onHost_ok e1
    -- nothing is available: the queue is as it was
    cases chain with
    | none =>
      cases e
      obtain ⟨ptr, -, -, ⟨-, -, rfl⟩ | ⟨-, -, -, ds, -, -, hc⟩⟩ := VringQueue.popAvail_ok pop
      · refine .inr (.inl ⟨rfl, can, ?_, pop⟩)
        simp only [World.setQueue, VirtioMmio.setQueue, m1, Function.update_eq_self]
      · cases hc
    | some chain =>
      obtain ⟨_, w2, e2, e⟩ := Eff.bind_ok_iff.mp e
      cases e2
      obtain ⟨len, w3, e3, e⟩ := Eff.bind_ok_iff.mp e
      obtain ⟨process, m3⟩ := onDevice_ok e3
      obtain ⟨_, w4, e4, e⟩ := Eff.bind_ok_iff.mp e
      obtain ⟨push, m4⟩ := onHost_ok e4
      obtain ⟨_, w5, e5, e⟩ := Eff.bind_ok_iff.mp e
      cases e5
      obtain ⟨_, w6, e6, e⟩ := Eff.bind_ok_iff.mp e
      obtain ⟨irq, m6⟩ := onHost_ok e6
      cases e
      refine .inr (.inr ⟨rfl, can, chain, len, ⟨?_⟩⟩)
      exact
        { taken := w1.host, queue := queue, processed := (w3.host, w3.mmio.device),
          pushed := w4.host, pop := pop,
          process := by
            simpa only [World.setQueue, VirtioMmio.setQueue, m1] using process
          push := push, irq := irq,
          mmio := by
            rw [m6, World.raiseVring, m4, m3]
            simp only [World.setQueue, VirtioMmio.setQueue, m1] }
  · next can =>
    cases e
    exact .inl ⟨rfl, by simpa using can, rfl⟩

/-- A turn that can do all these steps does them. -/
lemma Handles.run {chain : DescChain} {len : UInt32} (t : Handles mem q w chain len w')
    (can : VirtioDevice.canProcess w.mmio.device (UInt32.ofNat q) = true) :
    notifyTurn q mem w = (.ok true, w') := by
  unfold notifyTurn
  rw [Eff.gets_bind_run, id, if_pos can, Eff.bind_of_ok (onHost_run t.pop)]
  dsimp only
  rw [Eff.modify_bind_run,
    Eff.bind_of_ok (onDevice_run (w := World.setQueue q t.queue _) t.process),
    Eff.bind_of_ok (onHost_run t.push), Eff.modify_bind_run, Eff.bind_of_ok (onHost_run t.irq)]
  exact congrArg (fun m => (Outcome.ok true, World.mk w'.host m)) t.mmio.symm

/-- A notification of a queue that does not exist does nothing. -/
lemma queueNotify_none {fuel : Nat} {queueIdx : UInt32}
    (hq : VirtioMmio.queueIndex queueIdx = none) (w : World D) :
    queueNotify fuel queueIdx mem w = (.ok (), w) := by
  unfold queueNotify
  rw [hq]
  rfl

/-- A notification of a queue that exists is the loop, if the queue is set up. -/
lemma queueNotify_some {fuel : Nat} {queueIdx : UInt32}
    (hq : VirtioMmio.queueIndex queueIdx = some q) (w : World D) :
    queueNotify fuel queueIdx mem w =
      if (w.mmio.queue q).ready = 0 ∨ (w.mmio.queue q).num = 0 then (.ok (), w)
      else Eff.loop (notifyTurn q mem) fuel w := by
  unfold queueNotify
  rw [hq]
  by_cases h0 : (w.mmio.queue q).ready = 0 ∨ (w.mmio.queue q).num = 0
  · rw [if_pos h0]
    exact congrFun (if_pos h0) w
  · rw [if_neg h0]
    exact congrFun (if_neg h0) w

/-- What was popped in a turn that handles a chain. -/
lemma Handles.pop_ok {chain : DescChain} {len : UInt32} (t : Handles mem q w chain len w') :
    ∃ ptr, gpaToHost mem (w.mmio.queue q).avail (w.mmio.queue q).availSize = some ptr ∧
      Noted w.host t.taken ∧
      (w.mmio.queue q).lastAvailIdx ≠ w.host.mem.load UInt16 (ptr + 2) ∧
      (w.mmio.queue q).num ≠ 0 ∧
      t.queue = { w.mmio.queue q with lastAvailIdx := (w.mmio.queue q).lastAvailIdx + 1 } ∧
      ∃ ds, (w.mmio.queue q).chainDescs mem w.host.mem (w.mmio.queue q).num.toNat
          (w.host.mem.load UInt16 ((w.mmio.queue q).availEntry ptr)) = some ds ∧
        (w.mmio.queue q).ChainFits mem w.host.overflowChecks ds ∧
        chain = DescChain.addBufs mem w.host.mem (ds.map Prod.snd)
          ⟨w.host.mem.load UInt16 ((w.mmio.queue q).availEntry ptr), [], []⟩ := by
  obtain ⟨ptr, hp, hn, ⟨-, h0, -⟩ | ⟨hne, h0, hq, ds, hds, fits, hc⟩⟩ :=
    VringQueue.popAvail_ok t.pop
  · cases h0
  · exact ⟨ptr, hp, hn, hne, h0, hq, ds, hds, fits, Option.some_inj.mp hc⟩

/-- The queue after the chain. -/
lemma Handles.queue_eq {chain : DescChain} {len : UInt32} (t : Handles mem q w chain len w') :
    w'.mmio.queue q = t.queue := by
  rw [t.mmio]
  exact Function.update_self ..

/-- Turns change nothing of their queue but the device's index. -/
lemma iter_queue (it : Eff.Iter (notifyTurn q mem) w w') :
    ∃ idx, w'.mmio.queue q = { w.mmio.queue q with lastAvailIdx := idx } := by
  refine it.invariant (I := fun w' => ∃ idx, w'.mmio.queue q =
    { w.mmio.queue q with lastAvailIdx := idx }) ?_ ⟨_, rfl⟩
  rintro w₁ w₂ ⟨idx, h₁⟩ e
  obtain ⟨h, -⟩ | ⟨h, -⟩ | ⟨-, -, chain, len, ⟨t⟩⟩ := notifyTurn_ok e
  · cases h
  · cases h
  · obtain ⟨ptr, -, -, -, -, hq, -⟩ := t.pop_ok
    exact ⟨_, by rw [t.queue_eq, hq, h₁]⟩

/-- The line is set, and memory left alone. -/
lemma archUpdateIrq_ok {level num : UInt32} {h h' : Host}
    (e : archUpdateIrq level num h = (.ok (), h')) :
    h'.mem = h.mem ∧ h'.events = h.events ++ [.irq num level] := by
  unfold archUpdateIrq at e
  split at e
  · cases e
  · cases e; exact ⟨rfl, rfl⟩
  · cases e; exact ⟨rfl, rfl⟩

end Turn

/-! ## The two halves of a turn -/

section Halves

variable [VirtioDevice D]

/-- A turn up to the chain being handed back. -/
def serve (q : Fin vringQueuesMax) (mem : GuestMemory) : WorldM D Bool := do
  let w ← Eff.gets id
  if VirtioDevice.canProcess w.mmio.device (UInt32.ofNat q) then
    let (chain, queue) ← onHost ((w.mmio.queue q).popAvail mem)
    Eff.modify (World.setQueue q queue)
    match chain with
    | none => pure false
    | some chain =>
      let len ← onDevice (VirtioDevice.process (UInt32.ofNat q) chain)
      onHost (queue.pushUsed mem chain.head len)
      pure true
  else
    pure false

/-- The rest of a turn that completed a chain. -/
def announce : WorldM D Unit := do
  Eff.modify World.raiseVring
  let w ← Eff.gets id
  onHost (archUpdateIrq 1 w.mmio.irq)

/-- A turn is the one half and then the other. -/
lemma notifyTurn_eq (q : Fin vringQueuesMax) (mem : GuestMemory) :
    notifyTurn (D := D) q mem = (do
      if ← serve q mem then
        announce
        pure true
      else pure false) := by
  funext w
  unfold notifyTurn serve
  rw [Eff.bind_assoc, Eff.gets_bind_run, Eff.gets_bind_run]
  by_cases can : VirtioDevice.canProcess (id w).mmio.device (UInt32.ofNat q) = true
  · rw [if_pos can, if_pos can, Eff.bind_assoc]
    refine Eff.bind_congr fun ⟨chain, queue⟩ w1 e1 => ?_
    cases chain with
    | none => rfl
    | some chain =>
      dsimp only
      rw [Eff.modify_bind_run, Eff.bind_assoc, Eff.modify_bind_run, Eff.bind_assoc]
      refine Eff.bind_congr fun len w3 e3 => ?_
      rw [Eff.bind_assoc]
      refine Eff.bind_congr fun _ w4 e4 => ?_
      have irq : (World.raiseVring w4).mmio.irq = w.mmio.irq := by
        have m1 := congrArg (fun r => r.2.mmio.irq) e1
        have m3 := congrArg (fun r => r.2.mmio.irq) e3
        have m4 := congrArg (fun r => r.2.mmio.irq) e4
        exact m4.symm.trans (m3.symm.trans m1.symm)
      dsimp only [id]
      rw [Eff.pure_bind_run, if_pos rfl, announce, Eff.bind_assoc, Eff.modify_bind_run,
        Eff.modify_bind_run, Eff.bind_assoc, Eff.gets_bind_run]
      dsimp only [id]
      rw [irq]
  · rw [if_neg can, if_neg can]
    rfl

/-- A turn that goes on has served a chain and announced it. -/
lemma notifyTurn_true (e : notifyTurn q mem w = (.ok true, w')) :
    ∃ w₁, serve q mem w = (.ok true, w₁) ∧ announce w₁ = (.ok (), w') := by
  rw [notifyTurn_eq] at e
  obtain ⟨b, w₁, e1, e⟩ := Eff.bind_ok_iff.mp e
  cases b with
  | true =>
    obtain ⟨_, w₂, e2, e⟩ := Eff.bind_ok_iff.mp e
    cases e
    exact ⟨w₁, e1, e2⟩
  | false => cases e

/-- One that does not has served none. -/
lemma notifyTurn_false (e : notifyTurn q mem w = (.ok false, w')) :
    serve q mem w = (.ok false, w') := by
  rw [notifyTurn_eq] at e
  obtain ⟨b, w₁, e1, e⟩ := Eff.bind_ok_iff.mp e
  cases b with
  | true =>
    obtain ⟨_, w₂, -, e⟩ := Eff.bind_ok_iff.mp e
    cases e
  | false =>
    cases e
    exact e1

end Halves

/-- Announcing sets the status bit and raises the line. -/
lemma announce_ok (e : announce w = (.ok (), w')) :
    w'.host.mem = w.host.mem ∧ w'.host.events = w.host.events ++ [.irq w.mmio.irq 1] ∧
      w'.mmio = { w.mmio with irqStatus := w.mmio.irqStatus ||| virtioMmioIntVring } := by
  obtain ⟨_, w1, e1, e2⟩ := Eff.bind_ok_iff.mp e
  cases e1
  obtain ⟨self, w2, e3, e4⟩ := Eff.bind_ok_iff.mp e2
  cases e3
  obtain ⟨irq, m⟩ := onHost_ok e4
  obtain ⟨hmem, hev⟩ := archUpdateIrq_ok irq
  exact ⟨hmem, hev, m⟩

/-- An interrupt that can be raised is. -/
lemma announce_run {h : Host} (irq : archUpdateIrq 1 w.mmio.irq w.host = (.ok (), h)) :
    announce w = (.ok (), { w.raiseVring with host := h }) := by
  unfold announce
  rw [Eff.modify_bind_run, Eff.gets_bind_run]
  exact onHost_run irq

/-- An entry of the used ring is in it. -/
lemma VringQueue.usedEntry_inside (self : VringQueue) (ptr : Nat) (idx : UInt16)
    (h0 : self.num ≠ 0) :
    Span.Inside ⟨self.usedEntry ptr idx, 8⟩ ⟨ptr + 2, self.usedSize - 2⟩ := by
  have hlt : idx.toNat % self.num.toNat < self.num.toNat :=
    Nat.mod_lt _ (Nat.pos_of_ne_zero fun h => h0 (UInt32.toNat_inj.mp h))
  have hsize : self.usedSize = 4 + 8 * self.num.toNat := rfl
  apply Span.inside_of_le <;> simp only [usedEntry] <;> omega

/-- Handing a chain back changes the used ring from its index on only. -/
lemma VringQueue.pushUsed_outside {self : VringQueue} {head : UInt16} {len : UInt32} {h h' : Host}
    (e : self.pushUsed mem head len h = (.ok (), h')) {a : Nat}
    (ha : ∀ ptr, gpaToHost mem self.used self.usedSize = some ptr →
      a ∉ (⟨ptr + 2, self.usedSize - 2⟩ : Span)) : h'.mem a = h.mem a := by
  obtain ⟨ptr, hp, h0, hm, -⟩ := pushUsed_ok e
  have hsize : self.usedSize = 4 + 8 * self.num.toNat := rfl
  rw [hm, Mem.store_outside, Mem.store_outside]
  · exact fun hx => ha ptr hp (self.usedEntry_inside ptr _ h0 a hx)
  · refine fun hx => ha ptr hp (Span.inside_of_le ?_ ?_ a hx) <;> simp only [size_u16] <;> omega

section Ends

variable [ConfinedDevice D]

/-- Processing a chain changes memory in its writable buffers only. -/
lemma Handles.processed_mem {chain : DescChain} {len : UInt32} (t : Handles mem q w chain len w')
    {a : Nat} (hbuf : ∀ buf ∈ chain.writeBuf, a ∉ buf) : t.processed.1.mem a = w.host.mem a := by
  obtain ⟨ptr, -, ⟨ev, hm⟩, -⟩ := t.pop_ok
  have hproc := ConfinedDevice.process_touches (UInt32.ofNat q) chain (t.taken, w.mmio.device)
  rw [t.process] at hproc
  have htaken := hproc.mem a fun ⟨buf, hb, ha⟩ => hbuf buf hb ha
  rw [hm] at htaken
  exact htaken

/-- Memory outside the chain's writable buffers and the used ring stays as it is. -/
lemma Handles.mem_outside {chain : DescChain} {len : UInt32} (t : Handles mem q w chain len w')
    {a : Nat} (hbuf : ∀ buf ∈ chain.writeBuf, a ∉ buf)
    (hused : ∀ ptr, gpaToHost mem (w.mmio.queue q).used (w.mmio.queue q).usedSize = some ptr →
      a ∉ (⟨ptr + 2, (w.mmio.queue q).usedSize - 2⟩ : Span)) :
    w'.host.mem a = w.host.mem a := by
  obtain ⟨ptr, -, -, -, -, hq, -⟩ := t.pop_ok
  calc w'.host.mem a = t.pushed.mem a := by rw [(archUpdateIrq_ok t.irq).1]
    _ = t.processed.1.mem a := VringQueue.pushUsed_outside t.push (by rw [hq]; exact hused)
    _ = w.host.mem a := t.processed_mem hbuf

/-- What is noted while a chain is handled: reads of guest memory, writes inside the chain's
    buffers, the accesses that hand it back, and the interrupt. -/
lemma Handles.events_ok {chain : DescChain} {len : UInt32} (t : Handles mem q w chain len w') :
    ∃ reads writes ptr, (∀ e ∈ reads, Event.ReadsGuest mem e) ∧
      (∀ e ∈ writes, Event.WritesBufs chain.writeBuf e) ∧
      gpaToHost mem t.queue.used t.queue.usedSize = some ptr ∧
      let idx := t.processed.1.mem.load UInt16 (ptr + 2)
      let elem : VringUsedElem := ⟨chain.head.toUInt32, len⟩
      w'.host.events = w.host.events ++ (reads ++ writes ++
        [.read ⟨ptr, 4⟩, .write (t.queue.usedEntry ptr idx) (Layout.encode elem),
          .write (ptr + 2) (Layout.encode (idx + 1)), .used t.queue.used chain.head len,
          .irq w.mmio.irq 1]) := by
  have hpop := VringQueue.popAvail_touches (A := fun _ => False) mem (w.mmio.queue q) w.host
  rw [t.pop] at hpop
  obtain ⟨reads, e1, hreads⟩ := hpop.events
  have hproc := ConfinedDevice.process_touches (UInt32.ofNat q) chain (t.taken, w.mmio.device)
  rw [t.process] at hproc
  obtain ⟨writes, e2, hwrites⟩ := hproc.events
  obtain ⟨ptr, hp, -, -, e3⟩ := VringQueue.pushUsed_ok t.push
  refine ⟨reads, writes, ptr, hreads, hwrites, hp, ?_⟩
  dsimp only at e1 e2 ⊢
  rw [(archUpdateIrq_ok t.irq).2, e3, e2, e1]
  simp only [List.append_assoc, List.cons_append, List.nil_append]

end Ends

/-! ## A small guest -/

/-- One region of one page. -/
def onePage : GuestMemory :=
  [{ memPtr := 0x1000, memSize := 0x1000, guestPhysAddr := 0, mapped := by decide }]

/-- A descriptor table at 0x200 with one readable buffer of a header's size, and an available ring
    at 0x100 with one chain in it. -/
def oneChain : Mem :=
  Mem.store (Mem.store (fun _ => 0) 0x1102 (1 : UInt16)) 0x1200
    ({ addr := 0x300, len := 12, flags := 0, next := 0 } : VringDesc)

/-- A transmit queue with one slot, its used ring at `used`. -/
def transmitQueue (used : UInt64) : VringQueue :=
  { ready := 1, num := 1, lastAvailIdx := 0, desc := 0x200, avail := 0x100, used := used }

/-- A virtio-net device with that queue in a guest with memory `m`. -/
def transmitWorld (used : UInt64) (m : Mem) : World VirtioNet where
  host := .release m
  mmio := VirtioMmio.setQueue 1 (transmitQueue used)
    (.new { tap := { sent := [], writeFails := [] }, rxPending := [] } 5)

/-- A queue of two entries, its used ring behind its table. -/
def pairQueue : VringQueue :=
  { ready := 1, num := 2, lastAvailIdx := 0, desc := 0x200, avail := 0x100, used := 0x400 }

/-- A table of two buffers with these flags, each with room for a header and two bytes. -/
def twoBuffers (flags : UInt16) : Mem :=
  (Mem.store (fun _ => 0) 0x1200 ({ addr := 0x300, len := 14, flags := flags, next := 0 } :
    VringDesc)).store 0x1210
    ({ addr := 0x320, len := 14, flags := flags, next := 0 } : VringDesc)

/-- The driver puts a head in the available ring of that queue, after `n` others. -/
def offer (n : Nat) (head : UInt16) (m : Mem) : Mem :=
  (m.store (0x1104 + 2 * (n % 2)) head).store 0x1102 (UInt16.ofNat (n + 1))

/-- A virtio-net device of which `pairQueue` is queue `q`. -/
def pairWorld (q : Fin vringQueuesMax) (m : Mem) : World VirtioNet where
  host := .release m
  mmio := VirtioMmio.setQueue q pairQueue
    (.new { tap := { sent := [], writeFails := [] }, rxPending := [] } 5)

/-- A disk without a sector. -/
def noSectors : VirtioBlk where
  disk := ⟨[], [], [], []⟩
  capacity := 0
  fits := by decide

end Hearth
