import Hearth.Virtio.Notify

/-!
# When a notification ends

The loop of `queueNotify` reads the driver's index again before each chain, from memory that it
writes itself. A chain that is handled without a write to that index makes the distance between it
and the device's own smaller by one. So a notification ends if nothing that the device can be made
to write reaches the index: `queueNotify_ends` has this as a condition on the registers and the
memory at the call. Nothing in the code keeps the areas apart. With the used ring placed on the
available ring each chain handed back makes one more available (`aliased_not_ok`), and the device
may chase its own writes for ever (`aliased_never_ends`).
-/

namespace Hearth
open Lib

/-! ## What devices write -/

/-- A device of which it is known where a request makes it write, and which chains are requests
    that it does not return an error for. -/
class WritingDevice (D : Type) extends ConfinedDevice D where
  written : (queue : UInt32) → DescChain → List Span
  process_writes : ∀ queue chain (s : Host × D),
    TouchesBufs (written queue chain) s (VirtioDevice.process queue chain s).2
  serves : (queue : UInt32) → DescChain → Prop
  process_serves : ∀ queue chain (s s' : Host × D) len,
    VirtioDevice.process queue chain s = (.ok len, s') → serves queue chain

namespace VirtioBlk

/-- A request with a header and a status buffer makes virtio-blk write the status, and a read
    also the buffers before it. -/
def writes (chain : DescChain) : List Span :=
  match newFrom VirtioBlkOuthdr chain.readBuf, chain.writeBuf.getLast? with
  | some outhdr, some status =>
    (if outhdr.type = virtioBlkTIn then chain.writeBuf.dropLast else []) ++ [⟨status.base, 1⟩]
  | _, _ => []

/-- Only a read writes to the data buffers. -/
lemma request_writes (outhdr : VirtioBlkOuthdr) (data : List Span) (outData : List UInt8)
    {bufs : List Span} (hd : outhdr.type = virtioBlkTIn → ∀ buf ∈ data, buf ∈ bufs) :
    Eff.Within (TouchesBufs bufs) (request outhdr data outData) := by
  by_cases hin : outhdr.type = virtioBlkTIn
  · exact request_touches outhdr data outData (hd hin)
  · unfold request
    rw [if_neg hin]
    split
    · exact Eff.Within.bind .trans (write_touches _ _) fun r s => .refl s
    · split
      · exact Eff.Within.bind .trans (onDisk_touches _) fun r s => .refl s
      · exact fun s => .refl s

/-- The status is one byte. -/
lemma setStatus_writes {status : Span} {bufs : List Span} (value : UInt8)
    (hs : ⟨status.base, 1⟩ ∈ bufs) :
    Eff.Within (TouchesBufs bufs) (setStatus status value) := by
  unfold setStatus
  split
  · exact fun s => .refl s
  · apply host_touches
    show Eff.Within _ (writeSlice ⟨status.base, 1⟩ [value])
    exact writeSlice_bufs hs (Nat.le_refl 1)

/-- A request writes what `writes` says. -/
lemma process_writes (chain : DescChain) :
    Eff.Within (TouchesBufs (writes chain)) (process chain) := by
  intro s
  refine Eff.rel_bind .trans (Eff.within_okOr .refl _ _ s) fun outhdr s1 e1 => ?_
  refine Eff.rel_bind .trans (Eff.within_okOr .refl _ _ s1) fun status s2 e2 => ?_
  have whole : writes chain =
      (if outhdr.type = virtioBlkTIn then chain.writeBuf.dropLast else []) ++
      [⟨status.base, 1⟩] := by
    unfold writes
    rw [(Eff.okOr_ok e1).1, (Eff.okOr_ok e2).1]
  have data : outhdr.type = virtioBlkTIn → ∀ buf ∈ chain.writeBuf.dropLast, buf ∈ writes chain := by
    intro hin buf hb
    rw [whole, if_pos hin]
    exact List.mem_append_left _ hb
  have last : ⟨status.base, 1⟩ ∈ writes chain := by
    rw [whole]
    exact List.mem_append_right _ List.mem_cons_self
  refine Eff.Within.bind .trans (request_writes outhdr _ _ data) (fun r => ?_) s2
  cases r with
  | none => exact Eff.Within.bind .trans (setStatus_writes _ last) fun _ s => .refl s
  | some r =>
    exact Eff.Within.bind .trans (setStatus_writes _ last) fun _ =>
      host_touches (addU32_touches _ _)

/-- A request has a header, and a last buffer with a byte for the status. -/
def serves (chain : DescChain) : Prop :=
  (newFrom VirtioBlkOuthdr chain.readBuf).isSome = true ∧
    ∃ status, chain.writeBuf.getLast? = some status ∧ status.len ≠ 0

/-- What is not served is an error or, if only the byte for the status is missing, a panic. -/
lemma process_serves {chain : DescChain} {s s' : Host × VirtioBlk} {len : UInt32}
    (e : process chain s = (.ok len, s')) : serves chain := by
  obtain ⟨outhdr, s1, e1, e⟩ := Eff.bind_ok_iff.mp e
  obtain ⟨status, s2, e2, e⟩ := Eff.bind_ok_iff.mp e
  refine ⟨by rw [(Eff.okOr_ok e1).1]; rfl, status, (Eff.okOr_ok e2).1, fun empty => ?_⟩
  obtain ⟨r, s3, -, e⟩ := Eff.bind_ok_iff.mp e
  cases r with
  | none =>
    obtain ⟨_, s4, e4, -⟩ := Eff.bind_ok_iff.mp e
    cases (setStatus_empty empty _ _).symm.trans e4
  | some r =>
    obtain ⟨_, s4, e4, -⟩ := Eff.bind_ok_iff.mp e
    cases (setStatus_empty empty _ _).symm.trans e4

end VirtioBlk

/-- Where virtio-blk writes. -/
instance : WritingDevice VirtioBlk where
  written _ chain := VirtioBlk.writes chain
  process_writes _ chain := VirtioBlk.process_writes chain
  serves _ chain := VirtioBlk.serves chain
  process_serves _ _ _ _ _ := VirtioBlk.process_serves

namespace VirtioNet

/-- Only received frames are written to the guest. -/
def writes (queue : UInt32) (chain : DescChain) : List Span :=
  if queue = virtioNetQueueRx then chain.writeBuf else []

/-- A request writes what `writes` says. -/
lemma process_writes (queue : UInt32) (chain : DescChain) :
    Eff.Within (TouchesBufs (writes queue chain)) (process queue chain) := by
  unfold writes
  by_cases rx : queue = virtioNetQueueRx
  · rw [if_pos rx]
    exact process_touches queue chain
  · unfold process
    rw [if_neg rx, if_neg rx]
    split
    · refine Eff.Within.bind .trans (Eff.within_okOr .refl _ _) fun _ => ?_
      exact Eff.Within.bind .trans (fun s => Touches.refl s.1) fun _ s => .refl s
    · exact fun s => .refl s

/-- What is to be sent has a header. -/
def serves (queue : UInt32) (chain : DescChain) : Prop :=
  queue = virtioNetQueueTx → (newFrom VirtioNetHdrV1 chain.readBuf).isSome = true

/-- Without it there is an error. -/
lemma process_serves {queue : UInt32} {chain : DescChain} {s s' : Host × VirtioNet} {len : UInt32}
    (e : process queue chain s = (.ok len, s')) : serves queue chain := by
  rintro rfl
  obtain ⟨header, s1, e1, -⟩ := Eff.bind_ok_iff.mp e
  rw [(Eff.okOr_ok e1).1]
  rfl

end VirtioNet

/-- Where virtio-net writes. -/
instance : WritingDevice VirtioNet where
  written := VirtioNet.writes
  process_writes := VirtioNet.process_writes
  serves := VirtioNet.serves
  process_serves _ _ _ _ _ := VirtioNet.process_serves

/-! ## The condition -/

variable {D : Type} [WritingDevice D] {mem : GuestMemory} {q : Fin vringQueuesMax} {w w' : World D}

/-- The entry of this index is available: it comes from the device's index
on, and before the driver's. -/
def VringQueue.Ahead (self : VringQueue) (availIdx idx : UInt16) : Prop :=
  (idx - self.lastAvailIdx).toNat < (availIdx - self.lastAvailIdx).toNat

/-- The device may come to a chain and hand it back: its entry is available, and neither the walk
    nor the device finds a fault in it. The bytes of `A` may be anything by then. -/
def MayHandle (mem : GuestMemory) (q : Fin vringQueuesMax) (w : World D) (A : Set Nat)
    (chain : DescChain) : Prop :=
  ∃ ptr idx m ds, gpaToHost mem (w.mmio.queue q).avail (w.mmio.queue q).availSize = some ptr ∧
    (w.mmio.queue q).Ahead (w.host.mem.load UInt16 (ptr + 2)) idx ∧
    (∀ a ∉ A, m a = w.host.mem a) ∧
    let head := m.load UInt16
      (VringQueue.availEntry { w.mmio.queue q with lastAvailIdx := idx } ptr)
    (w.mmio.queue q).chainDescs mem m (w.mmio.queue q).num.toNat head = some ds ∧
      (w.mmio.queue q).ChainFits mem w.host.overflowChecks ds ∧
      chain = DescChain.addBufs mem m (ds.map Prod.snd) ⟨head, [], []⟩ ∧
      WritingDevice.serves D (UInt32.ofNat q) chain

/-- For the chains that it may hand back the device writes in `A` only: the used ring from its
    index on, and what the chain makes it write. -/
structure WritesWithin (mem : GuestMemory) (q : Fin vringQueuesMax) (w : World D)
    (A : Set Nat) : Prop where
  used : ∀ chain, MayHandle mem q w A chain →
    ∀ ptr, gpaToHost mem (w.mmio.queue q).used (w.mmio.queue q).usedSize = some ptr →
      ∀ a ∈ (⟨ptr + 2, (w.mmio.queue q).usedSize - 2⟩ : Span), a ∈ A
  bufs : ∀ chain, MayHandle mem q w A chain →
    ∀ buf ∈ WritingDevice.written D (UInt32.ofNat q) chain, ∀ a ∈ buf, a ∈ A

/-- Nothing that the device can be made to write is one of the two bytes of the driver's index. -/
def LeavesAvailIdx (mem : GuestMemory) (q : Fin vringQueuesMax) (w : World D) : Prop :=
  ∃ A, WritesWithin mem q w A ∧
    ∀ ptr, gpaToHost mem (w.mmio.queue q).avail (w.mmio.queue q).availSize = some ptr →
      ∀ a ∈ (⟨ptr + 2, 2⟩ : Span), a ∉ A

/-- If the queue is set up and the device has something to do with it, notifying it leaves the
    driver's index alone. -/
def NotifyLeaves (mem : GuestMemory) (queueIdx : UInt32) (w : World D) : Prop :=
  ∀ q, VirtioMmio.queueIndex queueIdx = some q → (w.mmio.queue q).ready ≠ 0 →
    (w.mmio.queue q).num ≠ 0 →
    VirtioDevice.canProcess w.mmio.device (UInt32.ofNat q) = true →
    LeavesAvailIdx mem q w

/-! ## Turns -/

/-- What is written while a chain is handled. -/
lemma Handles.written_outside {chain : DescChain} {len : UInt32}
    (t : Handles mem q w chain len w') {a : Nat}
    (hbuf : ∀ buf ∈ WritingDevice.written D (UInt32.ofNat q) chain, a ∉ buf)
    (hused : ∀ ptr, gpaToHost mem (w.mmio.queue q).used (w.mmio.queue q).usedSize = some ptr →
      a ∉ (⟨ptr + 2, (w.mmio.queue q).usedSize - 2⟩ : Span)) :
    w'.host.mem a = w.host.mem a := by
  obtain ⟨ptr, -, ⟨ev, hm⟩, -, -, hq, -⟩ := t.pop_ok
  have hproc := WritingDevice.process_writes (UInt32.ofNat q) chain (t.taken, w.mmio.device)
  rw [t.process] at hproc
  have htaken := hproc.mem a fun ⟨buf, hb, ha⟩ => hbuf buf hb ha
  rw [hm] at htaken
  calc w'.host.mem a = t.pushed.mem a := by rw [(archUpdateIrq_ok t.irq).1]
    _ = t.processed.1.mem a := VringQueue.pushUsed_outside t.push (by rw [hq]; exact hused)
    _ = w.host.mem a := htaken

/-- Handling a chain leaves the build as it is. -/
lemma Handles.checks {chain : DescChain} {len : UInt32} (t : Handles mem q w chain len w') :
    w'.host.overflowChecks = w.host.overflowChecks := by
  obtain ⟨ptr, -, ⟨ev, hm⟩, -, -, -, -⟩ := t.pop_ok
  have hproc := WritingDevice.process_writes (UInt32.ofNat q) chain (t.taken, w.mmio.device)
  rw [t.process] at hproc
  have push : Eff.Within _ (t.queue.pushUsed mem chain.head len) :=
    t.queue.pushUsed_touches chain.head len
  have hpush := push t.processed.1
  rw [t.push] at hpush
  have hirq := archUpdateIrq_touches (P := fun _ => True) (A := fun _ => False) 1 w.mmio.irq
    trivial t.pushed
  rw [t.irq] at hirq
  rw [hirq.checks, hpush.checks, hproc.checks, hm]

/-- How many chains the driver's index is ahead of the device's own. -/
def availCount (mem : GuestMemory) (q : Fin vringQueuesMax) (w : World D) : Nat :=
  match gpaToHost mem (w.mmio.queue q).avail (w.mmio.queue q).availSize with
  | some ptr => (w.host.mem.load UInt16 (ptr + 2) - (w.mmio.queue q).lastAvailIdx).toNat
  | none => 0

/-- One index further on, fewer are left up to the other. -/
lemma sub_succ_lt {a l : UInt16} (h : l ≠ a) : (a - (l + 1)).toNat < (a - l).toNat := by
  have hne : l.toNat ≠ a.toNat := fun e => h (UInt16.toNat_inj.mp e)
  have ha := a.toNat_lt
  have hl := l.toNat_lt
  simp only [UInt16.toNat_sub, UInt16.toNat_add, UInt16.toNat_one]
  omega

/-- The next index is another. -/
lemma succ_ne_self (l : UInt16) : l ≠ l + 1 := by
  intro e
  have e' := congrArg UInt16.toNat e
  have := l.toNat_lt
  simp only [UInt16.toNat_add, UInt16.toNat_one] at e'
  omega

/-- An index that the device has come to, with the driver's not reached. -/
lemma available_of_le {self : VringQueue} {a idx : UInt16} (ne : idx ≠ a)
    (le : (a - idx).toNat ≤ (a - self.lastAvailIdx).toNat) : self.Ahead a idx := by
  have hne : idx.toNat ≠ a.toNat := fun e => ne (UInt16.toNat_inj.mp e)
  have ha := a.toNat_lt
  have hi := idx.toNat_lt
  have hl := self.lastAvailIdx.toNat_lt
  unfold VringQueue.Ahead
  simp only [UInt16.toNat_sub] at le ⊢
  omega

/-- Where a notification has come to: the device has written in `A` only, and what is left to do
    is no more than at its start. -/
structure Under (mem : GuestMemory) (q : Fin vringQueuesMax) (A : Set Nat)
    (w w' : World D) : Prop where
  outside : ∀ a ∉ A, w'.host.mem a = w.host.mem a
  checks : w'.host.overflowChecks = w.host.overflowChecks
  queue : ∃ idx, w'.mmio.queue q = { w.mmio.queue q with lastAvailIdx := idx }
  left : availCount mem q w' ≤ availCount mem q w

/-- One chain less is available once one is handled, if the device does not
write to the driver's index. -/
lemma Under.handles {A : Set Nat} {w₁ w₂ : World D} {chain : DescChain} {len : UInt32}
    (h : Under mem q A w w₁) (within : WritesWithin mem q w A)
    (apart : ∀ ptr, gpaToHost mem (w.mmio.queue q).avail (w.mmio.queue q).availSize = some ptr →
      ∀ a ∈ (⟨ptr + 2, 2⟩ : Span), a ∉ A)
    (t : Handles mem q w₁ chain len w₂) :
    Under mem q A w w₂ ∧ availCount mem q w₂ < availCount mem q w₁ := by
  obtain ⟨idx, hq₁⟩ := h.queue
  obtain ⟨ptr, hp₁, -, hne, -, hq₂, ds, hds, fits, hchain⟩ := t.pop_ok
  rw [← t.queue_eq] at hq₂
  have hp : gpaToHost mem (w.mmio.queue q).avail (w.mmio.queue q).availSize = some ptr := by
    rw [hq₁] at hp₁
    exact hp₁
  have hp₂ : gpaToHost mem (w₂.mmio.queue q).avail (w₂.mmio.queue q).availSize = some ptr := by
    rw [hq₂]
    exact hp₁
  -- the driver's index is as it was at the start
  have same : w₁.host.mem.load UInt16 (ptr + 2) = w.host.mem.load UInt16 (ptr + 2) :=
    Mem.load_congr fun a ha => h.outside a (apart ptr hp a ha)
  have count : (w.host.mem.load UInt16 (ptr + 2) - (w₁.mmio.queue q).lastAvailIdx).toNat ≤
      (w.host.mem.load UInt16 (ptr + 2) - (w.mmio.queue q).lastAvailIdx).toNat := by
    have left := h.left
    simp only [availCount, hp, hp₁, same] at left
    exact left
  have available : (w.mmio.queue q).Ahead (w.host.mem.load UInt16 (ptr + 2)) idx := by
    rw [hq₁] at hne count
    exact available_of_le (same ▸ hne) count
  have may : MayHandle mem q w A chain := by
    have table (turns : Nat) (i : UInt16) : (w.mmio.queue q).chainDescs mem w₁.host.mem turns i =
        (w₁.mmio.queue q).chainDescs mem w₁.host.mem turns i :=
      VringQueue.chainDescs_of_desc mem (by rw [hq₁]) turns i
    rw [← table, hq₁] at hds
    rw [hq₁] at hchain
    rw [h.checks, hq₁] at fits
    exact ⟨ptr, idx, w₁.host.mem, ds, hp, available, h.outside, hds, fits, hchain,
      WritingDevice.process_serves _ _ _ _ _ t.process⟩
  have outside : ∀ a ∉ A, w₂.host.mem a = w.host.mem a := by
    intro a ha
    rw [← h.outside a ha]
    apply t.written_outside
    · exact fun buf hb hin => ha (within.bufs chain may buf hb a hin)
    · intro usedPtr hu hin
      rw [hq₁] at hu hin
      exact ha (within.used chain may usedPtr hu a hin)
  have same₂ : w₂.host.mem.load UInt16 (ptr + 2) = w₁.host.mem.load UInt16 (ptr + 2) := by
    rw [same]
    exact Mem.load_congr fun a ha => outside a (apart ptr hp a ha)
  have less : availCount mem q w₂ < availCount mem q w₁ := by
    simp only [availCount, hp₁, hp₂, same₂]
    rw [hq₂]
    exact sub_succ_lt hne
  refine ⟨⟨outside, t.checks.trans h.checks, ⟨(w₁.mmio.queue q).lastAvailIdx + 1, ?_⟩,
    Nat.le_trans (Nat.le_of_lt less) h.left⟩, less⟩
  rw [hq₂, hq₁]

/-- A walk ends with its turns. -/
lemma walk_ends (self : VringQueue) (turns : Nat) (idx : UInt16) (chain : DescChain) :
    Eff.Ends (self.walk mem turns idx chain) := by
  induction turns generalizing idx chain with
  | zero => exact nofun
  | succ turns ih =>
    refine Eff.Ends.bind
      (Eff.Ends.bind ?_ fun _ => Eff.Ends.bind (Eff.ends_unwrap _) fun _ => nofun)
      fun d => Eff.Ends.bind ?_ fun chain => ?_
    · intro h
      unfold addU64
      split <;> exact nofun
    · unfold VringQueue.addDesc
      cases d.type with
      | write => exact Eff.Ends.bind (Eff.ends_okOr _ _) fun _ => nofun
      | read =>
        exact Eff.Ends.bind (Eff.Ends.bind (Eff.ends_unwrap _) fun _ => nofun) fun _ => nofun
    · split
      · exact ih _ _
      · exact nofun

/-- Taking a remainder ends. -/
lemma remU32_ends (a b : UInt32) : Eff.Ends (VringQueue.remU32 a b) := by
  unfold VringQueue.remU32
  split <;> exact nofun

/-- Taking a chain from the queue ends. -/
lemma popAvail_ends (self : VringQueue) : Eff.Ends (self.popAvail mem) := by
  refine Eff.Ends.bind (Eff.ends_okOr _ _) fun ptr => ?_
  refine Eff.Ends.bind nofun fun avail => ?_
  split
  · exact nofun
  · refine Eff.Ends.bind (remU32_ends _ _) fun slot => ?_
    refine Eff.Ends.bind nofun fun head => ?_
    exact Eff.Ends.bind (walk_ends _ _ _ _) fun _ => nofun

/-- Handing a chain back ends. -/
lemma pushUsed_ends (self : VringQueue) (head : UInt16) (len : UInt32) :
    Eff.Ends (self.pushUsed mem head len) := by
  refine Eff.Ends.bind (Eff.ends_okOr _ _) fun ptr => ?_
  refine Eff.Ends.bind nofun fun used => ?_
  refine Eff.Ends.bind (remU32_ends _ _) fun slot => ?_
  exact Eff.Ends.bind nofun fun _ => Eff.Ends.bind nofun fun _ => nofun

/-- A turn ends; only the loop around it may not. -/
lemma notifyTurn_ends (q : Fin vringQueuesMax) : Eff.Ends (notifyTurn (D := D) q mem) := by
  refine Eff.Ends.bind nofun fun self => ?_
  split
  · refine Eff.Ends.bind (.zoom (popAvail_ends _)) fun ⟨chain, queue⟩ => ?_
    refine Eff.Ends.bind nofun fun _ => ?_
    cases chain with
    | none => exact nofun
    | some chain =>
      refine Eff.Ends.bind (.zoom (ConfinedDevice.process_ends _ _)) fun len => ?_
      refine Eff.Ends.bind (.zoom (pushUsed_ends _ _ _)) fun _ => ?_
      refine Eff.Ends.bind nofun fun _ => Eff.Ends.bind (.zoom fun h => ?_) fun _ => nofun
      unfold archUpdateIrq
      split <;> exact nofun
  · exact nofun

/-- The driver's index is left alone: the loop ends, after fewer than 65536 chains. -/
lemma loop_notifyTurn_ends (h : LeavesAvailIdx mem q w) :
    (Eff.loop (notifyTurn q mem) 65536 w).1 ≠ .fuel := by
  obtain ⟨A, within, apart⟩ := h
  refine Eff.loop_ends (I := Under mem q A w) (availCount mem q) ?_ (fun s _ => notifyTurn_ends q s)
    ⟨fun _ _ => rfl, rfl, ⟨_, rfl⟩, Nat.le_refl _⟩ ?_
  · intro s s' inv e
    obtain ⟨h, -⟩ | ⟨h, -⟩ | ⟨-, -, chain, len, ⟨t⟩⟩ := notifyTurn_ok e
    · cases h
    · cases h
    · exact inv.handles within apart t
  · unfold availCount
    split
    · exact UInt16.toNat_lt _
    · omega

/-! ## Two requests to a disk -/

/-- Both entries of the available ring are for one chain: a header and a status buffer. -/
def twoRequests : Mem :=
  ((Mem.store (fun _ => 0) 0x1102 (2 : UInt16)).store 0x1200
    ({ addr := 0x300, len := 16, flags := 1, next := 1 } : VringDesc)).store 0x1210
    ({ addr := 0x500, len := 1, flags := 2, next := 0 } : VringDesc)

/-- An empty disk with a queue of two entries. -/
def requestWorld : World VirtioBlk where
  host := .release twoRequests
  mmio := VirtioMmio.setQueue 0 pairQueue (.new noSectors 5)

/-- The used ring from its index on, and the status. -/
def requestArea : Set Nat := {a | a ∈ (⟨0x1402, 18⟩ : Span) ∨ a ∈ (⟨0x1500, 1⟩ : Span)}

/-- The rest of the page is as it was. -/
lemma load_requests {α : Type} [Layout α] {m : Mem}
    (outside : ∀ a ∉ requestArea, m a = twoRequests a) {base : Nat}
    (low : base + Layout.size α ≤ 0x1402) : m.load α base = twoRequests.load α base := by
  refine Mem.load_congr fun a ha => outside a ?_
  have high : a < base + Layout.size α := ha.2
  rintro (h | h)
  · have : 0x1402 ≤ a := h.1
    omega
  · have : 0x1500 ≤ a := h.1
    omega

/-- The chain is the same at each turn. -/
lemma requests_chain {m : Mem} (outside : ∀ a ∉ requestArea, m a = twoRequests a) :
    pairQueue.chainDescs onePage m 2 0 =
      some [(0, { addr := 0x300, len := 16, flags := 1, next := 1 }),
        (1, { addr := 0x500, len := 1, flags := 2, next := 0 })] := by
  have table : pairQueue.descSpan? onePage 0 = some ⟨0x1200, 16⟩ ∧
      pairQueue.descSpan? onePage 1 = some ⟨0x1210, 16⟩ := by decide
  have first : m.load VringDesc 0x1200 = { addr := 0x300, len := 16, flags := 1, next := 1 } :=
    (load_requests outside (by decide)).trans (by decide)
  have second : m.load VringDesc 0x1210 = { addr := 0x500, len := 1, flags := 2, next := 0 } :=
    (load_requests outside (by decide)).trans (by decide)
  rw [VringQueue.chainDescs, table.1]
  dsimp only
  rw [first, if_pos (by decide), VringQueue.chainDescs, table.2]
  dsimp only
  rw [second, if_neg (by decide)]
  rfl

/-- Both requests write to the status only. -/
lemma requests_leave : NotifyLeaves onePage 0 requestWorld := by
  intro q hq _ _ _
  obtain rfl : 0 = q := Option.some_inj.mp hq
  refine ⟨requestArea, ⟨fun _ _ ptr hp a ha => ?_, ?_⟩, fun ptr hp a ha => ?_⟩
  · cases (by decide : gpaToHost onePage 0x400 20 = some 0x1400).symm.trans hp
    exact .inl ha
  · rintro chain ⟨ptr, idx, m, ds, hp, _, outside, hds, _, rfl, _⟩ buf hb a ha
    cases (by decide : gpaToHost onePage 0x100 8 = some 0x1100).symm.trans hp
    generalize hhead : m.load UInt16 _ = head at hds hb
    have zero : head = 0 := by
      have slot : idx.toNat % 2 < 2 := Nat.mod_lt _ (Nat.zero_lt_succ 1)
      have entry : m.load UInt16 (0x1100 + (4 + 2 * (idx.toNat % 2))) = _ :=
        load_requests outside (by show _ + 2 ≤ 0x1402; omega)
      refine hhead.symm.trans (entry.trans ?_)
      interval_cases idx.toNat % 2
      · decide
      · decide
    rw [zero] at hds hb
    cases (requests_chain outside).symm.trans hds
    have status : buf = ⟨0x1500, 1⟩ := by
      have last : writeBufs onePage
          (List.map Prod.snd [((0 : UInt16), { addr := 0x300, len := 16, flags := 1, next := 1 }),
            (1, { addr := 0x500, len := 1, flags := 2, next := 0 })]) = [⟨0x1500, 1⟩] := by decide
      change buf ∈ VirtioBlk.writes (DescChain.addBufs onePage m _ _) at hb
      unfold VirtioBlk.writes DescChain.addBufs at hb
      rw [last] at hb
      split at hb
      · next outhdr status _ same =>
        cases same
        split at hb <;> exact List.mem_singleton.mp hb
      · cases hb
    rw [status] at ha
    exact .inr ha
  · cases (by decide : gpaToHost onePage 0x100 8 = some 0x1100).symm.trans hp
    rintro (h | h)
    · exact Span.apart_of_le (s := ⟨0x1102, 2⟩) (by decide) a ha h
    · exact Span.apart_of_le (s := ⟨0x1102, 2⟩) (by decide) a ha h

/-! ## A used ring on the available ring -/

/-- Where the two rings are the same memory, each chain handed back makes one more available. -/
lemma Handles.availCount_aliased {w w' : World VirtioNet} {chain : DescChain} {len : UInt32}
    (t : Handles mem 1 w chain len w')
    (same : ∀ ptr, gpaToHost mem (w.mmio.queue 1).used (w.mmio.queue 1).usedSize = some ptr →
      gpaToHost mem (w.mmio.queue 1).avail (w.mmio.queue 1).availSize = some ptr) :
    availCount mem 1 w' = availCount mem 1 w := by
  obtain ⟨ptr, hp, ⟨ev, taken⟩, -, -, hq, -⟩ := t.pop_ok
  obtain ⟨usedPtr, hu, -, pushed, -⟩ := VringQueue.pushUsed_ok t.push
  rw [hq] at hu
  obtain rfl : ptr = usedPtr := Option.some_inj.mp (hp.symm.trans (same usedPtr hu))
  have hp' : gpaToHost mem (w'.mmio.queue 1).avail (w'.mmio.queue 1).availSize = some ptr := by
    rw [t.queue_eq, hq]
    exact hp
  -- what is sent is not written to the guest
  have processed : t.processed.1.mem.load UInt16 (ptr + 2) = w.host.mem.load UInt16 (ptr + 2) := by
    refine Mem.load_congr fun a _ => ?_
    have hproc := WritingDevice.process_writes (UInt32.ofNat (1 : Fin vringQueuesMax)) chain
      (t.taken, w.mmio.device)
    rw [t.process] at hproc
    have kept := hproc.mem a fun ⟨buf, hb, _⟩ => absurd hb List.not_mem_nil
    rw [taken] at kept
    exact kept
  have idx : w'.host.mem.load UInt16 (ptr + 2) = w.host.mem.load UInt16 (ptr + 2) + 1 := by
    rw [(archUpdateIrq_ok t.irq).1, pushed, processed]
    exact Mem.load_store _ _ _
  simp only [availCount, hp, hp', idx]
  rw [t.queue_eq, hq]
  exact congrArg UInt16.toNat (add_sub_add_right_eq_sub _ _ _)

/-- With the used ring of a network device's transmit queue on its available ring, a notification
    that finds a chain does not come to an end of them, whatever is in guest memory. -/
theorem aliased_not_ok {w : World VirtioNet} (ready : (w.mmio.queue 1).ready ≠ 0)
    (num : (w.mmio.queue 1).num ≠ 0)
    (same : ∀ ptr, gpaToHost mem (w.mmio.queue 1).used (w.mmio.queue 1).usedSize = some ptr →
      gpaToHost mem (w.mmio.queue 1).avail (w.mmio.queue 1).availSize = some ptr)
    (ahead : availCount mem 1 w ≠ 0) (fuel : Nat) : (queueNotify fuel 1 mem w).1 ≠ .ok () := by
  intro ended
  rw [queueNotify_some (q := 1) rfl, if_neg (by simp [ready, num])] at ended
  rcases run : Eff.loop (notifyTurn 1 mem) fuel w with ⟨o, w'⟩
  rw [run] at ended
  dsimp only at ended
  subst ended
  obtain ⟨w₁, it, last⟩ := Eff.loop_ok run
  have inv : (∃ idx, w₁.mmio.queue 1 = { w.mmio.queue 1 with lastAvailIdx := idx }) ∧
      availCount mem 1 w₁ = availCount mem 1 w := by
    refine it.invariant
      (I := fun w₁ => (∃ idx, w₁.mmio.queue 1 = { w.mmio.queue 1 with lastAvailIdx := idx }) ∧
      availCount mem 1 w₁ = availCount mem 1 w) ?_ ⟨⟨_, rfl⟩, rfl⟩
    rintro s s' ⟨⟨idx, hs⟩, count⟩ e
    obtain ⟨h, -⟩ | ⟨h, -⟩ | ⟨-, -, chain, len, ⟨t⟩⟩ := notifyTurn_ok e
    · cases h
    · cases h
    · obtain ⟨ptr, -, -, -, -, hq, -⟩ := t.pop_ok
      refine ⟨⟨(s.mmio.queue 1).lastAvailIdx + 1, by rw [t.queue_eq, hq, hs]⟩, ?_⟩
      rw [t.availCount_aliased (by rw [hs]; exact same), count]
  obtain ⟨-, can, -⟩ | ⟨-, -, -, pop⟩ | ⟨h, -⟩ := notifyTurn_ok last
  · have always :
      VirtioDevice.canProcess w₁.mmio.device (UInt32.ofNat (1 : Fin vringQueuesMax)) = true := rfl
    cases always.symm.trans can
  · obtain ⟨ptr, hp, -, ⟨empty, -⟩ | ⟨-, -, -, ds, -, -, hc⟩⟩ := VringQueue.popAvail_ok pop
    · apply ahead
      rw [← inv.2]
      simp only [availCount, hp]
      rw [← empty, UInt16.sub_self]
      rfl
    · cases hc
  · cases h

/-- A transmit queue whose used ring lies on its available ring. -/
def aliasedQueue (l : UInt16) : VringQueue :=
  { ready := 1, num := 1, lastAvailIdx := l, desc := 0x200, avail := 0x100, used := 0x100 }

/-- The driver's index is one ahead of the device's, and the next chain is the same as before. -/
structure Chasing (m : Mem) (l : UInt16) : Prop where
  idx : m.load UInt16 0x1102 = l + 1
  head : m.load UInt16 0x1104 = 0
  desc : m.load VringDesc 0x1200 = { addr := 0x300, len := 12, flags := 0, next := 0 }

namespace Chasing

variable {h : Host} {l : UInt16}

/-- With one slot every entry is the first. -/
lemma entry (l : UInt16) : (aliasedQueue l).availEntry 0x1100 = 0x1104 := by
  simp [VringQueue.availEntry, aliasedQueue, Nat.mod_one]

/-- The available ring is in memory. -/
lemma ring_ptr (l : UInt16) :
    gpaToHost onePage (aliasedQueue l).avail (aliasedQueue l).availSize = some 0x1100 :=
  (by decide : gpaToHost onePage 0x100 6 = some 0x1100)

/-- The used ring is in the same place. -/
lemma used_ptr (l : UInt16) :
    gpaToHost onePage (aliasedQueue l).used (aliasedQueue l).usedSize = some 0x1100 :=
  (by decide : gpaToHost onePage 0x100 12 = some 0x1100)

/-- There is a chain to take. -/
lemma pop (c : Chasing h.mem l) :
    ∃ taken, (aliasedQueue l).popAvail onePage h =
      (.ok (some ⟨0, h.mem.read 0x1300 12, []⟩, aliasedQueue (l + 1)), taken) ∧ Noted h taken := by
  have hspan : (aliasedQueue l).descSpan? onePage 0 = some ⟨0x1200, 16⟩ :=
    congrArg _ (by decide : gpaToHost onePage 0x200 16 = some 0x1200)
  have hds : (aliasedQueue l).chainDescs onePage h.mem (aliasedQueue l).num.toNat
      (h.mem.load UInt16 ((aliasedQueue l).availEntry 0x1100)) =
      some [(0, { addr := 0x300, len := 12, flags := 0, next := 0 })] := by
    rw [entry, c.head, show (aliasedQueue l).num.toNat = 0 + 1 from rfl,
      VringQueue.chainDescs, hspan]
    dsimp only
    rw [c.desc]
    rfl
  have run := VringQueue.popAvail_run (aliasedQueue l) (h := h) (ring_ptr l)
    (by rw [c.idx]; exact succ_ne_self l) (show (1 : UInt32) ≠ 0 by decide) hds
    fun d hd => by
      rw [List.mem_singleton.mp hd]
      exact ⟨by decide, fun _ => (by decide : (0x200 : UInt64).toNat + 0 * 16 < 2 ^ 64)⟩
  rw [entry, c.head] at run
  exact run

/-- Handing it back makes another available. -/
lemma push (c : Chasing h.mem l) :
    ∃ pushed, (aliasedQueue (l + 1)).pushUsed onePage 0 0 h = (.ok (), pushed) ∧
      Chasing pushed.mem (l + 1) ∧ pushed.irqLineFails = h.irqLineFails := by
  obtain ⟨pushed, run, irq⟩ := VringQueue.pushUsed_run (aliasedQueue (l + 1)) (h := h) 0 0
    (used_ptr _) (show (1 : UInt32) ≠ 0 by decide)
  refine ⟨pushed, run, ?_, irq⟩
  obtain ⟨ptr, hp, -, hm, -⟩ := VringQueue.pushUsed_ok run
  cases (used_ptr _).symm.trans hp
  have hentry : ∀ i, (aliasedQueue (l + 1)).usedEntry 0x1100 i = 0x1104 := by
    intro i
    simp [VringQueue.usedEntry, aliasedQueue, Nat.mod_one]
  rw [hentry, c.idx] at hm
  rw [hm]
  refine ⟨Mem.load_store _ _ _, ?_, ?_⟩
  · rw [Mem.load_store_apart _ (Span.apart_of_le (by decide)).symm]
    -- the two low bytes of the element's id
    unfold Mem.load Mem.store
    rw [show 0x1104 = 0x1104 + 0 from rfl, Mem.read_write_part (by decide)]
    decide
  · rw [Mem.load_store_apart _ (Span.apart_of_le (by decide)).symm,
      Mem.load_store_apart _ (Span.apart_of_le (by decide)).symm, c.desc]
end Chasing

/-- A world where the transmit queue is `aliasedQueue`. -/
structure ChasingWorld (w : World VirtioNet) : Prop where
  queue : ∃ l, w.mmio.queue 1 = aliasedQueue l ∧ Chasing w.host.mem l
  irq : w.host.irqLineFails = []

/-- A frame is transmitted. -/
lemma process_transmit {head : UInt16} {data : List UInt8} {bufs : List Span}
    (hlen : 12 ≤ data.length) (s : Host × VirtioNet) :
    VirtioDevice.process (UInt32.ofNat (1 : Fin vringQueuesMax)) ⟨head, data, bufs⟩ s =
      (.ok 0, (s.1, { s.2 with tap := s.2.tap.writeAll data })) := by
  change VirtioNet.process _ _ _ = _
  unfold VirtioNet.process newFrom
  rw [if_neg (by decide), if_pos (by decide), if_pos (by exact hlen)]
  rfl

/-- A turn handles the one chain again. -/
lemma ChasingWorld.turn {w : World VirtioNet} (c : ChasingWorld w) :
    ∃ w', notifyTurn 1 onePage w = (.ok true, w') ∧ ChasingWorld w' := by
  obtain ⟨⟨l, hq, cm⟩, irq⟩ := c
  obtain ⟨taken, pop, ev, rfl⟩ := cm.pop
  obtain ⟨pushed, push, cm', irq'⟩ := Chasing.push
    (h := { w.host with events := w.host.events ++ ev }) cm
  have hirq : archUpdateIrq 1 w.mmio.irq pushed = (.ok (), pushed.note (.irq w.mmio.irq 1)) := by
    unfold archUpdateIrq
    rw [irq', irq]
  rw [← hq] at pop
  let w' : World VirtioNet :=
    { host := pushed.note (.irq w.mmio.irq 1)
      mmio :=
        { w.mmio with
          queue := Function.update w.mmio.queue 1 (aliasedQueue (l + 1))
          irqStatus := w.mmio.irqStatus ||| virtioMmioIntVring
          device := { w.mmio.device with
            tap := w.mmio.device.tap.writeAll (w.host.mem.read 0x1300 12) } } }
  have t : Handles onePage 1 w ⟨0, w.host.mem.read 0x1300 12, []⟩ 0 w' :=
    ⟨_, _, _, _, pop, process_transmit (by simp) _, push, hirq, rfl⟩
  have hq' : w'.mmio.queue 1 = aliasedQueue (l + 1) := by simp only [w', Function.update_self]
  exact ⟨w', t.run rfl, ⟨l + 1, hq', cm'⟩, irq'.trans irq⟩

end Hearth
