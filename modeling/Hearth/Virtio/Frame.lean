import Hearth.Virtio.Net

/-!
# What the operations touch

One frame lemma for each operation of the virtqueues and the devices. `Touches P A h h'` says that
all that was noted between two states of the host satisfies `P` and that memory has only changed at
addresses in `A`. The lemmas hold however the operation ends.

* `VringQueue.popAvail_touches`: taking a chain reads guest memory and changes nothing;
* `VringQueue.pushUsed_touches`: handing it back reads and writes inside the used ring;
* `ConfinedDevice.process_touches`: a device writes inside the chain's writable buffers. It is a law
  of the class, proved for virtio-blk and virtio-net.
-/

namespace Hearth
open Lib

/-- All that was noted from `h` to `h'` satisfies `P`, and memory
changed at addresses in `A` only. -/
structure Touches (P : Event → Prop) (A : Nat → Prop) (h h' : Host) : Prop where
  events : ∃ new, h'.events = h.events ++ new ∧ ∀ e ∈ new, P e
  mem : ∀ a, ¬ A a → h'.mem a = h.mem a
  checks : h'.overflowChecks = h.overflowChecks

namespace Touches

variable {P P' : Event → Prop} {A A' : Nat → Prop} {h h' h'' : Host}

/-- Doing nothing touches nothing. -/
lemma refl (h : Host) : Touches P A h h := ⟨⟨[], by simp⟩, fun _ _ => rfl, rfl⟩

/-- What is touched first and then is touched in all. -/
lemma trans (t : Touches P A h h') (t' : Touches P A h' h'') : Touches P A h h'' := by
  obtain ⟨new, e, he⟩ := t.events
  obtain ⟨new', e', he'⟩ := t'.events
  refine ⟨⟨new ++ new', ?_, ?_⟩, fun a ha => (t'.mem a ha).trans (t.mem a ha),
    t'.checks.trans t.checks⟩
  · rw [e', e, List.append_assoc]
  · intro ev hev
    rcases List.mem_append.mp hev with hev | hev
    · exact he ev hev
    · exact he' ev hev

/-- Wider bounds allow more. -/
lemma mono (t : Touches P A h h') (hP : ∀ e, P e → P' e) (hA : ∀ a, A a → A' a) :
    Touches P' A' h h' := by
  obtain ⟨new, e, he⟩ := t.events
  exact ⟨⟨new, e, fun ev hev => hP ev (he ev hev)⟩, fun a ha => t.mem a (mt (hA a) ha), t.checks⟩

/-- One event, and no change of memory. -/
lemma note {e : Event} (he : P e) : Touches P A h (h.note e) :=
  ⟨⟨[e], rfl, by simpa using he⟩, fun _ _ => rfl, rfl⟩

/-- One event, and the bytes of a span changed. -/
lemma note_write {e : Event} {a : Nat} {bs : List UInt8} (he : P e)
    (ha : ∀ x ∈ (⟨a, bs.length⟩ : Span), A x) :
    Touches P A h { h.note e with mem := h.mem.write a bs } :=
  ⟨⟨[e], rfl, by simpa using he⟩,
    fun _ hx => Mem.write_outside fun hm => hx (ha _ hm), rfl⟩

end Touches

/-! ## Host operations -/

section HostOps

variable {P : Event → Prop} {A : Nat → Prop} {T : Type} [Layout T]

/-- A load from the guest notes the bytes it reads, and changes none. -/
lemma readGuestPtr_touches {ptr : Nat} (hp : P (.read ⟨ptr, Layout.size T⟩)) :
    Eff.Within (Touches P A) (readGuestPtr T ptr) := fun _ => .note hp

/-- A store to the guest notes what it writes, and changes only those bytes. -/
lemma writeGuestPtr_touches {ptr : Nat} {data : T} (hp : P (.write ptr (Layout.encode data)))
    (ha : ∀ x ∈ (⟨ptr, Layout.size T⟩ : Span), A x) :
    Eff.Within (Touches P A) (writeGuestPtr ptr data) :=
  fun _ => .note_write hp (by rwa [Layout.encode_length])

/-- The same for a slice that is read. -/
lemma readSlice_touches {s : Span} (hp : P (.read s)) : Eff.Within (Touches P A) (readSlice s) :=
  fun _ => .note hp

/-- A slice that is written changes only its bytes. -/
lemma writeSlice_touches {s : Span} {bytes : List UInt8} (hp : P (.write s.base bytes))
    (ha : ∀ x ∈ (⟨s.base, bytes.length⟩ : Span), A x) :
    Eff.Within (Touches P A) (writeSlice s bytes) :=
  fun _ => .note_write hp ha

/-- Arithmetic touches nothing. -/
lemma addU64_touches (a b : UInt64) : Eff.Within (Touches P A) (addU64 a b) := by
  intro h
  unfold addU64
  split <;> exact .refl h

/-- Adding two lengths touches nothing. -/
lemma addU32_touches (a b : UInt32) : Eff.Within (Touches P A) (addU32 a b) := by
  intro h
  unfold addU32
  split <;> exact .refl h

/-- Adding a list of lengths touches nothing. -/
lemma sumUsize_touches (acc : Nat) (ns : List Nat) :
    Eff.Within (Touches P A) (sumUsize acc ns) := by
  induction ns generalizing acc with
  | nil => exact fun h => .refl h
  | cons n ns ih =>
    intro h
    unfold sumUsize
    split
    · exact .refl h
    · exact ih _ h

/-- The interrupt line is noted, and no byte changes. -/
lemma archUpdateIrq_touches (level num : UInt32) (hp : P (.irq num level)) :
    Eff.Within (Touches P A) (archUpdateIrq level num) := by
  intro h
  have noted : ∀ fails, Touches P A h { h.note (.irq num level) with irqLineFails := fails } :=
    fun fails => ⟨⟨[_], rfl, by simpa using hp⟩, fun _ _ => rfl, rfl⟩
  unfold archUpdateIrq
  split
  · exact ⟨⟨[], by simp⟩, fun _ _ => rfl, rfl⟩
  · exact noted _
  · exact .note hp

/-- A remainder touches nothing. -/
lemma remU32_touches (a b : UInt32) : Eff.Within (Touches P A) (VringQueue.remU32 a b) := by
  intro h
  unfold VringQueue.remU32
  split <;> exact .refl h

end HostOps

/-! ## Queues -/

/-- A read through a guest pointer, inside guest memory. -/
def Event.ReadsGuest (mem : GuestMemory) : Event → Prop
  | .read s => Confined mem s
  | _ => False

namespace VringQueue

variable {mem : GuestMemory} {A : Nat → Prop}

/-- A slot number lies in the ring. -/
lemma remU32_ok {a b r : UInt32} {h h' : Host} (e : remU32 a b h = (.ok r, h')) :
    r = a % b ∧ r.toNat < b.toNat ∧ h' = h := by
  unfold remU32 at e
  split at e
  · cases e
  · next h0 =>
    cases e
    refine ⟨rfl, ?_, rfl⟩
    rw [UInt32.toNat_mod]
    exact Nat.mod_lt _ (Nat.pos_of_ne_zero fun h => h0 (UInt32.toNat_inj.mp h))

/-- Reading a table entry reads guest memory. -/
lemma getDescHead_touches (self : VringQueue) (descIdx : UInt16) :
    Eff.Within (Touches (Event.ReadsGuest mem) A) (self.getDescHead descIdx mem) := by
  intro h
  refine Eff.rel_bind .trans (addU64_touches _ _ h) fun guestAddr h1 _ => ?_
  refine Eff.rel_bind .trans (Eff.within_unwrap .refl _ h1) fun ptr h2 e => ?_
  exact readGuestPtr_touches (gpaToHost_confined (Eff.unwrap_ok e).1) h2

/-- Adding a buffer to a chain reads guest memory at most. -/
lemma addDesc_touches (descHead : VringDesc) (chain : DescChain) :
    Eff.Within (Touches (Event.ReadsGuest mem) A) (addDesc mem descHead chain) := by
  intro h
  unfold addDesc
  cases descHead.type with
  | write => exact Eff.rel_bind .trans (Eff.within_okOr .refl _ _ h) fun _ h1 _ => .refl h1
  | read =>
    refine Eff.rel_bind .trans ?_ fun _ h1 _ => .refl h1
    refine Eff.rel_bind .trans (Eff.within_unwrap .refl _ h) fun ptr h1 e => ?_
    exact readSlice_touches (gpaToHost_confined (Eff.unwrap_ok e).1) h1

/-- A walk reads guest memory at most. -/
lemma walk_touches (self : VringQueue) (turns : Nat) (descIdx : UInt16) (chain : DescChain) :
    Eff.Within (Touches (Event.ReadsGuest mem) A) (self.walk mem turns descIdx chain) := by
  induction turns generalizing descIdx chain with
  | zero => exact fun h => .refl h
  | succ turns ih =>
    refine Eff.Within.bind .trans (getDescHead_touches self descIdx) fun descHead => ?_
    refine Eff.Within.bind .trans (addDesc_touches descHead chain) fun chain => ?_
    split
    · exact ih _ _
    · exact Eff.within_pure .refl chain

/-- Taking a chain only reads, and reads guest memory only. -/
lemma popAvail_touches (mem : GuestMemory) (self : VringQueue) :
    Eff.Within (Touches (Event.ReadsGuest mem) A) (self.popAvail mem) := by
  intro h
  refine Eff.rel_bind .trans (Eff.within_okOr .refl _ _ h) fun ptr h1 e => ?_
  have ring := gpaToHost_confined (Eff.okOr_ok e).1
  refine Eff.rel_bind .trans (readGuestPtr_touches ?_ h1) fun avail h2 _ => ?_
  · refine ring.mono (Span.inside_of_le (Nat.le_refl _) ?_)
    simp only [availSize, size_vringAvail]
    omega
  split
  · exact .refl h2
  refine Eff.rel_bind .trans (remU32_touches _ _ h2) fun slot h3 e3 => ?_
  have hslot := (remU32_ok e3).2.1
  refine Eff.rel_bind .trans (readGuestPtr_touches ?_ h3) fun head h4 _ => ?_
  · refine ring.mono (Span.inside_of_le (Nat.le_add_right _ _) ?_)
    simp only [availSize, size_vringAvail, size_u16]
    omega
  exact Eff.rel_bind .trans (walk_touches self _ _ _ h4) fun _ h5 _ => .refl h5

/-- The bytes of the used ring. -/
def InUsedRing (self : VringQueue) (mem : GuestMemory) (s : Span) : Prop :=
  ∃ ptr, gpaToHost mem self.used self.usedSize = some ptr ∧ s.Inside ⟨ptr, self.usedSize⟩

/-- What handing a chain back notes: accesses inside the used ring, and that it was handed back. -/
def PushEvent (self : VringQueue) (mem : GuestMemory) : Event → Prop
  | .read s => self.InUsedRing mem s
  | .write a bs => self.InUsedRing mem ⟨a, bs.length⟩
  | .irq _ _ => False
  | .used ring _ _ => ring = self.used

/-- Handing a chain back stays inside the used ring. -/
lemma pushUsed_touches (self : VringQueue) (head : UInt16) (len : UInt32) :
    Eff.Within (Touches (self.PushEvent mem) fun a => self.InUsedRing mem ⟨a, 1⟩)
      (self.pushUsed mem head len) := by
  intro h
  refine Eff.rel_bind .trans (Eff.within_okOr .refl _ _ h) fun ptr h1 e => ?_
  have ring := (Eff.okOr_ok e).1
  have inRing : ∀ off n, off + n ≤ self.usedSize → self.InUsedRing mem ⟨ptr + off, n⟩ :=
    fun off n hle => ⟨ptr, ring, Span.inside_of_le (Nat.le_add_right _ _) (by dsimp only; omega)⟩
  have bytes : ∀ off n, off + n ≤ self.usedSize →
      ∀ x ∈ (⟨ptr + off, n⟩ : Span), self.InUsedRing mem ⟨x, 1⟩ := by
    intro off n hle x hx
    rw [Span.mem_iff] at hx
    dsimp only at hx
    refine ⟨ptr, ring, Span.inside_of_le ?_ ?_⟩ <;> dsimp only <;> omega
  have hsize : self.usedSize = 4 + 8 * self.num.toNat := rfl
  refine Eff.rel_bind .trans (readGuestPtr_touches (inRing 0 4 (by omega)) h1) fun used h2 _ => ?_
  refine Eff.rel_bind .trans (remU32_touches _ _ h2) fun slot h3 e3 => ?_
  have hslot := (remU32_ok e3).2.1
  refine Eff.rel_bind .trans (writeGuestPtr_touches ?_ ?_ h3) fun _ h4 _ => ?_
  · exact inRing _ 8 (by simp only [size_vringUsedElem]; omega)
  · exact bytes _ 8 (by simp only [size_vringUsedElem]; omega)
  refine Eff.rel_bind .trans (writeGuestPtr_touches ?_ ?_ h4) fun _ h5 _ => ?_
  · exact inRing 2 2 (by omega)
  · exact bytes 2 2 (by omega)
  exact Touches.note (P := self.PushEvent mem) rfl

end VringQueue

/-! ## Devices -/

/-- A write inside one of the buffers. -/
def Event.WritesBufs (bufs : List Span) : Event → Prop
  | .write a bs => ∃ buf ∈ bufs, Span.Inside ⟨a, bs.length⟩ buf
  | _ => False

/-- What a device does to the host while it works on the given buffers. -/
def TouchesBufs {D : Type} (bufs : List Span) (s s' : Host × D) : Prop :=
  Touches (Event.WritesBufs bufs) (fun a => ∃ buf ∈ bufs, a ∈ buf) s.1 s'.1

/-- A device that writes guest memory inside the chain's writable buffers only, and whose requests
    end. -/
class ConfinedDevice (D : Type) extends VirtioDevice D where
  process_touches : ∀ queue chain (s : Host × D),
    TouchesBufs chain.writeBuf s (process queue chain s).2
  process_ends : ∀ queue chain, Eff.Ends (process queue chain)

section Bufs

variable {D : Type} {bufs : List Span} {s s' s'' : Host × D}

/-- Doing nothing touches no buffer. -/
lemma TouchesBufs.refl (s : Host × D) : TouchesBufs bufs s s := Touches.refl s.1

/-- What is touched in two steps lies in the buffers if both lie there. -/
lemma TouchesBufs.trans (t : TouchesBufs bufs s s') (t' : TouchesBufs bufs s' s'') :
    TouchesBufs bufs s s'' := Touches.trans t t'

/-- Storing bytes in a buffer that has room for them. -/
lemma writeSlice_bufs {buf : Span} {bytes : List UInt8} (hb : buf ∈ bufs)
    (hle : bytes.length ≤ buf.len) :
    Eff.Within (Touches (Event.WritesBufs bufs) fun a => ∃ buf ∈ bufs, a ∈ buf)
      (writeSlice buf bytes) := by
  have inside : Span.Inside ⟨buf.base, bytes.length⟩ buf :=
    Span.inside_of_le (Nat.le_refl _) (by dsimp only; omega)
  exact writeSlice_touches ⟨buf, hb, inside⟩ fun x hx => ⟨buf, hb, inside x hx⟩

end Bufs

namespace VirtioBlk

variable {bufs : List Span}

/-- What an operation does to the host it does inside the device. -/
lemma host_touches {α : Type} {x : HostM α}
    (hx : Eff.Within (Touches (Event.WritesBufs bufs) fun a => ∃ buf ∈ bufs, a ∈ buf) x) :
    Eff.Within (TouchesBufs bufs) (host x) :=
  Eff.Within.zoom (fun _ _ => rfl) hx

/-- Using the disk touches no memory of the guest. -/
lemma onDisk_touches {α : Type} (f : File → α × File) :
    Eff.Within (TouchesBufs bufs) (onDisk f) := fun s => Touches.refl s.1

/-- The disk gives no more than it is asked for. -/
lemma readExactAt_length (disk : File) (len offset : Nat) :
    (disk.readExactAt len offset).1.length ≤ len := by
  unfold File.readExactAt
  split
  · simp
  · dsimp only
    split <;> simp only [List.length_take, List.length_drop] <;> omega

/-- What one read of a buffer returns fits the buffer. -/
lemma onDisk_read_ok {len offset : Nat} {s s' : Host × VirtioBlk} {r : List UInt8 × Bool}
    (e : onDisk (fun disk =>
      let r := disk.readExactAt len offset
      ((r.1, r.2.1), r.2.2)) s = (.ok r, s')) : r.1.length ≤ len := by
  cases e
  exact readExactAt_length _ _ _

/-- Reading from the disk writes the buffers it fills. -/
lemma readBufs_touches (offset : Nat) (data : List Span) (hd : ∀ buf ∈ data, buf ∈ bufs) :
    Eff.Within (TouchesBufs bufs) (readBufs offset data) := by
  induction data generalizing offset with
  | nil => exact fun s => .refl s
  | cons buf data ih =>
    intro s
    refine Eff.rel_bind .trans (onDisk_touches _ s) fun r s1 e => ?_
    refine Eff.rel_bind .trans ?_ fun _ s2 _ => ?_
    · exact host_touches (writeSlice_bufs (hd buf (by simp)) (onDisk_read_ok e)) s1
    · split
      · exact ih _ (fun b hb => hd b (by simp [hb])) s2
      · exact .refl s2

/-- A request that reads a sector writes the buffers it fills. -/
lemma read_touches (sector : UInt64) (data : List Span) (hd : ∀ buf ∈ data, buf ∈ bufs) :
    Eff.Within (TouchesBufs bufs) (read sector data) := by
  refine Eff.Within.bind .trans (host_touches (sumUsize_touches _ _)) fun total => ?_
  refine Eff.Within.bind .trans (fun s => .refl s) fun self => ?_
  cases self.diskOffset sector total with
  | error e => exact fun s => .refl s
  | ok offset =>
    refine Eff.Within.bind .trans (readBufs_touches _ _ hd) fun r => ?_
    cases r <;> exact fun s => .refl s

/-- A request that writes to the disk touches no buffer. -/
lemma write_touches (sector : UInt64) (data : List UInt8) :
    Eff.Within (TouchesBufs bufs) (write sector data) := by
  refine Eff.Within.bind .trans (fun s => .refl s) fun self => ?_
  cases self.diskOffset sector data.length with
  | error e => exact fun s => .refl s
  | ok offset => exact Eff.Within.bind .trans (onDisk_touches _) fun r s => .refl s

/-- A request writes the data buffers at most. -/
lemma request_touches (outhdr : VirtioBlkOuthdr) (data : List Span) (outData : List UInt8)
    (hd : ∀ buf ∈ data, buf ∈ bufs) :
    Eff.Within (TouchesBufs bufs) (request outhdr data outData) := by
  unfold request
  split
  · refine Eff.Within.bind .trans (read_touches _ _ hd) fun r => ?_
    cases r <;> exact fun s => .refl s
  · split
    · exact Eff.Within.bind .trans (write_touches _ _) fun r s => .refl s
    · split
      · exact Eff.Within.bind .trans (onDisk_touches _) fun r s => .refl s
      · exact fun s => .refl s

/-- The status goes into its buffer. -/
lemma setStatus_touches {status : Span} (value : UInt8) (hs : status ∈ bufs) :
    Eff.Within (TouchesBufs bufs) (setStatus status value) := by
  unfold setStatus
  split
  · exact fun s => .refl s
  · exact host_touches (writeSlice_bufs hs (by simp only [List.length_singleton]; omega))

/-- A chain that is processed is written in its device-writable buffers only. -/
lemma process_touches (chain : DescChain) :
    Eff.Within (TouchesBufs chain.writeBuf) (process chain) := by
  refine Eff.Within.bind .trans (Eff.within_okOr .refl _ _) fun outhdr => ?_
  intro s
  refine Eff.rel_bind .trans (Eff.within_okOr .refl _ _ s) fun status s1 e => ?_
  have hstatus : status ∈ chain.writeBuf := List.mem_of_getLast? (Eff.okOr_ok e).1
  refine Eff.Within.bind .trans (request_touches _ _ _ fun _ hb =>
    (List.dropLast_sublist _).subset hb)
    (fun r => ?_) s1
  cases r with
  | none => exact Eff.Within.bind .trans (setStatus_touches _ hstatus) fun _ s => .refl s
  | some r =>
    exact Eff.Within.bind .trans (setStatus_touches _ hstatus) fun _ =>
      host_touches (addU32_touches _ _)

/-- Adding lengths ends. -/
lemma sumUsize_ends (acc : Nat) (ns : List Nat) : Eff.Ends (sumUsize acc ns) := by
  induction ns generalizing acc with
  | nil => exact Eff.ends_pure acc
  | cons n ns ih =>
    intro h
    unfold sumUsize
    split
    · exact Eff.ends_panic h
    · exact ih _ h

/-- The loop over the buffers ends with the list of them. -/
lemma readBufs_ends (offset : Nat) (data : List Span) : Eff.Ends (readBufs offset data) := by
  induction data generalizing offset with
  | nil => exact nofun
  | cons buf data ih =>
    refine Eff.Ends.bind nofun fun r => ?_
    refine Eff.Ends.bind (.zoom nofun) fun _ => ?_
    split
    · exact ih _
    · exact nofun

/-- A request that reads ends. -/
lemma read_ends (sector : UInt64) (data : List Span) : Eff.Ends (read sector data) := by
  refine Eff.Ends.bind (.zoom (sumUsize_ends _ _)) fun total => ?_
  refine Eff.Ends.bind nofun fun self => ?_
  cases self.diskOffset sector total with
  | error e => exact nofun
  | ok offset =>
    refine Eff.Ends.bind (readBufs_ends _ _) fun r => ?_
    cases r <;> exact nofun

/-- A request that writes ends. -/
lemma write_ends (sector : UInt64) (data : List UInt8) : Eff.Ends (write sector data) := by
  refine Eff.Ends.bind nofun fun self => ?_
  cases self.diskOffset sector data.length with
  | error e => exact nofun
  | ok offset => exact Eff.Ends.bind nofun fun r => nofun

/-- A request of any type ends. -/
lemma request_ends (outhdr : VirtioBlkOuthdr) (data : List Span) (outData : List UInt8) :
    Eff.Ends (request outhdr data outData) := by
  unfold request
  split
  · refine Eff.Ends.bind (read_ends _ _) fun r => ?_
    cases r <;> exact nofun
  · split
    · exact Eff.Ends.bind (write_ends _ _) fun r => nofun
    · split
      · exact Eff.Ends.bind nofun fun r => nofun
      · exact nofun

/-- Setting the status ends. -/
lemma setStatus_ends (status : Span) (value : UInt8) : Eff.Ends (setStatus status value) := by
  unfold setStatus
  split
  · exact nofun
  · exact .zoom nofun

/-- Processing a chain ends. -/
lemma process_ends (chain : DescChain) : Eff.Ends (process chain) := by
  refine Eff.Ends.bind (Eff.ends_okOr _ _) fun outhdr => ?_
  refine Eff.Ends.bind (Eff.ends_okOr _ _) fun status => ?_
  refine Eff.Ends.bind (request_ends _ _ _) fun r => ?_
  cases r with
  | none => exact Eff.Ends.bind (setStatus_ends _ _) fun _ => nofun
  | some r =>
    refine Eff.Ends.bind (setStatus_ends _ _) fun _ => .zoom fun h => ?_
    unfold addU32
    split <;> exact nofun

end VirtioBlk

/-- virtio-blk keeps to the buffers of the chain. -/
instance : ConfinedDevice VirtioBlk where
  process_touches _ chain := VirtioBlk.process_touches chain
  process_ends _ chain := VirtioBlk.process_ends chain

namespace VirtioNet

variable {bufs : List Span}

/-- A frame is scattered over the buffers it is given. -/
lemma scatter_touches (frame : List UInt8) (copied : Nat) (data : List Span)
    (hd : ∀ buf ∈ data, buf ∈ bufs) :
    Eff.Within (TouchesBufs bufs) (scatter frame copied data) := by
  induction data generalizing copied with
  | nil => exact fun s => .refl s
  | cons buf data ih =>
    unfold scatter
    split
    · exact fun s => .refl s
    · refine Eff.Within.bind .trans ?_ fun _ => ih _ fun b hb => hd b (by simp [hb])
      refine Eff.Within.zoom (fun _ _ => rfl) ?_
      have inside : Span.Inside ⟨buf.base, ((frame.drop copied).take
          (min buf.len (frame.length - copied))).length⟩ buf := by
        refine Span.inside_of_le (Nat.le_refl _) ?_
        simp only [List.length_take, List.length_drop]
        omega
      exact writeSlice_touches ⟨buf, hd buf (by simp), inside⟩ fun x hx =>
        ⟨buf, hd buf (by simp), inside x hx⟩

/-- A received frame is written in the device-writable buffers only; a transmitted one nowhere. -/
lemma process_touches (queue : UInt32) (chain : DescChain) :
    Eff.Within (TouchesBufs chain.writeBuf) (process queue chain) := by
  unfold process
  split
  · refine Eff.Within.bind .trans (fun s => Touches.refl s.1) fun frame => ?_
    cases frame with
    | none => exact fun s => .refl s
    | some frame =>
      exact Eff.Within.bind .trans (scatter_touches _ _ _ fun _ hb => hb) fun _ s => .refl s
  · split
    · refine Eff.Within.bind .trans (Eff.within_okOr .refl _ _) fun _ => ?_
      exact Eff.Within.bind .trans (fun s => Touches.refl s.1) fun _ s => .refl s
    · exact fun s => .refl s

/-- Scattering a frame ends with the list of buffers. -/
lemma scatter_ends (frame : List UInt8) (copied : Nat) (data : List Span) :
    Eff.Ends (scatter frame copied data) := by
  induction data generalizing copied with
  | nil => exact nofun
  | cons buf data ih =>
    unfold scatter
    split
    · exact nofun
    · exact Eff.Ends.bind (.zoom nofun) fun _ => ih _

/-- Processing a chain of either queue ends. -/
lemma process_ends (queue : UInt32) (chain : DescChain) : Eff.Ends (process queue chain) := by
  unfold process
  split
  · refine Eff.Ends.bind nofun fun frame => ?_
    cases frame with
    | none => exact nofun
    | some frame => exact Eff.Ends.bind (scatter_ends _ _ _) fun _ => nofun
  · split
    · exact Eff.Ends.bind (Eff.ends_okOr _ _) fun _ => nofun
    · exact nofun

end VirtioNet

/-- virtio-net keeps to the buffers of the chain. -/
instance : ConfinedDevice VirtioNet where
  process_touches := VirtioNet.process_touches
  process_ends := VirtioNet.process_ends

end Hearth
