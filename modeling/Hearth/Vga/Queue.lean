import Hearth.Vga.Device
import Hearth.Lib.Ring

/-!
# The queue of DAC writes

What is queued is a list: KVM appends to it while a slot is free, and a drain
applies it in order and empties it.
-/

namespace Hearth
open Lib

namespace CoalescedRing

/-- The indices are in range. KVM and the reader keep them so. -/
structure Valid (ring : CoalescedRing) : Prop where
  first : ring.first.toNat < Vga.ringEntries
  last : ring.last.toNat < Vga.ringEntries

/-- How many writes are queued. -/
def length (ring : CoalescedRing) : Nat :=
  (ring.last.toNat + Vga.ringEntries - ring.first.toNat) % Vga.ringEntries

/-- The writes that are queued, oldest first. -/
def queued (ring : CoalescedRing) : List CoalescedMmio :=
  (List.range ring.length).map fun k => ring.entries ((ring.first.toNat + k) % Vga.ringEntries)

/-- A slot is free, besides the one that always is. -/
def Room (ring : CoalescedRing) : Prop :=
  (ring.last + 1) % UInt32.ofNat Vga.ringEntries ≠ ring.first

/-- It is decided by the indices. -/
instance (ring : CoalescedRing) : Decidable ring.Room :=
  inferInstanceAs (Decidable ((ring.last + 1) % UInt32.ofNat Vga.ringEntries ≠ ring.first))

/-- KVM queues a write. -/
def push (entry : CoalescedMmio) (ring : CoalescedRing) : CoalescedRing :=
  { ring with
    entries := Function.update ring.entries ring.last.toNat entry
    last := (ring.last + 1) % UInt32.ofNat Vga.ringEntries }

/-- The reader has applied everything up to `last`. -/
def release (last : UInt32) (ring : CoalescedRing) : CoalescedRing := { ring with first := last }

/-- There is nothing to release in an empty ring. -/
lemma release_empty {ring : CoalescedRing} (h : ring.first = ring.last) :
    ring.release ring.last = ring := by
  rcases ring with ⟨first, last, entries⟩
  cases h
  rfl

/-- The index after this one, wrapping. -/
lemma toNat_next {i : UInt32} (h : i.toNat < Vga.ringEntries) :
    ((i + 1) % UInt32.ofNat Vga.ringEntries).toNat = (i.toNat + 1) % Vga.ringEntries := by
  unfold Vga.ringEntries at *
  rw [UInt32.toNat_mod, UInt32.toNat_add]
  show (i.toNat + 1) % 2 ^ 32 % 170 = (i.toNat + 1) % 170
  omega

/-- One slot always stays free. -/
lemma length_lt (ring : CoalescedRing) : ring.length < Vga.ringEntries :=
  Nat.mod_lt _ (by decide)

/-- As many writes as the indices say. -/
@[simp] lemma queued_length (ring : CoalescedRing) : ring.queued.length = ring.length := by
  rw [queued, List.length_map, List.length_range]

/-- The slots from `first` on hold what is queued. -/
lemma queued_holds (ring : CoalescedRing) :
    RingHolds Vga.ringEntries ring.entries ring.first.toNat ring.queued := by
  refine ⟨by rw [queued_length]; exact ring.length_lt.le, fun k hk => ?_⟩
  rw [show ring.queued[k] = _ from List.getElem_map _, List.getElem_range]

/-- `last` is as far behind `first` as there are writes. -/
lemma Valid.last_eq {ring : CoalescedRing} (h : ring.Valid) :
    ring.last.toNat = (ring.first.toNat + ring.length) % Vga.ringEntries := by
  have := h.first
  have := h.last
  unfold length
  unfold Vga.ringEntries at *
  omega

/-- What the slots hold and where they end say what is queued. -/
lemma queued_eq {ring : CoalescedRing} {items : List CoalescedMmio}
    (holds : RingHolds Vga.ringEntries ring.entries ring.first.toNat items)
    (last : ring.last.toNat = (ring.first.toNat + items.length) % Vga.ringEntries)
    (first : ring.first.toNat < Vga.ringEntries) (fits : items.length < Vga.ringEntries) :
    ring.queued = items := by
  have hlen : ring.length = items.length := by
    unfold length
    rw [last]
    unfold Vga.ringEntries at *
    omega
  apply List.ext_getElem
  · rw [queued_length, hlen]
  · intro k hk hk'
    rw [← holds.slot k hk', show ring.queued[k] = _ from List.getElem_map _, List.getElem_range]

/-- KVM keeps the indices in range. -/
lemma Valid.push {ring : CoalescedRing} (h : ring.Valid) (entry : CoalescedMmio) :
    (ring.push entry).Valid where
  first := h.first
  last := by
    show ((ring.last + 1) % UInt32.ofNat Vga.ringEntries).toNat < _
    rw [toNat_next h.last]
    exact Nat.mod_lt _ (by decide)

/-- With room there is one slot free besides the one that always is. -/
lemma Valid.room {ring : CoalescedRing} (h : ring.Valid) (room : ring.Room) :
    ring.length + 1 < Vga.ringEntries := by
  have hne : (ring.last.toNat + 1) % Vga.ringEntries ≠ ring.first.toNat := by
    intro e
    exact room (UInt32.toNat_inj.mp ((toNat_next h.last).trans e))
  have := h.first
  have := h.last
  unfold length
  unfold Vga.ringEntries at *
  omega

/-- A write that is queued comes last. -/
lemma queued_push {ring : CoalescedRing} (h : ring.Valid) (room : ring.Room)
    (entry : CoalescedMmio) :
    (ring.push entry).queued = ring.queued ++ [entry] := by
  have hroom := h.room room
  have hlen := ring.queued_length
  apply queued_eq
  · have := ring.queued_holds.push (by rw [hlen]; omega) entry
    rw [hlen, ← h.last_eq] at this
    exact this
  · rw [List.length_append, hlen]
    show ((ring.last + 1) % UInt32.ofNat Vga.ringEntries).toNat = _
    rw [toNat_next h.last, h.last_eq, List.length_singleton]
    show _ = (ring.first.toNat + _) % _
    unfold Vga.ringEntries
    omega
  · exact h.first
  · rw [List.length_append, hlen]
    exact hroom

end CoalescedRing

namespace Vga

/-! ## Applying it -/

/-- Writes change registers only. -/
structure SameWindow (v v' : Vga) : Prop where
  framebuffer : v'.framebuffer = v.framebuffer
  dirtyLog : v'.dirtyLog = v.dirtyLog
  dacWrites : v'.dacWrites = v.dacWrites
  frame : v'.frame = v.frame
  pageWritten : v'.pageWritten = v.pageWritten

/-- A device shares its window with itself. -/
lemma SameWindow.refl (v : Vga) : SameWindow v v := ⟨rfl, rfl, rfl, rfl, rfl⟩

/-- What two changes leave alone the two together do. -/
lemma SameWindow.trans {v v' v'' : Vga} (h : SameWindow v v') (h' : SameWindow v' v'') :
    SameWindow v v'' where
  framebuffer := h'.framebuffer.trans h.framebuffer
  dirtyLog := h'.dirtyLog.trans h.dirtyLog
  dacWrites := h'.dacWrites.trans h.dacWrites
  frame := h'.frame.trans h.frame
  pageWritten := h'.pageWritten.trans h.pageWritten

/-- A write to a register leaves the window and the queue alone. -/
lemma write_window (port : UInt16) (byte : UInt8) (v : Vga) : SameWindow v (v.write port byte) :=
  ⟨rfl, rfl, rfl, rfl, rfl⟩

/-- Writes to several ports leave the window and the queue alone. -/
lemma writeFrom_window (port : UInt16) (data : List UInt8) (v : Vga) :
    SameWindow v (v.writeFrom port data) := by
  induction data generalizing port v with
  | nil => exact .refl v
  | cons byte data ih => exact (write_window port byte v).trans (ih (port + 1) (v.write port byte))

/-- A read leaves the window and the queue alone. -/
lemma read_window (port : UInt16) (v : Vga) : SameWindow v (v.read port).2 := by
  show SameWindow v (v.afterRead port)
  unfold afterRead
  split
  · exact ⟨rfl, rfl, rfl, rfl, rfl⟩
  · split
    · exact ⟨rfl, rfl, rfl, rfl, rfl⟩
    · exact .refl v

/-- The writes of these entries, in order. -/
def applyEntries (items : List CoalescedMmio) (v : Vga) : Vga :=
  items.foldl (fun v entry => v.applyEntry entry) v

/-- Applying no entries changes nothing. -/
@[simp] lemma applyEntries_nil (v : Vga) : v.applyEntries [] = v := rfl

/-- The oldest write is applied first. -/
@[simp] lemma applyEntries_cons (entry : CoalescedMmio) (items : List CoalescedMmio) (v : Vga) :
    v.applyEntries (entry :: items) = (v.applyEntry entry).applyEntries items := rfl

/-- What was queued first is applied first. -/
lemma applyEntries_append (items later : List CoalescedMmio) (v : Vga) :
    v.applyEntries (items ++ later) = (v.applyEntries items).applyEntries later :=
  List.foldl_append

/-- Applying queued writes leaves the window and the queue alone. -/
lemma applyEntries_window (items : List CoalescedMmio) (v : Vga) :
    SameWindow v (v.applyEntries items) := by
  induction items generalizing v with
  | nil => exact .refl v
  | cons entry items ih => exact (writeFrom_window _ _ v).trans (ih (v.applyEntry entry))

/-- A drain applies what the slots hold, if they are passed before the turns are used up. -/
lemma drainFrom_run {ring : CoalescedRing} {items : List CoalescedMmio} {i : UInt32} {turns : Nat}
    (holds : RingHolds ringEntries ring.entries i.toNat items) (hi : i.toNat < ringEntries)
    (last : ring.last.toNat = (i.toNat + items.length) % ringEntries)
    (fits : items.length < ringEntries) (hturns : items.length ≤ turns) (v : Vga) :
    drainFrom ring turns i v = (.ok (), v.applyEntries items) := by
  induction items generalizing i turns v with
  | nil =>
    have e : i = ring.last := by
      apply UInt32.toNat_inj.mp
      rw [last, List.length_nil, Nat.add_zero, Nat.mod_eq_of_lt hi]
    cases turns with
    | zero => exact congrFun (if_pos e) v
    | succ turns => exact congrFun (if_pos e) v
  | cons entry items ih =>
    rw [List.length_cons] at last fits hturns
    have hne : i ≠ ring.last := by
      intro e
      have h := congrArg UInt32.toNat e
      rw [last] at h
      unfold ringEntries at *
      omega
    obtain ⟨turns, rfl⟩ : ∃ t, turns = t + 1 := ⟨turns - 1, by omega⟩
    have hnext := CoalescedRing.toNat_next hi
    have hhead : ring.entries i.toNat = entry := by
      have := holds.head
      rwa [Nat.mod_eq_of_lt hi] at this
    have htail : RingHolds ringEntries ring.entries
        ((i + 1) % UInt32.ofNat ringEntries).toNat items := by
      apply holds.pop.congr
      rw [hnext, Nat.mod_mod]
    have hlast : ring.last.toNat =
        (((i + 1) % UInt32.ofNat ringEntries).toNat + items.length) % ringEntries := by
      rw [last, hnext]
      unfold ringEntries
      omega
    have hlt : ((i + 1) % UInt32.ofNat ringEntries).toNat < ringEntries := by
      rw [hnext]
      exact Nat.mod_lt _ (by decide)
    have step : drainFrom ring (turns + 1) i = _ := if_neg hne
    rw [step, Eff.modify_bind_run, hhead, applyEntries_cons]
    exact ih htail hlt hlast (by omega) (by omega) (v.applyEntry entry)

/-- What the device will be once its queue is applied. -/
def drained (v : Vga) : Vga :=
  match v.dacWrites with
  | none => v
  | some ring => { v.applyEntries ring.queued with dacWrites := some (ring.release ring.last) }

/-- The queue's indices are in range, if there is one. -/
def QueueValid (v : Vga) : Prop := ∀ ring, v.dacWrites = some ring → ring.Valid

/-- With its indices in range a drain goes well. -/
lemma applyQueuedWrites_run {v : Vga} (h : v.QueueValid) :
    applyQueuedWrites v = (.ok (), v.drained) := by
  unfold applyQueuedWrites drained
  rw [Eff.gets_bind_run]
  cases hring : v.dacWrites with
  | none => rfl
  | some ring =>
    have valid := h ring hring
    have hlen := ring.queued_length
    have last : ring.last.toNat = (ring.first.toNat + ring.queued.length) % ringEntries := by
      rw [hlen]
      exact valid.last_eq
    have lt : ring.queued.length < ringEntries := by
      rw [hlen]
      exact ring.length_lt
    exact Eff.bind_of_ok (drainFrom_run ring.queued_holds valid.first last lt lt.le v)

/-- Nothing is queued. -/
def QueueEmpty (v : Vga) : Prop := ∀ ring, v.dacWrites = some ring → ring.first = ring.last

/-- Draining an empty queue does nothing. -/
lemma drained_of_empty {v : Vga} (h : v.QueueEmpty) : v.drained = v := by
  unfold drained
  cases hring : v.dacWrites with
  | none => rfl
  | some ring =>
    have hlen : ring.length = 0 := by
      unfold CoalescedRing.length
      rw [h ring hring, Nat.add_sub_cancel_left]
      decide
    have hq : ring.queued = [] := List.length_eq_zero_iff.mp (ring.queued_length.trans hlen)
    have hrel : ring.release ring.last = ring := CoalescedRing.release_empty (h ring hring)
    show { v.applyEntries ring.queued with dacWrites := some (ring.release ring.last) } = v
    rw [hq, hrel, applyEntries_nil, ← hring]

/-- Nothing is queued after a drain. -/
lemma drained_empty (v : Vga) : v.drained.QueueEmpty := by
  intro ring hring
  unfold drained at hring
  cases hv : v.dacWrites with
  | none =>
    rw [hv] at hring
    cases hv.symm.trans hring
  | some r =>
    rw [hv] at hring
    cases hring
    rfl

/-- A drain keeps the indices in range. -/
lemma QueueValid.drained {v : Vga} (h : v.QueueValid) : v.drained.QueueValid := by
  intro ring hring
  unfold Vga.drained at hring
  cases hv : v.dacWrites with
  | none =>
    rw [hv] at hring
    exact h ring hring
  | some r =>
    rw [hv] at hring
    cases hring
    exact ⟨(h r hv).last, (h r hv).last⟩

/-- Whether the queue is empty depends on nothing but the window. -/
lemma QueueEmpty.window {v v' : Vga} (h : v.QueueEmpty) (same : SameWindow v v') : v'.QueueEmpty :=
  fun ring hring => h ring (same.dacWrites.symm.trans hring)

/-- Whether its indices are in range depends on nothing but the window. -/
lemma QueueValid.window {v v' : Vga} (h : v.QueueValid) (same : SameWindow v v') : v'.QueueValid :=
  fun ring hring => h ring (same.dacWrites.symm.trans hring)

/-! ## Exits -/

/-- One byte of an access leaves the window alone. -/
lemma accessByte_window (direction : UInt8) (port : UInt16) (byte : UInt8) (v : Vga) :
    SameWindow v (v.accessByte direction port byte).2 := by
  unfold accessByte
  split
  · exact write_window port byte v
  · split
    · exact read_window port v
    · exact .refl v

/-- All bytes of an access leave the window alone. -/
lemma accessBytes_window (direction : UInt8) (port : UInt16) (size i : Nat)
    (data : List UInt8) (v : Vga) :
    SameWindow v (accessBytes direction port size i data v).2 := by
  induction data generalizing i v with
  | nil => exact .refl v
  | cons byte data ih => exact (accessByte_window _ _ _ v).trans (ih _ _)

/-- An access answers with as many bytes as it came with. -/
lemma accessBytes_length (direction : UInt8) (port : UInt16) (size i : Nat)
    (data : List UInt8) (v : Vga) :
    (accessBytes direction port size i data v).1.length = data.length := by
  induction data generalizing i v with
  | nil => rfl
  | cons byte data ih => exact congrArg (· + 1) (ih _ _)

/-- An exit drains the queue and then makes its accesses. -/
lemma handle_run {v : Vga} (h : v.QueueValid) {io : PortIo} (size : io.size ≠ 0)
    (buffer : List UInt8) :
    let len := io.size.toNat * io.count.toNat
    let r := accessBytes io.direction io.port io.size.toNat 0 (buffer.take len) v.drained
    handle io buffer v = (.ok (r.1 ++ buffer.drop len), r.2) := by
  unfold handle
  rw [Eff.bind_of_ok (applyQueuedWrites_run h), if_neg size]
  rfl

/-- What an exit has done that returns. -/
lemma handle_ok {v v' : Vga} {io : PortIo} {buffer data : List UInt8} (h : v.QueueValid)
    (run : handle io buffer v = (.ok data, v')) :
    let len := io.size.toNat * io.count.toNat
    let r := accessBytes io.direction io.port io.size.toNat 0 (buffer.take len) v.drained
    io.size ≠ 0 ∧ r.1 ++ buffer.drop len = data ∧ r.2 = v' := by
  have size : io.size ≠ 0 := by
    intro zero
    unfold handle at run
    rw [Eff.bind_of_ok (applyQueuedWrites_run h), if_pos zero] at run
    cases run
  rw [handle_run h size buffer] at run
  cases run
  exact ⟨size, rfl, rfl⟩

end Vga

end Hearth
