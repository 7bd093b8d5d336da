import Hearth.Lib.Effect
import Hearth.Lib.Layout

/-!
# The host and guest memory

The VMM runs as a process of the host. `Host` is what of that process the device code can see
or change: the bytes of its address space, whether its integer arithmetic is overflow-checked
(the debug build) or wraps (the release build), and the answers `KVM_IRQ_LINE` will give.
Every access through a guest pointer and every interrupt level driven is also noted in
`events`, which no code reads.

Guest memory is a list of regions, each the mapping of a range of guest physical addresses to a
range of the process (`MemRegion` of `main.rs`). Reads and writes go to the whole address space:
that they stay inside a region is a theorem, not part of the model.
-/

namespace Hearth
open Lib

/-- What the VMM does that can be told from outside. -/
inductive Event where
  /-- reads the bytes of a span through a guest pointer -/
  | read (span : Span)
  /-- stores bytes through a guest pointer -/
  | write (addr : Nat) (bytes : List UInt8)
  /-- drives an interrupt line to a level -/
  | irq (num level : UInt32)
  /-- has handed a chain back through the used ring at this guest address -/
  | used (ring : UInt64) (head : UInt16) (len : UInt32)
  deriving DecidableEq, Repr

/-- The errors of the modelled code. `os` is an error the operating system reports. -/
inductive IoError where
  | vringAddress (gpa : UInt64)
  | blkNoHeader
  | blkNoStatus
  | blkPastEnd (sector : UInt64) (len : Nat)
  | netNoHeader
  | os
  deriving DecidableEq, Repr

/-- `{:#x}` -/
def hex (n : Nat) : String := "0x" ++ String.ofList (Nat.toDigits 16 n)

/-- The text of an error; the system's own are left to it. -/
def IoError.message : IoError → String
  | .vringAddress gpa => "Vring address " ++ hex gpa.toNat ++ " is outside guest memory."
  | .blkNoHeader => "Virtio-blk request without header."
  | .blkNoStatus => "Virtio-blk request without status byte."
  | .blkPastEnd sector len =>
    "Virtio-blk access past end of disk (sector " ++ hex sector.toNat ++ ", " ++ toString len ++
      " bytes)."
  | .netNoHeader => "Virtio-net request without header."
  | .os => ""

/-- The state of the VMM process that device code works on. -/
structure Host where
  mem : Mem
  events : List Event
  overflowChecks : Bool
  /-- which of the next `KVM_IRQ_LINE` calls fail; none once the list is used up -/
  irqLineFails : List Bool

/-- A host in a release build whose calls succeed. -/
def Host.release (mem : Mem) : Host where
  mem := mem
  events := []
  overflowChecks := false
  irqLineFails := []

/-- What is done on the host. -/
abbrev HostM (α : Type) : Type := Eff IoError Host α

/-! ## Arithmetic -/

/-- `a + b` on `u64`: a panic on overflow where overflow is checked, else modulo `2 ^ 64`. -/
def addU64 (a b : UInt64) : HostM UInt64 := fun h =>
  if h.overflowChecks ∧ 2 ^ 64 ≤ a.toNat + b.toNat then (.panic, h) else (.ok (a + b), h)

/-- `a + b` on `u32`. -/
def addU32 (a b : UInt32) : HostM UInt32 := fun h =>
  if h.overflowChecks ∧ 2 ^ 32 ≤ a.toNat + b.toNat then (.panic, h) else (.ok (a + b), h)

/-- The sum of lengths as `usize`, added up from the left as `Iterator::sum` does. -/
def sumUsize : (acc : Nat) → List Nat → HostM Nat
  | acc, [] => pure acc
  | acc, n :: ns => fun h =>
    if h.overflowChecks ∧ 2 ^ 64 ≤ acc + n then (.panic, h) else sumUsize ((acc + n) % 2 ^ 64) ns h

/-- A sum that does not overflow. -/
lemma sumUsize_run {h : Host} {acc : Nat} {ns : List Nat} (hlt : acc + ns.sum < 2 ^ 64) :
    sumUsize acc ns h = (.ok (acc + ns.sum), h) := by
  induction ns generalizing acc with
  | nil => rfl
  | cons n ns ih =>
    rw [List.sum_cons] at hlt ⊢
    unfold sumUsize
    rw [if_neg (by omega), Nat.mod_eq_of_lt (by omega), ih (by omega), Nat.add_assoc]

/-! ## Guest memory -/

/-- A range of guest physical addresses and the mapping that backs it. -/
structure MemRegion where
  memPtr : Nat
  memSize : Nat
  guestPhysAddr : UInt64
  /-- the mapping lies in the process's address space -/
  mapped : memPtr + memSize ≤ 2 ^ 64

/-- The regions of guest memory. -/
abbrev GuestMemory : Type := List MemRegion

/-- The host addresses of a region. -/
def MemRegion.span (r : MemRegion) : Span := ⟨r.memPtr, r.memSize⟩

/-- The host address of `gpa`, if `len` bytes from there on lie in one region. -/
def gpaToHost (mem : GuestMemory) (gpa : UInt64) (len : Nat) : Option Nat :=
  mem.findSome? fun r =>
    if r.guestPhysAddr ≤ gpa then
      let off := (gpa - r.guestPhysAddr).toNat
      if off + len < 2 ^ 64 ∧ off + len ≤ r.memSize then some (r.memPtr + off) else none
    else none

/-- Notes an event. -/
def Host.note (e : Event) (h : Host) : Host := { h with events := h.events ++ [e] }

/-- A volatile read of a `T` through a guest pointer. -/
def readGuestPtr (T : Type) [Layout T] (ptr : Nat) : HostM T := fun h =>
  (.ok (h.mem.load T ptr), h.note (.read ⟨ptr, Layout.size T⟩))

/-- A volatile write of a `T` through a guest pointer. -/
def writeGuestPtr {T : Type} [Layout T] (ptr : Nat) (data : T) : HostM Unit := fun h =>
  (.ok (), { h.note (.write ptr (Layout.encode data)) with mem := h.mem.store ptr data })

/-- A load from guest memory. -/
lemma readGuestPtr_run (T : Type) [Layout T] (ptr : Nat) (h : Host) :
    readGuestPtr T ptr h = (.ok (h.mem.load T ptr), h.note (.read ⟨ptr, Layout.size T⟩)) := rfl

/-- The bytes of a slice of guest memory. -/
def readSlice (s : Span) : HostM (List UInt8) := fun h =>
  (.ok (h.mem.read s.base s.len), h.note (.read s))

/-- Stores bytes from the start of a slice of guest memory on. -/
def writeSlice (s : Span) (bytes : List UInt8) : HostM Unit := fun h =>
  (.ok (), { h.note (.write s.base bytes) with mem := h.mem.write s.base bytes })

/-- `KVM_IRQ_LINE` -/
def archUpdateIrq (level num : UInt32) : HostM Unit := fun h =>
  match h.irqLineFails with
  | true :: fails => (.err .os, { h with irqLineFails := fails })
  | false :: fails => (.ok (), { h.note (.irq num level) with irqLineFails := fails })
  | [] => (.ok (), h.note (.irq num level))

/-! ## Spans of guest memory -/

/-- The span lies inside the mapping of one region. -/
def Confined (mem : GuestMemory) (s : Span) : Prop := ∃ r ∈ mem, s.Inside r.span

/-- A part of what is in guest memory is. -/
lemma Confined.mono {mem : GuestMemory} {s t : Span} (h : Confined mem t) (hs : s.Inside t) :
    Confined mem s := by
  obtain ⟨r, hr, ht⟩ := h
  exact ⟨r, hr, hs.trans ht⟩

/-- The pointers `gpaToHost` returns have all of the range they were asked for in one region. -/
lemma gpaToHost_confined {mem : GuestMemory} {gpa : UInt64} {len ptr : Nat}
    (h : gpaToHost mem gpa len = some ptr) : Confined mem ⟨ptr, len⟩ := by
  obtain ⟨r, hr, hf⟩ := List.exists_of_findSome?_eq_some h
  split at hf
  · dsimp only at hf
    split at hf
    · next hle =>
      cases hf
      refine ⟨r, hr, Span.inside_of_le ?_ ?_⟩ <;> simp only [MemRegion.span] <;> omega
    · cases hf
  · cases hf

end Hearth
