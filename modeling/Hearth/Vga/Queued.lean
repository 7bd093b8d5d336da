import Hearth.Lib.Transition
import Hearth.Vga.Queue

/-!
# Queued writes are invisible

The guest accesses the ports of the adapter in some order. KVM queues some of the writes to the DAC
and makes the other accesses exit; frontends render, and apply what is queued while KVM goes on
queueing. `queue_invisible` compares this with the device that every access exits to: the guest
reads the same values, the registers are the same after every exit, and a frame has the palette of
the accesses that were made before its queue was read.
-/

namespace Hearth
open Lib

/-- An access of the guest, with the bytes of the page that it exits with. -/
structure VgaIo where
  io : PortIo
  buffer : List UInt8

namespace VgaIo

/-- A single write to the ports that `coalesce_pio` was asked to queue: `VGA_DAC_WRITE_PORTS`. -/
structure Coalesced (a : VgaIo) : Prop where
  out : a.io.direction = kvmExitIoOut
  count : a.io.count = 1
  size : a.io.size ≠ 0
  first : VgaPort.dacWriteIndex ≤ a.io.port
  last : a.io.port.toNat + a.io.size.toNat ≤ VgaPort.dacWriteIndex.toNat + 2
  page : a.io.size.toNat ≤ a.buffer.length

/-- The entry that KVM makes of it. The bytes after those of the write are whatever they were. -/
def entry (a : VgaIo) (rest : List UInt8) : CoalescedMmio where
  physAddr := a.io.port.toUInt64
  len := a.io.size.toUInt32
  data := a.buffer.take a.io.size.toNat ++ rest

end VgaIo

/-- The device after these accesses, all by exits. -/
def Vga.direct (self : Vga) (accesses : List VgaIo) : Vga :=
  accesses.foldl (fun self a => (Vga.handle a.io a.buffer self).2) self

/-- Where the thread is that renders: it has the lock, it applies the queue from `i` up to `stop`,
or it has applied it. `started` and `applied` are how many accesses there were when it got the
lock and when it read `last`. -/
inductive RenderPc where
  | locked (started : Nat)
  | draining (i stop : UInt32) (started applied : Nat)
  | drained (started applied : Nat)
  deriving DecidableEq

/-- An exit: the accesses before it, what the guest got, and the registers then. -/
structure VgaExit where
  before : Nat
  data : List UInt8
  registers : VgaRegisters

/-- What a render used. -/
structure VgaFrame where
  started : Nat
  applied : Nat
  palette : UInt8 → UInt32
  display : Bool

/-- The adapter with its queue, with every access that the guest made, the exits they took and the
    frames that were started. -/
structure Coalescing where
  vga : Vga
  render : Option RenderPc
  /-- what the guest did, in its order -/
  accesses : List VgaIo
  exits : List VgaExit
  frames : List VgaFrame

namespace Coalescing
open Vga

/-- Nothing is queued at the start. -/
def Init (elapsed : List Nat) (framebuffer : Option Nat) (dirtyLog : Option DirtyLog)
    (s : Coalescing) : Prop :=
  ∃ dacWrites, s.vga = Vga.new elapsed framebuffer dirtyLog dacWrites ∧
    (∀ ring, dacWrites = some ring → ring.first = 0 ∧ ring.last = 0) ∧ s.render = none ∧
    s.accesses = [] ∧
      s.exits = [] ∧ s.frames = []

/-- The guest's accesses, drains and frames. -/
inductive Step (s : Coalescing) : Coalescing → Prop where
  /-- KVM queues a write while there is room -/
  | queue {ring} (a : VgaIo) (rest : List UInt8) :
      a.Coalesced → s.vga.dacWrites = some ring → ring.Room →
    Step s { s with
      vga := { s.vga with dacWrites := some (ring.push (a.entry rest)) }
      accesses := s.accesses ++ [a] }
  /-- any access may exit, once the lock is free -/
  | exit {data vga} (a : VgaIo) :
      s.render = none → Vga.handle a.io a.buffer s.vga = (.ok data, vga) →
    Step s { s with
      vga := vga
      accesses := s.accesses ++ [a]
      exits := s.exits ++ [⟨s.accesses.length, data, vga.toVgaRegisters⟩] }
  /-- a frontend renders -/
  | lock : s.render = none → Step s { s with render := some (.locked s.accesses.length) }
  /-- `drain` reads `first` and `last` -/
  | bounds {ring started} : s.render = some (.locked started) → s.vga.dacWrites = some ring →
    Step s { s with render := some (.draining ring.first ring.last started s.accesses.length) }
  /-- without a ring there is nothing to apply -/
  | unqueued {started} : s.render = some (.locked started) → s.vga.dacWrites = none →
    Step s { s with render := some (.drained started s.accesses.length) }
  /-- an entry is applied -/
  | apply {ring i stop started applied} : s.render = some (.draining i stop started applied) →
    s.vga.dacWrites = some ring → i ≠ stop →
    Step s { s with
      vga := s.vga.applyEntry (ring.entries i.toNat)
      render := some (.draining ((i + 1) % UInt32.ofNat ringEntries) stop started applied) }
  /-- the entries are given back to KVM -/
  | release {ring i stop started applied} : s.render = some (.draining i stop started applied) →
    s.vga.dacWrites = some ring → i = stop →
    Step s { s with
      vga := { s.vga with dacWrites := some (ring.release stop) }
      render := some (.drained started applied) }
  /-- the rest of what `render` does with the lock -/
  | frame {started applied} (frame : UInt64) (pageWritten : Fin framebufferPages → UInt64) :
    s.render = some (.drained started applied) →
    Step s { s with
      vga := { s.vga with frame := frame, pageWritten := pageWritten, repaint := false }
      render := none
      frames := s.frames ++ [⟨started, applied, s.vga.paletteRgb, s.vga.acIndex &&& acPas != 0⟩] }

end Coalescing

/-! ## The same registers -/

namespace Vga

/-- The guest cannot tell the devices apart by their registers or the time. -/
structure Same (v d : Vga) : Prop where
  registers : d.toVgaRegisters = v.toVgaRegisters
  elapsed : d.elapsed = v.elapsed

variable {v d : Vga}

/-- The same write keeps devices the same. -/
lemma Same.write (h : Same v d) (port : UInt16) (byte : UInt8) :
    Same (v.write port byte) (d.write port byte) :=
  ⟨congrArg (VgaRegisters.write port byte) h.registers, h.elapsed⟩

/-- Devices that are the same answer the same. -/
lemma Same.value (h : Same v d) (port : UInt16) : d.value port = v.value port := by
  obtain ⟨registers, elapsed⟩ := h
  rcases v with ⟨⟩
  rcases d with ⟨⟩
  cases registers
  cases elapsed
  rfl

/-- The same read keeps devices the same. -/
lemma Same.afterRead (h : Same v d) (port : UInt16) :
    Same (v.afterRead port) (d.afterRead port) := by
  unfold Vga.afterRead
  split_ifs
  · exact ⟨congrArg (fun r : VgaRegisters =>
      { r with dacRead := VgaRegisters.nextComponent r.dacRead }) h.registers,
      h.elapsed⟩
  · exact ⟨congrArg (fun r : VgaRegisters => { r with acDataNext := false }) h.registers,
      congrArg List.tail h.elapsed⟩
  · exact h

/-- A byte of an access gets the same answer, and keeps devices the same. -/
lemma Same.accessByte (h : Same v d) (direction : UInt8) (port : UInt16) (byte : UInt8) :
    (d.accessByte direction port byte).1 = (v.accessByte direction port byte).1 ∧
      Same (v.accessByte direction port byte).2 (d.accessByte direction port byte).2 := by
  unfold Vga.accessByte
  split_ifs
  · exact ⟨rfl, h.write port byte⟩
  · exact ⟨h.value port, h.afterRead port⟩
  · exact ⟨rfl, h⟩

/-- An access gets the same answer, and keeps devices the same. -/
lemma Same.accessBytes (h : Same v d) (direction : UInt8) (port : UInt16) (size i : Nat)
    (data : List UInt8) :
    (Vga.accessBytes direction port size i data d).1 =
      (Vga.accessBytes direction port size i data v).1 ∧
      Same (Vga.accessBytes direction port size i data v).2
        (Vga.accessBytes direction port size i data d).2 := by
  induction data generalizing i v d with
  | nil => exact ⟨rfl, h⟩
  | cons byte data ih =>
    obtain ⟨e, first⟩ := h.accessByte direction (port + UInt16.ofNat i) byte
    obtain ⟨es, rest⟩ := ih first (if i + 1 = size then 0 else i + 1)
    exact ⟨congrArg₂ List.cons e es, rest⟩

/-- The same writes to several ports keep devices the same. -/
lemma Same.writeFrom (h : Same v d) (port : UInt16) (data : List UInt8) :
    Same (v.writeFrom port data) (d.writeFrom port data) := by
  induction data generalizing port v d with
  | nil => exact h
  | cons byte data ih => exact ih (h.write port byte) (port + 1)

/-- The bytes of a single write go to ports that follow each other. -/
lemma accessBytes_out {size i : Nat} (port : UInt16) {data : List UInt8}
    (fits : i + data.length ≤ size) (v : Vga) :
    (Vga.accessBytes kvmExitIoOut port size i data v).2 =
      v.writeFrom (port + UInt16.ofNat i) data := by
  induction data generalizing i v with
  | nil => rfl
  | cons byte data ih =>
    rw [List.length_cons] at fits
    have written : v.accessByte kvmExitIoOut (port + UInt16.ofNat i) byte =
        (byte, v.write (port + UInt16.ofNat i) byte) := if_pos rfl
    show (Vga.accessBytes kvmExitIoOut port size (if i + 1 = size then 0 else i + 1) data
      (v.accessByte kvmExitIoOut (port + UInt16.ofNat i) byte).2).2 = _
    rw [written]
    cases data with
    | nil => rfl
    | cons next data =>
      rw [List.length_cons] at fits ih
      have more : i + 1 ≠ size := by omega
      have port' : port + UInt16.ofNat (i + 1) = port + UInt16.ofNat i + 1 := by
        rw [UInt16.ofNat_add, UInt16.add_assoc]
        rfl
      rw [if_neg more, ih (by omega), port']
      rfl

/-! ## Direct accesses -/

/-- Without a queue there are no indices out of range. -/
lemma unqueued_valid (h : d.dacWrites = none) : d.QueueValid := by
  intro ring hring
  cases h.symm.trans hring

/-- Without a queue nothing is queued. -/
lemma unqueued_empty (h : d.dacWrites = none) : d.QueueEmpty := by
  intro ring hring
  cases h.symm.trans hring

/-- Without a ring an exit only makes its accesses. -/
lemma handle_unqueued (h : d.dacWrites = none) {io : PortIo} (size : io.size ≠ 0)
    (buffer : List UInt8) :
    let len := io.size.toNat * io.count.toNat
    let r := accessBytes io.direction io.port io.size.toNat 0 (buffer.take len) d
    handle io buffer d = (.ok (r.1 ++ buffer.drop len), r.2) := by
  have run := handle_run (unqueued_valid h) size buffer
  rw [drained_of_empty (unqueued_empty h)] at run
  exact run

/-- An access of a device without a ring. -/
lemma handle_stays_unqueued (h : d.dacWrites = none) (io : PortIo) (buffer : List UInt8) :
    (handle io buffer d).2.dacWrites = none := by
  by_cases size : io.size = 0
  · unfold handle
    rw [Eff.bind_of_ok (applyQueuedWrites_run (unqueued_valid h)), if_pos size]
    show d.drained.dacWrites = none
    rw [drained_of_empty (unqueued_empty h)]
    exact h
  · rw [handle_unqueued h size buffer]
    exact (accessBytes_window io.direction io.port io.size.toNat 0 _ d).dacWrites.trans h

/-- No accesses leave the device as it was. -/
@[simp] lemma direct_nil (v : Vga) : v.direct [] = v := rfl

/-- The last access comes last. -/
lemma direct_append (v : Vga) (accesses : List VgaIo) (a : VgaIo) :
    v.direct (accesses ++ [a]) = (handle a.io a.buffer (v.direct accesses)).2 :=
  List.foldl_concat ..

/-- The direct device never has a queue. -/
lemma direct_unqueued (h : v.dacWrites = none) (accesses : List VgaIo) :
    (v.direct accesses).dacWrites = none := by
  induction accesses generalizing v with
  | nil => exact h
  | cons a accesses ih => exact ih (handle_stays_unqueued h a.io a.buffer)

/-- An entry of the ring is the write that it was made of. -/
lemma applyEntry_entry {a : VgaIo} (h : a.Coalesced) (rest : List UInt8) (v : Vga) :
    v.applyEntry (a.entry rest) = v.writeFrom a.io.port (a.buffer.take a.io.size.toNat) := by
  have port : a.io.port.toUInt64.toUInt16 = a.io.port := by
    apply UInt16.toNat_inj.mp
    rw [UInt64.toNat_toUInt16, UInt16.toNat_toUInt64, Nat.mod_eq_of_lt a.io.port.toNat_lt]
  have len : (a.buffer.take a.io.size.toNat).length = a.io.size.toNat :=
    List.length_take_of_le h.page
  have data : (a.buffer.take a.io.size.toNat ++ rest).take a.io.size.toNat =
    a.buffer.take a.io.size.toNat := by
    rw [List.take_append_of_le_length (Nat.le_of_eq len.symm), List.take_take, Nat.min_self]
  show v.writeFrom a.io.port.toUInt64.toUInt16
    ((a.buffer.take a.io.size.toNat ++ rest).take a.io.size.toUInt32.toNat) = _
  rw [port, UInt8.toNat_toUInt32, data]

/-- A write that was queued, and the exit it would have been. -/
lemma Same.queued (h : Same v d) (unqueued : d.dacWrites = none) {a : VgaIo}
    (coalesced : a.Coalesced)
    (rest : List UInt8) : Same (v.applyEntry (a.entry rest)) (handle a.io a.buffer d).2 := by
  have len : (a.buffer.take a.io.size.toNat).length ≤ a.io.size.toNat := List.length_take_le ..
  have one : a.io.size.toNat * a.io.count.toNat = a.io.size.toNat := by
    rw [coalesced.count]
    exact Nat.mul_one _
  have written :=
    accessBytes_out (i := 0) a.io.port (Nat.le_trans (Nat.le_of_eq (Nat.zero_add _)) len) d
  have zero : a.io.port + UInt16.ofNat 0 = a.io.port := UInt16.add_zero _
  rw [zero] at written
  rw [handle_unqueued unqueued coalesced.size a.buffer, applyEntry_entry coalesced,
    coalesced.out, one, written]
  exact h.writeFrom _ _

/-- An exit, after what was queued is applied, and the same exit of the device without a ring. -/
lemma Same.exit {v' : Vga} (h : Same v.drained d) (valid : v.QueueValid)
    (unqueued : d.dacWrites = none) {io : PortIo}
    {buffer data : List UInt8} (run : handle io buffer v = (.ok data, v')) :
    ∃ d', handle io buffer d = (.ok data, d') ∧ Same v'.drained d' ∧ v'.QueueValid ∧
      d'.toVgaRegisters = v'.toVgaRegisters := by
  obtain ⟨size, rfl, rfl⟩ := handle_ok valid run
  have window :=
    accessBytes_window io.direction io.port io.size.toNat 0
      (buffer.take (io.size.toNat * io.count.toNat))
    v.drained
  obtain ⟨e, same⟩ := h.accessBytes io.direction io.port io.size.toNat 0
    (buffer.take (io.size.toNat * io.count.toNat))
  have run' := handle_unqueued unqueued size buffer
  dsimp only at run'
  rw [e] at run'
  refine ⟨_, run', ?_, valid.drained.window window, same.registers⟩
  rw [drained_of_empty ((drained_empty v).window window)]
  exact same

/-! ## The queue -/

/-- What is the same as the same is the same. -/
lemma Same.trans {w : Vga} (h : Same v w) (h' : Same w d) : Same v d :=
  ⟨h'.registers.trans h.registers, h'.elapsed.trans h.elapsed⟩

/-- Applying the same writes keeps devices the same. -/
lemma Same.applyEntries (h : Same v d) (items : List CoalescedMmio) :
    Same (v.applyEntries items) (d.applyEntries items) := by
  induction items generalizing v d with
  | nil => exact h
  | cons entry items ih => exact ih (h.writeFrom _ _)

/-- A device shows its guest what is queued, once that is applied. -/
lemma same_drained_iff {ring : CoalescedRing} (h : v.dacWrites = some ring) :
    Same v.drained d ↔ Same (v.applyEntries ring.queued) d := by
  unfold Vga.drained
  rw [h]
  exact ⟨fun same => ⟨same.registers, same.elapsed⟩, fun same => ⟨same.registers, same.elapsed⟩⟩

/-- Draining the same queue keeps them the same. -/
lemma Same.drained (h : Same v d) (queue : d.dacWrites = v.dacWrites) :
    Same v.drained d.drained := by
  cases hv : v.dacWrites with
  | none =>
    rw [drained_of_empty (unqueued_empty hv), drained_of_empty (unqueued_empty (queue.trans hv))]
    exact h
  | some ring =>
    apply (same_drained_iff hv).mpr
    unfold Vga.drained
    rw [queue, hv]
    have applied := h.applyEntries ring.queued
    exact ⟨applied.registers, applied.elapsed⟩

/-- A write that KVM queues. -/
lemma Same.push {ring : CoalescedRing} (h : Same v.drained d) (hring : v.dacWrites = some ring)
    (valid : ring.Valid)
    (room : ring.Room) (unqueued : d.dacWrites = none) {a : VgaIo} (coalesced : a.Coalesced)
    (rest : List UInt8) :
    Same { v with dacWrites := some (ring.push (a.entry rest)) }.drained
      (handle a.io a.buffer d).2 := by
  rw [same_drained_iff rfl, CoalescedRing.queued_push valid room, applyEntries_append]
  have before : Same { v with dacWrites := some (ring.push (a.entry rest)) } v := ⟨rfl, rfl⟩
  have applied := (before.applyEntries ring.queued).trans ((same_drained_iff hring).mp h)
  exact applied.queued unqueued coalesced rest

end Vga

/-! ## The invariant -/

/-- The exit of the device without a ring, at the same place in the guest's accesses. -/
def VgaExit.Direct (start : Vga) (accesses : List VgaIo) (e : VgaExit) : Prop :=
  ∃ a d, accesses[e.before]? = some a ∧
    Vga.handle a.io a.buffer (start.direct (accesses.take e.before)) = (.ok e.data, d) ∧
      d.toVgaRegisters = e.registers

/-- The frame has the colours after the first `applied` accesses, which are at
least those before the render. -/
structure VgaFrame.Direct (start : Vga) (accesses : List VgaIo) (f : VgaFrame) : Prop where
  started : f.started ≤ f.applied
  applied : f.applied ≤ accesses.length
  palette : (start.direct (accesses.take f.applied)).paletteRgb = f.palette
  display : ((start.direct (accesses.take f.applied)).acIndex &&& Vga.acPas != 0) = f.display

/-- An exit that agrees with the direct device still does after another access. -/
lemma VgaExit.Direct.append {start : Vga} {accesses : List VgaIo} {e : VgaExit}
    (h : e.Direct start accesses) (a : VgaIo) : e.Direct start (accesses ++ [a]) := by
  obtain ⟨a', d, access, run, registers⟩ := h
  have lt : e.before < accesses.length := (List.getElem?_eq_some_iff.mp access).1
  refine ⟨a', d, (List.getElem?_append_left lt).trans access, ?_, registers⟩
  rw [List.take_append_of_le_length (Nat.le_of_lt lt)]
  exact run

/-- A frame stays what it was. -/
lemma VgaFrame.Direct.append {start : Vga} {accesses : List VgaIo} {f : VgaFrame}
    (h : f.Direct start accesses) (a : VgaIo) : f.Direct start (accesses ++ [a]) := by
  have same : (accesses ++ [a]).take f.applied = accesses.take f.applied :=
    List.take_append_of_le_length h.applied
  refine ⟨h.started, Nat.le_trans h.applied (List.length_append ▸ Nat.le_add_right _ _), ?_, ?_⟩
  · rw [same]
    exact h.palette
  · rw [same]
    exact h.display

namespace Coalescing
open Vga

variable {start : Vga} {s s' : Coalescing}

/-- What the device will be for the guest, wherever the render is: of the queue, some entries were
applied, some will be in this drain, and some came later. -/
inductive At (start : Vga) (accesses : List VgaIo) (v : Vga) : Option RenderPc → Prop where
  | free : Same v.drained (start.direct accesses) → At start accesses v none
  | locked {started} : Same v.drained (start.direct accesses) → started ≤ accesses.length →
    At start accesses v (some (.locked started))
  | draining {ring i stop started applied} (done todo later : List CoalescedMmio) :
      v.dacWrites = some ring →
    ring.queued = done ++ (todo ++ later) →
      i.toNat = (ring.first.toNat + done.length) % ringEntries →
    stop.toNat = (ring.first.toNat + done.length + todo.length) % ringEntries →
    Same (v.applyEntries todo) (start.direct (accesses.take applied)) →
    Same (v.applyEntries (todo ++ later)) (start.direct accesses) → started ≤ applied →
      applied ≤ accesses.length →
    At start accesses v (some (.draining i stop started applied))
  | drained {started applied} : Same v (start.direct (accesses.take applied)) →
    Same v.drained (start.direct accesses) → started ≤ applied → applied ≤ accesses.length →
    At start accesses v (some (.drained started applied))

/-- What has been applied so far is what the direct device got, up to what is queued. -/
structure Inv (start : Vga) (s : Coalescing) : Prop where
  valid : s.vga.QueueValid
  pc : At start s.accesses s.vga s.render
  exits : ∀ e ∈ s.exits, e.Direct start s.accesses
  frames : ∀ f ∈ s.frames, f.Direct start s.accesses

/-- A queued write comes after everything that is to be applied. -/
lemma At.queue {accesses : List VgaIo} {v : Vga} {pc : Option RenderPc} {ring : CoalescedRing}
    (h : At start accesses v pc) (unqueued : start.dacWrites = none)
    (hring : v.dacWrites = some ring)
    (valid : ring.Valid) (room : ring.Room) {a : VgaIo} (coalesced : a.Coalesced)
    (rest : List UInt8) :
    At start (accesses ++ [a]) { v with dacWrites := some (ring.push (a.entry rest)) } pc := by
  have later : ∀ {n}, n ≤ accesses.length → n ≤ (accesses ++ [a]).length := fun le =>
    Nat.le_trans le (List.length_append ▸ Nat.le_add_right _ _)
  have push (same : Same v.drained (start.direct accesses)) :
      Same { v with dacWrites := some (ring.push (a.entry rest)) }.drained
        (start.direct (accesses ++ [a])) := by
    rw [direct_append]
    exact same.push hring valid room (direct_unqueued unqueued accesses) coalesced rest
  have before : Same { v with dacWrites := some (ring.push (a.entry rest)) } v := ⟨rfl, rfl⟩
  cases h with
  | free same => exact .free (push same)
  | locked same le => exact .locked (push same) (later le)
  | @draining ring' i stop started applied done todo more hring' queued hi hstop now all le le' =>
    cases hring.symm.trans hring'
    refine .draining done todo (more ++ [a.entry rest]) rfl ?_ hi hstop ?_ ?_ le (later le')
    · rw [CoalescedRing.queued_push valid room, queued, List.append_assoc, List.append_assoc]
    · rw [List.take_append_of_le_length le']
      exact (before.applyEntries todo).trans now
    · rw [← List.append_assoc, applyEntries_append, direct_append]
      exact ((before.applyEntries _).trans all).queued
        (direct_unqueued unqueued accesses) coalesced rest
  | drained now same le le' =>
    refine .drained ?_ (push same) le (later le')
    rw [List.take_append_of_le_length le']
    exact before.trans now

/-- A drain takes what the ring has when it reads the bounds. -/
lemma At.bounds {accesses : List VgaIo} {v : Vga} {ring : CoalescedRing} {started : Nat}
    (h : At start accesses v (some (.locked started))) (hring : v.dacWrites = some ring)
    (valid : ring.Valid) :
    At start accesses v (some (.draining ring.first ring.last started accesses.length)) := by
  cases h with
  | locked same le =>
    have applied := (same_drained_iff hring).mp same
    have first : ring.first.toNat = (ring.first.toNat + 0) % ringEntries := by
      rw [Nat.add_zero, Nat.mod_eq_of_lt valid.first]
    have last : ring.last.toNat = (ring.first.toNat + 0 + ring.queued.length) % ringEntries := by
      rw [CoalescedRing.queued_length]
      exact valid.last_eq
    refine .draining [] ring.queued [] hring (List.append_nil _).symm first last ?_ ?_ le
      (Nat.le_refl _)
    · rw [List.take_length]
      exact applied
    · rw [List.append_nil]
      exact applied

/-- The next entry is the first of those to apply. -/
lemma At.apply {accesses : List VgaIo} {v : Vga} {ring : CoalescedRing} {i stop : UInt32}
    {started applied : Nat} (h : At start accesses v (some (.draining i stop started applied)))
    (hring : v.dacWrites = some ring) (ne : i ≠ stop) :
    At start accesses (v.applyEntry (ring.entries i.toNat))
      (some (.draining ((i + 1) % UInt32.ofNat ringEntries) stop started applied)) := by
  cases h with
  | @draining ring' _ _ _ _ done todo later hring' queued hi hstop now all le le' =>
    cases hring.symm.trans hring'
    cases todo with
    | nil => exact absurd (UInt32.toNat_inj.mp (hi.trans hstop.symm)) ne
    | cons entry todo =>
      have holds := ring.queued_holds
      rw [queued] at holds
      have head : ring.entries i.toNat = entry := hi ▸ holds.drop.head
      have lt : i.toNat < ringEntries := hi ▸ Nat.mod_lt _ (by decide)
      have next := CoalescedRing.toNat_next lt
      have window :=
        (writeFrom_window entry.physAddr.toUInt16 (entry.data.take entry.len.toNat) v).dacWrites
      have len : (done ++ [entry]).length = done.length + 1 := List.length_append
      rw [head]
      refine .draining (done ++ [entry]) todo later (window.trans hring) ?_ ?_ ?_ now all le le'
      · rw [queued, List.append_assoc]
        rfl
      · rw [next, hi, len, Nat.mod_add_mod]
        rfl
      · rw [hstop, len, List.length_cons]
        congr 1
        omega

/-- At the end of a drain the ring has what came later. -/
lemma At.release {accesses : List VgaIo} {v : Vga} {ring : CoalescedRing} {i stop : UInt32}
    {started applied : Nat} (h : At start accesses v (some (.draining i stop started applied)))
    (hring : v.dacWrites = some ring)
    (valid : ring.Valid) (e : i = stop) : (ring.release stop).Valid ∧
      At start accesses { v with dacWrites := some (ring.release stop) }
        (some (.drained started applied)) := by
  cases h with
  | @draining ring' _ _ _ _ done todo later hring' queued hi hstop now all le le' =>
    cases hring.symm.trans hring'
    subst e
    have len := ring.queued_length
    have lt := ring.length_lt
    rw [queued, List.length_append, List.length_append] at len
    have none : todo = [] := by
      apply List.length_eq_zero_iff.mp
      unfold ringEntries at *
      omega
    subst none
    have first : i.toNat < ringEntries := hi ▸ Nat.mod_lt _ (by decide)
    have holds := ring.queued_holds
    rw [queued] at holds
    have rest : (ring.release i).queued = later := by
      refine CoalescedRing.queued_eq (holds.drop.congr ?_) ?_ first ?_
      · show _ = i.toNat % ringEntries
        rw [hi, Nat.mod_mod]
      · show ring.last.toNat = (i.toNat + later.length) % ringEntries
        rw [valid.last_eq, hi, ← len, Nat.mod_add_mod]
        congr 1
        simp only [List.length_nil]
        omega
      · simp only [List.length_nil] at len
        omega
    have same : Same { v with dacWrites := some (ring.release i) } v := ⟨rfl, rfl⟩
    refine ⟨⟨first, valid.last⟩, .drained (same.trans now) ?_ le le'⟩
    rw [same_drained_iff rfl, rest]
    exact (same.applyEntries later).trans all

/-- Every step keeps the invariant. -/
lemma Inv.step (unqueued : start.dacWrites = none) (h : Inv start s) (st : Step s s') :
    Inv start s' := by
  obtain ⟨valid, pc, exits, frames⟩ := h
  cases st with
  | @queue ring a rest coalesced hring room =>
    -- the write waits in the ring: nothing of the device changes but the queue
    refine ⟨?_, pc.queue unqueued hring (valid ring hring) room coalesced rest,
      fun e he => (exits e he).append a,
      fun f hf => (frames f hf).append a⟩
    intro ring' hring'
    cases hring'
    exact (valid ring hring).push _
  | @exit data vga a free run =>
    -- an access that exits drains the queue first, as the direct device has done already
    rw [free] at pc
    cases pc with
    | free same =>
      obtain ⟨d, run', same', valid', registers⟩ :=
        same.exit valid (direct_unqueued unqueued s.accesses) run
      refine ⟨valid', ?_, ?_, fun f hf => (frames f hf).append a⟩
      · show At start (s.accesses ++ [a]) vga s.render
        rw [free]
        apply At.free
        rw [direct_append, run']
        exact same'
      · refine List.forall_mem_append.mpr ⟨fun e he => (exits e he).append a,
          List.forall_mem_singleton.mpr ?_⟩
        refine ⟨a, d, List.getElem?_concat_length, ?_, registers⟩
        rw [List.take_left]
        exact run'
  | lock free =>
    rw [free] at pc
    cases pc with
    | free same => exact ⟨valid, .locked same (Nat.le_refl _), exits, frames⟩
  | bounds locked hring =>
    rw [locked] at pc
    exact ⟨valid, pc.bounds hring (valid _ hring), exits, frames⟩
  | unqueued locked none =>
    rw [locked] at pc
    cases pc with
    | locked same le =>
      have now := same
      rw [drained_of_empty (unqueued_empty none), ← List.take_length (l := s.accesses)] at now
      exact ⟨valid, .drained now same le (Nat.le_refl _), exits, frames⟩
  | @apply ring i stop started applied draining hring ne =>
    rw [draining] at pc
    exact ⟨valid.window (writeFrom_window _ _ _), pc.apply hring ne, exits, frames⟩
  | @release ring i stop started applied draining hring e =>
    rw [draining] at pc
    obtain ⟨valid', pc'⟩ := pc.release hring (valid ring hring) e
    refine ⟨?_, pc', exits, frames⟩
    intro ring' hring'
    cases hring'
    exact valid'
  | @frame started applied frame pageWritten drained =>
    -- the frame is drawn after the drain, from the registers of the direct device
    rw [drained] at pc
    cases pc with
    | drained now same le le' =>
      have framed : Same { s.vga with frame := frame, pageWritten := pageWritten,
                                      repaint := false } s.vga := ⟨rfl, rfl⟩
      refine ⟨valid, .free ((framed.drained rfl).trans same), exits, ?_⟩
      refine List.forall_mem_append.mpr ⟨frames, List.forall_mem_singleton.mpr ⟨le, le', ?_, ?_⟩⟩
      · show _ = s.vga.paletteRgb
        funext byte
        unfold paletteRgb
        rw [now.registers]
      · show _ = (s.vga.acIndex &&& acPas != 0)
        rw [now.registers]

variable {elapsed : List Nat} {framebuffer : Option Nat} {dirtyLog : Option DirtyLog}

/-- A new adapter meets it. -/
lemma Init.inv (h : Init elapsed framebuffer dirtyLog s) :
    Inv (Vga.new elapsed framebuffer dirtyLog none) s := by
  obtain ⟨dacWrites, vga, empty, free, accesses, exits, frames⟩ := h
  have queue : s.vga.dacWrites = dacWrites := by
    rw [vga]
    rfl
  constructor
  case valid =>
    intro ring hring
    obtain ⟨first, last⟩ := empty ring (queue.symm.trans hring)
    exact ⟨first ▸ by decide, last ▸ by decide⟩
  case pc =>
    have none : s.vga.QueueEmpty := by
      intro ring hring
      obtain ⟨first, last⟩ := empty ring (queue.symm.trans hring)
      exact first.trans last.symm
    rw [free]
    apply At.free
    rw [drained_of_empty none, accesses, vga]
    exact ⟨rfl, rfl⟩
  case exits =>
    rw [exits]
    exact fun e he => by cases he
  case frames =>
    rw [frames]
    exact fun f hf => by cases hf

/-- What the guest reads, the registers after its exits and the colours of the frames are those of a
device that every access exits to, whatever KVM queues and whenever frontends render. -/
theorem queue_invisible (h : Reach (Init elapsed framebuffer dirtyLog) Step s) :
    (∀ e ∈ s.exits, e.Direct (Vga.new elapsed framebuffer dirtyLog none) s.accesses) ∧
      (∀ f ∈ s.frames, f.Direct (Vga.new elapsed framebuffer dirtyLog none) s.accesses) ∧
        (s.render = none →
          ((Vga.new elapsed framebuffer dirtyLog none).direct s.accesses).toVgaRegisters =
          s.vga.drained.toVgaRegisters) := by
  have inv := h.invariant (fun _ h => h.inv) fun _ _ h st => h.step rfl st
  refine ⟨inv.exits, inv.frames, fun free => ?_⟩
  have pc := inv.pc
  rw [free] at pc
  cases pc with
  | free same => exact same.registers

/-! ## More writes than the ring holds -/

/-- It is decided by the access. -/
instance (a : VgaIo) : Decidable a.Coalesced :=
  decidable_of_iff (a.io.direction = kvmExitIoOut ∧ a.io.count = 1 ∧ a.io.size ≠ 0 ∧
    VgaPort.dacWriteIndex ≤ a.io.port ∧
      a.io.port.toNat + a.io.size.toNat ≤ VgaPort.dacWriteIndex.toNat + 2 ∧
      a.io.size.toNat ≤ a.buffer.length)
    ⟨fun ⟨out, count, size, first, last, page⟩ => ⟨out, count, size, first, last, page⟩,
      fun ⟨out, count, size, first, last, page⟩ => ⟨out, count, size, first, last, page⟩⟩

/-- What the guest, KVM and a frontend may do next. -/
inductive Move where
  | queue (a : VgaIo)
  | exit (a : VgaIo)
  | lock
  | bounds
  | apply
  | release
  | frame

/-- What is to be next is done. -/
def move (s : Coalescing) : Move → Option Coalescing
  | .queue a =>
    match s.vga.dacWrites with
    | some ring =>
      if a.Coalesced ∧ ring.Room then
        some { s with
          vga := { s.vga with dacWrites := some (ring.push (a.entry [])) },
          accesses := s.accesses ++ [a] }
      else none
    | none => none
  | .exit a =>
    match s.render, Vga.handle a.io a.buffer s.vga with
    | none, (.ok data, vga) =>
      some { s with
        vga := vga, accesses := s.accesses ++ [a]
        exits := s.exits ++ [⟨s.accesses.length, data, vga.toVgaRegisters⟩] }
    | _, _ => none
  | .lock => if s.render.isNone then
      some { s with render := some (.locked s.accesses.length) } else none
  | .bounds =>
    match s.render, s.vga.dacWrites with
    | some (.locked started), some ring =>
      some { s with render := some (.draining ring.first ring.last started s.accesses.length) }
    | _, _ => none
  | .apply =>
    match s.render, s.vga.dacWrites with
    | some (.draining i stop started applied), some ring =>
      if i ≠ stop then
        some { s with
          vga := s.vga.applyEntry (ring.entries i.toNat)
          render := some (.draining ((i + 1) % UInt32.ofNat ringEntries) stop started applied) }
      else none
    | _, _ => none
  | .release =>
    match s.render, s.vga.dacWrites with
    | some (.draining i stop started applied), some ring =>
      if i = stop then
        some { s with
          vga := { s.vga with dacWrites := some (ring.release stop) },
          render := some (.drained started applied) }
      else none
    | _, _ => none
  | .frame =>
    match s.render with
    | some (.drained started applied) =>
      some { s with
        vga := { s.vga with frame := s.vga.frame + 1, pageWritten := s.vga.pageWritten,
                            repaint := false }
        render := none
        frames := s.frames ++ [⟨started, applied, s.vga.paletteRgb, s.vga.acIndex &&& acPas != 0⟩] }
    | _ => none

/-- What `move` computes is a step. -/
lemma move_step {m : Move} (h : s.move m = some s') : Step s s' := by
  -- one constructor of `Step` for each move, with the guard that the move has tested
  cases m with
  | queue a =>
    simp only [move] at h
    split at h
    · next ring hring =>
      obtain ⟨⟨coalesced, room⟩, ⟨⟩⟩ := Option.ite_none_right_eq_some.mp h
      exact .queue a [] coalesced hring room
    · cases h
  | exit a =>
    simp only [move] at h
    split at h
    · next free run =>
      cases h
      exact .exit a free run
    · cases h
  | lock =>
    obtain ⟨free, ⟨⟩⟩ := Option.ite_none_right_eq_some.mp h
    exact .lock (Option.isNone_iff_eq_none.mp free)
  | bounds =>
    simp only [move] at h
    split at h
    · next locked hring =>
      cases h
      exact .bounds locked hring
    · cases h
  | apply =>
    simp only [move] at h
    split at h
    · next draining hring =>
      obtain ⟨ne, ⟨⟩⟩ := Option.ite_none_right_eq_some.mp h
      exact .apply draining hring ne
    · cases h
  | release =>
    simp only [move] at h
    split at h
    · next draining hring =>
      obtain ⟨e, ⟨⟩⟩ := Option.ite_none_right_eq_some.mp h
      exact .release draining hring e
    · cases h
  | frame =>
    simp only [move] at h
    split at h
    · next drained =>
      cases h
      exact .frame _ _ drained
    · cases h

/-- A byte is written to a port. -/
def outb (port : UInt16) (byte : UInt8) : VgaIo := ⟨⟨kvmExitIoOut, 1, port, 1⟩, [byte]⟩

/-- A byte is read from a port. -/
def inb (port : UInt16) : VgaIo := ⟨⟨kvmExitIoIn, 1, port, 1⟩, [0]⟩

/-- The index of a colour is written, and its components. -/
def colour (index r g b : UInt8) : List VgaIo :=
  outb VgaPort.dacWriteIndex index :: [r, g, b].map (outb VgaPort.dacData)

/-- A ring with nothing in it. -/
def emptyRing : CoalescedRing := ⟨0, 0, fun _ => ⟨0, 0, []⟩⟩

/-- A new adapter with its ring. -/
def beforeWrite : Coalescing where
  vga := Vga.new [] none none (some emptyRing)
  render := none
  accesses := []
  exits := []
  frames := []

/-- Colours 0 to 41 are loaded, and the index of the next one is written:
the ring has one more place. -/
def loads : List VgaIo :=
  ((List.range 42).flatMap fun k => colour (UInt8.ofNat k) (UInt8.ofNat k) 0 0) ++
    [outb VgaPort.dacWriteIndex 42]

/-- These writes are queued, and the ring is full; the next one exits. Then more are queued,
past the end of the ring, one of them while a frontend applies the others. Last the guest
reads a component of a colour. -/
def wrapping : List Move :=
  loads.map .queue ++ .exit (outb VgaPort.dacData 7) ::
    (colour 7 1 2 3).map .queue ++
      [.lock, .bounds, .apply, .queue (outb VgaPort.dacWriteIndex 9), .apply,
      .apply, .apply, .release, .frame, .exit (outb VgaPort.dacReadIndex 7),
      .exit (inb VgaPort.dacData), .exit (inb VgaPort.dacWriteIndex)]

/-- The guest reads what it wrote, queued or not, and the frontend has the colour that
was queued before it began. -/
theorem queue_invisible_wraps : ∃ s, Reach (Init [] none none) Step s ∧
    s.exits.map VgaExit.data = [[7], [7], [1], [9]] ∧
    s.frames.map (fun f => (f.applied, f.palette 7)) = [(174, 0x04080c)] ∧
    s.vga.dacWrites.map CoalescedRing.last = some 4 ∧
    (∀ e ∈ s.exits, e.Direct (Vga.new [] none none none) s.accesses) ∧
    (∀ f ∈ s.frames, f.Direct (Vga.new [] none none none) s.accesses) ∧
    ((Vga.new [] none none none).direct s.accesses).toVgaRegisters =
      s.vga.drained.toVgaRegisters := by
  have run : ((wrapping.foldlM move beforeWrite).any fun s => decide (s.render = none ∧
      s.exits.map VgaExit.data = [[7], [7], [1], [9]] ∧
      s.frames.map (fun f => (f.applied, f.palette 7)) = [(174, 0x04080c)] ∧
      s.vga.dacWrites.map CoalescedRing.last = some 4)) = true := by
    decide +kernel
  obtain ⟨s, run, ends⟩ := (Option.any_eq_true ..).mp run
  obtain ⟨free, data, palette, ring⟩ := of_decide_eq_true ends
  have empty : ∀ ring, some emptyRing = some ring → ring.first = 0 ∧ ring.last = 0 := by
    intro ring h
    cases h
    exact ⟨rfl, rfl⟩
  have start : Reach (Init [] none none) Step beforeWrite :=
    .init ⟨_, rfl, empty, rfl, rfl, rfl, rfl⟩
  have reach : Reach (Init [] none none) Step s := by
    refine start.moves (fun s m s' made => ?_) run
    exact move_step made
  obtain ⟨exits, frames, registers⟩ := queue_invisible reach
  exact ⟨s, reach, data, palette, ring, exits, frames, registers free⟩

end Coalescing

end Hearth
