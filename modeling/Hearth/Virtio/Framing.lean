import Hearth.Virtio.Panic
import Hearth.Virtio.UsedLength

/-!
# How a request is cut into descriptors

The bytes that a driver reads and the room for the bytes that it gets are each one area, whatever
the descriptors they are cut into. virtio-blk takes the readable bytes as one area, and the data of
a read goes to the writable area in order, but its status goes to the first byte of the last buffer:
it is the last byte of the area only if that buffer has one byte. `layout_independent_iff` is that,
for two requests that differ in nothing but their cuts.
-/

namespace Hearth
open Lib

/-! ## The area that buffers make up -/

/-- Where the byte with this number of the area is. -/
def addressAt : List Span → Nat → Nat
  | [], k => k
  | buf :: bufs, k => if k < buf.len then buf.base + k else addressAt bufs (k - buf.len)

/-- The number of bytes of the area. -/
def areaLen (bufs : List Span) : Nat := (bufs.map Span.len).sum

/-- These bytes of the area, by their numbers, where they are. -/
def located (bufs : List Span) (writes : List (Nat × UInt8)) : List (Nat × UInt8) :=
  writes.map fun w => (addressAt bufs w.1, w.2)

/-- The bytes from the start of the area on. -/
def numbered (bytes : List UInt8) : List (Nat × UInt8) := bytes.mapIdx fun k byte => (k, byte)

/-- The lengths of two lists of buffers add up. -/
lemma areaLen_append (bufs bufs' : List Span) :
    areaLen (bufs ++ bufs') = areaLen bufs + areaLen bufs' := by
  rw [areaLen, List.map_append, List.sum_append]
  rfl

/-- A byte in the first buffer. -/
lemma addressAt_inside (buf : Span) (bufs : List Span) {k : Nat} (h : k < buf.len) :
    addressAt (buf :: bufs) k = buf.base + k := if_pos h

/-- A byte behind the first buffer is one of the others. -/
lemma addressAt_behind (buf : Span) (bufs : List Span) (k : Nat) :
    addressAt (buf :: bufs) (buf.len + k) = addressAt bufs k := by
  rw [addressAt, if_neg (Nat.not_lt.mpr (Nat.le_add_right _ _)), Nat.add_sub_cancel_left]

/-- A byte in the first buffers. -/
lemma addressAt_append_left {bufs : List Span} (rest : List Span) {k : Nat} (h : k < areaLen bufs) :
    addressAt (bufs ++ rest) k = addressAt bufs k := by
  induction bufs generalizing k with
  | nil => cases h
  | cons buf bufs ih =>
    have len : areaLen (buf :: bufs) = buf.len + areaLen bufs := List.sum_cons
    rw [List.cons_append, addressAt, addressAt]
    split
    · rfl
    · apply ih
      omega

/-- A byte behind some buffers is one of the rest. -/
lemma addressAt_append_right (bufs rest : List Span) (k : Nat) :
    addressAt (bufs ++ rest) (areaLen bufs + k) = addressAt rest k := by
  induction bufs with
  | nil => exact congrArg (addressAt rest) (Nat.zero_add k)
  | cons buf bufs ih =>
    have len : areaLen (buf :: bufs) = buf.len + areaLen bufs := List.sum_cons
    rw [len, Nat.add_assoc, List.cons_append, addressAt_behind, ih]

/-- A byte's number is less than their count. -/
lemma numbered_lt {bytes : List UInt8} {w : Nat × UInt8} (h : w ∈ numbered bytes) :
    w.1 < bytes.length := by
  obtain ⟨k, hk, rfl⟩ := List.mem_mapIdx.mp h
  exact hk

/-- Bytes that are numbered one after the other. -/
lemma located_mapIdx (bufs : List Span) (number : Nat → Nat) (bytes : List UInt8) :
    located bufs (bytes.mapIdx fun k byte => (number k, byte)) =
      bytes.mapIdx fun k byte => (addressAt bufs (number k), byte) := by
  rw [located, List.mapIdx_eq_zipIdx_map, List.mapIdx_eq_zipIdx_map, List.map_map]
  rfl

/-- The last byte comes last. -/
lemma located_concat (bufs : List Span) (writes : List (Nat × UInt8)) (w : Nat × UInt8) :
    located bufs (writes ++ [w]) = located bufs writes ++ [(addressAt bufs w.1, w.2)] :=
  List.map_append

/-- What fits into the first buffer is there. -/
lemma located_first (buf : Span) (bufs : List Span) {bytes : List UInt8}
    (fits : bytes.length ≤ buf.len) :
    located (buf :: bufs) (numbered bytes) = bytes.mapIdx fun k byte => (buf.base + k, byte) := by
  rw [numbered, located_mapIdx]
  apply List.mapIdx_eq_mapIdx_iff.mpr
  intro k hk
  rw [addressAt_inside buf bufs (Nat.lt_of_lt_of_le hk fits)]

/-- What fills the first buffer is there, and what follows is in the others. -/
lemma located_append (buf : Span) (bufs : List Span) {bytes : List UInt8}
    (full : bytes.length = buf.len) (rest : List UInt8) :
    located (buf :: bufs) (numbered (bytes ++ rest)) =
      bytes.mapIdx (fun k byte => (buf.base + k, byte)) ++ located bufs (numbered rest) := by
  have behind : located (buf :: bufs) (rest.mapIdx fun k byte => (k + bytes.length, byte)) =
      located bufs (numbered rest) := by
    rw [numbered, located_mapIdx, located_mapIdx]
    apply List.mapIdx_eq_mapIdx_iff.mpr
    intro k hk
    rw [full, Nat.add_comm, addressAt_behind]
  rw [← located_first buf bufs full.le, ← behind, numbered, List.mapIdx_append, located,
    List.map_append]
  rfl

/-! ## What is stored -/

/-- The bytes of guest memory that an event stores, with their addresses. -/
def Event.storedBytes : Event → List (Nat × UInt8)
  | .write addr bytes => bytes.mapIdx fun k byte => (addr + k, byte)
  | _ => []

/-- The bytes stored by the events from `h` to `h'`, in order. -/
def Host.storedBytes (h h' : Host) : List (Nat × UInt8) :=
  (h'.events.drop h.events.length).flatMap Event.storedBytes

/-- From `h` to `h'` the events were noted that store these bytes. -/
def Puts (stored : List (Nat × UInt8)) (h h' : Host) : Prop :=
  ∃ new, h'.events = h.events ++ new ∧ new.flatMap Event.storedBytes = stored

variable {h h' h'' : Host} {stored stored' : List (Nat × UInt8)}

/-- What notes nothing puts nothing. -/
lemma Puts.none (he : h'.events = h.events) : Puts [] h h' := ⟨[], by rw [he, List.append_nil], rfl⟩

/-- Bytes put one after the other. -/
lemma Puts.trans (p : Puts stored h h') (p' : Puts stored' h' h'') :
    Puts (stored ++ stored') h h'' := by
  obtain ⟨new, hnew, rfl⟩ := p
  obtain ⟨new', hnew', rfl⟩ := p'
  exact ⟨new ++ new', by rw [hnew', hnew, List.append_assoc], List.flatMap_append⟩

/-- The bytes put are those noted. -/
lemma Puts.storedBytes (p : Puts stored h h') : h.storedBytes h' = stored := by
  obtain ⟨new, hnew, rfl⟩ := p
  rw [Host.storedBytes, hnew, List.drop_left]

/-! ## What the host delivers -/

/-- The bytes that the host's reads into buffers of these lengths deliver, and whether all succeed;
the first that fails is the last. -/
def File.delivered (disk : File) : (offset : Nat) → List Nat → List UInt8 × Bool
  | _, [] => ([], true)
  | offset, len :: lens =>
    let r := disk.readExactAt len offset
    if r.2.1 then
      let rest := delivered r.2.2 (offset + len) lens
      (r.1 ++ rest.1, rest.2)
    else (r.1, false)

/-- The disk gives no more than it is asked for. -/
lemma readExactAt_le (disk : File) (len offset : Nat) :
    (disk.readExactAt len offset).1.length ≤ len := by
  unfold File.readExactAt
  split
  · exact Nat.zero_le len
  · dsimp only
    cases disk.readFails.headD none with
    | some moved =>
      apply (List.length_take_le _ _).trans
      omega
    | none => apply List.length_take_le

/-- For several buffers the disk gives no more than they have room for. -/
lemma delivered_le (disk : File) (offset : Nat) (lens : List Nat) :
    (disk.delivered offset lens).1.length ≤ lens.sum := by
  induction lens generalizing disk offset with
  | nil => exact Nat.zero_le 0
  | cons len lens ih =>
    have first := readExactAt_le disk len offset
    rw [File.delivered, List.sum_cons]
    dsimp only
    split
    · rw [List.length_append]
      exact Nat.add_le_add first (ih (disk.readExactAt len offset).2.2 (offset + len))
    · exact first.trans (Nat.le_add_right _ _)

/-- Reading leaves the disk's bytes. -/
lemma readExactAt_bytes (disk : File) (len offset : Nat) :
    (disk.readExactAt len offset).2.2.bytes = disk.bytes := by
  unfold File.readExactAt
  split
  · rfl
  · dsimp only
    cases disk.readFails.headD none with
    | some moved => rfl
    | none => rfl

/-- What a request is answered with: the data for the guest, the status, and
the bytes of the disk then. -/
structure BlkAnswer where
  data : List UInt8
  status : UInt8
  disk : List UInt8

namespace VirtioBlk

variable {s s' : Host × VirtioBlk}

/-- What the host delivers is put into the area from its start on. -/
lemma readBufs_puts (offset : Nat) (bufs : List Span) (s : Host × VirtioBlk) :
    ∃ t, readBufs offset bufs s =
        (.ok (if (s.2.disk.delivered offset (bufs.map Span.len)).2 then .ok ()
          else .error .os), t) ∧
      Puts (located bufs (numbered (s.2.disk.delivered offset (bufs.map Span.len)).1)) s.1 t.1 ∧
      t.2.disk.bytes = s.2.disk.bytes := by
  induction bufs generalizing offset s with
  | nil => exact ⟨s, rfl, .none rfl, rfl⟩
  | cons buf bufs ih =>
    have bytes := readExactAt_bytes s.2.disk buf.len offset
    have first : Puts ((s.2.disk.readExactAt buf.len offset).1.mapIdx fun k byte =>
      (buf.base + k, byte)) s.1
        { s.1.note (.write buf.base (s.2.disk.readExactAt buf.len offset).1) with
          mem := s.1.mem.write buf.base (s.2.disk.readExactAt buf.len offset).1 } :=
      ⟨[_], rfl, List.flatMap_singleton ..⟩
    rw [readBufs_cons, List.map_cons, File.delivered]
    dsimp only
    split
    · next full =>
      rw [located_append buf bufs (readExactAt_full full)]
      obtain ⟨t, run, puts, kept⟩ := ih (offset + buf.len) _
      exact ⟨t, run, first.trans puts, kept.trans bytes⟩
    · next part =>
      rw [located_first buf bufs (readExactAt_le s.2.disk buf.len offset)]
      exact ⟨_, rfl, first, bytes⟩

/-! ## Answers -/

/-- The status for the result of a host call. -/
def statusIf (ok : Bool) : UInt8 := if ok then virtioBlkSOk else virtioBlkSIoerr

/-- The answer to a read into buffers of these lengths. -/
def answerIn (self : VirtioBlk) (lens : List Nat) : Except IoError Nat → BlkAnswer
  | .error _ => ⟨[], virtioBlkSIoerr, self.disk.bytes⟩
  | .ok offset =>
    ⟨(self.disk.delivered offset lens).1, statusIf (self.disk.delivered offset lens).2,
      self.disk.bytes⟩

/-- The answer to a write. -/
def answerOut (self : VirtioBlk) (outData : List UInt8) : Except IoError Nat → BlkAnswer
  | .error _ => ⟨[], virtioBlkSIoerr, self.disk.bytes⟩
  | .ok offset =>
    ⟨[], statusIf (self.disk.writeAllAt outData offset).1,
      (self.disk.writeAllAt outData offset).2.bytes⟩

/-- The answer to a request whose data buffers have these lengths. -/
def answer (self : VirtioBlk) (outhdr : VirtioBlkOuthdr) (lens : List Nat)
    (outData : List UInt8) : BlkAnswer :=
  if outhdr.type = virtioBlkTIn then self.answerIn lens (self.diskOffset outhdr.sector lens.sum)
  else if outhdr.type = virtioBlkTOut then
    self.answerOut outData (self.diskOffset outhdr.sector outData.length)
  else if outhdr.type = virtioBlkTFlush then ⟨[], statusIf self.disk.syncData.1, self.disk.bytes⟩
  else ⟨[], virtioBlkSUnsupp, self.disk.bytes⟩

/-- The status that follows from what a request returns. -/
def statusOf : Option (Except IoError Unit × UInt32) → UInt8
  | none => virtioBlkSUnsupp
  | some (.ok _, _) => virtioBlkSOk
  | some (.error _, _) => virtioBlkSIoerr

/-- The computation returns what leads to the status, puts the data into the area and
leaves the disk as in the answer. -/
def Gives (data : List Span) (x : BlkM (Option (Except IoError Unit × UInt32)))
    (s : Host × VirtioBlk) (a : BlkAnswer) : Prop :=
  ∃ res t, x s = (.ok res, t) ∧ statusOf res = a.status ∧
    Puts (located data (numbered a.data)) s.1 t.1 ∧
    t.2.disk.bytes = a.disk

variable {outhdr : VirtioBlkOuthdr}

/-- What a read gives. -/
lemma in_gives (hin : outhdr.type = virtioBlkTIn) {data : List Span}
    (bounded : areaLen data < 2 ^ 64) (outData : List UInt8) (s : Host × VirtioBlk) :
    Gives data (request outhdr data outData) s
      (s.2.answerIn (data.map Span.len)
        (s.2.diskOffset outhdr.sector (data.map Span.len).sum)) := by
  have total : host (sumUsize 0 (data.map Span.len)) s = (.ok (data.map Span.len).sum, s) := by
    rw [host, Eff.zoom_run, sumUsize_run (by rw [Nat.zero_add]; exact bounded), Nat.zero_add]
  unfold Gives request read
  rw [if_pos hin, Eff.bind_assoc, Eff.bind_of_ok total]
  cases at_ : s.2.diskOffset outhdr.sector (data.map Span.len).sum with
  | error e =>
    refine ⟨some (.error e, 0), s, ?_, rfl, .none rfl, rfl⟩
    rw [Eff.bind_assoc, Eff.gets_bind_run, at_]
    rfl
  | ok offset =>
    obtain ⟨t, run, puts, kept⟩ := readBufs_puts offset data s
    cases full : (s.2.disk.delivered offset (data.map Span.len)).2 with
    | true =>
      rw [full] at run
      refine ⟨some (.ok (), UInt32.ofNat (data.map Span.len).sum), t, ?_, ?_, puts, kept⟩
      · rw [Eff.bind_assoc, Eff.gets_bind_run, at_]
        show (readBufs offset data >>= _ >>= _) s = _
        rw [Eff.bind_assoc, Eff.bind_of_ok run]
        rfl
      · rw [answerIn, full]
        rfl
    | false =>
      rw [full] at run
      refine ⟨some (.error .os, 0), t, ?_, ?_, puts, kept⟩
      · rw [Eff.bind_assoc, Eff.gets_bind_run, at_]
        show (readBufs offset data >>= _ >>= _) s = _
        rw [Eff.bind_assoc, Eff.bind_of_ok run]
        rfl
      · rw [answerIn, full]
        rfl

/-- What a write gives. -/
lemma out_gives (hin : outhdr.type ≠ virtioBlkTIn) (hout : outhdr.type = virtioBlkTOut)
    (data : List Span) (outData : List UInt8) (s : Host × VirtioBlk) :
    Gives data (request outhdr data outData) s
      (s.2.answerOut outData (s.2.diskOffset outhdr.sector outData.length)) := by
  unfold Gives request write
  rw [if_neg hin, if_pos hout, Eff.bind_assoc, Eff.gets_bind_run]
  cases s.2.diskOffset outhdr.sector outData.length with
  | error e => exact ⟨some (.error e, 0), s, rfl, rfl, .none rfl, rfl⟩
  | ok offset =>
    refine ⟨_, _, rfl, ?_, .none rfl, rfl⟩
    rw [answerOut]
    cases (s.2.disk.writeAllAt outData offset).1 with
    | true => rfl
    | false => rfl

/-- What a flush gives. -/
lemma flush_gives (hin : outhdr.type ≠ virtioBlkTIn) (hout : outhdr.type ≠ virtioBlkTOut)
    (hflush : outhdr.type = virtioBlkTFlush) (data : List Span) (outData : List UInt8)
    (s : Host × VirtioBlk) :
    Gives data (request outhdr data outData) s ⟨[], statusIf s.2.disk.syncData.1,
      s.2.disk.bytes⟩ := by
  unfold Gives request
  rw [if_neg hin, if_neg hout, if_pos hflush]
  refine ⟨_, _, rfl, ?_, .none rfl, rfl⟩
  cases s.2.disk.syncData.1 with
  | true => rfl
  | false => rfl

/-- Every request gives its answer. -/
lemma request_gives (outhdr : VirtioBlkOuthdr) {data : List Span} (bounded : areaLen data < 2 ^ 64)
    (outData : List UInt8) (s : Host × VirtioBlk) :
    Gives data (request outhdr data outData) s (s.2.answer outhdr (data.map Span.len) outData) := by
  unfold answer
  split
  · next hin => exact in_gives hin bounded outData s
  · next hin =>
    split
    · next hout => exact out_gives hin hout data outData s
    · next hout =>
      split
      · next hflush => exact flush_gives hin hout hflush data outData s
      · next hflush =>
        refine ⟨none, s, ?_, rfl, .none rfl, rfl⟩
        unfold request
        rw [if_neg hin, if_neg hout, if_neg hflush]
        rfl

end VirtioBlk

namespace DescChain

/-- The data buffers of a request. -/
def data (chain : DescChain) : List Span := chain.writeBuf.dropLast

/-- What follows the header. -/
def outData (chain : DescChain) : List UInt8 := chain.readBuf.drop (Layout.size VirtioBlkOuthdr)

variable {chain : DescChain} {status : Span}

/-- The data buffers and the status. -/
lemma writeBuf_split (last : chain.writeBuf.getLast? = some status) :
    chain.writeBuf = chain.data ++ [status] :=
  (List.dropLast_append_getLast? status last).symm

/-- The data and the buffer of the status have the lengths of all buffers together. -/
lemma areaLen_split (last : chain.writeBuf.getLast? = some status) :
    areaLen chain.writeBuf = areaLen chain.data + status.len := by
  rw [writeBuf_split last, areaLen_append]
  rfl

end DescChain

namespace VirtioBlk

variable {s s' : Host × VirtioBlk} {chain : DescChain} {outhdr : VirtioBlkOuthdr} {status : Span}

/-- A request is answered: the data goes into the data buffers, and the status to
the first byte of the last. -/
theorem process_gives (header : newFrom VirtioBlkOuthdr chain.readBuf = some outhdr)
    (last : chain.writeBuf.getLast? = some status) (room : status.len ≠ 0)
    (bounded : areaLen chain.writeBuf < 2 ^ 64) (s : Host × VirtioBlk) :
    Puts (located chain.data
      (numbered (s.2.answer outhdr (chain.data.map Span.len) chain.outData).data) ++
        [(status.base, (s.2.answer outhdr (chain.data.map Span.len) chain.outData).status)])
      s.1 (process chain s).2.1 ∧
    (process chain s).2.2.disk.bytes =
      (s.2.answer outhdr (chain.data.map Span.len) chain.outData).disk := by
  rw [DescChain.areaLen_split last] at bounded
  obtain ⟨res, t, run, st, puts, disk⟩ :=
    request_gives outhdr (Nat.lt_of_le_of_lt (Nat.le_add_right _ _) bounded) chain.outData s
  have stored : ∀ value, Puts [(status.base, value)] t.1
      { t.1.note (.write status.base [value]) with mem := t.1.mem.write status.base [value] } :=
    fun value => ⟨[_], rfl, rfl⟩
  unfold process
  rw [header, last]
  simp only [Eff.okOr_some, Eff.pure_bind_run]
  have run' : request outhdr chain.writeBuf.dropLast
    (chain.readBuf.drop (Layout.size VirtioBlkOuthdr)) s =
    (.ok res, t) := run
  rw [Eff.bind_of_ok run', ← st, ← disk]
  cases res with
  | none =>
    dsimp only
    rw [Eff.bind_of_ok (setStatus_run room virtioBlkSUnsupp t)]
    exact ⟨puts.trans (stored _), rfl⟩
  | some r =>
    obtain ⟨res, written⟩ := r
    -- counting the status byte stores nothing, even if it overflows
    have counted : ∀ t' : Host × VirtioBlk, (host (addU32 written 1) t').2 = t' := by
      intro t'
      rw [host, Eff.zoom_run, addU32]
      split
      · rfl
      · rfl
    cases res with
    | ok _ =>
      dsimp only
      rw [Eff.bind_of_ok (setStatus_run room virtioBlkSOk t), counted]
      exact ⟨puts.trans (stored _), rfl⟩
    | error _ =>
      dsimp only
      rw [Eff.bind_of_ok (setStatus_run room virtioBlkSIoerr t), counted]
      exact ⟨puts.trans (stored _), rfl⟩

/-- A request without a header is refused, and nothing is done. -/
lemma process_headerless (header : newFrom VirtioBlkOuthdr chain.readBuf = none)
    (s : Host × VirtioBlk) :
    process chain s = (.err .blkNoHeader, s) := by
  unfold process
  rw [header]
  rfl

/-! ## Two cuts of one request -/

/-- Disks that cannot be told apart: what the host delivers of a range does
not depend on how it is cut. -/
structure EqualDisks (c c' : DescChain) (blk blk' : VirtioBlk) : Prop where
  capacity : blk.capacity = blk'.capacity
  bytes : blk.disk.bytes = blk'.disk.bytes
  writes : blk.disk.writeFails = blk'.disk.writeFails
  syncs : blk.disk.syncFails = blk'.disk.syncFails
  reads : areaLen c.data = areaLen c'.data → ∀ offset,
    blk.disk.delivered offset (c.data.map Span.len) =
      blk'.disk.delivered offset (c'.data.map Span.len)

/-- Both requests return, leave equal disks and store the same bytes at the same places of their
writable areas; the status of a request with a header is the last byte of the area. -/
structure Alike (c c' : DescChain) (s s' : Host × VirtioBlk) : Prop where
  returns : (process c s).1 ≠ .panic ∧ (process c' s').1 ≠ .panic
  disk : (process c s).2.2.disk.bytes = (process c' s').2.2.disk.bytes
  stores : ∃ writes : List (Nat × UInt8), (∀ w ∈ writes, w.1 < areaLen c.writeBuf) ∧
    s.1.storedBytes (process c s).2.1 = located c.writeBuf writes ∧
    s'.1.storedBytes (process c' s').2.1 = located c'.writeBuf writes ∧
    ((newFrom VirtioBlkOuthdr c.readBuf).isSome →
      ∃ before status, writes = before ++ [(areaLen c.writeBuf - 1, status)] ∧
      status ∈ [virtioBlkSOk, virtioBlkSIoerr, virtioBlkSUnsupp])

/-- The last buffer has one byte. -/
def StatusApart (c : DescChain) : Prop :=
  ∃ status, c.writeBuf.getLast? = some status ∧ status.len = 1

/-- The used length of the request overflows where this is checked. -/
def Overflows (c : DescChain) (s : Host × VirtioBlk) : Prop :=
  s.1.overflowChecks = true ∧ ∃ outhdr, newFrom VirtioBlkOuthdr c.readBuf = some outhdr ∧
    FillsLength outhdr c.data s.2

variable {c c' : DescChain}

/-- Cuts of one request get one answer from disks that cannot be told
apart, if their data is as long. -/
lemma EqualDisks.answer (disks : EqualDisks c c' s.2 s'.2) (readable : c.readBuf = c'.readBuf)
    (len : areaLen c.data = areaLen c'.data) (outhdr : VirtioBlkOuthdr) :
    s.2.answer outhdr (c.data.map Span.len) c.outData =
      s'.2.answer outhdr (c'.data.map Span.len) c'.outData := by
  have offset : ∀ sector n, s.2.diskOffset sector n = s'.2.diskOffset sector n := by
    intro sector n
    rw [diskOffset, diskOffset, size, size, disks.capacity]
  have out : c.outData = c'.outData := congrArg (List.drop _) readable
  have len' : (c.data.map Span.len).sum = (c'.data.map Span.len).sum := len
  have syncs : s.2.disk.syncData.1 = s'.2.disk.syncData.1 := by
    rw [File.syncData, File.syncData, disks.syncs]
  have written :
    ∀ offset, (s.2.disk.writeAllAt c'.outData offset).1 =
      (s'.2.disk.writeAllAt c'.outData offset).1 ∧
      (s.2.disk.writeAllAt c'.outData offset).2.bytes =
        (s'.2.disk.writeAllAt c'.outData offset).2.bytes := by
    intro offset
    unfold File.writeAllAt
    rw [disks.writes, disks.bytes]
    split
    · exact ⟨rfl, disks.bytes⟩
    · dsimp only
      cases s'.2.disk.writeFails.headD none with
      | some moved => exact ⟨rfl, rfl⟩
      | none => exact ⟨rfl, rfl⟩
  unfold VirtioBlk.answer
  rw [offset, offset, len', out, syncs, disks.bytes]
  split
  · cases s'.2.diskOffset outhdr.sector (c'.data.map Span.len).sum with
    | error e => rw [answerIn, answerIn, disks.bytes]
    | ok start => rw [answerIn, answerIn, disks.reads len, disks.bytes]
  · split
    · cases s'.2.diskOffset outhdr.sector c'.outData.length with
      | error e => rw [answerOut, answerOut, disks.bytes]
      | ok start => rw [answerOut, answerOut, (written start).1, (written start).2]
    · rfl

/-- The status is one of three. -/
lemma answer_status (self : VirtioBlk) (outhdr : VirtioBlkOuthdr) (lens : List Nat)
    (outData : List UInt8) :
    (self.answer outhdr lens outData).status ∈ [virtioBlkSOk, virtioBlkSIoerr,
      virtioBlkSUnsupp] := by
  have result : ∀ ok, statusIf ok ∈ [virtioBlkSOk, virtioBlkSIoerr, virtioBlkSUnsupp] := by
    intro ok
    cases ok with
    | true => exact List.mem_cons_self
    | false => exact List.mem_cons_of_mem _ List.mem_cons_self
  unfold answer
  split
  · cases self.diskOffset outhdr.sector lens.sum with
    | error e => exact result false
    | ok offset => exact result _
  · split
    · cases self.diskOffset outhdr.sector outData.length with
      | error e => exact result false
      | ok offset => exact result _
    · split
      · exact result _
      · exact List.mem_cons_of_mem _ (List.mem_cons_of_mem _ List.mem_cons_self)

/-- The data of an answer fits into the data buffers. -/
lemma answer_data_le (self : VirtioBlk) (outhdr : VirtioBlkOuthdr) (lens : List Nat)
    (outData : List UInt8) :
    (self.answer outhdr lens outData).data.length ≤ lens.sum := by
  unfold answer
  split
  · cases self.diskOffset outhdr.sector lens.sum with
    | error e => exact Nat.zero_le _
    | ok offset => exact delivered_le self.disk offset lens
  · split
    · cases self.diskOffset outhdr.sector outData.length with
      | error e => exact Nat.zero_le _
      | ok offset => exact Nat.zero_le _
    · split
      · exact Nat.zero_le _
      · exact Nat.zero_le _

/-- The data buffers are the start of the writable area. -/
lemma located_data (last : c.writeBuf.getLast? = some status) {bytes : List UInt8}
    (fits : bytes.length ≤ areaLen c.data) :
    located c.writeBuf (numbered bytes) = located c.data (numbered bytes) := by
  rw [DescChain.writeBuf_split last, numbered, located_mapIdx, located_mapIdx]
  apply List.mapIdx_eq_mapIdx_iff.mpr
  intro k hk
  rw [addressAt_append_left [status] (Nat.lt_of_lt_of_le hk fits)]

/-- The last byte of the area is the last byte of the last buffer. -/
lemma addressAt_last (last : c.writeBuf.getLast? = some status) (room : status.len ≠ 0) :
    addressAt c.writeBuf (areaLen c.writeBuf - 1) = status.base + (status.len - 1) := by
  have inside : status.len - 1 < status.len := Nat.sub_one_lt room
  rw [DescChain.areaLen_split last, Nat.add_sub_assoc (Nat.one_le_iff_ne_zero.mpr room),
    DescChain.writeBuf_split last, addressAt_append_right, addressAt_inside status [] inside]

/-- An area that is not empty has a last buffer. -/
lemma exists_last (room : 0 < areaLen c.writeBuf) :
    ∃ status, c.writeBuf.getLast? = some status := by
  cases last : c.writeBuf.getLast? with
  | some status => exact ⟨status, rfl⟩
  | none =>
    rw [List.getLast?_eq_none_iff.mp last] at room
    cases room

/-- A request that stores its status in the last byte of its area has
a buffer of one byte for it. -/
lemma statusApart_of_stores (header : newFrom VirtioBlkOuthdr c.readBuf = some outhdr)
    (room : 0 < areaLen c.writeBuf)
    (bounded : areaLen c.writeBuf < 2 ^ 64) (returns : (process c s).1 ≠ .panic)
    {before : List (Nat × UInt8)} {value : UInt8} (stores : s.1.storedBytes (process c s).2.1 =
      located c.writeBuf (before ++ [(areaLen c.writeBuf - 1, value)])) : StatusApart c := by
  obtain ⟨status, last⟩ := exists_last room
  have some_room : status.len ≠ 0 := fun empty =>
    returns ((process_panic_iff c s bounded).mpr ⟨outhdr, status, header, last, .inl empty⟩)
  obtain ⟨puts, _⟩ := process_gives header last some_room bounded s
  have same := congrArg List.getLast? (puts.storedBytes.symm.trans stores)
  rw [located_concat, List.getLast?_concat, List.getLast?_concat] at same
  have ends : status.base = addressAt c.writeBuf (areaLen c.writeBuf - 1) :=
    congrArg Prod.fst (Option.some.inj same)
  rw [addressAt_last last some_room] at ends
  exact ⟨status, last, by omega⟩

/-- What a request stores if its last buffer has one byte. -/
lemma stores_of_statusApart (header : newFrom VirtioBlkOuthdr c.readBuf = some outhdr)
    (apart : StatusApart c) (bounded : areaLen c.writeBuf < 2 ^ 64) (s : Host × VirtioBlk) :
    s.1.storedBytes (process c s).2.1 = located c.writeBuf
      (numbered (s.2.answer outhdr (c.data.map Span.len) c.outData).data ++
        [(areaLen c.writeBuf - 1, (s.2.answer outhdr (c.data.map Span.len) c.outData).status)]) ∧
    (process c s).2.2.disk.bytes = (s.2.answer outhdr (c.data.map Span.len) c.outData).disk := by
  obtain ⟨status, last, one⟩ := apart
  have room : status.len ≠ 0 := by rw [one]; exact Nat.one_ne_zero
  obtain ⟨puts, disk⟩ := process_gives header last room bounded s
  refine ⟨?_, disk⟩
  have ends := addressAt_last last room
  rw [one] at ends
  rw [puts.storedBytes, located_concat, located_data last (answer_data_le ..), ends]
  rfl

/-- With a buffer of one byte for the status a request panics only
where its used length overflows. -/
lemma panics_iff_overflows (apart : StatusApart c) (bounded : areaLen c.writeBuf < 2 ^ 64)
    (s : Host × VirtioBlk) :
    (process c s).1 = .panic ↔ Overflows c s := by
  obtain ⟨status, last, one⟩ := apart
  rw [process_panic_iff c s bounded]
  constructor
  · rintro ⟨outhdr, status', header, last', empty | ⟨checks, fills⟩⟩
    · cases last.symm.trans last'
      rw [one] at empty
      cases empty
    · exact ⟨checks, outhdr, header, fills⟩
  · rintro ⟨checks, outhdr, header, fills⟩
    exact ⟨outhdr, status, header, last, .inr ⟨checks, fills⟩⟩

/-- Two cuts of one request do the same exactly if the request has no header, or each has a last
buffer of one byte and a used length that does not overflow. -/
theorem layout_independent_iff (readable : c.readBuf = c'.readBuf)
    (writable : areaLen c.writeBuf = areaLen c'.writeBuf)
    (room : 0 < areaLen c.writeBuf) (bounded : areaLen c.writeBuf < 2 ^ 64)
    (disks : EqualDisks c c' s.2 s'.2) :
    Alike c c' s s' ↔ newFrom VirtioBlkOuthdr c.readBuf = none ∨
      (StatusApart c ∧ ¬ Overflows c s) ∧ StatusApart c' ∧ ¬ Overflows c' s' := by
  have room' : 0 < areaLen c'.writeBuf := writable.symm ▸ room
  have bounded' : areaLen c'.writeBuf < 2 ^ 64 := writable.symm ▸ bounded
  cases header : newFrom VirtioBlkOuthdr c.readBuf with
  | none =>
    -- without a header both requests fail before they store anything
    have header' : newFrom VirtioBlkOuthdr c'.readBuf = none := readable ▸ header
    refine ⟨fun _ => .inl rfl, fun _ => ?_⟩
    have none_run := process_headerless header s
    have none_run' := process_headerless header' s'
    refine ⟨?_, ?_, [], ?_, ?_, ?_, ?_⟩
    · rw [none_run, none_run']
      exact ⟨nofun, nofun⟩
    · rw [none_run, none_run']
      exact disks.bytes
    · exact fun w hw => absurd hw List.not_mem_nil
    · rw [none_run]
      exact (Puts.none rfl).storedBytes
    · rw [none_run']
      exact (Puts.none rfl).storedBytes
    · rw [header]
      exact fun h => absurd h Bool.false_ne_true
  | some outhdr =>
    have header' : newFrom VirtioBlkOuthdr c'.readBuf = some outhdr := readable ▸ header
    constructor
    -- both stored the same bytes, the last of which is the status: it was apart in both
    · rintro ⟨⟨returns, returns'⟩, _, writes, _, stores, stores', status⟩
      obtain ⟨before, value, rfl, _⟩ := status (by rw [header]; rfl)
      have apart := statusApart_of_stores header room bounded returns stores
      rw [writable] at stores'
      have apart' := statusApart_of_stores header' room' bounded' returns' stores'
      exact .inr ⟨⟨apart, fun overflows =>
        returns ((panics_iff_overflows apart bounded s).mpr overflows)⟩,
        apart', fun overflows => returns' ((panics_iff_overflows apart' bounded' s').mpr overflows)⟩
    · rintro (none | ⟨⟨apart, fits⟩, apart', fits'⟩)
      · cases none
      · have len : areaLen c.data = areaLen c'.data := by
          obtain ⟨status, last, one⟩ := apart
          obtain ⟨status', last', one'⟩ := apart'
          have split := DescChain.areaLen_split last
          have split' := DescChain.areaLen_split last'
          omega
        -- the answer depends on the disk, the header and the number of bytes only
        have same := disks.answer readable len outhdr
        obtain ⟨stores, disk⟩ := stores_of_statusApart header apart bounded s
        obtain ⟨stores', disk'⟩ := stores_of_statusApart header' apart' bounded' s'
        rw [← same, ← writable] at stores'
        rw [← same] at disk'
        refine ⟨⟨fun panics => fits ((panics_iff_overflows apart bounded s).mp panics),
          fun panics => fits' ((panics_iff_overflows apart' bounded' s').mp panics)⟩,
            disk.trans disk'.symm, _, ?_,
          stores, stores', fun _ => ⟨_, _, rfl, answer_status ..⟩⟩
        intro w hw
        rcases List.mem_append.mp hw with data | status
        · obtain ⟨status, last, one⟩ := apart
          rw [DescChain.areaLen_split last]
          exact Nat.lt_of_lt_of_le (Nat.lt_of_lt_of_le (numbered_lt data) (answer_data_le ..))
            (Nat.le_add_right _ _)
        · cases List.mem_singleton.mp status
          exact Nat.sub_one_lt_of_lt room

/-- While no read fails, the host delivers what the file has of the range. -/
lemma delivered_intact {disk : File} (reads : disk.readFails = []) (offset : Nat)
    (lens : List Nat) :
    disk.delivered offset lens = ((disk.bytes.drop offset).take lens.sum,
      decide (lens.sum = 0 ∨ offset + lens.sum ≤ disk.bytes.length)) := by
  induction lens generalizing offset with
  | nil => rfl
  | cons len lens ih =>
    rw [File.delivered, List.sum_cons]
    rcases Nat.eq_zero_or_pos len with rfl | room
    · have empty : disk.readExactAt 0 offset = ([], true, disk) := if_pos rfl
      rw [empty, if_pos rfl, ih, Nat.zero_add]
      rfl
    · have read : disk.readExactAt len offset =
          ((disk.bytes.drop offset).take len, decide (offset + len ≤ disk.bytes.length), disk) := by
        unfold File.readExactAt
        rw [if_neg (Nat.ne_of_gt room), reads]
        dsimp only [List.headD_nil, List.tail_nil]
        rw [← reads]
      rw [read]
      dsimp only
      split
      · next inside =>
        have inside' := of_decide_eq_true inside
        rw [ih]
        apply Prod.ext
        · rw [List.take_add, List.drop_drop]
        · apply decide_eq_decide.mpr
          omega
      · next outside =>
        have outside' : ¬ offset + len ≤ disk.bytes.length := fun h => outside (decide_eq_true h)
        apply Prod.ext
        · rw [List.take_of_length_le (by rw [List.length_drop]; omega),
            List.take_of_length_le (by rw [List.length_drop]; omega)]
        · exact (decide_eq_false (by omega)).symm

/-- A disk of which no read fails cannot be told apart by the cuts. -/
lemma EqualDisks.of_reads {self : VirtioBlk} (reads : self.disk.readFails = []) (c c' : DescChain) :
    EqualDisks c c' self self where
  capacity := rfl
  bytes := rfl
  writes := rfl
  syncs := rfl
  reads := by
    intro len offset
    have sums : (c.data.map Span.len).sum = (c'.data.map Span.len).sum := len
    rw [delivered_intact reads, delivered_intact reads, sums]

end VirtioBlk

open VirtioBlk

/-- The read of `readTwo` with one buffer for its two bytes. -/
def readJoined : DescChain where
  head := 0
  readBuf := List.replicate 16 0
  writeBuf := [⟨0x100, 2⟩, ⟨0x300, 1⟩]

/-- With a byte apart for the status the cut of the data makes no difference. -/
theorem readJoined_alike : Alike readTwo readJoined (.release fun _ => 0, shortDisk [7, 7])
    (.release fun _ => 0, shortDisk [7, 7]) := by
  have room : 0 < areaLen readTwo.writeBuf := Nat.zero_lt_succ 2
  have bounded : areaLen readTwo.writeBuf < 2 ^ 64 := by decide
  have disks : EqualDisks readTwo readJoined (shortDisk [7, 7]) (shortDisk [7, 7]) :=
    .of_reads rfl readTwo readJoined
  have readable : readTwo.readBuf = readJoined.readBuf := rfl
  have writable : areaLen readTwo.writeBuf = areaLen readJoined.writeBuf := rfl
  apply (layout_independent_iff readable writable room bounded disks).mpr
  right
  exact ⟨⟨⟨⟨0x300, 1⟩, rfl, rfl⟩, fun h => Bool.false_ne_true h.1⟩, ⟨⟨0x300, 1⟩, rfl, rfl⟩,
    fun h => Bool.false_ne_true h.1⟩

/-- A read of one byte whose status has a buffer of its own. -/
def readApart : DescChain where
  head := 0
  readBuf := List.replicate 16 0
  writeBuf := [⟨0x100, 1⟩, ⟨0x200, 1⟩]

/-- The same read with one buffer for both. -/
def readWhole : DescChain where
  head := 0
  readBuf := List.replicate 16 0
  writeBuf := [⟨0x100, 2⟩]

/-- In one buffer with the data the status takes the place of the
first byte, and nothing is read. -/
theorem readWhole_differs :
    ¬ ∀ (c c' : DescChain) (s s' : Host × VirtioBlk), c.readBuf = c'.readBuf →
    areaLen c.writeBuf = areaLen c'.writeBuf → 0 < areaLen c.writeBuf →
    areaLen c.writeBuf < 2 ^ 64 →
    EqualDisks c c' s.2 s'.2 → Alike c c' s s' := by
  intro always
  obtain ⟨_, _, writes, _, whole, apart, _⟩ :=
    always readWhole readApart (.release fun _ => 0, shortDisk [7, 7])
    (.release fun _ => 0, shortDisk [7, 7]) rfl rfl (by decide) (by decide)
      (.of_reads rfl readWhole readApart)
  have one : 1 = writes.length := (congrArg List.length whole).trans (List.length_map _)
  have two : 2 = writes.length := (congrArg List.length apart).trans (List.length_map _)
  omega

end Hearth
