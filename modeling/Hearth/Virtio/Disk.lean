import Hearth.Virtio.Frame

/-!
# virtio-blk is a flat disk

To a driver the disk is an array of `capacity * 512` bytes: `Holds` says that the file behind it
holds such an array, and `BlkRequest` is a request that has a header, a status byte and buffers that
do not overlap. `process_answers` is the simulation for one request, and `flat_disk` for a request
after any history of them: the request is answered from the array (`Answered`), whose bytes are
those that the history wrote last.
-/

namespace Hearth
open Lib

/-! ## Requests -/

/-- A request with a header and a status byte, whose writable buffers do not overlap. -/
structure BlkRequest where
  chain : DescChain
  outhdr : VirtioBlkOuthdr
  status : Span
  header : newFrom VirtioBlkOuthdr chain.readBuf = some outhdr
  last : chain.writeBuf.getLast? = some status
  room : status.len ≠ 0
  apart : chain.writeBuf.Pairwise Span.Apart
  /-- the buffers are slices in the address space -/
  mapped : ∀ buf ∈ chain.writeBuf, buf.base + buf.len ≤ 2 ^ 64

namespace BlkRequest

/-- The data buffers. -/
def data (r : BlkRequest) : List Span := r.chain.writeBuf.dropLast

/-- The data of a write. -/
def outData (r : BlkRequest) : List UInt8 := r.chain.readBuf.drop (Layout.size VirtioBlkOuthdr)

/-- The first byte on the disk. -/
def offset (r : BlkRequest) : Nat := r.outhdr.sector.toNat * sectorSize

/-- How many bytes a read or write is for. -/
def len (r : BlkRequest) : Nat :=
  if r.outhdr.type = virtioBlkTOut then r.outData.length else (r.data.map Span.len).sum

/-- The range lies on a disk of `size` bytes. -/
def Fits (r : BlkRequest) (size : Nat) : Prop := r.offset + r.len ≤ size

/-- It is decided by the sizes. -/
instance (r : BlkRequest) (size : Nat) : Decidable (r.Fits size) :=
  inferInstanceAs (Decidable (r.offset + r.len ≤ size))

/-- What a request writes to a disk of `size` bytes. -/
def writes (r : BlkRequest) (size : Nat) : List (Nat × List UInt8) :=
  if r.outhdr.type = virtioBlkTOut ∧ r.Fits size then [(r.offset, r.outData)] else []

/-- The bytes in the data buffers. -/
def contents (m : Mem) (bufs : List Span) : List UInt8 :=
  bufs.flatMap fun buf => m.read buf.base buf.len

/-- The answer to a request to a disk of `size` bytes that holds `d`: guest memory goes from `m` to
    `m'`. -/
structure Answered (r : BlkRequest) (size : Nat) (d m m' : Mem) : Prop where
  status : r.outhdr.type = virtioBlkTIn ∨ r.outhdr.type = virtioBlkTOut →
    m' r.status.base = if r.Fits size then virtioBlkSOk else virtioBlkSIoerr
  unknown : r.outhdr.type ≠ virtioBlkTIn → r.outhdr.type ≠ virtioBlkTOut →
    r.outhdr.type ≠ virtioBlkTFlush → m' r.status.base = virtioBlkSUnsupp
  filled : r.outhdr.type = virtioBlkTIn → r.Fits size →
    contents m' r.data = d.read r.offset r.len
  kept : ¬ (r.outhdr.type = virtioBlkTIn ∧ r.Fits size) → ∀ buf ∈ r.data, ∀ a ∈ buf, m' a = m a
  frame : ∀ a, (∀ buf ∈ r.data, a ∉ buf) → a ≠ r.status.base → m' a = m a

/-- The data buffers, and the status. -/
lemma writeBuf_eq (r : BlkRequest) : r.chain.writeBuf = r.data ++ [r.status] :=
  (List.dropLast_append_getLast? r.status r.last).symm

/-- The data buffers share no byte. -/
lemma data_apart (r : BlkRequest) : r.data.Pairwise Span.Apart := by
  have h := r.apart
  rw [writeBuf_eq, List.pairwise_append] at h
  exact h.1

/-- The status shares no byte with the data buffers. -/
lemma status_apart (r : BlkRequest) {buf : Span} (hb : buf ∈ r.data) : buf.Apart r.status := by
  have h := r.apart
  rw [writeBuf_eq, List.pairwise_append] at h
  exact h.2.2 buf hb r.status List.mem_cons_self

/-- The lengths of the data buffers can be added up, since the status buffer is not empty. -/
lemma data_sum_lt (r : BlkRequest) : (r.data.map Span.len).sum < 2 ^ 64 := by
  have h := Span.sum_len_le r.apart r.mapped
  have h0 := r.room
  rw [writeBuf_eq, List.map_append, List.sum_append] at h
  simp only [List.map_cons, List.map_nil, List.sum_cons, List.sum_nil] at h
  omega

end BlkRequest

/-! ## The file behind the disk -/

/-- The disk holds the bytes of `d`, and the host reads and writes them. -/
structure VirtioBlk.Holds (blk : VirtioBlk) (d : Mem) : Prop where
  reads : blk.disk.readFails = []
  writes : blk.disk.writeFails = []
  long : blk.size ≤ blk.disk.bytes.length
  bytes : ∀ i < blk.size, blk.disk.bytes[i]? = some (d i)

namespace VirtioBlk

variable {d : Mem} {self : VirtioBlk} {s : Host × VirtioBlk}

/-- A range within the disk has its offset; any other is an error. -/
lemma diskOffset_eq (self : VirtioBlk) (sector : UInt64) (len : Nat) :
    self.diskOffset sector len =
      if sector.toNat * sectorSize + len ≤ self.size then .ok (sector.toNat * sectorSize)
      else .error (.blkPastEnd sector len) := by
  have hfits : self.size < 2 ^ 64 := self.fits
  unfold diskOffset
  by_cases hle : sector.toNat * sectorSize + len ≤ self.size
  · rw [if_pos hle, if_pos ⟨by omega, by omega, hle⟩]
  · rw [if_neg hle, if_neg fun h => hle h.2.2]

/-- Reading inside the disk. -/
lemma Holds.readExactAt (hold : self.Holds d) {len offset : Nat} (hle : offset + len ≤ self.size) :
    self.disk.readExactAt len offset = (d.read offset len, true, self.disk) := by
  have hlong := hold.long
  unfold File.readExactAt
  by_cases h0 : len = 0
  · rw [if_pos h0, h0]
    rfl
  · rw [if_neg h0, hold.reads]
    have hbytes : (self.disk.bytes.drop offset).take len = d.read offset len := by
      apply List.ext_getElem?
      intro i
      by_cases hi : i < len
      · rw [List.getElem?_take_of_lt hi, List.getElem?_drop, hold.bytes _ (by omega),
          List.getElem?_eq_getElem (by rwa [Mem.read_length]), Mem.read_getElem]
      · rw [List.getElem?_eq_none (by simp; omega), List.getElem?_eq_none (by simp; omega)]
    have hin : decide (offset + len ≤ self.disk.bytes.length) = true := decide_eq_true (by omega)
    dsimp only [List.headD_nil, List.tail_nil]
    rw [hbytes, hin, ← hold.reads]

/-- Writing inside the disk. -/
lemma Holds.writeAllAt (hold : self.Holds d) {data : List UInt8} {offset : Nat}
    (hle : offset + data.length ≤ self.size) :
    ∃ disk, self.disk.writeAllAt data offset = (true, disk) ∧
      Holds { self with disk := disk } (d.write offset data) := by
  have hlong := hold.long
  unfold File.writeAllAt
  by_cases h0 : data = []
  · refine ⟨self.disk, if_pos h0, ?_⟩
    rw [h0, Mem.write_nil]
    exact hold
  · rw [if_neg h0, hold.writes]
    refine ⟨_, rfl, hold.reads, rfl, ?_, ?_⟩
    · show self.size ≤ (File.store self.disk.bytes data offset).length
      rw [File.store, if_neg h0]
      simp only [List.length_append, List.length_take, List.length_drop, List.length_replicate]
      omega
    · intro i hi
      show (File.store self.disk.bytes data offset)[i]? = _
      have hi' : i < self.size := hi
      have hhead : ((self.disk.bytes ++ List.replicate (offset - self.disk.bytes.length) 0).take
          offset).length = offset := by
        simp only [List.length_take, List.length_append, List.length_replicate]
        omega
      rw [File.store, if_neg h0]
      rcases Nat.lt_or_ge i offset with hlt | hge
      · -- before the data
        rw [Mem.write_outside fun hm => by have := hm.1; dsimp only at this; omega,
          List.append_assoc, List.getElem?_append_left (by omega), List.getElem?_take_of_lt hlt,
          List.getElem?_append_left (by omega), hold.bytes i hi']
      · rcases Nat.lt_or_ge i (offset + data.length) with hlt | hge'
        · -- in the data
          obtain ⟨k, rfl⟩ := Nat.exists_eq_add_of_le hge
          rw [Mem.write_inside (by omega : k < data.length), List.append_assoc,
            List.getElem?_append_right (by omega), hhead, Nat.add_sub_cancel_left,
            List.getElem?_append_left (by omega), List.getElem?_eq_getElem]
        · -- after it
          rw [Mem.write_outside fun hm => by have := hm.2; dsimp only at this; omega,
            List.getElem?_append_right (by rw [List.length_append, hhead]; omega),
            List.length_append, hhead, List.getElem?_drop, Nat.add_sub_cancel' hge',
            hold.bytes i hi']

/-- Reading into buffers that do not overlap fills them in order. -/
lemma readBufs_fills {data : List Span} {offset : Nat} (hold : s.2.Holds d)
    (apart : data.Pairwise Span.Apart) (hle : offset + (data.map Span.len).sum ≤ s.2.size) :
    ∃ s', readBufs offset data s = (.ok (.ok ()), s') ∧ s'.2 = s.2 ∧
      BlkRequest.contents s'.1.mem data = d.read offset (data.map Span.len).sum := by
  induction data generalizing offset s with
  | nil => exact ⟨s, rfl, rfl, rfl⟩
  | cons buf data ih =>
    rw [List.map_cons, List.sum_cons] at hle
    obtain ⟨hbuf, hdata⟩ := List.pairwise_cons.mp apart
    rw [readBufs_cons, hold.readExactAt (by omega)]
    dsimp only
    rw [if_pos rfl]
    set s₁ : Host × VirtioBlk := ({ s.1.note (.write buf.base (d.read offset buf.len)) with
      mem := s.1.mem.write buf.base (d.read offset buf.len) }, { s.2 with disk := s.2.disk })
    have hold₁ : s₁.2.Holds d := hold
    obtain ⟨s', e, hs, hc⟩ := ih (s := s₁) hold₁ hdata
      (show offset + buf.len + _ ≤ s.2.size by omega)
    refine ⟨s', e, hs, ?_⟩
    -- the later buffers leave this one alone
    have touches := readBufs_touches (offset + buf.len) data (fun _ hb => hb) s₁
    rw [e] at touches
    have first : s'.1.mem.read buf.base buf.len = d.read offset buf.len := by
      have self := Mem.read_write_self s.1.mem buf.base (d.read offset buf.len)
      rw [Mem.read_length] at self
      rw [← self]
      refine Mem.read_congr fun a ha => touches.mem a ?_
      rintro ⟨buf', hb', ha'⟩
      exact hbuf buf' hb' a ha ha'
    rw [List.map_cons, List.sum_cons, Mem.read_append, ← hc, ← first]
    rfl

/-! ## One request -/

/-- A read returns the number of bytes with the buffers filled, or an error with nothing done. -/
lemma read_cases (sector : UInt64) {data : List Span} (hold : s.2.Holds d)
    (apart : data.Pairwise Span.Apart) (hlt : (data.map Span.len).sum < 2 ^ 64) :
    ∃ res s', read sector data s = (.ok res, s') ∧ s'.2 = s.2 ∧
      if sector.toNat * sectorSize + (data.map Span.len).sum ≤ s.2.size then
        (∃ len, res = .ok len) ∧ BlkRequest.contents s'.1.mem data =
          d.read (sector.toNat * sectorSize) (data.map Span.len).sum
      else (∃ e, res = .error e) ∧ s' = s := by
  have hsum : host (sumUsize 0 (data.map Span.len)) s = (.ok (data.map Span.len).sum, s) := by
    rw [host, Eff.zoom_run, sumUsize_run (by omega), Nat.zero_add]
  unfold read
  rw [Eff.bind_of_ok hsum, Eff.gets_bind_run, diskOffset_eq]
  by_cases hle : sector.toNat * sectorSize + (data.map Span.len).sum ≤ s.2.size
  · obtain ⟨s', e, hs, hc⟩ := readBufs_fills hold apart hle
    simp only [if_pos hle]
    rw [Eff.bind_of_ok e]
    exact ⟨_, s', rfl, hs, ⟨_, rfl⟩, hc⟩
  · simp only [if_neg hle]
    exact ⟨_, s, rfl, rfl, ⟨_, rfl⟩, rfl⟩

/-- A write replaces the bytes of its range, or returns an error with nothing done. -/
lemma write_cases (sector : UInt64) (data : List UInt8) (hold : s.2.Holds d) :
    ∃ res s', write sector data s = (.ok res, s') ∧ s'.1 = s.1 ∧ s'.2.size = s.2.size ∧
      if sector.toNat * sectorSize + data.length ≤ s.2.size then
        res = .ok () ∧ s'.2.Holds (d.write (sector.toNat * sectorSize) data)
      else (∃ e, res = .error e) ∧ s'.2 = s.2 := by
  unfold write
  rw [Eff.gets_bind_run, diskOffset_eq]
  by_cases hle : sector.toNat * sectorSize + data.length ≤ s.2.size
  · obtain ⟨disk, e, hold'⟩ := hold.writeAllAt hle
    simp only [if_pos hle]
    refine ⟨.ok (), (s.1, { s.2 with disk := disk }), ?_, rfl, rfl, rfl, hold'⟩
    show (onDisk _ >>= _ : BlkM _) s = _
    rw [Eff.bind_of_ok (by rw [onDisk, e])]
    rfl
  · simp only [if_neg hle]
    exact ⟨_, s, rfl, rfl, rfl, ⟨_, rfl⟩, rfl⟩

/-- The status byte for what `request` returns. -/
def statusByte : Option (Except IoError Unit × UInt32) → UInt8
  | none => virtioBlkSUnsupp
  | some (.ok (), _) => virtioBlkSOk
  | some (.error _, _) => virtioBlkSIoerr

/-- What a request leads to before its status is written. -/
structure Handled (r : BlkRequest) (d : Mem) (s : Host × VirtioBlk)
    (res : Option (Except IoError Unit × UInt32)) (s' : Host × VirtioBlk) : Prop where
  size : s'.2.size = s.2.size
  holds : s'.2.Holds (d.writes (r.writes s.2.size))
  status : r.outhdr.type = virtioBlkTIn ∨ r.outhdr.type = virtioBlkTOut →
    statusByte res = if r.Fits s.2.size then virtioBlkSOk else virtioBlkSIoerr
  unknown : r.outhdr.type ≠ virtioBlkTIn → r.outhdr.type ≠ virtioBlkTOut →
    r.outhdr.type ≠ virtioBlkTFlush → statusByte res = virtioBlkSUnsupp
  filled : r.outhdr.type = virtioBlkTIn → r.Fits s.2.size →
    BlkRequest.contents s'.1.mem r.data = d.read r.offset r.len
  kept : ¬ (r.outhdr.type = virtioBlkTIn ∧ r.Fits s.2.size) → s'.1.mem = s.1.mem

/-- Flushing leaves the disk's contents. -/
lemma Holds.sync (hold : self.Holds d) :
    Holds { self with disk := (self.disk.syncData).2 } d :=
  ⟨hold.reads, hold.writes, hold.long, hold.bytes⟩

/-- Every request is handled as one to a flat disk. -/
lemma request_handled (r : BlkRequest) (hold : s.2.Holds d) :
    ∃ res s', request r.outhdr r.data r.outData s = (.ok res, s') ∧ Handled r d s res s' := by
  unfold request
  by_cases hin : r.outhdr.type = virtioBlkTIn
  · have hout : r.outhdr.type ≠ virtioBlkTOut := by rw [hin]; decide
    have hlen : r.len = (r.data.map Span.len).sum := if_neg hout
    have hw : r.writes s.2.size = [] := if_neg fun h => hout h.1
    obtain ⟨res, s', e, hs, hc⟩ := read_cases r.outhdr.sector hold r.data_apart
      r.data_sum_lt
    rw [if_pos hin, Eff.bind_of_ok e]
    by_cases hfits : r.Fits s.2.size
    · rw [if_pos (by rwa [BlkRequest.Fits, hlen] at hfits)] at hc
      obtain ⟨⟨len, rfl⟩, hc⟩ := hc
      refine ⟨_, s',
        rfl, by rw [hs], by rw [hw, hs]; exact hold, fun _ => ?_, fun h => absurd hin h,
        fun _ _ => by rw [hlen]; exact hc, fun h => absurd ⟨hin, hfits⟩ h⟩
      rw [if_pos hfits]
      rfl
    · rw [if_neg (by rwa [BlkRequest.Fits, hlen] at hfits)] at hc
      obtain ⟨⟨err, rfl⟩, rfl⟩ := hc
      refine ⟨_, s', rfl, rfl, by rw [hw]; exact hold, fun _ => ?_, fun h => absurd hin h,
        fun _ h => absurd h hfits, fun _ => rfl⟩
      rw [if_neg hfits]
      rfl
  -- from here on the request does not read
  rw [if_neg hin]
  by_cases hout : r.outhdr.type = virtioBlkTOut
  · have hlen : r.len = r.outData.length := if_pos hout
    obtain ⟨res, s', e, hs, hsize, hc⟩ := write_cases r.outhdr.sector r.outData hold
    rw [if_pos hout, Eff.bind_of_ok e]
    by_cases hfits : r.Fits s.2.size
    · have hw : r.writes s.2.size = [(r.offset, r.outData)] := if_pos ⟨hout, hfits⟩
      rw [if_pos (by rwa [BlkRequest.Fits, hlen] at hfits)] at hc
      obtain ⟨rfl, hold'⟩ := hc
      refine ⟨_, s', rfl, hsize, by rw [hw]; exact hold', fun _ => ?_, fun _ h => absurd hout h,
        fun h => absurd h hin, fun _ => by rw [hs]⟩
      rw [if_pos hfits]
      rfl
    · have hw : r.writes s.2.size = [] := if_neg fun h => hfits h.2
      rw [if_neg (by rwa [BlkRequest.Fits, hlen] at hfits)] at hc
      obtain ⟨⟨err, rfl⟩, hs'⟩ := hc
      refine ⟨_, s', rfl, hsize, by rw [hw, hs']; exact hold, fun _ => ?_, fun _ h => absurd hout h,
        fun h => absurd h hin, fun _ => by rw [hs]⟩
      rw [if_neg hfits]
      rfl
  rw [if_neg hout]
  have hw : r.writes s.2.size = [] := if_neg fun h => hout h.1
  by_cases hflush : r.outhdr.type = virtioBlkTFlush
  · rw [if_pos hflush]
    exact ⟨_, _, rfl, rfl, by rw [hw]; exact hold.sync, fun h => (h.elim hin hout).elim,
      fun _ _ h => absurd hflush h, fun h => absurd h hin, fun _ => rfl⟩
  · rw [if_neg hflush]
    exact ⟨none, s, rfl, rfl, by rw [hw]; exact hold, fun h => (h.elim hin hout).elim,
      fun _ _ _ => rfl, fun h => absurd h hin, fun _ => rfl⟩

/-- The state a request leads to: that of `request` with the status byte written. -/
lemma process_run (r : BlkRequest) {res : Option (Except IoError Unit × UInt32)}
    {s' : Host × VirtioBlk} (e : request r.outhdr r.data r.outData s = (.ok res, s')) :
    (process r.chain s).2 = ({ s'.1.note (.write r.status.base [statusByte res]) with
      mem := s'.1.mem.write r.status.base [statusByte res] }, s'.2) := by
  have hadd : ∀ a b (h : Host), (addU32 a b h).2 = h := by
    intro a b h
    unfold addU32
    split <;> rfl
  have hhost : ∀ a b (t : Host × VirtioBlk), (host (addU32 a b) t).2 = t := by
    intro a b t
    rw [host, Eff.zoom_run, hadd]
  unfold process
  rw [r.header, r.last]
  simp only [Eff.okOr_some, Eff.pure_bind_run]
  have e' : request r.outhdr r.chain.writeBuf.dropLast
      (r.chain.readBuf.drop (Layout.size VirtioBlkOuthdr)) s = (.ok res, s') := e
  rw [Eff.bind_of_ok e']
  cases res with
  | none =>
    dsimp only
    rw [Eff.bind_of_ok (setStatus_run r.room virtioBlkSUnsupp s')]
    rfl
  | some res =>
    obtain ⟨res, written⟩ := res
    cases res with
    | error err =>
      dsimp only
      rw [Eff.bind_of_ok (setStatus_run r.room virtioBlkSIoerr s'), hhost]
      rfl
    | ok _ =>
      dsimp only
      rw [Eff.bind_of_ok (setStatus_run r.room virtioBlkSOk s'), hhost]
      rfl

/-- One request: it is answered from the flat disk, and the disk holds what it wrote. -/
lemma process_answers (r : BlkRequest) (hold : s.2.Holds d) :
    r.Answered s.2.size d s.1.mem (process r.chain s).2.1.mem ∧
      (process r.chain s).2.2.Holds (d.writes (r.writes s.2.size)) ∧
      (process r.chain s).2.2.size = s.2.size := by
  obtain ⟨res, s', e, handled⟩ := request_handled r hold
  have touches := request_touches r.outhdr r.data r.outData (fun _ hb => hb) s
  rw [e] at touches
  rw [process_run r e]
  refine ⟨?_, handled.holds, handled.size⟩
  have outside : ∀ a, a ≠ r.status.base →
      s'.1.mem.write r.status.base [statusByte res] a = s'.1.mem a := by
    intro a ha
    apply Mem.write_outside
    rw [Span.mem_iff]
    simp only [List.length_singleton]
    omega
  have data_ne : ∀ buf ∈ r.data, ∀ a ∈ buf, a ≠ r.status.base := by
    rintro buf hb a ha rfl
    refine r.status_apart hb _ ha ?_
    have h0 := r.room
    rw [Span.mem_iff]
    omega
  have at_status : s'.1.mem.write r.status.base [statusByte res] r.status.base = statusByte res :=
    Mem.write_inside (i := 0) (by simp)
  refine ⟨fun h => ?_, fun h1 h2 h3 => ?_, fun h hf => ?_, fun h buf hb a ha => ?_,
    fun a ha hne => ?_⟩
  · exact at_status.trans (handled.status h)
  · exact at_status.trans (handled.unknown h1 h2 h3)
  · rw [← handled.filled h hf]
    refine List.flatMap_congr fun buf hb => Mem.read_congr fun a ha =>
      outside a (data_ne buf hb a ha)
  · rw [← handled.kept h]
    exact outside a (data_ne buf hb a ha)
  · exact (outside a hne).trans (touches.mem a fun ⟨buf, hb, hin⟩ => ha buf hb hin)

/-! ## Histories -/

/-- A request that finds guest memory at `m`. -/
def serve (s : Host × VirtioBlk) (call : Mem × BlkRequest) : Host × VirtioBlk :=
  (process call.2.chain ({ s.1 with mem := call.1 }, s.2)).2

/-- What the requests of a history write to a disk of `size` bytes. -/
def written (size : Nat) (history : List (Mem × BlkRequest)) : List (Nat × List UInt8) :=
  history.flatMap fun call => call.2.writes size

/-- After a history the disk holds what the history wrote. -/
lemma history_holds (hold : s.2.Holds d) (history : List (Mem × BlkRequest)) :
    (history.foldl serve s).2.Holds (d.writes (written s.2.size history)) ∧
      (history.foldl serve s).2.size = s.2.size := by
  induction history generalizing s d with
  | nil => exact ⟨hold, rfl⟩
  | cons call history ih =>
    obtain ⟨-, hold', hsize⟩ := process_answers call.2 (s := ({ s.1 with mem := call.1 }, s.2)) hold
    obtain ⟨hall, hsize'⟩ := ih (s := serve s call) hold'
    refine ⟨?_, hsize'.trans hsize⟩
    rw [show (serve s call).2.size = s.2.size from hsize] at hall
    rw [List.foldl_cons, written, List.flatMap_cons, Mem.writes_append]
    exact hall

end VirtioBlk

/-! ## The result -/

/-- After any history of requests, the next one is answered from an array of bytes, each of which is
    the last that the history wrote there; and a read returns these bytes. -/
theorem flat_disk {s : Host × VirtioBlk} {d : Mem} (hold : s.2.Holds d)
    (history : List (Mem × BlkRequest)) (m : Mem) (r : BlkRequest) :
    let ws := VirtioBlk.written s.2.size history
    let s' := VirtioBlk.serve (history.foldl VirtioBlk.serve s) (m, r)
    r.Answered s.2.size (d.writes ws) m s'.1.mem ∧
      s'.2.Holds ((d.writes ws).writes (r.writes s.2.size)) ∧
      (∀ x, d.LastWritten ws x (d.writes ws x)) ∧
      (r.outhdr.type = virtioBlkTIn → r.Fits s.2.size →
        ∀ i v, (BlkRequest.contents s'.1.mem r.data)[i]? = some v →
          d.LastWritten ws (r.offset + i) v) := by
  intro ws s'
  obtain ⟨hold', hsize⟩ := VirtioBlk.history_holds hold history
  obtain ⟨answered, holds, -⟩ := VirtioBlk.process_answers r
    (s := ({ (history.foldl VirtioBlk.serve s).1 with mem := m }, _)) hold'
  dsimp only at answered holds
  rw [hsize] at answered holds
  refine ⟨answered, holds, d.writes_lastWritten ws, fun hin hf i v hv => ?_⟩
  rw [show BlkRequest.contents s'.1.mem r.data = _ from answered.filled hin hf] at hv
  obtain ⟨hi, rfl⟩ := List.getElem?_eq_some_iff.mp hv
  rw [Mem.read_getElem]
  exact d.writes_lastWritten ws _

namespace BlkRequest

/-- Writes the byte 7 to the first sector. -/
def writeFirst : BlkRequest where
  chain := { head := 0, readBuf := 1 :: List.replicate 15 0 ++ [7], writeBuf := [⟨0x200, 1⟩] }
  outhdr := { type := virtioBlkTOut, ioprio := 0, sector := 0 }
  status := ⟨0x200, 1⟩
  header := by decide
  last := rfl
  room := by decide
  apart := by decide
  mapped := by decide

/-- Reads the first byte of it. -/
def readFirst : BlkRequest where
  chain := { head := 0, readBuf := List.replicate 16 0, writeBuf := [⟨0x100, 1⟩, ⟨0x200, 1⟩] }
  outhdr := { type := virtioBlkTIn, ioprio := 0, sector := 0 }
  status := ⟨0x200, 1⟩
  header := by decide
  last := rfl
  room := by decide
  apart := by decide
  mapped := by decide

end BlkRequest

/-- A disk of one sector that holds zeros. -/
def zeroDisk : VirtioBlk where
  disk := { bytes := List.replicate 512 0, readFails := [], writeFails := [], syncFails := [] }
  capacity := 1
  fits := by decide

/-- The byte that was written is read again. -/
theorem zeroDisk_reads : BlkRequest.contents
    (VirtioBlk.serve
      ([(fun _ => 0, .writeFirst)].foldl VirtioBlk.serve (.release fun _ => 0, zeroDisk))
      (fun _ => 0, .readFirst)).1.mem BlkRequest.readFirst.data = [7] := by
  have hold : zeroDisk.Holds fun _ => 0 := by
    refine ⟨rfl, rfl, List.length_replicate.ge, fun i hi => ?_⟩
    exact List.getElem?_replicate_of_lt hi
  have answered := (flat_disk (s := (.release fun _ => 0, zeroDisk)) hold
    [(fun _ => 0, .writeFirst)] (fun _ => 0) .readFirst).1
  have fits : BlkRequest.readFirst.Fits zeroDisk.size := by decide
  have filled := answered.filled rfl fits
  rw [filled]
  decide

end Hearth
