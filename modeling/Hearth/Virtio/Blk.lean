import Hearth.Virtio.Mmio

/-!
# virtio-blk

Model of `virtio/blk.rs`. The disk image is a file of the host: `File` holds its bytes and what the
host answers to the next reads, writes and syncs. A read or write that fails may have moved some
bytes first, as the standard library documents for `read_exact_at` and `write_all_at`.
-/

namespace Hearth
open Lib

/-! ## Files of the host -/

/-- An open file. The lists say how the next calls end, and are empty once all succeed: a read or
    write fails after the given number of bytes, short of the last, and a sync fails for `true`. -/
structure File where
  bytes : List UInt8
  readFails : List (Option Nat)
  writeFails : List (Option Nat)
  syncFails : List Bool
  deriving Repr

namespace File

/-- The bytes `read_exact_at` has put in its buffer, whether it succeeded, and the file after. -/
def readExactAt (self : File) (len offset : Nat) : List UInt8 × Bool × File :=
  -- nothing is asked of the host for an empty buffer
  if len = 0 then ([], true, self)
  else
    let after := { self with readFails := self.readFails.tail }
    match self.readFails.headD none with
    | some moved => ((self.bytes.drop offset).take (min moved (len - 1)), false, after)
    | none => ((self.bytes.drop offset).take len, decide (offset + len ≤ self.bytes.length), after)

/-- Stores `data` at `offset`; a file that ends before is filled up with zeros. -/
def store (bytes data : List UInt8) (offset : Nat) : List UInt8 :=
  if data = [] then bytes
  else
    (bytes ++ List.replicate (offset - bytes.length) 0).take offset ++ data ++
      bytes.drop (offset + data.length)

/-- Whether `write_all_at` succeeded, and the file after. -/
def writeAllAt (self : File) (data : List UInt8) (offset : Nat) : Bool × File :=
  if data = [] then (true, self)
  else
    let after := { self with writeFails := self.writeFails.tail }
    match self.writeFails.headD none with
    | some moved =>
      (false, { after with
        bytes := store self.bytes (data.take (min moved (data.length - 1))) offset })
    | none => (true, { after with bytes := store self.bytes data offset })

/-- `sync_data` -/
def syncData (self : File) : Bool × File :=
  (!self.syncFails.headD false, { self with syncFails := self.syncFails.tail })

end File

/-! ## The device -/

/-- The bytes of a sector. -/
def sectorSize : Nat := 512

/-- The device id of a disk. -/
def virtioIdBlock : UInt32 := 2
/-- The feature bit for flush requests. -/
def virtioBlkFFlush : UInt32 := 9
/-- A request that reads. -/
def virtioBlkTIn : UInt32 := 0
/-- A request that writes. -/
def virtioBlkTOut : UInt32 := 1
/-- A request that flushes. -/
def virtioBlkTFlush : UInt32 := 4
/-- The status of success. -/
def virtioBlkSOk : UInt8 := 0
/-- The status of an error on the host. -/
def virtioBlkSIoerr : UInt8 := 1
/-- The status of a type that is not supported. -/
def virtioBlkSUnsupp : UInt8 := 2

/-- `struct virtio_blk_outhdr` -/
structure VirtioBlkOuthdr where
  type : UInt32
  ioprio : UInt32
  sector : UInt64
  deriving DecidableEq, Repr

/-- The header as it lies in memory, its fields one after the other. -/
instance : Layout VirtioBlkOuthdr :=
  .via (fun h => (h.type, h.ioprio, h.sector)) (fun f => ⟨f.1, f.2.1, f.2.2⟩) fun _ => rfl

/-- The header takes 16 bytes. -/
@[simp] lemma size_virtioBlkOuthdr : Layout.size VirtioBlkOuthdr = 16 := rfl

/-- The value of type `T` at offset 0 of `bytes`, if they are enough. -/
def newFrom (T : Type) [Layout T] (bytes : List UInt8) : Option T :=
  if Layout.size T ≤ bytes.length then some (Layout.decode (bytes.take (Layout.size T))) else none

/-- The device: the disk, and its size in sectors. -/
structure VirtioBlk where
  disk : File
  /-- in sectors -/
  capacity : UInt64
  /-- the capacity is the length of a file divided by the sector size -/
  fits : capacity.toNat * sectorSize < 2 ^ 64

/-- What the device does to itself and to the host. -/
abbrev BlkM (α : Type) : Type := Eff IoError (Host × VirtioBlk) α

namespace VirtioBlk

/-- Runs code that touches the host only. -/
def host {α : Type} : HostM α → BlkM α := Eff.zoom Prod.fst fun h s => (h, s.2)

/-- Runs a file operation on the disk. -/
def onDisk {α : Type} (f : File → α × File) : BlkM α := fun s =>
  (.ok (f s.2.disk).1, (s.1, { s.2 with disk := (f s.2.disk).2 }))

/-- The capacity in bytes; `fits` is why the product does not overflow. -/
def size (self : VirtioBlk) : Nat := self.capacity.toNat * sectorSize

/-- Checks that `len` bytes from `sector` lie within the disk, returns the byte offset. -/
def diskOffset (self : VirtioBlk) (sector : UInt64) (len : Nat) : Except IoError Nat :=
  -- `checked_mul` and `checked_add`
  if sector.toNat * sectorSize < 2 ^ 64 ∧ sector.toNat * sectorSize + len < 2 ^ 64 ∧
      sector.toNat * sectorSize + len ≤ self.size then
    .ok (sector.toNat * sectorSize)
  else
    .error (.blkPastEnd sector len)

/-- Fills the buffers from `offset` on; the first read that fails ends it. -/
def readBufs : (offset : Nat) → List Span → BlkM (Except IoError Unit)
  | _, [] => pure (.ok ())
  | offset, buf :: bufs => do
    let (bytes, ok) ← onDisk fun disk =>
      let r := disk.readExactAt buf.len offset
      ((r.1, r.2.1), r.2.2)
    host (writeSlice buf bytes)
    if ok then readBufs (offset + buf.len) bufs else pure (.error .os)

/-- One buffer of `readBufs`. -/
lemma readBufs_cons (offset : Nat) (buf : Span) (bufs : List Span) (s : Host × VirtioBlk) :
    readBufs offset (buf :: bufs) s =
      let r := s.2.disk.readExactAt buf.len offset
      let s' : Host × VirtioBlk :=
        ({ s.1.note (.write buf.base r.1) with mem := s.1.mem.write buf.base r.1 },
          { s.2 with disk := r.2.2 })
      if r.2.1 then readBufs (offset + buf.len) bufs s' else (.ok (.error .os), s') := by
  change (if (s.2.disk.readExactAt buf.len offset).2.1 then readBufs (offset + buf.len) bufs
    else pure (.error .os) : BlkM _) _ = _
  dsimp only
  cases (s.2.disk.readExactAt buf.len offset).2.1 <;> rfl

/-- Reads from the disk into guest memory, returns the number of bytes. -/
def read (sector : UInt64) (data : List Span) : BlkM (Except IoError UInt32) := do
  let total ← host (sumUsize 0 (data.map Span.len))
  let self ← Eff.gets Prod.snd
  match self.diskOffset sector total with
  | .error e => pure (.error e)
  | .ok offset =>
    match ← readBufs offset data with
    | .error e => pure (.error e)
    | .ok () => pure (.ok (UInt32.ofNat total))

/-- Writes `data` to the disk. -/
def write (sector : UInt64) (data : List UInt8) : BlkM (Except IoError Unit) := do
  let self ← Eff.gets Prod.snd
  match self.diskOffset sector data.length with
  | .error e => pure (.error e)
  | .ok offset =>
    let ok ← onDisk fun disk => disk.writeAllAt data offset
    pure (if ok then .ok () else .error .os)

/-- What a known request type does to disk and data buffers, and the bytes it wrote to the guest. -/
def request (outhdr : VirtioBlkOuthdr) (data : List Span) (outData : List UInt8) :
    BlkM (Option (Except IoError Unit × UInt32)) :=
  if outhdr.type = virtioBlkTIn then do
    match ← read outhdr.sector data with
    | .ok len => pure (some (.ok (), len))
    | .error e => pure (some (.error e, 0))
  else if outhdr.type = virtioBlkTOut then do
    let res ← write outhdr.sector outData
    pure (some (res, 0))
  else if outhdr.type = virtioBlkTFlush then do
    let ok ← onDisk File.syncData
    pure (some (if ok then .ok () else .error .os, 0))
  else
    pure none

/-- `status[0] = value`, a panic for an empty buffer. -/
def setStatus (status : Span) (value : UInt8) : BlkM Unit :=
  if status.len = 0 then Eff.panic else host (writeSlice status [value])

/-- There is no byte for the status in an empty buffer: the index panics. -/
lemma setStatus_empty {status : Span} (h0 : status.len = 0) (value : UInt8) (s : Host × VirtioBlk) :
    setStatus status value s = (.panic, s) := by
  unfold setStatus
  rw [if_pos h0]
  rfl

/-- The status is the first byte of its buffer. -/
lemma setStatus_run {status : Span} (h0 : status.len ≠ 0) (value : UInt8) (s : Host × VirtioBlk) :
    setStatus status value s =
      (.ok (), ({ s.1.note (.write status.base [value]) with
        mem := s.1.mem.write status.base [value] }, s.2)) := by
  unfold setStatus
  rw [if_neg h0]
  rfl

/-- Disk errors go back to the guest as `VIRTIO_BLK_S_IOERR`; only a malformed
    request is an error for the VMM. -/
def process (chain : DescChain) : BlkM UInt32 := do
  let outhdr ← Eff.okOr (newFrom VirtioBlkOuthdr chain.readBuf) .blkNoHeader
  let status ← Eff.okOr chain.writeBuf.getLast? .blkNoStatus
  let data := chain.writeBuf.dropLast
  let outData := chain.readBuf.drop (Layout.size VirtioBlkOuthdr)
  match ← request outhdr data outData with
  | none => do
    setStatus status virtioBlkSUnsupp
    pure 1
  | some (res, written) => do
    setStatus status (match res with
      | .ok () => virtioBlkSOk
      | .error _ => virtioBlkSIoerr)
    -- the used length counts every byte written to the guest, status included
    host (addU32 written 1)

end VirtioBlk

/-- The disk as the transport sees it. -/
instance : VirtioDevice VirtioBlk where
  deviceId := virtioIdBlock
  features sel := if sel = 0 then 1 <<< virtioBlkFFlush else 0
  queueNumMax queue := if queue = 0 then 128 else 0
  readConfig self offset data :=
    -- the capacity in sectors, low half and high half
    if offset = 0 then writeLe32 data self.capacity.toUInt32
    else if offset = 4 then writeLe32 data (self.capacity >>> 32).toUInt32
    else data
  process _ chain := VirtioBlk.process chain
  canProcess _ _ := true

end Hearth
