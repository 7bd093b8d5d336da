import Hearth.Host

/-!
# Split virtqueues

Model of `virtio/queue.rs`: the structures a driver lays out in guest memory (`VringDesc`,
`VringAvail`, `VringUsed`, `VringUsedElem`), the device's side of a queue (`VringQueue`), taking the
next available chain (`popAvail`) and handing a chain back (`pushUsed`).

Device-readable data is copied into the chain when it is popped; device-writable buffers stay spans
of guest memory, which `process` of a device later writes through. The `for` loop of `popAvail` over
the descriptors is `walk`, one call for each turn that is left.
-/

namespace Hearth
open Lib

/-- The queues of a device. -/
def vringQueuesMax : Nat := 2

/-- There is a first queue. -/
instance : NeZero vringQueuesMax := ⟨by decide⟩

/-- Another descriptor follows. -/
def vringDescFNext : UInt16 := 1
/-- The device writes the buffer. -/
def vringDescFWrite : UInt16 := 2

/-- Whether the device reads a buffer or writes it. -/
inductive DescType where
  | write
  | read
  deriving DecidableEq, Repr

/-- `struct vring_desc` -/
structure VringDesc where
  addr : UInt64
  len : UInt32
  flags : UInt16
  next : UInt16
  deriving DecidableEq, Repr

/-- `struct vring_avail`, without its ring -/
structure VringAvail where
  flags : UInt16
  idx : UInt16

/-- `struct vring_used`, without its ring -/
structure VringUsed where
  flags : UInt16
  idx : UInt16

/-- `struct vring_used_elem` -/
structure VringUsedElem where
  id : UInt32
  len : UInt32

/-- A descriptor as it lies in the table. -/
instance : Layout VringDesc :=
  .via (fun d => (d.addr, d.len, d.flags, d.next)) (fun f => ⟨f.1, f.2.1, f.2.2.1, f.2.2.2⟩)
    fun _ => rfl

/-- The head of the available ring. -/
instance : Layout VringAvail :=
  .via (fun a => (a.flags, a.idx)) (fun f => ⟨f.1, f.2⟩) fun _ => rfl

/-- The head of the used ring. -/
instance : Layout VringUsed :=
  .via (fun a => (a.flags, a.idx)) (fun f => ⟨f.1, f.2⟩) fun _ => rfl

/-- An entry of the used ring. -/
instance : Layout VringUsedElem :=
  .via (fun e => (e.id, e.len)) (fun f => ⟨f.1, f.2⟩) fun _ => rfl

/-- A descriptor takes 16 bytes. -/
@[simp] lemma size_vringDesc : Layout.size VringDesc = 16 := rfl
/-- Flags and index of the available ring take 4 bytes. -/
@[simp] lemma size_vringAvail : Layout.size VringAvail = 4 := rfl
/-- Flags and index of the used ring take 4 bytes. -/
@[simp] lemma size_vringUsed : Layout.size VringUsed = 4 := rfl
/-- Id and length take 8 bytes. -/
@[simp] lemma size_vringUsedElem : Layout.size VringUsedElem = 8 := rfl
/-- An entry of the available ring takes 2 bytes. -/
@[simp] lemma size_u16 : Layout.size UInt16 = 2 := rfl

/-- The device's side of a queue. -/
structure VringQueue where
  ready : UInt32
  num : UInt32
  lastAvailIdx : UInt16
  desc : UInt64
  avail : UInt64
  used : UInt64
  deriving DecidableEq, Repr

/-- One available descriptor chain: device-readable data is copied out, device-writable buffers
    point straight into guest memory. -/
structure DescChain where
  head : UInt16
  readBuf : List UInt8
  writeBuf : List Span
  deriving DecidableEq, Repr

namespace VringDesc

/-- `get_type`. -/
def type (self : VringDesc) : DescType :=
  if self.flags &&& vringDescFWrite = 0 then .read else .write

/-- Whether the chain goes on. -/
def hasNext (self : VringDesc) : Bool := self.flags &&& vringDescFNext != 0

/-- The bytes of a device-readable descriptor. -/
def getData (self : VringDesc) (mem : GuestMemory) : HostM (List UInt8) := do
  let ptr ← Eff.unwrap (gpaToHost mem self.addr self.len.toNat)
  readSlice ⟨ptr, self.len.toNat⟩

end VringDesc

/-- The host's address of guest memory, an error if there is none. -/
def guestPtr (mem : GuestMemory) (gpa : UInt64) (len : Nat) : HostM Nat :=
  Eff.okOr (gpaToHost mem gpa len) (.vringAddress gpa)

namespace VringQueue

/-- A queue that nothing has been written to. -/
def new : VringQueue where
  desc := 0
  avail := 0
  lastAvailIdx := 0
  used := 0
  ready := 0
  num := 0

/-- Bytes of the available ring, and of the used ring. -/
def availSize (self : VringQueue) : Nat :=
  Layout.size VringAvail + Layout.size UInt16 * self.num.toNat
/-- The bytes of the used ring. -/
def usedSize (self : VringQueue) : Nat :=
  Layout.size VringUsed + Layout.size VringUsedElem * self.num.toNat

/-- Entry `descIdx` of the descriptor table. -/
def getDescHead (self : VringQueue) (descIdx : UInt16) (mem : GuestMemory) : HostM VringDesc := do
  let guestAddr ← addU64 self.desc (UInt64.ofNat (descIdx.toNat * Layout.size VringDesc))
  let descHeadPtr ← Eff.unwrap (gpaToHost mem guestAddr (Layout.size VringDesc))
  readGuestPtr VringDesc descHeadPtr

/-- What a descriptor adds to the chain. -/
def addDesc (mem : GuestMemory) (descHead : VringDesc) (chain : DescChain) : HostM DescChain :=
  match descHead.type with
  | .write => do
    let ptr ← guestPtr mem descHead.addr descHead.len.toNat
    pure { chain with writeBuf := chain.writeBuf ++ [⟨ptr, descHead.len.toNat⟩] }
  | .read => do
    let data ← descHead.getData mem
    pure { chain with readBuf := chain.readBuf ++ data }

/-- The turns of the descriptor loop that are left. -/
def walk (self : VringQueue) (mem : GuestMemory) :
    (turns : Nat) → (descIdx : UInt16) → DescChain → HostM DescChain
  | 0, _, chain => pure chain
  | turns + 1, descIdx, chain => do
    let descHead ← self.getDescHead descIdx mem
    let chain ← addDesc mem descHead chain
    if descHead.hasNext then walk self mem turns descHead.next chain else pure chain

/-- `a % b` on `u32`, a panic for `b = 0`. -/
def remU32 (a b : UInt32) : HostM UInt32 := if b = 0 then Eff.panic else pure (a % b)

/-- Takes the next chain the driver made available, if any. The queue is returned as it is then. -/
def popAvail (self : VringQueue) (mem : GuestMemory) : HostM (Option DescChain × VringQueue) := do
  let vringAvailRawPtr ← guestPtr mem self.avail self.availSize
  let avail ← readGuestPtr VringAvail vringAvailRawPtr
  if self.lastAvailIdx = avail.idx then
    pure (none, self)
  else do
    let availSlot ← remU32 self.lastAvailIdx.toUInt32 self.num
    let head ← readGuestPtr UInt16 (vringAvailRawPtr + (0x4 + 0x2 * availSlot.toNat))
    let chain ← self.walk mem self.num.toNat head { head := head, readBuf := [], writeBuf := [] }
    pure (some chain, { self with lastAvailIdx := self.lastAvailIdx + 1 })

/-- Hands a processed chain back to the driver. -/
def pushUsed (self : VringQueue) (mem : GuestMemory) (head : UInt16) (len : UInt32) :
    HostM Unit := do
  let vringUsedRawPtr ← guestPtr mem self.used self.usedSize
  let used ← readGuestPtr VringUsed vringUsedRawPtr
  let usedSlot ← remU32 used.idx.toUInt32 self.num
  writeGuestPtr (vringUsedRawPtr + (0x4 + Layout.size VringUsedElem * usedSlot.toNat))
    ({ id := head.toUInt32, len := len } : VringUsedElem)
  writeGuestPtr (vringUsedRawPtr + 0x2) (used.idx + 1)
  Eff.modify (Host.note (.used self.used head len))

end VringQueue

end Hearth
