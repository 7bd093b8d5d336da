import Hearth.Virtio.Blk

/-!
# virtio-net

Model of `virtio/net.rs`. The tap is a character device of the host: what is sent to it is a list of
frames, and `writeFails` says which of the next writes the host refuses. `rxPending` is the queue
that the receive thread appends to and the device takes from, both under its lock.
-/

namespace Hearth
open Lib

/-- The device id of a network card. -/
def virtioIdNet : UInt32 := 1
/-- The queue of buffers for received frames. -/
def virtioNetQueueRx : UInt32 := 0
/-- The queue of frames to transmit. -/
def virtioNetQueueTx : UInt32 := 1

/-- Frames are dropped beyond this while the guest posts no RX buffers. -/
def rxPendingMax : Nat := 256

/-- `struct virtio_net_hdr_v1`; `csum` is the union of two 16-bit words. -/
structure VirtioNetHdrV1 where
  flags : UInt8
  gsoType : UInt8
  hdrLen : UInt16
  gsoSize : UInt16
  csum : UInt16 × UInt16
  numBuffers : UInt16

/-- The header as it lies in memory, its fields one after the other. -/
instance : Layout VirtioNetHdrV1 :=
  .via (fun h => (h.flags, h.gsoType, h.hdrLen, h.gsoSize, h.csum, h.numBuffers))
    (fun f => ⟨f.1, f.2.1, f.2.2.1, f.2.2.2.1, f.2.2.2.2.1, f.2.2.2.2.2⟩) fun _ => rfl

/-- The header takes 12 bytes. -/
@[simp] lemma size_virtioNetHdrV1 : Layout.size VirtioNetHdrV1 = 12 := rfl

/-- The tap device: the frames sent so far, and which of the next writes fail. -/
structure Tap where
  sent : List (List UInt8)
  writeFails : List Bool
  deriving Repr

/-- A frame goes out. -/
def Tap.writeAll (frame : List UInt8) (self : Tap) : Tap :=
  { sent := if self.writeFails.headD false then self.sent else self.sent ++ [frame]
    writeFails := self.writeFails.tail }

/-- The device: the tap it transmits to, and the frames received and not yet delivered. -/
structure VirtioNet where
  tap : Tap
  rxPending : List (List UInt8)
  deriving Repr

/-- What the device does to itself and to the host. -/
abbrev NetM (α : Type) : Type := Eff IoError (Host × VirtioNet) α

namespace VirtioNet

/-- Runs code that touches the host only. -/
def host {α : Type} : HostM α → NetM α := Eff.zoom Prod.fst fun h s => (h, s.2)

/-- Takes the first pending frame. -/
def popFront : NetM (Option (List UInt8)) := fun s =>
  (.ok s.2.rxPending.head?, (s.1, { s.2 with rxPending := s.2.rxPending.tail }))

/-- Copies what is left of a frame into the buffers in order; returns the number of bytes copied. -/
def scatter (frame : List UInt8) : (copied : Nat) → List Span → NetM Nat
  | copied, [] => pure copied
  | copied, buf :: bufs =>
    if copied = frame.length then
      pure copied
    else do
      let len := min buf.len (frame.length - copied)
      host (writeSlice ⟨buf.base, len⟩ ((frame.drop copied).take len))
      scatter frame (copied + len) bufs

/-- One chain: a pending frame is delivered, or what the guest gave is transmitted. -/
def process (queue : UInt32) (chain : DescChain) : NetM UInt32 :=
  if queue = virtioNetQueueRx then do
    match ← popFront with
    | none => pure 0
    | some frame =>
      let copied ← scatter frame 0 chain.writeBuf
      pure (UInt32.ofNat copied)
  else if queue = virtioNetQueueTx then do
    let _ ← Eff.okOr (newFrom VirtioNetHdrV1 chain.readBuf) .netNoHeader
    -- a failed write drops the frame instead of the VM
    Eff.modify fun s => (s.1, { s.2 with tap := s.2.tap.writeAll chain.readBuf })
    pure 0
  else
    pure 0

end VirtioNet

/-- The network card as the transport sees it. -/
instance : VirtioDevice VirtioNet where
  deviceId := virtioIdNet
  features _ := 0
  queueNumMax queue := if queue ≤ 1 then 256 else 0
  readConfig _ _ data := data
  process := VirtioNet.process
  canProcess self queue := queue != virtioNetQueueRx || !self.rxPending.isEmpty

end Hearth
