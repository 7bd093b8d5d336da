import Hearth.Virtio.Queue

/-!
# The virtio-mmio transport

Model of `virtio/mmio.rs`: the trait a device implements (`VirtioDevice`), the transport's registers
(`VirtioMmio`), draining a queue (`queueNotify`), register accesses (`handle`) and `poll`.

A run of the transport works on a `World`: the host and the transport with its device. The loop of
`queueNotify` is `Eff.loop` of one turn, `notifyTurn`; nothing in the source bounds it, so it takes
fuel, and `handle` and `poll` take the fuel of their loops.

`handle` first finds the register an access selects (`Reg.decode`, the address patterns of the
source's `match`), and `access` is what the `match` does for it.
-/

namespace Hearth
open Lib

/-! ## Constants -/

/-- The interrupt status of a used buffer. -/
def virtioMmioIntVring : UInt32 := 1
/-- The feature bit of version 1. -/
def virtioFVersion1 : UInt32 := 32
/-- The version of the transport. -/
def virtioVersion : UInt32 := 2
/-- The vendor id, for no vendor. -/
def virtioVendorNone : UInt32 := 0
/-- Where the device's configuration starts. -/
def virtioMmioConfig : UInt32 := 0x100
/-- Where the device's configuration ends. -/
def virtioMmioConfigMax : UInt32 := 0xfff

/-- The device-specific part of a virtio device; `VirtioMmio` is the transport. -/
class VirtioDevice (D : Type) where
  deviceId : UInt32
  /-- device feature bits for feature word `sel`, transport bits excluded -/
  features : (sel : UInt32) → UInt32
  /-- 0 means the queue does not exist -/
  queueNumMax : (queue : UInt32) → UInt32
  readConfig : D → (offset : UInt32) → (data : List UInt8) → List UInt8
  /-- handles one request and returns the number of bytes written to the guest -/
  process : (queue : UInt32) → DescChain → Eff IoError (Host × D) UInt32
  /-- false leaves available chains in the queue -/
  canProcess : D → (queue : UInt32) → Bool

/-- The transport: the device and its registers. -/
structure VirtioMmio (D : Type) where
  devFeatSel : UInt32
  drvFeatSel : UInt32
  status : UInt32
  currQueue : UInt32
  queue : Fin vringQueuesMax → VringQueue
  irq : UInt32
  irqStatus : UInt32
  device : D

/-- The host and one transport with its device. -/
structure World (D : Type) where
  host : Host
  mmio : VirtioMmio D

/-- What the transport does to itself and the host. -/
abbrev WorldM (D α : Type) : Type := Eff IoError (World D) α

variable {D : Type}

/-- Runs code that touches the host only. -/
def onHost {α : Type} : HostM α → WorldM D α :=
  Eff.zoom World.host fun h w => { w with host := h }

/-- Runs code of the device. -/
def onDevice {α : Type} : Eff IoError (Host × D) α → WorldM D α :=
  Eff.zoom (fun w => (w.host, w.mmio.device)) fun s w =>
    { w with host := s.1, mmio := { w.mmio with device := s.2 } }

namespace VirtioMmio

/-- A transport that nothing has been written to. -/
def new (device : D) (irq : UInt32) : VirtioMmio D where
  devFeatSel := 0
  drvFeatSel := 0
  status := 0
  currQueue := 0
  queue := fun _ => VringQueue.new
  irq := irq
  irqStatus := 0
  device := device

/-- `queue.get_mut(idx)`: the index of an existing queue. -/
def queueIndex (idx : UInt32) : Option (Fin vringQueuesMax) :=
  if h : idx.toNat < vringQueuesMax then some ⟨idx.toNat, h⟩ else none

/-- A queue is set. -/
def setQueue (q : Fin vringQueuesMax) (queue : VringQueue) (self : VirtioMmio D) : VirtioMmio D :=
  { self with queue := Function.update self.queue q queue }

/-- Changes the queue that `QUEUE_SEL` has selected, if it exists. -/
def onSelectedQueue (f : VringQueue → VringQueue) (self : VirtioMmio D) : VirtioMmio D :=
  match queueIndex self.currQueue with
  | some q => self.setQueue q (f (self.queue q))
  | none => self

end VirtioMmio

namespace World

/-- The same in the world. -/
def setQueue (q : Fin vringQueuesMax) (queue : VringQueue) (w : World D) : World D :=
  { w with mmio := w.mmio.setQueue q queue }

/-- `irq_status |= VIRTIO_MMIO_INT_VRING` -/
def raiseVring (w : World D) : World D :=
  { w with mmio := { w.mmio with irqStatus := w.mmio.irqStatus ||| virtioMmioIntVring } }

end World

section Notify

variable [VirtioDevice D]

/-- One turn of the loop of `queueNotify`; `true` goes on. -/
def notifyTurn (q : Fin vringQueuesMax) (mem : GuestMemory) : WorldM D Bool := do
  let w ← Eff.gets id
  if VirtioDevice.canProcess w.mmio.device (UInt32.ofNat q) then
    let (chain, queue) ← onHost ((w.mmio.queue q).popAvail mem)
    Eff.modify (World.setQueue q queue)
    match chain with
    | none => pure false
    | some chain =>
      let len ← onDevice (VirtioDevice.process (UInt32.ofNat q) chain)
      onHost (queue.pushUsed mem chain.head len)
      Eff.modify World.raiseVring
      onHost (archUpdateIrq 1 w.mmio.irq)
      pure true
  else
    pure false

/-- Processes what is available in a queue. -/
def queueNotify (fuel : Nat) (queueIdx : UInt32) (mem : GuestMemory) : WorldM D Unit := do
  match VirtioMmio.queueIndex queueIdx with
  | none => pure ()
  | some q =>
    let w ← Eff.gets id
    if (w.mmio.queue q).ready = 0 ∨ (w.mmio.queue q).num = 0 then
      pure ()
    else
      Eff.loop (notifyTurn q mem) fuel

/-- `MMIODevice::poll` -/
def poll (fuel : Nat) (mem : GuestMemory) : WorldM D Unit := do
  queueNotify fuel 0 mem
  queueNotify fuel 1 mem

end Notify

/-! ## Registers -/

/-- A KVM MMIO exit. -/
structure Mmio where
  physAddr : UInt64
  data : List UInt8
  isWrite : Bool
  /-- `data: [u8; 8]` -/
  size : data.length = 8

/-- A write of `val` to the register at `offset`. -/
def Mmio.write (offset : UInt64) (val : UInt32) : Mmio where
  physAddr := offset
  data := toLE 4 val.toNat ++ List.replicate 4 0
  isWrite := true
  size := by simp

/-- A read of the register at `offset`. -/
def Mmio.read (offset : UInt64) : Mmio where
  physAddr := offset
  data := List.replicate 8 0
  isWrite := false
  size := by simp

/-- What a register access selects: the arms of the `match` in `handle`. -/
inductive Reg where
  | readMagicValue | readVersion | readDeviceId | readVendorId
  | readDeviceFeatures | writeDeviceFeatures | writeDeviceFeaturesSel
  | readDriverFeatures | writeDriverFeatures | writeDriverFeaturesSel
  | writeQueueSel | readQueueNumMax | writeQueueNum | writeQueueReady | readQueueReady
  | writeQueueNotify | readInterruptStatus | writeInterruptAck | readStatus | writeStatus
  | writeQueueDescLow | writeQueueDescHigh | writeQueueAvailLow | writeQueueAvailHigh
  | writeQueueUsedLow | writeQueueUsedHigh
  | readConfigGeneration | readConfig | other
  deriving DecidableEq, Repr

/-- The registers that are read, by their offset in the page. -/
def Reg.decodeRead (addr : UInt32) : Reg :=
  if addr = 0x000 then .readMagicValue
  else if addr = 0x004 then .readVersion
  else if addr = 0x008 then .readDeviceId
  else if addr = 0x00c then .readVendorId
  else if addr = 0x010 then .readDeviceFeatures
  else if addr = 0x020 then .readDriverFeatures
  else if addr = 0x034 then .readQueueNumMax
  else if addr = 0x060 then .readInterruptStatus
  else if addr = 0x044 then .readQueueReady
  else if addr = 0x070 then .readStatus
  else if addr = 0x0fc then .readConfigGeneration
  else if virtioMmioConfig ≤ addr ∧ addr ≤ virtioMmioConfigMax then .readConfig
  else .other

/-- The registers that are written, by their offset in the page. -/
def Reg.decodeWrite (addr : UInt32) : Reg :=
  if addr = 0x010 then .writeDeviceFeatures
  else if addr = 0x014 then .writeDeviceFeaturesSel
  else if addr = 0x020 then .writeDriverFeatures
  else if addr = 0x024 then .writeDriverFeaturesSel
  else if addr = 0x030 then .writeQueueSel
  else if addr = 0x038 then .writeQueueNum
  else if addr = 0x044 then .writeQueueReady
  else if addr = 0x050 then .writeQueueNotify
  else if addr = 0x064 then .writeInterruptAck
  else if addr = 0x070 then .writeStatus
  else if addr = 0x080 then .writeQueueDescLow
  else if addr = 0x084 then .writeQueueDescHigh
  else if addr = 0x090 then .writeQueueAvailLow
  else if addr = 0x094 then .writeQueueAvailHigh
  else if addr = 0x0a0 then .writeQueueUsedLow
  else if addr = 0x0a4 then .writeQueueUsedHigh
  else .other

/-- `read_le32(b, 0)` -/
def readLe32 (b : List UInt8) : UInt32 := UInt32.ofNat (ofLE (b.take 4))

/-- `write_le32(b, 0, val)` -/
def writeLe32 (b : List UInt8) (val : UInt32) : List UInt8 := toLE 4 val.toNat ++ b.drop 4

section Handle

variable [VirtioDevice D]

/-- What an access to `reg` does; `val` is `read_le32` of the data, the result the new data. -/
def access (fuel : Nat) (mem : GuestMemory) (addr : UInt32) (data : List UInt8) (reg : Reg) :
    WorldM D (List UInt8) := do
  let val := readLe32 data
  let self ← Eff.gets World.mmio
  let put (f : VirtioMmio D → VirtioMmio D) : WorldM D (List UInt8) := do
    Eff.modify fun w => { w with mmio := f w.mmio }
    pure data
  match reg with
  | .readMagicValue => pure (writeLe32 data (readLe32 ("virt".toList.map fun c => c.toUInt8)))
  | .readVersion => pure (writeLe32 data virtioVersion)
  | .readDeviceId => pure (writeLe32 data (VirtioDevice.deviceId D))
  | .readVendorId => pure (writeLe32 data virtioVendorNone)
  | .readDeviceFeatures =>
    let transport : UInt32 := if self.devFeatSel = 1 then 1 <<< (virtioFVersion1 - 32) else 0
    pure (writeLe32 data (transport ||| VirtioDevice.features D self.devFeatSel))
  | .writeDeviceFeatures => pure data
  | .writeDeviceFeaturesSel => put fun s => { s with devFeatSel := val }
  | .readDriverFeatures => pure (writeLe32 data 0)
  | .writeDriverFeatures => pure data
  | .writeDriverFeaturesSel => put fun s => { s with drvFeatSel := val }
  | .writeQueueSel => put fun s => { s with currQueue := val }
  | .readQueueNumMax =>
    let numMax := if self.currQueue.toNat < vringQueuesMax then
      VirtioDevice.queueNumMax D self.currQueue else 0
    pure (writeLe32 data numMax)
  | .writeQueueNum => put (VirtioMmio.onSelectedQueue fun q => { q with num := val })
  | .writeQueueReady => put (VirtioMmio.onSelectedQueue fun q => { q with ready := val })
  | .writeQueueNotify => do
    queueNotify fuel val mem
    pure data
  | .readInterruptStatus => pure (writeLe32 data self.irqStatus)
  | .writeInterruptAck => do
    Eff.modify fun w => { w with mmio := { w.mmio with irqStatus := w.mmio.irqStatus &&& ~~~val } }
    onHost (archUpdateIrq 0 self.irq)
    pure data
  | .readQueueReady =>
    let ready := match VirtioMmio.queueIndex self.currQueue with
      | some q => (self.queue q).ready
      | none => 0
    pure (writeLe32 data ready)
  | .readStatus => pure (writeLe32 data self.status)
  | .writeStatus => put fun s => { s with status := val }
  | .writeQueueDescLow => put (VirtioMmio.onSelectedQueue fun q => { q with desc := val.toUInt64 })
  | .writeQueueDescHigh =>
    put (VirtioMmio.onSelectedQueue fun q => { q with desc := q.desc ||| val.toUInt64 <<< 32 })
  | .writeQueueAvailLow =>
    put (VirtioMmio.onSelectedQueue fun q => { q with avail := val.toUInt64 })
  | .writeQueueAvailHigh =>
    put (VirtioMmio.onSelectedQueue fun q => { q with avail := q.avail ||| val.toUInt64 <<< 32 })
  | .writeQueueUsedLow => put (VirtioMmio.onSelectedQueue fun q => { q with used := val.toUInt64 })
  | .writeQueueUsedHigh =>
    put (VirtioMmio.onSelectedQueue fun q => { q with used := q.used ||| val.toUInt64 <<< 32 })
  | .readConfigGeneration => pure (writeLe32 data 0)
  | .readConfig => pure (VirtioDevice.readConfig self.device (addr - virtioMmioConfig) data)
  | .other => pure data

/-- `MMIODevice::handle`: the data the access leaves in the exit. -/
def handle (fuel : Nat) (mmio : Mmio) (mem : GuestMemory) : WorldM D (List UInt8) :=
  let addr := (mmio.physAddr &&& 0xfff).toUInt32
  access fuel mem addr mmio.data (if mmio.isWrite then Reg.decodeWrite addr
    else Reg.decodeRead addr)

end Handle

end Hearth
