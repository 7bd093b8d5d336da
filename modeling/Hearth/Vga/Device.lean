import Hearth.Boot.Slots
import Hearth.Keyboard.I8042

/-!
# The VGA adapter

`Vga` of `arch/x86_64/vga.rs`: its registers, the ring of DAC writes that KVM has queued, and the
counting of frames. The device's arrays are functions on their indices, so that no index is out of
range. What the device reads from outside comes with its state: the nanoseconds since its `epoch` at
the next readings, and KVM's ring.
-/

namespace Hearth
open Lib

namespace VgaPort

/-- Attribute controller: index and data in turn. -/
def acIndex : UInt16 := 0x3c0
/-- Reads back the register chosen there. -/
def acRead : UInt16 := 0x3c1
/-- Miscellaneous output, to write. -/
def miscWrite : UInt16 := 0x3c2
/-- The sequencer's index. -/
def seqIndex : UInt16 := 0x3c4
/-- The sequencer's data. -/
def seqData : UInt16 := 0x3c5
/-- From which colour on the palette is read; a read gives the DAC's state. -/
def dacReadIndex : UInt16 := 0x3c7
/-- From which colour on it is written. -/
def dacWriteIndex : UInt16 := 0x3c8
/-- The components of the colours, one after the other. -/
def dacData : UInt16 := 0x3c9
/-- Miscellaneous output, to read. -/
def miscRead : UInt16 := 0x3cc
/-- The graphics controller's index. -/
def gcIndex : UInt16 := 0x3ce
/-- The graphics controller's data. -/
def gcData : UInt16 := 0x3cf
/-- The CRT controller's index. -/
def crtcIndex : UInt16 := 0x3d4
/-- The CRT controller's data. -/
def crtcData : UInt16 := 0x3d5
/-- Input status 1; a read also resets the attribute controller's flip-flop. -/
def instatRead : UInt16 := 0x3da

end VgaPort

namespace Vga

/-- The pixels of a row. -/
def width : Nat := 320
/-- The rows of the screen. -/
def height : Nat := 200
/-- The bytes of the framebuffer, one for each pixel. -/
def framebufferSize : Nat := width * height

/-- `VGA_FRAMEBUFFER_SIZE.div_ceil(PAGE_SIZE)` -/
def framebufferPages : Nat := 16

/-- The display is on only while this bit of the attribute controller's index is set. -/
def acPas : UInt8 := 0x20
/-- The display is disabled. -/
def instatDd : UInt8 := 0x01
/-- The display is in its vertical retrace. -/
def instatVr : UInt8 := 0x08
/-- The DAC's state while it is being read. -/
def dacStateRead : UInt8 := 0x03

/-- The dot clock of the 640x400 timing that mode 13h is scanned out with. -/
def dotClockKhz : Nat := 25175
/-- The dots of a line. -/
def dotsPerLine : Nat := 800
/-- The lines of a frame. -/
def linesPerFrame : Nat := 449
/-- The dots of a line for which the display is enabled. -/
def visibleDots : Nat := 640
/-- The lines for which it is enabled. -/
def visibleLines : Nat := 400

end Vga

/-- The registers the guest sets. -/
structure VgaRegisters where
  misc : UInt8
  seqIndex : Fin 8
  seq : Fin 8 → UInt8
  gcIndex : Fin 16
  gc : Fin 16 → UInt8
  crtcIndex : Fin 32
  crtc : Fin 32 → UInt8
  /-- the index byte also carries the display-on bit -/
  acIndex : UInt8
  acDataNext : Bool
  ac : Fin 32 → UInt8
  palette : UInt8 → Fin 3 → UInt8
  dacWrite : UInt8 × Fin 3
  dacRead : UInt8 × Fin 3
  dacReading : Bool

/-- A write that KVM has queued (`kvm_coalesced_mmio`). -/
structure CoalescedMmio where
  physAddr : UInt64
  len : UInt32
  data : List UInt8

/-- KVM's ring: it appends at `last`, and the reader frees entries by advancing `first`. -/
structure CoalescedRing where
  first : UInt32
  last : UInt32
  entries : Nat → CoalescedMmio

/-- The adapter: its registers, the clock, the framebuffer's window, the dirty log, the queue of DAC
    writes, and when each page was last written. -/
structure Vga extends VgaRegisters where
  /-- the nanoseconds since `epoch` at the next readings -/
  elapsed : List Nat
  framebuffer : Option Nat
  dirtyLog : Option DirtyLog
  dacWrites : Option CoalescedRing
  frame : UInt64
  pageWritten : Fin Vga.framebufferPages → UInt64
  repaint : Bool

/-- What the adapter does, and how it may fail. -/
abbrev VgaM (α : Type) : Type := Eff IoError Vga α

/-! ## Registers -/

namespace VgaRegisters

/-- The component after this one of the palette. -/
def nextComponent (at_ : UInt8 × Fin 3) : UInt8 × Fin 3 :=
  if at_.2 = 2 then (at_.1 + 1, 0) else (at_.1, at_.2 + 1)

/-- The register of the attribute controller that is selected: `ac_index & 0x1f`. -/
def acSelected (self : VgaRegisters) : Fin 32 :=
  ⟨self.acIndex.toNat % 32, Nat.mod_lt _ (Nat.zero_lt_succ 31)⟩

/-- A byte written to a register. -/
def write (port : UInt16) (byte : UInt8) (self : VgaRegisters) : VgaRegisters :=
  if port = VgaPort.acIndex then
    let self :=
      if self.acDataNext then { self with ac := Function.update self.ac self.acSelected byte }
      else { self with acIndex := byte &&& 0x3f }
    { self with acDataNext := !self.acDataNext }
  else if port = VgaPort.miscWrite then { self with misc := byte }
  else if port = VgaPort.seqIndex then
    { self with seqIndex := ⟨byte.toNat % 8, Nat.mod_lt _ (Nat.zero_lt_succ 7)⟩ }
  else if port = VgaPort.seqData then
    { self with seq := Function.update self.seq self.seqIndex byte }
  else if port = VgaPort.dacReadIndex then { self with dacRead := (byte, 0), dacReading := true }
  else if port = VgaPort.dacWriteIndex then { self with dacWrite := (byte, 0), dacReading := false }
  else if port = VgaPort.dacData then
    { self with
      palette := Function.update self.palette self.dacWrite.1
        (Function.update (self.palette self.dacWrite.1) self.dacWrite.2 (byte &&& 0x3f))
      dacWrite := nextComponent self.dacWrite }
  else if port = VgaPort.gcIndex then
    { self with gcIndex := ⟨byte.toNat % 16, Nat.mod_lt _ (Nat.zero_lt_succ 15)⟩ }
  else if port = VgaPort.gcData then { self with gc := Function.update self.gc self.gcIndex byte }
  else if port = VgaPort.crtcIndex then
    { self with crtcIndex := ⟨byte.toNat % 32, Nat.mod_lt _ (Nat.zero_lt_succ 31)⟩ }
  else if port = VgaPort.crtcData then
    { self with crtc := Function.update self.crtc self.crtcIndex byte }
  else self

/-- Whether a write makes the next frame redraw every row. -/
def repaints (port : UInt16) (byte : UInt8) (self : VgaRegisters) : Bool :=
  if port = VgaPort.acIndex then !self.acDataNext && (self.acIndex ^^^ byte) &&& Vga.acPas != 0
  else port == VgaPort.dacData

end VgaRegisters

/-- A component of 6 bits, with 8. -/
def widen (c : UInt8) : UInt8 := (c <<< 2) ||| (c >>> 4)

/-- `0x00RRGGBB` -/
def rgbPixel (r g b : UInt8) : UInt32 := r.toUInt32 <<< 16 ||| g.toUInt32 <<< 8 ||| b.toUInt32

namespace Vga

/-- A new adapter, with what the VM gives it. -/
def new (elapsed : List Nat) (framebuffer : Option Nat) (dirtyLog : Option DirtyLog)
    (dacWrites : Option CoalescedRing) : Vga where
  misc := 0
  seqIndex := 0
  seq := fun _ => 0
  gcIndex := ⟨0, Nat.zero_lt_succ 15⟩
  gc := fun _ => 0
  crtcIndex := 0
  crtc := fun _ => 0
  acIndex := 0
  acDataNext := false
  ac := fun _ => 0
  palette := fun _ _ => 0
  dacWrite := (0, 0)
  dacRead := (0, 0)
  dacReading := false
  elapsed := elapsed
  framebuffer := framebuffer
  dirtyLog := dirtyLog
  dacWrites := dacWrites
  frame := 0
  pageWritten := fun _ => 0
  repaint := false

/-- The same on the adapter. -/
def write (port : UInt16) (byte : UInt8) (self : Vga) : Vga :=
  { self with
    toVgaRegisters := self.toVgaRegisters.write port byte
    repaint := self.repaint || self.toVgaRegisters.repaints port byte }

/-- Where the beam would be, `nanos` after the start. -/
def inputStatus (nanos : Nat) : UInt8 :=
  let dot := nanos * dotClockKhz / 1000000 % (dotsPerLine * linesPerFrame)
  let line := dot / dotsPerLine
  let column := dot % dotsPerLine
  let status : UInt8 := if visibleLines ≤ line ∨ visibleDots ≤ column then instatDd else 0
  if 412 ≤ line ∧ line < 414 then status ||| instatVr else status

/-- What a read returns. -/
def value (port : UInt16) (self : Vga) : UInt8 :=
  if port = VgaPort.acIndex then self.acIndex
  else if port = VgaPort.acRead then self.ac self.acSelected
  else if port = VgaPort.seqIndex then UInt8.ofNat self.seqIndex
  else if port = VgaPort.seqData then self.seq self.seqIndex
  else if port = VgaPort.dacReadIndex then (if self.dacReading then dacStateRead else 0)
  else if port = VgaPort.dacWriteIndex then self.dacWrite.1
  else if port = VgaPort.dacData then self.palette self.dacRead.1 self.dacRead.2
  else if port = VgaPort.miscRead then self.misc
  else if port = VgaPort.gcIndex then UInt8.ofNat self.gcIndex
  else if port = VgaPort.gcData then self.gc self.gcIndex
  else if port = VgaPort.crtcIndex then UInt8.ofNat self.crtcIndex
  else if port = VgaPort.crtcData then self.crtc self.crtcIndex
  else if port = VgaPort.instatRead then inputStatus (self.elapsed.headD 0)
  else 0xff

/-- What a read changes: two of the ports have a side effect, and one looks at the clock. -/
def afterRead (port : UInt16) (self : Vga) : Vga :=
  if port = VgaPort.dacData then { self with dacRead := VgaRegisters.nextComponent self.dacRead }
  else if port = VgaPort.instatRead then
    { self with acDataNext := false, elapsed := self.elapsed.tail }
  else self

/-- A read, and what it changes. -/
def read (port : UInt16) (self : Vga) : UInt8 × Vga := (self.value port, self.afterRead port)

/-- `palette_rgb`: the pixel for a byte of the framebuffer. -/
def paletteRgb (self : Vga) (byte : UInt8) : UInt32 :=
  rgbPixel (widen (self.palette byte 0)) (widen (self.palette byte 1)) (widen (self.palette byte 2))

/-! ## Queued writes -/

/-- How many entries fit in KVM's page: `(4096 - 8) / 24`. -/
def ringEntries : Nat := 170

/-- The bytes of an entry or of an access go to ports that follow each other. -/
def writeFrom (port : UInt16) : List UInt8 → Vga → Vga
  | [], self => self
  | byte :: data, self => writeFrom (port + 1) data (self.write port byte)

/-- `write(entry.phys_addr, &entry.data[..entry.len])`, for the entry of a queued write. -/
def applyEntry (entry : CoalescedMmio) (self : Vga) : Vga :=
  self.writeFrom entry.physAddr.toUInt16 (entry.data.take entry.len.toNat)

/-- `CoalescedRing::drain` from the entry `i` on. If it has not met `last` after as many turns as
there are entries it is back where it was, and never will. -/
def drainFrom (ring : CoalescedRing) : (turns : Nat) → (i : UInt32) → VgaM Unit
  | 0, i => if i = ring.last then pure () else fun self => (.fuel, self)
  | turns + 1, i =>
    if i = ring.last then pure ()
    else do
      Eff.modify (applyEntry (ring.entries i.toNat))
      drainFrom ring turns ((i + 1) % UInt32.ofNat ringEntries)

/-- The writes that KVM has queued are applied, and their slots are free. -/
def applyQueuedWrites : VgaM Unit := do
  match ← Eff.gets Vga.dacWrites with
  | none => pure ()
  | some ring => do
    drainFrom ring ringEntries ring.first
    Eff.modify fun self => { self with dacWrites := some { ring with first := ring.last } }

/-! ## Exits -/

/-- One byte of an access. -/
def accessByte (direction : UInt8) (port : UInt16) (byte : UInt8) (self : Vga) : UInt8 × Vga :=
  if direction = kvmExitIoOut then (byte, self.write port byte)
  else if direction = kvmExitIoIn then self.read port
  else (byte, self)

/-- The bytes of an access, in chunks of `size` bytes that each start at `port`
again; `i` counts within a chunk. -/
def accessBytes (direction : UInt8) (port : UInt16) (size : Nat) :
    (i : Nat) → List UInt8 → Vga → List UInt8 × Vga
  | _, [], self => ([], self)
  | i, byte :: data, self =>
    let (byte, self) := self.accessByte direction (port + UInt16.ofNat i) byte
    let (data, self) :=
      accessBytes direction port size (if i + 1 = size then 0 else i + 1) data self
    (byte :: data, self)

/-- `IODevice::handle`: the access has `size * count` bytes of the buffer. -/
def handle (io : PortIo) (buffer : List UInt8) : VgaM (List UInt8) := do
  applyQueuedWrites
  if io.size = 0 then Eff.panic
  else
    let len := io.size.toNat * io.count.toNat
    let self ← Eff.gets id
    let (data, self) := accessBytes io.direction io.port io.size.toNat 0 (buffer.take len) self
    Eff.modify fun _ => self
    pure (data ++ buffer.drop len)

end Vga

end Hearth
