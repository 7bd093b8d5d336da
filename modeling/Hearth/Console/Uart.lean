import Hearth.Keyboard.I8042
import Hearth.Lib.Transition

/-!
# The serial port

`UART` of `arch/x86_64/io.rs`. Its line control, line status and modem status registers are not
interpreted: `lcr` is only ever written, and the two others are not even stored in. `events` notes
what it puts on the console and the levels it drives on IRQ 4, in order; no code reads it.
-/

namespace Hearth
open Lib

/-- What the console does to the rest of the VMM. -/
inductive UartEvent where
  /-- hands a byte to standard output -/
  | console (byte : UInt8)
  /-- drives IRQ 4 to a level -/
  | irq (level : Bool)
  deriving DecidableEq, Repr

/-- The registers of the console, what was received and waits to be read, and the interrupt line. -/
structure Uart where
  ier : UInt8
  fcr : UInt8
  lcr : UInt8
  mcr : UInt8
  scr : UInt8
  thrIpending : Bool
  irqLevel : Bool
  rx : List UInt8
  /-- which of the next `KVM_IRQ_LINE` calls fail; none once the list is used up -/
  irqLineFails : List Bool
  events : List UartEvent
  deriving DecidableEq, Repr

/-- What the console does, and how it may fail. -/
abbrev UartM (α : Type) : Type := Eff IoError Uart α

namespace Uart

/-- The console as it is created. -/
def new (irqLineFails : List Bool) : Uart where
  ier := 0
  fcr := 0
  lcr := 0
  mcr := 0
  scr := 0
  thrIpending := false
  irqLevel := false
  rx := []
  irqLineFails := irqLineFails
  events := []

/-- Notes an event. -/
def note (e : UartEvent) (self : Uart) : Uart := { self with events := self.events ++ [e] }

/-- A byte has come in and the guest wants to be told. -/
def rxCause (self : Uart) : Bool := self.ier &&& 0x01 != 0 && !self.rx.isEmpty

/-- The transmitter is empty and the guest wants to be told. -/
def thrCause (self : Uart) : Bool := self.ier &&& 0x02 != 0 && self.thrIpending

/-- The level IRQ 4 should have. -/
def level (self : Uart) : Bool := self.mcr &&& 0x08 != 0 && (self.rxCause || self.thrCause)

/-- `arch_update_irq` -/
def archUpdateIrq (level : Bool) : UartM Unit := fun self =>
  match self.irqLineFails with
  | true :: fails => (.err .os, { self with irqLineFails := fails })
  | false :: fails => (.ok (), { self.note (.irq level) with irqLineFails := fails })
  | [] => (.ok (), self.note (.irq level))

/-- The line follows the level. -/
def updateIrq : UartM Unit := fun self =>
  if self.level ≠ self.irqLevel then
    archUpdateIrq self.level { self with irqLevel := self.level }
  else (.ok (), self)

/-- `TTY::send_char` -/
def sendChar (ch : UInt8) : UartM Unit := do
  Eff.modify fun self => { self with rx := self.rx ++ [ch] }
  updateIrq

/-! ## Registers -/

/-- The byte that is transmitted goes to the console. -/
def transmit (byte : UInt8) (self : Uart) : Uart :=
  let self := if byte = 0x0a then self.note (.console 0x0d) else self
  { self.note (.console byte) with thrIpending := true }

/-- The interrupt enable register. -/
def writeIer (byte : UInt8) (self : Uart) : Uart :=
  let v := byte &&& 0x0f
  { self with
    thrIpending := self.thrIpending || (v &&& 0x02 != 0 && self.ier &&& 0x02 == 0)
    ier := v }

/-- What a write to a port does, if the byte is looked at. -/
def writePort (port : UInt16) : Option (UInt8 → Uart → Uart) :=
  if port = 0x3f8 then some transmit
  else if port = 0x3f9 then some writeIer
  else if port = 0x3fa then some fun byte self => { self with fcr := byte }
  else if port = 0x3fb then some fun byte self => { self with lcr := byte }
  else if port = 0x3fc then some fun byte self => { self with mcr := byte }
  else if port = 0x3ff then some fun byte self => { self with scr := byte }
  else none

/-- Reading the interrupt identification register, which takes back the transmitter's interrupt. -/
def readIir (self : Uart) : UInt8 × Uart :=
  let fifo : UInt8 := if self.fcr &&& 0x01 ≠ 0 then 0xc0 else 0x00
  if self.rxCause then (fifo ||| 0x04, self)
  else if self.thrCause then (fifo ||| 0x02, { self with thrIpending := false })
  else (fifo ||| 0x01, self)

/-- The modem status: in loopback the modem control lines. -/
def msr (self : Uart) : UInt8 :=
  if self.mcr &&& 0x10 ≠ 0 then
    ((self.mcr &&& 0x02) <<< 3) ||| ((self.mcr &&& 0x01) <<< 5)
      ||| ((self.mcr &&& 0x04) <<< 4) ||| ((self.mcr &&& 0x08) <<< 4)
  else 0xb0

/-- The line status: the transmitter is empty, and bit 0 for data in `rx`. -/
def lsr (self : Uart) : UInt8 := if self.rx.isEmpty then 0x60 else 0x61

/-- A read of a register. -/
def readPort (port : UInt16) (self : Uart) : UInt8 × Uart :=
  if port = 0x3f8 then (self.rx.headD 0, { self with rx := self.rx.tail })
  else if port = 0x3fd then (self.lsr, self)
  else if port = 0x3f9 then (self.ier, self)
  else if port = 0x3fa then self.readIir
  else if port = 0x3fe then (self.msr, self)
  else if port = 0x3ff then (self.scr, self)
  else if 0x3f8 ≤ port ∧ port ≤ 0x3ff then (0x00, self)
  else (0xff, self)

/-- `data[0] = byte` -/
def setFirst (data : List UInt8) (byte : UInt8) : UartM (List UInt8) :=
  match data with
  | [] => Eff.panic
  | _ :: rest => pure (byte :: rest)

/-- The access itself: what is left in the access's bytes. -/
def access (io : PortIo) (data : List UInt8) : UartM (List UInt8) :=
  if io.direction = kvmExitIoOut then
    match writePort io.port with
    | some write => do
      let byte ← Eff.unwrap data.head?
      Eff.modify (write byte)
      pure data
    | none => pure data
  else if io.direction = kvmExitIoIn then do
    let self ← Eff.gets id
    Eff.modify fun self => (self.readPort io.port).2
    setFirst data (self.readPort io.port).1
  else setFirst data 0xff

/-- `IODevice::handle`: the access has `size * count` bytes of the buffer. -/
def handle (io : PortIo) (buffer : List UInt8) : UartM (List UInt8) := do
  let len := io.size.toNat * io.count.toNat
  let data ← access io (buffer.take len)
  updateIrq
  pure (data ++ buffer.drop len)

end Uart

/-! ## Single bytes -/

/-- An access of one byte to a port. -/
structure ByteAccess where
  direction : UInt8
  port : UInt16
  byte : UInt8
  deriving DecidableEq, Repr

/-- The exit of an access. -/
def ByteAccess.io (a : ByteAccess) : PortIo where
  direction := a.direction
  size := 1
  port := a.port
  count := 1

/-- A write of a byte. -/
def ByteAccess.out (port : UInt16) (byte : UInt8) : ByteAccess := ⟨kvmExitIoOut, port, byte⟩

/-- A read, into a buffer that held `byte`. -/
def ByteAccess.inp (port : UInt16) (byte : UInt8) : ByteAccess := ⟨kvmExitIoIn, port, byte⟩

namespace Uart

/-- Before the line is updated, the access of one byte: what it leaves
in the buffer, and the state. -/
def effect (a : ByteAccess) (self : Uart) : UInt8 × Uart :=
  if a.direction = kvmExitIoOut then
    match writePort a.port with
    | some write => (a.byte, write a.byte self)
    | none => (a.byte, self)
  else if a.direction = kvmExitIoIn then self.readPort a.port
  else (0xff, self)

/-- Only the first byte of an access is looked at. -/
lemma access_run {io : PortIo} {a : ByteAccess} (direction : io.direction = a.direction)
    (port : io.port = a.port) (bytes : List UInt8) (self : Uart) :
    access io (a.byte :: bytes) self = (.ok ((self.effect a).1 :: bytes), (self.effect a).2) := by
  by_cases ho : a.direction = kvmExitIoOut
  · have hacc : access io (a.byte :: bytes) = _ := if_pos (direction.trans ho)
    have heff : self.effect a = _ := if_pos ho
    rw [hacc, heff, port]
    cases writePort a.port with
    | some write => rfl
    | none => rfl
  · have ho' : io.direction ≠ kvmExitIoOut := fun h => ho (direction.symm.trans h)
    by_cases hi : a.direction = kvmExitIoIn
    · have hacc : access io (a.byte :: bytes) = _ :=
        (if_neg ho').trans (if_pos (direction.trans hi))
      have heff : self.effect a = _ := (if_neg ho).trans (if_pos hi)
      rw [hacc, heff, port]
      rfl
    · have hacc : access io (a.byte :: bytes) = _ :=
        (if_neg ho').trans (if_neg fun h => hi (direction.symm.trans h))
      have heff : self.effect a = _ := (if_neg ho).trans (if_neg hi)
      rw [hacc, heff]
      rfl

/-- An access of one byte or more and then the line. -/
lemma handle_run (io : PortIo) (a : ByteAccess) (direction : io.direction = a.direction)
    (port : io.port = a.port) {buffer bytes : List UInt8}
    (hbuf : buffer.take (io.size.toNat * io.count.toNat) = a.byte :: bytes) (self : Uart) :
    handle io buffer self =
      ((updateIrq (self.effect a).2).1.map fun _ =>
          (self.effect a).1 :: bytes ++ buffer.drop (io.size.toNat * io.count.toNat),
        (updateIrq (self.effect a).2).2) := by
  unfold handle
  rw [hbuf, Eff.bind_of_ok (access_run direction port bytes self)]
  exact Eff.bind_pure_eq _ _ _

/-- When the interrupt line answers, updating it notes the new level if there is one. -/
lemma updateIrq_run {self : Uart} (hf : self.irqLineFails = []) :
    updateIrq self = (.ok (), { self with
      irqLevel := self.level
      events := self.events ++ if self.level ≠ self.irqLevel then [.irq self.level] else [] }) := by
  unfold updateIrq archUpdateIrq
  split
  · next h =>
    rw [hf]
    rfl
  · next h =>
    have heq : self.level = self.irqLevel := not_not.mp h
    rw [heq, List.append_nil]

/-- However it ends, updating the line changes nothing else. -/
lemma updateIrq_frame (self : Uart) : ∃ irqLevel irqLineFails log, (∀ e ∈ log, ∃ l, e = .irq l) ∧
    (updateIrq self).2 = { self with
      irqLevel := irqLevel, irqLineFails := irqLineFails, events := self.events ++ log } := by
  unfold updateIrq archUpdateIrq
  split
  · split
    · next fails _ =>
      refine ⟨self.level, fails, [], nofun, ?_⟩
      rw [List.append_nil]
    · next fails _ =>
      refine ⟨self.level, fails, [.irq self.level], fun e he => ?_, rfl⟩
      cases List.mem_singleton.mp he
      exact ⟨_, rfl⟩
    · next hf =>
      refine ⟨self.level, self.irqLineFails, [.irq self.level], fun e he => ?_, rfl⟩
      cases List.mem_singleton.mp he
      exact ⟨_, rfl⟩
  · refine ⟨self.irqLevel, self.irqLineFails, [], nofun, ?_⟩
    rw [List.append_nil]

end Uart

/-- What happens to the port: a guest's access of a byte, or a byte typed at the terminal. -/
inductive UartOp where
  | access (a : ByteAccess)
  | sendChar (ch : UInt8)
  deriving DecidableEq, Repr

/-- What it leaves in the buffer. -/
def UartOp.run : UartOp → UartM (List UInt8)
  | .access a => Uart.handle a.io [a.byte]
  | .sendChar ch => Uart.sendChar ch >>= fun _ => pure []

/-- Before the line is updated: what is in the buffer, and the state. -/
def UartOp.effect : UartOp → Uart → List UInt8 × Uart
  | .access a, self => ([(self.effect a).1], (self.effect a).2)
  | .sendChar ch, self => ([], { self with rx := self.rx ++ [ch] })

/-- Every operation changes the state and then updates the line. -/
lemma UartOp.run_eq (op : UartOp) (self : Uart) : op.run self =
    ((Uart.updateIrq (op.effect self).2).1.map fun _ => (op.effect self).1,
      (Uart.updateIrq (op.effect self).2).2) := by
  cases op with
  | access a =>
    have hbuf : [a.byte].take (a.io.size.toNat * a.io.count.toNat) = [a.byte] := rfl
    exact Uart.handle_run a.io a rfl rfl hbuf self
  | sendChar ch => exact Eff.bind_pure_eq Uart.updateIrq _ _

end Hearth
