import Hearth.Host

/-!
# The keyboard controller

`I8042` of `arch/x86_64/i8042.rs`: the controller, the keyboard on its first port, and the
translation of the frontends' keysyms to scancodes. `events` notes what the device does in order:
the bytes it queues, those it moves to the output buffer with the configuration at that moment, the
levels it drives on its interrupt line and its requests to stop the VM. No code reads it.
-/

namespace Hearth
open Lib

/-- The guest reads a port. -/
def kvmExitIoIn : UInt8 := 0
/-- The guest writes to a port. -/
def kvmExitIoOut : UInt8 := 1

/-- A port access that made a vcpu exit (`IO`); its data follow in the run page. -/
structure PortIo where
  direction : UInt8
  size : UInt8
  port : UInt16
  count : UInt32
  deriving DecidableEq, Repr

/-- The data port. -/
def i8042Data : UInt16 := 0x60
/-- The port of commands; a read gives the status. -/
def i8042Command : UInt16 := 0x64

/-- The output buffer is full. -/
def statusObf : UInt8 := 0x01
/-- The controller has passed its self-test. -/
def statusSys : UInt8 := 0x04
/-- The last write was to 0x64. -/
def statusCmd : UInt8 := 0x08
/-- The keyboard is not locked: always set. -/
def statusUnlocked : UInt8 := 0x10

/-- The keyboard interrupts. -/
def configKbdInt : UInt8 := 0x01
/-- Passed self-test, as in the status. -/
def configSys : UInt8 := 0x04
/-- The keyboard's port is off. -/
def configKbdDisable : UInt8 := 0x10
/-- The second port is off. -/
def configAuxDisable : UInt8 := 0x20
/-- Scancodes are translated to set 1. -/
def configTranslate : UInt8 := 0x40

/-- Asks for the configuration byte. -/
def cmdReadConfig : UInt8 := 0x20
/-- The next byte is the configuration. -/
def cmdWriteConfig : UInt8 := 0x60
/-- Turns the second port off. -/
def cmdAuxDisable : UInt8 := 0xa7
/-- Turns the second port on. -/
def cmdAuxEnable : UInt8 := 0xa8
/-- Tests the controller. -/
def cmdSelfTest : UInt8 := 0xaa
/-- Tests the keyboard's port. -/
def cmdKbdTest : UInt8 := 0xab
/-- Turns the keyboard's port off. -/
def cmdKbdDisable : UInt8 := 0xad
/-- Turns the keyboard's port on. -/
def cmdKbdEnable : UInt8 := 0xae
/-- The next byte is the output port, whose lowest bit is the reset line. -/
def cmdWriteOutputPort : UInt8 := 0xd1
/-- The next byte comes back as if the keyboard had sent it. -/
def cmdWriteKbdOutput : UInt8 := 0xd2
/-- Pulses the reset line. -/
def cmdPulseReset : UInt8 := 0xfe

/-- The next byte sets the lights. -/
def kbdSetLeds : UInt8 := 0xed
/-- The keyboard answers an echo by the same byte. -/
def kbdEcho : UInt8 := 0xee
/-- The next byte chooses the scancode set. -/
def kbdScancodeSet : UInt8 := 0xf0
/-- Asks for the keyboard's two identification bytes. -/
def kbdGetId : UInt8 := 0xf2
/-- The next byte sets the repeat rate. -/
def kbdSetTypematic : UInt8 := 0xf3
/-- The keyboard is to send scancodes. -/
def kbdEnable : UInt8 := 0xf4
/-- The keyboard is to send no scancodes. -/
def kbdDisable : UInt8 := 0xf5
/-- The keyboard is to reset itself. -/
def kbdReset : UInt8 := 0xff
/-- The keyboard's answer to each byte it takes. -/
def kbdAck : UInt8 := 0xfa
/-- The keyboard's answer after a reset. -/
def kbdSelfTestOk : UInt8 := 0xaa
/-- The identification of an MF2 keyboard. -/
def kbdId : List UInt8 := [0xab, 0x83]

/-- What the device does, in order. -/
inductive I8042Event where
  /-- queues a byte for the guest -/
  | push (byte : UInt8)
  /-- moves a byte to the output buffer, under this configuration -/
  | load (byte config : UInt8)
  /-- drives IRQ 1 to a level -/
  | irq (level : Bool)
  /-- stops the VM -/
  | stop
  deriving DecidableEq, Repr

/-- The controller with its keyboard. `events` notes what reaches the rest of the VMM. -/
structure I8042 where
  config : UInt8
  /-- what the guest reads from 0x60 next; `queue` holds the rest -/
  output : Option UInt8
  queue : List UInt8
  /-- a controller command waiting for its byte on 0x60 -/
  controllerParam : Option UInt8
  /-- a keyboard command waiting for its parameter byte -/
  keyboardParam : Option UInt8
  statusCmd : Bool
  scanning : Bool
  irqLevel : Bool
  /-- which of the next `KVM_IRQ_LINE` calls fail; none once the list is used up -/
  irqLineFails : List Bool
  events : List I8042Event
  deriving DecidableEq, Repr

/-- What the controller does, and how it may fail. -/
abbrev I8042M (α : Type) : Type := Eff IoError I8042 α

namespace I8042

/-- The device as it is created; its calls to `KVM_IRQ_LINE` fail as given. -/
def new (irqLineFails : List Bool) : I8042 where
  config := configKbdInt ||| configSys ||| configAuxDisable ||| configTranslate
  output := none
  queue := []
  controllerParam := none
  keyboardParam := none
  statusCmd := false
  scanning := true
  irqLevel := false
  irqLineFails := irqLineFails
  events := []

/-- Notes an event. -/
def note (e : I8042Event) (self : I8042) : I8042 := { self with events := self.events ++ [e] }

/-- `self.output = self.queue.pop_front()` -/
def loadNext (self : I8042) : I8042 :=
  match self.queue with
  | [] => { self with output := none }
  | byte :: queue => { self.note (.load byte self.config) with output := some byte, queue := queue }

/-- A byte for the guest: into the output buffer if that is free, else behind what waits. -/
def push (byte : UInt8) (self : I8042) : I8042 :=
  let self := { self.note (.push byte) with queue := self.queue ++ [byte] }
  if self.output.isNone then self.loadNext else self

/-- The level IRQ 1 should have. -/
def level (self : I8042) : Bool := self.output.isSome && self.config &&& configKbdInt != 0

/-- `arch_update_irq` -/
def archUpdateIrq (level : Bool) : I8042M Unit := fun self =>
  match self.irqLineFails with
  | true :: fails => (.err .os, { self with irqLineFails := fails })
  | false :: fails => (.ok (), { self.note (.irq level) with irqLineFails := fails })
  | [] => (.ok (), self.note (.irq level))

/-- The interrupt line follows the output buffer, as the configuration has it. -/
def updateIrq : I8042M Unit := fun self =>
  if self.level ≠ self.irqLevel then
    archUpdateIrq self.level { self with irqLevel := self.level }
  else (.ok (), self)

/-- The guest takes the byte in the buffer; the next one takes its place. -/
def readData : I8042M UInt8 := do
  let byte ← Eff.gets fun self => self.output.getD 0
  Eff.modify fun self => { self with output := none }
  updateIrq
  Eff.modify loadNext
  pure byte

/-- The status register. -/
def status (self : I8042) : UInt8 :=
  let status := statusUnlocked
  let status := if self.output.isSome then status ||| statusObf else status
  let status := if self.config &&& configSys ≠ 0 then status ||| statusSys else status
  if self.statusCmd then status ||| Hearth.statusCmd else status

/-- A byte written to 0x64. -/
def controllerCommand (cmd : UInt8) (self : I8042) : I8042 :=
  if cmd = cmdReadConfig then self.push self.config
  else if cmd = cmdWriteConfig ∨ cmd = cmdWriteOutputPort ∨ cmd = cmdWriteKbdOutput then
    { self with controllerParam := some cmd }
  else if cmd = cmdAuxDisable then { self with config := self.config ||| configAuxDisable }
  else if cmd = cmdAuxEnable then { self with config := self.config &&& ~~~configAuxDisable }
  else if cmd = cmdSelfTest then
    push 0x55 { self with config := self.config ||| configSys }
  else if cmd = cmdKbdTest then self.push 0x00
  else if cmd = cmdKbdDisable then { self with config := self.config ||| configKbdDisable }
  else if cmd = cmdKbdEnable then { self with config := self.config &&& ~~~configKbdDisable }
  else if cmd = cmdPulseReset then self.note .stop
  else self

/-- The byte a controller command waited for. -/
def takeControllerParam (cmd byte : UInt8) (self : I8042) : I8042 :=
  if cmd = cmdWriteConfig then { self with config := byte }
  else if cmd = cmdWriteOutputPort ∧ byte &&& 1 = 0 then self.controllerCommand cmdPulseReset
  else if cmd = cmdWriteKbdOutput then self.push byte
  else self

/-- The parameter byte a keyboard command waited for. -/
def takeKeyboardParam (cmd byte : UInt8) (self : I8042) : I8042 :=
  if cmd = kbdScancodeSet ∧ byte = 0 then (self.push kbdAck).push 1 else self.push kbdAck

/-- A keyboard command that is not a parameter. -/
def newKeyboardCommand (byte : UInt8) (self : I8042) : I8042 :=
  if byte = kbdSetLeds ∨ byte = kbdScancodeSet ∨ byte = kbdSetTypematic then
    push kbdAck { self with keyboardParam := some byte }
  else if byte = kbdEcho then self.push kbdEcho
  else if byte = kbdGetId then kbdId.foldl (fun self b => self.push b) (self.push kbdAck)
  else if byte = Hearth.kbdEnable then push kbdAck { self with scanning := true }
  else if byte = Hearth.kbdDisable then push kbdAck { self with scanning := false }
  else if byte = kbdReset then
    (push kbdAck { self with scanning := true, queue := [] }).push kbdSelfTestOk
  else self.push kbdAck

/-- A byte written to 0x60 for the keyboard. -/
def keyboardCommand (byte : UInt8) (self : I8042) : I8042 :=
  -- writing to the keyboard enables its port
  let self := { self with config := self.config &&& ~~~configKbdDisable }
  match self.keyboardParam with
  | some cmd => takeKeyboardParam cmd byte { self with keyboardParam := none }
  | none => self.newKeyboardCommand byte

/-- `data[0] = byte` -/
def setFirst (data : List UInt8) (byte : UInt8) : I8042M (List UInt8) :=
  match data with
  | [] => Eff.panic
  | _ :: rest => pure (byte :: rest)

/-- The access itself: what is left in the access's bytes. -/
def access (io : PortIo) (data : List UInt8) : I8042M (List UInt8) :=
  if io.direction = kvmExitIoIn then
    if io.port = i8042Data then do
      let byte ← readData
      setFirst data byte
    else if io.port = i8042Command then do
      let byte ← Eff.gets status
      setFirst data byte
    else pure (data.map fun _ => 0xff)
  else if io.direction = kvmExitIoOut then
    if io.port = i8042Data then do
      Eff.modify fun self => { self with statusCmd := false }
      let param ← Eff.gets I8042.controllerParam
      Eff.modify fun self => { self with controllerParam := none }
      let byte ← Eff.unwrap data.head?
      match param with
      | some cmd => Eff.modify (takeControllerParam cmd byte)
      | none => Eff.modify (keyboardCommand byte)
      pure data
    else if io.port = i8042Command then do
      Eff.modify fun self => { self with statusCmd := true, controllerParam := none }
      let cmd ← Eff.unwrap data.head?
      Eff.modify (controllerCommand cmd)
      pure data
    else pure data
  else pure data

/-- `IODevice::handle`: the access works on the first `size` bytes of the buffer. -/
def handle (io : PortIo) (buffer : List UInt8) : I8042M (List UInt8) := do
  let data ← access io (buffer.take io.size.toNat)
  updateIrq
  pure (data ++ buffer.drop io.size.toNat)

end I8042

/-! ## Keysyms -/

/-- The bytes of a row of keys. -/
def asciiBytes (s : List Char) : List UInt8 := s.map fun c => UInt8.ofNat c.toNat

/-- The upper row of letters. -/
def rowQwerty : List UInt8 := asciiBytes ['q', 'w', 'e', 'r', 't', 'y', 'u', 'i', 'o', 'p']
/-- The middle row of letters. -/
def rowAsdf : List UInt8 := asciiBytes ['a', 's', 'd', 'f', 'g', 'h', 'j', 'k', 'l']
/-- The lower row of letters. -/
def rowZxcv : List UInt8 := asciiBytes ['z', 'x', 'c', 'v', 'b', 'n', 'm']

/-- `u8::to_ascii_lowercase` -/
def toAsciiLowercase (c : UInt8) : UInt8 := if 0x41 ≤ c ∧ c ≤ 0x5a then c + 0x20 else c

/-- The keys of the letters, by row. -/
def letterCode (keysym : UInt32) : Option UInt8 :=
  let c := toAsciiLowercase keysym.toUInt8
  match rowQwerty.idxOf? c with
  | some i => some (0x10 + UInt8.ofNat i)
  | none =>
    match rowAsdf.idxOf? c with
    | some i => some (0x1e + UInt8.ofNat i)
    | none => (rowZxcv.idxOf? c).map fun i => 0x2c + UInt8.ofNat i

/-- The keysyms with a code of their own. -/
def plainKeys : List (UInt32 × UInt8) :=
  [(0x21, 0x02), (0x40, 0x03), (0x23, 0x04), (0x24, 0x05), (0x25, 0x06),
    (0x5e, 0x07), (0x26, 0x08), (0x2a, 0x09), (0x28, 0x0a), (0x29, 0x0b),
    (0x2d, 0x0c), (0x5f, 0x0c), (0x3d, 0x0d), (0x2b, 0x0d), (0x5b, 0x1a), (0x7b, 0x1a),
    (0x5d, 0x1b), (0x7d, 0x1b), (0x3b, 0x27), (0x3a, 0x27), (0x27, 0x28), (0x22, 0x28),
    (0x60, 0x29), (0x7e, 0x29), (0x5c, 0x2b), (0x7c, 0x2b), (0x2c, 0x33), (0x3c, 0x33),
    (0x2e, 0x34), (0x3e, 0x34), (0x2f, 0x35), (0x3f, 0x35), (0x20, 0x39),
    (0xff1b, 0x01), (0xff08, 0x0e), (0xff09, 0x0f), (0xff0d, 0x1c), (0xffe3, 0x1d),
    (0xffe1, 0x2a), (0xffe2, 0x36), (0xffe9, 0x38), (0xffe5, 0x3a)]

/-- The keysyms whose code has an 0xe0 prefix. -/
def extendedKeys : List (UInt32 × UInt8) :=
  [(0xffe4, 0x1d), (0xffea, 0x38), (0xfe03, 0x38), (0xff50, 0x47), (0xff52, 0x48), (0xff55, 0x49),
    (0xff51, 0x4b), (0xff53, 0x4d), (0xff57, 0x4f), (0xff54, 0x50), (0xff56, 0x51), (0xff63, 0x52),
    (0xffff, 0x53)]

/-- X11 keysym to set 1 make code, US layout; `true` means an 0xe0 prefix. -/
def keysymToSet1 (keysym : UInt32) : Option (Bool × UInt8) :=
  if keysym = 0x30 then some (false, 0x0b)
  else if 0x31 ≤ keysym ∧ keysym ≤ 0x39 then some (false, keysym.toUInt8 - 0x31 + 0x02)
  else if 0x41 ≤ keysym ∧ keysym ≤ 0x5a ∨ 0x61 ≤ keysym ∧ keysym ≤ 0x7a then
    (letterCode keysym).map (false, ·)
  else if 0xffbe ≤ keysym ∧ keysym ≤ 0xffc7 then
    some (false, (keysym - 0xffbe).toUInt8 + 0x3b)
  else if keysym = 0xffc8 then some (false, 0x57)
  else if keysym = 0xffc9 then some (false, 0x58)
  else
    match plainKeys.lookup keysym with
    | some code => some (false, code)
    | none => (extendedKeys.lookup keysym).map (true, ·)

example : keysymToSet1 0x5a = some (false, 0x2c) := by decide
example : keysymToSet1 0xffc7 = some (false, 0x44) := by decide
example : keysymToSet1 0xffe4 = some (true, 0x1d) := by decide
example : keysymToSet1 0x1234 = none := by decide

/-- `Keyboard::key_event` -/
def I8042.keyEvent (down : Bool) (keysym : UInt32) : I8042M Unit := do
  let self ← Eff.gets id
  if ¬ self.scanning ∨ self.config &&& configKbdDisable ≠ 0 then pure ()
  else
    match keysymToSet1 keysym with
    | none => pure ()
    | some (extended, code) =>
      if extended then Eff.modify (push 0xe0)
      Eff.modify (push (if down then code else code ||| 0x80))
      updateIrq

end Hearth
