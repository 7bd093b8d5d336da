import Hearth.Console.Uart

/-!
# What the serial port prints

The console gets every byte written to port 0x3f8. The device has no divisor latch: the line control
register is kept, but nothing depends on it, its bit 7 (the divisor latch access bit) included.
-/

namespace Hearth
open Lib

/-- The bytes that these events put on the console. -/
def consoleBytes (events : List UartEvent) : List UInt8 :=
  events.filterMap fun e => match e with | .console byte => some byte | .irq _ => none

/-- What is printed first comes first. -/
@[simp] lemma consoleBytes_append (events log : List UartEvent) :
    consoleBytes (events ++ log) = consoleBytes events ++ consoleBytes log :=
  List.filterMap_append

/-- The interrupt line prints nothing. -/
lemma consoleBytes_irqs {log : List UartEvent} (h : ∀ e ∈ log, ∃ l, e = .irq l) :
    consoleBytes log = [] := by
  apply List.filterMap_eq_nil_iff.mpr
  intro e he
  obtain ⟨l, rfl⟩ := h e he
  rfl

/-- A newline is preceded by a carriage return. -/
def withReturn (byte : UInt8) : List UInt8 := if byte = 0x0a then [0x0d, byte] else [byte]

/-- What an operation transmits: the byte of a write to port 0x3f8. -/
def UartOp.transmitted : UartOp → List UInt8
  | .access a => if a.direction = kvmExitIoOut ∧ a.port = 0x3f8 then [a.byte] else []
  | .sendChar _ => []

namespace Uart

/-- The state after these operations, whether they failed or not. -/
def runOps (ops : List UartOp) (self : Uart) : Uart := ops.foldl (fun s op => (op.run s).2) self

/-- The first operation is run first. -/
@[simp] lemma runOps_cons (op : UartOp) (ops : List UartOp) (self : Uart) :
    runOps (op :: ops) self = runOps ops (op.run self).2 := rfl

/-! ## Console output -/

/-- Nothing is printed when the line is updated. -/
lemma updateIrq_prints (self : Uart) :
    consoleBytes (updateIrq self).2.events = consoleBytes self.events := by
  obtain ⟨irqLevel, fails, log, hlog, e⟩ := updateIrq_frame self
  rw [e]
  show consoleBytes (self.events ++ log) = _
  rw [consoleBytes_append, consoleBytes_irqs hlog, List.append_nil]

/-- A transmitted byte is printed, a line feed with a carriage return behind it. -/
lemma transmit_prints (byte : UInt8) (self : Uart) :
    consoleBytes (transmit byte self).events = consoleBytes self.events ++ withReturn byte := by
  unfold transmit withReturn
  split
  · show consoleBytes ((self.events ++ [_]) ++ [_]) = _
    rw [List.append_assoc, consoleBytes_append]
    rfl
  · exact consoleBytes_append _ _

/-- Writes to the other ports print nothing. -/
lemma writePort_prints {port : UInt16} {write : UInt8 → Uart → Uart}
    (h : writePort port = some write) (ne : port ≠ 0x3f8) (byte : UInt8) (self : Uart) :
    (write byte self).events = self.events := by
  unfold writePort at h
  rw [if_neg ne] at h
  repeat' split at h
  all_goals
    cases h
    try rfl

/-- Reading a register prints nothing. -/
lemma readPort_prints (port : UInt16) (self : Uart) :
    (self.readPort port).2.events = self.events := by
  unfold readPort readIir
  repeat' split
  all_goals rfl

/-- An access prints what it transmits. -/
lemma effect_prints (a : ByteAccess) (self : Uart) :
    consoleBytes (self.effect a).2.events =
      consoleBytes self.events ++ (UartOp.access a).transmitted.flatMap withReturn := by
  by_cases ho : a.direction = kvmExitIoOut
  · have heff : self.effect a = _ := if_pos ho
    by_cases hp : a.port = 0x3f8
    · rw [heff, hp, show (UartOp.access a).transmitted = [a.byte] from if_pos ⟨ho, hp⟩,
        List.flatMap_singleton]
      exact transmit_prints a.byte self
    · rw [show (UartOp.access a).transmitted = [] from if_neg fun h => hp h.2, List.flatMap_nil,
        List.append_nil, heff]
      cases hw : writePort a.port with
      | some write => exact congrArg consoleBytes (writePort_prints hw hp a.byte self)
      | none => rfl
  · rw [show (UartOp.access a).transmitted = [] from if_neg fun h => ho h.1, List.flatMap_nil,
      List.append_nil]
    have heff : self.effect a = _ := if_neg ho
    rw [heff]
    split
    · exact congrArg consoleBytes (readPort_prints a.port self)
    · rfl

/-- What one operation adds to the console. -/
lemma run_prints (op : UartOp) (self : Uart) :
    consoleBytes (op.run self).2.events =
      consoleBytes self.events ++ op.transmitted.flatMap withReturn := by
  rw [op.run_eq, updateIrq_prints]
  cases op with
  | access a => exact effect_prints a self
  | sendChar ch => exact (List.append_nil _).symm

/-- A run prints what its operations transmit, in order. -/
lemma runOps_prints (ops : List UartOp) (self : Uart) :
    consoleBytes (runOps ops self).events =
      consoleBytes self.events ++ (ops.flatMap UartOp.transmitted).flatMap withReturn := by
  induction ops generalizing self with
  | nil => exact (List.append_nil _).symm
  | cons op ops ih =>
    rw [runOps_cons, ih, run_prints, List.flatMap_cons, List.flatMap_append, List.append_assoc]

/-! ## The line control register -/

/-- Changing the line control register first, and doing it afterwards to another value. -/
lemma writePort_lcr {port : UInt16} {write : UInt8 → Uart → Uart} (h : writePort port = some write)
    (byte l : UInt8) (self : Uart) : ∃ l', write byte { self with lcr := l } =
      { write byte self with lcr := l' } := by
  unfold writePort at h
  repeat' split at h
  all_goals cases h
  · refine ⟨l, ?_⟩
    unfold transmit
    split
    · rfl
    · rfl
  · exact ⟨l, rfl⟩
  · exact ⟨l, rfl⟩
  · exact ⟨byte, rfl⟩
  · exact ⟨l, rfl⟩
  · exact ⟨l, rfl⟩

/-- Reading the cause does not look at the line control register. -/
lemma readIir_lcr (l : UInt8) (self : Uart) :
    readIir { self with lcr := l } = (self.readIir.1, { self.readIir.2 with lcr := l }) := by
  unfold readIir
  show (if self.rxCause then _ else if self.thrCause then _ else _) = _
  split
  · rfl
  · split
    · rfl
    · rfl

/-- Of the reads only that of the register itself does. -/
lemma readPort_lcr (port : UInt16) (l : UInt8) (self : Uart) :
    readPort port { self with lcr := l } =
      ((self.readPort port).1, { (self.readPort port).2 with lcr := l }) := by
  unfold readPort
  repeat' split
  case isFalse.isFalse.isFalse.isTrue => exact readIir_lcr l self
  all_goals rfl

/-- What an access does is the same with another line control register. -/
lemma effect_lcr (a : ByteAccess) (l : UInt8) (self : Uart) : ∃ l',
    effect a { self with lcr := l } =
      ((self.effect a).1, { (self.effect a).2 with lcr := l' }) := by
  unfold effect
  split
  · cases hw : writePort a.port with
    | some write =>
      obtain ⟨l', e⟩ := writePort_lcr hw a.byte l self
      exact ⟨l', congrArg _ e⟩
    | none => exact ⟨l, rfl⟩
  · split
    · exact ⟨l, readPort_lcr a.port l self⟩
    · exact ⟨l, rfl⟩

/-- The interrupt line does not depend on the line control register. -/
lemma archUpdateIrq_lcr (level : Bool) (l : UInt8) (self : Uart) :
    archUpdateIrq level { self with lcr := l } =
      ((archUpdateIrq level self).1, { (archUpdateIrq level self).2 with lcr := l }) := by
  rcases self with ⟨ier, fcr, lcr, mcr, scr, thrIpending, irqLevel, rx, irqLineFails, events⟩
  cases irqLineFails with
  | nil => rfl
  | cons fail fails =>
    cases fail with
    | true => rfl
    | false => rfl

/-- Updating the line does not depend on the line control register. -/
lemma updateIrq_lcr (l : UInt8) (self : Uart) :
    updateIrq { self with lcr := l } =
      ((updateIrq self).1, { (updateIrq self).2 with lcr := l }) := by
  unfold updateIrq
  show (if self.level ≠ self.irqLevel then _ else _) = _
  split
  · exact archUpdateIrq_lcr self.level l { self with irqLevel := self.level }
  · rfl

/-- An operation does the same with another line control register. -/
lemma run_lcr (op : UartOp) (l : UInt8) (self : Uart) : ∃ l',
    op.run { self with lcr := l } = ((op.run self).1, { (op.run self).2 with lcr := l' }) := by
  have heff : ∃ l', op.effect { self with lcr := l } =
      ((op.effect self).1, { (op.effect self).2 with lcr := l' }) := by
    cases op with
    | access a =>
      obtain ⟨l', e⟩ := effect_lcr a l self
      exact ⟨l', congrArg (fun r => ([r.1], r.2)) e⟩
    | sendChar ch => exact ⟨l, rfl⟩
  obtain ⟨l', e⟩ := heff
  refine ⟨l', ?_⟩
  rw [op.run_eq, op.run_eq, e, updateIrq_lcr]

/-- A run does the same with another line control register, by induction on its operations. -/
lemma runOps_lcr (ops : List UartOp) (l : UInt8) (self : Uart) :
    ∃ l', runOps ops { self with lcr := l } = { runOps ops self with lcr := l' } := by
  induction ops generalizing l self with
  | nil => exact ⟨l, rfl⟩
  | cons op ops ih =>
    obtain ⟨l', e⟩ := run_lcr op l self
    rw [runOps_cons, e]
    exact ih l' (op.run self).2

/-- Whatever guest and terminal do, the console gets exactly the bytes written to port
0x3f8, in order and with a carriage return before each newline. And whatever value the line
control register has in a state that is reached, what follows returns the same and leaves
the rest of the state the same. -/
theorem console_gets_transmitted (fails : List Bool) (ops : List UartOp) :
    consoleBytes (runOps ops (new fails)).events =
        (ops.flatMap UartOp.transmitted).flatMap withReturn ∧
      ∀ (lcr : UInt8) (later : List UartOp) (op : UartOp), ∃ lcr',
        runOps later { runOps ops (new fails) with lcr := lcr } =
            { runOps later (runOps ops (new fails)) with lcr := lcr' } ∧
          (op.run { runOps later (runOps ops (new fails)) with lcr := lcr' }).1 =
            (op.run (runOps later (runOps ops (new fails)))).1 := by
  refine ⟨runOps_prints ops (new fails), fun lcr later op => ?_⟩
  obtain ⟨lcr', e⟩ := runOps_lcr later lcr (runOps ops (new fails))
  refine ⟨lcr', e, ?_⟩
  obtain ⟨l, e'⟩ := run_lcr op lcr' (runOps later (runOps ops (new fails)))
  rw [e']

/-! ## A divisor latch -/

/-- The divisor latch access bit. -/
def lcrDlab : UInt8 := 0x80

/-- What a port with a divisor latch transmits: the bytes written to port 0x3f8 while bit 7 of the
last value written to the line control register is clear. -/
def latchedBytes (lcr : UInt8) : List ByteAccess → List UInt8
  | [] => []
  | a :: rest =>
    if a.direction = kvmExitIoOut ∧ a.port = 0x3fb then latchedBytes a.byte rest
    else if a.direction = kvmExitIoOut ∧ a.port = 0x3f8 ∧ lcr &&& lcrDlab = 0 then
      a.byte :: latchedBytes lcr rest
    else latchedBytes lcr rest

/-- Setting the bit and writing the low half of a divisor prints it. -/
theorem divisor_printed : ¬ ∀ accesses : List ByteAccess,
    consoleBytes (runOps (accesses.map .access) (new [])).events =
      (latchedBytes 0 accesses).flatMap withReturn := by
  intro h
  have := h [.out 0x3fb 0x80, .out 0x3f8 0x41]
  revert this
  decide

end Uart

end Hearth
