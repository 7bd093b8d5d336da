import Hearth.Console.Uart

/-!
# The interrupt and the input of the serial port

IRQ 4, the interrupt identification register and the line status register are three views
of one state. A session keeps beside the device what was typed, what the guest took from
port 0x3f8 while the line status announced data, and whether a transmitter interrupt was
raised and not identified since.
-/

namespace Hearth
open Lib

/-- The level of IRQ 4 after these events; it starts low. -/
def irq4Level (events : List UartEvent) : Bool :=
  events.foldl (fun l e => match e with | .irq level => level | .console _ => l) false

/-- The line is where it was last set. -/
lemma irq4Level_irq (events : List UartEvent) (level : Bool) :
    irq4Level (events ++ [.irq level]) = level := by
  simp [irq4Level]

/-- Printing leaves the line. -/
lemma irq4Level_console (events : List UartEvent) (byte : UInt8) :
    irq4Level (events ++ [.console byte]) = irq4Level events := by
  simp [irq4Level]

namespace Uart

/-- The interrupt is let through. -/
def mcrOut2 : UInt8 := 0x08
/-- No interrupt is pending. -/
def iirNoCause : UInt8 := 0x01
/-- The transmitter is empty. -/
def iirThrEmpty : UInt8 := 0x02
/-- A received byte waits. -/
def lsrDataReady : UInt8 := 0x01

/-- What a read of the interrupt identification register would return. -/
def iir (self : Uart) : UInt8 := (self.effect (.inp 0x3fa 0)).1

/-- What a read of the line status register would return. -/
def lineStatus (self : Uart) : UInt8 := (self.effect (.inp 0x3fd 0)).1

/-- The device and what has been said of its input and its transmitter. -/
structure Session where
  uart : Uart
  /-- the bytes that were typed -/
  typed : List UInt8
  /-- the bytes read from port 0x3f8 while data were ready -/
  taken : List UInt8
  /-- a transmitter interrupt was raised, and no read of the
  identification register named it since -/
  raised : Bool

namespace Session

/-- At first nothing has been typed or read. -/
def new (fails : List Bool) : Session := ⟨Uart.new fails, [], [], false⟩

/-- The access takes a byte that was announced. -/
def Takes (uart : Uart) (a : ByteAccess) : Prop :=
  a.direction = kvmExitIoIn ∧ a.port = 0x3f8 ∧ uart.lineStatus &&& lsrDataReady ≠ 0

/-- The access raises the transmitter's interrupt: a byte is
transmitted, or the interrupt enabled. -/
def Raises (uart : Uart) (a : ByteAccess) : Prop :=
  a.direction = kvmExitIoOut ∧
    (a.port = 0x3f8 ∨ a.port = 0x3f9 ∧ a.byte &&& 0x02 ≠ 0 ∧ uart.ier &&& 0x02 = 0)

/-- The access identifies the transmitter's interrupt, if it returns `byte`. -/
def Names (a : ByteAccess) (byte : UInt8) : Prop :=
  a.direction = kvmExitIoIn ∧ a.port = 0x3fa ∧ byte &&& 0x0f = iirThrEmpty

/-- It is decided by the access and the buffer. -/
instance (uart : Uart) (a : ByteAccess) : Decidable (Takes uart a) := by
  unfold Takes; infer_instance

/-- It is decided by the access and the registers. -/
instance (uart : Uart) (a : ByteAccess) : Decidable (Raises uart a) := by
  unfold Raises; infer_instance

/-- It is decided by the port. -/
instance (a : ByteAccess) (byte : UInt8) : Decidable (Names a byte) := by
  unfold Names; infer_instance

/-- An operation that does not fail. -/
inductive Step (s : Session) : Session → Prop where
  | sendChar (ch : UInt8) {uart' : Uart} (run : sendChar ch s.uart = (.ok (), uart')) :
      Step s { s with uart := uart', typed := s.typed ++ [ch] }
  | access (a : ByteAccess) {byte : UInt8} {uart' : Uart}
      (run : handle a.io [a.byte] s.uart = (.ok [byte], uart')) :
      Step s
        { s with
          uart := uart'
          taken := if Takes s.uart a then s.taken ++ [byte] else s.taken
          raised := if Raises s.uart a then true else if Names a byte then false else s.raised }

/-- What typing and accesses lead to. -/
abbrev Reachable (fails : List Bool) : Session → Prop := Reach (· = new fails) Step

end Session

/-! ## The line -/

/-- The device drives the line as it thinks it does. -/
def LineKept (self : Uart) : Prop := irq4Level self.events = self.irqLevel

/-- Updating the line brings it to the level, and changes nothing else. -/
lemma LineKept.updateIrq {self self' : Uart} (h : self.LineKept)
    (run : updateIrq self = (.ok (), self')) :
    self' = { self with irqLevel := self.level, irqLineFails := self'.irqLineFails
                        events := self'.events } ∧
      irq4Level self'.events = self.level := by
  unfold Uart.updateIrq at run
  split at run
  · unfold archUpdateIrq at run
    split at run
    · cases run
    · cases run
      exact ⟨rfl, irq4Level_irq _ _⟩
    · cases run
      exact ⟨rfl, irq4Level_irq _ _⟩
  · next hl =>
    cases run
    have hl : self.level = self.irqLevel := not_not.mp hl
    refine ⟨?_, h.trans hl.symm⟩
    rw [hl]

/-! ## Accesses -/

/-- What an access that returns `byte` does before the line is updated. -/
structure Change (a : ByteAccess) (u : Uart) (byte : UInt8) (u' : Uart) : Prop where
  irqLevel : u'.irqLevel = u.irqLevel
  line : irq4Level u'.events = irq4Level u.events
  rx : if Session.Takes u a then u.rx = byte :: u'.rx else u'.rx = u.rx
  thr : u'.thrIpending = if Session.Raises u a then true
    else if Session.Names a byte then false else u.thrIpending

/-- A write to a port other than 0x3f8 and 0x3f9 touches none of it. -/
lemma Change.of_out {a : ByteAccess} {self self' : Uart} (ho : a.direction = kvmExitIoOut)
    (h8 : a.port ≠ 0x3f8) (h9 : a.port ≠ 0x3f9) (irqLevel : self'.irqLevel = self.irqLevel)
    (events : self'.events = self.events) (rx : self'.rx = self.rx)
    (thr : self'.thrIpending = self.thrIpending) : Change a self a.byte self' where
  irqLevel := irqLevel
  line := congrArg irq4Level events
  rx := by
    rw [if_neg fun h => absurd (ho.symm.trans h.1) (by decide)]
    exact rx
  thr := by
    rw [if_neg fun h => h.2.elim h8 fun h => h9 h.1,
      if_neg fun h => absurd (ho.symm.trans h.1) (by decide)]
    exact thr

/-- A read that neither takes a byte nor identifies the transmitter's interrupt. -/
lemma Change.of_in {a : ByteAccess} {self : Uart} {byte : UInt8} (ho : a.direction ≠ kvmExitIoOut)
    (takes : ¬ Session.Takes self a) (names : ¬ Session.Names a byte) :
    Change a self byte self where
  irqLevel := rfl
  line := rfl
  rx := by rw [if_neg takes]
  thr := by rw [if_neg fun h => ho h.1, if_neg names]

/-- What a transmitted byte changes. -/
lemma transmit_change {a : ByteAccess} (self : Uart) (ho : a.direction = kvmExitIoOut)
    (hp : a.port = 0x3f8) : Change a self a.byte (transmit a.byte self) where
  irqLevel := by unfold transmit; split <;> rfl
  line := by
    unfold transmit
    split
    · exact (irq4Level_console _ _).trans (irq4Level_console _ _)
    · exact irq4Level_console _ _
  rx := by
    rw [if_neg fun h => absurd (ho.symm.trans h.1) (by decide)]
    unfold transmit
    split <;> rfl
  thr := by
    rw [if_pos ⟨ho, .inl hp⟩]
    rfl

/-- What a write to the interrupt enable register changes. -/
lemma writeIer_change {a : ByteAccess} (self : Uart) (ho : a.direction = kvmExitIoOut)
    (hp : a.port = 0x3f9) : Change a self a.byte (writeIer a.byte self) where
  irqLevel := rfl
  line := rfl
  rx := by
    rw [if_neg fun h => absurd (ho.symm.trans h.1) (by decide)]
    rfl
  thr := by
    have hbit : a.byte &&& 0x0f &&& 0x02 = a.byte &&& 0x02 := UInt8.and_assoc a.byte 0x0f 0x02
    have hin : ¬ Session.Names a a.byte := fun h => absurd (ho.symm.trans h.1) (by decide)
    show (self.thrIpending || (a.byte &&& 0x0f &&& 0x02 != 0 && self.ier &&& 0x02 == 0)) = _
    rw [hbit, if_neg hin]
    by_cases h : a.byte &&& 0x02 ≠ 0 ∧ self.ier &&& 0x02 = 0
    · rw [if_pos ⟨ho, .inr ⟨hp, h⟩⟩]
      simp [h.1, h.2]
    · have hr : ¬ Session.Raises self a := fun hr =>
        hr.2.elim (fun h8 => absurd (hp.symm.trans h8) (by decide)) fun h9 => h h9.2
      rw [if_neg hr]
      grind

/-- Data are announced when there are some. -/
lemma lineStatus_ready (self : Uart) : self.lineStatus &&& lsrDataReady ≠ 0 ↔ self.rx ≠ [] := by
  show self.lsr &&& 0x01 ≠ 0 ↔ _
  unfold lsr
  cases self.rx with
  | nil => decide
  | cons byte rx =>
    exact iff_of_true (show (0x61 : UInt8) &&& 0x01 ≠ 0 by decide) (List.cons_ne_nil byte rx)

/-- What reading a received byte changes. -/
lemma readRx_change {a : ByteAccess} (self : Uart) (hi : a.direction = kvmExitIoIn)
    (hp : a.port = 0x3f8) : Change a self (self.rx.headD 0) { self with rx := self.rx.tail } where
  irqLevel := rfl
  line := rfl
  rx := by
    cases hrx : self.rx with
    | nil =>
      rw [if_neg fun h => (lineStatus_ready self).mp h.2.2 hrx]
      rfl
    | cons byte rx =>
      have ready : self.rx ≠ [] := hrx ▸ List.cons_ne_nil byte rx
      rw [if_pos ⟨hi, hp, (lineStatus_ready self).mpr ready⟩]
      rfl
  thr := by
    have hr : ¬ Session.Raises self a := fun h => absurd (hi.symm.trans h.1) (by decide)
    have hn : ∀ byte, ¬ Session.Names a byte := fun _ h => absurd (hp.symm.trans h.2.1) (by decide)
    rw [if_neg hr, if_neg (hn _)]

/-- The FIFO bits of the identification register do not change the rest of it. -/
lemma readIir_eq (self : Uart) : ∃ fifo, (fifo = 0xc0 ∨ fifo = 0) ∧ self.readIir =
    if self.rxCause then (fifo ||| 0x04, self)
    else if self.thrCause then (fifo ||| 0x02, { self with thrIpending := false })
    else (fifo ||| 0x01, self) := by
  refine ⟨if self.fcr &&& 0x01 ≠ 0 then 0xc0 else 0, ?_, rfl⟩
  split
  · exact .inl rfl
  · exact .inr rfl

/-- What reading the cause changes: a pending transmitter interrupt is acknowledged. -/
lemma readIir_change {a : ByteAccess} (self : Uart) (hi : a.direction = kvmExitIoIn)
    (hp : a.port = 0x3fa) : Change a self self.readIir.1 self.readIir.2 := by
  have ho : a.direction ≠ kvmExitIoOut := fun h => absurd (hi.symm.trans h) (by decide)
  have ht : ¬ Session.Takes self a := fun h => absurd (hp.symm.trans h.2.1) (by decide)
  obtain ⟨fifo, hf, e⟩ := self.readIir_eq
  rw [e]
  split
  · apply Change.of_in ho ht
    show ¬ Session.Names a (fifo ||| 0x04)
    rintro ⟨-, -, h⟩
    rcases hf with rfl | rfl
    · exact absurd h (by decide)
    · exact absurd h (by decide)
  · split
    · have hn : Session.Names a (fifo ||| 0x02) := by
        rcases hf with rfl | rfl
        · exact ⟨hi, hp, by decide⟩
        · exact ⟨hi, hp, by decide⟩
      refine ⟨rfl, rfl, ?_, ?_⟩
      · rw [if_neg ht]
      · rw [if_neg fun h => ho h.1, if_pos hn]
    · apply Change.of_in ho ht
      show ¬ Session.Names a (fifo ||| 0x01)
      rintro ⟨-, -, h⟩
      rcases hf with rfl | rfl
      · exact absurd h (by decide)
      · exact absurd h (by decide)

/-- Reads of the ports without side effects. -/
lemma readPort_same {port : UInt16} (self : Uart) (h8 : port ≠ 0x3f8) (ha : port ≠ 0x3fa) :
    (self.readPort port).2 = self := by
  unfold readPort
  rw [if_neg h8]
  repeat' split
  all_goals rfl

/-- Writes to the other ports store the byte in a register that nothing here depends on. -/
lemma writePort_change {a : ByteAccess} {write : UInt8 → Uart → Uart} (self : Uart)
    (h : writePort a.port = some write) (ho : a.direction = kvmExitIoOut)
    (h8 : a.port ≠ 0x3f8) (h9 : a.port ≠ 0x3f9) : Change a self a.byte (write a.byte self) := by
  unfold writePort at h
  rw [if_neg h8, if_neg h9] at h
  repeat' split at h
  all_goals
    cases h
    try exact Change.of_out ho h8 h9 rfl rfl rfl rfl

/-- Every access changes what `Change` says. -/
lemma effect_change (a : ByteAccess) (self : Uart) :
    Change a self (self.effect a).1 (self.effect a).2 := by
  unfold effect
  split
  · next ho =>
    by_cases h8 : a.port = 0x3f8
    · rw [show writePort a.port = some transmit from if_pos h8]
      exact transmit_change self ho h8
    · by_cases h9 : a.port = 0x3f9
      · rw [show writePort a.port = some writeIer from (if_neg h8).trans (if_pos h9)]
        exact writeIer_change self ho h9
      · cases hw : writePort a.port with
        | some write => exact writePort_change self hw ho h8 h9
        | none => exact Change.of_out ho h8 h9 rfl rfl rfl rfl
  · next ho =>
    split
    · next hi =>
      by_cases h8 : a.port = 0x3f8
      · rw [show self.readPort a.port = _ from if_pos h8]
        exact readRx_change self hi h8
      · by_cases ha : a.port = 0x3fa
        · rw [ha]
          exact readIir_change self hi ha
        · rw [readPort_same self h8 ha]
          exact Change.of_in ho (fun h => h8 h.2.1) fun h => ha h.2.1
    · next hi => exact Change.of_in ho (fun h => hi h.1) fun h => hi h.1

/-! ## Sessions -/

namespace Session

/-- What holds between operations. -/
structure Inv (s : Session) : Prop where
  line : irq4Level s.uart.events = s.uart.irqLevel
  level : s.uart.irqLevel = s.uart.level
  bytes : s.taken ++ s.uart.rx = s.typed
  thr : s.uart.thrIpending = s.raised

/-- A new console meets the invariant. -/
lemma new_inv (fails : List Bool) : (new fails).Inv :=
  ⟨rfl, by simp [new, Uart.new, level], rfl, rfl⟩

/-- The invariant after the line was updated, from what the update leaves alone. -/
lemma Inv.updateIrq (uart : Uart) {uart' : Uart} {typed taken : List UInt8} {raised : Bool}
    (line : irq4Level uart.events = uart.irqLevel) (bytes : taken ++ uart.rx = typed)
    (thr : uart.thrIpending = raised) (run : updateIrq uart = (.ok (), uart')) :
    (⟨uart', typed, taken, raised⟩ : Session).Inv := by
  obtain ⟨e, hl⟩ := LineKept.updateIrq line run
  rw [e]
  exact ⟨hl, rfl, bytes, thr⟩

/-- Typing and accesses keep it. -/
lemma Step.inv {s s' : Session} (h : s.Inv) (st : Step s s') : s'.Inv := by
  cases st with
  | sendChar ch run =>
    have bytes : s.taken ++ (s.uart.rx ++ [ch]) = s.typed ++ [ch] := by
      rw [← List.append_assoc, h.bytes]
    exact Inv.updateIrq { s.uart with rx := s.uart.rx ++ [ch] } h.line bytes h.thr run
  | @access a byte uart' run =>
    have change := effect_change a s.uart
    obtain ⟨e, run₁⟩ :
      (s.uart.effect a).1 = byte ∧ updateIrq (s.uart.effect a).2 = (.ok (), uart') := by
      change (UartOp.access a).run s.uart = _ at run
      rw [UartOp.run_eq] at run
      change ((updateIrq (s.uart.effect a).2).1.map fun _ => [(s.uart.effect a).1],
        (updateIrq (s.uart.effect a).2).2) = _ at run
      rcases h : updateIrq (s.uart.effect a).2 with ⟨o, u⟩
      rw [h] at run
      cases o <;> cases run
      exact ⟨rfl, rfl⟩
    cases e
    refine Inv.updateIrq _ (change.line.trans (h.line.trans change.irqLevel.symm)) ?_ ?_ run₁
    · have rx := change.rx
      split
      · next ht =>
        rw [if_pos ht] at rx
        rw [List.append_assoc, List.singleton_append, ← rx, h.bytes]
      · next ht =>
        rw [if_neg ht] at rx
        rw [rx, h.bytes]
    · rw [change.thr, h.thr]

/-- It holds in every reachable state. -/
lemma Reachable.inv {fails : List Bool} {s : Session} (h : Reachable fails s) : s.Inv := by
  apply Reach.invariant (I := Inv) _ _ h
  · rintro s rfl
    exact new_inv fails
  · exact fun s s' hs st => st.inv hs

end Session

/-- What the identification register says of the two causes: it prefers the received byte. -/
lemma iir_cases (self : Uart) :
    (self.iir &&& iirNoCause = 0 ↔ self.rxCause = true ∨ self.thrCause = true) ∧
      (self.iir &&& 0x0f = iirThrEmpty ↔ self.rxCause = false ∧ self.thrCause = true) := by
  obtain ⟨fifo, hf, e⟩ := self.readIir_eq
  have hiir : self.iir = fifo ||| if self.rxCause then 0x04 else if self.thrCause then 0x02
    else 0x01 := by
    show self.readIir.1 = _
    rw [e]
    split
    · rfl
    · split <;> rfl
  rw [hiir]
  generalize self.rxCause = rx
  generalize self.thrCause = thr
  rcases hf with rfl | rfl
  · cases rx <;> cases thr <;> decide
  · cases rx <;> cases thr <;> decide

/-- After every operation, IRQ 4 is high exactly when the guest lets it through and a read of the
identification register would report a cause; a transmitter interrupt that was raised and not named
since is pending, so that it is named as soon as it is enabled and no received byte comes before it;
and what the guest took is what was typed, up to the bytes that still wait. -/
theorem line_iir_input_agree {fails : List Bool} {s : Session} (h : Session.Reachable fails s) :
    (irq4Level s.uart.events = true ↔ s.uart.mcr &&& mcrOut2 ≠ 0 ∧ s.uart.iir &&& iirNoCause = 0) ∧
      (s.uart.thrIpending = s.raised ∧ (s.uart.iir &&& 0x0f = iirThrEmpty ↔
        s.raised = true ∧ s.uart.ier &&& 0x02 ≠ 0 ∧ s.uart.rxCause = false)) ∧
      s.taken ++ s.uart.rx = s.typed := by
  have inv := h.inv
  obtain ⟨hno, hthr⟩ := s.uart.iir_cases
  refine ⟨?_, ⟨inv.thr, ?_⟩, inv.bytes⟩
  · rw [inv.line, inv.level, hno]
    simp [level, mcrOut2]
  · rw [hthr, ← inv.thr]
    simp [thrCause]
    tauto

namespace Session

/-- The guest has let the interrupt through and enabled it for received bytes. -/
def listening : Uart := { Uart.new [] with mcr := mcrOut2, ier := 0x01 }

/-- And `a` is typed. -/
def oneTyped : Session := ⟨(sendChar 0x61 listening).2, [0x61], [], false⟩

/-- The interrupt is enabled and a byte typed. -/
lemma oneTyped_reachable : Reachable [] oneTyped := by
  have h : Reachable [] ⟨{ Uart.new [] with mcr := mcrOut2 }, [], [], false⟩ :=
    .step (.init rfl) (.access (.out 0x3fc mcrOut2) rfl)
  have h' : Reachable [] ⟨listening, [], [], false⟩ := .step h (.access (.out 0x3f9 0x01) rfl)
  exact .step h' (.sendChar 0x61 rfl)

end Session

/-- The byte has raised the line. -/
theorem typed_raises_line : irq4Level Session.oneTyped.uart.events = true :=
  (line_iir_input_agree Session.oneTyped_reachable).1.mpr (by decide)

end Uart

end Hearth
