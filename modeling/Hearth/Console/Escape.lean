import Hearth.Console.Uart

/-!
# Escapes on the terminal

`start_tty` of `frontend/serial.rs`: the thread that reads standard input and passes it to a serial
port. The port is any that has a `send_char`; the bytes after the escape byte 0x01 are commands.
-/

namespace Hearth
open Lib

/-- What the thread holds: the serial port it locks, the terminal and the VM's control. -/
structure Terminal (σ : Type) where
  uart : σ
  /-- standard output is a terminal -/
  isTty : Bool
  /-- it is in raw mode -/
  raw : Bool
  /-- the VM was told to stop -/
  stopped : Bool

/-- What the terminal's loop does. -/
abbrev TerminalM (σ α : Type) : Type := Eff IoError (Terminal σ) α

namespace Terminal

variable {σ : Type} (sendChar : UInt8 → Eff IoError σ Unit)

/-- `'x'` -/
def quitByte : UInt8 := 0x78

/-- The byte that escapes. -/
def escapeByte : UInt8 := 0x01

/-- `stdout().into_raw_mode().unwrap()` -/
def intoRawMode : TerminalM σ Unit := do
  let isTty ← Eff.gets Terminal.isTty
  if isTty then Eff.modify fun self => { self with raw := true } else Eff.panic

/-- `drop(raw)` -/
def dropRaw : TerminalM σ Unit := Eff.modify fun self => { self with raw := false }

/-- `control.stop()` -/
def stop : TerminalM σ Unit := Eff.modify fun self => { self with stopped := true }

/-- `uart_async.lock().unwrap().send_char(b).unwrap()` -/
def pass (b : UInt8) : TerminalM σ Unit := fun self =>
  let (o, uart) := sendChar b self.uart
  let self := { self with uart := uart }
  match o with
  | .err _ => (.panic, self)
  | o => (o, self)

/-- The loop over the bytes of standard input, some of whose reads can fail. -/
def ttyLoop : (isEscape : Bool) → List (Except IoError UInt8) → TerminalM σ Unit
  | _, [] => pure ()
  | _, .error _ :: _ => Eff.panic
  | isEscape, .ok b :: bytes =>
    if isEscape = false ∧ b = escapeByte then ttyLoop true bytes
    else if isEscape = true ∧ b = quitByte then pure ()
    else if isEscape = true ∧ b ≠ escapeByte then ttyLoop false bytes
    else do
      pass sendChar b
      ttyLoop false bytes

/-- The loop of `start_tty`, over the bytes that are typed. -/
def startTty (bytes : List (Except IoError UInt8)) : TerminalM σ Unit := do
  intoRawMode
  ttyLoop sendChar false bytes
  dropRaw
  stop

/-! ## What is delivered -/

/-- What a stream stands for: escapes taken two bytes at a time. -/
def unescape : List UInt8 → List UInt8
  | [] => []
  | [b] => if b = escapeByte then [] else [b]
  | b :: c :: stream =>
    if b = escapeByte then
      if c = escapeByte then escapeByte :: unescape stream
      else if c = quitByte then []
      else unescape stream
    else b :: unescape (c :: stream)

/-- How a string is typed. -/
def escape : List UInt8 → List UInt8
  | [] => []
  | b :: s => if b = escapeByte then b :: b :: escape s else b :: escape s

/-- Passes these bytes, one by one. -/
def passAll : List UInt8 → TerminalM σ Unit
  | [] => pure ()
  | b :: s => do
    pass sendChar b
    passAll s

/-- Bytes are passed on one after the other. -/
lemma passAll_append (s t : List UInt8) :
    passAll sendChar (s ++ t) = passAll sendChar s >>= fun _ => passAll sendChar t := by
  induction s with
  | nil => rfl
  | cons b s ih =>
    show (pass sendChar b >>= fun _ => passAll sendChar (s ++ t)) = _
    rw [ih]
    exact (Eff.bind_assoc _ _ _).symm

/-- Any other byte is passed on. -/
lemma unescape_cons {b : UInt8} (h : b ≠ escapeByte) (stream : List UInt8) :
    unescape (b :: stream) = b :: unescape stream := by
  cases stream with
  | nil => exact if_neg h
  | cons c stream => exact if_neg h

/-- With the escape flag set the loop goes on as if the escape byte were still to come. -/
lemma ttyLoop_eq (isEscape : Bool) (stream : List UInt8) :
    ttyLoop sendChar isEscape (stream.map .ok) =
      passAll sendChar (unescape (if isEscape then escapeByte :: stream else stream)) := by
  induction stream generalizing isEscape with
  | nil =>
    cases isEscape with
    | false => rfl
    | true => rfl
  | cons b stream ih =>
    cases isEscape with
    | false =>
      by_cases h : b = escapeByte
      · calc
          _ = ttyLoop sendChar true (stream.map .ok) := if_pos ⟨rfl, h⟩
          _ = _ := by rw [ih, h]; rfl
      · calc
          _ = (pass sendChar b >>= fun _ => ttyLoop sendChar false (stream.map .ok)) := by
            simp [ttyLoop, h]
          _ = passAll sendChar (b :: unescape stream) := by rw [ih]; rfl
          _ = _ := by rw [← unescape_cons h]; rfl
    | true =>
      by_cases hq : b = quitByte
      · calc
          _ = pure () := by simp [ttyLoop, hq]
          _ = _ := by rw [hq]; rfl
      · by_cases h : b = escapeByte
        · calc
            _ = (pass sendChar b >>= fun _ => ttyLoop sendChar false (stream.map .ok)) := by
              simp [ttyLoop, h, escapeByte, quitByte]
            _ = passAll sendChar (escapeByte :: unescape stream) := by rw [ih, h]; rfl
            _ = _ := by rw [h]; rfl
        · calc
            _ = ttyLoop sendChar false (stream.map .ok) := by simp [ttyLoop, h, hq]
            _ = passAll sendChar (unescape stream) := ih false
            _ = _ := by simp [unescape, h, hq]

/-- A string that was typed is delivered, and what follows starts anew. -/
lemma unescape_escape (s stream : List UInt8) :
    unescape (escape s ++ stream) = s ++ unescape stream := by
  induction s with
  | nil => rfl
  | cons b s ih =>
    by_cases h : b = escapeByte
    · calc
        _ = unescape (b :: b :: (escape s ++ stream)) := by rw [escape, if_pos h]; rfl
        _ = escapeByte :: unescape (escape s ++ stream) := by simp [unescape, h]
        _ = _ := by rw [ih, h]; rfl
    · calc
        _ = unescape (b :: (escape s ++ stream)) := by rw [escape, if_neg h]; rfl
        _ = b :: unescape (escape s ++ stream) := unescape_cons h _
        _ = _ := by rw [ih]; rfl

/-- The port gets what the stream stands for, and then the VM is stopped; a string typed with its
escapes doubled gets through, whatever is typed after it. -/
theorem startTty_delivers (stream s : List UInt8) :
    startTty sendChar (stream.map .ok) = (do
        intoRawMode
        passAll sendChar (unescape stream)
        dropRaw
        stop) ∧
      ttyLoop sendChar false ((escape s ++ stream).map .ok) = (do
        passAll sendChar s
        ttyLoop sendChar false (stream.map .ok)) ∧
      unescape (escape s) = s := by
  refine ⟨?_, ?_, ?_⟩
  · unfold startTty
    rw [ttyLoop_eq]
    rfl
  · rw [ttyLoop_eq, ttyLoop_eq]
    show passAll sendChar (unescape (escape s ++ stream)) = _
    rw [unescape_escape, passAll_append]
    rfl
  · have h := unescape_escape s []
    rw [List.append_nil] at h
    exact h.trans (List.append_nil s)

/-- An escape byte that nothing follows is in no pair, and yet it is not delivered. -/
theorem lone_escape_dropped :
    startTty Uart.sendChar ([escapeByte].map .ok) ⟨Uart.new [], true, false, false⟩ =
      (.ok (), ⟨Uart.new [], true, false, true⟩) ∧ (Uart.new []).rx ≠ [escapeByte] := by
  refine ⟨rfl, ?_⟩
  intro h
  cases h

/-! ## The serial port of the PC -/

/-- Updating the line leaves what was received. -/
lemma updateIrq_uart (self : Uart) (fails : self.irqLineFails = []) :
    ∃ uart, Uart.updateIrq self = (.ok (), uart) ∧ uart.rx = self.rx ∧ uart.irqLineFails = [] := by
  by_cases h : self.level ≠ self.irqLevel
  · refine ⟨{ self with irqLevel := self.level }.note (.irq self.level), ?_, rfl, fails⟩
    simp only [Uart.updateIrq, if_pos h, Uart.archUpdateIrq, fails]
  · exact ⟨self, if_neg h, rfl, fails⟩

/-- All bytes arrive at the console. -/
lemma passAll_uart (s : List UInt8) (self : Terminal Uart) (fails : self.uart.irqLineFails = []) :
    ∃ uart, passAll Uart.sendChar s self = (.ok (), { self with uart := uart }) ∧
      uart.rx = self.uart.rx ++ s ∧ uart.irqLineFails = [] := by
  induction s generalizing self with
  | nil => exact ⟨self.uart, rfl, (List.append_nil _).symm, fails⟩
  | cons b s ih =>
    have send : ∃ uart, Uart.sendChar b self.uart = (.ok (), uart) ∧ uart.rx = self.uart.rx ++ [b] ∧
        uart.irqLineFails = [] :=
      updateIrq_uart { self.uart with rx := self.uart.rx ++ [b] } fails
    obtain ⟨uart, run, rx, fails⟩ := send
    obtain ⟨uart', run', rx', fails'⟩ := ih { self with uart := uart } fails
    refine ⟨uart', ?_, ?_, fails'⟩
    · have passed : pass Uart.sendChar b self = (.ok (), { self with uart := uart }) := by
        simp only [pass, run]
      exact (Eff.bind_of_ok passed).trans run'
    · rw [rx', rx, List.append_assoc]
      rfl

/-- The device queues what the stream stands for. -/
lemma startTty_uart (stream : List UInt8) (uart : Uart) (fails : uart.irqLineFails = [])
    (raw : Bool) :
    ∃ uart', startTty Uart.sendChar (stream.map .ok) ⟨uart, true, raw, false⟩ =
        (.ok (), ⟨uart', true, false, true⟩) ∧ uart'.rx = uart.rx ++ unescape stream := by
  obtain ⟨uart', run, rx, -⟩ := passAll_uart (unescape stream) ⟨uart, true, true, false⟩ fails
  refine ⟨uart', ?_, rx⟩
  have loop : ttyLoop Uart.sendChar false (stream.map .ok) =
    passAll Uart.sendChar (unescape stream) :=
    ttyLoop_eq _ _ _
  rw [← loop] at run
  exact Eff.bind_of_ok run

end Terminal

end Hearth
