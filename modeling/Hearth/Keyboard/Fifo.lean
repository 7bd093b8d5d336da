import Hearth.Console.Uart
import Hearth.Keyboard.Keystroke
import Hearth.Lib.Fifo

/-!
# The output of the keyboard controller as a queue

The output buffer and the bytes behind it are one queue, which a reset of the keyboard cuts behind
its front. A session keeps beside the device what was done to the queue, where each byte comes
from, and what the guest read.
-/

namespace Hearth
open Lib I8042 Typing

/-- The byte that an event queues. -/
def I8042Event.pushed : I8042Event → Option UInt8
  | .push byte => some byte
  | _ => none

/-- The bytes that these events queue. -/
def pushedBytes (events : List I8042Event) : List UInt8 := events.filterMap I8042Event.pushed

/-- What was pushed first comes first. -/
lemma pushedBytes_append (events log : List I8042Event) :
    pushedBytes (events ++ log) = pushedBytes events ++ pushedBytes log := List.filterMap_append

/-- The bytes queued from one state to a later one. -/
def pushedSince (s s' : I8042) : List UInt8 := pushedBytes (s'.events.drop s.events.length)

namespace I8042

/-- Bytes wait only behind a full output buffer. -/
def Waits (s : I8042) : Prop := s.output = none → s.queue = []

/-- All that is done to the queue is that these bytes are put behind it. -/
structure Queues (s s' : I8042) (bytes : List UInt8) : Prop where
  events : ∃ log, s'.events = s.events ++ log ∧ pushedBytes log = bytes
  waits : s.Waits → s'.Waits
  waiting : s.Waits → waiting s' = waiting s ++ bytes

variable {s s' s'' : I8042} {bytes bytes' : List UInt8}

/-- What is queued in two steps. -/
lemma Queues.trans (h : Queues s s' bytes) (h' : Queues s' s'' bytes') :
    Queues s s'' (bytes ++ bytes') where
  events := by
    obtain ⟨log, hlog, rfl⟩ := h.events
    obtain ⟨log', hlog', rfl⟩ := h'.events
    exact ⟨log ++ log', by rw [hlog', hlog, List.append_assoc], pushedBytes_append log log'⟩
  waits := fun w => h'.waits (h.waits w)
  waiting := fun w => by rw [h'.waiting (h.waits w), h.waiting w, List.append_assoc]

/-- A change that leaves the bytes where they are. -/
lemma Queues.of_eq (log : List I8042Event) (events : s'.events = s.events ++ log)
    (none : pushedBytes log = [])
    (output : s'.output = s.output) (queue : s'.queue = s.queue) : Queues s s' [] where
  events := ⟨log, events, none⟩
  waits := fun w h => queue.trans (w (output.symm.trans h))
  waiting := fun _ => by rw [Typing.waiting, output, queue, List.append_nil]; rfl

/-- What leaves the buffers alone queues nothing. -/
lemma Queues.of_fields (events : s'.events = s.events) (output : s'.output = s.output)
    (queue : s'.queue = s.queue) :
    Queues s s' [] :=
  .of_eq [] (events.trans (List.append_nil _).symm) rfl output queue

/-- Nothing is queued by what leaves the buffers alone before. -/
lemma Queues.after {s₁ : I8042} (h : Queues s₁ s' bytes) (events : s₁.events = s.events)
    (output : s₁.output = s.output) (queue : s₁.queue = s.queue) : Queues s s' bytes :=
  (Queues.of_fields events output queue).trans h

/-- What is queued is what was noted. -/
lemma Queues.since (h : Queues s s' bytes) : pushedSince s s' = bytes := by
  obtain ⟨log, hlog, rfl⟩ := h.events
  rw [pushedSince, hlog, List.drop_left]

/-- Pushing a byte queues this byte. -/
lemma push_queues (byte : UInt8) (s : I8042) : Queues s (s.push byte) [byte] := by
  cases ho : s.output with
  | some b =>
    have e : s.push byte = { s.note (.push byte) with queue := s.queue ++ [byte] } := by
      simp [push, note, ho]
    rw [e]
    refine ⟨⟨[.push byte], rfl, rfl⟩, fun _ h => ?_, fun _ => (List.append_assoc _ _ _).symm⟩
    cases ho.symm.trans h
  | none =>
    obtain ⟨b, queue, hq⟩ := List.exists_cons_of_ne_nil (List.concat_ne_nil byte s.queue)
    have e : s.push byte = loadNext { s.note (.push byte) with queue := s.queue ++ [byte] } := by
      simp [push, note, ho]
    rw [e, @loadNext_cons _ b queue hq]
    refine ⟨⟨[.push byte, .load b s.config], by simp [note], rfl⟩,
      fun _ h => (by cases h), fun w => ?_⟩
    have empty := w ho
    rw [empty] at hq
    cases hq
    rw [Typing.waiting, Typing.waiting, ho, empty]
    rfl

/-- A byte more is queued behind the others. -/
lemma Queues.push (h : Queues s s' bytes) (byte : UInt8) :
    Queues s (s'.push byte) (bytes ++ [byte]) :=
  h.trans (push_queues byte s')

/-- A byte is queued after steps that queue nothing. -/
lemma Queues.then_push (h : Queues s s' []) (byte : UInt8) :
    Queues s (s'.push byte) [byte] := h.push byte

/-- Updating the line queues nothing. -/
lemma updateIrq_queues (s : I8042) : Queues s (updateIrq s).2 [] := by
  have same := updateIrq_same s
  have events : ∃ log, (updateIrq s).2.events = s.events ++ log ∧ pushedBytes log = [] := by
    unfold updateIrq archUpdateIrq
    split
    · dsimp only
      split
      · exact ⟨[], (List.append_nil _).symm, rfl⟩
      · exact ⟨[.irq s.level], rfl, rfl⟩
      · exact ⟨[.irq s.level], rfl, rfl⟩
    · exact ⟨[], (List.append_nil _).symm, rfl⟩
  obtain ⟨log, hlog, none⟩ := events
  exact .of_eq log hlog none same.output same.queue

/-! ## Commands -/

/-- A command to the controller queues its answer. -/
lemma controllerCommand_queues (cmd : UInt8) (s : I8042) :
    ∃ bytes, Queues s (s.controllerCommand cmd) bytes := by
  unfold controllerCommand
  split_ifs
  · exact ⟨_, push_queues _ s⟩
  · exact ⟨_, .of_fields rfl rfl rfl⟩
  · exact ⟨_, .of_fields rfl rfl rfl⟩
  · exact ⟨_, .of_fields rfl rfl rfl⟩
  · refine ⟨_, Queues.then_push ?_ _⟩
    exact .of_fields rfl rfl rfl
  · exact ⟨_, push_queues _ s⟩
  · exact ⟨_, .of_fields rfl rfl rfl⟩
  · exact ⟨_, .of_fields rfl rfl rfl⟩
  · exact ⟨_, .of_eq [.stop] rfl rfl rfl rfl⟩
  · exact ⟨_, .of_fields rfl rfl rfl⟩

/-- A parameter for the controller may be queued as if the keyboard had sent it. -/
lemma takeControllerParam_queues (cmd byte : UInt8) (s : I8042) :
    ∃ bytes, Queues s (s.takeControllerParam cmd byte) bytes := by
  unfold takeControllerParam
  split_ifs
  · exact ⟨_, .of_fields rfl rfl rfl⟩
  · exact controllerCommand_queues _ s
  · exact ⟨_, push_queues _ s⟩
  · exact ⟨_, .of_fields rfl rfl rfl⟩

/-- A parameter for the keyboard queues its acknowledgement. -/
lemma takeKeyboardParam_queues (cmd byte : UInt8) (s : I8042) :
    ∃ bytes, Queues s (s.takeKeyboardParam cmd byte) bytes := by
  unfold takeKeyboardParam
  split_ifs
  · exact ⟨_, (push_queues kbdAck s).push 1⟩
  · exact ⟨_, push_queues _ s⟩

/-- All commands to the keyboard but its reset. -/
lemma newKeyboardCommand_queues {byte : UInt8} (other : byte ≠ kbdReset) (s : I8042) :
    ∃ bytes, Queues s (s.newKeyboardCommand byte) bytes := by
  unfold newKeyboardCommand
  split_ifs
  · refine ⟨_, Queues.then_push ?_ _⟩
    exact .of_fields rfl rfl rfl
  · exact ⟨_, push_queues _ s⟩
  · exact ⟨_, ((push_queues kbdAck s).push 0xab).push 0x83⟩
  · refine ⟨_, Queues.then_push ?_ _⟩
    exact .of_fields rfl rfl rfl
  · refine ⟨_, Queues.then_push ?_ _⟩
    exact .of_fields rfl rfl rfl
  · exact ⟨_, push_queues _ s⟩

/-- A command to the keyboard queues its answer, unless it resets the keyboard. -/
lemma keyboardCommand_queues {byte : UInt8} (other : s.keyboardParam = none → byte ≠ kbdReset) :
    ∃ bytes, Queues s (s.keyboardCommand byte) bytes := by
  have enable : Queues s { s with config := s.config &&& ~~~configKbdDisable } [] :=
    .of_fields rfl rfl rfl
  unfold keyboardCommand
  dsimp only
  split
  · next cmd _ =>
    obtain ⟨bytes, h⟩ := takeKeyboardParam_queues cmd byte
      { s with config := s.config &&& ~~~configKbdDisable, keyboardParam := none }
    exact ⟨bytes, h.after rfl rfl rfl⟩
  · next hp =>
    obtain ⟨bytes, h⟩ :=
      newKeyboardCommand_queues (other hp) { s with config := s.config &&& ~~~configKbdDisable }
    exact ⟨_, enable.trans h⟩

/-- A reset of the keyboard cuts the queue behind its front, and answers. -/
lemma reset_queues (s : I8042) (w : s.Waits) :
    ∃ cut, cut.Waits ∧ waiting cut = (waiting s).take 1 ∧ cut.events = s.events ∧
      Queues cut (s.newKeyboardCommand kbdReset) [kbdAck, kbdSelfTestOk] := by
  refine ⟨{ s with scanning := true, queue := [] }, fun _ => rfl, ?_, rfl, ?_⟩
  · cases ho : s.output with
    | none => simp [Typing.waiting, ho, w ho]
    | some b => simp [Typing.waiting, ho]
  · exact (push_queues kbdAck _).push kbdSelfTestOk

end I8042

/-! ## Accesses of one byte -/

namespace ByteAccess

/-- A read of the data port. -/
def Reads (a : ByteAccess) : Prop := a.direction = kvmExitIoIn ∧ a.port = i8042Data

/-- A write to the data port that the keyboard takes for its reset. -/
def Resets (a : ByteAccess) (s : I8042) : Prop :=
  (a.direction = kvmExitIoOut ∧ a.port = i8042Data) ∧ s.controllerParam = none ∧
    s.keyboardParam = none ∧
    a.byte = kbdReset

/-- It is decided by the access. -/
instance (a : ByteAccess) : Decidable a.Reads := inferInstanceAs (Decidable (_ ∧ _))

/-- It is decided by the access and what the keyboard waits for. -/
instance (a : ByteAccess) (s : I8042) : Decidable (a.Resets s) :=
  inferInstanceAs (Decidable (_ ∧ _))

end ByteAccess

namespace I8042

variable {a : ByteAccess} {s s' : I8042} {data : List UInt8}

/-- A byte that moves into the buffer is not pushed again. -/
lemma loadNext_log (s : I8042) : ∃ log, s.loadNext.events = s.events ++ log ∧
    pushedBytes log = [] := by
  cases hq : s.queue with
  | nil => exact ⟨[], by rw [loadNext_nil hq, List.append_nil], rfl⟩
  | cons byte queue => exact ⟨[.load byte s.config], by rw [loadNext_cons hq]; rfl, rfl⟩

/-- An access of one byte, and the update of the line. -/
lemma handle_byte (run : handle a.io [a.byte] s = (.ok data, s')) :
    ∃ s₁, access a.io [a.byte] s = (.ok data, s₁) ∧ s' = (updateIrq s₁).2 := by
  obtain ⟨left, s₁, haccess, hrest⟩ := Eff.bind_ok_iff.mp run
  obtain ⟨⟨⟩, s₂, hirq, hpure⟩ := Eff.bind_ok_iff.mp hrest
  cases hpure
  rw [show ([a.byte] : List UInt8).drop a.io.size.toNat = [] from rfl, List.append_nil]
  exact ⟨s₁, haccess, (congrArg Prod.snd hirq).symm⟩

/-- A read takes the front. -/
lemma handle_reads (reads : a.Reads) (w : s.Waits) (run : handle a.io [a.byte] s = (.ok data, s')) :
    s'.Waits ∧ waiting s' = (waiting s).tail ∧ pushedSince s s' = [] ∧
      (∃ log, s'.events = s.events ++ log) ∧ data.headD 0 = s.output.getD 0 := by
  obtain ⟨s₁, haccess, rfl⟩ := handle_byte run
  have hread : access a.io [a.byte] s =
      (do let byte ← readData; setFirst [a.byte] byte) s := by
    unfold access
    rw [if_pos (show a.io.direction = _ from reads.1), if_pos (show a.io.port = _ from reads.2)]
  rw [hread] at haccess
  obtain ⟨byte, s₂, htake, hset⟩ := Eff.bind_ok_iff.mp haccess
  cases hset
  unfold readData at htake
  rw [Eff.gets_bind_run, Eff.modify_bind_run] at htake
  obtain ⟨⟨⟩, s₃, hirq, hload⟩ := Eff.bind_ok_iff.mp htake
  cases hload
  -- the line is set twice, and in between the next byte moves to the output
  have same := updateIrq_same { s with output := none }
  obtain ⟨log₁, hlog₁, none₁⟩ := (updateIrq_queues { s with output := none }).events
  rw [hirq] at same hlog₁
  obtain ⟨ho, hq, -, -⟩ := loadNext_buffer s₃
  obtain ⟨log₂, hlog₂, none₂⟩ := loadNext_log s₃
  have last := updateIrq_queues s₃.loadNext
  have waits : s₃.loadNext.Waits := by
    intro h
    rw [ho] at h
    rw [hq]
    cases hq' : s₃.queue with
    | nil => rfl
    | cons b queue =>
      rw [hq'] at h
      cases h
  have hwaiting : waiting s₃.loadNext = (waiting s).tail := by
    rw [Typing.waiting, ho, hq, same.queue, Typing.waiting]
    -- with the output empty the queue is empty too, so that nothing is read
    cases hout : s.output with
    | none =>
      rw [show s.queue = [] from w hout]
      rfl
    | some b =>
      show s.queue.head?.toList ++ s.queue.tail = s.queue
      cases s.queue with
      | nil => rfl
      | cons b queue => rfl
  obtain ⟨log₃, hlog₃, none₃⟩ := last.events
  have events : (updateIrq s₃.loadNext).2.events = s.events ++ (log₁ ++ (log₂ ++ log₃)) := by
    rw [hlog₃, hlog₂, hlog₁]
    simp only [List.append_assoc]
  refine ⟨last.waits waits, ?_, ?_, ⟨_, events⟩, rfl⟩
  · rw [last.waiting waits, List.append_nil, hwaiting]
  · rw [pushedSince, events, List.drop_left, pushedBytes_append, pushedBytes_append,
      none₁, none₂, none₃]
    rfl

/-- A write to the data port, up to the last update of the line. -/
lemma access_data (direction : a.direction = kvmExitIoOut) (port : a.port = i8042Data) {s₁ : I8042}
    (haccess : access a.io [a.byte] s = (.ok data, s₁)) :
    (∀ cmd, s.controllerParam = some cmd →
        s₁ = takeControllerParam cmd a.byte { s with statusCmd := false,
                                                     controllerParam := none }) ∧
      (s.controllerParam = none →
        s₁ = keyboardCommand a.byte { s with statusCmd := false, controllerParam := none }) := by
  have notIn : ¬ a.io.direction = kvmExitIoIn := by
    rw [show a.io.direction = kvmExitIoOut from direction]
    decide
  unfold access at haccess
  rw [if_neg notIn, if_pos (show a.io.direction = _ from direction),
    if_pos (show a.io.port = _ from port),
    Eff.modify_bind_run, Eff.gets_bind_run, Eff.modify_bind_run] at haccess
  simp only [List.head?_cons, Eff.unwrap_some, Eff.pure_bind_run] at haccess
  refine ⟨fun cmd hp => ?_, fun hp => ?_⟩
  · rw [hp] at haccess
    cases haccess
    rfl
  · rw [hp] at haccess
    cases haccess
    rfl

/-- The reset of the keyboard cuts the queue and puts its answer behind the front. -/
lemma handle_resets (resets : a.Resets s) (w : s.Waits)
    (run : handle a.io [a.byte] s = (.ok data, s')) :
    s'.Waits ∧ waiting s' = (waiting s).take 1 ++ [kbdAck, kbdSelfTestOk] ∧
      pushedSince s s' = [kbdAck, kbdSelfTestOk] ∧ ∃ log, s'.events = s.events ++ log := by
  obtain ⟨s₁, haccess, rfl⟩ := handle_byte run
  obtain ⟨⟨direction, port⟩, noParam, noCommand, reset⟩ := resets
  have e := (access_data direction port haccess).2 noParam
  have e' : s₁ = newKeyboardCommand kbdReset
      { s with statusCmd := false, controllerParam := none,
               config := s.config &&& ~~~configKbdDisable } := by
    rw [e, reset, keyboardCommand]
    dsimp only
    rw [noCommand]
  obtain ⟨cut, waits, hcut, hevents, queues⟩ := reset_queues
    { s with statusCmd := false, controllerParam := none,
             config := s.config &&& ~~~configKbdDisable } w
  rw [← e'] at queues
  have all := queues.trans (updateIrq_queues s₁)
  refine ⟨all.waits waits, ?_, ?_, ?_⟩
  · rw [all.waiting waits, hcut]
    rfl
  · rw [pushedSince, ← show cut.events = s.events from hevents]
    exact all.since
  · obtain ⟨log, hlog, -⟩ := all.events
    exact ⟨log, hlog.trans (congrArg (· ++ log) hevents)⟩

/-- Every other access puts bytes behind the queue. -/
lemma handle_queues (reads : ¬ a.Reads) (resets : ¬ a.Resets s)
    (run : handle a.io [a.byte] s = (.ok data, s')) :
    ∃ bytes, Queues s s' bytes := by
  obtain ⟨s₁, haccess, rfl⟩ := handle_byte run
  suffices h : ∃ bytes, Queues s s₁ bytes by
    obtain ⟨bytes, h⟩ := h
    exact ⟨_, h.trans (updateIrq_queues s₁)⟩
  by_cases hdata : a.direction = kvmExitIoOut ∧ a.port = i8042Data
  · have e := access_data hdata.1 hdata.2 haccess
    cases hp : s.controllerParam with
    | some cmd =>
      replace e := e.1 cmd hp
      obtain ⟨bytes, h⟩ := takeControllerParam_queues cmd a.byte { s with statusCmd := false,
                                                                          controllerParam := none }
      rw [e]
      exact ⟨bytes, h.after rfl rfl rfl⟩
    | none =>
      replace e := e.2 hp
      have other : s.keyboardParam = none → a.byte ≠ kbdReset :=
        fun hk hb => resets ⟨hdata, hp, hk, hb⟩
      obtain ⟨bytes, h⟩ := @keyboardCommand_queues { s with statusCmd := false,
                                                            controllerParam := none } a.byte other
      rw [e]
      exact ⟨bytes, h.after rfl rfl rfl⟩
  · have same : Queues s s [] := .of_fields rfl rfl rfl
    unfold access at haccess
    split_ifs at haccess with hin hport hport hout hport hport
    · exact absurd ⟨hin, hport⟩ reads
    · cases haccess
      exact ⟨_, same⟩
    · cases haccess
      exact ⟨_, same⟩
    · exact absurd ⟨hout, hport⟩ hdata
    · rw [Eff.modify_bind_run] at haccess
      cases haccess
      obtain ⟨bytes, h⟩ :=
        controllerCommand_queues a.byte { s with statusCmd := true, controllerParam := none }
      exact ⟨bytes, h.after rfl rfl rfl⟩
    · cases haccess
      exact ⟨_, same⟩
    · cases haccess
      exact ⟨_, same⟩

/-- A key puts its bytes behind the queue, or does nothing. -/
lemma keyEvent_queues {down : Bool} {keysym : UInt32} {o : Outcome IoError Unit}
    (run : keyEvent down keysym s = (o, s')) :
    Queues s s' [] ∨ Queues s s' (scancodes (down, keysym)) := by
  have same : Queues s s [] := .of_fields rfl rfl rfl
  unfold keyEvent at run
  rw [Eff.gets_bind_run] at run
  split at run
  · cases run
    exact .inl same
  · unfold scancodes
    cases hk : keysymToSet1 keysym with
    | none =>
      rw [hk] at run
      cases run
      exact .inl same
    | some key =>
      obtain ⟨extended, code⟩ := key
      rw [hk] at run
      right
      cases extended with
      | false =>
        obtain rfl : (updateIrq _).2 = s' := congrArg Prod.snd run
        exact (push_queues _ s).trans (updateIrq_queues _)
      | true =>
        obtain rfl : (updateIrq _).2 = s' := congrArg Prod.snd run
        exact ((push_queues 0xe0 s).push _).trans (updateIrq_queues _)

end I8042

/-! ## Sessions -/

/-- What put a byte into the queue. -/
inductive Origin where
  | command
  /-- a key event, before its last byte -/
  | start (event : Nat)
  /-- a key event, as its last byte: the make or break code -/
  | code (event : Nat)
  deriving DecidableEq, Repr

namespace Origin

/-- The key event that the byte is of. -/
def event : Origin → Option Nat
  | .command => none
  | .start n => some n
  | .code n => some n

/-- More bytes of the event follow. -/
def opens : Origin → Bool
  | .start _ => true
  | _ => false

end Origin

/-- A byte with what it comes from. -/
abbrev Item : Type := UInt8 × Origin

/-- The bytes of a key event, marked. -/
def ofKey (event : Nat) : List UInt8 → List Item
  | [] => []
  | [byte] => [(byte, .code event)]
  | byte :: bytes => (byte, .start event) :: ofKey event bytes

/-- What an access does to the queue. -/
def ByteAccess.queueOps (a : ByteAccess) (s s' : I8042) : List (FifoOp Item) :=
  if a.Reads then [.pop]
  else if a.Resets s then [.cut, .push (kbdAck, .command), .push (kbdSelfTestOk, .command)]
  else ((pushedSince s s').map fun byte => (byte, Origin.command)).map .push

/-- The device and what has been said of its output. -/
structure Typed where
  dev : I8042
  /-- what was done to the queue -/
  ops : List (FifoOp Item)
  /-- the bytes read from port 0x60 while the output buffer was full -/
  got : List UInt8
  /-- how many key events there were -/
  keys : Nat
  /-- the keyboard was reset while the output buffer held the start of a key event -/
  halved : Bool

namespace Typed

/-- At first nothing has been typed or read. -/
def new (fails : List Bool) : Typed := ⟨I8042.new fails, [], [], 0, false⟩

/-- The queue as its operations make it. -/
def fifo (s : Typed) : Fifo Item := Fifo.empty.run s.ops

/-- The access takes the byte that the status register shows. -/
def Takes (a : ByteAccess) (s : I8042) : Prop := a.Reads ∧ s.status &&& statusObf ≠ 0

/-- It is decided by the access and the buffer. -/
instance (a : ByteAccess) (s : I8042) : Decidable (Takes a s) := inferInstanceAs (Decidable (_ ∧ _))

/-- The keyboard is reset while the output buffer holds the start of a key event. -/
def Halves (a : ByteAccess) (s : Typed) : Prop :=
  a.Resets s.dev ∧ (s.fifo.pending.head?.any fun item => item.2.opens) = true

/-- It is decided by the access and what is queued. -/
instance (a : ByteAccess) (s : Typed) : Decidable (Halves a s) :=
  inferInstanceAs (Decidable (_ ∧ _))

/-- An access that completes, or a key event, which the update of the line can fail. -/
inductive Step (s : Typed) : Typed → Prop where
  | access (a : ByteAccess) {data : List UInt8} {dev : I8042} :
      I8042.handle a.io [a.byte] s.dev = (.ok data, dev) →
      Step s
        { s with
          dev := dev, halved := s.halved || decide (Halves a s)
          ops := s.ops ++ a.queueOps s.dev dev
          got := s.got ++ if Takes a s.dev then [data.headD 0] else [] }
  | key (down : Bool) (keysym : UInt32) {o : Outcome IoError Unit} {dev : I8042} :
      keyEvent down keysym s.dev = (o, dev) →
      Step s
        { s with
          dev := dev, keys := s.keys + 1
          ops := s.ops ++ (ofKey s.keys (pushedSince s.dev dev)).map .push }

/-- What keys and accesses lead to. -/
abbrev Reachable : Typed → Prop := Reach (fun s => ∃ fails, s = new fails) Step

/-! ## The queue -/

/-- The bytes of the items of a key are its bytes. -/
lemma ofKey_bytes (n : Nat) (bytes : List UInt8) : (ofKey n bytes).map Prod.fst = bytes := by
  induction bytes with
  | nil => rfl
  | cons b bytes ih =>
    cases bytes with
    | nil => rfl
    | cons c bytes => exact congrArg (b :: ·) ih

/-- The queue of the device is that of its operations. -/
structure Inv (s : Typed) : Prop where
  waits : s.dev.Waits
  pending : s.fifo.pending.map Prod.fst = waiting s.dev
  taken : s.fifo.taken.map Prod.fst = s.got
  pushed : (Fifo.pushed s.ops).map Prod.fst = pushedBytes s.dev.events

/-- What is pushed first comes first. -/
lemma pushed_append {α : Type} (ops ops' : List (FifoOp α)) :
    Fifo.pushed (ops ++ ops') = Fifo.pushed ops ++ Fifo.pushed ops' := by
  induction ops with
  | nil => rfl
  | cons op ops ih =>
    cases op with
    | push a => exact congrArg (a :: ·) ih
    | pop => exact ih
    | cut => exact ih

/-- Pushing items pushes them. -/
lemma pushed_map_push {α : Type} (items : List α) : Fifo.pushed (items.map .push) = items := by
  induction items with
  | nil => rfl
  | cons a items ih => exact congrArg (a :: ·) ih

/-- Items that are put behind the queue. -/
lemma Inv.queues {s : Typed} {s' : I8042} {bytes : List UInt8} {items : List Item} (h : s.Inv)
    (queues : I8042.Queues s.dev s' bytes) (same : items.map Prod.fst = bytes) (keys : Nat)
    (halved : Bool) :
    Inv { s with dev := s', keys := keys, halved := halved, ops := s.ops ++ items.map .push } := by
  have run : Fifo.run Fifo.empty (s.ops ++ items.map .push) =
      { s.fifo with pending := s.fifo.pending ++ items } := by
    rw [Fifo.run_append, Fifo.run_pushes]
    rfl
  refine ⟨queues.waits h.waits, ?_, ?_, ?_⟩
  · show ((Fifo.run Fifo.empty (s.ops ++ items.map .push)).pending).map Prod.fst = waiting s'
    rw [run, queues.waiting h.waits, List.map_append, h.pending, same]
  · show ((Fifo.run Fifo.empty (s.ops ++ items.map .push)).taken).map Prod.fst = s.got
    rw [run]
    exact h.taken
  · obtain ⟨log, hlog, hbytes⟩ := queues.events
    dsimp only
    rw [pushed_append, pushed_map_push, List.map_append, h.pushed, same, hlog,
      pushedBytes_append, hbytes]

/-- A read takes the front of the queue, if there is one. -/
lemma Inv.reads {s : Typed} {a : ByteAccess} {data : List UInt8} {s' : I8042} (h : s.Inv)
    (reads : a.Reads) (run : I8042.handle a.io [a.byte] s.dev = (.ok data, s')) (halved : Bool) :
    Inv { s with
      dev := s', halved := halved, ops := s.ops ++ [.pop]
      got := s.got ++ if Takes a s.dev then [data.headD 0] else [] } := by
  obtain ⟨waits, hwaiting, none, ⟨log, hlog⟩, hbyte⟩ := handle_reads reads h.waits run
  have step : Fifo.run Fifo.empty (s.ops ++ [.pop]) = s.fifo.step .pop := Fifo.run_append
  refine ⟨waits, ?_, ?_, ?_⟩
  · show ((Fifo.run Fifo.empty (s.ops ++ [.pop])).pending).map Prod.fst = waiting s'
    rw [step, hwaiting, ← h.pending]
    exact List.map_tail
  · show ((Fifo.run Fifo.empty (s.ops ++ [.pop])).taken).map Prod.fst = _
    have front : s.fifo.pending.head?.toList.map Prod.fst = (waiting s.dev).head?.toList := by
      rw [← h.pending]
      cases s.fifo.pending with
      | nil => rfl
      | cons item pending => rfl
    rw [step]
    show (s.fifo.taken ++ s.fifo.pending.head?.toList).map Prod.fst = _
    rw [List.map_append, h.taken, front, hbyte]
    congr 1
    cases ho : s.dev.output with
    | none =>
      rw [if_neg fun takes => (status_obf s.dev).mp takes.2 ho, waiting, ho, h.waits ho]
      rfl
    | some b =>
      rw [if_pos ⟨reads, (status_obf s.dev).mpr (by rw [ho]; exact Option.some_ne_none b)⟩,
        waiting, ho]
      rfl
  · rw [pushedSince, hlog, List.drop_left] at none
    dsimp only
    rw [pushed_append, hlog, pushedBytes_append, none, List.append_nil, ← h.pushed]
    exact congrArg _ (List.append_nil _)

/-- The reset of the keyboard cuts the queue. -/
lemma Inv.resets {s : Typed} {a : ByteAccess} {data : List UInt8} {s' : I8042} (h : s.Inv)
    (resets : a.Resets s.dev)
    (run : I8042.handle a.io [a.byte] s.dev = (.ok data, s')) (halved : Bool) :
    Inv { s with
      dev := s', halved := halved
      ops := s.ops ++ [.cut, .push (kbdAck, .command), .push (kbdSelfTestOk, .command)] } := by
  obtain ⟨waits, hwaiting, pushes, log, hlog⟩ := handle_resets resets h.waits run
  have step : Fifo.run Fifo.empty
    (s.ops ++ [.cut, .push (kbdAck, .command), .push (kbdSelfTestOk, .command)]) =
      ((s.fifo.step .cut).step (.push (kbdAck, .command))).step (.push (kbdSelfTestOk, .command)) :=
    Fifo.run_append
  refine ⟨waits, ?_, ?_, ?_⟩
  · show ((Fifo.run Fifo.empty (s.ops ++ _)).pending).map Prod.fst = waiting s'
    rw [step, hwaiting, ← h.pending]
    simp [Fifo.step, List.map_take]
  · show ((Fifo.run Fifo.empty (s.ops ++ _)).taken).map Prod.fst = s.got
    rw [step]
    exact h.taken
  · rw [pushedSince, hlog, List.drop_left] at pushes
    dsimp only
    rw [pushed_append, List.map_append, h.pushed, hlog, pushedBytes_append, pushes]
    rfl

/-- Keys and accesses keep the invariant. -/
lemma Step.inv {s s' : Typed} (h : s.Inv) (step : Step s s') : s'.Inv := by
  cases step with
  | key down keysym run =>
    rcases keyEvent_queues run with queues | queues
    · exact h.queues queues (by rw [queues.since]; rfl) _ _
    · exact h.queues queues (by rw [queues.since, ofKey_bytes]) _ _
  | access a run =>
    by_cases reads : a.Reads
    · rw [ByteAccess.queueOps, if_pos reads]
      exact h.reads reads run _
    · have notTakes : ¬ Takes a s.dev := fun h => reads h.1
      rw [if_neg notTakes, List.append_nil, ByteAccess.queueOps, if_neg reads]
      by_cases resets : a.Resets s.dev
      · rw [if_pos resets]
        exact h.resets resets run _
      · obtain ⟨bytes, queues⟩ := handle_queues reads resets run
        have same : (bytes.map fun byte => (byte, Origin.command)).map Prod.fst = bytes := by
          rw [List.map_map]
          exact List.map_id bytes
        rw [if_neg resets, queues.since]
        exact h.queues queues same _ _

/-- It holds in every reachable state. -/
lemma Reachable.inv {s : Typed} (h : Reachable s) : s.Inv := by
  refine Reach.invariant (I := Inv) ?_ (fun _ _ inv step => step.inv inv) h
  rintro s ⟨fails, rfl⟩
  exact ⟨fun _ => rfl, rfl, rfl, rfl⟩

/-- The guest reads the bytes that commands and keys push, in order; only a reset of the keyboard
drops any, and it drops those behind the output buffer. -/
theorem output_fifo {s : Typed} (h : Reachable s) :
    s.fifo.taken.map Prod.fst = s.got ∧ s.fifo.pending.map Prod.fst = waiting s.dev ∧
      (Fifo.pushed s.ops).map Prod.fst = pushedBytes s.dev.events ∧
      (.cut ∉ s.ops → s.got ++ waiting s.dev = pushedBytes s.dev.events) := by
  have inv := h.inv
  refine ⟨inv.taken, inv.pending, inv.pushed, fun whole => ?_⟩
  rw [← inv.taken, ← inv.pending, ← inv.pushed, ← List.map_append]
  exact congrArg (List.map Prod.fst) (Fifo.run_conserves Fifo.empty whole)

/-- The letters `a` and `b` go down, and the guest reads the first. Then `c` goes down and the
keyboard is reset, which drops that letter, and the guest reads on. -/
theorem letters_read :
    (∃ s, Reachable s ∧ s.got = [0x1e] ∧ waiting s.dev = [0x30] ∧
      s.got ++ waiting s.dev = pushedBytes s.dev.events) ∧
      ∃ s, Reachable s ∧ s.got = [0x1e, 0x30, 0xfa] ∧ s.fifo.taken.map Prod.fst = s.got ∧
        s.fifo.pending.map Prod.fst = [0xaa] ∧
        pushedBytes s.dev.events = [0x1e, 0x30, 0x2e, 0xfa, 0xaa] := by
  have start : Reachable (new []) := .init ⟨[], rfl⟩
  have pressed := (start.step (.key true 0x61 rfl)).step (.key true 0x62 rfl)
  have read := pressed.step (.access (.inp 0x60 0) rfl)
  have behind := read.step (.key true 0x63 rfl)
  have reset := behind.step (.access (.out 0x60 0xff) rfl)
  have second := reset.step (.access (.inp 0x60 0) rfl)
  have third := second.step (.access (.inp 0x60 0) rfl)
  constructor
  · exact ⟨_, read, rfl, rfl, (output_fifo read).2.2.2 (by decide)⟩
  · obtain ⟨taken, pending, pushed, -⟩ := output_fifo third
    exact ⟨_, third, rfl, taken, pending.trans rfl, pushed.symm.trans rfl⟩

/-! ## Whole scancodes -/

/-- The start of a key event is followed by its code. -/
def Follows (item next : Item) : Prop := ∀ n, item.2 = .start n → next.2 = .code n

/-- The byte is a prefix that opens a code. -/
def Opens (item : Item) : Prop := item.2.opens = true

/-- Anything may follow a byte that is no prefix. -/
lemma follows_of_closed (item next : Item) (h : ¬ Opens item) : Follows item next := by
  intro n hn
  refine absurd ?_ h
  rw [Opens, hn]
  rfl

/-- Bytes none of which is the start of a key event. -/
lemma joined_closed {items : List Item} (h : ∀ item ∈ items, ¬ Opens item) :
    Fifo.Joined Follows Opens items where
  chain := by
    induction items with
    | nil => exact .nil
    | cons item items ih =>
      refine List.IsChain.cons (ih fun i hi => h i (List.mem_cons_of_mem _ hi)) fun next _ => ?_
      exact follows_of_closed item next (h item List.mem_cons_self)
  closed := fun item hi => h item (List.mem_of_getLast? hi)

/-- No code is a prefix. -/
def Coded (item : Item) : Prop := ∀ n, item.2 = .code n → item.1 ≠ 0xe0

/-- The bytes of a key: a prefix is followed by its code. -/
lemma ofKey_scancodes (n : Nat) (down : Bool) (keysym : UInt32) :
    Fifo.Joined Follows Opens (ofKey n (scancodes (down, keysym))) ∧
      ∀ item ∈ ofKey n (scancodes (down, keysym)), Coded item := by
  unfold scancodes
  cases hk : keysymToSet1 keysym with
  | none => exact ⟨joined_closed (by simp [ofKey]), by simp [ofKey]⟩
  | some key =>
    obtain ⟨extended, code⟩ := key
    obtain ⟨hmake, hbreak, -⟩ := makeCode_bits (keysymToSet1_lt hk)
    have plain : (if down then code else code ||| 0x80) ≠ 0xe0 := by
      cases down with
      | false => exact hbreak
      | true => exact hmake
    cases extended with
    | false =>
      refine ⟨joined_closed ?_, ?_⟩
      · intro item hi
        cases List.mem_singleton.mp hi
        exact Bool.false_ne_true
      · intro item hi
        cases List.mem_singleton.mp hi
        exact fun _ _ => plain
    | true =>
      refine ⟨⟨?_, ?_⟩, ?_⟩
      · refine .cons_cons ?_ (.singleton _)
        intro m hm
        cases hm
        rfl
      · intro item hi
        cases hi
        exact Bool.false_ne_true
      · intro item hi m hm
        rcases List.mem_cons.mp hi with rfl | hi
        · cases hm
        · cases List.mem_singleton.mp hi
          exact plain

/-- What was read and what waits is whole. -/
structure Whole (f : Fifo Item) (halved : Bool) : Prop where
  joined : halved = false → Fifo.Joined Follows Opens (f.taken ++ f.pending)
  coded : ∀ item ∈ f.taken ++ f.pending, Coded item

variable {f : Fifo Item} {halved : Bool}

/-- Whole keys may be pushed. -/
lemma Whole.pushes {items : List Item} (h : Whole f halved)
    (joined : Fifo.Joined Follows Opens items)
    (coded : ∀ item ∈ items, Coded item) : Whole (f.run (items.map .push)) halved := by
  rw [Fifo.run_pushes]
  refine ⟨fun whole => ?_, fun item hi => ?_⟩
  · rw [← List.append_assoc]
    exact (h.joined whole).append joined follows_of_closed
  · rw [← List.append_assoc] at hi
    exact (List.mem_append.mp hi).elim (h.coded item) (coded item)

/-- Commands never leave anything open. -/
lemma Whole.commands (h : Whole f halved) (bytes : List UInt8) :
    Whole (f.run ((bytes.map fun byte => (byte, Origin.command)).map .push)) halved := by
  have closed : ∀ item ∈ bytes.map fun byte => (byte, Origin.command), item.2 = .command := by
    intro item hi
    obtain ⟨byte, -, rfl⟩ := List.mem_map.mp hi
    rfl
  apply h.pushes
  · refine joined_closed fun item hi ho => ?_
    rw [Opens, closed item hi] at ho
    cases ho
  · intro item hi n hn
    cases (closed item hi).symm.trans hn

/-- Taking a byte keeps codes whole. -/
lemma Whole.pop (h : Whole f halved) : Whole (f.step .pop) halved := by
  refine ⟨fun whole => ?_, ?_⟩
  · rw [f.step_pop]
    exact h.joined whole
  · rw [f.step_pop]
    exact h.coded

/-- The keyboard may be reset unless the output buffer holds the start of a key event. -/
lemma Whole.cut (h : Whole f halved) :
    Whole (f.step .cut) (halved || f.pending.head?.any fun item => item.2.opens) := by
  refine ⟨fun whole => ?_, fun item hi => ?_⟩
  · obtain ⟨whole, front⟩ := Bool.or_eq_false_iff.mp whole
    refine (h.joined whole).cut fun item hi ho => ?_
    rw [Option.mem_def.mp hi] at front
    exact absurd ho (by rw [Opens]; simpa using front)
  · apply h.coded item
    rcases List.mem_append.mp hi with hi | hi
    · exact List.mem_append_left _ hi
    · exact List.mem_append_right _ (List.mem_of_mem_take hi)

/-- No step takes a prefix from its code, but a reset. -/
lemma Step.whole {s s' : Typed} (h : Whole s.fifo s.halved) (step : Step s s') :
    Whole s'.fifo s'.halved := by
  have later (ops : List (FifoOp Item)) : Fifo.run Fifo.empty (s.ops ++ ops) = s.fifo.run ops :=
    Fifo.run_append
  cases step with
  | key down keysym run =>
    show Whole (Fifo.run Fifo.empty (s.ops ++ _)) s.halved
    rw [later]
    obtain ⟨joined, coded⟩ := ofKey_scancodes s.keys down keysym
    rcases keyEvent_queues run with queues | queues
    · rw [queues.since]
      exact h.pushes (joined_closed (by simp [ofKey])) (by simp [ofKey])
    · rw [queues.since]
      exact h.pushes joined coded
  | access a run =>
    show Whole (Fifo.run Fifo.empty (s.ops ++ _)) (s.halved || decide (Halves a s))
    rw [later]
    by_cases reads : a.Reads
    · have notResets : ¬ Halves a s := fun hh => by cases reads.1.symm.trans hh.1.1.1
      rw [ByteAccess.queueOps, if_pos reads]
      rw [decide_eq_false notResets, Bool.or_false]
      exact h.pop
    · by_cases resets : a.Resets s.dev
      · have front : decide (Halves a s) = s.fifo.pending.head?.any fun item => item.2.opens := by
          apply Bool.eq_iff_iff.mpr
          rw [decide_eq_true_iff]
          exact and_iff_right resets
        rw [ByteAccess.queueOps, if_neg reads, if_pos resets]
        rw [front]
        exact h.cut.commands [kbdAck, kbdSelfTestOk]
      · have notHalves : ¬ Halves a s := fun hh => resets hh.1
        rw [ByteAccess.queueOps, if_neg reads, if_neg resets]
        rw [decide_eq_false notHalves, Bool.or_false]
        exact h.commands _

/-- As long as the keyboard is not reset while the output buffer holds the start of a key
event, each 0xe0 of a key that the guest reads is followed by the code of that key, which is
read next or is the next to be read. -/
theorem no_half_scancode {s : Typed} (h : Reachable s) (whole : s.halved = false) :
    s.fifo.taken.map Prod.fst = s.got ∧
      ∀ before item after n, s.fifo.taken = before ++ item :: after → item.1 = 0xe0 →
        item.2.event = some n →
        (∃ next after', after = next :: after' ∧ next.2 = .code n) ∨
          after = [] ∧ ∃ next ∈ s.fifo.pending.head?, next.2 = .code n := by
  refine ⟨h.inv.taken, ?_⟩
  have all : Whole s.fifo s.halved := by
    refine Reach.invariant (I := fun s => Whole s.fifo s.halved) ?_
      (fun _ _ inv step => step.whole inv) h
    rintro s ⟨fails, rfl⟩
    exact ⟨fun _ => joined_closed fun _ hi => (by cases hi), fun _ hi => (by cases hi)⟩
  intro before item after n split e0 event
  have start : item.2 = .start n := by
    have mem : item ∈ s.fifo.taken ++ s.fifo.pending := by
      rw [split]
      simp
    cases ho : item.2 with
    | command =>
      rw [ho] at event
      cases event
    | start m =>
      rw [ho] at event
      cases event
      rfl
    | code m => exact absurd e0 (all.coded item mem m ho)
  have opens : Opens item := by
    rw [Opens, start]
    rfl
  rcases (all.joined whole).taken split opens with ⟨next, after', rfl, follows⟩ | ⟨last,
    next, hn, follows⟩
  · exact .inl ⟨next, after', rfl, follows n start⟩
  · exact .inr ⟨last, next, hn, follows n start⟩

/-- The right control key goes down while a letter waits. When the guest has read the prefix the
code is next, and it is what the guest then reads. -/
theorem rightControl_whole :
    ∃ s s', Reachable s ∧ s.got = [0x1e, 0xe0] ∧ (∃ next ∈ s.fifo.pending.head?, next.2 = .code 1) ∧
      Step s s' ∧ s'.got = [0x1e, 0xe0, 0x1d] ∧ ∃ next, s'.fifo.taken.getLast? = some next ∧
      next.2 = .code 1 := by
  have start : Reachable (new []) := .init ⟨[], rfl⟩
  have pressed := (start.step (.key true 0x61 rfl)).step (.key true 0xffe4 rfl)
  have letter := pressed.step (.access (.inp 0x60 0) rfl)
  have first := letter.step (.access (.inp 0x60 0) rfl)
  refine ⟨_, _, first, rfl, ?_, .access (.inp 0x60 0) rfl, rfl, ?_⟩
  · have next := (no_half_scancode first rfl).2 [(0x1e, .code 0)] (0xe0, .start 1) [] 1 rfl rfl rfl
    rcases next with ⟨_, _, more, -⟩ | ⟨-, next⟩
    · cases more
    · exact next
  · have second := first.step (.access (.inp 0x60 0) rfl)
    have next := (no_half_scancode second rfl).2 [(0x1e, .code 0)]
      (0xe0, .start 1) [(0x1d, .code 1)] 1 rfl rfl rfl
    rcases next with ⟨next, _, more, code⟩ | ⟨none, -⟩
    · cases more
      exact ⟨_, rfl, code⟩
    · cases none

/-- The keyboard is reset before the guest reads the 0xe0 of the right control key,
which the answer then follows. -/
theorem reset_halves :
    ∃ s, Reachable s ∧ s.fifo.taken = [(0xe0, .start 0), (0xfa, .command)] ∧
      s.got = [0xe0, 0xfa] := by
  have start : Reachable (new []) := .init ⟨[], rfl⟩
  have pressed := start.step (.key true 0xffe4 rfl)
  have reset := pressed.step (.access (.out 0x60 0xff) rfl)
  have first := reset.step (.access (.inp 0x60 0) rfl)
  have second := first.step (.access (.inp 0x60 0) rfl)
  exact ⟨_, second, rfl, rfl⟩

end Typed

end Hearth
