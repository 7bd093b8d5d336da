import Hearth.Keyboard.Fifo
import Hearth.Keyboard.Latch

/-!
# Setting up the keyboard while keys are pressed

`keyboard_init` of the Doom guest asks the controller for its configuration and takes the next byte
for it. The answer shares the queue with the scancodes, so it is the next byte if no key's byte came
in since the guest drained the buffer.
-/

namespace Hearth
open Lib I8042 Typing Irq1

/-- The guest at its set-up, with what has been said of the configuration. -/
structure SetUp where
  irq : Irq1
  /-- the configuration when the set-up began -/
  entry : UInt8
  /-- the byte taken as the configuration -/
  taken : Option UInt8
  /-- the configuration was asked for while a byte waited -/
  crossed : Bool

namespace SetUp

/-- The guest reads the byte it takes as the configuration. -/
def Takes (irq irq' : Irq1) : Prop := irq.guest = .takeConfig ∧ irq'.guest ≠ .takeConfig

/-- The guest asks for the configuration while a byte waits. -/
def Crosses (irq irq' : Irq1) : Prop :=
  irq.guest = .readConfig ∧ irq'.guest ≠ .readConfig ∧ irq.dev.output.isSome = true

/-- It is decided by where the guest is. -/
instance (irq irq' : Irq1) : Decidable (Takes irq irq') := inferInstanceAs (Decidable (_ ∧ _))

/-- It is decided by where the guest is and the buffer. -/
instance (irq irq' : Irq1) : Decidable (Crosses irq irq') := inferInstanceAs (Decidable (_ ∧ _))

/-- A step of the machine, or a key whose update of the line can fail. -/
inductive Step (s : SetUp) : SetUp → Prop where
  | step {irq : Irq1} : Irq1.Step s.irq irq →
      Step s
        { s with
          irq := irq
          taken := if Takes s.irq irq then some (s.irq.dev.output.getD 0) else s.taken
          crossed := s.crossed || decide (Crosses s.irq irq) }
  | key (down : Bool) (keysym : UInt32) {o : Outcome IoError Unit} {dev : I8042} :
      keyEvent down keysym s.irq.dev = (o, dev) → Step s { s with irq := s.irq.goes dev }

/-- The guest comes to `keyboard_init` with the controller as any accesses and keys have left it. -/
structure Init (s : SetUp) : Prop where
  dev : ∃ t, Typed.Reachable t ∧ t.dev = s.irq.dev
  guest : s.irq.guest = .start
  entry : s.entry = s.irq.dev.config
  taken : s.taken = none
  crossed : s.crossed = false

/-- This is the configuration made from the byte that was taken. -/
def Chosen (entry : UInt8) (crossed : Bool) (taken : Option UInt8) (config : UInt8) : Prop :=
  ∃ byte, taken = some byte ∧ config = newConfig byte ∧ (crossed = false → byte = entry)

/-- What holds at each point of the guest's code. -/
def Phase (entry : UInt8) (crossed : Bool) (taken : Option UInt8) (dev : I8042) : GuestAt → Prop
  | .start | .drainTest | .drainData | .readConfig => dev.config = entry
  | .waitOutput _ | .takeConfig =>
    dev.config = entry ∧ dev.output ≠ none ∧ (crossed = false → dev.output = some entry)
  | .writeCommand config => dev.config = entry ∧ Chosen entry crossed taken config
  | .writeConfig config =>
    dev.config = entry ∧ Chosen entry crossed taken config ∧
    dev.controllerParam = some cmdWriteConfig
  | _ => Chosen entry crossed taken dev.config

/-- The set-up is over. -/
def Done : GuestAt → Prop
  | .route | .flushTest | .flushData | .sti | .run | .test | .data => True
  | _ => False

/-- What holds at every point: bytes wait in order, and the guest is in its phase. -/
structure Inv (s : SetUp) : Prop where
  waits : s.irq.dev.Waits
  phase : Phase s.entry s.crossed s.taken s.irq.dev s.irq.guest

/-! ## What the guest and the keys do to the device -/

/-- The buffer has the first of the bytes that wait. -/
lemma output_eq {s : I8042} (w : s.Waits) : s.output = (waiting s).head? := by
  cases ho : s.output with
  | none =>
    rw [waiting, ho, w ho]
    rfl
  | some b =>
    rw [waiting, ho]
    rfl

/-- What leaves the buffers alone leaves bytes waiting in order. -/
lemma waits_same {s s' : I8042} (w : s.Waits) (same : SameBuffer s s') : s'.Waits := by
  intro h
  rw [same.queue]
  exact w (same.output.symm.trans h)

/-- Reading a byte leaves the others waiting in order. -/
lemma waits_data {s s' : I8042} {byte : UInt8} (e : inb i8042Data s = (.ok byte, s')) :
    s'.Waits := by
  obtain ⟨-, ho, hq, -, -⟩ := inb_data e
  intro h
  rw [hq]
  cases h' : s.queue with
  | nil => rfl
  | cons b queue =>
    rw [ho, h'] at h
    cases h

/-- A write leaves bytes waiting in order. -/
lemma waits_outb {port : UInt16} {s s' : I8042} {byte : UInt8} (w : s.Waits)
    (e : outb port byte s = (.ok (), s')) : s'.Waits := by
  obtain ⟨data, s₁, run, hpure⟩ := Eff.bind_ok_iff.mp e
  cases hpure
  have run : I8042.handle (ByteAccess.out port byte).io [(ByteAccess.out port byte).byte] s =
    (.ok data, s') := run
  have notReads : ¬ (ByteAccess.out port byte).Reads := fun h => by cases h.1
  by_cases resets : (ByteAccess.out port byte).Resets s
  · exact (handle_resets resets w run).1
  · obtain ⟨bytes, queues⟩ := handle_queues notReads resets run
    exact queues.waits w

/-- The configuration is put behind what waits. -/
lemma outb_readConfig {s s' : I8042} (w : s.Waits)
    (e : outb i8042Command cmdReadConfig s = (.ok (), s')) :
    s'.config = s.config ∧ s'.output = some (s.output.getD s.config) := by
  obtain ⟨data, s₁, haccess, same⟩ := outb_access e
  cases haccess
  have queues := push_queues s.config { s with statusCmd := true, controllerParam := none }
  have front := output_eq (queues.waits w)
  rw [queues.waiting w] at front
  refine ⟨same.config.trans (push_config _ _).1, same.output.trans ?_⟩
  show (push s.config { s with statusCmd := true, controllerParam := none }).output = _
  rw [front]
  show ((s.output.toList ++ s.queue) ++ [s.config]).head? = _
  cases ho : s.output with
  | none =>
    rw [w ho]
    rfl
  | some b => rfl

/-- A key does not change the byte in the buffer. -/
lemma key_output {s s' : I8042} {down : Bool} {keysym : UInt32}
    {o : Outcome IoError Unit} (w : s.Waits) (run : keyEvent down keysym s = (o, s')) :
    s'.Waits ∧ (s.output ≠ none → s'.output = s.output) := by
  obtain ⟨bytes, queues⟩ : ∃ bytes, Queues s s' bytes :=
    (keyEvent_queues run).elim (⟨_, ·⟩) (⟨_, ·⟩)
  refine ⟨queues.waits w, fun full => ?_⟩
  rw [output_eq (queues.waits w), queues.waiting w, output_eq w]
  rw [output_eq w] at full
  cases hw : waiting s with
  | nil =>
    rw [hw] at full
    exact absurd rfl full
  | cons b rest => rfl

/-! ## Steps -/

variable {entry : UInt8} {crossed : Bool} {taken : Option UInt8} {dev dev' : I8042}
    {guest : GuestAt}

/-- What keeps the configuration, the buffer and the command that waits for
its byte keeps every phase. -/
lemma Phase.key {down : Bool} {keysym : UInt32} {o : Outcome IoError Unit} (w : dev.Waits)
    (h : Phase entry crossed taken dev guest) (run : keyEvent down keysym dev = (o, dev')) :
    Phase entry crossed taken dev' guest := by
  obtain ⟨config, param⟩ := keyEvent_config run
  obtain ⟨-, output⟩ := key_output w run
  cases guest with
  | start | drainTest | drainData | readConfig => exact config.trans h
  | waitOutput | takeConfig =>
    refine ⟨config.trans h.1, ?_⟩
    rw [output h.2.1]
    exact h.2
  | writeCommand c => exact ⟨config.trans h.1, h.2⟩
  | writeConfig c => exact ⟨config.trans h.1, h.2.1, param.trans h.2.2⟩
  | route | flushTest | flushData | sti | run | test | data =>
    show Chosen entry crossed taken dev'.config
    rw [config]
    exact h

/-- After the set-up only the configuration matters. -/
lemma Phase.done {guest' : GuestAt} (h : Phase entry crossed taken dev guest) (done : Done guest)
    (done' : Done guest')
    (config : dev'.config = dev.config) : Phase entry crossed taken dev' guest' := by
  have chosen : Chosen entry crossed taken dev'.config := by
    rw [config]
    cases guest with
    | start | drainTest | drainData | readConfig | waitOutput | takeConfig | writeCommand
      | writeConfig =>
      exact done.elim
    | route | flushTest | flushData | sti | run | test | data => exact h
  cases guest' with
  | start | drainTest | drainData | readConfig | waitOutput | takeConfig | writeCommand
    | writeConfig =>
    exact done'.elim
  | route | flushTest | flushData | sti | run | test | data => exact chosen

/-- A test between points after the set-up leads to one. -/
lemma done_branch {full empty : GuestAt} (byte : UInt8) (h : Done full) (h' : Done empty) :
    Done (branch byte full empty) := by
  rcases branch_cases byte full empty with ⟨-, hb⟩ | ⟨-, hb⟩
  · rw [hb]
    exact h
  · rw [hb]
    exact h'

/-- Only the step that takes the answer changes what was taken. -/
lemma taken_kept {irq irq' : Irq1} (h : irq.guest ≠ .takeConfig) (byte taken : Option UInt8) :
    (if Takes irq irq' then byte else taken) = taken := if_neg fun takes => h takes.1

/-- Only the step that asks can cross a byte. -/
lemma crossed_kept {irq irq' : Irq1} (h : irq.guest ≠ .readConfig) (crossed : Bool) :
    (crossed || decide (Crosses irq irq')) = crossed := by
  rw [decide_eq_false fun crosses => h crosses.1, Bool.or_false]

/-- A test of the status while the controller is drained. -/
lemma Phase.drainTest {irq : Irq1} {byte : UInt8} (h : Phase entry crossed taken irq.dev irq.guest)
    (at_ : irq.guest = .drainTest) (e : inb i8042Command irq.dev = (.ok byte, dev)) :
    Phase entry crossed taken dev (branch byte .drainData .readConfig) := by
  obtain ⟨-, same⟩ := inb_status e
  rw [at_] at h
  rcases branch_cases byte .drainData .readConfig with ⟨-, hb⟩ | ⟨-, hb⟩ <;> rw [hb]
  · exact same.config.trans h
  · exact same.config.trans h

/-- The guest asks for the configuration: unless a byte waits, the
answer is the next it will read. -/
lemma Phase.ask {irq : Irq1} (w : irq.dev.Waits) (h : Phase entry crossed taken irq.dev irq.guest)
    (at_ : irq.guest = .readConfig) (e : outb i8042Command cmdReadConfig irq.dev = (.ok (), dev)) :
    Phase entry (crossed || decide (Crosses irq (irq.goesTo dev (.waitOutput 0)))) taken dev
      (.waitOutput 0) := by
  obtain ⟨config, output⟩ := outb_readConfig w e
  rw [at_] at h
  have entry_ : irq.dev.config = entry := h
  refine ⟨config.trans entry_, ?_, fun quiet => ?_⟩
  · rw [output]
    exact Option.some_ne_none _
  · have empty : irq.dev.output = none := by
      obtain ⟨-, quiet⟩ := Bool.or_eq_false_iff.mp quiet
      by_contra full
      refine (of_decide_eq_false quiet) ⟨at_, by simp [goesTo], ?_⟩
      exact Option.isSome_iff_ne_none.mpr full
    rw [output, empty, ← entry_]
    rfl

/-- The answer is there at the first test, so the guest never gives up. -/
lemma Phase.waitOutput {irq : Irq1} {i : Nat} {byte : UInt8}
    (h : Phase entry crossed taken irq.dev irq.guest) (at_ : irq.guest = .waitOutput i)
    (e : inb i8042Command irq.dev = (.ok byte, dev)) :
    Phase entry crossed taken dev
      (branch byte .takeConfig (if i + 1 < waitLoops then .waitOutput (i + 1) else .sti)) := by
  obtain ⟨hbyte, same⟩ := inb_status e
  rw [at_] at h
  rcases branch_cases byte .takeConfig
    (if i + 1 < waitLoops then .waitOutput (i + 1) else .sti) with ⟨-, hb⟩ | ⟨hz, -⟩
  · rw [hb]
    refine ⟨same.config.trans h.1, ?_⟩
    rw [same.output]
    exact h.2
  · rw [hbyte] at hz
    exact absurd hz ((status_obf irq.dev).mpr h.2.1)

/-- Taking the controller's answer is as the phase says. -/
lemma Phase.takeConfig {irq : Irq1} {byte : UInt8} (h : Phase entry crossed taken irq.dev irq.guest)
    (at_ : irq.guest = .takeConfig) (e : inb i8042Data irq.dev = (.ok byte, dev)) :
    Phase entry crossed (some (irq.dev.output.getD 0)) dev (.writeCommand (newConfig byte)) := by
  obtain ⟨hbyte, -, -, config, -⟩ := inb_data e
  rw [at_] at h
  refine ⟨config.trans h.1, irq.dev.output.getD 0, rfl, ?_, fun quiet => ?_⟩
  · rw [hbyte]
  · rw [h.2.2 quiet]
    rfl

/-- The configuration to be written is on its way. -/
lemma Phase.writeCommand {irq : Irq1} {c : UInt8} (h : Phase entry crossed taken irq.dev irq.guest)
    (at_ : irq.guest = .writeCommand c)
    (e : outb i8042Command cmdWriteConfig irq.dev = (.ok (), dev)) :
    Phase entry crossed taken dev (.writeConfig c) := by
  rw [at_] at h
  have config : dev.config = irq.dev.config := by
    obtain ⟨data, s₁, haccess, same⟩ := outb_access e
    cases haccess
    exact same.config
  exact ⟨config.trans h.1, h.2, outb_writeCommand e⟩

/-- The configuration is written as it was chosen. -/
lemma Phase.writeConfig {irq : Irq1} {c : UInt8} (h : Phase entry crossed taken irq.dev irq.guest)
    (at_ : irq.guest = .writeConfig c) (e : outb i8042Data c irq.dev = (.ok (), dev)) :
    Phase entry crossed taken dev .route := by
  rw [at_] at h
  show Chosen entry crossed taken dev.config
  rw [outb_writeConfig e h.2.2]
  exact h.2.1

/-- After a step that neither asks for the configuration nor takes the answer. -/
lemma Phase.aside {irq irq' : Irq1} (asks : irq.guest ≠ .readConfig)
    (takes : irq.guest ≠ .takeConfig)
    (w : irq'.dev.Waits) (h : Phase entry crossed taken irq'.dev irq'.guest) :
    irq'.dev.Waits ∧ Phase entry (crossed || decide (Crosses irq irq'))
      (if Takes irq irq' then some (irq.dev.output.getD 0) else taken) irq'.dev irq'.guest := by
  rw [taken_kept takes, crossed_kept asks]
  exact ⟨w, h⟩

/-- A test of the status after the set-up. -/
lemma Phase.doneTest {irq irq' : Irq1} {byte : UInt8} {full empty : GuestAt} (w : irq.dev.Waits)
    (h : Phase entry crossed taken irq.dev irq.guest) (at_ : Done irq.guest)
    (e : inb i8042Command irq.dev = (.ok byte, irq'.dev)) (full_ : Done full) (empty_ : Done empty)
    (goes : irq'.guest = branch byte full empty) :
    irq'.dev.Waits ∧ Phase entry (crossed || decide (Crosses irq irq'))
      (if Takes irq irq' then some (irq.dev.output.getD 0) else taken) irq'.dev irq'.guest := by
  obtain ⟨-, same⟩ := inb_status e
  have next : Phase entry crossed taken irq'.dev irq'.guest :=
    h.done at_ (goes ▸ done_branch byte full_ empty_) same.config
  refine Phase.aside ?_ ?_ (waits_same w same) next
  · intro asks
    rw [asks] at at_
    exact at_
  · intro takes
    rw [takes] at at_
    exact at_

/-- A step of the guest takes one phase to the next. -/
lemma Phase.step {irq irq' : Irq1} (w : irq.dev.Waits)
    (h : Phase entry crossed taken irq.dev irq.guest) (step : Irq1.Step irq irq') :
    irq'.dev.Waits ∧ Phase entry (crossed || decide (Crosses irq irq'))
      (if Takes irq irq' then some (irq.dev.output.getD 0) else taken) irq'.dev irq'.guest := by
  cases step with
  | @key dev down keysym e =>
    have notTakes : ¬ Takes irq (irq.goes dev) := fun takes => takes.2 takes.1
    have notCrosses : ¬ Crosses irq (irq.goes dev) := fun crosses => crosses.2.1 crosses.1
    rw [if_neg notTakes, decide_eq_false notCrosses, Bool.or_false]
    exact ⟨(key_output w e).1, h.key w e⟩
  | start at_ =>
    have next := h
    rw [at_] at next
    exact Phase.aside (by simp [at_]) (by simp [at_]) w next
  | drainTest at_ e =>
    obtain ⟨-, same⟩ := inb_status e
    exact Phase.aside (by simp [at_]) (by simp [at_]) (waits_same w same) (h.drainTest at_ e)
  | drainData at_ e =>
    -- a read of data takes a byte and leaves the configuration
    obtain ⟨-, -, -, config, -⟩ := inb_data e
    have next := h
    rw [at_] at next
    exact Phase.aside (by simp [at_]) (by simp [at_]) (waits_data e) (config.trans next)
  | readConfig at_ e =>
    rw [taken_kept (by simp [at_])]
    exact ⟨waits_outb w e, h.ask w at_ e⟩
  | waitOutput at_ e =>
    obtain ⟨-, same⟩ := inb_status e
    exact Phase.aside (by simp [at_]) (by simp [at_]) (waits_same w same) (h.waitOutput at_ e)
  | takeConfig at_ e =>
    rw [crossed_kept (by simp [at_]), if_pos ⟨at_, by simp [goesTo]⟩]
    exact ⟨waits_data e, h.takeConfig at_ e⟩
  | writeCommand at_ e =>
    exact Phase.aside (by simp [at_]) (by simp [at_]) (waits_outb w e) (h.writeCommand at_ e)
  | writeConfig at_ e =>
    exact Phase.aside (by simp [at_]) (by simp [at_]) (waits_outb w e) (h.writeConfig at_ e)
  | route at_ =>
    exact Phase.aside (by simp [at_]) (by simp [at_]) w (h.done (at_ ▸ trivial) trivial rfl)
  | flushTest at_ e =>
    exact h.doneTest w (at_ ▸ trivial) e (show Done .flushData from trivial)
      (show Done .sti from trivial) rfl
  | flushData at_ e =>
    obtain ⟨-, -, -, config, -⟩ := inb_data e
    exact Phase.aside (by simp [at_]) (by simp [at_]) (waits_data e)
      (h.done (at_ ▸ trivial) trivial config)
  | sti at_ =>
    exact Phase.aside (by simp [at_]) (by simp [at_]) w (h.done (at_ ▸ trivial) trivial rfl)
  | flag enabled at_ =>
    exact Phase.aside (by simp [at_]) (by simp [at_]) w (h.done (at_ ▸ trivial) (at_ ▸ trivial) rfl)
  | interrupt at_ _ _ =>
    exact Phase.aside (by simp [at_]) (by simp [at_]) w (h.done (at_ ▸ trivial) trivial rfl)
  | test at_ e =>
    exact h.doneTest w (at_ ▸ trivial) e (show Done .data from trivial)
      (show Done .run from trivial) rfl
  | data at_ e =>
    obtain ⟨-, -, -, config, -⟩ := inb_data e
    exact Phase.aside (by simp [at_]) (by simp [at_]) (waits_data e)
      (h.done (at_ ▸ trivial) trivial config)

/-! ## Runs -/

/-- Every step keeps the invariant. -/
lemma Step.inv {s s' : SetUp} (h : s.Inv) (step : Step s s') : s'.Inv := by
  cases step with
  | step st =>
    obtain ⟨waits, phase⟩ := h.phase.step h.waits st
    exact ⟨waits, phase⟩
  | key down keysym run => exact ⟨(key_output h.waits run).1, h.phase.key h.waits run⟩

/-- It holds as the guest comes to `keyboard_init`. -/
lemma Init.inv {s : SetUp} (h : Init s) : s.Inv := by
  obtain ⟨t, ht, dev⟩ := h.dev
  refine ⟨?_, ?_⟩
  · rw [← dev]
    exact ht.inv.waits
  · rw [h.guest]
    exact h.entry.symm

/-- If no byte waited when the guest asked for the configuration, it takes the configuration for it,
and leaves it with the keyboard's interrupt and translation on and the keyboard enabled. -/
theorem config_kept {s : SetUp} (h : Reach Init Step s) (quiet : s.crossed = false)
    (done : Done s.irq.guest) :
    s.taken = some s.entry ∧
      s.irq.dev.config = (s.entry ||| (configKbdInt ||| configTranslate)) &&&
        ~~~configKbdDisable := by
  have inv : s.Inv := Reach.invariant (fun _ h => h.inv) (fun _ _ inv step => step.inv inv) h
  obtain ⟨byte, taken, config, same⟩ : Chosen s.entry s.crossed s.taken s.irq.dev.config :=
    inv.phase.done done (show Done .run from trivial) rfl
  rw [same quiet] at taken config
  exact ⟨taken, config⟩

/-- The guest comes to its set-up with a new controller. -/
def boot : SetUp where
  irq := Irq1.boot
  entry := 0x65
  taken := none
  crossed := false

/-- The example starts there. -/
lemma boot_init : Init boot := ⟨⟨Typed.new [], .init ⟨[], rfl⟩, rfl⟩, rfl, rfl, rfl, rfl⟩

/-- A key goes down after the guest has asked, and another one before
it writes the configuration. -/
theorem boot_configured : ∃ s, Reach Init Step s ∧ Done s.irq.guest ∧ s.taken = some 0x65 ∧
    s.irq.dev.config = 0x65 ∧
    s.irq.dev.output = some 0x1e ∧ s.irq.dev.queue = [0x30] := by
  have start : Reach Init Step boot := .init boot_init
  have entered := start.step (.step (.start rfl))
  have drained := entered.step (.step (.drainTest rfl rfl))
  have asked := drained.step (.step (.readConfig rfl rfl))
  have pressed := asked.step (.key true 0x61 rfl)
  have polled := pressed.step (.step (.waitOutput rfl rfl))
  have taken := polled.step (.step (.takeConfig rfl rfl))
  have command := taken.step (.step (.writeCommand rfl rfl))
  have other := command.step (.key true 0x62 rfl)
  have written := other.step (.step (.writeConfig rfl rfl))
  obtain ⟨kept, config⟩ := config_kept written rfl trivial
  exact ⟨_, written, trivial, kept, config, rfl, rfl⟩

/-- A key goes down after the guest drained the buffer: its scancode is
taken for the configuration. -/
theorem key_taken : ∃ s, Reach Init Step s ∧ Done s.irq.guest ∧ s.entry = 0x65 ∧
    s.taken = some 0x1e ∧
    s.irq.dev.config = 0x4f := by
  have start : Reach Init Step boot := .init boot_init
  have entered := start.step (.step (.start rfl))
  have drained := entered.step (.step (.drainTest rfl rfl))
  have pressed := drained.step (.key true 0x61 rfl)
  have asked := pressed.step (.step (.readConfig rfl rfl))
  have polled := asked.step (.step (.waitOutput rfl rfl))
  have taken := polled.step (.step (.takeConfig rfl rfl))
  have command := taken.step (.step (.writeCommand rfl rfl))
  have written := command.step (.step (.writeConfig rfl rfl))
  exact ⟨_, written, trivial, rfl, rfl, rfl⟩

end SetUp

end Hearth
