import Hearth.Keyboard.I8042
import Hearth.Lib.Transition

/-!
# The interrupt line of the keyboard controller

IRQ 1 is edge-triggered at the guest's interrupt controller, so a byte the guest is to be told
of needs the line low when it is loaded and high afterwards. `Feed` is what every command,
parameter and key does to the output buffer before the line is updated: it loads one byte at
most, and only into an empty buffer.
-/

namespace Hearth
open Lib

/-- The level of the line after these events; it starts low. -/
def lineLevel (events : List I8042Event) : Bool :=
  events.foldl (fun l e => match e with | .irq level => level | _ => l) false

/-- The line is low at first. -/
@[simp] lemma lineLevel_nil : lineLevel [] = false := rfl

/-- The line is where it was last set. -/
lemma lineLevel_concat (events : List I8042Event) (level : Bool) :
    lineLevel (events ++ [.irq level]) = level := by
  simp [lineLevel]

/-- Events that do not set the line leave it. -/
lemma lineLevel_append {events log : List I8042Event} (quiet : ∀ l, .irq l ∉ log) :
    lineLevel (events ++ log) = lineLevel events := by
  induction log generalizing events with
  | nil => rw [List.append_nil]
  | cons e log ih =>
    have quiet' : ∀ l, .irq l ∉ log := fun l h => quiet l (List.mem_cons_of_mem e h)
    rw [List.append_cons, ih quiet']
    cases e with
    | irq l => exact absurd List.mem_cons_self (quiet l)
    | _ => simp [lineLevel]

/-- The event moves a byte to the output buffer. -/
def I8042Event.Loads (e : I8042Event) : Prop := ∃ byte config, e = .load byte config

namespace I8042

/-- Interrupts for the keyboard are on. -/
def KbdInt (config : UInt8) : Prop := config &&& configKbdInt ≠ 0

/-- What an operation does to the output buffer before it updates the line. -/
structure Feed (s s' : I8042) (log : List I8042Event) : Prop where
  events : s'.events = s.events ++ log
  quiet : ∀ l, .irq l ∉ log
  irqLevel : s'.irqLevel = s.irqLevel
  fails : s'.irqLineFails = s.irqLineFails
  int : KbdInt s'.config ↔ KbdInt s.config
  waits : (s.output = none → s.queue = []) → s'.output = none → s'.queue = []
  /-- a full buffer is left full, and nothing is loaded into it -/
  full : s.output ≠ none → s'.output ≠ none ∧ ∀ e ∈ log, ¬ e.Loads
  once : ∀ pre byte config post, log = pre ++ .load byte config :: post →
    (KbdInt config ↔ KbdInt s.config) ∧ s'.output ≠ none ∧ ∀ e ∈ post, ¬ e.Loads

/-- A change that keeps the buffer, the line and whether interrupts are on. -/
lemma Feed.of_eq {s s' : I8042} {log : List I8042Event} (events : s'.events = s.events ++ log)
    (plain : ∀ e ∈ log, (∀ l, e ≠ .irq l) ∧ ¬ e.Loads) (irqLevel : s'.irqLevel = s.irqLevel)
    (fails : s'.irqLineFails = s.irqLineFails) (int : KbdInt s'.config ↔ KbdInt s.config)
    (output : s'.output = s.output)
    (queue : s.output = none → s.queue = [] → s'.queue = []) : Feed s s' log where
  events := events
  quiet := fun l hl => (plain _ hl).1 l rfl
  irqLevel := irqLevel
  fails := fails
  int := int
  waits := fun h h' => queue (output ▸ h') (h (output ▸ h'))
  full := fun h => ⟨by rwa [output], fun e he => (plain e he).2⟩
  once := by
    rintro pre byte config post rfl
    exact absurd ⟨byte, config, rfl⟩ (plain (.load byte config) (by simp)).2

/-- Two steps that feed the buffer in turn. -/
lemma Feed.trans {s s' s'' : I8042} {log log' : List I8042Event} (h : Feed s s' log)
    (h' : Feed s' s'' log') : Feed s s'' (log ++ log') where
  events := by rw [h'.events, h.events, List.append_assoc]
  quiet := by
    intro l hl
    rcases List.mem_append.mp hl with hl | hl
    · exact h.quiet l hl
    · exact h'.quiet l hl
  irqLevel := h'.irqLevel.trans h.irqLevel
  fails := h'.fails.trans h.fails
  int := h'.int.trans h.int
  waits := fun hw => h'.waits (h.waits hw)
  full := by
    intro ho
    obtain ⟨ho', hlog⟩ := h.full ho
    obtain ⟨ho'', hlog'⟩ := h'.full ho'
    exact ⟨ho'', fun e he => (List.mem_append.mp he).elim (hlog e) (hlog' e)⟩
  once := by
    intro pre byte config post e
    rcases List.append_eq_append_iff.mp e with ⟨a, rfl, e'⟩ | ⟨c, e', hc⟩
    · -- the byte is loaded by the second part
      obtain ⟨hint, ho, hpost⟩ := h'.once a byte config post e'
      exact ⟨hint.trans h.int, ho, hpost⟩
    · cases c with
      | nil =>
        obtain ⟨hint, ho, hpost⟩ := h'.once [] byte config post hc.symm
        exact ⟨hint.trans h.int, ho, hpost⟩
      | cons e c =>
        -- by the first: the buffer is full from then on
        obtain ⟨rfl, rfl⟩ := List.cons_eq_cons.mp hc
        obtain ⟨hint, ho, hpost⟩ := h.once pre byte config c e'
        obtain ⟨ho', hlog'⟩ := h'.full ho
        exact ⟨hint, ho', fun e he => (List.mem_append.mp he).elim (hpost e) (hlog' e)⟩

/-- Loading a byte into an empty buffer, after events that do not touch buffer and line. -/
lemma Feed.of_load {s s' : I8042} {log : List I8042Event} {byte : UInt8} (empty : s.output = none)
    (events : s'.events = s.events ++ (log ++ [.load byte s.config]))
    (plain : ∀ e ∈ log, (∀ l, e ≠ .irq l) ∧ ¬ e.Loads) (irqLevel : s'.irqLevel = s.irqLevel)
    (fails : s'.irqLineFails = s.irqLineFails) (config : s'.config = s.config)
    (output : s'.output = some byte) : Feed s s' (log ++ [.load byte s.config]) where
  events := events
  quiet := by
    intro l hl
    rcases List.mem_append.mp hl with hl | hl
    · exact (plain _ hl).1 l rfl
    · simp at hl
  irqLevel := irqLevel
  fails := fails
  int := by rw [config]
  waits := fun _ h => by rw [output] at h; cases h
  full := fun h => absurd empty h
  once := by
    intro pre byte' config' post e
    have hload : ∀ e ∈ log, e ≠ .load byte' config' := fun e he h => (plain e he).2 ⟨_, _, h⟩
    rcases List.append_eq_append_iff.mp e with ⟨a, rfl, e'⟩ | ⟨c, rfl, e'⟩
    · cases a with
      | nil =>
        cases e'
        exact ⟨Iff.rfl, by simp [output], by simp⟩
      | cons x a =>
        have := congrArg List.length e'
        simp at this
    · cases c with
      | nil =>
        cases e'
        exact ⟨Iff.rfl, by simp [output], by simp⟩
      | cons x c =>
        cases e'
        exact absurd rfl (hload _ (by simp))

/-- With nothing behind it the buffer is empty. -/
@[simp] lemma loadNext_nil {s : I8042} (h : s.queue = []) :
    s.loadNext = { s with output := none } := by
  unfold loadNext
  rw [h]

/-- The oldest byte of the queue comes next. -/
@[simp] lemma loadNext_cons {s : I8042} {byte : UInt8} {queue : List UInt8}
    (h : s.queue = byte :: queue) :
    s.loadNext = { s.note (.load byte s.config) with output := some byte, queue := queue } := by
  unfold loadNext
  rw [h]

/-- The buffer and the line before and after an operation that may load a byte. -/
def Feeds (s s' : I8042) : Prop := ∃ log, Feed s s' log

/-- Two steps that feed the buffer in turn, whatever they note. -/
lemma Feeds.trans {s s' s'' : I8042} (h : Feeds s s') (h' : Feeds s' s'') : Feeds s s'' := by
  obtain ⟨log, h⟩ := h
  obtain ⟨log', h'⟩ := h'
  exact ⟨_, h.trans h'⟩

/-- The next byte is fed to an empty buffer. -/
lemma loadNext_feeds {s : I8042} (empty : s.output = none) : Feeds s s.loadNext := by
  cases hq : s.queue with
  | nil =>
    rw [loadNext_nil hq]
    exact ⟨[], .of_eq (List.append_nil _).symm (by simp) rfl rfl Iff.rfl empty.symm fun _ => id⟩
  | cons byte queue =>
    rw [loadNext_cons hq]
    have feed : Feed s { s.note (.load byte s.config) with output := some byte, queue := queue }
        ([] ++ [.load byte s.config]) :=
      .of_load empty rfl (by simp) rfl rfl rfl rfl
    exact ⟨_, feed⟩

/-- A byte from the keyboard is fed. -/
lemma push_feeds (byte : UInt8) (s : I8042) : Feeds s (s.push byte) := by
  have plain : ∀ e ∈ [I8042Event.push byte], (∀ l, e ≠ .irq l) ∧ ¬ e.Loads := by
    rintro e he
    cases List.mem_singleton.mp he
    exact ⟨fun l => by simp, fun ⟨_, _, h⟩ => by cases h⟩
  cases ho : s.output with
  | some b =>
    have e : s.push byte = { s.note (.push byte) with queue := s.queue ++ [byte] } := by
      simp [push, note, ho]
    rw [e]
    exact ⟨_, .of_eq rfl plain rfl rfl Iff.rfl rfl fun h => by rw [ho] at h; cases h⟩
  | none =>
    obtain ⟨b, queue, hq⟩ := List.exists_cons_of_ne_nil (List.concat_ne_nil byte s.queue)
    have e : s.push byte =
        loadNext { s.note (.push byte) with queue := s.queue ++ [byte] } := by
      simp [push, note, ho]
    rw [e, @loadNext_cons _ b queue hq]
    exact ⟨_, .of_load ho (List.append_assoc _ _ _) plain rfl rfl rfl rfl⟩

/-- Changing a field that neither the buffer nor the line depends on. -/
lemma Feeds.of_fields {s s' : I8042} (events : s'.events = s.events)
    (irqLevel : s'.irqLevel = s.irqLevel) (fails : s'.irqLineFails = s.irqLineFails)
    (int : KbdInt s'.config ↔ KbdInt s.config) (output : s'.output = s.output)
    (queue : s.queue = [] → s'.queue = []) : Feeds s s' :=
  ⟨[], .of_eq (by rw [events, List.append_nil]) (by simp) irqLevel fails int output fun _ => queue⟩

/-- A byte more is fed behind the others. -/
lemma Feeds.push {s s' : I8042} (h : Feeds s s') (byte : UInt8) : Feeds s (s'.push byte) :=
  h.trans (push_feeds byte s')

/-- Doing nothing feeds nothing. -/
lemma Feeds.refl (s : I8042) : Feeds s s := .of_fields rfl rfl rfl Iff.rfl rfl id

/-- The other bits of the configuration can be set and cleared. -/
lemma kbdInt_or {config bits : UInt8} (h : bits &&& configKbdInt = 0) :
    KbdInt (config ||| bits) ↔ KbdInt config := by
  unfold KbdInt
  have e : (config ||| bits) &&& configKbdInt =
      (config &&& configKbdInt) ||| (bits &&& configKbdInt) :=
    UInt8.eq_of_toBitVec_eq BitVec.and_or_distrib_right
  rw [e, h, UInt8.or_zero]

/-- A mask that leaves the interrupt's bit leaves whether it is on. -/
lemma kbdInt_and {config bits : UInt8} (h : bits &&& configKbdInt = configKbdInt) :
    KbdInt (config &&& bits) ↔ KbdInt config := by
  unfold KbdInt
  rw [UInt8.and_assoc, h]

/-- A command to the controller feeds its answer. -/
lemma controllerCommand_feeds (cmd : UInt8) (s : I8042) : Feeds s (s.controllerCommand cmd) := by
  unfold controllerCommand
  split_ifs
  · exact push_feeds _ s
  · exact .of_fields rfl rfl rfl Iff.rfl rfl id
  · exact .of_fields rfl rfl rfl (kbdInt_or (by decide)) rfl id
  · exact .of_fields rfl rfl rfl (kbdInt_and (by decide)) rfl id
  · apply Feeds.push
    exact .of_fields rfl rfl rfl (kbdInt_or (by decide)) rfl id
  · exact push_feeds _ s
  · exact .of_fields rfl rfl rfl (kbdInt_or (by decide)) rfl id
  · exact .of_fields rfl rfl rfl (kbdInt_and (by decide)) rfl id
  · refine ⟨[.stop], .of_eq rfl ?_ rfl rfl Iff.rfl rfl fun _ => id⟩
    rintro e he
    cases List.mem_singleton.mp he
    exact ⟨fun l => by simp, fun ⟨_, _, h⟩ => by cases h⟩
  · exact .refl s

/-- Only `CMD_WRITE_CONFIG` turns interrupts on and off. -/
lemma takeControllerParam_feeds (cmd byte : UInt8) (s : I8042) :
    ∃ config, Feeds { s with config } (s.takeControllerParam cmd byte) := by
  unfold takeControllerParam
  split_ifs
  · exact ⟨byte, .refl _⟩
  · exact ⟨s.config, controllerCommand_feeds _ s⟩
  · exact ⟨s.config, push_feeds _ s⟩
  · exact ⟨s.config, .refl s⟩

/-- A parameter for the keyboard feeds its acknowledgement. -/
lemma takeKeyboardParam_feeds (cmd byte : UInt8) (s : I8042) :
    Feeds s (s.takeKeyboardParam cmd byte) := by
  unfold takeKeyboardParam
  split_ifs
  · exact (push_feeds kbdAck s).push 1
  · exact push_feeds _ s

/-- A command to the keyboard feeds its answer. -/
lemma newKeyboardCommand_feeds (byte : UInt8) (s : I8042) :
    Feeds s (s.newKeyboardCommand byte) := by
  unfold newKeyboardCommand
  split_ifs
  · apply Feeds.push
    exact .of_fields rfl rfl rfl Iff.rfl rfl id
  · exact push_feeds _ s
  · exact ((push_feeds kbdAck s).push 0xab).push 0x83
  · apply Feeds.push
    exact .of_fields rfl rfl rfl Iff.rfl rfl id
  · apply Feeds.push
    exact .of_fields rfl rfl rfl Iff.rfl rfl id
  · apply Feeds.push
    apply Feeds.push
    exact .of_fields rfl rfl rfl Iff.rfl rfl fun _ => rfl
  · exact push_feeds _ s

/-- A byte for the keyboard feeds what it answers. -/
lemma keyboardCommand_feeds (byte : UInt8) (s : I8042) : Feeds s (s.keyboardCommand byte) := by
  unfold keyboardCommand
  have enable : Feeds s { s with config := s.config &&& ~~~configKbdDisable } :=
    .of_fields rfl rfl rfl (kbdInt_and (by decide)) rfl id
  apply enable.trans
  dsimp only
  split
  · next cmd _ =>
    apply Feeds.trans _ (takeKeyboardParam_feeds cmd byte _)
    exact .of_fields rfl rfl rfl Iff.rfl rfl id
  · exact newKeyboardCommand_feeds byte _

/-! ## Operations -/

/-- Each byte loaded under an enabled interrupt finds the line low and has a rise of its own. -/
def EachRises (events log : List I8042Event) : Prop :=
  ∀ pre byte config post, log = pre ++ .load byte config :: post → KbdInt config →
    lineLevel (events ++ pre) = false ∧
      ∃ mid post', post = mid ++ .irq true :: post' ∧ (∀ e ∈ mid, ¬ e.Loads) ∧
        lineLevel (events ++ (pre ++ .load byte config :: mid)) = false

/-- Without a load there is nothing to raise the line for. -/
lemma eachRises_of_quiet {events log : List I8042Event} (quiet : ∀ e ∈ log, ¬ e.Loads) :
    EachRises events log := by
  rintro pre byte config post rfl
  exact absurd ⟨byte, config, rfl⟩ (quiet (.load byte config) (by simp))

/-- The line was last driven to `irqLevel`, which is low while the buffer is empty. -/
structure Settled (s : I8042) : Prop where
  line : lineLevel s.events = s.irqLevel
  low : s.output = none → s.irqLevel = false
  fails : s.irqLineFails = []

/-- The line is set to the level, unless it is there. -/
lemma updateIrq_run {s : I8042} (hf : s.irqLineFails = []) :
    ∃ log, (log = [] ∧ s.irqLevel = s.level ∨ log = [.irq s.level]) ∧
      updateIrq s = (.ok (), { s with irqLevel := s.level, events := s.events ++ log }) := by
  unfold updateIrq
  by_cases h : s.level = s.irqLevel
  · refine ⟨[], .inl ⟨rfl, h.symm⟩, ?_⟩
    rw [if_neg (not_not.mpr h), List.append_nil, h]
  · refine ⟨[.irq s.level], .inr rfl, ?_⟩
    rw [if_pos h, archUpdateIrq]
    simp only [hf, note]

/-- The level is high if a byte waits and the keyboard interrupts. -/
lemma level_eq_true {s : I8042} : s.level = true ↔ s.output ≠ none ∧ KbdInt s.config := by
  unfold level KbdInt
  cases s.output <;> simp

/-- Updating the line after a byte may have been loaded. -/
lemma Feed.settle {s s' : I8042} {log : List I8042Event} (h : Feed s s' log) (hs : s.Settled) :
    ∃ s'' log', updateIrq s' = (.ok (), s'') ∧ s''.events = s.events ++ (log ++ log') ∧
      s''.output = s'.output ∧ s''.queue = s'.queue ∧ s''.irqLevel = s''.level ∧ s''.Settled ∧
      EachRises s.events (log ++ log') := by
  have hfails : s'.irqLineFails = [] := h.fails.trans hs.fails
  obtain ⟨log', hlog', e⟩ := updateIrq_run hfails
  have hline : lineLevel s'.events = s'.irqLevel := by
    rw [h.events, lineLevel_append h.quiet, hs.line, h.irqLevel]
  have hline' : lineLevel (s'.events ++ log') = s'.level := by
    rcases hlog' with ⟨rfl, hl⟩ | rfl
    · rw [List.append_nil, hline, hl]
    · exact lineLevel_concat _ _
  refine ⟨_, log', e, by simp only [h.events, List.append_assoc], rfl, rfl, rfl,
    ⟨hline', fun ho => ?_, hfails⟩, ?_⟩
  · show s'.level = false
    rw [Bool.eq_false_iff, Ne, level_eq_true]
    exact fun hl => hl.1 ho
  · intro pre byte config post hsplit hint
    -- the byte is among what was loaded before the line was updated
    obtain ⟨post', rfl, rfl⟩ : ∃ post', post = post' ++ log' ∧
        log = pre ++ .load byte config :: post' := by
      rcases List.append_eq_append_iff.mp hsplit with ⟨a, rfl, e'⟩ | ⟨c, rfl, e'⟩
      · have hmem : .load byte config ∈ log' := by rw [e']; simp
        rcases hlog' with ⟨rfl, -⟩ | rfl
        · cases hmem
        · simp at hmem
      · cases c with
        | nil =>
          rcases hlog' with ⟨rfl, -⟩ | rfl <;> cases e'
        | cons x c =>
          cases e'
          exact ⟨c, rfl, rfl⟩
    obtain ⟨hc, ho, hpost⟩ := h.once pre byte config post' rfl
    have hlow : s.irqLevel = false := by
      apply hs.low
      by_contra hfull
      exact (h.full hfull).2 _ (by simp) ⟨byte, config, rfl⟩
    have hhigh : s'.level = true := level_eq_true.mpr ⟨ho, h.int.mpr (hc.mp hint)⟩
    have hlog : log' = [.irq true] := by
      rcases hlog' with ⟨-, hl⟩ | rfl
      · rw [h.irqLevel, hlow, hhigh] at hl
        cases hl
      · rw [hhigh]
    have hpre : ∀ l, .irq l ∉ pre := fun l hl => h.quiet l (List.mem_append_left _ hl)
    refine ⟨?_, post', [], by rw [hlog], hpost, ?_⟩
    · rw [lineLevel_append hpre, hs.line, hlow]
    · rw [lineLevel_append h.quiet, hs.line, hlow]

/-- What holds between operations. -/
structure Inv (s : I8042) : Prop where
  line : lineLevel s.events = s.irqLevel
  level : s.irqLevel = s.level
  waits : s.output = none → s.queue = []
  fails : s.irqLineFails = []

/-- Between operations the line is settled. -/
lemma Inv.settled {s : I8042} (h : s.Inv) : s.Settled where
  line := h.line
  low := by
    intro ho
    rw [h.level, Bool.eq_false_iff, Ne, level_eq_true]
    exact fun hl => hl.1 ho
  fails := h.fails

/-- An operation up to its last update of the line. -/
structure Prepared (s s' : I8042) (before log : List I8042Event) (s₀ : I8042) : Prop where
  settled : s₀.Settled
  events : s₀.events = s.events ++ before
  quiet : ∀ e ∈ before, ¬ e.Loads
  feed : Feed s₀ s' log
  waits : s'.output = none → s'.queue = []

/-- A feed, possibly under a new configuration, is all there is to most operations. -/
lemma Inv.prepared {s s' : I8042} (h : s.Inv) (config : UInt8)
    (feeds : Feeds { s with config } s') : ∃ before log s₀, Prepared s s' before log s₀ := by
  obtain ⟨log, feed⟩ := feeds
  refine ⟨[], log, { s with config }, ⟨h.line, h.settled.low, h.fails⟩, ?_, by simp, feed, ?_⟩
  · exact (List.append_nil _).symm
  · exact feed.waits h.waits

/-- Reading the data port drops the line before the next byte is loaded. -/
lemma readData_prepared {s : I8042} (h : s.Inv) :
    ∃ s', readData s = (.ok (s.output.getD 0), s') ∧
      ∃ before log s₀, Prepared s s' before log s₀ := by
  set taken : I8042 := { s with output := none }
  obtain ⟨before, hbefore, e⟩ := updateIrq_run (s := taken) h.fails
  have hlow : taken.level = false := rfl
  set dropped : I8042 := { taken with irqLevel := taken.level, events := taken.events ++ before }
  have hread : readData s = (.ok (s.output.getD 0), dropped.loadNext) := by
    unfold readData
    rw [Eff.gets_bind_run, Eff.modify_bind_run, Eff.bind_of_ok e]
    rfl
  refine ⟨_, hread, before, ?_⟩
  obtain ⟨log, feed⟩ := loadNext_feeds (s := dropped) rfl
  refine ⟨log, dropped, ⟨?_, fun _ => rfl, h.fails⟩, rfl, ?_, feed, ?_⟩
  · show lineLevel (s.events ++ before) = taken.level
    rcases hbefore with ⟨rfl, hl⟩ | rfl
    · rw [List.append_nil, h.line]
      exact hl
    · exact lineLevel_concat _ _
  · rcases hbefore with ⟨rfl, -⟩ | rfl
    · simp
    · rintro e he ⟨byte, config, rfl⟩
      simp at he
  · cases hq : dropped.queue with
    | nil =>
      rw [loadNext_nil hq]
      exact fun _ => hq
    | cons byte queue =>
      rw [loadNext_cons hq]
      exact fun ho => by cases ho

/-- Updating the line after the buffer was fed: every load has its rise. -/
lemma Prepared.finish {s s' s₀ : I8042} {before log : List I8042Event}
    (h : Prepared s s' before log s₀) :
    ∃ s'' events, updateIrq s' = (.ok (), s'') ∧ s''.Inv ∧ s''.events = s.events ++ events ∧
      EachRises s.events events := by
  obtain ⟨s'', log', e, hevents, ho, hq, hlevel, hsettled, hrises⟩ := h.feed.settle h.settled
  refine ⟨s'', before ++ (log ++ log'), e, ⟨hsettled.line, hlevel, ?_, hsettled.fails⟩, ?_, ?_⟩
  · rw [ho, hq]
    exact h.waits
  · rw [hevents, h.events, List.append_assoc]
  · rw [h.events] at hrises
    intro pre byte config post hsplit hint
    rcases List.append_eq_append_iff.mp hsplit with ⟨a, rfl, e'⟩ | ⟨c, rfl, e'⟩
    · obtain ⟨hlow, mid, post', rfl, hmid, hlow'⟩ := hrises a byte config post e' hint
      simp only [List.append_assoc] at hlow hlow' ⊢
      exact ⟨hlow, mid, post', rfl, hmid, hlow'⟩
    · cases c with
      | nil =>
        obtain ⟨hlow, mid, post', rfl, hmid, hlow'⟩ := hrises [] byte config post e'.symm hint
        simp only [List.append_assoc, List.append_nil, List.nil_append] at hlow hlow' ⊢
        exact ⟨hlow, mid, post', rfl, hmid, hlow'⟩
      | cons x c =>
        cases e'
        exact absurd ⟨byte, config, rfl⟩ (h.quiet (.load byte config) (by simp))

/-- An access that returns has the line still to be updated. -/
lemma access_prepared {io : PortIo} {data data' : List UInt8} {s s' : I8042} (h : s.Inv)
    (e : access io data s = (.ok data', s')) : ∃ before log s₀, Prepared s s' before log s₀ := by
  unfold access at e
  -- in the order of the source: reads of data and of the status, other reads, then the writes
  split_ifs at e with hin hdata hcommand hout hdata hcommand
  · obtain ⟨s₁, hread, hprep⟩ := readData_prepared h
    rw [Eff.bind_of_ok hread] at e
    cases data with
    | nil => cases e
    | cons b data => cases e; exact hprep
  · rw [Eff.gets_bind_run] at e
    cases data with
    | nil => cases e
    | cons b data => cases e; exact h.prepared s.config (.refl s)
  · cases e
    exact h.prepared s.config (.refl s)
  · rw [Eff.modify_bind_run, Eff.gets_bind_run, Eff.modify_bind_run] at e
    cases data with
    | nil => cases e
    | cons byte data =>
      -- a parameter goes to the controller if it waits for one, else to the keyboard
      simp only [List.head?_cons, Eff.unwrap_some, Eff.pure_bind_run] at e
      cases hp : s.controllerParam with
      | none =>
        rw [hp] at e
        cases e
        apply h.prepared s.config
        apply Feeds.trans _ (keyboardCommand_feeds byte _)
        exact .of_fields rfl rfl rfl Iff.rfl rfl id
      | some cmd =>
        rw [hp] at e
        cases e
        obtain ⟨config, feeds⟩ := takeControllerParam_feeds cmd byte
          { s with statusCmd := false, controllerParam := none }
        apply h.prepared config
        apply Feeds.trans _ feeds
        exact .of_fields rfl rfl rfl Iff.rfl rfl id
  · rw [Eff.modify_bind_run] at e
    cases data with
    | nil => cases e
    | cons cmd data =>
      cases e
      apply h.prepared s.config
      apply Feeds.trans _ (controllerCommand_feeds cmd _)
      exact .of_fields rfl rfl rfl Iff.rfl rfl id
  · cases e
    exact h.prepared s.config (.refl s)
  · cases e
    exact h.prepared s.config (.refl s)

/-- A port access by a vcpu, or a key that a frontend saw. -/
inductive Op where
  | access (io : PortIo) (buffer : List UInt8)
  | key (down : Bool) (keysym : UInt32)

/-- Runs the operation; of an access, the data are dropped. -/
def Op.run : Op → I8042M Unit
  | .access io buffer => do
    let _ ← handle io buffer
    pure ()
  | .key down keysym => keyEvent down keysym

/-- One operation that completes. -/
def Step (s s' : I8042) : Prop := ∃ op : Op, op.run s = (.ok (), s')

/-- Every load of an access raises the line. -/
lemma handle_spec {io : PortIo} {buffer buffer' : List UInt8} {s s' : I8042} (h : s.Inv)
    (e : handle io buffer s = (.ok buffer', s')) :
    s'.Inv ∧ ∃ log, s'.events = s.events ++ log ∧ EachRises s.events log := by
  obtain ⟨data, s₁, e₁, e₂⟩ := Eff.bind_ok_iff.mp e
  obtain ⟨before, log, s₀, hprep⟩ := access_prepared h e₁
  obtain ⟨s₂, events, hirq, hinv, hevents, hrises⟩ := hprep.finish
  rw [Eff.bind_of_ok hirq] at e₂
  cases e₂
  exact ⟨hinv, events, hevents, hrises⟩

/-- Every load of a key raises the line. -/
lemma keyEvent_spec {down : Bool} {keysym : UInt32} {s s' : I8042} (h : s.Inv)
    (e : keyEvent down keysym s = (.ok (), s')) :
    s'.Inv ∧ ∃ log, s'.events = s.events ++ log ∧ EachRises s.events log := by
  have idle : s.Inv ∧ ∃ log, s.events = s.events ++ log ∧ EachRises s.events log :=
    ⟨h, [], (List.append_nil _).symm, eachRises_of_quiet (by simp)⟩
  unfold keyEvent at e
  rw [Eff.gets_bind_run] at e
  split at e
  · cases e
    exact idle
  · cases hk : keysymToSet1 keysym with
    | none =>
      rw [hk] at e
      cases e
      exact idle
    | some key =>
      obtain ⟨extended, code⟩ := key
      rw [hk] at e
      obtain ⟨s₁, feeds, e₁⟩ : ∃ s₁, Feeds s s₁ ∧ updateIrq s₁ = (.ok (), s') := by
        cases extended with
        | false =>
          exact ⟨_, push_feeds _ s, e⟩
        | true =>
          exact ⟨_, (push_feeds 0xe0 s).push _, e⟩
      obtain ⟨before, log, s₀, hprep⟩ := h.prepared s.config feeds
      obtain ⟨s₂, events, hirq, hinv, hevents, hrises⟩ := hprep.finish
      rw [hirq] at e₁
      cases e₁
      exact ⟨hinv, events, hevents, hrises⟩

/-- Every load of a step raises the line. -/
lemma step_spec {s s' : I8042} (h : s.Inv) (st : Step s s') :
    s'.Inv ∧ ∃ log, s'.events = s.events ++ log ∧ EachRises s.events log := by
  obtain ⟨op, e⟩ := st
  cases op with
  | access io buffer =>
    obtain ⟨data, s₁, e₁, e₂⟩ := Eff.bind_ok_iff.mp e
    cases e₂
    exact handle_spec h e₁
  | key down keysym => exact keyEvent_spec h e

/-- The states that operations lead to when `KVM_IRQ_LINE` never fails. -/
abbrev Reachable : I8042 → Prop := Reach (· = new []) Step

/-- A new controller's line is settled. -/
lemma new_inv : (new []).Inv := ⟨rfl, rfl, fun _ => rfl, rfl⟩

/-- The line of a controller that can be reached is settled. -/
lemma Reachable.inv {s : I8042} (h : Reachable s) : s.Inv := by
  apply Reach.invariant (I := Inv) _ _ h
  · rintro s rfl
    exact new_inv
  · exact fun s s' hs st => (step_spec hs st).1

/-- After every operation the line is high exactly when a byte waits in the output buffer with
interrupts on, and every byte loaded with interrupts on has had its own rise by then. -/
theorem line_follows_buffer {s : I8042} (h : Reachable s) :
    (lineLevel s.events = true ↔ s.output ≠ none ∧ KbdInt s.config) ∧
      (s.queue ≠ [] → s.output ≠ none) ∧
      ∀ s', Step s s' → ∃ log, s'.events = s.events ++ log ∧ EachRises s.events log := by
  have inv := h.inv
  refine ⟨?_, fun hq ho => hq (inv.waits ho), fun s' st => (step_spec inv st).2⟩
  rw [inv.line, inv.level, level_eq_true]

/-- A new device on which the key `a` went down. -/
def pressed : I8042 := (keyEvent true 0x61 (new [])).2

/-- A controller whose keyboard was turned on and a key pressed. -/
lemma pressed_reachable : Reachable pressed :=
  .step (.init rfl) ⟨.key true 0x61, rfl⟩

/-- The key has raised the line. -/
theorem pressed_raises : lineLevel pressed.events = true :=
  (line_follows_buffer pressed_reachable).1.mpr ⟨by decide, by unfold KbdInt; decide⟩

end I8042

end Hearth
