import Hearth.Keyboard.Guest

/-!
# The keyboard interrupt of the guest

The guest's set-up of the keyboard and its interrupt handler against frontends that press keys at
any time. An interrupt input latches a rise of IRQ 1 from the moment the guest has routed the pin;
the handler takes the latch when it is entered. A byte that waits while the handler is not running
has an edge latched for it, so the handler will run.
-/

namespace Hearth
open Lib I8042

/-- The line goes from low to high in these events. -/
def rises : Bool → List I8042Event → Bool
  | _, [] => false
  | level, .irq l :: rest => (!level && l) || rises l rest
  | level, _ :: rest => rises level rest

/-- The line rose on the way from one state of the device to the next. -/
def rose (s s' : I8042) : Bool := rises (lineLevel s.events) (s'.events.drop s.events.length)

/-- A line that was low and is high has risen. -/
lemma rises_of_levels {level : Bool} {log : List I8042Event} (low : level = false)
    (high : log.foldl (fun l e => match e with | .irq level => level | _ => l) level = true) :
    rises level log = true := by
  induction log generalizing level with
  | nil =>
    rw [low] at high
    cases high
  | cons e log ih =>
    cases e with
    | irq l =>
      cases l with
      | true => rw [low]; rfl
      | false =>
        show (!level && false || rises false log) = true
        rw [ih rfl high, Bool.or_true]
    | _ => exact ih low high

/-- A byte in a buffer that was empty comes with a rise. -/
lemma rose_of_fill {s s' : I8042} (h : s.Inv) (h' : s'.Inv) (int : KbdInt s'.config)
    (log : ∃ log, s'.events = s.events ++ log ∧ EachRises s.events log) (empty : s.output = none)
    (full : s'.output ≠ none) : rose s s' = true := by
  obtain ⟨log, e, -⟩ := log
  have low : lineLevel s.events = false := h.line.trans (h.settled.low empty)
  have high : lineLevel s'.events = true := by
    rw [h'.line, h'.level, level_eq_true]
    exact ⟨full, int⟩
  rw [rose, e, List.drop_left]
  apply rises_of_levels low
  rw [e, lineLevel, List.foldl_append] at high
  exact high

/-! ## What an access does to the device -/

section Access

variable {port : UInt16} {s s' : I8042} {byte : UInt8}

/-- Every load of a read raises the line. -/
lemma inb_spec (h : s.Inv) (e : inb port s = (.ok byte, s')) :
    s'.Inv ∧ ∃ log, s'.events = s.events ++ log ∧ EachRises s.events log := by
  obtain ⟨data, s₁, hhandle, hpure⟩ := Eff.bind_ok_iff.mp e
  cases hpure
  exact handle_spec h hhandle

/-- Every load of a write raises the line. -/
lemma outb_spec (h : s.Inv) (e : outb port byte s = (.ok (), s')) :
    s'.Inv ∧ ∃ log, s'.events = s.events ++ log ∧ EachRises s.events log := by
  obtain ⟨data, s₁, hhandle, hpure⟩ := Eff.bind_ok_iff.mp e
  cases hpure
  exact handle_spec h hhandle

/-- A write to a port, up to the last update of the line. -/
lemma outb_access (e : outb port byte s = (.ok (), s')) :
    ∃ data s₁, access ⟨kvmExitIoOut, 1, port, 1⟩ [byte] s = (.ok data, s₁) ∧ SameBuffer s₁ s' := by
  obtain ⟨buffer, s₂, hhandle, hpure⟩ := Eff.bind_ok_iff.mp e
  obtain ⟨data, s₁, haccess, hrest⟩ := Eff.bind_ok_iff.mp hhandle
  obtain ⟨u, s₃, hirq, hpure'⟩ := Eff.bind_ok_iff.mp hrest
  have same := updateIrq_same s₁
  rw [hirq] at same
  cases hpure'
  cases hpure
  exact ⟨data, s₁, haccess, same⟩

/-- A byte that is pushed leaves the configuration, and the command that waits for its byte. -/
lemma push_config (byte : UInt8) (s : I8042) :
    (s.push byte).config = s.config ∧ (s.push byte).controllerParam = s.controllerParam := by
  unfold I8042.push loadNext
  dsimp only
  split
  · split <;> exact ⟨rfl, rfl⟩
  · exact ⟨rfl, rfl⟩

/-- A key leaves the configuration, and the command that waits for its byte. -/
lemma keyEvent_config {down : Bool} {keysym : UInt32} {o : Outcome IoError Unit}
    (e : keyEvent down keysym s = (o, s')) :
    s'.config = s.config ∧ s'.controllerParam = s.controllerParam := by
  unfold keyEvent at e
  rw [Eff.gets_bind_run] at e
  split at e
  · cases e
    exact ⟨rfl, rfl⟩
  · cases hk : keysymToSet1 keysym with
    | none =>
      rw [hk] at e
      cases e
      exact ⟨rfl, rfl⟩
    | some key =>
      obtain ⟨extended, code⟩ := key
      rw [hk] at e
      cases extended with
      | false =>
        have same := updateIrq_same (s.push (if down then code else code ||| 0x80))
        obtain ⟨hc, hp⟩ := push_config (if down then code else code ||| 0x80) s
        obtain rfl : (updateIrq _).2 = s' := congrArg Prod.snd e
        exact ⟨same.config.trans hc, same.controllerParam.trans hp⟩
      | true =>
        have same := updateIrq_same ((s.push 0xe0).push (if down then code else code ||| 0x80))
        obtain ⟨hc₁, hp₁⟩ := push_config 0xe0 s
        obtain ⟨hc, hp⟩ := push_config (if down then code else code ||| 0x80) (s.push 0xe0)
        obtain rfl : (updateIrq _).2 = s' := congrArg Prod.snd e
        exact ⟨same.config.trans (hc.trans hc₁), same.controllerParam.trans (hp.trans hp₁)⟩

/-- The command to write the configuration waits for its byte. -/
lemma outb_writeCommand (e : outb i8042Command cmdWriteConfig s = (.ok (), s')) :
    s'.controllerParam = some cmdWriteConfig := by
  obtain ⟨data, s₁, haccess, same⟩ := outb_access e
  cases haccess
  exact same.controllerParam

/-- The byte after the command is the new configuration. -/
lemma outb_writeConfig (e : outb i8042Data byte s = (.ok (), s'))
    (param : s.controllerParam = some cmdWriteConfig) : s'.config = byte := by
  obtain ⟨data, s₁, haccess, same⟩ := outb_access e
  have hwrite : access ⟨kvmExitIoOut, 1, i8042Data, 1⟩ [byte] s = (.ok [byte],
      takeControllerParam cmdWriteConfig byte
        { s with statusCmd := false, controllerParam := none }) := by
    unfold access
    rw [if_neg (by decide), if_pos rfl, if_pos rfl, Eff.modify_bind_run, Eff.gets_bind_run,
      Eff.modify_bind_run]
    dsimp only
    rw [param]
    rfl
  rw [hwrite] at haccess
  cases haccess
  exact same.config

end Access

/-! ## Set-up and handler -/

/-- How often the guest looks for the answer. -/
def waitLoops : Nat := 100000

/-- The next access of the guest: in `keyboard_init`, in the game, or in the handler. -/
inductive GuestAt where
  /-- before the `cli` of `keyboard_init` -/
  | start
  | drainTest
  | drainData
  | readConfig
  /-- about to poll the status the `i`-th time -/
  | waitOutput (i : Nat)
  | takeConfig
  | writeCommand (config : UInt8)
  | writeConfig (config : UInt8)
  | route
  /-- in the `keyboard_interrupt` that `keyboard_init` calls -/
  | flushTest
  | flushData
  | sti
  /-- in the game -/
  | run
  /-- in the handler -/
  | test
  | data
  deriving DecidableEq, Repr

/-- `keyboard_init` has not come to the routing of the pin. -/
def GuestAt.Unrouted : GuestAt → Prop
  | .flushTest | .flushData | .sti | .run | .test | .data => False
  | _ => True

/-- The controller, the interrupt pin and the guest. -/
structure Irq1 where
  dev : I8042
  /-- the pin is unmasked -/
  routed : Bool
  latched : Bool
  /-- the interrupt flag -/
  enabled : Bool
  guest : GuestAt

namespace Irq1

/-- The device has gone on to `dev`: a rise is latched if the pin is routed. -/
def goes (s : Irq1) (dev : I8042) : Irq1 :=
  { s with dev, latched := s.latched || s.routed && rose s.dev dev }

/-- The device and the guest have both gone on. -/
def goesTo (s : Irq1) (dev : I8042) (guest : GuestAt) : Irq1 := { s.goes dev with guest }

/-- A test of the status by the guest: one way if a byte waits, another if not. -/
def branch (byte : UInt8) (full empty : GuestAt) : GuestAt :=
  if byte &&& statusObf ≠ 0 then full else empty

/-- The configuration `keyboard_init` writes back. -/
def newConfig (config : UInt8) : UInt8 :=
  (config ||| (configKbdInt ||| configTranslate)) &&& ~~~configKbdDisable

/-- The steps of the keyboard, the pin and the guest. -/
inductive Step : Irq1 → Irq1 → Prop where
  | key {s dev} (down : Bool) (keysym : UInt32) (e : keyEvent down keysym s.dev = (.ok (), dev)) :
    Step s (s.goes dev)
  | start {s} (at_ : s.guest = .start) : Step s { s with enabled := false, guest := .drainTest }
  | drainTest {s byte dev} (at_ : s.guest = .drainTest)
    (e : inb i8042Command s.dev = (.ok byte, dev)) :
    Step s (s.goesTo dev (branch byte .drainData .readConfig))
  | drainData {s byte dev} (at_ : s.guest = .drainData)
    (e : inb i8042Data s.dev = (.ok byte, dev)) : Step s (s.goesTo dev .drainTest)
  | readConfig {s dev} (at_ : s.guest = .readConfig)
    (e : outb i8042Command cmdReadConfig s.dev = (.ok (), dev)) :
    Step s (s.goesTo dev (.waitOutput 0))
  /-- after the last poll the set-up gives up -/
  | waitOutput {s i byte dev} (at_ : s.guest = .waitOutput i)
    (e : inb i8042Command s.dev = (.ok byte, dev)) :
    Step s (s.goesTo dev
      (branch byte .takeConfig (if i + 1 < waitLoops then .waitOutput (i + 1) else .sti)))
  | takeConfig {s byte dev} (at_ : s.guest = .takeConfig)
    (e : inb i8042Data s.dev = (.ok byte, dev)) :
    Step s (s.goesTo dev (.writeCommand (newConfig byte)))
  | writeCommand {s config dev} (at_ : s.guest = .writeCommand config)
    (e : outb i8042Command cmdWriteConfig s.dev = (.ok (), dev)) :
    Step s (s.goesTo dev (.writeConfig config))
  | writeConfig {s config dev} (at_ : s.guest = .writeConfig config)
    (e : outb i8042Data config s.dev = (.ok (), dev)) : Step s (s.goesTo dev .route)
  | route {s} (at_ : s.guest = .route) : Step s { s with routed := true, guest := .flushTest }
  | flushTest {s byte dev} (at_ : s.guest = .flushTest)
    (e : inb i8042Command s.dev = (.ok byte, dev)) :
    Step s (s.goesTo dev (branch byte .flushData .sti))
  | flushData {s byte dev} (at_ : s.guest = .flushData)
    (e : inb i8042Data s.dev = (.ok byte, dev)) : Step s (s.goesTo dev .flushTest)
  | sti {s} (at_ : s.guest = .sti) : Step s { s with enabled := true, guest := .run }
  /-- the game masks and unmasks interrupts, as other handlers do by running -/
  | flag {s} (enabled : Bool) (at_ : s.guest = .run) : Step s { s with enabled }
  /-- a latched edge is delivered -/
  | interrupt {s} (at_ : s.guest = .run) (enabled : s.enabled = true) (latched : s.latched = true) :
    Step s { s with latched := false, enabled := false, guest := .test }
  | test {s byte dev} (at_ : s.guest = .test) (e : inb i8042Command s.dev = (.ok byte, dev)) :
    Step s { s.goesTo dev (branch byte .data .run) with
             enabled := byte &&& statusObf = 0 }
  | data {s byte dev} (at_ : s.guest = .data) (e : inb i8042Data s.dev = (.ok byte, dev)) :
    Step s (s.goesTo dev .test)

/-- The guest comes to `keyboard_init` with the controller in any state it can be in. -/
structure Init (s : Irq1) : Prop where
  dev : s.dev.Reachable
  routed : s.routed = false
  latched : s.latched = false
  guest : s.guest = .start

/-- The configuration written back has the interrupt on. -/
lemma newConfig_int (config : UInt8) : KbdInt (newConfig config) := by
  unfold newConfig
  rw [kbdInt_and (by decide), KbdInt]
  have e : (config ||| (configKbdInt ||| configTranslate)) &&& configKbdInt =
      (config &&& configKbdInt) ||| ((configKbdInt ||| configTranslate) &&& configKbdInt) :=
    UInt8.eq_of_toBitVec_eq BitVec.and_or_distrib_right
  rw [e, Ne, UInt8.or_eq_zero_iff]
  exact fun h => absurd h.2 (by decide)

/-- What holds at every point of the guest's code. -/
structure Inv (s : Irq1) : Prop where
  dev : s.dev.Inv
  unrouted : s.guest.Unrouted → s.routed = false
  /-- from the end of the set-up on, interrupts are on -/
  int : s.guest = .route ∨ s.routed = true → KbdInt s.dev.config
  command : ∀ config, s.guest = .writeCommand config → KbdInt config
  param : ∀ config, s.guest = .writeConfig config →
    KbdInt config ∧ s.dev.controllerParam = some cmdWriteConfig
  /-- a byte that waits while the handler is not running has its edge latched -/
  fresh : s.guest = .sti ∨ s.guest = .run → s.routed = true → s.dev.output ≠ none →
    s.latched = true

/-- The points about which nothing more is to be said. -/
def Plain : GuestAt → Prop
  | .route | .writeCommand _ | .writeConfig _ | .sti | .run => False
  | _ => True

variable {s s' : Irq1} {dev : I8042}

/-- An access that keeps the configuration, on the way to a plain point. -/
lemma Inv.plain {guest : GuestAt} (h : Inv s) (inv : dev.Inv) (config : dev.config = s.dev.config)
    (plain : Plain guest) (unrouted : guest.Unrouted → s.guest.Unrouted) :
    Inv (s.goesTo dev guest) where
  dev := inv
  unrouted := fun hu => h.unrouted (unrouted hu)
  int := by
    rintro (rfl | hr)
    · exact plain.elim
    · show KbdInt dev.config
      rw [config]
      exact h.int (.inr hr)
  command := by
    rintro c rfl
    exact plain.elim
  param := by
    rintro c rfl
    exact plain.elim
  fresh := by
    rintro (rfl | rfl)
    · exact plain.elim
    · exact plain.elim

/-- A read of the status that leads to where a waiting byte matters: none waits. -/
lemma Inv.empty {guest : GuestAt} (h : Inv s) (inv : dev.Inv) (config : dev.config = s.dev.config)
    (none_ : dev.output = none) (at_ : guest = .sti ∨ guest = .run) :
    Inv (s.goesTo dev guest) where
  dev := inv
  unrouted := by
    rcases at_ with rfl | rfl <;> exact fun hu => hu.elim
  int := by
    rintro (hg | hr)
    · rcases at_ with rfl | rfl <;> cases hg
    · show KbdInt dev.config
      rw [config]
      exact h.int (.inr hr)
  command := by
    rintro c hg
    rcases at_ with rfl | rfl <;> cases hg
  param := by
    rintro c hg
    rcases at_ with rfl | rfl <;> cases hg
  fresh := fun _ _ full => absurd none_ full

/-- The two ways of a test. -/
lemma branch_cases (byte : UInt8) (full empty : GuestAt) :
    byte &&& statusObf ≠ 0 ∧ branch byte full empty = full ∨
      byte &&& statusObf = 0 ∧ branch byte full empty = empty := by
  unfold branch
  split_ifs with h
  · exact .inl ⟨h, rfl⟩
  · exact .inr ⟨not_not.mp h, rfl⟩

/-- A key pressed at any point. -/
lemma Inv.key {down : Bool} {keysym : UInt32} (h : Inv s)
    (e : keyEvent down keysym s.dev = (.ok (), dev)) : Inv (s.goes dev) := by
  obtain ⟨inv, log⟩ := keyEvent_spec h.dev e
  obtain ⟨hconfig, hparam⟩ := keyEvent_config e
  refine ⟨inv, h.unrouted, ?_, h.command, ?_, ?_⟩
  · intro hi
    show KbdInt dev.config
    rw [hconfig]
    exact h.int hi
  · intro config hg
    obtain ⟨hint, hcommand⟩ := h.param config hg
    exact ⟨hint, hparam.trans hcommand⟩
  · intro hg hrouted full
    show (s.latched || s.routed && rose s.dev dev) = true
    cases ho : s.dev.output with
    | some b =>
      have latched := h.fresh hg hrouted (by rw [ho]; exact Option.some_ne_none b)
      rw [latched, Bool.true_or]
    | none =>
      have int : KbdInt dev.config := by
        rw [hconfig]
        exact h.int (.inr hrouted)
      have routed : s.routed = true := hrouted
      rw [rose_of_fill h.dev inv int log ho full, routed]
      exact Bool.or_true _

/-- The status showed no byte, and reading it changed nothing. -/
lemma status_empty {d d' : I8042} {byte : UInt8} (e : inb i8042Command d = (.ok byte, d'))
    (zero : byte &&& statusObf = 0) : d'.output = none := by
  obtain ⟨rfl, same⟩ := inb_status e
  rw [same.output]
  by_contra full
  exact (status_obf d).mpr full zero

/-- An access of the set-up, before the pin is routed. -/
lemma Inv.before {guest : GuestAt} (h : Inv s) (inv : dev.Inv) (at_ : s.guest.Unrouted)
    (int : guest = .route → KbdInt dev.config)
    (command : ∀ config, guest = .writeCommand config → KbdInt config)
    (param : ∀ config, guest = .writeConfig config →
      KbdInt config ∧ dev.controllerParam = some cmdWriteConfig) : Inv (s.goesTo dev guest) := by
  have unrouted : s.routed = false := h.unrouted at_
  refine ⟨inv, fun _ => unrouted, ?_, command, param, ?_⟩
  · rintro (hg | hr)
    · exact int hg
    · change s.routed = true at hr
      rw [unrouted] at hr
      cases hr
  · intro _ hr
    change s.routed = true at hr
    rw [unrouted] at hr
    cases hr

/-- Interrupts are disabled. -/
lemma Inv.start (h : Inv s) (at_ : s.guest = .start) :
    Inv { s with enabled := false, guest := .drainTest } := by
  refine ⟨h.dev, fun _ => h.unrouted (at_ ▸ trivial), ?_, ?_, ?_, ?_⟩
  · rintro (hg | hr)
    · cases hg
    · exact h.int (.inr hr)
  · exact fun c hg => by cases hg
  · exact fun c hg => by cases hg
  · exact fun hg => by rcases hg with hg | hg <;> cases hg

/-- A test of the status whose two ways both go to plain points. -/
lemma Inv.statusPlain {byte : UInt8} {full empty : GuestAt} (h : Inv s)
    (e : inb i8042Command s.dev = (.ok byte, dev)) (plainFull : Plain full)
    (plainEmpty : Plain empty) (unroutedFull : full.Unrouted → s.guest.Unrouted)
    (unroutedEmpty : empty.Unrouted → s.guest.Unrouted) :
    Inv (s.goesTo dev (branch byte full empty)) := by
  obtain ⟨inv, -⟩ := inb_spec h.dev e
  obtain ⟨-, same⟩ := inb_status e
  rcases branch_cases byte full empty with ⟨-, hb⟩ | ⟨-, hb⟩ <;> rw [hb]
  · exact h.plain inv same.config plainFull unroutedFull
  · exact h.plain inv same.config plainEmpty unroutedEmpty

/-- A test of the status that leads to the end of the set-up or of the handler if none waits. -/
lemma Inv.statusEmpty {byte : UInt8} {full empty : GuestAt} (h : Inv s)
    (e : inb i8042Command s.dev = (.ok byte, dev)) (plain : Plain full)
    (unrouted : full.Unrouted → s.guest.Unrouted) (empty_ : empty = .sti ∨ empty = .run) :
    Inv (s.goesTo dev (branch byte full empty)) := by
  obtain ⟨inv, -⟩ := inb_spec h.dev e
  obtain ⟨-, same⟩ := inb_status e
  rcases branch_cases byte full empty with ⟨-, hb⟩ | ⟨hz, hb⟩ <;> rw [hb]
  · exact h.plain inv same.config plain unrouted
  · exact h.empty inv same.config (status_empty e hz) empty_

/-- A byte is read and dropped, or handled, on the way to a plain point. -/
lemma Inv.dataPlain {byte : UInt8} {guest : GuestAt} (h : Inv s)
    (e : inb i8042Data s.dev = (.ok byte, dev)) (plain : Plain guest)
    (unrouted : guest.Unrouted → s.guest.Unrouted) : Inv (s.goesTo dev guest) := by
  obtain ⟨inv, -⟩ := inb_spec h.dev e
  obtain ⟨-, -, -, config, -⟩ := inb_data e
  exact h.plain inv config plain unrouted

/-- The guest asks for the configuration. -/
lemma Inv.readConfig (h : Inv s) (at_ : s.guest = .readConfig)
    (e : outb i8042Command cmdReadConfig s.dev = (.ok (), dev)) :
    Inv (s.goesTo dev (.waitOutput 0)) := by
  obtain ⟨inv, -⟩ := outb_spec h.dev e
  refine h.before inv (at_ ▸ trivial) ?_ ?_ ?_
  · exact fun hg => by cases hg
  · exact fun c hg => by cases hg
  · exact fun c hg => by cases hg

/-- It looks for the answer, or gives up. -/
lemma Inv.waitOutput {i : Nat} {byte : UInt8} (h : Inv s) (at_ : s.guest = .waitOutput i)
    (e : inb i8042Command s.dev = (.ok byte, dev)) :
    Inv (s.goesTo dev
      (branch byte .takeConfig (if i + 1 < waitLoops then .waitOutput (i + 1) else .sti))) := by
  split_ifs
  · exact h.statusPlain e trivial trivial (fun _ => at_ ▸ trivial) fun _ => at_ ▸ trivial
  · exact h.statusEmpty e trivial (fun _ => at_ ▸ trivial) (.inl rfl)

/-- Taking the controller's answer keeps the invariant. -/
lemma Inv.takeConfig {byte : UInt8} (h : Inv s) (at_ : s.guest = .takeConfig)
    (e : inb i8042Data s.dev = (.ok byte, dev)) :
    Inv (s.goesTo dev (.writeCommand (newConfig byte))) := by
  obtain ⟨inv, -⟩ := inb_spec h.dev e
  refine h.before inv (at_ ▸ trivial) ?_ ?_ ?_
  · exact fun hg => by cases hg
  · intro c hg
    cases hg
    exact newConfig_int byte
  · exact fun c hg => by cases hg

/-- The next byte will be the configuration. -/
lemma Inv.writeCommand {config : UInt8} (h : Inv s) (at_ : s.guest = .writeCommand config)
    (e : outb i8042Command cmdWriteConfig s.dev = (.ok (), dev)) :
    Inv (s.goesTo dev (.writeConfig config)) := by
  obtain ⟨inv, -⟩ := outb_spec h.dev e
  refine h.before inv (at_ ▸ trivial) ?_ ?_ ?_
  · exact fun hg => by cases hg
  · exact fun c hg => by cases hg
  · intro c hg
    cases hg
    exact ⟨h.command config at_, outb_writeCommand e⟩

/-- The configuration has the interrupt on. -/
lemma Inv.writeConfig {config : UInt8} (h : Inv s) (at_ : s.guest = .writeConfig config)
    (e : outb i8042Data config s.dev = (.ok (), dev)) : Inv (s.goesTo dev .route) := by
  obtain ⟨inv, -⟩ := outb_spec h.dev e
  obtain ⟨int, param⟩ := h.param config at_
  refine h.before inv (at_ ▸ trivial) ?_ ?_ ?_
  · intro _
    rw [outb_writeConfig e param]
    exact int
  · exact fun c hg => by cases hg
  · exact fun c hg => by cases hg

/-- The pin is unmasked with the interrupt on. -/
lemma Inv.route (h : Inv s) (at_ : s.guest = .route) :
    Inv { s with routed := true, guest := .flushTest } := by
  refine ⟨h.dev, fun hu => hu.elim, fun _ => h.int (.inl at_), ?_, ?_, ?_⟩
  · exact fun c hg => by cases hg
  · exact fun c hg => by cases hg
  · exact fun hg => by rcases hg with hg | hg <;> cases hg

/-- Interrupts are enabled, with a waiting byte's edge latched. -/
lemma Inv.sti (h : Inv s) (at_ : s.guest = .sti) :
    Inv { s with enabled := true, guest := .run } := by
  refine ⟨h.dev, fun hu => hu.elim, ?_, ?_, ?_, fun _ => h.fresh (.inl at_)⟩
  · rintro (hg | hr)
    · cases hg
    · exact h.int (.inr hr)
  · exact fun c hg => by cases hg
  · exact fun c hg => by cases hg

/-- The latched edge is taken back: the handler runs, where a waiting byte needs none. -/
lemma Inv.interrupt (h : Inv s) :
    Inv { s with latched := false, enabled := false, guest := .test } := by
  refine ⟨h.dev, fun hu => hu.elim, ?_, ?_, ?_, ?_⟩
  · rintro (hg | hr)
    · cases hg
    · exact h.int (.inr hr)
  · exact fun c hg => by cases hg
  · exact fun c hg => by cases hg
  · exact fun hg => by rcases hg with hg | hg <;> cases hg

/-- The interrupt flag is in no part of the invariant. -/
lemma Inv.enabled (h : Inv s) (enabled : Bool) : Inv { s with enabled } :=
  ⟨h.dev, h.unrouted, h.int, h.command, h.param, h.fresh⟩

/-- Every step keeps the invariant. -/
lemma Step.inv (st : Step s s') (h : Inv s) : Inv s' := by
  cases st with
  | key down keysym e => exact h.key e
  | start at_ => exact h.start at_
  | drainTest at_ e =>
    exact h.statusPlain e trivial trivial (fun _ => at_ ▸ trivial) fun _ => at_ ▸ trivial
  | drainData at_ e => exact h.dataPlain e trivial fun _ => at_ ▸ trivial
  | readConfig at_ e => exact h.readConfig at_ e
  | waitOutput at_ e => exact h.waitOutput at_ e
  | takeConfig at_ e => exact h.takeConfig at_ e
  | writeCommand at_ e => exact h.writeCommand at_ e
  | writeConfig at_ e => exact h.writeConfig at_ e
  | route at_ => exact h.route at_
  | flushTest at_ e => exact h.statusEmpty e trivial (fun hu => hu.elim) (.inl rfl)
  | flushData at_ e => exact h.dataPlain e trivial fun hu => hu.elim
  | sti at_ => exact h.sti at_
  | flag enabled at_ => exact h.enabled enabled
  | interrupt at_ enabled latched => exact h.interrupt
  | test at_ e =>
    have next : Inv (s.goesTo _ (branch _ .data .run)) :=
      h.statusEmpty e trivial (fun hu => hu.elim) (.inr rfl)
    exact next.enabled _
  | data at_ e => exact h.dataPlain e trivial fun hu => hu.elim

/-- It holds as the guest comes to `keyboard_init`. -/
lemma Init.inv (h : Init s) : Inv s where
  dev := h.dev.inv
  unrouted := fun _ => h.routed
  int := by
    rintro (hg | hr)
    · rw [h.guest] at hg
      cases hg
    · rw [h.routed] at hr
      cases hr
  command := fun c hg => by rw [h.guest] at hg; cases hg
  param := fun c hg => by rw [h.guest] at hg; cases hg
  fresh := fun _ hr => by rw [h.routed] at hr; cases hr

/-- Once the pin is routed, a byte that waits while the guest is in the game has an edge latched,
whether or not the game has interrupts masked. -/
theorem keyboard_never_stuck (h : Reach Init Step s) (routed : s.routed = true)
    (game : s.guest = .run) (full : s.dev.output ≠ none) : s.latched = true := by
  have inv : Inv s := h.invariant (fun _ hi => hi.inv) fun _ _ hi st => st.inv hi
  exact inv.fresh (.inr game) routed full

/-- The guest about to set up a new controller. -/
def boot : Irq1 := ⟨I8042.new [], false, false, true, .start⟩

/-- The set-up runs through, and then a key goes down. -/
lemma boot_pressed : ∃ s, Reach Init Step s ∧ s.routed = true ∧ s.guest = .run ∧
    s.dev.output = some 0x1e := by
  have start : Reach Init Step boot := .init ⟨.init rfl, rfl, rfl, rfl⟩
  have drained := (start.step (.start rfl)).step (.drainTest rfl rfl)
  have asked := drained.step (.readConfig rfl rfl)
  have answered := (asked.step (.waitOutput rfl rfl)).step (.takeConfig rfl rfl)
  have written := (answered.step (.writeCommand rfl rfl)).step (.writeConfig rfl rfl)
  have routed := written.step (.route rfl)
  have ready := (routed.step (.flushTest rfl rfl)).step (.sti rfl)
  have pressed := ready.step (.key true 0x61 rfl)
  exact ⟨_, pressed, rfl, rfl, rfl⟩

/-- A key pressed after the set-up waits with its edge latched. -/
theorem boot_pressed_latched : ∃ s : Irq1, s.dev.output = some 0x1e ∧ s.latched = true := by
  obtain ⟨s, h, routed, game, full⟩ := boot_pressed
  exact ⟨s, full, keyboard_never_stuck h routed game (by rw [full]; exact Option.some_ne_none _)⟩

end Irq1

end Hearth
