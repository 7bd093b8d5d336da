import Hearth.Lib.Transition

/-!
# Sleeping

`sleep_ms` of `guests/doom/idt.c`, one instruction after the other, with the interrupts that may
come between any two of them: the LAPIC timer and the keyboard, which the LAPIC latches until the
guest takes them. The timer counts that are written add up to the time that was asked for, and a
guest that is halted always has its timer before it.
-/

namespace Hearth.Doom.Sleep

open Lib (Reach)

/-- `CALIBRATE_MS` -/
def calibrateMs : UInt32 := 10

/-- `lapic_timer_calibrate`, with what it reads from the timer: the ticks of a millisecond. -/
def lapicTimerCalibrate (current : UInt32) : UInt32 := (0xffffffff - current) / calibrateMs

/-- The two interrupts of the guest. -/
inductive Vector where
  | timer
  | keyboard
  deriving DecidableEq, Repr

/-- The instruction of `sleep_ms` that is next: the test of `while`, those of an iteration in their
order, and what comes after `sleep_ms`. -/
inductive Pc where
  | loop
  | clear
  | program
  | cli
  | test
  | sti
  | hlt
  /-- the instruction after `hlt` has not been reached yet -/
  | halted
  | enable
  | done
  deriving DecidableEq, Repr

/-- What an interrupt handler does next. -/
inductive Handler where
  | dispatch
  | eoi
  | iret
  deriving DecidableEq, Repr

/-- The processor, the timer and the call of `DG_SleepMs`. -/
structure State where
  pc : Pc
  ms : UInt32
  chunk : UInt32
  timerFired : Bool
  /-- the interrupt flag -/
  interrupts : Bool
  /-- `sti` was the instruction before -/
  shadow : Bool
  handler : Option (Vector × Handler)
  /-- the timer is counting -/
  counting : Bool
  latched : Vector → Bool
  /-- what has not been acknowledged yet -/
  serving : Option Vector
  /-- the counts that have been written to the timer -/
  programmed : List UInt32

variable (rate : UInt32)

/-- As much as the timer can count, or all that is left. -/
def chunkOf (ms : UInt32) : UInt32 := if ms < 0xffffffff / rate then ms else 0xffffffff / rate

/-- The next instruction of `sleep_ms`. -/
def exec (s : State) : State :=
  let s' := { s with shadow := false }
  match s.pc with
  | .loop =>
    if s.ms = 0 then { s' with pc := .done }
    else { s' with pc := .clear, chunk := chunkOf rate s.ms, ms := s.ms - chunkOf rate s.ms }
  | .clear => { s' with pc := .program, timerFired := false }
  | .program =>
    let count := s.chunk * rate
    { s' with pc := .cli, counting := count ≠ 0, programmed := s.programmed ++ [count] }
  | .cli => { s' with pc := .test, interrupts := false }
  | .test => { s' with pc := if s.timerFired then .enable else .sti }
  | .sti => { s' with pc := .hlt, interrupts := true, shadow := !s.interrupts }
  | .hlt => { s' with pc := .halted }
  | .enable => { s' with pc := .loop, interrupts := true, shadow := !s.interrupts }
  | .halted | .done => s

/-- `interrupt_dispatch` up to its write to the EOI register. -/
def interruptDispatch (vector : Vector) (s : State) : State :=
  match vector with
  | .timer => { s with timerFired := true }
  | .keyboard => s

/-- An interrupt is taken, which ends a halt. -/
def deliver (vector : Vector) (s : State) : State where
  pc := if s.pc = .halted then .cli else s.pc
  ms := s.ms
  chunk := s.chunk
  timerFired := s.timerFired
  interrupts := false
  shadow := false
  handler := some (vector, .dispatch)
  counting := s.counting
  latched := Function.update s.latched vector false
  serving := some vector
  programmed := s.programmed

/-- What may happen next, apart from a key. -/
inductive Quiet (s : State) : State → Prop where
  | exec : s.handler = none → s.pc ≠ .halted → s.pc ≠ .done → Quiet s (exec rate s)
  | deliver {vector} : s.handler = none → s.interrupts = true → s.shadow = false →
      s.serving = none →
      s.latched vector = true → Quiet s (deliver vector s)
  | dispatch {vector} : s.handler = some (vector, .dispatch) →
      Quiet s { interruptDispatch vector s with handler := some (vector, .eoi) }
  | eoi {vector} : s.handler = some (vector, .eoi) →
      Quiet s { s with handler := some (vector, .iret), serving := none }
  | iret {vector} :
      s.handler = some (vector, .iret) → Quiet s { s with handler := none, interrupts := true }
  | fire : s.counting = true →
      Quiet s { s with counting := false, latched := Function.update s.latched .timer true }

/-- The steps of the code, the handlers and the timer. -/
inductive Step (s : State) : State → Prop where
  | quiet {s'} : Quiet rate s s' → Step s s'
  | key : Step s { s with latched := Function.update s.latched .keyboard true }

/-- `sleep_ms` is called, whatever has been left by what was before. -/
structure Start (ms : UInt32) (s : State) : Prop where
  pc : s.pc = .loop
  ms : s.ms = ms
  handler : s.handler = none
  serving : s.serving = none
  programmed : s.programmed = []

/-! ## Counts -/

/-- What has not been given to the timer yet. -/
def State.left (s : State) : Nat :=
  s.ms.toNat + if s.pc = .clear ∨ s.pc = .program then s.chunk.toNat else 0

/-- A count of some milliseconds. -/
def CountOf (count : UInt32) : Prop :=
  ∃ chunk : UInt32, 1 ≤ count.toNat ∧ count.toNat = chunk.toNat * rate.toNat

/-- The counts that have been written, and those that are to come. -/
structure Counts (ms : UInt32) (s : State) : Prop where
  counts : ∀ count ∈ s.programmed, CountOf rate count
  sum : (s.programmed.map UInt32.toNat).sum + s.left * rate.toNat = ms.toNat * rate.toNat
  length : s.programmed.length + s.left ≤ ms.toNat
  chunk : s.pc = .clear ∨ s.pc = .program → 1 ≤ s.chunk.toNat ∧ s.chunk.toNat * rate.toNat < 2 ^ 32
  finished : s.pc = .done → s.ms = 0

variable {rate} {s s' : State} {ms : UInt32}

/-- A chunk is no longer than what is left. -/
lemma chunkOf_le (rate ms : UInt32) : (chunkOf rate ms).toNat ≤ ms.toNat := by
  unfold chunkOf
  split
  · exact Nat.le_refl _
  · next h => exact UInt32.le_iff_toNat_le.mp (UInt32.not_lt.mp h)

/-- A chunk is not empty while there is time left. -/
lemma chunkOf_pos (rate_pos : 1 ≤ rate.toNat) (h : ms ≠ 0) : 1 ≤ (chunkOf rate ms).toNat := by
  unfold chunkOf
  split
  · have : ms.toNat ≠ 0 := fun e => h (UInt32.toNat_inj.mp e)
    omega
  · rw [UInt32.toNat_div]
    exact (Nat.le_div_iff_mul_le rate_pos).mpr (by simpa using Nat.le_of_lt_succ rate.toNat_lt)

/-- Its number of ticks does not wrap. -/
lemma chunkOf_fits (ms : UInt32) : (chunkOf rate ms).toNat * rate.toNat < 2 ^ 32 := by
  have max : (0xffffffff / rate : UInt32).toNat * rate.toNat ≤ 0xffffffff := by
    rw [UInt32.toNat_div]
    exact Nat.div_mul_le_self _ _
  have le : (chunkOf rate ms).toNat ≤ (0xffffffff / rate : UInt32).toNat := by
    unfold chunkOf
    split
    · next h => exact Nat.le_of_lt (UInt32.lt_iff_toNat_lt.mp h)
    · exact Nat.le_refl _
  have := Nat.mul_le_mul_right rate.toNat le
  omega

/-- Nothing but the instructions of `sleep_ms` counts. -/
lemma Counts.same (h : Counts rate ms s)
    (pc : s'.pc = s.pc ∨ s.pc ≠ .clear ∧ s.pc ≠ .program ∧ s'.pc ≠ .clear ∧
    s'.pc ≠ .program ∧ s'.pc ≠ .done) (left : s'.ms = s.ms) (chunk : s'.chunk = s.chunk)
      (programmed : s'.programmed = s.programmed) :
    Counts rate ms s' := by
  have phase : s'.pc = .clear ∨ s'.pc = .program ↔ s.pc = .clear ∨ s.pc = .program := by
    obtain pc | ⟨h₁, h₂, h₃, h₄, _⟩ := pc
    · rw [pc]
    · exact ⟨fun e => e.elim (absurd · h₃) (absurd · h₄),
        fun e => e.elim (absurd · h₁) (absurd · h₂)⟩
  have same : s'.left = s.left := by
    unfold State.left
    simp only [left, chunk, phase]
  refine ⟨programmed ▸ h.counts, ?_, ?_, fun e => chunk ▸ h.chunk (phase.mp e), fun e => ?_⟩
  · rw [programmed, same]
    exact h.sum
  · rw [programmed, same]
    exact h.length
  · rw [left]
    exact h.finished (pc.elim (· ▸ e) (fun other => absurd e other.2.2.2.2))

/-- An instruction keeps the count. -/
lemma Counts.exec (rate_pos : 1 ≤ rate.toNat) (h : Counts rate ms s) :
    Counts rate ms (exec rate s) := by
  have ⟨counts, sum, length, chunk, _⟩ := h
  unfold State.left at sum length
  -- `loop` takes a chunk off the rest and `program` starts its timer; the other steps leave both
  cases pc : s.pc <;> unfold Sleep.exec <;> simp only [pc]
  case loop =>
    simp only [pc, reduceCtorEq, or_self, if_false, Nat.add_zero] at sum length
    split
    · next finished =>
        exact ⟨counts, by simpa [State.left] using sum, by simpa [State.left] using length, nofun,
        fun _ => finished⟩
    · next more =>
      have le := chunkOf_le rate s.ms
      have rest : (s.ms - chunkOf rate s.ms).toNat + (chunkOf rate s.ms).toNat = s.ms.toNat := by
        rw [UInt32.toNat_sub_of_le _ _ (UInt32.le_iff_toNat_le.mpr le)]
        omega
      refine ⟨counts, ?_, ?_, fun _ => ⟨chunkOf_pos rate_pos more, chunkOf_fits _⟩, nofun⟩ <;>
        simpa only [State.left, true_or, if_true, rest]
  case clear =>
    simp only [pc, true_or, if_true, true_implies] at sum length chunk
    exact ⟨counts,
      by simpa [State.left] using sum, by simpa [State.left] using length, fun _ => chunk, nofun⟩
  case program =>
    simp only [pc, if_true, or_true, true_implies] at sum length chunk
    have count : (s.chunk * rate).toNat = s.chunk.toNat * rate.toNat := by
      rw [UInt32.toNat_mul, Nat.mod_eq_of_lt chunk.2]
    refine ⟨?_, ?_, ?_, ?_, nofun⟩
    · intro count' mem
      obtain old | new := List.mem_append.mp mem
      · exact counts _ old
      · rw [List.mem_singleton.mp new]
        exact ⟨s.chunk, count ▸ Nat.mul_le_mul chunk.1 rate_pos, count⟩
    · simp only [State.left, reduceCtorEq, or_self, if_false, List.map_append, List.sum_append,
        List.map_singleton, List.sum_singleton, count, Nat.add_zero]
      rw [← sum, Nat.add_mul]
      omega
    · simp only [State.left, reduceCtorEq, or_self, if_false, List.length_append,
        List.length_singleton]
      omega
    · exact fun e => absurd e (by simp)
  case test => exact h.same (.inr (by cases s.timerFired <;> simp [pc])) rfl rfl rfl
  case cli | sti | hlt | enable => exact h.same (.inr (by simp [pc])) rfl rfl rfl
  case halted | done => exact h

/-- Every step within the call keeps the count. -/
lemma Counts.quiet (rate_pos : 1 ≤ rate.toNat) (h : Counts rate ms s) (step : Quiet rate s s') :
    Counts rate ms s' := by
  cases step with
  | exec => exact h.exec rate_pos
  | deliver =>
    refine h.same ?_ rfl rfl rfl
    show (if s.pc = .halted then Pc.cli else s.pc) = s.pc ∨ _
    by_cases halted : s.pc = .halted
    · exact .inr (by simp [halted, deliver])
    · exact .inl (if_neg halted)
  | @dispatch vector =>
    cases vector <;> exact h.same (.inl rfl) rfl rfl rfl
  | eoi | iret | fire => exact h.same (.inl rfl) rfl rfl rfl

/-- At the call all of it is left. -/
lemma Start.counts (h : Start ms s) : Counts rate ms s := by
  constructor <;> simp [State.left, h.pc, h.ms, h.programmed]

/-! ## Waking -/

/-- The guest is in the loop that waits for the timer. -/
def State.Inner (s : State) : Prop :=
  s.pc = .cli ∨ s.pc = .test ∨ s.pc = .sti ∨ s.pc = .hlt ∨ s.pc = .halted

/-- The flag is set, or it will be. -/
def State.Coming (s : State) : Prop :=
  s.timerFired = true ∨ s.latched .timer = true ∨ s.counting = true ∨
    s.handler = some (.timer, .dispatch)

/-- The tick is still to come if timer and handler are as they were. -/
lemma State.Coming.keep (handler : s.handler ≠ some (.timer, .dispatch))
    (fired : s'.timerFired = s.timerFired)
    (latched : s'.latched .timer = s.latched .timer) (counting : s'.counting = s.counting)
    (h : s.Coming) :
      s'.Coming := by
  obtain flag | latch | count | handling := h
  · exact .inl (fired.trans flag)
  · exact .inr (.inl (latched.trans latch))
  · exact .inr (.inr (.inl (counting.trans count)))
  · exact absurd handling handler

/-- Where interrupts are not taken, and that the timer is not missed there. -/
structure Waits (s : State) : Prop where
  masked : s.pc = .test ∨ s.pc = .sti ∨ s.pc = .enable → s.handler = none ∧ s.interrupts = false
  shadowed : s.pc = .hlt → s.handler = none ∧ s.interrupts = true ∧ s.shadow = true
  halted : s.pc = .halted → s.handler = none ∧ s.interrupts = true ∧ s.shadow = false
  unfired : s.pc = .sti ∨ s.pc = .hlt ∨ s.pc = .halted → s.timerFired = false
  coming : s.Inner → s.Coming
  served : (∀ vector, s.handler ≠ some (vector, .dispatch) ∧ s.handler ≠ some (vector, .eoi)) →
    s.serving = none

/-- An instruction keeps what a halt waits for. -/
lemma Waits.exec (counts : Counts rate ms s) (rate_pos : 1 ≤ rate.toNat) (h : Waits s)
    (free : s.handler = none) :
    Waits (exec rate s) := by
  have served : s.serving = none := h.served (by simp [free])
  have coming := h.coming
  cases pc : s.pc <;> unfold Sleep.exec <;> simp only [pc]
  case loop =>
    split <;> constructor <;> simp [State.Inner, served]
  case clear => constructor <;> simp [State.Inner, served]
  case program =>
    have ⟨chunk_pos, fits⟩ := counts.chunk (.inr pc)
    have count : s.chunk * rate ≠ 0 := by
      intro e
      have := congrArg UInt32.toNat e
      rw [UInt32.toNat_mul, Nat.mod_eq_of_lt fits] at this
      exact absurd this (Nat.mul_pos chunk_pos rate_pos).ne'
    constructor <;> simp [State.Inner, State.Coming, served, count]
  case cli =>
    exact ⟨fun _ => ⟨free, rfl⟩, nofun, nofun, by simp, fun _ => coming (.inl pc), fun _ => served⟩
  case test =>
    have ⟨_, off⟩ := h.masked (.inl pc)
    have coming := coming (.inr (.inl pc))
    split
    · exact ⟨fun _ => ⟨free, off⟩, nofun, nofun, by simp, by simp [State.Inner], fun _ => served⟩
    · next unset =>
      exact ⟨fun _ => ⟨free, off⟩, nofun, nofun, fun _ => Bool.eq_false_iff.mpr unset,
        fun _ => coming, fun _ => served⟩
  case sti =>
    have ⟨_, off⟩ := h.masked (.inr (.inl pc))
    exact ⟨by simp, fun _ => ⟨free, rfl, congrArg not off⟩, nofun, fun _ => h.unfired (.inl pc),
      fun _ => coming (.inr (.inr (.inl pc))), fun _ => served⟩
  case hlt =>
    have ⟨_, on, _⟩ := h.shadowed pc
    exact ⟨by simp, nofun, fun _ => ⟨free, on, rfl⟩, fun _ => h.unfired (.inr (.inl pc)),
      fun _ => coming (.inr (.inr (.inr (.inl pc)))), fun _ => served⟩
  case enable => constructor <;> simp [State.Inner, served]
  case halted | done => exact h

/-- An interrupt is not taken where it would be missed. -/
lemma Waits.deliver_pc (h : Waits s) (on : s.interrupts = true) (shadow : s.shadow = false)
    (vector : Vector) :
    (deliver vector s).pc = .cli ∧ s.Inner ∨
      (deliver vector s).pc = s.pc ∧
      (s.pc = .loop ∨ s.pc = .clear ∨ s.pc = .program ∨ s.pc = .done) := by
  have masked := h.masked
  have shadowed := h.shadowed
  unfold State.Inner deliver
  cases pc : s.pc <;> simp_all

/-- The start of a handler keeps what a halt waits for. -/
lemma Waits.deliver {vector : Vector} (h : Waits s) (on : s.interrupts = true)
    (shadow : s.shadow = false) (free : s.handler = none) : Waits (deliver vector s) := by
  have handled : (Sleep.deliver vector s).serving = none → False := nofun
  obtain ⟨cli, inner⟩ | ⟨same, pc⟩ := h.deliver_pc on shadow vector
  · refine ⟨by simp [cli], by simp [cli], by simp [cli], by simp [cli], fun _ => ?_,
      fun e => absurd rfl (e vector).1⟩
    cases vector with
    | timer => exact .inr (.inr (.inr rfl))
    | keyboard => exact State.Coming.keep (s := s) (by simp [free]) rfl rfl rfl (h.coming inner)
  · rw [← same] at pc
    constructor
    case served => exact fun e => absurd rfl (e vector).1
    all_goals
      obtain pc | pc | pc | pc := pc <;> simp [State.Inner, pc]

/-- Where a handler runs, the loop is not on its way to a halt. -/
lemma Waits.handled {handler : Vector × Handler} (h : Waits s) (busy : s.handler = some handler) :
    ¬ (s.pc = .test ∨ s.pc = .sti ∨ s.pc = .enable) ∧ s.pc ≠ .hlt ∧ s.pc ≠ .halted := by
  have free : s.handler ≠ none := busy ▸ Option.some_ne_none _
  exact ⟨fun e => free (h.masked e).1, fun e => free (h.shadowed e).1, fun e => free (h.halted e).1⟩

/-- A handler changes nothing that the loop waits for but the flag, which it sets. -/
lemma Waits.handler {handler : Vector × Handler} (h : Waits s) (busy : s.handler = some handler)
    (pc : s'.pc = s.pc) (coming : s.Coming → s'.Coming)
    (served : (∀ vector, s'.handler ≠ some (vector, .dispatch) ∧ s'.handler ≠ some (vector, .eoi)) →
      s'.serving = none) :
    Waits s' := by
  have ⟨unmasked, unshadowed, running⟩ := h.handled busy
  rw [← pc] at unmasked unshadowed running
  refine ⟨fun e => absurd e unmasked, fun e => absurd e unshadowed,
    fun e => absurd e running, fun e => ?_,
    fun e => ?_, served⟩
  · obtain e | e | e := e
    · exact absurd (.inr (.inl e)) unmasked
    · exact absurd e unshadowed
    · exact absurd e running
  · unfold State.Inner at e
    rw [pc] at e
    exact coming (h.coming e)

/-- An interrupt that is latched is there until it is taken. -/
lemma Waits.latch (h : Waits s) (vector : Vector) (counting : Bool)
    (timer : vector = .timer ∨ counting = s.counting) :
    Waits { s with counting := counting, latched := Function.update s.latched vector true } := by
  refine ⟨h.masked, h.shadowed, h.halted, h.unfired, fun inner => ?_, h.served⟩
  cases vector with
  | timer => exact .inr (.inl rfl)
  | keyboard =>
    obtain fired | latched | running | handling := h.coming inner
    · exact .inl fired
    · exact .inr (.inl latched)
    · exact .inr (.inr (.inl (timer.elim nofun (·.trans running))))
    · exact .inr (.inr (.inr handling))

/-- Every step within the call keeps what a halt waits for. -/
lemma Waits.quiet (counts : Counts rate ms s) (rate_pos : 1 ≤ rate.toNat) (h : Waits s)
    (step : Quiet rate s s') :
    Waits s' := by
  cases step with
  | exec free _ _ => exact h.exec counts rate_pos free
  | deliver free on shadow _ _ => exact h.deliver on shadow free
  | @dispatch vector busy =>
    cases vector with
    | timer => exact h.handler busy rfl (fun _ => .inl rfl) (fun e => absurd rfl (e .timer).2)
    | keyboard =>
      exact h.handler busy rfl (.keep (by simp [busy]) rfl rfl rfl)
        (fun e => absurd rfl (e .keyboard).2)
  | @eoi vector busy =>
    exact h.handler busy rfl (.keep (by simp [busy]) rfl rfl rfl) (fun _ => rfl)
  | @iret vector busy =>
    exact h.handler busy rfl (.keep (by simp [busy]) rfl rfl rfl)
      (fun _ => h.served (by simp [busy]))
  | fire => exact h.latch .timer false (.inl rfl)

/-- At the call nothing is waited for. -/
lemma Start.waits (h : Start ms s) : Waits s := by
  constructor <;> simp [State.Inner, h.pc, h.serving]

/-- The state is one that `sleep_ms` comes to. -/
structure Inv (rate ms : UInt32) (s : State) : Prop where
  counts : Counts rate ms s
  waits : Waits s

/-- Every step within the call keeps the invariant. -/
lemma Inv.quiet (rate_pos : 1 ≤ rate.toNat) (h : Inv rate ms s) (step : Quiet rate s s') :
    Inv rate ms s' :=
  ⟨h.counts.quiet rate_pos step, h.waits.quiet h.counts rate_pos step⟩

/-- Every step keeps the invariant, the next call included. -/
lemma Inv.step (rate_pos : 1 ≤ rate.toNat) (h : Inv rate ms s) (step : Step rate s s') :
    Inv rate ms s' := by
  cases step with
  | quiet step => exact h.quiet rate_pos step
  | key => exact ⟨h.counts.same (.inl rfl) rfl rfl rfl,
    h.waits.latch .keyboard s.counting (.inr rfl)⟩

/-- It holds at every point of every run. -/
lemma inv_of_reach (rate_pos : 1 ≤ rate.toNat) (h : Reach (Start ms) (Step rate) s) :
    Inv rate ms s :=
  h.invariant (fun _ start => ⟨start.counts, start.waits⟩)
    (fun _ _ inv step => inv.step rate_pos step)

/-! ## The end -/

/-- The way to the end that is left from an instruction, in this iteration. -/
def Pc.rank : Pc → Nat
  | .done => 0
  | .loop => 1
  | .enable => 2
  | .halted => 3
  | .hlt => 4
  | .sti => 5
  | .test => 6
  | .cli => 7
  | .program => 19
  | .clear => 20

/-- How many steps a handler has left. -/
def Handler.rank : Handler → Nat
  | .iret => 1
  | .eoi => 2
  | .dispatch => 3

/-- The rank of the handler that runs, 0 if none does. -/
def handlerRank : Option (Vector × Handler) → Nat
  | none => 0
  | some (_, handler) => handler.rank

/-- What an event counts that may be to come. -/
def weight (n : Nat) : Bool → Nat
  | true => n
  | false => 0

/-- A bound on what may still happen if no key is pressed. -/
def State.effort (s : State) : Nat :=
  20 * s.ms.toNat + s.pc.rank + handlerRank s.handler + weight 11 s.counting +
    weight 10 (s.latched .timer) +
    weight 10 (s.latched .keyboard)

/-- An instruction brings the end nearer. -/
lemma effort_exec (rate_pos : 1 ≤ rate.toNat) (running : s.pc ≠ .halted) (more : s.pc ≠ .done) :
    (exec rate s).effort < s.effort := by
  cases pc : s.pc <;> unfold Sleep.exec State.effort <;> simp only [pc]
  case loop =>
    split
    · simp only [Pc.rank]
      omega
    · next left =>
      have le := chunkOf_le rate s.ms
      have pos := chunkOf_pos rate_pos left
      rw [UInt32.toNat_sub_of_le _ _ (UInt32.le_iff_toNat_le.mpr le)]
      simp only [Pc.rank]
      omega
  case program =>
    have : weight 11 (s.chunk * rate ≠ 0) ≤ 11 := by
      cases decide (s.chunk * rate ≠ 0)
      · exact Nat.zero_le _
      · exact Nat.le_refl _
    simp only [Pc.rank]
    omega
  case test =>
    split <;> simp only [Pc.rank] <;> omega
  case halted => exact absurd pc running
  case done => exact absurd pc more
  all_goals
    simp only [Pc.rank]
    omega

/-- As long as no key is pressed, everything that happens is on the way to the end. -/
lemma Quiet.effort (rate_pos : 1 ≤ rate.toNat) (step : Quiet rate s s') : s'.effort < s.effort := by
  cases step with
  | exec _ running more => exact effort_exec rate_pos running more
  | @deliver vector free _ _ _ latched =>
    have pc : (if s.pc = .halted then Pc.cli else s.pc).rank ≤ s.pc.rank + 4 := by
      split
      · next halted =>
        rw [halted]
        exact Nat.le_refl 7
      · omega
    cases vector <;> simp [State.effort, Sleep.deliver, free, latched, handlerRank, Handler.rank,
      weight] <;> omega
  | @dispatch vector busy =>
    cases vector <;> simp [State.effort, interruptDispatch, busy, handlerRank, Handler.rank]
  | eoi busy => simp [State.effort, busy, handlerRank, Handler.rank]
  | iret busy => simp [State.effort, busy, handlerRank, Handler.rank]
  | fire counting =>
    have : weight 10 (s.latched .timer) ≥ 0 := Nat.zero_le _
    simp [State.effort, counting, weight]
    omega

/-- Something happens until the end. -/
lemma Inv.progress (h : Inv rate ms s) (more : s.pc ≠ .done) : ∃ s', Quiet rate s s' := by
  cases handler : s.handler with
  | some running =>
    obtain ⟨vector, _ | _ | _⟩ := running
    · exact ⟨_, .dispatch handler⟩
    · exact ⟨_, .eoi handler⟩
    · exact ⟨_, .iret handler⟩
  | none =>
    by_cases halted : s.pc = .halted
    · have ⟨_, on, shadow⟩ := h.waits.halted halted
      obtain fired | latched | counting | handling :=
        h.waits.coming (.inr (.inr (.inr (.inr halted))))
      · rw [h.waits.unfired (.inr (.inr halted))] at fired
        exact absurd fired Bool.false_ne_true
      · exact ⟨_, .deliver handler on shadow (h.waits.served (by simp [handler])) latched⟩
      · exact ⟨_, .fire counting⟩
      · exact absurd (handler.symm.trans handling) nofun
    · exact ⟨_, .exec handler halted more⟩

/-- The invariant holds after any steps within the call. -/
lemma Inv.quietRun (rate_pos : 1 ≤ rate.toNat) (h : Inv rate ms s)
    (run : Relation.ReflTransGen (Quiet rate) s s') :
    Inv rate ms s' := by
  induction run with
  | refl => exact h
  | tail _ step ih => exact ih.quiet rate_pos step

/-- The counts are those that were asked for, and the guest wakes. -/
theorem sleep_ms_sleeps_and_wakes {current : UInt32}
    (calibrated : 1 ≤ (lapicTimerCalibrate current).toNat)
    (h : Reach (Start ms) (Step (lapicTimerCalibrate current)) s) :
    ((∀ count ∈ s.programmed, CountOf (lapicTimerCalibrate current) count) ∧
      (s.programmed.map UInt32.toNat).sum ≤ ms.toNat * (lapicTimerCalibrate current).toNat ∧
      (s.pc = .done →
        (s.programmed.map UInt32.toNat).sum = ms.toNat * (lapicTimerCalibrate current).toNat)) ∧
    (s.pc = .halted → s.timerFired = true → ∃ vector, s.latched vector = true) ∧
    (s.programmed.length ≤ ms.toNat ∧
      Acc (fun s₂ s₁ => Quiet (lapicTimerCalibrate current) s₁ s₂) s ∧
      ∀ s', Relation.ReflTransGen (Quiet (lapicTimerCalibrate current)) s s' → s'.pc ≠ .done →
        ∃ s'', Quiet (lapicTimerCalibrate current) s' s'') := by
  have inv := inv_of_reach calibrated h
  refine ⟨⟨inv.counts.counts, ?_, ?_⟩, ?_, ?_, ?_, ?_⟩
  · exact inv.counts.sum ▸ Nat.le_add_right _ _
  · intro done
    have sum := inv.counts.sum
    unfold State.left at sum
    rw [inv.counts.finished done, done] at sum
    simpa using sum
  · intro halted fired
    rw [inv.waits.unfired (.inr (.inr halted))] at fired
    exact absurd fired Bool.false_ne_true
  · exact Nat.le_trans (Nat.le_add_right _ _) inv.counts.length
  · exact Subrelation.accessible (r := (measure State.effort).rel) (Quiet.effort calibrated)
      ((measure State.effort).wf.apply s)
  · intro s' run more
    exact (inv.quietRun calibrated run).progress more

/-! ## Three chunks -/

/-- What can be next. -/
inductive Move where
  | exec
  | deliver (vector : Vector)
  /-- the handler goes on -/
  | handler
  | fire
  | key

/-- The next state, if the move can be made. -/
def move (rate : UInt32) (s : State) : Move → Option State
  | .exec => if s.handler = none ∧ s.pc ≠ .halted ∧ s.pc ≠ .done then some (exec rate s) else none
  | .deliver vector =>
    if s.handler = none ∧ s.interrupts = true ∧ s.shadow = false ∧ s.serving = none ∧
      s.latched vector = true then
      some (deliver vector s)
    else none
  | .handler =>
    match s.handler with
    | some (vector, .dispatch) =>
      some { interruptDispatch vector s with handler := some (vector, .eoi) }
    | some (vector, .eoi) => some { s with handler := some (vector, .iret), serving := none }
    | some (_, .iret) => some { s with handler := none, interrupts := true }
    | none => none
  | .fire =>
    if s.counting = true then
      some { s with counting := false, latched := Function.update s.latched .timer true }
    else none
  | .key => some { s with latched := Function.update s.latched .keyboard true }

/-- What `move` computes is a step. -/
lemma move_step {m : Move} (h : move rate s m = some s') : Step rate s s' := by
  cases m with
  | exec =>
    obtain ⟨⟨free, running, more⟩, ⟨⟩⟩ := Option.ite_none_right_eq_some.mp h
    exact .quiet (.exec free running more)
  | deliver vector =>
    obtain ⟨⟨free, on, shadow, served, latched⟩, ⟨⟩⟩ := Option.ite_none_right_eq_some.mp h
    exact .quiet (.deliver free on shadow served latched)
  | handler =>
    simp only [move] at h
    split at h
    · next at_ =>
      cases h
      exact .quiet (.dispatch at_)
    · next at_ =>
      cases h
      exact .quiet (.eoi at_)
    · next at_ =>
      cases h
      exact .quiet (.iret at_)
    · cases h
  | fire =>
    obtain ⟨counting, ⟨⟩⟩ := Option.ite_none_right_eq_some.mp h
    exact .quiet (.fire counting)
  | key =>
    cases h
    exact .key

/-- `sleep_ms` is called for 25 milliseconds. -/
def called : State where
  pc := .loop
  ms := 25
  chunk := 0
  timerFired := true
  interrupts := true
  shadow := false
  handler := none
  counting := false
  latched _ := false
  serving := none
  programmed := []

/-- An interrupt is taken, and its handler returns. -/
def interrupted (vector : Vector) : List Move := [.deliver vector, .handler, .handler, .handler]

/-- The guest halts, a key wakes it, and it halts again. -/
def keyed : List Move :=
  List.replicate 7 .exec ++ .key :: interrupted .keyboard ++ List.replicate 4 .exec

/-- Then the timer wakes it. -/
def woken : List Move := .fire :: interrupted .timer ++ List.replicate 3 .exec

/-- The timer of the second chunk fires before the guest disables
interrupts, so that it does not halt. -/
def early : List Move := List.replicate 3 .exec ++ woken

/-- The third one fires while the guest is halted. -/
def late : List Move := List.replicate 7 .exec ++ woken ++ [.exec]

/-- With the highest rate there is, the timer counts 10 milliseconds at once. After the key the
guest halts again, with its timer still before it, and at the end it has slept three chunks. -/
theorem sleep_three_chunks :
    (∃ s, Reach (Start 25) (Step (lapicTimerCalibrate 0)) s ∧ s.pc = .halted ∧
      Acc (fun s₂ s₁ => Quiet (lapicTimerCalibrate 0) s₁ s₂) s) ∧
    ∃ s, Reach (Start 25) (Step (lapicTimerCalibrate 0)) s ∧ s.pc = .done ∧
      s.programmed.map UInt32.toNat = [4294967290, 4294967290, 2147483645] ∧
      (s.programmed.map UInt32.toNat).sum = 25 * (lapicTimerCalibrate 0).toNat := by
  have start : Reach (Start 25) (Step (lapicTimerCalibrate 0)) called :=
    .init ⟨rfl, rfl, rfl, rfl, rfl⟩
  have halts : ((keyed.foldlM (move (lapicTimerCalibrate 0)) called).any fun s =>
    decide (s.pc = .halted)) = true := by
    decide +kernel
  have ends : (((keyed ++ woken ++ early ++ late).foldlM
    (move (lapicTimerCalibrate 0)) called).any fun s =>
      decide (s.pc = .done ∧
        s.programmed.map UInt32.toNat = [4294967290, 4294967290, 2147483645])) = true := by
    decide +kernel
  obtain ⟨s₁, run₁, at₁⟩ := (Option.any_eq_true ..).mp halts
  obtain ⟨s₂, run₂, at₂⟩ := (Option.any_eq_true ..).mp ends
  obtain ⟨done, counts⟩ := of_decide_eq_true at₂
  have reach₁ := start.moves (fun _ _ _ => move_step) run₁
  have reach₂ := start.moves (fun _ _ _ => move_step) run₂
  exact ⟨⟨s₁, reach₁, of_decide_eq_true at₁,
    (sleep_ms_sleeps_and_wakes (by decide) reach₁).2.2.2.1⟩,
    s₂, reach₂, done, counts, (sleep_ms_sleeps_and_wakes (by decide) reach₂).1.2.2 done⟩

end Hearth.Doom.Sleep
