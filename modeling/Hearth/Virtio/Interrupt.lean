import Hearth.Lib.Transition
import Hearth.Virtio.Access
import Hearth.Virtio.Notify

/-!
# No completion goes unannounced

A turn of `queueNotify` that completes a chain first hands it back (`serve`) and then sets the
status bit and raises the line (`announce`); `notifyTurn_eq` is that split. A driver can see the
used entry in between, so these are two steps of the system below. Its parties are

* the device: a notification or a poll holds the device's lock and drains the queues it was
  called for, one turn after another;
* the interrupt input, which latches every change of its line from low to high until the handler is
  entered;
* the handler: it reads `INTERRUPT_STATUS`, writes back what it has read, and consumes used entries
  until it has found every used ring empty.

`completion_announced` is the result. The invariant is in terms of what the handler has yet to do:
the acknowledgement lowers the line, so from then on a completion makes an edge (or one is latched
already), and what was completed before is found by the scan that is still to come.
-/

namespace Hearth
open Lib

variable {D : Type} {mem : GuestMemory} {q : Fin vringQueuesMax} {w w' : World D}

/-! ## What a half leaves to be seen -/

/-- The chains that are handed back. -/
def handedBack (evs : List Event) : List (UInt16 × UInt32) :=
  evs.filterMap fun
    | .used _ head len => some (head, len)
    | _ => none

/-- What is noted from `w` to `w'`: `n` chains are handed back, and no line is driven. -/
structure Hands (n : Nat) (w w' : World D) : Prop where
  events : ∃ new, w'.host.events = w.host.events ++ new ∧
    (∀ num level, .irq num level ∉ new) ∧ (handedBack new).length = n
  irq : w'.mmio.irq = w.mmio.irq

/-- Nothing is handed back. -/
lemma Hands.refl (w : World D) : Hands 0 w w := ⟨⟨[], by simp [handedBack]⟩, rfl⟩

/-- Chains handed back one after the other. -/
lemma Hands.trans {n k : Nat} {w'' : World D} (h : Hands n w w') (h' : Hands k w' w'') :
    Hands (n + k) w w'' := by
  obtain ⟨new, e, hirq, hlen⟩ := h.events
  obtain ⟨new', e', hirq', hlen'⟩ := h'.events
  refine ⟨⟨new ++ new', ?_, ?_, ?_⟩, h'.irq.trans h.irq⟩
  · rw [e', e, List.append_assoc]
  · intro num level hm
    rcases List.mem_append.mp hm with hm | hm
    · exact hirq num level hm
    · exact hirq' num level hm
  · rw [handedBack, List.filterMap_append, List.length_append]
    exact congrArg₂ _ hlen hlen'

/-- Events that neither hand a chain back nor drive a line. -/
def Event.Quiet : Event → Prop
  | .read _ => True
  | .write _ _ => True
  | .irq _ _ => False
  | .used _ _ _ => False

/-- What is quiet hands nothing back. -/
lemma Hands.of_touches {P : Event → Prop} {A : Nat → Prop} (t : Touches P A w.host w'.host)
    (hP : ∀ e, P e → e.Quiet) (irq : w'.mmio.irq = w.mmio.irq) : Hands 0 w w' := by
  obtain ⟨new, e, hnew⟩ := t.events
  refine ⟨⟨new, e, fun num level hm => hP _ (hnew _ hm), ?_⟩, irq⟩
  rw [List.length_eq_zero_iff, handedBack, List.filterMap_eq_nil_iff]
  intro ev hm
  cases ev with
  | used ring head len => exact (hP _ (hnew _ hm)).elim
  | read _ => rfl
  | write _ _ => rfl
  | irq _ _ => rfl

/-- A chain is handed back. -/
lemma pushUsed_hands {queue : VringQueue} {head : UInt16} {len : UInt32}
    (e : onHost (queue.pushUsed mem head len) w = (.ok (), w')) : Hands 1 w w' := by
  obtain ⟨push, m⟩ := onHost_ok e
  obtain ⟨ptr, -, -, -, he⟩ := VringQueue.pushUsed_ok push
  refine ⟨⟨_, he, ?_, rfl⟩, by rw [m]⟩
  intro num level hm
  simp at hm

/-- A chain that cannot be handed back is not. -/
lemma pushUsed_err {queue : VringQueue} {head : UInt16} {len : UInt32} {err : IoError}
    (e : onHost (queue.pushUsed mem head len) w = (.err err, w')) : Hands 0 w w' := by
  rw [onHost, Eff.zoom_run, Prod.mk.injEq] at e
  obtain ⟨e, rfl⟩ := e
  suffices h : (queue.pushUsed mem head len w.host).2 = w.host by
    rw [h]
    exact .refl w
  unfold VringQueue.pushUsed guestPtr at e ⊢
  cases hp : gpaToHost mem queue.used queue.usedSize with
  | none => rfl
  | some ptr =>
    rw [hp] at e
    by_cases h0 : queue.num = 0
    · rw [Eff.okOr_some, Eff.pure_bind_run, Eff.bind_of_ok (readGuestPtr_run ..),
        VringQueue.remU32, if_pos h0] at e
      cases e
    · rw [Eff.okOr_some, Eff.pure_bind_run, Eff.bind_of_ok (readGuestPtr_run ..),
        VringQueue.remU32, if_neg h0] at e
      cases e

/-- Taking a chain hands none back. -/
lemma popAvail_hands (mem : GuestMemory) (queue : VringQueue) (w : World D) :
    Hands 0 w (onHost (queue.popAvail mem) w).2 := by
  have t := VringQueue.popAvail_touches (A := fun _ => False) mem queue w.host
  refine .of_touches t ?_ rfl
  intro e he
  cases e with
  | read _ => trivial
  | write _ _ => trivial
  | irq _ _ => exact he
  | used _ _ _ => exact he

section Serve

variable [ConfinedDevice D]

/-- Processing a chain hands none back. -/
lemma process_hands (queue : UInt32) (chain : DescChain) (w : World D) :
    Hands 0 w (onDevice (VirtioDevice.process queue chain) w).2 := by
  have t := ConfinedDevice.process_touches queue chain (w.host, w.mmio.device)
  refine .of_touches t ?_ rfl
  intro e he
  cases e with
  | read _ => trivial
  | write _ _ => trivial
  | irq _ _ => exact he
  | used _ _ _ => exact he

/-- Serving hands one chain back if it goes on, and none if it stops. -/
lemma serve_ok {b : Bool} (e : serve q mem w = (.ok b, w')) : Hands b.toNat w w' := by
  obtain ⟨self, w0, e0, e⟩ := Eff.bind_ok_iff.mp e
  cases e0
  split at e
  · obtain ⟨⟨chain, queue⟩, w1, e1, e⟩ := Eff.bind_ok_iff.mp e
    have h1 := popAvail_hands mem ((id w).mmio.queue q) w
    rw [e1] at h1
    cases chain with
    | none =>
      cases e
      exact ⟨h1.events, h1.irq⟩
    | some chain =>
      obtain ⟨_, w2, e2, e⟩ := Eff.bind_ok_iff.mp e
      cases e2
      obtain ⟨len, w3, e3, e⟩ := Eff.bind_ok_iff.mp e
      obtain ⟨_, w4, e4, e⟩ := Eff.bind_ok_iff.mp e
      cases e
      have h2 : Hands 0 w (World.setQueue q queue w1) := ⟨h1.events, h1.irq⟩
      have h3 := process_hands (UInt32.ofNat q) chain (World.setQueue q queue w1)
      rw [e3] at h3
      exact (h2.trans h3).trans (pushUsed_hands e4)
  · cases e
    exact .refl w

/-- Serving that ends with an error hands nothing back. -/
lemma serve_err {err : IoError} (e : serve q mem w = (.err err, w')) : Hands 0 w w' := by
  rcases Eff.bind_err_iff.mp e with e | ⟨self, w0, e0, e⟩
  · cases e
  cases e0
  split at e
  · rcases Eff.bind_err_iff.mp e with e1 | ⟨⟨chain, queue⟩, w1, e1, e⟩
    · have h1 := popAvail_hands mem ((id w).mmio.queue q) w
      rw [e1] at h1
      exact h1
    have h1 := popAvail_hands mem ((id w).mmio.queue q) w
    rw [e1] at h1
    cases chain with
    | none => cases e
    | some chain =>
      rcases Eff.bind_err_iff.mp e with e | ⟨_, w2, e2, e⟩
      · cases e
      cases e2
      have h2 : Hands 0 w (World.setQueue q queue w1) := ⟨h1.events, h1.irq⟩
      have h3 := process_hands (UInt32.ofNat q) chain (World.setQueue q queue w1)
      rcases Eff.bind_err_iff.mp e with e3 | ⟨len, w3, e3, e⟩
      · rw [e3] at h3
        exact h2.trans h3
      rw [e3] at h3
      rcases Eff.bind_err_iff.mp e with e4 | ⟨_, w4, e4, e⟩
      · exact (h2.trans h3).trans (pushUsed_err e4)
      · cases e
  · cases e

end Serve

/-! ## The system -/

/-- An edge-triggered input: it keeps a change of its line from low to
high until it is delivered. -/
structure IrqInput where
  level : Bool
  latched : Bool

/-- The line is driven to a level. -/
def IrqInput.drive (level : UInt32) (input : IrqInput) : IrqInput where
  level := level != 0
  latched := input.latched || (!input.level && level != 0)

/-- What the input with number `irq` makes of an event. -/
def IrqInput.see (irq : UInt32) (input : IrqInput) : Event → IrqInput
  | .irq num level => if num = irq then input.drive level else input
  | _ => input

/-- Where the interrupt handler is. -/
inductive Handler where
  /-- not running -/
  | idle
  | entered
  /-- has read this from `INTERRUPT_STATUS` -/
  | status (val : UInt32)
  /-- has acknowledged it, and since then found these used rings empty -/
  | scanning (found : List (Fin vringQueuesMax))
  deriving DecidableEq

/-- The device, its interrupt input and its driver. -/
structure Delivery (D : Type) where
  world : World D
  /-- the queues that the call which holds the device's lock has still to drain -/
  draining : List (Fin vringQueuesMax)
  /-- the queue whose chain that call has handed back and not announced -/
  announcing : Option (Fin vringQueuesMax)
  input : IrqInput
  handler : Handler
  /-- the used entries that the handler has not consumed -/
  unconsumed : Fin vringQueuesMax → List (UInt16 × UInt32)

namespace Delivery

/-- What is noted on the way to `w'`. -/
def noted (s : Delivery D) (w' : World D) : List Event :=
  w'.host.events.drop s.world.host.events.length

/-- The device goes on to `w'`, and the input sees what it does. -/
def after (w' : World D) (s : Delivery D) : Delivery D :=
  { s with
    world := w'
    input := (s.noted w').foldl (IrqInput.see s.world.mmio.irq) s.input }

/-- The same in a call that works on queue `q`, whose used ring gets what the device hands back. -/
def working (q : Fin vringQueuesMax) (w' : World D) (s : Delivery D) : Delivery D :=
  { s.after w' with
    unconsumed := Function.update s.unconsumed q (s.unconsumed q ++ handedBack (s.noted w')) }

/-- The used entries of a queue that are not consumed and whose completion is over: not the one that
    is handed back and not announced, which is the last. -/
def announced (s : Delivery D) (q : Fin vringQueuesMax) : List (UInt16 × UInt32) :=
  if s.announcing = some q then (s.unconsumed q).dropLast else s.unconsumed q

/-- The steps of the system: the parts of a turn, register accesses, the driver and the guest's
    handler. -/
inductive Step [VirtioDevice D] (mem : GuestMemory) (s : Delivery D) : Delivery D → Prop where
  /-- a write to `QUEUE_NOTIFY` takes the lock -/
  | notify (exit : Mmio) {q} (free : s.draining = []) (reg : exit.reg = .writeQueueNotify)
    (idx : VirtioMmio.queueIndex (readLe32 exit.data) = some q) :
    Step mem s { s with draining := [q] }
  /-- a poll takes the lock -/
  | poll (free : s.draining = []) : Step mem s { s with draining := [0, 1] }
  /-- a queue that is not set up is left alone -/
  | skip {q qs} (work : s.draining = q :: qs) (idle : s.announcing = none)
    (live : ¬ (s.world.mmio.queue q).Live) : Step mem s { s with draining := qs }
  /-- the first half of a turn that completes a chain -/
  | serve {q qs w} (work : s.draining = q :: qs) (idle : s.announcing = none)
    (live : (s.world.mmio.queue q).Live) (e : Hearth.serve q mem s.world = (.ok true, w)) :
    Step mem s { s.working q w with announcing := some q }
  /-- its second half -/
  | announce {q : _} {w : World D} (pushed : s.announcing = some q)
      (e : Hearth.announce s.world = (.ok (), w)) :
    Step mem s { s.working q w with announcing := none }
  /-- the turn that ends the loop -/
  | rest {q qs w} (work : s.draining = q :: qs) (idle : s.announcing = none)
    (live : (s.world.mmio.queue q).Live) (e : Hearth.serve q mem s.world = (.ok false, w)) :
    Step mem s { s.working q w with draining := qs }
  /-- a turn that ends the call with an error -/
  | fail {q qs w err} (work : s.draining = q :: qs) (idle : s.announcing = none)
    (live : (s.world.mmio.queue q).Live) (e : Hearth.serve q mem s.world = (.err err, w)) :
    Step mem s { s.working q w with draining := [] }
  /-- any other register access -/
  | access {fuel exit data w} (free : s.draining = []) (ack : exit.reg ≠ .writeInterruptAck)
    (other : exit.reg = .writeQueueNotify → VirtioMmio.queueIndex (readLe32 exit.data) = none)
    (e : handle fuel exit mem s.world = (.ok data, w)) : Step mem s (s.after w)
  /-- the guest writes to its memory -/
  | memory (m : Mem) :
    Step mem s { s with world := { s.world with host := { s.world.host with mem := m } } }
  /-- the latched edge is delivered -/
  | deliver (idle : s.handler = .idle) (edge : s.input.latched = true) :
    Step mem s { s with handler := .entered, input := { s.input with latched := false } }
  /-- the handler reads `INTERRUPT_STATUS` -/
  | status {fuel exit data w} (free : s.draining = []) (at' : s.handler = .entered)
    (reg : exit.reg = .readInterruptStatus) (e : handle fuel exit mem s.world = (.ok data, w)) :
    Step mem s { s.after w with handler := .status (readLe32 data) }
  /-- it writes to `INTERRUPT_ACK` what it has read -/
  | ack {fuel exit data w val} (free : s.draining = []) (at' : s.handler = .status val)
    (reg : exit.reg = .writeInterruptAck) (same : readLe32 exit.data = val)
    (e : handle fuel exit mem s.world = (.ok data, w)) :
    Step mem s { s.after w with handler := .scanning [] }
  /-- it consumes a used entry -/
  | consume {found q entry rest} (at' : s.handler = .scanning found)
    (more : s.unconsumed q = entry :: rest) :
    Step mem s { s with unconsumed := Function.update s.unconsumed q rest }
  /-- it finds a used ring empty -/
  | empty {found q} (at' : s.handler = .scanning found) (none : s.unconsumed q = []) :
    Step mem s { s with handler := .scanning (q :: found) }
  /-- it returns once it has found each of them empty -/
  | leave {found} (at' : s.handler = .scanning found) (all : ∀ q, q ∈ found) :
    Step mem s { s with handler := .idle }

/-- At the start nothing is under way, the line is low and no used entry is there. -/
structure Init (s : Delivery D) : Prop where
  draining : s.draining = []
  announcing : s.announcing = none
  low : s.input = { level := false, latched := false }
  handler : s.handler = .idle
  unconsumed : ∀ q, s.unconsumed q = []

/-! ## The invariant -/

/-- The handler has still to acknowledge. -/
def Owes : Handler → Prop
  | .idle => False
  | .entered => True
  | .status _ => True
  | .scanning _ => False

/-- The handler will not look at queue `q` again unless it is entered again. -/
def Done (q : Fin vringQueuesMax) : Handler → Prop
  | .idle => True
  | .entered => False
  | .status _ => False
  | .scanning found => q ∈ found

/-- A handler that is done owes nothing. -/
lemma Done.not_owes {h : Handler} (d : Done q h) : ¬ Owes h := by
  cases h with
  | idle => exact id
  | entered => exact d.elim
  | status _ => exact d.elim
  | scanning _ => exact id

/-- What holds between steps: a chain that was handed back is announced, is about to be, or the
    handler will see it. -/
structure Inv (s : Delivery D) : Prop where
  /-- a chain is announced by the call that handed it back -/
  lock : ∀ q, s.announcing = some q → s.draining ≠ []
  /-- once the handler has acknowledged, the line is not raised without an edge -/
  edge : ¬ Owes s.handler → s.input.level = true → s.input.latched = true
  /-- an entry the handler will not find by itself comes with an edge -/
  found : ∀ q, Done q s.handler → s.announced q ≠ [] → s.input.latched = true

section Keep

variable {s : Delivery D}

/-- What was noted since is what the log has been extended by. -/
lemma noted_eq {new : List Event} (e : w'.host.events = s.world.host.events ++ new) :
    s.noted w' = new := by
  rw [noted, e, List.drop_left]

/-- Events that drive no line do not reach the input. -/
lemma see_quiet {irq : UInt32} (input : IrqInput) {evs : List Event}
    (h : ∀ num level, .irq num level ∉ evs) : evs.foldl (IrqInput.see irq) input = input := by
  induction evs generalizing input with
  | nil => rfl
  | cons ev evs ih =>
    have hev : input.see irq ev = input := by
      cases ev with
      | irq num level => exact absurd List.mem_cons_self (h num level)
      | read _ => rfl
      | write _ _ => rfl
      | used _ _ _ => rfl
    rw [List.foldl_cons, hev]
    exact ih input fun num level hm => h num level (List.mem_cons_of_mem _ hm)

/-- The line is as it was. -/
lemma after_input (h : Hands 0 s.world w') : (s.after w').input = s.input := by
  obtain ⟨new, e, hirq, -⟩ := h.events
  show (s.noted w').foldl _ _ = _
  rw [noted_eq e]
  exact see_quiet _ hirq

/-- The chains handed back are those of the queue that is worked on. -/
lemma working_hands {n : Nat} (h : Hands n s.world w') :
    (s.working q w').input = s.input ∧
      ∃ new, new.length = n ∧
        (s.working q w').unconsumed = Function.update s.unconsumed q (s.unconsumed q ++ new) := by
  obtain ⟨new, e, hirq, hlen⟩ := h.events
  constructor
  · show (s.noted w').foldl _ _ = _
    rw [noted_eq e]
    exact see_quiet _ hirq
  · exact ⟨handedBack new, hlen, by simp only [working, noted_eq e]⟩

/-- Driving the line of the device reaches the input. -/
lemma after_drive {level : UInt32}
    (e : w'.host.events = s.world.host.events ++ [.irq s.world.mmio.irq level]) :
    (s.after w').input = s.input.drive level := by
  show (s.noted w').foldl _ _ = _
  rw [noted_eq e]
  exact if_pos rfl

/-- If nothing is being announced, all are. -/
lemma announced_of_none (h : s.announcing = none) (q : Fin vringQueuesMax) :
    s.announced q = s.unconsumed q := by
  rw [announced, h]
  exact if_neg nofun

/-- A turn that completes nothing changes nothing here. -/
lemma Inv.idle_turn {draining : List (Fin vringQueuesMax)} (inv : Inv s)
    (idle : s.announcing = none)
    (h : Hands 0 s.world w') : Inv { s.working q w' with draining := draining } := by
  obtain ⟨input, new, hlen, hun⟩ := working_hands (q := q) h
  cases List.length_eq_zero_iff.mp hlen
  rw [List.append_nil, Function.update_eq_self] at hun
  refine ⟨fun q' hq => ?_, ?_, fun q' hd hne => ?_⟩
  · exact absurd (idle.symm.trans hq) nofun
  · show ¬ Owes s.handler → (s.working q w').input.level = true →
      (s.working q w').input.latched = true
    rw [input]
    exact inv.edge
  · show (s.working q w').input.latched = true
    rw [input]
    apply inv.found q' hd
    rw [announced_of_none idle, ← hun]
    rwa [announced_of_none (by exact idle)] at hne

/-- Handing a chain back leaves the entries whose completion is over. -/
lemma Inv.serve (inv : Inv s) {qs : List (Fin vringQueuesMax)} (work : s.draining = q :: qs)
    (idle : s.announcing = none) (h : Hands 1 s.world w') :
    Inv { s.working q w' with announcing := some q } := by
  obtain ⟨input, new, hlen, hun⟩ := working_hands (q := q) h
  obtain ⟨entry, rfl⟩ := List.length_eq_one_iff.mp hlen
  refine ⟨fun q' _ => ?_, ?_, fun q' hd hne => ?_⟩
  · show s.draining ≠ []
    rw [work]
    nofun
  · show ¬ Owes s.handler → (s.working q w').input.level = true →
      (s.working q w').input.latched = true
    rw [input]
    exact inv.edge
  · show (s.working q w').input.latched = true
    rw [input]
    apply inv.found q' hd
    rw [announced_of_none idle]
    unfold announced at hne
    dsimp only at hne
    rw [hun] at hne
    by_cases hq : q' = q
    · cases hq
      rwa [if_pos rfl, Function.update_self, List.dropLast_concat] at hne
    · rwa [if_neg fun h => hq (Option.some_inj.mp h).symm, Function.update_of_ne hq] at hne

/-- Raising the line makes an edge, or there is one already. -/
lemma Inv.announce (inv : Inv s)
    (e : w'.host.events = s.world.host.events ++ [.irq s.world.mmio.irq 1]) :
    Inv { s.working q w' with announcing := none } := by
  have input : (s.working q w').input = s.input.drive 1 := after_drive e
  have latched : ¬ Owes s.handler → (s.input.drive 1).latched = true := by
    intro h
    show (s.input.latched || (!s.input.level && (1 : UInt32) != 0)) = true
    cases hl : s.input.level with
    | true => rw [inv.edge h hl, Bool.true_or]
    | false => cases s.input.latched <;> decide
  refine ⟨nofun, fun hd _ => ?_, fun q' hd _ => ?_⟩
  · show (s.working q w').input.latched = true
    rw [input]
    exact latched hd
  · show (s.working q w').input.latched = true
    rw [input]
    exact latched hd.not_owes

/-- What leaves the input, the entries and the handler as they are. -/
lemma Inv.frame {s' : Delivery D} (inv : Inv s)
    (lock : ∀ q, s'.announcing = some q → s'.draining ≠ [])
    (announcing : s'.announcing = s.announcing) (input : s'.input = s.input)
    (handler : s'.handler = s.handler) (unconsumed : s'.unconsumed = s.unconsumed) : Inv s' := by
  refine ⟨lock, ?_, fun q hd hne => ?_⟩
  · rw [handler, input]
    exact inv.edge
  · rw [input]
    rw [handler] at hd
    apply inv.found q hd
    rwa [announced, announcing, unconsumed] at hne

/-- Consuming an entry leaves no more entries than there were. -/
lemma announced_consume {entry : UInt16 × UInt32} {rest : List (UInt16 × UInt32)}
    {q' : Fin vringQueuesMax} (more : s.unconsumed q = entry :: rest) (h : s.announced q' = []) :
    announced { s with unconsumed := Function.update s.unconsumed q rest } q' = [] := by
  unfold announced at h ⊢
  dsimp only
  by_cases hq : q' = q
  · cases hq
    rw [more] at h
    rw [Function.update_self]
    split at h
    · next ha =>
      rw [if_pos ha]
      cases rest with
      | nil => rfl
      | cons _ _ => cases h
    · cases h
  · rwa [Function.update_of_ne hq]

/-- Every step keeps the invariant. -/
lemma Inv.step [ConfinedDevice D] {s' : Delivery D} (inv : Inv s)
    (st : Step mem s s') : Inv s' := by
  cases st with
  | notify exit free reg idx => exact inv.frame (fun _ _ => nofun) rfl rfl rfl rfl
  | poll free => exact inv.frame (fun _ _ => nofun) rfl rfl rfl rfl
  | skip work idle live =>
    exact inv.frame (fun q h => absurd (idle.symm.trans h) nofun) rfl rfl rfl rfl
  | serve work idle live e => exact inv.serve work idle (serve_ok e)
  | announce pushed e => exact inv.announce (announce_ok e).2.1
  | rest work idle live e => exact inv.idle_turn idle (serve_ok e)
  | fail work idle live e => exact inv.idle_turn idle (serve_err e)
  | access free ack other e =>
    obtain ⟨host, irq, -, -⟩ := handle_other ack other e
    exact inv.frame inv.lock rfl (after_input ⟨⟨[], by simp [host, handedBack]⟩, irq⟩) rfl rfl
  | memory m => exact inv.frame inv.lock rfl rfl rfl rfl
  | deliver idle edge =>
    exact ⟨inv.lock, fun h => absurd trivial h, fun q hd => hd.elim⟩
  | status free at' reg e => exact ⟨inv.lock, fun h => absurd trivial h, fun q hd => hd.elim⟩
  | ack free at' reg same e =>
    refine ⟨inv.lock, fun _ hl => ?_, fun q hd => absurd hd List.not_mem_nil⟩
    dsimp only at hl
    rw [after_drive (handle_ack reg e).1] at hl
    cases hl
  | consume at' more =>
    refine ⟨inv.lock, inv.edge, fun q' hd hne => inv.found q' hd fun h => hne ?_⟩
    exact announced_consume more h
  | @empty found q at' none =>
    refine ⟨inv.lock, fun _ => inv.edge (by rw [at']; exact id), fun q' hd hne => ?_⟩
    rcases List.mem_cons.mp hd with rfl | hd
    · refine absurd ?_ hne
      unfold announced
      dsimp only
      rw [none]
      exact ite_self _
    · exact inv.found q' (by rw [at']; exact hd) hne
  | leave at' all =>
    refine ⟨inv.lock, fun _ => inv.edge (by rw [at']; exact id), fun q' _ hne => ?_⟩
    exact inv.found q' (by rw [at']; exact all q') hne

end Keep

/-- The invariant holds at the start. -/
lemma Inv.init {s : Delivery D} (h : Init s) : Inv s where
  lock q ha := absurd (h.announcing.symm.trans ha) nofun
  edge _ hl := by
    rw [h.low] at hl
    cases hl
  found q _ hne := by
    refine absurd ?_ hne
    rw [announced_of_none h.announcing, h.unconsumed]

/-! ## Calls are steps

A notification or a poll that returns `Ok` is a run of the system. -/

section Calls

variable [VirtioDevice D] {s : Delivery D} {qs : List (Fin vringQueuesMax)}

/-- The steps lead from `s` to a state with world `w'` where the queues `qs` are left to drain. -/
def Drains (mem : GuestMemory) (s : Delivery D) (w' : World D) (qs : List (Fin vringQueuesMax)) :
    Prop :=
  ∃ s', Relation.ReflTransGen (Step mem) s s' ∧ s'.world = w' ∧ s'.draining = qs ∧
    s'.announcing = none ∧ s'.handler = s.handler

/-- A step that leaves the handler alone may come before. -/
lemma Drains.head {s₁ : Delivery D} (st : Step mem s s₁) (handler : s₁.handler = s.handler)
    (d : Drains mem s₁ w' qs) : Drains mem s w' qs := by
  obtain ⟨s', run, hw, hqs, idle, hh⟩ := d
  exact ⟨s', .head st run, hw, hqs, idle, hh.trans handler⟩

/-- A queue that is drained is drained in steps. -/
lemma turn_steps (work : s.draining = q :: qs) (idle : s.announcing = none)
    (live : (s.world.mmio.queue q).Live) (it : Eff.Iter (notifyTurn q mem) s.world w)
    (e : notifyTurn q mem w = (.ok false, w')) : Drains mem s w' qs := by
  generalize hw : s.world = w₀ at it
  induction it generalizing s with
  | refl =>
    cases hw
    refine ⟨_, .single (.rest work idle live (notifyTurn_false e)), rfl, rfl, idle, rfl⟩
  | @step w₀ w₁ _ e1 it ih =>
    cases hw
    obtain ⟨w₂, hserve, hannounce⟩ := notifyTurn_true e1
    have live' : (w₁.mmio.queue q).Live := by
      obtain ⟨idx, hq⟩ := iter_queue (.step e1 .refl)
      rw [hq]
      exact live
    apply Drains.head (.serve work idle live hserve) rfl
    apply Drains.head (.announce (q := q) rfl hannounce) rfl
    exact ih (s := { working q w₁ _ with announcing := none }) work rfl live' e rfl

/-- A notification drains its queue. -/
lemma queueNotify_steps {fuel : Nat} {queueIdx : UInt32} (work : s.draining = q :: qs)
    (idle : s.announcing = none) (hq : VirtioMmio.queueIndex queueIdx = some q)
    (e : queueNotify fuel queueIdx mem s.world = (.ok (), w')) : Drains mem s w' qs := by
  rw [queueNotify_some hq] at e
  by_cases h0 : (s.world.mmio.queue q).ready = 0 ∨ (s.world.mmio.queue q).num = 0
  · rw [if_pos h0] at e
    cases e
    have live : ¬ (s.world.mmio.queue q).Live := fun h => h0.elim h.1 h.2
    exact ⟨_, .single (.skip work idle live), rfl, rfl, idle, rfl⟩
  · rw [if_neg h0] at e
    obtain ⟨w₁, it, e1⟩ := Eff.loop_ok e
    exact turn_steps work idle (not_or.mp h0) it e1

/-- A write to `QUEUE_NOTIFY` is a run of the system. -/
lemma notify_steps {fuel : Nat} {exit : Mmio} {data : List UInt8} (free : s.draining = [])
    (idle : s.announcing = none) (reg : exit.reg = .writeQueueNotify)
    (hq : VirtioMmio.queueIndex (readLe32 exit.data) = some q)
    (e : handle fuel exit mem s.world = (.ok data, w')) : Drains mem s w' [] := by
  change access fuel mem _ exit.data exit.reg s.world = _ at e
  rw [reg, access, Eff.gets_bind_run] at e
  obtain ⟨_, w₁, e1, e2⟩ := Eff.bind_ok_iff.mp e
  cases e2
  apply Drains.head (.notify exit free reg hq) rfl
  exact queueNotify_steps rfl idle hq e1

/-- A poll is a run of the system. -/
lemma poll_steps {fuel : Nat} (free : s.draining = []) (idle : s.announcing = none)
    (e : Hearth.poll fuel mem s.world = (.ok (), w')) : Drains mem s w' [] := by
  obtain ⟨_, w₁, e1, e2⟩ := Eff.bind_ok_iff.mp e
  apply Drains.head (.poll free) rfl
  obtain ⟨s₁, run, hw, hqs, idle₁, hh⟩ := queueNotify_steps
    (s := { s with draining := [0, 1] }) rfl idle rfl e1
  rw [← hw] at e2
  obtain ⟨s₂, run', hw', hqs', idle₂, hh'⟩ := queueNotify_steps hqs idle₁ rfl e2
  exact ⟨s₂, run.trans run', hw', hqs', idle₂, hh'.trans hh⟩

end Calls

end Delivery

/-! ## The result -/

/-- Whenever the handler is not running and an entry of a completed chain is not consumed, an
    edge is latched: it will run. -/
theorem completion_announced [ConfinedDevice D] {s : Delivery D}
    (h : Reach Delivery.Init (Delivery.Step mem) s) (idle : s.handler = .idle)
    {entry : UInt16 × UInt32} (some : entry ∈ s.announced q) : s.input.latched = true := by
  have inv := h.invariant (fun _ start => Delivery.Inv.init start) fun _ _ inv st => inv.step st
  apply inv.found q
  · rw [idle]
    trivial
  · exact List.ne_nil_of_mem some

namespace Delivery

/-- A guest that has submitted two chains to transmit, the second of its table
first; nothing is under way. -/
def transmit : Delivery VirtioNet where
  world := pairWorld 1 (offer 1 0 (offer 0 1 (twoBuffers 0)))
  draining := []
  announcing := none
  input := { level := false, latched := false }
  handler := .idle
  unconsumed _ := []

/-- The next chain is handed back. -/
def transmitServed (s : Delivery VirtioNet) : Delivery VirtioNet :=
  { s.working 1 (serve 1 onePage s.world).2 with announcing := some 1 }

/-- The chain has been served and announced. -/
def transmitCompleted (s : Delivery VirtioNet) : Delivery VirtioNet :=
  { (transmitServed s).working 1 (announce (transmitServed s).world).2 with announcing := none }

/-- The queue is notified. -/
def transmitNotified (s : Delivery VirtioNet) : Delivery VirtioNet := { s with draining := [1] }

/-- Both chains are completed before the handler runs. -/
def transmitBoth : Delivery VirtioNet :=
  transmitCompleted (transmitCompleted (transmitNotified transmit))

/-- The first edge is delivered before the second chain is completed. -/
def transmitEntered : Delivery VirtioNet :=
  let s := transmitCompleted (transmitNotified transmit)
  transmitCompleted { s with handler := .entered, input := { s.input with latched := false } }

/-- The queue has no chain left, and the notification is over. -/
def transmitDone : Delivery VirtioNet :=
  { transmitEntered.working 1 (serve 1 onePage transmitEntered.world).2 with draining := [] }

/-- The handler reads the status. -/
def transmitStatus : Delivery VirtioNet :=
  { transmitDone.after (handle 1 (.read 0x060) onePage transmitDone.world).2 with
    handler := .status 1 }

/-- It acknowledges what it has read. -/
def transmitAcked : Delivery VirtioNet :=
  { transmitStatus.after (handle 1 (.write 0x064 1) onePage transmitStatus.world).2 with
    handler := .scanning [] }

/-- It consumes both entries, and returns. -/
def transmitConsumed : Delivery VirtioNet :=
  { transmitAcked with
    handler := .idle
    unconsumed := Function.update (Function.update transmitAcked.unconsumed 1 [(0, 0)]) 1 [] }

/-- Then one of the chains is submitted again, and completed. -/
def transmitAgain : Delivery VirtioNet :=
  transmitCompleted (transmitNotified
    { transmitConsumed with
      world := { transmitConsumed.world with
        host := { transmitConsumed.world.host with
          mem := offer 2 1 transmitConsumed.world.host.mem } } })

/-- The chains of a notification are completed. -/
lemma transmitCompleted_reach {s : Delivery VirtioNet} (h : Reach Init (Step onePage) s)
    (work : s.draining = [1]) (idle : s.announcing = none) (live : (s.world.mmio.queue 1).Live)
    (served : (Hearth.serve 1 onePage s.world).1 = .ok true)
    (announced : (Hearth.announce (transmitServed s).world).1 = .ok ()) :
    Reach Init (Step onePage) (transmitCompleted s) := by
  have handed : Reach Init (Step onePage) (transmitServed s) :=
    h.step (.serve work idle live (Prod.ext served rfl))
  exact handed.step (.announce rfl (Prod.ext announced rfl))

/-- The queue is notified. -/
lemma transmitNotified_reach {s : Delivery VirtioNet} (h : Reach Init (Step onePage) s)
    (free : s.draining = []) :
    Reach Init (Step onePage) (transmitNotified s) :=
  h.step (.notify (.write 0x050 1) free (by decide) rfl)

/-- Both chains are handed back. -/
lemma transmitBoth_reach : Reach Init (Step onePage) transmitBoth := by
  have notified :=
    transmitNotified_reach (.init ⟨rfl, rfl, rfl, rfl, fun _ => rfl⟩) (rfl : transmit.draining = [])
  have first := transmitCompleted_reach notified rfl rfl ⟨by decide, by decide⟩ (by decide +kernel)
    (by decide +kernel)
  exact transmitCompleted_reach first rfl rfl ⟨by decide +kernel, by decide +kernel⟩
    (by decide +kernel)
    (by decide +kernel)

/-- The handler has seen them. -/
lemma transmitConsumed_reach : Reach Init (Step onePage) transmitConsumed := by
  have notified :=
    transmitNotified_reach (.init ⟨rfl, rfl, rfl, rfl, fun _ => rfl⟩) (rfl : transmit.draining = [])
  have first := transmitCompleted_reach notified rfl rfl ⟨by decide, by decide⟩ (by decide +kernel)
    (by decide +kernel)
  have delivered := first.step (.deliver rfl (by decide +kernel))
  have entered : Reach Init (Step onePage) transmitEntered :=
    transmitCompleted_reach delivered rfl rfl ⟨by decide +kernel, by decide +kernel⟩
      (by decide +kernel)
      (by decide +kernel)
  have done : Reach Init (Step onePage) transmitDone :=
    entered.step (.rest rfl rfl ⟨by decide +kernel, by decide +kernel⟩
      (Prod.ext (by decide +kernel) rfl))
  have read : (handle 1 (.read 0x060) onePage transmitDone.world).1 =
    .ok (toLE 4 1 ++ List.replicate 4 0) := by
    decide +kernel
  have status : Reach Init (Step onePage) transmitStatus :=
    done.step (.status rfl rfl (by decide) (Prod.ext read rfl))
  have written : (handle 1 (.write 0x064 1) onePage transmitStatus.world).1 =
      .ok (Mmio.write 0x064 1).data := by decide +kernel
  have acked : Reach Init (Step onePage) transmitAcked :=
    status.step (.ack rfl rfl (by decide) (by decide) (Prod.ext written rfl))
  have entries : transmitAcked.unconsumed 1 = [(1, 0), (0, 0)] := by decide +kernel
  have one := acked.step (.consume rfl entries)
  have two := one.step (.consume (q := 1) rfl rfl)
  have receive := two.step (.empty (q := 0) rfl (by decide +kernel))
  have both := receive.step (.empty (q := 1) rfl rfl)
  exact both.step (.leave rfl (by decide))

/-- Another is handed back. -/
lemma transmitAgain_reach : Reach Init (Step onePage) transmitAgain := by
  have offered := transmitConsumed_reach.step (.memory (offer 2 1 transmitConsumed.world.host.mem))
  exact transmitCompleted_reach (transmitNotified_reach offered rfl) rfl rfl
    ⟨by decide +kernel, by decide +kernel⟩
    (by decide +kernel) (by decide +kernel)

end Delivery

/-- After a notification the driver has yet to see, the edge is there. So it is for a chain that is
    completed after the handler has seen the first two, of which it was entered for only one. -/
theorem transmit_announced :
    (Delivery.transmitBoth.announced 1 = [(1, 0), (0, 0)] ∧
      Delivery.transmitBoth.input.latched = true) ∧
      Delivery.transmitAgain.announced 1 = [(1, 0)] ∧
      Delivery.transmitAgain.input.latched = true := by
  have both : Delivery.transmitBoth.announced 1 = [(1, 0), (0, 0)] := by decide +kernel
  have again : Delivery.transmitAgain.announced 1 = [(1, 0)] := by decide +kernel
  have first : (1, 0) ∈ Delivery.transmitBoth.announced 1 := both ▸ List.mem_cons_self
  have last : (1, 0) ∈ Delivery.transmitAgain.announced 1 := again ▸ List.mem_cons_self
  exact ⟨⟨both, completion_announced Delivery.transmitBoth_reach rfl first⟩,
    again, completion_announced Delivery.transmitAgain_reach rfl last⟩

end Hearth
