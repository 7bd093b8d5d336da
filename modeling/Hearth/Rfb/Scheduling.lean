import Hearth.Rfb.Screen

/-!
# When updates are sent

The log of the update thread tells which of the requests it received are unanswered. `pending` says
the same, an update is only written when one is, and the readings of the clock that let the display
be rendered are an interval apart.
-/

namespace Hearth
open Lib

namespace UpdateEvent

/-- The event is an update. -/
def IsUpdate : UpdateEvent → Prop
  | .updated _ => True
  | _ => False

/-- It is decided by the event. -/
instance : DecidablePred IsUpdate
  | .updated _ => .isTrue trivial
  | .received _ => .isFalse id
  | .clock _ => .isFalse id
  | .rendered => .isFalse id

/-- The event is a request for an update. -/
def IsRequest : UpdateEvent → Prop
  | .received (.update _) => True
  | _ => False

end UpdateEvent

namespace Updates

/-- A request for an update was received after the last update. -/
def Unanswered (events : List UpdateEvent) : Prop :=
  ∃ earlier request later, events = earlier ++ request :: later ∧ request.IsRequest ∧
    ∀ e ∈ later, ¬ e.IsUpdate

/-- Every update answers a request. -/
def Solicited (events : List UpdateEvent) : Prop :=
  ∀ earlier bytes later, events = earlier ++ UpdateEvent.updated bytes :: later → Unanswered earlier

/-- After `before` the clock shows `time`, which lets the display be rendered; it is
read once more before that. -/
def Renders (events before : List UpdateEvent) (time : Nat) : Prop :=
  ∃ next later, events = before ++ UpdateEvent.clock time :: .clock next :: .rendered :: later

/-- Every render is let through by a reading of the clock. -/
def Admitted (events : List UpdateEvent) : Prop :=
  ∀ earlier later, events = earlier ++ UpdateEvent.rendered :: later →
    ∃ before time next, earlier = before ++ [UpdateEvent.clock time, .clock next]

/-- The readings that let two renders through are at least an interval apart. -/
def Spaced (events : List UpdateEvent) : Prop :=
  ∀ before time before' time', Renders events before time → Renders events before' time' →
    before.length < before'.length → time + updateInterval ≤ time'

variable {events before : List UpdateEvent} {e : UpdateEvent} {time : Nat}

/-! ## Longer logs -/

/-- A request is unanswered as it comes. -/
lemma unanswered_request (request : e.IsRequest) : Unanswered (events ++ [e]) :=
  ⟨events, e, [], rfl, request, fun _ h => by cases h⟩

/-- Other events than requests and updates leave it at that. -/
lemma unanswered_append (request : ¬ e.IsRequest) (update : ¬ e.IsUpdate) :
    Unanswered (events ++ [e]) ↔ Unanswered events := by
  constructor
  · rintro ⟨earlier, asked, later, split, is, none⟩
    rcases split_last split with ⟨-, -, last⟩ | ⟨later, rfl, before⟩
    · exact absurd (last ▸ is) request
    · exact ⟨earlier, asked, later, before, is, fun a ha => none a (List.mem_append_left _ ha)⟩
  · rintro ⟨earlier, asked, later, rfl, is, none⟩
    refine ⟨earlier, asked, later ++ [e], by simp, is, fun a ha => ?_⟩
    rcases List.mem_append.mp ha with ha | ha
    · exact none a ha
    · rw [List.mem_singleton.mp ha]
      exact update

/-- An update answers all requests. -/
lemma not_unanswered_updated (events : List UpdateEvent) (bytes : List UInt8) :
    ¬ Unanswered (events ++ [UpdateEvent.updated bytes]) := by
  rintro ⟨earlier, asked, later, split, is, none⟩
  rcases split_last split with ⟨-, -, last⟩ | ⟨later, rfl, -⟩
  · exact (last ▸ is : UpdateEvent.IsRequest (.updated bytes))
  · apply none (.updated bytes)
    · exact List.mem_append_right _ (List.mem_singleton_self _)
    · trivial

/-- An update may come when a request is unanswered. -/
lemma Solicited.append (h : Solicited events) (asked : e.IsUpdate → Unanswered events) :
    Solicited (events ++ [e]) := by
  intro earlier bytes later split
  rcases split_last split with ⟨-, same, last⟩ | ⟨later, -, split⟩
  · rw [same]
    apply asked
    rw [← last]
    trivial
  · exact h earlier bytes later split

/-- The readings before a render are before the end of the log. -/
lemma Renders.lt (h : Renders events before time) : before.length < events.length := by
  obtain ⟨next, later, rfl⟩ := h
  rw [List.length_append]
  exact Nat.lt_add_of_pos_right (Nat.succ_pos _)

/-- Other events than renders are no render. -/
lemma Renders.of_append (h : Renders (events ++ [e]) before time) (render : e ≠ .rendered) :
    Renders events before time := by
  obtain ⟨next, later, split⟩ := h
  have split : events ++ [e] = (before ++ [UpdateEvent.clock time, .clock next]) ++
    UpdateEvent.rendered :: later := by
    rw [split, List.append_assoc]
    rfl
  rcases split_last split with ⟨-, -, last⟩ | ⟨later, -, split⟩
  · exact absurd last.symm render
  · refine ⟨next, later, ?_⟩
    rw [split, List.append_assoc]
    rfl

/-- A render is the last one, or was one before. -/
lemma Renders.of_rendered {time' next' : Nat}
    (h : Renders (events ++ [UpdateEvent.clock time', .clock next', .rendered]) before time) :
    Renders events before time ∨ before = events ∧ time = time' := by
  obtain ⟨next, later, split⟩ := h
  have split : (events ++ [UpdateEvent.clock time', .clock next']) ++ [.rendered] =
      (before ++ [UpdateEvent.clock time, .clock next]) ++ UpdateEvent.rendered :: later := by
    rw [List.append_assoc, List.append_assoc]
    exact split
  rcases split_last split with ⟨-, same, -⟩ | ⟨later, -, split⟩
  · have readings := List.append_inj_right' same rfl
    cases readings
    exact .inr ⟨List.append_inj_left' same rfl, rfl⟩
  · left
    have twice : Renders ((events ++ [UpdateEvent.clock time']) ++ [UpdateEvent.clock next'])
      before time := by
      refine ⟨next, later, ?_⟩
      have split : events ++ [UpdateEvent.clock time', .clock next'] = _ := split
      rw [List.append_assoc, List.append_assoc] at *
      exact split
    exact (twice.of_append nofun).of_append nofun

/-- Other events than renders change no spacing. -/
lemma Spaced.append (h : Spaced events) (render : e ≠ .rendered) : Spaced (events ++ [e]) :=
  fun _ _ _ _ first second => h _ _ _ _ (first.of_append render) (second.of_append render)

/-- A render an interval after all others. -/
lemma Spaced.rendered {next : Nat} (h : Spaced events)
    (after : ∀ before t, Renders events before t → t + updateInterval ≤ time) :
    Spaced (events ++ [UpdateEvent.clock time, .clock next, .rendered]) := by
  intro before t before' t' first second lt
  rcases first.of_rendered with old | ⟨same, -⟩
  · rcases second.of_rendered with old' | ⟨-, rfl⟩
    · exact h _ _ _ _ old old' lt
    · exact after _ _ old
  · rw [same] at lt
    rcases second.of_rendered with old' | ⟨same', -⟩
    · exact absurd old'.lt (Nat.lt_asymm lt)
    · rw [same'] at lt
      exact absurd lt (Nat.lt_irrefl _)

/-- Other events than renders need no reading. -/
lemma Admitted.append (h : Admitted events) (render : e ≠ .rendered) :
    Admitted (events ++ [e]) := by
  intro earlier later split
  rcases split_last split with ⟨-, -, last⟩ | ⟨later, -, split⟩
  · exact absurd last.symm render
  · exact h earlier later split

/-- A render after two readings. -/
lemma Admitted.rendered {next : Nat} (h : Admitted events) :
    Admitted (events ++ [UpdateEvent.clock time, .clock next, .rendered]) := by
  intro earlier later split
  have split : (events ++ [UpdateEvent.clock time] ++ [UpdateEvent.clock next]) ++ [.rendered] =
      earlier ++ UpdateEvent.rendered :: later := by
    rw [← split]
    simp only [List.append_assoc, List.cons_append, List.nil_append]
  rcases split_last split with ⟨-, same, -⟩ | ⟨later, -, split⟩
  · refine ⟨events, time, next, ?_⟩
    rw [same, List.append_assoc]
    rfl
  · have readings : Admitted (events ++ [UpdateEvent.clock time] ++ [UpdateEvent.clock next]) :=
      (h.append (e := .clock time) nofun).append (e := .clock next) nofun
    exact readings earlier later split

/-! ## Turns -/

/-- What holds however the thread ends. -/
structure Orderly (events : List UpdateEvent) : Prop where
  solicited : Solicited events
  admitted : Admitted events
  spaced : Spaced events

/-- What holds between turns. -/
structure Inv {δ : Type} (s : Updates δ) : Prop where
  orderly : Orderly s.events
  next : ∀ before t, Renders s.events before t → t + updateInterval ≤ s.nextRender
  pending : s.pending = true ↔ Unanswered s.events

variable {δ : Type} {clock : Nat → Nat} {render : Render δ} {overflowChecks : Bool} {width : UInt16}
  {s s' : Updates δ}

/-- Nothing else of the state matters. -/
lemma Inv.congr (h : s.Inv) (events : s'.events = s.events) (next : s'.nextRender = s.nextRender)
    (pending : s'.pending = s.pending) : s'.Inv := by
  refine ⟨?_, ?_, ?_⟩
  · rw [events]
    exact h.orderly
  · rw [events, next]
    exact h.next
  · rw [events, pending]
    exact h.pending

/-- An event that is no render, and an update only when one is asked for. -/
lemma Orderly.append (h : Orderly events) (render : e ≠ .rendered)
    (asked : e.IsUpdate → Unanswered events) :
    Orderly (events ++ [e]) :=
  ⟨h.solicited.append asked, h.admitted.append render, h.spaced.append render⟩

/-- An event that is neither a render, an update nor a request. -/
lemma Inv.note (h : s.Inv) (render : e ≠ .rendered) (update : ¬ e.IsUpdate)
    (request : ¬ e.IsRequest) :
    (note e s).Inv where
  orderly := h.orderly.append render fun is => absurd is update
  next := fun before t rendered => h.next before t (rendered.of_append render)
  pending := h.pending.trans (unanswered_append request update).symm

/-- A render that was due keeps the invariant. -/
lemma Inv.drawn (h : s.Inv) (mono : Monotone clock) (due : s.nextRender ≤ clock s.readings) :
    (drawn clock render s).Inv where
  orderly := by
    refine ⟨?_, h.orderly.admitted.rendered,
      h.orderly.spaced.rendered fun before t rendered => (h.next before t rendered).trans due⟩
    have all := ((h.orderly.solicited.append (e := .clock (clock s.readings)) False.elim).append
      (e := .clock (clock (s.readings + 1))) False.elim).append (e := .rendered) False.elim
    simp only [List.append_assoc, List.cons_append, List.nil_append] at all
    exact all
  next := by
    intro before t rendered
    show t + updateInterval ≤ clock (s.readings + 1) + updateInterval
    apply Nat.add_le_add_right
    have later : clock s.readings ≤ clock (s.readings + 1) := mono (Nat.le_succ _)
    rcases Renders.of_rendered rendered with rendered | ⟨-, rfl⟩
    · have := h.next before t rendered
      omega
    · exact later
  pending := by
    have all : Unanswered (((s.events ++ [UpdateEvent.clock (clock s.readings)]) ++
        [UpdateEvent.clock (clock (s.readings + 1))]) ++ [UpdateEvent.rendered]) ↔
          Unanswered s.events :=
      (unanswered_append id id).trans ((unanswered_append id id).trans (unanswered_append id id))
    simp only [List.append_assoc, List.cons_append, List.nil_append] at all
    exact h.pending.trans all.symm

/-- What is sent answers the request. -/
lemma Inv.sendRows {first last : Nat} {o : Outcome IoError Unit} (h : s.Inv)
    (asked : s.pending = true) (run : sendRows overflowChecks width first last s = (o, s')) :
    Orderly s'.events ∧ (o = .ok () → s'.Inv) := by
  rcases sendRows_cases run with ⟨rfl, rfl⟩ | ⟨bytes, fails, -, ⟨rfl, rfl⟩ | ⟨rfl, rfl⟩⟩
  · exact ⟨h.orderly, fun h => by cases h⟩
  · exact ⟨h.orderly.append nofun fun _ => h.pending.mp asked, fun h => by cases h⟩
  · have orderly : Orderly (s.events ++ [UpdateEvent.updated bytes]) :=
      h.orderly.append nofun fun _ => h.pending.mp asked
    refine ⟨orderly, fun _ => ⟨orderly, ?_, ?_⟩⟩
    · exact fun before t rendered => h.next before t (rendered.of_append nofun)
    · exact iff_of_false Bool.false_ne_true (not_unanswered_updated _ _)

/-- A request is taken up, whether for everything or for what changed. -/
lemma Inv.request (h : s.Inv) (incremental : Bool) : (take (.update incremental) s).Inv where
  orderly := h.orderly.append nofun False.elim
  next := fun before t rendered => h.next before t (rendered.of_append nofun)
  pending := iff_of_true rfl (unanswered_request trivial)

/-- Whatever is received keeps the invariant. -/
lemma Inv.take (h : s.Inv) (received : Received) : (take received s).Inv := by
  have noted (other : ∀ incremental, received ≠ .update incremental) :
    (Updates.note (.received received) s).Inv := by
    refine h.note nofun id fun request => ?_
    cases received with
    | update incremental => exact other incremental rfl
    | pixelFormat format => exact request
    | timeout => exact request
    | disconnected => exact request
  cases received with
  | pixelFormat format => exact (noted nofun).congr rfl rfl rfl
  | update incremental => exact h.request incremental
  | timeout => exact noted nofun
  | disconnected => exact noted nofun

/-- The invariant is kept. -/
lemma inv_rules (mono : Monotone clock) :
    Rules clock render overflowChecks width Inv fun s => Orderly s.events where
  weaken := fun h => h.orderly
  waits := fun _ h => h.congr rfl rfl rfl
  reads := fun {s} h => (h.note (e := .clock (clock s.readings)) nofun id id).congr rfl rfl rfl
  takes := fun received h => h.take received
  draws := by
    intro s s' o h asked due run
    have inv : (Updates.drawn clock render s).Inv := h.drawn mono due
    cases rows : (render s.frame s.seen s.display).1 with
    | none =>
      rw [rows] at run
      cases run
      exact ⟨inv.orderly, fun _ => inv⟩
    | some range =>
      rw [rows] at run
      exact inv.sendRows asked run

/-- As the loop is entered. -/
lemma inv_start (width height : UInt16) (display : δ) (writeFails : List Bool) :
    Inv { read clock (start width height display writeFails) with nextRender := clock 0 } := by
  have one {e' : UpdateEvent} {earlier later : List UpdateEvent}
      (split : [UpdateEvent.clock (clock 0)] = earlier ++ e' :: later) : e' = .clock (clock 0) := by
    have split : [] ++ [UpdateEvent.clock (clock 0)] = earlier ++ e' :: later := split
    rcases split_last split with ⟨-, -, last⟩ | ⟨later, -, split⟩
    · exact last
    · cases earlier <;> cases split
  have none (before : List UpdateEvent) (t : Nat) : ¬ Renders [.clock (clock 0)] before t := by
    rintro ⟨next, later, split⟩
    have lengths := congrArg List.length split
    rw [List.length_append] at lengths
    simp only [List.length_cons, List.length_nil] at lengths
    omega
  refine ⟨⟨fun earlier bytes later split => ?_, fun earlier later split => ?_, ?_⟩, ?_, ?_⟩
  · cases one split
  · cases one split
  · exact fun before t before' t' rendered => absurd rendered (none before t)
  · exact fun before t rendered => absurd rendered (none before t)
  · refine iff_of_false Bool.false_ne_true ?_
    rintro ⟨earlier, asked, later, split, is, -⟩
    exact (one split ▸ is : UpdateEvent.IsRequest (.clock (clock 0)))

/-- Whatever is received and whatever the display does: updates answer requests, renders are an
interval apart, and while the thread runs it remembers an unanswered request. -/
theorem updates_scheduled (mono : Monotone clock) (height : UInt16) (display : δ)
    (writeFails : List Bool) (received : List Received) {o : Outcome IoError Bool}
    (run : sendUpdates clock render overflowChecks width received
      (start width height display writeFails) = (o, s')) :
    (receptions s'.events <+: received ∧ (o = .ok true → receptions s'.events = received)) ∧
      Solicited s'.events ∧ Admitted s'.events ∧ Spaced s'.events ∧
      (o = .ok true → (s'.pending = true ↔ Unanswered s'.events)) := by
  obtain ⟨orderly, running⟩ :=
    (inv_rules mono).turns (inv_start width height display writeFails) run
  exact ⟨sendUpdates_receptions run, orderly.solicited, orderly.admitted, orderly.spaced,
    fun ok => (running true ok).pending⟩

/-- One more request, after which nothing changes any more. -/
def askedMore : List Received := asked ++ [.update true, .timeout, .timeout]

/-- What the thread does for the display of two pixels. -/
def waited : Outcome IoError Bool × Updates Nat :=
  sendUpdates ticks blinking true 1 askedMore (start 1 2 0 [])

/-- Four renders an interval apart, two updates, and a request that waits. -/
theorem request_waits :
    waited.1 = .ok true ∧ waited.2.events.count .rendered = 4 ∧
      waited.2.events.countP (fun e => decide e.IsUpdate) = 2 ∧
      receptions waited.2.events = askedMore ∧
      Solicited waited.2.events ∧ Admitted waited.2.events ∧ Spaced waited.2.events ∧
      Unanswered waited.2.events := by
  have ok : waited.1 = .ok true := by decide +kernel
  have pending : waited.2.pending = true := by decide +kernel
  have mono : Monotone ticks := fun _ _ le => Nat.mul_le_mul_right _ le
  have run : waited = (.ok true, waited.2) := Prod.fst_eq_iff.mp ok
  obtain ⟨⟨-, whole⟩, solicited, admitted, spaced, waits⟩ :=
    updates_scheduled mono 2 0 [] askedMore run
  exact ⟨ok, by decide +kernel, by decide +kernel, whole rfl, solicited, admitted, spaced, (waits
    rfl).mp pending⟩

end Updates

end Hearth
