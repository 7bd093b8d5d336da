import Hearth.Host
import Hearth.Rfb.PixelFormat

/-!
# The update thread

`send_updates` of `frontend/rfb.rs`: the loop that answers a client's requests with the rows of
the display that changed. The display is any with a `render`; what the clock shows at its
successive readings and what is received are given. `events` notes what the thread receives, reads
off the clock, renders and writes, each where it happens (`recvTimeout`, `now`, `renderFrame`,
`writeAll`); no code reads it.
-/

namespace Hearth
open Lib

/-- What `recv_timeout` returns: one of the two `Request`s, or one of its errors. -/
inductive Received where
  | pixelFormat (format : PixelFormat)
  | update (incremental : Bool)
  | timeout
  | disconnected
  deriving DecidableEq

/-- What the thread has to do with the rest of the world. -/
inductive UpdateEvent where
  /-- `recv_timeout` returns this -/
  | received (what : Received)
  /-- the clock shows this -/
  | clock (time : Nat)
  /-- the display is rendered -/
  | rendered
  /-- this message is written -/
  | updated (message : List UInt8)
  deriving DecidableEq

namespace UpdateEvent

/-- What an event receives. -/
def reception : UpdateEvent → Option Received
  | .received what => some what
  | _ => none

end UpdateEvent

/-- The variables of the loop, and what it talks to. -/
structure Updates (δ : Type) where
  format : PixelFormat
  frame : List UInt32
  /-- the display's frame the client has; 0 until the first update -/
  seen : UInt64
  pending : Bool
  nextRender : Nat
  /-- the timeout of the last receive -/
  wait : Nat
  display : δ
  /-- how often the clock was read -/
  readings : Nat
  /-- which of the next writes to the client fail; none once the list is used up -/
  writeFails : List Bool
  events : List UpdateEvent

/-- What the update thread does. -/
abbrev UpdatesM (δ α : Type) : Type := Eff IoError (Updates δ) α

/-- `Display::render`: it draws into the pixels, from the frame that was seen on,
and returns the rows it drew. -/
abbrev Render (δ : Type) : Type :=
  List UInt32 → UInt64 → δ → Option (Nat × Nat) × List UInt32 × UInt64 × δ

namespace Updates

variable {δ : Type}

/-- `UPDATE_INTERVAL`, in nanoseconds: `Duration::from_millis(1000 / 60)`. -/
def updateInterval : Nat := 1000 / 60 * 1000000

/-- The variables as the loop is entered, and nothing has happened. -/
def start (width height : UInt16) (display : δ) (writeFails : List Bool) : Updates δ where
  format := .default
  frame := List.replicate (width.toNat * height.toNat) 0
  seen := 0
  pending := false
  nextRender := 0
  wait := 0
  display := display
  readings := 0
  writeFails := writeFails
  events := []

/-- An event is added to the log. -/
def note (e : UpdateEvent) (self : Updates δ) : Updates δ :=
  { self with events := self.events ++ [e] }

/-- What was received, in order. -/
def receptions (events : List UpdateEvent) : List Received := events.filterMap UpdateEvent.reception

/-- `u16::to_be_bytes` -/
def toBe16 (n : Nat) : List UInt8 := (toLE 2 n).reverse

/-- The message for the rows `first .. last`; `none` is a panic. -/
def message (overflowChecks : Bool) (width : UInt16) (first last : Nat) (self : Updates δ) :
    Option (List UInt8) :=
  let header := [0, 0] ++ toBe16 1 ++ toBe16 0 ++ toBe16 first ++ toBe16 width.toNat ++
    toBe16 (last - first) ++
    (toLE 4 0).reverse
  let pixels := (self.frame.take (last * width.toNat)).drop (first * width.toNat)
  if first ≤ last ∧ last * width.toNat ≤ self.frame.length then
    self.format.encodeAll overflowChecks pixels header
  else none

/-- `stream.write_all` -/
def writeAll (bytes : List UInt8) : UpdatesM δ Unit := fun self =>
  match self.writeFails with
  | true :: fails => (.err .os, { self.note (.updated bytes) with writeFails := fails })
  | false :: fails => (.ok (), { self.note (.updated bytes) with writeFails := fails })
  | [] => (.ok (), self.note (.updated bytes))

section

variable (clock : Nat → Nat)

/-- `Instant::now()` -/
def now : UpdatesM δ Nat := do
  let k ← Eff.gets Updates.readings
  Eff.modify fun self => { self.note (.clock (clock k)) with readings := k + 1 }
  pure (clock k)

/-- How long to wait for a request. -/
def computeWait : UpdatesM δ Unit := do
  if ← Eff.gets Updates.pending then
    let time ← now clock
    Eff.modify fun self => { self with wait := self.nextRender - time }
  else Eff.modify fun self => { self with wait := updateInterval }

/-- `rx.recv_timeout(wait)`, when it returns this. -/
def recvTimeout (received : Received) : UpdatesM δ Received := do
  Eff.modify (note (.received received))
  pure received

/-- `!pending || Instant::now() < next_render` does not hold. -/
def admitNow : UpdatesM δ Bool := do
  if ← Eff.gets Updates.pending then
    let time ← now clock
    let self ← Eff.gets id
    pure (decide (self.nextRender ≤ time))
  else pure false

variable (render : Render δ) (overflowChecks : Bool) (width : UInt16)

/-- `display.render(&mut frame, &mut seen)` -/
def renderFrame : UpdatesM δ (Option (Nat × Nat)) := fun self =>
  let (rows, frame, seen, display) := render self.frame self.seen self.display
  (.ok rows, { self.note .rendered with frame := frame, seen := seen, display := display })

/-- The rows that changed are sent. -/
def sendRows (first last : Nat) : UpdatesM δ Unit := do
  let out ← Eff.gets (message overflowChecks width first last)
  writeAll (← Eff.unwrap out)
  Eff.modify fun self => { self with pending := false }

/-- An incremental request waits until something changes. -/
def answer : Option (Nat × Nat) → UpdatesM δ Unit
  | none => pure ()
  | some (first, last) => sendRows overflowChecks width first last

/-- The rest of a turn. -/
def respond : UpdatesM δ Unit := do
  if ← admitNow clock then
    let time ← now clock
    Eff.modify fun self => { self with nextRender := time + updateInterval }
    let rows ← renderFrame render
    answer overflowChecks width rows
  else pure ()

/-- Pixels already sent were in the old format. -/
def setFormat (format : PixelFormat) (self : Updates δ) : Updates δ :=
  { self with format := format, seen := 0 }

/-- An update is asked for, of everything or of what changed. -/
def request (incremental : Bool) (self : Updates δ) : Updates δ :=
  { self with pending := true, seen := if incremental then self.seen else 0 }

/-- One turn of the loop; it returns whether the loop goes on. -/
def turn (received : Received) : UpdatesM δ Bool := do
  computeWait clock
  match ← recvTimeout received with
  | .pixelFormat format => do
    Eff.modify (setFormat format)
    pure true
  | .update incremental => do
    Eff.modify (request incremental)
    respond clock render overflowChecks width
    pure true
  | .timeout => do
    respond clock render overflowChecks width
    pure true
  | .disconnected => pure false

/-- The loop, while this is received. -/
def turns : List Received → UpdatesM δ Bool
  | [] => pure true
  | r :: received => do
    if ← turn clock render overflowChecks width r then turns received else pure false

/-- What the thread does while it receives this; it returns whether it then waits for more. -/
def sendUpdates (received : List Received) : UpdatesM δ Bool := do
  let time ← now clock
  Eff.modify fun self => { self with nextRender := time }
  turns clock render overflowChecks width received

end

/-! ## What a turn does -/

/-- The clock is read, to no effect. -/
def read (clock : Nat → Nat) (self : Updates δ) : Updates δ :=
  { self.note (.clock (clock self.readings)) with readings := self.readings + 1 }

/-- The thread waits, with or without a look at the clock. -/
def waiting (clock : Nat → Nat) (self : Updates δ) : Updates δ :=
  if self.pending then { read clock self with wait := self.nextRender - clock self.readings }
  else { self with wait := updateInterval }

/-- What is received is taken. -/
def take (received : Received) (self : Updates δ) : Updates δ :=
  match received with
  | .pixelFormat format => setFormat format (self.note (.received received))
  | .update incremental => request incremental (self.note (.received received))
  | .timeout => self.note (.received received)
  | .disconnected => self.note (.received received)

/-- The display has been rendered. -/
def drawn (clock : Nat → Nat) (render : Render δ) (self : Updates δ) : Updates δ :=
  let (_, frame, seen, display) := render self.frame self.seen self.display
  { self with
    frame := frame
    seen := seen
    display := display
    nextRender := clock (self.readings + 1) + updateInterval
    readings := self.readings + 2
    events := self.events ++
      [.clock (clock self.readings), .clock (clock (self.readings + 1)), .rendered] }

section

variable {clock : Nat → Nat} {render : Render δ} {overflowChecks : Bool} {width : UInt16}
    {s : Updates δ}

/-- Where a log that is longer by one splits. -/
lemma split_last {events earlier later : List UpdateEvent} {e e' : UpdateEvent}
    (split : events ++ [e] = earlier ++ e' :: later) :
    later = [] ∧ earlier = events ∧ e' = e ∨
    ∃ later', later = later' ++ [e] ∧ events = earlier ++ e' :: later' := by
  induction later using List.reverseRecOn with
  | nil =>
    have last := List.append_inj_right' split rfl
    cases last
    exact .inl ⟨rfl, (List.append_inj_left' split rfl).symm, rfl⟩
  | append_singleton later l _ =>
    rw [← List.cons_append, ← List.append_assoc] at split
    have last := List.append_inj_right' split rfl
    cases last
    exact .inr ⟨later, rfl, List.append_inj_left' split rfl⟩

/-- Computing the timeout does not fail; it may read the clock. -/
lemma computeWait_run (clock : Nat → Nat) (s : Updates δ) :
    computeWait clock s = (.ok (), waiting clock s) := by
  by_cases h : s.pending = true
  · exact (congrFun (if_pos h) s).trans (congrArg (Prod.mk _) (if_pos h).symm)
  · exact (congrFun (if_neg h) s).trans (congrArg (Prod.mk _) (if_neg h).symm)

/-- Where nothing is asked for, the end of a turn does nothing. -/
lemma respond_idle (h : s.pending = false) :
    respond clock render overflowChecks width s = (.ok (), s) := by
  have idle : admitNow clock s = (.ok false, s) :=
    (congrFun (if_neg (by rw [h]; exact Bool.false_ne_true)) s).trans rfl
  exact Eff.bind_of_ok idle

/-- The interval is not over. -/
lemma respond_early (h : s.pending = true) (early : clock s.readings < s.nextRender) :
    respond clock render overflowChecks width s = (.ok (), read clock s) := by
  have waits : admitNow clock s = (.ok false, read clock s) := by
    refine (congrFun (if_pos h) s).trans ?_
    exact congrArg (fun b => (Outcome.ok b, read clock s))
      (decide_eq_false (Nat.not_le_of_lt early))
  exact Eff.bind_of_ok waits

/-- The display is rendered. -/
lemma respond_draws (h : s.pending = true) (due : s.nextRender ≤ clock s.readings) :
    respond clock render overflowChecks width s =
      answer overflowChecks width (render s.frame s.seen s.display).1 (drawn clock render s) := by
  have go : admitNow clock s = (.ok true, read clock s) := by
    refine (congrFun (if_pos h) s).trans ?_
    exact congrArg (fun b => (Outcome.ok b, read clock s)) (decide_eq_true due)
  have same : (s.events ++ [UpdateEvent.clock (clock s.readings)] ++
      [UpdateEvent.clock (clock (s.readings + 1))]) ++ [UpdateEvent.rendered] =
      s.events ++ [.clock (clock s.readings), .clock (clock (s.readings + 1)), .rendered] := by
    simp only [List.append_assoc, List.cons_append, List.nil_append]
  unfold drawn
  rw [← same]
  exact Eff.bind_of_ok go

/-- What was written is in the log, whether or not the write failed. -/
lemma writeAll_run (bytes : List UInt8) (s : Updates δ) :
    ∃ fails, writeAll bytes s =
      (.err .os, { s with writeFails := fails, events := s.events ++ [.updated bytes] }) ∨
      writeAll bytes s =
        (.ok (), { s with writeFails := fails, events := s.events ++ [.updated bytes] }) := by
  cases hf : s.writeFails with
  | nil =>
    refine ⟨[], .inr ?_⟩
    simp only [writeAll, hf]
    rw [← hf]
    rfl
  | cons b fails =>
    cases b with
    | true => exact ⟨fails, .inl (by simp only [writeAll, hf]; rfl)⟩
    | false => exact ⟨fails, .inr (by simp only [writeAll, hf]; rfl)⟩

/-- The message is in the log whether or not it could be written. -/
lemma sendRows_cases {first last : Nat} {o : Outcome IoError Unit} {s' : Updates δ}
    (run : sendRows overflowChecks width first last s = (o, s')) :
    o = .panic ∧ s' = s ∨
      ∃ bytes fails, message overflowChecks width first last s = some bytes ∧
        (o = .err .os ∧
          s' = { s with writeFails := fails, events := s.events ++ [.updated bytes] } ∨
          o = .ok () ∧
            s' = { s with writeFails := fails, events := s.events ++ [.updated bytes],
                          pending := false }) := by
  cases h : message overflowChecks width first last s with
  | none =>
    have stop : sendRows overflowChecks width first last s = (.panic, s) := by
      unfold sendRows
      rw [Eff.gets_bind_run, h]
      rfl
    cases run.symm.trans stop
    exact .inl ⟨rfl, rfl⟩
  | some bytes =>
    have go : sendRows overflowChecks width first last s = (do
        writeAll bytes
        Eff.modify fun self => { self with pending := false } : UpdatesM δ Unit) s := by
      unfold sendRows
      rw [Eff.gets_bind_run, h]
      rfl
    rw [go] at run
    obtain ⟨fails, w | w⟩ := writeAll_run bytes s
    · cases run.symm.trans (Eff.bind_of_err w)
      exact .inr ⟨bytes, fails, rfl, .inl ⟨rfl, rfl⟩⟩
    · cases run.symm.trans (Eff.bind_of_ok w)
      exact .inr ⟨bytes, fails, rfl, .inr ⟨rfl, rfl⟩⟩

/-- A message that can be written is sent. -/
lemma sendRows_ok {first last : Nat} {bytes : List UInt8} (fine : s.writeFails = [])
    (h : message overflowChecks width first last s = some bytes) :
    sendRows overflowChecks width first last s =
      (.ok (), { s with events := s.events ++ [.updated bytes], pending := false }) := by
  have written : writeAll bytes s = (.ok (), s.note (.updated bytes)) := by
    unfold writeAll
    rw [fine]
  unfold sendRows
  rw [Eff.gets_bind_run, h]
  exact Eff.bind_of_ok written

/-- A turn is a wait, what is received, and the answer to it. -/
lemma turn_run (clock : Nat → Nat) (render : Render δ) (overflowChecks : Bool) (width : UInt16)
    (r : Received) (s : Updates δ) :
    turn clock render overflowChecks width r s =
      match r with
      | .pixelFormat _ => (.ok true, take r (waiting clock s))
      | .disconnected => (.ok false, take r (waiting clock s))
      | _ => ((respond clock render overflowChecks width (take r (waiting clock s))).1.map
        fun _ => true,
          (respond clock render overflowChecks width (take r (waiting clock s))).2) := by
  have go : turn clock render overflowChecks width r s = _ :=
    Eff.bind_of_ok (computeWait_run clock s)
  refine go.trans ?_
  cases r with
  | pixelFormat format => rfl
  | update incremental =>
    exact Eff.bind_pure_eq (respond clock render overflowChecks width) (fun _ => true) _
  | timeout => exact Eff.bind_pure_eq (respond clock render overflowChecks width) (fun _ => true) _
  | disconnected => rfl

/-- The loop is entered with a look at the clock. -/
lemma sendUpdates_run (clock : Nat → Nat) (render : Render δ) (overflowChecks : Bool)
    (width : UInt16) (received : List Received) (s : Updates δ) :
    sendUpdates clock render overflowChecks width received s =
      turns clock render overflowChecks width received
        { read clock s with nextRender := clock s.readings } := rfl

/-- The loop goes on after a turn that says so. -/
lemma turns_cons {r : Received} {received : List Received} {s' : Updates δ}
    (run : turn clock render overflowChecks width r s = (.ok true, s')) :
    turns clock render overflowChecks width (r :: received) s =
      turns clock render overflowChecks width received s' :=
  Eff.bind_of_ok run

/-- What is kept by a reading of the clock is kept by a wait, if it says nothing of the timeout. -/
lemma waiting_cases {P : Updates δ → Prop} (waits : ∀ s wait, P s → P { s with wait := wait })
    (reads : P s → P (read clock s)) (h : P s) : P (waiting clock s) := by
  unfold waiting
  split
  · exact waits _ _ (reads h)
  · exact waits _ _ h

/-! ## What is received -/

/-- Only `recvTimeout` receives. -/
lemma respond_receptions {o : Outcome IoError Unit} {s' : Updates δ}
    (run : respond clock render overflowChecks width s = (o, s')) :
    receptions s'.events = receptions s.events := by
  cases asked : s.pending with
  | false =>
    cases run.symm.trans (respond_idle asked)
    rfl
  | true =>
    rcases Nat.lt_or_ge (clock s.readings) s.nextRender with early | due
    · cases run.symm.trans (respond_early asked early)
      exact List.filterMap_append.trans (List.append_nil _)
    · rw [respond_draws asked due] at run
      have drawn : receptions (drawn clock render s).events = receptions s.events :=
        List.filterMap_append.trans (List.append_nil _)
      cases rows : (render s.frame s.seen s.display).1 with
      | none =>
        rw [rows] at run
        cases run
        exact drawn
      | some range =>
        rw [rows] at run
        have sent (bytes : List UInt8) :
          receptions ((Updates.drawn clock render s).events ++ [.updated bytes]) =
            receptions (Updates.drawn clock render s).events :=
              List.filterMap_append.trans (List.append_nil _)
        rcases sendRows_cases run with ⟨-, rfl⟩ | ⟨bytes, fails, -, ⟨-, rfl⟩ | ⟨-, rfl⟩⟩
        · exact drawn
        · exact (sent bytes).trans drawn
        · exact (sent bytes).trans drawn

/-- A turn receives once. -/
lemma turn_receptions {r : Received} {o : Outcome IoError Bool} {s' : Updates δ}
    (run : turn clock render overflowChecks width r s = (o, s')) :
    receptions s'.events = receptions s.events ++ [r] := by
  have same : receptions (waiting clock s).events = receptions s.events :=
    waiting_cases (P := fun s' => receptions s'.events = receptions s.events) (fun _ _ same => same)
      (fun _ => List.filterMap_append.trans (List.append_nil _)) rfl
  have took : receptions (take r (waiting clock s)).events = receptions s.events ++ [r] := by
    rw [← same]
    cases r <;> exact List.filterMap_append
  rw [turn_run] at run
  cases r with
  | pixelFormat format =>
    cases run
    exact took
  | update incremental =>
    cases run
    exact (respond_receptions rfl).trans took
  | timeout =>
    cases run
    exact (respond_receptions rfl).trans took
  | disconnected =>
    cases run
    exact took

/-- The loop receives what there is, in order, as long as it goes on. -/
lemma turns_receptions {received : List Received} {o : Outcome IoError Bool} {s' : Updates δ}
    (run : turns clock render overflowChecks width received s = (o, s')) :
    ∃ rest, receptions s.events ++ received = receptions s'.events ++ rest ∧
      (o = .ok true → rest = []) := by
  induction received generalizing s with
  | nil =>
    cases run
    exact ⟨[], rfl, fun _ => rfl⟩
  | cons r received ih =>
    cases hr : turn clock render overflowChecks width r s with
    | mk o₁ s₁ =>
      have first := turn_receptions hr
      have split : receptions s.events ++ r :: received = receptions s₁.events ++ received := by
        rw [first, List.append_assoc]
        rfl
      rw [split]
      cases o₁ with
      | ok go =>
        replace run := (Eff.bind_of_ok hr).symm.trans run
        cases go with
        | true => exact ih run
        | false =>
          cases run
          exact ⟨received, rfl, fun h => by cases h⟩
      | err e =>
        cases (Eff.bind_of_err hr).symm.trans run
        exact ⟨received, rfl, fun h => by cases h⟩
      | panic =>
        cases (Eff.bind_of_panic hr).symm.trans run
        exact ⟨received, rfl, fun h => by cases h⟩
      | fuel =>
        cases (Eff.bind_of_fuel hr).symm.trans run
        exact ⟨received, rfl, fun h => by cases h⟩

/-- What the thread has received is what there was to receive; all of it, if it waits for more. -/
lemma sendUpdates_receptions {height : UInt16} {display : δ} {writeFails : List Bool}
    {received : List Received} {o : Outcome IoError Bool} {s' : Updates δ}
    (run : sendUpdates clock render overflowChecks width received
      (start width height display writeFails) = (o, s')) :
    receptions s'.events <+: received ∧ (o = .ok true → receptions s'.events = received) := by
  obtain ⟨rest, split, whole⟩ := turns_receptions run
  have split : received = receptions s'.events ++ rest := split
  refine ⟨⟨rest, split.symm⟩, fun ok => ?_⟩
  rw [split, whole ok, List.append_nil]

/-! ## Runs -/

/-- To show that `I` holds between turns and `J` however the thread ends, it is enough to look at
what is received and at what a render leads to. -/
structure Rules (clock : Nat → Nat) (render : Render δ) (overflowChecks : Bool) (width : UInt16)
    (I J : Updates δ → Prop) : Prop where
  weaken : ∀ {s}, I s → J s
  waits : ∀ {s : Updates δ} (wait), I s → I { s with wait := wait }
  reads : ∀ {s : Updates δ}, I s → I (read clock s)
  takes : ∀ {s : Updates δ} (received), I s → I (take received s)
  draws : ∀ {s s' : Updates δ} {o}, I s → s.pending = true → s.nextRender ≤ clock s.readings →
    answer overflowChecks width (render s.frame s.seen s.display).1 (drawn clock render s) =
      (o, s') →
    J s' ∧ (o = .ok () → I s')

variable {I J : Updates δ → Prop} (rules : Rules clock render overflowChecks width I J)

include rules

/-- The rules for the end of a turn, from those for its parts. -/
lemma Rules.respond {o : Outcome IoError Unit} {s' : Updates δ} (h : I s)
    (run : respond clock render overflowChecks width s = (o, s')) : J s' ∧ (o = .ok () → I s') := by
  cases asked : s.pending with
  | false =>
    cases run.symm.trans (respond_idle asked)
    exact ⟨rules.weaken h, fun _ => h⟩
  | true =>
    rcases Nat.lt_or_ge (clock s.readings) s.nextRender with early | due
    · cases run.symm.trans (respond_early asked early)
      have waited := rules.reads h
      exact ⟨rules.weaken waited, fun _ => waited⟩
    · rw [respond_draws asked due] at run
      exact rules.draws h asked due run

/-- The rules for a whole turn, from those for its parts. -/
lemma Rules.turn {r : Received} {o : Outcome IoError Bool} {s' : Updates δ} (h : I s)
    (run : turn clock render overflowChecks width r s = (o, s')) :
    J s' ∧ ∀ go, o = .ok go → I s' := by
  have taken := rules.takes r (waiting_cases (fun _ wait h => rules.waits wait h) rules.reads h)
  have answered {o₁ : Outcome IoError Unit} {s₂ : Updates δ}
      (run : Updates.respond clock render overflowChecks width (take r (waiting clock s)) =
        (o₁, s₂)) :
      J s₂ ∧ ∀ go, (o₁.map fun _ => true) = .ok go → I s₂ := by
    obtain ⟨ends, goes⟩ := rules.respond taken run
    refine ⟨ends, fun go ok => goes ?_⟩
    cases o₁ with
    | ok => rfl
    | err => cases ok
    | panic => cases ok
    | fuel => cases ok
  rw [turn_run] at run
  cases r with
  | pixelFormat format =>
    cases run
    exact ⟨rules.weaken taken, fun _ _ => taken⟩
  | update incremental =>
    cases run
    exact answered rfl
  | timeout =>
    cases run
    exact answered rfl
  | disconnected =>
    cases run
    exact ⟨rules.weaken taken, fun _ _ => taken⟩

/-- The loop, whatever it receives. -/
lemma Rules.turns {received : List Received} {o : Outcome IoError Bool} {s' : Updates δ} (h : I s)
    (run : turns clock render overflowChecks width received s = (o, s')) :
    J s' ∧ ∀ go, o = .ok go → I s' := by
  induction received generalizing s with
  | nil =>
    cases run
    exact ⟨rules.weaken h, fun _ _ => h⟩
  | cons r received ih =>
    cases hr : Updates.turn clock render overflowChecks width r s with
    | mk o₁ s₁ =>
      obtain ⟨ends, goes⟩ := rules.turn h hr
      cases o₁ with
      | ok go =>
        replace run := (Eff.bind_of_ok hr).symm.trans run
        cases go with
        | true => exact ih (goes true rfl) run
        | false =>
          cases run
          exact ⟨ends, fun _ _ => goes false rfl⟩
      | err e =>
        cases (Eff.bind_of_err hr).symm.trans run
        exact ⟨ends, fun _ h => by cases h⟩
      | panic =>
        cases (Eff.bind_of_panic hr).symm.trans run
        exact ⟨ends, fun _ h => by cases h⟩
      | fuel =>
        cases (Eff.bind_of_fuel hr).symm.trans run
        exact ⟨ends, fun _ h => by cases h⟩

end

end Updates

end Hearth
