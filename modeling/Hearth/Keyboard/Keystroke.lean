import Hearth.Keyboard.Interrupts

/-!
# Keystrokes from the frontend to the game

Frontends press keys while the guest's handler empties the controller into the guest's queue, and
the game reads that queue access by access: the bytes on their way are always the encoding of the
keys pressed, and the decoder stands where the bytes it has read leave it. The exception is the byte
that `keyboard_read` may take in the place of another one when its queue was full.
-/

namespace Hearth
open Lib I8042

/-! ## Scancodes -/

/-- A place in a row is in the row. -/
lemma idxOf?_lt {c : UInt8} {row : List UInt8} {i : Nat} (h : row.idxOf? c = some i) :
    i < row.length := by
  obtain ⟨hi, -⟩ := List.idxOf?_eq_some_iff.mp h
  exact hi

/-- If all codes of a table are plain so is the one found. -/
lemma lookup_lt {keys : List (UInt32 × UInt8)} {keysym : UInt32} {code : UInt8}
    (all : ∀ key ∈ keys, key.2 < 0x60) (h : keys.lookup keysym = some code) : code < 0x60 := by
  obtain ⟨l₁, l₂, rfl, -⟩ := List.lookup_eq_some_iff.mp h
  exact all (keysym, code) (by simp)

/-- A letter's code is a plain one. -/
lemma letterCode_lt {keysym : UInt32} {code : UInt8} (h : letterCode keysym = some code) :
    code < 0x60 := by
  have row : ∀ (start : UInt8) (i : Nat), start.toNat + i < 0x60 →
      start + UInt8.ofNat i < 0x60 := by
    intro start i hi
    rw [UInt8.lt_iff_toNat_lt, UInt8.toNat_add, UInt8.toNat_ofNat']
    show _ < 0x60
    omega
  unfold letterCode at h
  dsimp only at h
  split at h
  · next i hi =>
    cases h
    exact row 0x10 i (by have := idxOf?_lt hi; change i < 10 at this; show 0x10 + i < 0x60; omega)
  · split at h
    · next i hi =>
      cases h
      exact row 0x1e i (by have := idxOf?_lt hi; change i < 9 at this; show 0x1e + i < 0x60; omega)
    · obtain ⟨i, hi, rfl⟩ := Option.map_eq_some_iff.mp h
      exact row 0x2c i (by have := idxOf?_lt hi; change i < 7 at this; show 0x2c + i < 0x60; omega)

/-- A digit's code is a plain one. -/
lemma digitCode_lt {keysym : UInt32} (hlo : 0x31 ≤ keysym) (hhi : keysym ≤ 0x39) :
    keysym.toUInt8 - 0x31 + 0x02 < 0x60 := by
  rw [UInt32.le_iff_toNat_le] at hlo hhi
  rw [UInt8.lt_iff_toNat_lt, UInt8.toNat_add, UInt8.toNat_sub, UInt32.toNat_toUInt8]
  simp only [UInt32.reduceToNat, UInt8.reduceToNat] at *
  omega

/-- A function key's code is a plain one. -/
lemma functionCode_lt {keysym : UInt32} (hlo : 0xffbe ≤ keysym) (hhi : keysym ≤ 0xffc7) :
    (keysym - 0xffbe).toUInt8 + 0x3b < 0x60 := by
  rw [UInt32.le_iff_toNat_le] at hlo hhi
  rw [UInt8.lt_iff_toNat_lt, UInt8.toNat_add, UInt32.toNat_toUInt8, UInt32.toNat_sub]
  simp only [UInt32.reduceToNat, UInt8.reduceToNat] at *
  omega

/-- The codes of the table are plain ones. -/
lemma plainKeys_lt : ∀ key ∈ plainKeys, key.2 < 0x60 := by
  simp [plainKeys]

/-- The codes behind a prefix are plain ones. -/
lemma extendedKeys_lt : ∀ key ∈ extendedKeys, key.2 < 0x60 := by
  simp [extendedKeys]

/-- No make code can be taken for a prefix, with or without the break bit. -/
lemma keysymToSet1_lt {keysym : UInt32} {extended : Bool} {code : UInt8}
    (h : keysymToSet1 keysym = some (extended, code)) : code < 0x60 := by
  unfold keysymToSet1 at h
  split_ifs at h with h0 hdigit hletter hf h11 h12
  · cases h
    decide
  · cases h
    exact digitCode_lt hdigit.1 hdigit.2
  · obtain ⟨c, hc, e⟩ := Option.map_eq_some_iff.mp h
    cases e
    exact letterCode_lt hc
  · cases h
    exact functionCode_lt hf.1 hf.2
  · cases h
    decide
  · cases h
    decide
  · split at h
    · next c hc =>
      cases h
      exact lookup_lt plainKeys_lt hc
    · obtain ⟨c, hc, e⟩ := Option.map_eq_some_iff.mp h
      cases e
      exact lookup_lt extendedKeys_lt hc

/-- The bytes of a key event. -/
def scancodes (event : Bool × UInt32) : List UInt8 :=
  match keysymToSet1 event.2 with
  | none => []
  | some (extended, code) =>
    (if extended then [0xe0] else []) ++ [if event.1 then code else code ||| 0x80]

/-- The key the game should get for an event. -/
def pressedKey (keys : DoomKeys) (event : Bool × UInt32) : Option (Bool × UInt8) :=
  match keysymToSet1 event.2 with
  | none => none
  | some (extended, code) =>
    if doomKey keys extended code = 0 then none else some (event.1, doomKey keys extended code)

/-- The loop of `DG_GetKey` over some scancodes: the prefix flag afterwards, and the keys. -/
def decodeAll (keys : DoomKeys) : Bool → List UInt8 → Bool × List (Bool × UInt8)
  | extended, [] => (extended, [])
  | extended, scancode :: rest =>
    let (extended, key) := decodeScancode keys extended scancode
    let (extended, more) := decodeAll keys extended rest
    (extended, key.toList ++ more)

section Decode

variable {keys : DoomKeys} {extended : Bool} {code : UInt8}

/-- Codes in two parts are decoded one after the other, with the prefix kept between them. -/
lemma decodeAll_append (xs ys : List UInt8) :
    decodeAll keys extended (xs ++ ys) =
      ((decodeAll keys (decodeAll keys extended xs).1 ys).1,
        (decodeAll keys extended xs).2 ++
          (decodeAll keys (decodeAll keys extended xs).1 ys).2) := by
  induction xs generalizing extended with
  | nil => rfl
  | cons x xs ih =>
    simp only [List.cons_append, decodeAll, ih, List.append_assoc]

/-- The break bit is above every make code. -/
lemma makeCode_bits (h : code < 0x60) : code ≠ 0xe0 ∧ code ||| 0x80 ≠ 0xe0 ∧
    code &&& 0x7f = code ∧ (code ||| 0x80) &&& 0x7f = code ∧ code &&& 0x80 = 0 ∧
    (code ||| 0x80) &&& 0x80 ≠ 0 := by
  have all : ∀ n < 0x60, let code := UInt8.ofNat n
      code ≠ 0xe0 ∧ code ||| 0x80 ≠ 0xe0 ∧ code &&& 0x7f = code ∧
      (code ||| 0x80) &&& 0x7f = code ∧ code &&& 0x80 = 0 ∧ (code ||| 0x80) &&& 0x80 ≠ 0 := by
    decide
  have := all code.toNat (UInt8.lt_iff_toNat_lt.mp h)
  rwa [UInt8.ofNat_toNat] at this

/-- The make and the break code of a key decode to it. -/
lemma decodeScancode_key (keys : DoomKeys) (extended : Bool) (h : code < 0x60) (down : Bool) :
    decodeScancode keys extended (if down then code else code ||| 0x80) =
      (false, if doomKey keys extended code = 0 then none
        else some (down, doomKey keys extended code)) := by
  obtain ⟨hmake, hbreak, hmake7, hbreak7, hmake8, hbreak8⟩ := makeCode_bits h
  cases down with
  | true =>
    rw [if_pos rfl, decodeScancode, if_neg hmake]
    simp only [hmake7, hmake8, decide_true]
  | false =>
    rw [if_neg Bool.false_ne_true, decodeScancode, if_neg hbreak]
    simp only [hbreak7, hbreak8, decide_false]

/-- The bytes of one event decode to its key, and leave no prefix behind. -/
lemma decodeAll_scancodes (event : Bool × UInt32) :
    decodeAll keys false (scancodes event) = (false, (pressedKey keys event).toList) := by
  unfold scancodes pressedKey
  cases hk : keysymToSet1 event.2 with
  | none => rfl
  | some key =>
    obtain ⟨extended, code⟩ := key
    have hcode := keysymToSet1_lt hk
    have hdecode := decodeScancode_key keys extended hcode event.1
    cases extended with
    | false =>
      show decodeAll keys false [_] = _
      simp only [decodeAll, hdecode, List.append_nil]
    | true =>
      have hprefix : decodeScancode keys false 0xe0 = (true, none) := rfl
      show decodeAll keys false [0xe0, _] = _
      simp only [decodeAll, hprefix, hdecode, List.append_nil, Option.toList_none, List.nil_append]

/-- The codes of keys are decoded as the keys. -/
lemma decodeAll_flatMap (events : List (Bool × UInt32)) :
    decodeAll keys false (events.flatMap scancodes) =
      (false, events.filterMap (pressedKey keys)) := by
  induction events with
  | nil => rfl
  | cons event events ih =>
    rw [List.flatMap_cons, decodeAll_append, decodeAll_scancodes, ih, List.filterMap_cons]
    cases pressedKey keys event <;> rfl

end Decode

/-! ## Frontends, handler and game -/

/-- Where `keyboard_interrupt` is: not running, about to read the
status, or about to read the data. -/
inductive HandlerAt where
  | out
  | test
  | data
  deriving DecidableEq, Repr

/-- The controller, the guest's queue and decoder, and what went in and came out. -/
structure Typing where
  dev : I8042
  /-- the guest's queue, and how far `keyboard_read` has come -/
  reading : Reading.State
  /-- the `extended` of `DG_GetKey`, kept from call to call -/
  extended : Bool
  handler : HandlerAt
  /-- a call of `DG_GetKey` is in its loop -/
  calling : Bool
  sent : List (Bool × UInt32)
  results : List (Bool × UInt8)
  /-- a byte came to a full queue -/
  lost : Bool

namespace Typing

/-- The body of the loop of `DG_GetKey`: the call ends when a key was found. -/
def decode (keys : DoomKeys) (scancode : UInt8) (s : Typing) : Typing :=
  let (extended, key) := decodeScancode keys s.extended scancode
  { s with extended, calling := key.isNone, results := s.results ++ key.toList }

/-- `DG_GetKey` after an access of `keyboard_read`: the loop ends when that has returned 0. -/
def accessed (keys : DoomKeys) (reading : Reading.State) (s : Typing) : Typing :=
  if reading.pc = .out then
    match reading.returned[s.reading.returned.length]? with
    | none => { s with reading, calling := false }
    | some scancode => decode keys scancode { s with reading }
  else { s with reading }

/-- Keys come at any time; the handler runs between any two accesses of the game, and moves a byte
to the guest's queue where one is allowed. -/
inductive Step (keys : DoomKeys) (allowed : Reading.State → Prop) : Typing → Typing → Prop where
  /-- a frontend reports a key; the interrupt line may fail it, but the bytes are queued -/
  | key {s o dev} (down : Bool) (keysym : UInt32) (e : keyEvent down keysym s.dev = (o, dev)) :
    Step keys allowed s { s with dev, sent := s.sent ++ [(down, keysym)] }
  | interrupt {s} (out : s.handler = .out) : Step keys allowed s { s with handler := .test }
  /-- the handler reads the status -/
  | test {s byte dev} (at_ : s.handler = .test) (e : inb i8042Command s.dev = (.ok byte, dev)) :
    Step keys allowed s { s with dev, handler := if byte &&& statusObf ≠ 0 then .data else .out }
  /-- the handler moves a byte to the guest's queue -/
  | data {s byte dev} (at_ : s.handler = .data) (e : inb i8042Data s.dev = (.ok byte, dev)) :
    allowed s.reading →
      Step keys allowed s { s with dev, handler := .test,
                                   reading := Reading.interrupt byte s.reading,
                                   lost := s.lost || decide s.reading.queue.Full }
  | call {s} (out : s.handler = .out) (idle : s.calling = false) :
    Step keys allowed s { s with calling := true }
  | access {s reading} (out : s.handler = .out) (busy : s.calling = true)
      (turn : Reading.Turn s.reading reading) :
    Step keys allowed s (s.accessed keys reading)

/-- All buffers are empty, the keyboard scans and its port is enabled. -/
structure Init (s : Typing) : Prop where
  scanning : s.dev.scanning = true
  enabled : s.dev.config &&& configKbdDisable = 0
  output : s.dev.output = none
  devQueue : s.dev.queue = []
  queue : s.reading.queue.head = s.reading.queue.tail
  pc : s.reading.pc = .out
  accepted : s.reading.accepted = []
  returned : s.reading.returned = []
  extended : s.extended = false
  handler : s.handler = .out
  sent : s.sent = []
  results : s.results = []

/-- The bytes the guest has still to read from the controller. -/
def waiting (dev : I8042) : List UInt8 := dev.output.toList ++ dev.queue

/-- The keyboard reports keys, and bytes wait only behind a full output buffer. -/
structure Ready (dev : I8042) : Prop where
  scanning : dev.scanning = true
  enabled : dev.config &&& configKbdDisable = 0
  waits : dev.output = none → dev.queue = []

/-- What leaves the buffers alone keeps the keyboard ready. -/
lemma Ready.same {s s' : I8042} (h : Ready s) (same : SameBuffer s s') :
    Ready s' ∧ waiting s' = waiting s := by
  refine ⟨⟨same.scanning ▸ h.scanning, same.config ▸ h.enabled, ?_⟩, ?_⟩
  · rw [same.output, same.queue]
    exact h.waits
  · rw [waiting, same.output, same.queue, waiting]

/-- A byte more waits behind the others. -/
lemma Ready.push {s : I8042} (h : Ready s) (byte : UInt8) :
    Ready (s.push byte) ∧ waiting (s.push byte) = waiting s ++ [byte] := by
  cases ho : s.output with
  | some b =>
    have e : s.push byte = { s.note (.push byte) with queue := s.queue ++ [byte] } := by
      simp [I8042.push, note, ho]
    rw [e]
    refine ⟨⟨h.scanning, h.enabled, fun h' => ?_⟩, ?_⟩
    · change s.output = none at h'
      rw [ho] at h'
      cases h'
    · exact (List.append_assoc _ _ _).symm
  | none =>
    have hq := h.waits ho
    have e : s.push byte = loadNext { s.note (.push byte) with queue := [byte] } := by
      simp [I8042.push, note, ho, hq]
    rw [e, @loadNext_cons _ byte [] rfl]
    refine ⟨⟨h.scanning, h.enabled, fun h' => by cases h'⟩, ?_⟩
    rw [waiting, waiting, ho, hq]
    rfl

/-- A key adds its bytes to those that wait. -/
lemma Ready.keyEvent {s s' : I8042} {down : Bool} {keysym : UInt32} {o : Outcome IoError Unit}
    (h : Ready s) (e : keyEvent down keysym s = (o, s')) :
    Ready s' ∧ waiting s' = waiting s ++ scancodes (down, keysym) := by
  have scans : ¬ (¬ s.scanning = true ∨ s.config &&& configKbdDisable ≠ 0) := by
    rintro (hs | hc)
    · exact hs h.scanning
    · exact hc h.enabled
  unfold I8042.keyEvent at e
  rw [Eff.gets_bind_run] at e
  dsimp only [id] at e
  rw [if_neg scans] at e
  unfold scancodes
  cases hk : keysymToSet1 keysym with
  | none =>
    rw [hk] at e
    cases e
    exact ⟨h, (List.append_nil _).symm⟩
  | some key =>
    obtain ⟨extended, code⟩ := key
    rw [hk] at e
    cases extended with
    | false =>
      obtain ⟨hready, hwait⟩ := h.push (if down then code else code ||| 0x80)
      have same := updateIrq_same (s.push (if down then code else code ||| 0x80))
      obtain rfl : (updateIrq _).2 = s' := congrArg Prod.snd e
      obtain ⟨hready', hwait'⟩ := hready.same same
      exact ⟨hready', hwait'.trans hwait⟩
    | true =>
      obtain ⟨hready₁, hwait₁⟩ := h.push 0xe0
      obtain ⟨hready, hwait⟩ := hready₁.push (if down then code else code ||| 0x80)
      have same := updateIrq_same ((s.push 0xe0).push (if down then code else code ||| 0x80))
      obtain rfl : (updateIrq _).2 = s' := congrArg Prod.snd e
      obtain ⟨hready', hwait'⟩ := hready.same same
      refine ⟨hready', hwait'.trans (hwait.trans ?_)⟩
      rw [hwait₁, List.append_assoc]
      rfl

/-- A byte waits exactly if the buffer is full. -/
lemma Ready.waiting_ne_nil {s : I8042} (h : Ready s) : waiting s ≠ [] ↔ s.output ≠ none := by
  unfold waiting
  cases ho : s.output with
  | none => simp [h.waits ho]
  | some b => simp

/-- Reading the data port takes the byte that waits longest. -/
lemma Ready.inb_data {s s' : I8042} {byte : UInt8} (h : Ready s) (some_ : waiting s ≠ [])
    (e : inb i8042Data s = (.ok byte, s')) : Ready s' ∧ waiting s = byte :: waiting s' := by
  obtain ⟨rfl, ho, hq, hc, hs⟩ := Hearth.inb_data e
  obtain ⟨b, hb⟩ := Option.ne_none_iff_exists'.mp (h.waiting_ne_nil.mp some_)
  refine ⟨⟨hs ▸ h.scanning, hc ▸ h.enabled, ?_⟩, ?_⟩
  · rw [ho, hq]
    cases s.queue <;> simp
  · rw [waiting, waiting, ho, hq, hb]
    cases s.queue <;> rfl

/-- The bytes of the keys so far are those the guest's queue has accepted and those on their way to
it, and the game has decoded what `keyboard_read` has returned. -/
structure Inv (keys : DoomKeys) (s : Typing) : Prop where
  ready : Ready s.dev
  reading : Reading.Inv s.reading
  flight : s.lost = false → s.sent.flatMap scancodes = s.reading.accepted ++ waiting s.dev
  decoded : decodeAll keys false s.reading.returned = (s.extended, s.results)
  data : s.handler = .data → waiting s.dev ≠ []

variable {keys : DoomKeys} {s s' : Typing}

/-- At the start nothing has been sent. -/
lemma Init.inv (h : Init s) : Inv keys s where
  ready := ⟨h.scanning, h.enabled, fun _ => h.devQueue⟩
  reading := by
    have empty : s.reading.queue.Holds [] := ⟨.nil, by rw [h.queue, UInt32.sub_self]; rfl⟩
    refine ⟨[], ?_, ?_⟩
    · rw [h.accepted, h.returned]
      rfl
    · rw [h.pc]
      exact .out empty
  flight := by
    intro _
    rw [h.sent, h.accepted, waiting, h.output, h.devQueue]
    rfl
  decoded := by
    rw [h.returned, h.extended, h.results]
    rfl
  data := fun hd => by rw [h.handler] at hd; cases hd

/-- A key adds its bytes at the end. -/
lemma Inv.key {o : Outcome IoError Unit} {dev : I8042} (h : Inv keys s) (down : Bool)
    (keysym : UInt32) (e : keyEvent down keysym s.dev = (o, dev)) :
    Inv keys { s with dev, sent := s.sent ++ [(down, keysym)] } := by
  obtain ⟨ready, waits⟩ := h.ready.keyEvent e
  refine ⟨ready, h.reading, fun kept => ?_, h.decoded, fun at_ => ?_⟩
  · dsimp only
    rw [List.flatMap_append, h.flight kept, waits, List.flatMap_singleton, List.append_assoc]
  · dsimp only
    rw [waits]
    exact List.append_ne_nil_of_left_ne_nil (h.data at_) _

/-- The handler goes on only if a byte waits. -/
lemma Inv.test {byte : UInt8} {dev : I8042} (h : Inv keys s)
    (e : inb i8042Command s.dev = (.ok byte, dev)) :
    Inv keys { s with dev, handler := if byte &&& statusObf ≠ 0 then .data else .out } := by
  obtain ⟨rfl, same⟩ := inb_status e
  obtain ⟨ready, waits⟩ := h.ready.same same
  refine ⟨ready, h.reading, fun kept => ?_, h.decoded, fun at_ => ?_⟩
  · dsimp only
    rw [waits]
    exact h.flight kept
  · dsimp only at at_ ⊢
    rw [waits, h.ready.waiting_ne_nil, ← status_obf]
    split_ifs at at_ with obf
    exact obf

/-- A byte that waits goes to the queue. -/
lemma Inv.moved {byte : UInt8} {dev : I8042} (h : Inv keys s) (at_ : s.handler = .data)
    (e : inb i8042Data s.dev = (.ok byte, dev)) (safe : ¬ Reading.AtRisk s.reading) :
    Inv keys { s with dev, handler := .test, reading := Reading.interrupt byte s.reading,
                      lost := s.lost || decide s.reading.queue.Full } := by
  obtain ⟨ready, waits⟩ := h.ready.inb_data (h.data at_) e
  refine ⟨ready, h.reading.interrupt byte safe, fun kept => ?_, h.decoded, fun at_ => by cases at_⟩
  obtain ⟨kept, room⟩ := Bool.or_eq_false_iff.mp kept
  have accepted : (Reading.interrupt byte s.reading).accepted = s.reading.accepted ++ [byte] :=
    if_neg (of_decide_eq_false room)
  dsimp only
  rw [accepted, h.flight kept, waits, List.append_assoc]
  rfl

/-- An access of `keyboard_read`, after which a byte that it returns is decoded. -/
lemma Inv.accessed {reading : Reading.State} (h : Inv keys s)
    (turn : Reading.Turn s.reading reading) :
    Inv keys (s.accessed keys reading) := by
  obtain ⟨accepted, returns⟩ := turn.returned
  have read := h.reading.turn turn
  have flight (kept : s.lost = false) :
    s.sent.flatMap scancodes = reading.accepted ++ waiting s.dev := by
    rw [accepted]
    exact h.flight kept
  rcases returns with same | ⟨out, byte, more⟩
  · have none : reading.returned[s.reading.returned.length]? = none := by
      rw [same]
      exact List.getElem?_eq_none (Nat.le_refl _)
    have decoded : decodeAll keys false reading.returned = (s.extended, s.results) := by
      rw [same]
      exact h.decoded
    unfold Typing.accessed
    rw [none]
    split
    · exact ⟨h.ready, read, flight, decoded, h.data⟩
    · exact ⟨h.ready, read, flight, decoded, h.data⟩
  · have last : reading.returned[s.reading.returned.length]? = some byte := by
      rw [more]
      exact List.getElem?_concat_length
    unfold Typing.accessed
    rw [if_pos out, last]
    refine ⟨h.ready, read, flight, ?_, h.data⟩
    show decodeAll keys false reading.returned = _
    rw [more, decodeAll_append, h.decoded]
    simp only [decodeAll, List.append_nil]
    rfl

/-- Every step but a byte at risk keeps the invariant. -/
lemma Step.inv (st : Step keys (fun reading => ¬ Reading.AtRisk reading) s s') (h : Inv keys s) :
    Inv keys s' := by
  cases st with
  | key down keysym e => exact h.key down keysym e
  | interrupt out => exact ⟨h.ready, h.reading, h.flight, h.decoded, fun at_ => by cases at_⟩
  | test _ e => exact h.test e
  | data at_ e safe => exact h.moved at_ e safe
  | call out idle => exact ⟨h.ready, h.reading, h.flight, h.decoded, h.data⟩
  | access out busy turn => exact h.accessed turn

/-- Everything is read: `keyboard_read` is not running, and no byte waits for it. -/
structure AllRead (s : Typing) : Prop where
  pc : s.reading.pc = .out
  queue : s.reading.queue.head = s.reading.queue.tail
  output : s.dev.output = none

/-- It is decided by the indices and the buffer. -/
instance (s : Typing) : Decidable (AllRead s) :=
  decidable_of_iff (s.reading.pc = .out ∧ s.reading.queue.head = s.reading.queue.tail ∧
    s.dev.output = none)
    ⟨fun h => ⟨h.1, h.2.1, h.2.2⟩, fun h => ⟨h.pc, h.queue, h.output⟩⟩

/-- Once everything is read, the game has got exactly the keys pressed and released,
in order, if no byte ever came to a full queue, nor when `keyboard_read` was about to
read the slot for the next one. -/
theorem keystrokes_survive (h : Reach Init (Step keys fun reading => ¬ Reading.AtRisk reading) s)
    (kept : s.lost = false) (read : AllRead s) :
    s.results = s.sent.filterMap (pressedKey keys) := by
  have inv : Inv keys s := h.invariant (fun _ start => start.inv) fun _ _ inv st => st.inv inv
  obtain ⟨unread, split, at_⟩ := inv.reading
  have returned : s.reading.accepted = s.reading.returned := by
    rw [read.pc] at at_
    cases at_ with
    | out hold =>
      have none : unread = [] := by
        apply List.eq_nil_of_length_eq_zero
        rw [← hold.count, read.queue, UInt32.sub_self]
        rfl
      rw [split, none, List.append_nil]
  have empty : waiting s.dev = [] := by
    by_contra ne
    exact inv.ready.waiting_ne_nil.mp ne read.output
  have sent := inv.flight kept
  have decoded := inv.decoded
  rw [empty, List.append_nil, returned] at sent
  rw [← sent, decodeAll_flatMap] at decoded
  exact (congrArg Prod.snd decoded).symm

/-! ## Runs -/

/-- What can be next. -/
inductive Move where
  | key (down : Bool) (keysym : UInt32)
  | interrupt
  /-- the handler goes on -/
  | handler
  | call
  /-- the game goes on, and stores the tail before it reads the slot -/
  | access

/-- The next access of `keyboard_read`, where the tail is read and stored first. -/
def nextAccess (reading : Reading.State) : Reading.State :=
  match reading.pc with
  | .out => { reading with pc := .tailRead reading.queue.tail }
  | .tailRead tail => Reading.test tail reading.queue.head reading
  | .headRead head => Reading.test reading.queue.tail head reading
  | .taking => { reading with pc := .both reading.queue.tail }
  | .both tail => { reading with queue := Reading.storeTail tail reading.queue, pc := .stored tail }
  | .stored tail => Reading.give (Reading.slot tail reading.queue) reading
  | .slotRead tail scancode =>
    Reading.give scancode { reading with queue := Reading.storeTail tail reading.queue }

/-- The next access of the reader is a turn. -/
lemma nextAccess_turn (reading : Reading.State) : Reading.Turn reading (nextAccess reading) := by
  unfold nextAccess
  cases h : reading.pc with
  | out => exact .tailFirst h
  | tailRead tail => exact .headSecond h
  | headRead head => exact .tailSecond h
  | taking => exact .again h
  | both tail => exact .storeFirst h
  | stored tail => exact .slotLast h
  | slotRead tail scancode => exact .storeLast h

section

variable (keys : DoomKeys) (allowed : Reading.State → Prop) [DecidablePred allowed]

/-- The handler goes on, if it runs and the byte it would move is allowed. -/
def handled (s : Typing) : Option Typing :=
  match s.handler with
  | .out => none
  | .test =>
    match inb i8042Command s.dev with
    | (.ok byte, dev) => some { s with dev,
                                       handler := if byte &&& statusObf ≠ 0 then .data else .out }
    | _ => none
  | .data =>
    match inb i8042Data s.dev with
    | (.ok byte, dev) =>
      if allowed s.reading then
        some { s with dev, handler := .test, reading := Reading.interrupt byte s.reading,
                      lost := s.lost || decide s.reading.queue.Full }
      else none
    | _ => none

/-- Where this can be next, what comes of it. -/
def move (s : Typing) : Move → Option Typing
  | .key down keysym =>
    some { s with dev := (keyEvent down keysym s.dev).2, sent := s.sent ++ [(down, keysym)] }
  | .interrupt => if s.handler = .out then some { s with handler := .test } else none
  | .handler => s.handled allowed
  | .call => if s.handler = .out ∧ s.calling = false then some { s with calling := true } else none
  | .access =>
    if s.handler = .out ∧ s.calling = true then
      some (s.accessed keys (nextAccess s.reading)) else none

variable {keys allowed}

/-- What the handler does next is a step. -/
lemma handled_step (h : s.handled allowed = some s') : Step keys allowed s s' := by
  unfold handled at h
  split at h
  case h_1 => cases h
  case h_2 at_ =>
    split at h
    case h_1 e =>
      cases h
      exact .test at_ e
    case h_2 => cases h
  case h_3 at_ =>
    split at h
    case h_1 e =>
      obtain ⟨safe, ⟨⟩⟩ := Option.ite_none_right_eq_some.mp h
      exact .data at_ e safe
    case h_2 => cases h

/-- What `move` computes is a step. -/
lemma move_step {m : Move} (h : s.move keys allowed m = some s') : Step keys allowed s s' := by
  cases m with
  | key down keysym =>
    cases h
    exact .key down keysym rfl
  | interrupt =>
    obtain ⟨out, ⟨⟩⟩ := Option.ite_none_right_eq_some.mp h
    exact .interrupt out
  | handler => exact handled_step h
  | call =>
    obtain ⟨⟨out, idle⟩, ⟨⟩⟩ := Option.ite_none_right_eq_some.mp h
    exact .call out idle
  | access =>
    obtain ⟨⟨out, busy⟩, ⟨⟩⟩ := Option.ite_none_right_eq_some.mp h
    exact .access out busy (nextAccess_turn s.reading)

/-- Moves lead to states that are reached. -/
lemma moves_reach {moves : List Move} (h : Reach Init (Step keys allowed) s)
    (made : moves.foldlM (move keys allowed) s = some s') : Reach Init (Step keys allowed) s' := by
  refine h.moves (fun s m s' one => ?_) made
  exact move_step one

end

/-- The guest's queue is empty with its indices about to wrap. -/
def quiet : Typing where
  dev := I8042.new []
  reading := ⟨⟨fun _ => 0, 0xffffffff, 0xffffffff⟩, .out, [], []⟩
  extended := false
  handler := .out
  calling := false
  sent := []
  results := []
  lost := false

/-- The example starts with all buffers empty. -/
lemma quiet_init : Init quiet := ⟨rfl, rfl, rfl, rfl, rfl, rfl, rfl, rfl, rfl, rfl, rfl, rfl⟩

/-- Keys that are told apart by their code. -/
def someKeys : DoomKeys :=
  ⟨1, 2, 3, 4, 5, 6, 7, 8, 9, 10, 11, 12, 13, 14, 15, 16, 17, 18, 19, 20, 21, 22, 23, 24,
    25, 26, 27, 28,
    29, 30, 31, 32⟩

/-- The handler moves so many bytes, and finds no other. -/
def emptied (n : Nat) : List Move :=
  .interrupt :: (List.replicate n [.handler, .handler]).flatten ++ [.handler]

/-- The right control key goes down; as the game is about to read the slot of
its second byte, `a` comes. -/
def rightControl : List Move :=
  .key true 0xffe4 :: emptied 2 ++ .call :: List.replicate 9 .access ++
    .key true 0x61 :: emptied 1 ++
    .access :: .call :: List.replicate 5 .access

/-- A key with a prefix and one without, with the handler between the game's accesses and indices
    that wrap. -/
theorem rightControl_fires : ∃ s : Typing, s.sent = [(true, 0xffe4), (true, 0x61)] ∧
    s.results = [(true, someKeys.keyFire), (true, 0x61)] := by
  have run : (rightControl.foldlM (move someKeys fun reading => ¬ Reading.AtRisk reading) quiet).map
      (fun s => (s.lost, decide (AllRead s), s.sent)) =
        some (false, true, [(true, 0xffe4), (true, 0x61)]) := by
    decide +kernel
  obtain ⟨s, run, ends⟩ := Option.map_eq_some_iff.mp run
  obtain ⟨kept, read, sent⟩ : s.lost = false ∧ decide (AllRead s) = true ∧
    s.sent = [(true, 0xffe4), (true, 0x61)] := by
    simpa only [Prod.mk.injEq] using ends
  have reach := moves_reach (.init quiet_init) run
  have results := keystrokes_survive reach kept (of_decide_eq_true read)
  refine ⟨s, sent, results.trans ?_⟩
  rw [sent]
  decide

/-- `a` is held until 64 of its bytes are unread; it is released as the game is about to read the
slot of the first of them, and everything is read. -/
def heldDown : List Move :=
  List.replicate 64 (.key true 0x61) ++ emptied 64 ++ .call :: List.replicate 4 .access ++
    .key false 0x61 :: emptied 1 ++ .access ::
    (List.replicate 64 (Move.call :: List.replicate 5 .access)).flatten

/-- The release comes first, and one of the keystrokes never. -/
theorem release_overtakes : ¬ ∀ s, Reach Init (Step someKeys fun _ => True) s →
    s.lost = false → AllRead s →
    s.results = s.sent.filterMap (pressedKey someKeys) := by
  intro h
  have run : (heldDown.foldlM (move someKeys fun _ => True) quiet).map
      (fun s => (s.lost, decide (AllRead s),
        decide (s.results = s.sent.filterMap (pressedKey someKeys)))) =
        some (false, true, false) := by
    decide +kernel
  obtain ⟨s, run, ends⟩ := Option.map_eq_some_iff.mp run
  obtain ⟨kept, read, wrong⟩ : s.lost = false ∧ decide (AllRead s) = true ∧
      decide (s.results = s.sent.filterMap (pressedKey someKeys)) = false := by
    simpa only [Prod.mk.injEq] using ends
  exact of_decide_eq_false wrong
    (h s (moves_reach (.init quiet_init) run) kept (of_decide_eq_true read))

end Typing

end Hearth
