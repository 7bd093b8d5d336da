import Hearth.Rfb.Updates

/-!
# What the client shows

A client keeps, for every row, the bytes it got for it. Each message replaces the rows that
its header announces; they are the pixels of the rendered frame in the format of the last
request for one that was received.
-/

namespace Hearth
open Lib

/-- A big-endian half word of a message. -/
def be16 (bytes : List UInt8) (offset : Nat) : Nat := ofLE ((bytes.drop offset).take 2).reverse

/-- What a client knows of the screen. -/
structure Viewer where
  format : PixelFormat
  rows : Nat → List UInt8

namespace Viewer

/-- A `FramebufferUpdate` with one raw rectangle as wide as the screen. -/
def update (message : List UInt8) (self : Viewer) : Viewer :=
  let first := be16 message 6
  let stride := be16 message 8 * self.format.bytesPerPixel
  { self with
    rows := fun row =>
      if first ≤ row ∧ row < first + be16 message 10 then
        ((message.drop 16).drop ((row - first) * stride)).take stride
      else self.rows row }

/-- What an event means to the client: the format it asks for holds from
where the request is received. -/
def receive (self : Viewer) : UpdateEvent → Viewer
  | .received (.pixelFormat format) => { self with format := format }
  | .updated message => self.update message
  | _ => self

/-- A client that applied everything so far. -/
def view (rows : Nat → List UInt8) (events : List UpdateEvent) : Viewer :=
  events.foldl receive ⟨.default, rows⟩

/-- The last event is the last that is applied. -/
lemma view_append (rows : Nat → List UInt8) (events : List UpdateEvent) (e : UpdateEvent) :
    view rows (events ++ [e]) = (view rows events).receive e := List.foldl_append

end Viewer

/-- The event is nothing to the client. -/
def UpdateEvent.Silent (e : UpdateEvent) : Prop := ∀ v : Viewer, v.receive e = v

/-! ## Slices -/

section

variable {α β : Type} {f : α → List β} {n : Nat}

/-- Dropping blocks of one length drops their sources. -/
lemma drop_flatMap (h : ∀ x, (f x).length = n) (l : List α) (k : Nat) :
    (l.flatMap f).drop (k * n) = (l.drop k).flatMap f := by
  induction k generalizing l with
  | zero => rw [Nat.zero_mul, List.drop_zero, List.drop_zero]
  | succ k ih =>
    cases l with
    | nil => rw [List.drop_nil, List.flatMap_nil, List.drop_nil]
    | cons x l =>
      rw [List.flatMap_cons, Nat.succ_mul, Nat.add_comm, ← List.drop_drop,
        List.drop_left' (h x), ih]
      rfl

/-- Taking blocks of one length takes their sources. -/
lemma take_flatMap (h : ∀ x, (f x).length = n) (l : List α) (k : Nat) :
    (l.flatMap f).take (k * n) = (l.take k).flatMap f := by
  induction k generalizing l with
  | zero => rw [Nat.zero_mul, List.take_zero, List.take_zero, List.flatMap_nil]
  | succ k ih =>
    cases l with
    | nil => rw [List.take_nil, List.flatMap_nil, List.take_nil]
    | cons x l =>
      rw [List.flatMap_cons, List.take_succ_cons, List.flatMap_cons, Nat.succ_mul,
        Nat.add_comm, ← h x, List.take_length_add_append, h x, ih]

end

namespace Updates

/-- The pixels of a row. -/
def rowPixels (width : UInt16) (frame : List UInt32) (row : Nat) : List UInt32 :=
  (frame.drop (row * width.toNat)).take width.toNat

/-- A row of the rows `first .. last`. -/
lemma rowPixels_slice {width : UInt16} {first last row : Nat} (h : first ≤ row) (h' : row < last)
    (frame : List UInt32) :
    rowPixels width frame row =
      (((frame.take (last * width.toNat)).drop (first * width.toNat)).drop
        ((row - first) * width.toNat)).take
        width.toNat := by
  have start : first * width.toNat + (row - first) * width.toNat = row * width.toNat := by
    rw [← Nat.add_mul, Nat.add_sub_cancel' h]
  have fits : width.toNat ≤ last * width.toNat - row * width.toNat := by
    rw [← Nat.sub_mul]
    exact Nat.le_mul_of_pos_left _ (Nat.sub_pos_of_lt h')
  rw [List.drop_drop, start, List.drop_take, List.take_take, Nat.min_eq_left fits]
  rfl

/-- What the trait asks of a display: it draws the rows it returns and no others, and all of them
for a client that has seen no frame. -/
structure Contract {δ : Type} (render : Render δ) (width height : UInt16) : Prop where
  length : ∀ frame seen d, frame.length = width.toNat * height.toNat →
    (render frame seen d).2.1.length = width.toNat * height.toNat
  range : ∀ {frame seen d first last}, (render frame seen d).1 = some (first, last) →
    first ≤ last ∧ last ≤ height.toNat
  other : ∀ {frame seen d row},
    (∀ first last, (render frame seen d).1 = some (first, last) → ¬ (first ≤ row ∧ row < last)) →
    rowPixels width (render frame seen d).2.1 row = rowPixels width frame row
  all : ∀ frame d, (render frame 0 d).1 = some (0, height.toNat)

variable {δ : Type} {clock : Nat → Nat} {render : Render δ} {overflowChecks : Bool}
    {width height : UInt16}
  {s s' : Updates δ} {message : List UInt8} {first last : Nat}

/-! ## Messages -/

/-- A number is read back where it was put. -/
lemma be16_toBe16 {header tail : List UInt8} {n offset : Nat} (h : header.length = offset)
    (small : n < 2 ^ 16) :
    be16 (header ++ (toBe16 n ++ tail)) offset = n := by
  have len : (toBe16 n).length = 2 := by simp [toBe16]
  unfold be16
  rw [List.drop_left' h, List.take_left' len, toBe16, List.reverse_reverse, ofLE_toLE]
  exact Nat.mod_eq_of_lt small

/-- Pixels that could be encoded are appended. -/
lemma encodeAll_eq_some {format : PixelFormat} {pixels : List UInt32} {out out' : List UInt8}
    (run : format.encodeAll overflowChecks pixels out = some out') :
    out' = out ++ pixels.flatMap format.pixelBytes ∧
    (pixels ≠ [] → format.Encodable overflowChecks) := by
  cases pixels with
  | nil =>
    cases run
    exact ⟨(List.append_nil out).symm, fun h => absurd rfl h⟩
  | cons rgb pixels =>
    cases h : format.encode overflowChecks rgb out with
    | none =>
      rw [PixelFormat.encodeAll, List.foldlM_cons, h] at run
      cases run
    | some out₁ =>
      have encodable := (PixelFormat.encode_eq_some h).1
      rw [PixelFormat.encodeAll_some encodable] at run
      cases run
      exact ⟨rfl, fun _ => encodable⟩

/-- What the client reads in a message. -/
structure Reads (width : UInt16) (first last : Nat) (overflowChecks : Bool) (s : Updates δ)
    (message : List UInt8) :
    Prop where
  y : be16 message 6 = first
  wide : be16 message 8 = width.toNat
  high : be16 message 10 = last - first
  payload : message.drop 16 =
    ((s.frame.take (last * width.toNat)).drop (first * width.toNat)).flatMap s.format.pixelBytes
  encodable : (s.frame.take (last * width.toNat)).drop (first * width.toNat) ≠ [] →
    s.format.Encodable overflowChecks
  length : message.length = 16 + width.toNat * (last - first) * s.format.bytesPerPixel

/-- What the client reads from a message. -/
lemma reads_of_message (fits : last < 2 ^ 16)
    (h : Updates.message overflowChecks width first last s = some message) :
    Reads width first last overflowChecks s message := by
  unfold Updates.message at h
  split at h
  · next inside =>
    obtain ⟨rfl, encodable⟩ := encodeAll_eq_some h
    have small : last - first < 2 ^ 16 := Nat.lt_of_le_of_lt (Nat.sub_le _ _) fits
    refine ⟨?_, ?_, ?_, ?_, encodable, ?_⟩
    · simp only [List.append_assoc]
      rw [← List.append_assoc (toBe16 1), ← List.append_assoc [0, 0]]
      exact be16_toBe16 (by simp [toBe16]) (Nat.lt_of_le_of_lt inside.1 fits)
    · simp only [List.append_assoc]
      rw [← List.append_assoc (toBe16 0), ← List.append_assoc
        (toBe16 1), ← List.append_assoc [0, 0]]
      exact be16_toBe16 (by simp [toBe16]) width.toNat_lt
    · simp only [List.append_assoc]
      rw [← List.append_assoc (toBe16 first), ← List.append_assoc
        (toBe16 0), ← List.append_assoc (toBe16 1), ← List.append_assoc [0, 0]]
      exact be16_toBe16 (by simp [toBe16]) small
    · exact List.drop_left' (by simp [toBe16])
    · have count : ((s.frame.take (last * width.toNat)).drop (first * width.toNat)).length =
          width.toNat * (last - first) := by
        rw [List.length_drop, List.length_take,
          Nat.min_eq_left inside.2, ← Nat.sub_mul, Nat.mul_comm]
      rw [List.length_append, ← count]
      congr 1
      cases hp : (s.frame.take (last * width.toNat)).drop (first * width.toNat) with
      | nil => simp
      | cons rgb pixels =>
        rw [← hp]
        refine PixelFormat.flatMap_pixelBytes_length (encodable ?_).2 _
        rw [hp]
        exact List.cons_ne_nil _ _
  · cases h

/-- A row that is in the message, as the client cuts it out. -/
lemma Reads.row (h : Reads width first last overflowChecks s message) {row : Nat}
    (above : first ≤ row) (below : row < last) :
    s.format.encodeAll overflowChecks (rowPixels width s.frame row) [] =
      some (((message.drop 16).drop ((row - first) * (width.toNat * s.format.bytesPerPixel))).take
        (width.toNat * s.format.bytesPerPixel)) := by
  rw [h.payload, rowPixels_slice above below]
  cases hp : (s.frame.take (last * width.toNat)).drop (first * width.toNat) with
  | nil =>
    rw [List.drop_nil, List.take_nil, List.flatMap_nil, List.drop_nil, List.take_nil]
    rfl
  | cons rgb pixels =>
    have encodable : s.format.Encodable overflowChecks :=
      h.encodable (by rw [hp]; exact List.cons_ne_nil _ _)
    have len := PixelFormat.pixelBytes_length encodable.2
    rw [PixelFormat.encodeAll_some encodable, ← Nat.mul_assoc, drop_flatMap len, take_flatMap len,
      List.nil_append]

/-! ## Turns -/

/-- The client shows the frame. -/
def Holds (rows : Nat → List UInt8) (overflowChecks : Bool) (width height : UInt16)
    (s : Updates δ) : Prop :=
  ∀ row < height.toNat,
    s.format.encodeAll overflowChecks (rowPixels width s.frame row) [] =
      some ((Viewer.view rows s.events).rows row)

/-- The last thing that happened is that a message was written. -/
def JustUpdated (events : List UpdateEvent) (message : List UInt8) : Prop :=
  ∃ earlier, events = earlier ++ [.updated message]

/-- A client that has seen a frame, or got an update since anything
else happened, shows the frame. -/
structure Shown (rows : Nat → List UInt8) (overflowChecks : Bool) (width height : UInt16)
    (s : Updates δ) : Prop where
  length : s.frame.length = width.toNat * height.toNat
  format : (Viewer.view rows s.events).format = s.format
  held : s.seen ≠ 0 → Holds rows overflowChecks width height s
  updated : ∀ message, JustUpdated s.events message → Holds rows overflowChecks width height s ∧
    be16 message 8 = width.toNat ∧
    message.length = 16 + be16 message 8 * be16 message 10 * s.format.bytesPerPixel

variable {rows : Nat → List UInt8}

/-- Something else happened. -/
lemma not_justUpdated {events : List UpdateEvent} {e : UpdateEvent}
    (h : ∀ message, e ≠ .updated message)
    (message : List UInt8) : ¬ JustUpdated (events ++ [e]) message := by
  rintro ⟨earlier, split⟩
  have same := List.append_inj_right' split rfl
  exact h message (List.singleton_inj.mp same)

/-- Such an event changes nothing for the client. -/
lemma view_silent {events : List UpdateEvent} {e : UpdateEvent} (silent : e.Silent) :
    Viewer.view rows (events ++ [e]) = Viewer.view rows events := by
  rw [Viewer.view_append, silent]

/-- A render is nothing to the client as long as nothing is written. -/
lemma view_drawn (s : Updates δ) :
    Viewer.view rows (drawn clock render s).events = Viewer.view rows s.events := by
  have split : (drawn clock render s).events =
    ((s.events ++ [UpdateEvent.clock (clock s.readings)]) ++
      [UpdateEvent.clock (clock (s.readings + 1))]) ++ [UpdateEvent.rendered] := by
    simp only [List.append_assoc, List.cons_append, List.nil_append]
    rfl
  rw [split, view_silent fun _ => rfl, view_silent fun _ => rfl, view_silent fun _ => rfl]

/-- Something happens that is nothing to the client; what it has seen may be forgotten. -/
lemma Shown.silent {e : UpdateEvent} (h : Shown rows overflowChecks width height s)
    (silent : e.Silent)
    (update : ∀ message, e ≠ .updated message) (events : s'.events = s.events ++ [e])
    (frame : s'.frame = s.frame) (format : s'.format = s.format) (seen : s'.seen ≠ 0 → s.seen ≠ 0) :
    Shown rows overflowChecks width height s' where
  length := frame ▸ h.length
  format := by
    rw [events, view_silent silent, format]
    exact h.format
  held := by
    intro seen' row hrow
    rw [events, view_silent silent, format, frame]
    exact h.held (seen seen') row hrow
  updated := by
    intro message just
    rw [events] at just
    exact absurd just (not_justUpdated update message)

/-- What is drawn and not sent changes nothing, and no client without a frame is left out. -/
lemma Shown.drawn_none (h : Shown rows overflowChecks width height s)
    (contract : Contract render width height) (none : (render s.frame s.seen s.display).1 = none) :
    Shown rows overflowChecks width height (drawn clock render s) where
  length := contract.length _ _ _ h.length
  format := by
    rw [view_drawn]
    exact h.format
  held := by
    intro _ row hrow
    have seen : s.seen ≠ 0 := by
      intro zero
      rw [zero, contract.all] at none
      cases none
    have same : rowPixels width (drawn clock render s).frame row = rowPixels width s.frame row :=
      contract.other fun first last h => by rw [none] at h; cases h
    rw [same, view_drawn]
    exact h.held seen row hrow
  updated := by
    rintro message ⟨earlier, split⟩
    have split : (s.events ++
      [UpdateEvent.clock (clock s.readings), .clock (clock (s.readings + 1))]) ++
        [.rendered] = earlier ++ [UpdateEvent.updated message] := by
      rw [← split, List.append_assoc]
      rfl
    cases List.append_inj_right' split rfl

/-- What is sent is what was drawn. -/
lemma Shown.sent (h : Shown rows overflowChecks width height s)
    (contract : Contract render width height)
    (some : (render s.frame s.seen s.display).1 = some (first, last)) {fails : List Bool}
    (reads : Reads width first last overflowChecks (drawn clock render s) message) :
    Shown rows overflowChecks width height
      { drawn clock render s with
        writeFails := fails, events := (drawn clock render s).events ++ [.updated message],
        pending := false } := by
  have format : (Viewer.view rows (drawn clock render s).events).format = s.format := by
    rw [view_drawn]
    exact h.format
  have holds : Holds rows overflowChecks width height
      { drawn clock render s with
        writeFails := fails, events := (drawn clock render s).events ++ [.updated message],
        pending := false } := by
    intro row hrow
    rw [Viewer.view_append]
    show _ = Option.some
      (if be16 message 6 ≤ row ∧ row < be16 message 6 + be16 message 10 then _ else _)
    rw [format, reads.y, reads.high, reads.wide, Nat.add_sub_cancel' (contract.range some).1]
    split
    · next inside => exact reads.row inside.1 inside.2
    · next outside =>
      -- a row that was not sent was there before, since the first update has all
      have seen : s.seen ≠ 0 := by
        intro zero
        rw [zero, contract.all] at some
        cases some
        exact outside ⟨Nat.zero_le _, hrow⟩
      have same : rowPixels width (drawn clock render s).frame row =
        rowPixels width s.frame row := by
        refine contract.other fun first' last' h => ?_
        rw [some] at h
        cases h
        exact outside
      rw [show rowPixels width _ row = _ from same, view_drawn]
      exact h.held seen row hrow
  refine ⟨contract.length _ _ _ h.length, ?_, fun _ => holds, ?_⟩
  · rw [Viewer.view_append]
    exact format
  · rintro message' ⟨earlier, split⟩
    have same := List.append_inj_right' split rfl
    cases same
    refine ⟨holds, reads.wide, ?_⟩
    rw [reads.length, reads.wide, reads.high]

/-- Whatever is received: a new format is the client's as well, and it is shown everything again. -/
lemma Shown.take (h : Shown rows overflowChecks width height s) (received : Received) :
    Shown rows overflowChecks width height (take received s) := by
  cases received with
  | pixelFormat format =>
    refine ⟨h.length, ?_, fun seen => absurd rfl seen, fun message just => ?_⟩
    · rw [show (Updates.take (.pixelFormat format) s).events =
        s.events ++ [.received (.pixelFormat format)] from rfl, Viewer.view_append]
      rfl
    · exact absurd just (not_justUpdated (e := .received (.pixelFormat format)) nofun message)
  | update incremental =>
    refine h.silent (e := .received (.update incremental))
      (fun _ => rfl) nofun rfl rfl rfl fun seen => ?_
    cases incremental with
    | false => exact absurd rfl seen
    | true => exact seen
  | timeout => exact h.silent (e := .received .timeout) (fun _ => rfl) nofun rfl rfl rfl id
  | disconnected =>
    exact h.silent (e := .received .disconnected) (fun _ => rfl) nofun rfl rfl rfl id

/-- The invariant is kept. -/
lemma shown_rules (contract : Contract render width height) :
    Rules clock render overflowChecks width (Shown rows overflowChecks width height) fun _ =>
      True where
  weaken := fun _ => trivial
  waits := fun _ h => ⟨h.length, h.format, h.held, h.updated⟩
  reads := fun {s} h =>
    h.silent (e := .clock (clock s.readings)) (fun _ => rfl) nofun rfl rfl rfl id
  takes := fun received h => h.take received
  draws := by
    intro s s' o h _ _ run
    refine ⟨trivial, fun ok => ?_⟩
    cases range : (render s.frame s.seen s.display).1 with
    | none =>
      rw [range] at run
      cases run
      exact h.drawn_none contract range
    | some rowRange =>
      rw [range] at run
      have fits : rowRange.2 < 2 ^ 16 := Nat.lt_of_le_of_lt (contract.range range).2 height.toNat_lt
      rcases sendRows_cases run with ⟨rfl, -⟩ | ⟨message, fails, written, ⟨rfl, -⟩ | ⟨-, rfl⟩⟩
      · cases ok
      · cases ok
      · exact h.sent contract range (reads_of_message fits written)

/-- As the loop is entered nothing is shown. -/
lemma shown_start (clock : Nat → Nat) (display : δ) (writeFails : List Bool) :
    Shown rows overflowChecks width height
      { read clock (start width height display writeFails) with nextRender := clock 0 } := by
  refine ⟨List.length_replicate, rfl, fun seen => absurd rfl seen, fun message just => ?_⟩
  obtain ⟨earlier, split⟩ := just
  have split : [] ++ [UpdateEvent.clock (clock 0)] = earlier ++ [.updated message] := split
  cases List.append_inj_right' split rfl

/-- After each update that is written, a client that has applied all of them shows the frame as
it was rendered, in the format of the last request for one that was received, and the message is
as long as its header says. -/
theorem client_shows_frame (contract : Contract render width height) (display : δ)
    (writeFails : List Bool) (received : List Received) (rows : Nat → List UInt8) {go : Bool}
    (run : sendUpdates clock render overflowChecks width received
      (start width height display writeFails) = (.ok go, s'))
    (just : JustUpdated s'.events message) :
    (receptions s'.events <+: received ∧ (go = true → receptions s'.events = received)) ∧
      (Viewer.view rows s'.events).format = s'.format ∧
      (∀ row < height.toNat,
        s'.format.encodeAll overflowChecks (rowPixels width s'.frame row) [] =
          some ((Viewer.view rows s'.events).rows row)) ∧
      be16 message 8 = width.toNat ∧
      message.length = 16 + be16 message 8 * be16 message 10 * s'.format.bytesPerPixel := by
  have first : Shown rows overflowChecks width height _ := shown_start clock display writeFails
  have h := ((shown_rules contract).turns first run).2 go rfl
  obtain ⟨part, whole⟩ := sendUpdates_receptions run
  exact ⟨⟨part, fun on => whole (congrArg Outcome.ok on)⟩, h.format, (h.updated message just).1,
    (h.updated message just).2⟩

/-! ## A display of two pixels -/

/-- The upper pixel stays; the lower one lights up before the second render.
The state counts the renders. -/
def blinking : Render Nat := fun frame seen d =>
  let lower := if d = 0 then 0x0000ff else 0xffffff
  if seen = 0 then (some (0, 2), (frame.set 0 0xff8000).set 1 lower, 1, d + 1)
  else if d = 1 then (some (1, 2), frame.set 1 lower, seen, d + 1)
  else (none, frame, seen, d + 1)

/-- A pixel is set in no other row than its own, where a row is one pixel. -/
lemma rowPixels_set {frame : List UInt32} {p row : Nat} (other : p ≠ row) (rgb : UInt32) :
    rowPixels 1 (frame.set p rgb) row = rowPixels 1 frame row := by
  apply List.ext_getElem
  · simp only [rowPixels, List.length_take, List.length_drop, List.length_set]
  · intro i left right
    have one : i < 1 := (List.length_take_le 1 _).trans_lt' right
    simp only [rowPixels, List.getElem_take, List.getElem_drop]
    apply List.getElem_set_ne
    show p ≠ row * 1 + i
    omega

/-- It draws what it says it draws. -/
lemma blinking_contract : Contract blinking 1 2 where
  length frame seen d length := by
    rw [blinking]
    split
    · rw [List.length_set, List.length_set, length]
    · split
      · rw [List.length_set, length]
      · exact length
  range := by
    intro frame seen d first last h
    rw [blinking] at h
    split at h
    · cases h
      decide
    · split at h
      · cases h
        decide
      · cases h
  other := by
    intro frame seen d row h
    rw [blinking] at h ⊢
    split at h
    · next fresh =>
      rw [if_pos fresh]
      have below : ¬ row < 2 := fun low => h 0 2 rfl ⟨Nat.zero_le _, low⟩
      exact (rowPixels_set (by omega) _).trans (rowPixels_set (by omega) _)
    · next old =>
      rw [if_neg old]
      split at h
      · next lights =>
        rw [if_pos lights]
        have other : ¬ (1 ≤ row ∧ row < 2) := h 1 2 rfl
        exact rowPixels_set (by omega) _
      · next still => rw [if_neg still]
  all := fun _ _ => rfl

/-- The clock is read every ten milliseconds. -/
def ticks (k : Nat) : Nat := k * 10000000

/-- Another format, everything, and then what changed: the interval is over only
when the receive times out. -/
def asked : List Received :=
  [.pixelFormat (.fromBytes PixelFormat.rgb565), .update false, .update true, .timeout]

/-- What the thread does then. -/
def blinked : Outcome IoError Bool × Updates Nat :=
  sendUpdates ticks blinking true 1 asked (start 1 2 0 [])

/-- The second update has the lower pixel only, and the client shows both
in the format it asked for. -/
theorem blinking_shown :
    blinked.1 = .ok true ∧
      blinked.2.events.getLast? =
        some (.updated [0, 0, 0, 1, 0, 0, 0, 1, 0, 1, 0, 1, 0, 0, 0, 0, 0xff, 0xff]) ∧
      blinked.2.frame = [0xff8000, 0xffffff] ∧ receptions blinked.2.events = asked ∧
      (Viewer.view (fun _ => []) blinked.2.events).format = .fromBytes PixelFormat.rgb565 ∧
      ∀ row < 2, blinked.2.format.encodeAll true (rowPixels 1 blinked.2.frame row) [] =
        some ((Viewer.view (fun _ => []) blinked.2.events).rows row) := by
  have ok : blinked.1 = .ok true := by decide +kernel
  have last : blinked.2.events.getLast? =
      some (.updated [0, 0, 0, 1, 0, 0, 0, 1, 0, 1, 0, 1, 0, 0, 0, 0, 0xff, 0xff]) := by
        decide +kernel
  have format : blinked.2.format = .fromBytes PixelFormat.rgb565 := by decide +kernel
  have run : blinked = (.ok true, blinked.2) := Prod.fst_eq_iff.mp ok
  obtain ⟨⟨-, whole⟩, view, shows, -⟩ :=
    client_shows_frame blinking_contract 0 [] asked (fun _ => []) run
    (List.getLast?_eq_some_iff.mp last)
  exact ⟨ok, last, by decide +kernel, whole rfl, view.trans format, shows⟩

end Updates

end Hearth
