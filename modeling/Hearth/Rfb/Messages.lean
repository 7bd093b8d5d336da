import Hearth.Lib.Chunks
import Hearth.Lib.Effect
import Hearth.Rfb.PixelFormat

/-!
# The messages of a client

`read_messages` of `frontend/rfb.rs`: the loop that takes a client's messages off its stream, hands
its keys to the keyboard and its requests to the update thread. Both are given as what they do to a
state of their own, the peer. `ClientMessage` are the messages as RFC 6143 lays them out.
-/

namespace Hearth
open Lib

/-- What is sent to the update thread. -/
inductive Request where
  | pixelFormat (format : PixelFormat)
  | update (incremental : Bool)

/-- The errors of the loop: the stream has ended, a message is not
understood, or the keyboard fails. -/
inductive RfbError where
  | unexpectedEof
  | invalidData (message : String)
  | keyboard
  deriving DecidableEq, Repr

/-- The keyboard, if there is one, and the channel to the update thread; `send`
returns whether it is still there. -/
structure Peer (σ : Type) where
  keyEvent : Option (Bool → UInt32 → Eff RfbError σ Unit)
  send : Request → σ → Bool × σ

/-- The stream, with what is still to come in the pieces in which it can be read, and the peer. -/
structure Client (σ : Type) where
  stream : List (List UInt8)
  peer : σ

/-- What the server does with a client's messages. -/
abbrev ClientM (σ α : Type) : Type := Eff RfbError (Client σ) α

namespace Rfb

variable {σ : Type}

/-- The type of `SetPixelFormat`. -/
def setPixelFormatMsg : UInt8 := 0
/-- The type of `SetEncodings`. -/
def setEncodingsMsg : UInt8 := 2
/-- The type of `FramebufferUpdateRequest`. -/
def framebufferUpdateRequestMsg : UInt8 := 3
/-- The type of `KeyEvent`. -/
def keyEventMsg : UInt8 := 4
/-- The type of `PointerEvent`. -/
def pointerEventMsg : UInt8 := 5
/-- The type of `ClientCutText`. -/
def clientCutTextMsg : UInt8 := 6

/-- `u32::from_be_bytes` -/
def fromBe32 (a b c d : UInt8) : UInt32 :=
  UInt32.ofNat (a.toNat * 2 ^ 24 + b.toNat * 2 ^ 16 + c.toNat * 2 ^ 8 + d.toNat)

/-! ## Reading -/

/-- `stream.read_exact` -/
def readExact (n : Nat) : ClientM σ (List UInt8) := do
  let stream ← Eff.gets Client.stream
  Eff.modify fun self => { self with stream := (readPieces n stream).2 }
  Eff.okOr (readPieces n stream).1 .unexpectedEof

/-- `io::copy(&mut stream.take(len), &mut io::sink())`: the end of the stream is no error. -/
def skip (len : Nat) : ClientM σ Unit :=
  Eff.modify fun self => { self with stream := skipPieces len self.stream }

/-- Runs what only concerns the peer. -/
def onPeer {α : Type} (x : Eff RfbError σ α) : ClientM σ α :=
  Eff.zoom Client.peer (fun peer self => { self with peer := peer }) x

/-- `SetPixelFormat`: an error if the format is not supported. -/
def setPixelFormat : ClientM σ (Option Request) := do
  let b ← readExact 19
  let format := PixelFormat.fromBytes fun i => b.getD (3 + i.val) 0
  if format.supported then pure (some (.pixelFormat format))
  else Eff.throw (.invalidData "unsupported pixel format (colour map or odd size)")

/-- Raw is always allowed, and it is the only one sent. -/
def setEncodings : ClientM σ (Option Request) := do
  let b ← readExact 3
  let _ ← readExact (4 * (PixelFormat.fromBe16 (b.getD 1 0) (b.getD 2 0)).toNat)
  pure none

/-- `x`, `y`, `width` and `height` are not looked at. -/
def framebufferUpdateRequest : ClientM σ (Option Request) := do
  let b ← readExact 9
  pure (some (.update (b.getD 0 0 != 0)))

variable (ops : Peer σ)

/-- A key goes down or up, if there is a keyboard. -/
def key (down : Bool) (keysym : UInt32) : Eff RfbError σ Unit :=
  match ops.keyEvent with
  | some keyEvent => keyEvent down keysym
  | none => pure ()

/-- `KeyEvent`, for the keyboard. -/
def keyEvent : ClientM σ (Option Request) := do
  let b ← readExact 7
  onPeer (key ops (b.getD 0 0 != 0) (fromBe32 (b.getD 3 0) (b.getD 4 0) (b.getD 5 0) (b.getD 6 0)))
  pure none

/-- `PointerEvent`, which is read and ignored. -/
def pointerEvent : ClientM σ (Option Request) := do
  let _ ← readExact 5
  pure none

/-- `ClientCutText`, which is read and ignored. -/
def clientCutText : ClientM σ (Option Request) := do
  let b ← readExact 7
  skip (fromBe32 (b.getD 3 0) (b.getD 4 0) (b.getD 5 0) (b.getD 6 0)).toNat
  pure none

/-- The message of this type, without its first byte. -/
def message (kind : UInt8) : ClientM σ (Option Request) :=
  if kind = setPixelFormatMsg then setPixelFormat
  else if kind = setEncodingsMsg then setEncodings
  else if kind = framebufferUpdateRequestMsg then framebufferUpdateRequest
  else if kind = keyEventMsg then keyEvent ops
  else if kind = pointerEventMsg then pointerEvent
  else if kind = clientCutTextMsg then clientCutText
  else Eff.throw (.invalidData ("unknown message type " ++ toString kind))

/-- `tx.send(request)`, and whether the loop goes on. -/
def send (request : Request) : Eff RfbError σ Bool := fun s =>
  (.ok (ops.send request s).1, (ops.send request s).2)

/-- `if let Some(request) = request` -/
def forward : Option Request → ClientM σ Bool
  | some request => onPeer (send ops request)
  | none => pure true

/-- One turn of the loop. -/
def turn : ClientM σ Bool := do
  let kind ← readExact 1
  let request ← message ops (kind.getD 0 0)
  forward ops request

/-- `read_messages`. -/
def readMessages (fuel : Nat) : ClientM σ Unit := Eff.loop (turn ops) fuel

end Rfb

/-! ## Messages -/

/-- Bytes of a number, the high one first. -/
def bytesBe16 (n : Nat) : List UInt8 := [UInt8.ofNat (n / 2 ^ 8), UInt8.ofNat n]

/-- A number in four big-endian bytes. -/
def bytesBe32 (n : Nat) : List UInt8 :=
  [UInt8.ofNat (n / 2 ^ 24), UInt8.ofNat (n / 2 ^ 16), UInt8.ofNat (n / 2 ^ 8), UInt8.ofNat n]

/-- A well-formed message of a client; what the padding is does not matter. -/
inductive ClientMessage where
  | setPixelFormat (p q r : UInt8) (format : Fin 16 → UInt8)
      (supported : (PixelFormat.fromBytes format).supported = true)
  | setEncodings (p : UInt8) (encodings : List UInt32) (few : encodings.length < 2 ^ 16)
  | framebufferUpdateRequest (incremental : UInt8) (x y width height : UInt16)
  | keyEvent (down p q : UInt8) (keysym : UInt32)
  | pointerEvent (buttons : UInt8) (x y : UInt16)
  | clientCutText (p q r : UInt8) (text : List UInt8) (short : text.length < 2 ^ 32)

/-- What a message is for. -/
inductive ClientAction where
  | key (down : Bool) (keysym : UInt32)
  | request (request : Request)

namespace ClientMessage

/-- The type of a message. -/
def kind : ClientMessage → UInt8
  | .setPixelFormat .. => 0
  | .setEncodings .. => 2
  | .framebufferUpdateRequest .. => 3
  | .keyEvent .. => 4
  | .pointerEvent .. => 5
  | .clientCutText .. => 6

/-- The rest of a message that has always the same length. -/
def header : ClientMessage → List UInt8
  | .setPixelFormat p q r format _ => [p, q, r] ++ List.ofFn format
  | .setEncodings p encodings _ => p :: bytesBe16 encodings.length
  | .framebufferUpdateRequest incremental x y width height =>
    incremental ::
      (bytesBe16 x.toNat ++ bytesBe16 y.toNat ++ bytesBe16 width.toNat ++ bytesBe16 height.toNat)
  | .keyEvent down p q keysym => [down, p, q] ++ bytesBe32 keysym.toNat
  | .pointerEvent buttons x y => buttons :: (bytesBe16 x.toNat ++ bytesBe16 y.toNat)
  | .clientCutText p q r text _ => [p, q, r] ++ bytesBe32 text.length

/-- The rest of a message whose length is in its header. -/
def body : ClientMessage → List UInt8
  | .setEncodings _ encodings _ => encodings.flatMap fun encoding => bytesBe32 encoding.toNat
  | .clientCutText _ _ _ text _ => text
  | _ => []

/-- A message as it is sent. -/
def bytes (self : ClientMessage) : List UInt8 := self.kind :: (self.header ++ self.body)

/-- What a message is for, if anything. -/
def action : ClientMessage → Option ClientAction
  | .setPixelFormat _ _ _ format _ => some (.request (.pixelFormat (.fromBytes format)))
  | .framebufferUpdateRequest incremental _ _ _ _ => some (.request (.update (incremental != 0)))
  | .keyEvent down _ _ keysym => some (.key (down != 0) keysym)
  | _ => none

end ClientMessage

namespace Rfb

variable {σ : Type} (ops : Peer σ)

/-- What an action does to the peer, and whether the loop goes on. -/
def act : ClientAction → Eff RfbError σ Bool
  | .key down keysym => do
    key ops down keysym
    pure true
  | .request request => send ops request

/-- The actions in order, and then what the loop ends with. -/
def perform (last : RfbError) : List ClientAction → Eff RfbError σ Unit
  | [] => Eff.throw last
  | action :: actions => do
    if ← act ops action then perform last actions else pure ()

/-! ## Numbers -/

/-- A number read from its bytes. -/
lemma fromBe32_toNat {n : Nat} (h : n < 2 ^ 32) :
    (fromBe32 (UInt8.ofNat (n / 2 ^ 24)) (UInt8.ofNat (n / 2 ^ 16)) (UInt8.ofNat (n / 2 ^ 8))
      (UInt8.ofNat n)).toNat = n := by
  rw [fromBe32, UInt32.toNat_ofNat', UInt8.toNat_ofNat', UInt8.toNat_ofNat', UInt8.toNat_ofNat',
    UInt8.toNat_ofNat']
  omega

/-- The bytes of a number are read as it. -/
lemma fromBe32_bytes (v : UInt32) :
    fromBe32 (UInt8.ofNat (v.toNat / 2 ^ 24)) (UInt8.ofNat (v.toNat / 2 ^ 16))
      (UInt8.ofNat (v.toNat / 2 ^ 8))
      (UInt8.ofNat v.toNat) = v := by
  apply UInt32.toNat_inj.mp
  exact fromBe32_toNat v.toNat_lt

/-- A number read from its two bytes. -/
lemma fromBe16_toNat {n : Nat} (h : n < 2 ^ 16) :
    (PixelFormat.fromBe16 (UInt8.ofNat (n / 2 ^ 8)) (UInt8.ofNat n)).toNat = n := by
  rw [PixelFormat.fromBe16, UInt16.toNat_ofNat', UInt8.toNat_ofNat', UInt8.toNat_ofNat']
  omega

/-- Numbers take four bytes each. -/
lemma bytesBe32_flatMap_length (numbers : List UInt32) :
    (numbers.flatMap fun v => bytesBe32 v.toNat).length = 4 * numbers.length := by
  induction numbers with
  | nil => rfl
  | cons v numbers ih =>
    rw [List.flatMap_cons, List.length_append, ih, List.length_cons, Nat.mul_succ, Nat.add_comm]
    rfl

/-- The format of a message is read back. -/
lemma fromBytes_header (p q r : UInt8) (format : Fin 16 → UInt8) :
    (PixelFormat.fromBytes fun i => ([p, q, r] ++ List.ofFn format).getD (3 + i.val) 0) =
      PixelFormat.fromBytes format := by
  apply congrArg
  funext i
  have inside : 3 + i.val < ([p, q, r] ++ List.ofFn format).length := by
    rw [List.length_append, List.length_ofFn]
    exact Nat.add_lt_add_left i.isLt 3
  rw [List.getD_eq_getElem _ 0 inside, List.getElem_append_right (Nat.le_add_right 3 i.val),
    List.getElem_ofFn]
  apply congrArg format
  exact Fin.ext (Nat.add_sub_cancel_left 3 i.val)

/-! ## Reading from the stream -/

section

variable {ops} {c : Client σ} {n : Nat} {items rest : List UInt8}

/-- What is there is read, whatever the pieces it comes in. -/
lemma readExact_ok (h : c.stream.flatten = items ++ rest) (len : items.length = n) :
    ∃ stream, readExact n c = (.ok items, { c with stream := stream }) ∧ stream.flatten = rest := by
  have enough : n ≤ c.stream.flatten.length := by
    rw [h, List.length_append, len]
    exact Nat.le_add_right n rest.length
  obtain ⟨read, left⟩ := readPieces_some enough
  refine ⟨_, ?_, left.trans ?_⟩
  · show Eff.okOr (readPieces n c.stream).1 RfbError.unexpectedEof _ = _
    rw [read, h, ← len, List.take_left]
    rfl
  · rw [h, ← len, List.drop_left]

/-- With too little there the read fails, and nothing is left. -/
lemma readExact_short (h : c.stream.flatten.length < n) :
    ∃ stream, readExact n c = (.err .unexpectedEof, { c with stream := stream }) ∧
      stream.flatten = [] := by
  obtain ⟨read, left⟩ := readPieces_none h
  refine ⟨_, ?_, left⟩
  show Eff.okOr (readPieces n c.stream).1 RfbError.unexpectedEof _ = _
  rw [read]
  rfl

end

/-! ## One message -/

/-- What a message does to the peer, and whether the loop goes on. -/
def actOn (m : ClientMessage) : Eff RfbError σ Bool := m.action.elim (pure true) (act ops)

variable {ops} {c : Client σ} {rest : List UInt8}

variable (ops) in
/-- The type of a message is read, and then the rest of it. -/
lemma turn_kind {kind : UInt8} (h : c.stream.flatten = kind :: rest) :
    ∃ stream, stream.flatten = rest ∧
      turn ops c = (message ops kind >>= forward ops) { c with stream := stream } := by
  have first : c.stream.flatten = [kind] ++ rest := h
  obtain ⟨stream, run, left⟩ := readExact_ok (n := 1) first rfl
  exact ⟨stream, left, Eff.bind_of_ok run⟩

/-- A supported format is read and acted on. -/
lemma setPixelFormat_turn {p q r : UInt8} {format : Fin 16 → UInt8}
    (supported : (PixelFormat.fromBytes format).supported = true)
    (h : c.stream.flatten = [p, q, r] ++ List.ofFn format ++ rest) :
    ∃ stream, stream.flatten = rest ∧ (setPixelFormat >>= forward ops) c =
      ((send ops (.pixelFormat (.fromBytes format)) c.peer).1,
        ⟨stream, (send ops (.pixelFormat (.fromBytes format)) c.peer).2⟩) := by
  obtain ⟨stream, run, left⟩ :=
    readExact_ok (n := 19) h (by rw [List.length_append, List.length_ofFn]; rfl)
  refine ⟨stream, left, ?_⟩
  rw [setPixelFormat, Eff.bind_assoc, Eff.bind_of_ok run]
  show ((if (PixelFormat.fromBytes fun i =>
    ([p, q, r] ++ List.ofFn format).getD (3 + i.val) 0).supported = true then
    pure (some (.pixelFormat (PixelFormat.fromBytes fun i =>
      ([p, q, r] ++ List.ofFn format).getD (3 + i.val) 0)))
    else Eff.throw _) >>= forward ops) _ = _
  rw [fromBytes_header, if_pos supported]
  rfl

/-- A key is read and acted on. -/
lemma keyEvent_turn {down p q : UInt8} {keysym : UInt32}
    (h : c.stream.flatten = [down, p, q] ++ bytesBe32 keysym.toNat ++ rest) :
    ∃ stream, stream.flatten = rest ∧ (keyEvent ops >>= forward ops) c =
      ((act ops (.key (down != 0) keysym) c.peer).1,
        ⟨stream, (act ops (.key (down != 0) keysym) c.peer).2⟩) := by
  obtain ⟨stream, run, left⟩ := readExact_ok (n := 7) h rfl
  refine ⟨stream, left, ?_⟩
  have same : fromBe32 (([down, p, q] ++ bytesBe32 keysym.toNat).getD 3 0)
      (([down, p, q] ++ bytesBe32 keysym.toNat).getD 4 0)
      (([down, p, q] ++ bytesBe32 keysym.toNat).getD 5 0)
      (([down, p, q] ++ bytesBe32 keysym.toNat).getD 6 0) = keysym := fromBe32_bytes keysym
  rw [keyEvent, Eff.bind_assoc, Eff.bind_of_ok run, Eff.bind_assoc]
  show (onPeer (key ops (down != 0) (fromBe32 _ _ _ _)) >>= fun _ => pure true) _ = _
  rw [same, Eff.bind_pure_eq, act, Eff.bind_pure_eq]
  rfl

/-- Encodings are read and ignored. -/
lemma setEncodings_turn {p : UInt8} {encodings : List UInt32} (few : encodings.length < 2 ^ 16)
    (h : c.stream.flatten =
      p :: bytesBe16 encodings.length ++
        ((encodings.flatMap fun encoding => bytesBe32 encoding.toNat) ++ rest)) :
    ∃ stream, stream.flatten = rest ∧
      (setEncodings >>= forward ops) c = (.ok true, { c with stream := stream }) := by
  obtain ⟨stream, run, left⟩ := readExact_ok (n := 3) h rfl
  obtain ⟨stream', run', left'⟩ :=
    readExact_ok (c := { c with stream := stream }) left (bytesBe32_flatMap_length encodings)
  have count : (PixelFormat.fromBe16 ((p :: bytesBe16 encodings.length).getD 1 0)
      ((p :: bytesBe16 encodings.length).getD 2 0)).toNat = encodings.length := fromBe16_toNat few
  refine ⟨stream', left', ?_⟩
  rw [setEncodings, Eff.bind_assoc, Eff.bind_of_ok run, Eff.bind_assoc, count, Eff.bind_of_ok run']
  rfl

/-- A text is read and ignored. -/
lemma clientCutText_turn {p q r : UInt8} {text : List UInt8} (short : text.length < 2 ^ 32)
    (h : c.stream.flatten = [p, q, r] ++ bytesBe32 text.length ++ (text ++ rest)) :
    ∃ stream, stream.flatten = rest ∧
      (clientCutText >>= forward ops) c = (.ok true, { c with stream := stream }) := by
  obtain ⟨stream, run, left⟩ := readExact_ok (n := 7) h rfl
  have len : (fromBe32 (([p, q, r] ++ bytesBe32 text.length).getD 3 0)
      (([p, q, r] ++ bytesBe32 text.length).getD 4 0)
      (([p, q, r] ++ bytesBe32 text.length).getD 5 0)
      (([p, q, r] ++ bytesBe32 text.length).getD 6 0)).toNat = text.length := fromBe32_toNat short
  refine ⟨skipPieces text.length stream, ?_, ?_⟩
  · rw [skipPieces_flatten, left, List.drop_left]
  · rw [clientCutText, Eff.bind_assoc, Eff.bind_of_ok run, Eff.bind_assoc, len]
    rfl

variable (ops) in
/-- A message that the stream has is taken off it, and does what it is for. -/
lemma turn_message (m : ClientMessage) (h : c.stream.flatten = m.bytes ++ rest) :
    ∃ stream, stream.flatten = rest ∧
      turn ops c = ((actOn ops m c.peer).1, ⟨stream, (actOn ops m c.peer).2⟩) := by
  obtain ⟨stream, left, run⟩ := turn_kind ops h
  rw [run]
  cases m with
  | setPixelFormat p q r format supported =>
    have payload : stream.flatten = [p, q, r] ++ List.ofFn format ++ rest :=
      left.trans (congrArg (fun header => header ++ rest)
        (List.append_nil ([p, q, r] ++ List.ofFn format)))
    exact setPixelFormat_turn (c := { c with stream := stream }) supported payload
  | setEncodings p encodings few =>
    exact setEncodings_turn (c := { c with stream := stream }) few
      (left.trans (List.append_assoc ..))
  | framebufferUpdateRequest incremental x y width height =>
    obtain ⟨stream', run', left'⟩ :=
      readExact_ok (n := 9) (c := { c with stream := stream }) left rfl
    exact ⟨stream', left', (congrFun (Eff.bind_assoc _ _ _) _).trans (Eff.bind_of_ok run')⟩
  | keyEvent down p q keysym => exact keyEvent_turn (c := { c with stream := stream }) left
  | pointerEvent buttons x y =>
    obtain ⟨stream', run', left'⟩ :=
      readExact_ok (n := 5) (c := { c with stream := stream }) left rfl
    exact ⟨stream', left', (congrFun (Eff.bind_assoc _ _ _) _).trans (Eff.bind_of_ok run')⟩
  | clientCutText p q r text short =>
    exact clientCutText_turn (c := { c with stream := stream }) short
      (left.trans (List.append_assoc ..))

/-! ## A message that is cut off -/

variable (ops) in
/-- Without its header a message is not understood. -/
lemma message_short (m : ClientMessage) (h : c.stream.flatten.length < m.header.length) :
    ∃ stream, (message ops m.kind >>= forward ops) c =
      (.err .unexpectedEof, { c with stream := stream }) := by
  obtain ⟨stream, run, -⟩ := readExact_short h
  refine ⟨stream, ?_⟩
  cases m with
  | setPixelFormat p q r format supported =>
    have len : (ClientMessage.setPixelFormat p q r format supported).header.length = 19 := by
      show ([p, q, r] ++ List.ofFn format).length = 19
      rw [List.length_append, List.length_ofFn]
      rfl
    rw [len] at run
    exact (congrFun (Eff.bind_assoc _ _ _) c).trans (Eff.bind_of_err run)
  | setEncodings p encodings few =>
    exact (congrFun (Eff.bind_assoc _ _ _) c).trans (Eff.bind_of_err run)
  | framebufferUpdateRequest incremental x y width height =>
    exact (congrFun (Eff.bind_assoc _ _ _) c).trans (Eff.bind_of_err run)
  | keyEvent down p q keysym =>
    exact (congrFun (Eff.bind_assoc _ _ _) c).trans (Eff.bind_of_err run)
  | pointerEvent buttons x y =>
    exact (congrFun (Eff.bind_assoc _ _ _) c).trans (Eff.bind_of_err run)
  | clientCutText p q r text short =>
    exact (congrFun (Eff.bind_assoc _ _ _) c).trans (Eff.bind_of_err run)

/-- The end of the stream is met, or what was left of it is taken without any effect. -/
def Ends (c : Client σ) (x : ClientM σ Bool) : Prop :=
  ∃ stream, x c = (.err .unexpectedEof, { c with stream := stream }) ∨
    x c = (.ok true, { c with stream := stream }) ∧ stream.flatten = []

/-- With too few encodings there the client is gone. -/
lemma setEncodings_short {p : UInt8} {encodings : List UInt32} (few : encodings.length < 2 ^ 16)
    (h : c.stream.flatten = p :: bytesBe16 encodings.length ++ rest)
    (short : rest.length < 4 * encodings.length) :
    Ends c (setEncodings >>= forward ops) := by
  obtain ⟨stream, run, left⟩ := readExact_ok (n := 3) h rfl
  rw [← left] at short
  obtain ⟨stream', run', -⟩ := readExact_short (c := { c with stream := stream }) short
  have count : (PixelFormat.fromBe16 ((p :: bytesBe16 encodings.length).getD 1 0)
      ((p :: bytesBe16 encodings.length).getD 2 0)).toNat = encodings.length := fromBe16_toNat few
  refine ⟨stream', .inl ?_⟩
  rw [setEncodings, Eff.bind_assoc, Eff.bind_of_ok run, Eff.bind_assoc, count]
  exact Eff.bind_of_err run'

/-- With too little text there the client is gone. -/
lemma clientCutText_short {p q r : UInt8} {text : List UInt8} (fits : text.length < 2 ^ 32)
    (h : c.stream.flatten = [p, q, r] ++ bytesBe32 text.length ++ rest)
    (short : rest.length < text.length) :
    Ends c (clientCutText >>= forward ops) := by
  obtain ⟨stream, run, left⟩ := readExact_ok (n := 7) h rfl
  have len : (fromBe32 (([p, q, r] ++ bytesBe32 text.length).getD 3 0)
      (([p, q, r] ++ bytesBe32 text.length).getD 4 0)
      (([p, q, r] ++ bytesBe32 text.length).getD 5 0)
      (([p, q, r] ++ bytesBe32 text.length).getD 6 0)).toNat = text.length := fromBe32_toNat fits
  refine ⟨skipPieces text.length stream, .inr ⟨?_, ?_⟩⟩
  · rw [clientCutText, Eff.bind_assoc, Eff.bind_of_ok run, Eff.bind_assoc, len]
    rfl
  · rw [skipPieces_flatten, left, List.drop_of_length_le short.le]

variable (ops) in
/-- With nothing left the client is gone. -/
lemma turn_empty (h : c.stream.flatten = []) :
    ∃ stream, turn ops c = (.err .unexpectedEof, { c with stream := stream }) := by
  obtain ⟨stream, run, -⟩ := readExact_short (n := 1) (by rw [h]; exact Nat.one_pos)
  exact ⟨stream, Eff.bind_of_err run⟩

variable (ops) in
/-- What is there of a message that is cut off has no effect. -/
lemma turn_partial (m : ClientMessage) (part : c.stream.flatten <+: m.bytes)
    (short : c.stream.flatten.length < m.bytes.length) : Ends c (turn ops) := by
  cases at_ : c.stream.flatten with
  | nil =>
    obtain ⟨stream, run⟩ := turn_empty ops at_
    exact ⟨stream, .inl run⟩
  | cons kind payload =>
    rw [at_] at part short
    obtain ⟨rfl, started⟩ := List.cons_prefix_cons.mp part
    have short : payload.length < (m.header ++ m.body).length := Nat.lt_of_succ_lt_succ short
    obtain ⟨stream, left, run⟩ := turn_kind ops at_
    rw [Ends, run]
    rcases Nat.lt_or_ge payload.length m.header.length with cut | whole
    · obtain ⟨stream', run'⟩ :=
        message_short ops (c := { c with stream := stream }) m (by rw [left]; exact cut)
      exact ⟨stream', .inl run'⟩
    · -- the header is there, so that something of the body is not
      obtain ⟨text, rfl⟩ :=
        List.prefix_of_prefix_length_le (List.prefix_append m.header m.body) started whole
      rw [List.length_append, List.length_append] at short
      have short : text.length < m.body.length := Nat.lt_of_add_lt_add_left short
      cases m with
      | setEncodings p encodings few =>
        apply setEncodings_short few left
        rwa [← bytesBe32_flatMap_length]
      | clientCutText p q r text fits => exact clientCutText_short fits left short
      | setPixelFormat => cases short
      | framebufferUpdateRequest => cases short
      | keyEvent => cases short
      | pointerEvent => cases short

/-! ## Any stream -/

variable (ops) in
/-- At the end of a stream that is cut off the loop ends. -/
lemma readMessages_partial (m : ClientMessage) (part : c.stream.flatten <+: m.bytes)
    (short : c.stream.flatten.length < m.bytes.length) (fuel : Nat) :
    ∃ stream, readMessages ops (fuel + 2) c =
      (.err .unexpectedEof, { c with stream := stream }) := by
  obtain ⟨stream, run | ⟨run, left⟩⟩ := turn_partial ops m part short
  · exact ⟨stream, Eff.bind_of_err run⟩
  · obtain ⟨stream', run'⟩ := turn_empty ops (c := { c with stream := stream }) left
    exact ⟨stream', (Eff.loop_step run).trans (Eff.bind_of_err run')⟩

/-- How the loop ends at a tail that does not start with a message: it is cut off, of no known type,
or asks for pixels that are not supported. -/
inductive Stops : (last : RfbError) → (tail : List UInt8) → Prop where
  | cut (m : ClientMessage) {tail : List UInt8} (part : tail <+: m.bytes) (short : tail ≠ m.bytes) :
    Stops .unexpectedEof tail
  | header (m : ClientMessage) {payload : List UInt8} (short : payload.length < m.header.length) :
    Stops .unexpectedEof (m.kind :: payload)
  | unknown {kind : UInt8} (unknown : kind ∉ [0, 2, 3, 4, 5, 6]) (rest : List UInt8) :
    Stops (.invalidData ("unknown message type " ++ toString kind)) (kind :: rest)
  | unsupported (p q r : UInt8) {format : Fin 16 → UInt8}
    (unsupported : ¬ (PixelFormat.fromBytes format).supported = true) (rest : List UInt8) :
    Stops (.invalidData "unsupported pixel format (colour map or odd size)")
      (0 :: ([p, q, r] ++ List.ofFn format ++ rest))

variable (ops) in
/-- A type that no message has is an error. -/
lemma message_unknown {kind : UInt8} (unknown : kind ∉ [0, 2, 3, 4, 5, 6]) :
    message ops kind = Eff.throw (.invalidData ("unknown message type " ++ toString kind)) := by
  simp only [List.mem_cons, List.not_mem_nil, or_false, not_or] at unknown
  obtain ⟨format, encodings, update, key, pointer, text⟩ := unknown
  rw [message, if_neg, if_neg, if_neg, if_neg, if_neg, if_neg]
  · exact text
  · exact pointer
  · exact key
  · exact update
  · exact encodings
  · exact format

variable (ops) in
/-- A pixel format that is not supported is an error. -/
lemma setPixelFormat_unsupported {p q r : UInt8} {format : Fin 16 → UInt8}
    (unsupported : ¬ (PixelFormat.fromBytes format).supported = true)
    (h : c.stream.flatten = [p, q, r] ++ List.ofFn format ++ rest) :
    ∃ stream, (setPixelFormat >>= forward ops) c =
      (.err (.invalidData "unsupported pixel format (colour map or odd size)"),
        { c with stream := stream }) := by
  obtain ⟨stream, run, -⟩ :=
    readExact_ok (n := 19) h (by rw [List.length_append, List.length_ofFn]; rfl)
  refine ⟨stream, ?_⟩
  rw [setPixelFormat, Eff.bind_assoc, Eff.bind_of_ok run]
  show ((if (PixelFormat.fromBytes fun i =>
    ([p, q, r] ++ List.ofFn format).getD (3 + i.val) 0).supported = true then
    pure (some (.pixelFormat (PixelFormat.fromBytes fun i =>
      ([p, q, r] ++ List.ofFn format).getD (3 + i.val) 0)))
    else Eff.throw _) >>= forward ops) _ = _
  rw [fromBytes_header, if_neg unsupported]
  rfl

variable (ops) in
/-- The loop ends there, and the peer is not touched. -/
lemma readMessages_stops {last : RfbError} {tail : List UInt8} (stops : Stops last tail)
    (h : c.stream.flatten = tail) (fuel : Nat) :
    ∃ stream, readMessages ops (fuel + 2) c = (.err last, { c with stream := stream }) := by
  cases stops with
  | cut m part short =>
    have cut : tail.length < m.bytes.length :=
      Nat.lt_of_le_of_ne part.length_le fun length => short (part.eq_of_length length)
    exact readMessages_partial ops m (by rwa [h]) (by rwa [h]) fuel
  | header m short =>
    obtain ⟨stream, left, run⟩ := turn_kind ops h
    obtain ⟨stream', run'⟩ := message_short ops (c := { c with stream := stream }) m (by rwa [left])
    exact ⟨stream', Eff.bind_of_err (run.trans run')⟩
  | unknown unknown rest =>
    obtain ⟨stream, -, run⟩ := turn_kind ops h
    rw [message_unknown ops unknown] at run
    exact ⟨stream, Eff.bind_of_err run⟩
  | unsupported p q r unsupported rest =>
    obtain ⟨stream, left, run⟩ := turn_kind ops h
    obtain ⟨stream', run'⟩ :=
      setPixelFormat_unsupported ops (c := { c with stream := stream }) unsupported left
    exact ⟨stream', Eff.bind_of_err (run.trans run')⟩

variable (ops) in
/-- The first message's action comes first. -/
lemma perform_cons (last : RfbError) (m : ClientMessage) (ms : List ClientMessage) :
    perform ops last ((m :: ms).filterMap ClientMessage.action) =
      (actOn ops m >>= fun on => if on then perform ops last (ms.filterMap ClientMessage.action)
        else pure ()) := by
  rw [List.filterMap_cons, actOn]
  cases m.action with
  | none => rfl
  | some action => rfl

variable (ops) in
/-- The loop does what the complete messages are for, in order, until the keyboard fails or the
update thread is gone, or else nothing more can be read. -/
lemma readMessages_perform (ms : List ClientMessage) {last : RfbError} {tail : List UInt8}
    (h : c.stream.flatten = ms.flatMap ClientMessage.bytes ++ tail) (stops : Stops last tail)
    (fuel : Nat) :
    (readMessages ops (fuel + 2 + ms.length) c).1 =
      (perform ops last (ms.filterMap ClientMessage.action) c.peer).1 ∧
      (readMessages ops (fuel + 2 + ms.length) c).2.peer =
        (perform ops last (ms.filterMap ClientMessage.action) c.peer).2 := by
  -- on the messages that are left; a turn of the loop reads one of them
  induction ms generalizing c with
  | nil =>
    obtain ⟨stream, run⟩ := readMessages_stops ops stops h fuel
    show (readMessages ops (fuel + 2) c).1 = _ ∧ (readMessages ops (fuel + 2) c).2.peer = _
    rw [run]
    exact ⟨rfl, rfl⟩
  | cons first ms ih =>
    rw [List.flatMap_cons, List.append_assoc] at h
    obtain ⟨stream, left, run⟩ := turn_message ops first h
    rw [perform_cons, List.length_cons, ← Nat.add_assoc]
    rcases done : actOn ops first c.peer with ⟨outcome, peer⟩
    rw [done] at run
    cases outcome with
    | ok on =>
      rw [Eff.bind_of_ok done]
      cases on with
      | true =>
        have next := ih (c := ⟨stream, peer⟩) left
        rw [readMessages, Eff.loop_step run]
        exact next
      | false =>
        rw [readMessages, Eff.loop_break run]
        exact ⟨rfl, rfl⟩
    | err e =>
      -- an action that fails ends the loop, with the messages after it unread
      have ends : readMessages ops (fuel + 2 + ms.length + 1) c = (.err e, ⟨stream, peer⟩) :=
        Eff.bind_of_err run
      rw [ends, Eff.bind_of_err done]
      exact ⟨rfl, rfl⟩
    | panic =>
      have ends : readMessages ops (fuel + 2 + ms.length + 1) c = (.panic, ⟨stream, peer⟩) :=
        Eff.bind_of_panic run
      rw [ends, Eff.bind_of_panic done]
      exact ⟨rfl, rfl⟩
    | fuel =>
      have ends : readMessages ops (fuel + 2 + ms.length + 1) c = (.fuel, ⟨stream, peer⟩) :=
        Eff.bind_of_fuel run
      rw [ends, Eff.bind_of_fuel done]
      exact ⟨rfl, rfl⟩

/-! ## What a stream is made of -/

/-- The first bytes of a stream, by their place. -/
lemma exists_ofFn {n : Nat} {items : List UInt8} (enough : n ≤ items.length) :
    ∃ (first : Fin n → UInt8) (rest : List UInt8), items = List.ofFn first ++ rest := by
  have length : (items.take n).length = n := List.length_take_of_le enough
  refine ⟨fun i => (items.take n)[i], items.drop n, ?_⟩
  have whole : List.ofFn (fun i : Fin n => (items.take n)[i]) = items.take n :=
    List.ext_getElem (by rw [List.length_ofFn, length]) fun i _ _ => List.getElem_ofFn _
  rw [whole, List.take_append_drop]

/-- Two bytes are those of the number that is read from them. -/
lemma bytesBe16_fromBe16 (a b : UInt8) : bytesBe16 (PixelFormat.fromBe16 a b).toNat = [a, b] := by
  have high : a.toNat < 2 ^ 8 := a.toNat_lt
  have low : b.toNat < 2 ^ 8 := b.toNat_lt
  have value : (PixelFormat.fromBe16 a b).toNat = a.toNat * 2 ^ 8 + b.toNat := by
    rw [PixelFormat.fromBe16, UInt16.toNat_ofNat']
    omega
  have first : UInt8.ofNat ((a.toNat * 2 ^ 8 + b.toNat) / 2 ^ 8) = a := by
    apply UInt8.toNat_inj.mp
    rw [UInt8.toNat_ofNat']
    omega
  have second : UInt8.ofNat (a.toNat * 2 ^ 8 + b.toNat) = b := by
    apply UInt8.toNat_inj.mp
    rw [UInt8.toNat_ofNat']
    omega
  rw [bytesBe16, value, first, second]

/-- Four bytes are those of the number that is read from them. -/
lemma bytesBe32_fromBe32 (a b c d : UInt8) : bytesBe32 (fromBe32 a b c d).toNat = [a, b, c, d] := by
  have bound (x : UInt8) : x.toNat < 2 ^ 8 := x.toNat_lt
  have := bound a; have := bound b; have := bound c; have := bound d
  have value : (fromBe32 a b c d).toNat =
      a.toNat * 2 ^ 24 + b.toNat * 2 ^ 16 + c.toNat * 2 ^ 8 + d.toNat := by
    rw [fromBe32, UInt32.toNat_ofNat']
    omega
  have byte {n : Nat} {x : UInt8} (same : n % 2 ^ 8 = x.toNat) : UInt8.ofNat n = x := by
    apply UInt8.toNat_inj.mp
    rw [UInt8.toNat_ofNat', same]
  rw [bytesBe32, value, byte (x := a) (by omega), byte (x := b) (by omega),
    byte (x := c) (by omega), byte (x := d) (by omega)]

/-- Any bytes are the encodings of a message, if their number is a multiple of four. -/
lemma exists_encodings (n : Nat) {items : List UInt8} (length : items.length = 4 * n) :
    ∃ encodings : List UInt32, encodings.length = n ∧
      (encodings.flatMap fun v => bytesBe32 v.toNat) = items := by
  induction n generalizing items with
  | zero => exact ⟨[], rfl, (List.length_eq_zero_iff.mp length).symm⟩
  | succ n ih =>
    obtain ⟨first, rest, rfl⟩ := exists_ofFn (n := 4) (show 4 ≤ items.length by omega)
    rw [List.length_append, List.length_ofFn] at length
    obtain ⟨encodings, count, same⟩ := ih (show rest.length = 4 * n by omega)
    refine ⟨fromBe32 (first 0) (first 1) (first 2) (first 3) :: encodings,
      congrArg Nat.succ count, ?_⟩
    rw [List.flatMap_cons, same, bytesBe32_fromBe32]
    rfl

/-- Bytes that are too few are the start of some that are enough. -/
lemma exists_longer {n : Nat} {items : List UInt8} (short : items.length < n) :
    ∃ longer, longer.length = n ∧ items <+: longer := by
  refine ⟨items ++ List.replicate (n - items.length) 0, ?_, List.prefix_append ..⟩
  rw [List.length_append, List.length_replicate]
  omega

/-- A stream starts with a message, or nothing more can be read from it. -/
def Starts (items : List UInt8) : Prop :=
  (∃ (m : ClientMessage) (rest : List UInt8), items = m.bytes ++ rest) ∨ ∃ last, Stops last items

/-- Without its header there is no message. -/
lemma Starts.of_header (m : ClientMessage) {n : Nat} (length : m.header.length = n)
    {payload : List UInt8}
    (h : ∀ (first : Fin n → UInt8) (rest : List UInt8), payload = List.ofFn first ++ rest →
      Starts (m.kind :: payload)) : Starts (m.kind :: payload) := by
  rcases Nat.lt_or_ge payload.length n with short | enough
  · exact .inr ⟨_, .header m (by rwa [length])⟩
  · obtain ⟨first, rest, split⟩ := exists_ofFn enough
    exact h first rest split

/-- Bytes behind the type of `SetPixelFormat` are a message, a format that is not supported, or too
    few. -/
lemma starts_setPixelFormat (payload : List UInt8) : Starts (0 :: payload) := by
  apply Starts.of_header
    (.setPixelFormat 0 0 0 (fun i => [32, 24, 0, 1, 0, 255, 0, 255, 0, 255, 16, 8, 0, 0, 0, 0][i])
    (by decide)) (n := 19) (by decide)
  rintro first rest rfl
  let format (i : Fin 16) : UInt8 := first (Fin.natAdd 3 i)
  have split : List.ofFn first = [first 0, first 1, first 2] ++ List.ofFn format := by
    rw [List.ofFn_add (m := 3) (n := 16)]
    rfl
  rw [split]
  by_cases supported : (PixelFormat.fromBytes format).supported = true
  · refine .inl ⟨.setPixelFormat (first 0) (first 1) (first 2) format supported, rest, ?_⟩
    show _ = 0 :: ([first 0, first 1, first 2] ++ List.ofFn format ++ [] ++ rest)
    rw [List.append_nil]
    rfl
  · exact .inr ⟨_, .unsupported _ _ _ supported rest⟩

/-- Bytes behind the type of `SetEncodings` are a message or too few. -/
lemma starts_setEncodings (payload : List UInt8) : Starts (2 :: payload) := by
  apply Starts.of_header (.setEncodings 0 [] (by decide)) (n := 3) rfl
  rintro first rest rfl
  let count := (PixelFormat.fromBe16 (first 1) (first 2)).toNat
  have few : count < 2 ^ 16 := UInt16.toNat_lt _
  have header {encodings : List UInt32} (length : encodings.length = count) :
      first 0 :: bytesBe16 encodings.length = List.ofFn first := by
    rw [length, bytesBe16_fromBe16]
    rfl
  rcases Nat.lt_or_ge rest.length (4 * count) with short | enough
  · obtain ⟨longer, length, part⟩ := exists_longer short
    obtain ⟨encodings, size, rfl⟩ := exists_encodings count length
    have few : encodings.length < 2 ^ 16 := by rwa [size]
    refine .inr ⟨_, .cut (.setEncodings (first 0) encodings few) ?_ ?_⟩
    · obtain ⟨more, same⟩ := part
      refine ⟨more, ?_⟩
      show 2 :: (List.ofFn first ++ rest ++ more) =
        2 :: (first 0 :: bytesBe16 encodings.length ++ _)
      rw [header size, List.append_assoc, same]
      rfl
    · intro same
      have bytes : List.ofFn first ++ rest = first 0 :: bytesBe16 encodings.length ++ _ :=
        (List.cons.inj same).2
      rw [header size] at bytes
      rw [List.append_cancel_left bytes] at short
      exact absurd length short.ne
  · obtain ⟨encodings, size, same⟩ := exists_encodings count (List.length_take_of_le enough)
    have few : encodings.length < 2 ^ 16 := by rwa [size]
    refine .inl ⟨.setEncodings (first 0) encodings few, rest.drop (4 * count), ?_⟩
    show 2 :: (List.ofFn first ++ rest) = 2 :: (first 0 :: bytesBe16 encodings.length ++
      (encodings.flatMap fun v => bytesBe32 v.toNat) ++ _)
    rw [header size, List.append_assoc, same, List.take_append_drop]

/-- Bytes behind the type of `FramebufferUpdateRequest` are a message or too few. -/
lemma starts_framebufferUpdateRequest (payload : List UInt8) : Starts (3 :: payload) := by
  apply Starts.of_header (.framebufferUpdateRequest 0 0 0 0 0) (n := 9) rfl
  rintro first rest rfl
  let number (i j : Fin 9) : UInt16 := PixelFormat.fromBe16 (first i) (first j)
  refine .inl ⟨.framebufferUpdateRequest (first 0) (number 1 2) (number 3 4) (number 5 6)
    (number 7 8), rest, ?_⟩
  rw [ClientMessage.bytes, ClientMessage.header, bytesBe16_fromBe16, bytesBe16_fromBe16,
    bytesBe16_fromBe16, bytesBe16_fromBe16]
  rfl

/-- Bytes behind the type of `KeyEvent` are a message or too few. -/
lemma starts_keyEvent (payload : List UInt8) : Starts (4 :: payload) := by
  apply Starts.of_header (.keyEvent 0 0 0 0) (n := 7) rfl
  rintro first rest rfl
  refine .inl ⟨.keyEvent (first 0) (first 1) (first 2)
    (fromBe32 (first 3) (first 4) (first 5) (first 6)), rest, ?_⟩
  rw [ClientMessage.bytes, ClientMessage.header, bytesBe32_fromBe32]
  rfl

/-- Bytes behind the type of `PointerEvent` are a message or too few. -/
lemma starts_pointerEvent (payload : List UInt8) : Starts (5 :: payload) := by
  apply Starts.of_header (.pointerEvent 0 0 0) (n := 5) rfl
  rintro first rest rfl
  let number (i j : Fin 5) : UInt16 := PixelFormat.fromBe16 (first i) (first j)
  refine .inl ⟨.pointerEvent (first 0) (number 1 2) (number 3 4), rest, ?_⟩
  rw [ClientMessage.bytes, ClientMessage.header, bytesBe16_fromBe16, bytesBe16_fromBe16]
  rfl

/-- Bytes behind the type of `ClientCutText` are a message or too few. -/
lemma starts_clientCutText (payload : List UInt8) : Starts (6 :: payload) := by
  apply Starts.of_header (.clientCutText 0 0 0 [] (by decide)) (n := 7) rfl
  rintro first rest rfl
  obtain ⟨size, value⟩ :
    ∃ size, (fromBe32 (first 3) (first 4) (first 5) (first 6)).toNat = size := ⟨_, rfl⟩
  have bound : size < 2 ^ 32 := value ▸ UInt32.toNat_lt _
  have header {text : List UInt8} (length : text.length = size) :
      [first 0, first 1, first 2] ++ bytesBe32 text.length = List.ofFn first := by
    rw [length, ← value, bytesBe32_fromBe32]
    rfl
  rcases Nat.lt_or_ge rest.length size with short | enough
  · obtain ⟨text, length, more, rfl⟩ := exists_longer short
    have fits : (rest ++ more).length < 2 ^ 32 := by rwa [length]
    refine .inr ⟨_,
      .cut (.clientCutText (first 0) (first 1) (first 2) (rest ++ more) fits) ⟨more, ?_⟩ ?_⟩
    · show 6 :: (List.ofFn first ++ rest ++ more) =
        6 :: ([first 0, first 1, first 2] ++ bytesBe32 _ ++ _)
      rw [header length, List.append_assoc]
      rfl
    · intro same
      have bytes : List.ofFn first ++ rest = [first 0, first 1, first 2] ++ bytesBe32 _ ++
        (rest ++ more) :=
        (List.cons.inj same).2
      rw [header length] at bytes
      have all : rest.length = (rest ++ more).length :=
        congrArg List.length (List.append_cancel_left bytes)
      exact absurd (all.trans length) short.ne
  · have length := List.length_take_of_le enough
    have fits : (rest.take size).length < 2 ^ 32 := by rwa [length]
    refine .inl ⟨.clientCutText (first 0) (first 1) (first 2) (rest.take size) fits,
      rest.drop size, ?_⟩
    show 6 :: (List.ofFn first ++ rest) =
      6 :: ([first 0, first 1, first 2] ++ bytesBe32 _ ++ rest.take size ++ _)
    rw [header length, List.append_assoc, List.take_append_drop]

/-- Any bytes start with a message or stop there. -/
lemma starts (items : List UInt8) : Starts items := by
  cases items with
  | nil => exact .inr ⟨_, .cut (.pointerEvent 0 0 0) List.nil_prefix (by decide)⟩
  | cons kind payload =>
    by_cases known : kind ∈ [0, 2, 3, 4, 5, 6]
    · simp only [List.mem_cons, List.not_mem_nil, or_false] at known
      rcases known with rfl | rfl | rfl | rfl | rfl | rfl
      · exact starts_setPixelFormat payload
      · exact starts_setEncodings payload
      · exact starts_framebufferUpdateRequest payload
      · exact starts_keyEvent payload
      · exact starts_pointerEvent payload
      · exact starts_clientCutText payload
    · exact .inr ⟨_, .unknown known payload⟩

/-- Any bytes are complete messages, and then a tail at which the loop ends. -/
lemma exists_messages (items : List UInt8) :
    ∃ (ms : List ClientMessage) (tail : List UInt8) (last : RfbError),
      items = ms.flatMap ClientMessage.bytes ++ tail ∧ Stops last tail := by
  induction length :
    items.length using Nat.strong_induction_on generalizing items with | h n ih => ?_
  rcases starts items with ⟨m, rest, rfl⟩ | ⟨last, stops⟩
  · have shorter : rest.length < n := by
      rw [← length, List.length_append]
      exact Nat.lt_add_of_pos_left (Nat.succ_pos _)
    obtain ⟨ms, tail, last, split, stops⟩ := ih _ shorter rest rfl
    refine ⟨m :: ms, tail, last, ?_, stops⟩
    rw [List.flatMap_cons, List.append_assoc, split]
  · exact ⟨[], items, last, rfl, stops⟩

/-- A peer that notes what is done to it. -/
def recorder : Peer (List ClientAction) where
  keyEvent := some fun down keysym => Eff.modify fun log => log ++ [.key down keysym]
  send := fun request log => (true, log ++ [.request request])

/-- A recorder notes the actions in order. -/
lemma perform_recorder (last : RfbError) (actions log : List ClientAction) :
    perform recorder last actions log = (.err last, log ++ actions) := by
  induction actions generalizing log with
  | nil => rw [List.append_nil]; rfl
  | cons action actions ih =>
    have step : act recorder action log = (.ok true, log ++ [action]) := by
      cases action with
      | key down keysym => rfl
      | request request => rfl
    show (act recorder action >>= fun on => if on then perform recorder last actions
      else pure ()) log = _
    rw [Eff.bind_of_ok step, if_pos rfl, ih, List.append_assoc]
    rfl

/-- A stream of complete messages, and of one that is cut off: however it comes in pieces, the loop
ends, and what it has done is what the complete messages are for, in order. -/
theorem messages_framed (ms : List ClientMessage) (m : ClientMessage) {tail : List UInt8}
    {stream : List (List UInt8)}
    (h : stream.flatten = ms.flatMap ClientMessage.bytes ++ tail) (part : tail <+: m.bytes)
    (short : tail ≠ m.bytes) {fuel : Nat} (enough : ms.length + 2 ≤ fuel) :
    (∀ (σ : Type) (ops : Peer σ) (peer : σ),
      (readMessages ops fuel ⟨stream, peer⟩).1 =
          (perform ops .unexpectedEof (ms.filterMap ClientMessage.action) peer).1 ∧
        (readMessages ops fuel ⟨stream, peer⟩).2.peer =
          (perform ops .unexpectedEof (ms.filterMap ClientMessage.action) peer).2) ∧
      (readMessages recorder fuel ⟨stream, []⟩).1 = .err .unexpectedEof ∧
      (readMessages recorder fuel ⟨stream, []⟩).2.peer = ms.filterMap ClientMessage.action := by
  have stops : Stops .unexpectedEof tail := .cut m part short
  obtain ⟨more, rfl⟩ : ∃ more, fuel = more + 2 + ms.length := ⟨fuel - (ms.length + 2), by omega⟩
  refine ⟨fun σ ops peer => readMessages_perform ops (c := ⟨stream, peer⟩) ms h stops more, ?_⟩
  have recorded := readMessages_perform recorder (c := ⟨stream, []⟩) ms h stops more
  rw [perform_recorder, List.nil_append] at recorded
  exact recorded

/-- The letter `a` goes down, an update is asked for, and of a pointer
event only the first bytes come. -/
theorem letter_framed :
    (readMessages recorder 4
      ⟨[[4, 1, 0], [0, 0, 0, 0, 0x61, 3, 1, 0], [0, 0, 0, 1, 64, 0, 200, 5, 0]], []⟩).2.peer =
      [.key true 0x61, .request (.update true)] := by
  have part : [5, 0] <+: (ClientMessage.pointerEvent 0 0 0).bytes := ⟨[0, 0, 0, 0], rfl⟩
  exact (messages_framed [.keyEvent 1 0 0 0x61, .framebufferUpdateRequest 1 0 0 320 200]
    (.pointerEvent 0 0 0)
    rfl part (by decide) (Nat.le_refl 4)).2.2

end Rfb

end Hearth
