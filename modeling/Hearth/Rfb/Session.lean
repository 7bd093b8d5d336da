import Hearth.Lib.Dialogue
import Hearth.Rfb.Messages

/-!
# Setting up a connection

`handshake` and `serve` of `frontend/rfb.rs`: what is said on a new connection before the first
message. The server is a party of a dialogue; `rfcClient` is the other one as RFC 6143 asks of it,
in each of the three versions.

`session_agrees` says that the two always come to an end, in whatever order they go on, and then
agree. `serve_admits` looks at any client, well-behaved or not: one that does not complete the
handshake has no effect, and learns nothing of the display; of one that does, the messages have
their effect up to the first that cannot be read.
-/

namespace Hearth
open Lib

/-! ## Pixel formats on the wire -/

namespace PixelFormat

/-- `to_bytes` -/
def toBytes (self : PixelFormat) : List UInt8 :=
  [self.bitsPerPixel, self.depth, self.bigEndian.toUInt8, self.trueColour.toUInt8] ++
    ((List.finRange 3).flatMap fun i => bytesBe16 (self.max i).toNat) ++
    List.ofFn self.shift ++ [0, 0, 0]

/-- `PixelFormat::from_bytes` of the bytes from an offset on. -/
def readFrom (bytes : List UInt8) (offset : Nat) : PixelFormat :=
  fromBytes fun i => bytes.getD (offset + i.val) 0

/-- The bytes of a number are read as it. -/
lemma fromBe16_bytesBe16 (v : UInt16) :
    fromBe16 (UInt8.ofNat (v.toNat / 2 ^ 8)) (UInt8.ofNat v.toNat) = v := by
  apply UInt16.toNat_inj.mp
  exact Rfb.fromBe16_toNat v.toNat_lt

/-- A flag is sent and read back. -/
lemma toUInt8_ne_zero (b : Bool) : (b.toUInt8 != 0) = b := by
  cases b with
  | true => rfl
  | false => rfl

/-- A format that is sent is read back, wherever it stands. -/
lemma readFrom_toBytes (self : PixelFormat) {before after : List UInt8} {offset : Nat}
    (h : before.length = offset) :
    readFrom (before ++ (self.toBytes ++ after)) offset = self := by
  have get (i : Fin 16) :
    (before ++ (self.toBytes ++ after)).getD (offset + i.val) 0 = self.toBytes.getD i.val 0 := by
    have inside : i.val < self.toBytes.length := i.isLt
    rw [List.getD_append_right _ _ _ _ (by omega), h, Nat.add_sub_cancel_left,
      List.getD_append _ _ _ _ inside]
  have max : (fromBytes fun i => self.toBytes.getD i.val 0).max = self.max := by
    funext i
    match i with
    | 0 => exact fromBe16_bytesBe16 _
    | 1 => exact fromBe16_bytesBe16 _
    | 2 => exact fromBe16_bytesBe16 _
  have shift : (fromBytes fun i => self.toBytes.getD i.val 0).shift = self.shift := by
    funext i
    match i with
    | 0 => rfl
    | 1 => rfl
    | 2 => rfl
  calc readFrom (before ++ (self.toBytes ++ after)) offset
    _ = fromBytes fun i => self.toBytes.getD i.val 0 := congrArg fromBytes (funext get)
    _ = ⟨self.bitsPerPixel, self.depth, self.bigEndian.toUInt8 != 0, self.trueColour.toUInt8 != 0,
        (fromBytes fun i => self.toBytes.getD i.val 0).max,
        (fromBytes fun i => self.toBytes.getD i.val 0).shift⟩ := rfl
    _ = self := by rw [toUInt8_ne_zero, toUInt8_ne_zero, max, shift]

end PixelFormat

namespace Rfb

variable {σ : Type}

/-! ## The server -/

/-- The bytes of a text. -/
def ascii (text : String) : List UInt8 := text.toList.map Char.toUInt8

/-- The security type without authentication. -/
def securityNone : UInt8 := 1

/-- The desktop's name. -/
def desktopName : List UInt8 := ascii "Hearth"

/-- Which version a client speaks, from what it answers. -/
def minorOf (version : List UInt8) : Option Nat :=
  if version = ascii "RFB 003.003\n" then some 3
  else if version = ascii "RFB 003.007\n" then some 7
  else if ascii "RFB 003." <+: version then some 8
  else none

/-- What the server does on the connection. -/
abbrev ServerM (α : Type) : Type := Party UInt8 RfbError α

/-- Versions differ only in how security is agreed on. -/
def security (minor : Nat) : ServerM Unit :=
  if minor = 3 then
    -- the server picks the security type
    Party.send (bytesBe32 securityNone.toNat)
  else do
    Party.send [1, securityNone]
    let chosen ← Party.receive 1
    if chosen.getD 0 0 ≠ securityNone then
      .throw (.invalidData "client chose an unoffered security type")
    else if minor = 8 then Party.send (bytesBe32 0)
    else pure ()

/-- `handshake`. -/
def handshake : ServerM Unit := do
  Party.send (ascii "RFB 003.008\n")
  let version ← Party.receive 12
  match minorOf version with
  | none => .throw (.invalidData "not an RFB client")
  | some minor => security minor

/-- What a client is told of the display. -/
def serverInit (width height : UInt16) : List UInt8 :=
  bytesBe16 width.toNat ++ bytesBe16 height.toNat ++ PixelFormat.default.toBytes ++
    bytesBe32 desktopName.length ++
    desktopName

/-- `serve`, before the update thread is started. -/
def greet (width height : UInt16) : ServerM Unit := do
  handshake
  let _ ← Party.receive 1
  Party.send (serverInit width height)

/-! ## A client -/

/-- The versions a client may speak. -/
inductive RfbVersion where
  | v33
  | v37
  | v38
  deriving DecidableEq, Repr

/-- What the client says for a version. -/
def RfbVersion.text : RfbVersion → List UInt8
  | .v33 => ascii "RFB 003.003\n"
  | .v37 => ascii "RFB 003.007\n"
  | .v38 => ascii "RFB 003.008\n"

/-- The minor number of a version. -/
def RfbVersion.minor : RfbVersion → Nat
  | .v33 => 3
  | .v37 => 7
  | .v38 => 8

/-- What a client learns of the server. -/
structure ServerInfo where
  width : UInt16
  height : UInt16
  format : PixelFormat
  name : List UInt8

/-- The handshake fails. -/
def refused {α : Type} : ServerM α := .throw (.invalidData "")

/-- The client agrees on no security. -/
def chooseNone : RfbVersion → ServerM Unit
  | .v33 => do
    let chosen ← Party.receive 4
    if chosen = bytesBe32 1 then pure () else refused
  | .v37 => do
    let count ← Party.receive 1
    let types ← Party.receive (count.getD 0 0).toNat
    if 1 ∈ types then Party.send [1] else refused
  | .v38 => do
    let count ← Party.receive 1
    let types ← Party.receive (count.getD 0 0).toNat
    if 1 ∈ types then
      Party.send [1]
      let result ← Party.receive 4
      if result = bytesBe32 0 then pure () else refused
    else refused

/-- The client's part of the handshake. -/
def join (version : RfbVersion) : ServerM Unit := do
  let offered ← Party.receive 12
  if offered = ascii "RFB 003.008\n" then
    Party.send version.text
    chooseNone version
  else refused

/-- The rest, and then its messages. -/
def learn (messages : List UInt8) : ServerM ServerInfo := do
  let init ← Party.receive 24
  let name ← Party.receive
    (fromBe32 (init.getD 20 0) (init.getD 21 0) (init.getD 22 0) (init.getD 23 0)).toNat
  Party.send messages
  pure
    { width := PixelFormat.fromBe16 (init.getD 0 0) (init.getD 1 0)
      height := PixelFormat.fromBe16 (init.getD 2 0) (init.getD 3 0)
      format := .readFrom init 4
      name := name }

/-- A client that speaks this version. -/
def rfcClient (version : RfbVersion) (shared : UInt8) (messages : List UInt8) :
    ServerM ServerInfo := do
  join version
  Party.send [shared]
  learn messages

/-! ## The two together -/

/-- What the client should have learned. -/
def info (width height : UInt16) : ServerInfo := ⟨width, height, .default, desktopName⟩

/-- A connection before anything is said. -/
def opening (width height : UInt16) (version : RfbVersion) (shared : UInt8)
    (messages : List UInt8) :
    Dialogue UInt8 RfbError Unit ServerInfo :=
  ⟨greet width height, rfcClient version shared messages, [], []⟩

/-- It is set up: the client's messages are all that is still to be read. -/
def agreed (width height : UInt16) (messages : List UInt8) :
    Dialogue UInt8 RfbError Unit ServerInfo :=
  ⟨.ret (), .ret (info width height), messages, []⟩

/-- The minor number is read from what the client says. -/
lemma minorOf_text (version : RfbVersion) : minorOf version.text = some version.minor := by
  cases version with
  | v33 => decide
  | v37 => decide
  | v38 => decide

/-- A version takes 12 bytes. -/
lemma text_length (version : RfbVersion) : version.text.length = 12 := by
  cases version with
  | v33 => decide
  | v37 => decide
  | v38 => decide

variable {f : Unit → ServerM Unit} {g : Unit → ServerM ServerInfo}

/-- The versions are exchanged. -/
lemma versions_run (version : RfbVersion) :
    Dialogue.Steps 4 ⟨handshake >>= f, join version >>= g, [], []⟩
      ⟨security version.minor >>= f, chooseNone version >>= g, [], []⟩ := by
  let chosen (minor : Option Nat) : ServerM Unit :=
    match minor with
    | none => .throw (.invalidData "not an RFB client")
    | some minor => security minor
  let answer (offered : List UInt8) : ServerM Unit :=
    if offered = ascii "RFB 003.008\n" then Party.send version.text >>= fun _ =>
      chooseNone version else refused
  have answered :
    answer (ascii "RFB 003.008\n") = .write version.text (chooseNone version) := if_pos rfl
  have took : chosen (minorOf version.text) = security version.minor :=
    congrArg chosen (minorOf_text version)
  have read : (Party.read 12 fun text => chosen (minorOf text) >>= f).Move version.text
      (chosen (minorOf version.text) >>= f) [] [] :=
        .read (List.append_nil _).symm (text_length version)
  have hello : (Party.read 12 fun offered => answer offered >>= g).Move (ascii "RFB 003.008\n")
      (answer (ascii "RFB 003.008\n") >>= g) [] [] := .read (List.append_nil _).symm (by decide)
  rw [took] at read
  rw [answered] at hello
  exact .head (.left .write)
    (.head (.right hello) (.head (.right .write) (.head (.left read) .refl)))

/-- The security that there is for the version is exchanged. -/
lemma security_run (version : RfbVersion) :
    ∃ n, n ≤ 7 ∧
      Dialogue.Steps n ⟨security version.minor >>= f, chooseNone version >>= g, [], []⟩
        ⟨f (), g (), [], []⟩ := by
  cases version with
  | v33 => exact ⟨2, by decide, .of_follow [true, false] rfl⟩
  | v37 => exact ⟨5, by decide, .of_follow [true, false, false, false, true] rfl⟩
  | v38 => exact ⟨7, by decide, .of_follow [true, false, false, false, true, true, false] rfl⟩

/-- The client learns what the display is. -/
lemma init_run (width height : UInt16) (shared : UInt8) (messages : List UInt8) :
    Dialogue.Steps 6
      ⟨Party.receive 1 >>= fun _ => Party.send (serverInit width height),
        Party.send [shared] >>= fun _ => learn messages, [],
        []⟩ (agreed width height messages) := by
  let init := bytesBe16 width.toNat ++ bytesBe16 height.toNat ++
    PixelFormat.default.toBytes ++ bytesBe32 6
  -- the server sends one message, which the client reads in two parts
  have split : serverInit width height = init ++ desktopName := by
    unfold serverInit
    rw [show desktopName.length = 6 by decide]
  have length : (fromBe32 (init.getD 20 0) (init.getD 21 0) (init.getD 22 0)
    (init.getD 23 0)).toNat = 6 := by
    have name : (init.getD 20 0, init.getD 21 0, init.getD 22 0, init.getD 23 0) =
      (0, 0, 0, 6) := rfl
    simp only [Prod.mk.injEq] at name
    rw [name.1, name.2.1, name.2.2.1, name.2.2.2]
    decide
  -- the client reads back the format, the size and the length of the name
  have format : PixelFormat.readFrom init 4 = .default := by
    have together : init = bytesBe16 width.toNat ++ bytesBe16 height.toNat ++
        (PixelFormat.default.toBytes ++ bytesBe32 6) := List.append_assoc ..
    rw [together]
    exact PixelFormat.readFrom_toBytes .default rfl
  have learned : (⟨PixelFormat.fromBe16 (init.getD 0 0) (init.getD 1 0),
      PixelFormat.fromBe16 (init.getD 2 0) (init.getD 3 0), .readFrom init 4,
      desktopName⟩ : ServerInfo) =
      info width height := by
    have wide : PixelFormat.fromBe16 (init.getD 0 0) (init.getD 1 0) = width :=
      PixelFormat.fromBe16_bytesBe16 width
    have high : PixelFormat.fromBe16 (init.getD 2 0) (init.getD 3 0) = height :=
      PixelFormat.fromBe16_bytesBe16 height
    rw [format, wide, high]
    rfl
  let told (name : List UInt8) : ServerM ServerInfo :=
    .write messages (.ret ⟨PixelFormat.fromBe16 (init.getD 0 0) (init.getD 1 0),
      PixelFormat.fromBe16 (init.getD 2 0) (init.getD 3 0), .readFrom init 4, name⟩)
  have head : (learn messages).Move (init ++ desktopName) (.read 6 told) desktopName [] := by
    have move : (learn messages).Move (init ++ desktopName)
        (.read (fromBe32 (init.getD 20 0) (init.getD 21 0) (init.getD 22 0)
          (init.getD 23 0)).toNat told)
        desktopName [] := .read rfl rfl
    rwa [length] at move
  have named : (Party.read 6 told).Move desktopName (told desktopName) [] [] :=
    .read (List.append_nil _).symm (by decide)
  have shared : (Party.read 1 fun _ => Party.send (init ++ desktopName) :
    ServerM Unit).Move [shared]
      (Party.send (init ++ desktopName)) [] [] := .read (List.append_nil _).symm rfl
  unfold agreed
  rw [← learned, split]
  exact .head (.right .write) (.head (.left shared) (.head (.left .write) (.head (.right head)
    (.head (.right named) (.head (.right .write) .refl)))))

/-- The server and a client of any version, in whatever order they go on, come to an end after at
most 17 steps. The server then is about to read the client's first message, and the client has
learned what the display is. -/
theorem session_agrees (width height : UInt16) (version : RfbVersion) (shared : UInt8)
    (messages : List UInt8) {m : Nat} {s : Dialogue UInt8 RfbError Unit ServerInfo}
    (run : Dialogue.Steps m (opening width height version shared messages) s) :
    ∃ n, m + n ≤ 17 ∧ Dialogue.Steps n s (agreed width height messages) := by
  obtain ⟨n, few, secured⟩ := security_run version (f := fun _ => Party.receive 1 >>= fun _ =>
    Party.send (serverInit width height)) (g :=
      fun _ => Party.send [shared] >>= fun _ => learn messages)
  have whole : Dialogue.Steps (4 + (n + 6)) (opening width height version shared messages)
      (agreed width height messages) :=
    (versions_run version).trans (secured.trans (init_run width height shared messages))
  obtain ⟨le, rest⟩ := whole.of_ended ⟨_, _, rfl, rfl⟩ run
  exact ⟨4 + (n + 6) - m, by omega, rest⟩

/-- A client of version 3.3, when the server has said which one it speaks. -/
theorem session_agrees_opening :
    ∃ n, 1 + n ≤ 17 ∧ Dialogue.Steps n
      ⟨Party.receive 12 >>= fun version =>
          (match minorOf version with
            | none => .throw (.invalidData "not an RFB client")
            | some minor => security minor) >>= fun _ =>
          Party.receive 1 >>= fun _ => Party.send (serverInit 320 200),
        rfcClient .v33 1 [], [], ascii "RFB 003.008\n"⟩ (agreed 320 200 []) :=
  session_agrees 320 200 .v33 1 [] (.of_follow [true] rfl)

/-! ## Any client -/

/-- The server's end of a connection: what comes in, the peer, and what it has sent. -/
structure Connection (σ : Type) where
  client : Client σ
  sent : List UInt8

/-- What a party does on a connection. -/
def exec {α : Type} : ServerM α → Eff RfbError (Connection σ) α
  | .ret a => pure a
  | .throw e => Eff.throw e
  | .write items next => do
    Eff.modify fun self => { self with sent := self.sent ++ items }
    exec next
  | .read n next => do
    let items ← Eff.zoom Connection.client
      (fun client self => { self with client := client }) (readExact n)
    exec (next items)

/-- A client that goes away is no error. -/
def closed : Outcome RfbError Unit → Outcome RfbError Unit
  | .err .unexpectedEof => .ok ()
  | res => res

/-- `serve`. -/
def serve (ops : Peer σ) (width height : UInt16) (fuel : Nat) :
    Eff RfbError (Connection σ) Unit := do
  exec (greet width height)
  fun self =>
    (closed (readMessages ops fuel self.client).1,
      { self with client := (readMessages ops fuel self.client).2 })

/-- How the handshake ended. -/
def ended {α : Type} : Except RfbError α → Outcome RfbError α
  | .ok a => .ok a
  | .error e => .err e

/-- In which pieces the bytes come makes no difference, and the peer is not touched. -/
lemma exec_alone {α : Type} (p : ServerM α) (c : Connection σ) :
    ∃ stream, stream.flatten = (p.alone .unexpectedEof c.client.stream.flatten).2.1 ∧
      exec p c = (ended (p.alone .unexpectedEof c.client.stream.flatten).1,
        ⟨⟨stream, c.client.peer⟩,
          c.sent ++ (p.alone .unexpectedEof c.client.stream.flatten).2.2⟩) := by
  induction p generalizing c with
  | ret a => exact ⟨c.client.stream, rfl, by rw [Party.alone, List.append_nil]; rfl⟩
  | throw e => exact ⟨c.client.stream, rfl, by rw [Party.alone, List.append_nil]; rfl⟩
  | write items next ih =>
    obtain ⟨stream, left, run⟩ := ih { c with sent := c.sent ++ items }
    refine ⟨stream, left, ?_⟩
    rw [Party.alone, ← List.append_assoc]
    exact run
  | read n next ih =>
    rcases Nat.lt_or_ge c.client.stream.flatten.length n with short | enough
    · obtain ⟨stream, run, left⟩ := readExact_short short
      refine ⟨stream, ?_, ?_⟩
      · rw [Party.alone_short _ _ short, left]
      · rw [Party.alone_short _ _ short, List.append_nil]
        apply Eff.bind_of_err
        rw [Eff.zoom_run, run]
    · have split := (List.take_append_drop n c.client.stream.flatten).symm
      have length := List.length_take_of_le enough
      obtain ⟨stream, run, left⟩ := readExact_ok split length
      obtain ⟨stream', left', run'⟩ := ih (c.client.stream.flatten.take n)
        { c with client := { c.client with stream := stream } }
      have next : exec (.read n next) c = exec (next (c.client.stream.flatten.take n))
          { c with client := { c.client with stream := stream } } := by
        apply Eff.bind_of_ok
        rw [Eff.zoom_run, run]
      rw [Party.alone, if_pos enough]
      rw [left] at left' run'
      exact ⟨stream', left', next.trans run'⟩

/-- What a client has to say before its first message, and what it is told but for the display. -/
inductive Hello : (said answered : List UInt8) → Prop where
  | v33 (shared : UInt8) :
      Hello (ascii "RFB 003.003\n" ++ [shared]) (ascii "RFB 003.008\n" ++ [0, 0, 0, 1])
  | v37 (shared : UInt8) :
      Hello (ascii "RFB 003.007\n" ++ [1, shared]) (ascii "RFB 003.008\n" ++ [1, 1])
  | v38 {version : List UInt8} (length : version.length = 12) (rfb : ascii "RFB 003." <+: version)
    (late : version ≠ ascii "RFB 003.003\n" ∧ version ≠ ascii "RFB 003.007\n") (shared : UInt8) :
    Hello (version ++ [1, shared]) (ascii "RFB 003.008\n" ++ [1, 1, 0, 0, 0, 0])

/-- A client that is let in says that it speaks RFB. -/
lemma Hello.rfb {said answered : List UInt8} (h : Hello said answered) :
    ascii "RFB 003." <+: said := by
  cases h with
  | v33 shared => exact ⟨ascii "003\n" ++ [shared], rfl⟩
  | v37 shared => exact ⟨ascii "007\n" ++ [1, shared], rfl⟩
  | v38 length rfb late shared => exact rfb.trans (List.prefix_append ..)

/-- The end of the setup. -/
def finish (width height : UInt16) : ServerM Unit := do
  let _ ← Party.receive 1
  Party.send (serverInit width height)

variable (width height : UInt16)

/-- The shared flag is read, and `ServerInit` sent. -/
lemma finish_cons (shared : UInt8) (rest : List UInt8) :
    (finish width height).alone .unexpectedEof (shared :: rest) =
      (.ok (), rest, serverInit width height) := by
  have read := Party.alone_read RfbError.unexpectedEof
    (fun _ => Party.send (serverInit width height)) rest
    (rfl : [shared].length = 1)
  have sent : (Party.send (serverInit width height) : ServerM Unit).alone .unexpectedEof rest =
      (.ok (), rest, serverInit width height) := by
    show (_, _, serverInit width height ++ []) = _
    rw [List.append_nil]
    rfl
  exact read.trans sent

/-- A client of version 3.3 has no choice. -/
lemma security_v33 (rest : List UInt8) :
    (security 3 >>= fun _ => finish width height).alone .unexpectedEof rest =
      (((finish width height).alone .unexpectedEof rest).1,
        ((finish width height).alone .unexpectedEof rest).2.1,
        [0, 0, 0, 1] ++ ((finish width height).alone .unexpectedEof rest).2.2) := rfl

/-- What becomes of the choice of a client. -/
def settle (minor : Nat) (chosen : UInt8) : ServerM Unit :=
  if chosen ≠ securityNone then .throw (.invalidData "client chose an unoffered security type")
  else if minor = 8 then Party.send (bytesBe32 0)
  else pure ()

/-- Every other one has to choose from what it is offered. -/
lemma security_cons {minor : Nat} (h : minor ≠ 3) (chosen : UInt8) (rest : List UInt8) :
    (security minor >>= fun _ => finish width height).alone .unexpectedEof (chosen :: rest) =
      (((settle minor chosen >>= fun _ => finish width height).alone .unexpectedEof rest).1,
        ((settle minor chosen >>= fun _ => finish width height).alone .unexpectedEof rest).2.1,
        [1, 1] ++ ((settle minor chosen >>= fun _ => finish width height).alone .unexpectedEof
          rest).2.2) := by
  have read := Party.alone_read RfbError.unexpectedEof (fun chosen : List UInt8 =>
    settle minor (chosen.getD 0 0) >>= fun _ => finish width height) rest (rfl :
      [chosen].length = 1)
  unfold security
  rw [if_neg h]
  exact congrArg (fun r => (r.1, r.2.1, [1, 1] ++ r.2.2)) read

/-- The client cannot choose anything else. -/
lemma security_other {minor : Nat} (h : minor ≠ 3) {chosen : UInt8} (other : chosen ≠ securityNone)
    (rest : List UInt8) :
    (security minor >>= fun _ => finish width height).alone .unexpectedEof (chosen :: rest) =
      (.error (.invalidData "client chose an unoffered security type"), rest, [1, 1]) := by
  rw [security_cons width height h, settle, if_pos other]
  rfl

/-- From version 3.7 on the client has to choose. -/
lemma security_nil {minor : Nat} (h : minor ≠ 3) :
    (security minor >>= fun _ => finish width height).alone .unexpectedEof [] =
      (.error .unexpectedEof, [], [1, 1]) := by
  unfold security
  rw [if_neg h]
  rfl

/-- Which version the client speaks. -/
lemma greet_version {version : List UInt8} (length : version.length = 12) {minor : Nat}
    (speaks : minorOf version = some minor) (rest : List UInt8) :
    (greet width height).alone .unexpectedEof (version ++ rest) =
      (((security minor >>= fun _ => finish width height).alone .unexpectedEof rest).1,
        ((security minor >>= fun _ => finish width height).alone .unexpectedEof rest).2.1,
        ascii "RFB 003.008\n" ++
          ((security minor >>= fun _ => finish width height).alone .unexpectedEof rest).2.2) := by
  let chosen (minor : Option Nat) : ServerM Unit :=
    match minor with
    | none => .throw (.invalidData "not an RFB client")
    | some minor => security minor
  have read := Party.alone_read RfbError.unexpectedEof (fun version =>
    chosen (minorOf version) >>= fun _ => finish width height) rest length
  rw [speaks] at read
  exact congrArg (fun r => (r.1, r.2.1, ascii "RFB 003.008\n" ++ r.2.2)) read

/-- An unknown version is an error. -/
lemma greet_unknown {version : List UInt8} (length : version.length = 12)
    (unknown : minorOf version = none) (rest : List UInt8) :
    (greet width height).alone .unexpectedEof (version ++ rest) =
      (.error (.invalidData "not an RFB client"), rest, ascii "RFB 003.008\n") := by
  let chosen (minor : Option Nat) : ServerM Unit :=
    match minor with
    | none => .throw (.invalidData "not an RFB client")
    | some minor => security minor
  have read := Party.alone_read RfbError.unexpectedEof (fun version =>
    chosen (minorOf version) >>= fun _ => finish width height) rest length
  rw [unknown] at read
  exact congrArg (fun r => (r.1, r.2.1, ascii "RFB 003.008\n" ++ r.2.2)) read

/-- Any other version 3 counts as 3.8. -/
lemma minorOf_late {version : List UInt8} (rfb : ascii "RFB 003." <+: version)
    (late : version ≠ ascii "RFB 003.003\n" ∧ version ≠ ascii "RFB 003.007\n") :
    minorOf version = some 8 := by
  rw [minorOf, if_neg late.1, if_neg late.2, if_pos rfb]

/-- The versions that are spoken. -/
lemma minorOf_cases {version : List UInt8} {minor : Nat} (speaks : minorOf version = some minor) :
    version = ascii "RFB 003.003\n" ∧ minor = 3 ∨ version = ascii "RFB 003.007\n" ∧ minor = 7 ∨
      (ascii "RFB 003." <+: version ∧ version ≠ ascii "RFB 003.003\n" ∧
        version ≠ ascii "RFB 003.007\n") ∧
        minor = 8 := by
  unfold minorOf at speaks
  split at speaks
  · next v33 =>
    cases speaks
    exact .inl ⟨v33, rfl⟩
  · next v33 =>
    split at speaks
    · next v37 =>
      cases speaks
      exact .inr (.inl ⟨v37, rfl⟩)
    · next v37 =>
      split at speaks
      · next rfb =>
        cases speaks
        exact .inr (.inr ⟨⟨rfb, v33, v37⟩, rfl⟩)
      · cases speaks

/-- A client that completes the handshake is told of the display. -/
lemma greet_hello {said answered : List UInt8} (h : Hello said answered) (rest : List UInt8) :
    (greet width height).alone .unexpectedEof (said ++ rest) =
      (.ok (), rest, answered ++ serverInit width height) := by
  cases h with
  | v33 shared =>
    have speaks : minorOf (ascii "RFB 003.003\n") = some 3 := by decide
    rw [List.append_assoc, greet_version width height (by decide) speaks, security_v33]
    have last := finish_cons width height shared rest
    exact congrArg (fun r => (r.1, r.2.1, ascii "RFB 003.008\n" ++ ([0, 0, 0, 1] ++ r.2.2))) last
  | v37 shared =>
    have speaks : minorOf (ascii "RFB 003.007\n") = some 7 := by decide
    have last := finish_cons width height shared rest
    have chosen := security_cons width height (show 7 ≠ 3 by decide) securityNone ([shared] ++ rest)
    rw [List.append_assoc, greet_version width height (by decide) speaks]
    have told := chosen.trans (congrArg (fun r => (r.1, r.2.1, [1, 1] ++ r.2.2)) last)
    exact congrArg (fun r => (r.1, r.2.1, ascii "RFB 003.008\n" ++ r.2.2)) told
  | v38 length rfb late shared =>
    have last := finish_cons width height shared rest
    have chosen := security_cons width height (show 8 ≠ 3 by decide) securityNone ([shared] ++ rest)
    rw [List.append_assoc, greet_version width height length (minorOf_late rfb late)]
    have told := chosen.trans
      (congrArg (fun r => (r.1, r.2.1, [1, 1] ++ ([0, 0, 0, 0] ++ r.2.2))) last)
    exact congrArg (fun r => (r.1, r.2.1, ascii "RFB 003.008\n" ++ r.2.2)) told

/-- The client is turned away, and the answer to it is the same for every display. -/
def Refused (p : (width height : UInt16) → ServerM Unit) (bytes : List UInt8) : Prop :=
  ∃ e rest answered, ∀ width height,
    (p width height).alone .unexpectedEof bytes = (.error e, rest, answered)

/-- What is refused after the version is refused. -/
lemma Refused.version {version rest : List UInt8} {minor : Nat}
    (h : Refused (fun width height => security minor >>= fun _ => finish width height) rest)
    (length : version.length = 12) (speaks : minorOf version = some minor) :
    Refused greet (version ++ rest) := by
  obtain ⟨e, left, answered, refused⟩ := h
  refine ⟨e, left, ascii "RFB 003.008\n" ++ answered, fun width height => ?_⟩
  rw [greet_version width height length speaks, refused]

/-- A client that has chosen well but then says no more. -/
lemma security_left {minor : Nat} (h : minor = 7 ∨ minor = 8) :
    Refused (fun width height => security minor >>= fun _ =>
      finish width height) [securityNone] := by
  rcases h with rfl | rfl
  · exact ⟨.unexpectedEof, [], [1, 1], fun width height => rfl⟩
  · exact ⟨.unexpectedEof, [], [1, 1, 0, 0, 0, 0], fun width height => rfl⟩

/-- Less than a version is refused. -/
lemma greet_short {bytes : List UInt8} (short : bytes.length < 12) : Refused greet bytes := by
  refine ⟨.unexpectedEof, [], ascii "RFB 003.008\n", fun width height => ?_⟩
  let chosen (minor : Option Nat) : ServerM Unit :=
    match minor with
    | none => .throw (.invalidData "not an RFB client")
    | some minor => security minor
  have read := Party.alone_short RfbError.unexpectedEof (fun version =>
    chosen (minorOf version) >>= fun _ => finish width height) short
  exact congrArg (fun r => (r.1, r.2.1, ascii "RFB 003.008\n" ++ r.2.2)) read

/-- Any client that does not complete the handshake. -/
lemma greet_other {bytes : List UInt8}
    (h : ∀ said answered rest, Hello said answered → bytes ≠ said ++ rest) :
    Refused greet bytes := by
  rcases Nat.lt_or_ge bytes.length 12 with short | enough
  · exact greet_short short
  obtain ⟨version, rest, rfl, length⟩ : ∃ version rest, bytes = version ++ rest ∧
    version.length = 12 :=
    ⟨bytes.take 12, bytes.drop 12, (List.take_append_drop 12 bytes).symm,
      List.length_take_of_le enough⟩
  cases speaks : minorOf version with
  | none => exact ⟨_, _, _, fun width height => greet_unknown width height length speaks rest⟩
  | some minor =>
    apply Refused.version _ length speaks
    obtain ⟨rfl, rfl⟩ | late := minorOf_cases speaks
    · cases rest with
      | nil => exact ⟨.unexpectedEof, [], [0, 0, 0, 1], fun width height => rfl⟩
      | cons shared rest =>
        apply absurd _ (h _ _ rest (.v33 shared))
        exact (List.append_assoc _ [shared] rest).symm
    · have v33 : minor ≠ 3 := by
        rintro rfl
        obtain ⟨-, v37⟩ | ⟨-, v38⟩ := late
        · cases v37
        · cases v38
      rcases rest with _ | ⟨chosen, rest⟩
      · exact ⟨_, _, _, fun width height => security_nil width height v33⟩
      by_cases none : chosen = securityNone
      · subst none
        cases rest with
        | nil => exact security_left (late.imp And.right And.right)
        | cons shared rest =>
          have whole := (List.append_assoc version [securityNone, shared] rest).symm
          obtain ⟨rfl, -⟩ | ⟨⟨rfb, late⟩, -⟩ := late
          · exact absurd whole (h _ _ rest (.v37 shared))
          · exact absurd whole (h _ _ rest (.v38 length rfb late shared))
      · exact ⟨_, _, _, fun width height => security_other width height v33 none rest⟩

variable (ops : Peer σ) {stream : List (List UInt8)} (peer : σ)

/-- A client that completes the handshake gets to the messages. -/
lemma serve_hello {said answered rest : List UInt8} (hello : Hello said answered)
    (h : stream.flatten = said ++ rest) (fuel : Nat) :
    ∃ left, left.flatten = rest ∧ serve ops width height fuel ⟨⟨stream, peer⟩, []⟩ =
      (closed (readMessages ops fuel ⟨left, peer⟩).1,
        ⟨(readMessages ops fuel ⟨left, peer⟩).2, answered ++ serverInit width height⟩) := by
  obtain ⟨left, remaining, run⟩ := exec_alone (greet width height) ⟨⟨stream, peer⟩, []⟩
  rw [h, greet_hello width height hello rest] at remaining run
  exact ⟨left, remaining, Eff.bind_of_ok run⟩

/-- A client says what it likes, in any pieces. If it completes the handshake, it is told of the
display, and the messages that follow have their effect up to where they are cut off or cannot be
understood; only then is it an error. That is all that can follow. If it does not complete it, it
ends in an error that has no effect on the peer, and it has learned nothing of the display. -/
theorem serve_admits :
    (∀ said answered tail (ms : List ClientMessage) (last : RfbError), Hello said answered →
      stream.flatten = said ++ (ms.flatMap ClientMessage.bytes ++ tail) → Stops last tail →
      ∀ width height fuel, ms.length + 2 ≤ fuel →
        ∃ left, serve ops width height fuel ⟨⟨stream, peer⟩, []⟩ =
          (closed (perform ops last (ms.filterMap ClientMessage.action) peer).1,
            ⟨⟨left, (perform ops last (ms.filterMap ClientMessage.action) peer).2⟩,
              answered ++ serverInit width height⟩)) ∧
      (∀ rest : List UInt8, ∃ (ms : List ClientMessage) (tail : List UInt8) (last : RfbError),
        rest = ms.flatMap ClientMessage.bytes ++ tail ∧ Stops last tail) ∧
      ((∀ said answered rest, Hello said answered → stream.flatten ≠ said ++ rest) →
        ∃ e answered, ∀ width height fuel,
          ∃ left, serve ops width height fuel ⟨⟨stream, peer⟩, []⟩ =
            (.err e, ⟨⟨left, peer⟩, answered⟩)) := by
  refine ⟨?_, exists_messages, ?_⟩
  · intro said answered tail ms last hello h stops width height fuel enough
    obtain ⟨left, remaining, run⟩ := serve_hello width height ops peer hello h fuel
    obtain ⟨more, rfl⟩ : ∃ more, fuel = more + 2 + ms.length := ⟨fuel - (ms.length + 2), by omega⟩
    obtain ⟨outcome, done⟩ := readMessages_perform ops (c := ⟨left, peer⟩) ms remaining stops more
    rw [run, outcome, ← done]
    exact ⟨_, rfl⟩
  · intro other
    obtain ⟨e, rest, answered, refused⟩ := greet_other other
    refine ⟨e, answered, fun width height fuel => ?_⟩
    obtain ⟨left, -, run⟩ := exec_alone (greet width height) ⟨⟨stream, peer⟩, []⟩
    rw [refused width height] at run
    exact ⟨left, Eff.bind_of_err run⟩

/-- A client of version 3.8 that asks for an update and goes away in the next message, one of
version 3.3 that then sends a message of type 99, one of version 3.7 that asks for pixels of 24
bits, and one of version 4. -/
theorem serve_admits_hello :
    (∃ left,
      serve recorder 320 200 3
        ⟨⟨[ascii "RFB 003.008\n", [1, 0, 3, 1], [0, 0, 0, 0, 0, 0, 0, 0, 5, 0]], []⟩, []⟩ =
      (.ok (), ⟨⟨left, [.request (.update true)]⟩,
        ascii "RFB 003.008\n" ++ [1, 1, 0, 0, 0, 0] ++ serverInit 320 200⟩)) ∧
      (∃ left,
        serve recorder 320 200 4
          ⟨⟨[ascii "RFB 003.003\n", [0, 4, 1, 0, 0, 0, 0], [0, 0x61, 3, 1, 0, 0, 0, 0, 0, 0],
          [0, 0, 99, 1, 2]], []⟩, []⟩ =
        (.err (.invalidData "unknown message type 99"),
          ⟨⟨left, [.key true 0x61, .request (.update true)]⟩,
          ascii "RFB 003.008\n" ++ [0, 0, 0, 1] ++ serverInit 320 200⟩)) ∧
      (∃ left,
        serve recorder 320 200 3
          ⟨⟨[ascii "RFB 003.007\n", [1, 0, 4, 0, 0, 0, 0, 0, 0, 0x61, 0, 0, 0, 0, 24, 24, 0],
          [1, 0, 255, 0, 255, 0, 255, 16, 8, 0, 0, 0, 0, 3]], []⟩, []⟩ =
        (.err (.invalidData "unsupported pixel format (colour map or odd size)"),
          ⟨⟨left, [.key false 0x61]⟩, ascii "RFB 003.008\n" ++ [1, 1] ++ serverInit 320 200⟩)) ∧
      ∃ e answered, ∀ width height fuel, ∃ left,
        serve recorder width height fuel ⟨⟨[ascii "RFB 004.000\n", [1, 0, 3, 1]], []⟩, []⟩ =
          (.err e, ⟨⟨left, []⟩, answered⟩) := by
  refine ⟨?_, ?_, ?_, ?_⟩
  · have part : [5, 0] <+: (ClientMessage.pointerEvent 0 0 0).bytes := ⟨[0, 0, 0, 0], rfl⟩
    exact (serve_admits recorder []).1 _ _ [5, 0] [.framebufferUpdateRequest 1 0 0 0 0]
      .unexpectedEof
      (.v38 (show (ascii "RFB 003.008\n").length = 12 by decide) (by decide) (by decide) 0)
      (by decide)
      (.cut (.pointerEvent 0 0 0) part (by decide)) 320 200 3 (Nat.le_refl 3)
  · have unknown : (99 : UInt8) ∉ [0, 2, 3, 4, 5, 6] := by decide
    exact (serve_admits recorder []).1 _ _ [99, 1, 2] [.keyEvent 1 0 0 0x61,
      .framebufferUpdateRequest 1 0 0 0 0] _
      (.v33 0) (by decide) (.unknown unknown [1, 2]) 320 200 4 (Nat.le_refl 4)
  · let format (i : Fin 16) : UInt8 := [24, 24, 0, 1, 0, 255, 0, 255, 0, 255, 16, 8, 0, 0, 0, 0][i]
    exact (serve_admits recorder []).1 _ _ (0 :: ([0, 0, 0] ++ List.ofFn format ++ [3]))
      [.keyEvent 0 0 0 0x61] _
      (.v37 0) (by decide) (.unsupported 0 0 0 (by decide) [3]) 320 200 3 (Nat.le_refl 3)
  · apply (serve_admits recorder []).2.2
    intro said answered rest hello
    have other : ¬ ascii "RFB 003." <+: [ascii "RFB 004.000\n", [1, 0, 3, 1]].flatten := by decide
    intro at_
    rw [at_] at other
    exact other (hello.rfb.trans (List.prefix_append ..))

end Rfb

end Hearth
