import Hearth.Keyboard.Line
import Hearth.Lib.Ring

/-!
# The keyboard of the Doom guest

`keyboard.c` and the key part of `kvm.c` under `guests/doom`: the port accesses of the guest, the
queue between its interrupt handler and the game, and the decoder of scancodes. The codes of the
keys without a character are those of the game's `doomkeys.h`, which the guest is built with; here
they are given by a `DoomKeys`.
-/

namespace Hearth
open Lib I8042

/-! ## Port accesses -/

/-- `inb` -/
def inb (port : UInt16) : I8042M UInt8 := do
  let data ← I8042.handle ⟨kvmExitIoIn, 1, port, 1⟩ [0]
  pure (data.headD 0)

/-- `outb` -/
def outb (port : UInt16) (byte : UInt8) : I8042M Unit := do
  let _ ← I8042.handle ⟨kvmExitIoOut, 1, port, 1⟩ [byte]
  pure ()

/-- Updating the line changes nothing that the guest can read. -/
structure SameBuffer (s s' : I8042) : Prop where
  output : s'.output = s.output
  queue : s'.queue = s.queue
  config : s'.config = s.config
  scanning : s'.scanning = s.scanning
  controllerParam : s'.controllerParam = s.controllerParam

/-- Doing nothing leaves the buffers alone. -/
lemma SameBuffer.refl (s : I8042) : SameBuffer s s := ⟨rfl, rfl, rfl, rfl, rfl⟩

/-- Updating the line leaves them alone. -/
lemma updateIrq_same (s : I8042) : SameBuffer s (updateIrq s).2 := by
  unfold updateIrq I8042.archUpdateIrq
  split
  · dsimp only
    split <;> exact ⟨rfl, rfl, rfl, rfl, rfl⟩
  · exact .refl s

/-- A read of a port, up to the last update of the line. -/
lemma inb_access {port : UInt16} {s s' : I8042} {byte : UInt8} (e : inb port s = (.ok byte, s')) :
    ∃ data s₁, access ⟨kvmExitIoIn, 1, port, 1⟩ [0] s = (.ok data, s₁) ∧ SameBuffer s₁ s' ∧
      byte = (data ++ []).headD 0 := by
  obtain ⟨buffer, s₂, hhandle, hpure⟩ := Eff.bind_ok_iff.mp e
  obtain ⟨data, s₁, haccess, hrest⟩ := Eff.bind_ok_iff.mp hhandle
  obtain ⟨u, s₃, hirq, hpure'⟩ := Eff.bind_ok_iff.mp hrest
  have same := updateIrq_same s₁
  rw [hirq] at same
  cases hpure'
  cases hpure
  exact ⟨data, s₁, haccess, same, rfl⟩

/-- The status port only reads. -/
lemma inb_status {s s' : I8042} {byte : UInt8} (e : inb i8042Command s = (.ok byte, s')) :
    byte = s.status ∧ SameBuffer s s' := by
  obtain ⟨data, s₁, haccess, same, rfl⟩ := inb_access e
  cases haccess
  exact ⟨rfl, same⟩

/-- The status shows whether a byte waits. -/
lemma status_obf (s : I8042) : s.status &&& statusObf ≠ 0 ↔ s.output ≠ none := by
  unfold status
  cases s.output with
  | none =>
    refine iff_of_false ?_ (by simp)
    simp only [Option.isSome_none, Bool.false_eq_true, if_false]
    split_ifs <;> decide
  | some b =>
    refine iff_of_true ?_ (by simp)
    simp only [Option.isSome_some, if_true]
    split_ifs <;> decide

/-- The next byte moves into the buffer. -/
lemma loadNext_buffer (s : I8042) : s.loadNext.output = s.queue.head? ∧
    s.loadNext.queue = s.queue.tail ∧ s.loadNext.config = s.config ∧
    s.loadNext.scanning = s.scanning := by
  cases hq : s.queue with
  | nil => exact loadNext_nil hq ▸ ⟨rfl, hq, rfl, rfl⟩
  | cons byte queue => exact loadNext_cons hq ▸ ⟨rfl, rfl, rfl, rfl⟩

/-- The data port takes the byte in the buffer and loads the next. -/
lemma inb_data {s s' : I8042} {byte : UInt8} (e : inb i8042Data s = (.ok byte, s')) :
    byte = s.output.getD 0 ∧ s'.output = s.queue.head? ∧ s'.queue = s.queue.tail ∧
      s'.config = s.config ∧ s'.scanning = s.scanning := by
  obtain ⟨data, s₁, haccess, same, rfl⟩ := inb_access e
  obtain ⟨byte, s₂, hread, hset⟩ := Eff.bind_ok_iff.mp haccess
  cases hset
  unfold readData at hread
  rw [Eff.gets_bind_run, Eff.modify_bind_run] at hread
  obtain ⟨u, s₃, hirq, hload⟩ := Eff.bind_ok_iff.mp hread
  cases hload
  have taken := updateIrq_same { s with output := none }
  rw [hirq] at taken
  obtain ⟨ho, hq, hc, hs⟩ := loadNext_buffer s₃
  refine ⟨rfl, same.output.trans (ho.trans ?_), same.queue.trans (hq.trans ?_),
    same.config.trans (hc.trans taken.config), same.scanning.trans (hs.trans taken.scanning)⟩
  · rw [taken.queue]
  · rw [taken.queue]

/-! ## The queue of scancodes -/

/-- The slots of the queue. -/
def queueSize : UInt32 := 64

/-- `queue`, `queue_head` and `queue_tail`. -/
structure ScancodeQueue where
  slots : Nat → UInt8
  head : UInt32
  tail : UInt32

namespace ScancodeQueue

/-- The queue has no room. -/
def Full (q : ScancodeQueue) : Prop := ¬ q.head - q.tail < queueSize

/-- It is decided by the indices. -/
instance (q : ScancodeQueue) : Decidable q.Full := inferInstanceAs (Decidable (¬ _))

/-- `queue_push` -/
def push (byte : UInt8) (q : ScancodeQueue) : ScancodeQueue :=
  if q.Full then q
  else { q with
    slots := Function.update q.slots (q.head % queueSize).toNat byte
    head := q.head + 1 }

/-- `keyboard_read` -/
def keyboardRead (q : ScancodeQueue) : Option (UInt8 × ScancodeQueue) :=
  if q.tail = q.head then none
  else some (q.slots (q.tail % queueSize).toNat, { q with tail := q.tail + 1 })

/-- The bytes that are unread. -/
structure Holds (q : ScancodeQueue) (bytes : List UInt8) : Prop where
  ring : RingHolds 64 q.slots q.tail.toNat bytes
  count : (q.head - q.tail).toNat = bytes.length

variable {q : ScancodeQueue} {bytes : List UInt8}

/-- The queue is full with 64 bytes. -/
lemma Holds.full_iff (h : q.Holds bytes) : q.Full ↔ bytes.length = 64 := by
  have hfits := h.ring.fits
  unfold Full
  rw [UInt32.lt_iff_toNat_lt, h.count]
  show ¬ bytes.length < 64 ↔ _
  omega

/-- A byte more goes behind the others, if there is room. -/
lemma Holds.push (h : q.Holds bytes) (room : ¬ q.Full) (byte : UInt8) :
    (q.push byte).Holds (bytes ++ [byte]) := by
  have hlt : bytes.length < 64 :=
    Nat.lt_of_le_of_ne h.ring.fits fun e => room (h.full_iff.mpr e)
  have hcount := h.count
  have hslot : (q.head % queueSize).toNat = (q.tail.toNat + bytes.length) % 64 := by
    rw [UInt32.toNat_mod, ← hcount, UInt32.toNat_sub]
    show q.head.toNat % 64 = _
    have := q.tail.toNat_lt
    have := q.head.toNat_lt
    omega
  have e : q.push byte = { q with
      slots := Function.update q.slots ((q.tail.toNat + bytes.length) % 64) byte
      head := q.head + 1 } := by
    rw [ScancodeQueue.push, if_neg room, hslot]
  rw [e]
  refine ⟨h.ring.push hlt byte, ?_⟩
  show (q.head + 1 - q.tail).toNat = _
  rw [List.length_append, List.length_singleton, ← hcount, UInt32.toNat_sub, UInt32.toNat_add,
    UInt32.toNat_sub, UInt32.toNat_one]
  rw [UInt32.toNat_sub] at hcount
  omega

/-- Without a byte there is nothing to read. -/
lemma Holds.read_nil (h : q.Holds []) : q.keyboardRead = none := by
  apply if_pos
  have hcount := h.count
  rw [UInt32.toNat_sub, List.length_nil] at hcount
  apply UInt32.toNat_inj.mp
  have := q.tail.toNat_lt
  have := q.head.toNat_lt
  omega

/-- A read takes the oldest byte, also when the indices wrap. -/
lemma Holds.read_cons {byte : UInt8} (h : q.Holds (byte :: bytes)) :
    ∃ q', q.keyboardRead = some (byte, q') ∧ q'.Holds bytes := by
  have hcount := h.count
  have hne : q.tail ≠ q.head := by
    intro e
    rw [e, UInt32.sub_self, UInt32.toNat_zero, List.length_cons] at hcount
    omega
  have hslot : q.slots (q.tail % queueSize).toNat = byte := by
    rw [UInt32.toNat_mod]
    exact h.ring.head
  have e : q.keyboardRead = some (byte, { q with tail := q.tail + 1 }) := by
    rw [keyboardRead, if_neg hne, hslot]
  refine ⟨_, e, ?_, ?_⟩
  · apply h.ring.pop.congr
    show (q.tail.toNat + 1) % 64 = (q.tail + 1).toNat % 64
    rw [UInt32.toNat_add, UInt32.toNat_one]
    omega
  · show (q.head - (q.tail + 1)).toNat = _
    have hfits := h.ring.fits
    rw [UInt32.toNat_sub, List.length_cons] at hcount
    rw [List.length_cons] at hfits
    rw [UInt32.toNat_sub, UInt32.toNat_add, UInt32.toNat_one]
    have := q.tail.toNat_lt
    have := q.head.toNat_lt
    omega

end ScancodeQueue

/-! ## Doom keys -/

/-- The codes of `doomkeys.h` that the guest uses. -/
structure DoomKeys where
  keyEscape : UInt8
  keyBackspace : UInt8
  keyTab : UInt8
  keyEnter : UInt8
  keyFire : UInt8
  keyRshift : UInt8
  keyRalt : UInt8
  keyLalt : UInt8
  keyUse : UInt8
  keyCapslock : UInt8
  keyF1 : UInt8
  keyF2 : UInt8
  keyF3 : UInt8
  keyF4 : UInt8
  keyF5 : UInt8
  keyF6 : UInt8
  keyF7 : UInt8
  keyF8 : UInt8
  keyF9 : UInt8
  keyF10 : UInt8
  keyF11 : UInt8
  keyF12 : UInt8
  keyUparrow : UInt8
  keyLeftarrow : UInt8
  keyRightarrow : UInt8
  keyDownarrow : UInt8
  keyHome : UInt8
  keyPgup : UInt8
  keyEnd : UInt8
  keyPgdn : UInt8
  keyIns : UInt8
  keyDel : UInt8

/-- `set1_to_doom`, as runs of keys and the code each starts at. -/
def set1Runs (keys : DoomKeys) : List (Nat × List UInt8) :=
  [(0x01, [keys.keyEscape]),
    (0x02, asciiBytes ['1', '2', '3', '4', '5', '6', '7', '8', '9', '0', '-', '=']),
    (0x0e, [keys.keyBackspace, keys.keyTab]),
    (0x10, asciiBytes ['q', 'w', 'e', 'r', 't', 'y', 'u', 'i', 'o', 'p', '[', ']']),
    (0x1c, [keys.keyEnter, keys.keyFire]),
    -- ends with an apostrophe and a backtick; after the shift comes a backslash
    (0x1e, asciiBytes ['a', 's', 'd', 'f', 'g', 'h', 'j', 'k', 'l', ';'] ++ [0x27, 0x60]),
    (0x2a, [keys.keyRshift, 0x5c]),
    (0x2c, asciiBytes ['z', 'x', 'c', 'v', 'b', 'n', 'm', ',', '.', '/']),
    (0x36, [keys.keyRshift]),
    (0x38, [keys.keyLalt, keys.keyUse, keys.keyCapslock]),
    (0x3b, [keys.keyF1, keys.keyF2, keys.keyF3, keys.keyF4, keys.keyF5, keys.keyF6, keys.keyF7,
      keys.keyF8, keys.keyF9,
      keys.keyF10]),
    (0x48, [keys.keyUparrow]),
    (0x4b, [keys.keyLeftarrow]),
    (0x4d, [keys.keyRightarrow]),
    (0x50, [keys.keyDownarrow]),
    (0x57, [keys.keyF11, keys.keyF12])]

/-- The length of the table. -/
def set1ToDoomSize : Nat := 0x59

/-- An entry of `set1_to_doom`; those the runs leave out are 0. -/
def set1ToDoom (keys : DoomKeys) (code : UInt8) : UInt8 :=
  ((set1Runs keys).findSome? fun run =>
    if run.1 ≤ code.toNat then run.2[code.toNat - run.1]? else none).getD 0

/-- `set1_extended_to_doom` -/
def set1ExtendedToDoom (keys : DoomKeys) (code : UInt8) : UInt8 :=
  match code with
  | 0x1c => keys.keyEnter
  | 0x1d => keys.keyFire
  | 0x38 => keys.keyRalt
  | 0x47 => keys.keyHome
  | 0x48 => keys.keyUparrow
  | 0x49 => keys.keyPgup
  | 0x4b => keys.keyLeftarrow
  | 0x4d => keys.keyRightarrow
  | 0x4f => keys.keyEnd
  | 0x50 => keys.keyDownarrow
  | 0x51 => keys.keyPgdn
  | 0x52 => keys.keyIns
  | 0x53 => keys.keyDel
  | _ => 0

/-- The Doom key of a scancode, 0 if it has none. -/
def doomKey (keys : DoomKeys) (extended : Bool) (code : UInt8) : UInt8 :=
  if extended then set1ExtendedToDoom keys code
  else if code.toNat < set1ToDoomSize then set1ToDoom keys code else 0

/-- One scancode in the loop of `DG_GetKey`: the prefix flag afterwards,
and the key if there is one. -/
def decodeScancode (keys : DoomKeys) (extended : Bool) (scancode : UInt8) :
    Bool × Option (Bool × UInt8) :=
  if scancode = 0xe0 then (true, none)
  else
    let key := doomKey keys extended (scancode &&& 0x7f)
    (false, if key = 0 then none else some (scancode &&& 0x80 = 0, key))

end Hearth
