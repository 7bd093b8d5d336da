import Hearth.Keyboard.Guest
import Hearth.Lib.Transition

/-!
# Reading the keyboard under interrupts

`keyboard_read` of `guests/doom/keyboard.c` access by access, with an interrupt that may push
a byte between any two of them. C leaves open which of the two indices is read first by the
test, and whether the new tail is stored before or after the slot is read. The last choice
matters: when the queue was full, a byte that comes between the store and the read is put into
the slot that is about to be read.
-/

namespace Hearth.Reading

open Lib ScancodeQueue

/-- How far a call of `keyboard_read` has come, with what it has read. -/
inductive Pc where
  /-- there is no call -/
  | out
  | tailRead (tail : UInt32)
  | headRead (head : UInt32)
  /-- the indices were different -/
  | taking
  /-- `queue_tail` has been read again; it is to be stored, and the slot to be read -/
  | both (tail : UInt32)
  | stored (tail : UInt32)
  | slotRead (tail : UInt32) (scancode : UInt8)
  deriving DecidableEq, Repr

/-- The queue and the call, with the bytes that `queue_push` accepted and those
that `keyboard_read` returned. -/
structure State where
  queue : ScancodeQueue
  pc : Pc
  accepted : List UInt8
  returned : List UInt8

/-- An interrupt with one byte. -/
def interrupt (byte : UInt8) (s : State) : State where
  queue := s.queue.push byte
  pc := s.pc
  accepted := if s.queue.Full then s.accepted else s.accepted ++ [byte]
  returned := s.returned

/-- The test of the two indices. -/
def test (tail head : UInt32) (s : State) : State :=
  { s with pc := if tail = head then .out else .taking }

/-- `queue_tail` is stored. -/
def storeTail (tail : UInt32) (q : ScancodeQueue) : ScancodeQueue := { q with tail := tail + 1 }

/-- The slot that is read. -/
def slot (tail : UInt32) (q : ScancodeQueue) : UInt8 := q.slots (tail % queueSize).toNat

/-- `keyboard_read` returns. -/
def give (scancode : UInt8) (s : State) : State :=
  { s with pc := .out, returned := s.returned ++ [scancode] }

/-- The next access of `keyboard_read`, in an order that C allows. -/
inductive Turn (s : State) : State → Prop where
  | tailFirst : s.pc = .out → Turn s { s with pc := .tailRead s.queue.tail }
  | headFirst : s.pc = .out → Turn s { s with pc := .headRead s.queue.head }
  | headSecond {tail} : s.pc = .tailRead tail → Turn s (test tail s.queue.head s)
  | tailSecond {head} : s.pc = .headRead head → Turn s (test s.queue.tail head s)
  | again : s.pc = .taking → Turn s { s with pc := .both s.queue.tail }
  | storeFirst {tail} :
      s.pc = .both tail → Turn s { s with queue := storeTail tail s.queue, pc := .stored tail }
  | slotFirst {tail} :
      s.pc = .both tail → Turn s { s with pc := .slotRead tail (slot tail s.queue) }
  | slotLast {tail} : s.pc = .stored tail → Turn s (give (slot tail s.queue) s)
  | storeLast {tail scancode} : s.pc = .slotRead tail scancode →
      Turn s (give scancode { s with queue := storeTail tail s.queue })

/-- An access, or an interrupt in a state where one may come. -/
inductive Step (allowed : State → Prop) (s : State) : State → Prop where
  | turn {s'} : Turn s s' → Step allowed s s'
  | interrupt (byte : UInt8) : allowed s → Step allowed s (interrupt byte s)

/-- Between two calls, with some bytes in the queue. -/
structure Start (s : State) : Prop where
  pc : s.pc = .out
  queue : s.queue.Holds s.accepted
  returned : s.returned = []

/-- The bytes that were returned are the first of those accepted, a byte is accepted unless 64 of
them are unread, and between two calls the queue holds the rest. -/
structure Exact (s : State) : Prop where
  order : s.returned <+: s.accepted
  bound : s.accepted.length ≤ s.returned.length + 64
  accepts : s.accepted.length < s.returned.length + 64 → ¬ s.queue.Full
  rest : s.pc = .out → s.queue.Holds (s.accepted.drop s.returned.length)

/-- The next byte accepted goes into the slot that is about to be read. -/
def AtRisk (s : State) : Prop := (∃ tail, s.pc = .stored tail) ∧ s.queue.head - s.queue.tail = 63

/-- It is decided by where the reader is. -/
instance (pc : Pc) : Decidable (∃ tail, pc = .stored tail) :=
  match pc with
  | .stored tail => .isTrue ⟨tail, rfl⟩
  | .out => .isFalse nofun
  | .tailRead _ => .isFalse nofun
  | .headRead _ => .isFalse nofun
  | .taking => .isFalse nofun
  | .both _ => .isFalse nofun
  | .slotRead _ _ => .isFalse nofun

/-- It is decided by where the reader is and the indices. -/
instance (s : State) : Decidable (AtRisk s) := inferInstanceAs (Decidable (_ ∧ _))

/-! ## The queue -/

variable {q : ScancodeQueue} {pc : Pc} {unread : List UInt8} {s s' : State}

/-- The handler leaves the tail alone. -/
lemma push_tail (q : ScancodeQueue) (byte : UInt8) : (q.push byte).tail = q.tail := by
  unfold push
  split <;> rfl

/-- A push leaves the slots of the other indices alone. -/
lemma push_slot {tail : UInt32} {byte : UInt8} (h : tail % queueSize ≠ q.head % queueSize) :
    slot tail (q.push byte) = slot tail q := by
  unfold push
  split
  · rfl
  · exact Function.update_of_ne (fun e => h (UInt32.toNat_inj.mp e)) _ _

/-- A push into a queue with room fills the slot of the head. -/
lemma push_slot_head {tail : UInt32} {byte : UInt8} (room : ¬ q.Full)
    (h : tail % queueSize = q.head % queueSize) :
    slot tail (q.push byte) = byte := by
  unfold push slot
  rw [if_neg room, h]
  exact Function.update_self _ _ _

/-- The head is in the slot of the byte that was taken exactly if 63 others are in the queue. -/
lemma head_slot_iff {tail : UInt32} (h : q.Holds unread) (fits : unread.length < 64)
    (e : q.tail = tail + 1) :
    tail % queueSize = q.head % queueSize ↔ unread.length = 63 := by
  have hcount := h.count
  rw [e, UInt32.toNat_sub, UInt32.toNat_add, UInt32.toNat_one] at hcount
  have := tail.toNat_lt
  have := q.head.toNat_lt
  rw [← UInt32.toNat_inj, UInt32.toNat_mod, UInt32.toNat_mod]
  show tail.toNat % 64 = q.head.toNat % 64 ↔ _
  omega

/-- The oldest byte is in the slot of the tail. -/
lemma Holds.slot_tail {byte : UInt8} (h : q.Holds (byte :: unread)) : slot q.tail q = byte := by
  unfold slot
  rw [UInt32.toNat_mod]
  exact h.ring.head

/-- When the tail has moved on, the rest is what is unread. -/
lemma Holds.storeTail {byte : UInt8} (h : q.Holds (byte :: unread)) :
    (storeTail q.tail q).Holds unread := by
  obtain ⟨q', hread, h'⟩ := h.read_cons
  unfold keyboardRead at hread
  split at hread
  · cases hread
  · cases hread
    exact h'

/-- Different indices mean that there is a byte. -/
lemma Holds.ne_nil (h : q.Holds unread) (ne : q.tail ≠ q.head) :
    ∃ byte rest, unread = byte :: rest := by
  cases unread with
  | cons byte rest => exact ⟨byte, rest, rfl⟩
  | nil =>
    have e := h.read_nil
    rw [keyboardRead, if_neg ne] at e
    cases e

/-! ## The invariant -/

/-- What the queue is, with these bytes not returned yet, at each access. -/
inductive At (q : ScancodeQueue) : Pc → List UInt8 → Prop where
  | out {bytes} : q.Holds bytes → At q .out bytes
  | tailRead {tail bytes} : q.Holds bytes → tail = q.tail → At q (.tailRead tail) bytes
  | headRead {head bytes} : q.Holds bytes → (q.tail ≠ head → bytes ≠ []) →
      At q (.headRead head) bytes
  | taking {byte rest} : q.Holds (byte :: rest) → At q .taking (byte :: rest)
  | both {tail byte rest} :
      q.Holds (byte :: rest) → tail = q.tail → At q (.both tail) (byte :: rest)
  | stored {tail byte rest} : q.Holds rest → rest.length < 64 → q.tail = tail + 1 →
      slot tail q = byte →
      At q (.stored tail) (byte :: rest)
  | slotRead {tail byte rest} :
      q.Holds (byte :: rest) → tail = q.tail → At q (.slotRead tail byte) (byte :: rest)

/-- What was accepted is what was returned and what is unread. -/
def Inv (s : State) : Prop := ∃ unread, s.accepted = s.returned ++ unread ∧ At s.queue s.pc unread

/-- At the start nothing was accepted. -/
lemma Start.inv (h : Start s) : Inv s := by
  refine ⟨s.accepted, ?_, ?_⟩
  · rw [h.returned]
    rfl
  · rw [h.pc]
    exact .out h.queue

/-- A byte may be pushed unless its slot is about to be read. -/
lemma At.push (h : At q pc unread) (room : ¬ q.Full) (byte : UInt8)
    (safe : ∀ tail, pc = .stored tail → q.head - q.tail ≠ 63) :
    At (q.push byte) pc (unread ++ [byte]) := by
  cases h with
  | out h => exact .out (h.push room byte)
  | tailRead h e => exact .tailRead (h.push room byte) (e.trans (push_tail q byte).symm)
  | headRead h ne =>
    apply At.headRead (h.push room byte)
    exact fun _ => List.append_ne_nil_of_right_ne_nil _ (List.cons_ne_nil byte [])
  | taking h => exact .taking (h.push room byte)
  | both h e => exact .both (h.push room byte) (e.trans (push_tail q byte).symm)
  | @stored tail oldest rest h fits e es =>
    have hne : rest.length ≠ 63 := by
      intro hlen
      apply safe tail rfl
      apply UInt32.toNat_inj.mp
      exact h.count.trans hlen
    apply At.stored (h.push room byte)
    · rw [List.length_append, List.length_singleton]
      omega
    · exact (push_tail q byte).trans e
    · exact (push_slot fun c => hne ((head_slot_iff h fits e).mp c)).trans es
  | slotRead h e => exact .slotRead (h.push room byte) (e.trans (push_tail q byte).symm)

/-- The handler keeps the invariant unless a byte is at risk. -/
lemma Inv.interrupt (h : Inv s) (byte : UInt8) (safe : ¬ AtRisk s) : Inv (interrupt byte s) := by
  obtain ⟨unread, e, hat⟩ := h
  unfold Reading.interrupt
  by_cases full : s.queue.Full
  · rw [if_pos full]
    have same : s.queue.push byte = s.queue := if_pos full
    refine ⟨unread, e, ?_⟩
    show At (s.queue.push byte) s.pc unread
    rw [same]
    exact hat
  · rw [if_neg full]
    refine ⟨unread ++ [byte], ?_, ?_⟩
    · show s.accepted ++ [byte] = _
      rw [e, List.append_assoc]
    · exact hat.push full byte fun tail hpc hcount => safe ⟨⟨tail, hpc⟩, hcount⟩

/-- An access returns one byte at most, and then the call is over. -/
lemma Turn.returned (st : Turn s s') : s'.accepted = s.accepted ∧
    (s'.returned = s.returned ∨ s'.pc = .out ∧ ∃ byte, s'.returned = s.returned ++ [byte]) := by
  cases st with
  | tailFirst _ => exact ⟨rfl, .inl rfl⟩
  | headFirst _ => exact ⟨rfl, .inl rfl⟩
  | headSecond _ => exact ⟨rfl, .inl rfl⟩
  | tailSecond _ => exact ⟨rfl, .inl rfl⟩
  | again _ => exact ⟨rfl, .inl rfl⟩
  | storeFirst _ => exact ⟨rfl, .inl rfl⟩
  | slotFirst _ => exact ⟨rfl, .inl rfl⟩
  | slotLast _ => exact ⟨rfl, .inr ⟨rfl, _, rfl⟩⟩
  | storeLast _ => exact ⟨rfl, .inr ⟨rfl, _, rfl⟩⟩

/-- The reader takes a byte if it finds one. -/
lemma test_at {tail head : UInt32} (h : s.queue.Holds unread) (ne : tail ≠ head → unread ≠ []) :
    At s.queue (test tail head s).pc unread := by
  show At s.queue (if tail = head then .out else .taking) unread
  split
  case isTrue => exact .out h
  case isFalse hne =>
    cases unread with
    | nil => exact absurd rfl (ne hne)
    | cons byte rest => exact .taking h

/-- An access of `keyboard_read` keeps the invariant, whichever order it is part of. -/
lemma Inv.turn (h : Inv s) (st : Turn s s') : Inv s' := by
  obtain ⟨unread, e, hat⟩ := h
  cases st with
  | tailFirst hpc =>
    rw [hpc] at hat
    cases hat with
    | out h => exact ⟨unread, e, .tailRead h rfl⟩
  | headFirst hpc =>
    rw [hpc] at hat
    cases hat with
    | out h =>
      refine ⟨unread, e, .headRead h fun ne => ?_⟩
      obtain ⟨byte, rest, rfl⟩ := Holds.ne_nil h ne
      exact List.cons_ne_nil byte rest
  | headSecond hpc =>
    rw [hpc] at hat
    cases hat with
    | tailRead h et =>
      refine ⟨unread, e, test_at h fun ne => ?_⟩
      obtain ⟨byte, rest, rfl⟩ := Holds.ne_nil h (et ▸ ne)
      exact List.cons_ne_nil byte rest
  | tailSecond hpc =>
    rw [hpc] at hat
    cases hat with
    | headRead h ne => exact ⟨unread, e, test_at h ne⟩
  | again hpc =>
    rw [hpc] at hat
    cases hat with
    | taking h => exact ⟨_, e, .both h rfl⟩
  | storeFirst hpc =>
    -- the tail moves before the slot is read: the byte read is still the one the tail was at
    rw [hpc] at hat
    cases hat with
    | both h et =>
      subst et
      exact ⟨_, e, .stored (Holds.storeTail h) (Nat.lt_of_succ_le h.ring.fits) rfl
        (Holds.slot_tail h)⟩
  | slotFirst hpc =>
    rw [hpc] at hat
    cases hat with
    | both h et =>
      subst et
      refine ⟨_, e, ?_⟩
      rw [Holds.slot_tail h]
      exact .slotRead h rfl
  | slotLast hpc =>
    rw [hpc] at hat
    cases hat with
    | @stored _ _ rest h _ _ es =>
      refine ⟨rest, ?_, .out h⟩
      show s.accepted = (s.returned ++ [_]) ++ rest
      rw [e, es, List.append_assoc, List.singleton_append]
  | storeLast hpc =>
    rw [hpc] at hat
    cases hat with
    | @slotRead _ _ rest h et =>
      subst et
      refine ⟨rest, ?_, .out (Holds.storeTail h)⟩
      show s.accepted = (s.returned ++ [_]) ++ rest
      rw [e, List.append_assoc, List.singleton_append]

/-- Every step keeps the invariant. -/
lemma Inv.step (h : Inv s) (st : Step (fun s => ¬ AtRisk s) s s') : Inv s' := by
  cases st with
  | turn st => exact h.turn st
  | interrupt byte safe => exact h.interrupt byte safe

/-! ## What is returned -/

/-- What the queue says of its room, and what is really unread. -/
lemma At.room (h : At q pc unread) : unread.length ≤ 64 ∧ (unread.length < 64 → ¬ q.Full) := by
  have holds (bytes : List UInt8) (h : q.Holds bytes) :
    bytes.length ≤ 64 ∧ (bytes.length < 64 → ¬ q.Full) :=
    ⟨h.ring.fits, fun lt full => Nat.ne_of_lt lt (h.full_iff.mp full)⟩
  cases h with
  | out h => exact holds _ h
  | tailRead h _ => exact holds _ h
  | headRead h _ => exact holds _ h
  | taking h => exact holds _ h
  | both h _ => exact holds _ h
  | slotRead h _ => exact holds _ h
  | stored h fits _ _ => exact ⟨fits, fun _ => (holds _ h).2 fits⟩

/-- It says that what is returned is what was accepted, in order. -/
lemma Inv.exact (h : Inv s) : Exact s := by
  obtain ⟨unread, e, hat⟩ := h
  obtain ⟨fits, room⟩ := hat.room
  have hlen : s.accepted.length = s.returned.length + unread.length := by rw [e, List.length_append]
  refine ⟨⟨unread, e.symm⟩, ?_, ?_, ?_⟩
  · rw [hlen]
    exact Nat.add_le_add_left fits _
  · intro lt
    rw [hlen] at lt
    exact room (Nat.lt_of_add_lt_add_left lt)
  · intro hpc
    rw [hpc] at hat
    rw [e, List.drop_left]
    cases hat with
    | out h => exact h

/-- Without interrupts a call takes what `keyboardRead` takes. -/
lemma call_reads {q' : ScancodeQueue} {scancode : UInt8} (hpc : s.pc = .out)
    (h : s.queue.keyboardRead = some (scancode, q')) :
    Reach (· = s) Turn (give scancode { s with queue := q' }) := by
  unfold keyboardRead at h
  split at h
  case isTrue => cases h
  case isFalse ne =>
    cases h
    have tailRead : Reach (· = s) Turn _ := .step (.init rfl) (.tailFirst hpc)
    have tested := tailRead.step (.headSecond rfl)
    rw [test, if_neg ne] at tested
    have again := tested.step (.again rfl)
    have slotRead := again.step (.slotFirst rfl)
    exact slotRead.step (.storeLast rfl)

/-- A byte that comes at that point is returned in the place of the one that was there. -/
lemma overtaken (h : Inv s) (risk : AtRisk s) :
    ∃ oldest rest, s.accepted = s.returned ++ oldest :: rest ∧
    ∀ byte, ∃ s', Turn (interrupt byte s) s' ∧ s'.returned = s.returned ++ [byte] ∧
      s'.accepted = s.accepted ++ [byte] := by
  obtain ⟨unread, e, hat⟩ := h
  obtain ⟨⟨tail, hpc⟩, hcount⟩ := risk
  rw [hpc] at hat
  cases hat with
  | @stored _ oldest rest h fits et es =>
    refine ⟨oldest, rest, e, fun byte => ⟨_, .slotLast hpc, ?_, ?_⟩⟩
    · have hlen : rest.length = 63 := by
        rw [← h.count, hcount]
        rfl
      have room : ¬ s.queue.Full := fun full => Nat.ne_of_lt fits (h.full_iff.mp full)
      show s.returned ++ [slot tail (s.queue.push byte)] = _
      rw [push_slot_head room ((head_slot_iff h fits et).mpr hlen)]
    · exact if_neg fun full => Nat.ne_of_lt fits (h.full_iff.mp full)

/-- As long as no byte comes between the store of the tail and the read of the slot with 63 other
bytes unread, the bytes returned are those accepted, in their order. -/
theorem keyboardRead_exact (h : Reach Start (Step fun s => ¬ AtRisk s) s) : Exact s :=
  Inv.exact (h.invariant (fun _ h => h.inv) (fun _ _ h st => h.step st))

/-- The queue as the guest starts. -/
def idle : State := ⟨⟨fun _ => 0, 0, 0⟩, .out, [], []⟩

/-- An empty queue is a start. -/
lemma idle_start : Start idle := ⟨rfl, ⟨.nil, rfl⟩, rfl⟩

/-- One byte is read, a second comes between the store and the read of the slot. -/
theorem keyboardRead_exact_two : ∃ s, Reach Start (Step fun s => ¬ AtRisk s) s ∧ Exact s ∧
    s.accepted = [0x1e, 0x9e] ∧ s.returned = [0x1e] := by
  have calm : ¬ AtRisk idle := fun risk => absurd risk.2 (by decide)
  have arrived : Reach Start (Step fun s => ¬ AtRisk s) _ :=
    .step (.init idle_start) (.interrupt 0x1e calm)
  have tailRead := arrived.step (.turn (.tailFirst rfl))
  have tested := tailRead.step (.turn (.headSecond rfl))
  have both := tested.step (.turn (.again rfl))
  have stored := both.step (.turn (.storeFirst rfl))
  have interrupted := stored.step (.interrupt 0x9e fun risk => absurd risk.2 (by decide))
  have returned := interrupted.step (.turn (.slotLast rfl))
  exact ⟨_, returned, keyboardRead_exact returned, rfl, rfl⟩

/-- The queue is full as the call begins, and another byte comes before the slot is read. -/
theorem keyboardRead_full_queue_overtaken :
    ¬ ∀ s, Reach Start (Step fun _ => True) s → Exact s := by
  intro h
  have filled (bytes : List UInt8) {s : State} (r : Reach Start (Step fun _ => True) s) :
      Reach Start (Step fun _ => True) (bytes.foldl (fun s byte => interrupt byte s) s) := by
    induction bytes generalizing s with
    | nil => exact r
    | cons byte bytes ih => exact ih (r.step (.interrupt byte trivial))
  have full := filled ((List.range 64).map UInt8.ofNat) (.init idle_start)
  have tailRead := full.step (.turn (.tailFirst rfl))
  have tested := tailRead.step (.turn (.headSecond rfl))
  have both := tested.step (.turn (.again (by decide +kernel)))
  have stored := both.step (.turn (.storeFirst rfl))
  have interrupted := stored.step (.interrupt 0x40 trivial)
  have returned := interrupted.step (.turn (.slotLast rfl))
  exact absurd (h _ returned).order (by decide +kernel)

end Hearth.Reading
