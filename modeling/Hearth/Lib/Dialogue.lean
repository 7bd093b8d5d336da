import Mathlib

/-!
# Dialogues

Two parties that talk over a channel in each direction. A party writes items, which never blocks,
and reads a given number of them, which waits until they are there; what it does next may depend on
what it has read. In which order the two go on is left open.

`alone` is what one of them does whatever comes in, as a function of that.

The steps of the two commute (`Step.diamond`). So the parties' order makes no difference: once one
run ends, all runs do, in the same state and after as many steps (`Steps.of_ended`). It is enough to
follow a dialogue through once.
-/

namespace Hearth.Lib

/-- What a party has still to do. -/
inductive Party (τ ε α : Type) where
  | ret (a : α)
  | throw (e : ε)
  | write (items : List τ) (next : Party τ ε α)
  | read (n : Nat) (next : List τ → Party τ ε α)

namespace Party

variable {τ ε α β : Type}

/-- A party that goes on with the result of another. -/
protected def bind : Party τ ε α → (α → Party τ ε β) → Party τ ε β
  | .ret a, f => f a
  | .throw e, _ => .throw e
  | .write items next, f => .write items (next.bind f)
  | .read n next, f => .read n fun items => (next items).bind f

/-- Parties are run one after the other. -/
instance : Monad (Party τ ε) where
  pure := .ret
  bind := Party.bind

/-- A party that writes all these items. -/
def send (items : List τ) : Party τ ε Unit := .write items (.ret ())

/-- A party that reads so many items. -/
def receive (n : Nat) : Party τ ε (List τ) := .read n .ret

/-- What a party may do next, given what has come in for it: it goes on to `next`,
leaves `rest`, and sends `out`. -/
inductive Move : (self : Party τ ε α) → (incoming : List τ) → (next : Party τ ε α) →
    (rest out : List τ) → Prop where
  | write {items next incoming} : Move (.write items next) incoming next incoming items
  | read {n next incoming items rest} (there : incoming = items ++ rest)
      (length : items.length = n) :
    Move (.read n next) incoming (next items) rest []

/-- The move that a party can make, if it has not ended and does not wait. -/
def move? : Party τ ε α → List τ → Option (Party τ ε α × List τ × List τ)
  | .ret _, _ => none
  | .throw _, _ => none
  | .write items next, incoming => some (next, incoming, items)
  | .read n next, incoming =>
    if n ≤ incoming.length then some (next (incoming.take n), incoming.drop n, []) else none

/-- A party to which so much comes in and then no more: how it ends, with `short` where it reads in
vain, what it leaves, and what it has written. -/
def alone (short : ε) : Party τ ε α → List τ → Except ε α × List τ × List τ
  | .ret a, incoming => (.ok a, incoming, [])
  | .throw e, incoming => (.error e, incoming, [])
  | .write items next, incoming =>
    ((next.alone short incoming).1, (next.alone short incoming).2.1,
      items ++ (next.alone short incoming).2.2)
  | .read n next, incoming =>
    if n ≤ incoming.length then (next (incoming.take n)).alone short (incoming.drop n)
      else (.error short, [], [])

/-- A result is passed on to what follows. -/
@[simp] lemma ret_bind (a : α) (f : α → Party τ ε β) : (pure a : Party τ ε α) >>= f = f a := rfl

/-- What is sent comes first. -/
@[simp] lemma send_bind (items : List τ) (f : Unit → Party τ ε β) :
    (send items : Party τ ε Unit) >>= f = .write items (f ()) := rfl

/-- What is received is passed on. -/
@[simp] lemma receive_bind (n : Nat) (f : List τ → Party τ ε β) :
    (receive n : Party τ ε (List τ)) >>= f = .read n f := rfl

/-- Alone, what is written goes out. -/
lemma alone_write (short : ε) (items : List τ) (next : Party τ ε α) (incoming : List τ) :
    (write items next).alone short incoming =
      ((next.alone short incoming).1, (next.alone short incoming).2.1,
        items ++ (next.alone short incoming).2.2) := rfl

/-- Alone, what is there is read. -/
lemma alone_read (short : ε) {n : Nat} (next : List τ → Party τ ε α) {items : List τ}
    (rest : List τ) (length : items.length = n) :
    (read n next).alone short (items ++ rest) = (next items).alone short rest := by
  have there : n ≤ (items ++ rest).length := by
    rw [List.length_append, length]
    exact Nat.le_add_right n rest.length
  rw [alone, if_pos there, List.take_left' length, List.drop_left' length]

/-- With too little there the read fails. -/
lemma alone_short (short : ε) {n : Nat} (next : List τ → Party τ ε α) {items : List τ}
    (h : items.length < n) :
    (read n next).alone short items = (.error short, [], []) := if_neg (Nat.not_le_of_lt h)

variable {p p₁ p₂ : Party τ ε α} {incoming rest₁ rest₂ out₁ out₂ : List τ}

/-- A party has no choice. -/
lemma Move.deterministic (move : p.Move incoming p₁ rest₁ out₁)
    (move' : p.Move incoming p₂ rest₂ out₂) :
    p₁ = p₂ ∧ rest₁ = rest₂ ∧ out₁ = out₂ := by
  cases move with
  | write =>
    cases move' with
    | write => exact ⟨rfl, rfl, rfl⟩
  | read there length =>
    cases move' with
    | read there' length' =>
      obtain ⟨rfl, rfl⟩ := List.append_inj (there.symm.trans there') (length.trans length'.symm)
      exact ⟨rfl, rfl, rfl⟩

/-- The move that is computed is one. -/
lemma Move.of_move? {p p' : Party τ ε α} {rest out : List τ}
    (h : p.move? incoming = some (p', rest, out)) :
    p.Move incoming p' rest out := by
  cases p with
  | ret => cases h
  | throw => cases h
  | write =>
    cases h
    exact .write
  | read n next =>
    change (if n ≤ incoming.length then _ else none) = _ at h
    split at h
    · next enough =>
      cases h
      exact .read (List.take_append_drop ..).symm (List.length_take_of_le enough)
    · cases h

/-- What comes in later makes no difference to what a party does now. -/
lemma Move.more (move : p.Move incoming p₁ rest₁ out₁) (later : List τ) :
    p.Move (incoming ++ later) p₁ (rest₁ ++ later) out₁ := by
  cases move with
  | write => exact .write
  | read there length =>
    apply Move.read _ length
    rw [there, List.append_assoc]

end Party

/-- Two parties, with what is on its way to each. -/
structure Dialogue (τ ε α β : Type) where
  left : Party τ ε α
  right : Party τ ε β
  toLeft : List τ
  toRight : List τ

namespace Dialogue

variable {τ ε α β : Type}

/-- One of the two parties goes on. -/
inductive Step : Dialogue τ ε α β → Dialogue τ ε α β → Prop where
  | left {p p' : Party τ ε α} {q : Party τ ε β} {incoming rest out toRight}
      (move : p.Move incoming p' rest out) :
    Step ⟨p, q, incoming, toRight⟩ ⟨p', q, rest, toRight ++ out⟩
  | right {p : Party τ ε α} {q q' : Party τ ε β} {incoming rest out toLeft}
      (move : q.Move incoming q' rest out) :
    Step ⟨p, q, toLeft, incoming⟩ ⟨p, q', toLeft ++ out, rest⟩

/-- One state is reached from another in so many steps. -/
inductive Steps : Nat → Dialogue τ ε α β → Dialogue τ ε α β → Prop where
  | refl {s} : Steps 0 s s
  | head {n s s' s''} : Step s s' → Steps n s' s'' → Steps (n + 1) s s''

/-- Both parties have ended. -/
def Ended (s : Dialogue τ ε α β) : Prop := ∃ a b, s.left = .ret a ∧ s.right = .ret b

variable {s s' t u : Dialogue τ ε α β} {n m : Nat}

/-- Once both have ended nothing goes on. -/
lemma Ended.stuck (h : s.Ended) : ¬ Step s t := by
  obtain ⟨a, b, left, right⟩ := h
  intro st
  cases st with
  | left move =>
    cases left
    cases move
  | right move =>
    cases right
    cases move

/-- Two steps from a state are the same, or can be made one after the other. -/
lemma Step.diamond (st : Step s t) (st' : Step s u) : t = u ∨ ∃ v, Step t v ∧ Step u v := by
  cases st with
  | left move =>
    cases st' with
    | left move' =>
      obtain ⟨rfl, rfl, rfl⟩ := move.deterministic move'
      exact .inl rfl
    | right move' => exact .inr ⟨_, .right (move'.more _), .left (move.more _)⟩
  | right move =>
    cases st' with
    | left move' => exact .inr ⟨_, .left (move'.more _), .right (move.more _)⟩
    | right move' =>
      obtain ⟨rfl, rfl, rfl⟩ := move.deterministic move'
      exact .inl rfl

/-- Steps followed by steps. -/
lemma Steps.trans (run : Steps n s t) (run' : Steps m t u) : Steps (n + m) s u := by
  induction run with
  | refl => rwa [Nat.zero_add]
  | head st _ ih =>
    rw [Nat.add_right_comm]
    exact .head st (ih run')

/-- The run in which the parties take turns as given: `true` is the left one. -/
def follow : List Bool → Dialogue τ ε α β → Option (Dialogue τ ε α β)
  | [], s => some s
  | true :: order, s =>
    (s.left.move? s.toLeft).bind fun (p, rest, out) =>
      follow order ⟨p, s.right, rest, s.toRight ++ out⟩
  | false :: order, s =>
    (s.right.move? s.toRight).bind fun (q, rest, out) =>
      follow order ⟨s.left, q, s.toLeft ++ out, rest⟩

/-- An order that can be followed is a run. -/
lemma Steps.of_follow (order : List Bool) (h : s.follow order = some t) :
    Steps order.length s t := by
  induction order generalizing s with
  | nil =>
    cases h
    exact .refl
  | cons first order ih =>
    cases first with
    | true =>
      obtain ⟨⟨p, rest, out⟩, move, h⟩ := Option.bind_eq_some_iff.mp h
      exact .head (.left (.of_move? move)) (ih h)
    | false =>
      obtain ⟨⟨q, rest, out⟩, move, h⟩ := Option.bind_eq_some_iff.mp h
      exact .head (.right (.of_move? move)) (ih h)

/-- A run that ends goes on from every state that a step leads to. -/
lemma Steps.of_step (run : Steps n s t) (ended : t.Ended) (st : Step s u) :
    ∃ m, n = m + 1 ∧ Steps m u t := by
  induction run generalizing u with
  | refl => exact absurd st ended.stuck
  | @head n s s' t first rest ih =>
    rcases first.diamond st with rfl | ⟨v, st₁, st₂⟩
    · exact ⟨n, rfl, rest⟩
    · obtain ⟨m, rfl, rest'⟩ := ih ended st₁
      exact ⟨m + 1, rfl, .head st₂ rest'⟩

/-- Where one run ends, all do: every run can be completed to that end,
and never makes more steps. -/
lemma Steps.of_ended (run : Steps n s t) (ended : t.Ended) (other : Steps m s u) :
    m ≤ n ∧ Steps (n - m) u t := by
  induction other generalizing n with
  | refl => exact ⟨Nat.zero_le _, run⟩
  | @head m s s' u first rest ih =>
    obtain ⟨k, rfl, run'⟩ := run.of_step ended first
    obtain ⟨le, run''⟩ := ih run'
    exact ⟨Nat.succ_le_succ le, by rwa [Nat.add_sub_add_right]⟩

end Dialogue

end Hearth.Lib
