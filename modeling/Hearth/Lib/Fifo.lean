import Mathlib

/-!
# Queues that can be cut

A queue of items in which everything behind the front can be dropped. `Fifo.run` says
what has been taken from it and what waits, after some operations; without a cut the
two together are what was pushed.
-/

namespace Hearth.Lib

/-- What is done to the queue. -/
inductive FifoOp (α : Type) where
  | push (a : α)
  /-- takes the front, if there is one -/
  | pop
  /-- drops everything behind the front -/
  | cut
  deriving DecidableEq

/-- What waits, front first, and what was taken, in order. -/
@[ext] structure Fifo (α : Type) where
  pending : List α
  taken : List α

namespace Fifo

variable {α β : Type}

/-- Nothing pending, nothing taken. -/
def empty : Fifo α := ⟨[], []⟩

/-- What one operation does to the queue. -/
def step (f : Fifo α) : FifoOp α → Fifo α
  | .push a => { f with pending := f.pending ++ [a] }
  | .pop => ⟨f.pending.tail, f.taken ++ f.pending.head?.toList⟩
  | .cut => { f with pending := f.pending.take 1 }

/-- Operations one after the other. -/
def run (f : Fifo α) (ops : List (FifoOp α)) : Fifo α := ops.foldl step f

variable {f : Fifo α} {ops ops' : List (FifoOp α)}

/-- Operations followed by operations. -/
lemma run_append : f.run (ops ++ ops') = (f.run ops).run ops' := List.foldl_append

/-- Items are pushed one after the other. -/
lemma run_pushes (f : Fifo α) (items : List α) :
    f.run (items.map .push) = { f with pending := f.pending ++ items } := by
  induction items generalizing f with
  | nil => simp [run]
  | cons a items ih =>
    show run (f.step (.push a)) (items.map .push) = _
    rw [ih]
    simp [step]

/-- The items that are pushed. -/
def pushed : List (FifoOp α) → List α
  | [] => []
  | .push a :: ops => a :: pushed ops
  | _ :: ops => pushed ops

/-- Taking the front moves it from what waits to what was taken. -/
lemma step_pop (f : Fifo α) :
    (f.step .pop).taken ++ (f.step .pop).pending = f.taken ++ f.pending := by
  cases h : f.pending with
  | nil => simp [step, h]
  | cons a pending => simp [step, h]

/-- Without a cut, what was taken and what waits is what was pushed, in order. -/
lemma run_conserves (f : Fifo α) (whole : .cut ∉ ops) :
    (f.run ops).taken ++ (f.run ops).pending = f.taken ++ f.pending ++ pushed ops := by
  induction ops generalizing f with
  | nil => exact (List.append_nil _).symm
  | cons op ops ih =>
    have rest : .cut ∉ ops := fun h => whole (List.mem_cons_of_mem _ h)
    have later := ih (f.step op) rest
    cases op with
    | push a =>
      refine later.trans ?_
      simp [step, pushed]
    | pop => exact later.trans (congrArg (· ++ pushed ops) f.step_pop)
    | cut => exact absurd List.mem_cons_self whole

/-! ## Items that belong together -/

section Joined

variable {R : α → α → Prop} {opens : α → Prop}

/-- Neighbours fit, and nothing is left open at the end. -/
structure Joined (R : α → α → Prop) (opens : α → Prop) (items : List α) : Prop where
  chain : items.IsChain R
  closed : ∀ a ∈ items.getLast?, ¬ opens a

/-- Two lists that are joined are so together if anything may follow what opens nothing. -/
lemma Joined.append {items items' : List α} (h : Joined R opens items) (h' : Joined R opens items')
    (free : ∀ a b, ¬ opens a → R a b) : Joined R opens (items ++ items') where
  chain := List.isChain_append.mpr ⟨h.chain, h'.chain, fun a ha b _ => free a b (h.closed a ha)⟩
  closed := by
    intro a ha
    rw [List.getLast?_append] at ha
    cases hl : items'.getLast? with
    | none =>
      rw [hl] at ha
      exact h.closed a ha
    | some b =>
      rw [hl] at ha
      exact h'.closed a (hl ▸ ha)

/-- The items after an open front may not be dropped. -/
lemma Joined.cut {f : Fifo α} (h : Joined R opens (f.taken ++ f.pending))
    (front : ∀ a ∈ f.pending.head?, ¬ opens a) :
    Joined R opens ((f.step .cut).taken ++ (f.step .cut).pending) := by
  cases hp : f.pending with
  | nil => simpa [step, hp] using h
  | cons a pending =>
    rw [hp] at h front
    have split : f.taken ++ a :: pending = (f.taken ++ [a]) ++ pending := by simp
    have cut : (f.step .cut).taken ++ (f.step .cut).pending = f.taken ++ [a] := by simp [step, hp]
    rw [cut]
    refine ⟨(split ▸ h.chain).left_of_append, fun b hb => ?_⟩
    rw [List.getLast?_concat] at hb
    cases hb
    exact front a rfl

/-- What was taken is whole, up to a last item whose partner is at the front. -/
lemma Joined.taken {f : Fifo α} (h : Joined R opens (f.taken ++ f.pending))
    {before after : List α} {a : α} (split : f.taken = before ++ a :: after) (open_ : opens a) :
    (∃ b after', after = b :: after' ∧ R a b) ∨ after = [] ∧ ∃ b ∈ f.pending.head?, R a b := by
  have chain := h.chain
  rw [split] at chain
  cases after with
  | cons b after =>
    rw [List.append_assoc] at chain
    exact .inl ⟨b, after, rfl, (List.isChain_append_cons_cons.mp chain).2.1⟩
  | nil =>
    refine .inr ⟨rfl, ?_⟩
    cases hp : f.pending with
    | nil =>
      refine absurd open_ (h.closed a ?_)
      rw [hp, split, List.append_nil, List.getLast?_concat]
      rfl
    | cons b pending =>
      rw [hp, List.append_assoc] at chain
      exact ⟨b, rfl, (List.isChain_append_cons_cons.mp chain).2.1⟩

end Joined

end Fifo

end Hearth.Lib
