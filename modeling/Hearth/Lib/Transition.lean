import Mathlib

/-!
# Transition systems

The states that runs of a system reach, and the one rule by which a property of all of them is
proved: it holds at the start and every step keeps it. `Reach.invariant_of` is the same rule for a
step that is only considered from states that are reached. `Reach.run` and `Reach.moves` go on from
a state that is reached, the second by moves that are computed.
-/

namespace Hearth.Lib

/-- The states that a run reaches. -/
inductive Reach {σ : Type} (init : σ → Prop) (step : σ → σ → Prop) : σ → Prop where
  | init {s} : init s → Reach init step s
  | step {s s'} : Reach init step s → step s s' → Reach init step s'

variable {σ : Type} {init : σ → Prop} {step : σ → σ → Prop} {s : σ}

/-- What holds at the start and is kept by every step holds in every reached state. -/
lemma Reach.invariant {I : σ → Prop} (start : ∀ s, init s → I s)
    (keep : ∀ s s', I s → step s s' → I s') (h : Reach init step s) : I s := by
  induction h with
  | init h0 => exact start _ h0
  | step _ st ih => exact keep _ _ ih st

/-- The same rule with an invariant that was proved before. -/
lemma Reach.invariant_of {I J : σ → Prop} (given : ∀ s, Reach init step s → J s)
    (start : ∀ s, init s → I s)
    (keep : ∀ s s', J s → I s → step s s' → I s') (h : Reach init step s) : I s := by
  induction h with
  | init h0 => exact start _ h0
  | step r st ih => exact keep _ _ (given _ r) ih st

/-- A run leads from a state that is reached to one that is. -/
lemma Reach.run {s' : σ} (h : Reach init step s) (run : Relation.ReflTransGen step s s') :
    Reach init step s' := by
  induction run with
  | refl => exact h
  | tail _ st ih => exact ih.step st

/-- Moves that are computed lead to states that are reached, if each is a step whenever it can be
    made. -/
lemma Reach.moves {μ : Type} {move : σ → μ → Option σ} {moves : List μ} {s' : σ}
    (h : Reach init step s)
    (steps : ∀ s m s', move s m = some s' → step s s') (made : moves.foldlM move s = some s') :
    Reach init step s' := by
  induction moves generalizing s with
  | nil =>
    cases made
    exact h
  | cons m moves ih =>
    obtain ⟨s₁, first, rest⟩ := Option.bind_eq_some_iff.mp made
    exact ih (h.step (steps _ _ _ first)) rest

end Hearth.Lib
