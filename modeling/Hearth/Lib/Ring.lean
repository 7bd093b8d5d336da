import Mathlib

/-!
# Rings of slots

A ring of `n` slots holds a list from a start on, wrapping at its end. A push fills the slot
after the list and a pop moves the start, whichever way the indices themselves are kept: they
only have to be right modulo `n`.
-/

namespace Hearth.Lib

variable {α : Type} {n start start' : Nat} {slots : Nat → α} {items : List α} {x : α}

/-- The slots from `start` on, wrapping at `n`, hold the items. -/
structure RingHolds (n : Nat) (slots : Nat → α) (start : Nat) (items : List α) : Prop where
  fits : items.length ≤ n
  slot : ∀ i (h : i < items.length), slots ((start + i) % n) = items[i]

/-- A ring with nothing in it. -/
lemma RingHolds.nil : RingHolds n slots start [] := ⟨Nat.zero_le n, fun i h => by cases h⟩

/-- Only the start modulo `n` matters. -/
lemma RingHolds.congr (h : RingHolds n slots start items) (e : start % n = start' % n) :
    RingHolds n slots start' items := by
  refine ⟨h.fits, fun i hi => ?_⟩
  rw [← h.slot i hi, Nat.add_mod, ← e, ← Nat.add_mod]

/-- Different positions of the ring that are less than its size apart are different slots. -/
lemma ring_slot_ne {i j : Nat} (hij : i < j) (hj : j < n) : (start + i) % n ≠ (start + j) % n := by
  intro e
  have hd : n ∣ (start + j) - (start + i) := (Nat.modEq_iff_dvd' (by omega)).mp e
  have := Nat.le_of_dvd (by omega) hd
  omega

/-- An item more, in the slot behind the last. -/
lemma RingHolds.push (h : RingHolds n slots start items) (room : items.length < n) (x : α) :
    RingHolds n (Function.update slots ((start + items.length) % n) x) start (items ++ [x]) := by
  refine ⟨by rw [List.length_append]; exact room, fun i hi => ?_⟩
  rw [List.length_append, List.length_singleton] at hi
  rcases Nat.lt_or_eq_of_le (Nat.le_of_lt_succ hi) with hlt | rfl
  · rw [Function.update_of_ne (ring_slot_ne hlt room), h.slot i hlt, List.getElem_append_left hlt]
  · rw [Function.update_self, List.getElem_concat_length rfl]

/-- The first item is in the first slot. -/
lemma RingHolds.head (h : RingHolds n slots start (x :: items)) : slots (start % n) = x :=
  h.slot 0 (Nat.zero_lt_succ _)

/-- The rest is there from the next slot on. -/
lemma RingHolds.pop (h : RingHolds n slots start (x :: items)) :
    RingHolds n slots (start + 1) items := by
  refine ⟨Nat.le_of_succ_le h.fits, fun i hi => ?_⟩
  have e := h.slot (i + 1) (Nat.succ_lt_succ hi)
  rw [Nat.add_right_comm]
  exact e

/-- The items after the first ones. -/
lemma RingHolds.drop {done : List α} (h : RingHolds n slots start (done ++ items)) :
    RingHolds n slots (start + done.length) items := by
  have len : (done ++ items).length = done.length + items.length := List.length_append
  refine ⟨Nat.le_trans (len ▸ Nat.le_add_left _ _) h.fits, fun i hi => ?_⟩
  have e := h.slot (done.length + i) (len ▸ Nat.add_lt_add_left hi _)
  rw [List.getElem_append_right (Nat.le_add_right _ _)] at e
  rw [Nat.add_assoc, e]
  exact getElem_congr_idx (Nat.add_sub_cancel_left _ _)

end Hearth.Lib
