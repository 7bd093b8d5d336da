import Mathlib

/-!
# Streams in pieces

What arrives on a stream comes in pieces. Reading a number of items, and leaving out a number
of items, goes through as many pieces as it takes; what it gets and what it leaves depends only
on what the pieces are together.
-/

namespace Hearth.Lib

variable {α : Type}

/-- The next `n` items, if there are so many, and the pieces that are left. -/
def readPieces : (n : Nat) → List (List α) → Option (List α) × List (List α)
  | 0, pieces => (some [], pieces)
  | _ + 1, [] => (none, [])
  | n + 1, piece :: pieces =>
    if n + 1 ≤ piece.length then (some (piece.take (n + 1)), piece.drop (n + 1) :: pieces)
    else
      let (items, rest) := readPieces (n + 1 - piece.length) pieces
      (items.map fun items => piece ++ items, rest)

/-- The pieces that are left without the next `n` items. -/
def skipPieces : (n : Nat) → List (List α) → List (List α)
  | _, [] => []
  | n, piece :: pieces =>
    if n ≤ piece.length then piece.drop n :: pieces else skipPieces (n - piece.length) pieces

/-- If there are enough, the items are read. -/
lemma readPieces_some {n : Nat} {pieces : List (List α)} (h : n ≤ pieces.flatten.length) :
    (readPieces n pieces).1 = some (pieces.flatten.take n) ∧
      (readPieces n pieces).2.flatten = pieces.flatten.drop n := by
  induction pieces generalizing n with
  | nil =>
    obtain rfl := Nat.le_zero.mp h
    exact ⟨rfl, rfl⟩
  | cons piece pieces ih =>
    cases n with
    | zero => exact ⟨rfl, rfl⟩
    | succ n =>
      rw [List.flatten_cons, readPieces]
      split
      · next fits =>
          exact ⟨by rw [List.take_append_of_le_length
            fits], (List.drop_append_of_le_length fits).symm⟩
      · next beyond =>
        rw [List.flatten_cons, List.length_append] at h
        obtain ⟨items, left⟩ := ih (n := n + 1 - piece.length) (by omega)
        have whole : piece.length ≤ n + 1 := Nat.le_of_not_le beyond
        refine ⟨?_, ?_⟩
        · show ((readPieces (n + 1 - piece.length) pieces).1.map fun items => piece ++ items) = _
          rw [items, List.take_append, List.take_of_length_le whole]
          rfl
        · show (readPieces (n + 1 - piece.length) pieces).2.flatten = _
          rw [left, List.drop_append, List.drop_of_length_le whole, List.nil_append]

/-- If there are too few, they are used up. -/
lemma readPieces_none {n : Nat} {pieces : List (List α)} (h : pieces.flatten.length < n) :
    (readPieces n pieces).1 = none ∧ (readPieces n pieces).2.flatten = [] := by
  induction pieces generalizing n with
  | nil =>
    obtain ⟨n, rfl⟩ := Nat.exists_eq_add_one_of_ne_zero (Nat.ne_of_gt h)
    exact ⟨rfl, rfl⟩
  | cons piece pieces ih =>
    obtain ⟨n, rfl⟩ :=
      Nat.exists_eq_add_one_of_ne_zero (Nat.ne_of_gt (Nat.lt_of_le_of_lt (Nat.zero_le _) h))
    rw [List.flatten_cons, List.length_append] at h
    obtain ⟨items, left⟩ := ih (n := n + 1 - piece.length) (by omega)
    rw [readPieces, if_neg (by omega)]
    refine ⟨?_, left⟩
    show ((readPieces (n + 1 - piece.length) pieces).1.map fun items => piece ++ items) = _
    rw [items]
    rfl

/-- What is skipped is skipped of the whole. -/
lemma skipPieces_flatten (n : Nat) (pieces : List (List α)) :
    (skipPieces n pieces).flatten = pieces.flatten.drop n := by
  induction pieces generalizing n with
  | nil => exact List.drop_nil.symm
  | cons piece pieces ih =>
    rw [List.flatten_cons, skipPieces]
    split
    · next fits => exact (List.drop_append_of_le_length fits).symm
    · next beyond =>
        rw [ih, List.drop_append, List.drop_of_length_le (Nat.le_of_not_le beyond), List.nil_append]

end Hearth.Lib
