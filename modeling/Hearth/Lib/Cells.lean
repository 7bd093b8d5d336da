import Mathlib

/-!
# Cells

An array whose indices are checked at each access, against the function on its indices that
it stands for; and a position that moves on by itself with each item written at it,
whatever the cells are indexed by.
-/

namespace Hearth.Lib

variable {α π : Type} {n : Nat}

/-! ## Checked indices -/

/-- The array with `x` at this index, if it is inside. -/
def put (cells : Vector α n) (index : Nat) (x : α) : Option (Vector α n) :=
  if h : index < n then some (cells.set index x h) else none

/-- The cells are the values of `f`. -/
def Holds (cells : Vector α n) (f : Fin n → α) : Prop :=
  ∀ index : Fin n, cells[index.val]? = some (f index)

variable {cells : Vector α n} {f : Fin n → α}

/-- A cell in range is written, and no other. -/
lemma put_getElem? {index : Nat} (h : index < n) (x : α) (cells : Vector α n) :
    ∃ cells', put cells index x = some cells' ∧
      ∀ other, cells'[other]? = if index = other then some x else cells[other]? := by
  refine ⟨cells.set index x h, dif_pos h, fun other => ?_⟩
  apply Vector.getElem?_set

/-- Cells that hold a function hold its update. -/
lemma Holds.put (h : Holds cells f) (index : Fin n) (x : α) :
    ∃ cells', put cells index.val x = some cells' ∧ Holds cells' (Function.update f index x) := by
  obtain ⟨cells', written, get⟩ := put_getElem? index.isLt x cells
  refine ⟨cells', written, fun other => (get other.val).trans ?_⟩
  by_cases same : index = other
  · subst same
    rw [if_pos rfl, Function.update_self]
  · rw [if_neg fun e => same (Fin.ext e), h other, Function.update_of_ne (Ne.symm same)]

/-- A cell has the value of the function. -/
lemma Holds.getElem (h : Holds cells f) (index : Fin n) : cells[index] = f index := by
  have get := h index
  rw [Vector.getElem?_eq_getElem index.isLt] at get
  exact Option.some.inj get

/-- Cells that are all alike hold a constant. -/
lemma holds_replicate (x : α) : Holds (Vector.replicate n x) fun _ => x := by
  intro index
  rw [Vector.getElem?_eq_getElem index.isLt, Vector.getElem_replicate]

section Around

variable {front back : List α} {old : α}

/-- A cell between what is in front of it and what is behind it. -/
lemma getElem?_between (h : cells.toList = front ++ old :: back) :
    cells[front.length]? = some old := by
  rw [← Vector.getElem?_toList, h, List.getElem?_append_right (Nat.le_refl _), Nat.sub_self]
  rfl

/-- What is in front of a cell is fewer cells than there are. -/
lemma length_lt_between (h : cells.toList = front ++ old :: back) : front.length < n := by
  have hlen := congrArg List.length h
  rw [Vector.length_toList, List.length_append] at hlen
  rw [hlen]
  exact Nat.lt_add_of_pos_right (Nat.zero_lt_succ _)

/-- The cell behind `front` is set. -/
lemma set_between (h : cells.toList = front ++ old :: back) (x : α) (inside : front.length < n) :
    (cells.set front.length x inside).toList = front ++ x :: back := by
  rw [Vector.toList_set, h, List.set_append_right _ _ (Nat.le_refl _), Nat.sub_self]
  rfl

/-- The cell behind `front` is set through an index that is checked. -/
lemma put_between (h : cells.toList = front ++ old :: back) (x : α) :
    ∃ cells', put cells front.length x = some cells' ∧ cells'.toList = front ++ x :: back :=
  ⟨_, dif_pos (length_lt_between h), set_between h x _⟩

end Around

/-! ## A position that moves on -/

section Cursor

variable [DecidableEq π] (next : π → π)

/-- The items are written at the position, which goes on to the next with each. -/
def fill : List α → (π → α) × π → (π → α) × π
  | [], state => state
  | x :: items, (f, position) => fill items (Function.update f position x, next position)

variable {next} {items : List α}

/-- The position has gone on once for each item. -/
lemma fill_position (items : List α) (f : π → α) (position : π) :
    (fill next items (f, position)).2 = next^[items.length] position := by
  induction items generalizing f position with
  | nil => rfl
  | cons x items ih => exact ih (Function.update f position x) (next position)

/-- Cells that the position does not come to are kept. -/
lemma fill_outside (items : List α) (f : π → α) {position cell : π}
    (h : ∀ k < items.length, next^[k] position ≠ cell) :
    (fill next items (f, position)).1 cell = f cell := by
  induction items generalizing f position with
  | nil => rfl
  | cons x items ih =>
    have first : position ≠ cell := h 0 (Nat.zero_lt_succ _)
    show (fill next items (Function.update f position x, next position)).1 cell = _
    rw [ih (Function.update f position x) fun k hk => h (k + 1) (Nat.succ_lt_succ hk),
      Function.update_of_ne first.symm]

/-- A cell has the item that was written when the position was there, if the
position does not come back to it. -/
lemma fill_inside (items : List α) (f : π → α) {position : π} {k : Nat} (hk : k < items.length)
    (once : ∀ j < items.length, k < j → next^[j] position ≠ next^[k] position) :
    (fill next items (f, position)).1 (next^[k] position) = items[k] := by
  induction items generalizing f position k with
  | nil => cases hk
  | cons x items ih =>
    cases k with
    | zero =>
      have kept := fill_outside items (Function.update f position x)
        fun j hj => once (j + 1) (Nat.succ_lt_succ hj) j.succ_pos
      exact kept.trans (Function.update_self ..)
    | succ k =>
      apply ih (Function.update f position x) (Nat.lt_of_succ_lt_succ hk)
      intro j hj later
      exact once (j + 1) (Nat.succ_lt_succ hj) (Nat.succ_lt_succ later)

end Cursor

end Hearth.Lib
