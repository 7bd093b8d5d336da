import Mathlib

/-!
# Words

The words of a text are what is between its separators, without what is empty. A text is separators
only, or has a first word with a rest after it that is empty or starts with a separator.
-/

namespace Hearth.Lib

variable {α : Type} [DecidableEq α] {sep : α} {text word rest : List α}

/-- The words of a text. -/
def words (sep : α) (text : List α) : List (List α) :=
  (text.splitOn sep).filter fun word => word ≠ []

/-- The empty text has no words. -/
lemma words_nil : words sep [] = [] := rfl

/-- A separator in front makes no difference. -/
lemma words_sep_cons (text : List α) : words sep (sep :: text) = words sep text := by
  unfold words
  rw [List.splitOn_cons_eq_if_modifyHead, if_pos BEq.rfl]
  exact List.filter_cons_of_neg fun h => of_decide_eq_true h rfl

/-- Any number of separators in front makes no difference. -/
lemma words_replicate_append (k : Nat) (text : List α) :
    words sep (List.replicate k sep ++ text) = words sep text := by
  induction k with
  | zero => rfl
  | succ k ih => exact (words_sep_cons _).trans ih

/-- Separators only have no words. -/
lemma words_replicate (k : Nat) : words sep (List.replicate k sep) = [] := by
  have e : words sep (List.replicate k sep ++ []) = [] := words_replicate_append k []
  rw [List.append_nil] at e
  exact e

/-- What comes after a word: nothing, or a separator first. -/
def Ends (sep : α) (rest : List α) : Prop := ∀ c ∈ rest.head?, c = sep

/-- A word with a separator or nothing behind it is the first, and those of the rest follow. -/
lemma words_word_append (ne : word ≠ []) (inside : sep ∉ word) (ends : Ends sep rest) :
    words sep (word ++ rest) = word :: words sep rest := by
  cases rest with
  | nil =>
    unfold words
    rw [List.append_nil, List.splitOn_eq_singleton inside]
    exact List.filter_cons_of_pos (decide_eq_true ne)
  | cons c rest =>
    obtain rfl : c = sep := ends c rfl
    rw [words_sep_cons]
    unfold words
    rw [List.splitOn_append_cons_self_of_not_mem inside]
    exact List.filter_cons_of_pos (decide_eq_true ne)

/-- The separators at the start of a text, and its first word if it has one. -/
lemma words_cases (sep : α) (text : List α) : (∃ k, text = List.replicate k sep) ∨
    ∃ k word rest, text = List.replicate k sep ++ (word ++ rest) ∧ word ≠ [] ∧ sep ∉ word ∧
      Ends sep rest := by
  induction text with
  | nil => exact .inl ⟨0, rfl⟩
  | cons c text ih =>
    by_cases same : c = sep
    · subst same
      rcases ih with ⟨k, rfl⟩ | ⟨k, word, rest, rfl, h⟩
      · exact .inl ⟨k + 1, rfl⟩
      · exact .inr ⟨k + 1, word, rest, rfl, h⟩
    · right
      have ne : sep ≠ c := Ne.symm same
      rcases ih with ⟨k, rfl⟩ | ⟨k, word, rest, rfl, -, inside, ends⟩
      · refine ⟨0, [c], List.replicate k sep, rfl, List.cons_ne_nil _ _,
          fun h => ne (List.mem_singleton.mp h), ?_⟩
        intro d hd
        exact List.eq_of_mem_replicate (List.mem_of_mem_head? hd)
      · cases k with
        | zero =>
          have inside' : sep ∉ c :: word := fun h => (List.mem_cons.mp h).elim ne inside
          exact ⟨0, c :: word, rest, rfl, List.cons_ne_nil _ _, inside', ends⟩
        | succ k =>
          refine ⟨0, [c], _, rfl, List.cons_ne_nil _ _, fun h => ne (List.mem_singleton.mp h), ?_⟩
          intro d hd
          cases hd
          rfl

/-- A text with no word is separators only. -/
lemma eq_replicate_of_words (h : words sep text = []) : ∃ k, text = List.replicate k sep := by
  rcases words_cases sep text with blanks | ⟨k, word, rest, rfl, ne, inside, ends⟩
  · exact blanks
  · rw [words_replicate_append, words_word_append ne inside ends] at h
    cases h

end Hearth.Lib
