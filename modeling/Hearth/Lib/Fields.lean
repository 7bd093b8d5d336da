import Hearth.Lib.Bytes

/-!
# Fields of a word

Numbers put into a word at fixed offsets, each within its own range of bits, do not disturb each
other: what is read back from a field is what was put there.
-/

namespace Hearth.Lib

variable {ι : Type} {shift width value : ι → Nat} {fields : List ι}

/-- The word that has each of these fields or-ed in. -/
def packInto (shift value : ι → Nat) (word : Nat) (fields : List ι) : Nat :=
  fields.foldl (fun w i => w ||| value i <<< shift i) word

/-- The bits of a field. -/
def fieldSpan (shift width : ι → Nat) (i : ι) : Span := ⟨shift i, width i⟩

/-- A bit of a packed word is one of the word or of a field. -/
lemma testBit_packInto (word j : Nat) :
    (packInto shift value word fields).testBit j = true ↔
      word.testBit j = true ∨ ∃ i ∈ fields, (value i <<< shift i).testBit j = true := by
  induction fields generalizing word with
  | nil => simp [packInto]
  | cons i fields ih =>
    show (packInto shift value (word ||| value i <<< shift i) fields).testBit j = true ↔ _
    rw [ih, Nat.testBit_or, Bool.or_eq_true, or_assoc, List.exists_mem_cons_iff]

/-- A field has no bits outside its range. -/
lemma mem_fieldSpan {i : ι} {j : Nat} (fits : value i < 2 ^ width i)
    (h : (value i <<< shift i).testBit j = true) :
    j ∈ fieldSpan shift width i := by
  rw [Nat.testBit_shiftLeft, Bool.and_eq_true, decide_eq_true_iff] at h
  refine ⟨h.1, ?_⟩
  by_contra far
  have high : value i < 2 ^ (j - shift i) :=
    fits.trans_le (Nat.pow_le_pow_right Nat.two_pos (by dsimp only [fieldSpan] at far; omega))
  rw [Nat.testBit_lt_two_pow high] at h
  exact Bool.noConfusion h.2

/-- The word is as wide as its fields reach. -/
lemma packInto_lt {size : Nat} (fits : ∀ i ∈ fields, value i < 2 ^ width i)
    (inside : ∀ i ∈ fields, shift i + width i ≤ size) :
    packInto shift value 0 fields < 2 ^ size := by
  apply Nat.lt_pow_two_of_testBit
  intro j hj
  by_contra h
  obtain h | ⟨i, hi, h⟩ := (testBit_packInto 0 j).mp (Bool.not_eq_false _ ▸ h)
  · rw [Nat.zero_testBit] at h
    cases h
  · have hm := mem_fieldSpan (fits i hi) h
    have := inside i hi
    have := hm.2
    dsimp only [fieldSpan] at this
    omega

/-- What is read back from a field is what was put there. -/
lemma field_packInto {i : ι} (hi : i ∈ fields) (fits : ∀ i ∈ fields, value i < 2 ^ width i)
    (apart : ∀ l ∈ fields, l ≠ i → (fieldSpan shift width l).Apart (fieldSpan shift width i)) :
    packInto shift value 0 fields >>> shift i &&& (2 ^ width i - 1) = value i := by
  apply Nat.eq_of_testBit_eq
  intro j
  rw [Nat.testBit_and, Nat.testBit_shiftRight, Nat.testBit_two_pow_sub_one]
  by_cases hj : j < width i
  · rw [decide_eq_true hj, Bool.and_true]
    apply Bool.eq_iff_iff.mpr
    rw [testBit_packInto]
    constructor
    · rintro (h | ⟨l, hl, h⟩)
      · rw [Nat.zero_testBit] at h
        cases h
      · have same : l = i := by
          by_contra hne
          refine apart l hl hne _ (mem_fieldSpan (fits l hl) h) ⟨?_, ?_⟩
          · exact Nat.le_add_right _ _
          · exact Nat.add_lt_add_left hj _
        rw [same, Nat.testBit_shiftLeft, Nat.add_sub_cancel_left, Bool.and_eq_true] at h
        exact h.2
    · intro h
      refine .inr ⟨i, hi, ?_⟩
      rw [Nat.testBit_shiftLeft, Nat.add_sub_cancel_left, h, Bool.and_true, decide_eq_true_iff]
      exact Nat.le_add_right _ _
  · rw [decide_eq_false hj, Bool.and_false, Nat.testBit_lt_two_pow]
    exact (fits i hi).trans_le (Nat.pow_le_pow_right Nat.two_pos (Nat.le_of_not_lt hj))

end Hearth.Lib
