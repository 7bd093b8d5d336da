import Mathlib

/-!
# Shell sort

The algorithm on a function of the indices, with exchanges. Whatever the gaps are, the items
are only rearranged; and the last pass, with gap 1, is an insertion sort, so it sorts what
the passes before it have left.
-/

namespace Hearth.Lib

variable {α : Type} (greater : α → α → Bool)

/-- The item at `j` goes down in steps of `gap`, as long as the one before it is greater. -/
def sift (gap : Nat) (pos : 0 < gap) (j : Nat) (a : Nat → α) : Nat → α :=
  if gap ≤ j ∧ greater (a (j - gap)) (a j) then
    sift gap pos (j - gap) (a ∘ Equiv.swap (j - gap) j) else a
termination_by j

/-- The items at `i`, `i + 1` and so on, `count` of them, are sifted in turn. -/
def siftPass (gap : Nat) (pos : 0 < gap) : (count i : Nat) → (Nat → α) → (Nat → α)
  | 0, _, a => a
  | count + 1, i, a => siftPass gap pos count (i + 1) (sift greater gap pos i a)

/-- A pass for each gap, which is halved until it is 0. -/
def shellSort (n gap : Nat) (a : Nat → α) : Nat → α :=
  if pos : 0 < gap then shellSort n (gap / 2) (siftPass greater gap pos (n - gap) gap a) else a
termination_by gap
decreasing_by exact Nat.div_lt_self pos Nat.one_lt_two

/-! ## The items are kept -/

/-- The first `n` items in another order. -/
def Rearranged (n : Nat) (a a' : Nat → α) : Prop :=
  ∃ σ : Equiv.Perm Nat, (∀ i, n ≤ i → σ i = i) ∧ a' = a ∘ σ

variable {greater} {n gap j : Nat} {pos : 0 < gap} {a a' a'' : Nat → α}

/-- Doing nothing is a rearrangement. -/
lemma Rearranged.refl (n : Nat) (a : Nat → α) : Rearranged n a a := ⟨1, fun _ _ => rfl, rfl⟩

/-- Two rearrangements are one. -/
lemma Rearranged.trans (h : Rearranged n a a') (h' : Rearranged n a' a'') : Rearranged n a a'' := by
  obtain ⟨σ, fixed, rfl⟩ := h
  obtain ⟨τ, fixed', rfl⟩ := h'
  refine ⟨σ * τ, fun i hi => ?_, rfl⟩
  rw [Equiv.Perm.mul_apply, fixed' i hi, fixed i hi]

/-- Exchanging two elements rearranges them. -/
lemma Rearranged.swap {i : Nat} (hi : i < n) (hj : j < n) :
    Rearranged n a (a ∘ Equiv.swap i j) := by
  refine ⟨Equiv.swap i j, fun k hk => ?_, rfl⟩
  apply Equiv.swap_apply_of_ne_of_ne
  · exact (Nat.lt_of_lt_of_le hi hk).ne'
  · exact (Nat.lt_of_lt_of_le hj hk).ne'

/-- As lists, they are permutations. -/
lemma Rearranged.perm (h : Rearranged n a a') :
    ((List.range n).map a').Perm ((List.range n).map a) := by
  obtain ⟨σ, fixed, rfl⟩ := h
  have below (i : Nat) (hi : i < n) : σ i < n := by
    apply Nat.lt_of_not_le
    intro ge
    have e := σ.injective (fixed (σ i) ge)
    omega
  have range : ((List.range n).map σ).Perm (List.range n) := by
    apply List.Subperm.perm_of_length_le
    · apply (List.Nodup.map σ.injective List.nodup_range).subperm
      intro k hk
      obtain ⟨i, hi, rfl⟩ := List.mem_map.mp hk
      exact List.mem_range.mpr (below i (List.mem_range.mp hi))
    · rw [List.length_map]
  have := range.map a
  rwa [List.map_map] at this

/-- Sifting an element in rearranges. -/
lemma sift_rearranged (hj : j < n) : Rearranged n a (sift greater gap pos j a) := by
  induction j using Nat.strong_induction_on generalizing a with
  | _ j ih =>
    rw [sift]
    split
    · next h =>
      have less : j - gap < n := Nat.lt_of_le_of_lt (Nat.sub_le j gap) hj
      exact (Rearranged.swap less hj).trans (ih (j - gap) (Nat.sub_lt_of_pos_le pos h.1) less)
    · exact .refl n a

/-- A pass rearranges, by induction on the elements it has left. -/
lemma siftPass_rearranged {count i : Nat} (h : i + count ≤ n ∨ count = 0) :
    Rearranged n a (siftPass greater gap pos count i a) := by
  induction count generalizing i a with
  | zero => exact .refl n a
  | succ count ih => exact (sift_rearranged (by omega)).trans (ih (by omega))

/-- The whole sort rearranges, by induction on the gap. -/
lemma shellSort_rearranged (n gap : Nat) (a : Nat → α) :
    Rearranged n a (shellSort greater n gap a) := by
  induction gap using Nat.strong_induction_on generalizing a with
  | _ gap ih =>
    rw [shellSort]
    split
    · next pos => exact (siftPass_rearranged (by omega)).trans (ih (gap / 2)
        (Nat.div_lt_self pos Nat.one_lt_two) _)
    · exact .refl n a

/-! ## The last pass sorts -/

/-- What "not greater" has to be like. -/
structure Preorders (greater : α → α → Bool) : Prop where
  total : ∀ x y, greater x y = true → greater y x = false
  trans : ∀ x y z, greater x y = false → greater y z = false → greater x z = false

/-- The items below `n` are in order. -/
def Ordered (greater : α → α → Bool) (n : Nat) (a : Nat → α) : Prop :=
  ∀ p q, p < q → q < n → greater (a p) (a q) = false

/-- In order but for the item at `j`, which is not greater than those after it. -/
structure OrderedBut (greater : α → α → Bool) (n j : Nat) (a : Nat → α) : Prop where
  others : ∀ p q, p < q → q < n → p ≠ j → q ≠ j → greater (a p) (a q) = false
  after : ∀ q, j < q → q < n → greater (a j) (a q) = false

/-- An exchange moves the element that is out of order one place down. -/
lemma OrderedBut.swap (order : Preorders greater) (h : OrderedBut greater n (j + 1) a)
    (hgt : greater (a j) (a (j + 1)) = true) :
    OrderedBut greater n j (a ∘ Equiv.swap j (j + 1)) := by
  have low : (a ∘ Equiv.swap j (j + 1)) j = a (j + 1) := congrArg a (Equiv.swap_apply_left ..)
  have high : (a ∘ Equiv.swap j (j + 1)) (j + 1) = a j := congrArg a (Equiv.swap_apply_right ..)
  have other (k : Nat) (h1 : k ≠ j) (h2 : k ≠ j + 1) : (a ∘ Equiv.swap j (j + 1)) k = a k :=
    congrArg a (Equiv.swap_apply_of_ne_of_ne h1 h2)
  constructor
  · intro p q hpq hq hp' hq'
    by_cases ep : p = j + 1
    · subst ep
      rw [high, other q hq' (by omega)]
      exact h.others j q (by omega) hq (by omega) (by omega)
    · by_cases eq : q = j + 1
      · subst eq
        rw [high, other p hp' ep]
        exact h.others p j (by omega) (by omega) (by omega) (by omega)
      · rw [other p hp' ep, other q hq' eq]
        exact h.others p q hpq hq ep eq
  · intro q hjq hq
    rw [low]
    by_cases eq : q = j + 1
    · subst eq
      rw [high]
      exact order.total _ _ hgt
    · rw [other q (by omega) eq]
      exact h.after q (by omega) hq

/-- The item is where it belongs. -/
lemma OrderedBut.done (order : Preorders greater) (h : OrderedBut greater n j a)
    (stop : ∀ p, p + 1 = j → greater (a p) (a j) = false) : Ordered greater n a := by
  intro p q hpq hq
  by_cases ep : p = j
  · subst ep
    exact h.after q hpq hq
  · by_cases eq : q = j
    · subst eq
      have last : greater (a (q - 1)) (a q) = false := stop (q - 1) (by omega)
      rcases Nat.eq_or_lt_of_le (Nat.le_sub_one_of_lt hpq) with e | lt
      · rw [e]
        exact last
      · exact order.trans _ _ _ (h.others p (q - 1) lt (by omega) ep (by omega)) last
    · exact h.others p q hpq hq ep eq

/-- With a gap of one sifting leaves what it has passed in order. -/
lemma sift_ordered (order : Preorders greater) (h : OrderedBut greater n j a) :
    Ordered greater n (sift greater 1 Nat.one_pos j a) := by
  induction j generalizing a with
  | zero =>
    rw [sift, if_neg fun h => Nat.not_succ_le_zero 0 h.1]
    exact h.done order fun p hp => absurd hp (Nat.succ_ne_zero p)
  | succ j ih =>
    rw [sift]
    split
    · next hgt => exact ih (h.swap order hgt.2)
    · next stop =>
      apply h.done order
      intro p hp
      cases hp
      exact Bool.eq_false_of_not_eq_true fun hgt => stop ⟨Nat.le_add_left 1 j, hgt⟩

/-- The item after those that are in order may be anything. -/
lemma Ordered.next (h : Ordered greater n a) : OrderedBut greater (n + 1) n a where
  others p q hpq hq _ hq' := h p q hpq (Nat.lt_of_le_of_ne (Nat.le_of_lt_succ hq) hq')
  after _ gt lt := absurd gt (Nat.not_lt_of_le (Nat.le_of_lt_succ lt))

/-- With a gap of one the pass leaves the whole in order. -/
lemma siftPass_ordered (order : Preorders greater) {count i : Nat} (h : Ordered greater i a) :
    Ordered greater (i + count) (siftPass greater 1 Nat.one_pos count i a) := by
  induction count generalizing i a with
  | zero => exact h
  | succ count ih =>
    have e : i + (count + 1) = i + 1 + count := by omega
    rw [e]
    exact ih (sift_ordered order h.next)

/-- The last gap is 1, if there is any. -/
theorem shellSort_ordered (order : Preorders greater) (h : 0 < gap ∨ n ≤ 1) (a : Nat → α) :
    Ordered greater n (shellSort greater n gap a) := by
  induction gap using Nat.strong_induction_on generalizing a with
  | _ gap ih =>
    rw [shellSort]
    split
    · next pos =>
      by_cases more : 0 < gap / 2
      · exact ih (gap / 2) (Nat.div_lt_self pos Nat.one_lt_two) (.inl more) _
      · obtain rfl : gap = 1 := by omega
        rw [shellSort, dif_neg more]
        have first : Ordered greater 1 a := fun p q hpq hq => by omega
        intro p q hpq hq
        exact siftPass_ordered order first p q hpq (by omega)
    · next none =>
      intro p q hpq hq
      omega

end Hearth.Lib
