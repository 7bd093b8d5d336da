import Hearth.Lib.Bytes
import Hearth.Lib.ShellSort

/-!
# Sorting

`qsort` of `guests/doom/libc/stdlib.c`. It works on the bytes of an array and is given every
access to them: one that is not inside the array ends it with `none`. Its indices are those of an
array that exists, so that none of the products wraps. On the elements it is `shellSort`, which is
what `qsort_sorts` comes from.
-/

namespace Hearth.Doom
open Lib

/-- A byte of the object, which is read. -/
def load (object : Span) (x : Nat) (mem : Mem) : Option UInt8 :=
  if x ∈ object then some (mem x) else none

/-- A byte of the object, which is written. -/
def store (object : Span) (x : Nat) (byte : UInt8) (mem : Mem) : Option Mem :=
  if x ∈ object then some (mem.write x [byte]) else none

/-- What a comparison function sees of an element. -/
abbrev Element (size : Nat) : Type := { bytes : List UInt8 // bytes.length = size }

/-- The bytes of an element. -/
def readElement (x size : Nat) (mem : Mem) : Element size :=
  ⟨mem.read x size, Mem.read_length mem x size⟩

/-- The element that a comparison function is given a pointer to. -/
def loadElement (object : Span) (x size : Nat) (mem : Mem) : Option (Element size) :=
  if object.base ≤ x ∧ x + size ≤ object.base + object.len then
    some (readElement x size mem) else none

/-- The array of `n` elements at `base`. -/
def arrayOf (base n size : Nat) : Span := ⟨base, n * size⟩

/-- The bytes `k` of two elements for each `k < size`, exchanged through `t`. -/
def exchange (array : Span) : (x y size : Nat) → Mem → Option Mem
  | _, _, 0, mem => some mem
  | x, y, size + 1, mem => do
    let t ← load array x mem
    let mem ← store array x (← load array y mem) mem
    let mem ← store array y t mem
    exchange array (x + 1) (y + 1) size mem

section

variable (base n size : Nat) (cmp : Element size → Element size → Int)

/-- The loop over `j`. -/
def qsortInner (gap : Nat) (pos : 0 < gap) (j : Nat) (mem : Mem) : Option Mem :=
  if gap ≤ j then do
    let x ← loadElement (arrayOf base n size) (base + (j - gap) * size) size mem
    let y ← loadElement (arrayOf base n size) (base + j * size) size mem
    if cmp x y > 0 then do
      let mem ← exchange (arrayOf base n size) (base + (j - gap) * size) (base + j * size) size mem
      qsortInner gap pos (j - gap) mem
    else some mem
  else some mem
termination_by j

/-- The loop over `i`, with `count` turns to go. -/
def qsortPass (gap : Nat) (pos : 0 < gap) : (count i : Nat) → Mem → Option Mem
  | 0, _, mem => some mem
  | count + 1, i, mem => do
    let mem ← qsortInner base n size cmp gap pos i mem
    qsortPass gap pos count (i + 1) mem

/-- The loop over `gap`. -/
def qsortGaps (gap : Nat) (mem : Mem) : Option Mem :=
  if pos : 0 < gap then do
    let mem ← qsortPass base n size cmp gap pos (n - gap) gap mem
    qsortGaps (gap / 2) mem
  else some mem
termination_by gap
decreasing_by exact Nat.div_lt_self pos Nat.one_lt_two

/-- `qsort`. -/
def qsort (mem : Mem) : Option Mem := qsortGaps base n size cmp (n / 2) mem

end

/-! ## Exchanges -/

variable {base n size x y : Nat} {array : Span} {mem mem' : Mem}

/-- Two elements that do not overlap have changed places. -/
structure Exchanged (mem mem' : Mem) (x y size : Nat) : Prop where
  first : ∀ k < size, mem' (x + k) = mem (y + k)
  second : ∀ k < size, mem' (y + k) = mem (x + k)
  other : ∀ a, a ∉ (⟨x, size⟩ : Span) → a ∉ (⟨y, size⟩ : Span) → mem' a = mem a

/-- The exchange of two elements that share no byte, in the array. -/
lemma exchange_run (mem : Mem) (hx : Span.Inside ⟨x, size⟩ array) (hy : Span.Inside ⟨y, size⟩ array)
    (apart : x + size ≤ y ∨ y + size ≤ x) :
    ∃ mem', exchange array x y size mem = some mem' ∧ Exchanged mem mem' x y size := by
  -- one byte of each is exchanged, then the rest from the next addresses on
  induction size generalizing x y mem with
  | zero =>
    have none (P : Nat → Prop) : ∀ k < 0, P k := fun k h => absurd h (Nat.not_lt_zero k)
    exact ⟨mem, rfl, none _, none _, fun _ _ _ => rfl⟩
  | succ size ih =>
    have inx : x ∈ array := hx x ⟨Nat.le_refl x, Nat.lt_add_of_pos_right size.succ_pos⟩
    have iny : y ∈ array := hy y ⟨Nat.le_refl y, Nat.lt_add_of_pos_right size.succ_pos⟩
    have rest (z : Nat) : Span.Inside ⟨z + 1, size⟩ ⟨z, size + 1⟩ :=
      Span.inside_of_le (Nat.le_succ z) (by dsimp only; omega)
    obtain ⟨mem', run, ex⟩ :=
      ih ((mem.write x [mem y]).write y [mem x]) ((rest x).trans hx) ((rest y).trans hy)
      (by omega)
    have below (z w : Nat) (h : z < w) : z ∉ (⟨w, size⟩ : Span) :=
      fun h' => absurd h'.1 (Nat.not_le_of_lt h)
    have beyond (z w : Nat) (h : w + size ≤ z) : z ∉ (⟨w, size⟩ : Span) :=
      fun h' => absurd h'.2 (Nat.not_lt_of_le h)
    -- the rest touches neither first byte, for the two elements are apart
    have firstX : mem' x = mem y := by
      rw [ex.other x (below x _ (Nat.lt_succ_self x)), Mem.write_byte_ne (by omega), Mem.write_byte]
      rcases apart with h | h
      · exact below x _ (by omega)
      · exact beyond x _ (by omega)
    have firstY : mem' y = mem x := by
      rw [ex.other y, Mem.write_byte]
      · rcases apart with h | h
        · exact beyond y _ (by omega)
        · exact below y _ (by omega)
      · exact below y _ (Nat.lt_succ_self y)
    refine ⟨mem', ?_, ?_, ?_, ?_⟩
    · simp only [exchange, load, store, inx, iny, if_true, Option.bind_eq_bind, Option.bind_some]
      exact run
    · intro k hk
      cases k with
      | zero => exact firstX
      | succ k =>
        rw [show x + (k + 1) = x + 1 + k by omega, ex.first k (Nat.lt_of_succ_lt_succ hk),
          Mem.write_byte_ne (by omega), Mem.write_byte_ne (by omega),
          show y + 1 + k = y + (k + 1) by omega]
    · intro k hk
      cases k with
      | zero => exact firstY
      | succ k =>
        rw [show y + (k + 1) = y + 1 + k by omega, ex.second k (Nat.lt_of_succ_lt_succ hk),
          Mem.write_byte_ne (by omega), Mem.write_byte_ne (by omega),
          show x + 1 + k = x + (k + 1) by omega]
    · intro a hax hay
      have nex : a ≠ x := by
        rintro rfl
        exact hax ⟨Nat.le_refl a, Nat.lt_add_of_pos_right size.succ_pos⟩
      have ney : a ≠ y := by
        rintro rfl
        exact hay ⟨Nat.le_refl a, Nat.lt_add_of_pos_right size.succ_pos⟩
      rw [ex.other a (fun h => hax (rest x a h)) (fun h => hay (rest y a h)), Mem.write_byte_ne ney,
        Mem.write_byte_ne nex]

/-! ## Elements -/

/-- The bytes of an element. -/
def element (base size : Nat) (mem : Mem) (i : Nat) : Element size :=
  readElement (base + i * size) size mem

/-- The elements in order. -/
def elements (base n size : Nat) (mem : Mem) : List (Element size) :=
  (List.range n).map (element base size mem)

variable {i j k gap : Nat} {pos : 0 < gap} {cmp : Element size → Element size → Int}

/-- An element lies in the array. -/
lemma element_inside (hi : i < n) : Span.Inside ⟨base + i * size, size⟩ (arrayOf base n size) := by
  apply Span.inside_of_le
  · exact Nat.le_add_right base (i * size)
  · show base + i * size + size ≤ base + n * size
    have := Nat.mul_le_mul_right size hi
    rw [Nat.succ_mul] at this
    omega

/-- An element ends before the next starts. -/
lemma element_apart (base size : Nat) (h : i < j) : base + i * size + size ≤ base + j * size := by
  have := Nat.mul_le_mul_right size h
  rw [Nat.succ_mul] at this
  omega

/-- Elements with the same bytes are the same. -/
lemma element_eq (h : ∀ l < size, mem' (base + i * size + l) = mem (base + k * size + l)) :
    element base size mem' i = element base size mem k := by
  apply Subtype.ext
  apply List.map_congr_left
  intro l hl
  exact h l (List.mem_range.mp hl)

/-- Exchanged bytes are exchanged elements. -/
lemma Exchanged.element (h : Exchanged mem mem' (base + i * size) (base + j * size) size) :
    element base size mem' = element base size mem ∘ Equiv.swap i j := by
  funext k
  show Doom.element base size mem' k = Doom.element base size mem (Equiv.swap i j k)
  by_cases hki : k = i
  · rw [hki, Equiv.swap_apply_left]
    exact element_eq h.first
  · by_cases hkj : k = j
    · rw [hkj, Equiv.swap_apply_right]
      exact element_eq h.second
    · rw [Equiv.swap_apply_of_ne_of_ne hki hkj]
      apply element_eq
      intro l hl
      have outside (i : Nat) (hne : k ≠ i) :
        base + k * size + l ∉ (⟨base + i * size, size⟩ : Span) := by
        rintro ⟨ge, lt⟩
        dsimp only at ge lt
        rcases Nat.lt_or_gt_of_ne hne with h | h
        · have := element_apart base size h
          omega
        · have := element_apart base size h
          omega
      exact h.other _ (outside i hki) (outside j hkj)

/-- "Not less" of a comparison function. -/
def isGreater (cmp : Element size → Element size → Int) (x y : Element size) : Bool :=
  decide (cmp x y > 0)

/-- Only the array has changed. -/
def Within (base n size : Nat) (mem mem' : Mem) : Prop :=
  ∀ a, a ∉ arrayOf base n size → mem' a = mem a

/-- The program returns, and has done to the elements what `f` does. -/
def Does (base n size : Nat) (mem : Mem) (run : Option Mem)
    (f : (Nat → Element size) → Nat → Element size) : Prop :=
  ∃ mem', run = some mem' ∧ Within base n size mem mem' ∧
    element base size mem' = f (element base size mem)

/-- An element of the array is read. -/
lemma loadElement_run (hi : i < n) (mem : Mem) :
    loadElement (arrayOf base n size) (base + i * size) size mem =
      some (element base size mem i) := by
  apply if_pos
  refine ⟨Nat.le_add_right base (i * size), ?_⟩
  show base + i * size + size ≤ base + n * size
  have := Nat.mul_le_mul_right size hi
  rw [Nat.succ_mul] at this
  omega

/-- The inner loop sifts, by induction on the place. -/
lemma qsortInner_does (pos : 0 < gap) (mem : Mem) (hj : j < n) :
    Does base n size mem (qsortInner base n size cmp gap pos j mem)
      (sift (isGreater cmp) gap pos j) := by
  induction j using Nat.strong_induction_on generalizing mem with
  | _ j ih =>
    rw [Does, qsortInner, sift]
    by_cases ge : gap ≤ j
    · have less : j - gap < n := Nat.lt_of_le_of_lt (Nat.sub_le j gap) hj
      have lower : j - gap < j := Nat.sub_lt_of_pos_le pos ge
      rw [if_pos ge, loadElement_run less, loadElement_run hj]
      by_cases greater : cmp (element base size mem (j - gap)) (element base size mem j) > 0
      · obtain ⟨mem', run, ex⟩ := exchange_run mem (element_inside less) (element_inside hj)
          (.inl (element_apart base size lower))
        obtain ⟨mem'', run', within, does⟩ := ih (j - gap) lower mem' less
        refine ⟨mem'', ?_, ?_, ?_⟩
        · rw [Option.bind_eq_bind, Option.bind_some, Option.bind_eq_bind, Option.bind_some,
            if_pos greater, run]
          exact run'
        · intro a outside
          rw [within a outside]
          exact ex.other a (fun h => outside (element_inside less a h))
            (fun h => outside (element_inside hj a h))
        · rw [does, ex.element, if_pos ⟨ge, decide_eq_true greater⟩]
      · refine ⟨mem, ?_, fun _ _ => rfl, ?_⟩
        · rw [Option.bind_eq_bind, Option.bind_some, Option.bind_eq_bind, Option.bind_some,
            if_neg greater]
        · rw [if_neg fun h => greater (of_decide_eq_true h.2)]
    · rw [if_neg ge, if_neg fun h => ge h.1]
      exact ⟨mem, rfl, fun _ _ => rfl, rfl⟩

/-- The loop over the elements is a pass. -/
lemma qsortPass_does (pos : 0 < gap) (mem : Mem) {count i : Nat} (h : i + count ≤ n ∨ count = 0) :
    Does base n size mem (qsortPass base n size cmp gap pos count i mem)
      (siftPass (isGreater cmp) gap pos count i) := by
  induction count generalizing i mem with
  | zero => exact ⟨mem, rfl, fun _ _ => rfl, rfl⟩
  | succ count ih =>
    obtain ⟨mem', run, within, does⟩ :
      Does base n size mem (qsortInner base n size cmp gap pos i mem)
      (sift (isGreater cmp) gap pos i) := qsortInner_does pos mem (by omega)
    obtain ⟨mem'', run', within', does'⟩ := @ih mem' (i + 1) (by omega)
    refine ⟨mem'', ?_, fun a outside => (within' a outside).trans (within a outside), ?_⟩
    · rw [qsortPass, run]
      exact run'
    · rw [does', does]
      rfl

/-- The loop over the gaps is the sort. -/
lemma qsortGaps_does (base n size : Nat) (cmp : Element size → Element size → Int)
    (gap : Nat) (mem : Mem) :
    Does base n size mem (qsortGaps base n size cmp gap mem) (shellSort (isGreater cmp) n gap) := by
  induction gap using Nat.strong_induction_on generalizing mem with
  | _ gap ih =>
    rw [Does, qsortGaps, shellSort]
    split
    · next pos =>
      obtain ⟨mem', run, within, does⟩ :
        Does base n size mem (qsortPass base n size cmp gap pos (n - gap) gap mem)
        (siftPass (isGreater cmp) gap pos (n - gap) gap) := qsortPass_does pos mem (by omega)
      obtain ⟨mem'', run', within', does'⟩ := ih (gap / 2) (Nat.div_lt_self pos Nat.one_lt_two) mem'
      refine ⟨mem'', ?_, fun a outside => (within' a outside).trans (within a outside), ?_⟩
      · rw [run]
        exact run'
      · rw [does', does]
    · exact ⟨mem, rfl, fun _ _ => rfl, rfl⟩

/-- The elements that a comparison function does not find greater come in a total preorder. -/
structure TotalPreorder (cmp : Element size → Element size → Int) : Prop where
  total : ∀ x y, cmp x y ≤ 0 ∨ cmp y x ≤ 0
  trans : ∀ x y z, cmp x y ≤ 0 → cmp y z ≤ 0 → cmp x z ≤ 0

/-- Not greater is less or equal. -/
lemma isGreater_eq_false {x y : Element size} : isGreater cmp x y = false ↔ cmp x y ≤ 0 := by
  unfold isGreater
  rw [decide_eq_false_iff_not, gt_iff_lt, not_lt]

/-- A comparison that is a total preorder is one for the sort. -/
lemma TotalPreorder.preorders (h : TotalPreorder cmp) : Preorders (isGreater cmp) where
  total := by
    intro x y hgt
    apply isGreater_eq_false.mpr
    apply (h.total x y).resolve_left
    exact not_le_of_gt (of_decide_eq_true hgt)
  trans := by
    intro x y z hxy hyz
    apply isGreater_eq_false.mpr
    exact h.trans x y z (isGreater_eq_false.mp hxy) (isGreater_eq_false.mp hyz)

/-- `qsort` ends, stays in the array, and leaves its elements in order. -/
theorem qsort_sorts (base n size : Nat) (cmp : Element size → Element size → Int)
    (order : TotalPreorder cmp) (mem : Mem) :
    ∃ mem', qsort base n size cmp mem = some mem' ∧
      (∀ a, a ∉ arrayOf base n size → mem' a = mem a) ∧
      (elements base n size mem').Perm (elements base n size mem) ∧
      (elements base n size mem').Pairwise fun x y => cmp x y ≤ 0 := by
  obtain ⟨mem', run, within, does⟩ := qsortGaps_does base n size cmp (n / 2) mem
  refine ⟨mem', run, within, ?_, ?_⟩
  · unfold elements
    rw [does]
    exact (shellSort_rearranged n (n / 2) (element base size mem)).perm
  · have ordered : Ordered (isGreater cmp) n (element base size mem') := by
      rw [does]
      exact shellSort_ordered order.preorders (by omega) _
    apply List.pairwise_map.mpr
    apply List.pairwise_iff_getElem.mpr
    intro p q hp hq hpq
    rw [List.length_range] at hq
    rw [List.getElem_range, List.getElem_range]
    exact isGreater_eq_false.mp (ordered p q hpq hq)

/-- Bytes in the order of their values. -/
def byteOrder (x y : Element 1) : Int := (x.val.headD 0).toNat - (y.val.headD 0).toNat

/-- Comparing bytes modulo 100 is a total preorder. -/
lemma byteOrder_total : TotalPreorder byteOrder where
  total x y := by
    unfold byteOrder
    omega
  trans x y z hxy hyz := by
    unfold byteOrder at *
    omega

/-- Five bytes that are out of order. -/
def shuffled : Mem := fun a => UInt8.ofNat (100 * a)

/-- Five bytes in no order, two of which compare equal. -/
theorem byteOrder_sorts :
    (elements 0x1000 5 1 shuffled).map Subtype.val = [[0], [100], [200], [44], [144]] ∧
      ∃ mem', qsort 0x1000 5 1 byteOrder shuffled = some mem' ∧
        (elements 0x1000 5 1 mem').map Subtype.val = [[0], [44], [100], [144], [200]] ∧
        (elements 0x1000 5 1 mem').Perm (elements 0x1000 5 1 shuffled) ∧
        (elements 0x1000 5 1 mem').Pairwise fun x y => byteOrder x y ≤ 0 := by
  have sorts : (qsort 0x1000 5 1 byteOrder shuffled).map
    (fun mem' => (elements 0x1000 5 1 mem').map Subtype.val) =
      some [[0], [44], [100], [144], [200]] := by decide +kernel
  obtain ⟨mem', run, -, perm, sorted⟩ := qsort_sorts 0x1000 5 1 byteOrder byteOrder_total shuffled
  rw [run] at sorts
  exact ⟨by decide, mem', run, Option.some.inj sorts, perm, sorted⟩

end Hearth.Doom
