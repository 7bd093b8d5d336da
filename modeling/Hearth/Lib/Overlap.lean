import Hearth.Lib.Bytes

/-!
# Moving bytes within a memory

What a copy has done so far is a range of its indices, which grows by one at either end. A byte that
is read next is still the original one as long as the copy has not come to it at the destination.
-/

namespace Hearth.Lib

/-- The bytes with the indices `lo .. hi` are moved, and nothing else has changed. -/
structure Moved (m m' : Mem) (dst src lo hi : Nat) : Prop where
  ordered : lo ≤ hi
  copied : ∀ i, lo ≤ i → i < hi → m' (dst + i) = m (src + i)
  frame : ∀ a, (∀ i, lo ≤ i → i < hi → a ≠ dst + i) → m' a = m a

variable {m m' : Mem} {dst src lo hi : Nat}

/-- Nothing has been moved. -/
lemma Moved.refl (m : Mem) (dst src lo : Nat) : Moved m m dst src lo lo where
  ordered := Nat.le_refl lo
  copied _ ge lt := absurd lt (Nat.not_lt_of_le ge)
  frame _ _ := rfl

/-- The next byte above has been moved too. -/
lemma Moved.up (h : Moved m m' dst src lo hi) (unread : ∀ i, lo ≤ i → i < hi → src + hi ≠ dst + i) :
    Moved m (m'.write (dst + hi) [m' (src + hi)]) dst src lo (hi + 1) where
  ordered := Nat.le_succ_of_le h.ordered
  copied := by
    intro i ge lt
    rcases Nat.eq_or_lt_of_le (Nat.le_of_lt_succ lt) with rfl | lt
    · rw [Mem.write_byte]
      exact h.frame _ unread
    · rw [Mem.write_byte_ne (by omega)]
      exact h.copied i ge lt
  frame := by
    intro a outside
    rw [Mem.write_byte_ne (outside hi h.ordered (Nat.lt_succ_self hi))]
    exact h.frame a fun i ge lt => outside i ge (Nat.lt_succ_of_lt lt)

/-- The next byte below has been moved too. -/
lemma Moved.down (h : Moved m m' dst src (lo + 1) hi)
    (unread : ∀ i, lo < i → i < hi → src + lo ≠ dst + i) :
    Moved m (m'.write (dst + lo) [m' (src + lo)]) dst src lo hi where
  ordered := Nat.le_of_succ_le h.ordered
  copied := by
    intro i ge lt
    rcases Nat.eq_or_lt_of_le ge with rfl | gt
    · rw [Mem.write_byte]
      exact h.frame _ unread
    · rw [Mem.write_byte_ne (by omega)]
      exact h.copied i gt lt
  frame := by
    intro a outside
    rw [Mem.write_byte_ne (outside lo (Nat.le_refl lo) h.ordered)]
    exact h.frame a fun i ge lt => outside i (Nat.le_of_succ_le ge) lt

end Hearth.Lib
