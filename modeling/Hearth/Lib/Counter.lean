import Mathlib

/-!
# Counters of 16 bits

A counter that runs for ever is kept modulo `2 ^ 16`, and selects a slot of a ring
whose size divides `2 ^ 16`. What the wrapped counters still say about the true
ones, as long as these are close.
-/

namespace Hearth.Lib

variable {a b num : Nat}

/-- A count is kept modulo 2^16. -/
@[simp] lemma ofNat16_toNat (a : Nat) : (UInt16.ofNat a).toNat = a % 65536 := UInt16.toNat_ofNat'

/-- The next one wraps. -/
lemma ofNat16_succ (a : Nat) : UInt16.ofNat (a + 1) = UInt16.ofNat a + 1 := by
  apply UInt16.toNat_inj.mp
  rw [UInt16.toNat_add, ofNat16_toNat, ofNat16_toNat, UInt16.toNat_one]
  omega

/-- The distance of two counters is the distance of the wrapped ones. -/
lemma ofNat16_sub (h : a ≤ b) (hlt : b - a < 65536) :
    (UInt16.ofNat b - UInt16.ofNat a).toNat = b - a := by
  rw [UInt16.toNat_sub, ofNat16_toNat, ofNat16_toNat]
  omega

/-- Counters that are close are equal if the wrapped ones are. -/
lemma ofNat16_inj (h : a ≤ b) (hlt : b - a < 65536)
    (e : UInt16.ofNat a = UInt16.ofNat b) : a = b := by
  have e' := congrArg UInt16.toNat e
  rw [ofNat16_toNat, ofNat16_toNat] at e'
  omega

/-- The slot of a wrapped counter is the slot of the counter. -/
lemma ofNat16_slot (hd : num ∣ 65536) (a : Nat) : (UInt16.ofNat a).toNat % num = a % num := by
  rw [ofNat16_toNat, Nat.mod_mod_of_dvd _ hd]

/-- Counters less than a ring apart have different slots. -/
lemma slot_ne (hlt : a < b) (hnear : b < a + num) : b % num ≠ a % num := by
  intro e
  have hdvd : num ∣ b - a := (Nat.modEq_iff_dvd' (Nat.le_of_lt hlt)).mp e.symm
  have := Nat.le_of_dvd (by omega) hdvd
  omega

end Hearth.Lib
