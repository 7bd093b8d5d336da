import Hearth.Doom.Heap
import Hearth.Lib.Overlap

/-!
# Copying memory

`memcpy` and `memmove` of `guests/doom/libc/string.c`, which are `rep movsb` upwards or
downwards. Copying upwards is right unless the destination starts within the source, and copying
downwards is right if it does.
-/

namespace Hearth.Doom
open Lib

/-- What a string instruction works on: its registers, the direction flag and the memory. -/
structure StringOp where
  rdi : UInt64
  rsi : UInt64
  rcx : UInt64
  df : Bool
  mem : Mem

namespace StringOp

/-- `movsb`, and the count of its `rep` prefix -/
def movsb (m : StringOp) : StringOp :=
  { m with
    rdi := if m.df then m.rdi - 1 else m.rdi + 1
    rsi := if m.df then m.rsi - 1 else m.rsi + 1
    rcx := m.rcx - 1
    mem := m.mem.write m.rdi.toNat [m.mem m.rsi.toNat] }

/-- `rep movsb`: until the count is 0 -/
def repMovsb (m : StringOp) : StringOp := movsb^[m.rcx.toNat] m

end StringOp

namespace Libc

/-- `memcpy`; it returns `dst`. -/
def memcpy (dst src n : UInt64) (mem : Mem) : UInt64 × Mem :=
  (dst, (StringOp.repMovsb ⟨dst, src, n, false, mem⟩).mem)

/-- `memmove`. -/
def memmove (dst src n : UInt64) (mem : Mem) : UInt64 × Mem :=
  if n ≤ dst - src then memcpy dst src n mem
  else (dst, (StringOp.repMovsb ⟨dst + n - 1, src + n - 1, n, true, mem⟩).mem)

end Libc

/-! ## Addresses -/

/-- An address further up, as long as it does not wrap. -/
lemma toNat_up {a : UInt64} {k : Nat} (h : a.toNat + k < 2 ^ 64) :
    (a + UInt64.ofNat k).toNat = a.toNat + k := by
  rw [UInt64.toNat_add, UInt64.toNat_ofNat_of_lt' (by show k < 2 ^ 64; omega), Nat.mod_eq_of_lt h]

/-- The address one further down from the end. -/
lemma sub_next (a b : UInt64) : a - (b + 1) = a - b - 1 := by grind

/-- An address further down, from the end. -/
lemma toNat_down {a n : UInt64} {k : Nat} (h : a.toNat + n.toNat ≤ 2 ^ 64) (hk : k < n.toNat) :
    (a + n - 1 - UInt64.ofNat k).toNat = a.toNat + (n.toNat - (k + 1)) := by
  have back : UInt64.ofNat (n.toNat - (k + 1)) = n - (UInt64.ofNat k + 1) := by
    rw [UInt64.ofNat_sub hk, UInt64.ofNat_toNat]
    exact congrArg (n - ·) (UInt64.ofNat_add k 1)
  have last : a + n - 1 - UInt64.ofNat k = a + UInt64.ofNat (n.toNat - (k + 1)) := by
    rw [back]
    grind
  rw [last, toNat_up (by omega)]

namespace StringOp

variable {m : StringOp} {dst src n : UInt64} {mem : Mem}

/-- After `k` bytes upwards. -/
lemma movsb_up {k : Nat} (hk : k ≤ n.toNat) (hd : dst.toNat + n.toNat ≤ 2 ^ 64)
    (hs : src.toNat + n.toNat ≤ 2 ^ 64)
    (apart : dst.toNat ≤ src.toNat ∨ src.toNat + n.toNat ≤ dst.toNat) :
    let m := movsb^[k] ⟨dst, src, n, false, mem⟩
    (m.rdi = dst + UInt64.ofNat k ∧ m.rsi = src + UInt64.ofNat k ∧ m.df = false) ∧
      Moved mem m.mem dst.toNat src.toNat 0 k := by
  induction k with
  | zero => exact ⟨⟨(UInt64.add_zero dst).symm, (UInt64.add_zero src).symm, rfl⟩, .refl ..⟩
  | succ k ih =>
    obtain ⟨⟨rdi, rsi, df⟩, moved⟩ := ih (Nat.le_of_succ_le hk)
    rw [Function.iterate_succ_apply']
    generalize movsb^[k] ⟨dst, src, n, false, mem⟩ = m at *
    have next : UInt64.ofNat (k + 1) = UInt64.ofNat k + 1 := UInt64.ofNat_add k 1
    refine ⟨⟨?_, ?_, df⟩, ?_⟩
    · show (if m.df then m.rdi - 1 else m.rdi + 1) = _
      rw [df, rdi, next, UInt64.add_assoc]
      rfl
    · show (if m.df then m.rsi - 1 else m.rsi + 1) = _
      rw [df, rsi, next, UInt64.add_assoc]
      rfl
    · show Moved mem (m.mem.write m.rdi.toNat [m.mem m.rsi.toNat]) _ _ 0 (k + 1)
      rw [rdi, rsi, toNat_up (by omega), toNat_up (by omega)]
      apply moved.up
      intro i _ hi
      omega

/-- After `k` bytes downwards. -/
lemma movsb_down (mem : Mem) {k : Nat} (hk : k ≤ n.toNat) (hd : dst.toNat + n.toNat ≤ 2 ^ 64)
    (hs : src.toNat + n.toNat ≤ 2 ^ 64)
    (within : src.toNat ≤ dst.toNat) :
    let m := movsb^[k] ⟨dst + n - 1, src + n - 1, n, true, mem⟩
    (m.rdi = dst + n - 1 - UInt64.ofNat k ∧ m.rsi = src + n - 1 - UInt64.ofNat k ∧ m.df = true) ∧
      Moved mem m.mem dst.toNat src.toNat (n.toNat - k) n.toNat := by
  induction k with
  | zero => exact ⟨⟨(UInt64.sub_zero _).symm, (UInt64.sub_zero _).symm, rfl⟩, .refl ..⟩
  | succ k ih =>
    obtain ⟨⟨rdi, rsi, df⟩, moved⟩ := ih (Nat.le_of_succ_le hk)
    rw [Function.iterate_succ_apply']
    generalize movsb^[k] ⟨dst + n - 1, src + n - 1, n, true, mem⟩ = m at *
    have next : UInt64.ofNat (k + 1) = UInt64.ofNat k + 1 := UInt64.ofNat_add k 1
    refine ⟨⟨?_, ?_, df⟩, ?_⟩
    · show (if m.df then m.rdi - 1 else m.rdi + 1) = _
      rw [df, rdi, next, if_pos rfl, sub_next]
    · show (if m.df then m.rsi - 1 else m.rsi + 1) = _
      rw [df, rsi, next, if_pos rfl, sub_next]
    · show Moved mem (m.mem.write m.rdi.toNat [m.mem m.rsi.toNat]) _ _ (n.toNat - (k + 1)) n.toNat
      rw [rdi, rsi, toNat_down hd hk, toNat_down hs hk]
      rw [show n.toNat - k = n.toNat - (k + 1) + 1 by omega] at moved
      apply moved.down
      intro i gt _
      omega

/-- Upwards, it is the copy that the allocator is modelled with. -/
lemma repMovsb_copy {k : Nat} (hn : n.toNat = k) (hd : dst.toNat + k ≤ 2 ^ 64)
    (hs : src.toNat + k ≤ 2 ^ 64) :
    (movsb^[k] ⟨dst, src, n, false, mem⟩).mem = Mem.copy dst.toNat src.toNat k mem := by
  induction k generalizing dst src n mem with
  | zero => rfl
  | succ k ih =>
    rw [Function.iterate_succ_apply]
    show (movsb^[k] ⟨dst + 1, src + 1, n - 1, false, mem.write dst.toNat [mem src.toNat]⟩).mem = _
    have less : (n - 1).toNat = k := by
      rw [UInt64.toNat_sub_of_le _ _
        (UInt64.le_iff_toNat_le.mpr (by rw [hn]; exact Nat.le_add_left 1 k)), hn]
      rfl
    cases k with
    | zero => rfl
    | succ k =>
      have up (a : UInt64) (h : a.toNat + (k + 1 + 1) ≤ 2 ^ 64) : (a + 1).toNat = a.toNat + 1 :=
        toNat_up (k := 1) (by omega)
      rw [ih less (by rw [up dst hd]; omega) (by rw [up src hs]; omega), up dst hd, up src hs]
      rfl

end StringOp

/-- `memcpy` upwards is the copy by one byte after the other. -/
lemma memcpy_copy {dst src n : UInt64} (mem : Mem) (hd : dst.toNat + n.toNat ≤ 2 ^ 64)
    (hs : src.toNat + n.toNat ≤ 2 ^ 64) : (Libc.memcpy dst src n mem).2 = memcpy dst src n mem :=
  StringOp.repMovsb_copy rfl hd hs

/-- Whatever the ranges have in common, the destination gets the bytes of the
source, and nothing else changes. -/
theorem memmove_moves (mem : Mem) (dst src n : UInt64) (hd : dst.toNat + n.toNat ≤ 2 ^ 64)
    (hs : src.toNat + n.toNat ≤ 2 ^ 64) :
    (Libc.memmove dst src n mem).1 = dst ∧
      (∀ i < n.toNat, (Libc.memmove dst src n mem).2 (dst.toNat + i) = mem (src.toNat + i)) ∧
      ∀ a, a ∉ (⟨dst.toNat, n.toNat⟩ : Span) → (Libc.memmove dst src n mem).2 a = mem a := by
  have moved : (Libc.memmove dst src n mem).1 = dst ∧
      Moved mem (Libc.memmove dst src n mem).2 dst.toNat src.toNat 0 n.toNat := by
    by_cases far : n ≤ dst - src
    · have run : Libc.memmove dst src n mem = Libc.memcpy dst src n mem := if_pos far
      rw [run]
      refine ⟨rfl, (StringOp.movsb_up le_rfl hd hs ?_).2⟩
      rcases Nat.le_total dst.toNat src.toNat with le | ge
      · exact .inl le
      · have sub : (dst - src).toNat = dst.toNat - src.toNat :=
          UInt64.toNat_sub_of_le _ _ (UInt64.le_iff_toNat_le.mpr ge)
        have := UInt64.le_iff_toNat_le.mp far
        omega
    · have run : Libc.memmove dst src n mem = _ := if_neg far
      rw [run]
      refine ⟨rfl, ?_⟩
      have within : src.toNat ≤ dst.toNat := by
        apply Nat.le_of_not_lt
        intro lt
        apply far
        apply UInt64.le_iff_toNat_le.mpr
        rw [UInt64.toNat_sub]
        omega
      have all := (StringOp.movsb_down mem (k := n.toNat) le_rfl hd hs within).2
      rwa [Nat.sub_self] at all
  refine ⟨moved.1, fun i hi => moved.2.copied i (Nat.zero_le i) hi, fun a outside =>
    moved.2.frame a ?_⟩
  rintro i - hi rfl
  exact outside ⟨Nat.le_add_right _ _, Nat.add_lt_add_left hi _⟩

/-- Three bytes that are moved up by one, over two of their own. -/
theorem memmove_up_one :
    (Libc.memmove 0x1001 0x1000 3 fun a => UInt8.ofNat a).2 0x1001 = UInt8.ofNat 0x1000 ∧
      (Libc.memmove 0x1001 0x1000 3 fun a => UInt8.ofNat a).2 0x1002 = UInt8.ofNat 0x1001 ∧
      (Libc.memmove 0x1001 0x1000 3 fun a => UInt8.ofNat a).2 0x1003 = UInt8.ofNat 0x1002 := by
  have moved := (memmove_moves (fun a => UInt8.ofNat a) 0x1001 0x1000 3 (by decide) (by decide)).2.1
  exact ⟨moved 0 (by decide), moved 1 (by decide), moved 2 (by decide)⟩

end Hearth.Doom
