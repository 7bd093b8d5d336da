import Hearth.Lib.Bytes

/-!
# Four-level paging

How an x86 processor in long mode finds the physical address for a linear one. It goes down through
tables of 512 entries of 8 bytes, one level for each 9 bits of the address. An entry holds the
address of the next table, or of a page: of 4 KiB at the lowest level, of 2 MiB or 1 GiB above. That
the processor marks the entries it has used is not modelled, nor are the bits of an entry that
forbid execution or that the processor's width of addresses reserves.

`walk_identity` says which entries map the low addresses to themselves, and nothing else.
-/

namespace Hearth.Lib.Paging

/-- The entry at an index of the table at an address. -/
def entry (m : Mem) (table index : Nat) : Nat := ofLE (m.read (table + 8 * index) 8)

/-- The entry is there. -/
def Present (e : Nat) : Prop := e % 2 = 1

/-- What it maps may be written. -/
def writable (e : Nat) : Bool := e / 2 % 2 == 1

/-- The entry is for a page above the lowest level. -/
def Large (e : Nat) : Prop := e / 2 ^ 7 % 2 = 1

/-- One bit decides. -/
instance (e : Nat) : Decidable (Present e) := inferInstanceAs (Decidable (_ = _))

/-- One bit decides. -/
instance (e : Nat) : Decidable (Large e) := inferInstanceAs (Decidable (_ = _))

/-- How many bits of an address are left below a level. -/
def shift (level : Nat) : Nat := 12 + 9 * level

/-- The address in an entry, of a table or of a page of `2 ^ bits` bytes. -/
def frame (bits e : Nat) : Nat := e % 2 ^ 52 / 2 ^ bits * 2 ^ bits

/-- The index into the table of a level. -/
def index (level a : Nat) : Nat := a / 2 ^ shift level % 512

/-- The bits of an entry for a large page that have to be 0. -/
def Reserved (level e : Nat) : Prop := e / 2 ^ 13 % 2 ^ (shift level - 13) ≠ 0

/-- The bits decide. -/
instance (level e : Nat) : Decidable (Reserved level e) := inferInstanceAs (Decidable (_ ≠ _))

/-- The address is what bit 47 extended to 64 bits gives. -/
def Canonical (a : Nat) : Prop := a < 2 ^ 47 ∨ 2 ^ 64 - 2 ^ 47 ≤ a ∧ a < 2 ^ 64

/-- The bits decide. -/
instance (a : Nat) : Decidable (Canonical a) := inferInstanceAs (Decidable (_ ∨ _))

/-- From the table of a level down: the physical address, and whether it may be
written. `none` is a page fault. -/
def walkFrom (m : Mem) (a : Nat) : (level table : Nat) → Option (Nat × Bool)
  | 0, table =>
    let e := entry m table (index 0 a)
    if Present e then some (frame 12 e + a % 2 ^ 12, writable e) else none
  | level + 1, table =>
    let e := entry m table (index (level + 1) a)
    if ¬ Present e then none
    else if Large e then
      if level = 2 ∨ Reserved (level + 1) e then none
      else some (frame (shift (level + 1)) e + a % 2 ^ shift (level + 1), writable e)
    else (walkFrom m a level (frame 12 e)).map fun (p, w) => (p, w && writable e)

/-- The physical address of `a`, with the top table at `root`. -/
def walk (m : Mem) (root a : Nat) : Option (Nat × Bool) :=
  if Canonical a then walkFrom m a 3 root else none

variable {m : Mem} {a level table next : Nat}

/-- The last level gives the page. -/
lemma walkFrom_zero (m : Mem) (a table : Nat) :
    walkFrom m a 0 table =
      if Present (entry m table (index 0 a)) then
        some (frame 12 (entry m table (index 0 a)) + a % 2 ^ 12,
          writable (entry m table (index 0 a)))
      else none := by
  rw [walkFrom]

/-- Another level gives the next table, or a large page. -/
lemma walkFrom_succ (m : Mem) (a level table : Nat) :
    walkFrom m a (level + 1) table =
      if ¬ Present (entry m table (index (level + 1) a)) then none
      else if Large (entry m table (index (level + 1) a)) then
        if level = 2 ∨ Reserved (level + 1) (entry m table (index (level + 1) a)) then none
        else some (frame (shift (level + 1)) (entry m table (index (level + 1) a)) +
          a % 2 ^ shift (level + 1),
          writable (entry m table (index (level + 1) a)))
      else (walkFrom m a level (frame 12 (entry m table (index (level + 1) a)))).map fun (p, w) =>
        (p, w && writable (entry m table (index (level + 1) a))) := by
  rw [walkFrom]

/-- An entry that is not there maps nothing. -/
lemma walkFrom_absent (absent : ¬ Present (entry m table (index level a))) :
    walkFrom m a level table = none := by
  cases level with
  | zero => rw [walkFrom_zero, if_neg absent]
  | succ level => rw [walkFrom_succ, if_pos absent]

/-- An entry with the address of a table, present and writable. -/
lemma walkFrom_table (aligned : next % 2 ^ 12 = 0) (small : next < 2 ^ 52)
    (h : entry m table (index (level + 1) a) = next + 3) :
    walkFrom m a (level + 1) table = walkFrom m a level next := by
  have present : ¬ ¬ Present (entry m table (index (level + 1) a)) := by
    rw [h, not_not, Present]
    omega
  have large : ¬ Large (entry m table (index (level + 1) a)) := by
    rw [h, Large]
    omega
  have frame : frame 12 (entry m table (index (level + 1) a)) = next := by
    rw [h, Paging.frame]
    omega
  have writable : writable (entry m table (index (level + 1) a)) = true := by
    rw [h, writable, beq_iff_eq]
    omega
  rw [walkFrom_succ, if_neg present, if_neg large, frame, writable]
  cases walkFrom m a level next with
  | none => rfl
  | some r => exact congrArg (fun w => some (r.1, w)) (Bool.and_true r.2)

/-- An entry with the address of a page of 2 MiB, present and writable. -/
lemma walkFrom_page (aligned : next % 2 ^ 21 = 0) (small : next < 2 ^ 52)
    (h : entry m table (index 1 a) = next + 0x83) :
    walkFrom m a 1 table = some (next + a % 2 ^ 21, true) := by
  have present : ¬ ¬ Present (entry m table (index 1 a)) := by
    rw [h, not_not, Present]
    omega
  have large : Large (entry m table (index 1 a)) := by
    rw [h, Large]
    omega
  have reserved : ¬ (0 = 2 ∨ Reserved 1 (entry m table (index 1 a))) := by
    rw [h, Reserved, shift]
    omega
  have frame : frame (shift 1) (entry m table (index 1 a)) = next := by
    rw [h, Paging.frame, shift]
    omega
  have writable : writable (entry m table (index 1 a)) = true := by
    rw [h, writable, beq_iff_eq]
    omega
  rw [walkFrom_succ, if_neg present, if_pos large, if_neg reserved, frame, writable]
  rfl

/-- Zeros are read where there are zeros. -/
lemma read_zeros {b n : Nat} (zero : ∀ x ∈ (⟨b, n⟩ : Span), m x = 0) :
    m.read b n = List.replicate n 0 := by
  rw [List.eq_replicate_iff]
  refine ⟨m.read_length b n, fun x hx => ?_⟩
  obtain ⟨i, hi, rfl⟩ := List.mem_map.mp hx
  exact zero _ ⟨Nat.le_add_right b i, Nat.add_lt_add_left (List.mem_range.mp hi) b⟩

/-- The number of bytes in two parts. -/
lemma ofLE_append (bs cs : List UInt8) : ofLE (bs ++ cs) = ofLE bs + 256 ^ bs.length * ofLE cs := by
  induction bs with
  | nil => simp [ofLE]
  | cons b bs ih =>
    rw [List.cons_append, ofLE, ih, ofLE, List.length_cons, Nat.pow_succ]
    ring

/-- An entry of zeros is zero. -/
lemma entry_zero {i : Nat} (zero : ∀ x ∈ (⟨table + 8 * i, 8⟩ : Span), m x = 0) :
    entry m table i = 0 := by
  rw [entry, read_zeros zero]
  rfl

/-- The low half of an entry, in a table of zeros. -/
lemma entry_low {i v : Nat} (small : v < 2 ^ 32) (low : m.read (table + 8 * i) 4 = toLE 4 v)
    (high : ∀ x ∈ (⟨table + 8 * i + 4, 4⟩ : Span), m x = 0) : entry m table i = v := by
  have zeros : ofLE (List.replicate 4 0) = 0 := rfl
  rw [entry, show 8 = 4 + 4 from rfl, Mem.read_append, low, read_zeros high, ofLE_append,
    zeros, ofLE_toLE]
  exact Nat.mod_eq_of_lt small

/-- Tables that map the first 4 GiB in pages of 2 MiB: one entry at the top, four below it, and four
tables of pages one after the other. -/
structure Identity (m : Mem) (pml4 pdpt pd : Nat) : Prop where
  pdpt_aligned : pdpt % 2 ^ 12 = 0
  pd_aligned : pd % 2 ^ 12 = 0
  small : pdpt < 2 ^ 32 ∧ pd < 2 ^ 32
  top : ∀ i < 512, entry m pml4 i = if i = 0 then pdpt + 3 else 0
  middle : ∀ i < 512, entry m pdpt i = if i < 4 then pd + 4096 * i + 3 else 0
  pages : ∀ i < 2048, entry m pd i = 2 ^ 21 * i + 0x83

/-- The memory outside of the tables does not matter. -/
lemma Identity.congr {m' : Mem} {pml4 pdpt pd : Nat} (h : Identity m pml4 pdpt pd)
    (top : ∀ x ∈ (⟨pml4, 4096⟩ : Span), m' x = m x)
    (middle : ∀ x ∈ (⟨pdpt, 4096⟩ : Span), m' x = m x)
    (pages : ∀ x ∈ (⟨pd, 4 * 4096⟩ : Span), m' x = m x) : Identity m' pml4 pdpt pd := by
  have same {table n i : Nat} (inside : i < n) (keep : ∀ x ∈ (⟨table, 8 * n⟩ : Span), m' x = m x) :
      entry m' table i = entry m table i := by
    refine congrArg ofLE (Mem.read_congr fun x hx => keep x ?_)
    rw [Span.mem_iff] at hx ⊢
    dsimp only at hx ⊢
    omega
  exact {
    pdpt_aligned := h.pdpt_aligned
    pd_aligned := h.pd_aligned
    small := h.small
    top := fun i hi => (same hi top).trans (h.top i hi)
    middle := fun i hi => (same hi middle).trans (h.middle i hi)
    pages := fun i hi => (same hi pages).trans (h.pages i hi) }

/-- Then each of these addresses is its own, and there are no others. -/
lemma walk_identity {pml4 pdpt pd : Nat} (h : Identity m pml4 pdpt pd) (wide : a < 2 ^ 64) :
    walk m pml4 a = if a < 2 ^ 32 then some (a, true) else none := by
  have absent (table i : Nat) (zero : entry m table i = 0) : ¬ Present (entry m table i) := by
    rw [zero]
    decide
  by_cases canonical : Canonical a
  · rw [walk, if_pos canonical]
    have top := h.top (index 3 a) (Nat.mod_lt _ (by decide))
    by_cases first : a < 2 ^ 39
    · have zero : index 3 a = 0 := by
        show a / 2 ^ 39 % 512 = 0
        omega
      rw [if_pos zero] at top
      rw [walkFrom_table h.pdpt_aligned (by have := h.small.1; omega) top]
      have middle := h.middle (index 2 a) (Nat.mod_lt _ (by decide))
      by_cases low : a < 2 ^ 32
      · have quarter : index 2 a < 4 := by
          show a / 2 ^ 30 % 512 < 4
          omega
        rw [if_pos quarter] at middle
        have aligned := h.pd_aligned
        rw [walkFrom_table (by omega) (by have := h.small.2; omega) middle, if_pos low]
        -- the four tables of pages are one of 2048 entries
        have page := h.pages (a / 2 ^ 21) (by omega)
        have together : entry m (pd + 4096 * index 2 a) (index 1 a) = entry m pd (a / 2 ^ 21) := by
          have address : pd + 4096 * index 2 a + 8 * index 1 a = pd + 8 * (a / 2 ^ 21) := by
            show pd + 4096 * (a / 2 ^ 30 % 512) + 8 * (a / 2 ^ 21 % 512) = _
            omega
          rw [entry, address, entry]
        rw [walkFrom_page (by omega) (by omega) (together.trans page), Nat.div_add_mod]
      · have beyond : ¬ index 2 a < 4 := by
          show ¬ a / 2 ^ 30 % 512 < 4
          omega
        rw [if_neg beyond] at middle
        rw [walkFrom_absent (absent _ _ middle), if_neg low]
    · have other : index 3 a ≠ 0 := by
        show a / 2 ^ 39 % 512 ≠ 0
        unfold Canonical at canonical
        omega
      rw [if_neg other] at top
      rw [walkFrom_absent (absent _ _ top), if_neg (by omega)]
  · have high : ¬ a < 2 ^ 32 := by
      unfold Canonical at canonical
      omega
    rw [walk, if_neg canonical, if_neg high]

end Hearth.Lib.Paging
