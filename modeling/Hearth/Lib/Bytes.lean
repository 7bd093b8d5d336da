import Mathlib

/-!
# Byte memories

A memory is a function from addresses to bytes. `read` and `write` move a list of bytes, `Span` is a
range of addresses, and little-endian words are read with `ofLE` and written with `toLE`.
-/

namespace Hearth.Lib

/-- A memory: one byte at every address. -/
abbrev Mem : Type := Nat → UInt8

/-- The addresses `base .. base + len`. -/
structure Span where
  base : Nat
  len : Nat
  deriving DecidableEq, Repr

namespace Span

/-- The addresses of a span. -/
instance : Membership Nat Span := ⟨fun s a => s.base ≤ a ∧ a < s.base + s.len⟩

/-- They are those from its base on, as many as it is long. -/
lemma mem_iff {s : Span} {a : Nat} : a ∈ s ↔ s.base ≤ a ∧ a < s.base + s.len := Iff.rfl

/-- That is decided by two comparisons. -/
instance (s : Span) (a : Nat) : Decidable (a ∈ s) :=
  inferInstanceAs (Decidable (s.base ≤ a ∧ a < s.base + s.len))

/-- All of `s` lies inside `t`. -/
def Inside (s t : Span) : Prop := ∀ a ∈ s, a ∈ t

/-- No address lies in both. -/
def Apart (s t : Span) : Prop := ∀ a ∈ s, a ∉ t

variable {s t u : Span}

/-- Two ranges are apart if one is empty or ends before the other starts. -/
lemma apart_iff : s.Apart t ↔
    s.len = 0 ∨ t.len = 0 ∨ s.base + s.len ≤ t.base ∨ t.base + t.len ≤ s.base := by
  constructor
  · intro h
    by_contra hne
    have hs : max s.base t.base ∈ s := by rw [mem_iff]; omega
    exact h _ hs (by rw [mem_iff]; omega)
  · intro h a ha hb
    rw [mem_iff] at ha hb
    omega

/-- Whether two spans are apart is decided by their ends. -/
instance (s t : Span) : Decidable (s.Apart t) := decidable_of_iff _ apart_iff.symm

/-- A span is inside itself. -/
lemma Inside.refl (s : Span) : s.Inside s := fun _ h => h

/-- What is inside a span is inside what contains it. -/
lemma Inside.trans (h : s.Inside t) (h' : t.Inside u) : s.Inside u := fun a ha => h' a (h a ha)

/-- A span with its ends inside another is inside it. -/
lemma inside_of_le (h1 : t.base ≤ s.base) (h2 : s.base + s.len ≤ t.base + t.len) : s.Inside t := by
  intro a ha
  rw [mem_iff] at ha ⊢
  omega

/-- Being apart is symmetric. -/
lemma Apart.symm (h : s.Apart t) : t.Apart s := fun a ha hs => h a hs ha

/-- Parts of spans that are apart are apart. -/
lemma Apart.mono {s' t' : Span} (h : s.Apart t) (hs : s'.Inside s) (ht : t'.Inside t) :
    s'.Apart t' :=
  fun a ha hb => h a (hs a ha) (ht a hb)

/-- A span that is not empty is not apart from what contains it. -/
lemma Inside.not_apart (h : s.Inside t) (hlen : 0 < s.len) : ¬ s.Apart t := fun ha =>
  have hs : s.base ∈ s := by rw [mem_iff]; omega
  ha _ hs (h _ hs)

/-- A span that ends where another starts is apart from it. -/
lemma apart_of_le (h : s.base + s.len ≤ t.base) : s.Apart t := by
  intro a ha hb
  rw [mem_iff] at ha hb
  omega

/-- The spans of a list of ranges that do not overlap hold no more addresses than there are. -/
lemma sum_len_le {ss : List Span} {bound : Nat} (apart : ss.Pairwise Apart)
    (h : ∀ s ∈ ss, s.base + s.len ≤ bound) : (ss.map len).sum ≤ bound := by
  suffices hc : ∃ addrs : Finset Nat, addrs.card = (ss.map len).sum ∧
      ∀ a ∈ addrs, ∃ s ∈ ss, a ∈ s by
    obtain ⟨addrs, card, hm⟩ := hc
    rw [← card, ← Finset.card_range bound]
    refine Finset.card_le_card fun a ha => ?_
    obtain ⟨s, hs, has⟩ := hm a ha
    exact Finset.mem_range.mpr (Nat.lt_of_lt_of_le has.2 (h s hs))
  clear h
  induction apart with
  | nil => exact ⟨∅, rfl, by simp⟩
  | @cons s ss hs _ ih =>
    obtain ⟨addrs, card, hm⟩ := ih
    refine ⟨Finset.Ico s.base (s.base + s.len) ∪ addrs, ?_, ?_⟩
    · rw [Finset.card_union_of_disjoint, Nat.card_Ico, card, List.map_cons, List.sum_cons]
      · omega
      · refine Finset.disjoint_left.mpr fun a ha ha' => ?_
        obtain ⟨t, ht, hat⟩ := hm a ha'
        exact hs t ht a (Finset.mem_Ico.mp ha) hat
    · intro a ha
      rcases Finset.mem_union.mp ha with ha | ha
      · exact ⟨s, List.mem_cons_self, Finset.mem_Ico.mp ha⟩
      · obtain ⟨t, ht, hat⟩ := hm a ha
        exact ⟨t, List.mem_cons_of_mem s ht, hat⟩

end Span

namespace Mem

/-- The `n` bytes from `a` on. -/
def read (m : Mem) (a n : Nat) : List UInt8 := (List.range n).map fun i => m (a + i)

/-- The memory with the bytes `bs` stored from `a` on. -/
def write (m : Mem) (a : Nat) (bs : List UInt8) : Mem := fun x =>
  if a ≤ x then (bs[x - a]?).getD (m x) else m x

variable {m m' : Mem} {a b n k : Nat} {bs : List UInt8}

/-- As many bytes as are read. -/
@[simp] lemma read_length (m : Mem) (a n : Nat) : (m.read a n).length = n := by simp [read]

/-- Reading nothing gives nothing. -/
@[simp] lemma read_zero (m : Mem) (a : Nat) : m.read a 0 = [] := rfl

/-- Each byte is the one at its address. -/
lemma read_getElem (m : Mem) (a n i : Nat) (h : i < (m.read a n).length) :
    (m.read a n)[i] = m (a + i) := by simp [read]

/-- What is read depends on the bytes of the range only. -/
lemma read_congr (h : ∀ x ∈ (⟨a, n⟩ : Span), m x = m' x) : m.read a n = m'.read a n := by
  apply List.ext_getElem (by simp)
  intro i h1 _
  rw [read_length] at h1
  simp only [read_getElem]
  exact h _ (by rw [Span.mem_iff]; dsimp only; omega)

/-- Bytes read in two parts. -/
lemma read_append (m : Mem) (a n k : Nat) : m.read a (n + k) = m.read a n ++ m.read (a + n) k := by
  simp only [read, List.range_add, List.map_append, List.map_map]
  congr 1
  apply List.map_congr_left
  intro i _
  simp [Nat.add_assoc]

/-- A write changes nothing outside of its bytes. -/
lemma write_outside {x : Nat} (h : x ∉ (⟨a, bs.length⟩ : Span)) : m.write a bs x = m x := by
  rw [Span.mem_iff] at h
  dsimp only at h
  unfold write
  split
  · rw [List.getElem?_eq_none (by omega)]
    rfl
  · rfl

/-- It puts its bytes where they belong. -/
lemma write_inside {i : Nat} (h : i < bs.length) : m.write a bs (a + i) = bs[i] := by
  simp [write, h]

/-- Writing nothing changes nothing. -/
@[simp] lemma write_nil (m : Mem) (a : Nat) : m.write a [] = m := by
  funext x
  simp [write]

/-- What was written is read back. -/
lemma read_write_self (m : Mem) (a : Nat) (bs : List UInt8) :
    (m.write a bs).read a bs.length = bs := by
  apply List.ext_getElem (by simp)
  intro i h1 h2
  simp only [read_getElem]
  exact write_inside h2

/-- What is apart from a write is read as before. -/
lemma read_write_apart (h : Span.Apart ⟨b, n⟩ ⟨a, bs.length⟩) :
    (m.write a bs).read b n = m.read b n :=
  read_congr fun x hx => write_outside (h x hx)

/-- Reading a part of what was written. -/
lemma read_write_part {i : Nat} (h : i + n ≤ bs.length) :
    (m.write a bs).read (a + i) n = (bs.drop i).take n := by
  apply List.ext_getElem (by simp; omega)
  intro j h1 _
  rw [read_length] at h1
  simp only [read_getElem, List.getElem_take, List.getElem_drop]
  rw [Nat.add_assoc]
  exact write_inside (by omega)

/-- The first byte, and the rest. -/
lemma read_succ (m : Mem) (a n : Nat) : m.read a (n + 1) = m a :: m.read (a + 1) n := by
  rw [Nat.add_comm n 1, read_append]
  rfl

/-- Two writes, one after the other in the memory. -/
lemma write_append (m : Mem) (a : Nat) (bs cs : List UInt8) :
    m.write a (bs ++ cs) = (m.write (a + bs.length) cs).write a bs := by
  funext x
  unfold write
  by_cases below : a ≤ x
  · rw [if_pos below, if_pos below]
    by_cases first : x - a < bs.length
    · rw [List.getElem?_append_left first, List.getElem?_eq_getElem first]
      rfl
    · have none : bs[x - a]? = none := List.getElem?_eq_none (Nat.le_of_not_lt first)
      rw [List.getElem?_append_right (Nat.le_of_not_lt first), none, if_pos (by omega),
        Nat.sub_add_eq]
      rfl
  · rw [if_neg below, if_neg below, if_neg (by omega)]

/-! ## Many writes -/

/-- Writes of bytes at addresses, one after the other. -/
def writes (m : Mem) (ws : List (Nat × List UInt8)) : Mem :=
  ws.foldl (fun m w => m.write w.1 w.2) m

/-- The first write comes first. -/
lemma writes_cons (m : Mem) (w : Nat × List UInt8) (ws : List (Nat × List UInt8)) :
    m.writes (w :: ws) = (m.write w.1 w.2).writes ws := rfl

/-- Writes followed by writes. -/
lemma writes_append (m : Mem) (ws ws' : List (Nat × List UInt8)) :
    m.writes (ws ++ ws') = (m.writes ws).writes ws' := List.foldl_append

/-- The addresses that a write stores to. -/
def target (w : Nat × List UInt8) : Span := ⟨w.1, w.2.length⟩

/-- `v` is what the last of the writes that stores to `x` put there, or what `m`
    holds at `x` if there is none. -/
def LastWritten (m : Mem) (ws : List (Nat × List UInt8)) (x : Nat) (v : UInt8) : Prop :=
  (∃ before w after, ws = before ++ w :: after ∧ x ∈ target w ∧ (∀ w' ∈ after, x ∉ target w') ∧
    w.2[x - w.1]? = some v) ∨
  ((∀ w ∈ ws, x ∉ target w) ∧ v = m x)

/-- An address keeps the value that was last written to it. -/
lemma writes_lastWritten (m : Mem) (ws : List (Nat × List UInt8)) (x : Nat) :
    LastWritten m ws x (m.writes ws x) := by
  induction ws generalizing m with
  | nil => exact .inr ⟨nofun, rfl⟩
  | cons w ws ih =>
    rcases ih (m.write w.1 w.2) with ⟨before, w', after, rfl, hx, hafter, hv⟩ | ⟨hws, hv⟩
    · exact .inl ⟨w :: before, w', after, rfl, hx, hafter, hv⟩
    · by_cases hx : x ∈ target w
      · refine .inl ⟨[], w, ws, rfl, hx, hws, ?_⟩
        have hlt : x - w.1 < w.2.length := by
          have h := hx.2
          have h' := hx.1
          simp only [target] at h h'
          omega
        have hin := write_inside (m := m) (a := w.1) hlt
        rw [show w.1 + (x - w.1) = x from Nat.add_sub_cancel' hx.1] at hin
        rw [List.getElem?_eq_getElem hlt, ← hin]
        exact congrArg some hv.symm
      · refine .inr ⟨fun w' hw' => ?_, hv.trans (write_outside hx)⟩
        rcases List.mem_cons.mp hw' with rfl | hw'
        · exact hx
        · exact hws w' hw'

/-- What no write stores to keeps its value. -/
lemma writes_outside {ws : List (Nat × List UInt8)} {x : Nat} (h : ∀ w ∈ ws, x ∉ target w) :
    m.writes ws x = m x := by
  induction ws generalizing m with
  | nil => rfl
  | cons w ws ih =>
    have hw : m.write w.1 w.2 x = m x := write_outside (h w List.mem_cons_self)
    exact (ih fun w' hw' => h w' (List.mem_cons_of_mem w hw')).trans hw

/-- Writes that do not overlap can all be read back. -/
lemma read_writes_apart {ws : List (Nat × List UInt8)}
    (apart : ws.Pairwise fun w w' => (target w).Apart (target w')) :
    ∀ w ∈ ws, (m.writes ws).read w.1 w.2.length = w.2 := by
  induction apart generalizing m with
  | nil => exact nofun
  | @cons w ws hw _ ih =>
    intro w' hw'
    rcases List.mem_cons.mp hw' with rfl | hw'
    · have keep : ((m.write w'.1 w'.2).writes ws).read w'.1 w'.2.length =
          (m.write w'.1 w'.2).read w'.1 w'.2.length :=
        read_congr fun x hx => writes_outside fun w hw' => hw w hw' x hx
      exact keep.trans (read_write_self m w'.1 w'.2)
    · exact ih w' hw'

/-! ## Copying -/

/-- The memory after `n` bytes from `src` on were copied to `dst`, one after the other. -/
def copy (dst src : Nat) : (n : Nat) → Mem → Mem
  | 0, m => m
  | n + 1, m => copy (dst + 1) (src + 1) n (m.write dst [m src])

/-- A byte that is written changes no other. -/
lemma write_byte_ne {x : Nat} {v : UInt8} (h : x ≠ a) : m.write a [v] x = m x := by
  apply write_outside
  rintro ⟨hlo, hhi⟩
  exact h (Nat.le_antisymm (Nat.le_of_lt_succ hhi) hlo)

/-- A byte that was written is found at its address. -/
lemma write_byte (m : Mem) (a : Nat) (v : UInt8) : m.write a [v] a = v := by
  have h : 0 < [v].length := Nat.zero_lt_one
  exact write_inside h

/-- A copy changes nothing outside of its target. -/
lemma copy_outside {dst src x : Nat} (h : x < dst ∨ dst + n ≤ x) : copy dst src n m x = m x := by
  induction n generalizing dst src m with
  | zero => rfl
  | succ n ih =>
    unfold copy
    rw [ih (by omega), write_byte_ne (by omega)]

/-- Ranges that do not overlap are copied as they are. -/
lemma copy_inside {dst src i : Nat} (apart : src + n ≤ dst ∨ dst + n ≤ src) (h : i < n) :
    copy dst src n m (dst + i) = m (src + i) := by
  induction n generalizing dst src i m with
  | zero => cases h
  | succ n ih =>
    unfold copy
    cases i with
    | zero =>
      show copy (dst + 1) (src + 1) n (m.write dst [m src]) dst = m src
      rw [copy_outside (by omega)]
      exact write_byte m dst (m src)
    | succ i =>
      rw [show dst + (i + 1) = dst + 1 + i by omega, ih (by omega) (Nat.lt_of_succ_lt_succ h),
        write_byte_ne (by omega)]
      congr 1
      omega

/-- The first byte may be written before the others. -/
lemma write_cons (m : Mem) (a : Nat) (b : UInt8) (bs : List UInt8) :
    m.write a (b :: bs) = (m.write a [b]).write (a + 1) bs := by
  funext x
  by_cases later : a + 1 ≤ x
  · obtain ⟨i, rfl⟩ := Nat.exists_eq_add_of_le later
    have index : a + 1 + i - a = i + 1 := by omega
    have other : m.write a [b] (a + 1 + i) = m (a + 1 + i) := write_byte_ne (by omega)
    have rest : a + 1 + i - (a + 1) = i := by omega
    show (if a ≤ a + 1 + i then ((b :: bs)[a + 1 + i - a]?).getD (m (a + 1 + i))
      else m (a + 1 + i)) =
      if a + 1 ≤ a + 1 + i then (bs[a + 1 + i - (a + 1)]?).getD (m.write a [b] (a + 1 + i))
      else m.write a [b] (a + 1 + i)
    rw [if_pos (by omega), if_pos later, index, rest, other]
    rfl
  · have outside : ((m.write a [b]).write (a + 1) bs) x = m.write a [b] x := by
      apply write_outside
      intro inside
      exact later inside.1
    rw [outside]
    unfold write
    by_cases first : a ≤ x
    · have zero : x - a = 0 := by omega
      rw [if_pos first, if_pos first, zero]
      rfl
    · rw [if_neg first, if_neg first]

end Mem

/-! ## Little-endian words -/

/-- The number that bytes stand for, the least significant byte first. -/
def ofLE : List UInt8 → Nat
  | [] => 0
  | b :: bs => b.toNat + 256 * ofLE bs

/-- The `k` low bytes of a number, the least significant byte first. -/
def toLE : (k : Nat) → Nat → List UInt8
  | 0, _ => []
  | k + 1, n => UInt8.ofNat n :: toLE k (n / 256)

/-- A little-endian number has the bytes it is given. -/
@[simp] lemma toLE_length (k n : Nat) : (toLE k n).length = k := by
  induction k generalizing n with
  | zero => rfl
  | succ k ih => simp [toLE, ih]

/-- Read back it is the number, as far as the bytes go. -/
lemma ofLE_toLE (k n : Nat) : ofLE (toLE k n) = n % 256 ^ k := by
  induction k generalizing n with
  | zero => simp [toLE, ofLE, Nat.mod_one]
  | succ k ih =>
    have hb : (UInt8.ofNat n).toNat = n % 256 := by simp
    rw [toLE, ofLE, ih, hb, Nat.pow_succ', Nat.mod_mul]

/-- Masking the low bits of an address away. -/
lemma and_highMask {a k : Nat} (ha : a < 2 ^ 64) (hk : k ≤ 64) :
    a &&& (2 ^ (64 - k) - 1) * 2 ^ k = a / 2 ^ k * 2 ^ k := by
  apply Nat.eq_of_testBit_eq
  intro i
  rw [Nat.testBit_and, Nat.testBit_mul_two_pow, Nat.testBit_mul_two_pow,
    Nat.testBit_two_pow_sub_one, Nat.testBit_div_two_pow]
  by_cases hi : k ≤ i
  · rw [Nat.sub_add_cancel hi]
    by_cases hlt : i - k < 64 - k
    · simp [hi, hlt]
    · have : a.testBit i = false :=
        Nat.testBit_lt_two_pow (Nat.lt_of_lt_of_le ha (Nat.pow_le_pow_right (by simp) (by omega)))
      simp [this]
  · simp [hi]

end Hearth.Lib
