import Hearth.Lib.Bytes

/-!
# Bytes over ranges

A list of bytes laid out over a list of ranges of memory, each range filled before the next one.
`contents` is what the ranges hold, one after the other: ranges that are apart then hold the bytes,
and after them what they held before.
-/

namespace Hearth.Lib.Mem

variable {m : Mem} {bs : List UInt8} {ss : List Span}

/-- The bytes of the ranges, in their order. -/
def contents (m : Mem) (ss : List Span) : List UInt8 := ss.flatMap fun s => m.read s.base s.len

/-- The memory with the bytes stored over the ranges, as many as there is room for. -/
def scatter (m : Mem) : List UInt8 → List Span → Mem
  | _, [] => m
  | bs, s :: ss => (m.write s.base (bs.take s.len)).scatter (bs.drop s.len) ss

/-- The first span comes first. -/
lemma contents_cons (m : Mem) (s : Span) (ss : List Span) :
    m.contents (s :: ss) = m.read s.base s.len ++ m.contents ss := rfl

/-- As many bytes as the spans have. -/
lemma contents_length (m : Mem) (ss : List Span) :
    (m.contents ss).length = (ss.map Span.len).sum := by
  induction ss with
  | nil => rfl
  | cons s ss ih =>
    rw [contents_cons, List.length_append, read_length, ih, List.map_cons, List.sum_cons]

/-- What the ranges hold depends on their own bytes. -/
lemma contents_congr {m' : Mem} (h : ∀ s ∈ ss, ∀ a ∈ s, m' a = m a) :
    m'.contents ss = m.contents ss := by
  induction ss with
  | nil => rfl
  | cons s ss ih =>
    obtain ⟨first, rest⟩ := List.forall_mem_cons.mp h
    rw [contents_cons, contents_cons, ih rest]
    exact congrArg (· ++ _) (read_congr first)

/-- Scattering nothing changes nothing. -/
lemma scatter_nil (m : Mem) (ss : List Span) : m.scatter [] ss = m := by
  induction ss generalizing m with
  | nil => rfl
  | cons s ss ih =>
    show (m.write s.base ([].take s.len)).scatter ([].drop s.len) ss = m
    rw [List.take_nil, List.drop_nil, write_nil]
    exact ih m

/-- The bytes for a range are inside of it. -/
lemma write_take_outside {s : Span} {a : Nat} (h : a ∉ s) :
    m.write s.base (bs.take s.len) a = m a := by
  apply write_outside
  rw [Span.mem_iff] at h ⊢
  dsimp only
  have := List.length_take_le s.len bs
  omega

/-- Scattering changes the spans only. -/
lemma scatter_outside {a : Nat} (h : ∀ s ∈ ss, a ∉ s) : m.scatter bs ss a = m a := by
  induction ss generalizing m bs with
  | nil => rfl
  | cons s ss ih =>
    obtain ⟨first, rest⟩ := List.forall_mem_cons.mp h
    exact (ih rest).trans (write_take_outside first)

/-- A range holds the bytes that were stored there, and then what it held. -/
lemma read_write_take (m : Mem) (bs : List UInt8) (s : Span) :
    (m.write s.base (bs.take s.len)).read s.base s.len =
      bs.take s.len ++ (m.read s.base s.len).drop bs.length := by
  apply List.ext_getElem
  · simp only [read_length, List.length_append, List.length_take, List.length_drop]
    omega
  · intro i h1 _
    rw [read_length] at h1
    rw [read_getElem]
    by_cases hi : i < (bs.take s.len).length
    · rw [write_inside hi, List.getElem_append_left hi]
    · have outside : s.base + i ∉ (⟨s.base, (bs.take s.len).length⟩ : Span) := by
        rw [Span.mem_iff]
        dsimp only
        omega
      have index : bs.length + (i - (bs.take s.len).length) = i := by
        rw [List.length_take] at hi ⊢
        omega
      rw [write_outside outside, List.getElem_append_right (Nat.le_of_not_lt hi),
        List.getElem_drop, read_getElem, index]

/-- Ranges that are apart hold the bytes, and then what they held. -/
lemma contents_scatter (apart : ss.Pairwise Span.Apart) :
    (m.scatter bs ss).contents ss =
      bs.take (ss.map Span.len).sum ++ (m.contents ss).drop bs.length := by
  induction apart generalizing m bs with
  | nil =>
    show [] = bs.take 0 ++ ([] : List UInt8).drop bs.length
    rw [List.take_zero, List.drop_nil, List.append_nil]
  | @cons s ss first _ ih =>
    have read : ((m.write s.base (bs.take s.len)).scatter (bs.drop s.len) ss).read s.base s.len =
        bs.take s.len ++ (m.read s.base s.len).drop bs.length := by
      rw [← read_write_take]
      exact read_congr fun a ha => scatter_outside fun t ht => first t ht a ha
    have rest : (m.write s.base (bs.take s.len)).contents ss = m.contents ss :=
      contents_congr fun t ht a ha => write_take_outside fun hs => first t ht a hs ha
    show (Mem.scatter (m.write s.base (bs.take s.len)) (bs.drop s.len) ss).contents (s :: ss) = _
    rw [contents_cons, read, ih, rest, contents_cons, List.map_cons, List.sum_cons,
      List.length_drop]
    rcases Nat.le_total bs.length s.len with short | long
    · have none : bs.drop s.len = [] := List.drop_eq_nil_of_le short
      have fits : bs.length ≤ s.len + (ss.map Span.len).sum :=
        Nat.le_trans short (Nat.le_add_right _ _)
      have inside : bs.length ≤ (m.read s.base s.len).length :=
        (read_length m s.base s.len).symm ▸ short
      rw [none, List.take_nil, List.nil_append, Nat.sub_eq_zero_of_le short, List.drop_zero,
        List.take_of_length_le short, List.take_of_length_le fits,
        List.drop_append_of_le_length inside, List.append_assoc]
    · have filled : (m.read s.base s.len).drop bs.length = [] :=
        List.drop_eq_nil_of_le ((read_length m s.base s.len).symm ▸ long)
      have after : (m.read s.base s.len ++ m.contents ss).drop bs.length =
          (m.contents ss).drop (bs.length - s.len) := by
        rw [List.drop_append, filled, List.nil_append, read_length]
      rw [filled, List.append_nil, after, List.take_add, List.append_assoc]

end Hearth.Lib.Mem
