import Hearth.Doom.Heap

/-!
# The heap at its limits

A size within 15 of `SIZE_MAX` is rounded up to 0. `Call.Meets` says which calls do not come
to a block of that size, and `limits_safe_iff` that these are the ones that give what was
asked for and stay inside the heap.
-/

namespace Hearth.Doom
open Lib

/-! ## Accesses -/

namespace Heap

/-- What `malloc` writes: the size in a header. -/
def mallocAccesses (size : UInt64) (h : Heap) : List Span :=
  let size := roundUp size
  let avail := h.heapEnd - h.heapNext
  if avail < sizeofBlock ∨ avail - sizeofBlock < size then [] else [⟨h.heapNext.toNat, 8⟩]

/-- What `calloc` reads and writes: what `malloc` does, and the block it clears. -/
def callocAccesses (n size : UInt64) (h : Heap) : List Span :=
  if size ≠ 0 ∧ sizeMax / size < n then []
  else
    let p := (h.malloc (n * size)).1
    h.mallocAccesses (n * size) ++ if p ≠ 0 then [⟨p.toNat, (n * size).toNat⟩] else []

/-- What `realloc` copies to a new block. -/
def moveAccesses (ptr size : UInt64) (h : Heap) : List Span :=
  let r := h.malloc size
  let n := (r.2.blockSize (ptr - sizeofBlock)).toNat
  if r.1 ≠ 0 then [⟨ptr.toNat, n⟩, ⟨r.1.toNat, n⟩] else []

/-- What `realloc` reads and writes: the header of the block, and where
it is moved also its bytes. -/
def reallocAccesses (ptr size : UInt64) (h : Heap) : List Span :=
  if ptr = 0 then h.mallocAccesses size
  else
    let b := ptr - sizeofBlock
    let grown := roundUp size
    ⟨b.toNat, 8⟩ ::
      if size ≤ h.blockSize b then []
      else if b = h.heapLast ∧ grown - h.blockSize b ≤ h.heapEnd - h.heapNext then [⟨b.toNat, 8⟩]
      else h.mallocAccesses size ++ h.moveAccesses ptr size

end Heap

namespace Call

/-- The memory that a call reads and writes. -/
def accesses : Call → Heap → List Span
  | malloc size, h => h.mallocAccesses size
  | calloc n size, h => h.callocAccesses n size
  | realloc ptr size, h => h.reallocAccesses ptr size
  | free _, _ => []

end Call

/-- Two heaps with the same variables and, where it is said, the same bytes. -/
structure Heap.Alike (spans : List Span) (h h' : Heap) : Prop where
  heapNext : h'.heapNext = h.heapNext
  heapEnd : h'.heapEnd = h.heapEnd
  heapLast : h'.heapLast = h.heapLast
  errno : h'.errno = h.errno
  mem : ∀ span ∈ spans, ∀ a ∈ span, h'.mem a = h.mem a

namespace Call

/-- The call does not write any other memory than it says, nor does what
it does depend on any other. -/
structure Confined (c : Call) (h : Heap) : Prop where
  writes : ∀ a, (∀ span ∈ c.accesses h, a ∉ span) → (c.run h).2.mem a = h.mem a
  reads : ∀ h', Heap.Alike (c.accesses h) h h' →
    (c.run h').1 = (c.run h).1 ∧ Heap.Alike (c.accesses h) (c.run h).2 (c.run h').2

/-- The number of bytes that is asked for. -/
def requested : Call → Nat
  | malloc size => size.toNat
  | calloc n size => n.toNat * size.toNat
  | realloc _ size => size.toNat
  | free _ => 0

/-- The call gives nothing or what was asked for, and stays inside the heap. -/
structure Safe (start end_ : UInt64) (c : Call) (h : Heap) : Prop where
  result : (c.run h).1 = 0 ∨
    start.toNat ≤ (c.run h).1.toNat ∧ (c.run h).1.toNat + c.requested ≤ end_.toNat
  inside : ∀ span ∈ c.accesses h, start.toNat ≤ span.base ∧ span.base + span.len ≤ end_.toNat

/-- The size is not rounded up to 0, or there is no room for a header and no
empty block that would grow. -/
def Meets (c : Call) (h : Heap) : Prop :=
  match c with
  | malloc size => size ≤ sizeMax - 15 ∨ h.heapEnd - h.heapNext < sizeofBlock
  | calloc n size => n.toNat * size.toNat ≤ (sizeMax - 15).toNat ∨
      sizeMax.toNat < n.toNat * size.toNat ∨
      h.heapEnd - h.heapNext < sizeofBlock
  | realloc ptr size => size ≤ sizeMax - 15 ∨ h.heapEnd - h.heapNext < sizeofBlock ∧
      ¬ (ptr ≠ 0 ∧ ptr - sizeofBlock = h.heapLast ∧ h.blockSize (ptr - sizeofBlock) = 0)
  | free _ => True

/-- The pointer is null or a live block's. -/
def Holds (c : Call) (live : List Block) : Prop := c.arg = 0 ∨ ∃ b ∈ live, b.ptr = c.arg

end Call

/-! ## What is read and written -/

namespace Heap

variable {h h' : Heap} {spans : List Span}

/-- Bytes that are stored are the same in both. -/
lemma Alike.write (alike : Alike spans h h') (a : Nat) (bs : List UInt8) :
    Alike spans { h with mem := h.mem.write a bs } { h' with mem := h'.mem.write a bs } :=
  ⟨alike.heapNext, alike.heapEnd, alike.heapLast, alike.errno,
    fun span mem x inside => Mem.write_congr (alike.mem span mem x inside)⟩

/-- Bytes that are the same in both are copied. -/
lemma Alike.copy (alike : Alike spans h h') (dst : UInt64) {src n : UInt64}
    (source : ⟨src.toNat, n.toNat⟩ ∈ spans) :
    Alike spans { h with mem := memcpy dst src n h.mem }
      { h' with mem := memcpy dst src n h'.mem } :=
  ⟨alike.heapNext, alike.heapEnd, alike.heapLast, alike.errno,
    fun span mem x inside => Mem.copy_congr (alike.mem _ source) (alike.mem span mem x inside)⟩

/-- `malloc` reads no memory. -/
lemma Alike.malloc (alike : Alike spans h h') (size : UInt64) :
    (h'.malloc size).1 = (h.malloc size).1 ∧ Alike spans (h.malloc size).2 (h'.malloc size).2 := by
  unfold Heap.malloc
  rw [alike.heapNext, alike.heapEnd]
  dsimp only
  split
  · exact ⟨rfl, rfl, rfl, alike.heapLast, rfl, alike.mem⟩
  · have stored := alike.write h.heapNext.toNat (Layout.encode (roundUp size))
    exact ⟨rfl, rfl, rfl, rfl, alike.errno, stored.mem⟩

/-- A header that is among the bytes compared is the same. -/
lemma Alike.blockSize (alike : Alike spans h h') {b : UInt64} (mem : ⟨b.toNat, 8⟩ ∈ spans) :
    h'.blockSize b = h.blockSize b :=
  Mem.load_congr fun a inside => alike.mem _ mem a inside

/-- `malloc` writes a header. -/
lemma malloc_writes {size : UInt64} {a : Nat} (outside : ∀ span ∈ h.mallocAccesses size, a ∉ span) :
    (h.malloc size).2.mem a = h.mem a := by
  unfold mallocAccesses at outside
  unfold Heap.malloc
  dsimp only at outside ⊢
  split
  · rfl
  · next some_room =>
    rw [if_neg some_room] at outside
    exact Mem.store_outside (outside _ (List.mem_singleton_self _))

end Heap

namespace Call

variable {h : Heap}

/-- `malloc` reads and writes its variables and a header. -/
lemma confined_malloc (size : UInt64) (h : Heap) : (malloc size).Confined h :=
  ⟨fun _ outside => Heap.malloc_writes outside, fun _ alike => alike.malloc size⟩

/-- `calloc` also clears the block. -/
lemma confined_calloc (n size : UInt64) (h : Heap) : (calloc n size).Confined h := by
  by_cases refused : size ≠ 0 ∧ sizeMax / size < n
  · have run (h : Heap) : (calloc n size).run h = (0, { h with errno := enomem }) := if_pos refused
    constructor
    · intro a _
      rw [run]
    · intro h' alike
      rw [run, run]
      exact ⟨rfl, alike.heapNext, alike.heapEnd, alike.heapLast, rfl, alike.mem⟩
  · have accesses : (calloc n size).accesses h = _ := if_neg refused
    have run (h : Heap) : (calloc n size).run h = if (h.malloc (n * size)).1 ≠ 0 then
        ((h.malloc (n * size)).1, { (h.malloc (n * size)).2 with
          mem := memset (h.malloc (n * size)).1 0 (n * size) (h.malloc (n * size)).2.mem })
        else (0, (h.malloc (n * size)).2) := if_neg refused
    constructor
    · intro a outside
      rw [accesses] at outside
      obtain ⟨header, zeros⟩ := List.forall_mem_append.mp outside
      rw [run, ← Heap.malloc_writes header]
      split
      · next some_block =>
        rw [if_pos some_block] at zeros
        refine Mem.write_outside ?_
        rw [List.length_replicate]
        exact zeros _ (List.mem_singleton_self _)
      · rfl
    · intro h' alike
      obtain ⟨same, after⟩ := alike.malloc (n * size)
      rw [run, run, same]
      split
      · exact ⟨rfl, after.write _ _⟩
      · exact ⟨rfl, after⟩

/-- What `realloc` does with a block, as a choice of three. -/
lemma run_realloc {ptr : UInt64} (some_block : ptr ≠ 0) (size : UInt64) (h : Heap) :
    (realloc ptr size).run h =
      if size ≤ h.blockSize (ptr - sizeofBlock) then (ptr, h)
      else if ptr - sizeofBlock = h.heapLast ∧
          roundUp size - h.blockSize (ptr - sizeofBlock) ≤ h.heapEnd - h.heapNext then
        (ptr, { h with
          heapNext := h.heapNext + (roundUp size - h.blockSize (ptr - sizeofBlock))
          mem := h.mem.store (ptr - sizeofBlock).toNat (roundUp size) })
      else ((h.malloc size).1, if (h.malloc size).1 ≠ 0 then { (h.malloc size).2 with
        mem := memcpy (h.malloc size).1 ptr ((h.malloc size).2.blockSize (ptr - sizeofBlock))
          (h.malloc size).2.mem }
        else (h.malloc size).2) := if_neg some_block

/-- `realloc` also reads the old header and copies the block. -/
lemma confined_realloc (ptr size : UInt64) (h : Heap) : (realloc ptr size).Confined h := by
  by_cases null : ptr = 0
  · have accesses : (realloc ptr size).accesses h = h.mallocAccesses size := if_pos null
    have run (h : Heap) : (realloc ptr size).run h = h.malloc size := if_pos null
    constructor
    -- what is not in a span keeps its byte
    · intro a outside
      rw [accesses] at outside
      rw [run]
      exact Heap.malloc_writes outside
    -- heaps that agree on the spans get the same result
    · intro h' alike
      rw [run, run]
      exact alike.malloc size
  have accesses : (realloc ptr size).accesses h = _ := if_neg null
  constructor
  · intro a outside
    rw [accesses] at outside
    obtain ⟨header, rest⟩ := List.forall_mem_cons.mp outside
    rw [run_realloc null]
    split
    · rfl
    · next larger =>
      rw [if_neg larger] at rest
      split
      · exact Mem.store_outside header
      · next moves =>
        rw [if_neg moves] at rest
        obtain ⟨new, copied⟩ := List.forall_mem_append.mp rest
        rw [← Heap.malloc_writes new]
        dsimp only
        split
        · next some_block =>
          have spans : h.moveAccesses ptr size = _ := if_pos some_block
          rw [spans] at copied
          have target := copied _ (List.mem_cons_of_mem _ (List.mem_singleton_self _))
          apply Mem.copy_outside
          by_contra inside
          exact target ⟨by dsimp only; omega, by dsimp only; omega⟩
        · rfl
  · intro h' alike
    have header : h'.blockSize (ptr - sizeofBlock) = h.blockSize (ptr - sizeofBlock) := by
      apply alike.blockSize
      rw [accesses]
      exact List.mem_cons_self
    rw [run_realloc null, run_realloc null, header, alike.heapLast, alike.heapEnd, alike.heapNext]
    split
    · exact ⟨rfl, alike⟩
    · next larger =>
      split
      · exact ⟨rfl, rfl, rfl, rfl, alike.errno, (alike.write _ _).mem⟩
      · next moves =>
        obtain ⟨same, after⟩ := alike.malloc size
        rw [same]
        refine ⟨rfl, ?_⟩
        dsimp only
        split
        · next some_block =>
          have moved : h.moveAccesses ptr size = _ := if_pos some_block
          have header : ⟨(ptr - sizeofBlock).toNat, 8⟩ ∈ (realloc ptr size).accesses h := by
            rw [accesses]
            exact List.mem_cons_self
          have source : ⟨ptr.toNat, ((h.malloc size).2.blockSize (ptr - sizeofBlock)).toNat⟩ ∈
              (realloc ptr size).accesses h := by
            rw [accesses, if_neg larger, if_neg moves, moved]
            exact List.mem_cons_of_mem _ (List.mem_append_right _ List.mem_cons_self)
          rw [after.blockSize header]
          exact after.copy _ source
        · exact after

/-- `free` reads a header at most. -/
lemma confined_free (ptr : UInt64) (h : Heap) : (free ptr).Confined h := by
  constructor
  · intro a _
    show (h.free ptr).mem a = h.mem a
    unfold Heap.free
    dsimp only
    split
    · rfl
    · rfl
  · intro h' alike
    refine ⟨rfl, ?_⟩
    show Heap.Alike _ (h.free ptr) (h'.free ptr)
    unfold Heap.free
    rw [alike.heapLast]
    dsimp only
    split
    · exact ⟨rfl, alike.heapEnd, rfl, alike.errno, nofun⟩
    · exact ⟨alike.heapNext, alike.heapEnd, alike.heapLast, alike.errno, nofun⟩

/-- Whatever the heap is like. -/
lemma confined (c : Call) (h : Heap) : c.Confined h := by
  cases c with
  | malloc size => exact confined_malloc size h
  | calloc n size => exact confined_calloc n size h
  | realloc ptr size => exact confined_realloc ptr size h
  | free ptr => exact confined_free ptr h

end Call

namespace Client

/-- A client whose calls all meet the condition. -/
inductive Meeting (s : Client) : Client → Prop where
  | call (c : Call) : c.Meets s.heap → c.Holds s.live → Meeting s (s.after c)
  | write (b : Block) (i : Nat) (v : UInt8) : b ∈ s.live → i < b.size.toNat →
      Meeting s ⟨{ s.heap with mem := s.heap.mem.write (b.ptr.toNat + i) [v] }, s.live⟩

/-! ## Sizes that are rounded up to 0 -/

/-- A size near the largest is rounded up to nothing. -/
lemma roundUp_wraps {size : UInt64} (large : ¬ size ≤ sizeMax - 15) : roundUp size = 0 := by
  have large : 2 ^ 64 - 15 ≤ size.toNat := by
    have := mt UInt64.le_iff_toNat_le.mpr large
    rw [sizeMax_sub] at this
    omega
  have sum : (size + 15).toNat < 16 := by
    have := size.toNat_lt
    rw [UInt64.toNat_add]
    show (size.toNat + 15) % 2 ^ 64 < 16
    omega
  apply UInt64.toNat_inj.mp
  unfold roundUp
  rw [UInt64.toNat_and]
  exact (and_highMask (k := 4) (by omega) (by simp)).trans (by show _ = 0; omega)

/-- Without room for a header `malloc` refuses. -/
lemma malloc_full {size : UInt64} {h : Heap} (full : h.heapEnd - h.heapNext < sizeofBlock) :
    h.malloc size = (0, { h with errno := enomem }) := if_pos (.inl full)

variable {start end_ : UInt64} {s : Client}

/-- A size that is rounded up to 0 always has a header's room, if there is one. -/
lemma malloc_wraps {size : UInt64} {h : Heap} (large : ¬ size ≤ sizeMax - 15)
    (room : ¬ h.heapEnd - h.heapNext < sizeofBlock) :
    (h.malloc size).1 = h.heapNext + sizeofBlock := by
  have small : ¬ h.heapEnd - h.heapNext - sizeofBlock < roundUp size := by
    rw [roundUp_wraps large]
    exact UInt64.not_lt.mpr UInt64.zero_le
  have fits : ¬ (h.heapEnd - h.heapNext < sizeofBlock ∨
    h.heapEnd - h.heapNext - sizeofBlock < roundUp size) :=
    fun e => e.elim room small
  exact congrArg Prod.fst (if_neg fits)

/-- Whether there is room for a header. -/
lemma Inv.room_iff (h : s.Inv start end_) :
    s.heap.heapEnd - s.heap.heapNext < sizeofBlock ↔ end_.toNat < s.heap.heapNext.toNat + 16 := by
  rw [UInt64.lt_iff_toNat_lt,
    UInt64.toNat_sub_of_le _ _ (UInt64.le_iff_toNat_le.mpr (h.end_eq ▸ h.le_end)), h.end_eq]
  show _ < 16 ↔ _
  have := h.le_end
  omega

/-- The product of `calloc` is refused if it does not fit. -/
lemma calloc_refused (n size : UInt64) :
    (size ≠ 0 ∧ sizeMax / size < n) ↔ sizeMax.toNat < n.toNat * size.toNat := by
  constructor
  · rintro ⟨pos, lt⟩
    have pos : 0 < size.toNat := Nat.pos_of_ne_zero fun e => pos (UInt64.toNat_inj.mp e)
    have lt := UInt64.lt_iff_toNat_lt.mp lt
    rw [UInt64.toNat_div] at lt
    exact (Nat.div_lt_iff_lt_mul pos).mp lt
  · intro lt
    have pos : 0 < size.toNat := Nat.pos_of_ne_zero fun e => by simp [e] at lt
    refine ⟨?_, ?_⟩
    · rintro rfl
      exact absurd pos (Nat.lt_irrefl 0)
    · rw [UInt64.lt_iff_toNat_lt, UInt64.toNat_div]
      exact (Nat.div_lt_iff_lt_mul pos).mpr lt

/-! ## Calls that meet the condition -/

/-- A block with some room would need more than there is to grow to a
size that is rounded up to 0. -/
lemma Inv.no_growth (h : s.Inv start end_) {b : Block} (live : b ∈ s.live) {size : UInt64}
    (large : ¬ size ≤ sizeMax - 15)
    (some_room : b.ptr - sizeofBlock = s.heap.heapLast →
      s.heap.blockSize (b.ptr - sizeofBlock) ≠ 0) :
    ¬ size ≤ s.heap.blockSize (b.ptr - sizeofBlock) ∧
      ¬ (b.ptr - sizeofBlock = s.heap.heapLast ∧
        roundUp size - s.heap.blockSize (b.ptr - sizeofBlock) ≤
          s.heap.heapEnd - s.heap.heapNext) := by
  obtain ⟨_, room⟩ := h.header_eq live
  have high := h.high b live
  have low := h.low b live
  have le := h.le_end
  have := end_.toNat_lt
  have large' := mt UInt64.le_iff_toNat_le.mpr large
  rw [sizeMax_sub] at large'
  constructor
  · intro fits
    have := UInt64.le_iff_toNat_le.mp fits
    omega
  · rintro ⟨last, fits⟩
    have pos : (s.heap.blockSize (b.ptr - sizeofBlock)).toNat ≠ 0 :=
      fun e => some_room last (UInt64.toNat_inj.mp e)
    have fits := UInt64.le_iff_toNat_le.mp fits
    rw [roundUp_wraps large, UInt64.toNat_sub, h.end_eq,
      UInt64.toNat_sub_of_le _ _ (UInt64.le_iff_toNat_le.mpr le)] at fits
    have zero : (0 : UInt64).toNat = 0 := rfl
    rw [zero] at fits
    omega

/-- Where the size is one that clients may ask for, or nothing is given. -/
lemma Meets.cases {c : Call} (h : s.Inv start end_) (held : c.Holds s.live)
    (meets : c.Meets s.heap) :
    c.SizeOk ∨ (∀ ptr, c ≠ .free ptr) ∧ c.run s.heap = (0, { s.heap with errno := enomem }) := by
  cases c with
  | malloc size =>
    obtain small | full := meets
    · exact .inl small
    · exact .inr ⟨nofun, malloc_full full⟩
  | calloc n size =>
    obtain small | large | full := meets
    · exact .inl (.inl small)
    · exact .inl (.inr large)
    · refine .inr ⟨nofun, ?_⟩
      show s.heap.calloc n size = _
      unfold Heap.calloc
      split
      · rfl
      · rw [malloc_full full]
        rfl
  | realloc ptr size =>
    obtain small | ⟨full, no_growth⟩ := meets
    · exact .inl small
    by_cases small : size ≤ sizeMax - 15
    · exact .inl small
    refine .inr ⟨nofun, ?_⟩
    show s.heap.realloc ptr size = _
    by_cases null : ptr = 0
    · exact (if_pos null).trans (malloc_full full)
    · obtain ⟨b, live, rfl⟩ := held.resolve_left null
      have stays := h.no_growth live small fun last empty => no_growth ⟨null, last, empty⟩
      refine (if_neg null).trans ((if_neg stays.1).trans ((if_neg stays.2).trans ?_))
      rw [malloc_full full]
      rfl
  | free ptr => exact .inl trivial

/-- A call that meets the condition keeps the invariant. -/
lemma Inv.meeting {c : Call} (pos : 0 < start.toNat) (h : s.Inv start end_) (held : c.Holds s.live)
    (meets : c.Meets s.heap) : Done start end_ s c := by
  obtain sizeOk | ⟨no_free, failed⟩ := Meets.cases h held meets
  · exact h.done pos ⟨sizeOk, held⟩
  · exact h.failed no_free failed

/-- A call that meets the condition keeps the invariant. -/
lemma Meeting.inv {s' : Client} (pos : 0 < start.toNat) (h : s.Inv start end_)
    (step : s.Meeting s') :
    s'.Inv start end_ := by
  cases step with
  | call c meets held => exact (h.meeting pos held meets).inv
  | write b i v hb hi => exact h.write hb hi

/-- What is given is inside the heap. -/
lemma Done.result {c : Call} (done : Done start end_ s c) (no_free : ∀ ptr, c ≠ .free ptr)
    (some_block : (c.run s.heap).1 ≠ 0) :
    start.toNat + 16 ≤ (c.run s.heap).1.toNat ∧
    (c.run s.heap).1.toNat + c.size.toNat ≤ end_.toNat := by
  have inv := done.inv
  have mem : ⟨(c.run s.heap).1, c.size⟩ ∈ (s.after c).live := by
    show _ ∈ c.live _ _
    rw [live_some no_free some_block]
    exact List.mem_cons_self
  have low := inv.low _ mem
  have high := inv.high _ mem
  have large := inv.large _ mem
  have := inv.le_end
  dsimp only at low high large
  exact ⟨low, by omega⟩

/-- What `malloc` reads and writes is inside the heap. -/
lemma Inv.malloc_inside (h : s.Inv start end_) (size : UInt64) :
    ∀ span ∈ s.heap.mallocAccesses size, start.toNat ≤ span.base ∧
      span.base + span.len ≤ end_.toNat := by
  intro span mem
  by_cases full : s.heap.heapEnd - s.heap.heapNext < sizeofBlock ∨
      s.heap.heapEnd - s.heap.heapNext - sizeofBlock < roundUp size
  · have none : s.heap.mallocAccesses size = [] := if_pos full
    rw [none] at mem
    exact absurd mem List.not_mem_nil
  · have header : s.heap.mallocAccesses size = [⟨s.heap.heapNext.toNat, 8⟩] := if_neg full
    rw [header] at mem
    rw [List.mem_singleton.mp mem]
    have room := mt h.room_iff.mpr fun e => full (.inl e)
    exact ⟨h.start_le, by show s.heap.heapNext.toNat + 8 ≤ _; omega⟩

/-- The product of a `calloc` that is not refused. -/
lemma calloc_product {n size : UInt64} (fits : ¬ (size ≠ 0 ∧ sizeMax / size < n)) :
    (n * size).toNat = n.toNat * size.toNat := by
  have le := mt (calloc_refused n size).mpr fits
  have max : sizeMax.toNat = 2 ^ 64 - 1 := rfl
  rw [UInt64.toNat_mul]
  exact Nat.mod_eq_of_lt (by omega)

/-- `calloc` returns what `malloc` does unless the product overflows. -/
lemma calloc_ptr {n size : UInt64} {h : Heap} (fits : ¬ (size ≠ 0 ∧ sizeMax / size < n)) :
    (h.calloc n size).1 = (h.malloc (n * size)).1 := by
  unfold Heap.calloc
  rw [if_neg fits]
  generalize h.malloc (n * size) = r
  obtain ⟨p, h'⟩ := r
  show (if p ≠ 0 then _ else _ : UInt64 × Heap).1 = p
  split
  · rfl
  · next none => exact (not_not.mp none).symm

/-- A `calloc` that does what it should is safe. -/
lemma Done.safe_calloc {n size : UInt64} (h : s.Inv start end_)
    (done : Done start end_ s (.calloc n size)) :
    (Call.calloc n size).Safe start end_ s.heap := by
  have result := done.result nofun
  by_cases refused : size ≠ 0 ∧ sizeMax / size < n
  · have run : (Call.calloc n size).run s.heap = _ := if_pos refused
    refine ⟨.inl (congrArg Prod.fst run), ?_⟩
    have none : (Call.calloc n size).accesses s.heap = [] := if_pos refused
    rw [none]
    exact nofun
  · have product := calloc_product refused
    have same : ((Call.calloc n size).run s.heap).1 = (s.heap.malloc (n * size)).1 :=
      calloc_ptr refused
    have accesses : (Call.calloc n size).accesses s.heap = _ := if_neg refused
    rw [same] at result
    change _ → _ ∧ _ + (n * size).toNat ≤ _ at result
    constructor
    · rw [same]
      by_cases none : (s.heap.malloc (n * size)).1 = 0
      · exact .inl none
      · have ⟨low, high⟩ := result none
        rw [product] at high
        exact .inr ⟨by omega, high⟩
    · rw [accesses]
      intro span mem
      obtain header | zeros := List.mem_append.mp mem
      · exact h.malloc_inside _ span header
      · split at zeros
        · next some_block =>
          rw [List.mem_singleton.mp zeros]
          have ⟨low, high⟩ := result some_block
          exact ⟨by show start.toNat ≤ (s.heap.malloc (n * size)).1.toNat; omega, high⟩
        · exact absurd zeros List.not_mem_nil

/-- A `malloc` that does what it should is safe. -/
lemma Done.safe_malloc {size : UInt64} (h : s.Inv start end_)
    (done : Done start end_ s (.malloc size)) :
    (Call.malloc size).Safe start end_ s.heap := by
  refine ⟨?_, h.malloc_inside size⟩
  by_cases none : ((Call.malloc size).run s.heap).1 = 0
  · exact .inl none
  · have ⟨low, high⟩ := done.result nofun none
    exact .inr ⟨by omega, high⟩

/-- The bytes that are moved to a new block are inside the heap, before and after. -/
lemma Done.moved_inside {b : Block} {size : UInt64} (h : s.Inv start end_) (live : b ∈ s.live)
    (done : Done start end_ s (.realloc b.ptr size))
    (moved : ((Call.realloc b.ptr size).run s.heap).1 = (s.heap.malloc size).1)
    (larger : b.room s.heap.mem < size.toNat) :
    ∀ span ∈ s.heap.moveAccesses b.ptr size, start.toNat ≤ span.base ∧
      span.base + span.len ≤ end_.toNat := by
  by_cases some_block : (s.heap.malloc size).1 = 0
  · have none : s.heap.moveAccesses b.ptr size = [] := if_neg (not_not_intro some_block)
    rw [none]
    exact nofun
  have low := h.low b live
  have high := h.high b live
  have le := h.le_end
  have ⟨new_low, new_high⟩ := done.result nofun (moved ▸ some_block)
  rw [moved] at new_low new_high
  change _ + size.toNat ≤ _ at new_high
  have kept : ((s.heap.malloc size).2.blockSize (b.ptr - sizeofBlock)).toNat =
    b.room s.heap.mem := by
    obtain failed | ⟨p, h', run, got⟩ := Heap.malloc_cases size (h.end_eq ▸ h.le_end)
    · rw [failed] at some_block
      exact absurd rfl some_block
    · obtain ⟨below, _⟩ := got.below fun a _ => rfl
      rw [run]
      unfold Heap.blockSize
      rw [(h.header_eq live).1]
      exact h.room_below below live
  have copied : s.heap.moveAccesses b.ptr size = [⟨b.ptr.toNat, b.room s.heap.mem⟩,
      ⟨(s.heap.malloc size).1.toNat, b.room s.heap.mem⟩] := by
    rw [← kept]
    exact if_pos some_block
  rw [copied]
  intro span mem
  obtain rfl | rfl := List.mem_pair.mp mem
  · dsimp only
    exact ⟨by omega, by omega⟩
  · dsimp only
    exact ⟨by omega, by omega⟩

/-- A `realloc` that does what it should is safe. -/
lemma Done.safe_realloc {ptr size : UInt64} (h : s.Inv start end_)
    (held : (Call.realloc ptr size).Holds s.live) (done : Done start end_ s (.realloc ptr size)) :
    (Call.realloc ptr size).Safe start end_ s.heap := by
  constructor
  · by_cases none : ((Call.realloc ptr size).run s.heap).1 = 0
    · exact .inl none
    · have ⟨low, high⟩ := done.result nofun none
      exact .inr ⟨by omega, high⟩
  -- the spans of `malloc`; otherwise the header, and what a move reads and writes
  by_cases null : ptr = 0
  · have accesses :
      (Call.realloc ptr size).accesses s.heap = s.heap.mallocAccesses size := if_pos null
    rw [accesses]
    exact h.malloc_inside size
  obtain ⟨b, live, rfl⟩ := held.resolve_left null
  obtain ⟨header, room⟩ := h.header_eq live
  have low := h.low b live
  have high := h.high b live
  have le := h.le_end
  have header_inside : start.toNat ≤ (b.ptr - sizeofBlock).toNat ∧
    (b.ptr - sizeofBlock).toNat + 8 ≤ end_.toNat := by
    rw [header]
    omega
  have accesses : (Call.realloc b.ptr size).accesses s.heap = _ := if_neg null
  have run : (Call.realloc b.ptr size).run s.heap = _ := if_neg null
  rw [accesses]
  refine List.forall_mem_cons.mpr ⟨header_inside, ?_⟩
  by_cases fits : size ≤ s.heap.blockSize (b.ptr - sizeofBlock)
  · rw [if_pos fits]
    exact nofun
  rw [if_neg fits]
  have run := run.trans (if_neg fits)
  by_cases grows : b.ptr - sizeofBlock = s.heap.heapLast ∧
      roundUp size - s.heap.blockSize (b.ptr - sizeofBlock) ≤ s.heap.heapEnd - s.heap.heapNext
  · rw [if_pos grows]
    exact List.forall_mem_cons.mpr ⟨header_inside, nofun⟩
  · rw [if_neg grows]
    have moved := congrArg Prod.fst (run.trans (if_neg grows))
    change _ = (s.heap.malloc size).1 at moved
    have larger : b.room s.heap.mem < size.toNat := by
      rw [← room]
      exact UInt64.lt_iff_toNat_lt.mp (UInt64.not_le.mp fits)
    intro span mem
    obtain new | copied := List.mem_append.mp mem
    · exact h.malloc_inside size span new
    · exact done.moved_inside h live moved larger span copied

/-- A call that meets the condition is safe. -/
lemma Inv.safe {c : Call} (pos : 0 < start.toNat) (h : s.Inv start end_) (held : c.Holds s.live)
    (meets : c.Meets s.heap) : c.Safe start end_ s.heap := by
  have done := h.meeting pos held meets
  cases c with
  | malloc size => exact done.safe_malloc h
  | calloc n size => exact done.safe_calloc h
  | realloc ptr size => exact done.safe_realloc h held
  | free ptr => exact ⟨.inl rfl, nofun⟩

/-! ## Calls that do not -/

/-- A block for a size near `SIZE_MAX` does not end inside the heap. -/
lemma not_safe {c : Call} {h : Heap} (large : 2 ^ 64 - 15 ≤ c.requested)
    (low : 16 ≤ (c.run h).1.toNat) :
    ¬ c.Safe start end_ h := by
  intro safe
  have := end_.toNat_lt
  obtain none | ⟨_, high⟩ := safe.result
  · rw [none] at low
    exact absurd low (by decide)
  · omega

/-- A size that wraps still gives a block, if there is room for its header. -/
lemma Inv.malloc_low (h : s.Inv start end_) {size : UInt64} (large : ¬ size ≤ sizeMax - 15)
    (room : ¬ s.heap.heapEnd - s.heap.heapNext < sizeofBlock) :
    16 ≤ (s.heap.malloc size).1.toNat := by
  rw [malloc_wraps large room, UInt64.toNat_add]
  have := mt h.room_iff.mpr room
  have := end_.toNat_lt
  show 16 ≤ (s.heap.heapNext.toNat + 16) % 2 ^ 64
  omega

/-- Such a size is within 15 of the largest. -/
lemma large_size {size : UInt64} (large : ¬ size ≤ sizeMax - 15) : 2 ^ 64 - 15 ≤ size.toNat := by
  have := mt UInt64.le_iff_toNat_le.mpr large
  rw [sizeMax_sub] at this
  omega

/-- A call that does not meet the condition is not safe. -/
lemma Inv.not_safe {c : Call} (h : s.Inv start end_) (held : c.Holds s.live)
    (fails : ¬ c.Meets s.heap) :
    ¬ c.Safe start end_ s.heap := by
  cases c with
  | malloc size =>
    obtain ⟨large, room⟩ := not_or.mp fails
    exact Client.not_safe (large_size large) (h.malloc_low large room)
  | calloc n size =>
    -- the product does not wrap, for such a call is refused, but it may be too large to round up
    obtain ⟨large, rest⟩ := not_or.mp fails
    obtain ⟨fits, room⟩ := not_or.mp rest
    have fits := mt (calloc_refused n size).mp fits
    have product := calloc_product fits
    rw [sizeMax_sub] at large
    have large_product : ¬ n * size ≤ sizeMax - 15 := by
      intro e
      have := UInt64.le_iff_toNat_le.mp e
      rw [product, sizeMax_sub] at this
      exact large this
    apply Client.not_safe
    · show 2 ^ 64 - 15 ≤ n.toNat * size.toNat
      omega
    · show 16 ≤ (s.heap.calloc n size).1.toNat
      rw [calloc_ptr fits]
      exact h.malloc_low large_product room
  | realloc ptr size =>
    obtain ⟨large, rest⟩ := not_or.mp fails
    apply Client.not_safe (c := .realloc ptr size) (large_size large)
    -- a size that wraps is 0 when rounded up: `malloc` needs room for the header alone
    by_cases null : ptr = 0
    · have run : (Call.realloc ptr size).run s.heap = s.heap.malloc size := if_pos null
      have room : ¬ s.heap.heapEnd - s.heap.heapNext < sizeofBlock :=
        fun full => rest ⟨full, fun e => e.1 null⟩
      rw [run]
      exact h.malloc_low large room
    · obtain ⟨b, live, rfl⟩ := held.resolve_left null
      have low := h.low b live
      have run : (Call.realloc b.ptr size).run s.heap = _ := if_neg null
      -- a live block has no room for a size that wraps
      have larger : ¬ size ≤ s.heap.blockSize (b.ptr - sizeofBlock) := by
        intro fits
        have := UInt64.le_iff_toNat_le.mp fits
        rw [(h.header_eq live).2] at this
        have := large_size large
        have := h.high b live
        have := h.le_end
        have := end_.toNat_lt
        omega
      have run := run.trans (if_neg larger)
      by_cases grows : b.ptr - sizeofBlock = s.heap.heapLast ∧
          roundUp size - s.heap.blockSize (b.ptr - sizeofBlock) ≤ s.heap.heapEnd - s.heap.heapNext
      · rw [run.trans (if_pos grows)]
        show 16 ≤ b.ptr.toNat
        omega
      · have room : ¬ s.heap.heapEnd - s.heap.heapNext < sizeofBlock := by
          intro full
          refine rest ⟨full, ?_⟩
          rintro ⟨_, last, empty⟩
          refine grows ⟨last, ?_⟩
          rw [roundUp_wraps large, empty]
          exact UInt64.zero_le
        have moved := congrArg Prod.fst (run.trans (if_neg grows))
        change _ = (s.heap.malloc size).1 at moved
        rw [moved]
        exact h.malloc_low large room
  | free ptr => exact absurd trivial fails

/-- After calls that meet the condition, a call is safe exactly when it meets it too; the memory
that this is said of is all that it reads and writes. -/
theorem limits_safe_iff {s : Client} {start end_ : UInt64} (pos : 0 < start)
    (room : (start.toNat + 15) / 16 * 16 ≤ end_.toNat)
    (h : Reach (Start start end_) Meeting s) {c : Call}
    (held : c.Holds s.live) : c.Confined s.heap ∧ (c.Safe start end_ s.heap ↔ c.Meets s.heap) := by
  have pos := UInt64.lt_iff_toNat_lt.mp pos
  have inv : s.Inv start end_ :=
    Reach.invariant (fun _ => Start.inv room) (fun _ _ inv step => step.inv pos inv) h
  exact ⟨c.confined s.heap,
    fun safe => Classical.by_contradiction fun fails => inv.not_safe held fails safe,
    inv.safe pos held⟩

/-- Two blocks, the first of which is not the last, and what is written to one of them. -/
def twoBlocks : Client :=
  let s := ((idle 0x100000 0x200000).after (.malloc 100)).after (.calloc 3 7)
  ⟨{ s.heap with mem := s.heap.mem.write (0x100010 + 5) [0xff] }, s.live⟩

/-- Two calls and a write lead there. -/
lemma twoBlocks_reach : Reach (Start 0x100000 0x200000) Meeting twoBlocks := by
  have start : Reach (Start 0x100000 0x200000) Meeting (idle 0x100000 0x200000) :=
    .init ⟨_, rfl, rfl⟩
  have first := start.step (.call (.malloc 100) (.inl (by decide)) (.inl rfl))
  have second := first.step (.call (.calloc 3 7) (.inl (by decide)) (.inl rfl))
  exact second.step (.write ⟨0x100010, 100⟩ 5 0xff (by decide +kernel) (by decide))

/-- The first block is moved to grow. -/
theorem limits_safe_moved : (Call.realloc 0x100010 200).Safe 0x100000 0x200000 twoBlocks.heap ∧
    ((Call.realloc 0x100010 200).run twoBlocks.heap).1 = 0x1000c0 :=
  have held : (Call.realloc 0x100010 200).Holds twoBlocks.live :=
    .inr ⟨⟨0x100010, 100⟩, by decide +kernel, rfl⟩
  ⟨(limits_safe_iff (by decide) (by decide) twoBlocks_reach held).2.mpr
    (.inl (by decide)), by decide +kernel⟩

/-- `malloc(SIZE_MAX)` gives a block of no bytes. -/
theorem malloc_max_not_safe :
    ¬ (Call.malloc sizeMax).Safe 0x100000 0x200000 (idle 0x100000 0x200000).heap := by
  have inv : (idle 0x100000 0x200000).Inv 0x100000 0x200000 := Start.inv (by decide) ⟨_, rfl, rfl⟩
  apply inv.not_safe (.inl rfl)
  rintro (small | full)
  · revert small
    decide
  · revert full
    decide

end Client

end Hearth.Doom
