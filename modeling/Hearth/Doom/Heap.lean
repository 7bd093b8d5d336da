import Hearth.Lib.Layout
import Hearth.Lib.Transition

/-!
# The guest's heap

The allocator of `guests/doom/libc/stdlib.c`: blocks are taken from the front of what is left, each
after a header with its size, and only the last one is given back or grows. A client is a run of its
calls, with writes to live blocks in between.
-/

namespace Hearth.Doom
open Lib

/-- `ENOMEM`. -/
def enomem : UInt32 := 12
/-- The largest `size_t`. -/
def sizeMax : UInt64 := 0xffffffffffffffff

/-- `sizeof(struct block)` -/
def sizeofBlock : UInt64 := 16

/-- The allocator's variables, and the memory. A null pointer is 0. -/
structure Heap where
  mem : Mem
  heapNext : UInt64
  heapEnd : UInt64
  heapLast : UInt64
  errno : UInt32

/-- `(n + 15) & ~15` -/
def roundUp (n : UInt64) : UInt64 := (n + 15) &&& ~~~15

/-- `rep stosb` -/
def memset (s : UInt64) (c : UInt8) (n : UInt64) (mem : Mem) : Mem :=
  mem.write s.toNat (List.replicate n.toNat c)

/-- `rep movsb` -/
def memcpy (dst src n : UInt64) (mem : Mem) : Mem := Mem.copy dst.toNat src.toNat n.toNat mem

namespace Heap

/-- `heap_init`. -/
def heapInit (start end_ : UInt64) (h : Heap) : Heap :=
  { h with heapNext := roundUp start, heapEnd := end_ }

/-- `b->size` -/
def blockSize (b : UInt64) (h : Heap) : UInt64 := h.mem.load UInt64 b.toNat

/-- `malloc`. -/
def malloc (size : UInt64) (h : Heap) : UInt64 × Heap :=
  let size := roundUp size
  let avail := h.heapEnd - h.heapNext
  if avail < sizeofBlock ∨ avail - sizeofBlock < size then (0, { h with errno := enomem })
  else
    let b := h.heapNext
    (b + sizeofBlock,
      { h with
        mem := h.mem.store b.toNat size
        heapNext := h.heapNext + (sizeofBlock + size)
        heapLast := b })

/-- `free`. -/
def free (ptr : UInt64) (h : Heap) : Heap :=
  let b := ptr - sizeofBlock
  if ptr ≠ 0 ∧ b = h.heapLast then { h with heapNext := b, heapLast := 0 } else h

/-- `calloc`. -/
def calloc (n size : UInt64) (h : Heap) : UInt64 × Heap :=
  if size ≠ 0 ∧ sizeMax / size < n then (0, { h with errno := enomem })
  else
    let (p, h) := malloc (n * size) h
    if p ≠ 0 then (p, { h with mem := memset p 0 (n * size) h.mem }) else (0, h)

/-- `realloc`. -/
def realloc (ptr size : UInt64) (h : Heap) : UInt64 × Heap :=
  if ptr = 0 then malloc size h
  else
    let b := ptr - sizeofBlock
    if size ≤ h.blockSize b then (ptr, h)
    else
      let grown := roundUp size
      if b = h.heapLast ∧ grown - h.blockSize b ≤ h.heapEnd - h.heapNext then
        (ptr,
          { h with
            heapNext := h.heapNext + (grown - h.blockSize b)
            mem := h.mem.store b.toNat grown })
      else
        let (p, h) := malloc size h
        (p, if p ≠ 0 then { h with mem := memcpy p ptr (h.blockSize b) h.mem } else h)

end Heap

/-! ## Clients -/

/-- A block that a client holds: its address and the size that was asked for. -/
structure Block where
  ptr : UInt64
  size : UInt64
  deriving DecidableEq, Repr

/-- A call of the allocator. -/
inductive Call where
  | malloc (size : UInt64)
  | calloc (n size : UInt64)
  | realloc (ptr size : UInt64)
  | free (ptr : UInt64)

namespace Call

/-- The pointer that is returned, if any, and the heap. -/
def run : Call → Heap → UInt64 × Heap
  | malloc size, h => h.malloc size
  | calloc n size, h => h.calloc n size
  | realloc ptr size, h => h.realloc ptr size
  | free ptr, h => (0, h.free ptr)

/-- The pointer that is passed. -/
def arg : Call → UInt64
  | malloc _ => 0
  | calloc _ _ => 0
  | realloc ptr _ => ptr
  | free ptr => ptr

/-- The size that is asked for. -/
def size : Call → UInt64
  | malloc size => size
  | calloc n size => n * size
  | realloc _ size => size
  | free _ => 0

/-- The sizes that a client may ask for. A product that does not fit is refused. -/
def SizeOk : Call → Prop
  | malloc size => size ≤ sizeMax - 15
  | calloc n size => n.toNat * size.toNat ≤ (sizeMax - 15).toNat ∨
  sizeMax.toNat < n.toNat * size.toNat
  | realloc _ size => size ≤ sizeMax - 15
  | free _ => True

/-- The pointer is null or a live block's. -/
def Allowed (c : Call) (live : List Block) : Prop :=
  c.SizeOk ∧ (c.arg = 0 ∨ ∃ b ∈ live, b.ptr = c.arg)

/-- The live blocks after the call returned `p`. -/
def live (c : Call) (p : UInt64) (live : List Block) : List Block :=
  match c with
  | free ptr => live.filter fun b => b.ptr ≠ ptr
  | _ => if p = 0 then live else ⟨p, c.size⟩ :: live.filter fun b => b.ptr ≠ c.arg

end Call

/-- The heap with its client. -/
structure Client where
  heap : Heap
  live : List Block

namespace Client

/-- The heap is new and its variables are as the program's start leaves them. -/
def Start (start end_ : UInt64) (s : Client) : Prop :=
  ∃ h : Heap, h.heapLast = 0 ∧ s = ⟨h.heapInit start end_, []⟩

/-- The client after a call. -/
def after (s : Client) (c : Call) : Client := ⟨(c.run s.heap).2, c.live (c.run s.heap).1 s.live⟩

/-- The client calls the allocator, or writes to one of its blocks. -/
inductive Step (s : Client) : Client → Prop where
  | call (c : Call) : c.Allowed s.live → Step s (s.after c)
  | write (b : Block) (i : Nat) (v : UInt8) : b ∈ s.live → i < b.size.toNat →
      Step s ⟨{ s.heap with mem := s.heap.mem.write (b.ptr.toNat + i) [v] }, s.live⟩

end Client

/-- The size of a block in memory. -/
def Block.room (m : Mem) (b : Block) : Nat := (m.load UInt64 (b.ptr.toNat - 16)).toNat

/-- The bytes of a block. -/
def Block.payload (m : Mem) (b : Block) : Span := ⟨b.ptr.toNat, b.room m⟩

/-- A block with its header. -/
def Block.extent (m : Mem) (b : Block) : Span := ⟨b.ptr.toNat - 16, 16 + b.room m⟩

namespace Client

/-- What the live blocks are like. -/
structure Sound (start end_ : UInt64) (s : Client) : Prop where
  aligned : ∀ b ∈ s.live, 16 ∣ b.ptr.toNat
  inside : ∀ b ∈ s.live, start.toNat ≤ b.ptr.toNat ∧ b.ptr.toNat + b.room s.heap.mem ≤ end_.toNat
  large : ∀ b ∈ s.live, b.size.toNat ≤ b.room s.heap.mem
  apart : s.live.Pairwise fun b b' => (b.payload s.heap.mem).Apart (b'.payload s.heap.mem)

/-- The bytes of a block are as they were. -/
def Same (s s' : Client) (b : Block) : Prop :=
  b ∈ s'.live ∧ b.room s'.heap.mem = b.room s.heap.mem ∧
    ∀ a ∈ b.payload s.heap.mem, s'.heap.mem a = s.heap.mem a

/-- What a call that returned `p` has done. -/
structure Effect (s : Client) (c : Call) (p : UInt64) (s' : Client) : Prop where
  others : ∀ b ∈ s.live, b.ptr ≠ c.arg → s.Same s' b
  kept : ∀ ptr size, c = .realloc ptr size → p ≠ 0 → ∀ b ∈ s.live, b.ptr = ptr →
    ∀ i < min b.size.toNat size.toNat, s'.heap.mem (p.toNat + i) = s.heap.mem (ptr.toNat + i)
  zeroed : ∀ n size, c = .calloc n size → p ≠ 0 →
    ∀ i < n.toNat * size.toNat, s'.heap.mem (p.toNat + i) = 0
  failed : p = 0 → (∀ ptr, c ≠ .free ptr) → s'.live = s.live ∧ ∀ b ∈ s.live, s.Same s' b

end Client

/-! ## Sizes and addresses -/

/-- A size that can be is rounded up to 16. -/
lemma roundUp_toNat {n : UInt64} (h : n.toNat ≤ 2 ^ 64 - 16) :
    (roundUp n).toNat = (n.toNat + 15) / 16 * 16 := by
  have hadd : (n + 15).toNat = n.toNat + 15 := by
    rw [UInt64.toNat_add]
    show (n.toNat + 15) % 2 ^ 64 = _
    omega
  unfold roundUp
  rw [UInt64.toNat_and, hadd]
  exact and_highMask (k := 4) (by omega) (by simp)

/-- A block's header is 16 bytes in front of it. -/
lemma sub_header (ptr : UInt64) (h : 16 ≤ ptr.toNat) : (ptr - sizeofBlock).toNat = ptr.toNat - 16 :=
  UInt64.toNat_sub_of_le _ _ (UInt64.le_iff_toNat_le.mpr h)

/-- The largest size that does not wrap when it is rounded up. -/
lemma sizeMax_sub : (sizeMax - 15).toNat = 2 ^ 64 - 16 := rfl

/-- A block's room is in its header. -/
lemma room_congr {m m' : Mem} {b : Block}
    (h : ∀ a, b.ptr.toNat - 16 ≤ a → a < b.ptr.toNat - 8 → m' a = m a)
    (low : 16 ≤ b.ptr.toNat) : b.room m' = b.room m := by
  unfold Block.room
  rw [Mem.load_congr]
  rintro a ⟨hlo, hhi⟩
  apply h a hlo
  change a < b.ptr.toNat - 16 + 8 at hhi
  omega

/-! ## What the functions do -/

/-- A block was taken from the front of what was left. -/
structure Got (size : UInt64) (h : Heap) (p : UInt64) (h' : Heap) : Prop where
  ptr : p.toNat = h.heapNext.toNat + 16
  next : h'.heapNext.toNat = p.toNat + (roundUp size).toNat
  fits : h'.heapNext.toNat ≤ h.heapEnd.toNat
  last : h'.heapLast = h.heapNext
  state : h' = { h with
    mem := h.mem.store h.heapNext.toNat (roundUp size)
    heapNext := h'.heapNext
    heapLast := h'.heapLast }

namespace Heap

/-- `malloc` refuses, or takes a block behind the others. -/
lemma malloc_cases (size : UInt64) {h : Heap} (le : h.heapNext.toNat ≤ h.heapEnd.toNat) :
    h.malloc size = (0, { h with errno := enomem }) ∨
      ∃ p h', h.malloc size = (p, h') ∧ Got size h p h' := by
  have havail : (h.heapEnd - h.heapNext).toNat = h.heapEnd.toNat - h.heapNext.toNat :=
    UInt64.toNat_sub_of_le _ _ (UInt64.le_iff_toNat_le.mpr le)
  have hlt := h.heapEnd.toNat_lt
  by_cases hfull : h.heapEnd - h.heapNext < sizeofBlock ∨
      h.heapEnd - h.heapNext - sizeofBlock < roundUp size
  · left
    exact if_pos hfull
  · right
    obtain ⟨h₁, h₂⟩ := not_or.mp hfull
    have h₁ := UInt64.le_iff_toNat_le.mp (UInt64.not_lt.mp h₁)
    have h₂ := UInt64.le_iff_toNat_le.mp (UInt64.not_lt.mp h₂)
    rw [UInt64.toNat_sub_of_le _ _ (UInt64.le_iff_toNat_le.mpr h₁), havail] at h₂
    rw [havail] at h₁
    change 16 ≤ _ at h₁
    change (roundUp size).toNat ≤ _ - 16 at h₂
    have hptr : (h.heapNext + sizeofBlock).toNat = h.heapNext.toNat + 16 := by
      rw [UInt64.toNat_add]
      exact Nat.mod_eq_of_lt (by show _ + 16 < 2 ^ 64; omega)
    have hsum : (sizeofBlock + roundUp size).toNat = 16 + (roundUp size).toNat := by
      rw [UInt64.toNat_add]
      exact Nat.mod_eq_of_lt (by show 16 + _ < 2 ^ 64; omega)
    have hnext : (h.heapNext + (sizeofBlock + roundUp size)).toNat =
        h.heapNext.toNat + (16 + (roundUp size).toNat) := by
      rw [UInt64.toNat_add, hsum]
      exact Nat.mod_eq_of_lt (by omega)
    refine ⟨_, _, if_neg hfull, hptr, ?_, ?_, rfl, rfl⟩
    · show (h.heapNext + (sizeofBlock + roundUp size)).toNat = _
      rw [hnext, hptr]
      omega
    · show (h.heapNext + (sizeofBlock + roundUp size)).toNat ≤ _
      rw [hnext]
      omega

end Heap

/-- A block that was taken is not at the null address. -/
lemma Got.ne_zero {size p : UInt64} {h h' : Heap} (got : Got size h p h') : p ≠ 0 := by
  intro h0
  have hptr := got.ptr
  rw [h0] at hptr
  change 0 = _ at hptr
  omega

/-- What is stored in a block that was just taken leaves its header and all below it. -/
lemma Got.below {size p : UInt64} {h h' : Heap} {m : Mem} (got : Got size h p h')
    (agree : ∀ a < p.toNat, m a = h'.mem a) :
    (∀ a < h.heapNext.toNat, m a = h.mem a) ∧ m.load UInt64 h.heapNext.toNat = roundUp size := by
  have hptr := got.ptr
  have hmem : h'.mem = h.mem.store h.heapNext.toNat (roundUp size) := by rw [got.state]
  constructor
  · intro a ha
    rw [agree a (by omega), hmem]
    exact Mem.store_outside fun hin => absurd ha (Nat.not_lt_of_le hin.1)
  · have hload : m.load UInt64 h.heapNext.toNat = h'.mem.load UInt64 h.heapNext.toNat := by
      apply Mem.load_congr
      rintro a ⟨-, hhi⟩
      change a < h.heapNext.toNat + 8 at hhi
      exact agree a (by omega)
    rw [hload, hmem, Mem.load_store]

namespace Client

/-- What holds between the calls. -/
structure Inv (start end_ : UInt64) (s : Client) : Prop where
  end_eq : s.heap.heapEnd = end_
  start_le : start.toNat ≤ s.heap.heapNext.toNat
  le_end : s.heap.heapNext.toNat ≤ end_.toNat
  nextAligned : 16 ∣ s.heap.heapNext.toNat
  aligned : ∀ b ∈ s.live, 16 ∣ b.ptr.toNat
  low : ∀ b ∈ s.live, start.toNat + 16 ≤ b.ptr.toNat
  high : ∀ b ∈ s.live, b.ptr.toNat + b.room s.heap.mem ≤ s.heap.heapNext.toNat
  large : ∀ b ∈ s.live, b.size.toNat ≤ b.room s.heap.mem
  apart : s.live.Pairwise fun b b' => (b.extent s.heap.mem).Apart (b'.extent s.heap.mem)
  /-- the last block, if it is live, ends where the free part starts -/
  top : ∀ b ∈ s.live, b.ptr.toNat - 16 = s.heap.heapLast.toNat →
    b.ptr.toNat + b.room s.heap.mem = s.heap.heapNext.toNat

/-- A block is placed in memory that is fresh or was the argument's. -/
structure Placed (start : UInt64) (s : Client) (heap' : Heap) (arg p size : UInt64) : Prop where
  end_eq : heap'.heapEnd = s.heap.heapEnd
  next_le : s.heap.heapNext.toNat ≤ heap'.heapNext.toNat
  fits : heap'.heapNext.toNat ≤ s.heap.heapEnd.toNat
  nextAligned : 16 ∣ heap'.heapNext.toNat
  same : ∀ b ∈ s.live, b.ptr ≠ arg → b.room heap'.mem = b.room s.heap.mem
  aligned : 16 ∣ p.toNat
  low : start.toNat + 16 ≤ p.toNat
  high : p.toNat + Block.room heap'.mem ⟨p, size⟩ ≤ heap'.heapNext.toNat
  large : size.toNat ≤ Block.room heap'.mem ⟨p, size⟩
  fresh : ∀ b ∈ s.live, b.ptr ≠ arg →
    (Block.extent heap'.mem ⟨p, size⟩).Apart (b.extent s.heap.mem)
  topNew : p.toNat - 16 = heap'.heapLast.toNat →
    p.toNat + Block.room heap'.mem ⟨p, size⟩ = heap'.heapNext.toNat
  topOld : ∀ b ∈ s.live, b.ptr ≠ arg → b.ptr.toNat - 16 = heap'.heapLast.toNat →
    b.ptr.toNat + b.room s.heap.mem = heap'.heapNext.toNat

variable {start end_ : UInt64} {s : Client}

/-- A block may be given up. -/
lemma Inv.drop (h : s.Inv start end_) (arg : UInt64) :
    Inv start end_ ⟨s.heap, s.live.filter fun b => b.ptr ≠ arg⟩ where
  end_eq := h.end_eq
  start_le := h.start_le
  le_end := h.le_end
  nextAligned := h.nextAligned
  aligned := fun b hb => h.aligned b (List.mem_of_mem_filter hb)
  low := fun b hb => h.low b (List.mem_of_mem_filter hb)
  high := fun b hb => h.high b (List.mem_of_mem_filter hb)
  large := fun b hb => h.large b (List.mem_of_mem_filter hb)
  apart := h.apart.filter _
  top := fun b hb => h.top b (List.mem_of_mem_filter hb)

/-- A block may be placed behind the others, for one that is given up. -/
lemma Inv.place {heap' : Heap} {arg p size : UInt64} (h : s.Inv start end_)
    (pl : Placed start s heap' arg p size) :
    Inv start end_ ⟨heap', ⟨p, size⟩ :: s.live.filter fun b => b.ptr ≠ arg⟩ := by
  have split : ∀ b ∈ s.live.filter fun b => b.ptr ≠ arg, b ∈ s.live ∧ b.ptr ≠ arg := by
    intro b hb
    obtain ⟨hb, hne⟩ := List.mem_filter.mp hb
    exact ⟨hb, by simpa using hne⟩
  have extent : ∀ b ∈ s.live, b.ptr ≠ arg → b.extent heap'.mem = b.extent s.heap.mem := by
    intro b hb hne
    unfold Block.extent
    rw [pl.same b hb hne]
  refine ⟨pl.end_eq.trans h.end_eq, Nat.le_trans h.start_le pl.next_le, ?_,
    pl.nextAligned, ?_, ?_, ?_,
    ?_, ?_, ?_⟩
  · rw [← h.end_eq]
    exact pl.fits
  · refine List.forall_mem_cons.mpr ⟨pl.aligned, fun b hb => h.aligned b (split b hb).1⟩
  · refine List.forall_mem_cons.mpr ⟨pl.low, fun b hb => h.low b (split b hb).1⟩
  · refine List.forall_mem_cons.mpr ⟨pl.high, fun b hb => ?_⟩
    obtain ⟨hb, hne⟩ := split b hb
    dsimp only
    rw [pl.same b hb hne]
    exact Nat.le_trans (h.high b hb) pl.next_le
  · refine List.forall_mem_cons.mpr ⟨pl.large, fun b hb => ?_⟩
    obtain ⟨hb, hne⟩ := split b hb
    dsimp only
    rw [pl.same b hb hne]
    exact h.large b hb
  · refine List.pairwise_cons.mpr ⟨fun b hb => ?_, ?_⟩
    · obtain ⟨hb, hne⟩ := split b hb
      dsimp only
      rw [extent b hb hne]
      exact pl.fresh b hb hne
    · refine (h.apart.filter _).imp_of_mem fun {b b'} hb hb' hap => ?_
      dsimp only
      rw [extent b (split b hb).1 (split b hb).2, extent b' (split b' hb').1 (split b' hb').2]
      exact hap
  · refine List.forall_mem_cons.mpr ⟨pl.topNew, fun b hb ht => ?_⟩
    obtain ⟨hb, hne⟩ := split b hb
    dsimp only
    rw [pl.same b hb hne]
    exact pl.topOld b hb hne ht

/-- Live blocks with different addresses do not overlap. -/
lemma Inv.extent_apart (h : s.Inv start end_) {b b' : Block} (hb : b ∈ s.live) (hb' : b' ∈ s.live)
    (hne : b.ptr ≠ b'.ptr) : (b.extent s.heap.mem).Apart (b'.extent s.heap.mem) := by
  have : Std.Symm fun b b' : Block => (b.extent s.heap.mem).Apart (b'.extent s.heap.mem) :=
    ⟨fun _ _ h => h.symm⟩
  exact h.apart.forall hb hb' fun e => hne (congrArg Block.ptr e)

/-- The bytes of a live block lie below the free part. -/
lemma Inv.payload_lt (h : s.Inv start end_) {b : Block} (hb : b ∈ s.live) {a : Nat}
    (ha : a ∈ b.payload s.heap.mem) : a < s.heap.heapNext.toNat :=
  Nat.lt_of_lt_of_le ha.2 (h.high b hb)

/-- What happens behind the blocks leaves their room alone. -/
lemma Inv.room_below (h : s.Inv start end_) {m : Mem}
    (below : ∀ a < s.heap.heapNext.toNat, m a = s.heap.mem a)
    {b : Block} (hb : b ∈ s.live) : b.room m = b.room s.heap.mem := by
  have hlow := h.low b hb
  have hhigh := h.high b hb
  apply room_congr
  · intro a _ ha
    apply below
    omega
  · omega

/-- The room of a new block is the rounded size. -/
lemma got_room {size p : UInt64} {h' : Heap} {m : Mem} (req : UInt64) (got : Got size s.heap p h')
    (header : m.load UInt64 s.heap.heapNext.toNat = roundUp size) :
    Block.room m ⟨p, req⟩ = (roundUp size).toNat := by
  unfold Block.room
  dsimp only
  rw [got.ptr, Nat.add_sub_cancel, header]

/-- A block from the free part, whatever its bytes are. -/
lemma Inv.placed_got {size p : UInt64} {h' : Heap} {m : Mem} (h : s.Inv start end_)
    (got : Got size s.heap p h') (sizeOk : size.toNat ≤ 2 ^ 64 - 16)
    (below : ∀ a < s.heap.heapNext.toNat, m a = s.heap.mem a)
    (header : m.load UInt64 s.heap.heapNext.toNat = roundUp size) (arg : UInt64) :
    Placed start s { h' with mem := m } arg p size := by
  have hup := roundUp_toNat sizeOk
  have hptr := got.ptr
  have hnext := got.next
  have halign := h.nextAligned
  have hstart := h.start_le
  have hroom := got_room size got header
  constructor
  · show h'.heapEnd = _
    rw [got.state]
  · show _ ≤ h'.heapNext.toNat
    omega
  · exact got.fits
  · show 16 ∣ h'.heapNext.toNat
    omega
  · exact fun b hb _ => h.room_below below hb
  · omega
  · omega
  · show p.toNat + Block.room m ⟨p, size⟩ ≤ h'.heapNext.toNat
    rw [hroom, hnext]
  · show _ ≤ Block.room m ⟨p, size⟩
    rw [hroom]
    omega
  · intro b hb _
    refine (Span.apart_of_le ?_).symm
    show b.ptr.toNat - 16 + (16 + b.room s.heap.mem) ≤ p.toNat - 16
    have := h.high b hb
    have := h.low b hb
    omega
  · intro _
    show p.toNat + Block.room m ⟨p, size⟩ = h'.heapNext.toNat
    rw [hroom, hnext]
  · intro b hb _ ht
    change _ = h'.heapLast.toNat at ht
    rw [got.last] at ht
    have := h.high b hb
    have := h.low b hb
    omega

/-! ## Calls -/

/-- A call keeps the invariant and has the effect it should have. -/
structure Done (start end_ : UInt64) (s : Client) (c : Call) : Prop where
  inv : (s.after c).Inv start end_
  effect : s.Effect c (c.run s.heap).1 (s.after c)

/-- A call that fails leaves the live blocks as they are. -/
lemma live_zero {c : Call} (hc : ∀ ptr, c ≠ .free ptr) (live : List Block) :
    c.live 0 live = live := by
  cases c with
  | malloc size => rfl
  | calloc n size => rfl
  | realloc ptr size => rfl
  | free ptr => exact absurd rfl (hc ptr)

/-- A block that is returned takes the place of the one that was passed. -/
lemma live_some {c : Call} {p : UInt64} (hc : ∀ ptr, c ≠ .free ptr) (hp : p ≠ 0)
    (live : List Block) :
    c.live p live = ⟨p, c.size⟩ :: live.filter fun b => b.ptr ≠ c.arg := by
  cases c with
  | malloc size => exact if_neg hp
  | calloc n size => exact if_neg hp
  | realloc ptr size => exact if_neg hp
  | free ptr => exact absurd rfl (hc ptr)

/-- A call that has failed. -/
lemma Inv.failed {c : Call} {errno : UInt32} (h : s.Inv start end_) (hc : ∀ ptr, c ≠ .free ptr)
    (run : c.run s.heap = (0, { s.heap with errno := errno })) : Done start end_ s c := by
  have hafter : s.after c = ⟨{ s.heap with errno := errno }, s.live⟩ := by
    unfold after
    rw [run, live_zero hc]
  have same : ∀ b ∈ s.live, s.Same (s.after c) b := by
    intro b hb
    rw [hafter]
    exact ⟨hb, rfl, fun _ _ => rfl⟩
  constructor
  · rw [hafter]
    exact ⟨h.end_eq, h.start_le, h.le_end, h.nextAligned, h.aligned, h.low, h.high, h.large,
      h.apart, h.top⟩
  · rw [run]
    exact ⟨fun b hb _ => same b hb, fun _ _ _ hp => absurd rfl hp, fun _ _ _ hp => absurd rfl hp,
      fun _ _ => ⟨by rw [hafter], same⟩⟩

/-- A call that returns a block with some bytes. -/
lemma Inv.placed {c : Call} {p : UInt64} {heap' : Heap} (h : s.Inv start end_)
    (hc : ∀ ptr, c ≠ .free ptr)
    (run : c.run s.heap = (p, heap')) (hp : p ≠ 0) (pl : Placed start s heap' c.arg p c.size)
    (others : ∀ b ∈ s.live, b.ptr ≠ c.arg → ∀ a ∈ b.payload s.heap.mem, heap'.mem a = s.heap.mem a)
    (kept : ∀ ptr size, c = .realloc ptr size → ∀ b ∈ s.live, b.ptr = ptr →
      ∀ i < min b.size.toNat size.toNat, heap'.mem (p.toNat + i) = s.heap.mem (ptr.toNat + i))
    (zeroed : ∀ n size, c = .calloc n size → ∀ i < n.toNat * size.toNat,
      heap'.mem (p.toNat + i) = 0) :
    Done start end_ s c := by
  have hafter : s.after c = ⟨heap', ⟨p, c.size⟩ :: s.live.filter fun b => b.ptr ≠ c.arg⟩ := by
    unfold after
    rw [run, live_some hc hp]
  constructor
  · rw [hafter]
    exact h.place pl
  · rw [run, hafter]
    refine ⟨fun b hb hne => ⟨?_, pl.same b hb hne, others b hb hne⟩, fun ptr size e _ =>
      kept ptr size e,
      fun n size e _ => zeroed n size e, fun h0 => absurd h0 hp⟩
    exact List.mem_cons_of_mem _ (List.mem_filter.mpr ⟨hb, by simpa using hne⟩)

/-- `malloc` of a size that does not wrap. -/
lemma Inv.done_malloc {size : UInt64} (h : s.Inv start end_) (sizeOk : size.toNat ≤ 2 ^ 64 - 16) :
    Done start end_ s (.malloc size) := by
  rcases Heap.malloc_cases size (h.end_eq ▸ h.le_end) with run | ⟨p, h', run, got⟩
  · exact h.failed (fun _ => by simp) run
  · obtain ⟨below, header⟩ := got.below fun a _ => rfl
    apply h.placed (c := .malloc size) (fun _ => by simp) run got.ne_zero
    · exact h.placed_got got sizeOk below header 0
    · exact fun b hb _ a ha => below a (h.payload_lt hb ha)
    · intro _ _ e
      cases e
    · intro _ _ e
      cases e

/-- `calloc` of a product that does not wrap. -/
lemma Inv.done_calloc {n size : UInt64} (h : s.Inv start end_)
    (sizeOk : (Call.calloc n size).SizeOk) :
    Done start end_ s (.calloc n size) := by
  by_cases hbig : size ≠ 0 ∧ sizeMax / size < n
  · exact h.failed (fun _ => by simp) (if_pos hbig)
  · have hrun : s.heap.calloc n size = _ := if_neg hbig
    -- the product fits
    have hle : n.toNat * size.toNat ≤ 2 ^ 64 - 1 := by
      by_cases h0 : size = 0
      · rw [h0]
        simp
      · have hdiv := UInt64.le_iff_toNat_le.mp (UInt64.not_lt.mp fun hlt => hbig ⟨h0, hlt⟩)
        rw [UInt64.toNat_div] at hdiv
        exact Nat.le_trans (Nat.mul_le_mul_right _ hdiv) (Nat.div_mul_le_self _ _)
    have hmul : (n * size).toNat = n.toNat * size.toNat := by
      rw [UInt64.toNat_mul]
      exact Nat.mod_eq_of_lt (by omega)
    have hsize : (n * size).toNat ≤ 2 ^ 64 - 16 := by
      rw [hmul]
      rcases sizeOk with hok | hok
      · exact hok
      · exact absurd hle (Nat.not_le_of_lt hok)
    rcases Heap.malloc_cases (n * size) (h.end_eq ▸ h.le_end) with run | ⟨p, h', run, got⟩
    · rw [run] at hrun
      exact h.failed (fun _ => by simp) hrun
    · rw [run] at hrun
      have hrun := hrun.trans (if_pos got.ne_zero)
      have agree : ∀ a < p.toNat, memset p 0 (n * size) h'.mem a = h'.mem a :=
        fun a ha => Mem.write_outside fun hin => absurd ha (Nat.not_lt_of_le hin.1)
      obtain ⟨below, header⟩ := got.below agree
      apply h.placed (c := .calloc n size) (fun _ => by simp) hrun got.ne_zero
      · exact h.placed_got got hsize below header 0
      · exact fun b hb _ a ha => below a (h.payload_lt hb ha)
      · intro _ _ e
        cases e
      · intro n' size' e i hi
        cases e
        rw [← hmul] at hi
        have hlen : i < (List.replicate (n * size).toNat (0 : UInt8)).length := by
          rw [List.length_replicate]
          exact hi
        have hwrite : memset p 0 (n * size) h'.mem (p.toNat + i) = _ := Mem.write_inside hlen
        exact hwrite.trans (List.getElem_replicate _)

/-- A live block's header says how much room it has. -/
lemma Inv.header_eq (h : s.Inv start end_) {b : Block} (hb : b ∈ s.live) :
    (b.ptr - sizeofBlock).toNat = b.ptr.toNat - 16 ∧
      (s.heap.blockSize (b.ptr - sizeofBlock)).toNat = b.room s.heap.mem := by
  have hlow := h.low b hb
  have hsub := sub_header b.ptr (by omega)
  refine ⟨hsub, ?_⟩
  unfold Heap.blockSize Block.room
  rw [hsub]

/-- A block that stays where it is. -/
lemma Inv.placed_same {b : Block} {size : UInt64} (h : s.Inv start end_) (hb : b ∈ s.live)
    (hsize : size.toNat ≤ b.room s.heap.mem) : Placed start s s.heap b.ptr b.ptr size where
  end_eq := rfl
  next_le := Nat.le_refl _
  fits := by
    rw [h.end_eq]
    exact h.le_end
  nextAligned := h.nextAligned
  same := fun _ _ _ => rfl
  aligned := h.aligned b hb
  low := h.low b hb
  high := h.high b hb
  large := hsize
  fresh := by
    intro b' hb' hne
    show (b.extent s.heap.mem).Apart (b'.extent s.heap.mem)
    exact h.extent_apart hb hb' hne.symm
  topNew := h.top b hb
  topOld := fun b' hb' _ => h.top b' hb'

/-- The other blocks end before the last one starts. -/
lemma Inv.before_last (h : s.Inv start end_) {b b' : Block} (hb : b ∈ s.live) (hb' : b' ∈ s.live)
    (hne : b'.ptr ≠ b.ptr) (top : b.ptr.toNat + b.room s.heap.mem = s.heap.heapNext.toNat) :
    b'.ptr.toNat + b'.room s.heap.mem ≤ b.ptr.toNat - 16 := by
  have apart := Span.apart_iff.mp (h.extent_apart hb' hb hne)
  unfold Block.extent at apart
  dsimp only at apart
  have := h.high b' hb'
  have := h.low b' hb'
  have := h.low b hb
  omega

/-- The last block ends where the next one would start. -/
lemma Inv.top_of_last (h : s.Inv start end_) {b : Block} (hb : b ∈ s.live)
    (last : b.ptr - sizeofBlock = s.heap.heapLast) :
    b.ptr.toNat + b.room s.heap.mem = s.heap.heapNext.toNat := by
  apply h.top b hb
  rw [← last]
  exact (h.header_eq hb).1.symm

/-- The last block grows into the free part. -/
lemma Inv.placed_grown {b : Block} {size : UInt64} (h : s.Inv start end_) (hb : b ∈ s.live)
    (last : b.ptr - sizeofBlock = s.heap.heapLast) (sizeOk : size.toNat ≤ 2 ^ 64 - 16)
    (larger : b.room s.heap.mem < size.toNat)
    (room : (roundUp size).toNat - b.room s.heap.mem ≤
      s.heap.heapEnd.toNat - s.heap.heapNext.toNat) :
    Placed start s
      { s.heap with
        heapNext := s.heap.heapNext + (roundUp size - s.heap.blockSize (b.ptr - sizeofBlock))
        mem := s.heap.mem.store (b.ptr - sizeofBlock).toNat (roundUp size) } b.ptr b.ptr size ∧
      ∀ a, a < b.ptr.toNat - 16 ∨ b.ptr.toNat - 8 ≤ a →
        s.heap.mem.store (b.ptr - sizeofBlock).toNat (roundUp size) a = s.heap.mem a := by
  obtain ⟨hhdr, hsize⟩ := h.header_eq hb
  have hup := roundUp_toNat sizeOk
  have htop := h.top_of_last hb last
  have hlow := h.low b hb
  have halign := h.aligned b hb
  have hle := h.le_end
  have hend := end_.toNat_lt
  rw [h.end_eq] at room
  have hmore : (roundUp size - s.heap.blockSize (b.ptr - sizeofBlock)).toNat =
      (roundUp size).toNat - b.room s.heap.mem := by
    rw [UInt64.toNat_sub_of_le _ _ (UInt64.le_iff_toNat_le.mpr (by omega)), hsize]
  have hnext : (s.heap.heapNext + (roundUp size - s.heap.blockSize (b.ptr - sizeofBlock))).toNat =
      b.ptr.toNat + (roundUp size).toNat := by
    rw [UInt64.toNat_add, hmore, Nat.mod_eq_of_lt (by omega)]
    omega
  -- only the size in the header of the block changes
  have outside : ∀ a, a < b.ptr.toNat - 16 ∨ b.ptr.toNat - 8 ≤ a →
      s.heap.mem.store (b.ptr - sizeofBlock).toNat (roundUp size) a = s.heap.mem a := by
    intro a ha
    rw [hhdr]
    apply Mem.store_outside
    rintro ⟨hlo, hhi⟩
    change b.ptr.toNat - 16 ≤ a at hlo
    change a < b.ptr.toNat - 16 + 8 at hhi
    omega
  have hroom : Block.room (s.heap.mem.store (b.ptr - sizeofBlock).toNat (roundUp size))
    ⟨b.ptr, size⟩ =
      (roundUp size).toNat := by
    unfold Block.room
    rw [hhdr, Mem.load_store]
  refine ⟨?_, outside⟩
  constructor
  · rfl
  · show _ ≤ (s.heap.heapNext + _).toNat
    omega
  · show (s.heap.heapNext + _).toNat ≤ _
    rw [h.end_eq]
    omega
  · show 16 ∣ (s.heap.heapNext + _).toNat
    omega
  · intro b' hb' hne
    have := h.before_last hb hb' hne htop
    have := h.low b' hb'
    apply room_congr
    · intro a _ ha
      exact outside a (.inl (by omega))
    · omega
  · exact halign
  · exact hlow
  · show b.ptr.toNat + Block.room _ ⟨b.ptr, size⟩ ≤ (s.heap.heapNext + _).toNat
    rw [hroom, hnext]
  · show _ ≤ Block.room _ ⟨b.ptr, size⟩
    rw [hroom]
    omega
  · intro b' hb' hne
    refine (Span.apart_of_le ?_).symm
    show b'.ptr.toNat - 16 + (16 + b'.room s.heap.mem) ≤ b.ptr.toNat - 16
    have := h.before_last hb hb' hne htop
    have := h.low b' hb'
    omega
  · intro _
    show b.ptr.toNat + Block.room _ ⟨b.ptr, size⟩ = (s.heap.heapNext + _).toNat
    rw [hroom, hnext]
  · intro b' hb' hne ht
    change _ = s.heap.heapLast.toNat at ht
    -- two headers at one address are of the same block
    rw [← last, hhdr] at ht
    have := h.low b' hb'
    exact absurd (UInt64.toNat_inj.mp (by omega)) hne

/-- The block is copied to a new one. -/
lemma Inv.done_moved {b : Block} {size p : UInt64} {h' : Heap} (h : s.Inv start end_)
    (hb : b ∈ s.live) (sizeOk : size.toNat ≤ 2 ^ 64 - 16) (got : Got size s.heap p h')
    (run : s.heap.realloc b.ptr size =
      (p, { h' with mem := memcpy p b.ptr (h'.blockSize (b.ptr - sizeofBlock)) h'.mem })) :
    Done start end_ s (.realloc b.ptr size) := by
  obtain ⟨hhdr, hsize⟩ := h.header_eq hb
  have hlow := h.low b hb
  have hhigh := h.high b hb
  have hptr := got.ptr
  obtain ⟨same, -⟩ := got.below fun a _ => rfl
  -- the header is as it was when the bytes are copied
  have hcopied : (h'.blockSize (b.ptr - sizeofBlock)).toNat = b.room s.heap.mem := by
    unfold Heap.blockSize
    rw [hhdr]
    exact h.room_below same hb
  have agree : ∀ a < p.toNat,
      memcpy p b.ptr (h'.blockSize (b.ptr - sizeofBlock)) h'.mem a = h'.mem a :=
    fun a ha => Mem.copy_outside (.inl ha)
  have copied : ∀ i < b.room s.heap.mem,
      memcpy p b.ptr (h'.blockSize (b.ptr - sizeofBlock)) h'.mem (p.toNat + i) =
        h'.mem (b.ptr.toNat + i) := by
    intro i hi
    rw [← hcopied] at hi
    exact Mem.copy_inside (by omega) hi
  generalize memcpy p b.ptr (h'.blockSize (b.ptr - sizeofBlock)) h'.mem = m at *
  obtain ⟨below, header⟩ := got.below agree
  apply h.placed (c := .realloc b.ptr size) (fun _ => by simp) run got.ne_zero
  · exact h.placed_got got sizeOk below header b.ptr
  · exact fun b' hb' _ a ha => below a (h.payload_lt hb' ha)
  · intro _ _ e b' hb' hptr' i hi
    cases e
    have hroom : b'.room s.heap.mem = b.room s.heap.mem := by
      unfold Block.room
      rw [hptr']
    have hlt : i < b.room s.heap.mem := by
      rw [← hroom]
      exact Nat.lt_of_lt_of_le (Nat.lt_of_lt_of_le hi (Nat.min_le_left ..)) (h.large b' hb')
    exact (copied i hlt).trans (same _ (by omega))
  · intro _ _ e
    cases e

/-- `realloc` of a live block: grown in place, kept or moved. -/
lemma Inv.done_realloc {ptr size : UInt64} (h : s.Inv start end_)
    (allowed : (Call.realloc ptr size).Allowed s.live) (sizeOk : size.toNat ≤ 2 ^ 64 - 16) :
    Done start end_ s (.realloc ptr size) := by
  have noFree : ∀ ptr', Call.realloc ptr size ≠ .free ptr' := fun _ => by simp
  -- with no block, `realloc` is `malloc`
  by_cases hnull : ptr = 0
  · have hrun : s.heap.realloc ptr size = _ := if_pos hnull
    rcases Heap.malloc_cases size (h.end_eq ▸ h.le_end) with run | ⟨p, h', run, got⟩
    · exact h.failed noFree (hrun.trans run)
    · obtain ⟨below, header⟩ := got.below fun a _ => rfl
      apply h.placed (c := .realloc ptr size) noFree (hrun.trans run) got.ne_zero
      · exact h.placed_got got sizeOk below header ptr
      · exact fun b hb _ a ha => below a (h.payload_lt hb ha)
      · intro _ _ e b hb hptr
        cases e
        have hlow := h.low b hb
        rw [hptr, hnull] at hlow
        exact absurd hlow (Nat.not_le_of_lt (Nat.zero_lt_succ _))
      · intro _ _ e
        cases e
  · have hrun : s.heap.realloc ptr size = _ := if_neg hnull
    obtain ⟨b, hb, rfl⟩ := allowed.2.resolve_left hnull
    obtain ⟨hhdr, hsize⟩ := h.header_eq hb
    have hlow := h.low b hb
    -- there is room in the block as it is
    by_cases hfits : size ≤ s.heap.blockSize (b.ptr - sizeofBlock)
    · apply h.placed (c := .realloc b.ptr size) noFree (hrun.trans (if_pos hfits)) hnull
      · apply h.placed_same hb
        rw [← hsize]
        exact UInt64.le_iff_toNat_le.mp hfits
      · exact fun _ _ _ _ _ => rfl
      · intro _ _ e _ _ _ _ _
        cases e
        rfl
      · intro _ _ e
        cases e
    · have hrun := hrun.trans (if_neg hfits)
      have larger : b.room s.heap.mem < size.toNat := by
        rw [← hsize]
        exact UInt64.lt_iff_toNat_lt.mp (UInt64.not_le.mp hfits)
      have hup := roundUp_toNat sizeOk
      -- the last block grows; any other is copied to a new one
      by_cases hgrow : b.ptr - sizeofBlock = s.heap.heapLast ∧
          roundUp size - s.heap.blockSize (b.ptr - sizeofBlock) ≤ s.heap.heapEnd - s.heap.heapNext
      · have room : (roundUp size).toNat - b.room s.heap.mem ≤
            s.heap.heapEnd.toNat - s.heap.heapNext.toNat := by
          have hle := UInt64.le_iff_toNat_le.mp hgrow.2
          rw [UInt64.toNat_sub_of_le _ _ (UInt64.le_iff_toNat_le.mpr (by omega)), hsize,
            UInt64.toNat_sub_of_le _ _ (UInt64.le_iff_toNat_le.mpr (h.end_eq ▸ h.le_end))] at hle
          exact hle
        obtain ⟨pl, outside⟩ := h.placed_grown hb hgrow.1 sizeOk larger room
        apply h.placed (c := .realloc b.ptr size) noFree (hrun.trans (if_pos hgrow)) hnull pl
        · intro b' hb' hne a ha
          have := h.before_last hb hb' hne (h.top_of_last hb hgrow.1)
          exact outside a (.inl (Nat.lt_of_lt_of_le ha.2 this))
        · intro _ _ e _ _ _ i _
          cases e
          exact outside _ (.inr (by omega))
        · intro _ _ e
          cases e
      · have hrun := hrun.trans (if_neg hgrow)
        rcases Heap.malloc_cases size (h.end_eq ▸ h.le_end) with run | ⟨p, h', run, got⟩
        · rw [run] at hrun
          exact h.failed noFree hrun
        · rw [run] at hrun
          apply h.done_moved hb sizeOk got
          rw [hrun]
          exact congrArg (Prod.mk p) (if_pos got.ne_zero)

/-- The client does not hold a block any more; the heap may have taken it back. -/
lemma Inv.done_free {ptr : UInt64} (pos : 0 < start.toNat) (h : s.Inv start end_)
    (allowed : (Call.free ptr).Allowed s.live) : Done start end_ s (.free ptr) := by
  have effect : ∀ heap', heap'.mem = s.heap.mem →
      s.Effect (.free ptr) 0 ⟨heap', s.live.filter fun b => b.ptr ≠ ptr⟩ := by
    intro heap' hmem
    refine ⟨fun b hb hne =>
      ⟨List.mem_filter.mpr ⟨hb, by simpa [Call.arg] using hne⟩, ?_, fun a _ => ?_⟩,
      fun _ _ e => ?_, fun _ _ e => ?_, fun _ hne => absurd rfl (hne ptr)⟩
    · dsimp only
      rw [hmem]
    · dsimp only
      rw [hmem]
    · cases e
    · cases e
  -- only the last block goes back to the free part
  by_cases hlast : ptr ≠ 0 ∧ ptr - sizeofBlock = s.heap.heapLast
  · have hrun : s.heap.free ptr = _ := if_pos hlast
    have hafter : s.after (.free ptr) = ⟨s.heap.free ptr, s.live.filter fun b => b.ptr ≠ ptr⟩ := rfl
    rw [hrun] at hafter
    obtain ⟨b, hb, hptr⟩ := allowed.2.resolve_left hlast.1
    change b.ptr = ptr at hptr
    subst hptr
    obtain ⟨hhdr, -⟩ := h.header_eq hb
    have hlow := h.low b hb
    have hhigh := h.high b hb
    have halign := h.aligned b hb
    have hle := h.le_end
    have drop := h.drop b.ptr
    constructor
    · rw [hafter]
      refine ⟨drop.end_eq, ?_, ?_, ?_, drop.aligned, drop.low, ?_, drop.large, drop.apart, ?_⟩
      · show _ ≤ (b.ptr - sizeofBlock).toNat
        omega
      · show (b.ptr - sizeofBlock).toNat ≤ _
        omega
      · show 16 ∣ (b.ptr - sizeofBlock).toNat
        omega
      · intro b' hb'
        obtain ⟨hb', hne⟩ := List.mem_filter.mp hb'
        show _ ≤ (b.ptr - sizeofBlock).toNat
        rw [hhdr]
        exact h.before_last hb hb' (by simpa using hne) (h.top_of_last hb hlast.2)
      · intro b' hb' ht
        have := drop.low b' hb'
        change _ = 0 at ht
        omega
    · rw [hafter]
      exact effect _ rfl
  · have hrun : s.heap.free ptr = _ := if_neg hlast
    have hafter : s.after (.free ptr) = ⟨s.heap.free ptr, s.live.filter fun b => b.ptr ≠ ptr⟩ := rfl
    rw [hrun] at hafter
    constructor
    · rw [hafter]
      exact h.drop ptr
    · rw [hafter]
      exact effect s.heap rfl

/-- Every allowed call keeps the invariant and gives what it should. -/
lemma Inv.done {c : Call} (pos : 0 < start.toNat) (h : s.Inv start end_)
    (allowed : c.Allowed s.live) :
    Done start end_ s c := by
  cases c with
  | malloc size => exact h.done_malloc (UInt64.le_iff_toNat_le.mp allowed.1)
  | calloc n size => exact h.done_calloc allowed.1
  | realloc ptr size => exact h.done_realloc allowed (UInt64.le_iff_toNat_le.mp allowed.1)
  | free ptr => exact h.done_free pos allowed

/-! ## Runs -/

/-- A new heap meets the invariant. -/
lemma Start.inv (room : (start.toNat + 15) / 16 * 16 ≤ end_.toNat) (h : Start start end_ s) :
    s.Inv start end_ := by
  obtain ⟨heap, -, rfl⟩ := h
  have hend := end_.toNat_lt
  have hup := roundUp_toNat (n := start) (by omega)
  refine ⟨rfl, ?_, ?_, ?_, fun b hb => ?_, fun b hb => ?_, fun b hb => ?_, fun b hb => ?_,
    List.Pairwise.nil,
    fun b hb => ?_⟩
  · show _ ≤ (roundUp start).toNat
    omega
  · show (roundUp start).toNat ≤ _
    omega
  · show 16 ∣ (roundUp start).toNat
    omega
  all_goals cases hb

/-- A write to a live block leaves all headers. -/
lemma Inv.write (h : s.Inv start end_) {b : Block} {i : Nat} {v : UInt8} (hb : b ∈ s.live)
    (hi : i < b.size.toNat) :
    Inv start end_ ⟨{ s.heap with mem := s.heap.mem.write (b.ptr.toNat + i) [v] }, s.live⟩ := by
  have hlow := h.low b hb
  have hlt := Nat.lt_of_lt_of_le hi (h.large b hb)
  have rooms : ∀ b' ∈ s.live, b'.room (s.heap.mem.write (b.ptr.toNat + i) [v]) =
    b'.room s.heap.mem := by
    intro b' hb'
    have hlow' := h.low b' hb'
    apply room_congr
    · intro a hlo hhi
      apply Mem.write_byte_ne
      rintro rfl
      by_cases hne : b.ptr = b'.ptr
      · rw [hne] at hhi
        omega
      · apply h.extent_apart hb hb' hne (b.ptr.toNat + i)
        · exact ⟨by show b.ptr.toNat - 16 ≤ _; omega,
            by show _ < b.ptr.toNat - 16 + (16 + _); omega⟩
        · exact ⟨hlo, by show _ < b'.ptr.toNat - 16 + (16 + _); omega⟩
    · omega
  refine ⟨h.end_eq, h.start_le, h.le_end, h.nextAligned, h.aligned, h.low, fun b' hb' => ?_,
    fun b' hb' => ?_, ?_, fun b' hb' ht => ?_⟩
  · dsimp only
    rw [rooms b' hb']
    exact h.high b' hb'
  · dsimp only
    rw [rooms b' hb']
    exact h.large b' hb'
  · refine h.apart.imp_of_mem fun {b₁ b₂} h₁ h₂ hap => ?_
    unfold Block.extent
    dsimp only
    rw [rooms b₁ h₁, rooms b₂ h₂]
    exact hap
  · dsimp only
    rw [rooms b' hb']
    exact h.top b' hb' ht

/-- Every step of the client keeps the invariant. -/
lemma Step.inv {s' : Client} (pos : 0 < start.toNat) (h : s.Inv start end_) (step : s.Step s') :
    s'.Inv start end_ := by
  cases step with
  | call c allowed => exact (h.done pos allowed).inv
  | write b i v hb hi => exact h.write hb hi

/-- It says that the blocks are sound. -/
lemma Inv.sound (h : s.Inv start end_) : s.Sound start end_ where
  aligned := h.aligned
  inside := fun b hb =>
    ⟨Nat.le_trans (Nat.le_add_right _ _) (h.low b hb), Nat.le_trans (h.high b hb) h.le_end⟩
  large := h.large
  apart := by
    refine h.apart.imp fun {b b'} hap => hap.mono ?_ ?_
    · exact Span.inside_of_le (Nat.sub_le _ _)
        (by unfold Block.payload Block.extent; dsimp only; omega)
    · exact Span.inside_of_le (Nat.sub_le _ _)
        (by unfold Block.payload Block.extent; dsimp only; omega)

/-- The heap of a region that does not start at the null address: its live blocks are sound after
every run, and a call does to them what it should. -/
theorem heap_integrity {s : Client} {start end_ : UInt64} (pos : 0 < start)
    (room : start.toNat + 15 ≤ end_.toNat) (h : Reach (Start start end_) Step s) :
    s.Sound start end_ ∧ ∀ c :
    Call, c.Allowed s.live → s.Effect c (c.run s.heap).1 (s.after c) := by
  have pos := UInt64.lt_iff_toNat_lt.mp pos
  have inv : s.Inv start end_ :=
    Reach.invariant (fun _ => Start.inv (by omega)) (fun _ _ inv step => step.inv pos inv) h
  exact ⟨inv.sound, fun c allowed => (inv.done pos allowed).effect⟩

/-- A client that holds nothing. -/
def idle (start end_ : UInt64) : Client := ⟨Heap.heapInit start end_ ⟨fun _ => 0, 0, 0, 0, 0⟩, []⟩

/-- A new heap is reached. -/
lemma idle_start (start end_ : UInt64) : Reach (Start start end_) Step (idle start end_) :=
  .init ⟨_, rfl, rfl⟩

/-- `malloc` may be called with any size that does not wrap. -/
lemma malloc_allowed {size : UInt64} (h : size ≤ sizeMax - 15) (live : List Block) :
    (Call.malloc size).Allowed live := ⟨h, .inl rfl⟩

/-- Two blocks, the second from `calloc`. -/
theorem two_blocks_sound :
    (((idle 0x100000 0x200000).after (.malloc 100)).after (.calloc 3 7)).Sound 0x100000
      0x200000 := by
  have first := (idle_start 0x100000 0x200000).step
    (.call (.malloc 100) (malloc_allowed (by simp [sizeMax]) _))
  have second := first.step (.call (.calloc 3 7) ⟨.inl (by simp [sizeMax]), .inl rfl⟩)
  exact (heap_integrity (by simp) (by simp) second).1

/-- The blocks of a heap at the null address after the last of three was freed. -/
def nullHeap : Client :=
  ((((idle 0 0x1000).after (.malloc 16)).after (.malloc 16)).after (.malloc 16)).after (.free 80)

/-- No block is the last any more, so the one at the null address is taken for
it, and grows over the next. -/
def nullGrown : Client := nullHeap.after (.realloc 16 64)

/-- With a heap that starts at the null address, growing what is there overlaps another block. -/
theorem null_block_overlaps :
    Reach (Start 0 0x1000) Step nullGrown ∧ ¬ nullGrown.Sound 0 0x1000 := by
  have small : (16 : UInt64) ≤ sizeMax - 15 := by simp [sizeMax]
  have first := (idle_start 0 0x1000).step (.call (.malloc 16) (malloc_allowed small _))
  have second := first.step (.call (.malloc 16) (malloc_allowed small _))
  have third := second.step (.call (.malloc 16) (malloc_allowed small _))
  have freed : Reach (Start 0 0x1000) Step nullHeap :=
    third.step (.call (.free 80) ⟨trivial, .inr ⟨⟨80, 16⟩, by decide, rfl⟩⟩)
  have fits : (64 : UInt64) ≤ sizeMax - 15 := by simp [sizeMax]
  have grown : Reach (Start 0 0x1000) Step nullGrown :=
    freed.step (.call (.realloc 16 64) ⟨fits, .inr ⟨⟨16, 16⟩, by decide, rfl⟩⟩)
  refine ⟨grown, fun sound => ?_⟩
  have apart := sound.apart
  revert apart
  decide

end Client

end Hearth.Doom
