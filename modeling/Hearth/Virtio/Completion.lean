import Hearth.Lib.Counter
import Hearth.Lib.Transition
import Hearth.Virtio.Notify

/-!
# Completion in order

A driver submits chains on the available rings and the device hands them back on the used rings. The
two indices of a ring run on modulo `2 ^ 16`, and a slot is selected by an index modulo the ring's
size. `Rings.Step` is the system of a driver that keeps to the protocol and a device that handles
notifications and polls between the driver's steps; the list `heads` of all the heads a driver has
submitted to a queue is kept beside the world.

`completion_in_order` is the result: in every reached state each used ring holds the first of the
submitted heads, in order and each once, and after a notification that the device could go on with
it holds all of them. `QueueInv` is the invariant, with the list of completions as its witness.
-/

namespace Hearth
open Lib

variable {D : Type} {mem : GuestMemory} {queue : Fin vringQueuesMax → VringQueue}

/-! ## The areas of the queues -/

/-- Where the rings of the live queues are. What a driver promises of them: the sizes are powers of
    two up to 32768, the rings are in guest memory, and no used ring overlaps another ring or an
    entry of a descriptor table. -/
structure RingLayout (mem : GuestMemory) (queue : Fin vringQueuesMax → VringQueue) where
  availPtr : Fin vringQueuesMax → Nat
  usedPtr : Fin vringQueuesMax → Nat
  size : ∀ q, (queue q).Live → ∃ k ≤ 15, (queue q).num.toNat = 2 ^ k
  avail : ∀ q, (queue q).Live →
    gpaToHost mem (queue q).avail (queue q).availSize = some (availPtr q)
  used : ∀ q, (queue q).Live → gpaToHost mem (queue q).used (queue q).usedSize = some (usedPtr q)
  used_avail : ∀ q q', (queue q).Live → (queue q').Live →
    Span.Apart ⟨usedPtr q, (queue q).usedSize⟩ ⟨availPtr q', (queue q').availSize⟩
  used_used : ∀ q q', (queue q).Live → (queue q').Live → q ≠ q' →
    Span.Apart ⟨usedPtr q, (queue q).usedSize⟩ ⟨usedPtr q', (queue q').usedSize⟩
  used_table : ∀ q q', (queue q).Live → (queue q').Live →
    ∀ idx s, idx.toNat < (queue q').num.toNat → (queue q').descSpan? mem idx = some s →
      Span.Apart ⟨usedPtr q, (queue q).usedSize⟩ s

namespace RingLayout

/-- The bytes of the available ring. -/
def availSpan (L : RingLayout mem queue) (q : Fin vringQueuesMax) : Span :=
  ⟨L.availPtr q, (queue q).availSize⟩

/-- The bytes of the used ring. -/
def usedSpan (L : RingLayout mem queue) (q : Fin vringQueuesMax) : Span :=
  ⟨L.usedPtr q, (queue q).usedSize⟩

/-- Slot `k % num` of the available ring. -/
def availSlot (L : RingLayout mem queue) (q : Fin vringQueuesMax) (k : Nat) : Nat :=
  L.availPtr q + (4 + 2 * (k % (queue q).num.toNat))

/-- Slot `k % num` of the used ring. -/
def usedSlot (L : RingLayout mem queue) (q : Fin vringQueuesMax) (k : Nat) : Nat :=
  L.usedPtr q + (4 + 8 * (k % (queue q).num.toNat))

/-- `avail.idx` -/
def availIdx (L : RingLayout mem queue) (q : Fin vringQueuesMax) (m : Mem) : UInt16 :=
  m.load UInt16 (L.availPtr q + 2)

/-- `used.idx` -/
def usedIdx (L : RingLayout mem queue) (q : Fin vringQueuesMax) (m : Mem) : UInt16 :=
  m.load UInt16 (L.usedPtr q + 2)

/-- The span overlaps no ring and no entry of a descriptor table. -/
structure Free (L : RingLayout mem queue) (s : Span) : Prop where
  avail : ∀ q, (queue q).Live → s.Apart (L.availSpan q)
  used : ∀ q, (queue q).Live → s.Apart (L.usedSpan q)
  table : ∀ q, (queue q).Live → ∀ idx t, idx.toNat < (queue q).num.toNat →
    (queue q).descSpan? mem idx = some t → s.Apart t

/-- The chain at `head` is well formed: its descriptors are entries of the table, and its
    device-writable buffers are free for the device to write. -/
def ValidChain (L : RingLayout mem queue) (q : Fin vringQueuesMax) (m : Mem)
    (head : UInt16) : Prop :=
  ∃ ds, (queue q).chainDescs mem m (queue q).num.toNat head = some ds ∧
    (∀ d ∈ ds, d.1.toNat < (queue q).num.toNat) ∧
    ∀ buf ∈ writeBufs mem (ds.map Prod.snd), L.Free buf

/-- How many of the submitted chains the used ring does not yet count. -/
def outstanding (L : RingLayout mem queue) (q : Fin vringQueuesMax)
    (heads : List UInt16) (m : Mem) :
    Nat :=
  (UInt16.ofNat heads.length - L.usedIdx q m).toNat

end RingLayout

/-! ## Driver and device -/

/-- A world, and the heads submitted to each queue so far. -/
structure Rings (D : Type) where
  world : World D
  heads : Fin vringQueuesMax → List UInt16

/-- The driver changes memory from `m` to `m'`: it leaves the used rings alone, the slots of the
    outstanding chains hold their heads, and these chains are still well formed. -/
structure DriverKeeps (L : RingLayout mem queue) (heads : Fin vringQueuesMax → List UInt16)
    (m m' : Mem) : Prop where
  used : ∀ q, (queue q).Live → ∀ a ∈ L.usedSpan q, m' a = m a
  slots : ∀ q, (queue q).Live → ∀ k (hk : k < (heads q).length),
    (heads q).length ≤ k + L.outstanding q (heads q) m →
      m'.load UInt16 (L.availSlot q k) = (heads q)[k]
  chains : ∀ q, (queue q).Live → ∀ k (hk : k < (heads q).length),
    (heads q).length ≤ k + L.outstanding q (heads q) m → L.ValidChain q m' (heads q)[k]

/-- Memory changes, and nothing else. -/
def Rings.setMem (s : Rings D) (m : Mem) : Rings D :=
  { s with world := { s.world with host := { s.world.host with mem := m } } }

/-- The steps of driver and device. -/
inductive Rings.Step [VirtioDevice D] (L : RingLayout mem queue) (s : Rings D) :
    Rings D → Prop where
  /-- a notification that returns `Ok` -/
  | notify {fuel queueIdx w} (e : queueNotify fuel queueIdx mem s.world = (.ok (), w)) :
    Step L s { s with world := w }
  /-- a poll that returns `Ok` -/
  | poll {fuel w} (e : Hearth.poll fuel mem s.world = (.ok (), w)) : Step L s { s with world := w }
  /-- the driver prepares chains, consumes the used rings or uses its buffers -/
  | work {m} (keeps : DriverKeeps L s.heads s.world.host.mem m)
    (idx : ∀ q, (queue q).Live → L.availIdx q m = L.availIdx q s.world.host.mem) :
    Step L s (s.setMem m)
  /-- the driver submits one more chain to a queue that has less than `num` outstanding -/
  | submit {q m head} (live : (queue q).Live)
    (room : L.outstanding q (s.heads q) s.world.host.mem < (queue q).num.toNat)
    (keeps : DriverKeeps L s.heads s.world.host.mem m)
    (slot : m.load UInt16 (L.availSlot q (s.heads q).length) = head)
    (valid : L.ValidChain q m head)
    (idx : L.availIdx q m = UInt16.ofNat ((s.heads q).length + 1))
    (others : ∀ q', q' ≠ q → (queue q').Live → L.availIdx q' m = L.availIdx q' s.world.host.mem) :
    Step L s { s.setMem m with heads := Function.update s.heads q (s.heads q ++ [head]) }
  /-- anything else: a register access that leaves the queues alone, a frame that arrives -/
  | other {w ev} (hmem : w.host.mem = s.world.host.mem) (hqueue : w.mmio.queue = s.world.mmio.queue)
    (hevents : w.host.events = s.world.host.events ++ ev) (hev : ∀ a bs, .write a bs ∉ ev) :
    Step L s { s with world := w }

/-- The event writes to a byte of the span. -/
def Event.writesIn (s : Span) : Event → Bool
  | .write a bs => !decide (Span.Apart ⟨a, bs.length⟩ s)
  | _ => false

/-- The writes to the used ring that put completions in it, numbered from `first` on. -/
def RingLayout.usedWrites (L : RingLayout mem queue) (q : Fin vringQueuesMax) :
    (first : Nat) → List (UInt16 × UInt32) → List Event
  | _, [] => []
  | i, c :: cs =>
    .write (L.usedSlot q i) (Layout.encode ({ id := c.1.toUInt32, len := c.2 } : VringUsedElem)) ::
      .write (L.usedPtr q + 2) (Layout.encode (UInt16.ofNat (i + 1))) :: usedWrites L q (i + 1) cs

/-- The last completion is written last. -/
lemma RingLayout.usedWrites_append (L : RingLayout mem queue) (q : Fin vringQueuesMax) (first : Nat)
    (cs : List (UInt16 × UInt32)) (c : UInt16 × UInt32) :
    L.usedWrites q first (cs ++ [c]) = L.usedWrites q first cs ++
      [.write (L.usedSlot q (first + cs.length))
          (Layout.encode ({ id := c.1.toUInt32, len := c.2 } : VringUsedElem)),
        .write (L.usedPtr q + 2) (Layout.encode (UInt16.ofNat (first + cs.length + 1)))] := by
  induction cs generalizing first with
  | nil => rfl
  | cons d cs ih =>
    rw [List.cons_append, usedWrites, ih, usedWrites, List.length_cons,
      Nat.add_right_comm first 1 cs.length, Nat.add_assoc first cs.length 1]
    rfl

/-- Queue `q`'s used ring is what the completions `done`, each a head and a length, make of it: the
    device has written their elements, in order, and its index; the last `num` of them are there. -/
structure RingLayout.UsedRing (L : RingLayout mem queue) (q : Fin vringQueuesMax)
    (done : List (UInt16 × UInt32)) (h : Host) : Prop where
  idx : L.usedIdx q h.mem = UInt16.ofNat done.length
  slots : ∀ i (hi : i < done.length), done.length ≤ i + (queue q).num.toNat →
    h.mem.load VringUsedElem (L.usedSlot q i) = { id := done[i].1.toUInt32, len := done[i].2 }
  writes : h.events.filter (Event.writesIn (L.usedSpan q)) = L.usedWrites q 0 done

/-- Nothing is submitted and all indices are 0. -/
structure Rings.Init (L : RingLayout mem queue) (s : Rings D) : Prop where
  queues : s.world.mmio.queue = queue
  last : ∀ q, (queue q).Live → (queue q).lastAvailIdx = 0
  avail : ∀ q, (queue q).Live → L.availIdx q s.world.host.mem = 0
  used : ∀ q, (queue q).Live → L.usedIdx q s.world.host.mem = 0
  events : s.world.host.events = []
  heads : ∀ q, s.heads q = []

/-! ## The invariant of a queue -/

/-- What holds of a live queue when `heads` are submitted to it and `done` are completed. -/
structure QueueInv (L : RingLayout mem queue) (q : Fin vringQueuesMax) (heads : List UInt16)
    (done : List (UInt16 × UInt32)) (w : World D) : Prop where
  order : done.map Prod.fst = heads.take done.length
  le : done.length ≤ heads.length
  near : heads.length ≤ done.length + (queue q).num.toNat
  last : w.mmio.queue q = { queue q with lastAvailIdx := UInt16.ofNat done.length }
  availIdx : L.availIdx q w.host.mem = UInt16.ofNat heads.length
  slots : ∀ k (hk : k < heads.length), done.length ≤ k →
    w.host.mem.load UInt16 (L.availSlot q k) = heads[k]
  chains : ∀ k (hk : k < heads.length), done.length ≤ k → L.ValidChain q w.host.mem heads[k]
  ring : L.UsedRing q done w.host

/-- All live queues are as `QueueInv` says, and no queue has been set up anew. -/
structure Rings.Inv (L : RingLayout mem queue) (s : Rings D) : Prop where
  same : ∀ q, ∃ idx, s.world.mmio.queue q = { queue q with lastAvailIdx := idx }
  live : ∀ q, (queue q).Live → ∃ done, QueueInv L q (s.heads q) done s.world

variable {L : RingLayout mem queue} {q q' : Fin vringQueuesMax} {heads : List UInt16}
  {done : List (UInt16 × UInt32)} {w w' : World D}

namespace RingLayout

/-- A queue's size divides the range of the indices. -/
lemma num_dvd (L : RingLayout mem queue) (live : (queue q).Live) : (queue q).num.toNat ∣ 65536 := by
  obtain ⟨k, hk, e⟩ := L.size q live
  rw [e]
  exact Nat.pow_dvd_pow 2 (by omega : k ≤ 16)

/-- A queue's size is at most half of the range of the indices. -/
lemma num_le (L : RingLayout mem queue) (live : (queue q).Live) : (queue q).num.toNat ≤ 32768 := by
  obtain ⟨k, hk, e⟩ := L.size q live
  rw [e]
  exact Nat.pow_le_pow_right (by decide) hk

/-- The size of a queue that is set up is not zero. -/
lemma num_pos (L : RingLayout mem queue) (live : (queue q).Live) : 0 < (queue q).num.toNat := by
  obtain ⟨k, -, e⟩ := L.size q live
  rw [e]
  exact Nat.two_pow_pos k

/-- The bytes of the available ring. -/
lemma availSize_eq (self : VringQueue) : self.availSize = 4 + 2 * self.num.toNat := rfl

/-- The bytes of the used ring. -/
lemma usedSize_eq (self : VringQueue) : self.usedSize = 4 + 8 * self.num.toNat := rfl

/-- A slot of the available ring is in it. -/
lemma availSlot_inside (L : RingLayout mem queue) (live : (queue q).Live) (k : Nat) :
    Span.Inside ⟨L.availSlot q k, 2⟩ (L.availSpan q) := by
  have hlt := Nat.mod_lt k (L.num_pos live)
  have hsize := availSize_eq (queue q)
  apply Span.inside_of_le <;> simp only [availSlot, availSpan] <;> omega

/-- The index of the available ring is in it. -/
lemma availIdx_inside (L : RingLayout mem queue) (q : Fin vringQueuesMax) :
    Span.Inside ⟨L.availPtr q + 2, 2⟩ (L.availSpan q) := by
  have hsize := availSize_eq (queue q)
  apply Span.inside_of_le <;> simp only [availSpan] <;> omega

/-- A slot of the used ring is in it. -/
lemma usedSlot_inside (L : RingLayout mem queue) (live : (queue q).Live) (k : Nat) :
    Span.Inside ⟨L.usedSlot q k, 8⟩ (L.usedSpan q) := by
  have hlt := Nat.mod_lt k (L.num_pos live)
  have hsize := usedSize_eq (queue q)
  apply Span.inside_of_le <;> simp only [usedSlot, usedSpan] <;> omega

/-- The index of the used ring is in it. -/
lemma usedIdx_inside (L : RingLayout mem queue) (q : Fin vringQueuesMax) :
    Span.Inside ⟨L.usedPtr q + 2, 2⟩ (L.usedSpan q) := by
  have hsize := usedSize_eq (queue q)
  apply Span.inside_of_le <;> simp only [usedSpan] <;> omega

/-- A chain stays well formed while the entries of its descriptor table stay as they are. -/
lemma ValidChain.congr {m m' : Mem} {head : UInt16} (v : L.ValidChain q m head)
    (table : ∀ idx s, idx.toNat < (queue q).num.toNat → (queue q).descSpan? mem idx = some s →
      ∀ a ∈ s, m' a = m a) : L.ValidChain q m' head := by
  obtain ⟨ds, hds, hidx, hfree⟩ := v
  refine ⟨ds, ?_, hidx, hfree⟩
  rw [← hds]
  exact VringQueue.chainDescs_congr hds hidx table

/-- A used ring does not change if its bytes do not, and nobody writes to it. -/
lemma UsedRing.congr {h h' : Host} (live : (queue q).Live) (r : L.UsedRing q done h)
    (hmem : ∀ a ∈ L.usedSpan q, h'.mem a = h.mem a)
    (hevents : h'.events.filter (Event.writesIn (L.usedSpan q)) =
      h.events.filter (Event.writesIn (L.usedSpan q))) : L.UsedRing q done h' where
  idx := by
    rw [← r.idx]
    exact Mem.load_congr fun a ha => hmem a (L.usedIdx_inside q a ha)
  slots i hi hnear := by
    rw [← r.slots i hi hnear]
    exact Mem.load_congr fun a ha => hmem a (L.usedSlot_inside live i a ha)
  writes := hevents.trans r.writes

end RingLayout

namespace QueueInv

/-- The number of outstanding chains, as the driver sees it, is the right one. -/
lemma outstanding_eq (I : QueueInv L q heads done w) (live : (queue q).Live) :
    L.outstanding q heads w.host.mem = heads.length - done.length := by
  have hnear := I.near
  have hle := L.num_le live
  rw [RingLayout.outstanding, I.ring.idx]
  exact ofNat16_sub I.le (by omega)

/-- The driver works and submits nothing. -/
lemma work {s : Rings D} {m : Mem} (live : (queue q).Live)
    (I : QueueInv L q (s.heads q) done s.world) (keeps : DriverKeeps L s.heads s.world.host.mem m)
    (idx : L.availIdx q m = L.availIdx q s.world.host.mem) :
    QueueInv L q (s.heads q) done (s.setMem m).world where
  order := I.order
  le := I.le
  near := I.near
  last := I.last
  availIdx := idx.trans I.availIdx
  slots k hk hle := keeps.slots q live k hk (by rw [I.outstanding_eq live]; omega)
  chains k hk hle := keeps.chains q live k hk (by rw [I.outstanding_eq live]; omega)
  ring := I.ring.congr live (keeps.used q live) rfl

/-- The driver submits a chain. -/
lemma submit {s : Rings D} {m : Mem} {head : UInt16} (live : (queue q).Live)
    (I : QueueInv L q (s.heads q) done s.world) (keeps : DriverKeeps L s.heads s.world.host.mem m)
    (room : L.outstanding q (s.heads q) s.world.host.mem < (queue q).num.toNat)
    (slot : m.load UInt16 (L.availSlot q (s.heads q).length) = head)
    (valid : L.ValidChain q m head)
    (idx : L.availIdx q m = UInt16.ofNat ((s.heads q).length + 1)) :
    QueueInv L q (s.heads q ++ [head]) done (s.setMem m).world := by
  rw [I.outstanding_eq live] at room
  have hle := I.le
  -- the chains before the new one are outstanding as before, the new one is in its slot
  have split : ∀ k (hk : k < (s.heads q ++ [head]).length), done.length ≤ k →
      (∃ h : k < (s.heads q).length, (s.heads q ++ [head])[k] = (s.heads q)[k]) ∨
      (k = (s.heads q).length ∧ (s.heads q ++ [head])[k] = head) := by
    intro k hk _
    rw [List.length_append, List.length_singleton] at hk
    by_cases h : k < (s.heads q).length
    · exact .inl ⟨h, List.getElem_append_left h⟩
    · have hk' : k = (s.heads q).length := by omega
      subst hk'
      exact .inr ⟨rfl, List.getElem_concat_length rfl _⟩
  refine
    { order := by rw [List.take_append_of_le_length hle]; exact I.order
      le := by rw [List.length_append]; omega
      near := by rw [List.length_append, List.length_singleton]; omega
      last := I.last
      availIdx := by rw [List.length_append]; exact idx
      slots := fun k hk hdone => ?_
      chains := fun k hk hdone => ?_
      ring := I.ring.congr live (keeps.used q live) rfl }
  · obtain ⟨h, e⟩ | ⟨rfl, e⟩ := split k hk hdone
    · rw [e]
      exact keeps.slots q live k h (by rw [I.outstanding_eq live]; omega)
    · rw [e]
      exact slot
  · obtain ⟨h, e⟩ | ⟨rfl, e⟩ := split k hk hdone
    · rw [e]
      exact keeps.chains q live k h (by rw [I.outstanding_eq live]; omega)
    · rw [e]
      exact valid

end QueueInv

/-! ## Handling a chain -/

/-- Reads are no writes to a span. -/
lemma filter_reads {evs : List Event} {s : Span} (h : ∀ e ∈ evs, Event.ReadsGuest mem e) :
    evs.filter (Event.writesIn s) = [] := by
  refine List.filter_eq_nil_iff.mpr fun e he => ?_
  have hr := h e he
  cases e with
  | read => simp [Event.writesIn]
  | write => exact hr.elim
  | irq => exact hr.elim
  | used => exact hr.elim

/-- Writes to buffers elsewhere are not in the ring. -/
lemma filter_writes {evs : List Event} {s : Span} {bufs : List Span}
    (h : ∀ e ∈ evs, Event.WritesBufs bufs e) (apart : ∀ buf ∈ bufs, buf.Apart s) :
    evs.filter (Event.writesIn s) = [] := by
  refine List.filter_eq_nil_iff.mpr fun e he => ?_
  have hw := h e he
  cases e with
  | write a bs =>
    obtain ⟨buf, hb, inside⟩ := hw
    have hapart : Span.Apart ⟨a, bs.length⟩ s := (apart buf hb).mono inside (.refl s)
    simp [Event.writesIn, hapart]
  | read => exact hw.elim
  | irq => exact hw.elim
  | used => exact hw.elim

/-- A write inside the ring is one to it. -/
lemma writesIn_of_inside {a : Nat} {bs : List UInt8} {s : Span}
    (h : Span.Inside ⟨a, bs.length⟩ s) (hlen : 0 < bs.length) :
    Event.writesIn s (.write a bs) = true := by
  simp [Event.writesIn, h.not_apart hlen]

/-- Events that write nothing, and no change of memory or queues. -/
lemma QueueInv.other {ev : List Event} (I : QueueInv L q heads done w) (live : (queue q).Live)
    (hmem : w'.host.mem = w.host.mem) (hqueue : w'.mmio.queue = w.mmio.queue)
    (hevents : w'.host.events = w.host.events ++ ev) (hev : ∀ a bs, .write a bs ∉ ev) :
    QueueInv L q heads done w' := by
  have hfilter : ev.filter (Event.writesIn (L.usedSpan q)) = [] := by
    refine List.filter_eq_nil_iff.mpr fun e he => ?_
    cases e with
    | write a bs => exact absurd he (hev a bs)
    | _ => simp [Event.writesIn]
  refine
    { order := I.order
      le := I.le
      near := I.near
      last := by rw [hqueue]; exact I.last
      availIdx := by rw [hmem]; exact I.availIdx
      slots := by rw [hmem]; exact I.slots
      chains := by rw [hmem]; exact I.chains
      ring := I.ring.congr live (fun a _ => by rw [hmem]) ?_ }
  rw [hevents, List.filter_append, hfilter, List.append_nil]

/-- A turn that finds no chain. -/
lemma QueueInv.idle (I : QueueInv L q heads done w) (live : (queue q).Live) {self : VringQueue}
    (hmmio : w'.mmio = w.mmio)
    (pop : self.popAvail mem w.host = (.ok (none, self), w'.host)) :
    QueueInv L q heads done w' := by
  have t := VringQueue.popAvail_touches (A := fun _ => False) mem self w.host
  rw [pop] at t
  obtain ⟨ev, hevents, hev⟩ := t.events
  exact I.other live (funext fun a => t.mem a id) (by rw [hmmio]) hevents fun a bs he => hev _ he

/-- The invariant holds at the start. -/
lemma Rings.Inv.init {s : Rings D} (h : Rings.Init L s) : Rings.Inv L s := by
  refine ⟨fun q => ⟨(queue q).lastAvailIdx, by rw [h.queues]⟩, fun q live => ⟨[], ?_⟩⟩
  rw [h.heads]
  exact
    { order := rfl
      le := Nat.le_refl _
      near := Nat.zero_le _
      last := by
        rw [h.queues, List.length_nil, show UInt16.ofNat 0 = (queue q).lastAvailIdx from
          (h.last q live).symm]
      availIdx := h.avail q live
      slots := nofun
      chains := nofun
      ring :=
        { idx := h.used q live
          slots := nofun
          writes := by rw [h.events]; rfl } }

section Device

variable [ConfinedDevice D] {chain : DescChain} {len : UInt32}

/-- The chain a live queue takes next is the first that is outstanding. -/
lemma Handles.next (t : Handles mem q w chain len w') (live : (queue q).Live)
    (I : QueueInv L q heads done w) :
    ∃ h : done.length < heads.length, chain.head = heads[done.length] ∧
      (∀ buf ∈ chain.writeBuf, L.Free buf) ∧
      t.queue = { queue q with lastAvailIdx := UInt16.ofNat (done.length + 1) } := by
  obtain ⟨ptr, hp, -, hne, -, hq, ds, hds, -, hchain⟩ := t.pop_ok
  rw [I.last] at hp hne hds hchain
  cases (L.avail q live).symm.trans hp
  have hlt : done.length < heads.length := by
    refine Nat.lt_of_le_of_ne I.le fun e => hne ?_
    have havail := I.availIdx
    rw [← e] at havail
    exact havail.symm
  have hentry : ({ queue q with lastAvailIdx := UInt16.ofNat done.length } : VringQueue).availEntry
      (L.availPtr q) = L.availSlot q done.length := by
    simp only [VringQueue.availEntry, RingLayout.availSlot, ofNat16_slot (L.num_dvd live)]
  have hhead := I.slots _ hlt (Nat.le_refl _)
  obtain ⟨ds', hds', -, hfree⟩ := I.chains _ hlt (Nat.le_refl _)
  rw [hentry, hhead] at hds hchain
  have hsame := VringQueue.chainDescs_of_desc (m := w.host.mem) mem
    (rfl : (queue q).desc = { queue q with lastAvailIdx := UInt16.ofNat done.length }.desc)
    (queue q).num.toNat heads[done.length]
  cases hds'.symm.trans (hsame.trans hds)
  refine ⟨hlt, by rw [hchain]; rfl, fun buf hb => ?_, hq.trans (by rw [I.last, ofNat16_succ])⟩
  rw [hchain] at hb
  exact hfree buf (by simpa [DescChain.addBufs] using hb)

/-- Handling a chain changes memory in its buffers and the used ring of its queue only. -/
lemma Handles.mem_frame (t : Handles mem q w chain len w') (live : (queue q).Live)
    (I : QueueInv L q heads done w) {s : Span} (hbuf : ∀ buf ∈ chain.writeBuf, buf.Apart s)
    (hused : (L.usedSpan q).Apart s) : ∀ a ∈ s, w'.host.mem a = w.host.mem a := by
  intro a ha
  refine t.mem_outside (fun buf hb hab => hbuf buf hb a hab ha) fun ptr hp hap => ?_
  rw [I.last] at hp hap
  cases (L.used q live).symm.trans hp
  refine hused a (Span.inside_of_le ?_ ?_ a hap) ha <;>
    simp only [RingLayout.usedSpan, VringQueue.usedSize, size_vringUsed, size_vringUsedElem]
      <;> omega

/-- What is written to a ring that the chain's buffers do not overlap: at most the two writes that
    hand the chain back. -/
lemma Handles.filter_events (t : Handles mem q w chain len w') (live : (queue q).Live)
    (I : QueueInv L q heads done w) {s : Span} (hbuf : ∀ buf ∈ chain.writeBuf, buf.Apart s) :
    ∃ idx, idx = t.processed.1.mem.load UInt16 (L.usedPtr q + 2) ∧
      w'.host.events.filter (Event.writesIn s) = w.host.events.filter (Event.writesIn s) ++
        [.write (t.queue.usedEntry (L.usedPtr q) idx)
            (Layout.encode ({ id := chain.head.toUInt32, len := len } : VringUsedElem)),
          .write (L.usedPtr q + 2) (Layout.encode (idx + 1))].filter (Event.writesIn s) := by
  obtain ⟨reads, writes, ptr, hreads, hwrites, hp, hevents⟩ := t.events_ok
  obtain ⟨-, -, -, hq⟩ := t.next live I
  rw [hq] at hp
  cases (L.used q live).symm.trans hp
  refine ⟨_, rfl, ?_⟩
  rw [hevents]
  simp only [List.filter_append, filter_reads hreads, filter_writes hwrites hbuf, List.nil_append]
  rfl

/-- The used ring once a chain is handled: it holds one more completion. -/
lemma Handles.usedRing (t : Handles mem q w chain len w') (live : (queue q).Live)
    (I : QueueInv L q heads done w) : L.UsedRing q (done ++ [(chain.head, len)]) w'.host := by
  obtain ⟨-, -, hfree, hq⟩ := t.next live I
  obtain ⟨ptr, hp, -, hm, -⟩ := VringQueue.pushUsed_ok t.push
  obtain ⟨idx, hidx, hwrites⟩ := t.filter_events live I fun buf hb => (hfree buf hb).used q live
  rw [hq] at hp hm hwrites
  cases (L.used q live).symm.trans hp
  -- the device has not written to the ring before it hands the chain back
  have same : ∀ s : Span, s.Inside (L.usedSpan q) → ∀ a ∈ s, t.processed.1.mem a = w.host.mem a :=
    fun s hs a ha => t.processed_mem fun buf hb hab => (hfree buf hb).used q live a hab (hs a ha)
  have hidx' : t.processed.1.mem.load UInt16 (L.usedPtr q + 2) = UInt16.ofNat done.length :=
    (Mem.load_congr (same _ (L.usedIdx_inside q))).trans I.ring.idx
  have hentry : ({ queue q with
      lastAvailIdx := UInt16.ofNat (done.length + 1) } : VringQueue).usedEntry (L.usedPtr q)
        (UInt16.ofNat done.length) = L.usedSlot q done.length := by
    simp only [VringQueue.usedEntry, RingLayout.usedSlot, ofNat16_slot (L.num_dvd live)]
  rw [hidx'] at hm hidx
  subst hidx
  rw [hentry] at hm hwrites
  rw [← (archUpdateIrq_ok t.irq).1] at hm
  have idxApart : ∀ k, Span.Apart ⟨L.usedSlot q k, 8⟩ ⟨L.usedPtr q + 2, 2⟩ := fun k =>
    (Span.apart_of_le (by simp only [RingLayout.usedSlot]; omega)).symm
  constructor
  · rw [RingLayout.usedIdx, hm, Mem.load_store, List.length_append, List.length_singleton,
      ofNat16_succ]
  · intro i hi hnear
    rw [List.length_append, List.length_singleton] at hi hnear
    rw [hm, Mem.load_store_apart _ (idxApart i)]
    by_cases h : i < done.length
    · have slotApart : Span.Apart ⟨L.usedSlot q i, 8⟩ ⟨L.usedSlot q done.length, 8⟩ := by
        have hne := slot_ne h (by omega : done.length < i + (queue q).num.toNat)
        rw [Span.apart_iff]
        simp only [RingLayout.usedSlot]
        omega
      rw [Mem.load_store_apart _ slotApart, List.getElem_append_left h,
        Mem.load_congr (same _ (L.usedSlot_inside live i))]
      exact I.ring.slots i h (by omega)
    · have hi' : i = done.length := by omega
      subst hi'
      rw [Mem.load_store, List.getElem_concat_length rfl]
  · rw [hwrites, I.ring.writes, RingLayout.usedWrites_append, Nat.zero_add]
    have hslot : Event.writesIn (L.usedSpan q) (.write (L.usedSlot q done.length)
        (Layout.encode ({ id := chain.head.toUInt32, len := len } : VringUsedElem))) = true :=
      writesIn_of_inside (by rw [Layout.encode_length]; exact L.usedSlot_inside live _) (by simp)
    have hindex : Event.writesIn (L.usedSpan q) (.write (L.usedPtr q + 2)
        (Layout.encode (UInt16.ofNat done.length + 1))) = true :=
      writesIn_of_inside (by rw [Layout.encode_length]; exact L.usedIdx_inside q) (by simp)
    rw [List.filter_cons_of_pos hslot, List.filter_cons_of_pos hindex, ofNat16_succ]
    rfl

/-- Handling a chain leaves what the driver has put in memory for any live queue: the
    index, the slots and the chains. -/
lemma Handles.driver_frame (t : Handles mem q w chain len w') (live : (queue q).Live)
    (I : QueueInv L q heads done w) (live' : (queue q').Live) :
    L.availIdx q' w'.host.mem = L.availIdx q' w.host.mem ∧
      (∀ k, w'.host.mem.load UInt16 (L.availSlot q' k) =
        w.host.mem.load UInt16 (L.availSlot q' k)) ∧
      ∀ head, L.ValidChain q' w.host.mem head → L.ValidChain q' w'.host.mem head := by
  obtain ⟨-, -, hfree, -⟩ := t.next live I
  have availSame := t.mem_frame live I (fun buf hb => (hfree buf hb).avail q' live')
    (L.used_avail q q' live live')
  refine ⟨Mem.load_congr fun a ha => availSame a (L.availIdx_inside q' a ha),
    fun k => Mem.load_congr fun a ha => availSame a (L.availSlot_inside live' k a ha),
    fun head v => v.congr fun idx s hidx hs => ?_⟩
  exact t.mem_frame live I (fun buf hb => (hfree buf hb).table q' live' idx s hidx hs)
    (L.used_table q q' live live' idx s hidx hs)

/-- Handling a chain of its queue completes the first outstanding chain. -/
lemma QueueInv.handle (t : Handles mem q w chain len w') (live : (queue q).Live)
    (I : QueueInv L q heads done w) :
    QueueInv L q heads (done ++ [(chain.head, len)]) w' := by
  obtain ⟨hlt, hhead, -, hq⟩ := t.next live I
  obtain ⟨hidx, hslot, hchain⟩ := t.driver_frame live I live
  have hnear := I.near
  have hnum := L.num_pos live
  have hlen : (done ++ [(chain.head, len)]).length = done.length + 1 := List.length_append
  refine
    { order := ?_
      le := by omega
      near := by omega
      last := by rw [t.queue_eq, hq, hlen]
      availIdx := hidx.trans I.availIdx
      slots := fun k hk hdone => (hslot k).trans (I.slots k hk (by omega))
      chains := fun k hk hdone => hchain _ (I.chains k hk (by omega))
      ring := t.usedRing live I }
  rw [List.map_append, I.order, hlen, List.take_add_one, List.getElem?_eq_getElem hlt, hhead]
  rfl

/-- Handling a chain of one queue leaves the other queue as it is. -/
lemma QueueInv.handle_other {heads' : List UInt16} {done' : List (UInt16 × UInt32)}
    (t : Handles mem q w chain len w') (live : (queue q).Live) (I : QueueInv L q heads done w)
    (hne : q ≠ q') (live' : (queue q').Live) (I' : QueueInv L q' heads' done' w) :
    QueueInv L q' heads' done' w' := by
  obtain ⟨-, -, hfree, hq⟩ := t.next live I
  obtain ⟨hidx, hslot, hchain⟩ := t.driver_frame live I live'
  have usedSame := t.mem_frame live I (fun buf hb => (hfree buf hb).used q' live')
    (L.used_used q q' live live' hne)
  obtain ⟨idx, -, hwrites⟩ := t.filter_events live I fun buf hb => (hfree buf hb).used q' live'
  refine
    { order := I'.order
      le := I'.le
      near := I'.near
      last := by rw [t.mmio, ← I'.last]; exact Function.update_of_ne hne.symm ..
      availIdx := hidx.trans I'.availIdx
      slots := fun k hk hdone => (hslot k).trans (I'.slots k hk hdone)
      chains := fun k hk hdone => hchain _ (I'.chains k hk hdone)
      ring := I'.ring.congr live' usedSame ?_ }
  -- the writes that hand the chain back lie in the ring of `q`
  have outside : ∀ a bs, Span.Inside ⟨a, bs.length⟩ (L.usedSpan q) →
      ¬ Event.writesIn (L.usedSpan q') (.write a bs) = true := by
    intro a bs h
    have hapart : Span.Apart ⟨a, bs.length⟩ (L.usedSpan q') :=
      (L.used_used q q' live live' hne).mono h (.refl _)
    simp [Event.writesIn, hapart]
  have h0 : t.queue.num ≠ 0 := by rw [hq]; exact live.2
  have hsize : t.queue.usedSize = (queue q).usedSize := by rw [hq]; rfl
  have hentry := (t.queue.usedEntry_inside (L.usedPtr q) idx h0).trans
    (Span.inside_of_le (by simp only [RingLayout.usedSpan]; omega)
      (by simp only [RingLayout.usedSpan, hsize, RingLayout.usedSize_eq]; omega) :
      Span.Inside _ (L.usedSpan q))
  rw [hwrites, List.filter_cons_of_neg (outside _ _ (by rw [Layout.encode_length]; exact hentry)),
    List.filter_cons_of_neg (outside _ _ (by rw [Layout.encode_length]; exact L.usedIdx_inside q)),
    List.filter_nil, List.append_nil]

/-! ## Notifications and runs -/

namespace Rings.Inv

variable {s : Rings D}

/-- A chain that is handled keeps the invariant. -/
lemma handle (I : Inv L ⟨w, s.heads⟩) (t : Handles mem q w chain len w') (live : (queue q).Live) :
    Inv L ⟨w', s.heads⟩ := by
  obtain ⟨done, Iq⟩ := I.live q live
  refine ⟨fun q' => ?_, fun q' live' => ?_⟩
  · by_cases h : q = q'
    · subst h
      obtain ⟨-, -, -, hq⟩ := t.next live Iq
      exact ⟨_, t.queue_eq.trans hq⟩
    · obtain ⟨idx, e⟩ := I.same q'
      refine ⟨idx, ?_⟩
      rw [← e, t.mmio]
      exact Function.update_of_ne (Ne.symm h) ..
  · by_cases h : q = q'
    · subst h
      exact ⟨_, Iq.handle t live⟩
    · obtain ⟨done', Iq'⟩ := I.live q' live'
      exact ⟨done', Iq.handle_other t live h live' Iq'⟩

/-- Any number of chains that are handled keep the invariant. -/
lemma iter (I : Inv L ⟨w, s.heads⟩) (live : (queue q).Live)
    (it : Eff.Iter (notifyTurn q mem) w w') : Inv L ⟨w', s.heads⟩ := by
  refine it.invariant (I := fun w => Inv L ⟨w, s.heads⟩) ?_ I
  intro w₁ w₂ I₁ e
  obtain ⟨h, -⟩ | ⟨h, -⟩ | ⟨-, -, chain, len, ⟨t⟩⟩ := notifyTurn_ok e
  · cases h
  · cases h
  · exact I₁.handle t live

/-- A notification of a live queue that returns `Ok` handles chains, and then there is none or the
    device cannot go on. -/
lemma notify_live (I : Inv L ⟨w, s.heads⟩) {fuel : Nat} {queueIdx : UInt32}
    (hq : VirtioMmio.queueIndex queueIdx = some q) (live : (queue q).Live)
    (e : queueNotify fuel queueIdx mem w = (.ok (), w')) :
    ∃ w₁, Inv L ⟨w₁, s.heads⟩ ∧ notifyTurn q mem w₁ = (.ok false, w') := by
  obtain ⟨idx, hsame⟩ := I.same q
  dsimp only at hsame
  rw [queueNotify_some hq, if_neg (by rw [hsame]; exact not_or.mpr live)] at e
  obtain ⟨w₁, it, last⟩ := Eff.loop_ok e
  exact ⟨w₁, I.iter live it, last⟩

/-- The turn that finds no chain keeps the invariant. -/
lemma last_turn (I : Inv L ⟨w, s.heads⟩) (e : notifyTurn q mem w = (.ok false, w')) :
    Inv L ⟨w', s.heads⟩ := by
  obtain ⟨-, -, rfl⟩ | ⟨-, -, hmmio, pop⟩ | ⟨h, -⟩ := notifyTurn_ok e
  · exact I
  · refine ⟨fun q' => ?_, fun q' live' => ?_⟩
    · dsimp only
      rw [hmmio]
      exact I.same q'
    · obtain ⟨done, Iq⟩ := I.live q' live'
      exact ⟨done, Iq.idle live' hmmio pop⟩
  · cases h

/-- A notification keeps the invariant. -/
lemma notify (I : Inv L ⟨w, s.heads⟩) {fuel : Nat} {queueIdx : UInt32}
    (e : queueNotify fuel queueIdx mem w = (.ok (), w')) : Inv L ⟨w', s.heads⟩ := by
  cases hq : VirtioMmio.queueIndex queueIdx with
  | none =>
    rw [queueNotify_none hq] at e
    cases e
    exact I
  | some q =>
    by_cases live : (queue q).Live
    · obtain ⟨w₁, I₁, last⟩ := I.notify_live hq live e
      exact I₁.last_turn last
    · obtain ⟨idx, hsame⟩ := I.same q
      dsimp only at hsame
      rw [queueNotify_some hq, if_pos (by rw [hsame]; exact not_not.mp (mt not_or.mp live))] at e
      cases e
      exact I

/-- A queue's index is its number. -/
lemma queueIndex_ofNat : ∀ q : Fin vringQueuesMax,
    VirtioMmio.queueIndex (UInt32.ofNat q) = some q := by decide

/-- A notification that the device could go on with leaves no chain outstanding. -/
lemma notify_all (I : Inv L ⟨w, s.heads⟩) {fuel : Nat} (live : (queue q).Live)
    (e : queueNotify fuel (UInt32.ofNat q) mem w = (.ok (), w'))
    (can : VirtioDevice.canProcess w'.mmio.device (UInt32.ofNat q) = true) :
    ∃ done, QueueInv L q (s.heads q) done w' ∧ done.length = (s.heads q).length := by
  obtain ⟨w₁, I₁, last⟩ := I.notify_live (queueIndex_ofNat q) live e
  obtain ⟨done, Iq⟩ := (I₁.last_turn last).live q live
  refine ⟨done, Iq, ?_⟩
  obtain ⟨-, hno, rfl⟩ | ⟨-, -, hmmio, pop⟩ | ⟨h, -⟩ := notifyTurn_ok last
  · rw [can] at hno
    cases hno
  · -- no chain was available: the driver's index is the device's own
    obtain ⟨ptr, hp, ⟨ev, hn⟩, ⟨heq, -⟩ | ⟨-, -, -, ds, -, -, hc⟩⟩ := VringQueue.popAvail_ok pop
    · rw [← hmmio, Iq.last] at hp heq
      cases (L.avail q live).symm.trans hp
      have havail := Iq.availIdx
      rw [hn] at havail
      have hnear := Iq.near
      have hnum := L.num_le live
      dsimp only at hnear
      exact ofNat16_inj Iq.le (by omega) (heq.trans havail)
    · cases hc
  · cases h

/-- Every step keeps the invariant. -/
lemma step {s s' : Rings D} (I : Inv L s) (st : Step L s s') : Inv L s' := by
  cases st with
  | notify e => exact I.notify e
  | poll e =>
    obtain ⟨_, w₁, e₁, e₂⟩ := Eff.bind_ok_iff.mp e
    exact (I.notify (s := s) e₁).notify (s := s) e₂
  | work keeps idx =>
    refine ⟨I.same, fun q live => ?_⟩
    obtain ⟨done, Iq⟩ := I.live q live
    exact ⟨done, QueueInv.work (s := s) live Iq keeps (idx q live)⟩
  | @submit q m head live room keeps slot valid idx others =>
    refine ⟨I.same, fun q' live' => ?_⟩
    obtain ⟨done, Iq⟩ := I.live q' live'
    refine ⟨done, ?_⟩
    dsimp only
    by_cases h : q' = q
    · subst h
      rw [Function.update_self]
      exact QueueInv.submit live Iq keeps room slot valid idx
    · rw [Function.update_of_ne h]
      exact QueueInv.work (s := s) live' Iq keeps (others q' h live')
  | other hmem hqueue hevents hev =>
    refine ⟨fun q => ?_, fun q live => (I.live q live).imp fun done Iq =>
      Iq.other live hmem hqueue hevents hev⟩
    dsimp only
    rw [hqueue]
    exact I.same q

/-- What the invariant says of a live queue's used ring. -/
lemma completed {s : Rings D} (I : Inv L s) (live : (queue q).Live) :
    (∃ done, done.map Prod.fst <+: s.heads q ∧ L.UsedRing q done s.world.host) ∧
      ∀ fuel w', queueNotify fuel (UInt32.ofNat q) mem s.world = (.ok (), w') →
        VirtioDevice.canProcess w'.mmio.device (UInt32.ofNat q) = true →
          ∃ done, done.map Prod.fst = s.heads q ∧ L.UsedRing q done w'.host := by
  constructor
  · obtain ⟨done, Iq⟩ := I.live q live
    exact ⟨done, by rw [Iq.order]; exact List.take_prefix _ _, Iq.ring⟩
  · intro fuel w' e can
    obtain ⟨done, Iq, hlen⟩ := I.notify_all (s := s) live e can
    exact ⟨done, by rw [Iq.order, hlen, List.take_length], Iq.ring⟩

end Rings.Inv

/-- Every chain submitted is completed exactly once and in order. In every reached state a live
    queue's used ring is what the completions of a first part of the submitted heads make of it; and
    after a notification, if the device can go on, of all of them. -/
theorem completion_in_order (L : RingLayout mem queue) {s : Rings D}
    (h : Reach (Rings.Init L) (Rings.Step L) s) (live : (queue q).Live) :
    (∃ done, done.map Prod.fst <+: s.heads q ∧ L.UsedRing q done s.world.host) ∧
      ∀ fuel w', queueNotify fuel (UInt32.ofNat q) mem s.world = (.ok (), w') →
        VirtioDevice.canProcess w'.mmio.device (UInt32.ofNat q) = true →
          ∃ done, done.map Prod.fst = s.heads q ∧ L.UsedRing q done w'.host := by
  have I : Rings.Inv L s := h.invariant (fun _ => Rings.Inv.init) fun _ _ I st => I.step st
  exact I.completed live

end Device

/-! ## Three chains in a ring of two -/

/-- The queues of a device that has only `pairQueue`, to transmit, and has
taken `last` chains from it. -/
def transmitQueues (last : UInt16) : Fin vringQueuesMax → VringQueue :=
  Function.update (fun _ => VringQueue.new) 1 { pairQueue with lastAvailIdx := last }

/-- Only the transmit queue is set up. -/
lemma transmitQueues_live {last : UInt16} (q : Fin vringQueuesMax)
    (live : (transmitQueues last q).Live) : q = 1 := by
  by_contra ne
  rw [transmitQueues, Function.update_of_ne ne] at live
  exact live.1 rfl

/-- Its used ring is apart from the rest. -/
def transmitLayout (last : UInt16) : RingLayout onePage (transmitQueues last) where
  availPtr _ := 0x1100
  usedPtr _ := 0x1400
  size q live := by
    cases transmitQueues_live q live
    exact ⟨1, by decide, rfl⟩
  avail q live := by
    cases transmitQueues_live q live
    exact (by decide : gpaToHost onePage 0x100 8 = some 0x1100)
  used q live := by
    cases transmitQueues_live q live
    exact (by decide : gpaToHost onePage 0x400 20 = some 0x1400)
  used_avail q q' live live' := by
    cases transmitQueues_live q live
    cases transmitQueues_live q' live'
    exact (by decide : Span.Apart ⟨0x1400, 20⟩ ⟨0x1100, 8⟩)
  used_used q q' live live' hne := by
    cases transmitQueues_live q live
    cases transmitQueues_live q' live'
    exact absurd rfl hne
  used_table q q' live live' idx s hidx hs := by
    cases transmitQueues_live q live
    cases transmitQueues_live q' live'
    have low : idx.toNat < 2 := hidx
    have table : pairQueue.descSpan? onePage idx = some s := hs
    rcases (by omega : idx.toNat = 0 ∨ idx.toNat = 1) with at_ | at_
    · cases UInt16.toNat_inj.mp (at_.trans (by decide : 0 = (0 : UInt16).toNat))
      cases (by decide : pairQueue.descSpan? onePage 0 = some ⟨0x1200, 16⟩).symm.trans table
      exact (by decide : Span.Apart ⟨0x1400, 20⟩ ⟨0x1200, 16⟩)
    · cases UInt16.toNat_inj.mp (at_.trans (by decide : 1 = (1 : UInt16).toNat))
      cases (by decide : pairQueue.descSpan? onePage 1 = some ⟨0x1210, 16⟩).symm.trans table
      exact (by decide : Span.Apart ⟨0x1400, 20⟩ ⟨0x1210, 16⟩)

/-- What the driver offers is not in the used ring. -/
lemma offer_used (n : Nat) (head : UInt16) (m : Mem) {a : Nat}
    (ha : a ∈ (transmitLayout 0).usedSpan 1) :
    offer n head m a = m a := by
  have above : 0x1400 ≤ a := ha.1
  rw [offer, Mem.store_outside, Mem.store_outside]
  · intro slot
    have below : a < 0x1104 + 2 * (n % 2) + 2 := slot.2
    omega
  · intro idx
    have below : a < 0x1102 + 2 := idx.2
    omega

namespace Transmit

/-- The driver submits a chain after `n` others. -/
def submit (n : Nat) (head : UInt16) (s : Rings VirtioNet) : Rings VirtioNet :=
  { s.setMem (offer n head s.world.host.mem) with
    heads := Function.update s.heads 1 (s.heads 1 ++ [head]) }

/-- The two chains are submitted, the second of the table first. -/
def two : Rings VirtioNet := submit 1 0 (submit 0 1 ⟨pairWorld 1 (twoBuffers 0), fun _ => []⟩)

/-- Both chains have been transmitted. -/
def sent : Rings VirtioNet := { two with world := (queueNotify 3 1 onePage two.world).2 }

/-- And then the second one again, in the slot where it was before. -/
def three : Rings VirtioNet := submit 2 1 sent

/-- A table that links nothing makes every head a chain. -/
lemma valid {m : Mem} {head : UInt16} {d : VringDesc}
    (read : (transmitQueues 0 1).chainDescs onePage m 2 head = some [(head, d)])
    (inside : head.toNat < 2) (readable : writeBufs onePage [d] = []) :
    (transmitLayout 0).ValidChain 1 m head := by
  refine ⟨[(head, d)], read, ?_, ?_⟩
  · intro d' hd
    cases List.mem_singleton.mp hd
    exact inside
  · intro buf hb
    change buf ∈ writeBufs onePage [d] at hb
    rw [readable] at hb
    cases hb

/-- What is to hold of the other queues that are live. -/
lemma others {P : Fin vringQueuesMax → Prop} (q : Fin vringQueuesMax) (ne : q ≠ 1)
    (live : (transmitQueues 0 q).Live) :
    P q := absurd (transmitQueues_live q live) ne

variable {s : Rings VirtioNet}

/-- Whatever was before, the second chain of the table can be submitted when no other is. -/
lemma submit_one (mem : s.world.host.mem = twoBuffers 0) (heads : s.heads = fun _ => []) :
    Rings.Step (transmitLayout 0) s (submit 0 1 s) := by
  have keeps : DriverKeeps (transmitLayout 0) s.heads s.world.host.mem
    (offer 0 1 s.world.host.mem) := by
    rw [heads]
    refine ⟨fun q live a ha => ?_, nofun, nofun⟩
    cases transmitQueues_live q live
    exact offer_used 0 1 _ ha
  have chain : (transmitLayout 0).ValidChain 1 (offer 0 1 s.world.host.mem) 1 := by
    rw [mem]
    exact valid (d := { addr := 0x320, len := 14, flags := 0, next := 0 }) (by decide)
      (by decide) (by decide)
  refine .submit ⟨by decide, by decide⟩ ?_ keeps ?_ chain ?_ others
  · rw [heads, mem]
    decide
  · rw [heads, mem]
    decide
  · rw [heads, mem]
    decide

/-- And then the first one. -/
lemma submit_two (mem : s.world.host.mem = offer 0 1 (twoBuffers 0))
    (heads : s.heads = Function.update (fun _ => []) 1 [1]) :
    Rings.Step (transmitLayout 0) s (submit 1 0 s) := by
  have first : (transmitLayout 0).ValidChain 1 (offer 1 0 s.world.host.mem) 1 := by
    rw [mem]
    exact valid (d := { addr := 0x320, len := 14, flags := 0, next := 0 }) (by decide)
      (by decide) (by decide)
  have slot : (offer 1 0 s.world.host.mem).load UInt16 ((transmitLayout 0).availSlot 1 0) = 1 := by
    rw [mem]
    decide
  have keeps : DriverKeeps (transmitLayout 0) s.heads s.world.host.mem
    (offer 1 0 s.world.host.mem) := by
    rw [heads]
    refine ⟨fun q live a ha => ?_, fun q live k hk _ => ?_, fun q live k hk _ => ?_⟩
    · cases transmitQueues_live q live
      exact offer_used 1 0 _ ha
    · cases transmitQueues_live q live
      cases Nat.lt_one_iff.mp hk
      exact slot
    · cases transmitQueues_live q live
      cases Nat.lt_one_iff.mp hk
      exact first
  have chain : (transmitLayout 0).ValidChain 1 (offer 1 0 s.world.host.mem) 0 := by
    rw [mem]
    exact valid (d := { addr := 0x300, len := 14, flags := 0, next := 0 }) (by decide)
      (by decide) (by decide)
  refine .submit ⟨by decide, by decide⟩ ?_ keeps ?_ chain ?_ others
  · rw [heads, mem]
    decide
  · rw [heads, mem]
    decide
  · rw [heads, mem]
    decide

/-- The three chains of the example lead there. -/
lemma three_reach :
    Reach (Rings.Init (transmitLayout 0)) (Rings.Step (transmitLayout 0)) three := by
  have start : Reach (Rings.Init (transmitLayout 0)) (Rings.Step (transmitLayout 0))
      (⟨pairWorld 1 (twoBuffers 0), fun _ => []⟩ : Rings VirtioNet) := by
    refine .init ⟨rfl, fun q live => ?_, fun q live => ?_, fun q live => ?_, rfl, fun _ => rfl⟩
    · cases transmitQueues_live q live
      rfl
    · cases transmitQueues_live q live
      decide
    · cases transmitQueues_live q live
      decide
  have both : Reach (Rings.Init (transmitLayout 0)) (Rings.Step (transmitLayout 0)) two :=
    (start.step (submit_one rfl rfl)).step (submit_two rfl rfl)
  have returns : (queueNotify 3 1 onePage two.world).1 = .ok () := by decide +kernel
  have after : Reach (Rings.Init (transmitLayout 0)) (Rings.Step (transmitLayout 0)) sent :=
    both.step (.notify (Prod.ext returns rfl))
  have clear : (transmitLayout 0).outstanding 1 [1, 0] sent.world.host.mem = 0 := by decide +kernel
  have full (k : Nat) (hk : k < 2)
    (out : 2 ≤ k + (transmitLayout 0).outstanding 1 [1, 0] sent.world.host.mem) :
      False := by
    rw [clear] at out
    omega
  have keeps : DriverKeeps (transmitLayout 0) sent.heads sent.world.host.mem
    three.world.host.mem := by
    refine ⟨fun q live a ha => ?_, fun q live k hk out => ?_, fun q live k hk out => ?_⟩
    · cases transmitQueues_live q live
      exact offer_used 2 1 _ ha
    · cases transmitQueues_live q live
      exact (full k hk out).elim
    · cases transmitQueues_live q live
      exact (full k hk out).elim
  have chain : (transmitLayout 0).ValidChain 1 three.world.host.mem 1 :=
    valid (d := { addr := 0x320, len := 14, flags := 0, next := 0 }) (by decide +kernel)
      (by decide) (by decide)
  have room : (transmitLayout 0).outstanding 1 (sent.heads 1) sent.world.host.mem <
    2 := by decide +kernel
  exact after.step (.submit ⟨by decide, by decide⟩ room keeps (by decide +kernel) chain
    (by decide +kernel) others)

end Transmit

/-- A driver that submits two chains, notifies the queue, submits one of them again and notifies
    once more, finds the three in the used ring in that order. -/
theorem transmit_completed : ∃ done, done.map Prod.fst = [1, 0, 1] ∧
    (transmitLayout 0).UsedRing 1 done (queueNotify 2 1 onePage Transmit.three.world).2.host := by
  have live : (transmitQueues 0 1).Live := ⟨by decide, by decide⟩
  have returns : (queueNotify 2 1 onePage Transmit.three.world).1 = .ok () := by decide +kernel
  exact (completion_in_order (transmitLayout 0) Transmit.three_reach live).2 2 _
    (Prod.ext returns rfl) rfl

end Hearth
