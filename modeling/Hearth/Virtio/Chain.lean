import Hearth.Virtio.Frame

/-!
# Descriptor chains and ring entries

What the queue operations compute, as functions of the memory they start in. `chainDescs` are the
descriptors that the driver's table links from a head, at most a given number; `writeBufs` and
`readBufs` are the buffers they describe. `popAvail_ok` and `pushUsed_ok` then say all that a
successful operation does, and `popAvail_run` and `pushUsed_run` when one succeeds: the later proofs
use them and unfold neither.
-/

namespace Hearth
open Lib

variable {mem : GuestMemory} {m m' : Mem} {h h' : Host}

/-! ## Accesses that are noted -/

/-- From `h` to `h'` accesses were noted and nothing else changed. -/
def Noted (h h' : Host) : Prop := ∃ new, h' = { h with events := h.events ++ new }

/-- Doing nothing notes nothing. -/
lemma Noted.refl (h : Host) : Noted h h := ⟨[], by simp⟩

/-- Events followed by events. -/
lemma Noted.trans {h h' h'' : Host} (n : Noted h h') (n' : Noted h' h'') : Noted h h'' := by
  obtain ⟨new, rfl⟩ := n
  obtain ⟨new', rfl⟩ := n'
  exact ⟨new ++ new', by rw [← List.append_assoc]⟩

/-- An event is noted. -/
lemma Noted.note (h : Host) (ev : Event) : Noted h (h.note ev) := ⟨[ev], rfl⟩

/-! ## Loads of the ring structures -/

/-- Flags and index of the available ring. -/
lemma load_vringAvail (m : Mem) (a : Nat) :
    m.load VringAvail a = ⟨m.load UInt16 a, m.load UInt16 (a + 2)⟩ := by
  change (fun f : UInt16 × UInt16 => VringAvail.mk f.1 f.2) (m.load (UInt16 × UInt16) a) = _
  rw [Mem.load_prod]
  rfl

/-- Flags and index of the used ring. -/
lemma load_vringUsed (m : Mem) (a : Nat) :
    m.load VringUsed a = ⟨m.load UInt16 a, m.load UInt16 (a + 2)⟩ := by
  change (fun f : UInt16 × UInt16 => VringUsed.mk f.1 f.2) (m.load (UInt16 × UInt16) a) = _
  rw [Mem.load_prod]
  rfl

/-! ## Chains -/

/-- The span of guest memory that a descriptor's buffer is, if it is in guest memory. -/
def VringDesc.buf? (mem : GuestMemory) (d : VringDesc) : Option Span :=
  (gpaToHost mem d.addr d.len.toNat).map fun ptr => ⟨ptr, d.len.toNat⟩

/-- The device-writable buffers of some descriptors. -/
def writeBufs (mem : GuestMemory) (ds : List VringDesc) : List Span :=
  (ds.filter fun d => d.type = .write).filterMap (VringDesc.buf? mem)

/-- The device-readable buffers of some descriptors. -/
def readBufs (mem : GuestMemory) (ds : List VringDesc) : List Span :=
  (ds.filter fun d => d.type = .read).filterMap (VringDesc.buf? mem)

/-- A chain with the buffers of more descriptors. -/
def DescChain.addBufs (mem : GuestMemory) (m : Mem) (ds : List VringDesc) (chain : DescChain) :
    DescChain :=
  { chain with
    readBuf := chain.readBuf ++ (readBufs mem ds).flatMap fun s => m.read s.base s.len
    writeBuf := chain.writeBuf ++ writeBufs mem ds }

/-- No descriptor adds nothing. -/
lemma DescChain.addBufs_nil (chain : DescChain) : chain.addBufs mem m [] = chain := by
  simp [DescChain.addBufs, readBufs, writeBufs]

/-- Descriptors followed by descriptors. -/
lemma DescChain.addBufs_addBufs (ds ds' : List VringDesc) (chain : DescChain) :
    (chain.addBufs mem m ds).addBufs mem m ds' = chain.addBufs mem m (ds ++ ds') := by
  simp [DescChain.addBufs, readBufs, writeBufs]

namespace VringQueue

/-- The span of entry `idx` of the descriptor table. -/
def descSpan? (self : VringQueue) (mem : GuestMemory) (idx : UInt16) : Option Span :=
  (gpaToHost mem (self.desc + UInt64.ofNat (idx.toNat * 16)) 16).map fun ptr => ⟨ptr, 16⟩

/-- The descriptors linked from `idx` on, at most `turns`, each with its index; `none` if one is
    outside guest memory. -/
def chainDescs (self : VringQueue) (mem : GuestMemory) (m : Mem) :
    (turns : Nat) → (idx : UInt16) → Option (List (UInt16 × VringDesc))
  | 0, _ => some []
  | turns + 1, idx =>
    match self.descSpan? mem idx with
    | none => none
    | some s =>
      let d := m.load VringDesc s.base
      if d.hasNext then (chainDescs self mem m turns d.next).map ((idx, d) :: ·)
      else some [(idx, d)]

/-- Of a queue, a chain's descriptors depend on the address of the table only. -/
lemma chainDescs_of_desc {self self' : VringQueue} (mem : GuestMemory)
    (h : self.desc = self'.desc) (turns : Nat) (idx : UInt16) :
    self.chainDescs mem m turns idx = self'.chainDescs mem m turns idx := by
  induction turns generalizing idx with
  | zero => rfl
  | succ turns ih =>
    have hs : self.descSpan? mem idx = self'.descSpan? mem idx := by rw [descSpan?, h]; rfl
    rw [chainDescs, chainDescs, hs]
    cases self'.descSpan? mem idx with
    | none => rfl
    | some s => simp only [ih]

/-- The descriptors of a chain depend on their own entries of the table only. -/
lemma chainDescs_congr {self : VringQueue} {turns : Nat} {idx : UInt16}
    {ds : List (UInt16 × VringDesc)} {num : Nat}
    (hds : self.chainDescs mem m turns idx = some ds) (hidx : ∀ d ∈ ds, d.1.toNat < num)
    (table : ∀ idx s, idx.toNat < num → self.descSpan? mem idx = some s → ∀ a ∈ s, m' a = m a) :
    self.chainDescs mem m' turns idx = self.chainDescs mem m turns idx := by
  induction turns generalizing idx ds with
  | zero => rfl
  | succ turns ih =>
    rw [chainDescs] at hds
    rw [chainDescs, chainDescs]
    cases hs : self.descSpan? mem idx with
    | none => rfl
    | some s =>
      rw [hs] at hds
      dsimp only at hds ⊢
      have hlt : idx.toNat < num := by
        split at hds
        · obtain ⟨ds', -, rfl⟩ := Option.map_eq_some_iff.mp hds
          exact hidx _ List.mem_cons_self
        · cases hds
          exact hidx _ List.mem_cons_self
      have hlen : s.len = 16 := by
        obtain ⟨ptr, -, rfl⟩ := Option.map_eq_some_iff.mp hs
        rfl
      have hd : m'.load VringDesc s.base = m.load VringDesc s.base := by
        refine Mem.load_congr fun a ha => table idx s hlt hs a ?_
        rw [size_vringDesc, ← hlen] at ha
        exact ha
      rw [hd]
      by_cases next : (m.load VringDesc s.base).hasNext
      · rw [if_pos next] at hds
        obtain ⟨ds', hds', rfl⟩ := Option.map_eq_some_iff.mp hds
        rw [if_pos next, if_pos next, ih hds' fun d hd => hidx d (List.mem_cons_of_mem _ hd)]
      · rw [if_neg next, if_neg next]

/-- The address of entry `idx` of the descriptor table can be computed: where overflow is
    checked, it does not overflow. -/
def DescFits (self : VringQueue) (checks : Bool) (idx : UInt16) : Prop :=
  checks = true → self.desc.toNat + idx.toNat * 16 < 2 ^ 64

/-- It is decided by the addresses. -/
instance (self : VringQueue) (checks : Bool) (idx : UInt16) :
    Decidable (self.DescFits checks idx) :=
  inferInstanceAs (Decidable (_ → _))

/-- The descriptors can be read and their buffers are in guest memory. -/
def ChainFits (self : VringQueue) (mem : GuestMemory) (checks : Bool)
    (ds : List (UInt16 × VringDesc)) : Prop :=
  ∀ d ∈ ds, (d.2.buf? mem).isSome ∧ self.DescFits checks d.1

/-- The offset of an entry does not wrap. -/
lemma descOffset_toNat (idx : UInt16) : (UInt64.ofNat (idx.toNat * 16)).toNat = idx.toNat * 16 := by
  have := idx.toNat_lt
  rw [UInt64.toNat_ofNat']
  omega

/-- An addition that does not panic. -/
lemma addU64_ok {a b r : UInt64} (e : addU64 a b h = (.ok r, h')) :
    r = a + b ∧ h' = h ∧ (h.overflowChecks = true → a.toNat + b.toNat < 2 ^ 64) := by
  unfold addU64 at e
  split at e
  · cases e
  · next hno =>
    cases e
    exact ⟨rfl, rfl, fun hc => Nat.lt_of_not_le fun hle => hno ⟨hc, hle⟩⟩

/-- An entry that was read is in guest memory. -/
lemma getDescHead_ok {self : VringQueue} {idx : UInt16} {d : VringDesc}
    (e : self.getDescHead idx mem h = (.ok d, h')) :
    ∃ s, self.descSpan? mem idx = some s ∧ d = h.mem.load VringDesc s.base ∧
      self.DescFits h.overflowChecks idx ∧ Noted h h' := by
  obtain ⟨guestAddr, h1, e1, e2⟩ := Eff.bind_ok_iff.mp e
  obtain ⟨rfl, rfl, fits⟩ := addU64_ok e1
  obtain ⟨ptr, h2, e3, e4⟩ := Eff.bind_ok_iff.mp e2
  obtain ⟨hp, rfl⟩ := Eff.unwrap_ok e3
  rw [readGuestPtr_run, Prod.mk.injEq, Outcome.ok.injEq] at e4
  obtain ⟨rfl, rfl⟩ := e4
  rw [size_vringDesc] at hp
  rw [size_vringDesc, descOffset_toNat] at fits
  exact ⟨⟨ptr, 16⟩, by rw [descSpan?, hp]; rfl, rfl, fits, .note _ _⟩

/-- A descriptor adds its buffer to the one or the other part of the chain. -/
lemma addDesc_ok {d : VringDesc} {chain chain' : DescChain}
    (e : addDesc mem d chain h = (.ok chain', h')) :
    chain' = chain.addBufs mem h.mem [d] ∧ (d.buf? mem).isSome ∧ Noted h h' := by
  unfold addDesc at e
  cases ht : d.type with
  | write =>
    rw [ht] at e
    obtain ⟨ptr, h1, e1, e2⟩ := Eff.bind_ok_iff.mp e
    obtain ⟨hp, rfl⟩ := Eff.okOr_ok e1
    cases e2
    refine ⟨?_, ?_, .refl _⟩ <;>
      simp [DescChain.addBufs, Hearth.readBufs, Hearth.writeBufs, ht, VringDesc.buf?, hp]
  | read =>
    rw [ht] at e
    obtain ⟨bytes, h1, e1, e2⟩ := Eff.bind_ok_iff.mp e
    obtain ⟨ptr, h2, e3, e4⟩ := Eff.bind_ok_iff.mp e1
    obtain ⟨hp, rfl⟩ := Eff.unwrap_ok e3
    cases e4
    cases e2
    refine ⟨?_, ?_, .note _ _⟩ <;>
      simp [DescChain.addBufs, Hearth.readBufs, Hearth.writeBufs, ht, VringDesc.buf?, hp]

/-- The walk visits the linked descriptors and adds the buffer of each. -/
lemma walk_ok {self : VringQueue} {turns : Nat} {idx : UInt16} {chain chain' : DescChain}
    (e : self.walk mem turns idx chain h = (.ok chain', h')) :
    ∃ ds, self.chainDescs mem h.mem turns idx = some ds ∧
      self.ChainFits mem h.overflowChecks ds ∧
      chain' = chain.addBufs mem h.mem (ds.map Prod.snd) ∧ Noted h h' := by
  induction turns generalizing idx chain h with
  | zero =>
    cases e
    exact ⟨[], rfl, nofun, by rw [List.map_nil, DescChain.addBufs_nil], .refl _⟩
  | succ turns ih =>
    obtain ⟨d, h1, e1, e2⟩ := Eff.bind_ok_iff.mp e
    obtain ⟨s, hs, rfl, fits, n1⟩ := getDescHead_ok e1
    obtain ⟨chain1, h2, e3, e4⟩ := Eff.bind_ok_iff.mp e2
    obtain ⟨rfl, hb, n2⟩ := addDesc_ok e3
    obtain ⟨ev, rfl⟩ := n1.trans n2
    obtain ⟨ev', rfl⟩ := n1
    rw [chainDescs, hs]
    dsimp only
    by_cases next : (h.mem.load VringDesc s.base).hasNext
    · rw [if_pos next] at e4 ⊢
      obtain ⟨ds, hds, hfits, rfl, n3⟩ := ih e4
      refine ⟨(idx, h.mem.load VringDesc s.base) :: ds, by rw [hds]; rfl,
        List.forall_mem_cons.mpr ⟨⟨hb, fits⟩, hfits⟩, ?_, Noted.trans ⟨ev, rfl⟩ n3⟩
      rw [DescChain.addBufs_addBufs]
      rfl
    · rw [if_neg next] at e4 ⊢
      cases e4
      exact ⟨_, rfl, List.forall_mem_singleton.mpr ⟨hb, fits⟩, rfl, ⟨ev, rfl⟩⟩

/-! ## Walks that succeed -/

/-- The address of an entry that fits. -/
lemma addU64_run {self : VringQueue} {idx : UInt16} (fits : self.DescFits h.overflowChecks idx) :
    addU64 self.desc (UInt64.ofNat (idx.toNat * 16)) h =
      (.ok (self.desc + UInt64.ofNat (idx.toNat * 16)), h) := by
  refine if_neg fun ⟨hc, hle⟩ => ?_
  rw [descOffset_toNat] at hle
  have := fits hc
  omega

/-- An entry in guest memory is read. -/
lemma getDescHead_run {self : VringQueue} {idx : UInt16} {s : Span}
    (fits : self.DescFits h.overflowChecks idx) (hs : self.descSpan? mem idx = some s) :
    self.getDescHead idx mem h = (.ok (h.mem.load VringDesc s.base), h.note (.read s)) := by
  obtain ⟨ptr, hp, rfl⟩ := Option.map_eq_some_iff.mp hs
  unfold getDescHead
  rw [size_vringDesc, Eff.bind_of_ok (addU64_run fits), hp, Eff.unwrap_some, Eff.pure_bind_run]
  rfl

/-- A buffer in guest memory is added. -/
lemma addDesc_run {d : VringDesc} (chain : DescChain) {s : Span} (hs : d.buf? mem = some s) :
    ∃ h', addDesc mem d chain h = (.ok (chain.addBufs mem h.mem [d]), h') ∧ Noted h h' := by
  obtain ⟨ptr, hp, rfl⟩ := Option.map_eq_some_iff.mp hs
  unfold addDesc
  cases ht : d.type with
  | write =>
    refine ⟨h, ?_, .refl h⟩
    dsimp only
    rw [guestPtr, hp, Eff.okOr_some, Eff.pure_bind_run]
    simp [DescChain.addBufs, Hearth.readBufs, Hearth.writeBufs, ht, VringDesc.buf?, hp]
  | read =>
    refine ⟨_, ?_, .note h (.read ⟨ptr, d.len.toNat⟩)⟩
    have hdata : d.getData mem h =
      (.ok (h.mem.read ptr d.len.toNat), h.note (.read ⟨ptr, d.len.toNat⟩)) := by
      unfold VringDesc.getData
      rw [hp, Eff.unwrap_some, Eff.pure_bind_run]
      rfl
    dsimp only
    rw [Eff.bind_of_ok hdata]
    simp [DescChain.addBufs, Hearth.readBufs, Hearth.writeBufs, ht, VringDesc.buf?, hp]

/-- One turn of the walk, over a descriptor in guest memory whose buffer is, too. -/
lemma walk_step {self : VringQueue} (turns : Nat) {idx : UInt16} (chain : DescChain) {s b : Span}
    (fits : self.DescFits h.overflowChecks idx) (hs : self.descSpan? mem idx = some s)
    (hb : (h.mem.load VringDesc s.base).buf? mem = some b) :
    ∃ h', Noted h h' ∧ self.walk mem (turns + 1) idx chain h =
      if (h.mem.load VringDesc s.base).hasNext then
        self.walk mem turns (h.mem.load VringDesc s.base).next
          (chain.addBufs mem h.mem [h.mem.load VringDesc s.base]) h'
      else (.ok (chain.addBufs mem h.mem [h.mem.load VringDesc s.base]), h') := by
  obtain ⟨h', he, hn⟩ := addDesc_run (h := h.note (.read s)) chain hb
  refine ⟨h', (Noted.note h _).trans hn, ?_⟩
  rw [walk, Eff.bind_of_ok (getDescHead_run fits hs), Eff.bind_of_ok he]
  by_cases next : (h.mem.load VringDesc s.base).hasNext
  · rw [if_pos next, if_pos next]
    rfl
  · rw [if_neg next, if_neg next]
    rfl

/-- A walk succeeds if all the descriptors it visits and their buffers are in guest memory. -/
lemma walk_run {self : VringQueue} {turns : Nat} {idx : UInt16} (chain : DescChain)
    {ds : List (UInt16 × VringDesc)} (hds : self.chainDescs mem h.mem turns idx = some ds)
    (fits : self.ChainFits mem h.overflowChecks ds) :
    ∃ h', self.walk mem turns idx chain h =
      (.ok (chain.addBufs mem h.mem (ds.map Prod.snd)), h') ∧ Noted h h' := by
  induction turns generalizing idx chain h ds with
  | zero =>
    cases hds
    exact ⟨h, by rw [List.map_nil, DescChain.addBufs_nil]; rfl, .refl h⟩
  | succ turns ih =>
    rw [chainDescs] at hds
    cases hs : self.descSpan? mem idx with
    | none => rw [hs] at hds; cases hds
    | some s =>
      rw [hs] at hds
      dsimp only at hds
      by_cases next : (h.mem.load VringDesc s.base).hasNext
      · rw [if_pos next] at hds
        obtain ⟨ds', hds', rfl⟩ := Option.map_eq_some_iff.mp hds
        obtain ⟨hb, hfit⟩ := fits _ List.mem_cons_self
        obtain ⟨b, hb⟩ := Option.isSome_iff_exists.mp hb
        obtain ⟨h1, n1, run⟩ := walk_step turns chain hfit hs hb
        rw [run, if_pos next]
        obtain ⟨new, rfl⟩ := n1
        obtain ⟨h2, e2, n2⟩ := ih (chain.addBufs mem h.mem [h.mem.load VringDesc s.base])
          (h := { h with events := h.events ++ new }) hds'
          (fun d hd => fits d (List.mem_cons_of_mem _ hd))
        refine ⟨h2, ?_, Noted.trans ⟨new, rfl⟩ n2⟩
        rw [e2, DescChain.addBufs_addBufs]
        rfl
      · rw [if_neg next] at hds
        cases hds
        obtain ⟨hb, hfit⟩ := fits _ List.mem_cons_self
        obtain ⟨b, hb⟩ := Option.isSome_iff_exists.mp hb
        obtain ⟨h1, n1, run⟩ := walk_step turns chain hfit hs hb
        rw [run, if_neg next]
        exact ⟨h1, rfl, n1⟩

/-! ## The two ring operations -/

/-- Where the next available entry is in the ring at `ptr`. -/
def availEntry (self : VringQueue) (ptr : Nat) : Nat :=
  ptr + (4 + 2 * (self.lastAvailIdx.toNat % self.num.toNat))

/-- The slot of an index. -/
lemma slot_toNat (self : VringQueue) (idx : UInt16) :
    (idx.toUInt32 % self.num).toNat = idx.toNat % self.num.toNat := by
  rw [UInt32.toNat_mod, UInt16.toNat_toUInt32]

/-- Taking a chain: there is none if the driver's index is the device's own; else it is the chain of
    the head in the next slot, and the device's index moves on. -/
lemma popAvail_ok {self queue : VringQueue} {r : Option DescChain}
    (e : self.popAvail mem h = (.ok (r, queue), h')) :
    ∃ ptr, gpaToHost mem self.avail self.availSize = some ptr ∧ Noted h h' ∧
      ((self.lastAvailIdx = h.mem.load UInt16 (ptr + 2) ∧ r = none ∧ queue = self) ∨
        (self.lastAvailIdx ≠ h.mem.load UInt16 (ptr + 2) ∧ self.num ≠ 0 ∧
          queue = { self with lastAvailIdx := self.lastAvailIdx + 1 } ∧
          ∃ ds, self.chainDescs mem h.mem self.num.toNat
              (h.mem.load UInt16 (self.availEntry ptr)) = some ds ∧
            self.ChainFits mem h.overflowChecks ds ∧
            r = some (DescChain.addBufs mem h.mem (ds.map Prod.snd)
              ⟨h.mem.load UInt16 (self.availEntry ptr), [], []⟩))) := by
  obtain ⟨ptr, h1, e1, e2⟩ := Eff.bind_ok_iff.mp e
  obtain ⟨hp, rfl⟩ := Eff.okOr_ok e1
  obtain ⟨avail, h2, e3, e4⟩ := Eff.bind_ok_iff.mp e2
  cases e3
  rw [load_vringAvail] at e4
  refine ⟨ptr, hp, ?_⟩
  split at e4
  · next heq =>
    cases e4
    exact ⟨.note _ _, .inl ⟨heq, rfl, rfl⟩⟩
  · next hne =>
    obtain ⟨slot, h3, e5, e6⟩ := Eff.bind_ok_iff.mp e4
    obtain ⟨rfl, hlt, rfl⟩ := remU32_ok e5
    obtain ⟨head, h4, e7, e8⟩ := Eff.bind_ok_iff.mp e6
    cases e7
    obtain ⟨chain, h5, e9, e10⟩ := Eff.bind_ok_iff.mp e8
    cases e10
    obtain ⟨ds, hds, hfits, hchain, hn⟩ := walk_ok e9
    rw [slot_toNat] at hds hchain
    refine ⟨.trans (.note _ _) (.trans (.note _ _) hn),
      .inr ⟨hne, ?_, rfl, ds, hds, hfits, by rw [hchain]; rfl⟩⟩
    rintro h0
    rw [h0] at hlt
    exact Nat.not_lt_zero _ hlt

/-- A chain is taken if the rings and the chain are in guest memory and the driver's
    index is not the device's own. -/
lemma popAvail_run (self : VringQueue) {ptr : Nat} {ds : List (UInt16 × VringDesc)}
    (hp : gpaToHost mem self.avail self.availSize = some ptr)
    (hne : self.lastAvailIdx ≠ h.mem.load UInt16 (ptr + 2)) (h0 : self.num ≠ 0)
    (hds : self.chainDescs mem h.mem self.num.toNat
      (h.mem.load UInt16 (self.availEntry ptr)) = some ds)
    (fits : self.ChainFits mem h.overflowChecks ds) :
    ∃ h', self.popAvail mem h =
      (.ok (some (DescChain.addBufs mem h.mem (ds.map Prod.snd)
          ⟨h.mem.load UInt16 (self.availEntry ptr), [], []⟩),
        { self with lastAvailIdx := self.lastAvailIdx + 1 }), h') ∧ Noted h h' := by
  obtain ⟨h', hw, hn⟩ := walk_run
    (h := (h.note (.read ⟨ptr, 4⟩)).note (.read ⟨self.availEntry ptr, 2⟩))
    ⟨h.mem.load UInt16 (self.availEntry ptr), [], []⟩ hds fits
  refine ⟨h', ?_, .trans (.note _ _) (.trans (.note _ _) hn)⟩
  unfold popAvail guestPtr
  rw [hp, Eff.okOr_some, Eff.pure_bind_run, Eff.bind_of_ok (readGuestPtr_run ..), load_vringAvail]
  dsimp only
  rw [if_neg hne, remU32, if_neg h0, Eff.pure_bind_run, slot_toNat,
    Eff.bind_of_ok (readGuestPtr_run ..)]
  exact Eff.bind_of_ok hw

/-- Where the used element for index `idx` is in the ring at `ptr`. -/
def usedEntry (self : VringQueue) (ptr : Nat) (idx : UInt16) : Nat :=
  ptr + (4 + 8 * (idx.toNat % self.num.toNat))

/-- Handing a chain back stores its element in the slot that `used.idx` selects and advances
    `used.idx`. -/
lemma pushUsed_ok {self : VringQueue} {head : UInt16} {len : UInt32}
    (e : self.pushUsed mem head len h = (.ok (), h')) :
    ∃ ptr, gpaToHost mem self.used self.usedSize = some ptr ∧ self.num ≠ 0 ∧
      let idx := h.mem.load UInt16 (ptr + 2)
      let elem : VringUsedElem := ⟨head.toUInt32, len⟩
      h'.mem = (h.mem.store (self.usedEntry ptr idx) elem).store (ptr + 2) (idx + 1) ∧
      h'.events = h.events ++ [.read ⟨ptr, 4⟩, .write (self.usedEntry ptr idx) (Layout.encode elem),
        .write (ptr + 2) (Layout.encode (idx + 1)), .used self.used head len] := by
  obtain ⟨ptr, h1, e1, e2⟩ := Eff.bind_ok_iff.mp e
  obtain ⟨hp, rfl⟩ := Eff.okOr_ok e1
  obtain ⟨used, h2, e3, e4⟩ := Eff.bind_ok_iff.mp e2
  cases e3
  rw [load_vringUsed] at e4
  obtain ⟨slot, h3, e5, e6⟩ := Eff.bind_ok_iff.mp e4
  obtain ⟨rfl, hlt, rfl⟩ := remU32_ok e5
  obtain ⟨_, h4, e7, e8⟩ := Eff.bind_ok_iff.mp e6
  cases e7
  obtain ⟨_, h5, e9, e10⟩ := Eff.bind_ok_iff.mp e8
  cases e9
  cases e10
  refine ⟨ptr, hp, ?_, ?_⟩
  · rintro h0
    rw [h0] at hlt
    exact Nat.not_lt_zero _ hlt
  · dsimp only [Host.note]
    rw [slot_toNat]
    refine ⟨rfl, ?_⟩
    simp only [List.append_assoc, List.cons_append, List.nil_append]
    rfl

/-- A chain is handed back if the used ring is in guest memory. -/
lemma pushUsed_run (self : VringQueue) {ptr : Nat} (head : UInt16) (len : UInt32)
    (hp : gpaToHost mem self.used self.usedSize = some ptr) (h0 : self.num ≠ 0) :
    ∃ h', self.pushUsed mem head len h = (.ok (), h') ∧ h'.irqLineFails = h.irqLineFails := by
  unfold pushUsed guestPtr
  rw [hp, Eff.okOr_some, Eff.pure_bind_run, Eff.bind_of_ok (readGuestPtr_run ..), remU32, if_neg h0,
    Eff.pure_bind_run]
  exact ⟨_, rfl, rfl⟩

end VringQueue

end Hearth
