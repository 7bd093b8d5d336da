import Hearth.Virtio.Notify

/-!
# The walk over a descriptor table

The driver's table links descriptors by their `next` fields, and nothing keeps it from linking them
in a circle. `Path` is the relation of an index to the descriptors that its links lead over, said of
the table alone; `chainDescs_iff` is what the loop's bound makes of it. `walk_visits` gives the
accesses of a walk however it ends, and `descriptor_walk` puts these together for `popAvail`.
-/

namespace Hearth
open Lib

variable {mem : GuestMemory} {m : Mem} {h : Host} {self : VringQueue}

namespace VringQueue

/-- The links of the table lead over these descriptors. A descriptor
without a next one is the last. -/
inductive Path (self : VringQueue) (mem : GuestMemory) (m : Mem) :
    UInt16 → List (UInt16 × VringDesc) → Prop where
  | nil {idx} : Path self mem m idx []
  | cons {idx s d ds} : self.descSpan? mem idx = some s → d = m.load VringDesc s.base →
    (d.hasNext = false → ds = []) → Path self mem m d.next ds → Path self mem m idx ((idx, d) :: ds)

/-- The last descriptor has no next one. -/
def Ended (ds : List (UInt16 × VringDesc)) : Prop := ∃ d, ds.getLast? = some d ∧ d.2.hasNext = false

/-- A chain with a descriptor in front still ends. -/
lemma Ended.cons {d : UInt16 × VringDesc} {ds : List (UInt16 × VringDesc)} (he : Ended ds) :
    Ended (d :: ds) := by
  obtain ⟨l, hl, hn⟩ := he
  refine ⟨l, ?_, hn⟩
  rw [List.getLast?_cons, hl]
  rfl

/-- The rest of a chain ends as it does. -/
lemma Ended.tail {d : UInt16 × VringDesc} {ds : List (UInt16 × VringDesc)} (he : Ended (d :: ds))
    (next : d.2.hasNext = true) : Ended ds := by
  obtain ⟨l, hl, hn⟩ := he
  rw [List.getLast?_cons] at hl
  cases hg : ds.getLast? with
  | none =>
    rw [hg] at hl
    cases hl
    change d.2.hasNext = false at hn
    rw [next] at hn
    cases hn
  | some l' =>
    rw [hg] at hl
    cases hl
    exact ⟨l', hg, hn⟩

/-- The bounded walk visits a path that ends within the bound or is as long as it. -/
lemma chainDescs_iff {turns : Nat} {idx : UInt16} {ds : List (UInt16 × VringDesc)} :
    self.chainDescs mem m turns idx = some ds ↔
      self.Path mem m idx ds ∧ (ds.length = turns ∨ Ended ds ∧ ds.length ≤ turns) := by
  induction turns generalizing idx ds with
  | zero =>
    constructor
    · intro hd
      cases hd
      exact ⟨.nil, .inl rfl⟩
    · rintro ⟨-, hlen⟩
      have h0 : ds.length = 0 := by omega
      rw [List.length_eq_zero_iff.mp h0]
      rfl
  | succ turns ih =>
    rw [chainDescs]
    constructor
    · intro hd
      cases hs : self.descSpan? mem idx with
      | none => rw [hs] at hd; cases hd
      | some s =>
        rw [hs] at hd
        dsimp only at hd
        split at hd
        · next next =>
          obtain ⟨ds', hds', rfl⟩ := Option.map_eq_some_iff.mp hd
          obtain ⟨path, hlen⟩ := ih.mp hds'
          refine ⟨.cons hs rfl (fun hn => ?_) path, ?_⟩
          · rw [next] at hn
            cases hn
          · rcases hlen with hlen | ⟨he, hlen⟩
            · exact .inl (congrArg (· + 1) hlen)
            · exact .inr ⟨he.cons, Nat.succ_le_succ hlen⟩
        · next next =>
          cases hd
          have last : (m.load VringDesc s.base).hasNext = false := Bool.eq_false_iff.mpr next
          exact ⟨.cons hs rfl (fun _ => rfl) .nil,
            .inr ⟨⟨_, rfl, last⟩, Nat.succ_le_succ (Nat.zero_le _)⟩⟩
    -- the path ends where the table says, or with the last turn
    · rintro ⟨path, hlen⟩
      cases path with
      | nil =>
        rcases hlen with hlen | ⟨⟨d, hd, -⟩, -⟩
        · cases hlen
        · cases hd
      | @cons _ s d ds hs hd hlast path =>
        subst hd
        rw [hs]
        dsimp only
        cases next : (m.load VringDesc s.base).hasNext with
        | true =>
          rw [if_pos rfl, ih.mpr ⟨path, ?_⟩]
          · rfl
          · rcases hlen with hlen | ⟨he, hlen⟩
            · exact .inl (Nat.succ.inj hlen)
            · exact .inr ⟨he.tail next, Nat.le_of_succ_le_succ hlen⟩
        | false =>
          rw [if_neg (by simp), hlast next]

/-- What visiting a descriptor accesses: its entry of the table, and its buffer
    if the device is to read it. -/
def visit (self : VringQueue) (mem : GuestMemory) (d : UInt16 × VringDesc) : List Event :=
  (self.descSpan? mem d.1).toList.map .read ++
    if d.2.type = .read then (d.2.buf? mem).toList.map .read else []

/-- Reading an entry of the table fails before the access, or is that access. -/
lemma getDescHead_cases (self : VringQueue) (idx : UInt16) (mem : GuestMemory) (h : Host) :
    self.getDescHead idx mem h = (.panic, h) ∨
      ∃ s, self.descSpan? mem idx = some s ∧
        self.getDescHead idx mem h = (.ok (h.mem.load VringDesc s.base), h.note (.read s)) := by
  by_cases fits : self.DescFits h.overflowChecks idx
  · cases hs : self.descSpan? mem idx with
    | none =>
      have hp := Option.map_eq_none_iff.mp hs
      left
      unfold getDescHead
      rw [size_vringDesc, Eff.bind_of_ok (addU64_run fits), hp]
      rfl
    | some s => exact .inr ⟨s, rfl, getDescHead_run fits hs⟩
  · left
    unfold getDescHead
    apply Eff.bind_of_panic
    unfold DescFits at fits
    push Not at fits
    refine if_pos ⟨fits.1, ?_⟩
    rw [size_vringDesc, descOffset_toNat]
    exact fits.2

/-- A descriptor of the chain accesses its buffer, if the device is to read it. -/
lemma addDesc_visit (mem : GuestMemory) (d : VringDesc) (chain : DescChain) (h : Host) :
    (addDesc mem d chain h).2 =
      { h with events := h.events ++ if d.type = .read then (d.buf?
        mem).toList.map .read else [] } := by
  unfold addDesc
  cases ht : d.type with
  | write =>
    dsimp only
    unfold guestPtr
    cases gpaToHost mem d.addr d.len.toNat <;> simp
  | read =>
    dsimp only
    unfold VringDesc.getData VringDesc.buf?
    cases gpaToHost mem d.addr d.len.toNat with
    | none =>
      have e : (Eff.unwrap none >>= fun ptr => readSlice ⟨ptr, d.len.toNat⟩ : HostM _) h =
        (.panic, h) := rfl
      rw [Eff.bind_of_panic e]
      simp
    | some ptr =>
      have e : (Eff.unwrap (some ptr) >>= fun ptr => readSlice ⟨ptr, d.len.toNat⟩ : HostM _) h =
          (.ok (h.mem.read ptr d.len.toNat), h.note (.read ⟨ptr, d.len.toNat⟩)) := rfl
      rw [Eff.bind_of_ok e]
      rfl

/-- However a walk ends, it has visited a path of at most its number of turns, one step after the
    other, and it has changed nothing. -/
lemma walk_visits (self : VringQueue) (mem : GuestMemory) (turns : Nat) (idx : UInt16)
    (chain : DescChain) (h : Host) :
    ∃ ds, self.Path mem h.mem idx ds ∧ ds.length ≤ turns ∧
      (self.walk mem turns idx chain h).2 =
        { h with events := h.events ++ ds.flatMap (self.visit mem) } ∧
      ∀ chain', (self.walk mem turns idx chain h).1 = .ok chain' →
        self.chainDescs mem h.mem turns idx = some ds := by
  -- the head that was read is visited first, whatever becomes of its buffer
  induction turns generalizing idx chain h with
  | zero => exact ⟨[], .nil, Nat.le_refl 0, by simp [walk], fun _ _ => rfl⟩
  | succ turns ih =>
    rcases getDescHead_cases self idx mem h with hp | ⟨s, hs, hd⟩
    · have e : self.walk mem (turns + 1) idx chain h = (.panic, h) := Eff.bind_of_panic hp
      rw [e]
      exact ⟨[], .nil, Nat.zero_le _, by simp, fun _ hc => by cases hc⟩
    · have hmem : (h.note (.read s)).mem = h.mem := rfl
      -- the events are those of the visit in each of the four outcomes
      have visited := addDesc_visit mem (h.mem.load VringDesc s.base) chain (h.note (.read s))
      have hvisit : (h.note (.read s)).events ++
          (if (h.mem.load VringDesc s.base).type = .read then
            ((h.mem.load VringDesc s.base).buf? mem).toList.map .read else []) =
          h.events ++ self.visit mem (idx, h.mem.load VringDesc s.base) := by
        simp [visit, hs, Host.note]
      have single : self.Path mem h.mem idx [(idx, h.mem.load VringDesc s.base)] :=
        .cons hs rfl (fun _ => rfl) .nil
      unfold walk
      rw [Eff.bind_of_ok hd, chainDescs, hs]
      dsimp only
      rcases hx : addDesc mem (h.mem.load VringDesc s.base) chain (h.note (.read s)) with ⟨o, h1⟩
      rw [hx] at visited
      dsimp only at visited
      rw [hvisit] at visited
      cases o with
      | ok chain1 =>
        rw [Eff.bind_of_ok hx]
        cases next : (h.mem.load VringDesc s.base).hasNext with
        | true =>
          rw [if_pos rfl, if_pos rfl]
          obtain ⟨ds, path, hlen, hev, hok⟩ := ih (h.mem.load VringDesc s.base).next chain1 h1
          rw [visited] at path hev hok
          refine ⟨_ :: ds, .cons hs rfl (fun hn => ?_) path, Nat.succ_le_succ hlen, ?_, ?_⟩
          · rw [next] at hn
            cases hn
          · rw [visited, hev, List.flatMap_cons, List.append_assoc]
            rfl
          · intro chain' hc
            rw [visited] at hc
            have hds : self.chainDescs mem h.mem turns _ = some ds := hok chain' hc
            rw [hds]
            rfl
        | false =>
          rw [if_neg (by simp), if_neg (by simp)]
          refine ⟨_, single, Nat.succ_le_succ (Nat.zero_le _), ?_, fun _ _ => rfl⟩
          rw [List.flatMap_singleton, visited]
          rfl
      | err e =>
        rw [Eff.bind_of_err hx]
        refine ⟨_, single, Nat.succ_le_succ (Nat.zero_le _), ?_, fun _ hc => by cases hc⟩
        rw [List.flatMap_singleton, visited]
        rfl
      | panic =>
        rw [Eff.bind_of_panic hx]
        refine ⟨_, single, Nat.succ_le_succ (Nat.zero_le _), ?_, fun _ hc => by cases hc⟩
        rw [List.flatMap_singleton, visited]
        rfl
      | fuel =>
        rw [Eff.bind_of_fuel hx]
        refine ⟨_, single, Nat.succ_le_succ (Nat.zero_le _), ?_, fun _ hc => by cases hc⟩
        rw [List.flatMap_singleton, visited]
        rfl

/-- The head that the driver has put in the next slot. -/
def nextHead (self : VringQueue) (h : Host) (ptr : Nat) : UInt16 :=
  h.mem.load UInt16 (self.availEntry ptr)

/-- The driver has made a chain available in the ring at `ptr`. -/
structure Available (queue : VringQueue) (mem : GuestMemory) (h : Host) (ptr : Nat) : Prop where
  ring : gpaToHost mem queue.avail queue.availSize = some ptr
  moved : queue.lastAvailIdx ≠ h.mem.load UInt16 (ptr + 2)

/-- `popAvail` takes the chain of these descriptors: the bytes of the readable ones and the buffers
    of the writable ones, each in the order of the descriptors, which are visited once each. -/
def Takes (self : VringQueue) (mem : GuestMemory) (h : Host) (ptr : Nat)
    (ds : List (UInt16 × VringDesc)) : Prop :=
  self.popAvail mem h =
    (.ok (some
        { head := self.nextHead h ptr
          readBuf := (Hearth.readBufs mem (ds.map Prod.snd)).flatMap fun s =>
            h.mem.read s.base s.len
          writeBuf := Hearth.writeBufs mem (ds.map Prod.snd) },
        { self with lastAvailIdx := self.lastAvailIdx + 1 }),
      { h with events := h.events ++ [.read ⟨ptr, 4⟩, .read ⟨self.availEntry ptr, 2⟩] ++
          ds.flatMap (self.visit mem) })

/-- However taking a chain ends, it has read the ring and walked a path of at most `num` steps. -/
lemma popAvail_visits (self : VringQueue) (mem : GuestMemory) (h : Host) :
    ∃ idx pre ds, self.Path mem h.mem idx ds ∧ ds.length ≤ self.num.toNat ∧
      (self.popAvail mem h).2 =
        { h with events := h.events ++ pre ++ ds.flatMap (self.visit mem) } ∧
      ∀ chain queue, (self.popAvail mem h).1 = .ok (some chain, queue) →
      ∀ ptr, self.Available mem h ptr →
        idx = self.nextHead h ptr ∧ pre = [.read ⟨ptr, 4⟩, .read ⟨self.availEntry ptr, 2⟩] ∧
          self.chainDescs mem h.mem self.num.toNat idx = some ds := by
  unfold popAvail guestPtr
  cases hp : gpaToHost mem self.avail self.availSize with
  | none => exact ⟨0, [], [], .nil, Nat.zero_le _, by simp, nofun⟩
  | some ptr =>
    rw [Eff.okOr_some, Eff.pure_bind_run, Eff.bind_of_ok (readGuestPtr_run ..), load_vringAvail]
    dsimp only
    split
    · refine ⟨0, [.read ⟨ptr, 4⟩], [], .nil,
        Nat.zero_le _, by simp [Host.note], fun chain queue hc => ?_⟩
      cases hc
    · unfold remU32
      split
      · refine ⟨0, [.read ⟨ptr, 4⟩], [], .nil,
          Nat.zero_le _, by simp [Host.note], fun chain queue hc => ?_⟩
        cases hc
      · rw [Eff.pure_bind_run, slot_toNat, Eff.bind_of_ok (readGuestPtr_run ..)]
        obtain ⟨ds, path, hlen, hev, hok⟩ :=
          walk_visits self mem self.num.toNat (self.nextHead h ptr)
          ⟨self.nextHead h ptr, [], []⟩
            ((h.note (.read ⟨ptr, 4⟩)).note (.read ⟨self.availEntry ptr, 2⟩))
        obtain ⟨last, returns⟩ := Eff.bind_pure_run
          (self.walk mem self.num.toNat (self.nextHead h ptr) ⟨self.nextHead h ptr, [], []⟩)
          (fun chain => (some chain, { self with lastAvailIdx := self.lastAvailIdx + 1 }))
          ((h.note (.read ⟨ptr, 4⟩)).note (.read ⟨self.availEntry ptr, 2⟩))
        refine ⟨self.nextHead h ptr, [.read ⟨ptr, 4⟩, .read ⟨self.availEntry ptr, 2⟩], ds,
          path, hlen, ?_, ?_⟩
        · refine last.trans (hev.trans ?_)
          simp [Host.note]
        · intro chain queue hc ptr' available
          obtain ⟨chain', hw, -⟩ := returns _ hc
          cases hp.symm.trans available.ring
          exact ⟨rfl, rfl, hok chain' hw⟩

/-- A path that the loop of `popAvail` follows to its end, or for as many
steps as it makes, is taken. -/
lemma takes_path {ptr : Nat} {ds : List (UInt16 × VringDesc)} (available : self.Available mem h ptr)
    (path : self.Path mem h.mem (self.nextHead h ptr) ds) (hne : ds ≠ [])
    (hlen : ds.length = self.num.toNat ∨ Ended ds ∧ ds.length ≤ self.num.toNat)
    (fits : self.ChainFits mem h.overflowChecks ds) : self.Takes mem h ptr ds := by
  have hds := chainDescs_iff.mpr ⟨path, hlen⟩
  have h0 : self.num ≠ 0 := by
    intro h0
    have hpos := List.length_pos_iff.mpr hne
    rw [h0] at hlen
    have zero : (0 : UInt32).toNat = 0 := rfl
    omega
  obtain ⟨h', e, -⟩ := popAvail_run self available.ring available.moved h0 hds fits
  obtain ⟨idx, pre, ds', -, -, hev, hok⟩ := popAvail_visits self mem h
  rw [e] at hev hok
  obtain ⟨rfl, rfl, hds'⟩ := hok _ _ rfl ptr available
  cases hds.symm.trans hds'
  unfold Takes
  rw [e]
  refine Prod.ext rfl ?_
  exact hev

end VringQueue

open VringQueue

/-! ## A chain of three, and a circle -/

/-- Four descriptors from 0x200 on, with the first in the available ring at 0x100. -/
def fourQueue : VringQueue :=
  { ready := 1, num := 4, lastAvailIdx := 0, desc := 0x200, avail := 0x100, used := 0x400 }

/-- That table, with these descriptors in it. -/
def fourTable (ds : List (UInt16 × VringDesc)) : Mem :=
  ds.foldl (fun m d => m.store (0x1200 + 16 * d.1.toNat) d.2)
    (Mem.store (fun _ => 0) 0x1102 (1 : UInt16))

/-- A header, a buffer to read into and one for the status. -/
def linkedChain : List (UInt16 × VringDesc) :=
  [(0, { addr := 0x300, len := 16, flags := 1, next := 2 }),
    (2, { addr := 0x500, len := 512, flags := 3, next := 1 }),
    (1, { addr := 0x310, len := 1, flags := 2, next := 0 })]

/-- Two descriptors, each the next one of the other. -/
def circle : List (UInt16 × VringDesc) :=
  [(0, { addr := 0x300, len := 16, flags := 1, next := 3 }),
    (3, { addr := 0x500, len := 4, flags := 3, next := 0 })]

end Hearth
