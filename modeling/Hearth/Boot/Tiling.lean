import Hearth.Boot.Slots
import Hearth.Lib.Transition

/-!
# The slots tile guest memory

However regions are added and split, KVM's slots cover guest memory once, map it as the regions
do, and log the pages that were asked for. A session is the VM with the calls of
`log_dirty_pages` that have succeeded.
-/

namespace Hearth
open Lib

/-- The slot is a part of the region and maps it as the region is mapped. -/
structure KvmSlot.Maps (k : KvmSlot) (r : VmRegion) : Prop where
  lo : r.guestPhysAddr.toNat ≤ k.guestPhysAddr.toNat
  hi : k.guestPhysAddr.toNat + k.memorySize.toNat ≤ r.guestPhysAddr.toNat + r.memSize.toNat
  host : k.userspaceAddr.toNat = r.memPtr.toNat + (k.guestPhysAddr.toNat - r.guestPhysAddr.toNat)

/-- A slot that maps part of a region is inside it. -/
lemma KvmSlot.Maps.inside {k : KvmSlot} {r : VmRegion} (h : k.Maps r) : k.span.Inside r.span := by
  apply Span.inside_of_le
  · exact h.lo
  · exact h.hi

/-- Writes to the slot's pages are logged. -/
def KvmSlot.Logs (k : KvmSlot) : Prop := k.flags &&& kvmMemLogDirtyPages ≠ 0

/-- The address is on a page that the range touches. -/
def Touched (gpa size : UInt64) (a : Nat) : Prop :=
  ∃ b, gpa.toNat ≤ b ∧ b < gpa.toNat + size.toNat ∧ a / 4096 = b / 4096

/-- A call of `log_dirty_pages` and what it returned. -/
structure LogCall where
  gpa : UInt64
  size : UInt64
  log : DirtyLog

/-- The slot is the one that the call's log is of. -/
structure LogCall.Has (c : LogCall) (k : KvmSlot) : Prop where
  logs : k.Logs
  pages : ∀ a, a ∈ k.span ↔ Touched c.gpa c.size a
  count : c.log.pages * 4096 = k.memorySize.toNat

namespace SlotVm

/-- What holds between the operations. -/
structure Inv (vm : SlotVm) (calls : List LogCall) : Prop where
  fresh : ∀ id k, vm.slots id = some k → id.toNat < vm.nextSlot.toNat
  slotsApart : ∀ id id' k k', vm.slots id = some k → vm.slots id' = some k' → id ≠ id' →
    k.span.Apart k'.span
  regionsApart : vm.guestMemory.Pairwise fun r r' => r.span.Apart r'.span
  fits : ∀ r ∈ vm.guestMemory, 0 < r.memSize.toNat ∧
    r.guestPhysAddr.toNat + r.memSize.toNat < 2 ^ 64
  inside : ∀ id k, vm.slots id = some k → ∃ r ∈ vm.guestMemory, k.Maps r
  covered : ∀ r ∈ vm.guestMemory, ∀ a ∈ r.span, ∃ id k, vm.slots id = some k ∧ a ∈ k.span
  whole : ∀ r ∈ vm.guestMemory, ∀ id, r.slot = some id → vm.slots id = some r.whole
  logs : ∀ c ∈ calls, ∃ k, vm.slots c.log.slot = some k ∧ c.Has k
  logged : ∀ id k, vm.slots id = some k → k.Logs → ∃ c ∈ calls, c.log.slot = id
  nodup : (calls.map fun c => c.log.slot).Nodup

/-- A new VM has neither regions nor slots. -/
lemma new_inv (os : Os) (kvm : Kvm) (overflowChecks : Bool) (dupFails : List Bool) :
    (new os kvm overflowChecks dupFails).Inv [] where
  fresh := fun id k h => by cases h
  slotsApart := fun id id' k k' h => by cases h
  regionsApart := List.Pairwise.nil
  fits := fun r h => absurd h List.not_mem_nil
  inside := fun id k h => by cases h
  covered := fun r h => absurd h List.not_mem_nil
  whole := fun r h => absurd h List.not_mem_nil
  logs := fun c h => absurd h List.not_mem_nil
  logged := fun id k h => by cases h
  nodup := List.nodup_nil

/-! ## Adding a region -/

/-- The slot of a whole region maps it. -/
lemma whole_maps (r : VmRegion) : r.whole.Maps r :=
  ⟨Nat.le_refl _, Nat.le_refl _, by simp [VmRegion.whole]⟩

/-- The slot of a whole region does not log. -/
lemma whole_quiet (r : VmRegion) : ¬ r.whole.Logs := by
  unfold KvmSlot.Logs VmRegion.whole
  simp

/-- A region that has been added: KVM has accepted a slot for all of it under the next id. -/
lemma addMemRegion_ok {memSize gpa : UInt64} {idx : Nat} {vm vm' : SlotVm}
    (run : addMemRegion memSize gpa vm = (.ok idx, vm')) : ∃ r : VmRegion,
      r.slot = some vm.nextSlot ∧ vm.kvm.accepts vm.slots vm.nextSlot r.whole = true ∧
        vm' = { vm with
          nextSlot := vm.nextSlot + 1
          slots := Function.update vm.slots vm.nextSlot (if memSize = 0 then none else some r.whole)
          guestMemory := vm.guestMemory ++ [r] } ∧ r.memSize = memSize := by
  unfold addMemRegion at run
  split at run
  · cases run
  · next ptr h =>
    obtain ⟨slot, vm₁, hslot, run₁⟩ := Eff.bind_ok_iff.mp run
    obtain ⟨rfl, rfl⟩ := takeSlot_ok hslot
    obtain ⟨⟨⟩, vm₂, hset, run₂⟩ := Eff.bind_ok_iff.mp run₁
    obtain ⟨accepted, rfl⟩ := setUserMemoryRegion_ok hset
    cases run₂
    have mapped : (UInt64.ofNat ptr).toNat + memSize.toNat ≤ 2 ^ 63 := by
      rw [ofNat_toNat (vm.os.mmap_fits h)]
      exact vm.os.mmap_fits h
    exact ⟨⟨UInt64.ofNat ptr, memSize, gpa, some vm.nextSlot, false, mapped⟩, rfl,
      accepted, rfl, rfl⟩

/-- Adding a region keeps the invariant: KVM accepts no slot that overlaps another. -/
lemma Inv.add {memSize gpa : UInt64} {idx : Nat} {vm vm' : SlotVm} {calls : List LogCall}
    (h : vm.Inv calls) (run : addMemRegion memSize gpa vm = (.ok idx, vm')) : vm'.Inv calls := by
  obtain ⟨r, hslot, accepted, rfl, hsize⟩ := addMemRegion_ok run
  -- ids are given out in order, so that the next one is unused
  have hnone : vm.slots vm.nextSlot = none := by
    cases hs : vm.slots vm.nextSlot with
    | none => rfl
    | some k => exact absurd (h.fresh _ _ hs) (Nat.lt_irrefl _)
  -- an empty slot would be a deletion, and KVM refuses to delete what is not there
  have hpos : memSize ≠ 0 := fun h0 => vm.kvm.deletes accepted (hsize.trans h0) hnone
  have hid : (vm.nextSlot + 1).toNat = vm.nextSlot.toNat + 1 := by
    rw [UInt32.toNat_add]
    exact Nat.mod_eq_of_lt (vm.kvm.limited accepted)
  rw [if_neg hpos]
  have lookup : ∀ id k, Function.update vm.slots vm.nextSlot (some r.whole) id = some k ↔
      id = vm.nextSlot ∧ k = r.whole ∨ vm.slots id = some k := by
    intro id k
    by_cases he : id = vm.nextSlot
    · subst he
      simp only [Function.update_self, hnone, Option.some.injEq, true_and, reduceCtorEq, or_false]
      exact eq_comm
    · simp [he]
  have apart : ∀ id k, vm.slots id = some k → r.whole.span.Apart k.span := by
    intro id k hk
    have hne : id ≠ vm.nextSlot := by
      rintro rfl
      rw [hnone] at hk
      cases hk
    exact vm.kvm.apart accepted hne hk
  constructor
  · intro id k hk
    show id.toNat < (vm.nextSlot + 1).toNat
    rw [hid]
    rcases (lookup id k).mp hk with ⟨rfl, -⟩ | hk
    · exact Nat.lt_succ_self _
    · exact Nat.lt_succ_of_lt (h.fresh id k hk)
  · intro id id' k k' hk hk' hne
    rcases (lookup id k).mp hk with ⟨rfl, rfl⟩ | hk
    · rcases (lookup id' k').mp hk' with ⟨rfl, -⟩ | hk'
      · exact absurd rfl hne
      · exact apart id' k' hk'
    · rcases (lookup id' k').mp hk' with ⟨rfl, rfl⟩ | hk'
      · exact (apart id k hk).symm
      · exact h.slotsApart id id' k k' hk hk' hne
  · refine List.pairwise_append.mpr ⟨h.regionsApart, List.pairwise_singleton _ _,
      fun r₁ h₁ r₂ h₂ => ?_⟩
    rw [List.mem_singleton.mp h₂]
    -- the old regions are covered by slots, none of which the new one overlaps
    intro a ha ha'
    obtain ⟨id, k, hk, hak⟩ := h.covered r₁ h₁ a ha
    exact apart id k hk a ha' hak
  · intro r₁ h₁
    rcases List.mem_append.mp h₁ with h₁ | h₁
    · exact h.fits r₁ h₁
    · rw [List.mem_singleton.mp h₁]
      refine ⟨Nat.pos_of_ne_zero fun h0 => hpos ?_, vm.kvm.fits accepted⟩
      rw [← hsize]
      exact UInt64.toNat_inj.mp h0
  · intro id k hk
    rcases (lookup id k).mp hk with ⟨-, rfl⟩ | hk
    · exact ⟨r, List.mem_append_right _ (List.mem_singleton_self r), whole_maps r⟩
    · obtain ⟨r₁, h₁, hm⟩ := h.inside id k hk
      exact ⟨r₁, List.mem_append_left _ h₁, hm⟩
  · intro r₁ h₁ a ha
    rcases List.mem_append.mp h₁ with h₁ | h₁
    · obtain ⟨id, k, hk, hak⟩ := h.covered r₁ h₁ a ha
      exact ⟨id, k, (lookup id k).mpr (.inr hk), hak⟩
    · rw [List.mem_singleton.mp h₁] at ha
      exact ⟨vm.nextSlot, r.whole, (lookup _ _).mpr (.inl ⟨rfl, rfl⟩), ha⟩
  · intro r₁ h₁ id hr
    rcases List.mem_append.mp h₁ with h₁ | h₁
    · exact (lookup id _).mpr (.inr (h.whole r₁ h₁ id hr))
    · rw [List.mem_singleton.mp h₁] at hr ⊢
      rw [hslot] at hr
      cases hr
      exact (lookup _ _).mpr (.inl ⟨rfl, rfl⟩)
  · intro c hc
    obtain ⟨k, hk, has⟩ := h.logs c hc
    exact ⟨k, (lookup _ _).mpr (.inr hk), has⟩
  · intro id k hk hl
    rcases (lookup id k).mp hk with ⟨-, rfl⟩ | hk
    · exact absurd hl (whole_quiet r)
    · exact h.logged id k hk hl
  · exact h.nodup

/-! ## Splitting a region -/

section Pieces

variable {gpa size : UInt64} {vm vm' : SlotVm} {log : DirtyLog} {idx : Nat}
    {r : VmRegion} {id : UInt32}
  {start stop : UInt64} {entries : List (UInt32 × Piece)}

/-- The end of a region does not wrap. -/
lemma end_eq (fits : r.guestPhysAddr.toNat + r.memSize.toNat < 2 ^ 64) :
    (r.guestPhysAddr + r.memSize).toNat = r.guestPhysAddr.toNat + r.memSize.toNat := by
  rw [UInt64.toNat_add, Nat.mod_eq_of_lt fits]

/-- The bounds of the pieces of a region, in order. -/
structure Cuts (r : VmRegion) (start stop : UInt64) : Prop where
  fits : r.guestPhysAddr.toNat + r.memSize.toNat < 2 ^ 64
  lo : r.guestPhysAddr.toNat ≤ start.toNat
  lt : start.toNat < stop.toNat
  hi : stop.toNat ≤ r.guestPhysAddr.toNat + r.memSize.toNat

/-- A piece lies in the region, its bounds in order. -/
lemma Cuts.piece (h : Cuts r start stop) {p : Piece} (hp : p ∈ splitPieces r start stop) :
    r.guestPhysAddr.toNat ≤ p.from_.toNat ∧ p.from_.toNat ≤ p.to_.toNat ∧
      p.to_.toNat ≤ r.guestPhysAddr.toNat + r.memSize.toNat := by
  have hend := end_eq h.fits
  have := h.lo
  have := h.lt
  have := h.hi
  unfold splitPieces at hp
  rcases List.mem_cons.mp hp with rfl | hp
  · dsimp only
    omega
  · rcases List.mem_cons.mp hp with rfl | hp
    · dsimp only
      omega
    · rw [List.mem_singleton.mp hp]
      dsimp only
      omega

/-- The slot of a piece that is not empty. -/
lemma Cuts.slot (h : Cuts r start stop) {p : Piece} (hp : p ∈ splitPieces r start stop) :
    (p.slot r.guestPhysAddr r.memPtr).Maps r ∧
      (p.slot r.guestPhysAddr r.memPtr).span = ⟨p.from_.toNat, p.to_.toNat - p.from_.toNat⟩ := by
  obtain ⟨hlo, hle, hhi⟩ := h.piece hp
  have hsize : (p.to_ - p.from_).toNat = p.to_.toNat - p.from_.toNat :=
    UInt64.toNat_sub_of_le _ _ (UInt64.le_iff_toNat_le.mpr hle)
  have hoff : (p.from_ - r.guestPhysAddr).toNat = p.from_.toNat - r.guestPhysAddr.toNat :=
    UInt64.toNat_sub_of_le _ _ (UInt64.le_iff_toNat_le.mpr hlo)
  have hmapped := r.mapped
  refine ⟨⟨hlo, ?_, ?_⟩, ?_⟩
  · show p.from_.toNat + (p.to_ - p.from_).toNat ≤ _
    rw [hsize]
    omega
  · show (r.memPtr + (p.from_ - r.guestPhysAddr)).toNat = _
    rw [UInt64.toNat_add, hoff, Nat.mod_eq_of_lt (by omega)]
    rfl
  · show (⟨p.from_.toNat, (p.to_ - p.from_).toNat⟩ : Span) = _
    rw [hsize]

/-- Different pieces share no address. -/
lemma Cuts.apart (h : Cuts r start stop) : (splitPieces r start stop).Pairwise fun p q =>
    (p.slot r.guestPhysAddr r.memPtr).span.Apart (q.slot r.guestPhysAddr r.memPtr).span := by
  have order : (splitPieces r start stop).Pairwise fun p q => p.to_.toNat ≤ q.from_.toNat := by
    have := h.lt
    simp only [splitPieces, List.pairwise_cons, List.mem_cons, List.not_mem_nil]
    grind
  refine order.imp_of_mem fun {p q} hp hq hle a ha hb => ?_
  rw [(h.slot hp).2] at ha
  rw [(h.slot hq).2] at hb
  have := h.piece hp
  have := h.piece hq
  rw [Span.mem_iff] at ha hb
  dsimp only at ha hb
  omega

/-- Every address of the region is in a piece. -/
lemma Cuts.cover (h : Cuts r start stop) {a : Nat} (ha : a ∈ r.span) :
    ∃ p ∈ splitPieces r start stop,
      p.from_ ≠ p.to_ ∧ a ∈ (p.slot r.guestPhysAddr r.memPtr).span := by
  have hend := end_eq h.fits
  have := h.lo
  have := h.lt
  have := h.hi
  obtain ⟨ha₁, ha₂⟩ := Span.mem_iff.mp ha
  change r.guestPhysAddr.toNat ≤ a at ha₁
  change a < r.guestPhysAddr.toNat + r.memSize.toNat at ha₂
  obtain ⟨p, hp, hlo, hhi⟩ :
    ∃ p ∈ splitPieces r start stop, p.from_.toNat ≤ a ∧ a < p.to_.toNat := by
    by_cases h₁ : a < start.toNat
    · exact ⟨⟨r.guestPhysAddr, start, 0⟩, by simp [splitPieces], ha₁, h₁⟩
    · by_cases h₂ : a < stop.toNat
      · exact ⟨⟨start, stop, kvmMemLogDirtyPages⟩, by simp [splitPieces], Nat.le_of_not_lt h₁, h₂⟩
      · refine ⟨⟨stop, r.guestPhysAddr + r.memSize,
          0⟩, by simp [splitPieces], Nat.le_of_not_lt h₂, ?_⟩
        rw [hend]
        exact ha₂
  refine ⟨p, hp, fun he => ?_, ?_⟩
  · rw [he] at hlo
    omega
  · rw [(h.slot hp).2, Span.mem_iff]
    dsimp only
    omega

/-- The region that is split was there. -/
lemma Split.mem (sp : Split gpa size vm vm' log idx r id start stop entries) : r ∈ vm.guestMemory :=
  List.mem_of_getElem? sp.region

/-- The logged range lies in the region, on page boundaries. -/
lemma Split.cuts {calls : List LogCall} (h : vm.Inv calls)
    (sp : Split gpa size vm vm' log idx r id start stop entries) : Cuts r start stop where
  fits := (h.fits r sp.mem).2
  lo := sp.lo
  lt := sp.lt
  hi := by
    rw [← end_eq (h.fits r sp.mem).2]
    exact sp.hi

/-- The entries are the pieces that are not empty. -/
lemma Split.entry_iff (sp : Split gpa size vm vm' log idx r id start stop entries) {p : Piece} :
    (∃ id', (id', p) ∈ entries) ↔ p ∈ splitPieces r start stop ∧ p.from_ ≠ p.to_ := by
  obtain ⟨vm₂, added, -⟩ := sp.added
  have e : (∃ id', (id', p) ∈ entries) ↔ p ∈ entries.map Prod.snd := by
    constructor
    · rintro ⟨id', hp⟩
      exact List.mem_map.mpr ⟨_, hp, rfl⟩
    · intro hp
      obtain ⟨e, he, rfl⟩ := List.mem_map.mp hp
      exact ⟨e.1, he⟩
  rw [e, added.pieces, List.mem_filter]
  simp

/-- Different entries share no address. -/
lemma Split.apart {calls : List LogCall} (h : vm.Inv calls)
    (sp : Split gpa size vm vm' log idx r id start stop entries) {i j : UInt32} {p q : Piece}
    (hp : (i, p) ∈ entries) (hq : (j, q) ∈ entries) (hne : i ≠ j) :
    (p.slot r.guestPhysAddr r.memPtr).span.Apart (q.slot r.guestPhysAddr r.memPtr).span := by
  obtain ⟨vm₂, added, -⟩ := sp.added
  have pieces : (entries.map Prod.snd).Pairwise fun p q =>
      (p.slot r.guestPhysAddr r.memPtr).span.Apart (q.slot r.guestPhysAddr r.memPtr).span := by
    rw [added.pieces]
    exact (sp.cuts h).apart.filter _
  rw [List.pairwise_map] at pieces
  have : Std.Symm fun e e' : UInt32 × Piece =>
      (e.2.slot r.guestPhysAddr r.memPtr).span.Apart (e'.2.slot r.guestPhysAddr r.memPtr).span :=
    ⟨fun _ _ h => h.symm⟩
  exact pieces.forall hp hq fun e => hne (congrArg Prod.fst e)

/-- The slots after a region was split are the entries', and the other regions'. -/
lemma Split.lookup {calls : List LogCall} (h : vm.Inv calls)
    (sp : Split gpa size vm vm' log idx r id start stop entries) {i : UInt32} {k : KvmSlot} :
    vm'.slots i = some k ↔ (∃ p, (i, p) ∈ entries ∧ k = p.slot r.guestPhysAddr r.memPtr) ∨
      i ≠ id ∧ vm.slots i = some k := by
  obtain ⟨vm₂, added, hstate⟩ := sp.added
  have hslots : vm'.slots = setAll (Function.update vm.slots id none)
      (entries.map fun e => (e.1, e.2.slot r.guestPhysAddr r.memPtr)) := by
    rw [hstate, added.state]
  have hfst : (entries.map fun e => (e.1, e.2.slot r.guestPhysAddr r.memPtr)).map Prod.fst =
      entries.map Prod.fst := by
    rw [List.map_map]
    rfl
  rw [hslots, setAll_iff (by rw [hfst]; exact added.nodup), hfst]
  constructor
  · rintro (hmem | ⟨-, hk⟩)
    · obtain ⟨e, he, heq⟩ := List.mem_map.mp hmem
      cases heq
      exact .inl ⟨e.2, he, rfl⟩
    · have hne : i ≠ id := by
        rintro rfl
        rw [Function.update_self] at hk
        cases hk
      rw [Function.update_of_ne hne] at hk
      exact .inr ⟨hne, hk⟩
  · rintro (⟨p, hp, rfl⟩ | ⟨hne, hk⟩)
    · exact .inl (List.mem_map.mpr ⟨(i, p), hp, rfl⟩)
    · refine .inr ⟨fun hmem => ?_, by rwa [Function.update_of_ne hne]⟩
      -- an entry has the region's old id or a new one
      obtain ⟨e, he, rfl⟩ := List.mem_map.mp hmem
      rcases added.ids e he with hid | ⟨hlo, -⟩
      · exact hne (Option.some.inj hid).symm
      · exact absurd (h.fresh _ _ hk) (Nat.not_lt_of_le hlo)

/-- The logged range is an entry of its own, in the slot of the log. -/
lemma Split.log_entry (sp : Split gpa size vm vm' log idx r id start stop entries) :
    (log.slot, ⟨start, stop, kvmMemLogDirtyPages⟩) ∈ entries := by
  obtain ⟨vm₂, added, -⟩ := sp.added
  obtain ⟨p, hp, hf⟩ := (added.logged log.slot rfl).resolve_left (by simp)
  rw [(logging_piece added.pieces hp hf).1] at hp
  exact hp

/-- An entry has the region's slot id, or one that no slot has had. -/
lemma Split.entry_id (sp : Split gpa size vm vm' log idx r id start stop entries)
    {i : UInt32} {p : Piece} (hp : (i, p) ∈ entries) :
    i = id ∨ vm.nextSlot.toNat ≤ i.toNat ∧ i.toNat < vm'.nextSlot.toNat := by
  obtain ⟨vm₂, added, hstate⟩ := sp.added
  rw [hstate]
  exact (added.ids _ hp).imp (fun h => (Option.some.inj h).symm) fun h => h

/-- Splitting only takes new ids. -/
lemma Split.next_le (sp : Split gpa size vm vm' log idx r id start stop entries) :
    vm.nextSlot.toNat ≤ vm'.nextSlot.toNat := by
  obtain ⟨vm₂, added, hstate⟩ := sp.added
  rw [hstate]
  exact added.next

/-- The region is left without a slot of its own. -/
lemma Split.regions (sp : Split gpa size vm vm' log idx r id start stop entries) :
    vm'.guestMemory = vm.guestMemory.set idx { r with slot := none } := by
  obtain ⟨vm₂, added, hstate⟩ := sp.added
  rw [hstate]

/-- The regions after a split: the one without its slot, and the others. -/
lemma Split.mem_iff (sp : Split gpa size vm vm' log idx r id start stop entries) {r' : VmRegion} :
    r' ∈ vm'.guestMemory ↔ r' = { r with slot := none } ∨ ∃ j,
      j ≠ idx ∧ vm.guestMemory[j]? = some r' := by
  have hlt : idx < vm.guestMemory.length := (List.getElem?_eq_some_iff.mp sp.region).1
  rw [sp.regions, List.mem_iff_getElem?]
  constructor
  · rintro ⟨j, hj⟩
    rw [List.getElem?_set] at hj
    split at hj
    · exact .inl (Option.some.inj hj).symm
    · next hne => exact .inr ⟨j, fun h => hne h.symm, hj⟩
  · rintro (rfl | ⟨j, hne, hj⟩)
    · exact ⟨idx, by rw [List.getElem?_set_self hlt]⟩
    · exact ⟨j, by rw [List.getElem?_set_ne hne.symm]; exact hj⟩

/-- An entry's slot lies in the region, and so apart from every other slot. -/
lemma Split.entry_apart {calls : List LogCall} (h : vm.Inv calls)
    (sp : Split gpa size vm vm' log idx r id start stop entries) {i j : UInt32}
    {p : Piece} {k : KvmSlot} (hp : (i, p) ∈ entries) (hne : j ≠ id) (hk : vm.slots j = some k) :
    (p.slot r.guestPhysAddr r.memPtr).span.Apart k.span := by
  have inside := ((sp.cuts h).slot (sp.entry_iff.mp ⟨i, hp⟩).1).1.inside
  have apart := h.slotsApart id j r.whole k (h.whole r sp.mem id sp.slot) hk hne.symm
  intro a ha
  exact apart a (inside a ha)

/-- The call has the slot of the piece that logs. -/
lemma Split.has {calls : List LogCall} (h : vm.Inv calls) (pos : 0 < size)
    (sp : Split gpa size vm vm' log idx r id start stop entries) :
    LogCall.Has ⟨gpa, size, log⟩
      (Piece.slot r.guestPhysAddr r.memPtr ⟨start, stop, kvmMemLogDirtyPages⟩) := by
  obtain ⟨-, hspan⟩ := (sp.cuts h).slot (sp.entry_iff.mp ⟨log.slot, sp.log_entry⟩).1
  have hlt := sp.lt
  have hstart := sp.startAt
  have hstop := sp.stopAt
  have hpos : 0 < size.toNat := UInt64.lt_iff_toNat_lt.mp pos
  constructor
  · show kvmMemLogDirtyPages &&& kvmMemLogDirtyPages ≠ 0
    decide
  · intro a
    rw [hspan, Span.mem_iff]
    show start.toNat ≤ a ∧ a < start.toNat + (stop.toNat - start.toNat) ↔ Touched gpa size a
    constructor
    · rintro ⟨hlo, hhi⟩
      -- the address of the range on the page of `a` that is closest to `a`
      by_cases h₁ : a < gpa.toNat
      · exact ⟨gpa.toNat, Nat.le_refl _, by omega, by omega⟩
      · by_cases h₂ : a < gpa.toNat + size.toNat
        · exact ⟨a, Nat.le_of_not_lt h₁, h₂, rfl⟩
        · exact ⟨gpa.toNat + size.toNat - 1, by omega, by omega, by omega⟩
    · rintro ⟨b, hlo, hhi, hpage⟩
      omega
  · show log.pages * 4096 = (stop - start).toNat
    rw [sp.pages, UInt64.toNat_sub_of_le _ _ (UInt64.le_iff_toNat_le.mpr hlt.le)]

/-- The region had one slot, which was all of it. -/
lemma Split.whole {calls : List LogCall} (h : vm.Inv calls)
    (sp : Split gpa size vm vm' log idx r id start stop entries) : vm.slots id = some r.whole :=
  h.whole r sp.mem id sp.slot

/-- The slot of a call is not the one that is split, nor a new one. -/
lemma Split.old {calls : List LogCall} (h : vm.Inv calls)
    (sp : Split gpa size vm vm' log idx r id start stop entries) {c : LogCall} (hc : c ∈ calls) :
    c.log.slot ≠ id ∧ c.log.slot.toNat < vm.nextSlot.toNat := by
  obtain ⟨k, hk, has⟩ := h.logs c hc
  refine ⟨fun he => ?_, h.fresh _ _ hk⟩
  rw [he, sp.whole h] at hk
  cases hk
  exact whole_quiet r has.logs

/-- Every slot's id has been taken. -/
lemma Split.fresh {calls : List LogCall} (h : vm.Inv calls)
    (sp : Split gpa size vm vm' log idx r id start stop entries) (i : UInt32) (k : KvmSlot)
    (hk : vm'.slots i = some k) : i.toNat < vm'.nextSlot.toNat := by
  rcases (sp.lookup h).mp hk with ⟨p, hp, -⟩ | ⟨-, hk⟩
  · rcases sp.entry_id hp with rfl | ⟨-, hlt⟩
    · exact Nat.lt_of_lt_of_le (h.fresh _ _ (sp.whole h)) sp.next_le
    · exact hlt
  · exact Nat.lt_of_lt_of_le (h.fresh i k hk) sp.next_le

/-- Slots are apart: two pieces, a piece and an old slot, or two old slots. -/
lemma Split.slotsApart {calls : List LogCall} (h : vm.Inv calls)
    (sp : Split gpa size vm vm' log idx r id start stop entries) (i j : UInt32) (k k' : KvmSlot)
    (hk : vm'.slots i = some k) (hk' : vm'.slots j = some k') (hne : i ≠ j) :
    k.span.Apart k'.span := by
  rcases (sp.lookup h).mp hk with ⟨p, hp, rfl⟩ | ⟨hi, hk⟩
  · rcases (sp.lookup h).mp hk' with ⟨q, hq, rfl⟩ | ⟨hj, hk'⟩
    · exact sp.apart h hp hq hne
    · exact sp.entry_apart h hp hj hk'
  · rcases (sp.lookup h).mp hk' with ⟨q, hq, rfl⟩ | ⟨-, hk'⟩
    · exact (sp.entry_apart h hq hi hk).symm
    · exact h.slotsApart i j k k' hk hk' hne

/-- The regions keep their addresses. -/
lemma Split.spans (sp : Split gpa size vm vm' log idx r id start stop entries) :
    vm'.guestMemory.map VmRegion.span = vm.guestMemory.map VmRegion.span := by
  rw [sp.regions, List.map_set]
  apply List.ext_getElem?
  intro j
  rw [List.getElem?_set]
  split
  · next hj =>
    subst hj
    rw [List.getElem?_map, sp.region]
    split
    · rfl
    · next hlt => exact absurd (by simpa using (List.getElem?_eq_some_iff.mp sp.region).1) hlt
  · rfl

/-- Regions stay apart, for they keep their addresses. -/
lemma Split.regionsApart {calls : List LogCall} (h : vm.Inv calls)
    (sp : Split gpa size vm vm' log idx r id start stop entries) :
    vm'.guestMemory.Pairwise fun r r' => r.span.Apart r'.span := by
  have regions := List.pairwise_map.mpr h.regionsApart
  rw [← sp.spans] at regions
  exact List.pairwise_map.mp regions

/-- Regions stay where they fit. -/
lemma Split.fits {calls : List LogCall} (h : vm.Inv calls)
    (sp : Split gpa size vm vm' log idx r id start stop entries) (r' : VmRegion)
    (hr' : r' ∈ vm'.guestMemory) :
    0 < r'.memSize.toNat ∧ r'.guestPhysAddr.toNat + r'.memSize.toNat < 2 ^ 64 := by
  rcases sp.mem_iff.mp hr' with rfl | ⟨j, -, hj⟩
  · exact h.fits r sp.mem
  · exact h.fits r' (List.mem_of_getElem? hj)

/-- Every slot maps part of a region. -/
lemma Split.inside {calls : List LogCall} (h : vm.Inv calls)
    (sp : Split gpa size vm vm' log idx r id start stop entries) (i : UInt32) (k : KvmSlot)
    (hk : vm'.slots i = some k) : ∃ r' ∈ vm'.guestMemory, k.Maps r' := by
  rcases (sp.lookup h).mp hk with ⟨p, hp, rfl⟩ | ⟨-, hk⟩
  · have maps := ((sp.cuts h).slot (sp.entry_iff.mp ⟨i, hp⟩).1).1
    exact ⟨{ r with slot := none }, sp.mem_iff.mpr (.inl rfl), maps.lo, maps.hi, maps.host⟩
  · obtain ⟨r', hr', maps⟩ := h.inside i k hk
    obtain ⟨j, hj⟩ := List.mem_iff_getElem?.mp hr'
    by_cases he : j = idx
    · rw [he, sp.region] at hj
      cases hj
      exact ⟨{ r with slot := none }, sp.mem_iff.mpr (.inl rfl), maps.lo, maps.hi, maps.host⟩
    · exact ⟨r', sp.mem_iff.mpr (.inr ⟨j, he, hj⟩), maps⟩

/-- The pieces cover the region. -/
lemma Split.pieces {calls : List LogCall} (h : vm.Inv calls)
    (sp : Split gpa size vm vm' log idx r id start stop entries) {a : Nat} (ha : a ∈ r.span) :
    ∃ i k, vm'.slots i = some k ∧ a ∈ k.span := by
  obtain ⟨p, hp, hne, hap⟩ := (sp.cuts h).cover ha
  obtain ⟨i, hi⟩ := sp.entry_iff.mpr ⟨hp, hne⟩
  exact ⟨i, _, (sp.lookup h).mpr (.inl ⟨p, hi, rfl⟩), hap⟩

/-- Every region is covered by slots. -/
lemma Split.covered {calls : List LogCall} (h : vm.Inv calls)
    (sp : Split gpa size vm vm' log idx r id start stop entries) (r' : VmRegion)
    (hr' : r' ∈ vm'.guestMemory) (a : Nat) (ha : a ∈ r'.span) :
    ∃ i k, vm'.slots i = some k ∧ a ∈ k.span := by
  rcases sp.mem_iff.mp hr' with rfl | ⟨j, -, hj⟩
  · exact sp.pieces h ha
  · obtain ⟨i, k, hk, hak⟩ := h.covered r' (List.mem_of_getElem? hj) a ha
    by_cases he : i = id
    · rw [he, sp.whole h] at hk
      cases hk
      exact sp.pieces h hak
    · exact ⟨i, k, (sp.lookup h).mpr (.inr ⟨he, hk⟩), hak⟩

/-- Two regions do not have one slot, for they share no address. -/
lemma Split.other {calls : List LogCall} (h : vm.Inv calls)
    (sp : Split gpa size vm vm' log idx r id start stop entries) {j : Nat} {r' : VmRegion}
    (hne : j ≠ idx) (hj : vm.guestMemory[j]? = some r') : r'.slot ≠ some id := by
  intro hi
  have hk := h.whole r' (List.mem_of_getElem? hj) id hi
  rw [sp.whole h] at hk
  have hspan : r'.span = r.span := congrArg KvmSlot.span (Option.some.inj hk).symm
  have apart : r.span.Apart r'.span := by
    obtain ⟨hlt, hr⟩ := List.getElem?_eq_some_iff.mp sp.region
    obtain ⟨hlt', hr'⟩ := List.getElem?_eq_some_iff.mp hj
    rw [← hr, ← hr']
    rcases Nat.lt_or_gt_of_ne hne with hjlt | hjgt
    · exact (List.pairwise_iff_getElem.mp h.regionsApart j idx hlt' hlt hjlt).symm
    · exact List.pairwise_iff_getElem.mp h.regionsApart idx j hlt hlt' hjgt
  have hself : r.guestPhysAddr.toNat ∈ r.span :=
    Span.mem_iff.mpr ⟨Nat.le_refl _, Nat.lt_add_of_pos_right (h.fits r sp.mem).1⟩
  exact apart _ hself (hspan ▸ hself)

/-- A region with a slot of its own has it for all of it. -/
lemma Split.wholes {calls : List LogCall} (h : vm.Inv calls)
    (sp : Split gpa size vm vm' log idx r id start stop entries) (r' : VmRegion)
    (hr' : r' ∈ vm'.guestMemory) (i : UInt32) (hi : r'.slot = some i) :
    vm'.slots i = some r'.whole := by
  rcases sp.mem_iff.mp hr' with rfl | ⟨j, hne, hj⟩
  · cases hi
  · have hk := h.whole r' (List.mem_of_getElem? hj) i hi
    exact (sp.lookup h).mpr (.inr ⟨fun he => sp.other h hne hj (he ▸ hi), hk⟩)

/-- Every call has the slot that logs for it. -/
lemma Split.logs {calls : List LogCall} (h : vm.Inv calls) (pos : 0 < size)
    (sp : Split gpa size vm vm' log idx r id start stop entries) (c : LogCall)
    (hc : c ∈ calls ++ [⟨gpa, size, log⟩]) : ∃ k, vm'.slots c.log.slot = some k ∧ c.Has k := by
  rcases List.mem_append.mp hc with hc | hc
  · obtain ⟨k, hk, has⟩ := h.logs c hc
    exact ⟨k, (sp.lookup h).mpr (.inr ⟨(sp.old h hc).1, hk⟩), has⟩
  · rw [List.mem_singleton.mp hc]
    exact ⟨_, (sp.lookup h).mpr (.inl ⟨_, sp.log_entry, rfl⟩), sp.has h pos⟩

/-- One new slot logs, that of the call: a piece that is there twice
shares its addresses with itself. -/
lemma Split.logged {calls : List LogCall} (h : vm.Inv calls)
    (sp : Split gpa size vm vm' log idx r id start stop entries) (i : UInt32) (k : KvmSlot)
    (hk : vm'.slots i = some k) (hl : k.Logs) :
    ∃ c ∈ calls ++ [⟨gpa, size, log⟩], c.log.slot = i := by
  rcases (sp.lookup h).mp hk with ⟨p, hp, rfl⟩ | ⟨-, hk⟩
  · refine ⟨⟨gpa, size, log⟩, List.mem_append_right _ (List.mem_singleton_self _), ?_⟩
    obtain ⟨vm₂, added, -⟩ := sp.added
    have hf : p.flags ≠ 0 := fun h0 => hl (by show p.flags &&& _ = 0; rw [h0]; rfl)
    rw [(logging_piece added.pieces hp hf).1] at hp
    by_contra hne
    have hspan := ((sp.cuts h).slot (sp.entry_iff.mp ⟨i, hp⟩).1).2
    have hself := sp.apart h hp sp.log_entry (fun he => hne he.symm) start.toNat
    rw [hspan] at hself
    have hin : start.toNat ∈ (⟨start.toNat, stop.toNat - start.toNat⟩ : Span) :=
      Span.mem_iff.mpr ⟨Nat.le_refl _, Nat.lt_add_of_pos_right (Nat.sub_pos_of_lt sp.lt)⟩
    exact hself hin hin
  · obtain ⟨c, hc, hslot⟩ := h.logged i k hk hl
    exact ⟨c, List.mem_append_left _ hc, hslot⟩

/-- No two calls have the same slot. -/
lemma Split.nodup {calls : List LogCall} (h : vm.Inv calls)
    (sp : Split gpa size vm vm' log idx r id start stop entries) :
    ((calls ++ [LogCall.mk gpa size log]).map fun c => c.log.slot).Nodup := by
  rw [List.map_append, List.map_singleton]
  refine List.nodup_append.mpr ⟨h.nodup, List.nodup_singleton _, fun i hi j hj => ?_⟩
  obtain ⟨c, hc, rfl⟩ := List.mem_map.mp hi
  rw [List.mem_singleton.mp hj]
  intro he
  have hlog := sp.entry_id sp.log_entry
  rw [← he] at hlog
  rcases hlog with heq | ⟨hle, -⟩
  · exact (sp.old h hc).1 heq
  · exact Nat.lt_irrefl _ (Nat.lt_of_lt_of_le (sp.old h hc).2 hle)

/-- Splitting a region keeps the invariant, with the call among those that were made. -/
lemma Inv.split {calls : List LogCall} (h : vm.Inv calls) (pos : 0 < size)
    (sp : Split gpa size vm vm' log idx r id start stop entries) :
    vm'.Inv (calls ++ [⟨gpa, size, log⟩]) where
  fresh := sp.fresh h
  slotsApart := sp.slotsApart h
  regionsApart := sp.regionsApart h
  fits := sp.fits h
  inside := sp.inside h
  covered := sp.covered h
  whole := sp.wholes h
  logs := sp.logs h pos
  logged := sp.logged h
  nodup := sp.nodup h

end Pieces

/-! ## Slots lie below the end of the address space -/

/-- No slot wraps around, whatever the calls were. -/
def Bounded (vm : SlotVm) : Prop :=
  ∀ id k, vm.slots id = some k → k.guestPhysAddr.toNat + k.memorySize.toNat < 2 ^ 64

/-- What leaves the slots as they are bounded. -/
abbrev KeepsBounded {α : Type} (x : SlotM α) : Prop :=
  Eff.Within (fun vm vm' => vm.Bounded → vm'.Bounded) x

/-- Two computations that keep the slots bounded do so together. -/
lemma KeepsBounded.bind {α β : Type} {x : SlotM α} {f : α → SlotM β} (hx : KeepsBounded x)
    (hf : ∀ a, KeepsBounded (f a)) : KeepsBounded (x >>= f) :=
  Eff.Within.bind (fun h₁ h₂ h => h₂ (h₁ h)) hx hf

/-- Bounded slots are so after a run. -/
lemma KeepsBounded.run {α : Type} {x : SlotM α} {o : Outcome SlotError α} {vm vm' : SlotVm}
    (hx : KeepsBounded x) (run : x vm = (o, vm')) (h : vm.Bounded) : vm'.Bounded := by
  have keep := hx vm h
  rw [run] at keep
  exact keep

/-- A value keeps the slots. -/
lemma keepsBounded_pure {α : Type} (a : α) : KeepsBounded (pure a) := fun _ h => h

/-- An option that becomes an error keeps the slots. -/
lemma keepsBounded_okOr {α : Type} (o : Option α) (e : SlotError) : KeepsBounded (Eff.okOr o e) :=
  Eff.within_okOr (fun _ h => h) o e

/-- An option that is unwrapped keeps the slots. -/
lemma keepsBounded_unwrap {α : Type} (o : Option α) : KeepsBounded (Eff.unwrap o) :=
  Eff.within_unwrap (fun _ h => h) o

/-- An addition keeps the slots. -/
lemma keepsBounded_add (a b : UInt64) : KeepsBounded (add a b) := by
  intro vm h
  unfold add
  split
  · exact h
  · exact h

/-- A subtraction keeps the slots. -/
lemma keepsBounded_sub (a b : UInt64) : KeepsBounded (sub a b) := by
  intro vm h
  unfold sub
  split
  · exact h
  · exact h

/-- Taking an id leaves the slots. -/
lemma keepsBounded_takeSlot : KeepsBounded takeSlot := by
  intro vm h
  unfold takeSlot
  split
  · exact h
  · exact h

/-- KVM accepts no slot that wraps. -/
lemma keepsBounded_set (slot : UInt32) (region : KvmSlot) :
    KeepsBounded (setUserMemoryRegion slot region) := by
  intro vm h
  unfold setUserMemoryRegion
  split
  · next accepted =>
    intro id k hk
    by_cases he : id = slot
    · subst he
      dsimp only at hk
      rw [Function.update_self] at hk
      split at hk
      · cases hk
      · cases hk
        exact vm.kvm.fits accepted
    · dsimp only at hk
      rw [Function.update_of_ne he] at hk
      exact h id k hk
  · exact h

/-- Adding pieces sets slots one after the other. -/
lemma keepsBounded_addPieces (base host : UInt64) (pieces : List Piece)
    (freeSlot logged : Option UInt32) :
    KeepsBounded (addPieces base host pieces freeSlot logged) := by
  induction pieces generalizing freeSlot logged with
  | nil => exact keepsBounded_pure _
  | cons p pieces ih =>
    unfold addPieces
    split
    · exact ih freeSlot logged
    · apply KeepsBounded.bind
      · cases freeSlot with
        | none => exact keepsBounded_takeSlot
        | some slot => exact keepsBounded_pure slot
      · intro slot
        exact (keepsBounded_sub _ _).bind fun _ => (keepsBounded_sub _ _).bind fun _ =>
          (keepsBounded_add _ _).bind fun _ => (keepsBounded_set _ _).bind fun _ => ih none _

/-- Looking for a region leaves the slots. -/
lemma keepsBounded_position (start stop : UInt64) (idx : Nat) (regions : List VmRegion) :
    KeepsBounded (position start stop idx regions) := by
  induction regions generalizing idx with
  | nil => exact keepsBounded_pure none
  | cons r rest ih =>
    unfold position
    split
    · apply (keepsBounded_add _ _).bind
      intro regionEnd
      split
      · exact keepsBounded_pure _
      · exact ih (idx + 1)
    · exact ih (idx + 1)

/-- Clearing a slot leaves the others. -/
lemma keepsBounded_clearSlot (idx : Nat) : KeepsBounded (clearSlot idx) := by
  unfold clearSlot
  apply KeepsBounded.bind (fun _ h => h)
  intro regions
  apply (keepsBounded_unwrap _).bind
  intro r
  split
  · exact fun _ h => h
  · exact fun _ h => h

/-- Duplicating the descriptor leaves the slots. -/
lemma keepsBounded_dup : KeepsBounded dup := by
  intro vm h
  unfold dup
  split
  · exact h
  · exact h
  · exact h

/-- Logging a range keeps the slots bounded. -/
lemma keepsBounded_logDirtyPages (gpa size : UInt64) : KeepsBounded (logDirtyPages gpa size) := by
  unfold logDirtyPages
  refine (keepsBounded_add _ _).bind fun sum => ?_
  apply KeepsBounded.bind
  · unfold nextPage
    split
    · exact keepsBounded_pure sum
    · exact keepsBounded_add _ _
  · intro stop
    apply KeepsBounded.bind (fun _ h => h)
    intro regions
    refine (keepsBounded_position _ _ _ _).bind fun found =>
      (keepsBounded_okOr _ _).bind fun idx => ?_
    refine (keepsBounded_unwrap _).bind fun region =>
      (keepsBounded_add _ _).bind fun regionEnd => ?_
    refine (keepsBounded_okOr _ _).bind fun slot => (keepsBounded_set _ _).bind fun _ => ?_
    refine (keepsBounded_addPieces _ _ _ _ _).bind fun logged =>
      (keepsBounded_clearSlot _).bind fun _ => ?_
    refine keepsBounded_dup.bind fun _ => (keepsBounded_unwrap _).bind fun _ => ?_
    exact (keepsBounded_sub _ _).bind fun _ => keepsBounded_pure _

/-- Adding a region keeps the slots bounded. -/
lemma keepsBounded_addMemRegion (memSize gpa : UInt64) :
    KeepsBounded (addMemRegion memSize gpa) := by
  intro vm h
  unfold addMemRegion
  split
  · exact h
  · refine KeepsBounded.bind keepsBounded_takeSlot (fun slot => ?_) vm h
    exact (keepsBounded_set _ _).bind fun _ => fun _ h => h

/-! ## Sessions -/

/-- Other `Arc`s to some of the regions are made. -/
def share (p : VmRegion → Bool) (vm : SlotVm) : SlotVm :=
  { vm with guestMemory := vm.guestMemory.map fun r => if p r then { r with
    shared := true } else r }

/-- Sharing regions leaves addresses and slots as they are. -/
lemma Inv.share {p : VmRegion → Bool} {vm : SlotVm} {calls : List LogCall} (h : vm.Inv calls) :
    (vm.share p).Inv calls := by
  -- sharing sets a flag of the regions, and the invariant is about their places
  have spans : (vm.share p).guestMemory.map VmRegion.span = vm.guestMemory.map VmRegion.span := by
    unfold SlotVm.share
    rw [List.map_map]
    apply List.map_congr_left
    intro r _
    dsimp only [Function.comp]
    split
    · rfl
    · rfl
  have same : ∀ r ∈ (vm.share p).guestMemory, ∃ r₀ ∈ vm.guestMemory, r₀.memPtr = r.memPtr ∧
      r₀.memSize = r.memSize ∧ r₀.guestPhysAddr = r.guestPhysAddr ∧ r₀.slot = r.slot := by
    intro r hr
    obtain ⟨r₀, h₀, rfl⟩ := List.mem_map.mp hr
    refine ⟨r₀, h₀, ?_⟩
    split
    · exact ⟨rfl, rfl, rfl, rfl⟩
    · exact ⟨rfl, rfl, rfl, rfl⟩
  refine ⟨h.fresh, h.slotsApart, ?_, ?_, ?_, ?_, ?_, h.logs, h.logged, h.nodup⟩
  · have regions := List.pairwise_map.mpr h.regionsApart
    rw [← spans] at regions
    exact List.pairwise_map.mp regions
  · intro r hr
    obtain ⟨r₀, h₀, -, hsize, hgpa, -⟩ := same r hr
    rw [← hsize, ← hgpa]
    exact h.fits r₀ h₀
  · intro id k hk
    obtain ⟨r, hr, maps⟩ := h.inside id k hk
    refine ⟨_, List.mem_map.mpr ⟨r, hr, rfl⟩, ?_⟩
    split
    · exact ⟨maps.lo, maps.hi, maps.host⟩
    · exact maps
  · intro r hr a ha
    obtain ⟨r₀, h₀, -, hsize, hgpa, -⟩ := same r hr
    apply h.covered r₀ h₀
    unfold VmRegion.span
    rw [hsize, hgpa]
    exact ha
  · intro r hr id hid
    obtain ⟨r₀, h₀, hptr, hsize, hgpa, hslot⟩ := same r hr
    unfold VmRegion.whole
    rw [← hptr, ← hsize, ← hgpa]
    exact h.whole r₀ h₀ id (hslot.trans hid)

/-- The slots are a tiling of guest memory that logs what the calls asked for. -/
structure Tiled (vm : SlotVm) (calls : List LogCall) : Prop where
  apart : ∀ id id' k k', vm.slots id = some k → vm.slots id' = some k' → id ≠ id' →
    k.span.Apart k'.span
  union : ∀ a, (∃ id k, vm.slots id = some k ∧ a ∈ k.span) ↔ ∃ r ∈ vm.guestMemory, a ∈ r.span
  host : ∀ id k, vm.slots id = some k → ∃ r ∈ vm.guestMemory, k.Maps r
  logs : ∀ c ∈ calls, ∃ k, vm.slots c.log.slot = some k ∧ c.Has k
  /-- a slot that logs is one call's -/
  logged : ∀ id k, vm.slots id = some k → k.Logs → ∃! c, c ∈ calls ∧ c.log.slot = id
  nodup : (calls.map fun c => c.log.slot).Nodup

/-- What holds between operations, in the terms of the result. -/
lemma Inv.tiled {vm : SlotVm} {calls : List LogCall} (h : vm.Inv calls) : vm.Tiled calls where
  apart := h.slotsApart
  union := by
    intro a
    constructor
    · rintro ⟨id, k, hk, ha⟩
      obtain ⟨r, hr, maps⟩ := h.inside id k hk
      exact ⟨r, hr, maps.inside a ha⟩
    · rintro ⟨r, hr, ha⟩
      exact h.covered r hr a ha
  host := h.inside
  logs := h.logs
  logged := by
    intro id k hk hl
    obtain ⟨c, hc, hid⟩ := h.logged id k hk hl
    refine ⟨c, ⟨hc, hid⟩, fun c' hc' => ?_⟩
    exact List.inj_on_of_nodup_map h.nodup hc'.1 hc (hc'.2.trans hid.symm)
  nodup := h.nodup

end SlotVm

/-- The VM and the calls of `log_dirty_pages` that have succeeded. -/
structure Session where
  vm : SlotVm
  calls : List LogCall

namespace Session
open SlotVm

/-- A VM without memory, on any host. -/
def Start (s : Session) : Prop :=
  ∃ os kvm overflowChecks dupFails, s = ⟨SlotVm.new os kvm overflowChecks dupFails, []⟩

/-- What happens to the slots. -/
inductive Step (s : Session) : Session → Prop where
  | add {memSize gpa idx vm'} : SlotVm.addMemRegion memSize gpa s.vm = (.ok idx, vm') →
      Step s ⟨vm', s.calls⟩
  | log {gpa size log vm'} : 0 < size → logDirtyPages gpa size s.vm = (.ok log, vm') →
      Step s ⟨vm', s.calls ++ [⟨gpa, size, log⟩]⟩
  /-- no region covers the range -/
  | missing {gpa size start stop vm'} :
      logDirtyPages gpa size s.vm = (.err (.noRegion start stop), vm') → Step s ⟨vm', s.calls⟩
  | split {gpa size vm'} : logDirtyPages gpa size s.vm = (.err .alreadySplit, vm') →
      Step s ⟨vm', s.calls⟩
  | share (p : VmRegion → Bool) : Step s ⟨s.vm.share p, s.calls⟩

/-- A call that is refused leaves the VM as it was. -/
lemma refused_eq {vm vm' : SlotVm} {gpa size : UInt64} {e : SlotError}
    (run : logDirtyPages gpa size vm = (.err e, vm')) (os : e ≠ .os) (shared : e ≠ .alreadyShared) :
    vm' = vm := by
  rcases logDirtyPages_err run with (rfl | rfl) | h
  · exact absurd rfl os
  · exact absurd rfl shared
  · exact h

variable {s : Session}

/-- While no range has wrapped around. -/
lemma Step.inv {s' : Session}
    (h : (∀ c ∈ s.calls, c.gpa.toNat + c.size.toNat < 2 ^ 64) → s.vm.Inv s.calls)
    (step : s.Step s') (range : ∀ c ∈ s'.calls, c.gpa.toNat + c.size.toNat < 2 ^ 64) :
    s'.vm.Inv s'.calls := by
  cases step with
  | add run => exact (h range).add run
  | log pos run =>
    have inv := h fun c hc => range c (List.mem_append_left _ hc)
    have ids : ∀ r ∈ s.vm.guestMemory, ∀ id, r.slot = some id → id.toNat < s.vm.nextSlot.toNat :=
      fun r hr id hid => inv.fresh id _ (inv.whole r hr id hid)
    have last := range _ (List.mem_append_right _ (List.mem_singleton_self _))
    obtain ⟨_, _, _, _, _, _, sp⟩ := logDirtyPages_ok pos last ids run
    exact inv.split pos sp
  | missing run =>
    rw [refused_eq run (by simp) (by simp)]
    exact h range
  | split run =>
    rw [refused_eq run (by simp) (by simp)]
    exact h range
  | share p => exact (h range).share

/-- Every operation keeps the slots bounded. -/
lemma Step.bounded {s' : Session} (h : s.vm.Bounded) (step : s.Step s') : s'.vm.Bounded := by
  cases step with
  | add run => exact (keepsBounded_addMemRegion _ _).run run h
  | log pos run => exact (keepsBounded_logDirtyPages _ _).run run h
  | missing run => exact (keepsBounded_logDirtyPages _ _).run run h
  | split run => exact (keepsBounded_logDirtyPages _ _).run run h
  | share p => exact h

/-- What operations lead to. -/
abbrev Reachable : Session → Prop := Reach Start Step

/-- If no range wraps, the invariant holds after any operations. -/
lemma Reachable.inv (h : Reachable s) (range : ∀ c ∈ s.calls, c.gpa.toNat + c.size.toNat < 2 ^ 64) :
    s.vm.Inv s.calls := by
  refine Reach.invariant (I := fun s => (∀ c ∈ s.calls, c.gpa.toNat + c.size.toNat < 2 ^ 64) →
    s.vm.Inv s.calls) ?_ (fun s s' h step => step.inv h) h range
  rintro s ⟨os, kvm, overflowChecks, dupFails, rfl⟩ -
  exact new_inv os kvm overflowChecks dupFails

/-- Slots are bounded after any operations. -/
lemma Reachable.bounded (h : Reachable s) : s.vm.Bounded := by
  refine Reach.invariant (I := fun s => s.vm.Bounded) ?_ (fun s s' h step => step.bounded h) h
  rintro s ⟨os, kvm, overflowChecks, dupFails, rfl⟩ id k hk
  cases hk

/-- A range that wraps around has the last address, and no slot has it. -/
lemma range_of_has {vm : SlotVm} {c : LogCall} {id : UInt32} {k : KvmSlot} (bounded : vm.Bounded)
    (hk : vm.slots id = some k) (has : c.Has k) : c.gpa.toNat + c.size.toNat < 2 ^ 64 := by
  by_contra hwrap
  have hlt := c.gpa.toNat_lt
  have touched : Touched c.gpa c.size (2 ^ 64 - 1) := ⟨2 ^ 64 - 1, by omega, by omega, rfl⟩
  have hlast := Span.mem_iff.mp ((has.pages _).mpr touched)
  have hfit := bounded id k hk
  have : 2 ^ 64 - 1 < k.guestPhysAddr.toNat + k.memorySize.toNat := hlast.2
  omega

/-- What a session promises: the slots are a tiling, and a call for which there is no region,
or a split one, changes none. -/
def Faithful (s : Session) : Prop :=
  s.vm.Tiled s.calls ∧ ∀ gpa size e vm', logDirtyPages gpa size s.vm = (.err e, vm') →
    e = .alreadySplit ∨ (∃ start stop, e = .noRegion start stop) → vm'.slots = s.vm.slots

/-- The slots are faithful as long as no range that was logged wraps around the address space. -/
theorem slots_faithful_iff (h : Reachable s) :
    s.Faithful ↔ ∀ c ∈ s.calls, c.gpa.toNat + c.size.toNat < 2 ^ 64 := by
  constructor
  · rintro ⟨tiled, -⟩ c hc
    obtain ⟨k, hk, has⟩ := tiled.logs c hc
    exact range_of_has h.bounded hk has
  · intro range
    refine ⟨(h.inv range).tiled, fun gpa size e vm' run refused => ?_⟩
    rcases refused with rfl | ⟨start, stop, rfl⟩
    · rw [refused_eq run (by simp) (by simp)]
    · rw [refused_eq run (by simp) (by simp)]

/-! ## A region of four pages -/

/-- The KVM that refuses nothing it can apply. -/
def strictKvm : Kvm where
  accepts slots id s := decide (id.toNat < 509 ∧ (s.memorySize = 0 → (slots id).isSome) ∧
    (4096 ∣ s.guestPhysAddr.toNat ∧ 4096 ∣ s.memorySize.toNat) ∧
    s.guestPhysAddr.toNat + s.memorySize.toNat < 2 ^ 64 ∧
    ∀ n < 2 ^ 32, n ≠ id.toNat → ∀ s' ∈ slots (UInt32.ofNat n), s.span.Apart s'.span)
  limited h := by
    have := (of_decide_eq_true h).1
    omega
  deletes h hs := Option.isSome_iff_ne_none.mp ((of_decide_eq_true h).2.1 hs)
  aligned h := (of_decide_eq_true h).2.2.1
  fits h := (of_decide_eq_true h).2.2.2.1
  apart := by
    intro slots id s h id' s' hne hs
    refine (of_decide_eq_true h).2.2.2.2 id'.toNat id'.toNat_lt
      (fun he => hne (UInt32.toNat_inj.mp he)) s' ?_
    rw [UInt32.ofNat_toNat]
    exact hs

/-- What KVM takes is accepted. -/
lemma strictKvm_accepts {slots : KvmSlots} {id : UInt32} {s : KvmSlot} (limited : id.toNat < 509)
    (deletes : s.memorySize = 0 → (slots id).isSome)
    (aligned : 4096 ∣ s.guestPhysAddr.toNat ∧ 4096 ∣ s.memorySize.toNat)
    (fits : s.guestPhysAddr.toNat + s.memorySize.toNat < 2 ^ 64)
    (apart : ∀ id' s', id' ≠ id → slots id' = some s' → s.span.Apart s'.span) :
    strictKvm.accepts slots id s = true := by
  refine decide_eq_true ⟨limited, deletes, aligned, fits, fun n hn hne s' hs => ?_⟩
  apply apart (UInt32.ofNat n) s' _ hs
  intro he
  rw [← he, UInt32.toNat_ofNat_of_lt' hn] at hne
  exact hne rfl

/-- A slot that is accepted is set. -/
lemma setUserMemoryRegion_run {slot : UInt32} {region : KvmSlot} {vm : SlotVm}
    (h : vm.kvm.accepts vm.slots slot region = true) :
    setUserMemoryRegion slot region vm = (.ok (), { vm with
      slots := Function.update vm.slots slot (if region.memorySize = 0 then none
        else some region) }) :=
  if_pos h

/-- A VM in a build that does not check overflow. -/
def emptyVm : SlotVm := SlotVm.new (Os.ofFiles fun _ => none) strictKvm false []

/-- The slot of all four pages. -/
def fourPages : KvmSlot := ⟨0, 0, 0x4000, 0⟩

/-- The VM with a region of four pages. -/
def regionVm : SlotVm :=
  { emptyVm with
    nextSlot := 1
    slots := Function.update (fun _ => none) 0 (some fourPages)
    guestMemory := [⟨0, 0x4000, 0, some 0, false, by simp⟩] }

/-- The region of the example is added. -/
lemma region_added : SlotVm.addMemRegion 0x4000 0 emptyVm = (.ok 0, regionVm) := by
  have accepted : strictKvm.accepts (fun _ => none) 0 fourPages = true := by
    apply strictKvm_accepts
    · simp
    · intro h
      cases h
    · exact ⟨⟨0, rfl⟩, ⟨4, rfl⟩⟩
    · show 0 + 0x4000 < 2 ^ 64
      simp
    · intro id' s' _ hs
      cases hs
  have mapped : emptyVm.os.mmap emptyVm.mapped (0x4000 : UInt64).toNat = some 0 := rfl
  unfold SlotVm.addMemRegion
  split
  · next h =>
    rw [mapped] at h
    cases h
  · next ptr h =>
    rw [mapped] at h
    cases h
    apply Eff.bind_ok_iff.mpr
    exact ⟨0, { emptyVm with nextSlot := 1 }, rfl,
      Eff.bind_ok_iff.mpr ⟨(), _, setUserMemoryRegion_run accepted, rfl⟩⟩

/-- The slots end at an address. -/
def Below (slots : KvmSlots) (a : Nat) : Prop :=
  ∀ id k, slots id = some k → k.guestPhysAddr.toNat + k.memorySize.toNat ≤ a

/-- A slot behind the others. -/
lemma Below.update {slots : KvmSlots} {a : Nat} {id : UInt32} {k : KvmSlot} (h : Below slots a)
    (hle : a ≤ k.guestPhysAddr.toNat + k.memorySize.toNat) :
    Below (Function.update slots id (some k)) (k.guestPhysAddr.toNat + k.memorySize.toNat) := by
  intro id' k' hk
  by_cases he : id' = id
  · subst he
    rw [Function.update_self] at hk
    cases hk
    exact Nat.le_refl _
  · rw [Function.update_of_ne he] at hk
    exact Nat.le_trans (h id' k' hk) hle

/-- A slot after all others is accepted. -/
lemma Below.accepts {slots : KvmSlots} {id : UInt32} {k : KvmSlot}
    (h : Below slots k.guestPhysAddr.toNat) (limited : id.toNat < 509) (pos : k.memorySize ≠ 0)
    (aligned : 4096 ∣ k.guestPhysAddr.toNat ∧ 4096 ∣ k.memorySize.toNat)
    (fits : k.guestPhysAddr.toNat + k.memorySize.toNat < 2 ^ 64) :
    strictKvm.accepts slots id k = true := by
  apply strictKvm_accepts limited (fun h0 => absurd h0 pos) aligned fits
  intro id' k' _ hk'
  exact (Span.apart_of_le (h id' k' hk')).symm

/-- Adding a piece that KVM accepts. -/
lemma addPieces_cons (base host : UInt64) (p : Piece) {rest : List Piece}
    {freeSlot logged : Option UInt32} {slot : UInt32} {vm vm₁ : SlotVm} (hne : p.from_ ≠ p.to_)
    (hslot : slotOr freeSlot vm = (.ok slot, vm₁)) (unchecked : vm₁.overflowChecks = false)
    (accepted : vm₁.kvm.accepts vm₁.slots slot (p.slot base host) = true) :
    addPieces base host (p :: rest) freeSlot logged vm =
      addPieces base host rest none (if p.flags ≠ 0 then some slot else logged)
        { vm₁ with slots := Function.update vm₁.slots slot (some (p.slot base host)) } := by
  have hsize : (p.slot base host).memorySize ≠ 0 := by
    show p.to_ - p.from_ ≠ 0
    exact fun h => hne (by grind)
  have hsub (a b : UInt64) : SlotVm.sub a b vm₁ = (.ok (a - b), vm₁) := if_neg (by simp [unchecked])
  have hadd (a b : UInt64) : SlotVm.add a b vm₁ = (.ok (a + b), vm₁) := if_neg (by simp [unchecked])
  have hrun : addPieces base host (p :: rest) freeSlot logged = _ := if_neg hne
  rw [hrun, Eff.bind_of_ok hslot, Eff.bind_of_ok (hsub _ _), Eff.bind_of_ok (hsub _ _),
    Eff.bind_of_ok (hadd _ _)]
  refine (Eff.bind_of_ok (setUserMemoryRegion_run accepted)).trans ?_
  rw [if_neg hsize]

/-- The slots after the piece in front of the logged page. -/
def pieces₁ : KvmSlots :=
  Function.update (Function.update regionVm.slots 0 none) 0 (some ⟨0, 0, 0x1000, 0⟩)
/-- The slots after the logged page. -/
def pieces₂ : KvmSlots := Function.update pieces₁ 1 (some ⟨1, 0x1000, 0x1000, 0x1000⟩)
/-- The slots after what is behind it. -/
def pieces₃ : KvmSlots := Function.update pieces₂ 2 (some ⟨0, 0x2000, 0x2000, 0x2000⟩)

/-- The VM that logs the second page. -/
def splitVm : SlotVm :=
  { regionVm with
    nextSlot := 3
    slots := pieces₃
    guestMemory := [⟨0, 0x4000, 0, none, false, by simp⟩] }

/-- Logging in the second page, whatever the size is. -/
lemma second_page_logged (size sum : UInt64)
    (hadd : SlotVm.add 0x1800 size regionVm = (.ok sum, regionVm))
    (hnext : nextPage sum regionVm = (.ok 0x2000, regionVm)) :
    logDirtyPages 0x1800 size regionVm = (.ok ⟨1, 1⟩, splitVm) := by
  -- the slot of the region is deleted first, then its three pieces are added
  have deleted : strictKvm.accepts regionVm.slots 0 ⟨0, 0, 0, 0⟩ = true := by
    apply strictKvm_accepts
    · simp
    · exact fun _ => rfl
    · exact ⟨⟨0, rfl⟩, ⟨0, rfl⟩⟩
    · show 0 + 0 < 2 ^ 64
      simp
    · exact fun id' s' _ _ a ha => absurd ha.2 (Nat.not_lt_of_le ha.1)
  have below₀ : Below (Function.update regionVm.slots 0 none) 0 := by
    intro id k hk
    unfold regionVm at hk
    rw [Function.update_idem, Function.update_apply] at hk
    split at hk
    · cases hk
    · cases hk
  have below₁ : Below pieces₁ 0x1000 := below₀.update (Nat.zero_le _)
  have below₂ : Below pieces₂ 0x2000 := below₁.update (by simp)
  have first : strictKvm.accepts (Function.update regionVm.slots 0 none) 0 ⟨0, 0,
    0x1000, 0⟩ = true :=
    below₀.accepts (by simp) (by simp) ⟨⟨0, rfl⟩, ⟨1, rfl⟩⟩ (by simp)
  have second : strictKvm.accepts pieces₁ 1 ⟨1, 0x1000, 0x1000, 0x1000⟩ = true :=
    below₁.accepts (by simp) (by simp) ⟨⟨1, rfl⟩, ⟨1, rfl⟩⟩ (by simp)
  have third : strictKvm.accepts pieces₂ 2 ⟨0, 0x2000, 0x2000, 0x2000⟩ = true :=
    below₂.accepts (by simp) (by simp) ⟨⟨2, rfl⟩, ⟨2, rfl⟩⟩ (by simp)
  have pieces : addPieces 0 0
      [⟨0, 0x1000, 0⟩, ⟨0x1000, 0x2000, kvmMemLogDirtyPages⟩, ⟨0x2000, 0x4000, 0⟩] (some 0) none
      { regionVm with slots := Function.update regionVm.slots 0 none } =
        (.ok (some 1), { regionVm with nextSlot := 3, slots := pieces₃ }) := by
    have h₁ : (0 : UInt64) ≠ 0x1000 := by simp
    have h₂ : (0x1000 : UInt64) ≠ 0x2000 := by simp
    have h₃ : (0x2000 : UInt64) ≠ 0x4000 := by simp
    let vm₀ : SlotVm := { regionVm with slots := Function.update regionVm.slots 0 none }
    let vm₁ : SlotVm := { regionVm with nextSlot := 2, slots := pieces₁ }
    let vm₂ : SlotVm := { regionVm with nextSlot := 3, slots := pieces₂ }
    have s₀ : slotOr (some 0) vm₀ = (.ok 0, vm₀) := rfl
    have s₁ : slotOr none { regionVm with slots := pieces₁ } = (.ok 1, vm₁) := rfl
    have s₂ : slotOr none { regionVm with nextSlot := 2, slots := pieces₂ } = (.ok 2, vm₂) := rfl
    refine (addPieces_cons 0 0 ⟨0, 0x1000, 0⟩ h₁ s₀ rfl first).trans ?_
    refine (addPieces_cons 0 0 ⟨0x1000, 0x2000, kvmMemLogDirtyPages⟩ h₂ s₁ rfl second).trans ?_
    exact addPieces_cons 0 0 ⟨0x2000, 0x4000, 0⟩ h₃ s₂ rfl third
  -- the steps of `log_dirty_pages`, each with what it returns
  refine Eff.bind_ok_iff.mpr ⟨_, _, hadd, Eff.bind_ok_iff.mpr ⟨_, _, hnext, ?_⟩⟩
  refine Eff.bind_ok_iff.mpr ⟨_, _, rfl, Eff.bind_ok_iff.mpr ⟨some 0, regionVm, rfl, ?_⟩⟩
  refine Eff.bind_ok_iff.mpr ⟨0, _, rfl, Eff.bind_ok_iff.mpr ⟨_, _, rfl, ?_⟩⟩
  refine Eff.bind_ok_iff.mpr ⟨0x4000, _, rfl, Eff.bind_ok_iff.mpr ⟨0, _, rfl, ?_⟩⟩
  refine Eff.bind_ok_iff.mpr ⟨(), _, setUserMemoryRegion_run deleted, ?_⟩
  refine Eff.bind_ok_iff.mpr ⟨_, _, pieces, Eff.bind_ok_iff.mpr ⟨(), _, rfl, ?_⟩⟩
  exact Eff.bind_ok_iff.mpr ⟨(), _, rfl, rfl⟩

/-- The example's region is reached. -/
lemma one_region : Reachable ⟨regionVm, []⟩ :=
  Reach.step (.init ⟨Os.ofFiles fun _ => none, strictKvm, false, [], rfl⟩) (.add region_added)

/-- Logging the second page of a region. -/
theorem second_page_faithful : Faithful ⟨splitVm, [⟨0x1800, 0x100, ⟨1, 1⟩⟩]⟩ := by
  have run := second_page_logged 0x100 0x1900 rfl rfl
  apply (slots_faithful_iff (Reach.step one_region (.log (by simp) run))).mpr
  intro c hc
  rw [List.mem_singleton.mp hc]
  show 0x1800 + 0x100 < 2 ^ 64
  simp

/-- A range that wraps around and ends in the page it starts in was
logged: only that page has a slot. -/
def wrapped : Session := ⟨splitVm, [⟨0x1800, 0xffffffffffffff00, ⟨1, 1⟩⟩]⟩

/-- A range that wraps is logged, and no slot is for it. -/
theorem wrapped_range_logged : Reachable wrapped ∧ ¬ wrapped.Faithful := by
  have run := second_page_logged 0xffffffffffffff00 0x1700 rfl rfl
  have reached : Reachable wrapped := Reach.step one_region (.log (by simp) run)
  refine ⟨reached, ?_⟩
  rintro ⟨tiled, -⟩
  obtain ⟨k, hk, has⟩ := tiled.logs _ (List.mem_singleton_self _)
  have range : 0x1800 + 0xffffffffffffff00 < 2 ^ 64 :=
    range_of_has (Reachable.bounded reached) hk has
  exact absurd range (by simp)

end Session

end Hearth
