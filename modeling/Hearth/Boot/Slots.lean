import Hearth.Boot.Load

/-!
# Memory slots

`VM::add_mem_region`, `set_user_memory_region` and `log_dirty_pages` of `main.rs`: the slots
that KVM has of the VM, and how a region's slot is split so that some of its pages are logged.
What KVM does with a call is given by a `Kvm`: it applies the call or refuses it, and it
refuses what its documentation says.
-/

namespace Hearth
open Lib

/-- The bytes of a page. -/
def pageSize : UInt64 := 4096
/-- The slot logs the pages that are written. -/
def kvmMemLogDirtyPages : UInt32 := 1

/-- A memory slot (`kvm_userspace_memory_region`). -/
structure KvmSlot where
  flags : UInt32
  guestPhysAddr : UInt64
  memorySize : UInt64
  userspaceAddr : UInt64
  deriving DecidableEq, Repr

/-- The guest addresses of a slot. -/
def KvmSlot.span (s : KvmSlot) : Span := ⟨s.guestPhysAddr.toNat, s.memorySize.toNat⟩

/-- The slots of a VM by their ids. -/
abbrev KvmSlots : Type := UInt32 → Option KvmSlot

/-- Which calls KVM applies. A size of 0 deletes a slot. -/
structure Kvm where
  accepts : KvmSlots → UInt32 → KvmSlot → Bool
  /-- the number of slots is limited -/
  limited : ∀ {slots id s}, accepts slots id s = true → id.toNat + 1 < 2 ^ 32
  /-- only a slot that exists is deleted -/
  deletes : ∀ {slots id s}, accepts slots id s = true → s.memorySize = 0 → slots id ≠ none
  aligned : ∀ {slots id s}, accepts slots id s = true →
    4096 ∣ s.guestPhysAddr.toNat ∧ 4096 ∣ s.memorySize.toNat
  /-- a slot does not wrap around the end of the address space -/
  fits : ∀ {slots id s}, accepts slots id s = true →
    s.guestPhysAddr.toNat + s.memorySize.toNat < 2 ^ 64
  /-- a slot overlaps no other -/
  apart : ∀ {slots id s}, accepts slots id s = true → ∀ {id' s'}, id' ≠ id → slots id' = some s' →
    s.span.Apart s'.span

/-- A region of guest memory, and the slot that covers all of it, if it has not been split. -/
structure VmRegion where
  memPtr : UInt64
  memSize : UInt64
  guestPhysAddr : UInt64
  slot : Option UInt32
  /-- there is another `Arc` to it -/
  shared : Bool
  /-- the mapping lies in the address space of the process -/
  mapped : memPtr.toNat + memSize.toNat ≤ 2 ^ 63

namespace VmRegion

/-- The guest addresses of a region. -/
def span (r : VmRegion) : Span := ⟨r.guestPhysAddr.toNat, r.memSize.toNat⟩

/-- The slot for all of a region. -/
def whole (r : VmRegion) : KvmSlot := ⟨0, r.guestPhysAddr, r.memSize, r.memPtr⟩

end VmRegion

/-- What tells KVM's dirty log of a slot. -/
structure DirtyLog where
  slot : UInt32
  pages : Nat
  deriving DecidableEq, Repr

/-- How the operations fail. -/
inductive SlotError where
  | noRegion (start stop : UInt64)
  | alreadySplit
  | alreadyShared
  | os
  deriving DecidableEq, Repr

/-- The text of an error; the system's own are left to it. -/
def SlotError.message : SlotError → String
  | .noRegion start stop =>
    "No memory region covers " ++ hex start.toNat ++ ".." ++ hex stop.toNat ++ "."
  | .alreadySplit => "Memory region is already split."
  | .alreadyShared => "Memory region is already shared."
  | .os => ""

/-- The VM as far as its memory slots go. -/
structure SlotVm where
  os : Os
  kvm : Kvm
  overflowChecks : Bool
  nextSlot : UInt32
  guestMemory : List VmRegion
  slots : KvmSlots
  /-- which of the next calls of `dup` fail; none once the list is used up -/
  dupFails : List Bool

/-- What the operations do. -/
abbrev SlotM (α : Type) : Type := Eff SlotError SlotVm α

namespace SlotVm

/-- A VM without memory, as it is created. -/
def new (os : Os) (kvm : Kvm) (overflowChecks : Bool) (dupFails : List Bool) : SlotVm where
  os := os
  kvm := kvm
  overflowChecks := overflowChecks
  nextSlot := 0
  guestMemory := []
  slots := fun _ => none
  dupFails := dupFails

/-- `a + b` on `u64`: a panic on overflow where overflow is checked, else modulo `2 ^ 64`. -/
def add (a b : UInt64) : SlotM UInt64 := fun vm =>
  if vm.overflowChecks ∧ 2 ^ 64 ≤ a.toNat + b.toNat then (.panic, vm) else (.ok (a + b), vm)

/-- `a - b` on `u64`. -/
def sub (a b : UInt64) : SlotM UInt64 := fun vm =>
  if vm.overflowChecks ∧ a < b then (.panic, vm) else (.ok (a - b), vm)

/-- `u64::next_multiple_of(PAGE_SIZE)` -/
def nextPage (a : UInt64) : SlotM UInt64 :=
  if a % pageSize = 0 then pure a else add a (pageSize - a % pageSize)

/-- The next slot id: `self.next_slot += 1`. -/
def takeSlot : SlotM UInt32 := fun vm =>
  if vm.overflowChecks ∧ 2 ^ 32 ≤ vm.nextSlot.toNat + 1 then (.panic, vm)
  else (.ok vm.nextSlot, { vm with nextSlot := vm.nextSlot + 1 })

/-- `KVM_SET_USER_MEMORY_REGION`. -/
def setUserMemoryRegion (slot : UInt32) (region : KvmSlot) : SlotM Unit := fun vm =>
  if vm.kvm.accepts vm.slots slot region then
    let entry := if region.memorySize = 0 then none else some region
    (.ok (), { vm with slots := Function.update vm.slots slot entry })
  else (.err .os, vm)

/-- The spans of the process that back guest memory. -/
def mapped (vm : SlotVm) : List Span :=
  vm.guestMemory.map fun r => ⟨r.memPtr.toNat, r.memSize.toNat⟩

/-- A pointer below 2^63 is kept. -/
lemma ofNat_toNat {ptr size : Nat} (h : ptr + size ≤ 2 ^ 63) : (UInt64.ofNat ptr).toNat = ptr :=
  UInt64.toNat_ofNat_of_lt' (by show ptr < 2 ^ 64; omega)

/-- `add_mem_region`. -/
def addMemRegion (memSize guestPhysAddr : UInt64) : SlotM Nat := fun vm =>
  match h : vm.os.mmap vm.mapped memSize.toNat with
  | none => (.err .os, vm)
  | some ptr =>
    (do
      let slot ← takeSlot
      setUserMemoryRegion slot ⟨0, guestPhysAddr, memSize, UInt64.ofNat ptr⟩
      let region : VmRegion :=
        { memPtr := UInt64.ofNat ptr
          memSize := memSize
          guestPhysAddr := guestPhysAddr
          slot := some slot
          shared := false
          mapped := by rw [ofNat_toNat (vm.os.mmap_fits h)]; exact vm.os.mmap_fits h }
      Eff.modify fun vm => { vm with guestMemory := vm.guestMemory ++ [region] }
      Eff.gets fun vm => vm.guestMemory.length - 1 : SlotM Nat) vm

/-- The index of the first region that has all of `start..stop`, counting from `idx`. -/
def position (start stop : UInt64) : (idx : Nat) → List VmRegion → SlotM (Option Nat)
  | _, [] => pure none
  | idx, r :: rest =>
    if r.guestPhysAddr ≤ start then do
      let regionEnd ← add r.guestPhysAddr r.memSize
      if stop ≤ regionEnd then pure (some idx) else position start stop (idx + 1) rest
    else position start stop (idx + 1) rest

/-- A part of a region that becomes a slot, if it is not empty. -/
structure Piece where
  from_ : UInt64
  to_ : UInt64
  flags : UInt32

/-- `free_slot.take().unwrap_or_else(..)` -/
def slotOr : Option UInt32 → SlotM UInt32
  | some slot => pure slot
  | none => takeSlot

/-- Adds the pieces of the region from `base` on, mapped at `host`. The first takes the region's
slot id, the others new ones; the slot that logs is returned. -/
def addPieces (base host : UInt64) : List Piece → (freeSlot logged : Option UInt32) →
    SlotM (Option UInt32)
  | [], _, logged => pure logged
  | p :: rest, freeSlot, logged =>
    if p.from_ = p.to_ then addPieces base host rest freeSlot logged
    else do
      let slot ← slotOr freeSlot
      let size ← sub p.to_ p.from_
      let offset ← sub p.from_ base
      let addr ← add host offset
      setUserMemoryRegion slot ⟨p.flags, p.from_, size, addr⟩
      addPieces base host rest none (if p.flags ≠ 0 then some slot else logged)

/-- `Arc::get_mut(..).slot = None` -/
def clearSlot (idx : Nat) : SlotM Unit := do
  let regions ← Eff.gets SlotVm.guestMemory
  let region ← Eff.unwrap regions[idx]?
  if region.shared then Eff.throw .alreadyShared
  else Eff.modify fun vm =>
    { vm with guestMemory := vm.guestMemory.set idx { region with slot := none } }

/-- `libc::dup` -/
def dup : SlotM Unit := fun vm =>
  match vm.dupFails with
  | true :: fails => (.err .os, { vm with dupFails := fails })
  | false :: fails => (.ok (), { vm with dupFails := fails })
  | [] => (.ok (), vm)

/-- `log_dirty_pages`. -/
def logDirtyPages (gpa size : UInt64) : SlotM DirtyLog := do
  let start := gpa &&& ~~~(pageSize - 1)
  let sum ← add gpa size
  let stop ← nextPage sum
  let regions ← Eff.gets SlotVm.guestMemory
  let found ← position start stop 0 regions
  let idx ← Eff.okOr found (.noRegion start stop)
  let region ← Eff.unwrap regions[idx]?
  let regionEnd ← add region.guestPhysAddr region.memSize
  let slot ← Eff.okOr region.slot .alreadySplit
  setUserMemoryRegion slot ⟨0, region.guestPhysAddr, 0, region.memPtr⟩
  let logged ← addPieces region.guestPhysAddr region.memPtr
    [⟨region.guestPhysAddr, start, 0⟩, ⟨start, stop, kvmMemLogDirtyPages⟩, ⟨stop, regionEnd, 0⟩]
    (some slot) none
  clearSlot idx
  dup
  let logged ← Eff.unwrap logged
  let bytes ← sub stop start
  pure { slot := logged, pages := (bytes / pageSize).toNat }

/-! ## What the operations do -/

/-- The slot of a piece. -/
def Piece.slot (base host : UInt64) (p : Piece) : KvmSlot :=
  ⟨p.flags, p.from_, p.to_ - p.from_, host + (p.from_ - base)⟩

/-- The slots after these were set. -/
def setAll (slots : KvmSlots) (entries : List (UInt32 × KvmSlot)) : KvmSlots :=
  entries.foldl (fun slots e => Function.update slots e.1 (some e.2)) slots

/-- Looking up after different slots were set. -/
lemma setAll_iff {slots : KvmSlots} {entries : List (UInt32 × KvmSlot)}
    (nodup : (entries.map Prod.fst).Nodup) {id : UInt32} {k : KvmSlot} :
    setAll slots entries id = some k ↔
      (id, k) ∈ entries ∨ id ∉ entries.map Prod.fst ∧ slots id = some k := by
  induction entries generalizing slots with
  | nil => simp [setAll]
  | cons e entries ih =>
    obtain ⟨hnot, nodup⟩ := List.nodup_cons.mp nodup
    refine (ih nodup).trans ?_
    by_cases he : id = e.1
    · subst he
      have hmem : (e.1, k) ∉ entries := fun h => hnot (List.mem_map.mpr ⟨(e.1, k), h, rfl⟩)
      simp only [Function.update_self, hnot, hmem, not_false_iff, true_and, false_or,
        List.map_cons, List.mem_cons, not_true, false_and, or_false,
        Option.some.injEq, Prod.ext_iff]
      exact eq_comm
    · simp [he, Prod.ext_iff]

/-- An addition that does not panic. -/
lemma add_ok {a b c : UInt64} {vm vm' : SlotVm} (h : add a b vm = (.ok c, vm')) :
    c = a + b ∧ vm' = vm := by
  unfold add at h
  split at h
  · cases h
  · cases h
    exact ⟨rfl, rfl⟩

/-- A subtraction that does not panic. -/
lemma sub_ok {a b c : UInt64} {vm vm' : SlotVm} (h : sub a b vm = (.ok c, vm')) :
    c = a - b ∧ vm' = vm := by
  unfold sub at h
  split at h
  · cases h
  · cases h
    exact ⟨rfl, rfl⟩

/-- A slot that was set was accepted. -/
lemma setUserMemoryRegion_ok {slot : UInt32} {region : KvmSlot} {vm vm' : SlotVm}
    (h : setUserMemoryRegion slot region vm = (.ok (), vm')) :
    vm.kvm.accepts vm.slots slot region = true ∧
      vm' = { vm with slots := Function.update vm.slots slot
                        (if region.memorySize = 0 then none else some region) } := by
  unfold setUserMemoryRegion at h
  split at h
  · next ha =>
    cases h
    exact ⟨ha, rfl⟩
  · cases h

/-- An id that was taken was the next. -/
lemma takeSlot_ok {slot : UInt32} {vm vm' : SlotVm} (h : takeSlot vm = (.ok slot, vm')) :
    slot = vm.nextSlot ∧ vm' = { vm with nextSlot := vm.nextSlot + 1 } := by
  unfold takeSlot at h
  split at h
  · cases h
  · cases h
    exact ⟨rfl, rfl⟩

/-- What adding pieces leads to: an entry for each that is not empty,
with the free id or a new one. -/
structure Added (base host : UInt64) (pieces : List Piece) (freeSlot logged : Option UInt32)
    (vm vm' : SlotVm) (logged' : Option UInt32) (entries : List (UInt32 × Piece)) : Prop where
  pieces : entries.map Prod.snd = pieces.filter fun p => p.from_ ≠ p.to_
  ids : ∀ e ∈ entries, freeSlot = some e.1 ∨
    vm.nextSlot.toNat ≤ e.1.toNat ∧ e.1.toNat < vm'.nextSlot.toNat
  nodup : (entries.map Prod.fst).Nodup
  next : vm.nextSlot.toNat ≤ vm'.nextSlot.toNat
  fits : ∀ e ∈ entries, e.2.from_.toNat + (e.2.to_ - e.2.from_).toNat < 2 ^ 64
  state : vm' = { vm with
    nextSlot := vm'.nextSlot
    slots := setAll vm.slots (entries.map fun e => (e.1, e.2.slot base host)) }
  logged : ∀ id, logged' = some id → logged = some id ∨ ∃ p, (id, p) ∈ entries ∧ p.flags ≠ 0

/-- Adding pieces, when it succeeds. -/
lemma addPieces_ok {base host : UInt64} {pieces : List Piece}
    {freeSlot logged logged' : Option UInt32}
    {vm vm' : SlotVm} (free : ∀ id, freeSlot = some id → id.toNat < vm.nextSlot.toNat)
    (run : addPieces base host pieces freeSlot logged vm = (.ok logged', vm')) :
    ∃ entries, Added base host pieces freeSlot logged vm vm' logged' entries := by
  -- the free id is used up by the first piece that is not empty
  induction pieces generalizing freeSlot logged vm with
  | nil =>
    cases run
    exact ⟨[], rfl, fun e he => absurd he List.not_mem_nil, List.nodup_nil, Nat.le_refl _,
      fun e he => absurd he List.not_mem_nil, rfl, fun id h => .inl h⟩
  | cons p pieces ih =>
    by_cases he : p.from_ = p.to_
    · have hrun : addPieces base host (p :: pieces) freeSlot logged = _ := if_pos he
      rw [hrun] at run
      obtain ⟨entries, h⟩ := ih free run
      refine ⟨entries, ?_, h.ids, h.nodup, h.next, h.fits, h.state, h.logged⟩
      rw [h.pieces, List.filter_cons_of_neg (by simp [he])]
    · have hrun : addPieces base host (p :: pieces) freeSlot logged = _ := if_neg he
      rw [hrun] at run
      obtain ⟨slot, vm₁, hslot, run⟩ := Eff.bind_ok_iff.mp run
      obtain ⟨size, vm₂, hsize, run⟩ := Eff.bind_ok_iff.mp run
      obtain ⟨offset, vm₃, hoffset, run⟩ := Eff.bind_ok_iff.mp run
      obtain ⟨addr, vm₄, haddr, run⟩ := Eff.bind_ok_iff.mp run
      obtain ⟨⟨⟩, vm₅, hset, run⟩ := Eff.bind_ok_iff.mp run
      obtain ⟨rfl, e₂⟩ := sub_ok hsize
      obtain ⟨rfl, e₃⟩ := sub_ok hoffset
      obtain ⟨rfl, e₄⟩ := add_ok haddr
      obtain ⟨accepted, e₅⟩ := setUserMemoryRegion_ok hset
      subst e₂ e₃ e₄ e₅
      have hid := vm₄.kvm.limited accepted
      -- the id is the free one, or the next
      obtain ⟨hvm, hslot⟩ : vm₄ = { vm with nextSlot := vm₄.nextSlot } ∧
          (freeSlot = some slot ∧ vm₄.nextSlot = vm.nextSlot ∨
            freeSlot = none ∧ slot = vm.nextSlot ∧ vm₄.nextSlot.toNat = vm.nextSlot.toNat + 1) := by
        cases freeSlot with
        | some id =>
          cases hslot
          exact ⟨rfl, .inl ⟨rfl, rfl⟩⟩
        | none =>
          obtain ⟨rfl, rfl⟩ := takeSlot_ok hslot
          refine ⟨rfl, .inr ⟨rfl, rfl, ?_⟩⟩
          show (vm.nextSlot + 1).toNat = _
          rw [UInt32.toNat_add]
          exact Nat.mod_eq_of_lt hid
      have hsize : p.to_ - p.from_ ≠ 0 := fun h => he (by grind)
      obtain ⟨entries, h⟩ := ih (fun id h => by cases h) run
      rw [if_neg hsize] at h
      have hstate := h.state
      have hnext := h.next
      have hids : ∀ e ∈ entries, vm₄.nextSlot.toNat ≤ e.1.toNat ∧ e.1.toNat < vm'.nextSlot.toNat :=
        fun e he => (h.ids e he).resolve_left (by simp)
      have hlt : slot.toNat < vm₄.nextSlot.toNat := by
        rcases hslot with ⟨hf, hn⟩ | ⟨-, rfl, hn⟩
        · rw [hn]
          exact free slot hf
        · omega
      have hle : vm.nextSlot.toNat ≤ vm₄.nextSlot.toNat := by
        rcases hslot with ⟨-, hn⟩ | ⟨-, -, hn⟩
        · exact Nat.le_of_eq (congrArg UInt32.toNat hn.symm)
        · omega
      refine ⟨(slot, p) :: entries, ?_, ?_, ?_, ?_, ?_, ?_, ?_⟩
      · rw [List.map_cons, h.pieces, List.filter_cons_of_pos (by simpa using he)]
      · intro e hmem
        rcases List.mem_cons.mp hmem with rfl | hmem
        · rcases hslot with ⟨hf, -⟩ | ⟨-, rfl, hn⟩
          · exact .inl hf
          · exact .inr ⟨Nat.le_refl _, Nat.lt_of_lt_of_le hlt hnext⟩
        · obtain ⟨hlo, hhi⟩ := hids e hmem
          exact .inr ⟨Nat.le_trans hle hlo, hhi⟩
      · rw [List.map_cons, List.nodup_cons]
        refine ⟨fun hmem => ?_, h.nodup⟩
        obtain ⟨e, hmem, heq⟩ := List.mem_map.mp hmem
        have hlo := (hids e hmem).1
        rw [heq] at hlo
        exact Nat.not_lt_of_le hlo hlt
      · exact Nat.le_trans hle hnext
      · intro e hmem
        rcases List.mem_cons.mp hmem with rfl | hmem
        · exact vm₄.kvm.fits accepted
        · exact h.fits e hmem
      · rw [hstate, hvm]
        rfl
      -- the slot that logs is that of this piece, or of a later one
      · intro id hid
        rcases h.logged id hid with hl | ⟨q, hq, hf⟩
        · split at hl
          · next hp =>
            cases hl
            exact .inr ⟨p, List.mem_cons_self, hp⟩
          · exact .inl hl
        · exact .inr ⟨q, List.mem_cons_of_mem _ hq, hf⟩

/-- A region that was found contains the range, and is the first that does. -/
lemma position_ok {start stop : UInt64} {vm vm' : SlotVm} {regions : List VmRegion} {i : Nat}
    {found : Option Nat} (run : position start stop i regions vm = (.ok found, vm')) :
    vm' = vm ∧ ∀ idx, found = some idx → i ≤ idx ∧ ∃ r, regions[idx - i]? = some r ∧
      r.guestPhysAddr ≤ start ∧ stop ≤ r.guestPhysAddr + r.memSize := by
  induction regions generalizing i with
  | nil =>
    cases run
    exact ⟨rfl, fun idx h => by cases h⟩
  | cons r rest ih =>
    have skip : position start stop (i + 1) rest vm = (.ok found, vm') →
        vm' = vm ∧ ∀ idx, found = some idx → i ≤ idx ∧ ∃ r', (r :: rest)[idx - i]? = some r' ∧
          r'.guestPhysAddr ≤ start ∧ stop ≤ r'.guestPhysAddr + r'.memSize := by
      intro run
      obtain ⟨rfl, h⟩ := ih run
      refine ⟨rfl, fun idx hidx => ?_⟩
      obtain ⟨hle, r', hr', hin⟩ := h idx hidx
      refine ⟨by omega, r', ?_, hin⟩
      rw [show idx - i = idx - (i + 1) + 1 by omega, List.getElem?_cons_succ]
      exact hr'
    unfold position at run
    split at run
    · next hle =>
      obtain ⟨regionEnd, vm₁, hadd, run₁⟩ := Eff.bind_ok_iff.mp run
      obtain ⟨rfl, rfl⟩ := add_ok hadd
      split at run₁
      · next hstop =>
        cases run₁
        refine ⟨rfl, fun idx h => ?_⟩
        cases h
        exact ⟨Nat.le_refl _, r, by rw [Nat.sub_self]; rfl, hle, hstop⟩
      · exact skip run₁
    · exact skip run

/-- The first address of the page of `gpa`. -/
lemma toNat_start (gpa : UInt64) : (gpa &&& ~~~(pageSize - 1)).toNat = gpa.toNat / 4096 * 4096 := by
  rw [UInt64.toNat_and]
  exact and_highMask (k := 12) gpa.toNat_lt (by simp)

/-- The next page boundary, which is 0 where the address space ends. -/
lemma nextPage_ok {a stop : UInt64} {vm vm' : SlotVm} (run : nextPage a vm = (.ok stop, vm')) :
    vm' = vm ∧ stop.toNat = (a.toNat + 4095) / 4096 * 4096 % 2 ^ 64 := by
  have hlt := a.toNat_lt
  have hmod : (a % pageSize).toNat = a.toNat % 4096 := UInt64.toNat_mod a pageSize
  unfold nextPage at run
  split at run
  · next h =>
    cases run
    have h0 : a.toNat % 4096 = 0 := by rw [← hmod, h]; rfl
    refine ⟨rfl, ?_⟩
    omega
  · next h =>
    obtain ⟨rfl, rfl⟩ := add_ok run
    have h0 : a.toNat % 4096 ≠ 0 := fun h0 => h (UInt64.toNat_inj.mp (hmod.trans h0))
    have hle : a % pageSize ≤ pageSize := by
      rw [UInt64.le_iff_toNat_le, hmod]
      exact Nat.le_of_lt (Nat.mod_lt _ (by decide))
    refine ⟨rfl, ?_⟩
    rw [UInt64.toNat_add, UInt64.toNat_sub_of_le _ _ hle, hmod]
    show (a.toNat + (4096 - a.toNat % 4096)) % 2 ^ 64 = _
    omega

/-- The pieces a region is split into so that `start..stop` is logged. -/
def splitPieces (r : VmRegion) (start stop : UInt64) : List Piece :=
  [⟨r.guestPhysAddr, start, 0⟩, ⟨start, stop, kvmMemLogDirtyPages⟩,
    ⟨stop, r.guestPhysAddr + r.memSize, 0⟩]

/-- A call that has split the region at `idx`, which had the slot `id`. -/
structure Split (gpa size : UInt64) (vm vm' : SlotVm) (log : DirtyLog) (idx : Nat) (r : VmRegion)
    (id : UInt32) (start stop : UInt64) (entries : List (UInt32 × Piece)) : Prop where
  region : vm.guestMemory[idx]? = some r
  slot : r.slot = some id
  startAt : start.toNat = gpa.toNat / 4096 * 4096
  stopAt : stop.toNat = (gpa.toNat + size.toNat + 4095) / 4096 * 4096
  lo : r.guestPhysAddr.toNat ≤ start.toNat
  lt : start.toNat < stop.toNat
  hi : stop.toNat ≤ (r.guestPhysAddr + r.memSize).toNat
  added : ∃ vm₂, Added r.guestPhysAddr r.memPtr (splitPieces r start stop) (some id) none
    { vm with slots := Function.update vm.slots id none } vm₂ (some log.slot) entries ∧
      vm' = { vm₂ with
        guestMemory := vm.guestMemory.set idx { r with slot := none }
        dupFails := vm'.dupFails }
  pages : log.pages * 4096 = stop.toNat - start.toNat

/-- The region is left without a slot. -/
lemma clearSlot_ok {idx : Nat} {vm vm' : SlotVm} {r : VmRegion} (hr : vm.guestMemory[idx]? = some r)
    (run : clearSlot idx vm = (.ok (), vm')) :
    vm' = { vm with guestMemory := vm.guestMemory.set idx { r with slot := none } } := by
  unfold clearSlot at run
  rw [Eff.gets_bind_run, hr, Eff.unwrap_some, Eff.pure_bind_run] at run
  split at run
  · cases run
  · cases run
    rfl

/-- Duplicating the descriptor changes nothing else. -/
lemma dup_ok {vm vm' : SlotVm} (run : dup vm = (.ok (), vm')) :
    vm' = { vm with dupFails := vm'.dupFails } := by
  unfold dup at run
  split at run
  · cases run
  · cases run; rfl
  · cases run; rfl

/-- The piece that is logged is not empty. -/
lemma logging_piece {r : VmRegion} {start stop : UInt64}
    {entries : List (UInt32 × Piece)} {id : UInt32}
    {p : Piece} (pieces : entries.map Prod.snd = (splitPieces r start stop).filter fun p =>
      p.from_ ≠ p.to_)
    (hp : (id, p) ∈ entries) (hf : p.flags ≠ 0) :
    p = ⟨start, stop, kvmMemLogDirtyPages⟩ ∧ start ≠ stop := by
  have hmem : p ∈ (splitPieces r start stop).filter fun p => p.from_ ≠ p.to_ := by
    rw [← pieces]
    exact List.mem_map.mpr ⟨(id, p), hp, rfl⟩
  obtain ⟨hmem, hne⟩ := List.mem_filter.mp hmem
  unfold splitPieces at hmem
  rcases List.mem_cons.mp hmem with rfl | hmem
  · exact absurd rfl hf
  · rcases List.mem_cons.mp hmem with rfl | hmem
    · exact ⟨rfl, by simpa using hne⟩
    · rw [List.mem_singleton.mp hmem] at hf
      exact absurd rfl hf

/-- A call of `log_dirty_pages` that succeeds, on a range that does not wrap. -/
lemma logDirtyPages_ok {gpa size : UInt64} {vm vm' : SlotVm} {log : DirtyLog} (pos : 0 < size)
    (range : gpa.toNat + size.toNat < 2 ^ 64)
    (ids : ∀ r ∈ vm.guestMemory, ∀ id, r.slot = some id → id.toNat < vm.nextSlot.toNat)
    (run : logDirtyPages gpa size vm = (.ok log, vm')) :
    ∃ idx r id start stop entries, Split gpa size vm vm' log idx r id start stop entries := by
  -- one `obtain` for each step of the source, none of which failed
  obtain ⟨sum, vm₁, hsum, run₁⟩ := Eff.bind_ok_iff.mp run
  obtain ⟨rfl, e₁⟩ := add_ok hsum
  obtain ⟨stop, vm₂, hstop, run₂⟩ := Eff.bind_ok_iff.mp run₁
  obtain ⟨e₂, hnext⟩ := nextPage_ok hstop
  subst e₁ e₂
  obtain ⟨vm₀, vm₃, hvm, run₃⟩ := Eff.bind_ok_iff.mp run₂
  cases hvm
  obtain ⟨found, vm₄, hpos, run₄⟩ := Eff.bind_ok_iff.mp run₃
  obtain ⟨e₄, hfound⟩ := position_ok hpos
  subst e₄
  obtain ⟨idx, vm₅, hidx, run₅⟩ := Eff.bind_ok_iff.mp run₄
  cases found with
  -- no region holds the range: an error
  | none => cases hidx
  | some i =>
    cases hidx
    obtain ⟨-, r, hr, hlo, hhi⟩ := hfound idx rfl
    change vm₄.guestMemory[idx]? = some r at hr
    obtain ⟨r', vm₆, hr', run₆⟩ := Eff.bind_ok_iff.mp run₅
    rw [hr] at hr'
    cases hr'
    obtain ⟨regionEnd, vm₇, hend, run₇⟩ := Eff.bind_ok_iff.mp run₆
    obtain ⟨rfl, e₇⟩ := add_ok hend
    subst e₇
    obtain ⟨id, vm₈, hid, run₈⟩ := Eff.bind_ok_iff.mp run₇
    obtain ⟨slot, hslot⟩ : ∃ slot, r.slot = some slot := by
      cases hs : r.slot with
      | none => rw [hs] at hid; cases hid
      | some slot => exact ⟨slot, rfl⟩
    rw [hslot] at hid
    cases hid
    obtain ⟨⟨⟩, vm₉, hdel, run₉⟩ := Eff.bind_ok_iff.mp run₈
    obtain ⟨-, e₉⟩ := setUserMemoryRegion_ok hdel
    rw [if_pos rfl] at e₉
    subst e₉
    obtain ⟨logged, vm₁₀, hadd, run₁₀⟩ := Eff.bind_ok_iff.mp run₉
    obtain ⟨entries, added⟩ := addPieces_ok
      (fun id' h => by cases h; exact ids r (List.mem_of_getElem? hr) id hslot) hadd
    obtain ⟨⟨⟩, vm₁₁, hclear, run₁₁⟩ := Eff.bind_ok_iff.mp run₁₀
    obtain ⟨⟨⟩, vm₁₂, hdup, run₁₂⟩ := Eff.bind_ok_iff.mp run₁₁
    obtain ⟨logSlot, vm₁₃, hlogged, run₁₃⟩ := Eff.bind_ok_iff.mp run₁₂
    cases logged with
    | none => cases hlogged
    | some s =>
      cases hlogged
      obtain ⟨bytes, vm₁₄, hbytes, run₁₄⟩ := Eff.bind_ok_iff.mp run₁₃
      obtain ⟨rfl, e₁₄⟩ := sub_ok hbytes
      cases run₁₄
      have hstart := toNat_start gpa
      generalize gpa &&& ~~~(pageSize - 1) = start at *
      have hsum : (gpa + size).toNat = gpa.toNat + size.toNat := by
        rw [UInt64.toNat_add, Nat.mod_eq_of_lt range]
      have hpos : 0 < size.toNat := UInt64.lt_iff_toNat_lt.mp pos
      -- the range does not end where the address space does, for KVM refuses such a slot
      obtain ⟨p, hp, hflags⟩ := (added.logged logSlot rfl).resolve_left (by simp)
      obtain ⟨rfl, hne⟩ := logging_piece added.pieces hp hflags
      have hfit : start.toNat + (stop - start).toNat < 2 ^ 64 := added.fits _ hp
      have hend : (gpa.toNat + size.toNat + 4095) / 4096 * 4096 < 2 ^ 64 := by
        by_contra hwrap
        have h0 : stop.toNat = 0 := by
          rw [hnext, hsum]
          omega
        have hne' : start.toNat ≠ 0 := fun h => hne (UInt64.toNat_inj.mp (h.trans h0.symm))
        have hlt := start.toNat_lt
        rw [UInt64.toNat_sub, h0] at hfit
        omega
      have hstop' : stop.toNat = (gpa.toNat + size.toNat + 4095) / 4096 * 4096 := by
        rw [hnext, hsum, Nat.mod_eq_of_lt hend]
      have hlt : start.toNat < stop.toNat := by omega
      refine ⟨idx, r, id, start, stop, entries, hr, hslot, hstart, hstop', ?_, hlt, ?_,
        ⟨vm₁₀, added, ?_⟩, ?_⟩
      · exact UInt64.le_iff_toNat_le.mp hlo
      · exact UInt64.le_iff_toNat_le.mp hhi
      · subst e₁₄
        have hguest : vm₁₀.guestMemory = vm₇.guestMemory := by rw [added.state]
        have hstate := dup_ok hdup
        rw [clearSlot_ok (hguest ▸ hr) hclear, hguest] at hstate
        exact hstate
      · show ((stop - start) / pageSize).toNat * 4096 = _
        rw [UInt64.toNat_div, UInt64.toNat_sub_of_le _ _ (UInt64.le_iff_toNat_le.mpr hlt.le)]
        show (stop.toNat - start.toNat) / 4096 * 4096 = _
        omega

/-! ## Calls that fail -/

/-- What changes slots fails with an error of the system, or because the region is shared. -/
def LateErrors {α : Type} (x : SlotM α) : Prop :=
  ∀ vm e vm', x vm = (.err e, vm') → e = .os ∨ e = .alreadyShared

/-- Two computations that fail late do so together. -/
lemma LateErrors.bind {α β : Type} {x : SlotM α} {f : α → SlotM β} (hx : LateErrors x)
    (hf : ∀ a, LateErrors (f a)) : LateErrors (x >>= f) := by
  intro vm e vm' h
  rcases Eff.bind_err_iff.mp h with h | ⟨a, vm₁, -, h⟩
  · exact hx vm e vm' h
  · exact hf a vm₁ e vm' h

/-- Returning a value does not fail. -/
lemma lateErrors_pure {α : Type} (a : α) : LateErrors (pure a) := fun _ _ _ h => by cases h

/-- Unwrapping panics, which is no error. -/
lemma lateErrors_unwrap {α : Type} (o : Option α) : LateErrors (Eff.unwrap o) := by
  intro vm e vm' h
  cases o <;> cases h

/-- An addition panics at most. -/
lemma lateErrors_add (a b : UInt64) : LateErrors (add a b) := by
  intro vm e vm' h
  unfold add at h
  split at h <;> cases h

/-- A subtraction panics at most. -/
lemma lateErrors_sub (a b : UInt64) : LateErrors (sub a b) := by
  intro vm e vm' h
  unfold sub at h
  split at h <;> cases h

/-- Taking an id panics at most. -/
lemma lateErrors_takeSlot : LateErrors takeSlot := by
  intro vm e vm' h
  unfold takeSlot at h
  split at h <;> cases h

/-- KVM's refusal is an error of the system. -/
lemma lateErrors_set (slot : UInt32) (region : KvmSlot) :
    LateErrors (setUserMemoryRegion slot region) := by
  intro vm e vm' h
  unfold setUserMemoryRegion at h
  split at h
  · cases h
  · cases h
    exact .inl rfl

/-- Adding pieces fails as KVM does. -/
lemma lateErrors_addPieces (base host : UInt64) (pieces : List Piece)
    (freeSlot logged : Option UInt32) :
    LateErrors (addPieces base host pieces freeSlot logged) := by
  induction pieces generalizing freeSlot logged with
  | nil => exact lateErrors_pure _
  | cons p pieces ih =>
    unfold addPieces
    split
    · exact ih freeSlot logged
    · apply LateErrors.bind
      · cases freeSlot with
        | none => exact lateErrors_takeSlot
        | some slot => exact lateErrors_pure slot
      · intro slot
        exact (lateErrors_sub _ _).bind fun _ => (lateErrors_sub _ _).bind fun _ =>
          (lateErrors_add _ _).bind fun _ => (lateErrors_set _ _).bind fun _ => ih none _

/-- Clearing a slot does not fail. -/
lemma lateErrors_clearSlot (idx : Nat) : LateErrors (clearSlot idx) := by
  intro vm e vm' h
  unfold clearSlot at h
  rw [Eff.gets_bind_run] at h
  rcases Eff.bind_err_iff.mp h with h | ⟨r, vm₁, -, h⟩
  · exact lateErrors_unwrap _ vm e vm' h
  · split at h
    · cases h
      exact .inr rfl
    · cases h

/-- Duplicating the descriptor fails as the host does. -/
lemma lateErrors_dup : LateErrors dup := by
  intro vm e vm' h
  unfold dup at h
  split at h
  · cases h
    exact .inl rfl
  · cases h
  · cases h

/-- Rounding up panics at most. -/
lemma lateErrors_nextPage (a : UInt64) : LateErrors (nextPage a) := by
  unfold nextPage
  split
  · exact lateErrors_pure a
  · exact lateErrors_add _ _

/-- Looking for a region panics at most. -/
lemma lateErrors_position (start stop : UInt64) (idx : Nat) (regions : List VmRegion) :
    LateErrors (position start stop idx regions) := by
  induction regions generalizing idx with
  | nil => exact lateErrors_pure none
  | cons r rest ih =>
    unfold position
    split
    · apply (lateErrors_add _ _).bind
      intro regionEnd
      split
      · exact lateErrors_pure _
      · exact ih (idx + 1)
    · exact ih (idx + 1)

/-- A missing value that is an error leaves the VM as it was. -/
lemma okOr_err {α : Type} {o : Option α} {e e' : SlotError} {vm vm' : SlotVm}
    (h : (Eff.okOr o e : SlotM α) vm = (.err e', vm')) : vm' = vm := by
  cases o with
  | none => cases h; rfl
  | some a => cases h

/-- A call that fails for want of a region, or because it is split, changes nothing. -/
lemma logDirtyPages_err {gpa size : UInt64} {vm vm' : SlotVm} {e : SlotError}
    (run : logDirtyPages gpa size vm = (.err e, vm')) :
    (e = .os ∨ e = .alreadyShared) ∨ vm' = vm := by
  rcases Eff.bind_err_iff.mp run with h | ⟨sum, vm₁, hsum, run₁⟩
  · exact .inl (lateErrors_add _ _ vm e vm' h)
  obtain ⟨-, rfl⟩ := add_ok hsum
  rcases Eff.bind_err_iff.mp run₁ with h | ⟨stop, vm₂, hstop, run₂⟩
  · exact .inl (lateErrors_nextPage _ _ e vm' h)
  obtain ⟨rfl, -⟩ := nextPage_ok hstop
  rw [Eff.gets_bind_run] at run₂
  rcases Eff.bind_err_iff.mp run₂ with h | ⟨found, vm₃, hpos, run₃⟩
  · exact .inl (lateErrors_position _ _ _ _ _ e vm' h)
  obtain ⟨rfl, -⟩ := position_ok hpos
  rcases Eff.bind_err_iff.mp run₃ with h | ⟨idx, vm₄, hidx, run₄⟩
  · exact .inr (okOr_err h)
  obtain ⟨-, rfl⟩ := Eff.okOr_ok hidx
  rcases Eff.bind_err_iff.mp run₄ with h | ⟨region, vm₅, hregion, run₅⟩
  · exact .inl (lateErrors_unwrap _ _ e vm' h)
  obtain ⟨-, rfl⟩ := Eff.unwrap_ok hregion
  rcases Eff.bind_err_iff.mp run₅ with h | ⟨regionEnd, vm₆, hend, run₆⟩
  · exact .inl (lateErrors_add _ _ _ e vm' h)
  obtain ⟨-, rfl⟩ := add_ok hend
  rcases Eff.bind_err_iff.mp run₆ with h | ⟨slot, vm₇, -, run₇⟩
  · exact .inr (okOr_err h)
  -- from here on slots are changed
  left
  refine LateErrors.bind (lateErrors_set _ _) (fun _ => ?_) _ e vm' run₇
  refine (lateErrors_addPieces _ _ _ _ _).bind fun logged => ?_
  refine (lateErrors_clearSlot _).bind fun _ => lateErrors_dup.bind fun _ => ?_
  exact (lateErrors_unwrap logged).bind fun _ => (lateErrors_sub _ _).bind fun _ =>
    lateErrors_pure _

end SlotVm

end Hearth
