import Hearth.Boot.Load

/-!
# Loading an ELF file

Model of `util/elf.rs`: the `PT_LOAD` segments of an ELF64 file are copied into a memory region,
each to the offset that is its physical address. The program headers are those that the ELF parser
found in the file; their fields are any numbers.

Nothing compares a segment with the file, and its size in the file is not compared with its size in
memory. `loadElf_sound_iff` says which files are loaded as they should be.
-/

namespace Hearth
open Lib

/-- The fields of a program header that the loader reads. -/
structure ProgramHeader where
  pType : UInt32
  pOffset : UInt64
  pFilesz : UInt64
  pPaddr : UInt64
  pMemsz : UInt64
  deriving DecidableEq, Repr

/-- `PT_LOAD` -/
def ptLoad : UInt32 := 1

/-- `data[start..stop]`: a panic unless the bounds are in order and inside. -/
def slice (data : List UInt8) (start stop : UInt64) : BootM (List UInt8) := fun vm =>
  if start ≤ stop ∧ stop.toNat ≤ data.length then
    (.ok ((data.take stop.toNat).drop start.toNat), vm)
  else (.panic, vm)

/-- One round of the loop of `load_elf`, which returns what `last_addr` is after it. -/
def loadSegment (elfData : List UInt8) (memIdx : Nat) (ph : ProgramHeader) (lastAddr : UInt64) :
    BootM UInt64 :=
  if ph.pType ≠ ptLoad then pure lastAddr
  else do
    let elfEndOfs ← add ph.pOffset ph.pFilesz
    -- `p_memsz`, so that the `.bss` of the segment is included
    let guestMemEnd ← add ph.pPaddr ph.pMemsz
    let data ← slice elfData ph.pOffset elfEndOfs
    let _ ← loadDataToMemory memIdx data ph.pPaddr
    pure (if guestMemEnd > lastAddr then guestMemEnd else lastAddr)

/-- The loop of `load_elf`. -/
def loadSegments (elfData : List UInt8) (memIdx : Nat) : List ProgramHeader → UInt64 → BootM UInt64
  | [], lastAddr => pure lastAddr
  | ph :: phs, lastAddr => do
    let lastAddr ← loadSegment elfData memIdx ph lastAddr
    loadSegments elfData memIdx phs lastAddr

/-- `load_elf`, for the program headers of a file -/
def loadElf (headers : List ProgramHeader) (elfData : List UInt8) (memIdx : Nat) : BootM UInt64 :=
  loadSegments elfData memIdx headers 0

/-! ## What it should do -/

/-- The segments to load, in their order. -/
def loads (headers : List ProgramHeader) : List ProgramHeader := headers.filter (·.pType = ptLoad)

namespace ProgramHeader

/-- The bytes of a segment in the file. -/
def bytes (elfData : List UInt8) (ph : ProgramHeader) : List UInt8 :=
  (elfData.drop ph.pOffset.toNat).take ph.pFilesz.toNat

/-- Where the bytes of a segment end in memory. -/
def fileEnd (ph : ProgramHeader) : Nat := ph.pPaddr.toNat + ph.pFilesz.toNat

/-- Where a segment ends in memory, with its `.bss`. -/
def memEnd (ph : ProgramHeader) : Nat := ph.pPaddr.toNat + ph.pMemsz.toNat

/-- Where the bytes of a segment go. -/
def copy (elfData : List UInt8) (region : MemRegion) (ph : ProgramHeader) : Nat × List UInt8 :=
  (region.memPtr + ph.pPaddr.toNat, ph.bytes elfData)

/-- The bytes of a segment are in the file; the sum that gives its end may be too large
    if overflow is not checked. -/
def Readable (elfData : List UInt8) (overflowChecks : Bool) (ph : ProgramHeader) : Prop :=
  ph.pOffset.toNat + ph.pFilesz.toNat < 2 ^ 64 ∧
    ph.pOffset.toNat + ph.pFilesz.toNat ≤ elfData.length ∧
    (overflowChecks → ph.memEnd < 2 ^ 64)

/-- The bytes of a segment have room in the region. -/
def Fits (vm : Vm) (memIdx : Nat) (ph : ProgramHeader) : Prop :=
  ∃ region, vm.guestMemory[memIdx]? = some region ∧ ph.pPaddr.toNat < region.memSize ∧
    ph.fileEnd ≤ region.memSize

end ProgramHeader

/-- The file is loaded: each byte of memory is the one that the last segment with that address has
    for it, and one that belongs to no segment is as it was. The address returned is after all
    segments. -/
structure Loaded (headers : List ProgramHeader) (elfData : List UInt8) (memIdx : Nat) (vm : Vm)
    (lastAddr : UInt64) (vm' : Vm) : Prop where
  guestMemory : vm'.guestMemory = vm.guestMemory
  whole : ∀ ph ∈ loads headers, (ph.bytes elfData).length = ph.pFilesz.toNat
  inside : ∀ ph ∈ loads headers, ph.Fits vm memIdx
  holds : ∀ region, vm.guestMemory[memIdx]? = some region → ∀ a,
    Mem.LastWritten vm.mem ((loads headers).map (ProgramHeader.copy elfData region)) a (vm'.mem a)
  untouched : vm.guestMemory[memIdx]? = none → vm'.mem = vm.mem
  above : ∀ ph ∈ loads headers, ph.fileEnd ≤ lastAddr.toNat ∧ ph.memEnd ≤ lastAddr.toNat

/-- `load_elf` returns an error, or loads the file. -/
def LoadsSound (headers : List ProgramHeader) (elfData : List UInt8) (memIdx : Nat)
    (vm : Vm) : Prop :=
  (∃ e, (loadElf headers elfData memIdx vm).1 = .err e) ∨
    ∃ lastAddr vm', loadElf headers elfData memIdx vm = (.ok lastAddr, vm') ∧
      Loaded headers elfData memIdx vm lastAddr vm'

/-- Each segment can be read that has only segments with room before it. -/
def ReadableUntilFull (elfData : List UInt8) (memIdx : Nat) (vm : Vm) : List ProgramHeader → Prop
  | [] => True
  | ph :: phs => ph.Readable elfData vm.overflowChecks ∧
    (ph.Fits vm memIdx → ReadableUntilFull elfData memIdx vm phs)

/-- No segment ends after the address space, and none has more bytes in the file than all of them
    together take in memory. -/
def Enclosed (phs : List ProgramHeader) : Prop :=
  ∀ ph ∈ phs, ph.memEnd < 2 ^ 64 ∧ ∃ t ∈ phs, ph.fileEnd ≤ t.memEnd

/-! ## One segment -/

section Segment

variable {elfData data : List UInt8} {memIdx : Nat} {ph : ProgramHeader} {region : MemRegion}
  {vm : Vm} {a b start stop : UInt64} (lastAddr : UInt64)

/-- An addition that overflows panics where overflow is checked. -/
lemma add_panics (hc : vm.overflowChecks) (h : 2 ^ 64 ≤ a.toNat + b.toNat) :
    add a b vm = (.panic, vm) :=
  if_pos ⟨hc, h⟩

/-- Without overflow checks, or without overflow, a sum is taken. -/
lemma add_wraps (h : vm.overflowChecks → a.toNat + b.toNat < 2 ^ 64) :
    add a b vm = (.ok (a + b), vm) :=
  if_neg fun hp => Nat.not_lt_of_le hp.2 (h hp.1)

/-- A slice within the file. -/
lemma slice_run (h1 : start.toNat ≤ stop.toNat) (h2 : stop.toNat ≤ data.length) :
    slice data start stop vm = (.ok ((data.take stop.toNat).drop start.toNat), vm) :=
  if_pos ⟨h1, h2⟩

/-- A slice outside of it panics. -/
lemma slice_panics (h : ¬ (start.toNat ≤ stop.toNat ∧ stop.toNat ≤ data.length)) :
    slice data start stop vm = (.panic, vm) :=
  if_neg h

/-- Other segments are skipped. -/
lemma loadSegment_skip (h : ph.pType ≠ ptLoad) :
    loadSegment elfData memIdx ph lastAddr vm = (.ok lastAddr, vm) := by
  unfold loadSegment
  rw [if_pos h]
  rfl

/-- A segment that cannot be read makes the loader panic: its end is too large, or is before its
    start, or is after the end of the file. -/
lemma loadSegment_panics (memIdx : Nat) (lastAddr : UInt64) (hl : ph.pType = ptLoad)
    (h : ¬ ph.Readable elfData vm.overflowChecks) :
    (loadSegment elfData memIdx ph lastAddr vm).1 = .panic := by
  unfold loadSegment
  rw [if_neg (not_not_intro hl)]
  by_cases h1 : vm.overflowChecks → ph.pOffset.toNat + ph.pFilesz.toNat < 2 ^ 64
  · rw [Eff.bind_of_ok (add_wraps h1)]
    by_cases h2 : vm.overflowChecks → ph.pPaddr.toNat + ph.pMemsz.toNat < 2 ^ 64
    · rw [Eff.bind_of_ok (add_wraps h2)]
      have hs : slice elfData ph.pOffset (ph.pOffset + ph.pFilesz) vm = (.panic, vm) := by
        apply slice_panics
        intro hin
        apply h
        rw [UInt64.toNat_add] at hin
        have hb := ph.pFilesz.toNat_lt
        have ho := ph.pOffset.toNat_lt
        exact ⟨by omega, by omega, h2⟩
      rw [Eff.bind_of_panic hs]
    · obtain ⟨hc, hle⟩ := Classical.not_imp.mp h2
      rw [Eff.bind_of_panic (add_panics hc (Nat.le_of_not_lt hle))]
  · obtain ⟨hc, hle⟩ := Classical.not_imp.mp h1
    rw [Eff.bind_of_panic (add_panics hc (Nat.le_of_not_lt hle))]

/-- A segment's bytes are all in the file. -/
lemma ProgramHeader.Readable.bytes_length (h : ph.Readable elfData vm.overflowChecks) :
    (ph.bytes elfData).length = ph.pFilesz.toNat := by
  have hle := h.2.1
  rw [ProgramHeader.bytes, List.length_take, List.length_drop]
  omega

/-- A segment that can be read is passed on to the region. -/
lemma loadSegment_reads (hl : ph.pType = ptLoad) (h : ph.Readable elfData vm.overflowChecks) :
    loadSegment elfData memIdx ph lastAddr vm =
      (loadDataToMemory memIdx (ph.bytes elfData) ph.pPaddr >>= fun _ => pure
        (if ph.pPaddr + ph.pMemsz > lastAddr then ph.pPaddr + ph.pMemsz else lastAddr)) vm := by
  obtain ⟨h1, h2, h3⟩ := h
  have hsum : (ph.pOffset + ph.pFilesz).toNat = ph.pOffset.toNat + ph.pFilesz.toNat := by
    rw [UInt64.toNat_add, Nat.mod_eq_of_lt h1]
  have hs : slice elfData ph.pOffset (ph.pOffset + ph.pFilesz) vm =
    (.ok (ph.bytes elfData), vm) := by
    apply (slice_run (by omega) (by omega)).trans
    rw [hsum, List.drop_take, Nat.add_sub_cancel_left]
    rfl
  unfold loadSegment
  rw [if_neg (not_not_intro hl), Eff.bind_of_ok (add_wraps fun _ => h1),
    Eff.bind_of_ok (add_wraps h3), Eff.bind_of_ok hs]

/-- A segment that fits is loaded. -/
lemma loadSegment_run (hl : ph.pType = ptLoad) (h : ph.Readable elfData vm.overflowChecks)
    (hr : vm.guestMemory[memIdx]? = some region) (hf : ph.Fits vm memIdx) :
    loadSegment elfData memIdx ph lastAddr vm =
      (.ok (if ph.pPaddr + ph.pMemsz > lastAddr then ph.pPaddr + ph.pMemsz else lastAddr),
        vm.place region (ph.bytes elfData) ph.pPaddr) := by
  obtain ⟨region', hr', hlt, hle⟩ := hf
  cases hr.symm.trans hr'
  have hlen := h.bytes_length
  rw [loadSegment_reads lastAddr hl h,
    Eff.bind_of_ok (loadDataToMemory_run hr hlt (by rw [hlen]; exact hle))]
  rfl

/-- Data without room is an error. -/
lemma loadDataToMemory_err {idx : Nat}
    (h : ¬ ∃ region, vm.guestMemory[idx]? = some region ∧ a.toNat < region.memSize ∧
      a.toNat + data.length ≤ region.memSize) :
    ∃ e, loadDataToMemory idx data a vm = (.err e, vm) := by
  unfold loadDataToMemory
  rw [Eff.gets_bind_run]
  cases hr : vm.guestMemory[idx]? with
  | none => exact ⟨_, rfl⟩
  | some region =>
    rw [Eff.okOr_some, Eff.pure_bind_run]
    split
    · exact ⟨_, rfl⟩
    · split
      · exact ⟨_, rfl⟩
      · next h1 h2 => exact absurd ⟨region, hr, Nat.lt_of_not_le h1, Nat.le_of_not_lt h2⟩ h

/-- One that does not is an error. -/
lemma loadSegment_full (hl : ph.pType = ptLoad) (h : ph.Readable elfData vm.overflowChecks)
    (hf : ¬ ph.Fits vm memIdx) :
    ∃ e, (loadSegment elfData memIdx ph lastAddr vm).1 = .err e := by
  obtain ⟨e, he⟩ : ∃ e, loadDataToMemory memIdx (ph.bytes elfData) ph.pPaddr vm = (.err e, vm) := by
    apply loadDataToMemory_err
    rw [h.bytes_length]
    exact hf
  refine ⟨e, ?_⟩
  rw [loadSegment_reads lastAddr hl h, Eff.bind_of_err he]

end Segment

/-! ## All segments -/

/-- What `last_addr` is after the segments that are loaded. -/
def lastOf (lastAddr : UInt64) (phs : List ProgramHeader) : UInt64 :=
  phs.foldl (fun last ph => if ph.pPaddr + ph.pMemsz > last then ph.pPaddr + ph.pMemsz
    else last) lastAddr

section Last

variable {phs : List ProgramHeader} {ph : ProgramHeader} (lastAddr : UInt64)

/-- The last address only goes up from segment to segment. -/
lemma le_lastOf (phs : List ProgramHeader) : lastAddr.toNat ≤ (lastOf lastAddr phs).toNat := by
  induction phs generalizing lastAddr with
  | nil => exact Nat.le_refl _
  | cons ph phs ih =>
    apply Nat.le_trans _ (ih _)
    show lastAddr.toNat ≤ (if ph.pPaddr + ph.pMemsz > lastAddr then _ else lastAddr).toNat
    split
    · next h => exact Nat.le_of_lt h
    · exact Nat.le_refl _

/-- The last address is after the end of every segment, if that does not overflow. -/
lemma memEnd_le_lastOf (h : ph ∈ phs) (hlt : ph.memEnd < 2 ^ 64) :
    ph.memEnd ≤ (lastOf lastAddr phs).toNat := by
  induction phs generalizing lastAddr with
  | nil => cases h
  | cons p phs ih =>
    rcases List.mem_cons.mp h with rfl | h
    · have hsum : (ph.pPaddr + ph.pMemsz).toNat = ph.memEnd := by
        rw [UInt64.toNat_add]
        exact Nat.mod_eq_of_lt hlt
      apply Nat.le_trans (m := (if ph.pPaddr + ph.pMemsz > lastAddr then ph.pPaddr + ph.pMemsz
        else lastAddr).toNat) _ (le_lastOf ..)
      split
      · exact Nat.le_of_eq hsum.symm
      · next hle => exact hsum ▸ Nat.le_of_not_lt hle
    · exact ih _ h

/-- The last address is the end of a segment, up to overflow. -/
lemma lastOf_mem (phs : List ProgramHeader) :
    lastOf lastAddr phs = lastAddr ∨ ∃ t ∈ phs, lastOf lastAddr phs = t.pPaddr + t.pMemsz := by
  induction phs generalizing lastAddr with
  | nil => exact .inl rfl
  | cons p phs ih =>
    show lastOf (if p.pPaddr + p.pMemsz > lastAddr then p.pPaddr + p.pMemsz
      else lastAddr) phs = _ ∨ _
    rcases ih (if p.pPaddr + p.pMemsz > lastAddr then p.pPaddr + p.pMemsz
      else lastAddr) with h | ⟨t, ht, h⟩
    · split at h
      · next hlt => exact .inr ⟨p, List.mem_cons_self,
          (congrArg (lastOf · phs) (if_pos hlt)).trans h⟩
      · next hle => exact .inl ((congrArg (lastOf · phs) (if_neg hle)).trans h)
    · exact .inr ⟨t, List.mem_cons_of_mem _ ht, h⟩

end Last

/-- The segments are copied, and nothing else changes that the loader looks at. -/
structure Copied (elfData : List UInt8) (memIdx : Nat) (phs : List ProgramHeader) (vm vm' : Vm) :
    Prop where
  guestMemory : vm'.guestMemory = vm.guestMemory
  overflowChecks : vm'.overflowChecks = vm.overflowChecks
  os : vm'.os = vm.os
  placed : vm'.placed = vm.placed ++ phs.map fun ph => (ph.pPaddr, ph.bytes elfData)
  writes : ∀ region, vm.guestMemory[memIdx]? = some region →
    vm'.mem = vm.mem.writes (phs.map (ProgramHeader.copy elfData region))
  untouched : phs = [] → vm'.mem = vm.mem

section Segments

variable {elfData : List UInt8} {memIdx : Nat} {phs : List ProgramHeader} {ph : ProgramHeader}
  {vm : Vm} (lastAddr : UInt64)

/-- Other segments are not loaded. -/
lemma loads_skip (h : ph.pType ≠ ptLoad) : loads (ph :: phs) = loads phs :=
  List.filter_cons_of_neg (by simpa using h)

/-- A segment to load is the first. -/
lemma loads_cons (h : ph.pType = ptLoad) : loads (ph :: phs) = ph :: loads phs :=
  List.filter_cons_of_pos (by simpa using h)

/-- What a segment needs does not change when another one is copied. -/
lemma readable_place {region : MemRegion} {data : List UInt8} {a : UInt64} :
    ReadableUntilFull elfData memIdx (vm.place region data a) phs ↔
      ReadableUntilFull elfData memIdx vm phs := by
  induction phs with
  | nil => exact Iff.rfl
  | cons ph phs ih => exact and_congr Iff.rfl (imp_congr Iff.rfl ih)

/-- The loader panics at the first segment that cannot be read, unless one before it has no room. -/
lemma loadSegments_panics (h : ¬ ReadableUntilFull elfData memIdx vm (loads phs)) :
    (loadSegments elfData memIdx phs lastAddr vm).1 = .panic := by
  induction phs generalizing vm lastAddr with
  | nil => exact absurd trivial h
  | cons ph phs ih =>
    unfold loadSegments
    by_cases hl : ph.pType = ptLoad
    · rw [loads_cons hl] at h
      by_cases hread : ph.Readable elfData vm.overflowChecks
      · obtain ⟨hf, hrest⟩ :
          ph.Fits vm memIdx ∧ ¬ ReadableUntilFull elfData memIdx vm (loads phs) :=
          Classical.not_imp.mp fun hi => h ⟨hread, hi⟩
        obtain ⟨region, hr, -⟩ := id hf
        rw [Eff.bind_of_ok (loadSegment_run lastAddr hl hread hr hf)]
        apply ih _
        rw [readable_place]
        exact hrest
      · have hp := loadSegment_panics memIdx lastAddr hl hread
        rw [Eff.bind_of_panic (Prod.ext hp rfl)]
    · rw [loads_skip hl] at h
      rw [Eff.bind_of_ok (loadSegment_skip lastAddr hl)]
      exact ih _ h

/-- Otherwise it returns an error if a segment has no room, and has copied them all if none has. -/
lemma loadSegments_returns (h : ReadableUntilFull elfData memIdx vm (loads phs)) :
    (¬ (∀ ph ∈ loads phs, ph.Fits vm memIdx) ∧
        ∃ e, (loadSegments elfData memIdx phs lastAddr vm).1 = .err e) ∨
      ((∀ ph ∈ loads phs, ph.Readable elfData vm.overflowChecks ∧ ph.Fits vm memIdx) ∧
        ∃ vm', loadSegments elfData memIdx phs lastAddr vm =
          (.ok (lastOf lastAddr (loads phs)), vm') ∧
          Copied elfData memIdx (loads phs) vm vm') := by
  induction phs generalizing vm lastAddr with
  | nil => exact .inr ⟨nofun, vm, rfl, rfl, rfl, rfl, (List.append_nil _).symm,
    fun _ _ => rfl, fun _ => rfl⟩
  | cons ph phs ih =>
    unfold loadSegments
    by_cases hl : ph.pType = ptLoad
    · rw [loads_cons hl] at h ⊢
      obtain ⟨hread, hrest⟩ := h
      by_cases hf : ph.Fits vm memIdx
      · obtain ⟨region, hr, -⟩ := id hf
        rw [Eff.bind_of_ok (loadSegment_run lastAddr hl hread hr hf)]
        rcases ih _ (readable_place.mpr (hrest hf)) with ⟨hn, he⟩ | ⟨hall, vm', he, hcop⟩
        · exact .inl ⟨fun h => hn fun p hp => h p (List.mem_cons_of_mem _ hp), he⟩
        · refine .inr ⟨List.forall_mem_cons.mpr ⟨⟨hread, hf⟩, hall⟩, vm', he, ?_⟩
          refine ⟨hcop.guestMemory, hcop.overflowChecks, hcop.os, ?_, ?_, nofun⟩
          · rw [hcop.placed, Vm.place_placed, List.append_assoc]
            rfl
          · intro region' hr'
            cases hr.symm.trans hr'
            exact hcop.writes region hr
      · obtain ⟨e, he⟩ := loadSegment_full lastAddr hl hread hf
        refine .inl ⟨fun h => hf (h ph List.mem_cons_self), e, ?_⟩
        rw [Eff.bind_of_err (Prod.ext he rfl)]
    · rw [loads_skip hl] at h ⊢
      rw [Eff.bind_of_ok (loadSegment_skip lastAddr hl)]
      exact ih _ h

end Segments

/-- A file that was loaded has segments that can be read and have room. -/
lemma loadElf_ok {headers : List ProgramHeader} {elfData : List UInt8} {memIdx : Nat} {vm vm' : Vm}
    {lastAddr : UInt64} (h : loadElf headers elfData memIdx vm = (.ok lastAddr, vm')) :
    (∀ ph ∈ loads headers, ph.Readable elfData vm.overflowChecks ∧ ph.Fits vm memIdx) ∧
      lastAddr = lastOf 0 (loads headers) ∧ Copied elfData memIdx (loads headers) vm vm' := by
  have hread : ReadableUntilFull elfData memIdx vm (loads headers) := by
    by_contra hn
    cases (congrArg Prod.fst h).symm.trans (loadSegments_panics 0 hn)
  rcases loadSegments_returns 0 hread with ⟨-, e, he⟩ | ⟨hall, vm1, he, hcop⟩
  · cases (congrArg Prod.fst h).symm.trans he
  · cases h.symm.trans he
    exact ⟨hall, rfl, hcop⟩

/-! ## When the file is loaded -/

/-- An address is after all segments exactly if they are enclosed. -/
lemma above_iff {phs : List ProgramHeader} :
    (∀ ph ∈ phs, ph.fileEnd ≤ (lastOf 0 phs).toNat ∧ ph.memEnd ≤ (lastOf 0 phs).toNat) ↔
    Enclosed phs := by
  constructor
  · intro h ph hph
    obtain ⟨hfile, hmem⟩ := h ph hph
    refine ⟨Nat.lt_of_le_of_lt hmem (UInt64.toNat_lt _), ?_⟩
    rcases lastOf_mem 0 phs with h0 | ⟨t, ht, e⟩
    · rw [h0] at hfile
      exact ⟨ph, hph, Nat.le_trans hfile (Nat.zero_le _)⟩
    · refine ⟨t, ht, ?_⟩
      rw [e, UInt64.toNat_add] at hfile
      exact Nat.le_trans hfile (Nat.mod_le _ _)
  · intro h ph hph
    obtain ⟨hlt, t, ht, hle⟩ := h ph hph
    exact ⟨Nat.le_trans hle (memEnd_le_lastOf 0 ht (h t ht).1), memEnd_le_lastOf 0 hph hlt⟩

/-- The loader returns an error or loads the file exactly if the segments before the first one
    without room, and that one, can be read, and, if all have room, they are enclosed. -/
theorem loadElf_sound_iff (headers : List ProgramHeader) (elfData : List UInt8)
    (memIdx : Nat) (vm : Vm) :
    LoadsSound headers elfData memIdx vm ↔
      ReadableUntilFull elfData memIdx vm (loads headers) ∧
        ((∀ ph ∈ loads headers, ph.Fits vm memIdx) → Enclosed (loads headers)) := by
  constructor
  · intro h
    have hread : ReadableUntilFull elfData memIdx vm (loads headers) := by
      by_contra hn
      have hp : (loadElf headers elfData memIdx vm).1 = .panic := loadSegments_panics 0 hn
      rcases h with ⟨e, he⟩ | ⟨lastAddr, vm', he, -⟩
      · cases hp.symm.trans he
      · rw [he] at hp
        cases hp
    refine ⟨hread, fun hfit => above_iff.mp ?_⟩
    rcases loadSegments_returns 0 hread with ⟨hn, -⟩ | ⟨-, vm', he, -⟩
    · exact absurd hfit hn
    · rcases h with ⟨e, he'⟩ | ⟨lastAddr, vm1, he', hl⟩
      · cases (congrArg Prod.fst he).symm.trans he'
      · cases he.symm.trans he'
        exact hl.above
  · rintro ⟨hread, henc⟩
    rcases loadSegments_returns 0 hread with ⟨-, he⟩ | ⟨hall, vm', he, hcop⟩
    · exact .inl he
    · refine .inr ⟨lastOf 0 (loads headers), vm', he, ?_⟩
      have hfit : ∀ ph ∈ loads headers, ph.Fits vm memIdx := fun ph hph => (hall ph hph).2
      exact {
        guestMemory := hcop.guestMemory
        whole := fun ph hph => (hall ph hph).1.bytes_length
        inside := hfit
        holds := fun region hr a => by
          rw [hcop.writes region hr]
          exact Mem.writes_lastWritten ..
        untouched := fun hr => hcop.untouched <| by
          apply List.eq_nil_iff_forall_not_mem.mpr
          intro ph hph
          obtain ⟨region, hr', -⟩ := hfit ph hph
          cases hr.symm.trans hr'
        above := above_iff.mpr (henc hfit) }

/-- An ELF64 file of 120 bytes: the file header, and one program header that says there are 121. -/
def shortFile : List UInt8 :=
  [0x7f, 0x45, 0x4c, 0x46, 2, 1, 1, 0, 0, 0, 0, 0, 0, 0, 0, 0, 2, 0, 0x3e, 0, 1, 0, 0, 0] ++
    [0, 0, 0, 0, 0, 0, 0, 0, 64, 0, 0, 0, 0, 0, 0, 0, 0, 0, 0, 0, 0, 0, 0, 0, 0, 0, 0, 0] ++
    [64, 0, 56, 0, 1, 0, 64, 0, 0, 0, 0, 0] ++
    -- the program header
    [1, 0, 0, 0, 5, 0, 0, 0] ++ [0, 0, 0, 0, 0, 0, 0, 0] ++ [0, 0, 0, 0, 0, 0, 0, 0] ++
    [0, 0, 0, 0, 0, 0, 0, 0] ++ [121, 0, 0, 0, 0, 0, 0, 0] ++ [121, 0, 0, 0, 0, 0, 0, 0] ++
    [0, 0x10, 0, 0, 0, 0, 0, 0]

/-- A segment of a byte more than the file has. -/
def shortSegment : ProgramHeader := ⟨ptLoad, 0, 121, 0, 121⟩

/-- A VM with 64 KiB of memory at address 0. -/
def smallVm : Vm :=
  { Vm.new (Os.ofFiles fun _ => none) with guestMemory := [⟨0, 0x10000, 0, by decide⟩] }

/-- The loader panics on a file that ends before its segment. -/
theorem loadElf_short_file_panics : ¬ LoadsSound [shortSegment] shortFile 0 smallVm := by
  have hn : ¬ ReadableUntilFull shortFile 0 smallVm (loads [shortSegment]) := by
    intro h
    have hle : 121 ≤ 120 := h.1.2.1
    exact absurd hle (by decide)
  have hp : (loadElf [shortSegment] shortFile 0 smallVm).1 = .panic := loadSegments_panics 0 hn
  rintro (⟨e, he⟩ | ⟨lastAddr, vm', he, -⟩)
  · cases hp.symm.trans he
  · rw [he] at hp
    cases hp

end Hearth
