import Hearth.Host

/-!
# Loading a guest

Model of the parts of `main.rs` that both architectures load a kernel with: adding a memory region
and copying data or a file to an offset in it. The boot code of an architecture runs on a `Vm`,
which holds the guest memory, the registers of the vcpu and what the operating system will answer.

The files of the host do not change while they are loaded. `placed` lists what was copied, and
where, in the order of the copies; no code reads it.
-/

namespace Hearth
open Lib

/-- The errors of the boot code. `os` is an error the operating system reports. -/
inductive BootError where
  | noRegion
  | offsetExceeds
  | dataExceeds (offset : UInt64) (len memSize : Nat)
  | noLinuxImage
  | noDeviceTree
  | badElf
  | noNotes
  | noPvhEntry
  | descSize (size : Nat)
  | noRegister
  | os
  deriving DecidableEq, Repr

/-- The text of an error; those of the system and of the ELF parser are left to them. -/
def BootError.message : BootError → String
  | .noRegion => "Index exceeds memory region vector."
  | .offsetExceeds => "Offset exceeds memory region."
  | .dataExceeds offset len memSize =>
    "Data (" ++ hex offset.toNat ++ " " ++ hex len ++ ") would exceed memory region (" ++
      toString memSize ++ ")."
  | .noLinuxImage => "No Linux image specified."
  | .noDeviceTree => "Could not find device tree blob."
  | .noNotes => "No .notes found."
  | .noPvhEntry => "No valid PVH entry found."
  | .descSize size => "unexpected PHYS32_ENTRY descsz " ++ toString size
  | .noRegister => "Invalid register name."
  | .badElf | .os => ""

/-- What the operating system answers: the bytes of the file at a path, if it can be read, and the
    address of a new mapping of some size, if there is room for one. -/
structure Os where
  files : String → Option (List UInt8)
  mmap : (used : List Span) → (size : Nat) → Option Nat
  /-- a mapping lies in the address space of the process -/
  mmap_fits : ∀ {used size ptr}, mmap used size = some ptr → ptr + size ≤ 2 ^ 63
  /-- a mapping overlaps none that is in use -/
  mmap_apart : ∀ {used size ptr}, mmap used size = some ptr → ∀ s ∈ used, Span.Apart ⟨ptr, size⟩ s

/-- The arguments of the program that the boot code reads. -/
structure Args where
  linux : Option String
  memory : Option Nat
  dtb : Option String
  initramfs : Option String
  append : Option String

/-- The VM while its guest is loaded, with the process it is part of. -/
structure Vm where
  os : Os
  overflowChecks : Bool
  /-- which of the next calls to KVM fail; none once the list is used up -/
  ioctlFails : List Bool
  mem : Mem
  guestMemory : GuestMemory
  /-- the registers of the vcpu -/
  regs : String → UInt64
  placed : List (UInt64 × List UInt8)

/-- What the loaders do. -/
abbrev BootM (α : Type) : Type := Eff BootError Vm α

/-! ## The calls -/

/-- `a + b` on `u64`: a panic on overflow where overflow is checked, else modulo `2 ^ 64`. -/
def add (a b : UInt64) : BootM UInt64 := fun vm =>
  if vm.overflowChecks ∧ 2 ^ 64 ≤ a.toNat + b.toNat then (.panic, vm) else (.ok (a + b), vm)

/-- `a - b` on `u64`. -/
def sub (a b : UInt64) : BootM UInt64 := fun vm =>
  if vm.overflowChecks ∧ a < b then (.panic, vm) else (.ok (a - b), vm)

/-- A call to KVM. -/
def ioctl : BootM Unit := fun vm =>
  match vm.ioctlFails with
  | true :: fails => (.err .os, { vm with ioctlFails := fails })
  | false :: fails => (.ok (), { vm with ioctlFails := fails })
  | [] => (.ok (), vm)

/-- The bytes of a file. -/
def readFile (path : String) : BootM (List UInt8) := fun vm =>
  match vm.os.files path with
  | some bytes => (.ok bytes, vm)
  | none => (.err .os, vm)

/-- A new mapping, which reads as zeros. -/
def Vm.map (ptr memSize : Nat) (vm : Vm) : Vm :=
  { vm with mem := fun a => if a ∈ (⟨ptr, memSize⟩ : Span) then 0 else vm.mem a }

/-- The spans of the process that back guest memory. -/
def Vm.mapped (vm : Vm) : List Span := vm.guestMemory.map MemRegion.span

/-- `add_mem_region` -/
def addMemRegion (memSize : Nat) (guestPhysAddr : UInt64) : BootM Nat := fun vm =>
  match h : vm.os.mmap vm.mapped memSize with
  | none => (.err .os, vm)
  | some ptr =>
    let region : MemRegion :=
      ⟨ptr, memSize, guestPhysAddr, Nat.le_trans (vm.os.mmap_fits h) (by decide)⟩
    (do
      ioctl
      Eff.modify fun vm => { vm with guestMemory := vm.guestMemory ++ [region] }
      Eff.gets fun vm => vm.guestMemory.length - 1 : BootM Nat) (vm.map ptr memSize)

/-- The copy of `load_data_to_memory`. -/
def Vm.place (region : MemRegion) (data : List UInt8) (offset : UInt64) (vm : Vm) : Vm :=
  { vm with
    mem := vm.mem.write (region.memPtr + offset.toNat) data
    placed := vm.placed ++ [(offset, data)] }

section Place

variable (region : MemRegion) (data : List UInt8) (offset : UInt64) (vm : Vm)

/-- Placing data leaves the host alone. -/
@[simp] lemma Vm.place_os : (vm.place region data offset).os = vm.os := rfl

/-- Placing data leaves the failures that are to come. -/
@[simp] lemma Vm.place_ioctlFails : (vm.place region data offset).ioctlFails = vm.ioctlFails := rfl

/-- Placing data leaves the regions. -/
@[simp] lemma Vm.place_guestMemory :
    (vm.place region data offset).guestMemory = vm.guestMemory := rfl

/-- Placing writes the data to memory, at the offset in the region. -/
@[simp] lemma Vm.place_mem :
    (vm.place region data offset).mem = vm.mem.write (region.memPtr + offset.toNat) data := rfl

/-- Placing notes the offset and the data. -/
@[simp] lemma Vm.place_placed :
    (vm.place region data offset).placed = vm.placed ++ [(offset, data)] := rfl

end Place

/-- `load_data_to_memory`. The offset is less than the size of a mapping and the length of a `Vec`
    less than `2 ^ 63`, so that their sum does not overflow. -/
def loadDataToMemory (memRegionIdx : Nat) (data : List UInt8) (offset : UInt64) : BootM Nat := do
  let guestMemory ← Eff.gets Vm.guestMemory
  let region ← Eff.okOr guestMemory[memRegionIdx]? .noRegion
  if region.memSize ≤ offset.toNat then
    Eff.throw .offsetExceeds
  else if region.memSize < offset.toNat + data.length then
    Eff.throw (.dataExceeds offset data.length region.memSize)
  else do
    Eff.modify (Vm.place region data offset)
    pure data.length

/-- `load_file_to_memory` -/
def loadFileToMemory (memRegionIdx : Nat) (path : String) (offset : UInt64) : BootM Nat := do
  let res ← readFile path
  let guestMemory ← Eff.gets Vm.guestMemory
  let region ← Eff.unwrap guestMemory[memRegionIdx]?
  -- the address that is printed
  let _ ← add offset region.guestPhysAddr
  loadDataToMemory memRegionIdx res offset

/-! ## What they do -/

section Calls

variable {vm vm' : Vm} {idx n : Nat} {region : MemRegion} {data : List UInt8} {path : String}
  {a b c offset : UInt64}

/-- An addition that does not panic. -/
lemma add_ok (h : add a b vm = (.ok c, vm')) :
    vm' = vm ∧ c = a + b ∧ (vm.overflowChecks → a.toNat + b.toNat < 2 ^ 64) := by
  unfold add at h
  split at h
  · cases h
  · next hlt =>
    cases h
    refine ⟨rfl, rfl, fun hc => ?_⟩
    by_contra hle
    exact hlt ⟨hc, Nat.le_of_not_lt hle⟩

/-- A subtraction that does not panic. -/
lemma sub_ok (h : sub a b vm = (.ok c, vm')) : vm' = vm ∧ c = a - b := by
  unfold sub at h
  split at h
  · cases h
  · cases h; exact ⟨rfl, rfl⟩

/-- A call to KVM that succeeds changes nothing but the answers left. -/
lemma ioctl_ok (h : ioctl vm = (.ok (), vm')) : ∃ fails, vm' = { vm with ioctlFails := fails } := by
  unfold ioctl at h
  split at h
  · cases h
  · cases h; exact ⟨_, rfl⟩
  · cases h; exact ⟨_, rfl⟩

/-- A file that was read is there. -/
lemma readFile_ok (h : readFile path vm = (.ok data, vm')) :
    vm.os.files path = some data ∧ vm' = vm := by
  unfold readFile at h
  split at h
  · next e => cases h; exact ⟨e, rfl⟩
  · cases h

/-- A region that was added is the last one, and reads as zeros. -/
lemma addMemRegion_ok (h : addMemRegion n a vm = (.ok idx, vm')) :
    ∃ region fails, region.memSize = n ∧ region.guestPhysAddr = a ∧ idx = vm.guestMemory.length ∧
      vm.os.mmap vm.mapped n = some region.memPtr ∧
      vm' = { vm.map region.memPtr n with
        ioctlFails := fails, guestMemory := vm.guestMemory ++ [region] } := by
  unfold addMemRegion at h
  split at h
  · cases h
  · next ptr e =>
    obtain ⟨⟨⟩, vm1, h1, h2⟩ := Eff.bind_ok_iff.mp h
    obtain ⟨fails, rfl⟩ := ioctl_ok h1
    cases h2
    refine ⟨⟨ptr, n, a, _⟩, fails, rfl, rfl, ?_, e, rfl⟩
    show (vm.guestMemory ++ [_]).length - 1 = _
    rw [List.length_append]
    rfl

/-- Data that was loaded fits in the region. -/
lemma loadDataToMemory_ok (h : loadDataToMemory idx data offset vm = (.ok n, vm')) :
    ∃ region, vm.guestMemory[idx]? = some region ∧ offset.toNat < region.memSize ∧
      offset.toNat + data.length ≤ region.memSize ∧ n = data.length ∧
      vm' = vm.place region data offset := by
  unfold loadDataToMemory at h
  rw [Eff.gets_bind_run] at h
  obtain ⟨region, vm1, h1, h2⟩ := Eff.bind_ok_iff.mp h
  obtain ⟨hr, rfl⟩ := Eff.okOr_ok h1
  split at h2
  · cases h2
  · split at h2
    · cases h2
    · next hlt hle =>
      cases h2
      exact ⟨region, hr, by omega, by omega, rfl, rfl⟩

/-- A file that was loaded is data that was loaded. -/
lemma loadFileToMemory_ok (h : loadFileToMemory idx path offset vm = (.ok n, vm')) :
    ∃ bytes, vm.os.files path = some bytes ∧
      loadDataToMemory idx bytes offset vm = (.ok n, vm') := by
  unfold loadFileToMemory at h
  obtain ⟨bytes, vm1, h1, h2⟩ := Eff.bind_ok_iff.mp h
  obtain ⟨hf, rfl⟩ := readFile_ok h1
  rw [Eff.gets_bind_run] at h2
  obtain ⟨region, vm2, h3, h4⟩ := Eff.bind_ok_iff.mp h2
  obtain ⟨-, rfl⟩ := Eff.unwrap_ok h3
  obtain ⟨c, vm3, h5, h6⟩ := Eff.bind_ok_iff.mp h4
  obtain ⟨rfl, -, -⟩ := add_ok h5
  exact ⟨bytes, hf, h6⟩

/-! They succeed when the system's answers do and the data fits. -/

/-- An addition without overflow. -/
lemma add_run (hlt : a.toNat + b.toNat < 2 ^ 64) : add a b vm = (.ok (a + b), vm) :=
  if_neg fun h => absurd h.2 (Nat.not_le_of_lt hlt)

/-- A call to KVM that does not fail. -/
lemma ioctl_run (hk : vm.ioctlFails = []) : ioctl vm = (.ok (), vm) := by
  unfold ioctl
  rw [hk]

/-- A file that is there is read. -/
lemma readFile_run (hf : vm.os.files path = some data) : readFile path vm = (.ok data, vm) := by
  unfold readFile
  rw [hf]

/-- A region that the host can map is added. -/
lemma addMemRegion_run {ptr : Nat} (hm : vm.os.mmap vm.mapped n = some ptr)
    (hk : vm.ioctlFails = []) :
    ∃ region vm', addMemRegion n a vm = (.ok vm.guestMemory.length, vm') ∧
      vm'.guestMemory = vm.guestMemory ++ [region] ∧ region.memSize = n ∧ region.guestPhysAddr = a ∧
      vm'.os = vm.os ∧ vm'.ioctlFails = [] := by
  let region : MemRegion := ⟨ptr, n, a, Nat.le_trans (vm.os.mmap_fits hm) (by decide)⟩
  let vm' : Vm := { vm.map ptr n with guestMemory := vm.guestMemory ++ [region] }
  refine ⟨region, vm', ?_, rfl, rfl, rfl, rfl, hk⟩
  unfold addMemRegion
  split
  · next e => rw [hm] at e; cases e
  · next ptr' e =>
    cases hm.symm.trans e
    have e1 : ioctl (vm.map ptr n) = (.ok (), vm.map ptr n) := ioctl_run hk
    refine (Eff.bind_of_ok e1).trans ?_
    simp [Vm.map, vm', region]

/-- Data that fits is placed. -/
lemma loadDataToMemory_run (hr : vm.guestMemory[idx]? = some region)
    (hpos : offset.toNat < region.memSize) (hfit : offset.toNat + data.length ≤ region.memSize) :
    loadDataToMemory idx data offset vm = (.ok data.length, vm.place region data offset) := by
  unfold loadDataToMemory
  rw [Eff.gets_bind_run, hr, Eff.okOr_some, Eff.pure_bind_run, if_neg (Nat.not_le_of_lt hpos),
    if_neg (Nat.not_lt_of_le hfit)]
  rfl

/-- A file that fits is placed. -/
lemma loadFileToMemory_run (hf : vm.os.files path = some data)
    (hr : vm.guestMemory[idx]? = some region)
    (hpos : offset.toNat < region.memSize) (hfit : offset.toNat + data.length ≤ region.memSize)
    (hlt : offset.toNat + region.guestPhysAddr.toNat < 2 ^ 64) :
    loadFileToMemory idx path offset vm = (.ok data.length, vm.place region data offset) := by
  unfold loadFileToMemory
  rw [Eff.bind_of_ok (readFile_run hf), Eff.gets_bind_run, hr, Eff.unwrap_some, Eff.pure_bind_run,
    Eff.bind_of_ok (add_run hlt)]
  exact loadDataToMemory_run hr hpos hfit

end Calls

/-! ## What the guest memory holds -/

/-- The bytes of the file that an argument names; none without the argument. -/
def Vm.contents (vm : Vm) (arg : Option String) : List UInt8 := (arg.bind vm.os.files).getD []

/-- The region holds the bytes from the offset on. -/
def Vm.Holds (vm : Vm) (region : MemRegion) (offset : UInt64) (bytes : List UInt8) : Prop :=
  vm.mem.read (region.memPtr + offset.toNat) bytes.length = bytes

/-- Each byte is where it was placed. -/
lemma Vm.Holds.getElem {vm : Vm} {region : MemRegion} {offset : UInt64} {bytes : List UInt8}
    (h : vm.Holds region offset bytes) {i : Nat} (hi : i < bytes.length) :
    vm.mem (region.memPtr + offset.toNat + i) = bytes[i] := by
  have hlen : i < (vm.mem.read (region.memPtr + offset.toNat) bytes.length).length := by
    rw [Mem.read_length]
    exact hi
  rw [← Mem.read_getElem _ _ _ _ hlen]
  exact List.getElem_of_eq h hlen

/-! ## A system with room -/

/-- Where the last of some spans ends. -/
def topOf (used : List Span) : Nat := (used.map fun s => s.base + s.len).foldr max 0

/-- The top is above every span. -/
lemma le_topOf {used : List Span} {s : Span} (h : s ∈ used) : s.base + s.len ≤ topOf used := by
  induction used with
  | nil => cases h
  | cons t used ih =>
    rcases List.mem_cons.mp h with rfl | h
    · exact Nat.le_max_left ..
    · exact Nat.le_trans (ih h) (Nat.le_max_right ..)

/-- A system with some files that maps memory after what is in use. -/
def Os.ofFiles (files : String → Option (List UInt8)) : Os where
  files := files
  mmap used size := if topOf used + size ≤ 2 ^ 63 then some (topOf used) else none
  mmap_fits h := by
    split at h
    · next hle => cases h; exact hle
    · cases h
  mmap_apart h s hs := by
    split at h
    · cases h; exact (Span.apart_of_le (le_topOf hs)).symm
    · cases h

/-- A VM without memory on which all calls to KVM succeed. -/
def Vm.new (os : Os) : Vm where
  os := os
  overflowChecks := false
  ioctlFails := []
  mem := fun _ => 0
  guestMemory := []
  regs := fun _ => 0
  placed := []

end Hearth
