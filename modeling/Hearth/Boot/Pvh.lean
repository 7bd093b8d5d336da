import Hearth.Boot.Elf
import Hearth.Lib.Layout

/-!
# Booting a PVH kernel

Model of `linux_pvh_boot` of `arch/x86_64/init.rs`, with `parse_mem_size` of `main.rs`: guest memory
is added in one region, or two if it is larger than 3 GiB, the segments of the kernel and an
initramfs are loaded, and the structures of the PVH protocol are written, which tell the guest where
all this is. The ELF parser is a parameter.

The memory map is what the guest reads: `pvh_memmap_iff` follows it from the address in `rbx`
through the start info to the entries.
-/

namespace Hearth
open Lib

/-! ## The size of the memory -/

/-- `usize::from_str`, after the sign; the errors are the texts of `ParseIntError`. -/
def parseDigits : List Char → Nat → Except String Nat
  | [], num => .ok num
  | c :: cs, num =>
    if ¬ c.isDigit then .error "invalid digit found in string"
    else if 2 ^ 64 ≤ num * 10 + (c.toNat - '0'.toNat) then
      .error "number too large to fit in target type"
    else parseDigits cs (num * 10 + (c.toNat - '0'.toNat))

/-- `usize::from_str` -/
def parseUsize : List Char → Except String Nat
  | [] => .error "cannot parse integer from empty string"
  | '+' :: c :: cs => parseDigits (c :: cs) 0
  | cs => parseDigits cs 0

/-- The number and the unit of a size. -/
def splitUnit (arg : List Char) : List Char × Char :=
  match arg.getLast? with
  | some c => if c.isAlpha then (arg.dropLast, c.toUpper) else (arg, 'K')
  | none => (arg, 'K')

/-- The unit of a size. -/
def unitShift : Char → Except String Nat
  | 'K' => .ok 10
  | 'M' => .ok 20
  | 'G' => .ok 30
  | unit => .error ("unknown size suffix '" ++ unit.toString ++ "'")

/-- `parse_mem_size` -/
def parseMemSize (arg : String) : Except String Nat := do
  let shift ← unitShift (splitUnit arg.toList).2
  let num ← parseUsize (splitUnit arg.toList).1
  if num * 2 ^ shift < 2 ^ 64 ∧ 0 < num * 2 ^ shift then pure (num * 2 ^ shift)
  else .error ("invalid memory size " ++ arg)

/-! ## The structures of the protocol -/

/-- `HvmStartInfo` -/
structure HvmStartInfo where
  magic : UInt32
  version : UInt32
  flags : UInt32
  nrModules : UInt32
  modlistPaddr : UInt64
  cmdlinePaddr : UInt64
  rsdpPaddr : UInt64
  memmapPaddr : UInt64
  memmapEntries : UInt32
  reserved : UInt32
  deriving DecidableEq, Repr

/-- `HvmModlistEntry` -/
structure HvmModlistEntry where
  paddr : UInt64
  size : UInt64
  cmdlinePaddr : UInt64
  reserved : UInt64
  deriving DecidableEq, Repr

/-- `HvmMemmapEntry` -/
structure HvmMemmapEntry where
  addr : UInt64
  size : UInt64
  type : UInt32
  reserved : UInt32
  deriving DecidableEq, Repr

/-- The start info as it lies in memory. -/
instance : Layout HvmStartInfo :=
  Layout.via
    (fun i => (i.magic, i.version, i.flags, i.nrModules, i.modlistPaddr,
      i.cmdlinePaddr, i.rsdpPaddr,
      i.memmapPaddr, i.memmapEntries, i.reserved))
    (fun (magic, version, flags, nrModules, modlistPaddr, cmdlinePaddr, rsdpPaddr, memmapPaddr,
      memmapEntries, reserved) =>
      ⟨magic, version, flags, nrModules, modlistPaddr, cmdlinePaddr, rsdpPaddr, memmapPaddr,
        memmapEntries, reserved⟩)
    fun _ => rfl

/-- An entry of the module list as it lies in memory. -/
instance : Layout HvmModlistEntry :=
  Layout.via (fun e => (e.paddr, e.size, e.cmdlinePaddr, e.reserved))
    (fun (paddr, size, cmdlinePaddr, reserved) =>
      ⟨paddr, size, cmdlinePaddr, reserved⟩) fun _ => rfl

/-- An entry of the memory map as it lies in memory. -/
instance : Layout HvmMemmapEntry :=
  Layout.via (fun e => (e.addr, e.size, e.type, e.reserved))
    (fun (addr, size, type, reserved) => ⟨addr, size, type, reserved⟩) fun _ => rfl

/-! ## The kernel -/

/-- A note of a section: its type and its descriptor. -/
structure Note where
  nType : UInt32
  desc : List UInt8
  deriving DecidableEq, Repr

/-- What the ELF parser finds in a file: the program headers, and the notes of the section `.notes`
    if there is one. The notes may be no notes, and each of them may be malformed. -/
structure ElfFile where
  headers : List ProgramHeader
  notes : Option (Option (List (Option Note)))

/-- The loop of `try_pvh_entrypoint`. -/
def findEntry : List (Option Note) → BootM UInt64
  | [] => Eff.throw .noPvhEntry
  | none :: _ => Eff.panic
  | some note :: notes =>
    if note.nType = 18 then
      if note.desc.length = 4 then pure (Layout.decode note.desc : UInt32).toUInt64
      else if note.desc.length = 8 then pure (Layout.decode note.desc)
      else Eff.throw (.descSize note.desc.length)
    else findEntry notes

/-- `try_pvh_entrypoint` -/
def tryPvhEntrypoint (vmlinux : ElfFile) : BootM UInt64 := do
  let sectionNotes ← Eff.okOr vmlinux.notes .noNotes
  let notes ← Eff.unwrap sectionNotes
  findEntry notes

/-! ## The boot -/

/-- Where the low hole starts. -/
def ebdaStart : UInt64 := 0x9fc00
/-- Where the low hole ends. -/
def himemStart : UInt64 := 0x100000
/-- Where the high hole starts. -/
def mmioStart : UInt64 := 0xc0000000
/-- Where the high hole ends. -/
def highRamStart : UInt64 := 0x100000000
/-- Where the start info is put. -/
def hvmBase : UInt64 := 0x10000

/-- `(a + 0xfff) & !0xfff` -/
def pageAlign (a : UInt64) : BootM UInt64 := do
  let sum ← add a 0xfff
  pure (sum &&& ~~~0xfff)

/-- `Result::unwrap` -/
def unwrapResult {α : Type} (x : BootM α) : BootM α := fun vm =>
  match x vm with
  | (.err _, vm') => (.panic, vm')
  | r => r

/-- The bytes of a string. -/
def utf8 (s : String) : List UInt8 := s.toList.flatMap String.utf8EncodeChar

/-- The file name of a path: its last component, unless that is `..`. -/
def fileName (path : String) : String :=
  match ((path.toList.splitOn '/').filter fun c => c ≠ [] ∧ c ≠ ['.']).getLast? with
  | some name => if name = ['.', '.'] then "" else String.ofList name
  | none => ""

/-- The command line of the kernel. -/
def pvhCmdline (append : Option String) : String :=
  let cmdline :=
    "console=ttyS0,115200 root=/dev/vda virtio_mmio.device=4K@" ++ hex 0xd0000000 ++ ":" ++
    toString 5 ++ " virtio_mmio.device=4K@" ++ hex 0xd0010000 ++ ":" ++ toString 6
  match append with
  | some append => cmdline ++ " " ++ append
  | none => cmdline

/-- The RAM from 4 GiB on. -/
def addHighRegion (ramSize : UInt64) : BootM Unit :=
  if ramSize > mmioStart then do
    let _ ← addMemRegion (ramSize - mmioStart).toNat highRamStart
    pure ()
  else pure ()

/-- The module list, for an initramfs that is loaded with its name in front of it. -/
def loadModules (initramfs : Option String) (memIdx : Nat) (lastAddr : UInt64) :
    BootM (List HvmModlistEntry) :=
  match initramfs with
  | some initramfsPath => do
    let initrdCmdline := utf8 (fileName initramfsPath) ++ [0]
    let initrdCmdlineStart ← pageAlign lastAddr
    let _ ← loadDataToMemory memIdx initrdCmdline initrdCmdlineStart
    let initrdEnd ← add (UInt64.ofNat initrdCmdline.length) initrdCmdlineStart
    let initrdStart ← pageAlign initrdEnd
    let initramfsSize ← unwrapResult (loadFileToMemory memIdx initramfsPath initrdStart)
    pure [⟨initrdStart, UInt64.ofNat initramfsSize, initrdCmdlineStart, 0⟩]
  | none => pure []

/-- The entries of the memory map. -/
def memmapEntries (ramSize : UInt64) : BootM (List HvmMemmapEntry) := do
  let size ← sub (min ramSize mmioStart) himemStart
  pure ([⟨0, ebdaStart, 1, 0⟩, ⟨ebdaStart, himemStart - ebdaStart, 2, 0⟩,
    ⟨himemStart, size, 1, 0⟩] ++
    if ramSize > mmioStart then [⟨highRamStart, ramSize - mmioStart, 1, 0⟩] else [])

/-- The structures that the guest is told of. -/
def writeBootInfo (memIdx : Nat) (cmdline : List UInt8) (memmap : List HvmMemmapEntry)
    (modlist : List HvmModlistEntry) : BootM Unit := do
  let infoEnd ← add hvmBase 56
  let cmdlineStart ← pageAlign infoEnd
  let _ ← loadDataToMemory memIdx cmdline cmdlineStart
  let cmdlineEnd ← add cmdlineStart (UInt64.ofNat cmdline.length)
  let memmapStart ← pageAlign cmdlineEnd
  let _ ← loadDataToMemory memIdx (memmap.flatMap Layout.encode) memmapStart
  let memmapEnd ← add memmapStart (UInt64.ofNat (memmap.length * 24))
  let modlistStart ← pageAlign memmapEnd
  let _ ← loadDataToMemory memIdx (modlist.flatMap Layout.encode) modlistStart
  let hvmStartInfo : HvmStartInfo := {
    magic := Layout.decode [0x78, 0x45 ||| 0x80, 0x6e, 0x33]
    version := 1
    flags := 0
    nrModules := UInt32.ofNat modlist.length
    modlistPaddr := modlistStart
    cmdlinePaddr := cmdlineStart
    rsdpPaddr := 0
    memmapPaddr := memmapStart
    memmapEntries := UInt32.ofNat memmap.length
    reserved := 0 }
  let _ ← loadDataToMemory memIdx (Layout.encode hvmStartInfo) hvmBase
  pure ()

/-- The registers that the guest starts with, and `protected_mode_setup`, of
    whose registers nothing is kept. -/
def startRegs (pvhEntrypoint : UInt64) : BootM Unit := do
  ioctl
  ioctl
  Eff.modify fun vm =>
    let regs := Function.update (Function.update vm.regs "rip" pvhEntrypoint) "rbx" hvmBase
    { vm with regs := Function.update regs "rflags" 2 }
  ioctl
  ioctl

/-- `linux_pvh_boot` -/
def linuxPvhBoot (parse : List UInt8 → Option ElfFile) (args : Args) : BootM Unit := do
  let linux ← Eff.unwrap args.linux
  let vmlinuxData ← readFile linux
  let vmlinux ← Eff.okOr (parse vmlinuxData) .badElf
  let pvhEntrypoint ← tryPvhEntrypoint vmlinux
  -- RAM from `mmioStart` on moves to 4 GiB
  let ramSize := UInt64.ofNat (args.memory.getD (2 ^ 30))
  let linuxMemIdx ← addMemRegion (min ramSize mmioStart).toNat 0
  addHighRegion ramSize
  let lastAddr ← loadElf vmlinux.headers vmlinuxData linuxMemIdx
  let modlist ← loadModules args.initramfs linuxMemIdx lastAddr
  let memmap ← memmapEntries ramSize
  writeBootInfo linuxMemIdx (utf8 (pvhCmdline args.append)) memmap modlist
  startRegs pvhEntrypoint

/-! ## What the guest reads -/

/-- The value of type `α` at a guest address. -/
def Vm.guestLoad (vm : Vm) (α : Type) [Layout α] (gpa : UInt64) : Option α :=
  (gpaToHost vm.guestMemory gpa (Layout.size α)).map (vm.mem.load α)

/-- The `n` values of type `α` from a guest address on. -/
def Vm.guestLoadAll (vm : Vm) (α : Type) [Layout α] (gpa : UInt64) (n : Nat) : Option (List α) :=
  (gpaToHost vm.guestMemory gpa (n * Layout.size α)).map fun ptr => vm.mem.loadAll α ptr n

/-- The memory map, as a guest finds it from the start info that `rbx` has the address of. -/
def Vm.guestMemmap (vm : Vm) : Option (List HvmMemmapEntry) := do
  let info ← vm.guestLoad HvmStartInfo (vm.regs "rbx")
  vm.guestLoadAll HvmMemmapEntry info.memmapPaddr info.memmapEntries.toNat

/-- The addresses of an entry. -/
def HvmMemmapEntry.span (e : HvmMemmapEntry) : Span := ⟨e.addr.toNat, e.size.toNat⟩

/-- The entry is usable memory. -/
def HvmMemmapEntry.IsRam (e : HvmMemmapEntry) : Prop := e.type = 1

/-- The guest addresses of a region. -/
def MemRegion.gpaSpan (r : MemRegion) : Span := ⟨r.guestPhysAddr.toNat, r.memSize⟩

/-- The extended BIOS data and the ROMs below 1 MiB, and the addresses of devices. -/
def holes : List Span := [⟨0x9fc00, 0x100000 - 0x9fc00⟩, ⟨0xc0000000, 0x40000000⟩]

/-- The map describes the memory: its entries do not wrap, each ends before the next one starts, and
    those that are RAM have the bytes of guest memory that are in no hole. -/
structure Describes (map : List HvmMemmapEntry) (mem : GuestMemory) : Prop where
  bounded : ∀ e ∈ map, e.span.base + e.span.len ≤ 2 ^ 64
  sorted : map.Pairwise fun e e' => e.span.base + e.span.len ≤ e'.span.base
  backed : ∀ e ∈ map, e.IsRam → ∃ r ∈ mem, e.span.Inside r.gpaSpan
  apart : ∀ e ∈ map, e.IsRam → ∀ hole ∈ holes, e.span.Apart hole
  complete : ∀ r ∈ mem, ∀ a ∈ r.gpaSpan, (∀ hole ∈ holes, a ∉ hole) →
    ∃ e ∈ map, e.IsRam ∧ a ∈ e.span

/-- The memory map that a guest finds describes its memory. -/
def Vm.MapsMemory (vm : Vm) : Prop :=
  ∃ map, vm.guestMemmap = some map ∧ Describes map vm.guestMemory

/-! ## Copies -/

/-- The pieces are copied to a region, each to its offset, and have room there. -/
structure Placing (region : MemRegion) (pieces : List (UInt64 × List UInt8))
    (vm vm' : Vm) : Prop where
  guestMemory : vm'.guestMemory = vm.guestMemory
  overflowChecks : vm'.overflowChecks = vm.overflowChecks
  os : vm'.os = vm.os
  placed : vm'.placed = vm.placed ++ pieces
  room : ∀ p ∈ pieces, p.1.toNat + p.2.length ≤ region.memSize
  mem : vm'.mem = vm.mem.writes (pieces.map fun p => (region.memPtr + p.1.toNat, p.2))

section Copies

variable {region : MemRegion} {pieces pieces' : List (UInt64 × List UInt8)} {vm vm' vm'' : Vm}
  {idx n : Nat} {data : List UInt8} {a b r : UInt64}

/-- Placing nothing leaves the VM as it is. -/
lemma Placing.refl (region : MemRegion) (vm : Vm) : Placing region [] vm vm :=
  ⟨rfl, rfl, rfl, (List.append_nil _).symm, nofun, rfl⟩

/-- Pieces are placed one after the other. -/
lemma Placing.trans (h : Placing region pieces vm vm') (h' : Placing region pieces' vm' vm'') :
    Placing region (pieces ++ pieces') vm vm'' where
  guestMemory := h'.guestMemory.trans h.guestMemory
  overflowChecks := h'.overflowChecks.trans h.overflowChecks
  os := h'.os.trans h.os
  placed := by rw [h'.placed, h.placed, List.append_assoc]
  room := List.forall_mem_append.mpr ⟨h.room, h'.room⟩
  mem := by rw [h'.mem, h.mem, List.map_append, Mem.writes_append]

/-- Loading data to memory places it at the offset. -/
lemma loadDataToMemory_places (h : loadDataToMemory idx data a vm = (.ok n, vm'))
    (hr : vm.guestMemory[idx]? = some region) :
    Placing region [(a, data)] vm vm' ∧ n = data.length := by
  obtain ⟨region', hr', -, hle, rfl, rfl⟩ := loadDataToMemory_ok h
  cases hr.symm.trans hr'
  exact ⟨⟨rfl, rfl, rfl, rfl, List.forall_mem_singleton.mpr hle, rfl⟩, rfl⟩

/-- A sum that does not overflow. -/
lemma add_exact (h : add a b vm = (.ok r, vm')) (hlt : a.toNat + b.toNat < 2 ^ 64) :
    vm' = vm ∧ r.toNat = a.toNat + b.toNat := by
  obtain ⟨rfl, rfl, -⟩ := add_ok h
  refine ⟨rfl, ?_⟩
  rw [UInt64.toNat_add, Nat.mod_eq_of_lt hlt]

/-- The next page boundary. -/
def pageUp (n : Nat) : Nat := (n + 0xfff) / 4096 * 4096

/-- Rounding up does not go down. -/
lemma le_pageUp (n : Nat) : n ≤ pageUp n := by
  unfold pageUp
  omega

/-- The next page boundary, up to overflow. -/
def alignUp (a : UInt64) : UInt64 := (a + 0xfff) &&& ~~~0xfff

/-- An address is aligned up to its page. -/
lemma alignUp_toNat (hlt : a.toNat + 0xfff < 2 ^ 64) : (alignUp a).toNat = pageUp a.toNat := by
  unfold alignUp
  rw [UInt64.toNat_and]
  apply (and_highMask (k := 12) (UInt64.toNat_lt _) (by simp)).trans
  exact congrArg (· / 4096 * 4096) ((UInt64.toNat_add a 0xfff).trans (Nat.mod_eq_of_lt hlt))

/-- An address that was aligned. -/
lemma pageAlign_ok (h : pageAlign a vm = (.ok r, vm')) : vm' = vm ∧ r = alignUp a := by
  obtain ⟨sum, vm1, h1, h2⟩ := Eff.bind_ok_iff.mp h
  obtain ⟨rfl, rfl, -⟩ := add_ok h1
  cases h2
  exact ⟨rfl, rfl⟩

/-- The segments are copied. -/
lemma loadElf_places {headers : List ProgramHeader} {elfData : List UInt8}
    (h : loadElf headers elfData idx vm = (.ok a, vm')) (hr : vm.guestMemory[idx]? = some region) :
    Placing region ((loads headers).map fun ph => (ph.pPaddr, ph.bytes elfData)) vm vm' := by
  obtain ⟨hall, -, hcop⟩ := loadElf_ok h
  refine ⟨hcop.guestMemory, hcop.overflowChecks, hcop.os, hcop.placed, ?_, ?_⟩
  · intro p hp
    obtain ⟨ph, hph, rfl⟩ := List.mem_map.mp hp
    obtain ⟨hread, region', hr', -, hle⟩ := hall ph hph
    cases hr.symm.trans hr'
    show ph.pPaddr.toNat + (ph.bytes elfData).length ≤ region.memSize
    rw [hread.bytes_length]
    exact hle
  · rw [List.map_map]
    exact hcop.writes region hr

/-- A result that was unwrapped. -/
lemma unwrapResult_ok {α : Type} {x : BootM α} {y : α} (h : unwrapResult x vm = (.ok y, vm')) :
    x vm = (.ok y, vm') := by
  unfold unwrapResult at h
  split at h
  · cases h
  · exact h

/-- The initramfs follows its name, which follows the kernel. -/
lemma loadModules_ok {initramfs : Option String} {lastAddr : UInt64}
    {modlist : List HvmModlistEntry}
    (h : loadModules initramfs idx lastAddr vm = (.ok modlist, vm'))
    (hr : vm.guestMemory[idx]? = some region) (hs : region.memSize ≤ 2 ^ 63) :
    (initramfs = none ∧ modlist = [] ∧ vm' = vm) ∨
      ∃ path bytes start, initramfs = some path ∧ vm.os.files path = some bytes ∧
        modlist = [⟨start, UInt64.ofNat bytes.length, alignUp lastAddr, 0⟩] ∧
        Placing region [(alignUp lastAddr, utf8 (fileName path) ++ [0]), (start, bytes)] vm vm' ∧
        start.toNat = pageUp ((alignUp lastAddr).toNat + (utf8 (fileName path) ++ [0]).length) := by
  cases initramfs with
  | none =>
    cases h
    exact .inl ⟨rfl, rfl, rfl⟩
  | some path =>
    refine .inr ?_
    obtain ⟨nameStart, vm1, h1, h2⟩ := Eff.bind_ok_iff.mp h
    obtain ⟨rfl, rfl⟩ := pageAlign_ok h1
    obtain ⟨n, vm2, h3, h4⟩ := Eff.bind_ok_iff.mp h2
    obtain ⟨c1, -⟩ := loadDataToMemory_places h3 hr
    have hroom := c1.room _ List.mem_cons_self
    dsimp only at hroom
    obtain ⟨nameEnd, vm3, h5, h6⟩ := Eff.bind_ok_iff.mp h4
    have hlen : (UInt64.ofNat (utf8 (fileName path) ++ [0]).length).toNat =
        (utf8 (fileName path) ++ [0]).length :=
      UInt64.toNat_ofNat_of_lt' (by show _ < 2 ^ 64; omega)
    obtain ⟨rfl, hend⟩ := add_exact h5 (by omega)
    obtain ⟨start, vm4, h7, h8⟩ := Eff.bind_ok_iff.mp h6
    obtain ⟨rfl, rfl⟩ := pageAlign_ok h7
    obtain ⟨k, vm5, h9, h10⟩ := Eff.bind_ok_iff.mp h8
    obtain ⟨bytes, hf, h11⟩ := loadFileToMemory_ok (unwrapResult_ok h9)
    obtain ⟨c2, rfl⟩ := loadDataToMemory_places h11 (c1.guestMemory ▸ hr)
    cases h10
    refine ⟨path, bytes, _, rfl, c1.os ▸ hf, rfl, c1.trans c2, ?_⟩
    rw [alignUp_toNat (by omega), hend, hlen, Nat.add_comm]

/-- The start info that the boot writes. -/
def startInfo (memmapStart modlistStart : UInt64) (memmap modlist : Nat) : HvmStartInfo where
  magic := Layout.decode [0x78, 0x45 ||| 0x80, 0x6e, 0x33]
  version := 1
  flags := 0
  nrModules := UInt32.ofNat modlist
  modlistPaddr := modlistStart
  cmdlinePaddr := 0x11000
  rsdpPaddr := 0
  memmapPaddr := memmapStart
  memmapEntries := UInt32.ofNat memmap
  reserved := 0

/-- The pieces that the boot information consists of. -/
def bootPieces (cmdline : List UInt8) (memmap : List HvmMemmapEntry)
    (modlist : List HvmModlistEntry)
    (memmapStart modlistStart : UInt64) : List (UInt64 × List UInt8) :=
  [(0x11000, cmdline), (memmapStart, memmap.flatMap Layout.encode),
    (modlistStart, modlist.flatMap Layout.encode),
    (hvmBase, Layout.encode (startInfo memmapStart modlistStart memmap.length modlist.length))]

/-- Entries take their size each. -/
lemma flatMap_encode_length {α : Type} [Layout α] (xs : List α) :
    (xs.flatMap Layout.encode).length = xs.length * Layout.size α := by
  induction xs with
  | nil => exact (Nat.zero_mul _).symm
  | cons x xs ih =>
    rw [List.flatMap_cons, List.length_append, ih, Layout.encode_length,
      List.length_cons, Nat.succ_mul, Nat.add_comm]

/-- What is written for the guest, and where. -/
lemma writeBootInfo_ok {cmdline : List UInt8} {memmap : List HvmMemmapEntry}
    {modlist : List HvmModlistEntry}
    (h : writeBootInfo idx cmdline memmap modlist vm = (.ok (), vm'))
    (hr : vm.guestMemory[idx]? = some region) (hs : region.memSize ≤ 2 ^ 63) :
    ∃ memmapStart modlistStart : UInt64,
      memmapStart.toNat = pageUp (0x11000 + cmdline.length) ∧
      modlistStart.toNat = pageUp (memmapStart.toNat + memmap.length * 24) ∧
      Placing region (bootPieces cmdline memmap modlist memmapStart modlistStart) vm vm' := by
  unfold writeBootInfo at h
  obtain ⟨infoEnd, vm1, h1, h2⟩ := Eff.bind_ok_iff.mp h
  obtain ⟨rfl, rfl, -⟩ := add_ok h1
  obtain ⟨cmdlineStart, vm2, h3, h4⟩ := Eff.bind_ok_iff.mp h2
  obtain ⟨rfl, rfl⟩ := pageAlign_ok h3
  rw [show alignUp (hvmBase + 56) = 0x11000 from rfl] at h4
  -- each place starts at the page after the piece before it, and that the piece had room bounds it
  obtain ⟨n1, vm3, h5, h6⟩ := Eff.bind_ok_iff.mp h4
  obtain ⟨c1, -⟩ := loadDataToMemory_places h5 hr
  have hroom1 : 0x11000 + cmdline.length ≤ region.memSize := c1.room _ List.mem_cons_self
  obtain ⟨cmdlineEnd, vm4, h7, h8⟩ := Eff.bind_ok_iff.mp h6
  have hlen1 : (UInt64.ofNat cmdline.length).toNat = cmdline.length :=
    UInt64.toNat_ofNat_of_lt' (by show _ < 2 ^ 64; omega)
  have hbase : (0x11000 : UInt64).toNat = 0x11000 := rfl
  obtain ⟨rfl, hend1⟩ := add_exact h7 (by omega)
  obtain ⟨memmapStart, vm5, h9, h10⟩ := Eff.bind_ok_iff.mp h8
  obtain ⟨rfl, rfl⟩ := pageAlign_ok h9
  obtain ⟨n2, vm6, h11, h12⟩ := Eff.bind_ok_iff.mp h10
  obtain ⟨c2, -⟩ := loadDataToMemory_places h11 (c1.guestMemory ▸ hr)
  have hroom2 : (alignUp cmdlineEnd).toNat + (memmap.flatMap Layout.encode).length ≤
    region.memSize :=
    c2.room _ List.mem_cons_self
  rw [flatMap_encode_length] at hroom2
  have hsize : Layout.size HvmMemmapEntry = 24 := rfl
  rw [hsize] at hroom2
  obtain ⟨memmapEnd, vm7, h13, h14⟩ := Eff.bind_ok_iff.mp h12
  have hlen2 : (UInt64.ofNat (memmap.length * 24)).toNat = memmap.length * 24 :=
    UInt64.toNat_ofNat_of_lt' (by show _ < 2 ^ 64; omega)
  obtain ⟨rfl, hend2⟩ := add_exact h13 (by omega)
  obtain ⟨modlistStart, vm8, h15, h16⟩ := Eff.bind_ok_iff.mp h14
  obtain ⟨rfl, rfl⟩ := pageAlign_ok h15
  obtain ⟨n3, vm9, h17, h18⟩ := Eff.bind_ok_iff.mp h16
  obtain ⟨c3, -⟩ := loadDataToMemory_places h17 (c2.guestMemory ▸ c1.guestMemory ▸ hr)
  obtain ⟨n4, vm10, h19, h20⟩ := Eff.bind_ok_iff.mp h18
  obtain ⟨c4, -⟩ :=
    loadDataToMemory_places h19 (c3.guestMemory ▸ c2.guestMemory ▸ c1.guestMemory ▸ hr)
  cases h20
  refine ⟨_, _, ?_, ?_, ((c1.trans c2).trans c3).trans c4⟩
  · rw [alignUp_toNat (by omega), hend1, hlen1, hbase]
  · rw [alignUp_toNat (by omega), hend2, hlen2]

/-- A region that was added. -/
lemma addMemRegion_adds {k : Nat} (h : addMemRegion k a vm = (.ok idx, vm')) :
    ∃ region, region.memSize = k ∧ region.guestPhysAddr = a ∧ region.memPtr + k ≤ 2 ^ 63 ∧
      idx = vm.guestMemory.length ∧ vm'.guestMemory = vm.guestMemory ++ [region] ∧
      vm'.overflowChecks = vm.overflowChecks ∧ vm'.os = vm.os ∧ vm'.placed = vm.placed ∧
      vm'.mem = fun x => if x ∈ region.span then 0 else vm.mem x := by
  obtain ⟨region, fails, rfl, ha, hi, hm, rfl⟩ := addMemRegion_ok h
  exact ⟨region, rfl, ha, vm.os.mmap_fits hm, hi, rfl, rfl, rfl, rfl, rfl⟩

end Copies

/-! ## A boot -/

/-- The size of the memory that the arguments ask for. -/
def Args.ramSize (args : Args) : UInt64 := UInt64.ofNat (args.memory.getD (2 ^ 30))

/-- The RAM from 4 GiB on. -/
inductive HighRam (ramSize : UInt64) : GuestMemory → Prop where
  | none : ramSize ≤ mmioStart → HighRam ramSize []
  | some {r : MemRegion} : mmioStart < ramSize → r.memSize = (ramSize - mmioStart).toNat →
    r.guestPhysAddr = highRamStart → r.memPtr + r.memSize ≤ 2 ^ 63 → HighRam ramSize [r]

/-- The module list and what it lists, for an initramfs that follows its name. -/
inductive Modules (os : Os) (lastAddr : UInt64) :
    Option String → List HvmModlistEntry → List (UInt64 × List UInt8) → Prop where
  | none : Modules os lastAddr none [] []
  | some {path : String} {bytes : List UInt8} {start : UInt64} :
    os.files path = some bytes →
    start.toNat = pageUp ((alignUp lastAddr).toNat + (utf8 (fileName path) ++ [0]).length) →
    Modules os lastAddr (some path) [⟨start, UInt64.ofNat bytes.length, alignUp lastAddr, 0⟩]
      [(alignUp lastAddr, utf8 (fileName path) ++ [0]), (start, bytes)]

/-- The memory map that the boot writes. -/
def memmapOf (ramSize : UInt64) : List HvmMemmapEntry :=
  [⟨0, ebdaStart, 1, 0⟩, ⟨ebdaStart, himemStart - ebdaStart, 2, 0⟩,
    ⟨himemStart, min ramSize mmioStart - himemStart, 1, 0⟩] ++
    if ramSize > mmioStart then [⟨highRamStart, ramSize - mmioStart, 1, 0⟩] else []

/-- What a boot placed, and where. -/
structure BootPlan where
  file : List UInt8
  vmlinux : ElfFile
  region : MemRegion
  high : GuestMemory
  modlist : List HvmModlistEntry
  modules : List (UInt64 × List UInt8)
  memmapStart : UInt64
  modlistStart : UInt64

namespace BootPlan

/-- Where the last segment ends. -/
def lastAddr (plan : BootPlan) : UInt64 := lastOf 0 (loads plan.vmlinux.headers)

/-- The pieces of the kernel. -/
def segments (plan : BootPlan) : List (UInt64 × List UInt8) :=
  (loads plan.vmlinux.headers).map fun ph => (ph.pPaddr, ph.bytes plan.file)

/-- The pieces of the start info. -/
def info (plan : BootPlan) (args : Args) : List (UInt64 × List UInt8) :=
  bootPieces (utf8 (pvhCmdline args.append)) (memmapOf args.ramSize) plan.modlist plan.memmapStart
    plan.modlistStart

end BootPlan

/-- A VM was booted as planned. -/
structure Booted (parse : List UInt8 → Option ElfFile) (args : Args) (vm : Vm) (plan : BootPlan)
    (vm' : Vm) : Prop where
  kernel : ∃ linux, args.linux = some linux ∧ vm.os.files linux = some plan.file ∧
    parse plan.file = some plan.vmlinux
  readable : ∀ ph ∈ loads plan.vmlinux.headers, ph.Readable plan.file vm.overflowChecks
  size : plan.region.memSize = (min args.ramSize mmioStart).toNat
  start : plan.region.guestPhysAddr = 0
  high : HighRam args.ramSize plan.high
  guestMemory : vm'.guestMemory = plan.region :: plan.high
  modules : Modules vm.os plan.lastAddr args.initramfs plan.modlist plan.modules
  checked : vm.overflowChecks → himemStart ≤ args.ramSize
  memmapStart : plan.memmapStart.toNat = pageUp (0x11000 + (utf8 (pvhCmdline args.append)).length)
  modlistStart : plan.modlistStart.toNat =
    pageUp (plan.memmapStart.toNat + (memmapOf args.ramSize).length * 24)
  room : ∀ p ∈ plan.segments ++ plan.modules ++ plan.info args,
    p.1.toNat + p.2.length ≤ plan.region.memSize
  mem : ∃ mem : Mem, (∀ x ∈ plan.region.span, mem x = 0) ∧
    vm'.mem = mem.writes ((plan.segments ++ plan.modules ++ plan.info args).map
      fun p => (plan.region.memPtr + p.1.toNat, p.2))
  placed : vm'.placed = vm.placed ++ (plan.segments ++ plan.modules ++ plan.info args)
  rbx : vm'.regs "rbx" = hvmBase

section Boot

variable {parse : List UInt8 → Option ElfFile} {args : Args} {vm vm' : Vm} {ramSize : UInt64}

/-- The lesser of two addresses. -/
lemma toNat_min (a b : UInt64) : (min a b).toNat = min a.toNat b.toNat := by
  show (if a ≤ b then a else b).toNat = _
  split
  · next h => exact (Nat.min_eq_left h).symm
  · next h => exact (Nat.min_eq_right (Nat.le_of_not_le h)).symm

/-- The entry point is read from the file alone. -/
lemma findEntry_ok {notes : List (Option Note)} {entry : UInt64}
    (h : findEntry notes vm = (.ok entry, vm')) :
    vm' = vm := by
  induction notes with
  | nil => cases h
  | cons note notes ih =>
    cases note with
    | none => cases h
    | some note =>
      unfold findEntry at h
      split at h
      · split at h
        · cases h
          rfl
        · split at h
          · cases h
            rfl
          · cases h
      · exact ih h

/-- Looking for the entry point changes nothing. -/
lemma tryPvhEntrypoint_ok {vmlinux : ElfFile} {entry : UInt64}
    (h : tryPvhEntrypoint vmlinux vm = (.ok entry, vm')) : vm' = vm := by
  obtain ⟨sectionNotes, vm1, h1, h2⟩ := Eff.bind_ok_iff.mp h
  obtain ⟨-, rfl⟩ := Eff.okOr_ok h1
  obtain ⟨notes, vm2, h3, h4⟩ := Eff.bind_ok_iff.mp h2
  obtain ⟨-, rfl⟩ := Eff.unwrap_ok h3
  exact findEntry_ok h4

/-- Memory above the high hole is added if there is any. -/
lemma addHighRegion_ok (h : addHighRegion ramSize vm = (.ok (), vm')) :
    ∃ high, HighRam ramSize high ∧ vm'.guestMemory = vm.guestMemory ++ high ∧
      vm'.overflowChecks = vm.overflowChecks ∧ vm'.os = vm.os ∧ vm'.placed = vm.placed ∧
      ∀ x, vm.mem x = 0 → vm'.mem x = 0 := by
  unfold addHighRegion at h
  split at h
  · next hgt =>
    obtain ⟨idx, vm1, h1, h2⟩ := Eff.bind_ok_iff.mp h
    obtain ⟨region, hk, ha, hle, -, hg, hc, ho, hp, hm⟩ := addMemRegion_adds h1
    cases h2
    refine ⟨[region], .some hgt hk ha (hk ▸ hle), hg, hc, ho, hp, fun x hx => ?_⟩
    rw [hm]
    show (if x ∈ region.span then 0 else vm.mem x) = 0
    rw [hx, ite_self]
  · next hle =>
    cases h
    exact ⟨[], .none (UInt64.not_lt.mp hle), (List.append_nil _).symm, rfl, rfl, rfl,
      fun x hx => hx⟩

/-- The memory map that is built. -/
lemma memmapEntries_ok {memmap : List HvmMemmapEntry}
    (h : memmapEntries ramSize vm = (.ok memmap, vm')) :
    vm' = vm ∧ memmap = memmapOf ramSize ∧ (vm.overflowChecks → himemStart ≤ ramSize) := by
  obtain ⟨size, vm1, h1, h2⟩ := Eff.bind_ok_iff.mp h
  have hchecked : vm.overflowChecks → himemStart ≤ ramSize := by
    intro hc
    unfold sub at h1
    split at h1
    · cases h1
    · next hnot =>
      have hle : himemStart ≤ min ramSize mmioStart := UInt64.not_lt.mp fun hlt => hnot ⟨hc, hlt⟩
      have hnat : himemStart.toNat ≤ (min ramSize mmioStart).toNat := hle
      rw [toNat_min] at hnat
      exact Nat.le_trans hnat (Nat.min_le_left ..)
  obtain ⟨rfl, rfl⟩ := sub_ok h1
  cases h2
  exact ⟨rfl, rfl, hchecked⟩

/-- The registers are set, and `rbx` has the start info's address. -/
lemma startRegs_ok {entry : UInt64} (h : startRegs entry vm = (.ok (), vm')) :
    vm'.mem = vm.mem ∧ vm'.guestMemory = vm.guestMemory ∧ vm'.placed = vm.placed ∧
      vm'.regs "rbx" = hvmBase := by
  obtain ⟨⟨⟩, vm1, h1, h2⟩ := Eff.bind_ok_iff.mp h
  obtain ⟨fails1, rfl⟩ := ioctl_ok h1
  obtain ⟨⟨⟩, vm2, h3, h4⟩ := Eff.bind_ok_iff.mp h2
  obtain ⟨fails2, rfl⟩ := ioctl_ok h3
  rw [Eff.modify_bind_run] at h4
  obtain ⟨⟨⟩, vm3, h5, h6⟩ := Eff.bind_ok_iff.mp h4
  obtain ⟨fails3, rfl⟩ := ioctl_ok h5
  obtain ⟨fails4, rfl⟩ := ioctl_ok h6
  exact ⟨rfl, rfl, rfl, rfl⟩

/-- What a boot that returns did. -/
lemma linuxPvhBoot_ok (h : linuxPvhBoot parse args vm = (.ok (), vm')) (h0 : vm.guestMemory = []) :
    ∃ plan, Booted parse args vm plan vm' := by
  unfold linuxPvhBoot at h
  obtain ⟨linux, vm1, h1, h2⟩ := Eff.bind_ok_iff.mp h
  obtain ⟨hlinux, rfl⟩ := Eff.unwrap_ok h1
  obtain ⟨file, vm2, h3, h4⟩ := Eff.bind_ok_iff.mp h2
  obtain ⟨hfile, rfl⟩ := readFile_ok h3
  obtain ⟨vmlinux, vm3, h5, h6⟩ := Eff.bind_ok_iff.mp h4
  obtain ⟨hparse, rfl⟩ := Eff.okOr_ok h5
  obtain ⟨entry, vm4, h7, h8⟩ := Eff.bind_ok_iff.mp h6
  cases tryPvhEntrypoint_ok h7
  -- the memory
  obtain ⟨idx, vm5, h9, h10⟩ := Eff.bind_ok_iff.mp h8
  obtain ⟨region, hsize, hstart, hptr, rfl, hg1, hc1, ho1, hp1, hm1⟩ := addMemRegion_adds h9
  obtain ⟨⟨⟩, vm6, h11, h12⟩ := Eff.bind_ok_iff.mp h10
  obtain ⟨high, hhigh, hg2, hc2, ho2, hp2, hm2⟩ := addHighRegion_ok h11
  have hmem : vm6.guestMemory = region :: high := by rw [hg2, hg1, h0]; rfl
  have hr : vm6.guestMemory[vm3.guestMemory.length]? = some region := by rw [hmem, h0]; rfl
  have hs : region.memSize ≤ 2 ^ 63 := hsize ▸ Nat.le_trans (Nat.le_add_left _ _) hptr
  -- what is loaded
  obtain ⟨lastAddr, vm7, h13, h14⟩ := Eff.bind_ok_iff.mp h12
  have c1 := loadElf_places h13 hr
  obtain ⟨hall, rfl, -⟩ := loadElf_ok h13
  obtain ⟨modlist, vm8, h15, h16⟩ := Eff.bind_ok_iff.mp h14
  have hr7 : vm7.guestMemory[vm3.guestMemory.length]? = some region := c1.guestMemory ▸ hr
  obtain ⟨modules, hmodules, c2⟩ :
    ∃ modules, Modules vm3.os (lastOf 0 (loads vmlinux.headers)) args.initramfs
      modlist modules ∧ Placing region modules vm7 vm8 := by
    rcases loadModules_ok h15 hr7 hs with ⟨e, rfl, rfl⟩ | ⟨path, bytes, start, e, hf, rfl, c, hst⟩
    · rw [e]
      exact ⟨[], .none, .refl region vm8⟩
    · rw [e]
      exact ⟨_, .some (by rw [← ho1, ← ho2, ← c1.os]; exact hf) hst, c⟩
  obtain ⟨memmap, vm9, h17, h18⟩ := Eff.bind_ok_iff.mp h16
  obtain ⟨rfl, rfl, hchecked⟩ := memmapEntries_ok h17
  obtain ⟨⟨⟩, vm10, h19, h20⟩ := Eff.bind_ok_iff.mp h18
  obtain ⟨memmapStart, modlistStart, hmap, hmod, c3⟩ :=
    writeBootInfo_ok h19 (c2.guestMemory ▸ hr7) hs
  obtain ⟨hm, hg, hp, hrbx⟩ := startRegs_ok h20
  have c := (c1.trans c2).trans c3
  have hchecks : vm9.overflowChecks = vm3.overflowChecks := by
    rw [c2.overflowChecks, c1.overflowChecks, hc2, hc1]
  exact ⟨⟨file, vmlinux, region, high, modlist, modules, memmapStart, modlistStart⟩, {
    kernel := ⟨linux, hlinux, hfile, hparse⟩
    readable := fun ph hph => by rw [← hc1, ← hc2]; exact (hall ph hph).1
    size := hsize
    start := hstart
    high := hhigh
    guestMemory := by rw [hg, c.guestMemory, hmem]
    modules := hmodules
    checked := by rw [← hchecks]; exact hchecked
    memmapStart := hmap
    modlistStart := hmod
    room := c.room
    mem := ⟨vm6.mem, fun x hx => hm2 x (by rw [hm1]; exact if_pos hx), hm.trans c.mem⟩
    placed := by rw [hp, c.placed, hp2, hp1]; rfl
    rbx := hrbx }⟩

/-! ## The map that the guest finds -/

variable {plan : BootPlan}

/-- An address of the first region is at that offset in it. -/
lemma Booted.gpaToHost (hb : Booted parse args vm plan vm') {gpa : UInt64} {len : Nat}
    (hle : gpa.toNat + len ≤ plan.region.memSize) :
    gpaToHost vm'.guestMemory gpa len = some (plan.region.memPtr + gpa.toNat) := by
  have hmapped := plan.region.mapped
  have hsize := hb.size
  rw [toNat_min] at hsize
  have hlt : gpa.toNat + len < 2 ^ 64 := by
    have hmmio : mmioStart.toNat = 0xc0000000 := rfl
    omega
  have hoff : gpa - plan.region.guestPhysAddr = gpa := by rw [hb.start]; exact UInt64.sub_zero gpa
  have hge : plan.region.guestPhysAddr ≤ gpa := by rw [hb.start]; exact Nat.zero_le _
  unfold Hearth.gpaToHost
  rw [hb.guestMemory, List.findSome?_cons, if_pos hge, hoff, if_pos ⟨hlt, hle⟩]

/-- The boot information does not overlap itself, so that each piece of it can be read. -/
lemma Booted.info_read (hb : Booted parse args vm plan vm') :
    ∀ p ∈ plan.info args, vm'.mem.read (plan.region.memPtr + p.1.toNat) p.2.length = p.2 := by
  obtain ⟨mem, -, hmem⟩ := hb.mem
  have hmap := hb.memmapStart
  have hmod := hb.modlistStart
  have hle1 := le_pageUp (0x11000 + (utf8 (pvhCmdline args.append)).length)
  have hle2 := le_pageUp (plan.memmapStart.toNat + (memmapOf args.ramSize).length * 24)
  have hbase : (0x11000 : UInt64).toNat = 0x11000 := rfl
  have hinfo : hvmBase.toNat = 0x10000 := rfl
  have hsize : Layout.size HvmStartInfo = 56 := rfl
  have hentry : Layout.size HvmMemmapEntry = 24 := rfl
  have apart : ((plan.info args).map fun p => (plan.region.memPtr + p.1.toNat, p.2)).Pairwise
      fun w w' => (Mem.target w).Apart (Mem.target w') := by
    simp only [BootPlan.info, bootPieces, List.map_cons, List.map_nil, List.pairwise_cons,
      List.mem_cons,
      List.not_mem_nil, or_false, forall_eq_or_imp, forall_eq, Mem.target, Span.apart_iff,
      flatMap_encode_length, Layout.encode_length, hbase, hinfo, hsize, hentry]
    refine ⟨⟨?_, ?_, ?_⟩, ⟨?_, ?_⟩, ?_, fun _ h => h.elim, .nil⟩ <;> omega
  intro p hp
  rw [hmem, List.map_append, Mem.writes_append]
  exact Mem.read_writes_apart apart _ (List.mem_map_of_mem hp)

/-- The memory map has so few entries that their number fits its field. -/
lemma memmapOf_length (ramSize : UInt64) : (memmapOf ramSize).length < 2 ^ 32 := by
  unfold memmapOf
  split
  · exact (by decide : 4 < 2 ^ 32)
  · exact (by decide : 3 < 2 ^ 32)

/-- The guest finds the start info where `rbx` points. -/
lemma Booted.guestInfo (hb : Booted parse args vm plan vm') :
    vm'.guestLoad HvmStartInfo (vm'.regs "rbx") =
      some (startInfo plan.memmapStart plan.modlistStart
        (memmapOf args.ramSize).length plan.modlist.length) := by
  have hmem : (hvmBase, Layout.encode (startInfo plan.memmapStart plan.modlistStart
      (memmapOf args.ramSize).length plan.modlist.length)) ∈ plan.info args :=
    .tail _ (.tail _ (.tail _ (.head _)))
  have hroom := hb.room _ (List.mem_append_right _ hmem)
  rw [Layout.encode_length] at hroom
  unfold Vm.guestLoad
  rw [hb.rbx, hb.gpaToHost hroom]
  exact congrArg some (Mem.load_of_read (hb.info_read _ hmem))

/-- The guest finds the map that was written. -/
lemma Booted.guestMemmap (hb : Booted parse args vm plan vm') :
    vm'.guestMemmap = some (memmapOf args.ramSize) := by
  have hmem : (plan.memmapStart, (memmapOf args.ramSize).flatMap Layout.encode) ∈ plan.info args :=
    .tail _ (.head _)
  have hroom := hb.room _ (List.mem_append_right _ hmem)
  rw [flatMap_encode_length] at hroom
  have hlen : (UInt32.ofNat (memmapOf args.ramSize).length).toNat =
    (memmapOf args.ramSize).length :=
    UInt32.toNat_ofNat_of_lt' (memmapOf_length _)
  unfold Vm.guestMemmap
  rw [hb.guestInfo]
  show vm'.guestLoadAll HvmMemmapEntry plan.memmapStart
    (UInt32.ofNat (memmapOf args.ramSize).length).toNat = _
  unfold Vm.guestLoadAll
  rw [hlen, hb.gpaToHost hroom]
  exact congrArg some (Mem.loadAll_of_read (hb.info_read _ hmem))

/-! ## When the map describes the memory -/

/-- The entry of the RAM below the extended BIOS data. -/
def lowEntry : HvmMemmapEntry := ⟨0, ebdaStart, 1, 0⟩

/-- The entry of what is reserved below 1 MiB. -/
def reservedEntry : HvmMemmapEntry := ⟨ebdaStart, himemStart - ebdaStart, 2, 0⟩

/-- An entry of RAM. -/
def ramEntry (addr size : UInt64) : HvmMemmapEntry := ⟨addr, size, 1, 0⟩

/-- The map of a small memory. -/
lemma memmapOf_low (h : ramSize ≤ mmioStart) :
    memmapOf ramSize = [lowEntry, reservedEntry, ramEntry himemStart (ramSize - himemStart)] := by
  unfold memmapOf
  rw [if_neg (UInt64.not_lt.mpr h), List.append_nil, show min ramSize mmioStart =
    ramSize from if_pos h]
  rfl

/-- The map of a memory with a part above the high hole. -/
lemma memmapOf_high (h : mmioStart < ramSize) :
    memmapOf ramSize = [lowEntry, reservedEntry, ramEntry himemStart (mmioStart - himemStart),
      ramEntry highRamStart (ramSize - mmioStart)] := by
  unfold memmapOf
  rw [if_pos h, show min ramSize mmioStart = mmioStart from if_neg (UInt64.not_le.mpr h)]
  rfl

/-- Outside of both holes. -/
lemma not_mem_holes_iff {a : Nat} : (∀ hole ∈ holes, a ∉ hole) ↔
    ¬ (0x9fc00 ≤ a ∧ a < 0x100000) ∧ ¬ (0xc0000000 ≤ a ∧ a < 0x100000000) := by
  simp only [holes, List.forall_mem_cons, List.not_mem_nil, false_imp_iff, implies_true,
    and_true, Span.mem_iff]

/-- Apart from both holes. -/
lemma apart_holes_iff {s : Span} : (∀ hole ∈ holes, s.Apart hole) ↔
    (s.len = 0 ∨ s.base + s.len ≤ 0x9fc00 ∨ 0x100000 ≤ s.base) ∧
      (s.len = 0 ∨ s.base + s.len ≤ 0xc0000000 ∨ 0x100000000 ≤ s.base) := by
  simp only [holes, List.forall_mem_cons, List.not_mem_nil, false_imp_iff, implies_true, and_true,
    Span.apart_iff]
  omega

/-- The memory below the low hole. -/
lemma lowEntry_span : lowEntry.span = ⟨0, 0x9fc00⟩ := rfl

/-- The reserved entry is the low hole. -/
lemma reservedEntry_span : reservedEntry.span = ⟨0x9fc00, 0x60400⟩ := rfl

/-- The reserved entry is not usable memory. -/
lemma reservedEntry_not_ram : ¬ reservedEntry.IsRam := by
  unfold HvmMemmapEntry.IsRam
  decide

/-- A map of RAM around the reserved entry describes memory that it has the spans of. -/
lemma describes_of_spans {entries : List HvmMemmapEntry} {mem : GuestMemory}
    (hram : ∀ e ∈ entries, e.IsRam)
    (bounded : ∀ e ∈ entries, 0x100000 ≤ e.span.base ∧ e.span.base + e.span.len ≤ 2 ^ 64)
    (sorted : entries.Pairwise fun e e' => e.span.base + e.span.len ≤ e'.span.base)
    (apart : ∀ e ∈ entries, e.span.base + e.span.len ≤ 0xc0000000 ∨ 0x100000000 ≤ e.span.base)
    (lowest : ∃ r ∈ mem, Span.Inside ⟨0, 0x9fc00⟩ r.gpaSpan)
    (backed : ∀ e ∈ entries, ∃ r ∈ mem, e.span.Inside r.gpaSpan)
    (complete : ∀ r ∈ mem, ∀ a ∈ r.gpaSpan, 0x100000 ≤ a → (a < 0xc0000000 ∨ 0x100000000 ≤ a) →
      ∃ e ∈ entries, a ∈ e.span) :
    Describes (lowEntry :: reservedEntry :: entries) mem := by
  constructor
  · refine List.forall_mem_cons.mpr
      ⟨?_, List.forall_mem_cons.mpr ⟨?_, fun e he => (bounded e he).2⟩⟩
    · rw [lowEntry_span]
      decide
    · rw [reservedEntry_span]
      decide
  · refine .cons (List.forall_mem_cons.mpr ⟨?_, fun e he => ?_⟩) (.cons (fun e he => ?_) sorted)
    · rw [lowEntry_span, reservedEntry_span]
      decide
    · rw [lowEntry_span]
      exact Nat.le_trans (by decide) (bounded e he).1
    · rw [reservedEntry_span]
      exact (bounded e he).1
  · refine List.forall_mem_cons.mpr ⟨fun _ => lowest,
      List.forall_mem_cons.mpr ⟨fun h => ?_, fun e he _ => ?_⟩⟩
    · exact absurd h reservedEntry_not_ram
    · exact backed e he
  · refine List.forall_mem_cons.mpr ⟨fun _ => ?_,
      List.forall_mem_cons.mpr ⟨fun h => ?_, fun e he _ => ?_⟩⟩
    · rw [lowEntry_span, apart_holes_iff]
      decide
    · exact absurd h reservedEntry_not_ram
    · exact apart_holes_iff.mpr ⟨.inr (.inr (bounded e he).1), .inr (apart e he)⟩
  · intro r hr a ha hole
    obtain ⟨h1, h2⟩ := not_mem_holes_iff.mp hole
    by_cases hlow : a < 0x9fc00
    · refine ⟨lowEntry, List.mem_cons_self, rfl, ?_⟩
      rw [lowEntry_span]
      exact ⟨Nat.zero_le a, by rw [Nat.zero_add]; exact hlow⟩
    · obtain ⟨e, he, hmem⟩ := complete r hr a ha (by omega) (by omega)
      exact ⟨e, .tail _ (.tail _ he), hram e he, hmem⟩

/-- Up to 3 GiB, the RAM from 1 MiB on is in one region. -/
lemma describes_low {region : MemRegion} (hlow : ramSize ≤ mmioStart) (hle : himemStart ≤ ramSize)
    (hspan : region.gpaSpan = ⟨0, ramSize.toNat⟩) : Describes (memmapOf ramSize) [region] := by
  have hbase : (ramEntry himemStart (ramSize - himemStart)).span.base = 0x100000 := rfl
  have hlen : (ramEntry himemStart (ramSize - himemStart)).span.len = ramSize.toNat - 0x100000 :=
    UInt64.toNat_sub_of_le _ _ hle
  have hrbase : region.gpaSpan.base = 0 := congrArg Span.base hspan
  have hrlen : region.gpaSpan.len = ramSize.toNat := congrArg Span.len hspan
  have hge : 0x100000 ≤ ramSize.toNat := hle
  have hmmio : ramSize.toNat ≤ 0xc0000000 := hlow
  rw [memmapOf_low hlow]
  apply describes_of_spans
  · exact List.forall_mem_singleton.mpr rfl
  · exact List.forall_mem_singleton.mpr ⟨Nat.le_of_eq hbase.symm, by omega⟩
  · exact List.pairwise_singleton ..
  · exact List.forall_mem_singleton.mpr (.inl (by omega))
  · exact ⟨region, .head _, Span.inside_of_le (Nat.le_of_eq hrbase) (by dsimp only; omega)⟩
  · exact List.forall_mem_singleton.mpr ⟨region, .head _, Span.inside_of_le (by omega) (by omega)⟩
  · rw [List.forall_mem_singleton]
    intro a ha h1 _
    rw [Span.mem_iff] at ha
    exact ⟨_, .head _, by rw [Span.mem_iff]; omega⟩

/-- Beyond 3 GiB, the rest is in another region from 4 GiB on. -/
lemma describes_high {region r : MemRegion} (hhigh : mmioStart < ramSize)
    (hspan : region.gpaSpan = ⟨0, 0xc0000000⟩)
    (hrest : r.gpaSpan = ⟨0x100000000, ramSize.toNat - 0xc0000000⟩)
    (hlt : r.memPtr + r.memSize ≤ 2 ^ 63) :
    Describes (memmapOf ramSize) [region, r] := by
  have pair {α : Type} {P : α → Prop} {x y : α} (hx : P x) (hy : P y) : ∀ z ∈ [x, y], P z :=
    List.forall_mem_cons.mpr ⟨hx, List.forall_mem_singleton.mpr hy⟩
  have hbase : (ramEntry himemStart (mmioStart - himemStart)).span.base = 0x100000 := rfl
  have hlen : (ramEntry himemStart (mmioStart - himemStart)).span.len = 0xbff00000 := rfl
  have htbase : (ramEntry highRamStart (ramSize - mmioStart)).span.base = 0x100000000 := rfl
  have htlen : (ramEntry highRamStart (ramSize - mmioStart)).span.len =
    ramSize.toNat - 0xc0000000 :=
    UInt64.toNat_sub_of_le _ _ (UInt64.le_of_lt hhigh)
  have hrbase : region.gpaSpan.base = 0 := congrArg Span.base hspan
  have hrlen : region.gpaSpan.len = 0xc0000000 := congrArg Span.len hspan
  have hsbase : r.gpaSpan.base = 0x100000000 := congrArg Span.base hrest
  have hslen : r.memSize = ramSize.toNat - 0xc0000000 := congrArg Span.len hrest
  have hslen' : r.gpaSpan.len = ramSize.toNat - 0xc0000000 := hslen
  rw [memmapOf_high hhigh]
  apply describes_of_spans
  · exact pair rfl rfl
  · exact pair ⟨Nat.le_of_eq hbase.symm, by omega⟩ ⟨by omega, by omega⟩
  · exact .cons (List.forall_mem_singleton.mpr (by omega)) (List.pairwise_singleton ..)
  · exact pair (.inl (by omega)) (.inr (by omega))
  · exact ⟨region, .head _, Span.inside_of_le (Nat.le_of_eq hrbase) (by dsimp only; omega)⟩
  · exact pair ⟨region, .head _, Span.inside_of_le (by omega) (by omega)⟩
      ⟨r, .tail _ (.head _), Span.inside_of_le (by omega) (by omega)⟩
  · apply pair
    · intro a ha h1 _
      rw [Span.mem_iff] at ha
      exact ⟨_, .head _, by rw [Span.mem_iff]; omega⟩
    · intro a ha _ _
      rw [Span.mem_iff] at ha
      exact ⟨_, .tail _ (.head _), by rw [Span.mem_iff]; omega⟩

/-- For a size of at least 1 MiB the map describes the memory. -/
lemma Booted.describes (hb : Booted parse args vm plan vm') (hle : himemStart ≤ args.ramSize) :
    Describes (memmapOf args.ramSize) vm'.guestMemory := by
  have hsize := hb.size
  rw [toNat_min] at hsize
  have hmmio : mmioStart.toNat = 0xc0000000 := rfl
  have hspan : plan.region.gpaSpan = ⟨0, min args.ramSize.toNat mmioStart.toNat⟩ := by
    unfold MemRegion.gpaSpan
    rw [hb.start, hsize]
    rfl
  have hhigh := hb.high
  rw [hb.guestMemory]
  generalize plan.high = high at hhigh
  rcases hhigh with hlow | ⟨hhigh, hrest, hstart, hlt⟩
  · rw [Nat.min_eq_left (UInt64.le_iff_toNat_le.mp hlow)] at hspan
    exact describes_low hlow hle hspan
  · rw [Nat.min_eq_right (UInt64.le_iff_toNat_le.mp (UInt64.le_of_lt hhigh)), hmmio] at hspan
    refine describes_high hhigh hspan ?_ hlt
    unfold MemRegion.gpaSpan
    rw [hrest, hstart, UInt64.toNat_sub_of_le _ _ (UInt64.le_of_lt hhigh), hmmio]
    rfl

/-- Without 1 MiB of memory, the RAM from 1 MiB on ends after the address space. -/
lemma not_describes {mem : GuestMemory} (hpos : 0 < ramSize.toNat) (hlt : ramSize < himemStart) :
    ¬ Describes (memmapOf ramSize) mem := by
  intro h
  have hlow : ramSize ≤ mmioStart := UInt64.le_of_lt (UInt64.lt_trans hlt (by decide))
  have hb := h.bounded
  rw [memmapOf_low hlow] at hb
  have hle : 0x100000 + (ramSize - himemStart).toNat ≤ 2 ^ 64 := hb _ (.tail _ (.tail _ (.head _)))
  have hlt' : ramSize.toNat < 0x100000 := hlt
  have hhimem : himemStart.toNat = 0x100000 := rfl
  rw [UInt64.toNat_sub, hhimem] at hle
  omega

/-- A guest with less than 1 MiB of memory finds no map of it. -/
lemma Booted.not_mapsMemory (hb : Booted parse args vm plan vm') (hpos : 0 < args.ramSize.toNat)
    (hlt : args.ramSize < himemStart) : ¬ vm'.MapsMemory := by
  rintro ⟨map, hmap, hd⟩
  cases hmap.symm.trans hb.guestMemmap
  exact not_describes hpos hlt hd

/-- A size that was parsed. -/
lemma parseMemSize_ok {arg : String} {size : Nat} (h : parseMemSize arg = .ok size) :
    0 < size ∧ size < 2 ^ 64 := by
  unfold parseMemSize at h
  cases h1 : unitShift (splitUnit arg.toList).2 with
  | error e =>
    rw [h1] at h
    cases h
  | ok shift =>
    cases h2 : parseUsize (splitUnit arg.toList).1 with
    | error e =>
      rw [h1, h2] at h
      cases h
    | ok num =>
      rw [h1, h2] at h
      change (if num * 2 ^ shift < 2 ^ 64 ∧ 0 < num * 2 ^ shift then _ else _) = _ at h
      split at h
      · next hlt =>
        cases h
        exact hlt.symm
      · cases h

/-- A guest whose boot returns finds a map of its memory exactly if it has 1 MiB of it. -/
theorem pvh_memmap_iff (parse : List UInt8 → Option ElfFile) (args : Args) (vm vm' : Vm)
    (hsize : ∀ size, args.memory = some size → ∃ arg, parseMemSize arg = .ok size)
    (h0 : vm.guestMemory = []) (h : linuxPvhBoot parse args vm = (.ok (), vm')) :
    vm'.MapsMemory ↔ 2 ^ 20 ≤ args.memory.getD (2 ^ 30) := by
  obtain ⟨plan, hb⟩ := linuxPvhBoot_ok h h0
  obtain ⟨hpos, hlt⟩ : 0 < args.memory.getD (2 ^ 30) ∧ args.memory.getD (2 ^ 30) < 2 ^ 64 := by
    cases hm : args.memory with
    | none => decide
    | some size =>
      obtain ⟨arg, ha⟩ := hsize size hm
      exact parseMemSize_ok ha
  have hram : args.ramSize.toNat = args.memory.getD (2 ^ 30) := UInt64.toNat_ofNat_of_lt' hlt
  rw [← hram] at hpos ⊢
  constructor
  · intro hmaps
    by_contra hn
    exact hb.not_mapsMemory hpos (Nat.lt_of_not_le hn) hmaps
  · intro hle
    exact ⟨_, hb.guestMemmap, hb.describes hle⟩

end Boot

/-! ## A small kernel -/

/-- An ELF64 file with a segment of four bytes at 128 KiB and a note with the PVH entry point. -/
def tinyKernel : List UInt8 :=
  [0x7f, 0x45, 0x4c, 0x46, 2, 1, 1, 0, 0, 0, 0, 0, 0, 0, 0, 0] ++ toLE 2 2 ++
    toLE 2 62 ++ toLE 4 1 ++
    toLE 8 0x20000 ++ toLE 8 64 ++ toLE 8 168 ++ toLE 4 0 ++ toLE 2 64 ++ toLE 2 56 ++ toLE 2 1 ++
    toLE 2 64 ++ toLE 2 3 ++ toLE 2 2 ++
  -- the program header
  toLE 4 1 ++ toLE 4 5 ++ toLE 8 120 ++ toLE 8 0x20000 ++ toLE 8 0x20000 ++ toLE 8 4 ++
    toLE 8 4 ++ toLE 8 4 ++
  -- the code and the note
  [0xf4, 0xeb, 0xfd, 0x90] ++ toLE 4 4 ++ toLE 4 4 ++ toLE 4 18 ++ [0x58, 0x65, 0x6e, 0] ++
    toLE 4 0x20000 ++
  -- the names of the sections, and the sections
  [0] ++ utf8 ".notes" ++ [0] ++ utf8 ".shstrtab" ++ List.replicate 7 0 ++
  List.replicate 64 0 ++
  toLE 4 1 ++ toLE 4 7 ++ toLE 8 0 ++ toLE 8 0 ++ toLE 8 124 ++ toLE 8 20 ++ toLE 8 0 ++
    toLE 8 4 ++ toLE 8 0 ++
  toLE 4 8 ++ toLE 4 3 ++ toLE 8 0 ++ toLE 8 0 ++ toLE 8 144 ++ toLE 8 18 ++ toLE 8 0 ++
    toLE 8 1 ++ toLE 8 0

/-- An ELF file with one segment of four bytes. -/
def parseTiny (file : List UInt8) : Option ElfFile :=
  if file = tinyKernel then
    some ⟨[⟨ptLoad, 120, 4, 0x20000, 4⟩], some (some [some ⟨18, toLE 4 0x20000⟩])⟩
  else none

/-- The arguments of a boot of the small kernel with some memory. -/
def tinyArgs (size : Nat) : Args := ⟨some "tiny", some size, none, none, none⟩

/-- A host that has this kernel under every path. -/
def tinyVm : Vm := Vm.new (Os.ofFiles fun _ => some tinyKernel)

/-- A result with what it leaves. -/
lemma ok_of_fst {α : Type} {x : BootM α} {y : α} {vm : Vm} (h : (x vm).1 = .ok y) :
    x vm = (.ok y, (x vm).2) :=
  Prod.ext h rfl

/-- With 512 KiB, which is an accepted size, the boot returns and the map
has memory that there is not. -/
theorem pvh_memmap_below_mebibyte : parseMemSize "512K" = .ok 0x80000 ∧
    ∃ vm', linuxPvhBoot parseTiny (tinyArgs 0x80000) tinyVm = (.ok (), vm') ∧ ¬ vm'.MapsMemory := by
  have hrun : (linuxPvhBoot parseTiny (tinyArgs 0x80000) tinyVm).1 = .ok () := by decide +kernel
  refine ⟨by decide +kernel, _, ok_of_fst hrun, ?_⟩
  obtain ⟨plan, hb⟩ := linuxPvhBoot_ok (ok_of_fst hrun) rfl
  exact hb.not_mapsMemory (by decide) (by decide)

/-- With 2 MiB the guest finds a map of its memory. -/
theorem pvh_memmap_two_mebibytes :
    ∃ vm', linuxPvhBoot parseTiny (tinyArgs 0x200000) tinyVm = (.ok (), vm') ∧
    vm'.MapsMemory := by
  have hrun : (linuxPvhBoot parseTiny (tinyArgs 0x200000) tinyVm).1 = .ok () := by decide +kernel
  have hsize : ∀ size, (tinyArgs 0x200000).memory = some size →
    ∃ arg, parseMemSize arg = .ok size := by
    intro size h
    cases h
    exact ⟨"2M", by decide +kernel⟩
  refine ⟨_, ok_of_fst hrun, ?_⟩
  exact (pvh_memmap_iff parseTiny (tinyArgs 0x200000) tinyVm _ hsize rfl (ok_of_fst hrun)).mpr
    (by decide)

end Hearth
