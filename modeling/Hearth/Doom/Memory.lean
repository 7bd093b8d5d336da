import Hearth.Boot.Placement

/-!
# The guest's memory

`setup_memory` of `guests/doom/kvm.c`: the guest reads the boot information that `linux_pvh_boot`
left in its memory, with structs of its own, registers the modules as files and gives what is above
the image and the modules, up to the end of the RAM they are in, to the heap.
-/

namespace Hearth.Doom.Memory

open Lib

/-! ## The structs -/

/-- `struct hvm_start_info` -/
structure StartInfo where
  magic : UInt32
  version : UInt32
  flags : UInt32
  nrModules : UInt32
  modlistPaddr : UInt64
  cmdlinePaddr : UInt64
  rsdpPaddr : UInt64
  memmapPaddr : UInt64
  memmapEntries : UInt32
  reserved : UInt32
  deriving DecidableEq, Repr

/-- `struct hvm_modlist_entry` -/
structure ModlistEntry where
  paddr : UInt64
  size : UInt64
  cmdlinePaddr : UInt64
  reserved : UInt64
  deriving DecidableEq, Repr

/-- `struct hvm_memmap_entry` -/
structure MemmapEntry where
  addr : UInt64
  size : UInt64
  type : UInt32
  reserved : UInt32
  deriving DecidableEq, Repr

/-- The fields are at multiples of their sizes, so that nothing is between them. -/
instance : Layout StartInfo :=
  Layout.via
    (fun i => (i.magic, i.version, i.flags, i.nrModules, i.modlistPaddr, i.cmdlinePaddr,
      i.rsdpPaddr, i.memmapPaddr,
      i.memmapEntries, i.reserved))
    (fun (magic, version, flags, nrModules, modlistPaddr, cmdlinePaddr, rsdpPaddr, memmapPaddr,
      memmapEntries,
      reserved) =>
      ⟨magic, version, flags, nrModules, modlistPaddr, cmdlinePaddr, rsdpPaddr, memmapPaddr,
        memmapEntries, reserved⟩)
    fun _ => rfl

/-- An entry of the module list as the guest declares it. -/
instance : Layout ModlistEntry :=
  Layout.via (fun e => (e.paddr, e.size, e.cmdlinePaddr, e.reserved))
    (fun (paddr, size, cmdlinePaddr, reserved) =>
      ⟨paddr, size, cmdlinePaddr, reserved⟩) fun _ => rfl

/-- An entry of the memory map as the guest declares it. -/
instance : Layout MemmapEntry :=
  Layout.via (fun e => (e.addr, e.size, e.type, e.reserved))
    (fun (addr, size, type, reserved) => ⟨addr, size, type, reserved⟩) fun _ => rfl

/-! ## setup_memory -/

/-- `XEN_HVM_START_MAGIC` -/
def xenHvmStartMagic : UInt32 := 0x336ec578

/-- `E820_RAM` -/
def e820Ram : UInt32 := 1

/-- The name that a module is registered with. -/
inductive Name where
  /-- the literal of `setup_memory` -/
  | module
  /-- the string at this address -/
  | string (addr : UInt64)
  deriving DecidableEq, Repr

/-- A call of `memfs_add`. -/
structure Module where
  name : Name
  data : UInt64
  size : UInt64
  deriving DecidableEq, Repr

/-- `mods[i].cmdline_paddr ? … : ""`, and `"module"` for a name that is empty. -/
def moduleName (vm : Vm) (cmdlinePaddr : UInt64) : Option Name :=
  if cmdlinePaddr = 0 then some .module
  else do
    let c ← vm.guestLoad UInt8 cmdlinePaddr
    some (if c = 0 then .module else .string cmdlinePaddr)

/-- The loop over the modules, with `start` before it and after it. -/
def addModules (vm : Vm) : List ModlistEntry → UInt64 → Option (List Module × UInt64)
  | [], start => some ([], start)
  | mod :: mods, start => do
    let name ← moduleName vm mod.cmdlinePaddr
    let (modules, start) ← addModules vm mods (if mod.paddr + mod.size > start then mod.paddr +
      mod.size else start)
    some (⟨name, mod.paddr, mod.size⟩ :: modules, start)

/-- The loop over the memory map: the end of the last RAM with `start` in it, or 0. -/
def ramEnd (map : List MemmapEntry) (start : UInt64) : UInt64 :=
  map.foldl (fun stop e =>
    if e.type = e820Ram ∧ e.addr ≤ start ∧ start < e.addr + e.size then e.addr + e.size else stop) 0

/-- How `setup_memory` ends. -/
inductive Outcome where
  /-- `heap_init` -/
  | heap (start stop : UInt64)
  /-- "[kvm] no RAM above the image" -/
  | powerOff
  deriving DecidableEq, Repr

/-- `setup_memory`, for an image that ends at `imageEnd`; `none` is an
access outside of the memory. -/
def setupMemory (vm : Vm) (imageEnd si : UInt64) : Option (List Module × Outcome) := do
  let info ← vm.guestLoad StartInfo si
  let mods ← vm.guestLoadAll ModlistEntry info.modlistPaddr info.nrModules.toNat
  let (modules, start) ← addModules vm mods imageEnd
  let map ← vm.guestLoadAll MemmapEntry info.memmapPaddr info.memmapEntries.toNat
  let stop := ramEnd map start
  some (modules, if stop = 0 then .powerOff else .heap start stop)

/-! ## What the guest should find -/

/-- The string of C at an address, without its NUL. -/
def StringAt (vm : Vm) (addr : UInt64) (s : List UInt8) : Prop :=
  0 ∉ s ∧ vm.guestLoadAll UInt8 addr (s.length + 1) = some (s ++ [0])

/-- The start info as the guest reads it. -/
def StartInfo.ofHost (i : HvmStartInfo) : StartInfo :=
  ⟨i.magic, i.version, i.flags, i.nrModules, i.modlistPaddr, i.cmdlinePaddr, i.rsdpPaddr,
    i.memmapPaddr,
    i.memmapEntries, i.reserved⟩

/-- An entry of the module list as the guest reads it. -/
def ModlistEntry.ofHost (e : HvmModlistEntry) : ModlistEntry :=
  ⟨e.paddr, e.size, e.cmdlinePaddr, e.reserved⟩

/-- An entry of the memory map as the guest reads it. -/
def MemmapEntry.ofHost (e : HvmMemmapEntry) : MemmapEntry := ⟨e.addr, e.size, e.type, e.reserved⟩

/-- The image is in the memory from 1 MiB on, as the linker script lays it out,
and `load_elf` finds its end. -/
structure LinkedAt (headers : List ProgramHeader) (imageEnd : UInt64) : Prop where
  above : ∀ ph ∈ loads headers, 0x100000 ≤ ph.memSpan.base ∧
    ph.memSpan.base + ph.memSpan.len ≤ imageEnd.toNat
  last : lastOf 0 (loads headers) = imageEnd
  high : 0x100000 ≤ imageEnd.toNat
  /-- it can be rounded up to a page -/
  page : imageEnd.toNat + 0xfff < 2 ^ 64

/-- What the guest finds of an initramfs: its bytes and its name. -/
def FindsModule (vm : Vm) (path : String) (bytes : List UInt8) (mod : ModlistEntry) : Prop :=
  mod.size.toNat = bytes.length ∧ vm.guestLoadAll UInt8 mod.paddr mod.size.toNat = some bytes ∧
    StringAt vm mod.cmdlinePaddr (utf8 (fileName path))

/-- The guest finds what the boot was to tell it. -/
structure Finds (plan : BootPlan) (args : Args) (os : Os) (vm : Vm) (info : StartInfo)
    (mods : List ModlistEntry) (map : List MemmapEntry) : Prop where
  startInfo : vm.guestLoad StartInfo (vm.regs "rbx") = some info
  magic : info.magic = xenHvmStartMagic
  modlist : vm.guestLoadAll ModlistEntry info.modlistPaddr info.nrModules.toNat = some mods
  memmap : vm.guestLoadAll MemmapEntry info.memmapPaddr info.memmapEntries.toNat = some map
  cmdline : StringAt vm info.cmdlinePaddr (utf8 (pvhCmdline args.append))
  memory : map = (memmapOf args.ramSize).map MemmapEntry.ofHost
  modules : mods = plan.modlist.map ModlistEntry.ofHost
  noModule : args.initramfs = none → mods = []
  module : ∀ path, args.initramfs = some path → ∃ bytes mod, os.files path = some bytes ∧
    mods = [mod] ∧
    FindsModule vm path bytes mod

/-- The image, from 1 MiB on. -/
def imageSpan (imageEnd : UInt64) : Span := ⟨0x100000, imageEnd.toNat - 0x100000⟩

/-- What is reserved below 1 MiB. -/
def reservedSpan : Span := ⟨0x9fc00, 0x100000 - 0x9fc00⟩

/-- A heap that the guest can use. -/
structure Usable (plan : BootPlan) (args : Args) (vm : Vm)
    (imageEnd start stop : UInt64) : Prop where
  nonempty : start < stop
  backed : ∃ r ∈ vm.guestMemory, Span.Inside ⟨start.toNat, stop.toNat - start.toNat⟩ r.gpaSpan
  apart : ∀ s ∈ imageSpan imageEnd :: reservedSpan :: plan.spans args,
    Span.Apart ⟨start.toNat, stop.toNat - start.toNat⟩ s

/-- The image or the module ends where there is no memory. -/
def NoRoom (plan : BootPlan) (vm : Vm) (imageEnd : UInt64) : Prop :=
  ∃ s ∈ imageSpan imageEnd :: plan.modules.map pieceSpan, ∀ r ∈ vm.guestMemory,
    s.base + s.len ∉ r.gpaSpan

variable {parse : List UInt8 → Option ElfFile} {args : Args} {vm vm' : Vm} {plan : BootPlan}
    {imageEnd start : UInt64}

/-! ## Reading -/

/-- Guest and VMM agree on the start info. -/
lemma guestLoad_startInfo (vm : Vm) (gpa : UInt64) :
    vm.guestLoad StartInfo gpa = (vm.guestLoad HvmStartInfo gpa).map StartInfo.ofHost := by
  unfold Vm.guestLoad
  rw [Option.map_map]
  rfl

/-- Guest and VMM agree on the module list. -/
lemma loadAll_modlist (m : Mem) (a n : Nat) :
    m.loadAll ModlistEntry a n = (m.loadAll HvmModlistEntry a n).map ModlistEntry.ofHost := by
  induction n generalizing a with
  | zero => rfl
  | succ n ih => exact congrArg _ (ih _)

/-- Guest and VMM agree on the memory map. -/
lemma loadAll_memmap (m : Mem) (a n : Nat) :
    m.loadAll MemmapEntry a n = (m.loadAll HvmMemmapEntry a n).map MemmapEntry.ofHost := by
  induction n generalizing a with
  | zero => rfl
  | succ n ih => exact congrArg _ (ih _)

/-- The module list as the guest reads it at a guest address. -/
lemma guestLoadAll_modlist (vm : Vm) (gpa : UInt64) (n : Nat) :
    vm.guestLoadAll ModlistEntry gpa n =
      (vm.guestLoadAll HvmModlistEntry gpa n).map (·.map ModlistEntry.ofHost) := by
  unfold Vm.guestLoadAll
  rw [Option.map_map]
  exact congrArg (Option.map · _) (funext fun ptr => loadAll_modlist vm.mem ptr n)

/-- The memory map as the guest reads it at a guest address. -/
lemma guestLoadAll_memmap (vm : Vm) (gpa : UInt64) (n : Nat) :
    vm.guestLoadAll MemmapEntry gpa n =
      (vm.guestLoadAll HvmMemmapEntry gpa n).map (·.map MemmapEntry.ofHost) := by
  unfold Vm.guestLoadAll
  rw [Option.map_map]
  exact congrArg (Option.map · _) (funext fun ptr => loadAll_memmap vm.mem ptr n)

/-! ## The places -/

/-- The command line is short, and it and the paths have no NUL, which
no argument of a process has. -/
structure Plain (args : Args) : Prop where
  short : ∀ append, args.append = some append → (utf8 append).length < 2 ^ 17
  append : ∀ append, args.append = some append → 0 ∉ utf8 append
  path : ∀ path, args.initramfs = some path → 0 ∉ utf8 path

/-- The command line with what is appended. -/
lemma pvhCmdline_bytes (append : String) :
    utf8 (pvhCmdline (some append)) = utf8 (pvhCmdline none) ++ utf8 " " ++ utf8 append := by
  show utf8 (pvhCmdline none ++ " " ++ append) = _
  rw [utf8_append, utf8_append]

/-- The command line is short enough for its pages. -/
lemma pvhCmdline_le (h : Plain args) : (utf8 (pvhCmdline args.append)).length < 2 ^ 17 + 256 := by
  have base : (utf8 (pvhCmdline none)).length < 255 := by decide +kernel
  cases happend : args.append with
  | none => exact Nat.lt_of_lt_of_le base (by decide)
  | some append =>
    have hshort := h.short append happend
    have space : (utf8 " ").length = 1 := by decide
    rw [pvhCmdline_bytes, List.length_append, List.length_append, space]
    omega

/-- The memory map is short. -/
lemma memmapOf_length_le (ramSize : UInt64) : (memmapOf ramSize).length ≤ 4 := by
  unfold memmapOf
  split
  · exact (by decide : 4 ≤ 4)
  · exact (by decide : 3 ≤ 4)

/-- The boot information ends below what is reserved below 1 MiB. -/
lemma info_below (h : Plain args) : modlistAt args + 32 ≤ 0x9fc00 := by
  have hcmdline := pvhCmdline_le h
  have hentries := memmapOf_length_le args.ramSize
  unfold modlistAt memmapAt pageUp
  omega

/-- All of the start info lies below the low hole. -/
lemma infoSpans_below (h : Plain args) : ∀ s ∈ infoSpans args, s.base + s.len ≤ 0x9fc00 := by
  have hend := info_below h
  have hcmdline := le_pageUp (0x11000 + (utf8 (pvhCmdline args.append)).length)
  have hentries := le_pageUp (memmapAt args + (memmapOf args.ramSize).length * 24)
  unfold infoSpans
  refine List.forall_mem_cons.mpr ⟨?_, List.forall_mem_cons.mpr ⟨?_, List.forall_mem_cons.mpr ⟨?_,
    List.forall_mem_singleton.mpr (by decide)⟩⟩⟩
  · show 0x11000 + (utf8 (pvhCmdline args.append)).length ≤ _
    unfold modlistAt memmapAt at hend
    unfold memmapAt at hentries
    omega
  · show memmapAt args + (memmapOf args.ramSize).length * 24 ≤ _
    unfold modlistAt at hend
    omega
  · show modlistAt args + (if args.initramfs.isSome then 32 else 0) ≤ _
    split <;> omega

/-- The name of an initramfs follows the image, and the initramfs its name. -/
lemma nameAt_le (h : LinkedAt plan.vmlinux.headers imageEnd) :
    imageEnd.toNat ≤ nameAt plan.vmlinux.headers := by
  unfold nameAt
  rw [h.last, alignUp_toNat h.page]
  exact le_pageUp _

/-- The initramfs is clear of it, for a kernel linked above. -/
lemma modulesClear (plain : Plain args) (h : LinkedAt plan.vmlinux.headers imageEnd) (path : String)
    (bytes : List UInt8) : ModulesClear plan.vmlinux.headers args path bytes := by
  have hend := info_below plain
  have hname := nameAt_le h
  have hhigh := h.high
  exact .inl (by omega)

/-- What is placed after the segments does not overlap, so that the memory has it. -/
lemma later_read (hb : Booted parse args vm plan vm') (plain : Plain args)
    (h : LinkedAt plan.vmlinux.headers imageEnd) : ∀ p ∈ plan.modules ++ plan.info args,
      vm'.mem.read (plan.region.memPtr + p.1.toNat) p.2.length = p.2 := by
  have apart : ((plan.modules ++ plan.info args).map pieceSpan).Pairwise Span.Apart := by
    rw [List.map_append, hb.infoSpans, List.pairwise_append]
    rcases hb.moduleSpans with ⟨-, hmodules⟩ | ⟨path, bytes, hpath, -, hmodules⟩
    · rw [hmodules]
      exact ⟨.nil, infoSpans_apart args, fun s hs => by cases hs⟩
    · rw [hmodules]
      refine ⟨name_apart_initrd _ _ _, infoSpans_apart args, ?_⟩
      exact (modulesClear_iff _ hpath).mpr (modulesClear plain h path bytes)
  intro p hp
  obtain ⟨mem, -, hmem⟩ := hb.mem
  rw [hmem, List.append_assoc, List.map_append, Mem.writes_append]
  refine Mem.read_writes_apart (List.pairwise_map.mpr ?_) _ (List.mem_map_of_mem hp)
  exact (List.pairwise_map.mp apart).imp (target_apart plan.region.memPtr)

/-- All the pieces are in the memory. -/
lemma guestLoadAll_piece {α : Type} [Layout α] (hb : Booted parse args vm plan vm')
    (plain : Plain args) (h : LinkedAt plan.vmlinux.headers imageEnd) {gpa : UInt64} {xs : List α}
    (hp : (gpa, xs.flatMap Layout.encode) ∈ plan.modules ++ plan.info args) :
    vm'.guestLoadAll α gpa xs.length = some xs := by
  have placed : (gpa, xs.flatMap Layout.encode) ∈ plan.segments ++ plan.modules ++
    plan.info args := by
    rw [List.append_assoc]
    exact List.mem_append_right _ hp
  have hroom := hb.room _ placed
  rw [flatMap_encode_length] at hroom
  unfold Vm.guestLoadAll
  rw [hb.gpaToHost hroom]
  exact congrArg some (Mem.loadAll_of_read (later_read hb plain h _ hp))

/-! ## The command line -/

/-- Where the command line ends. -/
def cmdlineEnd (args : Args) : Nat := 0x11000 + (utf8 (pvhCmdline args.append)).length

/-- Modules are placed above 1 MiB. -/
lemma moduleSpan_high (hb : Booted parse args vm plan vm')
    (h : LinkedAt plan.vmlinux.headers imageEnd)
    {p : UInt64 × List UInt8} (hp : p ∈ plan.modules) : imageEnd.toNat ≤ (pieceSpan p).base := by
  have hname := nameAt_le h
  rcases hb.moduleSpans with ⟨-, hmodules⟩ | ⟨path, bytes, -, -, hmodules⟩
  · rw [hmodules] at hp
    cases hp
  · have hspan := List.mem_map_of_mem (f := pieceSpan) hp
    rw [hmodules] at hspan
    rcases List.mem_cons.mp hspan with e | hspan
    · rw [e]
      exact hname
    · rw [List.mem_singleton.mp hspan]
      exact Nat.le_trans (Nat.le_trans hname (Nat.le_add_right _ _)) (le_pageUp _)

/-- Nothing is placed between the command line and the next page. -/
lemma cmdlineEnd_outside (hb : Booted parse args vm plan vm') (plain : Plain args)
    (h : LinkedAt plan.vmlinux.headers imageEnd) (hlt : cmdlineEnd args < memmapAt args) :
    ∀ p ∈ plan.segments ++ plan.modules ++ plan.info args, cmdlineEnd args ∉ pieceSpan p := by
  have hbelow : cmdlineEnd args < 0x100000 := by
    have hcmdline := pvhCmdline_le plain
    unfold cmdlineEnd
    omega
  have hhigh := h.high
  intro p hp hmem
  rcases List.mem_append.mp hp with hp | hp
  · rcases List.mem_append.mp hp with hp | hp
    · obtain ⟨ph, hph, rfl⟩ := List.mem_map.mp hp
      have inside := hb.segment_inside hph _ hmem
      have above := (h.above ph hph).1
      have hle : ph.memSpan.base ≤ cmdlineEnd args := inside.1
      omega
    · have base := moduleSpan_high hb h hp
      have hle : (pieceSpan p).base ≤ cmdlineEnd args := hmem.1
      omega
  · have hspan := List.mem_map_of_mem (f := pieceSpan) hp
    rw [hb.infoSpans] at hspan
    have outside : ∀ s ∈ infoSpans args, cmdlineEnd args ∉ s := by
      have hmodlist := le_pageUp (memmapAt args + (memmapOf args.ramSize).length * 24)
      unfold infoSpans modlistAt
      unfold cmdlineEnd at *
      simp only [List.forall_mem_cons, List.not_mem_nil, false_imp_iff, implies_true,
        and_true, Span.mem_iff]
      omega
    exact outside _ hspan hmem

/-- The memory map starts with a zero byte, the low one of its first address. -/
lemma memmap_head (ramSize : UInt64) :
    ∃ bytes, (memmapOf ramSize).flatMap Layout.encode = 0 :: bytes := ⟨_, rfl⟩

/-- The end of the command line is in the memory. -/
lemma cmdlineEnd_lt (hb : Booted parse args vm plan vm') :
    cmdlineEnd args < plan.region.memSize := by
  have memmap : (plan.memmapStart, (memmapOf args.ramSize).flatMap Layout.encode) ∈
      plan.segments ++ plan.modules ++ plan.info args := List.mem_append_right _ (.tail _ (.head _))
  have hroom := hb.room _ memmap
  rw [hb.memmapAt, flatMap_encode_length] at hroom
  have hpos := memmapOf_pos args.ramSize
  have hsize : Layout.size HvmMemmapEntry = 24 := rfl
  have hle : cmdlineEnd args ≤ memmapAt args := le_pageUp (cmdlineEnd args)
  rw [hsize] at hroom
  omega

/-- The first byte that is read is the one at the address. -/
lemma read_head {m : Mem} {a : Nat} {c : UInt8} {bytes : List UInt8}
    (read : m.read a (c :: bytes).length = c :: bytes) : m a = c := by
  have first := congrArg (fun bs => bs[0]?) read
  rw [List.getElem?_eq_getElem (by rw [Mem.read_length]; exact Nat.zero_lt_succ _),
    Mem.read_getElem] at first
  exact Option.some.inj first

/-- A NUL ends the command line: that of the first entry of the memory map, or of memory
that nothing was written to. -/
lemma cmdline_nul (hb : Booted parse args vm plan vm') (plain : Plain args)
    (h : LinkedAt plan.vmlinux.headers imageEnd) :
    vm'.mem (plan.region.memPtr + cmdlineEnd args) = 0 := by
  have hle : cmdlineEnd args ≤ memmapAt args := le_pageUp (cmdlineEnd args)
  rcases Nat.lt_or_eq_of_le hle with hlt | heq
  · obtain ⟨mem, zero, hmem⟩ := hb.mem
    have outside := cmdlineEnd_outside hb plain h hlt
    rw [hmem, Mem.writes_outside]
    · exact zero _ ⟨Nat.le_add_right .., Nat.add_lt_add_left (cmdlineEnd_lt hb) _⟩
    · intro w hw
      obtain ⟨p, hp, rfl⟩ := List.mem_map.mp hw
      rintro ⟨lo, hi⟩
      dsimp only [Mem.target] at lo hi
      exact outside p hp ⟨Nat.le_of_add_le_add_left lo, by dsimp only [pieceSpan]; omega⟩
  · have memmap : (plan.memmapStart, (memmapOf args.ramSize).flatMap Layout.encode) ∈
      plan.modules ++ plan.info args :=
      List.mem_append_right _ (.tail _ (.head _))
    have read := later_read hb plain h _ memmap
    obtain ⟨bytes, hbytes⟩ := memmap_head args.ramSize
    rw [hbytes, hb.memmapAt, ← heq] at read
    exact read_head read

/-- Bytes are encoded as they are. -/
lemma flatMap_encode_bytes (bytes : List UInt8) : bytes.flatMap Layout.encode = bytes :=
  List.flatMap_singleton' bytes

/-- Bytes are read by the guest as they are. -/
lemma guestLoadAll_bytes (hb : Booted parse args vm plan vm') {gpa : UInt64} {bytes : List UInt8}
    (room : gpa.toNat + bytes.length ≤ plan.region.memSize)
    (read : vm'.mem.read (plan.region.memPtr + gpa.toNat) bytes.length = bytes) :
    vm'.guestLoadAll UInt8 gpa bytes.length = some bytes := by
  have hone : Layout.size UInt8 = 1 := rfl
  unfold Vm.guestLoadAll
  rw [hone, Nat.mul_one, hb.gpaToHost room]
  apply congrArg some
  apply Mem.loadAll_of_read
  rw [flatMap_encode_bytes]
  exact read

/-- There is no zero in the command line. -/
lemma pvhCmdline_nonzero (plain : Plain args) : 0 ∉ utf8 (pvhCmdline args.append) := by
  have base : 0 ∉ utf8 (pvhCmdline none) := by decide +kernel
  cases happend : args.append with
  | none => exact base
  | some append =>
    rw [pvhCmdline_bytes, List.mem_append, List.mem_append]
    rintro ((h | h) | h)
    · exact base h
    · exact absurd h (by decide)
    · exact plain.append append happend h

/-- The guest reads it whole. -/
lemma cmdline_string (hb : Booted parse args vm plan vm') (plain : Plain args)
    (h : LinkedAt plan.vmlinux.headers imageEnd) :
    StringAt vm' 0x11000 (utf8 (pvhCmdline args.append)) := by
  have cmdline : (0x11000, utf8 (pvhCmdline args.append)) ∈ plan.modules ++ plan.info args :=
    List.mem_append_right _ (.head _)
  have hend := cmdlineEnd_lt hb
  have hlen : (utf8 (pvhCmdline args.append) ++ [0]).length =
    (utf8 (pvhCmdline args.append)).length + 1 :=
    List.length_append
  refine ⟨pvhCmdline_nonzero plain, ?_⟩
  rw [← hlen]
  apply guestLoadAll_bytes hb
  · rw [hlen]
    exact hend
  · rw [hlen, Mem.read_append, later_read hb plain h _ cmdline]
    apply congrArg
    apply congrArg (List.cons · [])
    show vm'.mem (plan.region.memPtr + 0x11000 + (utf8 (pvhCmdline args.append)).length) = 0
    rw [Nat.add_assoc]
    exact cmdline_nul hb plain h

/-- The pieces of a path have its characters only. -/
lemma splitOn_subset {α : Type} [DecidableEq α] (sep : α) (text : List α) :
    ∀ piece ∈ text.splitOn sep, piece ⊆ text := by
  induction text with
  | nil =>
    intro piece hp
    rw [List.splitOn_nil, List.mem_singleton] at hp
    rw [hp]
    exact List.nil_subset _
  | cons c text ih =>
    rw [List.splitOn_cons_eq_if_modifyHead]
    split
    · exact List.forall_mem_cons.mpr ⟨List.nil_subset _, fun piece hp =>
        List.subset_cons_of_subset c (ih piece hp)⟩
    · cases hsplit : text.splitOn sep with
      | nil => exact fun piece hp => by cases hp
      | cons first pieces =>
        rw [hsplit] at ih
        obtain ⟨hfirst, hrest⟩ := List.forall_mem_cons.mp ih
        exact List.forall_mem_cons.mpr ⟨List.cons_subset_cons c hfirst,
          fun piece hp => List.subset_cons_of_subset c (hrest piece hp)⟩

/-- A file's name is part of its path. -/
lemma fileName_subset (path : String) : (fileName path).toList ⊆ path.toList := by
  unfold fileName
  split
  · next name h =>
    split
    · exact List.nil_subset _
    · have hmem := List.mem_of_getLast? h
      rw [String.toList_ofList]
      exact splitOn_subset '/' path.toList name (List.mem_filter.mp hmem).1
  · exact List.nil_subset _

/-- There is no zero in it. -/
lemma fileName_nonzero (plain : Plain args) {path : String} (h : args.initramfs = some path) :
    0 ∉ utf8 (fileName path) := by
  intro hz
  obtain ⟨c, hc, hzero⟩ := List.mem_flatMap.mp hz
  exact plain.path path h (List.mem_flatMap.mpr ⟨c, fileName_subset path hc, hzero⟩)

/-! ## What the guest finds -/

/-- The guest's struct of the start info. -/
def guestInfo (plan : BootPlan) (args : Args) : StartInfo :=
  .ofHost (startInfo plan.memmapStart plan.modlistStart
    (memmapOf args.ramSize).length plan.modlist.length)

/-- The module list with what it lists. -/
lemma modlist_cases (hb : Booted parse args vm plan vm') :
    args.initramfs = none ∧ plan.modlist = [] ∧ plan.modules = [] ∨ ∃ path bytes paddr,
      args.initramfs = some path ∧ vm.os.files path = some bytes ∧
        paddr.toNat = (initrdSpan plan.vmlinux.headers path bytes).base ∧
        plan.modlist = [⟨paddr, UInt64.ofNat bytes.length, alignUp plan.lastAddr, 0⟩] ∧
        plan.modules = [(alignUp plan.lastAddr, utf8 (fileName path) ++ [0]), (paddr, bytes)] := by
  have h := hb.modules
  generalize args.initramfs = initramfs, plan.modlist = modlist, plan.modules = modules at h
  cases h with
  | none => exact .inl ⟨rfl, rfl, rfl⟩
  | @some path bytes paddr hfile hpaddr =>
    exact .inr ⟨path, bytes, paddr, rfl, hfile, hpaddr, rfl, rfl⟩

/-- Its length fits the field. -/
lemma modlist_length (hb : Booted parse args vm plan vm') :
    (UInt32.ofNat plan.modlist.length).toNat = plan.modlist.length := by
  rcases modlist_cases hb with ⟨-, e, -⟩ | ⟨path, bytes, paddr, -, -, -, e, -⟩
  · rw [e]
    rfl
  · rw [e]
    rfl

/-- The modules are inside of the first region, so that no size of one is cut. -/
lemma module_size (hb : Booted parse args vm plan vm') {paddr : UInt64} {bytes : List UInt8}
    (hp : (paddr, bytes) ∈ plan.modules) : paddr.toNat + bytes.length ≤ plan.region.memSize ∧
      (UInt64.ofNat bytes.length).toNat = bytes.length ∧
        (paddr + UInt64.ofNat bytes.length).toNat = paddr.toNat + bytes.length := by
  have hroom : paddr.toNat + bytes.length ≤ plan.region.memSize :=
    hb.room _ (List.mem_append_left _ (List.mem_append_right _ hp))
  have hlt : paddr.toNat + bytes.length < 2 ^ 64 := by
    have hsize := hb.size
    have hmin := UInt64.toNat_lt (min args.ramSize mmioStart)
    omega
  have hlen : (UInt64.ofNat bytes.length).toNat = bytes.length :=
    UInt64.toNat_ofNat_of_lt' (Nat.lt_of_le_of_lt (Nat.le_add_left _ _) hlt)
  refine ⟨hroom, hlen, ?_⟩
  rw [UInt64.toNat_add, hlen]
  exact Nat.mod_eq_of_lt hlt

/-- The guest finds what the boot information says. -/
lemma finds (hb : Booted parse args vm plan vm') (plain : Plain args)
    (h : LinkedAt plan.vmlinux.headers imageEnd) :
    Finds plan args vm.os vm' (guestInfo plan args) (plan.modlist.map .ofHost)
      ((memmapOf args.ramSize).map .ofHost) := by
  have memmap : (plan.memmapStart, (memmapOf args.ramSize).flatMap Layout.encode) ∈
    plan.modules ++ plan.info args :=
    List.mem_append_right _ (.tail _ (.head _))
  have modlist :
    (plan.modlistStart, plan.modlist.flatMap Layout.encode) ∈ plan.modules ++ plan.info args :=
    List.mem_append_right _ (.tail _ (.tail _ (.head _)))
  constructor
  case startInfo =>
    rw [guestLoad_startInfo, hb.guestInfo]
    rfl
  case modlist =>
    show vm'.guestLoadAll ModlistEntry plan.modlistStart
      (UInt32.ofNat plan.modlist.length).toNat = _
    rw [modlist_length hb, guestLoadAll_modlist, guestLoadAll_piece hb plain h modlist]
    rfl
  case memmap =>
    have hlen : (UInt32.ofNat (memmapOf args.ramSize).length).toNat =
      (memmapOf args.ramSize).length :=
      UInt32.toNat_ofNat_of_lt' (memmapOf_length _)
    show vm'.guestLoadAll MemmapEntry plan.memmapStart
      (UInt32.ofNat (memmapOf args.ramSize).length).toNat = _
    rw [hlen, guestLoadAll_memmap, guestLoadAll_piece hb plain h memmap]
    rfl
  case cmdline => exact cmdline_string hb plain h
  case magic => rfl
  case memory => rfl
  case modules => rfl
  case noModule =>
    intro hnone
    rcases modlist_cases hb with ⟨-, e, -⟩ | ⟨path, bytes, paddr, hpath, -⟩
    · rw [e]
      rfl
    · cases hnone.symm.trans hpath
  case module =>
    intro path hpath
    -- with an initramfs there is one module, whose name and bytes are pieces of the boot
    rcases modlist_cases hb with ⟨hnone, -⟩ | ⟨path', bytes, paddr, hpath', hfile, -,
      hmodlist, hmodules⟩
    · cases hnone.symm.trans hpath
    · cases hpath'.symm.trans hpath
      have name : (alignUp plan.lastAddr, utf8 (fileName path) ++ [0]) ∈ plan.modules :=
        hmodules ▸ .head _
      have file : (paddr, bytes) ∈ plan.modules := hmodules ▸ .tail _ (.head _)
      obtain ⟨hroom, hsize, -⟩ := module_size hb file
      have hroom' := (module_size hb name).1
      refine ⟨bytes, .ofHost ⟨paddr, UInt64.ofNat bytes.length, alignUp plan.lastAddr, 0⟩, hfile,
        ?_, hsize, ?_,
        fileName_nonzero plain hpath, ?_⟩
      · rw [hmodlist]
        rfl
      · show vm'.guestLoadAll UInt8 paddr (UInt64.ofNat bytes.length).toNat = _
        rw [hsize]
        exact guestLoadAll_bytes hb hroom (later_read hb plain h _ (List.mem_append_left _ file))
      · have read :=
          guestLoadAll_bytes hb hroom' (later_read hb plain h _ (List.mem_append_left _ name))
        rw [List.length_append] at read
        exact read

/-! ## The loop over the memory map -/

/-- What the loop asks of an entry. -/
def IsEnd (e : HvmMemmapEntry) (start : UInt64) : Prop :=
  e.type = e820Ram ∧ e.addr ≤ start ∧ start < e.addr + e.size

/-- An entry that passes does not wrap, since the address is between its ends. -/
lemma IsEnd.stop {e : HvmMemmapEntry} (h : IsEnd e start) :
    e.IsRam ∧ start.toNat ∈ e.span ∧ (e.addr + e.size).toNat = e.span.base + e.span.len := by
  obtain ⟨ram, lo, hi⟩ := h
  have hlo : e.addr.toNat ≤ start.toNat := lo
  have hhi : start.toNat < (e.addr + e.size).toNat := hi
  have haddr := UInt64.toNat_lt e.addr
  have hlen := UInt64.toNat_lt e.size
  have hsum : (e.addr + e.size).toNat = e.addr.toNat + e.size.toNat := by
    rw [UInt64.toNat_add] at hhi ⊢
    omega
  exact ⟨ram, ⟨hlo, hsum ▸ hhi⟩, hsum⟩

/-- The entry with the start has the end of the memory. -/
lemma isEnd_of_mem {e : HvmMemmapEntry} (ram : e.IsRam) (hlt : e.span.base + e.span.len < 2 ^ 64)
    (h : start.toNat ∈ e.span) : IsEnd e start := by
  have hsum : (e.addr + e.size).toNat = e.addr.toNat + e.size.toNat := by
    rw [UInt64.toNat_add]
    exact Nat.mod_eq_of_lt hlt
  refine ⟨ram, h.1, ?_⟩
  show start.toNat < (e.addr + e.size).toNat
  rw [hsum]
  exact h.2

/-- The loop finds the end of RAM that the address is in, if it is in any. -/
lemma ramEnd_cases (map : List HvmMemmapEntry) (start : UInt64) :
    ramEnd (map.map .ofHost) start = 0 ∧ (∀ e ∈ map, ¬ IsEnd e start) ∨
      ∃ e ∈ map, IsEnd e start ∧ ramEnd (map.map .ofHost) start = e.addr + e.size := by
  induction map using List.reverseRecOn with
  | nil => exact .inl ⟨rfl, fun e he => by cases he⟩
  | append_singleton map last ih =>
    have step : ramEnd ((map ++ [last]).map .ofHost) start =
        if last.type = e820Ram ∧ last.addr ≤ start ∧ start < last.addr + last.size then
        last.addr + last.size
        else ramEnd (map.map .ofHost) start := by
      unfold ramEnd
      rw [List.map_append, List.foldl_append]
      rfl
    have mem {e : HvmMemmapEntry} (he : e ∈ map) : e ∈ map ++ [last] := List.mem_append_left _ he
    rw [step]
    split
    · next h => exact .inr ⟨last, List.mem_append_right _ (.head _), h, rfl⟩
    · next hlast =>
      rcases ih with ⟨zero, none⟩ | ⟨e, he, hend, hstop⟩
      · refine .inl ⟨zero, List.forall_mem_append.mpr ⟨none, ?_⟩⟩
        exact List.forall_mem_singleton.mpr hlast
      · exact .inr ⟨e, mem he, hend, hstop⟩

/-! ## Where the RAM is -/

/-- There is 1 MiB of memory, since a segment is after it. -/
lemma himem_le (hb : Booted parse args vm plan vm') (h : LinkedAt plan.vmlinux.headers imageEnd) :
    himemStart ≤ args.ramSize := by
  have hhigh := h.high
  have hlast := h.last
  cases hloads : loads plan.vmlinux.headers with
  | nil =>
    rw [hloads] at hlast
    rw [← hlast] at hhigh
    exact absurd hhigh (by decide)
  | cons ph phs =>
    have hph : ph ∈ loads plan.vmlinux.headers := hloads ▸ .head _
    have hbase : 0x100000 ≤ ph.pPaddr.toNat := (h.above ph hph).1
    have piece : (ph.pPaddr, ph.bytes plan.file) ∈
      plan.segments ++ plan.modules ++ plan.info args := by
      rw [List.append_assoc]
      exact List.mem_append_left _ (List.mem_map_of_mem hph)
    have hroom := hb.room _ piece
    have hsize := hb.size
    rw [toNat_min] at hsize
    show 0x100000 ≤ args.ramSize.toNat
    dsimp only at hroom
    omega

/-- A region is below 3 GiB or from 4 GiB on, and does not wrap. -/
lemma region_place (hb : Booted parse args vm plan vm') : ∀ r ∈ vm'.guestMemory,
    (r.gpaSpan.base + r.gpaSpan.len ≤ 0xc0000000 ∨ 0x100000000 ≤ r.gpaSpan.base) ∧
      r.gpaSpan.base + r.gpaSpan.len < 2 ^ 64 := by
  have hmmio : mmioStart.toNat = 0xc0000000 := rfl
  have hregion : plan.region.gpaSpan.base + plan.region.gpaSpan.len ≤ 0xc0000000 := by
    have hsize := hb.size
    rw [toNat_min] at hsize
    unfold MemRegion.gpaSpan
    rw [hb.start]
    show 0 + plan.region.memSize ≤ _
    omega
  have hhigh := hb.high
  rw [hb.guestMemory]
  generalize plan.high = high at hhigh
  refine List.forall_mem_cons.mpr ⟨⟨.inl hregion, Nat.lt_of_le_of_lt hregion (by decide)⟩, ?_⟩
  cases hhigh with
  | none => exact fun r hr => by cases hr
  | @some r _ _ hstart hlt =>
    rw [List.forall_mem_singleton]
    unfold MemRegion.gpaSpan
    rw [hstart]
    refine ⟨.inr (Nat.le_refl _), ?_⟩
    show 0x100000000 + r.memSize < 2 ^ 64
    omega

/-- From 1 MiB on, RAM of the map is memory, and memory is RAM of the map. -/
lemma mem_region_iff (hb : Booted parse args vm plan vm')
    (h : LinkedAt plan.vmlinux.headers imageEnd) (hstart : 0x100000 ≤ start.toNat) :
    (∃ r ∈ vm'.guestMemory, start.toNat ∈ r.gpaSpan) ↔ ∃ e ∈ memmapOf args.ramSize,
      IsEnd e start := by
  have describes := hb.describes (himem_le hb h)
  constructor
  · rintro ⟨r, hr, hmem⟩
    have outside : ∀ hole ∈ holes, start.toNat ∉ hole := by
      have place := (region_place hb r hr).1
      rw [Span.mem_iff] at hmem
      rw [not_mem_holes_iff]
      omega
    obtain ⟨e, he, ram, hin⟩ := describes.complete r hr _ hmem outside
    obtain ⟨r', hr', inside⟩ := describes.backed e he ram
    refine ⟨e, he, isEnd_of_mem ram ?_ hin⟩
    -- the last address of the entry is one of the region
    have hlt := (region_place hb r' hr').2
    have last : e.span.base + e.span.len - 1 ∈ e.span := by
      rw [Span.mem_iff] at hin ⊢
      omega
    have hmem' := inside _ last
    rw [Span.mem_iff] at hmem'
    omega
  · rintro ⟨e, he, hend⟩
    obtain ⟨ram, hin, -⟩ := hend.stop
    obtain ⟨r, hr, inside⟩ := describes.backed e he ram
    exact ⟨r, hr, inside _ hin⟩

/-! ## The modules and the heap -/

/-- The modules that the guest registers: those of the list, each with its name if it has one. -/
def registered (args : Args) (mods : List ModlistEntry) : List Module :=
  mods.map fun mod =>
    ⟨if args.initramfs.map fileName = some "" then .module else .string mod.cmdlinePaddr,
      mod.paddr, mod.size⟩

/-- A text that is not empty has bytes. -/
lemma utf8_ne_nil {s : String} (h : s ≠ "") : utf8 s ≠ [] := by
  intro hnil
  apply h
  have hchars : s.toList = [] := by
    cases hs : s.toList with
    | nil => rfl
    | cons c cs =>
      unfold utf8 at hnil
      rw [hs, List.flatMap_cons] at hnil
      have hc := congrArg List.length (List.append_eq_nil_iff.mp hnil).1
      rw [String.length_utf8EncodeChar] at hc
      exact absurd hc (Nat.ne_of_gt c.utf8Size_pos)
  exact String.toList_inj.mp hchars

/-- The guest loads the first of the bytes that are there. -/
lemma guestLoad_head (hb : Booted parse args vm plan vm') {gpa : UInt64} {c : UInt8}
    {bytes : List UInt8} (room : gpa.toNat + (c :: bytes).length ≤ plan.region.memSize)
    (read : vm'.mem.read (plan.region.memPtr + gpa.toNat) (c :: bytes).length = c :: bytes) :
    vm'.guestLoad UInt8 gpa = some c := by
  have hone : gpa.toNat + Layout.size UInt8 ≤ plan.region.memSize :=
    Nat.le_trans (Nat.add_le_add_left (Nat.succ_le_succ (Nat.zero_le _)) _) room
  unfold Vm.guestLoad
  rw [hb.gpaToHost hone]
  exact congrArg some (read_head read)

/-- What the guest calls a module: the string, or the literal for an empty one. -/
lemma moduleName_eq (hb : Booted parse args vm plan vm') (plain : Plain args)
    (h : LinkedAt plan.vmlinux.headers imageEnd) {path : String}
    (hpath : args.initramfs = some path)
    (hp : (alignUp plan.lastAddr, utf8 (fileName path) ++ [0]) ∈ plan.modules) :
    moduleName vm' (alignUp plan.lastAddr) =
      some (if args.initramfs.map fileName = some "" then .module
        else .string (alignUp plan.lastAddr)) := by
  have nonzero : alignUp plan.lastAddr ≠ 0 := by
    intro hz
    have hname : imageEnd.toNat ≤ (alignUp plan.lastAddr).toNat := nameAt_le h
    have hhigh := h.high
    rw [hz] at hname
    exact absurd (Nat.le_trans hhigh hname) (by decide)
  have room := (module_size hb hp).1
  have read := later_read hb plain h _ (List.mem_append_left _ hp)
  dsimp only at read
  unfold moduleName
  rw [if_neg nonzero, hpath, Option.map_some]
  cases hbytes : utf8 (fileName path) with
  | nil =>
    have empty : fileName path = "" := by
      by_contra hne
      exact utf8_ne_nil hne hbytes
    rw [hbytes] at room read
    rw [guestLoad_head hb room read, empty]
    rfl
  | cons c cs =>
    have hne : fileName path ≠ "" := by
      intro hempty
      rw [hempty] at hbytes
      cases hbytes
    have hc : c ≠ 0 := by
      intro hz
      apply fileName_nonzero plain hpath
      rw [hbytes, hz]
      exact .head _
    rw [hbytes] at room read
    rw [guestLoad_head hb room read, if_neg (fun e => hne (Option.some.inj e))]
    exact congrArg some (if_neg hc)

/-- The guest registers the module of the boot, and goes on from where it ends. -/
lemma addModules_eq (hb : Booted parse args vm plan vm') (plain : Plain args)
    (h : LinkedAt plan.vmlinux.headers imageEnd) : ∃ start,
      addModules vm' (plan.modlist.map .ofHost) imageEnd =
        some (registered args (plan.modlist.map .ofHost), start) ∧
        imageEnd.toNat ≤ start.toNat ∧
        (∀ s ∈ plan.modules.map pieceSpan, s.base + s.len ≤ start.toNat) ∧
          ∃ s ∈ imageSpan imageEnd :: plan.modules.map pieceSpan, s.base + s.len = start.toNat := by
  rcases modlist_cases hb with ⟨-, hmodlist, hmodules⟩ | ⟨path, bytes, paddr, hpath, -, hpaddr,
    hmodlist, hmodules⟩
  · rw [hmodlist, hmodules]
    have none : ∀ s ∈ [].map pieceSpan, s.base + s.len ≤ imageEnd.toNat := fun s hs => by cases hs
    exact ⟨imageEnd, rfl, Nat.le_refl _, none, imageSpan imageEnd, .head _,
      Nat.add_sub_cancel' h.high⟩
  · have name : (alignUp plan.lastAddr, utf8 (fileName path) ++ [0]) ∈ plan.modules :=
      hmodules ▸ .head _
    have file : (paddr, bytes) ∈ plan.modules := hmodules ▸ .tail _ (.head _)
    obtain ⟨-, -, hstop⟩ := module_size hb file
    have hname := nameAt_le h
    -- the name and its NUL are between the image and the initramfs
    have hafter : nameAt plan.vmlinux.headers + (utf8 (fileName path) ++ [0]).length ≤
      paddr.toNat := by
      rw [hpaddr]
      exact le_pageUp _
    have hlen : (utf8 (fileName path) ++ [0]).length = (utf8 (fileName path)).length + 1 :=
      List.length_append
    have further : paddr + UInt64.ofNat bytes.length > imageEnd := by
      show imageEnd.toNat < (paddr + UInt64.ofNat bytes.length).toNat
      omega
    refine ⟨paddr + UInt64.ofNat bytes.length, ?_, Nat.le_of_lt further, ?_, ?_⟩
    · rw [hmodlist]
      show addModules vm' [⟨paddr, UInt64.ofNat bytes.length, alignUp plan.lastAddr,
        0⟩] imageEnd = _
      unfold addModules
      rw [if_pos further, moduleName_eq hb plain h hpath name]
      rfl
    · rw [hmodules, hstop]
      refine List.forall_mem_cons.mpr ⟨?_, List.forall_mem_singleton.mpr (Nat.le_refl _)⟩
      exact Nat.le_trans hafter (Nat.le_add_right _ _)
    · rw [hmodules, hstop]
      exact ⟨_, .tail _ (.tail _ (.head _)), rfl⟩

/-- RAM after everything that was placed is a heap that the guest can use. -/
lemma usable (hb : Booted parse args vm plan vm') (plain : Plain args)
    (h : LinkedAt plan.vmlinux.headers imageEnd) (himage : imageEnd.toNat ≤ start.toNat)
    (hmodules : ∀ s ∈ plan.modules.map pieceSpan, s.base + s.len ≤ start.toNat)
    {e : HvmMemmapEntry} (he : e ∈ memmapOf args.ramSize) (hend : IsEnd e start) :
    Usable plan args vm' imageEnd start (e.addr + e.size) := by
  obtain ⟨ram, hin, hstop⟩ := hend.stop
  have hhigh := h.high
  have heap : Span.Inside ⟨start.toNat, (e.addr + e.size).toNat - start.toNat⟩ e.span := by
    rw [Span.mem_iff] at hin
    exact Span.inside_of_le hin.1 (by dsimp only; omega)
  constructor
  case nonempty => exact hend.2.2
  case backed =>
    obtain ⟨r, hr, inside⟩ := (hb.describes (himem_le hb h)).backed e he ram
    exact ⟨r, hr, fun a ha => inside a (heap a ha)⟩
  case apart =>
    -- all of it ends before the heap starts
    suffices before :
      ∀ s ∈ imageSpan imageEnd :: reservedSpan :: plan.spans args, s.base + s.len ≤ start.toNat by
      intro s hs
      exact (Span.apart_of_le (before s hs)).symm
    refine List.forall_mem_cons.mpr ⟨?_, List.forall_mem_cons.mpr ⟨Nat.le_trans hhigh himage, ?_⟩⟩
    · exact Nat.le_trans (Nat.le_of_eq (Nat.add_sub_cancel' hhigh)) himage
    · unfold BootPlan.spans
      rw [List.map_append, hb.infoSpans]
      refine List.forall_mem_append.mpr ⟨?_, List.forall_mem_append.mpr ⟨hmodules, ?_⟩⟩
      · exact List.forall_mem_map.mpr fun ph hph => Nat.le_trans (h.above ph hph).2 himage
      · intro s hs
        have hinfo := infoSpans_below plain s hs
        omega

/-- The guest finds what a boot was to tell it, and takes a heap of RAM that nothing else is in, or
powers off where the image or the module ends without more RAM. -/
theorem setupMemory_reads_boot (h : linuxPvhBoot parse args vm = (.ok (), vm'))
    (h0 : vm.guestMemory = []) (plain : Plain args)
    (linked : ∀ linux file vmlinux, args.linux = some linux → vm.os.files linux = some file →
      parse file = some vmlinux → LinkedAt vmlinux.headers imageEnd) :
    ∃ plan info mods map outcome, Booted parse args vm plan vm' ∧
      Finds plan args vm.os vm' info mods map ∧
      setupMemory vm' imageEnd (vm'.regs "rbx") = some (registered args mods, outcome) ∧
        (outcome = .powerOff ∧ NoRoom plan vm' imageEnd ∨
          ∃ start stop, outcome = .heap start stop ∧ Usable plan args vm' imageEnd start stop) := by
  obtain ⟨plan, hb⟩ := linuxPvhBoot_ok h h0
  obtain ⟨linux, hlinux, hfile, hparse⟩ := hb.kernel
  have image := linked linux plan.file plan.vmlinux hlinux hfile hparse
  have found := finds hb plain image
  obtain ⟨start, hmods, himage, hmodules, s, hs, hstart⟩ := addModules_eq hb plain image
  have hsetup : setupMemory vm' imageEnd (vm'.regs "rbx") =
    some (registered args (plan.modlist.map .ofHost),
      if ramEnd ((memmapOf args.ramSize).map .ofHost) start = 0 then .powerOff
      else .heap start (ramEnd ((memmapOf args.ramSize).map .ofHost) start)) := by
    unfold setupMemory
    rw [found.startInfo, Option.bind_eq_bind, Option.bind_some, found.modlist, Option.bind_eq_bind,
      Option.bind_some, hmods, Option.bind_eq_bind, Option.bind_some, found.memmap]
    rfl
  refine ⟨plan, _, _, _, _, hb, found, hsetup, ?_⟩
  rcases ramEnd_cases (memmapOf args.ramSize) start with ⟨zero, none⟩ | ⟨e, he, hend, hstop⟩
  · refine .inl ⟨if_pos zero, s, hs, ?_⟩
    intro r hr hmem
    rw [hstart] at hmem
    obtain ⟨e, he, hend⟩ :=
      (mem_region_iff hb image (Nat.le_trans image.high himage)).mp ⟨r, hr, hmem⟩
    exact none e he hend
  · have nonzero : e.addr + e.size ≠ 0 := by
      intro hz
      have hlt : start < e.addr + e.size := hend.2.2
      rw [hz] at hlt
      exact Nat.not_lt_zero _ hlt
    rw [hstop, if_neg nonzero]
    exact .inr ⟨start, e.addr + e.size, rfl, usable hb plain image himage hmodules he hend⟩

/-! ## A kernel at 1 MiB -/

/-- The small kernel with its segment at 1 MiB. -/
def highKernel : List UInt8 := tinyKernel.set 90 0x10

/-- A segment at 1 MiB. -/
def highSegment : ProgramHeader := ⟨ptLoad, 120, 4, 0x100000, 4⟩

/-- The kernel at 1 MiB with a `.bss` of 16 MiB. -/
def bssKernel : List UInt8 := (highKernel.set 104 0).set 107 1

/-- A segment at 1 MiB with 16 MiB of `.bss`. -/
def bssSegment : ProgramHeader := ⟨ptLoad, 120, 4, 0x100000, 0x1000000⟩

/-- An ELF file with the segment at 1 MiB. -/
def parseHigh (file : List UInt8) : Option ElfFile :=
  if file = highKernel then some ⟨[highSegment], some (some [some ⟨18, toLE 4 0x20000⟩])⟩
  else if file = bssKernel then some ⟨[bssSegment], some (some [some ⟨18, toLE 4 0x20000⟩])⟩
  else none

/-- A command line and an initramfs. -/
def wadArgs : Args :=
  { tinyArgs 0x200000 with append := some "-warp 1 1", initramfs := some "wads/doom1.wad" }

/-- A host with the kernel and the initramfs. -/
def wadVm : Vm :=
  Vm.new (Os.ofFiles fun path => if path = "tiny" then some highKernel
    else some [0x49, 0x57, 0x41, 0x44])

/-- A host with the large kernel. -/
def bssVm : Vm := Vm.new (Os.ofFiles fun _ => some bssKernel)

/-- With 2 MiB the `.bss` ends where there is no RAM: the boot returns, and the guest powers off. -/
theorem setupMemory_no_room :
    ∃ vm', linuxPvhBoot parseHigh (tinyArgs 0x200000) bssVm = (.ok (), vm') ∧
    LinkedAt [bssSegment] 0x1100000 ∧ Plain (tinyArgs 0x200000) ∧
      setupMemory vm' 0x1100000 (vm'.regs "rbx") = some ([], .powerOff) := by
  have hrun : (linuxPvhBoot parseHigh (tinyArgs 0x200000) bssVm).1 = .ok () := by decide +kernel
  refine ⟨_, ok_of_fst hrun, ⟨?_, rfl, by decide, by decide⟩, ?_, by decide +kernel⟩
  · exact List.forall_mem_singleton.mpr (by decide)
  · constructor
    all_goals
      intro _ h
      cases h

/-- With the small kernel at 1 MiB, the guest finds its arguments and its
module, and a heap after them. -/
theorem setupMemory_reads_boot_wad : ∃ vm', linuxPvhBoot parseHigh wadArgs wadVm = (.ok (), vm') ∧
    ∃ plan info mods map outcome, Booted parseHigh wadArgs wadVm plan vm' ∧
      Finds plan wadArgs wadVm.os vm' info mods map ∧
      setupMemory vm' 0x100004 (vm'.regs "rbx") = some (registered wadArgs mods, outcome) ∧
        (outcome = .powerOff ∧ NoRoom plan vm' 0x100004 ∨
          ∃ start stop, outcome = .heap start stop ∧
            Usable plan wadArgs vm' 0x100004 start stop) := by
  have hrun : (linuxPvhBoot parseHigh wadArgs wadVm).1 = .ok () := by decide +kernel
  have plain : Plain wadArgs := by
    constructor
    · intro append h
      cases h
      decide
    · intro append h
      cases h
      decide
    · intro path h
      cases h
      decide
  have image : LinkedAt [highSegment] 0x100004 :=
    ⟨List.forall_mem_singleton.mpr (by decide), rfl, by decide, by decide⟩
  refine ⟨_, ok_of_fst hrun, setupMemory_reads_boot (ok_of_fst hrun) rfl plain ?_⟩
  intro linux file vmlinux hlinux hfile hparse
  have parsed : parseHigh highKernel = some _ := if_pos rfl
  cases hlinux
  cases hfile
  cases parsed.symm.trans hparse
  exact image

end Hearth.Doom.Memory
