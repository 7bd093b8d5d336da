import Hearth.Boot.Pvh

/-!
# Where a PVH boot puts things

`linux_pvh_boot` places the segments of the kernel where the file says, the initramfs after them,
and the boot information from 64 KiB on. Nothing compares these places: `pvh_intact_iff` says when
they are apart, so that the guest starts with everything that was placed.
-/

namespace Hearth
open Lib

/-- The guest addresses of a segment, with its `.bss`. -/
def ProgramHeader.memSpan (ph : ProgramHeader) : Span :=
  ⟨ph.pPaddr.toNat, max ph.pFilesz.toNat ph.pMemsz.toNat⟩

/-- The guest addresses of what was copied to an offset of the first region. -/
def pieceSpan (p : UInt64 × List UInt8) : Span := ⟨p.1.toNat, p.2.length⟩

namespace BootPlan

/-- What is put into memory besides the kernel's segments, in the order it is put there. -/
def pieces (plan : BootPlan) (args : Args) : List (UInt64 × List UInt8) :=
  plan.segments ++ plan.modules ++ plan.info args

/-- The addresses of all that the boot placed: the segments, the name of the module and the
initramfs, and the boot information. -/
def spans (plan : BootPlan) (args : Args) : List Span :=
  (loads plan.vmlinux.headers).map ProgramHeader.memSpan ++
    (plan.modules ++ plan.info args).map pieceSpan

/-- Nothing that was placed shares an address with anything else, and the
guest's memory has each piece. -/
structure Intact (plan : BootPlan) (args : Args) (vm' : Vm) : Prop where
  apart : (plan.spans args).Pairwise Span.Apart
  holds : ∀ p ∈ plan.pieces args, vm'.mem.read (plan.region.memPtr + p.1.toNat) p.2.length = p.2

end BootPlan

/-! ## The places, from the arguments and the files -/

section Places

variable (headers : List ProgramHeader) (args : Args) (path : String) (bytes : List UInt8)

/-- The memory map: on the page behind the command line. -/
def memmapAt : Nat := pageUp (0x11000 + (utf8 (pvhCmdline args.append)).length)

/-- The module list: on the page behind the memory map. -/
def modlistAt : Nat := pageUp (memmapAt args + (memmapOf args.ramSize).length * 24)

/-- The command line, the memory map, the module list and the start info. -/
def infoSpans : List Span :=
  [⟨0x11000, (utf8 (pvhCmdline args.append)).length⟩,
    ⟨memmapAt args, (memmapOf args.ramSize).length * 24⟩,
    ⟨modlistAt args, if args.initramfs.isSome then 32 else 0⟩, ⟨0x10000, 56⟩]

/-- The first page after the segments, as the boot computes it. -/
def nameAt : Nat := (alignUp (lastOf 0 (loads headers))).toNat

/-- The name of the initramfs, with a zero behind it. -/
def nameSpan : Span := ⟨nameAt headers, (utf8 (fileName path) ++ [0]).length⟩

/-- The initramfs: on the page behind its name. -/
def initrdSpan : Span :=
  ⟨pageUp (nameAt headers + (utf8 (fileName path) ++ [0]).length), bytes.length⟩

/-- The initramfs and its name are after the boot information, or before it. -/
def ModulesClear : Prop :=
  modlistAt args + 32 ≤ nameAt headers ∨
    (nameSpan headers path).base + (nameSpan headers path).len ≤ 0x10000 ∧
      (bytes = [] ∨ (initrdSpan headers path bytes).base +
        (initrdSpan headers path bytes).len ≤ 0x10000)

/-- The segments are apart from each other and from the boot information, and an initramfs and its
name are apart from the segments and clear of the boot information. -/
structure Separate (os : Os) : Prop where
  segments : ((loads headers).map ProgramHeader.memSpan).Pairwise Span.Apart
  info : ∀ ph ∈ loads headers, ∀ s ∈ infoSpans args, ph.memSpan.Apart s
  modules : ∀ path bytes, args.initramfs = some path → os.files path = some bytes →
    (∀ ph ∈ loads headers, ∀ s ∈ [nameSpan headers path, initrdSpan headers path bytes],
      ph.memSpan.Apart s) ∧
      ModulesClear headers args path bytes

end Places

/-! ## Apart -/

/-- What is aligned up is on a page. -/
lemma alignUp_mod (a : UInt64) : (alignUp a).toNat % 4096 = 0 := by
  unfold alignUp
  rw [UInt64.toNat_and]
  have e : (a + 0xfff).toNat &&& (~~~(0xfff : UInt64)).toNat = (a + 0xfff).toNat / 4096 * 4096 :=
    and_highMask (k := 12) (UInt64.toNat_lt _) (by simp)
  rw [e]
  exact Nat.mul_mod_left ..

/-- Apart from each of four. -/
lemma apart_four_iff {s : Span} {a b c d : Span} : (∀ t ∈ [a, b, c, d], s.Apart t) ↔
    s.Apart a ∧ s.Apart b ∧ s.Apart c ∧ s.Apart d := by
  simp only [List.forall_mem_cons, List.not_mem_nil, false_imp_iff, implies_true, and_true]

/-- Two pieces from a page boundary on, against the four pieces of the boot information. -/
lemma clear_iff {name len size cmdline entries : Nat} (page : name % 4096 = 0) (hlen : 0 < len)
    (hcmdline : 0 < cmdline) (hentries : 0 < entries) :
    (∀ s ∈ [(⟨name, len⟩ : Span), ⟨pageUp (name + len), size⟩], ∀ t ∈ [(⟨0x11000, cmdline⟩ : Span),
      ⟨pageUp (0x11000 + cmdline), entries * 24⟩,
      ⟨pageUp (pageUp (0x11000 + cmdline) + entries * 24), 32⟩,
      ⟨0x10000, 56⟩], s.Apart t) ↔
    pageUp (pageUp (0x11000 + cmdline) + entries * 24) + 32 ≤ name ∨
      name + len ≤ 0x10000 ∧ (size = 0 ∨ pageUp (name + len) + size ≤ 0x10000) := by
  rw [List.forall_mem_cons, List.forall_mem_singleton, apart_four_iff, apart_four_iff]
  simp only [Span.apart_iff]
  unfold pageUp
  constructor
  · intro h
    omega
  · intro h
    omega

variable {parse : List UInt8 → Option ElfFile} {args : Args} {vm vm' : Vm} {plan : BootPlan}

/-- There is at least one entry. -/
lemma memmapOf_pos (ramSize : UInt64) : 0 < (memmapOf ramSize).length := Nat.zero_lt_succ _

/-- The bytes of two texts. -/
lemma utf8_append (s t : String) : utf8 (s ++ t) = utf8 s ++ utf8 t := by
  unfold utf8
  rw [String.toList_append, List.flatMap_append]

/-- The command line is never empty. -/
lemma pvhCmdline_pos (append : Option String) : 0 < (utf8 (pvhCmdline append)).length := by
  have pos : 0 <
    (utf8 "console=ttyS0,115200 root=/dev/vda virtio_mmio.device=4K@").length := by decide
  unfold pvhCmdline
  cases append with
  | none =>
    simp only [utf8_append, List.length_append]
    omega
  | some append =>
    simp only [utf8_append, List.length_append]
    omega

/-- The memory map is where `memmapAt` says. -/
lemma Booted.memmapAt (hb : Booted parse args vm plan vm') :
    plan.memmapStart.toNat = memmapAt args := hb.memmapStart

/-- The module list is where `modlistAt` says. -/
lemma Booted.modlistAt (hb : Booted parse args vm plan vm') :
    plan.modlistStart.toNat = modlistAt args := by
  rw [hb.modlistStart, hb.memmapAt]
  rfl

/-- The pieces of the start info are where `infoSpans` says. -/
lemma Booted.infoSpans (hb : Booted parse args vm plan vm') :
    (plan.info args).map pieceSpan = infoSpans args := by
  have hmodlist : plan.modlist.length * 32 = if args.initramfs.isSome then 32 else 0 := by
    have h := hb.modules
    generalize args.initramfs = initramfs, plan.modlist = modlist, plan.modules = modules at h
    cases h with
    | none => rfl
    | some _ _ => rfl
  have memmap : pieceSpan (plan.memmapStart, (memmapOf args.ramSize).flatMap Layout.encode) =
      ⟨Hearth.memmapAt args, (memmapOf args.ramSize).length * 24⟩ := by
    unfold pieceSpan
    rw [hb.memmapAt, flatMap_encode_length]
    rfl
  have modlist : pieceSpan (plan.modlistStart, plan.modlist.flatMap Layout.encode) =
      ⟨Hearth.modlistAt args, if args.initramfs.isSome then 32 else 0⟩ := by
    unfold pieceSpan
    rw [hb.modlistAt, flatMap_encode_length, ← hmodlist]
    rfl
  unfold BootPlan.info bootPieces Hearth.infoSpans
  rw [List.map_cons, List.map_cons, List.map_cons, List.map_cons, List.map_nil, memmap, modlist]
  unfold pieceSpan
  rw [Layout.encode_length]
  rfl

/-- They are apart from each other. -/
lemma infoSpans_apart (args : Args) : (infoSpans args).Pairwise Span.Apart := by
  have hle1 := le_pageUp (0x11000 + (utf8 (pvhCmdline args.append)).length)
  have hle2 := le_pageUp (memmapAt args + (memmapOf args.ramSize).length * 24)
  unfold infoSpans modlistAt memmapAt at *
  simp only [List.pairwise_cons, List.forall_mem_cons, List.not_mem_nil, false_imp_iff,
    implies_true, and_true, Span.apart_iff, List.Pairwise.nil]
  refine ⟨⟨?_, ?_, ?_⟩, ⟨?_, ?_⟩, ?_⟩ <;> omega

/-- The spans of what the boot loads with an initramfs. -/
lemma Booted.moduleSpans (hb : Booted parse args vm plan vm') :
    args.initramfs = none ∧ plan.modules = [] ∨ ∃ path bytes, args.initramfs = some path ∧
      vm.os.files path = some bytes ∧
        plan.modules.map pieceSpan =
          [nameSpan plan.vmlinux.headers path, initrdSpan plan.vmlinux.headers path bytes] := by
  have h := hb.modules
  generalize args.initramfs = initramfs, plan.modlist = modlist, plan.modules = modules at h
  cases h with
  | none => exact .inl ⟨rfl, rfl⟩
  | @some path bytes start hfile hstart =>
    refine .inr ⟨path, bytes, rfl, hfile, ?_⟩
    show [pieceSpan _, (⟨start.toNat, bytes.length⟩ : Span)] = _
    rw [hstart]
    rfl

/-- When the initramfs and its name are apart from them. -/
lemma modulesClear_iff {path : String} {bytes : List UInt8} (headers : List ProgramHeader)
    (h : args.initramfs = some path) :
    (∀ s ∈ [nameSpan headers path, initrdSpan headers path bytes],
      ∀ t ∈ infoSpans args, s.Apart t) ↔
      ModulesClear headers args path bytes := by
  have hlen : 0 < (utf8 (fileName path) ++ [0]).length := by
    rw [List.length_append]
    exact Nat.succ_pos _
  have hsize : (if args.initramfs.isSome then 32 else 0) = 32 := by
    rw [h]
    rfl
  unfold ModulesClear infoSpans
  rw [hsize, ← List.length_eq_zero_iff]
  exact clear_iff (alignUp_mod _) hlen (pvhCmdline_pos args.append) (memmapOf_pos args.ramSize)

/-- The initramfs is behind its name. -/
lemma name_apart_initrd (headers : List ProgramHeader) (path : String) (bytes : List UInt8) :
    [nameSpan headers path, initrdSpan headers path bytes].Pairwise Span.Apart :=
  List.pairwise_pair.mpr (Span.apart_of_le (le_pageUp _))

/-- The spans are apart exactly if the places are separate. -/
lemma Booted.spans_apart_iff (hb : Booted parse args vm plan vm') :
    (plan.spans args).Pairwise Span.Apart ↔ Separate plan.vmlinux.headers args vm.os := by
  unfold BootPlan.spans
  rw [List.pairwise_append, List.map_append, hb.infoSpans, List.pairwise_append]
  constructor
  · rintro ⟨segments, ⟨-, -, across⟩, rest⟩
    have segment {ph : ProgramHeader} (hph : ph ∈ loads plan.vmlinux.headers) :=
      rest _ (List.mem_map_of_mem hph)
    refine ⟨segments, fun ph hph s hs => segment hph s (List.mem_append_right _ hs), ?_⟩
    intro path bytes hpath hfile
    rcases hb.moduleSpans with ⟨none, -⟩ | ⟨path', bytes', hpath', hfile', hmodules⟩
    · cases none.symm.trans hpath
    · cases hpath'.symm.trans hpath
      cases hfile'.symm.trans hfile
      rw [hmodules] at across segment
      refine ⟨fun ph hph s hs => segment hph s (List.mem_append_left _ hs), ?_⟩
      exact (modulesClear_iff _ hpath).mp across
  · intro h
    rcases hb.moduleSpans with ⟨-, hmodules⟩ | ⟨path, bytes, hpath, hfile, hmodules⟩
    · rw [hmodules]
      refine ⟨h.segments, ⟨.nil, infoSpans_apart args, fun s hs => by cases hs⟩, ?_⟩
      intro s hs t ht
      obtain ⟨ph, hph, rfl⟩ := List.mem_map.mp hs
      exact h.info ph hph t ht
    · rw [hmodules]
      obtain ⟨segment, clear⟩ := h.modules path bytes hpath hfile
      have across := (modulesClear_iff plan.vmlinux.headers hpath).mpr clear
      refine ⟨h.segments, ⟨name_apart_initrd _ _ _, infoSpans_apart args, across⟩, ?_⟩
      intro s hs t ht
      obtain ⟨ph, hph, rfl⟩ := List.mem_map.mp hs
      rcases List.mem_append.mp ht with ht | ht
      · exact segment ph hph t ht
      · exact h.info ph hph t ht

/-- Of the addresses of a segment, the first are those of its bytes in the file. -/
lemma Booted.segment_inside (hb : Booted parse args vm plan vm') {ph : ProgramHeader}
    (hph : ph ∈ loads plan.vmlinux.headers) :
    (pieceSpan (ph.pPaddr, ph.bytes plan.file)).Inside ph.memSpan := by
  have base : ph.memSpan.base ≤ (pieceSpan (ph.pPaddr, ph.bytes plan.file)).base := Nat.le_refl _
  apply Span.inside_of_le base
  show ph.pPaddr.toNat + (ph.bytes plan.file).length ≤ ph.pPaddr.toNat + max _ _
  rw [(hb.readable ph hph).bytes_length]
  exact Nat.add_le_add_left (Nat.le_max_left ..) _

/-- If the spans are apart so are the pieces put there. -/
lemma Booted.pieces_apart (hb : Booted parse args vm plan vm')
    (h : (plan.spans args).Pairwise Span.Apart) :
    (plan.pieces args).Pairwise fun p q => (pieceSpan p).Apart (pieceSpan q) := by
  unfold BootPlan.spans at h
  obtain ⟨segments, rest, across⟩ := List.pairwise_append.mp h
  unfold BootPlan.pieces
  rw [List.append_assoc]
  refine List.pairwise_append.mpr ⟨List.pairwise_map.mpr ?_, List.pairwise_map.mp rest, ?_⟩
  · apply (List.pairwise_map.mp segments).imp_of_mem
    intro ph ph' hph hph' apart
    exact apart.mono (hb.segment_inside hph) (hb.segment_inside hph')
  · intro p hp q hq
    obtain ⟨ph, hph, rfl⟩ := List.mem_map.mp hp
    exact (across _ (List.mem_map_of_mem hph) _ (List.mem_map_of_mem hq)).mono
      (hb.segment_inside hph) (.refl _)

/-- Pieces that are apart are so in the host's memory. -/
lemma target_apart {p q : UInt64 × List UInt8} (base : Nat)
    (h : (pieceSpan p).Apart (pieceSpan q)) :
    (Mem.target (base + p.1.toNat, p.2)).Apart (Mem.target (base + q.1.toNat, q.2)) := by
  rw [Span.apart_iff] at h ⊢
  unfold pieceSpan at h
  unfold Mem.target
  dsimp only at h ⊢
  omega

/-- Pieces that are apart have all been kept. -/
lemma Booted.intact_iff (hb : Booted parse args vm plan vm') :
    plan.Intact args vm' ↔ Separate plan.vmlinux.headers args vm.os := by
  rw [← hb.spans_apart_iff]
  refine ⟨BootPlan.Intact.apart, fun apart => ⟨apart, fun p hp => ?_⟩⟩
  obtain ⟨mem, -, hmem⟩ := hb.mem
  rw [hmem]
  refine Mem.read_writes_apart (List.pairwise_map.mpr ?_) _ (List.mem_map_of_mem hp)
  exact (hb.pieces_apart apart).imp (target_apart plan.region.memPtr)

/-- After a boot that returns, nothing that was placed has overwritten anything else exactly
if the places are separate. -/
theorem pvh_intact_iff (h : linuxPvhBoot parse args vm = (.ok (), vm')) (h0 : vm.guestMemory = []) :
    ∃ plan, Booted parse args vm plan vm' ∧
      (plan.Intact args vm' ↔ Separate plan.vmlinux.headers args vm.os) := by
  obtain ⟨plan, hb⟩ := linuxPvhBoot_ok h h0
  exact ⟨plan, hb, hb.intact_iff⟩

/-! ## A kernel at 64 KiB -/

/-- The small kernel with its segment at 64 KiB. -/
def lowKernel : List UInt8 := tinyKernel.set 90 1

/-- A segment at 0x10000. -/
def lowSegment : ProgramHeader := ⟨ptLoad, 120, 4, 0x10000, 4⟩

/-- An ELF file with the segment at 0x10000. -/
def parseLow (file : List UInt8) : Option ElfFile :=
  if file = lowKernel then some ⟨[lowSegment], some (some [some ⟨18, toLE 4 0x20000⟩])⟩ else none

/-- A host with that kernel. -/
def lowVm : Vm := Vm.new (Os.ofFiles fun _ => some lowKernel)

/-- The kernel is what the parser finds in its file. -/
lemma Booted.vmlinux_eq (hb : Booted parse args vm plan vm') {file : List UInt8} {vmlinux : ElfFile}
    (hfile : ∀ path, args.linux = some path → vm.os.files path = some file)
    (hparse : parse file = some vmlinux) :
    plan.vmlinux = vmlinux := by
  obtain ⟨linux, hlinux, hfile', hparse'⟩ := hb.kernel
  have e : plan.file = file := Option.some.inj (hfile'.symm.trans (hfile linux hlinux))
  rw [e, hparse] at hparse'
  exact (Option.some.inj hparse').symm

/-- The start info is written over the kernel, and the boot returns. -/
theorem pvh_low_kernel_overwritten :
    ∃ vm', linuxPvhBoot parseLow (tinyArgs 0x200000) lowVm = (.ok (), vm') ∧
    ∀ plan, Booted parseLow (tinyArgs 0x200000) lowVm plan vm' →
      ¬ plan.Intact (tinyArgs 0x200000) vm' := by
  have hrun : (linuxPvhBoot parseLow (tinyArgs 0x200000) lowVm).1 = .ok () := by decide +kernel
  refine ⟨_, ok_of_fst hrun, fun plan hb intact => ?_⟩
  have separate := hb.intact_iff.mp intact
  rw [hb.vmlinux_eq (fun _ _ => rfl) (if_pos rfl)] at separate
  have apart := separate.info lowSegment (by decide) ⟨0x10000, 56⟩
    (.tail _ (.tail _ (.tail _ (.head _))))
  exact absurd apart (by decide)

/-- The small kernel with an initramfs and a command line. -/
def initrdArgs : Args := ⟨some "tiny", some 0x200000, none, some "initrd", some "quiet"⟩

/-- A host with a kernel and an initramfs. -/
def initrdVm : Vm :=
  Vm.new (Os.ofFiles fun path => if path = "initrd" then some [1, 2, 3] else some tinyKernel)

/-- It is decided by the sizes. -/
instance (headers : List ProgramHeader) (args : Args) (path : String) (bytes : List UInt8) :
    Decidable (ModulesClear headers args path bytes) := inferInstanceAs (Decidable (_ ∨ _))

/-- The kernel, at 128 KiB, and the initramfs after it are as they were placed. -/
theorem pvh_intact_tiny : ∃ plan vm', linuxPvhBoot parseTiny initrdArgs initrdVm = (.ok (), vm') ∧
    Booted parseTiny initrdArgs initrdVm plan vm' ∧ plan.Intact initrdArgs vm' := by
  have hrun : (linuxPvhBoot parseTiny initrdArgs initrdVm).1 = .ok () := by decide +kernel
  obtain ⟨plan, hb, intact⟩ := pvh_intact_iff (ok_of_fst hrun) rfl
  refine ⟨plan, _, ok_of_fst hrun, hb, intact.mpr ?_⟩
  have kernel (path : String) (named : initrdArgs.linux = some path) :
    initrdVm.os.files path = some tinyKernel := by
    cases named
    rfl
  rw [hb.vmlinux_eq kernel (if_pos rfl)]
  refine ⟨List.pairwise_singleton .., by decide +kernel, fun path bytes named read => ?_⟩
  cases named
  cases read
  exact ⟨by decide +kernel, by decide +kernel⟩

end Hearth
