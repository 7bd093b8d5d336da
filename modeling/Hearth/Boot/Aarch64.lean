import Hearth.Boot.Load

/-!
# Booting on aarch64

Model of `arch_load_linux` of `arch/aarch64/init.rs`, which copies the device tree, the initramfs
and the kernel to fixed offsets of the guest's memory. Each copy is checked against the end of
the memory only. `Intact` says that none of the three has overwritten another, and
`loaded_intact_iff` for which sizes that is so.
-/

namespace Hearth.Aarch64
open Lib

/-- Where guest memory starts. -/
def loadAddr : UInt64 := 0x40000000
/-- Where the initramfs is put, from there. -/
def initramfsOffs : UInt64 := 0x200000
/-- Where the kernel is put. -/
def kernOffs : UInt64 := 0x200000 + initramfsOffs

/-- `struct Arm64ImageHeader` -/
structure Arm64ImageHeader where
  code0 : UInt32
  code1 : UInt32
  textOffset : UInt64
  imageSize : UInt64
  flags : UInt64
  res2 : UInt64
  res3 : UInt64
  res4 : UInt64
  magic : UInt32
  res5 : UInt32

/-- `read_le32` -/
def readLe32 (b : List UInt8) (o : Nat) : UInt32 := Layout.decode ((b.drop o).take 4)

/-- `read_le64` -/
def readLe64 (b : List UInt8) (o : Nat) : UInt64 := Layout.decode ((b.drop o).take 8)

/-- `get_linux_header`; `read_exact` fails if the file is shorter than the buffer. -/
def getLinuxHeader (path : String) : BootM Arm64ImageHeader := do
  let file ← readFile path
  let buf := file.take 64
  if buf.length < 64 then
    Eff.throw .os
  else
    pure {
      code0 := readLe32 buf 0
      code1 := readLe32 buf 4
      textOffset := readLe64 buf 8
      imageSize := readLe64 buf 16
      flags := readLe64 buf 24
      res2 := readLe64 buf 32
      res3 := readLe64 buf 40
      res4 := readLe64 buf 48
      magic := readLe32 buf 56
      res5 := readLe32 buf 60 }

/-- The names in `REGS`. -/
def registers : List String :=
  (List.range 30).map (fun x => "x" ++ toString x) ++ ["sp", "pc", "pstate"]

/-- `set_one_reg` -/
def setOneReg (name : String) (val : UInt64) : BootM Unit := do
  if name ∉ registers then
    Eff.throw .noRegister
  else do
    ioctl
    Eff.modify fun vm => { vm with regs := Function.update vm.regs name val }

/-- `get_one_reg` -/
def getOneReg (name : String) : BootM UInt64 := do
  if name ∉ registers then
    Eff.throw .noRegister
  else do
    ioctl
    Eff.gets fun vm => vm.regs name

/-- `print_regs` -/
def printRegs : BootM Unit := do
  let _ ← getOneReg "x0"
  let _ ← getOneReg "pc"

/-- `arch_load_linux` -/
def archLoadLinux (args : Args) : BootM Unit := do
  let linuxPath ← Eff.okOr args.linux .noLinuxImage
  let _ ← getLinuxHeader linuxPath
  -- the length in the file's metadata, which is printed
  let _ ← readFile linuxPath
  let linuxMemIdx ← addMemRegion (args.memory.getD (2 ^ 30)) loadAddr
  let dtbPath ← Eff.okOr args.dtb .noDeviceTree
  let _ ← loadFileToMemory linuxMemIdx dtbPath 0
  let _ ← (match args.initramfs with
    | some initramfsPath => loadFileToMemory linuxMemIdx initramfsPath initramfsOffs
    | none => pure 0 : BootM Nat)
  let _ ← loadFileToMemory linuxMemIdx linuxPath kernOffs
  setOneReg "x0" loadAddr
  setOneReg "x1" 0
  setOneReg "x2" 0
  setOneReg "x3" 0
  setOneReg "pc" (loadAddr + kernOffs)
  printRegs

/-! ## What it leaves in memory -/

section Run

variable {args : Args} {vm vm' : Vm} {name path : String} {a : UInt64}

/-- The kernel has a header. -/
lemma getLinuxHeader_ok {header : Arm64ImageHeader}
    (h : getLinuxHeader path vm = (.ok header, vm')) :
    (∃ file, vm.os.files path = some file ∧ 64 ≤ file.length) ∧ vm' = vm := by
  unfold getLinuxHeader at h
  obtain ⟨file, vm1, h1, h2⟩ := Eff.bind_ok_iff.mp h
  obtain ⟨hf, rfl⟩ := readFile_ok h1
  split at h2
  · cases h2
  · next hlen =>
    cases h2
    rw [List.length_take] at hlen
    exact ⟨⟨file, hf, by omega⟩, rfl⟩

/-- Nothing but the registers and the answers of KVM changes. -/
def SetsRegs (vm vm' : Vm) : Prop :=
  ∃ fails regs, vm' = { vm with ioctlFails := fails, regs := regs }

/-- Registers are set in two steps. -/
lemma SetsRegs.trans {vm1 vm2 vm3 : Vm} (h : SetsRegs vm1 vm2) (h' : SetsRegs vm2 vm3) :
    SetsRegs vm1 vm3 := by
  obtain ⟨fails, regs, rfl⟩ := h
  obtain ⟨fails', regs', rfl⟩ := h'
  exact ⟨fails', regs', rfl⟩

/-- Setting a register changes registers only. -/
lemma setOneReg_ok (h : setOneReg name a vm = (.ok (), vm')) : SetsRegs vm vm' := by
  unfold setOneReg at h
  split at h
  · cases h
  · obtain ⟨⟨⟩, vm1, h1, h2⟩ := Eff.bind_ok_iff.mp h
    obtain ⟨fails, rfl⟩ := ioctl_ok h1
    cases h2
    exact ⟨fails, _, rfl⟩

/-- Reading one changes nothing. -/
lemma getOneReg_ok (h : getOneReg name vm = (.ok a, vm')) : SetsRegs vm vm' := by
  unfold getOneReg at h
  split at h
  · cases h
  · obtain ⟨⟨⟩, vm1, h1, h2⟩ := Eff.bind_ok_iff.mp h
    obtain ⟨fails, rfl⟩ := ioctl_ok h1
    cases h2
    exact ⟨fails, _, rfl⟩

/-- Printing them changes nothing. -/
lemma printRegs_ok (h : printRegs vm = (.ok (), vm')) : SetsRegs vm vm' := by
  unfold printRegs at h
  obtain ⟨x0, vm1, h1, h2⟩ := Eff.bind_ok_iff.mp h
  obtain ⟨pc, vm2, h3, h4⟩ := Eff.bind_ok_iff.mp h2
  cases h4
  exact (getOneReg_ok h1).trans (getOneReg_ok h3)

/-- The bytes have been copied to the last region, and the rest of the VM is as it was. -/
structure Copies (vm : Vm) (region : MemRegion) (offset : UInt64) (bytes : List UInt8)
    (vm' : Vm) : Prop where
  os : vm'.os = vm.os
  guestMemory : vm'.guestMemory = vm.guestMemory
  mem : vm'.mem = vm.mem.write (region.memPtr + offset.toNat) bytes

variable {vm0 : Vm} {region : MemRegion} {regions : GuestMemory} {n : Nat} {arg : Option String}

/-- A file that is loaded is copied to where it is put. -/
lemma loadFile_copies (h : loadFileToMemory regions.length path a vm = (.ok n, vm'))
    (hr : vm.guestMemory = regions ++ [region]) (hos : vm.os = vm0.os) :
    Copies vm region a (vm0.contents (some path)) vm' := by
  obtain ⟨bytes, hf, h1⟩ := loadFileToMemory_ok h
  obtain ⟨region', hr', -, -, -, rfl⟩ := loadDataToMemory_ok h1
  have hreg : region = region' := by simpa [hr] using hr'
  have hbytes : vm0.contents (some path) = bytes := by simp [Vm.contents, ← hos, hf]
  rw [hreg, hbytes]
  exact ⟨rfl, rfl, rfl⟩

/-- Without the argument nothing is copied, which is a copy of no bytes. -/
lemma loadInitramfs_copies
    (h : (match arg with
      | some path => loadFileToMemory regions.length path a
      | none => pure 0 : BootM Nat) vm = (.ok n, vm'))
    (hr : vm.guestMemory = regions ++ [region]) (hos : vm.os = vm0.os) :
    Copies vm region a (vm0.contents arg) vm' := by
  cases arg with
  | some path => exact loadFile_copies h hr hos
  | none =>
    cases h
    exact ⟨rfl, rfl, (Mem.write_nil ..).symm⟩

/-- The copies, in the order they are made. -/
def copies (region : MemRegion) (dtb initramfs kernel : List UInt8) : List (Nat × List UInt8) :=
  [(region.memPtr, dtb), (region.memPtr + initramfsOffs.toNat, initramfs),
    (region.memPtr + kernOffs.toNat, kernel)]

/-- The memory of a guest that was loaded is a new region with the three copies. -/
lemma archLoadLinux_ok (h : archLoadLinux args vm = (.ok (), vm')) :
    64 ≤ (vm.contents args.linux).length ∧
      ∃ region, vm'.guestMemory = vm.guestMemory ++ [region] ∧ region.guestPhysAddr = loadAddr ∧
        ∃ mem : Mem, vm'.mem = mem.writes (copies region (vm.contents args.dtb)
          (vm.contents args.initramfs) (vm.contents args.linux)) := by
  unfold archLoadLinux at h
  obtain ⟨linuxPath, vm1, h1, h2⟩ := Eff.bind_ok_iff.mp h
  obtain ⟨hlinux, rfl⟩ := Eff.okOr_ok h1
  obtain ⟨header, vm2, h3, h4⟩ := Eff.bind_ok_iff.mp h2
  obtain ⟨⟨kernel, hkernel, hlen⟩, rfl⟩ := getLinuxHeader_ok h3
  obtain ⟨len, vm3, h5, h6⟩ := Eff.bind_ok_iff.mp h4
  obtain ⟨-, rfl⟩ := readFile_ok h5
  obtain ⟨idx, vm4, h7, h8⟩ := Eff.bind_ok_iff.mp h6
  obtain ⟨region, fails, -, hgpa, rfl, -, e4⟩ := addMemRegion_ok h7
  obtain ⟨dtbPath, vm5, h9, h10⟩ := Eff.bind_ok_iff.mp h8
  obtain ⟨hdtb, rfl⟩ := Eff.okOr_ok h9
  have hreg : vm5.guestMemory = vm3.guestMemory ++ [region] := by rw [e4]
  have hos : vm5.os = vm3.os := by rw [e4]; rfl
  -- the three copies
  obtain ⟨n1, vm6, h11, h12⟩ := Eff.bind_ok_iff.mp h10
  have c1 := loadFile_copies h11 hreg hos
  obtain ⟨n2, vm7, h13, h14⟩ := Eff.bind_ok_iff.mp h12
  have c2 := loadInitramfs_copies h13 (c1.guestMemory.trans hreg) (c1.os.trans hos)
  obtain ⟨n3, vm8, h15, h16⟩ := Eff.bind_ok_iff.mp h14
  have c3 := loadFile_copies h15 (c2.guestMemory.trans (c1.guestMemory.trans hreg))
    (c2.os.trans (c1.os.trans hos))
  -- the registers
  obtain ⟨⟨⟩, vm9, h17, h18⟩ := Eff.bind_ok_iff.mp h16
  obtain ⟨⟨⟩, vm10, h19, h20⟩ := Eff.bind_ok_iff.mp h18
  obtain ⟨⟨⟩, vm11, h21, h22⟩ := Eff.bind_ok_iff.mp h20
  obtain ⟨⟨⟩, vm12, h23, h24⟩ := Eff.bind_ok_iff.mp h22
  obtain ⟨⟨⟩, vm13, h25, h26⟩ := Eff.bind_ok_iff.mp h24
  obtain ⟨fails', regs, rfl⟩ := (setOneReg_ok h17).trans <| (setOneReg_ok h19).trans <|
    (setOneReg_ok h21).trans <| (setOneReg_ok h23).trans <|
      (setOneReg_ok h25).trans (printRegs_ok h26)
  refine ⟨by simpa [Vm.contents, hlinux, hkernel] using hlen, region, ?_, hgpa, vm5.mem, ?_⟩
  · exact c3.guestMemory.trans (c2.guestMemory.trans (c1.guestMemory.trans hreg))
  · show vm8.mem = _
    rw [c3.mem, c2.mem, c1.mem, hdtb, hlinux]
    rfl

end Run

/-! ## When the files keep apart -/

/-- The three files have ranges of their own in the region, and each is there byte for byte. -/
structure Intact (vm : Vm) (region : MemRegion) (dtb initramfs kernel : List UInt8) : Prop where
  apart : [⟨0, dtb.length⟩, ⟨initramfsOffs.toNat, initramfs.length⟩,
    ⟨kernOffs.toNat, kernel.length⟩].Pairwise Span.Apart
  dtb : vm.Holds region 0 dtb
  initramfs : vm.Holds region initramfsOffs initramfs
  kernel : vm.Holds region kernOffs kernel

/-- The device tree ends before the initramfs, or before the kernel if there is no initramfs, and
    the initramfs ends before the kernel. -/
structure Fits (dtb initramfs : List UInt8) : Prop where
  dtb_le : dtb.length ≤ kernOffs.toNat
  initramfs_le : initramfs ≠ [] →
    dtb.length ≤ initramfsOffs.toNat ∧ initramfsOffs.toNat + initramfs.length ≤ kernOffs.toNat

/-- Two megabytes from the start. -/
lemma initramfsOffs_eq : initramfsOffs.toNat = 0x200000 := by decide

/-- Four megabytes from the start. -/
lemma kernOffs_eq : kernOffs.toNat = 0x400000 := by decide

section Sizes

variable {dtb initramfs kernel : List UInt8}

/-- Wherever the region is, the ranges are apart exactly if the first two files are small enough. -/
lemma spans_apart_iff (dtb initramfs : List UInt8) (base : Nat) (hk : 64 ≤ kernel.length) :
    [⟨base, dtb.length⟩, ⟨base + initramfsOffs.toNat, initramfs.length⟩,
      ⟨base + kernOffs.toNat, kernel.length⟩].Pairwise Span.Apart ↔ Fits dtb initramfs := by
  simp only [List.pairwise_cons, List.mem_cons, List.not_mem_nil, or_false, forall_eq_or_imp,
    forall_eq, Span.apart_iff, initramfsOffs_eq, kernOffs_eq]
  constructor
  · intro h
    constructor
    · rw [kernOffs_eq]
      omega
    · intro hne
      have hpos := List.length_pos_iff.mpr hne
      rw [initramfsOffs_eq, kernOffs_eq]
      omega
  · intro h
    have hd := h.dtb_le
    have hi := h.initramfs_le
    rw [initramfsOffs_eq, kernOffs_eq] at hi
    rw [kernOffs_eq] at hd
    rcases Nat.eq_zero_or_pos initramfs.length with h0 | hpos
    · exact ⟨⟨.inr (.inl h0), by omega⟩, by omega, nofun, .nil⟩
    · obtain ⟨h1, h2⟩ := hi (List.length_pos_iff.mp hpos)
      exact ⟨⟨by omega, by omega⟩, by omega, nofun, .nil⟩

/-- The three copies keep apart exactly if the first two are small enough. -/
lemma copied_intact_iff {vm : Vm} {region : MemRegion} {mem : Mem}
    (hmem : vm.mem = mem.writes (copies region dtb initramfs kernel)) (hk : 64 ≤ kernel.length) :
    Intact vm region dtb initramfs kernel ↔ Fits dtb initramfs := by
  have zero := spans_apart_iff dtb initramfs 0 hk
  simp only [Nat.zero_add] at zero
  constructor
  · intro h
    exact zero.mp h.apart
  · intro h
    have apart : ((copies region dtb initramfs kernel).map Mem.target).Pairwise Span.Apart :=
      (spans_apart_iff dtb initramfs region.memPtr hk).mpr h
    have hold := Mem.read_writes_apart (m := mem) (List.pairwise_map.mp apart)
    rw [← hmem] at hold
    exact {
      apart := zero.mpr h
      dtb := hold _ List.mem_cons_self
      initramfs := hold _ (List.mem_cons_of_mem _ List.mem_cons_self)
      kernel := hold _ (List.mem_cons_of_mem _ (List.mem_cons_of_mem _ List.mem_cons_self)) }

end Sizes

/-! ## When it returns -/

section Runs

variable {args : Args} {vm : Vm} {name path : String} {a : UInt64}

/-- A file of 64 bytes has a header. -/
lemma getLinuxHeader_run {file : List UInt8} (hf : vm.os.files path = some file)
    (hlen : 64 ≤ file.length) :
    ∃ header, getLinuxHeader path vm = (.ok header, vm) := by
  unfold getLinuxHeader
  rw [Eff.bind_of_ok (readFile_run hf), if_neg (by rw [List.length_take]; omega)]
  exact ⟨_, rfl⟩

/-- A register that is there is set. -/
lemma setOneReg_run (name : String) (a : UInt64) (hn : name ∈ registers) (hk : vm.ioctlFails = []) :
    ∃ vm', setOneReg name a vm = (.ok (), vm') ∧ vm'.ioctlFails = [] := by
  unfold setOneReg
  rw [if_neg (not_not_intro hn), Eff.bind_of_ok (ioctl_run hk)]
  exact ⟨_, rfl, hk⟩

/-- A register that is there is read. -/
lemma getOneReg_run (hn : name ∈ registers) (hk : vm.ioctlFails = []) :
    getOneReg name vm = (.ok (vm.regs name), vm) := by
  unfold getOneReg
  rw [if_neg (not_not_intro hn), Eff.bind_of_ok (ioctl_run hk)]
  rfl

/-- The registers are printed. -/
lemma printRegs_run (hk : vm.ioctlFails = []) : printRegs vm = (.ok (), vm) := by
  unfold printRegs
  rw [Eff.bind_of_ok (getOneReg_run (by decide) hk), Eff.bind_of_ok (getOneReg_run (by decide) hk)]
  rfl

/-- Loading succeeds when the files are there, the memory has room for
each and KVM refuses nothing. -/
lemma archLoadLinux_runs {linuxPath dtbPath : String} {kernel dtb : List UInt8} {memSize ptr : Nat}
    (hl : args.linux = some linuxPath) (hd : args.dtb = some dtbPath)
    (hsize : args.memory.getD (2 ^ 30) = memSize) (hkernel : vm.os.files linuxPath = some kernel)
    (hdtb : vm.os.files dtbPath = some dtb) (hlen : 64 ≤ kernel.length)
    (hinit : ∀ path, args.initramfs = some path → ∃ bytes, vm.os.files path = some bytes ∧
      initramfsOffs.toNat + bytes.length ≤ memSize)
    (hroom : kernOffs.toNat + kernel.length ≤ memSize) (hroom' : dtb.length ≤ memSize)
    (hm : vm.os.mmap vm.mapped memSize = some ptr) (hk : vm.ioctlFails = []) :
    ∃ vm', archLoadLinux args vm = (.ok (), vm') := by
  obtain ⟨header, h1⟩ := getLinuxHeader_run hkernel hlen
  obtain ⟨region, vm1, h2, hreg, rfl, hgpa, hos, hk1⟩ := addMemRegion_run (a := loadAddr) hm hk
  rw [kernOffs_eq] at hroom
  unfold archLoadLinux
  rw [hl, Eff.okOr_some, Eff.pure_bind_run, Eff.bind_of_ok h1,
    Eff.bind_of_ok (readFile_run hkernel),
    hsize, Eff.bind_of_ok h2, hd, Eff.okOr_some, Eff.pure_bind_run]
  have hr : vm1.guestMemory[vm.guestMemory.length]? = some region := by simp [hreg]
  -- no offset is so large that the address of a copy wraps
  have hlt : ∀ offset : UInt64, offset.toNat ≤ 0x400000 →
      offset.toNat + region.guestPhysAddr.toNat < 2 ^ 64 := by
    intro offset hle
    have hload : loadAddr.toNat = 0x40000000 := by decide
    rw [hgpa, hload]
    omega
  rw [← hos] at hkernel hdtb hinit
  -- the three copies
  have h3 : loadFileToMemory vm.guestMemory.length dtbPath 0 vm1 = _ :=
    loadFileToMemory_run hdtb hr (by show 0 < _; omega) (by show 0 + _ ≤ _; omega)
      (hlt _ (by decide))
  rw [Eff.bind_of_ok h3]
  have h4 : ∃ n vm2, (match args.initramfs with
      | some path => loadFileToMemory vm.guestMemory.length path initramfsOffs
      | none => pure 0 : BootM Nat) (vm1.place region dtb 0) = (.ok n, vm2) ∧
      vm2.os = vm1.os ∧ vm2.guestMemory = vm1.guestMemory ∧ vm2.ioctlFails = vm1.ioctlFails := by
    cases hi : args.initramfs with
    | none =>
      exact ⟨_, _, rfl, Vm.place_os .., Vm.place_guestMemory .., Vm.place_ioctlFails ..⟩
    | some path =>
      obtain ⟨bytes, hf, hfit⟩ := hinit path hi
      have hpos : initramfsOffs.toNat < region.memSize := by rw [initramfsOffs_eq]; omega
      rw [← Vm.place_os region dtb 0] at hf
      have hr2 : (vm1.place region dtb 0).guestMemory[vm.guestMemory.length]? = some region := by
        rw [Vm.place_guestMemory, hr]
      refine ⟨_, _, loadFileToMemory_run hf hr2 hpos hfit (hlt _ (by decide)), ?_, ?_, ?_⟩
      · rw [Vm.place_os, Vm.place_os]
      · rw [Vm.place_guestMemory, Vm.place_guestMemory]
      · rw [Vm.place_ioctlFails, Vm.place_ioctlFails]
  obtain ⟨n, vm2, h4, hos2, hreg2, hk2⟩ := h4
  rw [Eff.bind_of_ok h4]
  rw [← hos2] at hkernel
  rw [← hreg2] at hr
  have h5 : loadFileToMemory vm.guestMemory.length linuxPath kernOffs vm2 = _ :=
    loadFileToMemory_run hkernel hr (by rw [kernOffs_eq]; omega) (by rw [kernOffs_eq]; omega)
      (hlt _ (by decide))
  rw [Eff.bind_of_ok h5]
  -- the registers
  have hk3 : (vm2.place region kernel kernOffs).ioctlFails = [] := by
    rw [Vm.place_ioctlFails, hk2, hk1]
  obtain ⟨vm4, h6, hk4⟩ := setOneReg_run "x0" loadAddr (by decide) hk3
  obtain ⟨vm5, h7, hk5⟩ := setOneReg_run "x1" 0 (by decide) hk4
  obtain ⟨vm6, h8, hk6⟩ := setOneReg_run "x2" 0 (by decide) hk5
  obtain ⟨vm7, h9, hk7⟩ := setOneReg_run "x3" 0 (by decide) hk6
  obtain ⟨vm8, h10, hk8⟩ := setOneReg_run "pc" (loadAddr + kernOffs) (by decide) hk7
  rw [Eff.bind_of_ok h6, Eff.bind_of_ok h7, Eff.bind_of_ok h8, Eff.bind_of_ok h9,
    Eff.bind_of_ok h10]
  exact ⟨vm8, printRegs_run hk8⟩

end Runs

/-- A guest that was loaded has its three files intact in the new region exactly if they fit. -/
theorem loaded_intact_iff {args : Args} {vm vm' : Vm} (h : archLoadLinux args vm = (.ok (), vm')) :
    ∃ region, vm'.guestMemory = vm.guestMemory ++ [region] ∧ region.guestPhysAddr = loadAddr ∧
      (Intact vm' region (vm.contents args.dtb) (vm.contents args.initramfs)
        (vm.contents args.linux) ↔
        Fits (vm.contents args.dtb) (vm.contents args.initramfs)) := by
  obtain ⟨hk, region, hreg, hgpa, mem, hmem⟩ := archLoadLinux_ok h
  exact ⟨region, hreg, hgpa, copied_intact_iff hmem hk⟩

/-! ## A large initramfs -/

/-- A system with a device tree, a kernel of 64 bytes and an initramfs of some length. -/
def bootOs (initramfsLen : Nat) : Os := .ofFiles fun path =>
  if path = "virt.dtb" then some [0xd0, 0x0d, 0xfe, 0xed]
  else if path = "Image" then some (List.replicate 64 0xaa)
  else if path = "initramfs.cpio" then some (List.replicate initramfsLen 0x30)
  else none

/-- The arguments name a file for each of the three. -/
def bootArgs : Args where
  linux := some "Image"
  memory := none
  dtb := some "virt.dtb"
  initramfs := some "initramfs.cpio"
  append := none

section Large

variable (len : Nat)

/-- The device tree of the example. -/
lemma bootOs_dtb : (Vm.new (bootOs len)).contents bootArgs.dtb = [0xd0, 0x0d, 0xfe, 0xed] := rfl

/-- The kernel of these arguments is 64 bytes long. -/
lemma bootOs_linux : (Vm.new (bootOs len)).contents bootArgs.linux = List.replicate 64 0xaa := rfl

/-- Its initramfs, of any length. -/
lemma bootOs_initramfs :
    (Vm.new (bootOs len)).contents bootArgs.initramfs = List.replicate len 0x30 := rfl

/-- All that the copies are checked against is the size of the memory. -/
lemma boot_runs (hlen : len ≤ 0x3fe00000) :
    ∃ vm', archLoadLinux bootArgs (Vm.new (bootOs len)) = (.ok (), vm') := by
  have hsize : bootArgs.memory.getD (2 ^ 30) = 0x40000000 := by
    show 2 ^ 30 = 0x40000000
    norm_num
  have hm : (bootOs len).mmap [] 0x40000000 = some 0 := by
    show (if 0 + 0x40000000 ≤ 2 ^ 63 then some 0 else none) = some 0
    norm_num
  apply archLoadLinux_runs rfl rfl hsize rfl rfl ?_ ?_ ?_ ?_ hm rfl
  · rw [List.length_replicate]
  · intro path hp
    cases hp
    refine ⟨_, rfl, ?_⟩
    rw [List.length_replicate, initramfsOffs_eq]
    omega
  · rw [List.length_replicate, kernOffs_eq]
    norm_num
  · simp

end Large

/-- Not every guest that was loaded has its files: an initramfs of 2 MiB
and a byte loses its last one. -/
theorem large_initramfs_overwritten : ¬ ∀ args vm vm', archLoadLinux args vm = (.ok (), vm') →
    ∃ region, vm'.guestMemory = vm.guestMemory ++ [region] ∧
      Intact vm' region (vm.contents args.dtb) (vm.contents args.initramfs)
        (vm.contents args.linux) := by
  intro always
  obtain ⟨vm', h⟩ := boot_runs 0x200001 (by norm_num)
  obtain ⟨region, -, intact⟩ := always bootArgs _ vm' h
  have hi := intact.initramfs
  have hk := intact.kernel
  rw [bootOs_initramfs] at hi
  rw [bootOs_linux] at hk
  -- the byte at `kernOffs`, the last one of the initramfs and the first one of the kernel
  have b1 := hi.getElem (i := 0x200000) (by rw [List.length_replicate]; norm_num)
  have b2 := hk.getElem (i := 0) (by rw [List.length_replicate]; norm_num)
  rw [List.getElem_replicate, initramfsOffs_eq] at b1
  rw [List.getElem_replicate, kernOffs_eq] at b2
  rw [Nat.add_assoc] at b1 b2
  exact absurd (b1.symm.trans b2) (by decide)

/-- With an initramfs of up to 2 MiB all three files are there. -/
theorem initramfs_2M_intact :
    ∃ vm', archLoadLinux bootArgs (Vm.new (bootOs 0x200000)) = (.ok (), vm') ∧
    ∃ region, vm'.guestMemory = [region] ∧
      Intact vm' region [0xd0, 0x0d, 0xfe, 0xed] (List.replicate 0x200000 0x30)
        (List.replicate 64 0xaa) := by
  obtain ⟨vm', h⟩ := boot_runs 0x200000 (by norm_num)
  obtain ⟨region, hreg, -, hiff⟩ := loaded_intact_iff h
  rw [bootOs_dtb, bootOs_initramfs, bootOs_linux] at hiff
  refine ⟨vm', h, region, hreg, hiff.mpr ⟨?_, fun _ => ⟨?_, ?_⟩⟩⟩
  · rw [kernOffs_eq]
    simp
  · rw [initramfsOffs_eq]
    simp
  · rw [List.length_replicate, initramfsOffs_eq, kernOffs_eq]

end Hearth.Aarch64
