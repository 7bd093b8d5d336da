import Hearth.Lib.Processor
import Hearth.Boot.Pvh

/-!
# The guest's entry

`pvh_start` of `guests/doom/boot.S`: from the state that `protected_mode_setup` of
`arch/x86_64/vcpu.rs` leaves the virtual CPU in, to the call of `kmain` in 64-bit code. The
guest clears its `.bss`, builds page tables there that map the first 4 GiB to themselves,
and enables long mode and SSE.
-/

namespace Hearth.Doom.Boot

open Lib Lib.Processor

/-! ## protected_mode_setup -/

/-- The registers of `struct kvm_sregs2` that the guest's entry depends on. -/
structure Sregs2 where
  cs : Segment
  ds : Segment
  es : Segment
  fs : Segment
  gs : Segment
  ss : Segment
  tr : Segment
  gdt : Table
  idt : Table
  cr0 : UInt64
  cr3 : UInt64
  cr4 : UInt64
  efer : UInt64

/-- The flat 32-bit code segment that the VMM gives the virtual CPU. -/
def code : Segment where
  base := 0
  limit := 0xffffffff
  selector := 1 <<< 3
  type := 0b1010
  present := 1
  dpl := 0
  db := 1
  s := 1
  l := 0
  g := 1
  avl := 0

/-- The flat data segment. -/
def data : Segment := { code with selector := 2 <<< 3, type := 0b0010 }

/-- `VCPU::protected_mode_setup`, between reading the registers and writing them -/
def protectedModeSetup (sregs2 : Sregs2) : Sregs2 :=
  { sregs2 with
    cs := code
    ds := data
    es := data
    fs := data
    gs := data
    ss := data
    tr := { code with base := 0, limit := 0x67, g := 0, s := 0 }
    cr0 := 0x1
    cr4 := 0x0 }

/-- The CPU with these registers; the others that the boot sets are `rip`, `rbx` and `rflags`. -/
def ofKvm (sregs2 : Sregs2) (regs : Reg → UInt64) (rip rflags : UInt64) (mem : Mem) : Cpu where
  regs := regs
  rip := rip
  rflags := rflags
  cs := sregs2.cs
  ds := sregs2.ds
  es := sregs2.es
  fs := sregs2.fs
  gs := sregs2.gs
  ss := sregs2.ss
  gdtr := sregs2.gdt
  idtr := sregs2.idt
  cr0 := sregs2.cr0
  cr3 := sregs2.cr3
  cr4 := sregs2.cr4
  efer := sregs2.efer
  mem := mem

/-- What the entry relies on: flat segments of 32 bits, no paging, and the bits of `CR0` and `CR4`
that the PVH protocol asks for. -/
structure Entered (c : Cpu) : Prop where
  cr0 : c.cr0 = 0x1
  cr4 : c.cr4 = 0x0
  ds : c.ds.Whole
  es : c.es.Whole
  cs : c.cs.l = 0

/-- Whatever else is in the registers, the guest is entered this way. -/
lemma entered_of_protectedModeSetup (sregs2 : Sregs2) (regs : Reg → UInt64)
    (rip rflags : UInt64) (m : Mem) :
    Entered (ofKvm (protectedModeSetup sregs2) regs rip rflags m) := by
  have whole : data.Whole := by decide
  exact ⟨rfl, rfl, whole, whole, rfl⟩

/-- Paging is off at the entry. -/
lemma Entered.unpaged {c : Cpu} (h : Entered c) : c.paging = false := by
  rw [Cpu.paging, h.cr0]
  decide

/-! ## The image -/

/-- Where the linker puts what `boot.S` refers to. -/
structure Image where
  /-- `__bss_start` -/
  bssStart : Nat
  /-- `__bss_end` -/
  bssEnd : Nat
  /-- the `.bss` of `boot.S` -/
  bss : Nat
  gdt : Nat
  longMode : Nat
  /-- the instruction after the call -/
  halt : Nat
  kmain : Nat
  /-- `.align 4096` -/
  bss_aligned : bss % 4096 = 0
  bss_inside : bssStart ≤ bss ∧ bss + (6 * 4096 + 2 ^ 20 + 4) ≤ bssEnd
  /-- `.bss` is the last section. -/
  gdt_before : gdt + 30 ≤ bssStart
  code_before : longMode < bssStart ∧ halt < bssStart ∧ kmain < bssStart
  /-- Their addresses are operands of 32 bits. -/
  small : bssEnd < 2 ^ 32

/-- The loops that fill a table of 64-bit entries: an iteration stores the low half of the next. -/
def fill (table : Nat) (step count : UInt32) : Asm Bool := do
  let c ← Eff.gets id
  storeLow Cpu.ds ((table + 8 * (c.low .rcx).toNat) % 2 ^ 32) .rax
  modifyLow .rax (· + step)
  modifyLow .rcx (· + 1)
  let c ← Eff.gets id
  pure (c.low .rcx ≠ count)

namespace Image

variable (image : Image)

/-- The page map is the first thing in `.bss`. -/
def pml4 : Nat := image.bss
/-- The directory pointers are a page behind it. -/
def pdpt : Nat := image.pml4 + 4096
/-- Four page directories are behind those. -/
def pd : Nat := image.pdpt + 4096
/-- The stack follows the tables. -/
def stack : Nat := image.pd + 4096 * 4
/-- It takes a megabyte, and grows down from here. -/
def stackTop : Nat := image.stack + 1 <<< 20
/-- The variable that keeps the start info's address, above the stack. -/
def startInfo : Nat := image.stackTop
/-- What `lgdt` loads, behind the three descriptors. -/
def gdtPtr : Nat := image.gdt + 24

/-- `gdt`, from its first entry to its last -/
def descriptors : List UInt64 := [0, 0x00af9a000000ffff, 0x00cf92000000ffff]

/-- The memory has the data of `boot.S` where the linker put it. -/
structure Loaded (m : Mem) : Prop where
  gdt : m.read image.gdt 24 = descriptors.flatMap Layout.encode
  limit : m.read image.gdtPtr 2 = toLE 2 23
  base : m.read (image.gdtPtr + 2) 4 = toLE 4 image.gdt

/-! ## pvh_start -/

/-- From the entry to the page tables. -/
def clearBss (fuel : Nat) : Asm Unit := do
  cli
  cld
  moveLow .rsi .rbx
  setLow .rdi (.ofNat image.bssStart)
  setLow .rcx (.ofNat image.bssEnd)
  let c ← Eff.gets id
  modifyLow .rcx (· - c.low .rdi)
  modifyLow .rax fun _ => 0
  Eff.loop stosb fuel
  storeLow Cpu.ds image.startInfo .rsi

/-- The tables of `pvh_start`: one entry, four entries and 2048 pages of 2 MiB. -/
def pageTables (fuel : Nat) : Asm Unit := do
  setLow .rax (.ofNat image.pdpt + 3)
  storeLow Cpu.ds image.pml4 .rax
  setLow .rax (.ofNat image.pd + 3)
  setLow .rcx 0
  Eff.loop (fill image.pdpt 0x1000 4) fuel
  setLow .rax 0x83
  setLow .rcx 0
  Eff.loop (fill image.pd 0x200000 2048) fuel

/-- `CR4` and `CR3` -/
def setTables : Asm Unit := do
  let c ← Eff.gets id
  setLow .rax c.cr4.toUInt32
  modifyLow .rax (· ||| 0x620)
  setCr4
  setLow .rax (.ofNat image.pml4)
  setCr3

/-- `EFER` -/
def enableLongMode : Asm Unit := do
  setLow .rcx 0xc0000080
  rdmsr
  modifyLow .rax (· ||| 0x100)
  wrmsr

/-- `CR0` -/
def enablePaging : Asm Unit := do
  let c ← Eff.gets id
  setLow .rax c.cr0.toUInt32
  modifyLow .rax (· &&& ~~~4)
  modifyLow .rax (· ||| 0x80000003)
  setCr0

/-- `long_mode`, to the call -/
def enterKmain : Asm Unit := do
  setWord .rax 0x10
  setSegment fun s c => { c with ds := s }
  setSegment fun s c => { c with es := s }
  setSegment fun s c => { c with ss := s }
  setSegment fun s c => { c with fs := s }
  setSegment fun s c => { c with gs := s }
  set .rsp (.ofNat image.stackTop)
  fninit
  let bs ← loadFrom Cpu.ds image.startInfo 4
  setLow .rdi (Layout.decode bs)
  call (.ofNat image.halt) (.ofNat image.kmain)

/-- `pvh_start`, up to the call of `kmain`. -/
def pvhStart (fuel : Nat) : Asm Unit := do
  image.clearBss fuel
  image.pageTables fuel
  image.setTables
  enableLongMode
  enablePaging
  lgdt image.gdtPtr
  ljmp 0x08 (.ofNat image.longMode)
  image.enterKmain

end Image

/-! ## The loops -/

variable {c : Cpu} {a n fuel : Nat}

/-- `loop` counts `ecx` down. -/
lemma ofNat_succ_sub (n : Nat) : UInt32.ofNat (n + 1) - 1 = .ofNat n := by
  rw [UInt32.ofNat_add]
  exact add_sub_cancel_right _ _

/-- It goes on while the count is not zero. -/
lemma ofNat_ne_zero (some : 0 < n) (small : n < 2 ^ 32) : UInt32.ofNat n ≠ 0 := by
  intro h
  have zero := congrArg UInt32.toNat h
  rw [UInt32.toNat_ofNat', Nat.mod_eq_of_lt small] at zero
  exact Nat.ne_of_gt some zero

/-- `rep stosb` clears what it is pointed to. -/
lemma clear_run (fuel : Nat) (unpaged : c.paging = false) (whole : c.es.Whole)
    (up : bit c.rflags 10 = false)
    (count : c.low .rcx = .ofNat n) (first : c.low .rdi = .ofNat a) (zero : c.low .rax = 0)
    (low : a + n < 2 ^ 32) (enough : n < fuel) :
    ∃ regs, Eff.loop stosb fuel c =
      (.ok (), { c with regs := regs, mem := c.mem.write a (List.replicate n 0) }) ∧
      ∀ r, r ≠ .rdi → r ≠ .rcx → regs r = c.regs r := by
  -- one repetition moves `rdi` and `rcx` on, so both are general
  induction n generalizing c a fuel with
  | zero =>
    cases fuel with
    | zero => exact absurd enough (Nat.lt_irrefl 0)
    | succ fuel =>
      have none : c.low .rcx = 0 := count
      have done : stosb c = (.ok false, c) := by
        rw [stosb, Eff.gets_bind_run, id, if_pos none]
        rfl
      refine ⟨c.regs, ?_, fun _ _ _ => rfl⟩
      rw [Eff.loop_break done]
      exact congrArg (fun m => (Outcome.ok (), { c with mem := m })) (Mem.write_nil _ _).symm
  | succ n ih =>
    cases fuel with
    | zero => exact absurd enough (Nat.not_lt_zero _)
    | succ fuel =>
      have address : (c.low .rdi).toNat = a := by
        rw [first, UInt32.toNat_ofNat', Nat.mod_eq_of_lt (by omega)]
      have more : c.low .rcx ≠ 0 := by
        rw [count]
        exact ofNat_ne_zero (Nat.succ_pos n) (by omega)
      have next : c.low .rdi + 1 = .ofNat (a + 1) := by
        rw [first, UInt32.ofNat_add]
        rfl
      have left : c.low .rcx - 1 = .ofNat n := by
        rw [count, ofNat_succ_sub]
      have stored := storeTo_run (a := (c.low .rdi).toNat) Cpu.es [(c.low .rax).toUInt8]
        (flat_unpaged ⟨0, 0⟩ unpaged) whole Nat.zero_lt_one (by rw [address]; show a + 1 ≤ _; omega)
      generalize hregs :
        Function.update (Function.update c.regs .rdi (UInt32.ofNat (a + 1)).toUInt64) .rcx
        (UInt32.ofNat n).toUInt64 = regs
      have step : stosb c = (.ok true, { c with regs := regs, mem := c.mem.write a [0] }) := by
        rw [stosb, Eff.gets_bind_run, id, if_neg more, Eff.bind_of_ok stored, address, zero, up,
          next, left, ← hregs]
        rfl
      have kept (r : Reg) (di : r ≠ .rdi) (cx : r ≠ .rcx) : regs r = c.regs r := by
        rw [← hregs, Function.update_of_ne cx, Function.update_of_ne di]
      have count' : (regs .rcx).toUInt32 = .ofNat n := by
        rw [← hregs, Function.update_self, UInt32.toUInt32_toUInt64]
      have first' : (regs .rdi).toUInt32 = .ofNat (a + 1) := by
        rw [← hregs, Function.update_of_ne (by decide), Function.update_self,
          UInt32.toUInt32_toUInt64]
      have zero' : (regs .rax).toUInt32 = 0 := by
        rw [kept .rax (by decide) (by decide)]
        exact zero
      obtain ⟨regs', h, same⟩ :=
        ih (c := { c with regs := regs, mem := c.mem.write a [0] }) (a := a + 1) fuel
        unpaged whole up count' first' zero' (by omega) (by omega)
      refine ⟨regs', ?_, fun r di cx => (same r di cx).trans (kept r di cx)⟩
      rw [Eff.loop_step step, h]
      exact congrArg (fun m => (Outcome.ok (), { c with regs := regs', mem := m }))
        (Mem.write_cons _ _ _ _).symm

/-- The low halves of `k` entries from the one at `i` on. -/
def entries (table : Nat) (value : Nat → UInt32) (i k : Nat) : List (Nat × List UInt8) :=
  (List.range' i k).map fun j => (table + 8 * j, Layout.encode (value j))

section Fill

variable (table : Nat) (step count first : UInt32) {i k : Nat}

/-- One iteration goes on unless the entry is the last. -/
lemma fill_step (unpaged : c.paging = false) (whole : c.ds.Whole) (index : c.low .rcx = .ofNat i)
    (inside : i < count.toNat) (low : table + 8 * count.toNat < 2 ^ 32) :
    ∃ regs, fill table step count c = (.ok (decide (i + 1 ≠ count.toNat)),
        { c with regs := regs, mem := c.mem.write (table + 8 * i) (Layout.encode (c.low .rax)) }) ∧
      (regs .rcx).toUInt32 = .ofNat (i + 1) ∧ (regs .rax).toUInt32 = c.low .rax + step ∧
      ∀ r, r ≠ .rax → r ≠ .rcx → regs r = c.regs r := by
  have bound := count.toNat_lt
  have address : (table + 8 * (c.low .rcx).toNat) % 2 ^ 32 = table + 8 * i := by
    rw [index, UInt32.toNat_ofNat']
    omega
  have stored :=
    storeLow_run (a := table + 8 * i) Cpu.ds .rax (flat_unpaged ⟨0, 0⟩ unpaged) whole (by omega)
  have next : c.low .rcx + 1 = .ofNat (i + 1) := by
    rw [index, UInt32.ofNat_add]
    rfl
  refine ⟨Function.update (Function.update c.regs .rax (c.low .rax + step).toUInt64) .rcx
    (UInt32.ofNat (i + 1)).toUInt64, ?_, ?_, ?_, fun r ax cx => ?_⟩
  · have same : (UInt32.ofNat (i + 1)).toNat = i + 1 := by
      rw [UInt32.toNat_ofNat']
      omega
    have stop : decide (UInt32.ofNat (i + 1) ≠ count) = decide (i + 1 ≠ count.toNat) := by
      rw [decide_eq_decide, Ne, Ne, ← UInt32.toNat_inj, same]
    rw [fill, Eff.gets_bind_run, id, address, Eff.bind_of_ok stored,
      Eff.bind_of_ok (modifyLow_run _ _ _),
      Eff.bind_of_ok (modifyLow_run _ _ _), Eff.gets_bind_run, id, low_update_self,
      low_update_of_ne (by decide)]
    show (Outcome.ok (decide (c.low .rcx + 1 ≠ count)), ({ c with
      regs := Function.update (Function.update c.regs .rax (c.low .rax + step).toUInt64) .rcx
        (c.low .rcx + 1).toUInt64
      mem := c.mem.store (table + 8 * i) (c.low .rax) } : Cpu)) = _
    rw [next, stop]
    rfl
  · rw [Function.update_self, UInt32.toUInt32_toUInt64]
  · rw [Function.update_of_ne (by decide), Function.update_self, UInt32.toUInt32_toUInt64]
  · rw [Function.update_of_ne cx, Function.update_of_ne ax]

/-- The loop that fills a table, from entry `i` on with `k + 1` entries to go,
    by induction on `k`. -/
lemma fill_run (fuel : Nat) (unpaged : c.paging = false) (whole : c.ds.Whole)
    (index : c.low .rcx = .ofNat i)
    (value : c.low .rax = first + step * .ofNat i) (total : i + (k + 1) = count.toNat)
    (low : table + 8 * count.toNat < 2 ^ 32) (enough : k < fuel) :
    ∃ regs, Eff.loop (fill table step count) fuel c = (.ok (), { c with
        regs := regs, mem :=
          c.mem.writes (entries table (fun j => first + step * .ofNat j) i (k + 1)) }) ∧
      ∀ r, r ≠ .rax → r ≠ .rcx → regs r = c.regs r := by
  induction k generalizing c i fuel with
  | zero =>
    cases fuel with
    | zero => exact absurd enough (Nat.lt_irrefl 0)
    | succ fuel =>
      obtain ⟨regs, h, -, -, same⟩ := fill_step table step count unpaged whole index (by omega) low
      have last : decide (i + 1 ≠ count.toNat) = false := decide_eq_false (not_not_intro total)
      rw [last, value] at h
      exact ⟨regs, Eff.loop_break h, same⟩
  | succ k ih =>
    cases fuel with
    | zero => exact absurd enough (Nat.not_lt_zero _)
    | succ fuel =>
      obtain ⟨regs, h, index', value', same⟩ :=
        fill_step table step count unpaged whole index (by omega) low
      have more : decide (i + 1 ≠ count.toNat) = true := decide_eq_true (by omega)
      rw [more] at h
      have next : (regs .rax).toUInt32 = first + step * .ofNat (i + 1) := by
        have one : step * UInt32.ofNat 1 = step := UInt32.mul_one step
        rw [value', value, UInt32.ofNat_add, UInt32.mul_add, one, UInt32.add_assoc]
      obtain ⟨regs', h', same'⟩ := ih (c := { c with
        regs := regs, mem := c.mem.write (table + 8 * i) (Layout.encode (c.low .rax)) })
          (i := i + 1) fuel
        unpaged whole index' next (by omega) (by omega)
      refine ⟨regs', ?_, fun r ax cx => (same' r ax cx).trans (same r ax cx)⟩
      rw [Eff.loop_step h, h', value]
      rfl

end Fill

/-! ## What is left in the memory -/

/-- The stores of the loop are one for each entry. -/
lemma mem_entries {table i k : Nat} {value : Nat → UInt32} {w : Nat × List UInt8} :
    w ∈ entries table value i k ↔
    ∃ j, i ≤ j ∧ j < i + k ∧ w = (table + 8 * j, Layout.encode (value j)) := by
  constructor
  · intro h
    obtain ⟨j, hj, rfl⟩ := List.mem_map.mp h
    have bounds := List.mem_range'_1.mp hj
    exact ⟨j, bounds.1, bounds.2, rfl⟩
  · rintro ⟨j, lower, upper, rfl⟩
    exact List.mem_map.mpr ⟨j, List.mem_range'_1.mpr ⟨lower, upper⟩, rfl⟩

/-- No two entries share a byte. -/
lemma entries_apart (table : Nat) (value : Nat → UInt32) (i k : Nat) :
    (entries table value i k).Pairwise fun w w' => (Mem.target w).Apart (Mem.target w') := by
  rw [entries, List.pairwise_map]
  refine List.Pairwise.imp (fun {j j'} less => ?_) List.pairwise_lt_range'
  have length : (Layout.encode (value j)).length = 4 := Layout.encode_length _
  apply Span.apart_of_le
  show table + 8 * j + (Layout.encode (value j)).length ≤ table + 8 * j'
  omega

namespace Image

variable (image : Image)

/-- What is stored in the cleared `.bss`, for the start info at `p`. -/
def stores (p : UInt32) : List (Nat × List UInt8) :=
  (image.startInfo, Layout.encode p) ::
    (entries image.pml4 (fun _ => .ofNat image.pdpt + 3) 0 1 ++
      (entries image.pdpt (fun j => .ofNat image.pd + 3 + 0x1000 * .ofNat j) 0 4 ++
        entries image.pd (fun j => 0x83 + 0x200000 * .ofNat j) 0 2048))

/-- Memory with `.bss` zeroed. -/
def cleared (m : Mem) : Mem :=
  m.write image.bssStart (List.replicate (image.bssEnd - image.bssStart) 0)

/-- The memory when the page tables are done. -/
def built (p : UInt32) (m : Mem) : Mem := (image.cleared m).writes (image.stores p)

variable {image} {m : Mem} {p : UInt32}

/-- What is stored is four bytes, in the start info's variable or in an entry of a table. -/
lemma stores_cases {w : Nat × List UInt8} (h : w ∈ image.stores p) :
    w.2.length = 4 ∧
    (w.1 = image.startInfo ∨ w.1 = image.pml4 ∨ (∃ j < 4, w.1 = image.pdpt + 8 * j) ∨
      ∃ j < 2048, w.1 = image.pd + 8 * j) := by
  rcases List.mem_cons.mp h with rfl | h
  · exact ⟨Layout.encode_length p, .inl rfl⟩
  rcases List.mem_append.mp h with h | h
  · obtain ⟨j, -, upper, rfl⟩ := mem_entries.mp h
    refine ⟨Layout.encode_length _, .inr (.inl ?_)⟩
    show image.pml4 + 8 * j = _
    omega
  rcases List.mem_append.mp h with h | h
  · obtain ⟨j, -, upper, rfl⟩ := mem_entries.mp h
    exact ⟨Layout.encode_length _, .inr (.inr (.inl ⟨j, by omega, rfl⟩))⟩
  · obtain ⟨j, -, upper, rfl⟩ := mem_entries.mp h
    exact ⟨Layout.encode_length _, .inr (.inr (.inr ⟨j, by omega, rfl⟩))⟩

/-- No two of the stores share a byte. -/
lemma stores_apart :
    (image.stores p).Pairwise fun w w' => (Mem.target w).Apart (Mem.target w') := by
  have within {t : Nat} {value : Nat → UInt32} {k : Nat} {w : Nat × List UInt8}
    (h : w ∈ entries t value 0 k) :
      (Mem.target w).Inside ⟨t, 8 * k⟩ := by
    obtain ⟨j, -, upper, rfl⟩ := mem_entries.mp h
    have length : (Layout.encode (value j)).length = 4 := Layout.encode_length _
    apply Span.inside_of_le
    · exact Nat.le_add_right t _
    · show t + 8 * j + (Layout.encode (value j)).length ≤ t + 8 * k
      omega
  have before {a n b k : Nat} (h : a + n ≤ b) : Span.Apart ⟨a, n⟩ ⟨b, k⟩ := Span.apart_of_le h
  refine List.pairwise_cons.mpr ⟨fun w h => ?_, List.pairwise_append.mpr ⟨entries_apart _ _ _ _,
    List.pairwise_append.mpr ⟨entries_apart _ _ _ _, entries_apart _ _ _ _, fun w h w' h' => ?_⟩,
    fun w h w' h' => ?_⟩⟩
  · apply Span.Apart.symm
    rcases List.mem_append.mp h with h | h
    · exact (before (by simp only [pml4, startInfo, stackTop, stack, pd, pdpt]; omega)).mono
        (within h)
        (Span.Inside.refl _)
    rcases List.mem_append.mp h with h | h
    · exact (before (by simp only [startInfo, stackTop, stack, pd]; omega)).mono (within h)
        (Span.Inside.refl _)
    · exact (before (by simp only [startInfo, stackTop, stack]; omega)).mono (within h)
        (Span.Inside.refl _)
  · exact (before (by simp only [pd]; omega)).mono (within h) (within h')
  · rcases List.mem_append.mp h' with h' | h'
    · exact (before (by simp only [pdpt]; omega)).mono (within h) (within h')
    · exact (before (by simp only [pd, pdpt]; omega)).mono (within h) (within h')

/-- `.bss` -/
def bssSpan (image : Image) : Span := ⟨image.bssStart, image.bssEnd - image.bssStart⟩

/-- The `.bss` of `boot.S`: the page tables, the stack and the address of the start info. -/
def own (image : Image) : Span := ⟨image.bss, 6 * 4096 + 2 ^ 20 + 4⟩

/-- The tables, the stack and the variable lie in `.bss`. -/
lemma own_inside : image.own.Inside image.bssSpan := by
  have inside := image.bss_inside
  apply Span.inside_of_le
  · exact inside.1
  · show image.bss + (6 * 4096 + 2 ^ 20 + 4) ≤ image.bssStart + (image.bssEnd - image.bssStart)
    omega

/-- Every store goes into the tables, the stack or the variable. -/
lemma target_own {w : Nat × List UInt8} (h : w ∈ image.stores p) :
    (Mem.target w).Inside image.own := by
  obtain ⟨length, place⟩ := stores_cases h
  have bounds : image.bss ≤ w.1 ∧ w.1 + w.2.length ≤ image.bss + (6 * 4096 + 2 ^ 20 + 4) := by
    simp only [startInfo, stackTop, stack, pd, pdpt, pml4] at place
    rcases place with h | h | ⟨j, less, h⟩ | ⟨j, less, h⟩
    · omega
    · omega
    · omega
    · omega
  exact Span.inside_of_le bounds.1 bounds.2

/-- Every store goes into `.bss`. -/
lemma target_inside {w : Nat × List UInt8} (h : w ∈ image.stores p) :
    (Mem.target w).Inside image.bssSpan :=
  (target_own h).trans own_inside

/-- Outside of `.bss` memory is as it was. -/
lemma built_outside {x : Nat} (h : x ∉ image.bssSpan) : image.built p m x = m x := by
  rw [built, Mem.writes_outside fun w hw hx => h (target_inside hw x hx), cleared,
    Mem.write_outside]
  rwa [List.length_replicate]

/-- What nothing is stored to is clear. -/
lemma built_zero {x : Nat} (h : x ∈ image.bssSpan)
    (untouched : ∀ w ∈ image.stores p, x ∉ Mem.target w) :
    image.built p m x = 0 := by
  obtain ⟨i, hi⟩ := Nat.exists_eq_add_of_le (show image.bssStart ≤ x from h.1)
  subst hi
  have less : i < image.bssEnd - image.bssStart := Nat.lt_of_add_lt_add_left h.2
  rw [built, Mem.writes_outside untouched, cleared,
    Mem.write_inside (by rwa [List.length_replicate]), List.getElem_replicate]

/-- Memory in front of `.bss` is read as it was. -/
lemma built_read {a n : Nat} (before : a + n ≤ image.bssStart) :
    (image.built p m).read a n = m.read a n :=
  Mem.read_congr fun _ hx => built_outside fun inside =>
    Nat.not_lt.mpr inside.1 (Nat.lt_of_lt_of_le hx.2 before)

/-- The descriptor table and its pointer are in front of `.bss`. -/
lemma built_loaded (loaded : image.Loaded m) : image.Loaded (image.built p m) := by
  have before := image.gdt_before
  have pointer : image.gdtPtr + 6 ≤ image.bssStart := by
    simp only [gdtPtr]
    omega
  exact {
    gdt := (built_read (by omega)).trans loaded.gdt
    limit := (built_read (by omega)).trans loaded.limit
    base := (built_read (by omega)).trans loaded.base }

/-- What `lgdt` loads is the table. -/
lemma Loaded.table (loaded : image.Loaded m) :
    (⟨ofLE (m.read image.gdtPtr 2), ofLE (m.read (image.gdtPtr + 2) 4)⟩ : Table) =
      ⟨23, image.gdt⟩ := by
  have small := image.small
  have before := image.gdt_before
  have inside := image.bss_inside
  have low : image.gdt % 256 ^ 4 = image.gdt := Nat.mod_eq_of_lt (by omega)
  rw [loaded.limit, loaded.base, ofLE_toLE, ofLE_toLE, low]
  rfl

/-- The variable has the start info's address. -/
lemma built_startInfo : (image.built p m).load UInt32 image.startInfo = p :=
  Mem.load_of_read
    (Mem.read_writes_apart stores_apart (image.startInfo, Layout.encode p) List.mem_cons_self)

/-- The tables map the first 4 GiB, each address to itself. -/
lemma built_identity : Paging.Identity (image.built p m) image.pml4 image.pdpt image.pd := by
  have small := image.small
  have inside := image.bss_inside
  have aligned := image.bss_aligned
  -- the upper halves of the entries, and the entries no loop writes, are as `rep stosb` left them
  have zero (x : Nat) (lower : image.pml4 ≤ x) (upper : x < image.stack)
      (high : (x - image.pml4) % 8 ≥ 4 ∨ (image.pml4 + 8 ≤ x ∧ x < image.pdpt) ∨
        (image.pdpt + 32 ≤ x ∧ x < image.pd)) :
      image.built p m x = 0 := by
    apply built_zero
    · constructor
      · exact Nat.le_trans inside.1 lower
      · simp only [bssSpan, stack, pd, pdpt, pml4] at upper ⊢
        omega
    · intro w hw hx
      obtain ⟨length, place⟩ := stores_cases hw
      have lo := hx.1
      have hi := hx.2
      simp only [Mem.target, startInfo, stackTop, stack, pd, pdpt,
        pml4] at lo hi place high lower upper
      rcases place with h | h | ⟨j, less, h⟩ | ⟨j, less, h⟩
      · omega
      · omega
      · omega
      · omega
  have entry {t j : Nat} {v : UInt32} (h : (t + 8 * j, Layout.encode v) ∈ image.stores p)
    (lower : image.pml4 ≤ t)
      (upper : t + 8 * j + 8 ≤ image.stack) (place : (t - image.pml4) % 8 = 0) :
      Paging.entry (image.built p m) t j = v.toNat := by
    apply Paging.entry_low v.toNat_lt
    · have read := Mem.read_writes_apart (m := image.cleared m) stores_apart _ h
      rwa [Layout.encode_length] at read
    · intro x hx
      have lo := hx.1
      have hi := hx.2
      dsimp only at lo hi
      exact zero x (by omega) (by omega) (.inl (by omega))
  have absent {t j : Nat} (lower : image.pml4 ≤ t + 8 * j) (upper : t + 8 * j + 8 ≤ image.stack)
      (between : (image.pml4 + 8 ≤ t + 8 * j ∧ t + 8 * j + 8 ≤ image.pdpt) ∨
        (image.pdpt + 32 ≤ t + 8 * j ∧ t + 8 * j + 8 ≤ image.pd)) :
          Paging.entry (image.built p m) t j = 0 := by
    apply Paging.entry_zero
    intro x hx
    have lo := hx.1
    have hi := hx.2
    dsimp only at lo hi
    exact zero x (by omega) (by omega) (.inr (by omega))
  have pdpt_eq : image.pdpt = image.pml4 + 4096 := rfl
  have pd_eq : image.pd = image.pdpt + 4096 := rfl
  have stack_eq : image.stack = image.pd + 4096 * 4 := rfl
  have bss_eq : image.pml4 = image.bss := rfl
  -- the PML4, the PDPT and the four page directories, entry by entry
  refine ⟨by omega, by omega, by omega, fun i hi => ?_, fun i hi => ?_, fun i hi => ?_⟩
  · by_cases first : i = 0
    · rw [if_pos first, first]
      have top : (image.pml4 + 8 * 0, Layout.encode (UInt32.ofNat image.pdpt + 3)) ∈
        image.stores p :=
        List.mem_cons_of_mem _
        (List.mem_append_left _ (mem_entries.mpr ⟨0, Nat.le_refl 0, Nat.zero_lt_one, rfl⟩))
      rw [entry top (by omega) (by omega) (by omega), UInt32.toNat_add, UInt32.toNat_ofNat']
      show (image.pdpt % 2 ^ 32 + 3) % 2 ^ 32 = _
      omega
    · rw [if_neg first]
      exact absent (by omega) (by omega) (.inl (by omega))
  · by_cases first : i < 4
    · rw [if_pos first]
      have middle :
          (image.pdpt + 8 * i, Layout.encode (UInt32.ofNat image.pd + 3 + 0x1000 * .ofNat i)) ∈
            image.stores p :=
        List.mem_cons_of_mem _ (List.mem_append_right _ (List.mem_append_left _
          (mem_entries.mpr ⟨i, Nat.zero_le i, by omega, rfl⟩)))
      rw [entry middle (by omega) (by omega) (by omega), UInt32.toNat_add, UInt32.toNat_add,
        UInt32.toNat_mul, UInt32.toNat_ofNat', UInt32.toNat_ofNat']
      show ((image.pd % 2 ^ 32 + 3) % 2 ^ 32 + 4096 * (i % 2 ^ 32) % 2 ^ 32) % 2 ^ 32 = _
      omega
    · rw [if_neg first]
      exact absent (by omega) (by omega) (.inr (by omega))
  · have page : (image.pd + 8 * i, Layout.encode ((0x83 : UInt32) + 0x200000 * .ofNat i)) ∈
      image.stores p :=
      List.mem_cons_of_mem _ (List.mem_append_right _ (List.mem_append_right _
        (mem_entries.mpr ⟨i, Nat.zero_le i, by omega, rfl⟩)))
    rw [entry page (by omega) (by omega) (by omega), UInt32.toNat_add, UInt32.toNat_mul,
      UInt32.toNat_ofNat']
    show (0x83 + 2 ^ 21 * (i % 2 ^ 32) % 2 ^ 32) % 2 ^ 32 = _
    omega

/-! ## The run -/

/-- `rep stosb` zeroes `.bss`. -/
lemma clearBss_run (image : Image) (fuel : Nat) (unpaged : c.paging = false) (ds : c.ds.Whole)
    (es : c.es.Whole) (enough : 2 ^ 32 ≤ fuel) :
    ∃ regs, image.clearBss fuel c = (.ok (), { c with
      regs := regs
      rflags := c.rflags &&& ~~~0x200 &&& ~~~0x400
      mem := (image.cleared c.mem).store image.startInfo (c.low .rbx) }) := by
  have small := image.small
  have inside := image.bss_inside
  have place : image.startInfo + 4 ≤ image.bssEnd := by
    simp only [startInfo, stackTop, stack, pd, pdpt, pml4]
    omega
  -- up to `rep stosb` only registers and flags change
  have start : ∃ regs, image.clearBss fuel c =
    (Eff.loop stosb fuel >>= fun _ => storeLow Cpu.ds image.startInfo .rsi)
        { c with regs := regs, rflags := c.rflags &&& ~~~0x200 &&& ~~~0x400 } ∧
      (regs .rcx).toUInt32 = .ofNat (image.bssEnd - image.bssStart) ∧
      (regs .rdi).toUInt32 = .ofNat image.bssStart ∧
      (regs .rax).toUInt32 = 0 ∧ (regs .rsi).toUInt32 = c.low .rbx := by
    refine ⟨_, rfl, ?_, ?_, ?_, ?_⟩
    · have size : UInt32.ofNat (image.bssEnd - image.bssStart) =
        .ofNat image.bssEnd - .ofNat image.bssStart :=
        UInt32.ofNat_sub (by omega)
      simp only [size, id, Cpu.low, Function.update_self, UInt32.toUInt32_toUInt64,
        ne_eq, reduceCtorEq, not_false_eq_true, Function.update_of_ne]
    · simp only [Function.update_self, UInt32.toUInt32_toUInt64, ne_eq, reduceCtorEq,
        not_false_eq_true, Function.update_of_ne]
    · simp only [Function.update_self, UInt32.toUInt32_toUInt64]
    · simp only [id, Cpu.low, Function.update_self, UInt32.toUInt32_toUInt64, ne_eq, reduceCtorEq,
        not_false_eq_true, Function.update_of_ne]
  obtain ⟨regs1, run, count, first, zero, saved⟩ := start
  -- `cld` has cleared the direction flag
  have up : bit (c.rflags &&& ~~~0x200 &&& ~~~0x400) 10 = false := by
    rw [bit_and, Bool.and_eq_false_iff]
    right
    decide
  obtain ⟨regs2, loop, same⟩ := clear_run (c := { c with
    regs := regs1, rflags := c.rflags &&& ~~~0x200 &&& ~~~0x400 }) fuel unpaged es up
      count first zero
    (by omega) (by omega)
  have stored := storeLow_run (c := { c with
    regs := regs2, rflags := c.rflags &&& ~~~0x200 &&& ~~~0x400, mem := image.cleared c.mem })
      (a := image.startInfo)
    Cpu.ds .rsi (flat_unpaged ⟨0, 0⟩ unpaged) ds (by omega)
  have value : (regs2 .rsi).toUInt32 = c.low .rbx := by
    rw [same .rsi (by decide) (by decide)]
    exact saved
  refine ⟨regs2, ?_⟩
  rw [run, Eff.bind_of_ok loop, ← value]
  exact stored

/-- The loops build the tables. -/
lemma pageTables_run (fuel : Nat) (unpaged : c.paging = false) (ds : c.ds.Whole)
    (enough : 2 ^ 32 ≤ fuel) (mem : c.mem = (image.cleared m).store image.startInfo p) :
    ∃ regs, image.pageTables fuel c =
      (.ok (), { c with regs := regs, mem := image.built p m }) := by
  have small := image.small
  have inside := image.bss_inside
  have place : image.stack ≤ image.bssEnd := by
    simp only [stack, pd, pdpt, pml4]
    omega
  have flat {regs : Reg → UInt64} {m : Mem} : Flat { c with regs := regs, mem := m } ⟨0, 0⟩ :=
    flat_unpaged ⟨0, 0⟩ unpaged
  have first := storeLow_run (c := { c with
    regs := Function.update c.regs .rax (UInt32.ofNat image.pdpt + 3).toUInt64 })
      (a := image.pml4) Cpu.ds .rax
    flat ds (by simp only [stack, pd, pdpt] at place; omega)
  rw [low_update_self] at first
  -- the registers after each step get a name, so that the terms stay small
  generalize h1 :
    Function.update c.regs .rax (UInt32.ofNat image.pdpt + 3).toUInt64 = regs1 at first
  generalize h2 :
    Function.update (Function.update regs1 .rax (UInt32.ofNat image.pd + 3).toUInt64) .rcx
    (0 : UInt32).toUInt64 = regs2
  have run : image.pageTables fuel c =
    (Eff.loop (fill image.pdpt 0x1000 4) fuel >>= fun _ => setLow .rax 0x83 >>=
      fun _ => setLow .rcx 0 >>= fun _ => Eff.loop (fill image.pd 0x200000 2048) fuel)
      { c with regs := regs2, mem := c.mem.store image.pml4 (UInt32.ofNat image.pdpt + 3) } := by
    show (storeLow Cpu.ds image.pml4 .rax >>= fun _ => _) { c with
      regs := Function.update c.regs .rax (UInt32.ofNat image.pdpt + 3).toUInt64 } = _
    rw [h1, Eff.bind_of_ok first, ← h2]
    rfl
  have index2 : (regs2 .rcx).toUInt32 = .ofNat 0 := by
    rw [← h2, Function.update_self]
    rfl
  have value2 : (regs2 .rax).toUInt32 = .ofNat image.pd + 3 + 0x1000 * .ofNat 0 := by
    have none : (0x1000 : UInt32) * .ofNat 0 = 0 := rfl
    rw [← h2, Function.update_of_ne (by decide), Function.update_self, UInt32.toUInt32_toUInt64,
      none, UInt32.add_zero]
  have low3 : image.pdpt + 8 * 4 < 2 ^ 32 := by
    simp only [stack, pd] at place
    omega
  -- the first loop writes the four entries of the PDPT
  obtain ⟨regs3, loop1, -⟩ := fill_run (c := { c with
    regs := regs2, mem := c.mem.store image.pml4 (UInt32.ofNat image.pdpt + 3) }) (i := 0) (k := 3)
    image.pdpt 0x1000 4 (UInt32.ofNat image.pd + 3) fuel unpaged ds index2 value2 rfl
      low3 (by omega)
  generalize h4 :
    Function.update (Function.update regs3 .rax (0x83 : UInt32).toUInt64) .rcx
      (0 : UInt32).toUInt64 =
    regs4
  have index4 : (regs4 .rcx).toUInt32 = .ofNat 0 := by
    rw [← h4, Function.update_self]
    rfl
  have value4 : (regs4 .rax).toUInt32 = 0x83 + 0x200000 * .ofNat 0 := by
    rw [← h4, Function.update_of_ne (by decide), Function.update_self]
    rfl
  generalize hm : (c.mem.store image.pml4 (UInt32.ofNat image.pdpt + 3)).writes
    (entries image.pdpt (fun j => .ofNat image.pd + 3 + 0x1000 * .ofNat j) 0 4) = m4 at loop1
  -- the second loop writes the 2048 entries of the page directories
  obtain ⟨regs5, loop2, -⟩ :=
    fill_run (c := { c with regs := regs4, mem := m4 }) (i := 0) (k := 2047)
    image.pd 0x200000 2048 0x83 fuel unpaged ds index4 value4 rfl
    (by simp only [stack] at place; show image.pd + 8 * 2048 < _; omega) (by omega)
  have all : m4.writes (entries image.pd (fun j => 0x83 + 0x200000 * .ofNat j) 0 2048) =
    image.built p m := by
    have top : entries image.pml4 (fun _ => .ofNat image.pdpt + 3) 0 1 =
        [(image.pml4 + 8 * 0, Layout.encode (UInt32.ofNat image.pdpt + 3))] := rfl
    rw [built, stores, Mem.writes_cons, Mem.writes_append, Mem.writes_append, top,
      Mem.writes_cons, ← hm, mem]
    congr 1
  refine ⟨regs5, ?_⟩
  rw [run, Eff.bind_of_ok loop1]
  show Eff.loop (fill image.pd 0x200000 2048) fuel { c with
    regs := Function.update (Function.update regs3 .rax (0x83 : UInt32).toUInt64) .rcx
      (0 : UInt32).toUInt64
    mem := m4 } = _
  rw [h4, loop2, all]

/-- `cr4` and `cr3` are set. -/
lemma setTables_run (image : Image) (cr4 : c.cr4 = 0) :
    ∃ regs, image.setTables c = (.ok (), { c with
    regs := regs, cr4 := 0x620, cr3 := (UInt32.ofNat image.pml4).toUInt64 }) := by
  have run : ∃ regs cr4 cr3,
    image.setTables c = (.ok (), { c with regs := regs, cr4 := cr4, cr3 := cr3 }) ∧
      cr4 = 0x620 ∧ cr3 = (UInt32.ofNat image.pml4).toUInt64 := by
    refine ⟨_, _, _, rfl, ?_, ?_⟩
    · simp [Cpu.low, cr4]
    · simp [Cpu.low]
  obtain ⟨regs, _, _, h, rfl, rfl⟩ := run
  exact ⟨regs, h⟩

/-- `EFER` has long mode enabled. -/
lemma enableLongMode_run (unpaged : c.paging = false) :
    ∃ regs efer, enableLongMode c = (.ok (), { c with
    regs := regs, efer := efer }) ∧ bit efer 8 = true := by
  generalize h1 : Function.update c.regs .rcx (0xc0000080 : UInt32).toUInt64 = regs1
  have selected : ({ c with regs := regs1 } : Cpu).low .rcx = 0xc0000080 := by
    rw [← h1]
    exact low_update_self _ _ _
  have read := rdmsr_run selected
  generalize h2 : Function.update (Function.update regs1 .rax c.efer.toUInt32.toUInt64) .rdx
    (c.efer >>> 32).toUInt32.toUInt64 = regs2 at read
  have kept : ({ c with
      regs := Function.update regs2 .rax (({ c with regs := regs2 } : Cpu).low .rax |||
        0x100).toUInt64 } : Cpu).low
      .rcx = 0xc0000080 := by
    rw [low_update_of_ne (by decide), ← h2, Function.update_of_ne (by decide),
      Function.update_of_ne (by decide)]
    exact selected
  have written := wrmsr_run kept unpaged
  rw [low_update_self] at written
  have run : enableLongMode c = wrmsr { c with
      regs := Function.update regs2 .rax (({ c with regs := regs2 } : Cpu).low .rax |||
        0x100).toUInt64 } := by
    show (rdmsr >>= fun _ => modifyLow .rax (· ||| 0x100) >>= fun _ => wrmsr)
      { c with regs := Function.update c.regs .rcx (0xc0000080 : UInt32).toUInt64 } = _
    rw [h1, Eff.bind_of_ok read, Eff.bind_of_ok (modifyLow_run _ _ _)]
  refine ⟨_, _, run.trans written, ?_⟩
  rw [bit_or, Bool.or_eq_true]
  right
  rw [bit, UInt32.toNat_toUInt64, UInt32.toNat_or, Nat.testBit_or, Bool.or_eq_true]
  right
  decide

/-- Paging is turned on, and long mode is active. -/
lemma enablePaging_run (cr0 : c.cr0 = 1) (cr4 : c.cr4 = 0x620) (cs : c.cs.l = 0)
    (lme : bit c.efer 8 = true) :
    ∃ regs, enablePaging c = (.ok (), { c with
      regs := regs, cr0 := 0x80000003, efer := c.efer ||| 0x400 }) ∧ regs .rax = 0x80000003 := by
  have value : ((c.cr0.toUInt32 &&& ~~~4) ||| 0x80000003).toUInt64 = 0x80000003 := by
    rw [cr0]
    decide
  generalize h1 : Function.update (Function.update c.regs .rax c.cr0.toUInt32.toUInt64) .rax
    (c.cr0.toUInt32 &&& ~~~4).toUInt64 = regs1
  have low : ({ c with regs := regs1 } : Cpu).low .rax = c.cr0.toUInt32 &&& ~~~4 := by
    rw [← h1]
    exact low_update_self _ _ _
  have unpaged : c.paging = false := by
    rw [Cpu.paging, cr0]
    decide
  have began := setCr0_run (c := { c with
    regs := Function.update regs1 .rax ((c.cr0.toUInt32 &&& ~~~4) ||| 0x80000003).toUInt64 })
      (v := 0x80000003)
    (by rw [low_update_self, value]) (by decide) (by decide) (by decide) unpaged lme
      (by rw [cr4]; decide) cs
  have run : enablePaging c = setCr0 { c with
      regs := Function.update regs1 .rax ((c.cr0.toUInt32 &&& ~~~4) ||| 0x80000003).toUInt64 } := by
    have first := modifyLow_run .rax (· &&& ~~~4) { c with
      regs := Function.update c.regs .rax c.cr0.toUInt32.toUInt64 }
    rw [low_update_self] at first
    show (modifyLow .rax (· &&& ~~~4) >>= fun _ =>
      modifyLow .rax (· ||| 0x80000003) >>= fun _ => setCr0)
      { c with regs := Function.update c.regs .rax c.cr0.toUInt32.toUInt64 } = _
    rw [Eff.bind_of_ok first]
    show (modifyLow .rax (· ||| 0x80000003) >>= fun _ => setCr0) { c with
      regs := Function.update (Function.update c.regs .rax c.cr0.toUInt32.toUInt64) .rax
        (c.cr0.toUInt32 &&& ~~~4).toUInt64 } = _
    rw [h1, Eff.bind_of_ok (modifyLow_run _ _ _), low]
  refine ⟨_, run.trans began, ?_⟩
  show Function.update regs1 Reg.rax ((c.cr0.toUInt32 &&& ~~~4) ||| 0x80000003).toUInt64 Reg.rax = _
  rw [Function.update_self, value]

/-! ## 64-bit code -/

/-- The page tables of `boot.S`. -/
def tables (image : Image) : Span := ⟨image.pml4, 6 * 4096⟩

/-- The 64-bit code segment of the guest's own table. -/
def code64 : Segment := .ofDescriptor 0x08 0x00af9a000000ffff

/-- The data segment of the guest's own table. -/
def data64 : Segment := .ofDescriptor 0x10 0x00cf92000000ffff

/-- The page tables and the segment descriptors of `boot.S` are in use. -/
structure Paged (image : Image) (c : Cpu) : Prop where
  paging : c.paging = true
  long : c.long = true
  root : c.cr3 = (UInt32.ofNat image.pml4).toUInt64
  identity : Paging.Identity c.mem image.pml4 image.pdpt image.pd
  gdtr : c.gdtr = ⟨23, image.gdt⟩
  gdt : c.mem.read image.gdt 24 = descriptors.flatMap Layout.encode

/-- `cr3` has the address of the page map. -/
lemma Paged.frame (h : image.Paged c) : Paging.frame 12 c.cr3.toNat = image.pml4 := by
  have small := image.small
  have inside := image.bss_inside
  have aligned := image.bss_aligned
  have root : c.cr3.toNat = image.pml4 := by
    rw [h.root, UInt32.toNat_toUInt64, UInt32.toNat_ofNat']
    exact Nat.mod_eq_of_lt (by simp only [pml4]; omega)
  rw [root, Paging.frame]
  simp only [pml4]
  omega

/-- With the tables untouched every address below 4 GiB is itself. -/
lemma Paged.flat (h : image.Paged c) : Flat c image.tables := by
  have identity := h.identity
  rw [← h.frame] at identity
  refine flat_identity h.paging h.long identity (Span.inside_of_le ?_ ?_) (Span.inside_of_le ?_ ?_)
    (Span.inside_of_le ?_ ?_)
  · exact Nat.le_of_eq h.frame.symm
  · simp only [h.frame, tables]
    omega
  · simp only [tables, pdpt]
    omega
  · simp only [tables, pdpt]
    omega
  · simp only [tables, pd, pdpt]
    omega
  · simp only [tables, pd, pdpt]
    omega

/-- The first 4 GiB are where they are, and there is no other address. -/
lemma Paged.translate (h : image.Paged c) {a : Nat} (wide : a < 2 ^ 64) :
    c.translate a = if a < 2 ^ 32 then some (a, true) else none := by
  have paged : ¬ c.paging = false := ne_false_of_eq_true h.paging
  have longer : ¬ c.long = false := ne_false_of_eq_true h.long
  rw [Cpu.translate, if_neg paged, if_neg longer, h.frame]
  exact Paging.walk_identity h.identity wide

/-- The descriptors are read where the table has them. -/
lemma Paged.descriptor (h : image.Paged c) :
    c.mem.read (image.gdt + 8) 8 = Layout.encode (0x00af9a000000ffff : UInt64) ∧
      c.mem.read (image.gdt + 16) 8 = Layout.encode (0x00cf92000000ffff : UInt64) := by
  have gdt := h.gdt
  have split : c.mem.read image.gdt 24 =
      c.mem.read image.gdt 8 ++
      (c.mem.read (image.gdt + 8) 8 ++ c.mem.read (image.gdt + 16) 8) := by
    rw [show 24 = 8 + (8 + 8) from rfl, Mem.read_append, Mem.read_append]
  have values : descriptors.flatMap (Layout.encode : UInt64 → _) = Layout.encode (0 : UInt64) ++
      (Layout.encode (0x00af9a000000ffff : UInt64) ++
        Layout.encode (0x00cf92000000ffff : UInt64)) := by
    rw [descriptors, List.flatMap_cons, List.flatMap_cons, List.flatMap_cons, List.flatMap_nil,
      List.append_nil]
  rw [split, values] at gdt
  have rest := (List.append_inj gdt (by rw [Mem.read_length, Layout.encode_length]; rfl)).2
  exact List.append_inj rest (by rw [Mem.read_length, Layout.encode_length]; rfl)

/-- The segment of a selector is what its descriptor says. -/
lemma Paged.segment (h : image.Paged c) (selector : Nat) (d : UInt64) (some : selector / 4 ≠ 0)
    (global : selector / 4 % 2 = 0) (inside : selector / 8 * 8 + 7 ≤ 23)
    (descriptor : c.mem.read (image.gdt + selector / 8 * 8) 8 = Layout.encode d) :
    Processor.segment selector c = (.ok (.ofDescriptor selector d.toNat), c) := by
  have small := image.small
  have before := image.gdt_before
  have bss := image.bss_inside
  have base : c.gdtr.base = image.gdt := by rw [h.gdtr]
  have limit : c.gdtr.limit = 23 := by rw [h.gdtr]
  have value : ofLE (Layout.encode d) = d.toNat :=
    (ofLE_toLE 8 d.toNat).trans (Nat.mod_eq_of_lt d.toNat_lt)
  rw [segment_run h.flat some global (by omega) (by omega), base, descriptor, value]

/-- The code segment is loaded from the table. -/
lemma Paged.code (h : image.Paged c) : Processor.segment 0x08 c = (.ok code64, c) :=
  h.segment 0x08 0x00af9a000000ffff (by decide) (by decide) (by decide) h.descriptor.1

/-- The data segment is loaded from the table. -/
lemma Paged.data (h : image.Paged c) : Processor.segment 0x10 c = (.ok data64, c) :=
  h.segment 0x10 0x00cf92000000ffff (by decide) (by decide) (by decide) h.descriptor.2

/-- The stack lies behind the page tables and the descriptors. -/
lemma stack_apart (image : Image) {n : Nat} (above : image.stack ≤ a) :
    Span.Apart ⟨a, n⟩ image.tables ∧ Span.Apart ⟨a, n⟩ ⟨image.gdt, 24⟩ := by
  have inside := image.bss_inside.1
  have before := image.gdt_before
  have stack_eq : image.stack = image.pd + 4096 * 4 := rfl
  have pd_eq : image.pd = image.pdpt + 4096 := rfl
  have pdpt_eq : image.pdpt = image.pml4 + 4096 := rfl
  have pml4_eq : image.pml4 = image.bss := rfl
  have tables : Span.Apart image.tables ⟨a, n⟩ := by
    apply Span.apart_of_le
    show image.pml4 + 6 * 4096 ≤ a
    omega
  have gdt : Span.Apart ⟨image.gdt, 24⟩ ⟨a, n⟩ := by
    apply Span.apart_of_le
    show image.gdt + 24 ≤ a
    omega
  exact ⟨tables.symm, gdt.symm⟩

/-- What is stored elsewhere leaves them in use. -/
lemma Paged.write {bs : List UInt8} (h : image.Paged c)
    (tables : Span.Apart ⟨a, bs.length⟩ image.tables)
    (gdt : Span.Apart ⟨a, bs.length⟩ ⟨image.gdt, 24⟩) :
    image.Paged { c with mem := c.mem.write a bs } := by
  have keep {b n : Nat} (inside : Span.Inside ⟨b, n⟩ image.tables) :
      ∀ x ∈ (⟨b, n⟩ : Span), c.mem.write a bs x = c.mem x := fun x hx =>
    Mem.write_outside fun stored => tables x stored (inside x hx)
  have inside {b n : Nat} (lower : image.pml4 ≤ b) (upper : b + n ≤ image.pml4 + 6 * 4096) :
      Span.Inside ⟨b, n⟩ image.tables := Span.inside_of_le lower upper
  exact {
    paging := h.paging
    long := h.long
    root := h.root
    identity := h.identity.congr (keep (inside (by omega) (by omega)))
      (keep (inside (by simp only [pdpt]; omega)
      (by simp only [pdpt]; omega)))
        (keep (inside (by simp only [pd, pdpt]; omega) (by simp only [pd, pdpt]; omega)))
    gdtr := h.gdtr
    gdt := (Mem.read_write_apart gdt.symm).trans h.gdt }

/-- The five segment registers are loaded. -/
lemma enterKmain_segments (h : image.Paged c) (ax : c.regs .rax = 0x80000003) :
    ∃ regs, image.enterKmain c = (set .rsp (.ofNat image.stackTop) >>= fun _ =>
      fninit >>= fun _ => loadFrom Cpu.ds image.startInfo 4 >>= fun bs =>
      setLow .rdi (Layout.decode bs) >>= fun _ => call (.ofNat image.halt) (.ofNat image.kmain))
      { c with regs := regs, ds := data64, es := data64, ss := data64, fs := data64,
               gs := data64 } := by
  generalize h1 :
    Function.update c.regs .rax ((c.regs .rax &&& ~~~0xffff) ||| (0x10 : UInt16).toUInt64) = regs1
  have selector : (regs1 .rax).toNat % 2 ^ 16 = 0x10 := by
    rw [← h1, Function.update_self, ax]
    decide
  have isData : data64.Data := by decide
  -- each load of the selector 0x10 leaves the data segment in one more register
  have load (ds es ss fs gs : Segment) (put : Segment → Cpu → Cpu) :
      setSegment put { c with regs := regs1, ds := ds, es := es, ss := ss, fs := fs, gs := gs } =
        (.ok (), put data64 { c with regs := regs1, ds := ds, es := es, ss := ss, fs := fs,
                                     gs := gs }) := by
    have paged : image.Paged { c with regs := regs1, ds := ds, es := es, ss := ss, fs := fs,
                                      gs := gs } :=
      ⟨h.paging, h.long, h.root, h.identity, h.gdtr, h.gdt⟩
    have found := paged.data
    rw [← selector] at found
    exact setSegment_run found isData
  have word : setWord .rax 0x10 c = (.ok (), { c with regs := regs1 }) := by
    rw [← h1]
    rfl
  refine ⟨regs1, ?_⟩
  rw [enterKmain, Eff.bind_of_ok word]
  -- `ds`, `es`, `ss`, `fs` and `gs`, in the order of `boot.S`
  refine (Eff.bind_of_ok (load c.ds c.es c.ss c.fs c.gs _)).trans ?_
  refine (Eff.bind_of_ok (load data64 c.es c.ss c.fs c.gs _)).trans ?_
  refine (Eff.bind_of_ok (load data64 data64 c.ss c.fs c.gs _)).trans ?_
  refine (Eff.bind_of_ok (load data64 data64 data64 c.fs c.gs _)).trans ?_
  exact Eff.bind_of_ok (load data64 data64 data64 data64 c.gs _)

/-- From the far jump on: the segments, SSE, the stack, and the call with the address of
    the start info. -/
lemma enterKmain_run (h : image.Paged c) (code : c.cs = code64) (ax : c.regs .rax = 0x80000003)
    (em : bit c.cr0 2 = false) (ts : bit c.cr0 3 = false)
    (start : c.mem.load UInt32 image.startInfo = p) :
    ∃ regs, image.enterKmain c = (.ok (), { c with
        regs := regs, rip := .ofNat image.kmain, ds := data64, es := data64, ss := data64,
        fs := data64, gs := data64
        mem := c.mem.store (image.stackTop - 8) (UInt64.ofNat image.halt) }) ∧
      regs .rdi = p.toUInt64 ∧ regs .rsp = .ofNat (image.stackTop - 8) := by
  have small := image.small
  have inside := image.bss_inside
  have before := image.code_before
  have place : image.stackTop + 4 ≤ image.bssEnd := by
    simp only [stackTop, stack, pd, pdpt, pml4]
    omega
  have paged (regs : Reg → UInt64) (ds es ss fs gs : Segment) :
      image.Paged { c with regs := regs, ds := ds, es := es, ss := ss, fs := fs, gs := gs } :=
    ⟨h.paging, h.long, h.root, h.identity, h.gdtr, h.gdt⟩
  obtain ⟨regs1, segments⟩ := enterKmain_segments h ax
  generalize h2 : Function.update regs1 .rsp (.ofNat image.stackTop) = regs2
  generalize h3 : Function.update regs2 .rdi p.toUInt64 = regs3
  have stack : ({ c with
      regs := regs3, ds := data64, es := data64, ss := data64, fs := data64,
      gs := data64 } : Cpu).top =
      image.stackTop := by
    show (regs3 .rsp).toNat = _
    rw [← h3, Function.update_of_ne (by decide), ← h2, Function.update_self, UInt64.toNat_ofNat']
    omega
  have whole : data64.Whole := by decide
  have info : loadFrom Cpu.ds image.startInfo 4 { c with
      regs := regs2, ds := data64, es := data64, ss := data64, fs := data64, gs := data64 } =
      (.ok (c.mem.read image.startInfo 4), { c with
        regs := regs2, ds := data64, es := data64, ss := data64, fs := data64, gs := data64 }) :=
    loadFrom_run Cpu.ds (paged regs2 data64 data64 data64 data64 data64).flat whole (by decide) (by
      simp only [startInfo]
      omega)
  have reset := fninit_run (c := { c with
    regs := regs2, ds := data64, es := data64, ss := data64, fs := data64, gs := data64 }) em ts
  have pushed :=
    push_run (v := .ofNat image.halt) (paged regs3 data64 data64 data64 data64 data64).flat
    (by rw [stack]; simp only [stackTop]; omega) (by rw [stack]; omega)
  rw [stack] at pushed
  -- the pushed return address overwrites no table that paging uses
  have apart : Span.Apart ⟨image.stackTop - 8, (Layout.encode (UInt64.ofNat image.halt)).length⟩
    image.tables :=
    (stack_apart image (by simp only [stackTop]; omega)).1
  generalize h4 : Function.update regs3 .rsp (.ofNat (image.stackTop - 8)) = regs4
  have entered := jmp_run (c := { c with
      regs := regs4, ds := data64, es := data64, ss := data64, fs := data64, gs := data64
      mem := c.mem.store (image.stackTop - 8) (UInt64.ofNat image.halt) }) (.ofNat image.kmain)
    ((paged regs4 data64 data64 data64 data64 data64).flat.write apart)
      ⟨h.long, by rw [code]; decide⟩ (by
      rw [UInt64.toNat_ofNat']
      omega)
  have placed : set .rsp (.ofNat image.stackTop) { c with
      regs := regs1, ds := data64, es := data64, ss := data64, fs := data64,
      gs := data64 } = (.ok (), { c with
        regs := regs2, ds := data64, es := data64, ss := data64, fs := data64, gs := data64 }) := by
    rw [← h2]
    rfl
  have word : (Layout.decode (c.mem.read image.startInfo 4) : UInt32) = p := start
  have argument : setLow .rdi p { c with
      regs := regs2, ds := data64, es := data64, ss := data64, fs := data64,
      gs := data64 } = (.ok (), { c with
        regs := regs3, ds := data64, es := data64, ss := data64, fs := data64, gs := data64 }) := by
    rw [← h3]
    rfl
  have called : call (.ofNat image.halt) (.ofNat image.kmain) { c with
      regs := regs3, ds := data64, es := data64, ss := data64, fs := data64,
      gs := data64 } = (.ok (), { c with
        regs := regs4, rip := .ofNat image.kmain
        ds := data64, es := data64, ss := data64, fs := data64, gs := data64
        mem := c.mem.store (image.stackTop - 8) (UInt64.ofNat image.halt) }) := by
    rw [call, Eff.bind_of_ok pushed, Cpu.withTop, h4]
    exact entered
  refine ⟨regs4, ?_, ?_, ?_⟩
  · rw [segments, Eff.bind_of_ok placed, Eff.bind_of_ok reset, Eff.bind_of_ok info, word,
      Eff.bind_of_ok argument]
    exact called
  · rw [← h4, Function.update_of_ne (by decide), ← h3, Function.update_self]
  · rw [← h4, Function.update_self]

/-- From the entry to `kmain`. -/
lemma pvhStart_run (h : Entered c) (loaded : image.Loaded c.mem) (enough : 2 ^ 32 ≤ fuel) :
    ∃ c', image.pvhStart fuel c = (.ok (), c') ∧ image.Paged c' ∧ c'.cs = code64 ∧ c'.ss = data64 ∧
      c'.rip = .ofNat image.kmain ∧ c'.regs .rdi = (c.low .rbx).toUInt64 ∧
      c'.regs .rsp = .ofNat (image.stackTop - 8) ∧
      c'.rflags = c.rflags &&& ~~~0x200 &&& ~~~0x400 ∧ c'.cr0 = 0x80000003 ∧ c'.cr4 = 0x620 ∧
      c'.mem = (image.built (c.low .rbx) c.mem).store (image.stackTop - 8)
        (UInt64.ofNat image.halt) := by
  have small := image.small
  have inside := image.bss_inside
  have before := image.gdt_before
  -- until paging is on, every address is physical
  obtain ⟨regs1, run1⟩ := clearBss_run image fuel h.unpaged h.ds h.es enough
  obtain ⟨regs2, run2⟩ := pageTables_run (c := { c with
    regs := regs1, rflags := c.rflags &&& ~~~0x200 &&& ~~~0x400
    mem := (image.cleared c.mem).store image.startInfo (c.low .rbx) }) fuel h.unpaged
      h.ds enough rfl
  generalize hm : image.built (c.low .rbx) c.mem = m at *
  generalize hf : c.rflags &&& ~~~0x200 &&& ~~~0x400 = flags at *
  obtain ⟨regs3, run3⟩ :=
    setTables_run (c := { c with regs := regs2, rflags := flags, mem := m }) image h.cr4
  generalize hr : (UInt32.ofNat image.pml4).toUInt64 = root at *
  obtain ⟨regs4, efer, run4, lme⟩ := enableLongMode_run (c := { c with
    regs := regs3, rflags := flags, mem := m, cr4 := 0x620, cr3 := root }) h.unpaged
  obtain ⟨regs5, run5, ax⟩ := enablePaging_run (c := { c with
    regs := regs4, rflags := flags, mem := m, cr4 := 0x620, cr3 := root,
    efer := efer }) h.cr0 rfl h.cs lme
  have identity : Paging.Identity m image.pml4 image.pdpt image.pd := by
    rw [← hm]
    exact built_identity
  have loaded : image.Loaded m := by
    rw [← hm]
    exact built_loaded loaded
  have active : bit (efer ||| 0x400) 10 = true := by
    have set : bit 0x400 10 = true := by decide
    rw [bit_or, set, Bool.or_true]
  have on : bit 0x80000003 31 = true := by decide
  -- from here on the first 4 GiB are mapped to themselves
  have paged : image.Paged { c with
      regs := regs5, rflags := flags, mem := m, cr4 := 0x620, cr3 := root, cr0 := 0x80000003,
      efer := efer ||| 0x400
      gdtr := ⟨23, image.gdt⟩ } := {
    paging := on
    long := active
    root := hr.symm
    identity := identity
    gdtr := rfl
    gdt := loaded.gdt }
  have pointer : image.gdtPtr + 6 ≤ image.bssStart := by
    simp only [gdtPtr]
    omega
  have run6 := lgdt_run (c := { c with
      regs := regs5, rflags := flags, mem := m, cr4 := 0x620, cr3 := root, cr0 := 0x80000003,
      efer := efer ||| 0x400 })
    (a := image.gdtPtr) (fun m keep => paged.flat m keep) h.ds (by omega)
  have target : (UInt64.ofNat image.longMode).toNat < 2 ^ 32 := by
    have before := image.code_before
    rw [UInt64.toNat_ofNat']
    omega
  have isCode : code64.Code := by decide
  have run7 := ljmp_run paged.flat paged.code isCode rfl paged.long target
  have entered : image.Paged { c with
      regs := regs5, rflags := flags, mem := m, cr4 := 0x620, cr3 := root, cr0 := 0x80000003,
      efer := efer ||| 0x400
      gdtr := ⟨23, image.gdt⟩, cs := code64, rip := .ofNat image.longMode } :=
    ⟨paged.paging, paged.long, paged.root, paged.identity, paged.gdtr, paged.gdt⟩
  have start : m.load UInt32 image.startInfo = c.low .rbx := by
    rw [← hm]
    exact built_startInfo
  have em : bit 0x80000003 2 = false := by decide
  have ts : bit 0x80000003 3 = false := by decide
  obtain ⟨regs8, run8, di, sp⟩ := enterKmain_run entered rfl ax em ts start
  have above := stack_apart (a := image.stackTop - 8)
    (n := (Layout.encode (UInt64.ofNat image.halt)).length) image (by simp only [stackTop]; omega)
  have pushed := entered.write above.1 above.2
  rw [loaded.table] at run6
  have run : image.pvhStart fuel c = image.enterKmain { c with
      regs := regs5, rflags := flags, mem := m, cr4 := 0x620, cr3 := root, cr0 := 0x80000003,
      efer := efer ||| 0x400
      gdtr := ⟨23, image.gdt⟩, cs := code64, rip := .ofNat image.longMode } := by
    rw [pvhStart, Eff.bind_of_ok run1, Eff.bind_of_ok run2, Eff.bind_of_ok run3,
      Eff.bind_of_ok run4, Eff.bind_of_ok run5, Eff.bind_of_ok run6, Eff.bind_of_ok run7]
  exact ⟨_, run.trans run8,
    ⟨pushed.paging, pushed.long, pushed.root, pushed.identity, pushed.gdtr, pushed.gdt⟩, rfl,
    rfl, rfl, di, sp, rfl, rfl, rfl, rfl⟩

end Image

section Entry

variable (image : Image) (sregs2 : Sregs2) (regs : Reg → UInt64) (rip rflags : UInt64) (m : Mem)

/-- From the state in which the VMM starts the CPU, the guest reaches `kmain` in 64-bit code, with
the address of the start info as its argument, the stack as the ABI has it, SSE enabled and
interrupts disabled. The first 4 GiB are mapped to themselves and nothing else is mapped. The rest
of `.bss` is cleared, and the memory outside of it is as it was. -/
theorem pvh_start_enters_kmain (loaded : image.Loaded m) (fuel : Nat) (enough : 2 ^ 32 ≤ fuel) :
    ∃ c, image.pvhStart fuel (ofKvm (protectedModeSetup sregs2) regs rip rflags m) = (.ok (), c) ∧
      c.rip = .ofNat image.kmain ∧ c.regs .rdi = (regs .rbx).toUInt32.toUInt64 ∧
      (c.top + 8) % 16 = 0 ∧ c.Code64 ∧
      (bit c.cr4 9 ∧ bit c.cr4 10 ∧ bit c.cr0 1 ∧ ¬ bit c.cr0 2) ∧
      (¬ bit c.rflags 9 ∧ ¬ bit c.rflags 10) ∧
      (∀ a < 2 ^ 64, c.translate a = if a < 2 ^ 32 then some (a, true) else none) ∧
      (∀ x ∈ image.bssSpan, x ∉ image.own → c.mem x = 0) ∧ ∀ x ∉ image.bssSpan, c.mem x = m x := by
  have small := image.small
  have inside := image.bss_inside
  have stack : image.stack ≤ image.stackTop - 8 ∧
    image.stackTop - 8 + 8 ≤ image.own.base + image.own.len ∧
      image.own.base ≤ image.stackTop - 8 ∧ image.stackTop % 16 = 0 ∧ 8 ≤ image.stackTop ∧
      image.stackTop < 2 ^ 32 := by
    have aligned := image.bss_aligned
    simp only [Image.own, Image.stackTop, Image.stack, Image.pd, Image.pdpt, Image.pml4]
    omega
  obtain ⟨c, run, paged, cs, -, ip, di, sp, flags, cr0, cr4, mem⟩ :=
    Image.pvhStart_run (entered_of_protectedModeSetup sregs2 regs rip rflags m) loaded enough
  have top : c.top = image.stackTop - 8 := by
    rw [Cpu.top, sp, UInt64.toNat_ofNat']
    omega
  -- the return address is the only word on the stack
  have pushed {x : Nat} (out : x ∉ image.own) : c.mem x = image.built (regs .rbx).toUInt32 m x := by
    rw [mem]
    apply Mem.store_outside
    intro stored
    apply out
    constructor
    · exact Nat.le_trans stack.2.2.1 stored.1
    · exact Nat.lt_of_lt_of_le stored.2 stack.2.1
  refine ⟨c, run, ip, di, ?_, ⟨paged.long, ?_⟩, ?_, ?_, fun a wide => paged.translate wide,
    fun x hx out => ?_,
    fun x hx => ?_⟩
  · rw [top]
    omega
  · rw [cs]
    decide
  · rw [cr4, cr0]
    decide
  · have interrupts : bit (~~~0x200) 9 = false := by decide
    have direction : bit (~~~0x400) 10 = false := by decide
    rw [flags, bit_and, bit_and, bit_and, interrupts, direction, Bool.and_false, Bool.false_and,
      Bool.and_false]
    decide
  · rw [pushed out]
    apply Image.built_zero hx
    intro w hw stored
    exact out (Image.target_own hw x stored)
  · rw [pushed fun own => hx (Image.own_inside x own)]
    exact Image.built_outside hx

end Entry

/-- An image with nothing but `boot.S` in it. -/
def smallImage : Image where
  bssStart := 0x101000
  bssEnd := 0x207004
  bss := 0x101000
  gdt := 0x100200
  longMode := 0x100080
  halt := 0x1000c0
  kmain := 0x100100
  bss_aligned := by decide
  bss_inside := by decide
  gdt_before := by decide
  code_before := by decide
  small := by decide

/-- A memory with the guest's descriptors in it. -/
def smallMemory : Mem :=
  Mem.write (fun _ => 0) smallImage.gdt
    (Image.descriptors.flatMap Layout.encode ++ (toLE 2 23 ++ toLE 4 smallImage.gdt))

/-- It has them where the image says. -/
lemma smallMemory_loaded : smallImage.Loaded smallMemory where
  gdt := by
    refine (Mem.read_write_part (i := 0) (by decide)).trans ?_
    rfl
  limit := (Mem.read_write_part (i := 24) (by decide)).trans rfl
  base := (Mem.read_write_part (i := 26) (by decide)).trans rfl

/-- An image at 1 MiB, entered with other registers that are not zero. -/
theorem pvh_start_enters_kmain_small :
    ∃ c, smallImage.pvhStart (2 ^ 32)
      (ofKvm (protectedModeSetup ⟨data, data, data, data, data, data, data, ⟨0, 0⟩,
      ⟨0, 0⟩, 0, 0, 0, 0⟩) (fun _ => hvmBase) 0x100000 2 smallMemory) = (.ok (), c) ∧
      c.rip = 0x100100 ∧ c.regs .rdi = hvmBase := by
  obtain ⟨c, run, ip, di, -⟩ :=
    pvh_start_enters_kmain smallImage ⟨data, data, data, data, data, data, data, ⟨0, 0⟩,
    ⟨0, 0⟩, 0, 0, 0, 0⟩ (fun _ => hvmBase) 0x100000 2 smallMemory smallMemory_loaded (2 ^ 32)
      (Nat.le_refl _)
  exact ⟨c, run, ip, di⟩

end Hearth.Doom.Boot
