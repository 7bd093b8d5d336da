import Hearth.Lib.Effect
import Hearth.Lib.Layout
import Hearth.Lib.Paging

/-!
# An x86-64 processor

The state and the instructions that an operating system needs before its first function in C:
segments and their descriptors, paging, control registers and the stack. An instruction is a
computation on the state that may end with a fault.

Not modelled: the flags that arithmetic sets, the privilege levels below the kernel's, paging
outside of long mode (an access faults then), and the marks that the processor leaves in descriptors
and page table entries it has used. Instructions are fetched where a jump goes to.
-/

namespace Hearth.Lib.Processor

/-! ## State -/

/-- The general registers. -/
inductive Reg where
  | rax | rbx | rcx | rdx | rsi | rdi | rbp | rsp | r8 | r9 | r10 | r11 | r12 | r13 | r14 | r15
  deriving DecidableEq, Repr

/-- What the processor keeps of a segment. -/
structure Segment where
  selector : Nat
  base : Nat
  limit : Nat
  type : Nat
  present : Nat
  dpl : Nat
  db : Nat
  s : Nat
  l : Nat
  g : Nat
  avl : Nat
  deriving DecidableEq, Repr

/-- The segment of a descriptor. -/
def Segment.ofDescriptor (selector d : Nat) : Segment where
  selector := selector
  base := d / 2 ^ 16 % 2 ^ 24 + d / 2 ^ 56 % 2 ^ 8 * 2 ^ 24
  limit :=
    let limit := d % 2 ^ 16 + d / 2 ^ 48 % 2 ^ 4 * 2 ^ 16
    if d / 2 ^ 55 % 2 = 1 then limit * 4096 + 4095 else limit
  type := d / 2 ^ 40 % 2 ^ 4
  present := d / 2 ^ 47 % 2
  dpl := d / 2 ^ 45 % 2 ^ 2
  db := d / 2 ^ 54 % 2
  s := d / 2 ^ 44 % 2
  l := d / 2 ^ 53 % 2
  g := d / 2 ^ 55 % 2
  avl := d / 2 ^ 52 % 2

/-- Code may be run from it. -/
def Segment.Code (s : Segment) : Prop :=
  s.s = 1 ∧ s.present = 1 ∧ s.type / 8 = 1 ∧ ¬ (s.l = 1 ∧ s.db = 1)

/-- Data may be written through it, and ends at the limit. -/
def Segment.Data (s : Segment) : Prop := s.s = 1 ∧ s.present = 1 ∧ s.type / 2 = 1

/-- It is decided by the descriptor's bits. -/
instance (s : Segment) : Decidable s.Code := inferInstanceAs (Decidable (_ ∧ _))

/-- It is decided by the descriptor's bits. -/
instance (s : Segment) : Decidable s.Data := inferInstanceAs (Decidable (_ ∧ _))

/-- A descriptor table: its last address after its first, and its first. -/
structure Table where
  limit : Nat
  base : Nat
  deriving DecidableEq, Repr

/-- The processor with its memory. -/
structure Cpu where
  regs : Reg → UInt64
  rip : UInt64
  rflags : UInt64
  cs : Segment
  ds : Segment
  es : Segment
  fs : Segment
  gs : Segment
  ss : Segment
  gdtr : Table
  idtr : Table
  cr0 : UInt64
  cr3 : UInt64
  cr4 : UInt64
  efer : UInt64
  mem : Mem

/-- A bit of a control register. -/
def bit (v : UInt64) (i : Nat) : Bool := v.toNat.testBit i

/-- Why an instruction is not run. -/
inductive Fault where
  | device
  | protection
  | page (addr : Nat)
  deriving DecidableEq, Repr

/-- What instructions do. -/
abbrev Asm : Type → Type := Eff Fault Cpu

/-! ## Memory -/

namespace Cpu

/-- `CR0.PG` -/
def paging (c : Cpu) : Bool := bit c.cr0 31

/-- `EFER.LMA` -/
def long (c : Cpu) : Bool := bit c.efer 10

/-- Code is run with 64 bits. -/
def Code64 (c : Cpu) : Prop := c.long = true ∧ c.cs.l = 1

/-- It is decided by the code segment and `EFER`. -/
instance (c : Cpu) : Decidable c.Code64 := inferInstanceAs (Decidable (_ ∧ _))

/-- The physical address of a linear one, and whether it may be written. -/
def translate (c : Cpu) (a : Nat) : Option (Nat × Bool) :=
  if c.paging = false then some (a, true)
  else if c.long = false then none
  else Paging.walk c.mem (Paging.frame 12 c.cr3.toNat) a

/-- Bytes at linear addresses, each translated. -/
def loadBytes (c : Cpu) : (a n : Nat) → Option (List UInt8)
  | _, 0 => some []
  | a, n + 1 => do
    let (p, _) ← c.translate a
    let bs ← loadBytes c (a + 1) n
    some (c.mem p :: bs)

/-- The memory after the bytes are stored; where they go is found before. -/
def storeBytes (c : Cpu) : Nat → List UInt8 → Mem → Option Mem
  | _, [], m => some m
  | a, b :: bs, m => do
    let (p, writable) ← c.translate a
    if writable then storeBytes c (a + 1) bs (m.write p [b]) else none

/-- The linear address of `n` bytes at an offset. -/
def linear (c : Cpu) (seg : Segment) (offset n : Nat) : Option Nat :=
  if c.Code64 then some offset
  else if seg.Data ∧ offset + n ≤ seg.limit + 1 then some ((seg.base + offset) % 2 ^ 32)
  else none

end Cpu

/-- A load; a page fault if an address is not mapped. -/
def load (a n : Nat) : Asm (List UInt8) := do
  let c ← Eff.gets id
  Eff.okOr (c.loadBytes a n) (.page a)

/-- A store; a page fault if an address is not mapped or not writable. -/
def store (a : Nat) (bs : List UInt8) : Asm Unit := do
  let c ← Eff.gets id
  let m ← Eff.okOr (c.storeBytes a bs c.mem) (.page a)
  Eff.modify fun c => { c with mem := m }

/-- A load through a segment. -/
def loadFrom (seg : Cpu → Segment) (offset n : Nat) : Asm (List UInt8) := do
  let c ← Eff.gets id
  let a ← Eff.okOr (c.linear (seg c) offset n) .protection
  load a n

/-- A store through a segment. -/
def storeTo (seg : Cpu → Segment) (offset : Nat) (bs : List UInt8) : Asm Unit := do
  let c ← Eff.gets id
  let a ← Eff.okOr (c.linear (seg c) offset bs.length) .protection
  store a bs

/-! ## Instructions -/

/-- A register is set. -/
def set (r : Reg) (v : UInt64) : Asm Unit :=
  Eff.modify fun c => { c with regs := Function.update c.regs r v }

/-- The low half of a register. -/
def Cpu.low (c : Cpu) (r : Reg) : UInt32 := (c.regs r).toUInt32

/-- Setting the low half of a register clears the high half. -/
def setLow (r : Reg) (v : UInt32) : Asm Unit := set r v.toUInt64

/-- Setting the low 16 bits of a register keeps the others. -/
def setWord (r : Reg) (v : UInt16) : Asm Unit := do
  let c ← Eff.gets id
  set r ((c.regs r &&& ~~~0xffff) ||| v.toUInt64)

/-- An instruction on the low half of a register. -/
def modifyLow (r : Reg) (f : UInt32 → UInt32) : Asm Unit := do
  let c ← Eff.gets id
  setLow r (f (c.low r))

/-- `mov` between the low halves of two registers -/
def moveLow (r src : Reg) : Asm Unit := do
  let c ← Eff.gets id
  setLow r (c.low src)

/-- Stores the low half of a register. -/
def storeLow (seg : Cpu → Segment) (offset : Nat) (r : Reg) : Asm Unit := do
  let c ← Eff.gets id
  storeTo seg offset (Layout.encode (c.low r))

/-- `cli`. -/
def cli : Asm Unit := Eff.modify fun c => { c with rflags := c.rflags &&& ~~~0x200 }

/-- `cld`. -/
def cld : Asm Unit := Eff.modify fun c => { c with rflags := c.rflags &&& ~~~0x400 }

/-- One iteration of `rep stosb`. -/
def stosb : Asm Bool := do
  let c ← Eff.gets id
  if c.low .rcx = 0 then pure false
  else
    storeTo Cpu.es (c.low .rdi).toNat [(c.low .rax).toUInt8]
    setLow .rdi (if bit c.rflags 10 then c.low .rdi - 1 else c.low .rdi + 1)
    setLow .rcx (c.low .rcx - 1)
    pure true

/-- `mov %eax, %cr0` -/
def setCr0 : Asm Unit := do
  let c ← Eff.gets id
  let v := (c.low .rax).toUInt64
  if bit v 31 ∧ ¬ bit v 0 then Eff.throw .protection
  else if bit v 29 ∧ ¬ bit v 30 then Eff.throw .protection
  else if bit v 31 ∧ ¬ c.paging ∧ bit c.efer 8 then
    -- long mode begins
    if ¬ bit c.cr4 5 ∨ c.cs.l = 1 then Eff.throw .protection
    else Eff.modify fun c => { c with cr0 := v, efer := c.efer ||| 0x400 }
  else if ¬ bit v 31 ∧ c.long then
    if c.cs.l = 1 then Eff.throw .protection
    else Eff.modify fun c => { c with cr0 := v, efer := c.efer &&& ~~~0x400 }
  else Eff.modify fun c => { c with cr0 := v }

/-- `mov %eax, %cr3` -/
def setCr3 : Asm Unit := Eff.modify fun c => { c with cr3 := (c.low .rax).toUInt64 }

/-- `mov %eax, %cr4` -/
def setCr4 : Asm Unit := Eff.modify fun c => { c with cr4 := (c.low .rax).toUInt64 }

/-- `rdmsr`, of `EFER` -/
def rdmsr : Asm Unit := do
  let c ← Eff.gets id
  if c.low .rcx = 0xc0000080 then
    setLow .rax c.efer.toUInt32
    setLow .rdx (c.efer >>> 32).toUInt32
  else Eff.throw .protection

/-- `wrmsr`, of `EFER`; long mode is not enabled or disabled while paging is on. -/
def wrmsr : Asm Unit := do
  let c ← Eff.gets id
  let v := ((c.low .rdx).toUInt64 <<< 32) ||| (c.low .rax).toUInt64
  if c.low .rcx = 0xc0000080 ∧ ¬ (c.paging ∧ bit v 8 ≠ bit c.efer 8) then
    Eff.modify fun c => { c with efer := v }
  else Eff.throw .protection

/-- `lgdt`, of 6 bytes -/
def lgdt (offset : Nat) : Asm Unit := do
  let bs ← loadFrom Cpu.ds offset 6
  Eff.modify fun c => { c with gdtr := ⟨ofLE (bs.take 2), ofLE (bs.drop 2)⟩ }

/-- `fninit` -/
def fninit : Asm Unit := do
  let c ← Eff.gets id
  if bit c.cr0 2 ∨ bit c.cr0 3 then Eff.throw .device else pure ()

/-- The segment that a selector is for. -/
def segment (selector : Nat) : Asm Segment := do
  let c ← Eff.gets id
  if selector / 4 = 0 ∨ selector / 4 % 2 = 1 ∨ c.gdtr.limit < selector / 8 * 8 + 7 then
    Eff.throw .protection
  else
    let bs ← load (c.gdtr.base + selector / 8 * 8) 8
    pure (.ofDescriptor selector (ofLE bs))

/-- The linear address of the instruction at `rip`. -/
def Cpu.next (c : Cpu) : Option Nat :=
  if c.Code64 then some c.rip.toNat
  else if c.rip.toNat ≤ c.cs.limit then some ((c.cs.base + c.rip.toNat) % 2 ^ 32)
  else none

/-- The instruction at `rip` can be read. -/
def fetch : Asm Unit := do
  let c ← Eff.gets id
  let a ← Eff.okOr c.next .protection
  let _ ← load a 1
  pure ()

/-- `jmp` to a near target. -/
def jmp (target : UInt64) : Asm Unit := do
  Eff.modify fun c => { c with rip := target }
  fetch

/-- `ljmp`. -/
def ljmp (selector : Nat) (target : UInt64) : Asm Unit := do
  let s ← segment selector
  if s.Code then
    Eff.modify fun c => { c with cs := s }
    jmp target
  else Eff.throw .protection

/-- The segment for a data segment register. -/
def dataSegment (selector : Nat) : Asm Segment := do
  let s ← segment selector
  if s.Data then pure s else Eff.throw .protection

/-- `mov %ax` to a data segment register -/
def setSegment (put : Segment → Cpu → Cpu) : Asm Unit := do
  let c ← Eff.gets id
  let s ← dataSegment ((c.regs .rax).toNat % 2 ^ 16)
  Eff.modify (put s)

/-! ## The stack -/

/-- `push` of 64 bits. -/
def push (v : UInt64) : Asm Unit := do
  let c ← Eff.gets id
  store (c.regs .rsp - 8).toNat (Layout.encode v)
  set .rsp (c.regs .rsp - 8)

/-- `call`, with the address of the instruction after it. -/
def call (next target : UInt64) : Asm Unit := do
  push next
  jmp target

/-! ## Memory that is where its addresses say -/

/-- As long as the tables are kept, each address below 4 GiB is its own. -/
def Flat (c : Cpu) (tables : Span) : Prop :=
  ∀ m, (∀ x ∈ tables, m x = c.mem x) →
    ∀ a < 2 ^ 32, ({ c with mem := m } : Cpu).translate a = some (a, true)

variable {c : Cpu} {tables : Span} {a n selector : Nat} {bs : List UInt8}

/-- An address below 4 GiB is itself, and writable. -/
lemma Flat.here (h : Flat c tables) (low : a < 2 ^ 32) : c.translate a = some (a, true) :=
  h c.mem (fun _ _ => rfl) a low

/-- Memory may change anywhere but in the tables. -/
lemma Flat.keep {m : Mem} (h : Flat c tables) (keep : ∀ x ∈ tables, m x = c.mem x) :
    Flat { c with mem := m } tables :=
  fun m' keep' => h m' fun x hx => (keep' x hx).trans (keep x hx)

/-- A write apart from the tables keeps addresses as they are. -/
lemma Flat.write (h : Flat c tables) (apart : Span.Apart ⟨a, bs.length⟩ tables) :
    Flat { c with mem := c.mem.write a bs } tables :=
  h.keep fun x hx => Mem.write_outside fun inside => apart x inside hx

/-- Without paging addresses are themselves. -/
lemma flat_unpaged (tables : Span) (unpaged : c.paging = false) : Flat c tables :=
  fun _ _ _ _ => if_pos unpaged

/-- Addresses are themselves with tables that say so. -/
lemma flat_identity {pdpt pd : Nat} (paging : c.paging = true) (long : c.long = true)
    (identity : Paging.Identity c.mem (Paging.frame 12 c.cr3.toNat) pdpt pd)
    (top : Span.Inside ⟨Paging.frame 12 c.cr3.toNat, 4096⟩ tables)
    (middle : Span.Inside ⟨pdpt, 4096⟩ tables)
    (pages : Span.Inside ⟨pd, 4 * 4096⟩ tables) : Flat c tables := by
  intro m keep a low
  have paged : ¬ ({ c with mem := m } : Cpu).paging = false := ne_false_of_eq_true paging
  have longer : ¬ ({ c with mem := m } : Cpu).long = false := ne_false_of_eq_true long
  have kept := identity.congr (fun x hx => keep x (top x hx)) (fun x hx => keep x (middle x hx))
    fun x hx => keep x (pages x hx)
  rw [Cpu.translate, if_neg paged, if_neg longer]
  exact (Paging.walk_identity kept (by omega)).trans (if_pos low)

/-- Bytes are read where they are. -/
lemma loadBytes_flat (h : Flat c tables) (low : a + n ≤ 2 ^ 32) :
    c.loadBytes a n = some (c.mem.read a n) := by
  induction n generalizing a with
  | zero => rfl
  | succ n ih =>
    rw [Cpu.loadBytes, h.here (by omega), ih (by omega), Mem.read_succ]
    rfl

/-- Bytes are written where they are. -/
lemma storeBytes_flat {m : Mem} (h : Flat c tables) (low : a + bs.length ≤ 2 ^ 32) :
    c.storeBytes a bs m = some (m.write a bs) := by
  induction bs generalizing a m with
  | nil => rw [Cpu.storeBytes, Mem.write_nil]
  | cons b bs ih =>
    rw [List.length_cons] at low
    rw [Cpu.storeBytes, h.here (by omega)]
    exact (ih (by omega)).trans (congrArg some (Mem.write_cons m a b bs).symm)

/-! ## What the instructions do there -/

/-- A load gives the bytes there. -/
lemma load_run (h : Flat c tables) (low : a + n ≤ 2 ^ 32) :
    load a n c = (.ok (c.mem.read a n), c) := by
  show (Eff.okOr (c.loadBytes a n) (.page a) : Asm _) c = _
  rw [loadBytes_flat h low]
  rfl

/-- A store puts the bytes there. -/
lemma store_run (h : Flat c tables) (low : a + bs.length ≤ 2 ^ 32) :
    store a bs c = (.ok (), { c with mem := c.mem.write a bs }) := by
  show ((Eff.okOr (c.storeBytes a bs c.mem) (.page a) : Asm _) >>= fun m =>
    Eff.modify fun c => { c with mem := m }) c = _
  rw [storeBytes_flat h low]
  rfl

/-- A segment of 4 GiB of data. -/
def Segment.Whole (s : Segment) : Prop := s.Data ∧ s.base = 0 ∧ s.limit = 2 ^ 32 - 1

/-- It is decided by base and limit. -/
instance (s : Segment) : Decidable s.Whole := inferInstanceAs (Decidable (_ ∧ _))

/-- In a whole segment an offset is a linear address. -/
lemma linear_whole {seg : Segment} (whole : seg.Whole) (some : 0 < n) (low : a + n ≤ 2 ^ 32) :
    c.linear seg a n = .some a := by
  by_cases code : c.Code64
  · exact if_pos code
  · obtain ⟨data, base, limit⟩ := whole
    have inside : seg.Data ∧ a + n ≤ seg.limit + 1 := ⟨data, by omega⟩
    rw [Cpu.linear, if_neg code, if_pos inside, base]
    exact congrArg Option.some (by omega)

/-- A load through a whole segment. -/
lemma loadFrom_run (seg : Cpu → Segment) (h : Flat c tables) (whole : (seg c).Whole) (some : 0 < n)
    (low : a + n ≤ 2 ^ 32) : loadFrom seg a n c = (.ok (c.mem.read a n), c) := by
  show ((Eff.okOr (c.linear (seg c) a n) .protection : Asm _) >>= fun a => load a n) c = _
  rw [linear_whole whole some low]
  exact load_run h low

/-- A store through a whole segment. -/
lemma storeTo_run (seg : Cpu → Segment) (bs : List UInt8) (h : Flat c tables)
    (whole : (seg c).Whole) (some : 0 < bs.length) (low : a + bs.length ≤ 2 ^ 32) :
    storeTo seg a bs c = (.ok (), { c with mem := c.mem.write a bs }) := by
  show ((Eff.okOr (c.linear (seg c) a bs.length) .protection : Asm _) >>= fun a => store a bs) c = _
  rw [linear_whole whole some low]
  exact store_run h low

/-- A store of 32 bits of a register. -/
lemma storeLow_run (seg : Cpu → Segment) (r : Reg) (h : Flat c tables) (whole : (seg c).Whole)
    (low : a + 4 ≤ 2 ^ 32) :
    storeLow seg a r c = (.ok (), { c with mem := c.mem.store a (c.low r) }) := by
  have length : (Layout.encode (c.low r)).length = 4 := Layout.encode_length _
  rw [storeLow, Eff.gets_bind_run, id]
  exact storeTo_run seg _ h whole (by omega) (by omega)

/-- A 32-bit operation clears the upper half. -/
lemma modifyLow_run (r : Reg) (f : UInt32 → UInt32) (c : Cpu) : modifyLow r f c =
    (.ok (), { c with regs := Function.update c.regs r (f (c.low r)).toUInt64 }) := rfl

/-- The low half of a register that was set is what it was set to. -/
lemma low_update_self (regs : Reg → UInt64) (r : Reg) (v : UInt32) :
    ({ c with regs := Function.update regs r v.toUInt64 } : Cpu).low r = v := by
  show (Function.update regs r v.toUInt64 r).toUInt32 = v
  rw [Function.update_self, UInt32.toUInt32_toUInt64]

/-- The other registers are as they were. -/
lemma low_update_of_ne {r r' : Reg} (ne : r' ≠ r) (regs : Reg → UInt64) (v : UInt64) :
    ({ c with regs := Function.update regs r v } : Cpu).low r' = (regs r').toUInt32 := by
  show (Function.update regs r v r').toUInt32 = _
  rw [Function.update_of_ne ne]

/-- `rdmsr` of `EFER`. -/
lemma rdmsr_run (h : c.low .rcx = 0xc0000080) : rdmsr c = (.ok (), { c with
    regs := Function.update (Function.update c.regs .rax c.efer.toUInt32.toUInt64) .rdx
      (c.efer >>> 32).toUInt32.toUInt64 }) := by
  rw [rdmsr, Eff.gets_bind_run, id, if_pos h]
  rfl

/-- `wrmsr` of `EFER`, without paging. -/
lemma wrmsr_run (h : c.low .rcx = 0xc0000080) (unpaged : c.paging = false) :
    wrmsr c = (.ok (), { c with
    efer := ((c.low .rdx).toUInt64 <<< 32) ||| (c.low .rax).toUInt64 }) := by
  have allowed (v : UInt64) : c.low .rcx = 0xc0000080 ∧ ¬ (c.paging ∧ bit v 8 ≠ bit c.efer 8) :=
    ⟨h, fun paging => absurd paging.1 (Bool.eq_false_iff.mp unpaged)⟩
  rw [wrmsr, Eff.gets_bind_run, id, if_pos (allowed _)]
  rfl

/-- A bit of two values ORed. -/
lemma bit_or (v w : UInt64) (i : Nat) : bit (v ||| w) i = (bit v i || bit w i) := by
  rw [bit, UInt64.toNat_or, Nat.testBit_or]
  rfl

/-- A bit of two values ANDed. -/
lemma bit_and (v w : UInt64) (i : Nat) : bit (v &&& w) i = (bit v i && bit w i) := by
  rw [bit, UInt64.toNat_and, Nat.testBit_and]
  rfl

/-- Paging begins, and long mode with it. -/
lemma setCr0_run {v : UInt64} (value : (c.low .rax).toUInt64 = v) (paging : bit v 31 = true)
    (protection : bit v 0 = true) (cache : bit v 29 = false) (unpaged : c.paging = false)
    (lme : bit c.efer 8 = true) (pae : bit c.cr4 5 = true)
    (cs : c.cs.l = 0) : setCr0 c = (.ok (), { c with cr0 := v, efer := c.efer ||| 0x400 }) := by
  rw [setCr0, Eff.gets_bind_run, id, value]
  simp only [paging, protection, cache, unpaged, lme, pae, cs]
  rfl

/-- A jump below 4 GiB. -/
lemma jmp_run (target : UInt64) (h : Flat c tables) (code : c.Code64)
    (low : target.toNat < 2 ^ 32) :
    jmp target c = (.ok (), { c with rip := target }) := by
  have address : ({ c with rip := target } : Cpu).next = some target.toNat := if_pos code
  have flat : Flat { c with rip := target } tables := fun m keep => h m keep
  rw [jmp, Eff.modify_bind_run, fetch, Eff.gets_bind_run, id, address]
  exact Eff.bind_of_ok (load_run flat low)

/-- A selector into the table gives the segment its descriptor describes. -/
lemma segment_run (h : Flat c tables) (some : selector / 4 ≠ 0) (global : selector / 4 % 2 = 0)
    (inside : selector / 8 * 8 + 7 ≤ c.gdtr.limit) (low : c.gdtr.base + c.gdtr.limit < 2 ^ 32) :
    segment selector c =
      (.ok (.ofDescriptor selector (ofLE (c.mem.read (c.gdtr.base + selector / 8 * 8) 8))), c) := by
  have there : ¬ (selector / 4 = 0 ∨ selector / 4 % 2 = 1 ∨
    c.gdtr.limit < selector / 8 * 8 + 7) := by omega
  rw [segment, Eff.gets_bind_run, id, if_neg there]
  exact Eff.bind_of_ok (load_run h (by omega))

/-- A data segment may be loaded. -/
lemma dataSegment_run {s : Segment} (h : segment selector c = (.ok s, c)) (data : s.Data) :
    dataSegment selector c = (.ok s, c) := by
  rw [dataSegment, Eff.bind_of_ok h, if_pos data]
  rfl

/-- A segment register is loaded from `ax`. -/
lemma setSegment_run {s : Segment} {put : Segment → Cpu → Cpu}
    (h : segment ((c.regs .rax).toNat % 2 ^ 16) c = (.ok s, c)) (data : s.Data) :
    setSegment put c = (.ok (), put s c) := by
  rw [setSegment, Eff.gets_bind_run, id, Eff.bind_of_ok (dataSegment_run h data)]
  rfl

/-- The descriptor table's register is loaded. -/
lemma lgdt_run (h : Flat c tables) (whole : c.ds.Whole) (low : a + 6 ≤ 2 ^ 32) : lgdt a c =
    (.ok (), { c with gdtr := ⟨ofLE (c.mem.read a 2), ofLE (c.mem.read (a + 2) 4)⟩ }) := by
  have both : c.mem.read a 6 = c.mem.read a 2 ++ c.mem.read (a + 2) 4 := c.mem.read_append a 2 4
  have run := loadFrom_run (n := 6) Cpu.ds h whole (by omega) low
  rw [both] at run
  rw [lgdt, Eff.bind_of_ok run, List.take_left' (Mem.read_length _ _ _),
    List.drop_left' (Mem.read_length _ _ _)]
  rfl

/-- A far jump into 64-bit code. -/
lemma ljmp_run {s : Segment} {target : UInt64} (h : Flat c tables)
    (hs : segment selector c = (.ok s, c))
    (code : s.Code) (wide : s.l = 1) (long : c.long = true) (low : target.toNat < 2 ^ 32) :
    ljmp selector target c = (.ok (), { c with cs := s, rip := target }) := by
  have flat : Flat { c with cs := s } tables := fun m keep => h m keep
  rw [ljmp, Eff.bind_of_ok hs, if_pos code, Eff.modify_bind_run]
  exact jmp_run target flat ⟨long, wide⟩ low

/-- `fninit` with the floating-point unit there. -/
lemma fninit_run (em : bit c.cr0 2 = false) (ts : bit c.cr0 3 = false) :
    fninit c = (.ok (), c) := by
  have enabled : ¬ (bit c.cr0 2 ∨ bit c.cr0 3) := by
    rw [em, ts]
    decide
  rw [fninit, Eff.gets_bind_run, id, if_neg enabled]
  rfl

/-! ### The stack -/

namespace Cpu

/-- Where the stack ends. -/
def top (c : Cpu) : Nat := (c.regs .rsp).toNat

/-- The stack pointer is set. -/
def withTop (c : Cpu) (t : Nat) : Cpu := { c with regs := Function.update c.regs .rsp (.ofNat t) }

end Cpu

/-- A push goes below the top of the stack. -/
lemma push_run {v : UInt64} (h : Flat c tables) (room : 8 ≤ c.top) (low : c.top ≤ 2 ^ 32) :
    push v c = (.ok (), { c.withTop (c.top - 8) with mem := c.mem.store (c.top - 8) v }) := by
  have le : (8 : UInt64) ≤ c.regs .rsp := UInt64.le_iff_toNat_le.mpr room
  have address : (c.regs .rsp - 8).toNat = c.top - 8 := UInt64.toNat_sub_of_le _ _ le
  have down : c.regs .rsp - 8 = .ofNat (c.top - 8) := by rw [← address, UInt64.ofNat_toNat]
  have length : (Layout.encode v).length = 8 := Layout.encode_length v
  rw [push, Eff.gets_bind_run, id, address, Eff.bind_of_ok (store_run h (by omega)), down]
  rfl

end Hearth.Lib.Processor
