import Hearth.Virtio.Mmio
import Hearth.Lib.Transition

/-!
# The PL011

`UART` of `arch/aarch64/mmio.rs`: the serial port of the other machine. It holds one received byte
and no more. A session keeps beside it what was typed and what the guest read while the flag
register showed the receiver not empty.
-/

namespace Hearth
open Lib

/-- The registers of the device, and the line it last set. -/
structure Pl011 where
  rx : Option UInt8
  cr : UInt32
  imsc : UInt32
  lcr : UInt32
  ibrd : UInt32
  fbrd : UInt32
  ris : UInt32
  icr : UInt32
  /-- which of the next `KVM_IRQ_LINE` calls fail; none once the list is used up -/
  irqLineFails : List Bool
  /-- the level last driven -/
  line : Bool
  /-- what was printed -/
  console : List Char

/-- What the device does, and how it may fail. -/
abbrev Pl011M (α : Type) : Type := Eff IoError Pl011 α

namespace Pl011

/-- The device as it is created. -/
def new (irqLineFails : List Bool) : Pl011 where
  rx := none
  cr := 0
  imsc := 0
  lcr := 0
  ibrd := 0
  fbrd := 0
  ris := 0
  icr := 0
  irqLineFails := irqLineFails
  line := false
  console := []

/-- The bit of the receive interrupt in `ris`: `1 << 4`. -/
def rxInterrupt : UInt32 := 0x10

/-- The bit of the flag register for an empty receiver. -/
def rxEmpty : UInt32 := 0x10

/-- An interrupt is pending and unmasked. -/
def level (self : Pl011) : Bool := self.ris &&& self.imsc != 0

/-- The line follows the level. -/
def updateIrq : Pl011M Unit := fun self =>
  match self.irqLineFails with
  | true :: fails => (.err .os, { self with irqLineFails := fails })
  | false :: fails => (.ok (), { self with irqLineFails := fails, line := self.level })
  | [] => (.ok (), { self with line := self.level })

/-- A byte comes in; one that is there is overwritten. -/
def put (ch : UInt8) (self : Pl011) : Pl011 :=
  { self with rx := some ch, ris := self.ris ||| rxInterrupt }

/-- `TTY::send_char` -/
def sendChar (ch : UInt8) : Pl011M Unit := do
  Eff.modify (put ch)
  updateIrq

/-- `load_pl011_id_map` -/
def pl011IdMap (reg : UInt32) : Option UInt32 :=
  if reg = 0xfe0 then some 0x11
  else if reg = 0xfe4 then some 0x10
  else if reg = 0xfe8 then some 0x14
  else if reg = 0xfec then some 0x00
  else if reg = 0xff0 then some 0x0d
  else if reg = 0xff4 then some 0xf0
  else if reg = 0xff8 then some 0x05
  else if reg = 0xffc then some 0xb1
  else none

/-- The byte is taken. -/
def take (self : Pl011) : Pl011 := { self with rx := none, ris := self.ris &&& ~~~rxInterrupt }

/-- A read of the data register. -/
def readData : Pl011M UInt32 := do
  let ch ← Eff.gets fun self => self.rx.getD 0
  Eff.modify take
  updateIrq
  pure ch.toUInt32

/-- The flag register. -/
def flags (self : Pl011) : UInt32 := 0x80 ||| if self.rx.isNone then rxEmpty else 0

/-- The registers whose reads change nothing. -/
def register (reg : UInt32) (self : Pl011) : UInt32 :=
  if reg = 0x18 then self.flags
  else if reg = 0x24 then self.ibrd
  else if reg = 0x28 then self.fbrd
  else if reg = 0x2c then self.lcr
  else if reg = 0x30 then self.cr
  else if reg = 0x3c then self.ris
  else if reg = 0x38 then self.imsc
  else if reg = 0x40 then self.ris &&& self.imsc
  else if reg = 0x44 then self.icr
  else 0

/-- What a read of a register answers. -/
def pl011Response (reg : UInt32) : Pl011M UInt32 :=
  match pl011IdMap reg with
  | some ret => pure ret
  | none => if reg = 0x0 then readData else Eff.gets (register reg)

/-- A write to the interrupt mask. -/
def writeImsc (val : UInt32) (self : Pl011) : Pl011 := { self with imsc := val }

/-- A write to the register that clears interrupts. -/
def writeIcr (val : UInt32) (self : Pl011) : Pl011 := { self with ris := self.ris &&& ~~~val }

/-- A write to a register. -/
def writeRegister (reg : UInt64) (val : UInt32) : Pl011M Unit :=
  if reg = 0x24 then Eff.modify fun self => { self with ibrd := val }
  else if reg = 0x28 then Eff.modify fun self => { self with fbrd := val }
  else if reg = 0x2c then Eff.modify fun self => { self with lcr := val }
  else if reg = 0x30 then Eff.modify fun self => { self with cr := val }
  else if reg = 0x38 then do
    Eff.modify (writeImsc val)
    updateIrq
  else if reg = 0x44 then do
    Eff.modify (writeIcr val)
    updateIrq
  else pure ()

/-- `MMIODevice::handle`: what is left in the access's bytes. -/
def handle (mmio : Mmio) : Pl011M (List UInt8) :=
  let reg := mmio.physAddr &&& 0xfff
  if mmio.isWrite = true ∧ reg = 0x0 then do
    Eff.modify fun self =>
      { self with console := self.console ++ [Char.ofNat (mmio.data.headD 0).toNat] }
    pure mmio.data
  else if mmio.isWrite = false then do
    let val ← pl011Response reg.toUInt32
    pure (writeLe32 mmio.data val)
  else do
    writeRegister reg (readLe32 mmio.data)
    pure mmio.data

/-! ## Sessions -/

/-- The device and what has been said of its input. -/
structure Session where
  uart : Pl011
  /-- the bytes passed to `send_char` -/
  sent : List UInt8
  /-- the bytes read from the data register while the receiver was shown not empty -/
  got : List UInt8
  /-- the receive interrupt was cleared since the last byte came in -/
  cleared : Bool
  /-- how many bytes came in while one was waiting -/
  overruns : Nat

namespace Session

/-- At first nothing has been typed or read. -/
def new (fails : List Bool) : Session := ⟨Pl011.new fails, [], [], false, 0⟩

/-- The access reads the data register. -/
def ReadsData (mmio : Mmio) : Prop := mmio.isWrite = false ∧ (mmio.physAddr &&& 0xfff).toUInt32 = 0

/-- It does, while the flag register shows the receiver not empty. -/
def Takes (uart : Pl011) (mmio : Mmio) : Prop := ReadsData mmio ∧ uart.register 0x18 &&& rxEmpty = 0

/-- The access writes to the interrupt clear register. -/
def WritesIcr (mmio : Mmio) : Prop := mmio.isWrite = true ∧ mmio.physAddr &&& 0xfff = 0x44

/-- The access clears the receive interrupt. -/
def Clears (mmio : Mmio) : Prop := WritesIcr mmio ∧ readLe32 mmio.data &&& rxInterrupt ≠ 0

/-- It is decided by the access. -/
instance (mmio : Mmio) : Decidable (ReadsData mmio) := inferInstanceAs (Decidable (_ ∧ _))

/-- It is decided by the access and the flags. -/
instance (uart : Pl011) (mmio : Mmio) : Decidable (Takes uart mmio) :=
  inferInstanceAs (Decidable (_ ∧ _))

/-- It is decided by the access. -/
instance (mmio : Mmio) : Decidable (WritesIcr mmio) := inferInstanceAs (Decidable (_ ∧ _))

/-- It is decided by the access. -/
instance (mmio : Mmio) : Decidable (Clears mmio) := inferInstanceAs (Decidable (_ ∧ _))

/-- A byte is typed, or the guest accesses the device. An operation that fails ends the VM. -/
inductive Step (s : Session) : Session → Prop where
  | sendChar (ch : UInt8) {uart : Pl011} : sendChar ch s.uart = (.ok (), uart) →
      Step s
        { s with
          uart := uart, sent := s.sent ++ [ch], cleared := false
          overruns := s.overruns + if s.uart.rx.isSome then 1 else 0 }
  | access (mmio : Mmio) {data : List UInt8} {uart : Pl011} :
      handle mmio s.uart = (.ok data, uart) →
      Step s
        { s with
          uart := uart
          got := s.got ++ if Takes s.uart mmio then [data.headD 0] else []
          cleared := s.cleared || decide (Clears mmio) }

/-- Nothing is lost, and a byte that waits interrupts. -/
structure Lossless (s : Session) : Prop where
  bytes : s.got ++ s.uart.rx.toList = s.sent
  pending : s.uart.rx.isSome = true → s.cleared = false → s.uart.ris &&& rxInterrupt ≠ 0
  line : s.uart.line = decide (s.uart.ris &&& s.uart.imsc ≠ 0)

/-- What holds between operations. -/
structure Inv (s : Session) : Prop where
  count : s.got.length + s.uart.rx.toList.length + s.overruns = s.sent.length
  bytes : s.overruns = 0 → s.got ++ s.uart.rx.toList = s.sent
  pending : s.uart.rx.isSome = true → s.cleared = false → s.uart.ris &&& rxInterrupt ≠ 0
  line : s.uart.line = s.uart.level

end Session

/-! ## What an access does -/

/-- Updating the line changes nothing else. -/
lemma updateIrq_ok {self self' : Pl011} (run : updateIrq self = (.ok (), self')) :
    self' = { self with line := self.level, irqLineFails := self'.irqLineFails } := by
  unfold updateIrq at run
  split at run
  · cases run
  · cases run
    rfl
  · cases run
    rfl

/-- Clearing other interrupts leaves the receive interrupt. -/
lemma and_not_rxInterrupt {ris val : UInt32} (h : val &&& rxInterrupt = 0) :
    ris &&& ~~~val &&& rxInterrupt = ris &&& rxInterrupt := by
  have e : ~~~val &&& rxInterrupt = rxInterrupt := by
    apply UInt32.toBitVec_inj.mp
    apply BitVec.eq_of_getLsbD_eq
    intro i hi
    have hbit := congrArg (fun v => BitVec.getLsbD (UInt32.toBitVec v) i) h
    have zero : (UInt32.toBitVec 0).getLsbD i = false := BitVec.getLsbD_zero
    simp only [UInt32.toBitVec_and, UInt32.toBitVec_not, BitVec.getLsbD_and,
      BitVec.getLsbD_not, zero, hi, decide_true, Bool.true_and, Bool.and_eq_false_iff] at hbit ⊢
    cases hbit with
    | inl clear => rw [clear, Bool.not_false, Bool.true_and]
    | inr other => rw [other, Bool.and_false]
  rw [UInt32.and_assoc, e]

/-- The receive interrupt is pending once it is set. -/
lemma or_rxInterrupt (ris : UInt32) : (ris ||| rxInterrupt) &&& rxInterrupt ≠ 0 := by
  intro h
  have hbit := congrArg (fun v => BitVec.getLsbD (UInt32.toBitVec v) 4) h
  simp [rxInterrupt] at hbit

/-- The byte of a word that is returned. -/
lemma writeLe32_head (data : List UInt8) (ch : UInt8) :
    (writeLe32 data ch.toUInt32).headD 0 = ch := by
  show UInt8.ofNat ch.toUInt32.toNat = ch
  simp

namespace Session

/-- What an access that returned `data` has done. -/
structure Change (mmio : Mmio) (uart : Pl011) (data : List UInt8) (uart' : Pl011) : Prop where
  rx : uart'.rx = if ReadsData mmio then none else uart.rx
  byte : ReadsData mmio → data.headD 0 = uart.rx.getD 0
  ris : uart'.ris = if ReadsData mmio then uart.ris &&& ~~~rxInterrupt
    else if WritesIcr mmio then uart.ris &&& ~~~(readLe32 mmio.data) else uart.ris
  line : uart.line = uart.level → uart'.line = uart'.level

/-- What a read of a register changes. -/
lemma pl011Response_change {mmio : Mmio} {uart uart' : Pl011} {val : UInt32}
    (read : mmio.isWrite = false)
    (run : pl011Response (mmio.physAddr &&& 0xfff).toUInt32 uart = (.ok val, uart')) :
    Change mmio uart (writeLe32 mmio.data val) uart' := by
  have noWrite : ¬ WritesIcr mmio := fun h => by cases read.symm.trans h.1
  by_cases h0 : (mmio.physAddr &&& 0xfff).toUInt32 = 0
  · have reads : ReadsData mmio := ⟨read, h0⟩
    rw [h0] at run
    obtain ⟨ch, uart₁, hch, run₁⟩ := Eff.bind_ok_iff.mp run
    cases hch
    obtain ⟨⟨⟩, uart₂, htake, run₂⟩ := Eff.bind_ok_iff.mp run₁
    cases htake
    obtain ⟨⟨⟩, uart₃, hirq, run₃⟩ := Eff.bind_ok_iff.mp run₂
    cases run₃
    rw [updateIrq_ok hirq]
    refine ⟨?_, fun _ => writeLe32_head _ _, ?_, fun _ => rfl⟩
    · rw [if_pos reads]
      rfl
    · rw [if_pos reads]
      rfl
  · have reads : ¬ ReadsData mmio := fun h => h0 h.2
    have same : uart' = uart := by
      cases hid : pl011IdMap (mmio.physAddr &&& 0xfff).toUInt32 with
      | some ret =>
        simp only [pl011Response, hid] at run
        cases run
        rfl
      | none =>
        simp only [pl011Response, hid, if_neg h0] at run
        cases run
        rfl
    rw [same]
    refine ⟨?_, fun h => absurd h reads, ?_, id⟩
    · rw [if_neg reads]
    · rw [if_neg reads, if_neg noWrite]

/-- What a write to a register changes. -/
lemma writeRegister_change {mmio : Mmio} {uart uart' : Pl011} (write : mmio.isWrite = true)
    (run : writeRegister (mmio.physAddr &&& 0xfff) (readLe32 mmio.data) uart = (.ok (), uart')) :
    Change mmio uart mmio.data uart' := by
  have reads : ¬ ReadsData mmio := fun h => by cases write.symm.trans h.1
  have other : mmio.physAddr &&& 0xfff ≠ 0x44 → uart'.rx = uart.rx → uart'.ris = uart.ris →
      (uart.line = uart.level → uart'.line = uart'.level) → Change mmio uart mmio.data uart' := by
    intro hne rx ris line
    refine ⟨?_, fun h => absurd h reads, ?_, line⟩
    · rw [if_neg reads, rx]
    · rw [if_neg reads, if_neg fun h => hne h.2, ris]
  unfold writeRegister at run
  -- the registers in the order of the source; the last two arms set the line
  split at run
  · next h =>
    cases run
    exact other (by rw [h]; simp) rfl rfl id
  split at run
  · next h =>
    cases run
    exact other (by rw [h]; simp) rfl rfl id
  split at run
  · next h =>
    cases run
    exact other (by rw [h]; simp) rfl rfl id
  split at run
  · next h =>
    cases run
    exact other (by rw [h]; simp) rfl rfl id
  split at run
  · next h =>
    obtain ⟨⟨⟩, uart₁, hset, hirq⟩ := Eff.bind_ok_iff.mp run
    cases hset
    have e := updateIrq_ok hirq
    exact other (by rw [h]; simp) (by rw [e]; rfl) (by rw [e]; rfl) fun _ => by rw [e]; rfl
  split at run
  · next h =>
    obtain ⟨⟨⟩, uart₁, hset, hirq⟩ := Eff.bind_ok_iff.mp run
    cases hset
    have e := updateIrq_ok hirq
    refine ⟨?_, fun h => absurd h reads, ?_, fun _ => by rw [e]; rfl⟩
    · rw [if_neg reads, e]
      rfl
    · rw [if_neg reads, if_pos ⟨write, h⟩, e]
      rfl
  · next h =>
    cases run
    exact other h rfl rfl id

/-- What an access changes, of any width. -/
lemma handle_change {mmio : Mmio} {uart uart' : Pl011} {data : List UInt8}
    (run : handle mmio uart = (.ok data, uart')) : Change mmio uart data uart' := by
  unfold handle at run
  split at run
  · next h =>
    obtain ⟨⟨⟩, uart₁, hset, run₁⟩ := Eff.bind_ok_iff.mp run
    cases hset
    cases run₁
    have reads : ¬ ReadsData mmio := fun hr => by cases h.1.symm.trans hr.1
    refine ⟨?_, fun h => absurd h reads, ?_, id⟩
    · rw [if_neg reads]
    · rw [if_neg reads, if_neg fun hw => by cases h.2.symm.trans hw.2]
  · split at run
    · next h =>
      obtain ⟨val, uart₁, hval, run₁⟩ := Eff.bind_ok_iff.mp run
      cases run₁
      exact pl011Response_change h hval
    · next h =>
      obtain ⟨⟨⟩, uart₁, hset, run₁⟩ := Eff.bind_ok_iff.mp run
      cases run₁
      exact writeRegister_change (by simpa using h) hset

/-- The flag register shows the receiver not empty when a byte waits. -/
lemma flags_iff (uart : Pl011) : uart.register 0x18 &&& rxEmpty = 0 ↔ uart.rx.isSome = true := by
  show uart.flags &&& rxEmpty = 0 ↔ _
  unfold flags
  cases uart.rx with
  | none =>
    refine iff_of_false ?_ (by simp)
    show ¬ (0x80 ||| 0x10 : UInt32) &&& 0x10 = 0
    decide
  | some ch =>
    refine iff_of_true ?_ rfl
    show (0x80 ||| 0 : UInt32) &&& 0x10 = 0
    decide

/-! ## Runs -/

/-- A new device meets the invariant. -/
lemma new_inv (fails : List Bool) : (new fails).Inv where
  count := rfl
  bytes := fun _ => rfl
  pending := fun h => by cases h
  line := by simp [new, Pl011.new, level]

/-- What an access takes and what waits after it is what waited. -/
lemma Change.taken {uart uart' : Pl011} {mmio : Mmio} {data : List UInt8}
    (change : Change mmio uart data uart') :
    (if Takes uart mmio then [data.headD 0] else []) ++ uart'.rx.toList = uart.rx.toList := by
  rw [change.rx]
  by_cases reads : ReadsData mmio
  · rw [if_pos reads, Option.toList_none, List.append_nil]
    cases hrx : uart.rx with
    | none =>
      rw [if_neg fun ht => by simpa [hrx] using (flags_iff _).mp ht.2]
      rfl
    | some b =>
      rw [if_pos ⟨reads, (flags_iff _).mpr (by rw [hrx]; rfl)⟩, change.byte reads, hrx]
      rfl
  · rw [if_neg reads, if_neg fun ht => reads ht.1, List.nil_append]

/-- A typed byte waits, over the one that waited if any did. -/
lemma Inv.sendChar {s : Session} {ch : UInt8} {uart : Pl011} (h : s.Inv)
    (run : sendChar ch s.uart = (.ok (), uart)) :
    Inv
      { s with
        uart := uart, sent := s.sent ++ [ch], cleared := false
        overruns := s.overruns + if s.uart.rx.isSome then 1 else 0 } := by
  obtain ⟨⟨⟩, uart₁, hput, hirq⟩ := Eff.bind_ok_iff.mp run
  cases hput
  have e := updateIrq_ok hirq
  have rx : uart.rx = some ch := by
    rw [e]
    rfl
  refine ⟨?_, ?_, ?_, ?_⟩
  · have count := h.count
    dsimp only
    rw [rx, List.length_append]
    -- a byte that waits is overwritten and counted as an overrun
    cases hrx : s.uart.rx with
    | none =>
      rw [hrx] at count
      simp at count ⊢
      omega
    | some b =>
      rw [hrx] at count
      simp at count ⊢
      omega
  · intro none
    dsimp only at none ⊢
    cases hrx : s.uart.rx with
    | none =>
      rw [hrx] at none
      have bytes := h.bytes none
      rw [hrx, Option.toList_none, List.append_nil] at bytes
      rw [rx, bytes]
      rfl
    | some b =>
      rw [hrx] at none
      exact absurd none (Nat.succ_ne_zero _)
  · intro _ _
    dsimp only
    rw [e]
    exact or_rxInterrupt _
  · dsimp only
    rw [e]
    rfl

/-- An access takes at most what waits, and only a clear takes a pending interrupt. -/
lemma Inv.access {s : Session} {mmio : Mmio} {data : List UInt8} {uart : Pl011} (h : s.Inv)
    (run : handle mmio s.uart = (.ok data, uart)) :
    Inv
      { s with
        uart := uart
        got := s.got ++ if Takes s.uart mmio then [data.headD 0] else []
        cleared := s.cleared || decide (Clears mmio) } := by
  have change := handle_change run
  have bytes := change.taken
  refine ⟨?_, ?_, ?_, change.line h.line⟩
  · have len := congrArg List.length bytes
    have count := h.count
    dsimp only
    rw [List.length_append] at len ⊢
    omega
  · intro none
    dsimp only
    rw [List.append_assoc, bytes]
    exact h.bytes none
  · intro waits kept
    obtain ⟨kept, clears⟩ := Bool.or_eq_false_iff.mp kept
    have reads : ¬ ReadsData mmio := by
      intro reads
      rw [show uart.rx = none from change.rx.trans (if_pos reads)] at waits
      cases waits
    have was : s.uart.rx.isSome = true := by
      rw [← show uart.rx = s.uart.rx from change.rx.trans (if_neg reads)]
      exact waits
    have ris := change.ris
    rw [if_neg reads] at ris
    dsimp only
    rw [ris]
    split
    · next writes =>
      rw [and_not_rxInterrupt (by_contra fun hv => (of_decide_eq_false clears) ⟨writes, hv⟩)]
      exact h.pending was kept
    · exact h.pending was kept

/-- Typing and accesses keep the invariant. -/
lemma Step.inv {s s' : Session} (h : s.Inv) (step : Step s s') : s'.Inv := by
  cases step with
  | sendChar ch run => exact h.sendChar run
  | access mmio run => exact h.access run

/-- What typing and accesses lead to. -/
abbrev Reachable : Session → Prop := Reach (fun s => ∃ fails, s = new fails) Step

/-- The invariant holds in every reachable state. -/
lemma Reachable.inv {s : Session} (h : Reachable s) : s.Inv := by
  refine Reach.invariant (I := Inv) ?_ (fun _ _ inv step => step.inv inv) h
  rintro s ⟨fails, rfl⟩
  exact new_inv fails

/-- The input is lossless as long as no byte comes in while another waits. -/
theorem input_lossless_iff {s : Session} (h : Reachable s) : s.Lossless ↔ s.overruns = 0 := by
  have inv := Reachable.inv h
  constructor
  · intro lossless
    have len := congrArg List.length lossless.bytes
    have count := inv.count
    rw [List.length_append] at len
    omega
  · intro none
    refine ⟨inv.bytes none, inv.pending, ?_⟩
    rw [inv.line]
    apply Bool.eq_iff_iff.mpr
    show (_ != _) = true ↔ _
    rw [bne_iff_ne, decide_eq_true_iff]

/-- A byte more may be typed at any time. -/
lemma Reachable.sendChar {s : Session} (h : Reachable s) (ch : UInt8)
    (fails : s.uart.irqLineFails = []) :
    ∃ t, Reachable t ∧ t.sent = s.sent ++ [ch] ∧ t.got = s.got ∧ t.uart.rx = some ch ∧
      t.uart.irqLineFails = [] ∧ t.overruns = s.overruns + if s.uart.rx.isSome then 1 else 0 := by
  have irq : updateIrq (put ch s.uart) =
    (.ok (), { put ch s.uart with line := (put ch s.uart).level }) := by
    have none : (put ch s.uart).irqLineFails = [] := fails
    simp only [updateIrq, none]
  have run : Pl011.sendChar ch s.uart = (.ok (), _) :=
    Eff.bind_ok_iff.mpr ⟨(), put ch s.uart, rfl, irq⟩
  exact ⟨_, h.step (Step.sendChar ch run), rfl, rfl, rfl, fails, rfl⟩

/-- The guest enables the receive interrupt, a byte is typed and read, and another one is typed. -/
theorem two_bytes_lossless :
    ∃ s, Reachable s ∧ s.sent = [0x61, 0x62] ∧ s.got = [0x61] ∧ s.uart.line = true ∧
      s.Lossless := by
  have start : Reachable (new []) := .init ⟨[], rfl⟩
  have enabled := start.step (.access (.write 0x38 0x10) rfl)
  have first := enabled.step (.sendChar 0x61 rfl)
  have taken := first.step (.access (.read 0) rfl)
  have second := taken.step (.sendChar 0x62 rfl)
  exact ⟨_, second, rfl, rfl, rfl, (input_lossless_iff second).mpr rfl⟩

/-- Two bytes that are typed before the guest reads: the first is lost. -/
theorem two_bytes_lost : ∃ s, Reachable s ∧ s.sent = [0x61, 0x62] ∧ s.got = [] ∧ ¬ s.Lossless := by
  obtain ⟨s₁, h₁, sent₁, got₁, _, fails₁, _⟩ := Reachable.sendChar (.init ⟨[], rfl⟩) 0x61 rfl
  obtain ⟨s₂, h₂, sent₂, got₂, rx₂, _, _⟩ := Reachable.sendChar h₁ 0x62 fails₁
  have sent : s₂.sent = [0x61, 0x62] := by rw [sent₂, sent₁]; rfl
  have got : s₂.got = [] := by rw [got₂, got₁]; rfl
  refine ⟨s₂, h₂, sent, got, fun lossless => ?_⟩
  have bytes := lossless.bytes
  rw [got, rx₂, sent] at bytes
  cases bytes

end Session

end Pl011

end Hearth
