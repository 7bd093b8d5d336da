import Hearth.Lib.Cells
import Hearth.Vga.Device

/-!
# The registers as they are stored

The fields of `Vga` that `write` and `read` use, with the arrays, indices and positions that the
code has and every access to an array checked. The device of `Vga.Device`, whose indices are in
range by their types, is what they stand for.
-/

namespace Hearth
open Lib

/-- The fields of `Vga` for the registers. -/
structure VgaCells where
  misc : UInt8
  seqIndex : UInt8
  seq : Vector UInt8 8
  gcIndex : UInt8
  gc : Vector UInt8 16
  crtcIndex : UInt8
  crtc : Vector UInt8 32
  acIndex : UInt8
  acDataNext : Bool
  ac : Vector UInt8 32
  palette : Vector (Vector UInt8 3) 256
  /-- palette index and component -/
  dacWrite : UInt8 × Nat
  dacRead : UInt8 × Nat
  dacReading : Bool
  repaint : Bool
  /-- the nanoseconds since `epoch` at the next readings -/
  elapsed : List Nat

/-- What the registers do; an index out of range panics. -/
abbrev CellsM (α : Type) : Type := Eff IoError VgaCells α

/-- A byte-wide access to a register. -/
inductive VgaAccess where
  | write (port : UInt16) (byte : UInt8)
  | read (port : UInt16)
  deriving DecidableEq

namespace VgaCells

/-- The registers as a new adapter has them. -/
def new (elapsed : List Nat) : VgaCells where
  misc := 0
  seqIndex := 0
  seq := Vector.replicate 8 0
  gcIndex := 0
  gc := Vector.replicate 16 0
  crtcIndex := 0
  crtc := Vector.replicate 32 0
  acIndex := 0
  acDataNext := false
  ac := Vector.replicate 32 0
  palette := Vector.replicate 256 (Vector.replicate 3 0)
  dacWrite := (0, 0)
  dacRead := (0, 0)
  dacReading := false
  repaint := false
  elapsed := elapsed

/-- `if component == 2 { (index.wrapping_add(1), 0) } else { (index, component + 1) }` -/
def advance (position : UInt8 × Nat) : UInt8 × Nat :=
  if position.2 = 2 then (position.1 + 1, 0) else (position.1, position.2 + 1)

/-- A byte to the attribute controller: index and data in turn. -/
def writeAc (byte : UInt8) : CellsM Unit := do
  if ← Eff.gets acDataNext then
    let self ← Eff.gets id
    let ac ← Eff.unwrap (put self.ac (self.acIndex &&& 0x1f).toNat byte)
    Eff.modify fun self => { self with ac := ac, acDataNext := false }
  else Eff.modify fun self =>
    { self with
      repaint := self.repaint || (self.acIndex ^^^ byte) &&& Vga.acPas != 0
      acIndex := byte &&& 0x3f
      acDataNext := true }

/-- Data for the sequencer. -/
def writeSeq (byte : UInt8) : CellsM Unit := do
  let self ← Eff.gets id
  let seq ← Eff.unwrap (put self.seq self.seqIndex.toNat byte)
  Eff.modify fun self => { self with seq := seq }

/-- Data for the graphics controller. -/
def writeGc (byte : UInt8) : CellsM Unit := do
  let self ← Eff.gets id
  let gc ← Eff.unwrap (put self.gc self.gcIndex.toNat byte)
  Eff.modify fun self => { self with gc := gc }

/-- Data for the CRT controller. -/
def writeCrtc (byte : UInt8) : CellsM Unit := do
  let self ← Eff.gets id
  let crtc ← Eff.unwrap (put self.crtc self.crtcIndex.toNat byte)
  Eff.modify fun self => { self with crtc := crtc }

/-- `self.palette[index as usize][component] = byte & 0x3f` and what follows it -/
def writeDac (byte : UInt8) : CellsM Unit := do
  let self ← Eff.gets id
  let color ← Eff.unwrap self.palette[self.dacWrite.1.toNat]?
  let color ← Eff.unwrap (put color self.dacWrite.2 (byte &&& 0x3f))
  let palette ← Eff.unwrap (put self.palette self.dacWrite.1.toNat color)
  Eff.modify fun self => { self with palette := palette, repaint := true,
                                     dacWrite := advance self.dacWrite }

/-- A byte written to a port. -/
def write (port : UInt16) (byte : UInt8) : CellsM Unit :=
  if port = VgaPort.acIndex then writeAc byte
  else if port = VgaPort.miscWrite then Eff.modify fun self => { self with misc := byte }
  else if port = VgaPort.seqIndex then Eff.modify fun self =>
    { self with seqIndex := byte &&& 0x07 }
  else if port = VgaPort.seqData then writeSeq byte
  else if port = VgaPort.dacReadIndex then
    Eff.modify fun self => { self with dacRead := (byte, 0), dacReading := true }
  else if port = VgaPort.dacWriteIndex then
    Eff.modify fun self => { self with dacWrite := (byte, 0), dacReading := false }
  else if port = VgaPort.dacData then writeDac byte
  else if port = VgaPort.gcIndex then Eff.modify fun self => { self with gcIndex := byte &&& 0x0f }
  else if port = VgaPort.gcData then writeGc byte
  else if port = VgaPort.crtcIndex then Eff.modify fun self =>
    { self with crtcIndex := byte &&& 0x1f }
  else if port = VgaPort.crtcData then writeCrtc byte
  else pure ()

/-- The next component of the palette. -/
def readDac : CellsM UInt8 := do
  let self ← Eff.gets id
  Eff.modify fun self => { self with dacRead := advance self.dacRead }
  let color ← Eff.unwrap self.palette[self.dacRead.1.toNat]?
  Eff.unwrap color[self.dacRead.2]?

/-- `self.ac_data_next = false` and `self.input_status()` -/
def readInstat : CellsM UInt8 := do
  let self ← Eff.gets id
  Eff.modify fun self => { self with acDataNext := false, elapsed := self.elapsed.tail }
  pure (Vga.inputStatus (self.elapsed.headD 0))

/-- An element of one of the arrays. -/
def element {n : Nat} (cells : VgaCells → Vector UInt8 n) (index : VgaCells → UInt8) :
    CellsM UInt8 := do
  let self ← Eff.gets id
  Eff.unwrap (cells self)[(index self).toNat]?

/-- A byte read from a port. -/
def read (port : UInt16) : CellsM UInt8 :=
  if port = VgaPort.acIndex then Eff.gets acIndex
  else if port = VgaPort.acRead then element ac fun self => self.acIndex &&& 0x1f
  else if port = VgaPort.seqIndex then Eff.gets seqIndex
  else if port = VgaPort.seqData then element seq seqIndex
  else if port = VgaPort.dacReadIndex then Eff.gets fun self =>
    if self.dacReading then Vga.dacStateRead else 0
  else if port = VgaPort.dacWriteIndex then Eff.gets fun self => self.dacWrite.1
  else if port = VgaPort.dacData then readDac
  else if port = VgaPort.miscRead then Eff.gets misc
  else if port = VgaPort.gcIndex then Eff.gets gcIndex
  else if port = VgaPort.gcData then element gc gcIndex
  else if port = VgaPort.crtcIndex then Eff.gets crtcIndex
  else if port = VgaPort.crtcData then element crtc crtcIndex
  else if port = VgaPort.instatRead then readInstat
  else pure 0xff

/-- The bytes that the reads of these accesses return. -/
def accesses : List VgaAccess → CellsM (List UInt8)
  | [] => pure []
  | .write port byte :: rest => do
    write port byte
    accesses rest
  | .read port :: rest => do
    let byte ← read port
    let bytes ← accesses rest
    pure (byte :: bytes)

/-! ## What they stand for -/

/-- The fields are those of the device. -/
structure Stores (cells : VgaCells) (vga : Vga) : Prop where
  misc : cells.misc = vga.misc
  seqIndex : cells.seqIndex.toNat = vga.seqIndex.val
  seq : Holds cells.seq vga.seq
  gcIndex : cells.gcIndex.toNat = vga.gcIndex.val
  gc : Holds cells.gc vga.gc
  crtcIndex : cells.crtcIndex.toNat = vga.crtcIndex.val
  crtc : Holds cells.crtc vga.crtc
  acIndex : cells.acIndex = vga.acIndex
  acDataNext : cells.acDataNext = vga.acDataNext
  ac : Holds cells.ac vga.ac
  palette : ∀ index : UInt8, ∃ color, cells.palette[index.toNat]? = some color ∧
    Holds color (vga.palette index)
  dacWrite : cells.dacWrite = (vga.dacWrite.1, vga.dacWrite.2.val)
  dacRead : cells.dacRead = (vga.dacRead.1, vga.dacRead.2.val)
  dacReading : cells.dacReading = vga.dacReading
  repaint : cells.repaint = vga.repaint
  elapsed : cells.elapsed = vga.elapsed

/-- The component after this one. -/
lemma advance_position (position : UInt8 × Fin 3) :
    advance (position.1, position.2.val) =
      ((VgaRegisters.nextComponent position).1, (VgaRegisters.nextComponent position).2.val) := by
  obtain ⟨index, component⟩ := position
  fin_cases component
  · rfl
  · rfl
  · rfl

/-- An index that is masked with ones is a remainder. -/
lemma masked (byte : UInt8) {mask : UInt8} (bits : Nat) (h : mask.toNat = 2 ^ bits - 1) :
    (byte &&& mask).toNat = byte.toNat % 2 ^ bits := by
  rw [UInt8.toNat_and, h, Nat.and_two_pow_sub_one_eq_mod]

variable {cells : VgaCells} {vga : Vga}

/-- The attribute controller's index chooses the same register. -/
lemma Stores.acSelected (h : cells.Stores vga) :
    (cells.acIndex &&& 0x1f).toNat = vga.acSelected.val := by
  rw [h.acIndex]
  exact masked vga.acIndex 5 rfl

/-- New registers store what a new adapter has. -/
lemma Stores.new (elapsed : List Nat) (framebuffer : Option Nat) (dirtyLog : Option DirtyLog)
    (dacWrites : Option CoalescedRing) :
    (VgaCells.new elapsed).Stores (Vga.new elapsed framebuffer dirtyLog dacWrites) where
  misc := rfl
  seqIndex := rfl
  seq := holds_replicate 0
  gcIndex := rfl
  gc := holds_replicate 0
  crtcIndex := rfl
  crtc := holds_replicate 0
  acIndex := rfl
  acDataNext := rfl
  ac := holds_replicate 0
  palette := fun index =>
    ⟨_, holds_replicate (Vector.replicate 3 (0 : UInt8)) index.toFin, holds_replicate 0⟩
  dacWrite := rfl
  dacRead := rfl
  dacReading := rfl
  repaint := rfl
  elapsed := rfl

/-! ## Writes -/

/-- The write ends well, and the cells still are the device's. -/
def Written (cells : VgaCells) (write : CellsM Unit) (vga : Vga) : Prop :=
  ∃ cells', write cells = (.ok (), cells') ∧ cells'.Stores vga

/-- One element of an array is set, and of the device's. -/
lemma put_selected {n : Nat} {array : Vector UInt8 n} {f : Fin n → UInt8} {index : UInt8}
    {selected : Fin n} (held : Holds array f) (at_ : index.toNat = selected.val) (byte : UInt8) :
    ∃ array', put array index.toNat byte = some array' ∧
      Holds array' (Function.update f selected byte) := by
  rw [at_]
  exact held.put selected byte

/-- A write to the attribute controller stores the same. -/
lemma Stores.writeAc (h : cells.Stores vga) (byte : UInt8) :
    cells.Written (VgaCells.writeAc byte) (vga.write VgaPort.acIndex byte) := by
  cases next : vga.acDataNext with
  | false =>
    have index : VgaCells.writeAc byte cells = (.ok (), { cells with
        repaint := cells.repaint || (cells.acIndex ^^^ byte) &&& Vga.acPas != 0
        acIndex := byte &&& 0x3f
        acDataNext := true }) :=
      (congrFun (if_neg (by rw [h.acDataNext, next]; exact Bool.false_ne_true)) cells).trans rfl
    have device : vga.write VgaPort.acIndex byte = { vga with
        repaint := vga.repaint || (vga.acIndex ^^^ byte) &&& Vga.acPas != 0
        acIndex := byte &&& 0x3f
        acDataNext := true } := by
      simp [Vga.write, VgaRegisters.write, VgaRegisters.repaints, next]
    rw [device]
    exact ⟨_, index, { h with acIndex := rfl, acDataNext := rfl,
                              repaint := by rw [h.repaint, h.acIndex] }⟩
  | true =>
    obtain ⟨ac, put, held⟩ := put_selected h.ac h.acSelected byte
    have data : VgaCells.writeAc byte cells =
      (.ok (), { cells with ac := ac, acDataNext := false }) := by
      refine (congrFun (if_pos (h.acDataNext.trans next)) cells).trans ?_
      show (Eff.unwrap (Lib.put cells.ac (cells.acIndex &&& 0x1f).toNat byte) >>= _) cells = _
      rw [put]
      rfl
    have device : vga.write VgaPort.acIndex byte =
        { vga with ac := Function.update vga.ac vga.acSelected byte, acDataNext := false } := by
      simp [Vga.write, VgaRegisters.write, VgaRegisters.repaints, next]
    rw [device]
    exact ⟨_, data, { h with ac := held, acDataNext := rfl }⟩

/-- A write to the sequencer stores the same. -/
lemma Stores.writeSeq (h : cells.Stores vga) (byte : UInt8) :
    cells.Written (VgaCells.writeSeq byte) (vga.write VgaPort.seqData byte) := by
  obtain ⟨seq, put, held⟩ := put_selected h.seq h.seqIndex byte
  have data : VgaCells.writeSeq byte cells = (.ok (), { cells with seq := seq }) := by
    show (Eff.unwrap (Lib.put cells.seq cells.seqIndex.toNat byte) >>= _) cells = _
    rw [put]
    rfl
  exact ⟨_, data, { h with seq := held,
                           repaint := by rw [h.repaint]; exact (Bool.or_false _).symm }⟩

/-- A write to the graphics controller stores the same. -/
lemma Stores.writeGc (h : cells.Stores vga) (byte : UInt8) :
    cells.Written (VgaCells.writeGc byte) (vga.write VgaPort.gcData byte) := by
  obtain ⟨gc, put, held⟩ := put_selected h.gc h.gcIndex byte
  have data : VgaCells.writeGc byte cells = (.ok (), { cells with gc := gc }) := by
    show (Eff.unwrap (Lib.put cells.gc cells.gcIndex.toNat byte) >>= _) cells = _
    rw [put]
    rfl
  exact ⟨_, data, { h with gc := held, repaint := by rw [h.repaint]; exact (Bool.or_false _).symm }⟩

/-- A write to the CRT controller stores the same. -/
lemma Stores.writeCrtc (h : cells.Stores vga) (byte : UInt8) :
    cells.Written (VgaCells.writeCrtc byte) (vga.write VgaPort.crtcData byte) := by
  obtain ⟨crtc, put, held⟩ := put_selected h.crtc h.crtcIndex byte
  have data : VgaCells.writeCrtc byte cells = (.ok (), { cells with crtc := crtc }) := by
    show (Eff.unwrap (Lib.put cells.crtc cells.crtcIndex.toNat byte) >>= _) cells = _
    rw [put]
    rfl
  exact ⟨_, data, { h with crtc := held,
                           repaint := by rw [h.repaint]; exact (Bool.or_false _).symm }⟩

/-- A component of one color is set, and of the device's palette. -/
lemma put_component (h : cells.Stores vga) (index : UInt8) (component : Fin 3) (x : UInt8) :
    ∃ color color' palette, cells.palette[index.toNat]? = some color ∧
      put color component.val x = some color' ∧
      put cells.palette index.toNat color' = some palette ∧
      ∀ other : UInt8, ∃ color, palette[other.toNat]? = some color ∧
        Holds color (Function.update vga.palette index
          (Function.update (vga.palette index) component x) other) := by
  obtain ⟨color, at_, held⟩ := h.palette index
  obtain ⟨color', put, held'⟩ := held.put component x
  obtain ⟨palette, put', get⟩ := put_getElem? index.toFin.isLt color' cells.palette
  refine ⟨color, color', palette, at_, put, put', fun other => ?_⟩
  cases decEq index other with
  | isTrue same =>
    subst same
    refine ⟨color', (get _).trans (if_pos rfl), ?_⟩
    rw [Function.update_self]
    exact held'
  | isFalse differ =>
    obtain ⟨color, at_, held⟩ := h.palette other
    refine ⟨color, ((get _).trans (if_neg fun e => differ (UInt8.toNat_inj.mp e))).trans at_, ?_⟩
    rw [Function.update_of_ne (Ne.symm differ)]
    exact held

/-- A component written to the palette stores the same. -/
lemma Stores.writeDac (h : cells.Stores vga) (byte : UInt8) :
    cells.Written (VgaCells.writeDac byte) (vga.write VgaPort.dacData byte) := by
  obtain ⟨color, color', palette, at_, put, put', held⟩ :=
    put_component h vga.dacWrite.1 vga.dacWrite.2 (byte &&& 0x3f)
  rw [show vga.dacWrite.1 = cells.dacWrite.1 from (congrArg Prod.fst h.dacWrite).symm] at at_ put'
  rw [show vga.dacWrite.2.val = cells.dacWrite.2 from (congrArg Prod.snd h.dacWrite).symm] at put
  have data : VgaCells.writeDac byte cells =
      (.ok (), { cells with palette := palette, repaint := true,
                            dacWrite := advance cells.dacWrite }) := by
    show (Eff.unwrap cells.palette[cells.dacWrite.1.toNat]? >>= _) cells = _
    rw [at_]
    show (Eff.unwrap (Lib.put color cells.dacWrite.2 (byte &&& 0x3f)) >>= _) cells = _
    rw [put]
    show (Eff.unwrap (Lib.put cells.palette cells.dacWrite.1.toNat color') >>= _) cells = _
    rw [put']
    rfl
  refine ⟨_, data, { h with palette := held, dacWrite := ?_, repaint := ?_ }⟩
  · show advance cells.dacWrite = _
    rw [h.dacWrite]
    exact advance_position vga.dacWrite
  · exact (Bool.or_true vga.repaint).symm

/-- A port that is not for writes. -/
lemma write_unrouted (vga : Vga) {port : UInt16} (byte : UInt8) (ac : port ≠ VgaPort.acIndex)
    (misc : port ≠ VgaPort.miscWrite)
    (seqIndex : port ≠ VgaPort.seqIndex) (seq : port ≠ VgaPort.seqData)
    (dacReadIndex : port ≠ VgaPort.dacReadIndex)
    (dacWriteIndex : port ≠ VgaPort.dacWriteIndex) (dacData : port ≠ VgaPort.dacData)
    (gcIndex : port ≠ VgaPort.gcIndex)
    (gc : port ≠ VgaPort.gcData) (crtcIndex : port ≠ VgaPort.crtcIndex)
    (crtc : port ≠ VgaPort.crtcData) :
    VgaCells.write port byte = pure () ∧ vga.write port byte = vga := by
  constructor
  · simp [VgaCells.write, *]
  · simp [Vga.write, VgaRegisters.write, VgaRegisters.repaints, beq_false_of_ne dacData, *]

/-- Whatever the port, a write stores the same, and its index is in range. -/
theorem Stores.write (h : cells.Stores vga) (port : UInt16) (byte : UInt8) :
    cells.Written (VgaCells.write port byte) (vga.write port byte) := by
  have kept : cells.repaint = (vga.repaint || false) := h.repaint.trans (Bool.or_false _).symm
  -- the ports in the order of the source; what is no port of the device changes nothing
  obtain rfl | ac := eq_or_ne port VgaPort.acIndex
  · exact h.writeAc byte
  obtain rfl | misc := eq_or_ne port VgaPort.miscWrite
  · show cells.Written _ { vga with misc := byte, repaint := vga.repaint || false }
    exact ⟨_, rfl, { h with misc := rfl, repaint := kept }⟩
  obtain rfl | seqIndex := eq_or_ne port VgaPort.seqIndex
  · show cells.Written _
      { vga with seqIndex := ⟨byte.toNat % 8, Nat.mod_lt _ (Nat.zero_lt_succ 7)⟩,
                 repaint := vga.repaint || false }
    exact ⟨_, rfl, { h with seqIndex := masked byte 3 rfl, repaint := kept }⟩
  obtain rfl | seq := eq_or_ne port VgaPort.seqData
  · exact h.writeSeq byte
  obtain rfl | dacReadIndex := eq_or_ne port VgaPort.dacReadIndex
  · show cells.Written _ { vga with dacRead := (byte, 0), dacReading := true,
                                    repaint := vga.repaint || false }
    exact ⟨_, rfl, { h with dacRead := rfl, dacReading := rfl, repaint := kept }⟩
  obtain rfl | dacWriteIndex := eq_or_ne port VgaPort.dacWriteIndex
  · show cells.Written _ { vga with dacWrite := (byte, 0), dacReading := false,
                                    repaint := vga.repaint || false }
    exact ⟨_, rfl, { h with dacWrite := rfl, dacReading := rfl, repaint := kept }⟩
  obtain rfl | dacData := eq_or_ne port VgaPort.dacData
  · exact h.writeDac byte
  obtain rfl | gcIndex := eq_or_ne port VgaPort.gcIndex
  · show cells.Written _
      { vga with gcIndex := ⟨byte.toNat % 16, Nat.mod_lt _ (Nat.zero_lt_succ 15)⟩,
                 repaint := vga.repaint || false }
    exact ⟨_, rfl, { h with gcIndex := masked byte 4 rfl, repaint := kept }⟩
  obtain rfl | gc := eq_or_ne port VgaPort.gcData
  · exact h.writeGc byte
  obtain rfl | crtcIndex := eq_or_ne port VgaPort.crtcIndex
  · show cells.Written _
      { vga with crtcIndex := ⟨byte.toNat % 32, Nat.mod_lt _ (Nat.zero_lt_succ 31)⟩,
                 repaint := vga.repaint || false }
    exact ⟨_, rfl, { h with crtcIndex := masked byte 5 rfl, repaint := kept }⟩
  obtain rfl | crtc := eq_or_ne port VgaPort.crtcData
  · exact h.writeCrtc byte
  obtain ⟨run, device⟩ :=
    write_unrouted vga byte ac misc seqIndex seq dacReadIndex dacWriteIndex dacData gcIndex gc
      crtcIndex crtc
  rw [run, device]
  exact ⟨cells, rfl, h⟩

/-! ## Reads -/

/-- The read returns the device's value, and the cells still are the device's. -/
def ReadAs (cells : VgaCells) (read : CellsM UInt8) (result : UInt8 × Vga) : Prop :=
  ∃ cells', read cells = (.ok result.1, cells') ∧ cells'.Stores result.2

/-- A register that is read where it is stored. -/
lemma Stores.element (h : cells.Stores vga) {n : Nat} {array : VgaCells → Vector UInt8 n}
    {f : Fin n → UInt8} {index : VgaCells → UInt8} {selected : Fin n} (held : Holds (array cells) f)
    (at_ : (index cells).toNat = selected.val) :
    cells.ReadAs (VgaCells.element array index) (f selected, vga) := by
  refine ⟨cells, ?_, h⟩
  show Eff.unwrap (array cells)[(index cells).toNat]? cells = _
  rw [at_, held selected]
  rfl

/-- A register that is not an element of an array. -/
lemma Stores.gets (h : cells.Stores vga) {field : VgaCells → UInt8} {byte : UInt8}
    (same : field cells = byte) :
    cells.ReadAs (Eff.gets field) (byte, vga) := ⟨cells, by rw [Eff.gets_run, same], h⟩

/-- A component that is read is the one stored. -/
lemma Stores.readDac (h : cells.Stores vga) :
    cells.ReadAs VgaCells.readDac (vga.read VgaPort.dacData) := by
  obtain ⟨color, at_, held⟩ := h.palette vga.dacRead.1
  have component := held vga.dacRead.2
  rw [show vga.dacRead.1 = cells.dacRead.1 from (congrArg Prod.fst h.dacRead).symm] at at_
  rw [show vga.dacRead.2.val = cells.dacRead.2 from (congrArg Prod.snd h.dacRead).symm] at component
  have data : VgaCells.readDac cells =
      (.ok (vga.palette vga.dacRead.1 vga.dacRead.2),
        { cells with dacRead := advance cells.dacRead }) := by
    show (Eff.unwrap cells.palette[cells.dacRead.1.toNat]? >>= _)
      { cells with dacRead := advance cells.dacRead } = _
    rw [at_]
    show Eff.unwrap color[cells.dacRead.2]? { cells with dacRead := advance cells.dacRead } = _
    rw [component]
    rfl
  refine ⟨_, data, { h with dacRead := ?_ }⟩
  show advance cells.dacRead = _
  rw [h.dacRead]
  exact advance_position vga.dacRead

/-- Input status 1 is the same. -/
lemma Stores.readInstat (h : cells.Stores vga) :
    cells.ReadAs VgaCells.readInstat (vga.read VgaPort.instatRead) := by
  refine ⟨{ cells with acDataNext := false, elapsed := cells.elapsed.tail }, ?_, ?_⟩
  · have value : (vga.read VgaPort.instatRead).1 = Vga.inputStatus (vga.elapsed.headD 0) := rfl
    rw [value, ← h.elapsed]
    rfl
  · show Stores _ { vga with acDataNext := false, elapsed := vga.elapsed.tail }
    exact { h with acDataNext := rfl, elapsed := congrArg List.tail h.elapsed }

/-- A port that is not for reads. -/
lemma read_unrouted (vga : Vga) {port : UInt16} (acIndex : port ≠ VgaPort.acIndex)
    (ac : port ≠ VgaPort.acRead) (seqIndex : port ≠ VgaPort.seqIndex) (seq : port ≠ VgaPort.seqData)
    (dacReadIndex : port ≠ VgaPort.dacReadIndex)
    (dacWriteIndex : port ≠ VgaPort.dacWriteIndex) (dacData : port ≠ VgaPort.dacData)
    (misc : port ≠ VgaPort.miscRead) (gcIndex : port ≠ VgaPort.gcIndex) (gc : port ≠ VgaPort.gcData)
    (crtcIndex : port ≠ VgaPort.crtcIndex)
    (crtc : port ≠ VgaPort.crtcData) (instat : port ≠ VgaPort.instatRead) :
    VgaCells.read port = pure 0xff ∧ vga.read port = (0xff, vga) := by
  constructor
  · simp [VgaCells.read, *]
  · simp [Vga.read, Vga.value, Vga.afterRead, *]

/-- Whatever the port, a read gives the same, and its index is in range. -/
theorem Stores.read (h : cells.Stores vga) (port : UInt16) :
    cells.ReadAs (VgaCells.read port) (vga.read port) := by
  obtain rfl | acIndex := eq_or_ne port VgaPort.acIndex
  · exact h.gets h.acIndex
  obtain rfl | ac := eq_or_ne port VgaPort.acRead
  · exact h.element h.ac h.acSelected
  obtain rfl | seqIndex := eq_or_ne port VgaPort.seqIndex
  · exact h.gets (UInt8.ofNat_toNat.symm.trans (congrArg UInt8.ofNat h.seqIndex))
  obtain rfl | seq := eq_or_ne port VgaPort.seqData
  · exact h.element h.seq h.seqIndex
  obtain rfl | dacReadIndex := eq_or_ne port VgaPort.dacReadIndex
  · exact h.gets
      (congrArg (fun reading => if reading = true then Vga.dacStateRead else 0) h.dacReading)
  obtain rfl | dacWriteIndex := eq_or_ne port VgaPort.dacWriteIndex
  · exact h.gets (congrArg Prod.fst h.dacWrite)
  obtain rfl | dacData := eq_or_ne port VgaPort.dacData
  · exact h.readDac
  obtain rfl | misc := eq_or_ne port VgaPort.miscRead
  · exact h.gets h.misc
  obtain rfl | gcIndex := eq_or_ne port VgaPort.gcIndex
  · exact h.gets (UInt8.ofNat_toNat.symm.trans (congrArg UInt8.ofNat h.gcIndex))
  obtain rfl | gc := eq_or_ne port VgaPort.gcData
  · exact h.element h.gc h.gcIndex
  obtain rfl | crtcIndex := eq_or_ne port VgaPort.crtcIndex
  · exact h.gets (UInt8.ofNat_toNat.symm.trans (congrArg UInt8.ofNat h.crtcIndex))
  obtain rfl | crtc := eq_or_ne port VgaPort.crtcData
  · exact h.element h.crtc h.crtcIndex
  obtain rfl | instat := eq_or_ne port VgaPort.instatRead
  · exact h.readInstat
  obtain ⟨run, device⟩ :=
    read_unrouted vga acIndex ac seqIndex seq dacReadIndex dacWriteIndex dacData misc
    gcIndex gc crtcIndex crtc instat
  rw [run, device]
  exact ⟨cells, rfl, h⟩

end VgaCells

/-! ## Runs of accesses -/

/-- The bytes that the reads of these accesses return, and the device after them. -/
def Vga.accesses : List VgaAccess → Vga → List UInt8 × Vga
  | [], self => ([], self)
  | .write port byte :: rest, self => accesses rest (self.write port byte)
  | .read port :: rest, self =>
    let (byte, self) := self.read port
    let (bytes, self) := accesses rest self
    (byte :: bytes, self)

namespace VgaCells

variable {cells : VgaCells} {vga : Vga}

/-- A run of accesses gives the same, and its indices are all in range. -/
theorem Stores.accesses (h : cells.Stores vga) (ops : List VgaAccess) :
    ∃ cells', VgaCells.accesses ops cells = (.ok (vga.accesses ops).1, cells') ∧
      cells'.Stores (vga.accesses ops).2 := by
  induction ops generalizing cells vga with
  | nil => exact ⟨cells, rfl, h⟩
  | cons op ops ih =>
    cases op with
    | write port byte =>
      obtain ⟨cells', written, h'⟩ := h.write port byte
      obtain ⟨cells'', run, h''⟩ := ih h'
      exact ⟨cells'', (Eff.bind_of_ok written).trans run, h''⟩
    | read port =>
      obtain ⟨cells', got, h'⟩ := h.read port
      obtain ⟨cells'', run, h''⟩ := ih h'
      exact ⟨cells'', (Eff.bind_of_ok got).trans (Eff.bind_of_ok run), h''⟩

/-- What some accesses to a new device lead to. -/
def Reachable (cells : VgaCells) : Prop :=
  ∃ elapsed ops bytes, VgaCells.accesses ops (VgaCells.new elapsed) = (.ok bytes, cells)

/-- Registers that can be reached are those of an adapter. -/
lemma Reachable.stores (h : Reachable cells) : ∃ vga, cells.Stores vga := by
  obtain ⟨elapsed, ops, bytes, run⟩ := h
  obtain ⟨cells', run', stored⟩ := (Stores.new elapsed none none none).accesses ops
  cases run.symm.trans run'
  exact ⟨_, stored⟩

/-- The indices that the accesses use are inside their arrays. -/
structure InBounds (cells : VgaCells) : Prop where
  seq : cells.seqIndex.toNat < 8
  gc : cells.gcIndex.toNat < 16
  crtc : cells.crtcIndex.toNat < 32
  ac : (cells.acIndex &&& 0x1f).toNat < 32
  dacWrite : cells.dacWrite.1.toNat < 256 ∧ cells.dacWrite.2 < 3
  dacRead : cells.dacRead.1.toNat < 256 ∧ cells.dacRead.2 < 3

/-- Every index that may be used next is in range. -/
theorem Stores.inBounds (h : cells.Stores vga) : cells.InBounds where
  seq := h.seqIndex.trans_lt vga.seqIndex.isLt
  gc := h.gcIndex.trans_lt vga.gcIndex.isLt
  crtc := h.crtcIndex.trans_lt vga.crtcIndex.isLt
  ac := h.acSelected.trans_lt vga.acSelected.isLt
  dacWrite := by rw [h.dacWrite]; exact ⟨UInt8.toNat_lt _, vga.dacWrite.2.isLt⟩
  dacRead := by rw [h.dacRead]; exact ⟨UInt8.toNat_lt _, vga.dacRead.2.isLt⟩

end VgaCells

end Hearth
