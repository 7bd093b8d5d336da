import Hearth.Vga.Queue

/-!
# Rendering

`written_pages` of `arch/x86_64/vga.rs`, and the part of `Display::render` that holds the lock:
which rows have to be drawn for a client that has seen a frame, and what drawing them needs. Whether
the dirty log could be fetched, and what it was, is given.
-/

namespace Hearth
open Lib

namespace Vga

/-- `bitmap[page / 64] >> (page % 64) & 1 != 0`; the log has a bit for every page. -/
def logged (bitmap : List UInt64) (page : Nat) : Bool :=
  (bitmap.getD (page / 64) 0 >>> UInt64.ofNat (page % 64)) &&& 1 != 0

/-- The pages to stamp, given what the log's fetch returned. A failed fetch loses nothing:
every page counts as written. -/
def bitmap (fetched : Option (List UInt64)) (self : Vga) : List UInt64 :=
  if self.framebuffer.isNone then [0]
  else if self.dirtyLog.isNone then [~~~0]
  else fetched.getD [~~~0]

/-- Starts a new frame and returns the pages written after frame `seen`, from the first to the
last, or all of them for 0. -/
def writtenPages (fetched : Option (List UInt64)) (seen : UInt64) (self : Vga) :
    Option (Nat × Nat) × Vga :=
  let frame := self.frame + 1
  let bitmap := self.bitmap fetched
  let pageWritten := fun page : Fin framebufferPages =>
    if self.repaint || logged bitmap page then frame else self.pageWritten page
  let changed := fun page => seen == 0 || decide (seen < pageWritten page)
  let pages := do
    let first ← Fin.find? changed
    let last ← Fin.findRev? changed
    pure (first.val, last.val + 1)
  (pages, { self with frame := frame, pageWritten := pageWritten, repaint := false })

/-- The rows of the pages `first .. last`. -/
def rows (pages : Nat × Nat) : Nat × Nat :=
  (pages.1 * pageSize.toNat / width,
    (min (pages.2 * pageSize.toNat) framebufferSize + (width - 1)) / width)

/-- What the drawing needs once the lock is given back, and the next pixel to draw. -/
structure Drawing where
  rows : Nat × Nat
  palette : UInt8 → UInt32
  framebuffer : Option Nat
  next : Nat

/-- The locked part of `render`, after the queued writes: the new frame is the one that is seen. -/
def startFrame (fetched : Option (List UInt64)) (seen : UInt64) (self : Vga) :
    Option Drawing × Vga :=
  let (pages, self) := self.writtenPages fetched seen
  (pages.map fun pages =>
    { rows := rows pages
      palette := self.paletteRgb
      framebuffer := self.framebuffer.filter fun _ => self.acIndex &&& acPas != 0
      next := (rows pages).1 * width }, self)

/-- The pixel for a byte of the framebuffer: without one the rows are filled with 0. -/
def Drawing.color (self : Drawing) (byte : UInt8) : UInt32 :=
  if self.framebuffer.isNone then 0 else self.palette byte

/-! ## Which rows -/

/-- The page of a pixel. -/
def PageOf (page : Fin framebufferPages) (p : Nat) : Prop :=
  page.val = p / pageSize.toNat ∧ p < framebufferSize

/-- Every pixel is on a page. -/
lemma exists_page {p : Nat} (h : p < framebufferSize) : ∃ page, PageOf page p := by
  have lt : p / pageSize.toNat < framebufferPages := by
    show p / 4096 < 16
    have : p < 64000 := h
    omega
  exact ⟨⟨p / pageSize.toNat, lt⟩, rfl, h⟩

/-- The rows of some pages have all their pixels. -/
lemma rows_cover {page : Fin framebufferPages} {p first last : Nat} (h : PageOf page p)
    (ge : first ≤ page.val) (lt : page.val < last) :
    (rows (first, last)).1 * width ≤ p ∧ p < (rows (first, last)).2 * width := by
  obtain ⟨e, hp⟩ := h
  rw [e] at ge lt
  have small : p < 64000 := hp
  have ge : first ≤ p / 4096 := ge
  have lt : p / 4096 < last := lt
  show first * 4096 / 320 * 320 ≤ p ∧ p < (min (last * 4096) 64000 + 319) / 320 * 320
  omega

/-- No row is past the picture. -/
lemma rows_fit (pages : Nat × Nat) : (rows pages).2 ≤ height := by
  show (min (pages.2 * 4096) 64000 + 319) / 320 ≤ 200
  omega

variable {v : Vga} {fetched : Option (List UInt64)} {seen : UInt64} {page : Fin framebufferPages}

/-- A bitmap of ones has every page. -/
lemma logged_all (page : Fin framebufferPages) : logged [~~~0] page = true := by
  revert page
  decide

/-- Without a log every page counts as written. -/
lemma bitmap_unlogged (fb : v.framebuffer.isSome) (log : v.dirtyLog = none) :
    v.bitmap fetched = [~~~0] := by
  obtain ⟨host, hfb⟩ := Option.isSome_iff_exists.mp fb
  unfold bitmap
  rw [hfb, log]
  rfl

/-- With a log that cannot be fetched every page counts as written. -/
lemma bitmap_logged {log : DirtyLog} (fetched : Option (List UInt64)) (fb : v.framebuffer.isSome)
    (hlog : v.dirtyLog = some log) : v.bitmap fetched = fetched.getD [~~~0] := by
  obtain ⟨host, hfb⟩ := Option.isSome_iff_exists.mp fb
  unfold bitmap
  rw [hfb, hlog]
  rfl

/-- A page that counts as written is among those returned. -/
lemma writtenPages_covers (h : seen = 0 ∨ seen < (v.writtenPages fetched seen).2.pageWritten page) :
    ∃ first last, (v.writtenPages fetched seen).1 = some (first, last) ∧ first ≤ page.val ∧
      page.val < last := by
  let changed :=
    fun page => seen == 0 || decide (seen < (v.writtenPages fetched seen).2.pageWritten page)
  have hit : changed page = true := by
    apply (Bool.or_eq_true _ _).mpr
    exact h.imp beq_iff_eq.mpr decide_eq_true
  obtain ⟨first, hfirst⟩ := Option.isSome_iff_exists.mp (Fin.isSome_find?_of_eq_true hit)
  obtain ⟨last, hlast⟩ := Option.isSome_iff_exists.mp (Fin.isSome_findRev?_iff.mpr ⟨page, hit⟩)
  have pages : (v.writtenPages fetched seen).1 =
      (Fin.find? changed).bind fun first =>
        (Fin.findRev? changed).bind fun last => some (first.val, last.val + 1) := rfl
  rw [hfirst, hlast] at pages
  refine ⟨first.val, last.val + 1, pages, ?_, ?_⟩
  · apply Nat.le_of_not_lt
    intro lt
    exact Bool.false_ne_true (((Fin.find?_eq_some_iff.mp hfirst).2 page lt).symm.trans hit)
  · apply Nat.lt_succ_of_le
    apply Nat.le_of_not_lt
    intro lt
    exact Bool.false_ne_true (((Fin.findRev?_eq_some_iff.mp hlast).2 page lt).symm.trans hit)

/-- The pages returned are some, and pages of the framebuffer. -/
lemma writtenPages_order {first last : Nat}
    (h : (v.writtenPages fetched seen).1 = some (first, last)) :
    first < last ∧ last ≤ framebufferPages := by
  obtain ⟨lo, hlo, h⟩ := Option.bind_eq_some_iff.mp h
  obtain ⟨hi, hhi, e⟩ := Option.bind_eq_some_iff.mp h
  cases e
  refine ⟨Nat.lt_succ_of_le ?_, hi.isLt⟩
  apply Nat.le_of_not_lt
  intro lt
  exact Bool.false_ne_true
    (((Fin.find?_eq_some_iff.mp hlo).2 hi lt).symm.trans (Fin.findRev?_eq_some_iff.mp hhi).1)

/-- A page that the log has, and every page of a repaint, gets the number of the new frame. -/
lemma writtenPages_stamps (h : v.repaint = true ∨ logged (v.bitmap fetched) page = true) :
    (v.writtenPages fetched seen).2.pageWritten page = v.frame + 1 :=
  if_pos ((Bool.or_eq_true _ _).mpr h)

/-- A page has the number of the new frame or the one it had. -/
lemma writtenPages_stamp (v : Vga) (fetched : Option (List UInt64)) (seen : UInt64)
    (page : Fin framebufferPages) :
    (v.writtenPages fetched seen).2.pageWritten page = v.frame + 1 ∨
      (v.writtenPages fetched seen).2.pageWritten page = v.pageWritten page := by
  cases h : (v.repaint || logged (v.bitmap fetched) page) with
  | true => exact .inl (if_pos h)
  | false => exact .inr (if_neg (ne_true_of_eq_false h))

/-! ## Colours -/

/-- What a client should see for a byte of the framebuffer. -/
def color (v : Vga) (byte : UInt8) : UInt32 :=
  if v.framebuffer.isNone ∨ v.acIndex &&& acPas = 0 then 0 else v.paletteRgb byte

/-- The framebuffer is drawn from where there is one and the display is on. -/
lemma blank_iff (v : Vga) :
    (v.framebuffer.filter fun _ => v.acIndex &&& acPas != 0).isNone = true ↔
      v.framebuffer.isNone = true ∨ v.acIndex &&& acPas = 0 := by
  cases v.framebuffer with
  | none => exact ⟨.inl, fun _ => rfl⟩
  | some fb => simp [Option.filter_some]

/-- The pixels drawn for a frame have the colours of the device as it was. -/
lemma startFrame_color {d : Drawing} (h : (v.startFrame fetched seen).1 = some d) :
    d.color = v.color := by
  obtain ⟨pages, -, rfl⟩ := Option.map_eq_some_iff.mp h
  funext byte
  exact if_congr v.blank_iff rfl rfl

/-- A colour changes only where the next frame redraws everything. -/
structure Changes (v v' : Vga) : Prop where
  framebuffer : v'.framebuffer = v.framebuffer
  color : v'.repaint = true ∨ v'.color = v.color
  repaint : v.repaint = true → v'.repaint = true

/-- Doing nothing changes nothing. -/
lemma Changes.refl (v : Vga) : Changes v v := ⟨rfl, .inr rfl, id⟩

/-- Changes followed by changes. -/
lemma Changes.trans {v v' v'' : Vga} (h : Changes v v') (h' : Changes v' v'') : Changes v v'' where
  framebuffer := h'.framebuffer.trans h.framebuffer
  color := by
    rcases h'.color with r | e'
    · exact .inl r
    · exact h.color.imp h'.repaint e'.trans
  repaint r := h'.repaint (h.repaint r)

/-- The colours come from the framebuffer being there, the palette and the bit for the display. -/
lemma color_congr {v v' : Vga} (fb : v'.framebuffer = v.framebuffer)
    (palette : v'.palette = v.palette)
    (on : v'.acIndex &&& acPas = v.acIndex &&& acPas) : v'.color = v.color := by
  funext byte
  unfold color paletteRgb
  rw [fb, palette, on]

/-- The bit survives that the index has 6 bits only. -/
lemma display_kept {a byte : UInt8} (h : (a ^^^ byte) &&& acPas = 0) :
    (byte &&& 0x3f) &&& acPas = a &&& acPas := by
  have same : a &&& acPas = byte &&& acPas := by
    apply UInt8.xor_eq_zero_iff.mp
    rw [← h, ← UInt8.toBitVec_inj]
    ext i hi
    simp [Bool.and_xor_distrib_right]
  rw [same, UInt8.and_assoc]
  rfl

/-- Only the data port changes the palette. -/
lemma write_palette {port : UInt16} (h : port ≠ VgaPort.dacData) (byte : UInt8)
    (self : VgaRegisters) :
    (self.write port byte).palette = self.palette := by
  unfold VgaRegisters.write
  rw [if_neg h]
  repeat' split
  all_goals rfl

/-- Only its index port turns the display on and off. -/
lemma write_acIndex {port : UInt16} (h : port ≠ VgaPort.acIndex) (byte : UInt8)
    (self : VgaRegisters) :
    (self.write port byte).acIndex = self.acIndex := by
  unfold VgaRegisters.write
  rw [if_neg h]
  repeat' split
  all_goals rfl

/-- A write that does not make the next frame redraw everything leaves the bit for the display. -/
lemma write_display {port : UInt16} {byte : UInt8} {self : VgaRegisters}
    (h : self.repaints port byte = false) :
    (self.write port byte).acIndex &&& acPas = self.acIndex &&& acPas := by
  by_cases ac : port = VgaPort.acIndex
  · subst ac
    cases next : self.acDataNext with
    | true =>
      have same : (self.write VgaPort.acIndex byte).acIndex = self.acIndex := by
        simp [VgaRegisters.write, next]
      rw [same]
    | false =>
      have index : (self.write VgaPort.acIndex byte).acIndex = byte &&& 0x3f := by
        simp [VgaRegisters.write, next]
      have kept : (self.acIndex ^^^ byte) &&& acPas = 0 := by
        simpa [VgaRegisters.repaints, next] using h
      rw [index, display_kept kept]
  · rw [write_acIndex ac]

/-- A write that changes a colour or the display marks all as to be redrawn. -/
lemma Changes.write (v : Vga) (port : UInt16) (byte : UInt8) : Changes v (v.write port byte) := by
  refine ⟨rfl, ?_, fun r => (Bool.or_eq_true _ _).mpr (.inl r)⟩
  cases r : v.toVgaRegisters.repaints port byte with
  | true => exact .inl ((Bool.or_eq_true _ _).mpr (.inr r))
  | false =>
    have dac : port ≠ VgaPort.dacData := by
      intro e
      subst e
      cases r
    exact .inr (color_congr rfl (write_palette dac byte v.toVgaRegisters) (write_display r))

/-- A read changes neither a colour nor the display. -/
lemma Changes.read (v : Vga) (port : UInt16) : Changes v (v.read port).2 := by
  show Changes v (v.afterRead port)
  unfold afterRead
  split_ifs
  · exact ⟨rfl, .inr rfl, id⟩
  · exact ⟨rfl, .inr rfl, id⟩
  · exact .refl v

/-- The bytes of an access mark what they change. -/
lemma Changes.accessBytes (direction : UInt8) (port : UInt16) (size i : Nat)
    (data : List UInt8) (v : Vga) :
    Changes v (Vga.accessBytes direction port size i data v).2 := by
  induction data generalizing i v with
  | nil => exact .refl v
  | cons byte data ih =>
    have first : Changes v (v.accessByte direction (port + UInt16.ofNat i) byte).2 := by
      unfold accessByte
      split_ifs
      · exact .write v _ byte
      · exact .read v _
      · exact .refl v
    exact first.trans (ih _ _)

/-- Writes to several ports mark what they change. -/
lemma Changes.writeFrom (port : UInt16) (data : List UInt8) (v : Vga) :
    Changes v (v.writeFrom port data) := by
  induction data generalizing port v with
  | nil => exact .refl v
  | cons byte data ih => exact (Changes.write v port byte).trans (ih (port + 1) (v.write port byte))

/-- Queued writes that are applied mark what they change. -/
lemma Changes.applyEntries (items : List CoalescedMmio) (v : Vga) :
    Changes v (v.applyEntries items) := by
  induction items generalizing v with
  | nil => exact .refl v
  | cons entry items ih => exact (Changes.writeFrom _ _ v).trans (ih (v.applyEntry entry))

end Vga

end Hearth
