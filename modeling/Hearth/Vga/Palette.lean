import Hearth.Vga.Registers

/-!
# Loading the palette

`vga_set_palette` of `guests/doom/vga.c` and `Vga::palette_rgb`. The position at which
colors are written goes through the components of all colors, whatever is done to the
position at which they are read.
-/

namespace Hearth
open Lib

/-! ## The guest -/

/-- The components in the order in which the loop writes them, with 6 bits. -/
def paletteBytes (rgb : Fin 256 → Fin 3 → UInt8) : List UInt8 :=
  (List.finRange 256).flatMap fun i => (List.finRange 3).map fun c => rgb i c >>> 2

/-- `vga_set_palette` -/
def vgaSetPalette (rgb : Fin 256 → Fin 3 → UInt8) : List VgaAccess :=
  .write VgaPort.dacWriteIndex 0 :: (paletteBytes rgb).map (.write VgaPort.dacData)

/-- A read of the palette, or a write of the position for reads. -/
def VgaAccess.readsPalette : VgaAccess → Bool
  | .read port => port == VgaPort.dacData
  | .write port _ => port == VgaPort.dacReadIndex

/-- The bytes for a palette, one component after the other. -/
lemma paletteBytes_ofFn (rgb : Fin 256 → Fin 3 → UInt8) :
    paletteBytes rgb = List.ofFn fun k : Fin (256 * 3) => rgb k.divNat k.modNat >>> 2 := by
  have row : ∀ i : Fin 256, ∀ j : Fin 3, ∀ h : i.val * 3 + j.val < 256 * 3,
      (⟨i.val * 3 + j.val, h⟩ : Fin (256 * 3)).divNat = i ∧
        (⟨i.val * 3 + j.val, h⟩ : Fin (256 * 3)).modNat = j := by
    intro i j h
    constructor
    · apply Fin.ext
      show (i.val * 3 + j.val) / 3 = i.val
      omega
    · apply Fin.ext
      show (i.val * 3 + j.val) % 3 = j.val
      omega
  rw [List.ofFn_mul, paletteBytes, List.flatMap_def, List.ofFn_eq_map (n := 256)]
  apply congrArg List.flatten
  apply List.map_congr_left
  intro i _
  simp only [row]
  rfl

/-- There are three bytes for each colour. -/
lemma paletteBytes_length (rgb : Fin 256 → Fin 3 → UInt8) :
    (paletteBytes rgb).length = 256 * 3 := by
  rw [paletteBytes_ofFn, List.length_ofFn]

/-- A component's byte has its upper six bits. -/
lemma paletteBytes_component (rgb : Fin 256 → Fin 3 → UInt8) (i : Fin 256) (c : Fin 3)
    (h : i.val * 3 + c.val < (paletteBytes rgb).length) :
    (paletteBytes rgb)[i.val * 3 + c.val] = rgb i c >>> 2 := by
  have color : (⟨i.val * 3 + c.val, by omega⟩ : Fin (256 * 3)).divNat = i := by
    apply Fin.ext
    show (i.val * 3 + c.val) / 3 = i.val
    omega
  have component : (⟨i.val * 3 + c.val, by omega⟩ : Fin (256 * 3)).modNat = c := by
    apply Fin.ext
    show (i.val * 3 + c.val) % 3 = c.val
    omega
  simp only [paletteBytes_ofFn, List.getElem_ofFn, color, component]

/-- Six bits are kept. -/
lemma shifted_mask (byte : UInt8) : byte >>> 2 &&& (0x3f : UInt8) = byte >>> 2 := by
  apply UInt8.toNat_inj.mp
  rw [VgaCells.masked (byte >>> 2) 6 rfl]
  apply Nat.mod_eq_of_lt
  show byte.toNat >>> 2 < 2 ^ 6
  rw [Nat.shiftRight_eq_div_pow]
  exact Nat.div_lt_of_lt_mul byte.toNat_lt

/-- The mask of the DAC leaves the bytes alone. -/
lemma paletteBytes_mask (rgb : Fin 256 → Fin 3 → UInt8) :
    (paletteBytes rgb).map (fun byte : UInt8 => byte &&& 0x3f) = paletteBytes rgb := by
  rw [paletteBytes_ofFn, List.map_ofFn]
  apply congrArg List.ofFn
  funext k
  apply shifted_mask

/-! ## The position -/

/-- The component after `k` others. -/
def dacPosition (k : Nat) : UInt8 × Fin 3 :=
  (UInt8.ofNat (k / 3), ⟨k % 3, Nat.mod_lt k (Nat.zero_lt_succ 2)⟩)

/-- The component behind position `k` is at position `k + 1`. -/
lemma nextComponent_position (k : Nat) :
    VgaRegisters.nextComponent (dacPosition k) = dacPosition (k + 1) := by
  have component : (dacPosition k).2 = 2 ↔ k % 3 = 2 := by
    rw [← Fin.val_inj]
    exact Iff.rfl
  unfold VgaRegisters.nextComponent
  split
  next last =>
    have : (k + 1) / 3 = k / 3 + 1 := by have := component.mp last; omega
    apply Prod.ext
    · show UInt8.ofNat (k / 3) + 1 = UInt8.ofNat ((k + 1) / 3)
      rw [this]
      exact (UInt8.ofNat_add _ _).symm
    · apply Fin.ext
      show 0 = (k + 1) % 3
      have := component.mp last
      omega
  next inner =>
    have : k % 3 ≠ 2 := fun h => inner (component.mpr h)
    apply Prod.ext
    · show UInt8.ofNat (k / 3) = UInt8.ofNat ((k + 1) / 3)
      rw [show (k + 1) / 3 = k / 3 by omega]
    · apply Fin.ext
      show (k % 3 + 1) % 3 = (k + 1) % 3
      omega

/-- After `k` bytes the position is `k`. -/
lemma nextComponent_iterate (k : Nat) :
    VgaRegisters.nextComponent^[k] (dacPosition 0) = dacPosition k := by
  induction k with
  | zero => rfl
  | succ k ih => rw [Function.iterate_succ_apply', ih, nextComponent_position]

/-- The position does not come back before it has been everywhere. -/
lemma position_injective {j k : Nat} (hj : j < 256 * 3) (hk : k < 256 * 3)
    (h : dacPosition j = dacPosition k) :
    j = k := by
  have index : (UInt8.ofNat (j / 3)).toNat = (UInt8.ofNat (k / 3)).toNat :=
    congrArg (fun p => p.1.toNat) h
  have component : j % 3 = k % 3 := congrArg (fun p => p.2.val) h
  rw [UInt8.toNat_ofNat', UInt8.toNat_ofNat', Nat.mod_eq_of_lt (by omega),
    Nat.mod_eq_of_lt (by omega)] at index
  omega

/-- Position `3 i + c` is component `c` of colour `i`. -/
lemma position_component (i : Fin 256) (c : Fin 3) :
    dacPosition (i.val * 3 + c.val) = (UInt8.ofNat i.val, c) := by
  apply Prod.ext
  · show UInt8.ofNat ((i.val * 3 + c.val) / 3) = UInt8.ofNat i.val
    rw [show (i.val * 3 + c.val) / 3 = i.val by omega]
  · apply Fin.ext
    show (i.val * 3 + c.val) % 3 = c.val
    omega

/-! ## The writes of the loop -/

namespace Vga

variable {vga : Vga}

/-- The device after one access. -/
def access : VgaAccess → Vga → Vga
  | .write port byte, self => self.write port byte
  | .read port, self => (self.read port).2

/-- The first access is made first. -/
lemma accesses_cons (op : VgaAccess) (ops : List VgaAccess) :
    (vga.accesses (op :: ops)).2 = ((vga.access op).accesses ops).2 := by
  cases op with
  | write port byte => rfl
  | read port => rfl

/-- The components, and the position at which they are written. -/
def components (self : Vga) : (UInt8 × Fin 3 → UInt8) × (UInt8 × Fin 3) :=
  (Function.uncurry self.palette, self.dacWrite)

/-- A byte of data goes into the selected component, and the next is selected. -/
lemma components_data (byte : UInt8) (vga : Vga) :
    (vga.access (.write VgaPort.dacData byte)).components =
      (Function.update vga.components.1 vga.components.2 (byte &&& 0x3f),
        VgaRegisters.nextComponent vga.components.2) := by
  apply Prod.ext
  · funext ⟨index, component⟩
    show Function.update vga.palette vga.dacWrite.1
      (Function.update (vga.palette vga.dacWrite.1) vga.dacWrite.2 (byte &&& 0x3f))
      index component =
      Function.update (Function.uncurry vga.palette) vga.dacWrite (byte &&& 0x3f) (index, component)
    rw [Function.update_apply, Function.update_apply (Function.uncurry vga.palette)]
    split
    next color =>
      rw [Function.update_apply, color]
      simp only [Prod.ext_iff, true_and]
      rfl
    next color =>
      rw [if_neg fun both => color (congrArg Prod.fst both)]
      rfl
  · rfl

/-- Reads leave the palette and its write position alone. -/
lemma components_reads {op : VgaAccess} (reads : op.readsPalette = true) :
    (vga.access op).components = vga.components := by
  cases op with
  | write port byte =>
    obtain rfl : port = VgaPort.dacReadIndex := eq_of_beq reads
    rfl
  | read port =>
    obtain rfl : port = VgaPort.dacData := eq_of_beq reads
    rfl

/-- The bytes written are put at the position, and the reads in between change nothing. -/
lemma components_fill {ops : List VgaAccess} {bytes : List UInt8}
    (writes : ops.filter (fun op => !op.readsPalette) = bytes.map (.write VgaPort.dacData))
    (vga : Vga) :
    (vga.accesses ops).2.components =
      fill VgaRegisters.nextComponent (bytes.map fun byte => byte &&& 0x3f) vga.components := by
  induction ops generalizing bytes vga with
  | nil =>
    obtain rfl : bytes = [] := List.map_eq_nil_iff.mp writes.symm
    rfl
  | cons op ops ih =>
    rw [accesses_cons]
    cases reads : op.readsPalette with
    | true =>
      rw [List.filter_cons_of_neg (by simp [reads])] at writes
      rw [ih writes, components_reads reads]
    | false =>
      rw [List.filter_cons_of_pos (by simp [reads])] at writes
      obtain ⟨byte, bytes', rfl, rfl, rest⟩ := List.map_eq_cons_iff.mp writes.symm
      rw [ih rest.symm, components_data]
      rfl

/-- Bytes written from colour 0 on fill the palette, with reads anywhere between them. -/
lemma components_load {ops : List VgaAccess} {bytes : List UInt8}
    (writes : ops.filter (fun op => !op.readsPalette) =
      .write VgaPort.dacWriteIndex 0 :: bytes.map (.write VgaPort.dacData)) (vga : Vga) :
    ∃ palette, (vga.accesses ops).2.components =
      fill VgaRegisters.nextComponent (bytes.map fun byte => byte &&& 0x3f)
        (palette, dacPosition 0) := by
  induction ops generalizing vga with
  | nil => cases writes
  | cons op ops ih =>
    rw [accesses_cons]
    cases reads : op.readsPalette with
    | true =>
      rw [List.filter_cons_of_neg (by simp [reads])] at writes
      exact ih writes (vga.access op)
    | false =>
      rw [List.filter_cons_of_pos (by simp [reads])] at writes
      obtain ⟨rfl, rest⟩ := List.cons.inj writes
      exact ⟨_, components_fill rest (vga.access (.write VgaPort.dacWriteIndex 0))⟩

/-- After the loop each component has its byte, and the position is where it was set. -/
theorem components_loaded {rgb : Fin 256 → Fin 3 → UInt8} {ops : List VgaAccess}
    (writes : ops.filter (fun op => !op.readsPalette) = vgaSetPalette rgb) (vga : Vga) :
    (∀ i c, (vga.accesses ops).2.palette (UInt8.ofNat i.val) c = rgb i c >>> 2) ∧
      (vga.accesses ops).2.dacWrite = (0, 0) := by
  obtain ⟨palette, loaded⟩ := components_load writes vga
  rw [paletteBytes_mask] at loaded
  refine ⟨fun i c => ?_, ?_⟩
  · have inside : i.val * 3 + c.val < (paletteBytes rgb).length := by
      rw [paletteBytes_length]
      omega
    have once : ∀ j < (paletteBytes rgb).length, i.val * 3 + c.val < j →
        VgaRegisters.nextComponent^[j] (dacPosition 0) ≠
        VgaRegisters.nextComponent^[i.val * 3 + c.val]
          (dacPosition 0) := by
      intro j hj later same
      rw [nextComponent_iterate, nextComponent_iterate] at same
      rw [paletteBytes_length] at hj
      exact absurd (position_injective (by omega) hj same.symm) (Nat.ne_of_lt later)
    have at_ := fill_inside (paletteBytes rgb) palette inside once
    rw [nextComponent_iterate, position_component, ← loaded, paletteBytes_component] at at_
    exact at_
  · have last : (fill VgaRegisters.nextComponent (paletteBytes rgb)
      (palette, dacPosition 0)).2 = _ :=
      fill_position (paletteBytes rgb) palette (dacPosition 0)
    rw [nextComponent_iterate, paletteBytes_length, ← loaded] at last
    exact last

end Vga

/-! ## What is shown -/

/-- `Vga::palette_rgb` -/
def VgaCells.paletteRgb (self : VgaCells) : Vector UInt32 256 :=
  self.palette.map fun color => rgbPixel (widen color[0]) (widen color[1]) (widen color[2])

/-- Red, green or blue of a pixel. -/
def pixelComponent (pixel : UInt32) : Fin 3 → UInt8
  | 0 => (pixel >>> 16).toUInt8
  | 1 => (pixel >>> 8).toUInt8
  | 2 => pixel.toUInt8

/-- The red of a pixel. -/
lemma rgbPixel_red (r g b : UInt8) : pixelComponent (rgbPixel r g b) 0 = r := by
  apply UInt8.toBitVec_inj.mp
  apply BitVec.eq_of_getLsbD_eq
  intro i hi
  simp [pixelComponent, rgbPixel, BitVec.getLsbD_setWidth]
  grind

/-- The green of a pixel. -/
lemma rgbPixel_green (r g b : UInt8) : pixelComponent (rgbPixel r g b) 1 = g := by
  apply UInt8.toBitVec_inj.mp
  apply BitVec.eq_of_getLsbD_eq
  intro i hi
  simp [pixelComponent, rgbPixel, BitVec.getLsbD_setWidth]
  grind

/-- The blue of a pixel. -/
lemma rgbPixel_blue (r g b : UInt8) : pixelComponent (rgbPixel r g b) 2 = b := by
  apply UInt8.toBitVec_inj.mp
  apply BitVec.eq_of_getLsbD_eq
  intro i hi
  simp [pixelComponent, rgbPixel]

namespace VgaCells

variable {cells : VgaCells} {vga : Vga}

/-- The colours are stored where the index says. -/
lemma Stores.color (h : cells.Stores vga) (i : Fin 256) (c : Fin 3) :
    cells.palette[i][c] = vga.palette (UInt8.ofNat i.val) c := by
  obtain ⟨color, at_, held⟩ := h.palette (UInt8.ofNat i.val)
  have index : (UInt8.ofNat i.val).toNat = i.val :=
    UInt8.toNat_ofNat'.trans (Nat.mod_eq_of_lt i.isLt)
  rw [index, Vector.getElem?_eq_getElem i.isLt] at at_
  rw [← held.getElem c, ← Option.some.inj at_]
  rfl

/-- A pixel's component is the stored one, widened to eight bits. -/
lemma paletteRgb_component (cells : VgaCells) (i : Fin 256) (c : Fin 3) :
    pixelComponent cells.paletteRgb[i] c = widen cells.palette[i][c] := by
  have pixel : cells.paletteRgb[i] =
      rgbPixel (widen cells.palette[i][0]) (widen cells.palette[i][1])
      (widen cells.palette[i][2]) :=
    Vector.getElem_map _ i.isLt
  rw [pixel]
  fin_cases c
  · apply rgbPixel_red
  · apply rgbPixel_green
  · apply rgbPixel_blue

/-- Whatever was done to the registers before, no access goes outside an array, and the loop of the
guest leaves its colors in the palette, however the palette is read meanwhile. -/
theorem palette_loaded (h : cells.Reachable) :
    cells.InBounds ∧ (∀ ops, ∃ bytes cells', accesses ops cells = (.ok bytes, cells')) ∧
      ∀ rgb ops, ops.filter (fun op => !op.readsPalette) = vgaSetPalette rgb →
        ∃ bytes cells', accesses ops cells = (.ok bytes, cells') ∧
          (∀ (i : Fin 256) (c : Fin 3), cells'.palette[i][c] = rgb i c >>> 2) ∧
          cells'.dacWrite = (0, 0) ∧
          ∀ (i : Fin 256) (c : Fin 3),
            pixelComponent cells'.paletteRgb[i] c = widen (rgb i c >>> 2) ∧
            (rgb i c = 0 → pixelComponent cells'.paletteRgb[i] c = 0) ∧
            (rgb i c = 255 → pixelComponent cells'.paletteRgb[i] c = 255) := by
  obtain ⟨vga, stored⟩ := h.stores
  refine ⟨stored.inBounds, fun ops => ?_, fun rgb ops writes => ?_⟩
  · obtain ⟨cells', run, _⟩ := stored.accesses ops
    exact ⟨_, cells', run⟩
  · obtain ⟨cells', run, stored'⟩ := stored.accesses ops
    obtain ⟨colors, position⟩ := Vga.components_loaded writes vga
    have loaded : ∀ (i : Fin 256) (c : Fin 3), cells'.palette[i][c] = rgb i c >>> 2 :=
      fun i c => (stored'.color i c).trans (colors i c)
    have shown : ∀ (i : Fin 256) (c : Fin 3), pixelComponent cells'.paletteRgb[i] c =
      widen (rgb i c >>> 2) := by
      intro i c
      rw [paletteRgb_component, loaded]
    refine ⟨_, cells', run, loaded, ?_, fun i c => ⟨shown i c, fun black => ?_, fun full => ?_⟩⟩
    · rw [stored'.dacWrite, position]
      rfl
    · rw [shown, black]
      rfl
    · rw [shown, full]
      rfl

/-- The accesses that load a scale of greys. -/
def greyWrites : List VgaAccess := vgaSetPalette fun i _ => UInt8.ofNat i.val

/-- Between two components of a color, the position for reads is set and the palette is read. -/
def greyAccesses : List VgaAccess :=
  greyWrites.take 100 ++
    ([.write VgaPort.dacReadIndex 7, .read VgaPort.dacData] ++ greyWrites.drop 100)

/-- The scale is loaded all the same. -/
theorem greys_loaded : ∃ bytes cells', accesses greyAccesses (new []) = (.ok bytes, cells') ∧
    (∀ (i : Fin 256) (c : Fin 3), cells'.palette[i][c] = UInt8.ofNat i.val >>> 2) ∧
    cells'.dacWrite = (0, 0) := by
  have writes : ∀ op ∈ greyWrites, (!op.readsPalette) = true := by
    intro op mem
    rcases List.mem_cons.mp mem with rfl | mem
    · rfl
    · obtain ⟨byte, _, rfl⟩ := List.mem_map.mp mem
      rfl
  have before : (greyWrites.take 100).filter (fun op => !op.readsPalette) = greyWrites.take 100 :=
    List.filter_eq_self.mpr fun op mem => writes op (List.mem_of_mem_take mem)
  have after : (greyWrites.drop 100).filter (fun op => !op.readsPalette) = greyWrites.drop 100 :=
    List.filter_eq_self.mpr fun op mem => writes op (List.mem_of_mem_drop mem)
  have all : greyAccesses.filter (fun op => !op.readsPalette) = vgaSetPalette fun i _ =>
    UInt8.ofNat i.val := by
    rw [greyAccesses, List.filter_append, List.filter_append, before, after]
    exact List.take_append_drop 100 greyWrites
  have start : Reachable (new []) := ⟨[], [], [], rfl⟩
  obtain ⟨bytes, cells', run, loaded, position, _⟩ := (palette_loaded start).2.2 _ _ all
  exact ⟨bytes, cells', run, loaded, position⟩

end VgaCells

end Hearth
