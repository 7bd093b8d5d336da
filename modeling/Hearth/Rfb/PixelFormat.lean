import Hearth.Lib.Fields

/-!
# Pixel formats

`PixelFormat` of `frontend/rfb.rs`: what a client says of the pixels it wants, and how a
pixel is written to it. A build either checks integer overflow, which then panics, or
computes modulo the width of the type.
-/

namespace Hearth
open Lib

/-- `PixelFormat`, with the three components by index. -/
structure PixelFormat where
  bitsPerPixel : UInt8
  depth : UInt8
  bigEndian : Bool
  trueColour : Bool
  max : Fin 3 → UInt16
  shift : Fin 3 → UInt8
  deriving DecidableEq

namespace PixelFormat

/-- The 32-bit `0x00RRGGBB`, little-endian, that the server offers (`DEFAULT`). -/
def default : PixelFormat where
  bitsPerPixel := 32
  depth := 24
  bigEndian := false
  trueColour := true
  max := fun _ => 255
  shift := ![16, 8, 0]

/-- `u16::from_be_bytes` -/
def fromBe16 (hi lo : UInt8) : UInt16 := UInt16.ofNat (hi.toNat * 256 + lo.toNat)

/-- The format in a request. -/
def fromBytes (b : Fin 16 → UInt8) : PixelFormat where
  bitsPerPixel := b 0
  depth := b 1
  bigEndian := b 2 != 0
  trueColour := b 3 != 0
  max := ![fromBe16 (b 4) (b 5), fromBe16 (b 6) (b 7), fromBe16 (b 8) (b 9)]
  shift := ![b 10, b 11, b 12]

/-- The bytes of a pixel. -/
def bytesPerPixel (self : PixelFormat) : Nat := self.bitsPerPixel.toNat / 8

/-- Colour maps are not supported. -/
def supported (self : PixelFormat) : Bool :=
  self.trueColour && (self.bitsPerPixel == 8 || self.bitsPerPixel == 16 || self.bitsPerPixel == 32)

/-! ## Encoding -/

/-- `a * b` on `u32`. -/
def mul (overflowChecks : Bool) (a b : UInt32) : Option UInt32 :=
  if overflowChecks = true ∧ 2 ^ 32 ≤ a.toNat * b.toNat then none else some (a * b)

/-- `a << b`: the shift is taken modulo 32 where overflow is not checked. -/
def shl (overflowChecks : Bool) (a : UInt32) (b : UInt8) : Option UInt32 :=
  if overflowChecks = true ∧ 32 ≤ b.toNat then none else some (a <<< b.toUInt32)

/-- Red, green and blue of `0x00RRGGBB`. -/
def component (rgb : UInt32) : Fin 3 → UInt32 :=
  ![rgb >>> 16 &&& 0xff, rgb >>> 8 &&& 0xff, rgb &&& 0xff]

/-- One round of the loop over the components. -/
def addComponent (overflowChecks : Bool) (self : PixelFormat) (rgb value : UInt32) (i : Fin 3) :
    Option UInt32 := do
  let product ← mul overflowChecks (component rgb i) (self.max i).toUInt32
  let field ← shl overflowChecks (product / 255) (self.shift i)
  pure (value ||| field)

/-- What the pixel's bytes are appended to; `none` is a panic. -/
def encode (overflowChecks : Bool) (self : PixelFormat) (rgb : UInt32) (out : List UInt8) :
    Option (List UInt8) := do
  let value ← (List.finRange 3).foldlM (self.addComponent overflowChecks rgb) 0
  let bytes := toLE 4 value.toNat
  let n := self.bytesPerPixel
  if bytes.length < n then none
  else if self.bigEndian then pure (out ++ (bytes.take n).reverse)
  else pure (out ++ bytes.take n)

/-- The loop over the pixels of an update. -/
def encodeAll (overflowChecks : Bool) (self : PixelFormat) (pixels : List UInt32)
    (out : List UInt8) :
    Option (List UInt8) :=
  pixels.foldlM (fun out rgb => self.encode overflowChecks rgb out) out

/-! ## Components -/

/-- A component has eight bits. -/
lemma component_le (rgb : UInt32) (i : Fin 3) : (component rgb i).toNat ≤ 255 := by
  have low (v : UInt32) : (v &&& 0xff).toNat ≤ 255 := by
    rw [UInt32.toNat_and]
    exact Nat.and_le_right
  match i with
  | 0 => exact low _
  | 1 => exact low _
  | 2 => exact low _

/-- What a component is scaled to. -/
def scaled (self : PixelFormat) (rgb : UInt32) (i : Fin 3) : Nat :=
  (component rgb i).toNat * (self.max i).toNat / 255

variable {self : PixelFormat} {checks : Bool} {rgb : UInt32}

/-- Scaling a component does not overflow. -/
lemma product_lt (self : PixelFormat) (rgb : UInt32) (i : Fin 3) :
    (component rgb i).toNat * (self.max i).toNat < 2 ^ 32 := by
  calc
    _ ≤ 255 * (2 ^ 16 - 1) :=
      Nat.mul_le_mul (component_le rgb i) (Nat.le_sub_one_of_lt (self.max i).toNat_lt)
    _ < 2 ^ 32 := by decide

/-- The product never overflows. -/
lemma mul_component (i : Fin 3) :
    mul checks (component rgb i) (self.max i).toUInt32 =
      some (component rgb i * (self.max i).toUInt32) := by
  refine if_neg fun h => ?_
  have := product_lt self rgb i
  rw [UInt16.toNat_toUInt32] at h
  omega

/-- The component as the code scales it. -/
lemma scaled_eq (i : Fin 3) :
    (component rgb i * (self.max i).toUInt32 / 255).toNat = self.scaled rgb i := by
  rw [UInt32.toNat_div, UInt32.toNat_mul, UInt16.toNat_toUInt32,
    Nat.mod_eq_of_lt (product_lt self rgb i)]
  rfl

/-- A scaled component is at most the format's maximum. -/
lemma scaled_le (self : PixelFormat) (rgb : UInt32) (i : Fin 3) :
    self.scaled rgb i ≤ (self.max i).toNat := by
  apply Nat.div_le_of_le_mul
  exact Nat.mul_le_mul_right _ (component_le rgb i)

/-- The shifts of a component that are not overflows. -/
def Shifts (checks : Bool) (self : PixelFormat) (i : Fin 3) : Prop :=
  checks = false ∨ (self.shift i).toNat < 32

/-- A shift that is in range puts the component into the value. -/
lemma addComponent_some {i : Fin 3} (h : self.Shifts checks i) (value : UInt32) :
    self.addComponent checks rgb value i =
      some (value |||
        (component rgb i * (self.max i).toUInt32 / 255) <<< (self.shift i).toUInt32) := by
  have shift : shl checks (component rgb i * (self.max i).toUInt32 / 255) (self.shift i) = some _ :=
    if_neg fun big =>
      h.elim (fun h => by cases h.symm.trans big.1) fun h => absurd h (Nat.not_lt.mpr big.2)
  simp only [addComponent, mul_component, Option.bind_eq_bind, Option.bind_some, shift]
  rfl

/-- One that is not overflows. -/
lemma addComponent_none {i : Fin 3} (h : ¬ self.Shifts checks i) (value : UInt32) :
    self.addComponent checks rgb value i = none := by
  obtain ⟨checked, big⟩ := not_or.mp h
  have shift : shl checks (component rgb i * (self.max i).toUInt32 / 255) (self.shift i) = none :=
    if_pos ⟨Bool.of_not_eq_false checked, Nat.le_of_not_lt big⟩
  simp only [addComponent, mul_component, Option.bind_eq_bind, Option.bind_some, shift]
  rfl

/-- The word of a pixel, if no shift overflows. -/
def orComponents (self : PixelFormat) (rgb value : UInt32) (components : List (Fin 3)) : UInt32 :=
  components.foldl
    (fun value i =>
      value ||| (component rgb i * (self.max i).toUInt32 / 255) <<< (self.shift i).toUInt32) value

/-- With all shifts in range all components are put into the value. -/
lemma foldlM_some {components : List (Fin 3)} (h : ∀ i, self.Shifts checks i) (value : UInt32) :
    components.foldlM (self.addComponent checks rgb) value =
      some (self.orComponents rgb value components) := by
  induction components generalizing value with
  | nil => rfl
  | cons i components ih =>
    rw [List.foldlM_cons, addComponent_some (h i)]
    exact ih _

/-- With one shift out of range there is no value. -/
lemma foldlM_none {components : List (Fin 3)} {i : Fin 3} (hi : i ∈ components)
    (h : ¬ self.Shifts checks i)
    (value : UInt32) : components.foldlM (self.addComponent checks rgb) value = none := by
  induction components generalizing value with
  | nil => cases hi
  | cons l components ih =>
    rw [List.foldlM_cons]
    by_cases hl : self.Shifts checks l
    · have later : i ∈ components := by
        rcases List.mem_cons.mp hi with rfl | later
        · exact absurd hl h
        · exact later
      rw [addComponent_some hl]
      exact ih later _
    · rw [addComponent_none hl]
      rfl

/-- The bytes of a pixel. -/
def pixelBytes (self : PixelFormat) (rgb : UInt32) : List UInt8 :=
  let bytes := (toLE 4 (self.orComponents rgb 0 (List.finRange 3)).toNat).take self.bytesPerPixel
  if self.bigEndian then bytes.reverse else bytes

/-- A supported format has one to four whole bytes a pixel. -/
lemma supported_bits (h : self.supported = true) :
    self.bitsPerPixel.toNat = 8 * self.bytesPerPixel ∧ 1 ≤ self.bytesPerPixel ∧
    self.bytesPerPixel ≤ 4 := by
  unfold supported at h
  unfold bytesPerPixel
  simp only [Bool.and_eq_true, Bool.or_eq_true, beq_iff_eq] at h
  obtain ⟨-, (h | h) | h⟩ := h
  · rw [h]; decide
  · rw [h]; decide
  · rw [h]; decide

/-- No shift overflows, and a word has the bytes of a pixel. -/
def Encodable (checks : Bool) (self : PixelFormat) : Prop :=
  (∀ i, self.Shifts checks i) ∧ self.bytesPerPixel ≤ 4

/-- A pixel takes that many. -/
lemma pixelBytes_length (h : self.bytesPerPixel ≤ 4) (rgb : UInt32) :
    (self.pixelBytes rgb).length = self.bytesPerPixel := by
  have len : ((toLE 4 (self.orComponents rgb 0 (List.finRange 3)).toNat).take
    self.bytesPerPixel).length =
      self.bytesPerPixel := by
    rw [List.length_take, toLE_length]
    exact Nat.min_eq_left h
  unfold pixelBytes
  cases self.bigEndian with
  | false => exact len
  | true => exact List.length_reverse.trans len

/-- An encodable format gives the bytes of the pixel. -/
lemma encode_some (h : self.Encodable checks) (out : List UInt8) :
    self.encode checks rgb out = some (out ++ self.pixelBytes rgb) := by
  have fits : ¬ (toLE 4 (self.orComponents rgb 0 (List.finRange 3)).toNat).length <
    self.bytesPerPixel := by
    rw [toLE_length]
    exact Nat.not_lt.mpr h.2
  unfold encode pixelBytes
  rw [foldlM_some h.1]
  simp only [Option.bind_eq_bind, Option.bind_some, if_neg fits]
  cases self.bigEndian with
  | false => rfl
  | true => rfl

/-- A shift out of range gives none. -/
lemma encode_none {i : Fin 3} (h : ¬ self.Shifts checks i) (out : List UInt8) :
    self.encode checks rgb out = none := by
  have all : i ∈ List.finRange 3 := List.mem_finRange i
  unfold encode
  rw [foldlM_none all h]
  rfl

/-- Only an encodable format encodes anything. -/
lemma encode_eq_some {out out' : List UInt8} (run : self.encode checks rgb out = some out') :
    self.Encodable checks ∧ out' = out ++ self.pixelBytes rgb := by
  have shifts : ∀ i, self.Shifts checks i := by
    intro i
    by_contra large
    rw [encode_none large] at run
    cases run
  have fits : self.bytesPerPixel ≤ 4 := by
    by_contra wide
    have long : (toLE 4 (self.orComponents rgb 0 (List.finRange 3)).toNat).length <
      self.bytesPerPixel := by
      rw [toLE_length]
      exact Nat.lt_of_not_le wide
    unfold encode at run
    rw [foldlM_some shifts] at run
    simp only [Option.bind_eq_bind, Option.bind_some, if_pos long] at run
    cases run
  have h : self.Encodable checks := ⟨shifts, fits⟩
  rw [encode_some h] at run
  cases run
  exact ⟨h, rfl⟩

/-- An accepted format can be encoded without an overflow if its shifts are
less than the width of a word. -/
theorem encode_iff (b : Fin 16 → UInt8) (h : (fromBytes b).supported = true) (rgb : UInt32)
    (out : List UInt8) :
    (∃ bytes, (fromBytes b).encode true rgb out = some (out ++ bytes) ∧
        bytes.length = (fromBytes b).bitsPerPixel.toNat / 8) ↔
      ∀ i, ((fromBytes b).shift i).toNat < 32 := by
  constructor
  · rintro ⟨bytes, run, -⟩ i
    by_contra large
    rw [encode_none (i := i) fun shifts => shifts.elim (fun h => by cases h) large] at run
    cases run
  · intro small
    have bits := supported_bits h
    refine ⟨_, encode_some ⟨fun i => .inr (small i), bits.2.2⟩ out, ?_⟩
    exact pixelBytes_length bits.2.2 rgb

/-- 16 bits with 5, 6 and 5 for the components, big-endian. -/
def rgb565 : Fin 16 → UInt8 := ![16, 16, 1, 1, 0, 31, 0, 63, 0, 31, 11, 5, 0, 0, 0, 0]

/-- A pixel in a format of 16 bits. -/
theorem encode_rgb565 : ∃ bytes, (fromBytes rgb565).encode true 0xff8000 [] = some ([] ++ bytes) ∧
    bytes.length = (fromBytes rgb565).bitsPerPixel.toNat / 8 := by
  refine (encode_iff rgb565 rfl 0xff8000 []).mpr fun i => ?_
  fin_cases i <;> decide

/-- 32 bits with red at bit 32. -/
def redOutside : Fin 16 → UInt8 := ![32, 24, 0, 1, 0, 255, 0, 255, 0, 255, 32, 8, 0, 0, 0, 0]

/-- It is accepted, and no pixel can be encoded. -/
theorem redOutside_overflows : (fromBytes redOutside).supported = true ∧
    ¬ ∃ bytes, (fromBytes redOutside).encode true 0 [] = some ([] ++ bytes) ∧
      bytes.length = (fromBytes redOutside).bitsPerPixel.toNat / 8 := by
  refine ⟨rfl, ?_⟩
  rintro ⟨bytes, run, -⟩
  rw [encode_none (i := 0)] at run
  · cases run
  · rintro (h | h)
    · cases h
    · exact absurd h (by decide)

/-! ## Decoding -/

/-- The word that these bytes are. -/
def clientWord (self : PixelFormat) (bytes : List UInt8) : Nat :=
  ofLE (if self.bigEndian then bytes.reverse else bytes)

/-- A client takes the components out of so many words. -/
def clientPixels (self : PixelFormat) : (count : Nat) → List UInt8 → List (Fin 3 → Nat)
  | 0, _ => []
  | count + 1, bytes =>
    let word := self.clientWord (bytes.take self.bytesPerPixel)
    (fun i => word >>> (self.shift i).toNat &&& (self.max i).toNat) ::
      self.clientPixels count (bytes.drop self.bytesPerPixel)

/-- The bits of the components: the maxima fill their fields, which do not overlap. -/
structure Fields (format : PixelFormat) (width : Fin 3 → Nat) : Prop where
  supported : format.supported = true
  max : ∀ i, (format.max i).toNat = 2 ^ width i - 1
  inside : ∀ i, (format.shift i).toNat + width i ≤ format.bitsPerPixel.toNat
  apart : ∀ i j, i ≠ j →
    (fieldSpan (fun i => (format.shift i).toNat) width i).Apart
    (fieldSpan (fun i => (format.shift i).toNat) width j)

/-- A client decodes what is encoded: each component of each pixel scaled
to its maximum, rounded down. -/
def Decodes (checks : Bool) (self : PixelFormat) (pixels : List UInt32) : Prop :=
  ∀ out, ∃ bytes, self.encodeAll checks pixels out = some (out ++ bytes) ∧
    bytes.length = pixels.length * self.bytesPerPixel ∧
    self.clientPixels pixels.length bytes =
      pixels.map fun rgb i => (component rgb i).toNat * (self.max i).toNat / 255

variable {width : Fin 3 → Nat}

/-- A scaled component fits its field. -/
lemma Fields.scaled_lt (h : self.Fields width) (rgb : UInt32) (i : Fin 3) :
    self.scaled rgb i < 2 ^ width i := by
  have max := h.max i
  have le := self.scaled_le rgb i
  have pos := Nat.two_pow_pos (width i)
  omega

/-- The lower bytes of a number. -/
lemma toLE_take {n k v : Nat} (h : n ≤ k) : (toLE k v).take n = toLE n v := by
  induction n generalizing k v with
  | zero => rfl
  | succ n ih =>
    cases k with
    | zero => cases h
    | succ k => exact congrArg (_ :: ·) (ih (Nat.le_of_succ_le_succ h))

/-- A field that is inside the word is shifted without loss, also an empty one past its end. -/
lemma Fields.shifted (h : self.Fields width) (rgb : UInt32) (i : Fin 3) :
    ((component rgb i * (self.max i).toUInt32 / 255) <<< (self.shift i).toUInt32).toNat =
      self.scaled rgb i <<< (self.shift i).toNat := by
  have lt := h.scaled_lt rgb i
  have inside := h.inside i
  have bits := supported_bits h.supported
  rw [UInt32.toNat_shiftLeft, scaled_eq, UInt8.toNat_toUInt32]
  by_cases small : (self.shift i).toNat < 32
  · rw [Nat.mod_eq_of_lt small, Nat.mod_eq_of_lt]
    rw [Nat.shiftLeft_eq]
    calc
      _ < 2 ^ width i * 2 ^ (self.shift i).toNat :=
        Nat.mul_lt_mul_of_pos_right lt (Nat.two_pow_pos _)
      _ = 2 ^ (width i + (self.shift i).toNat) := (Nat.pow_add _ _ _).symm
      _ ≤ 2 ^ 32 := Nat.pow_le_pow_right Nat.two_pos (by omega)
  · have empty : width i = 0 := by omega
    have zero : self.scaled rgb i = 0 := by
      rw [empty] at lt
      omega
    rw [zero, Nat.zero_shiftLeft, Nat.zero_shiftLeft]

/-- ORing the components packs them into their fields. -/
lemma Fields.toNat_orComponents (h : self.Fields width) (components : List (Fin 3))
    (value : UInt32) :
    (self.orComponents rgb value components).toNat =
      packInto (fun i => (self.shift i).toNat) (self.scaled rgb) value.toNat components := by
  induction components generalizing value with
  | nil => rfl
  | cons i components ih =>
    show (self.orComponents rgb _ components).toNat = packInto _ _ (_ ||| _) components
    rw [ih, UInt32.toNat_or, h.shifted]

/-- The client gets the word of a pixel. -/
lemma Fields.clientWord_pixelBytes (h : self.Fields width) (rgb : UInt32) :
    self.clientWord (self.pixelBytes rgb) =
      packInto (fun i => (self.shift i).toNat) (self.scaled rgb) 0 (List.finRange 3) := by
  have bits := supported_bits h.supported
  have word : ofLE
    ((toLE 4 (self.orComponents rgb 0 (List.finRange 3)).toNat).take self.bytesPerPixel) =
      packInto (fun i => (self.shift i).toNat) (self.scaled rgb) 0 (List.finRange 3) := by
    rw [toLE_take bits.2.2, ofLE_toLE, h.toNat_orComponents]
    apply Nat.mod_eq_of_lt
    calc
      _ < 2 ^ self.bitsPerPixel.toNat :=
        packInto_lt (fun i _ => h.scaled_lt rgb i) fun i _ => h.inside i
      _ = 256 ^ self.bytesPerPixel := by rw [bits.1, Nat.pow_mul]
  unfold clientWord pixelBytes
  cases self.bigEndian with
  | false => exact word
  | true =>
    dsimp only
    rw [if_pos rfl, if_pos rfl, List.reverse_reverse]
    exact word

/-- The client reads each component back. -/
lemma Fields.client_component (h : self.Fields width) (rgb : UInt32) (i : Fin 3) :
    self.clientWord (self.pixelBytes rgb) >>> (self.shift i).toNat &&& (self.max i).toNat =
      self.scaled rgb i := by
  have all : i ∈ List.finRange 3 := List.mem_finRange i
  rw [h.clientWord_pixelBytes, h.max i]
  exact field_packInto all (fun i _ => h.scaled_lt rgb i) fun l _ hl => h.apart l i hl

/-- The client reads all pixels back. -/
lemma Fields.clientPixels (h : self.Fields width) (pixels : List UInt32) :
    self.clientPixels pixels.length (pixels.flatMap self.pixelBytes) = pixels.map self.scaled := by
  induction pixels with
  | nil => rfl
  | cons rgb pixels ih =>
    have len := pixelBytes_length (supported_bits h.supported).2.2 rgb
    rw [List.flatMap_cons, List.length_cons, PixelFormat.clientPixels, List.take_left' len,
      List.drop_left' len, ih]
    exact congrArg (· :: _) (funext (h.client_component rgb))

/-- Pixels are encoded one behind the other. -/
lemma encodeAll_some (h : self.Encodable checks) (pixels : List UInt32) (out : List UInt8) :
    self.encodeAll checks pixels out = some (out ++ pixels.flatMap self.pixelBytes) := by
  unfold encodeAll
  induction pixels generalizing out with
  | nil => exact congrArg some (List.append_nil out).symm
  | cons rgb pixels ih =>
    rw [List.foldlM_cons, encode_some h, List.flatMap_cons, ← List.append_assoc]
    exact ih _

/-- Pixels take as many bytes as their number says. -/
lemma flatMap_pixelBytes_length (h : self.bytesPerPixel ≤ 4) (pixels : List UInt32) :
    (pixels.flatMap self.pixelBytes).length = pixels.length * self.bytesPerPixel := by
  induction pixels with
  | nil => exact (Nat.zero_mul _).symm
  | cons rgb pixels ih =>
    rw [List.flatMap_cons, List.length_append, pixelBytes_length h, ih, List.length_cons,
      Nat.succ_mul, Nat.add_comm]

/-- What is encoded can be decoded, if no shift overflows; the ends of the
range of a component are kept. -/
theorem decodes_iff (h : self.Fields width) :
    ((∀ pixels, self.Decodes checks pixels) ↔ (checks = true → ∀ i, (self.shift i).toNat < 32)) ∧
      ∀ i, 0 * (self.max i).toNat / 255 = 0 ∧
        255 * (self.max i).toNat / 255 = (self.max i).toNat := by
  refine ⟨⟨?_, ?_⟩, ?_⟩
  · intro decodes checked i
    by_contra large
    obtain ⟨bytes, run, -⟩ := decodes [0] []
    have fails : self.encodeAll checks [0] [] = none := by
      unfold encodeAll
      rw [List.foldlM_cons, encode_none (i := i)]
      · rfl
      · exact fun shifts => shifts.elim (fun h => by cases checked.symm.trans h) large
    rw [fails] at run
    cases run
  · intro small pixels out
    have shifts : ∀ i, self.Shifts checks i := by
      intro i
      cases checks with
      | false => exact .inl rfl
      | true => exact .inr (small rfl i)
    have bits := supported_bits h.supported
    refine ⟨_, encodeAll_some ⟨shifts, bits.2.2⟩ pixels out, ?_, ?_⟩
    · exact flatMap_pixelBytes_length bits.2.2 pixels
    · exact h.clientPixels pixels
  · intro i
    refine ⟨?_, Nat.mul_div_cancel_left _ (by decide)⟩
    rw [Nat.zero_mul]

/-- The fields of the 16-bit format. -/
lemma rgb565_fields : (fromBytes rgb565).Fields ![5, 6, 5] where
  supported := rfl
  max := by decide
  inside := by decide
  apart := by decide

/-- Two pixels in it. -/
theorem decodes_rgb565 : (fromBytes rgb565).Decodes true [0xff8000, 0x0000ff] :=
  (decodes_iff rgb565_fields).1.mpr (fun _ => by decide) [0xff8000, 0x0000ff]

/-- 32 bits with an empty field for red after the last bit. -/
def noRed : Fin 16 → UInt8 := ![32, 16, 0, 1, 0, 0, 0, 255, 0, 255, 32, 8, 0, 0, 0, 0]

/-- With a red of no bits at position 32 the fields do not overlap, but the shift overflows. -/
theorem noRed_overflows :
    (fromBytes noRed).Fields ![0, 8, 8] ∧ ¬ (fromBytes noRed).Decodes true [0] := by
  refine ⟨⟨rfl, by decide, by decide, by decide⟩, ?_⟩
  intro decodes
  obtain ⟨bytes, run, -⟩ := decodes []
  have overflow : (fromBytes noRed).encodeAll true [0] [] = none := rfl
  rw [overflow] at run
  cases run

end PixelFormat

end Hearth
