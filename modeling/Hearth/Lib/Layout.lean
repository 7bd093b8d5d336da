import Hearth.Lib.Bytes

/-!
# Values in memory

`Layout α` says how a value of type `α` is laid out in bytes. Every layout has a fixed size and can
be read back. `Mem.load` and `Mem.store` are the typed accesses of a memory.
-/

namespace Hearth.Lib

/-- The byte layout of a type of fixed size. -/
class Layout (α : Type) where
  size : Nat
  encode : α → List UInt8
  decode : List UInt8 → α
  encode_length : ∀ a, (encode a).length = size
  decode_encode : ∀ a, decode (encode a) = a

attribute [simp] Layout.encode_length Layout.decode_encode

/-- One byte. -/
instance : Layout UInt8 where
  size := 1
  encode x := [x]
  decode bs := bs.headD 0
  encode_length _ := rfl
  decode_encode _ := rfl

/-- Two bytes, the lower first. -/
instance : Layout UInt16 where
  size := 2
  encode x := toLE 2 x.toNat
  decode bs := UInt16.ofNat (ofLE bs)
  encode_length x := toLE_length 2 x.toNat
  decode_encode x := by
    have hlt : x.toNat < 256 ^ 2 := x.toNat_lt
    rw [ofLE_toLE, Nat.mod_eq_of_lt hlt, UInt16.ofNat_toNat]

/-- Four bytes, the lowest first. -/
instance : Layout UInt32 where
  size := 4
  encode x := toLE 4 x.toNat
  decode bs := UInt32.ofNat (ofLE bs)
  encode_length x := toLE_length 4 x.toNat
  decode_encode x := by
    have hlt : x.toNat < 256 ^ 4 := x.toNat_lt
    rw [ofLE_toLE, Nat.mod_eq_of_lt hlt, UInt32.ofNat_toNat]

/-- Eight bytes, the lowest first. -/
instance : Layout UInt64 where
  size := 8
  encode x := toLE 8 x.toNat
  decode bs := UInt64.ofNat (ofLE bs)
  encode_length x := toLE_length 8 x.toNat
  decode_encode x := by
    have hlt : x.toNat < 256 ^ 8 := x.toNat_lt
    rw [ofLE_toLE, Nat.mod_eq_of_lt hlt, UInt64.ofNat_toNat]

/-- Two values, one after the other. -/
instance {α β : Type} [Layout α] [Layout β] : Layout (α × β) where
  size := Layout.size α + Layout.size β
  encode p := Layout.encode p.1 ++ Layout.encode p.2
  decode bs := (Layout.decode (bs.take (Layout.size α)), Layout.decode (bs.drop (Layout.size α)))
  encode_length p := by simp
  decode_encode p := by
    rw [List.take_left' (Layout.encode_length p.1), List.drop_left' (Layout.encode_length p.1)]
    simp

/-- The layout of a structure, given by the layout of its fields. -/
@[reducible] def Layout.via {α β : Type} [Layout β] (fields : α → β) (make : β → α)
    (h : ∀ a, make (fields a) = a) : Layout α where
  size := Layout.size β
  encode a := Layout.encode (fields a)
  decode bs := make (Layout.decode bs)
  encode_length a := Layout.encode_length (fields a)
  decode_encode a := by rw [Layout.decode_encode, h]

namespace Mem

variable {α β : Type} [Layout α] [Layout β] {m m' : Mem} {a b n : Nat}

/-- The value of type `α` at `a`. -/
def load (m : Mem) (α : Type) [Layout α] (a : Nat) : α := Layout.decode (m.read a (Layout.size α))

/-- The memory with the value `x` at `a`. -/
def store (m : Mem) (a : Nat) (x : α) : Mem := m.write a (Layout.encode x)

/-- What was stored is loaded. -/
lemma load_store (m : Mem) (a : Nat) (x : α) : (m.store a x).load α a = x := by
  unfold load store
  rw [← Layout.encode_length x, read_write_self, Layout.decode_encode]

/-- A load depends on its bytes only. -/
lemma load_congr (h : ∀ x ∈ (⟨a, Layout.size α⟩ : Span), m x = m' x) :
    m.load α a = m'.load α a := by
  unfold load
  rw [read_congr h]

/-- A store elsewhere does not change it. -/
lemma load_store_apart (x : α) (h : Span.Apart ⟨b, Layout.size β⟩ ⟨a, Layout.size α⟩) :
    (m.store a x).load β b = m.load β b := by
  unfold load store
  rw [read_write_apart]
  rwa [Layout.encode_length]

/-- A store changes its bytes only. -/
lemma store_outside {x : α} {y : Nat} (h : y ∉ (⟨a, Layout.size α⟩ : Span)) :
    m.store a x y = m y :=
  write_outside (by rwa [Layout.encode_length])

/-- What is stored does not depend on what was there. -/
lemma write_congr {bs : List UInt8} {x : Nat} (h : m' x = m x) :
    m'.write a bs x = m.write a bs x := by
  unfold write
  rw [h]

/-- What is copied depends on the bytes of the source only. -/
lemma copy_congr {dst src n x : Nat} (source : ∀ y ∈ (⟨src, n⟩ : Span), m' y = m y)
    (h : m' x = m x) :
    copy dst src n m' x = copy dst src n m x := by
  induction n generalizing dst src m m' with
  | zero => exact h
  | succ n ih =>
    have first : m' src = m src :=
      source src ⟨Nat.le_refl _, Nat.lt_add_of_pos_right (Nat.succ_pos n)⟩
    unfold copy
    rw [first]
    refine ih (fun y hy => write_congr (source y ⟨Nat.le_of_succ_le hy.1, ?_⟩)) (write_congr h)
    have := hy.2
    dsimp only at this ⊢
    omega

/-- A pair is read as its two halves. -/
lemma load_prod (m : Mem) (a : Nat) :
    m.load (α × β) a = (m.load α a, m.load β (a + Layout.size α)) := by
  have hlen : (m.read a (Layout.size α)).length = Layout.size α := by simp
  change (Layout.decode _, Layout.decode _) = _
  rw [show Layout.size (α × β) = Layout.size α + Layout.size β from rfl, read_append,
    List.take_left' hlen, List.drop_left' hlen]
  rfl

/-! ## Arrays -/

/-- The `n` values of type `α` from `a` on, one after the other. -/
def loadAll (m : Mem) (α : Type) [Layout α] (a : Nat) : (n : Nat) → List α
  | 0 => []
  | n + 1 => m.load α a :: m.loadAll α (a + Layout.size α) n

/-- A value is loaded where its bytes are. -/
lemma load_of_read {x : α} (h : m.read a (Layout.encode x).length = Layout.encode x) :
    m.load α a = x := by
  rw [Layout.encode_length] at h
  unfold load
  rw [h, Layout.decode_encode]

/-- An array is loaded where the bytes of its values are. -/
lemma loadAll_of_read {xs : List α}
    (h : m.read a (xs.flatMap Layout.encode).length = xs.flatMap Layout.encode) :
    m.loadAll α a xs.length = xs := by
  induction xs generalizing a with
  | nil => rfl
  | cons x xs ih =>
    rw [List.flatMap_cons, List.length_append, read_append] at h
    obtain ⟨hx, hxs⟩ := List.append_inj h (by rw [read_length])
    rw [Layout.encode_length] at hxs
    show m.load α a :: m.loadAll α (a + Layout.size α) xs.length = x :: xs
    rw [load_of_read hx, ih hxs]

end Mem

end Hearth.Lib
