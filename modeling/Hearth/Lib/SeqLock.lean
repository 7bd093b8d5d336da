import Mathlib

/-!
# Sequence locks

A writer of some fields counts a version up before and after each update, so that the version is odd
while the fields change. A reader loads the version, then the fields in any order and one at a time,
and takes what it loaded if the version was even and is the same afterwards. The version has 32
bits: it is the same again after `2 ^ 31` updates.
-/

namespace Hearth.Lib

variable {ι : Type} {V : ι → Type}

/-- The version and the fields, with what the writer has done. -/
structure SeqLock (ι : Type) (V : ι → Type) where
  version : UInt32
  fields : (i : ι) → V i
  /-- the update that is being made -/
  update : Option ((i : ι) → V i)
  /-- the values of the last update before those in `made` -/
  before : (i : ι) → V i
  /-- the updates that were begun since, the last one first -/
  made : List ((i : ι) → V i)

namespace SeqLock

/-- The values of the last update. -/
def latest (l : SeqLock ι V) : (i : ι) → V i := l.made.headD l.before

/-- The values of all updates, with the one in `before`. -/
def updates (l : SeqLock ι V) : List ((i : ι) → V i) := l.before :: l.made

/-- The writer makes the version odd. -/
def begin (values : (i : ι) → V i) (l : SeqLock ι V) : SeqLock ι V where
  version := l.version + 1
  fields := l.fields
  update := some values
  before := l.before
  made := values :: l.made

/-- It makes it even again. -/
def finish (l : SeqLock ι V) : SeqLock ι V := { l with version := l.version + 1, update := none }

/-- What the writer may do: it begins an update, writes a field of it, or ends it when
all the fields are written. -/
inductive Write [DecidableEq ι] (l : SeqLock ι V) : SeqLock ι V → Prop where
  | begin (values : (i : ι) → V i) : l.update = none → Write l (l.begin values)
  | field {values} (i : ι) : l.update = some values →
      Write l { l with fields := Function.update l.fields i (values i) }
  | finish : l.update = some l.fields → Write l l.finish

/-- Between two updates the version is even and the fields are those of the
latest, in an update it is odd. -/
inductive Sound (l : SeqLock ι V) : Prop where
  | idle : l.update = none → l.version.toNat % 2 = 0 → l.fields = l.latest → Sound l
  | busy : l.update = some l.latest → l.version.toNat % 2 = 1 → Sound l

variable {l l' : SeqLock ι V}

/-- The last values are among those there have been. -/
lemma latest_mem (l : SeqLock ι V) : l.latest ∈ l.updates := by
  unfold latest updates
  cases l.made with
  | nil => exact List.mem_singleton_self _
  | cons values made => exact List.mem_cons_of_mem _ List.mem_cons_self

/-- The parity of the version is the same whether or not it wraps. -/
lemma version_succ (v : UInt32) : (v + 1).toNat % 2 = (v.toNat + 1) % 2 := by
  rw [UInt32.toNat_add, UInt32.toNat_one]
  omega

/-- At an even version no update is under way. -/
lemma Sound.fields_of_even (h : l.Sound) (even : l.version.toNat % 2 = 0) :
    l.update = none ∧ l.fields = l.latest := by
  cases h with
  | idle idle _ e => exact ⟨idle, e⟩
  | busy _ odd => exact absurd (even.symm.trans odd) Nat.zero_ne_one

/-- With no update under way the version is even. -/
lemma Sound.even_of_idle (h : l.Sound) (idle : l.update = none) :
    l.version.toNat % 2 = 0 ∧ l.fields = l.latest := by
  cases h with
  | idle _ even e => exact ⟨even, e⟩
  | busy busy _ => cases idle.symm.trans busy

/-- A step of the writer keeps this. -/
lemma Sound.write [DecidableEq ι] (h : l.Sound) (st : Write l l') : l'.Sound := by
  cases st with
  | begin values idle =>
    cases h with
    | idle _ even _ =>
      apply Sound.busy rfl
      show (l.version + 1).toNat % 2 = 1
      rw [version_succ, Nat.add_mod, even]
    | busy busy _ => cases idle.symm.trans busy
  | field i busy =>
    cases h with
    | idle idle _ _ => cases idle.symm.trans busy
    | busy e odd => exact .busy e odd
  | finish done =>
    cases h with
    | idle idle _ _ => cases idle.symm.trans done
    | busy e odd =>
      apply Sound.idle rfl
      · show (l.version + 1).toNat % 2 = 0
        rw [version_succ, Nat.add_mod, odd]
      · exact Option.some.inj (done.symm.trans e)

/-- Updates are only added. -/
lemma Write.updates_subset [DecidableEq ι] (st : Write l l') : l.updates ⊆ l'.updates := by
  cases st with
  | begin values _ => exact List.cons_subset_cons _ (List.subset_cons_self _ _)
  | field _ _ => exact List.Subset.refl _
  | finish _ => exact List.Subset.refl _

/-- Updates are only added. -/
lemma Write.made_length [DecidableEq ι] (st : Write l l') : l.made.length ≤ l'.made.length := by
  cases st with
  | begin values _ => exact Nat.le_succ _
  | field _ _ => exact Nat.le_refl _
  | finish _ => exact Nat.le_refl _

/-! ## Readers -/

/-- What a reader knows that loaded the version `v` when it was even: the writer has counted it up
some times, at most twice for each update, and if it has not then the fields that are done were
loaded from the latest update. -/
def Seen (l : SeqLock ι V) (v : UInt32) (done : ι → Prop) (loaded : (i : ι) → V i) : Prop :=
  v.toNat % 2 = 0 → ∃ count, l.version = v + UInt32.ofNat count ∧
    count + l.update.isSome.toNat ≤ 2 * l.made.length ∧
    (count = 0 → ∀ i, done i → loaded i = l.latest i)

variable {v : UInt32} {done done' : ι → Prop} {loaded : (i : ι) → V i}

/-- The version is loaded. -/
lemma Sound.seen (h : l.Sound) (loaded : (i : ι) → V i) :
    l.Seen l.version (fun _ => False) loaded := by
  intro even
  obtain ⟨idle, -⟩ := h.fields_of_even even
  refine ⟨0, (UInt32.add_zero _).symm, ?_, fun _ i hi => hi.elim⟩
  rw [idle]
  exact Nat.zero_le _

/-- What has been loaded is so after fewer loads. -/
lemma Seen.mono (h : l.Seen v done loaded) (le : ∀ i, done' i → done i) :
    l.Seen v done' loaded := by
  intro even
  obtain ⟨count, e, bound, same⟩ := h even
  exact ⟨count, e, bound, fun zero i hi => same zero i (le i hi)⟩

/-- A field is loaded. -/
lemma Seen.load [DecidableEq ι] (h : l.Seen v done loaded) (sound : l.Sound) (i : ι) :
    l.Seen v (fun j => j = i ∨ done j) (Function.update loaded i (l.fields i)) := by
  intro even
  obtain ⟨count, e, bound, same⟩ := h even
  refine ⟨count, e, bound, fun zero j hj => ?_⟩
  by_cases hji : j = i
  · subst hji
    have unchanged : l.version = v := by
      rw [e, zero]
      exact UInt32.add_zero v
    rw [Function.update_self, (sound.fields_of_even (unchanged ▸ even)).2]
  · rw [Function.update_of_ne hji]
    exact same zero j (hj.resolve_left hji)

/-- A write leaves it true: either it changes the version, or no field that counts is changed. -/
lemma Seen.write [DecidableEq ι] (h : l.Seen v done loaded) (st : Write l l') :
    l'.Seen v done loaded := by
  intro even
  obtain ⟨count, e, bound, same⟩ := h even
  have next : l.version + 1 = v + UInt32.ofNat (count + 1) := by
    rw [e, UInt32.ofNat_add, UInt32.add_assoc]
    rfl
  cases st with
  | begin values idle =>
    refine ⟨count + 1, next, ?_, fun zero => absurd zero (Nat.succ_ne_zero count)⟩
    rw [idle] at bound
    show count + 1 + 1 ≤ 2 * (l.made.length + 1)
    exact Nat.add_le_add_right bound 2
  | field i busy => exact ⟨count, e, bound, same⟩
  | finish done =>
    refine ⟨count + 1, next, ?_, fun zero => absurd zero (Nat.succ_ne_zero count)⟩
    rw [done] at bound
    exact bound

/-- The version is loaded again and is the same: everything was loaded from one update. -/
lemma Seen.accept (h : l.Seen v done loaded) (even : v.toNat % 2 = 0) (same : v = l.version)
    (few : l.made.length < 2 ^ 31) (all : ∀ i, done i) : loaded = l.latest := by
  obtain ⟨count, e, bound, hsame⟩ := h even
  have wrapped : count % 2 ^ 32 = 0 := by
    have hcount : UInt32.ofNat count = 0 := by
      rw [same] at e
      exact UInt32.add_eq_left.mp e.symm
    rw [← UInt32.toNat_ofNat', hcount]
    rfl
  have zero : count = 0 := by omega
  exact funext fun i => hsame zero i (all i)

end SeqLock

end Hearth.Lib
