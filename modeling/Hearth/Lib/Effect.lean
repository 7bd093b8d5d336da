import Mathlib

/-!
# Computations with state, errors and panics

A computation of type `Eff ε σ α` runs on a state `σ` and ends in one of four ways: it
returns a value, it returns an error `ε`, it panics, or a loop in it has not ended when the
fuel it was given is used up. The state is kept in all four cases, so what happened before an
error or a panic stays visible.

Three kinds of rules follow. `bind_ok_iff`, `bind_panic_iff` and `bind_fuel_iff` take a sequence of
two computations apart. `Within R x` says that, however `x` ends, the state before and the state
after are related by `R`; it is the form of every frame condition. `loop` iterates a body while it
returns `true`, with `Iter` as the iterations that were made, and has one rule for each thing to be
said of a loop: what it preserves, what holds when it ends, that it ends, and that it does not.
-/

namespace Hearth.Lib

variable {ε σ τ α β : Type}

/-- How a computation ends. -/
inductive Outcome (ε α : Type) where
  | ok (a : α)
  | err (e : ε)
  | panic
  | fuel
  deriving DecidableEq, Repr

/-- Another value in place of the one returned. -/
def Outcome.map (g : α → β) : Outcome ε α → Outcome ε β
  | .ok a => .ok (g a)
  | .err e => .err e
  | .panic => .panic
  | .fuel => .fuel

/-- Two functions on a result are one. -/
lemma Outcome.map_map {γ : Type} (g : α → β) (k : β → γ) (o : Outcome ε α) :
    (o.map g).map k = o.map fun a => k (g a) := by
  cases o with
  | ok a => rfl
  | err e => rfl
  | panic => rfl
  | fuel => rfl

/-- A computation on the state `σ` with errors `ε`. -/
def Eff (ε σ α : Type) : Type := σ → Outcome ε α × σ

namespace Eff

/-- One computation after another; only a value returned by the first goes on to the second. -/
protected def bind (x : Eff ε σ α) (f : α → Eff ε σ β) : Eff ε σ β := fun s =>
  match x s with
  | (.ok a, s') => f a s'
  | (.err e, s') => (.err e, s')
  | (.panic, s') => (.panic, s')
  | (.fuel, s') => (.fuel, s')

/-- A computation goes on with the result of another if that has one. -/
instance : Monad (Eff ε σ) where
  pure a := fun s => (.ok a, s)
  bind := Eff.bind

/-- The part of the state that `f` reads. -/
def gets (f : σ → α) : Eff ε σ α := fun s => (.ok (f s), s)

/-- Changes the state by `f`. -/
def modify (f : σ → σ) : Eff ε σ Unit := fun s => (.ok (), f s)

/-- Ends with the error `e`. -/
def throw (e : ε) : Eff ε σ α := fun s => (.err e, s)

/-- Ends with a panic. -/
def panic : Eff ε σ α := fun s => (.panic, s)

/-- Returns what an option holds, or ends with the error `e`. -/
def okOr (o : Option α) (e : ε) : Eff ε σ α :=
  match o with
  | some a => pure a
  | none => throw e

/-- Returns what an option holds, or panics. -/
def unwrap (o : Option α) : Eff ε σ α :=
  match o with
  | some a => pure a
  | none => panic

/-- Runs a computation on a part of the state. -/
def zoom (get : σ → τ) (put : τ → σ → σ) (x : Eff ε τ α) : Eff ε σ α := fun s =>
  ((x (get s)).1, put (x (get s)).2 s)

/-- Repeats the body while it returns `true`, at most `fuel` times. -/
def loop (body : Eff ε σ Bool) : (fuel : Nat) → Eff ε σ Unit
  | 0 => fun s => (.fuel, s)
  | fuel + 1 => do
    if ← body then loop body fuel else pure ()

/-! ## Sequencing -/

section Bind

variable {x : Eff ε σ α} {f : α → Eff ε σ β} {s s' s'' : σ}

/-- What `pure` does. -/
@[simp] lemma pure_run (a : α) (s : σ) : (pure a : Eff ε σ α) s = (.ok a, s) := rfl

/-- What `gets` does. -/
@[simp] lemma gets_run (f : σ → α) (s : σ) : (gets f : Eff ε σ α) s = (.ok (f s), s) := rfl

/-- What `modify` does. -/
@[simp] lemma modify_run (f : σ → σ) (s : σ) : (modify f : Eff ε σ Unit) s = (.ok (), f s) := rfl

/-- What `throw` does. -/
@[simp] lemma throw_run (e : ε) (s : σ) : (throw e : Eff ε σ α) s = (.err e, s) := rfl

/-- What `panic` does. -/
@[simp] lemma panic_run (s : σ) : (panic : Eff ε σ α) s = (.panic, s) := rfl

/-- With a value there is no error. -/
@[simp] lemma okOr_some (a : α) (e : ε) : (okOr (some a) e : Eff ε σ α) = pure a := rfl

/-- Without a value the computation ends with the error. -/
@[simp] lemma okOr_none (e : ε) : (okOr none e : Eff ε σ α) = throw e := rfl

/-- Unwrapping a value gives it. -/
@[simp] lemma unwrap_some (a : α) : (unwrap (some a) : Eff ε σ α) = pure a := rfl

/-- Unwrapping nothing panics. -/
@[simp] lemma unwrap_none : (unwrap none : Eff ε σ α) = panic := rfl

/-- A computation on a part of the state leaves the rest. -/
lemma zoom_run (get : σ → τ) (put : τ → σ → σ) (x : Eff ε τ α) (s : σ) :
    zoom get put x s = ((x (get s)).1, put (x (get s)).2 s) := rfl

/-- After a result the rest is run. -/
lemma bind_of_ok {a : α} (h : x s = (.ok a, s')) : (x >>= f) s = f a s' := by
  change Eff.bind x f s = _
  simp only [Eff.bind, h]

/-- After an error the rest is not run. -/
lemma bind_of_err {e : ε} (h : x s = (.err e, s')) : (x >>= f) s = (.err e, s') := by
  change Eff.bind x f s = _
  simp only [Eff.bind, h]

/-- After a panic the rest is not run. -/
lemma bind_of_panic (h : x s = (.panic, s')) : (x >>= f) s = (.panic, s') := by
  change Eff.bind x f s = _
  simp only [Eff.bind, h]

/-- Without fuel the rest is not run. -/
lemma bind_of_fuel (h : x s = (.fuel, s')) : (x >>= f) s = (.fuel, s') := by
  change Eff.bind x f s = _
  simp only [Eff.bind, h]

/-- A value is passed on. -/
@[simp] lemma pure_bind_run (a : α) (f : α → Eff ε σ β) (s : σ) :
    ((pure a : Eff ε σ α) >>= f) s = f a s := rfl

/-- What is read of the state is passed on. -/
@[simp] lemma gets_bind_run (g : σ → α) (f : α → Eff ε σ β) (s : σ) :
    ((gets g : Eff ε σ α) >>= f) s = f (g s) s := rfl

/-- The rest finds the changed state. -/
@[simp] lemma modify_bind_run (g : σ → σ) (f : Unit → Eff ε σ β) (s : σ) :
    ((modify g : Eff ε σ Unit) >>= f) s = f () (g s) := rfl

/-- Nothing comes after an error. -/
@[simp] lemma throw_bind_run (e : ε) (f : α → Eff ε σ β) (s : σ) :
    ((throw e : Eff ε σ α) >>= f) s = (.err e, s) := rfl

/-- Nothing comes after a panic. -/
@[simp] lemma panic_bind_run (f : α → Eff ε σ β) (s : σ) :
    ((panic : Eff ε σ α) >>= f) s = (.panic, s) := rfl

/-- A pure last step leaves the state, and returns only if what comes before does. -/
lemma bind_pure_run (x : Eff ε σ α) (g : α → β) (s : σ) :
    ((x >>= fun a => pure (g a)) s).2 = (x s).2 ∧
      ∀ b, ((x >>= fun a => pure (g a)) s).1 = .ok b → ∃ a, (x s).1 = .ok a ∧ g a = b := by
  rcases h : x s with ⟨o, s'⟩
  cases o with
  | ok a =>
    rw [bind_of_ok h]
    refine ⟨rfl, fun b hb => ?_⟩
    cases hb
    exact ⟨a, rfl, rfl⟩
  | err e => rw [bind_of_err h]; exact ⟨rfl, nofun⟩
  | panic => rw [bind_of_panic h]; exact ⟨rfl, nofun⟩
  | fuel => rw [bind_of_fuel h]; exact ⟨rfl, nofun⟩

/-- A function that is applied at the end maps the result. -/
lemma bind_pure_eq (x : Eff ε σ α) (g : α → β) (s : σ) :
    (x >>= fun a => pure (g a)) s = ((x s).1.map g, (x s).2) := by
  rcases h : x s with ⟨o, s'⟩
  cases o with
  | ok a => exact bind_of_ok h
  | err e => exact bind_of_err h
  | panic => exact bind_of_panic h
  | fuel => exact bind_of_fuel h

/-- Sequencing is associative. -/
lemma bind_assoc {γ : Type} (x : Eff ε σ α) (f : α → Eff ε σ β) (g : β → Eff ε σ γ) :
    x >>= f >>= g = x >>= fun a => f a >>= g := by
  funext s
  change Eff.bind (Eff.bind x f) g s = Eff.bind x (fun a => Eff.bind (f a) g) s
  unfold Eff.bind
  rcases x s with ⟨o, s'⟩
  cases o <;> rfl

/-- Two sequences with the same first part agree if they agree after what it returns. -/
lemma bind_congr {f g : α → Eff ε σ β} (h : ∀ a s', x s = (.ok a, s') → f a s' = g a s') :
    (x >>= f) s = (x >>= g) s := by
  rcases e : x s with ⟨o, s'⟩
  cases o with
  | ok a => rw [bind_of_ok e, bind_of_ok e, h a s' e]
  | err e1 => rw [bind_of_err e, bind_of_err e]
  | panic => rw [bind_of_panic e, bind_of_panic e]
  | fuel => rw [bind_of_fuel e, bind_of_fuel e]

/-- A sequence returns when both parts do. -/
lemma bind_ok_iff {b : β} :
    (x >>= f) s = (.ok b, s'') ↔ ∃ a s', x s = (.ok a, s') ∧ f a s' = (.ok b, s'') := by
  rcases h : x s with ⟨o, s1⟩
  cases o with
  | ok a => simp [bind_of_ok h]
  | err e => simp [bind_of_err h]
  | panic => simp [bind_of_panic h]
  | fuel => simp [bind_of_fuel h]

/-- A sequence ends with the error of its first or of its second part. -/
lemma bind_err_iff {e : ε} :
    (x >>= f) s = (.err e, s'') ↔
      x s = (.err e, s'') ∨ ∃ a s', x s = (.ok a, s') ∧ f a s' = (.err e, s'') := by
  rcases h : x s with ⟨o, s1⟩
  cases o with
  | ok a => simp [bind_of_ok h]
  | err e => simp [bind_of_err h]
  | panic => simp [bind_of_panic h]
  | fuel => simp [bind_of_fuel h]

/-- A sequence panics when one of its parts does. -/
lemma bind_panic_iff :
    ((x >>= f) s).1 = .panic ↔
      (x s).1 = .panic ∨ ∃ a s', x s = (.ok a, s') ∧ (f a s').1 = .panic := by
  rcases h : x s with ⟨o, s1⟩
  cases o with
  | ok a => simp [bind_of_ok h]
  | err e => simp [bind_of_err h]
  | panic => simp [bind_of_panic h]
  | fuel => simp [bind_of_fuel h]

/-- A sequence runs out of fuel when one of its parts does. -/
lemma bind_fuel_iff :
    ((x >>= f) s).1 = .fuel ↔
      (x s).1 = .fuel ∨ ∃ a s', x s = (.ok a, s') ∧ (f a s').1 = .fuel := by
  rcases h : x s with ⟨o, s1⟩
  cases o with
  | ok a => simp [bind_of_ok h]
  | err e => simp [bind_of_err h]
  | panic => simp [bind_of_panic h]
  | fuel => simp [bind_of_fuel h]

end Bind

/-! ## Frame conditions -/

/-- However `x` ends, the states before and after it are related by `R`. -/
def Within (R : σ → σ → Prop) (x : Eff ε σ α) : Prop := ∀ s, R s (x s).2

section Within

variable {R : σ → σ → Prop} {x : Eff ε σ α}

/-- The frame rule for sequences, when what the second part does depends on how the first ended. -/
lemma rel_bind {f : α → Eff ε σ β} {s : σ}
    (trans : ∀ {a b c}, R a b → R b c → R a c) (hx : R s (x s).2)
    (hf : ∀ a s', x s = (.ok a, s') → R s' (f a s').2) : R s ((x >>= f) s).2 := by
  rcases h : x s with ⟨o, s1⟩
  rw [h] at hx
  cases o with
  | ok a => rw [bind_of_ok h]; exact trans hx (hf a s1 h)
  | err e => rw [bind_of_err h]; exact hx
  | panic => rw [bind_of_panic h]; exact hx
  | fuel => rw [bind_of_fuel h]; exact hx

/-- What two computations may do to the state they may do together, if the relation
    is transitive. -/
lemma Within.bind {f : α → Eff ε σ β} (trans : ∀ {a b c}, R a b → R b c → R a c)
    (hx : Within R x) (hf : ∀ a, Within R (f a)) : Within R (x >>= f) :=
  fun s => rel_bind trans (hx s) fun a s' _ => hf a s'

/-- A weaker relation holds as well. -/
lemma Within.mono {R' : σ → σ → Prop} (h : ∀ s s', R s s' → R' s s') (hx : Within R x) :
    Within R' x :=
  fun s => h _ _ (hx s)

/-- Computations that read the state only stay within every reflexive relation. -/
lemma within_pure (refl : ∀ s, R s s) (a : α) : Within R (pure a : Eff ε σ α) := fun s => refl s

/-- On a part of the state, the relation is on that part. -/
lemma Within.zoom {T : τ → τ → Prop} {get : σ → τ} {put : τ → σ → σ} {y : Eff ε τ α}
    (law : ∀ t s, get (put t s) = t) (hy : Within T y) :
    Within (fun s s' => T (get s) (get s')) (Eff.zoom get put y) := by
  intro s
  rw [zoom_run, law]
  exact hy (get s)

/-- Turning an option into an error leaves the state alone. -/
lemma within_okOr (refl : ∀ s, R s s) (o : Option α) (e : ε) :
    Within R (okOr o e : Eff ε σ α) := by
  intro s
  cases o <;> exact refl s

/-- Unwrapping an option leaves the state alone. -/
lemma within_unwrap (refl : ∀ s, R s s) (o : Option α) : Within R (unwrap o : Eff ε σ α) := by
  intro s
  cases o <;> exact refl s

end Within

/-- If it goes well there was a value. -/
lemma okOr_ok {o : Option α} {e : ε} {s s' : σ} {a : α} (h : okOr o e s = (.ok a, s')) :
    o = some a ∧ s' = s := by
  cases o with
  | none => cases h
  | some b => cases h; exact ⟨rfl, rfl⟩

/-- If it does not panic there was a value. -/
lemma unwrap_ok {o : Option α} {s s' : σ} {a : α} (h : (unwrap o : Eff ε σ α) s = (.ok a, s')) :
    o = some a ∧ s' = s := by
  cases o with
  | none => cases h
  | some b => cases h; exact ⟨rfl, rfl⟩

/-- Unwrapping panics on nothing only. -/
@[simp] lemma unwrap_panic_iff {o : Option α} {s : σ} :
    ((unwrap o : Eff ε σ α) s).1 = .panic ↔ o = none := by
  cases o <;> simp

/-- An option that becomes an error never panics. -/
@[simp] lemma okOr_panic_iff {o : Option α} {e : ε} {s : σ} :
    (okOr o e s).1 = .panic ↔ False := by
  cases o <;> simp

/-! ## Ending -/

/-- `x` ends: its loops do with the fuel they were given. -/
def Ends (x : Eff ε σ α) : Prop := ∀ s, (x s).1 ≠ .fuel

/-- What ends, followed by what ends, ends. -/
lemma Ends.bind {x : Eff ε σ α} {f : α → Eff ε σ β} (hx : Ends x) (hf : ∀ a, Ends (f a)) :
    Ends (x >>= f) := by
  intro s h
  rcases bind_fuel_iff.mp h with h | ⟨a, s', -, h⟩
  · exact hx s h
  · exact hf a s' h

/-- What ends on a part of the state ends. -/
lemma Ends.zoom {get : σ → τ} {put : τ → σ → σ} {y : Eff ε τ α} (hy : Ends y) :
    Ends (Eff.zoom get put y) := fun s => hy (get s)

/-- A value needs no fuel. -/
lemma ends_pure (a : α) : Ends (pure a : Eff ε σ α) := nofun

/-- A panic needs no fuel. -/
lemma ends_panic : Ends (panic : Eff ε σ α) := nofun

/-- An option that becomes an error needs no fuel. -/
lemma ends_okOr (o : Option α) (e : ε) : Ends (okOr o e : Eff ε σ α) := by
  cases o <;> exact nofun

/-- An option that is unwrapped needs no fuel. -/
lemma ends_unwrap (o : Option α) : Ends (unwrap o : Eff ε σ α) := by
  cases o <;> exact nofun

/-- Once the fuel is enough for `x` to end, more of it changes nothing. -/
def Stable (x : Nat → Eff ε σ α) : Prop :=
  ∀ n m s, n ≤ m → (x n s).1 ≠ .fuel → x m s = x n s

/-- A result stays with more fuel. -/
lemma Stable.ok {x : Nat → Eff ε σ α} (hx : Stable x) {n m : Nat} {s s' : σ} {a : α} (hle : n ≤ m)
    (e : x n s = (.ok a, s')) : x m s = (.ok a, s') :=
  (hx n m s hle (by rw [e]; nofun)).trans e

/-- What does not use its fuel is stable. -/
lemma stable_const (x : Eff ε σ α) : Stable fun _ => x := fun _ _ _ _ _ => rfl

/-- Two stable computations are stable together. -/
lemma Stable.bind {x : Nat → Eff ε σ α} {f : Nat → α → Eff ε σ β} (hx : Stable x)
    (hf : ∀ a, Stable fun n => f n a) : Stable fun n => x n >>= f n := by
  intro n m s hle h
  have h1 : (x n s).1 ≠ .fuel := fun e => h (bind_fuel_iff.mpr (.inl e))
  rcases e : x n s with ⟨o, s'⟩
  have e' : x m s = (o, s') := (hx n m s hle h1).trans e
  cases o with
  | ok a =>
    have h2 : (f n a s').1 ≠ .fuel := fun ef => h (bind_fuel_iff.mpr (.inr ⟨a, s', e, ef⟩))
    dsimp only
    rw [bind_of_ok e, bind_of_ok e']
    exact hf a n m s' hle h2
  | err e1 => dsimp only; rw [bind_of_err e, bind_of_err e']
  | panic => dsimp only; rw [bind_of_panic e, bind_of_panic e']
  | fuel => exact absurd (by rw [e]) h1

/-- A sequence panics for some fuel if its first part does, or its second part after the first. -/
lemma Stable.bind_panic_iff {x : Nat → Eff ε σ α} {f : Nat → α → Eff ε σ β} (hx : Stable x)
    (hf : ∀ a, Stable fun n => f n a) {s : σ} :
    (∃ n, ((x n >>= f n) s).1 = .panic) ↔
      (∃ n, (x n s).1 = .panic) ∨
        ∃ n a s', x n s = (.ok a, s') ∧ ∃ m, (f m a s').1 = .panic := by
  constructor
  · rintro ⟨n, h⟩
    rcases Eff.bind_panic_iff.mp h with h | ⟨a, s', e, h⟩
    · exact .inl ⟨n, h⟩
    · exact .inr ⟨n, a, s', e, n, h⟩
  · rintro (⟨n, h⟩ | ⟨n, a, s', e, m, h⟩)
    · exact ⟨n, Eff.bind_panic_iff.mpr (.inl h)⟩
    · have e' := hx.ok (Nat.le_max_left n m) e
      have h' : f (max n m) a s' = f m a s' := hf a m _ s' (Nat.le_max_right n m) (by rw [h]; nofun)
      refine ⟨max n m, Eff.bind_panic_iff.mpr (.inr ⟨a, s', e', ?_⟩)⟩
      rw [h', h]

/-! ## Loops -/

/-- `s'` is reached from `s` by iterations of the body that all return `true`. -/
inductive Iter (body : Eff ε σ Bool) : σ → σ → Prop where
  | refl {s} : Iter body s s
  | step {s s' s''} : body s = (.ok true, s') → Iter body s' s'' → Iter body s s''

section Loop

variable {body : Eff ε σ Bool} {s s' s'' : σ} {fuel : Nat}

/-- Turns followed by turns are turns. -/
lemma Iter.trans (h : Iter body s s') (h' : Iter body s' s'') : Iter body s s'' := by
  induction h with
  | refl => exact h'
  | step e _ ih => exact .step e (ih h')

/-- What one iteration preserves, all of them do. -/
lemma Iter.rel {R : σ → σ → Prop} (refl : ∀ s, R s s)
    (trans : ∀ {a b c}, R a b → R b c → R a c) (hb : Within R body) (h : Iter body s s') :
    R s s' := by
  induction h with
  | refl => exact refl _
  | @step s s1 _ e _ ih =>
    have h1 := hb s
    rw [e] at h1
    exact trans h1 ih

/-- What a turn keeps any number of turns keep. -/
lemma Iter.invariant {I : σ → Prop} (hb : ∀ s s', I s → body s = (.ok true, s') → I s')
    (h : Iter body s s') (hs : I s) : I s' := by
  induction h with
  | refl => exact hs
  | step e _ ih => exact ih (hb _ _ hs e)

/-- A turn that goes on is followed by the rest of the loop. -/
lemma loop_step (h : body s = (.ok true, s')) : loop body (fuel + 1) s = loop body fuel s' :=
  bind_of_ok h

/-- A turn that does not ends it. -/
lemma loop_break (h : body s = (.ok false, s')) : loop body (fuel + 1) s = (.ok (), s') :=
  bind_of_ok h

/-- A loop goes on from every state that its iterations reach. -/
lemma Iter.loop (h : Iter body s s') : ∃ n, ∀ fuel, loop body (n + fuel) s = loop body fuel s' := by
  induction h with
  | refl => exact ⟨0, fun fuel => by rw [Nat.zero_add]⟩
  | step e _ ih =>
    obtain ⟨n, hn⟩ := ih
    refine ⟨n + 1, fun fuel => ?_⟩
    rw [Nat.add_right_comm, loop_step e, hn]

/-- Every run of a loop makes some iterations, and then runs out of fuel or ends as the last
    run of the body does. -/
lemma loop_cases (body : Eff ε σ Bool) (fuel : Nat) (s : σ) :
    ∃ s1, Iter body s s1 ∧
      (loop body fuel s = (.fuel, s1) ∨
        (body s1 = (.ok false, (loop body fuel s).2) ∧ (loop body fuel s).1 = .ok ()) ∨
        (∃ e, body s1 = (.err e, (loop body fuel s).2) ∧ (loop body fuel s).1 = .err e) ∨
        (body s1 = (.panic, (loop body fuel s).2) ∧ (loop body fuel s).1 = .panic) ∨
        (body s1 = (.fuel, (loop body fuel s).2) ∧ (loop body fuel s).1 = .fuel)) := by
  induction fuel generalizing s with
  | zero => exact ⟨s, .refl, .inl rfl⟩
  | succ fuel ih =>
    rcases h : body s with ⟨o, s'⟩
    cases o with
    | ok b =>
      cases b with
      | true =>
        obtain ⟨s1, it, hc⟩ := ih s'
        rw [loop_step h]
        exact ⟨s1, .step h it, hc⟩
      | false =>
        rw [loop_break h]
        exact ⟨s, .refl, .inr (.inl ⟨h, rfl⟩)⟩
    | err e =>
      have hl : loop body (fuel + 1) s = (.err e, s') := bind_of_err h
      rw [hl]
      exact ⟨s, .refl, .inr (.inr (.inl ⟨e, h, rfl⟩))⟩
    | panic =>
      have hl : loop body (fuel + 1) s = (.panic, s') := bind_of_panic h
      rw [hl]
      exact ⟨s, .refl, .inr (.inr (.inr (.inl ⟨h, rfl⟩)))⟩
    | fuel =>
      have hl : loop body (fuel + 1) s = (.fuel, s') := bind_of_fuel h
      rw [hl]
      exact ⟨s, .refl, .inr (.inr (.inr (.inr ⟨h, rfl⟩)))⟩

/-- A loop that has ended has the same result with more fuel, by induction on the fuel. -/
lemma stable_loop (body : Eff ε σ Bool) : Stable (loop body) := by
  intro n m s hle h
  induction n generalizing m s with
  | zero => exact absurd rfl h
  | succ n ih =>
    obtain ⟨k, rfl⟩ : ∃ k, m = k + 1 := ⟨m - 1, by omega⟩
    rcases e : body s with ⟨o, s'⟩
    cases o with
    | ok b =>
      cases b with
      | true =>
        rw [loop_step e] at h ⊢
        rw [loop_step e]
        exact ih k s' (by omega) h
      | false => rw [loop_break e, loop_break e]
    | err e1 => exact (bind_of_err e).trans (bind_of_err e).symm
    | panic => exact (bind_of_panic e).trans (bind_of_panic e).symm
    | fuel => exact absurd (bind_fuel_iff.mpr (.inl (by rw [e]))) h

/-- A loop that returns made some iterations, and the body then returned `false`. -/
lemma loop_ok (h : loop body fuel s = (.ok (), s')) :
    ∃ s1, Iter body s s1 ∧ body s1 = (.ok false, s') := by
  obtain ⟨s1, it, hc⟩ := loop_cases body fuel s
  rw [h] at hc
  rcases hc with hc | ⟨hb, -⟩ | ⟨e, -, hc⟩ | ⟨-, hc⟩ | ⟨-, hc⟩
  · cases hc
  · exact ⟨s1, it, hb⟩
  · cases hc
  · cases hc
  · cases hc

/-- A loop panics for some fuel if its body does in a state that the iterations reach. -/
lemma loop_panic_iff :
    (∃ fuel, (loop body fuel s).1 = .panic) ↔ ∃ s1, Iter body s s1 ∧ (body s1).1 = .panic := by
  constructor
  · rintro ⟨fuel, h⟩
    obtain ⟨s1, it, hc⟩ := loop_cases body fuel s
    rcases hc with hc | ⟨-, hc⟩ | ⟨e, -, hc⟩ | ⟨hb, -⟩ | ⟨-, hc⟩
    · rw [hc] at h; cases h
    · rw [h] at hc; cases hc
    · rw [h] at hc; cases hc
    · exact ⟨s1, it, by rw [hb]⟩
    · rw [h] at hc; cases hc
  · rintro ⟨s1, it, h⟩
    obtain ⟨n, hn⟩ := it.loop
    refine ⟨n + 1, ?_⟩
    rw [hn]
    exact bind_panic_iff.mpr (.inl h)

/-- The frame rule for loops. -/
lemma Within.loop {R : σ → σ → Prop} (refl : ∀ s, R s s)
    (trans : ∀ {a b c}, R a b → R b c → R a c) (hb : Within R body) :
    Within R (loop body fuel) := by
  induction fuel with
  | zero => exact fun s => refl s
  | succ fuel ih =>
    refine Within.bind trans hb fun b => ?_
    cases b with
    | true => exact ih
    | false => exact within_pure refl ()

/-- A loop whose iterations each make a measure smaller ends. -/
lemma loop_ends {I : σ → Prop} (μ : σ → Nat)
    (keep : ∀ s s', I s → body s = (.ok true, s') → I s' ∧ μ s' < μ s)
    (noFuel : ∀ s, I s → (body s).1 ≠ .fuel) (hs : I s) (hf : μ s < fuel) :
    (loop body fuel s).1 ≠ .fuel := by
  induction fuel generalizing s with
  | zero => omega
  | succ fuel ih =>
    rcases h : body s with ⟨o, s'⟩
    cases o with
    | ok b =>
      cases b with
      | true =>
        obtain ⟨hs', lt⟩ := keep s s' hs h
        rw [loop_step h]
        exact ih hs' (by omega)
      | false => rw [loop_break h]; simp
    | err e =>
      have hl : loop body (fuel + 1) s = (.err e, s') := bind_of_err h
      simp [hl]
    | panic =>
      have hl : loop body (fuel + 1) s = (.panic, s') := bind_of_panic h
      simp [hl]
    | fuel => exact absurd (by rw [h]) (noFuel s hs)

/-- A loop whose iterations all go on, from every state of an invariant, never ends. -/
lemma loop_forever {I : σ → Prop} (keep : ∀ s, I s → ∃ s', body s = (.ok true, s') ∧ I s')
    (hs : I s) : (loop body fuel s).1 = .fuel := by
  induction fuel generalizing s with
  | zero => rfl
  | succ fuel ih =>
    obtain ⟨s', h, hs'⟩ := keep s hs
    rw [loop_step h]
    exact ih hs'

end Loop

end Eff

end Hearth.Lib
