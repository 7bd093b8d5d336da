import Hearth.Control.Kick
import Hearth.Lib.Effect

/-!
# The registry of vcpu threads

`VM::run` of `main.rs` runs each vcpu on a thread of its own. `VCPU::run` registers the thread
before the run loop and unregisters it after; `stop` is called then. `Registry.Step` is the
system of all the vcpu threads, of which each may call `stop` and `kick` from a device
handler, and of any number of other callers. What a run loop ends with is an `Outcome`: a
panic unwinds past the code after the loop.
-/

namespace Hearth
open Lib

variable {ι κ : Type}

/-- Where a vcpu thread is. -/
inductive VcpuPc where
  /-- before `register_vcpu_thread` -/
  | spawned
  /-- holds the lock of the list -/
  | registering
  | running
  /-- the run loop has returned -/
  | left
  /-- holds the lock of the list -/
  | unregistering
  /-- `VCPU::run` has returned -/
  | returned
  | stopping
  | ended
  /-- a panic has unwound the thread -/
  | panicked
  deriving DecidableEq

namespace VcpuPc

/-- The thread is inside `VCPU::run`. -/
def Inside : VcpuPc → Prop
  | registering | running | left | unregistering => True
  | _ => False

/-- The thread is no more. -/
def Over : VcpuPc → Prop
  | ended | panicked => True
  | _ => False

/-- The thread has left its run loop, and has yet to call `stop`. -/
def Leaving : VcpuPc → Prop
  | left | unregistering | returned => True
  | _ => False

/-- Where the thread is after its run loop. -/
def afterLoop {ε : Type} : Outcome ε Unit → VcpuPc
  | .ok () => left
  | .err _ => left
  | .panic => panicked
  | .fuel => running

end VcpuPc

/-- The threads, which are also their own ids. -/
structure Registry (ι κ : Type) where
  control : VmControl ι
  lock : Option (ι ⊕ κ)
  /-- where a vcpu thread or another caller is in `stop` or `kick` -/
  call : ι ⊕ κ → Caller ι
  pc : ι → VcpuPc
  /-- the thread has called `stop` after its run loop -/
  calledStop : ι → Bool
  /-- the thread was signalled, or was registered, after `should_stop` was set -/
  told : ι → Bool

namespace Registry

/-- A vcpu thread calls from the handlers of its run loop. -/
def MayCall (s : Registry ι κ) : ι ⊕ κ → Prop
  | .inl i => s.pc i = .running
  | .inr _ => True

variable [DecidableEq ι] [DecidableEq κ]

/-- The steps of the vcpu threads and of the callers of `stop` and `kick`. -/
inductive Step (s : Registry ι κ) : Registry ι κ → Prop where
  -- `stop` and `kick`
  | store (p : ι ⊕ κ) (ask : Ask) (at' : s.call p = .idle) (may : s.MayCall p) :
    Step s
      { s with
        control := s.control.store ask
        call := Function.update s.call p (.stored ask) }
  | lockList (p : ι ⊕ κ) {ask : Ask} (at' : s.call p = .stored ask) (free : s.lock = none) :
    Step s
      { s with
        lock := some p
        call := Function.update s.call p (.signalling ask (s.control.targets ask)) }
  | send (p : ι ⊕ κ) {ask : Ask} {t : ι} {rest : List ι}
      (at' : s.call p = .signalling ask (t :: rest)) :
    Step s
      { s with
        call := Function.update s.call p (.signalling ask rest)
        told := Function.update s.told t (s.told t || s.control.shouldStop) }
  | unlockList (p : ι ⊕ κ) {ask : Ask} (at' : s.call p = .signalling ask []) :
    Step s { s with lock := none, call := Function.update s.call p .idle }
  -- a vcpu thread
  | lockRegister (i : ι) (at' : s.pc i = .spawned) (free : s.lock = none) :
    Step s { s with lock := some (.inl i), pc := Function.update s.pc i .registering }
  | register (i : ι) (at' : s.pc i = .registering) :
    Step s
      { s with
        control := s.control.registerVcpuThread i
        lock := none
        pc := Function.update s.pc i .running
        told := Function.update s.told i s.control.shouldStop }
  | loopEnds (i : ι) (res : Outcome Unit Unit) (at' : s.pc i = .running)
      (idle : s.call (.inl i) = .idle) :
    Step s { s with pc := Function.update s.pc i (.afterLoop res) }
  | lockUnregister (i : ι) (at' : s.pc i = .left) (free : s.lock = none) :
    Step s { s with lock := some (.inl i), pc := Function.update s.pc i .unregistering }
  | unregister (i : ι) (at' : s.pc i = .unregistering) :
    Step s
      { s with
        control := s.control.unregisterVcpuThread i
        lock := none
        pc := Function.update s.pc i .returned }
  | callStop (i : ι) (at' : s.pc i = .returned) :
    Step s
      { s with
        control := s.control.store .stop
        call := Function.update s.call (.inl i) (.stored .stop)
        pc := Function.update s.pc i .stopping
        calledStop := Function.update s.calledStop i true }
  | finish (i : ι) (at' : s.pc i = .stopping) (idle : s.call (.inl i) = .idle) :
    Step s { s with pc := Function.update s.pc i .ended }

/-- At the start no thread is registered and nobody has called. -/
structure Init (s : Registry ι κ) : Prop where
  control : s.control = .new
  lock : s.lock = none
  call : ∀ p, s.call p = .idle
  pc : ∀ i, s.pc i = .spawned
  calledStop : ∀ i, s.calledStop i = false

/-- What the list of threads is for: only threads inside `VCPU::run` are in it and are signalled,
and a thread that has left its run loop calls `stop`, which reaches all others. -/
structure Exact (s : Registry ι κ) : Prop where
  registered : ∀ i ∈ s.control.vcpuThreads, (s.pc i).Inside
  signalled : ∀ p ask t rest, s.call p = .signalling ask (t :: rest) → (s.pc t).Inside
  stops : ∀ i, (s.pc i).Over → s.calledStop i = true
  reaches : ∀ i, (s.pc i).Over → s.control.shouldStop = true ∧ ∀ j ∈ s.control.vcpuThreads,
    s.told j = true
  leads : ∀ i, (s.pc i).Leaving → ∃ s', Relation.ReflTransGen Step s s' ∧ s'.calledStop i = true

/-! ## The invariant -/

/-- The thread was pushed to the list and not removed. -/
def Listed : VcpuPc → Prop
  | .running | .left | .unregistering | .panicked => True
  | _ => False

/-- The thread has returned from its `stop`. -/
def Stopped (s : Registry ι κ) (i : ι) : Prop :=
  s.pc i = .ended ∨ s.pc i = .stopping ∧ s.call (.inl i) = .idle

/-- The party is where it holds the lock. -/
def Busy (s : Registry ι κ) : ι ⊕ κ → Prop
  | .inl i => (∃ ask rest, s.call (.inl i) = .signalling ask rest) ∨
    s.pc i = .registering ∨ s.pc i = .unregistering
  | .inr k => ∃ ask rest, s.call (.inr k) = .signalling ask rest

/-- Exactly who is busy with the list holds the lock, and a vcpu thread calls only from its loop or
    as it leaves. -/
structure Locking (s : Registry ι κ) : Prop where
  busy : ∀ p, s.Busy p ↔ s.lock = some p
  calls : ∀ i, s.call (.inl i) ≠ .idle → s.pc i = .running ∨ s.pc i = .stopping

/-- What holds between steps: who is in the list, whom the callers have yet to signal, and whom a
    `stop` has told. -/
structure Inv (s : Registry ι κ) : Prop where
  listed : ∀ i ∈ s.control.vcpuThreads, Listed (s.pc i)
  rests : ∀ p ask rest, s.call p = .signalling ask rest → ∀ t ∈ rest, t ∈ s.control.vcpuThreads
  stored : ∀ p, s.call p = .stored .stop → s.control.shouldStop = true
  /-- a `stop` has told all it has not yet to signal -/
  telling : ∀ p rest, s.call p = .signalling .stop rest →
    s.control.shouldStop = true ∧ ∀ j ∈ s.control.vcpuThreads, j ∈ rest ∨ s.told j = true
  onlyStop : ∀ i, s.pc i = .stopping → s.call (.inl i) ≠ .stored .kick ∧
    ∀ rest, s.call (.inl i) ≠ .signalling .kick rest
  called : ∀ i, s.calledStop i = true ↔ s.pc i = .stopping ∨ s.pc i = .ended
  stopped : ∀ i, s.Stopped i →
    s.control.shouldStop = true ∧ ∀ j ∈ s.control.vcpuThreads, s.told j = true

variable {s s' : Registry ι κ}

omit [DecidableEq ι] [DecidableEq κ] in
/-- At the start nobody holds it. -/
lemma Locking.init (h : Init s) : Locking s := by
  obtain ⟨-, hlock, hcall, hpc, -⟩ := h
  constructor
  · intro p
    cases p with
    | inl i => simp [Busy, hlock, hcall, hpc]
    | inr k => simp [Busy, hlock, hcall]
  · simp [hcall]

omit [DecidableEq ι] [DecidableEq κ] in
/-- The invariant holds at the start. -/
lemma Inv.init (h : Init s) : Inv s := by
  obtain ⟨hcontrol, -, hcall, hpc, hcalled⟩ := h
  constructor
  · simp [hcontrol, VmControl.new]
  · simp [hcall]
  · simp [hcall]
  · simp [hcall]
  · simp [hpc]
  · simp [hcalled, hpc]
  · simp [Stopped, hpc]

/-- Looking up after one entry was changed. -/
lemma update_eq {α β : Type} [DecidableEq α] {f : α → β} {a x : α} {b y : β} :
    Function.update f a b x = y ↔ x = a ∧ b = y ∨ x ≠ a ∧ f x = y := by
  by_cases h : x = a
  · subst h
    simp
  · simp [h]

/-- A step of one party, which keeps, takes or gives back the lock. -/
lemma Locking.busy_step {p : ι ⊕ κ} (h : Locking s) (others : ∀ q, q ≠ p → (s'.Busy q ↔ s.Busy q))
    (keeps : s'.lock = s.lock ∧ (s'.Busy p ↔ s.Busy p) ∨
      s.lock = none ∧ s'.lock = some p ∧ s'.Busy p ∨
      s.Busy p ∧ s'.lock = none ∧ ¬ s'.Busy p) : ∀ q, s'.Busy q ↔ s'.lock = some q := by
  intro q
  by_cases hq : q = p
  · subst hq
    rcases keeps with ⟨same, now⟩ | ⟨-, mine, now⟩ | ⟨-, free, now⟩
    · rw [now, same]
      exact h.busy q
    · simp [mine, now]
    · simp [free, now]
  · rw [others q hq, h.busy q]
    rcases keeps with ⟨same, -⟩ | ⟨free, mine, -⟩ | ⟨was, free, -⟩
    · rw [same]
    · simp [free, mine, Ne.symm hq]
    · simp [(h.busy p).mp was, free, Ne.symm hq]

/-- The caller has locked the list. -/
def InList (c : Caller ι) : Prop := ∃ ask rest, c = .signalling ask rest

/-- The thread has locked the list. -/
def AtList (pc : VcpuPc) : Prop := pc = .registering ∨ pc = .unregistering

omit [DecidableEq ι] [DecidableEq κ] in
/-- A caller holds the lock while it is in the list. -/
lemma busy_iff_call {p : ι ⊕ κ} (runs : ∀ i, p = .inl i → s.pc i = .running ∨ s.pc i = .stopping) :
    s.Busy p ↔ InList (s.call p) := by
  cases p with
  | inl i =>
    refine or_iff_left fun hpc => ?_
    rcases runs i rfl with h | h <;> rcases hpc with hpc | hpc <;> cases h.symm.trans hpc
  | inr k => exact Iff.rfl

omit [DecidableEq ι] [DecidableEq κ] in
/-- A vcpu thread that is in no call holds the lock while it is in the list. -/
lemma busy_iff_pc {i : ι} (idle : s.call (.inl i) = .idle) : s.Busy (.inl i) ↔ AtList (s.pc i) := by
  refine or_iff_right ?_
  rintro ⟨ask, rest, h⟩
  cases idle.symm.trans h

/-- A step of `stop` or `kick`. -/
lemma Locking.inCall {p : ι ⊕ κ} {c : Caller ι} {control : VmControl ι} {lock : Option (ι ⊕ κ)}
    {told : ι → Bool} (h : Locking s)
    (runs : ∀ i, p = .inl i → s.pc i = .running ∨ s.pc i = .stopping)
    (keeps : lock = s.lock ∧ (InList c ↔ InList (s.call p)) ∨
      s.lock = none ∧ lock = some p ∧ InList c ∨
      InList (s.call p) ∧ lock = none ∧ ¬ InList c) :
    Locking { s with control := control, lock := lock, call := Function.update s.call p c,
                     told := told } := by
  constructor
  · refine h.busy_step (p := p) (fun q hq => ?_) ?_
    · cases q with
      | inl j => simp [Busy, hq]
      | inr k => simp [Busy, hq]
    · rw [busy_iff_call runs, busy_iff_call (by exact runs)]
      simpa only [Function.update_self] using keeps
  · intro i hi
    by_cases hp : Sum.inl i = p
    · exact runs i hp.symm
    · apply h.calls i
      simpa [hp] using hi

/-- A step of a vcpu thread. -/
lemma Locking.move {i : ι} {pc' : VcpuPc} {control : VmControl ι} {lock : Option (ι ⊕ κ)}
    {told calledStop : ι → Bool} (h : Locking s) (idle : s.call (.inl i) = .idle)
    (keeps : lock = s.lock ∧ (AtList pc' ↔ AtList (s.pc i)) ∨
      s.lock = none ∧ lock = some (.inl i) ∧ AtList pc' ∨
      AtList (s.pc i) ∧ lock = none ∧ ¬ AtList pc') :
    Locking
      { s with
        control := control, lock := lock, pc := Function.update s.pc i pc', calledStop := calledStop
        told := told } := by
  constructor
  · refine h.busy_step (p := .inl i) (fun q hq => ?_) ?_
    · cases q with
      | inl j => simp [Busy, show j ≠ i from fun e => hq (congrArg _ e)]
      | inr k => rfl
    · rw [busy_iff_pc idle, busy_iff_pc (by exact idle)]
      simpa only [Function.update_self] using keeps
  · intro j hj
    by_cases hji : j = i
    · subst hji
      exact absurd idle hj
    · simpa [hji] using h.calls j hj

/-- Every step keeps to the lock. -/
lemma Locking.step (h : Locking s) (st : Step s s') : Locking s' := by
  have quiet : ∀ {i pc}, s.pc i = pc → pc ≠ .running → pc ≠ .stopping →
    s.call (.inl i) = .idle := by
    intro i pc at' h₁ h₂
    by_contra hc
    rw [← at'] at h₁ h₂
    exact (h.calls i hc).elim h₁ h₂
  have runs : ∀ {p c}, s.call p = c → c ≠ .idle →
      ∀ i, p = .inl i → s.pc i = .running ∨ s.pc i = .stopping := by
    rintro p c at' hne i rfl
    exact h.calls i (at' ▸ hne)
  cases st with
  | store p ask at' may =>
    apply h.inCall
    · rintro i rfl
      exact .inl may
    · exact .inl ⟨rfl, by simp [InList, at']⟩
  | lockList p at' free =>
    apply h.inCall (runs at' (by simp))
    exact .inr (.inl ⟨free, rfl, _, _, rfl⟩)
  | send p at' =>
    apply h.inCall (runs at' (by simp))
    exact .inl ⟨rfl, by simp [InList, at']⟩
  | unlockList p at' =>
    apply h.inCall (runs at' (by simp))
    exact .inr (.inr ⟨⟨_, _, at'⟩, rfl, by simp [InList]⟩)
  | lockRegister i at' free =>
    apply h.move (quiet at' (by simp) (by simp))
    exact .inr (.inl ⟨free, rfl, .inl rfl⟩)
  | register i at' =>
    apply h.move (quiet at' (by simp) (by simp))
    exact .inr (.inr ⟨.inl at', rfl, by simp [AtList]⟩)
  | loopEnds i res at' idle =>
    apply h.move idle
    refine .inl ⟨rfl, ?_⟩
    rw [at']
    cases res <;> simp [AtList, VcpuPc.afterLoop]
  | lockUnregister i at' free =>
    apply h.move (quiet at' (by simp) (by simp))
    exact .inr (.inl ⟨free, rfl, .inr rfl⟩)
  | unregister i at' =>
    apply h.move (quiet at' (by simp) (by simp))
    exact .inr (.inr ⟨.inr at', rfl, by simp [AtList]⟩)
  | callStop i at' =>
    -- the thread moves on, and then calls
    have moved : Locking
        { s with
          pc := Function.update s.pc i .stopping
          calledStop := Function.update s.calledStop i true } := by
      apply h.move (quiet at' (by simp) (by simp))
      exact .inl ⟨rfl, by simp [AtList, at']⟩
    refine moved.inCall (fun j e => ?_) (.inl ⟨rfl, ?_⟩)
    · cases e
      exact .inr (Function.update_self ..)
    · simp [InList, quiet at' (by simp) (by simp)]
  | finish i at' idle =>
    apply h.move idle
    exact .inl ⟨rfl, by simp [AtList, at']⟩

/-- A step of `stop` or `kick`: what it must know of where it goes. -/
lemma Inv.inCall {p : ι ⊕ κ} {c : Caller ι} {control : VmControl ι} {lock : Option (ι ⊕ κ)}
    {told : ι → Bool} (inv : Inv s) (threads : control.vcpuThreads = s.control.vcpuThreads)
    (stop : s.control.shouldStop = true → control.shouldStop = true)
    (tells : ∀ j, s.told j = true → told j = true)
    (rests : ∀ ask rest, c = .signalling ask rest → ∀ t ∈ rest, t ∈ s.control.vcpuThreads)
    (stored : c = .stored .stop → control.shouldStop = true)
    (telling : ∀ rest, c = .signalling .stop rest →
      control.shouldStop = true ∧ ∀ j ∈ s.control.vcpuThreads, j ∈ rest ∨ told j = true)
    (onlyStop : ∀ i, p = .inl i → s.pc i = .stopping → c ≠ .stored .kick ∧ ∀ rest,
      c ≠ .signalling .kick rest)
    (stopped : ∀ i, p = .inl i → s.pc i = .stopping → c = .idle →
      control.shouldStop = true ∧ ∀ j ∈ s.control.vcpuThreads, told j = true) :
    Inv { s with control := control, lock := lock, call := Function.update s.call p c,
                 told := told } := by
  constructor
  · dsimp only
    rw [threads]
    exact inv.listed
  · intro q ask rest h
    dsimp only at h ⊢
    rw [threads]
    rcases update_eq.mp h with ⟨-, e⟩ | ⟨-, h⟩
    · exact rests ask rest e
    · exact inv.rests q ask rest h
  · intro q h
    rcases update_eq.mp h with ⟨-, e⟩ | ⟨-, h⟩
    · exact stored e
    · exact stop (inv.stored q h)
  · intro q rest h
    dsimp only at h ⊢
    rw [threads]
    rcases update_eq.mp h with ⟨-, e⟩ | ⟨-, h⟩
    · exact telling rest e
    · obtain ⟨set, h⟩ := inv.telling q rest h
      exact ⟨stop set, fun j hj => (h j hj).imp_right (tells j)⟩
  · intro i hi
    by_cases hp : Sum.inl i = p
    · dsimp only
      rw [← hp, Function.update_self]
      exact onlyStop i hp.symm hi
    · dsimp only
      rw [Function.update_of_ne hp]
      exact inv.onlyStop i hi
  -- that a thread calls `stop` only once is not about the call
  · exact inv.called
  · have keep : ∀ i, s.Stopped i → control.shouldStop = true ∧ ∀ j ∈ s.control.vcpuThreads,
      told j = true := by
      intro i h
      obtain ⟨set, h⟩ := inv.stopped i h
      exact ⟨stop set, fun j hj => tells j (h j hj)⟩
    intro i h
    dsimp only
    rw [threads]
    -- the caller has stopped if its call is over, any other as before
    rcases h with h | ⟨hs, h⟩
    · exact keep i (.inl h)
    · rcases update_eq.mp h with ⟨e, hc⟩ | ⟨-, h⟩
      · exact stopped i e.symm hs hc
      · exact keep i (.inr ⟨hs, h⟩)

omit [DecidableEq κ] in
/-- A step of a vcpu thread that leaves the list as it is. -/
lemma Inv.move {i : ι} {pc' : VcpuPc} {lock : Option (ι ⊕ κ)} (inv : Inv s)
    (listed : Listed (s.pc i) → Listed pc')
    (called : pc' = .stopping ∨ pc' = .ended ↔ s.calledStop i = true)
    (notStopping : pc' ≠ .stopping) (stopped : pc' = .ended → s.Stopped i) :
    Inv { s with lock := lock, pc := Function.update s.pc i pc' } := by
  constructor
  · intro j hj
    by_cases hji : j = i
    · subst hji
      dsimp only
      rw [Function.update_self]
      exact listed (inv.listed j hj)
    · dsimp only
      rw [Function.update_of_ne hji]
      exact inv.listed j hj
  · exact inv.rests
  · exact inv.stored
  · exact inv.telling
  · intro j hj
    rcases update_eq.mp hj with ⟨-, e⟩ | ⟨-, hj⟩
    · exact absurd e notStopping
    · exact inv.onlyStop j hj
  · intro j
    by_cases hji : j = i
    · subst hji
      dsimp only
      rw [Function.update_self]
      exact called.symm
    · dsimp only
      rw [Function.update_of_ne hji]
      exact inv.called j
  · intro j h
    apply inv.stopped
    rcases h with h | ⟨h, idle⟩
    · rcases update_eq.mp h with ⟨rfl, e⟩ | ⟨-, h⟩
      · exact stopped e
      · exact .inl h
    · rcases update_eq.mp h with ⟨-, e⟩ | ⟨-, h⟩
      · exact absurd e notStopping
      · exact .inr ⟨h, idle⟩

omit [DecidableEq ι] [DecidableEq κ] in
/-- While a vcpu thread has locked the list, nobody signals. -/
lemma Locking.not_signalling {i : ι} (locking : Locking s) (at' : AtList (s.pc i))
    {p : ι ⊕ κ} {ask : Ask} {rest : List ι} : s.call p ≠ .signalling ask rest := by
  intro h
  have mine : s.lock = some (.inl i) := (locking.busy _).mp (.inr at')
  have others : s.Busy p := by
    cases p with
    | inl j => exact .inl ⟨ask, rest, h⟩
    | inr k => exact ⟨ask, rest, h⟩
  have same := mine.symm.trans ((locking.busy p).mp others)
  cases same
  rcases locking.calls i (by simp [h]) with hr | hr
  · rcases at' with at' | at' <;> cases hr.symm.trans at'
  · rcases at' with at' | at' <;> cases hr.symm.trans at'

omit [DecidableEq κ] in
/-- A vcpu thread is added to the list or removed from it. -/
lemma Inv.relist {i : ι} {pc' : VcpuPc} {lock : Option (ι ⊕ κ)} {threads : List ι} {told : ι → Bool}
    (locking : Locking s) (inv : Inv s) (at' : AtList (s.pc i))
    (sub : ∀ j ∈ threads, j ∈ s.control.vcpuThreads ∧ j ≠ i ∨
      j = i ∧ Listed pc' ∧ (s.control.shouldStop = true → told i = true))
    (tells : ∀ j, j ≠ i → told j = s.told j) (away : pc' = .running ∨ pc' = .returned) :
    Inv
      { s with
        control := { s.control with vcpuThreads := threads }, lock := lock
        pc := Function.update s.pc i pc', told := told } := by
  -- a thread at the list has not called `stop` yet
  have uncalled : s.calledStop i = false := by
    rw [← Bool.not_eq_true, inv.called]
    rintro (h | h) <;> rcases at' with at' | at' <;> cases at'.symm.trans h
  constructor
  · intro j hj
    rcases sub j hj with ⟨hj, hne⟩ | ⟨rfl, hl, -⟩
    · dsimp only
      rw [Function.update_of_ne hne]
      exact inv.listed j hj
    · dsimp only
      rw [Function.update_self]
      exact hl
  · intro p ask rest h
    -- the list is changed under the lock that a signalling call holds
    exact absurd h (locking.not_signalling at')
  · exact inv.stored
  · intro p rest h
    exact absurd h (locking.not_signalling at')
  · intro j hj
    rcases update_eq.mp hj with ⟨-, e⟩ | ⟨-, hj⟩
    · rcases away with rfl | rfl <;> cases e
    · exact inv.onlyStop j hj
  · intro j
    by_cases hji : j = i
    · subst hji
      dsimp only
      rw [Function.update_self, uncalled]
      rcases away with rfl | rfl <;> simp
    · dsimp only
      rw [Function.update_of_ne hji]
      exact inv.called j
  · intro j h
    have hne : j ≠ i ∧ s.Stopped j := by
      rcases h with h | ⟨h, idle⟩
      · rcases update_eq.mp h with ⟨-, e⟩ | ⟨hne, h⟩
        · rcases away with rfl | rfl <;> cases e
        · exact ⟨hne, .inl h⟩
      · rcases update_eq.mp h with ⟨-, e⟩ | ⟨hne, h⟩
        · rcases away with rfl | rfl <;> cases e
        · exact ⟨hne, .inr ⟨h, idle⟩⟩
    obtain ⟨set, ht⟩ := inv.stopped j hne.2
    refine ⟨set, fun t hmem => ?_⟩
    rcases sub t hmem with ⟨hmem, hti⟩ | ⟨rfl, -, hi⟩
    · exact (tells t hti).trans (ht t hmem)
    · exact hi set

/-- Setting a flag keeps the invariant. -/
lemma Inv.store {p : ι ⊕ κ} (inv : Inv s) (ask : Ask) (may : s.MayCall p) :
    Inv { s with control := s.control.store ask,
                 call := Function.update s.call p (.stored ask) } := by
  refine inv.inCall (VmControl.vcpuThreads_store ask _) ?_ (fun _ h => h) ?_ ?_ ?_ ?_ ?_
  · intro set
    cases ask
    · rfl
    · exact set
  · intro _ _ e
    cases e
  · intro e
    cases e
    rfl
  · intro _ e
    cases e
  · rintro i rfl hs
    cases (show s.pc i = .running from may).symm.trans hs
  · intro _ _ _ e
    cases e

/-- Who is to be signalled is in the list. -/
lemma Inv.lockList {p : ι ⊕ κ} {ask : Ask} (inv : Inv s) (at' : s.call p = .stored ask) :
    Inv
      { s with
        lock := some p
        call := Function.update s.call p (.signalling ask (s.control.targets ask)) } := by
  refine inv.inCall rfl id (fun _ h => h) ?_ ?_ ?_ ?_ ?_
  · intro ask' rest e t ht
    cases e
    cases ask with
    | stop => exact ht
    | kick => exact List.mem_of_mem_head? (by simpa [VmControl.targets] using ht)
  · intro e
    cases e
  · intro rest e
    cases e
    exact ⟨inv.stored p at', fun j hj => .inl hj⟩
  · rintro i rfl hs
    have hne := (inv.onlyStop i hs).1
    refine ⟨by simp, fun rest e => ?_⟩
    cases e
    exact hne at'
  · intro _ _ _ e
    cases e

/-- A thread is signalled, and told if the flag is set. -/
lemma Inv.send {p : ι ⊕ κ} {ask : Ask} {t : ι} {rest : List ι} (inv : Inv s)
    (at' : s.call p = .signalling ask (t :: rest)) :
    Inv
      { s with
        call := Function.update s.call p (.signalling ask rest)
        told := Function.update s.told t (s.told t || s.control.shouldStop) } := by
  refine inv.inCall rfl id ?_ ?_ ?_ ?_ ?_ ?_
  · intro j hj
    by_cases hjt : j = t
    · subst hjt
      rw [Function.update_self, hj, Bool.true_or]
    · rw [Function.update_of_ne hjt]
      exact hj
  · intro ask' rest' e t' ht
    cases e
    exact inv.rests p ask _ at' t' (List.mem_cons_of_mem _ ht)
  · intro e
    cases e
  · intro rest' e
    cases e
    obtain ⟨set, h⟩ := inv.telling p _ at'
    refine ⟨set, fun j hj => ?_⟩
    by_cases hjt : j = t
    · subst hjt
      right
      rw [Function.update_self, set, Bool.or_true]
    · rw [Function.update_of_ne hjt]
      exact (h j hj).imp_left fun hm => (List.mem_cons.mp hm).resolve_left hjt
  · rintro i rfl hs
    have hne := (inv.onlyStop i hs).2
    refine ⟨by simp, fun rest' e => ?_⟩
    cases e
    exact hne _ at'
  · intro _ _ _ e
    cases e

/-- Nobody is left to be signalled. -/
lemma Inv.unlockList {p : ι ⊕ κ} {ask : Ask} (inv : Inv s) (at' : s.call p = .signalling ask []) :
    Inv { s with lock := none, call := Function.update s.call p .idle } := by
  refine inv.inCall rfl id (fun _ h => h) ?_ ?_ ?_ ?_ ?_
  · intro _ _ e
    cases e
  · intro e
    cases e
  · intro _ e
    cases e
  · intro _ _ _
    simp
  · rintro i rfl hs -
    cases ask with
    | stop =>
      obtain ⟨set, h⟩ := inv.telling _ _ at'
      exact ⟨set, fun j hj => (h j hj).resolve_left List.not_mem_nil⟩
    | kick => exact absurd at' ((inv.onlyStop i hs).2 _)

omit [DecidableEq κ] in
/-- A thread is added, and told by the flag if it is set. -/
lemma Inv.register {i : ι} (locking : Locking s) (inv : Inv s) (at' : s.pc i = .registering) :
    Inv
      { s with
        control := s.control.registerVcpuThread i
        lock := none
        pc := Function.update s.pc i .running
        told := Function.update s.told i s.control.shouldStop } := by
  apply inv.relist locking (.inl at')
  · intro j hj
    by_cases hji : j = i
    · exact .inr ⟨hji, trivial, fun set => (Function.update_self ..).trans set⟩
    · refine .inl ⟨(List.mem_append.mp hj).resolve_right fun h => ?_, hji⟩
      exact hji (List.mem_singleton.mp h)
  · exact fun j hji => Function.update_of_ne hji _ _
  · exact .inl rfl

omit [DecidableEq κ] in
/-- Taking a thread off the list keeps the invariant. -/
lemma Inv.unregister {i : ι} (locking : Locking s) (inv : Inv s) (at' : s.pc i = .unregistering) :
    Inv
      { s with
        control := s.control.unregisterVcpuThread i
        lock := none
        pc := Function.update s.pc i .returned } := by
  apply inv.relist locking (.inr at')
  · intro j hj
    obtain ⟨hj, hji⟩ := List.mem_filter.mp hj
    exact .inl ⟨hj, by simpa using hji⟩
  · exact fun _ _ => rfl
  · exact .inr rfl

/-- A thread that has returned from its run loop is not in the list, and calls `stop`. -/
lemma Inv.callStop {i : ι} (inv : Inv s) (at' : s.pc i = .returned) :
    Inv
      { s with
        control := s.control.store .stop
        call := Function.update s.call (.inl i) (.stored .stop)
        pc := Function.update s.pc i .stopping
        calledStop := Function.update s.calledStop i true } := by
  constructor
  -- the caller itself is not in the list any more
  · intro j hj
    have hl := inv.listed j hj
    have hji : j ≠ i := by
      rintro rfl
      rw [at'] at hl
      exact hl
    dsimp only
    rw [Function.update_of_ne hji]
    exact hl
  · intro p ask rest h
    rcases update_eq.mp h with ⟨-, e⟩ | ⟨-, h⟩
    · cases e
    · exact inv.rests p ask rest h
  · exact fun _ _ => rfl
  · intro p rest h
    rcases update_eq.mp h with ⟨-, e⟩ | ⟨-, h⟩
    · cases e
    · exact ⟨rfl, (inv.telling p rest h).2⟩
  · intro j hj
    by_cases hji : j = i
    · subst hji
      dsimp only
      rw [Function.update_self]
      simp
    · dsimp only at hj ⊢
      rw [Function.update_of_ne hji] at hj
      rw [Function.update_of_ne (by simpa using hji)]
      exact inv.onlyStop j hj
  · intro j
    by_cases hji : j = i
    · subst hji
      simp
    · dsimp only
      rw [Function.update_of_ne hji, Function.update_of_ne hji]
      exact inv.called j
  · intro j h
    -- the caller has only begun to stop, so that who has stopped had done so before
    have hj : s.Stopped j := by
      rcases h with h | ⟨h, idle⟩
      · rcases update_eq.mp h with ⟨-, e⟩ | ⟨-, h⟩
        · cases e
        · exact .inl h
      · rcases update_eq.mp idle with ⟨-, e⟩ | ⟨hne, idle⟩
        · cases e
        · rcases update_eq.mp h with ⟨rfl, -⟩ | ⟨-, h⟩
          · exact absurd rfl hne
          · exact .inr ⟨h, idle⟩
    exact ⟨rfl, (inv.stopped j hj).2⟩

omit [DecidableEq ι] [DecidableEq κ] in
/-- Only who is in `stop` or has returned from it has called it. -/
lemma Inv.uncalled {i : ι} {pc : VcpuPc} (inv : Inv s) (at' : s.pc i = pc)
    (stopping : pc ≠ .stopping) (ended : pc ≠ .ended) : s.calledStop i = false := by
  rw [← Bool.not_eq_true, inv.called, at']
  exact fun h => h.elim stopping ended

omit [DecidableEq κ] in
/-- The run loop ends, however it does. -/
lemma Inv.loopEnds {i : ι} (inv : Inv s) (res : Outcome Unit Unit) (at' : s.pc i = .running) :
    Inv { s with pc := Function.update s.pc i (.afterLoop res) } := by
  apply inv.move
  · intro _
    cases res
    · trivial
    · trivial
    · trivial
    · trivial
  · rw [inv.uncalled at' nofun nofun]
    cases res <;> simp [VcpuPc.afterLoop]
  · cases res <;> simp [VcpuPc.afterLoop]
  · cases res <;> simp [VcpuPc.afterLoop]

/-- Every step keeps the invariant. -/
lemma Inv.step (locking : Locking s) (inv : Inv s) (st : Step s s') : Inv s' := by
  cases st with
  | store p ask at' may => exact inv.store ask may
  | lockList p at' free => exact inv.lockList at'
  | send p at' => exact inv.send at'
  | unlockList p at' => exact inv.unlockList at'
  | lockRegister i at' free =>
    apply inv.move
    · intro h
      rw [at'] at h
      exact h.elim
    · simp [inv.uncalled at' nofun nofun]
    · simp
    · simp
  | register i at' => exact inv.register locking at'
  | loopEnds i res at' idle => exact inv.loopEnds res at'
  | lockUnregister i at' free =>
    apply inv.move
    · exact fun _ => trivial
    · simp [inv.uncalled at' nofun nofun]
    · simp
    · simp
  | unregister i at' => exact inv.unregister locking at'
  | callStop i at' => exact inv.callStop at'
  | finish i at' idle =>
    apply inv.move
    · intro h
      rw [at'] at h
      exact h.elim
    · simp [inv.called, at']
    · simp
    · exact fun _ => .inr ⟨at', idle⟩

/-! ## A thread that has left its loop gets to stop -/

/-- Who signals finishes, and gives the lock back. -/
lemma signalled_all {p : ι ⊕ κ} {ask : Ask} {rest : List ι}
    (at' : s.call p = .signalling ask rest) :
    ∃ s', Relation.ReflTransGen Step s s' ∧ s'.lock = none ∧ s'.pc = s.pc := by
  induction rest generalizing s with
  | nil => exact ⟨_, .single (.unlockList p at'), rfl, rfl⟩
  | cons t rest ih =>
    obtain ⟨s', run, free, pc⟩ := ih (s := { s with
      call := Function.update s.call p (.signalling ask rest)
      told := Function.update s.told t (s.told t || s.control.shouldStop) })
        (Function.update_self ..)
    exact ⟨s', .head (.send p at') run, free, pc⟩

/-- A thread that waits for the lock gets it. -/
lemma Locking.released (h : Locking s) {i : ι} (at' : s.pc i = .left) :
    ∃ s', Relation.ReflTransGen Step s s' ∧ s'.lock = none ∧ s'.pc i = .left := by
  cases hl : s.lock with
  | none => exact ⟨s, .refl, hl, at'⟩
  | some p =>
    have busy := (h.busy p).mpr hl
    cases p with
    | inl j =>
      have other : ∀ pc, s.pc j = pc → pc ≠ .left → i ≠ j := by
        rintro pc hj hne rfl
        exact hne (hj.symm.trans at')
      rcases busy with ⟨ask, rest, hc⟩ | hj | hj
      · obtain ⟨s', run, free, pc⟩ := signalled_all hc
        exact ⟨s', run, free, by rw [pc, at']⟩
      · refine ⟨_, .single (.register j hj), rfl, ?_⟩
        exact (Function.update_of_ne (other _ hj (by simp)) _ _).trans at'
      · refine ⟨_, .single (.unregister j hj), rfl, ?_⟩
        exact (Function.update_of_ne (other _ hj (by simp)) _ _).trans at'
    | inr k =>
      obtain ⟨ask, rest, hc⟩ := busy
      obtain ⟨s', run, free, pc⟩ := signalled_all hc
      exact ⟨s', run, free, by rw [pc, at']⟩

/-- A thread that has returned can call `stop`. -/
lemma calls_stop {i : ι} (at' : s.pc i = .returned) : ∃ s', Step s s' ∧ s'.calledStop i = true :=
  ⟨_, .callStop i at', Function.update_self ..⟩

/-- A thread that holds the lock can go on to there. -/
lemma unregisters {i : ι} (at' : s.pc i = .unregistering) :
    ∃ s', Relation.ReflTransGen Step s s' ∧ s'.calledStop i = true := by
  obtain ⟨s', st, called⟩ := calls_stop (s := { s with
    control := s.control.unregisterVcpuThread i
    lock := none
    pc := Function.update s.pc i .returned }) (Function.update_self ..)
  exact ⟨s', .head (.unregister i at') (.single st), called⟩

/-- A thread that is leaving can get to there. -/
lemma Locking.leads (h : Locking s) {i : ι} (leaving : (s.pc i).Leaving) :
    ∃ s', Relation.ReflTransGen Step s s' ∧ s'.calledStop i = true := by
  cases hpc : s.pc i with
  | left =>
    obtain ⟨s₁, run, free, at'⟩ := h.released hpc
    obtain ⟨s₂, run', called⟩ := unregisters (s := { s₁ with
      lock := some (.inl i)
      pc := Function.update s₁.pc i .unregistering }) (Function.update_self ..)
    exact ⟨s₂, run.trans (.head (.lockUnregister i at' free) run'), called⟩
  | unregistering => exact unregisters hpc
  | returned =>
    obtain ⟨s', st, called⟩ := calls_stop hpc
    exact ⟨s', .single st, called⟩
  | _ =>
    rw [hpc] at leaving
    exact leaving.elim

/-- A thread in the list that has not panicked is in its loop. -/
lemma inside_of_listed {pc : VcpuPc} (listed : Listed pc) (hne : pc ≠ .panicked) : pc.Inside := by
  cases pc with
  | running => trivial
  | left => trivial
  | unregistering => trivial
  | panicked => exact absurd rfl hne
  | _ => exact listed.elim

/-- A thread that is gone and has not panicked has ended. -/
lemma ended_of_over {pc : VcpuPc} (gone : pc.Over) (hne : pc ≠ .panicked) : pc = .ended := by
  cases pc with
  | ended => rfl
  | panicked => exact absurd rfl hne
  | _ => exact gone.elim

/-- The registry is exact as long as no run loop has panicked. -/
theorem registry_exact_iff (h : Reach Init Step s) : s.Exact ↔ ∀ i, s.pc i ≠ .panicked := by
  have locking : ∀ s : Registry ι κ, Reach Init Step s → Locking s := fun s h =>
    h.invariant (fun _ => Locking.init) fun _ _ inv st => inv.step st
  have inv : Inv s :=
    h.invariant_of locking (fun _ => Inv.init) fun _ _ locking inv st => inv.step locking st
  constructor
  · intro exact' i hi
    have called := exact'.stops i (by rw [hi]; trivial)
    rcases (inv.called i).mp called with h' | h' <;> cases hi.symm.trans h'
  · intro none
    have inside : ∀ i ∈ s.control.vcpuThreads, (s.pc i).Inside :=
      fun i hi => inside_of_listed (inv.listed i hi) (none i)
    refine ⟨inside, fun p ask t rest hc => ?_, fun i gone => ?_, fun i gone => ?_,
      fun i leaving => ?_⟩
    · exact inside t (inv.rests p ask _ hc t List.mem_cons_self)
    · exact (inv.called i).mpr (.inr (ended_of_over gone (none i)))
    · exact inv.stopped i (.inl (ended_of_over gone (none i)))
    · exact (locking s h).leads leaving

/-- The vcpus are about to register, and nobody has called. -/
def fresh (ι κ : Type) : Registry ι κ where
  control := .new
  lock := none
  call _ := .idle
  pc _ := .spawned
  calledStop _ := false
  told _ := false

/-- One thread has registered, and its run loop has ended. -/
lemma loop_ended (res : Outcome Unit Unit) : ∃ s : Registry Bool Unit, Reach Init Step s ∧
    s.control.vcpuThreads = [true] ∧ s.pc true = .afterLoop res ∧ s.pc false = .spawned := by
  have start : Reach Init Step (fresh Bool Unit) :=
    .init ⟨rfl, rfl, fun _ => rfl, fun _ => rfl, fun _ => rfl⟩
  have registered := (start.step (.lockRegister true rfl rfl)).step (.register true rfl)
  exact ⟨_, registered.step (.loopEnds true res rfl rfl), rfl, rfl, rfl⟩

/-- A run loop that fails leaves the registry exact. -/
theorem failed_loop_exact : ∃ s : Registry Bool Unit, s.pc true = .left ∧ s.Exact := by
  obtain ⟨s, reached, -, at', idle⟩ := loop_ended (.err ())
  refine ⟨s, at', (registry_exact_iff reached).mpr fun i => ?_⟩
  cases i
  · rw [idle]
    simp
  · rw [at']
    simp [VcpuPc.afterLoop]

/-- A run loop that panics leaves its thread in the list. -/
theorem panicked_loop_listed : ∃ s : Registry Bool Unit, Reach Init Step s ∧ ¬ s.Exact := by
  obtain ⟨s, reached, threads, at', -⟩ := loop_ended .panic
  refine ⟨s, reached, fun exact' => ?_⟩
  have inside := exact'.registered true (by simp [threads])
  rw [at'] at inside
  exact inside

end Registry

end Hearth
