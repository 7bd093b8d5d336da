import Hearth.Lib.Transition

/-!
# No lost stop or kick

Model of `VmControl` and `VCPU::run` of `main.rs`, and of the signal between them. `stop` and
`kick` set a flag and then send the kick signal to registered vcpu threads; the run loop
tests the flags and enters `KVM_RUN`. The signal's handler sets `immediate_exit`, so that a
signal that comes between the tests and `KVM_RUN` is not lost; the loop clears it after
`EINTR`, before the next tests.

`Kick.Step` is the system of one vcpu thread, any number of callers of `stop` and `kick`, and the
delivery of the signal at any point of the vcpu thread. What is assumed of KVM is in three of its
steps: `KVM_RUN` looks at `immediate_exit` on entry (`enter`), returns `EINTR` for a signal that is
delivered while it runs (`deliver`), and else returns when it likes (`exit`, `eintr`).

`no_lost_kick` is the result.
-/

namespace Hearth
open Lib

variable {ι τ : Type}

/-! ## VmControl -/

/-- What the other threads ask of a VM. -/
inductive Ask where
  | stop
  | kick
  deriving DecidableEq

/-- `Threads currently in VCPU::run()` are in `vcpuThreads`. -/
structure VmControl (τ : Type) where
  shouldStop : Bool
  devicesPending : Bool
  vcpuThreads : List τ

namespace VmControl

/-- No flag is set and no thread registered. -/
def new : VmControl τ where
  shouldStop := false
  devicesPending := false
  vcpuThreads := []

/-- The store that `stop` or `kick` starts with. -/
def store (ask : Ask) (self : VmControl τ) : VmControl τ :=
  match ask with
  | .stop => { self with shouldStop := true }
  | .kick => { self with devicesPending := true }

/-- The flag of `stop` or `kick`. -/
def flag (ask : Ask) (self : VmControl τ) : Bool :=
  match ask with
  | .stop => self.shouldStop
  | .kick => self.devicesPending

/-- The threads that are sent the signal: all of them, or the first. -/
def targets (ask : Ask) (self : VmControl τ) : List τ :=
  match ask with
  | .stop => self.vcpuThreads
  | .kick => self.vcpuThreads.head?.toList

/-- `register_vcpu_thread`. -/
def registerVcpuThread (tid : τ) (self : VmControl τ) : VmControl τ :=
  { self with vcpuThreads := self.vcpuThreads ++ [tid] }

/-- `unregister_vcpu_thread`. -/
def unregisterVcpuThread [DecidableEq τ] (tid : τ) (self : VmControl τ) : VmControl τ :=
  { self with vcpuThreads := self.vcpuThreads.filter (· ≠ tid) }

/-- The flag that is stored is set. -/
@[simp] lemma flag_store (ask : Ask) (self : VmControl τ) : (self.store ask).flag ask = true := by
  cases ask <;> rfl

/-- Storing a flag leaves the other one. -/
lemma flag_store_ne {ask ask' : Ask} (h : ask' ≠ ask) (self : VmControl τ) :
    (self.store ask).flag ask' = self.flag ask' := by
  cases ask <;> cases ask' <;> first | rfl | exact absurd rfl h

/-- Storing a flag leaves the list. -/
@[simp] lemma vcpuThreads_store (ask : Ask) (self : VmControl τ) :
    (self.store ask).vcpuThreads = self.vcpuThreads := by
  cases ask <;> rfl

/-- With one thread registered, it is a target of both. -/
lemma mem_targets {ask : Ask} {self : VmControl τ} {tid : τ} (h : self.vcpuThreads = [tid]) :
    tid ∈ self.targets ask := by
  cases ask <;> simp [targets, h]

end VmControl

/-! ## The threads -/

/-- Where a caller of `stop` or `kick` is. -/
inductive Caller (τ : Type) where
  | idle
  /-- has set the flag -/
  | stored (ask : Ask)
  /-- has locked the list, and has yet to signal these threads -/
  | signalling (ask : Ask) (rest : List τ)

/-- Where the vcpu thread is in `VCPU::run`. -/
inductive RunPc where
  /-- before `KVM_RUN_PTR` is set -/
  | start
  | unregistered
  /-- holds the lock of the list -/
  | registering
  /-- at the test of `should_stop` -/
  | test
  /-- at `take_devices_pending` -/
  | take
  | polling
  /-- at the call of `KVM_RUN` -/
  | enter
  /-- in `KVM_RUN`, which has found `immediate_exit` clear -/
  | inKvm
  /-- `KVM_RUN` has returned `EINTR` -/
  | eintr
  /-- it has returned otherwise -/
  | exited
  | leaving
  /-- holds the lock of the list -/
  | unregistering
  | left
  | done
  deriving DecidableEq

/-- Who holds the lock of the list. -/
inductive Holder (ι : Type) where
  | vcpu
  | caller (i : ι)

/-- The callers, the vcpu thread and what they share. -/
structure Kick (ι τ : Type) where
  control : VmControl τ
  lock : Option (Holder ι)
  caller : ι → Caller τ
  pc : RunPc
  /-- `KVM_RUN_PTR` is not null -/
  runPtr : Bool
  immediateExit : Bool
  /-- kick signals sent to the vcpu thread and not delivered -/
  pending : Nat

namespace Kick

/-- The steps; `tid` is the vcpu thread. -/
inductive Step [DecidableEq ι] [DecidableEq τ] (tid : τ) (s : Kick ι τ) : Kick ι τ → Prop where
  -- a caller of `stop` or `kick`
  | store (i : ι) (ask : Ask) (at' : s.caller i = .idle) :
    Step tid s
      { s with
        control := s.control.store ask
        caller := Function.update s.caller i (.stored ask) }
  | lockList (i : ι) {ask : Ask} (at' : s.caller i = .stored ask) (free : s.lock = none) :
    Step tid s
      { s with
        lock := some (.caller i)
        caller := Function.update s.caller i (.signalling ask (s.control.targets ask)) }
  | send (i : ι) {ask : Ask} {t : τ} {rest : List τ}
      (at' : s.caller i = .signalling ask (t :: rest)) :
    Step tid s
      { s with
        caller := Function.update s.caller i (.signalling ask rest)
        pending := if t = tid then s.pending + 1 else s.pending }
  | unlockList (i : ι) {ask : Ask} (at' : s.caller i = .signalling ask []) :
    Step tid s { s with lock := none, caller := Function.update s.caller i .idle }
  -- the signal
  | deliver (sent : 0 < s.pending) :
    Step tid s
      { s with
        pending := s.pending - 1
        immediateExit := s.immediateExit || s.runPtr
        pc := if s.pc = .inKvm then .eintr else s.pc }
  -- the vcpu thread
  | setPtr (at' : s.pc = .start) : Step tid s { s with runPtr := true, pc := .unregistered }
  | lockRegister (at' : s.pc = .unregistered) (free : s.lock = none) :
    Step tid s { s with lock := some .vcpu, pc := .registering }
  | register (at' : s.pc = .registering) :
    Step tid s { s with control := s.control.registerVcpuThread tid, lock := none, pc := .test }
  | test (at' : s.pc = .test) :
    Step tid s { s with pc := if s.control.shouldStop then .leaving else .take }
  | take (at' : s.pc = .take) :
    Step tid s
      { s with
        control := { s.control with devicesPending := false }
        pc := if s.control.devicesPending then .polling else .enter }
  /-- `poll_mmio_devices` returns -/
  | polled (ok : Bool) (at' : s.pc = .polling) :
    Step tid s { s with pc := if ok then .enter else .leaving }
  | enter (at' : s.pc = .enter) :
    Step tid s { s with pc := if s.immediateExit then .eintr else .inKvm }
  | eintr (at' : s.pc = .inKvm) : Step tid s { s with pc := .eintr }
  | exit (at' : s.pc = .inKvm) : Step tid s { s with pc := .exited }
  | clear (at' : s.pc = .eintr) : Step tid s { s with immediateExit := false, pc := .test }
  /-- the exit is handled, and the loop goes on or is left -/
  | handled (again : Bool) (at' : s.pc = .exited) :
    Step tid s { s with pc := if again then .test else .leaving }
  | lockUnregister (at' : s.pc = .leaving) (free : s.lock = none) :
    Step tid s { s with lock := some .vcpu, pc := .unregistering }
  | unregister (at' : s.pc = .unregistering) :
    Step tid s { s with control := s.control.unregisterVcpuThread tid, lock := none, pc := .left }
  | clearPtr (at' : s.pc = .left) : Step tid s { s with runPtr := false, pc := .done }

/-- At the start the vcpu thread is not registered, and nobody has called. -/
structure Init (s : Kick ι τ) : Prop where
  control : s.control = .new
  lock : s.lock = none
  caller : ∀ i, s.caller i = .idle
  pc : s.pc = .start
  pending : s.pending = 0

/-! ## The invariant -/

/-- The caller has set the flag and has yet to signal `tid`. -/
def Owes (tid : τ) (ask : Ask) : Caller τ → Prop
  | .idle => False
  | .stored ask' => ask' = ask
  | .signalling ask' rest => ask' = ask ∧ tid ∈ rest

/-- `KVM_RUN` will not be entered, or will be left: `immediate_exit` is set, a signal is pending, or
    the caller has yet to send it. -/
def Woken (tid : τ) (ask : Ask) (s : Kick ι τ) : Prop :=
  s.immediateExit = true ∨ 0 < s.pending ∨ ∃ i, Owes tid ask (s.caller i)

/-- The thread has looked at the flag and is on its way to `KVM_RUN`. -/
def Past : Ask → RunPc → Bool
  | .stop, .take => true
  | _, .polling => true
  | _, .enter => true
  | _, .inKvm => true
  | _, _ => false

/-- The thread is in the list. -/
def Registered : RunPc → Bool
  | .test | .take | .polling | .enter | .inKvm | .eintr | .exited | .leaving
    | .unregistering => true
  | _ => false

/-- What holds between steps: the thread is in the list while it may be in `KVM_RUN`, and a signal
    comes with each flag it has not seen. -/
structure Inv (tid : τ) (s : Kick ι τ) : Prop where
  threads : s.control.vcpuThreads = if Registered s.pc then [tid] else []
  runPtr : Registered s.pc = true → s.runPtr = true
  pointer : s.pc = .unregistered ∨ s.pc = .registering → s.runPtr = true
  /-- a flag that was set since the thread looked at it comes with a signal -/
  woken : ∀ ask, Past ask s.pc = true → s.control.flag ask = true → Woken tid ask s

/-- A thread past the tests is in the list. -/
lemma registered_of_past {ask : Ask} {pc : RunPc} (h : Past ask pc = true) :
    Registered pc = true := by
  cases ask <;> cases pc <;> first | rfl | exact h

/-- A step of the vcpu thread that only moves on. -/
lemma Inv.goto {tid : τ} {s : Kick ι τ} {pc : RunPc} {lock : Option (Holder ι)} (inv : Inv tid s)
    (reg : Registered pc = Registered s.pc)
    (ptr : pc = .unregistered ∨ pc = .registering → s.runPtr = true)
    (past : ∀ ask, Past ask pc = true → s.control.flag ask = true → Past ask s.pc = true) :
    Inv tid { s with lock := lock, pc := pc } where
  threads := by
    dsimp only
    rw [reg]
    exact inv.threads
  runPtr h := inv.runPtr (reg ▸ h)
  pointer := ptr
  woken ask hp hf := inv.woken ask (past ask hp hf) hf

/-- A step of the vcpu thread to where it has looked at neither flag. -/
lemma Inv.rest {tid : τ} {s : Kick ι τ} {pc pc' : RunPc} {lock : Option (Holder ι)}
    (inv : Inv tid s)
    (at' : s.pc = pc) (reg : Registered pc' = Registered pc) (run : Registered pc' = true)
    (away : ∀ ask, Past ask pc' = false) : Inv tid { s with lock := lock, pc := pc' } := by
  refine inv.goto (at' ▸ reg) (fun h => ?_) fun ask h => absurd ((away ask).symm.trans h) nofun
  rcases h with rfl | rfl
  · cases run
  · cases run

section Keep

variable {tid : τ} {s s' : Kick ι τ}

/-- A signal finds `immediate_exit` through the pointer, which is set from the registration on. -/
lemma Inv.deliver (inv : Inv tid s) :
    Inv tid
      { s with
        pending := s.pending - 1
        immediateExit := s.immediateExit || s.runPtr
        pc := if s.pc = .inKvm then .eintr else s.pc } := by
  have reg : Registered (if s.pc = .inKvm then .eintr else s.pc) = Registered s.pc := by
    split
    · next h => rw [h]; rfl
    · rfl
  refine ⟨?_, fun h => inv.runPtr (reg ▸ h), fun h => inv.pointer ?_, fun ask past set => .inl ?_⟩
  · dsimp only
    rw [reg]
    exact inv.threads
  · dsimp only at h
    split at h
    · exact h.elim nofun nofun
    · exact h
  · show (s.immediateExit || s.runPtr) = true
    rw [inv.runPtr (reg ▸ registered_of_past past), Bool.or_true]

/-- The pointer is set before the thread is registered. -/
lemma Inv.setPtr (inv : Inv tid s) (at' : s.pc = .start) :
    Inv tid { s with runPtr := true, pc := .unregistered } := by
  have threads := inv.threads
  rw [at'] at threads
  exact ⟨threads, fun h => absurd h nofun, fun _ => rfl,
    fun ask h => absurd h (by cases ask <;> nofun)⟩

/-- It is registered with the pointer set. -/
lemma Inv.register (inv : Inv tid s) (at' : s.pc = .registering) :
    Inv tid { s with control := s.control.registerVcpuThread tid, lock := none, pc := .test } := by
  have threads := inv.threads
  rw [at'] at threads
  refine ⟨?_, fun _ => inv.pointer (.inr at'), fun h => h.elim nofun nofun,
    fun ask h => absurd h (by cases ask <;> nofun)⟩
  show s.control.vcpuThreads ++ [tid] = [tid]
  rw [threads]
  rfl

/-- Past the test of `should_stop`, the flag was not set when it was looked at. -/
lemma Inv.test (inv : Inv tid s) (at' : s.pc = .test) :
    Inv tid { s with pc := if s.control.shouldStop then .leaving else .take } := by
  cases stop : s.control.shouldStop with
  | true =>
    rw [if_pos rfl]
    exact inv.rest at' rfl rfl fun ask => by cases ask <;> rfl
  | false =>
    rw [if_neg nofun]
    refine inv.goto (by rw [at']; rfl) (fun h => h.elim nofun nofun) fun ask h set => ?_
    cases ask with
    | stop => exact absurd (stop.symm.trans set) nofun
    | kick => exact absurd h nofun

/-- `devices_pending` is looked at and cleared at once. -/
lemma Inv.take (inv : Inv tid s) (at' : s.pc = .take) :
    Inv tid
      { s with
        control := { s.control with devicesPending := false }
        pc := if s.control.devicesPending then .polling else .enter } := by
  have reg : Registered (if s.control.devicesPending then .polling else .enter) =
    Registered s.pc := by
    rw [at']
    split <;> rfl
  refine ⟨?_, fun _ => inv.runPtr (by rw [at']; rfl), fun h => ?_, fun ask past set => ?_⟩
  · dsimp only
    rw [reg]
    exact inv.threads
  · dsimp only at h
    split at h <;> exact h.elim nofun nofun
  · cases ask with
    | stop => exact inv.woken .stop (by rw [at']; rfl) set
    | kick => exact absurd set nofun

/-- `immediate_exit` is cleared on the way back to the tests of the flags. -/
lemma Inv.clear (inv : Inv tid s) (at' : s.pc = .eintr) :
    Inv tid { s with immediateExit := false, pc := .test } := by
  have threads := inv.threads
  rw [at'] at threads
  exact ⟨threads, fun _ => inv.runPtr (by rw [at']; rfl), fun h => h.elim nofun nofun,
    fun ask h => absurd h (by cases ask <;> nofun)⟩

/-- The pointer is cleared once it is not. -/
lemma Inv.clearPtr (inv : Inv tid s) (at' : s.pc = .left) :
    Inv tid { s with runPtr := false, pc := .done } := by
  have threads := inv.threads
  rw [at'] at threads
  exact ⟨threads, fun h => absurd h nofun, fun h => h.elim nofun nofun,
    fun ask h => absurd h (by cases ask <;> nofun)⟩

/-- It is not registered any more, and past no test. -/
lemma Inv.unregister [DecidableEq τ] (inv : Inv tid s) (at' : s.pc = .unregistering) :
    Inv tid
      { s with control := s.control.unregisterVcpuThread tid, lock := none, pc := .left } := by
  have threads := inv.threads
  rw [at'] at threads
  refine ⟨?_, fun h => absurd h nofun, fun h => h.elim nofun nofun,
    fun ask h => absurd h (by cases ask <;> nofun)⟩
  show s.control.vcpuThreads.filter (· ≠ tid) = []
  rw [threads]
  simp [Registered]

variable [DecidableEq ι]

/-- A caller that moves on without having signalled the thread still owes it. -/
lemma Woken.update {ask : Ask} {i : ι} {c : Caller τ} (w : Woken tid ask s)
    (exit : s'.immediateExit = s.immediateExit) (pending : s.pending ≤ s'.pending)
    (callers : s'.caller = Function.update s.caller i c)
    (h : Owes tid ask (s.caller i) → Owes tid ask c ∨ 0 < s'.pending) : Woken tid ask s' := by
  rcases w with w | w | ⟨j, w⟩
  · exact .inl (exit.trans w)
  · exact .inr (.inl (by omega))
  · by_cases hj : j = i
    · subst hj
      rcases h w with h | h
      · exact .inr (.inr ⟨j, by rwa [callers, Function.update_self]⟩)
      · exact .inr (.inl h)
    · exact .inr (.inr ⟨j, by rwa [callers, Function.update_of_ne hj]⟩)

/-- A step of a caller that leaves the vcpu thread where it is. -/
lemma Inv.called {i : ι} {c : Caller τ} {control : VmControl τ} {lock : Option (Holder ι)}
    {pending : Nat} (inv : Inv tid s) (threads : control.vcpuThreads = s.control.vcpuThreads)
    (hp : s.pending ≤ pending)
    (flag : ∀ ask, control.flag ask = true → s.control.flag ask = true ∨ Owes tid ask c)
    (h : ∀ ask, Registered s.pc = true → Owes tid ask (s.caller i) → Owes tid ask c ∨ 0 < pending) :
    Inv tid
      { s with
        control := control, lock := lock, caller := Function.update s.caller i c,
        pending := pending } where
  threads := threads.trans inv.threads
  runPtr := inv.runPtr
  pointer := inv.pointer
  woken ask past set := by
    rcases flag ask set with set | owes
    · exact (inv.woken ask past set).update rfl hp rfl (h ask (registered_of_past past))
    · refine .inr (.inr ⟨i, ?_⟩)
      dsimp only
      rwa [Function.update_self]

/-- A caller that has set a flag owes the signal. -/
lemma Inv.store {i : ι} {ask : Ask} (inv : Inv tid s) (at' : s.caller i = .idle) :
    Inv tid
      { s with
        control := s.control.store ask
        caller := Function.update s.caller i (.stored ask) } := by
  refine inv.called (VmControl.vcpuThreads_store ..) (Nat.le_refl _) (fun ask' set => ?_) ?_
  · by_cases h : ask' = ask
    · exact .inr h.symm
    · exact .inl (by rwa [VmControl.flag_store_ne h] at set)
  · intro ask' _ owes
    rw [at'] at owes
    exact owes.elim

/-- The thread is in the list, so it is among those the caller is going to signal. -/
lemma Inv.lockList {i : ι} {ask : Ask} (inv : Inv tid s) (at' : s.caller i = .stored ask) :
    Inv tid
      { s with
        lock := some (.caller i)
        caller := Function.update s.caller i (.signalling ask (s.control.targets ask)) } := by
  refine inv.called rfl (Nat.le_refl _) (fun _ set => .inl set) fun ask' reg owes => .inl ?_
  rw [at'] at owes
  have threads := inv.threads
  rw [if_pos reg] at threads
  exact ⟨owes, VmControl.mem_targets threads⟩

/-- A caller that has signalled all threads owes none. -/
lemma Inv.unlockList {i : ι} {ask : Ask} (inv : Inv tid s) (at' : s.caller i = .signalling ask []) :
    Inv tid { s with lock := none, caller := Function.update s.caller i .idle } := by
  refine inv.called rfl (Nat.le_refl _) (fun _ set => .inl set) fun ask' _ owes => ?_
  rw [at'] at owes
  exact absurd owes.2 List.not_mem_nil

variable [DecidableEq τ]

/-- The signal that the caller owed is pending. -/
lemma Inv.send {i : ι} {ask : Ask} {t : τ} {rest : List τ} (inv : Inv tid s)
    (at' : s.caller i = .signalling ask (t :: rest)) :
    Inv tid
      { s with
        caller := Function.update s.caller i (.signalling ask rest)
        pending := if t = tid then s.pending + 1 else s.pending } := by
  refine inv.called rfl (by split <;> omega) (fun _ set => .inl set) fun ask' _ owes => ?_
  rw [at'] at owes
  by_cases ht : t = tid
  · rw [if_pos ht]
    exact .inr (Nat.succ_pos _)
  · rcases List.mem_cons.mp owes.2 with h | h
    · exact absurd h.symm ht
    · exact .inl ⟨owes.1, h⟩

/-- Every step keeps the invariant. -/
lemma Inv.step (inv : Inv tid s) (st : Step tid s s') : Inv tid s' := by
  cases st with
  | store i ask at' => exact inv.store at'
  | lockList i at' free => exact inv.lockList at'
  | send i at' => exact inv.send at'
  | unlockList i at' => exact inv.unlockList at'
  | deliver sent => exact inv.deliver
  | setPtr at' => exact inv.setPtr at'
  | lockRegister at' free =>
    exact inv.goto (by rw [at']; rfl) (fun _ => inv.pointer (.inl at'))
      fun ask h => absurd h (by cases ask <;> nofun)
  | register at' => exact inv.register at'
  | test at' => exact inv.test at'
  | take at' => exact inv.take at'
  | polled ok at' =>
    cases ok with
    | true =>
      exact inv.goto (by rw [at']; rfl) (fun h => h.elim nofun nofun)
        fun ask _ _ => by rw [at']; cases ask <;> rfl
    | false =>
      exact inv.rest at' rfl rfl fun ask => by cases ask <;> rfl
  | enter at' =>
    refine inv.goto (by rw [at']; split <;> rfl)
      (fun h => by split at h <;> exact h.elim nofun nofun)
      fun ask _ _ => by rw [at']; cases ask <;> rfl
  | eintr at' =>
    exact inv.rest at' rfl rfl fun ask => by cases ask <;> rfl
  | exit at' =>
    exact inv.rest at' rfl rfl fun ask => by cases ask <;> rfl
  | clear at' => exact inv.clear at'
  | handled again at' =>
    cases again with
    | true =>
      exact inv.rest at' rfl rfl fun ask => by cases ask <;> rfl
    | false =>
      exact inv.rest at' rfl rfl fun ask => by cases ask <;> rfl
  | lockUnregister at' free =>
    exact inv.rest at' rfl rfl fun ask => by cases ask <;> rfl
  | unregister at' => exact inv.unregister at'
  | clearPtr at' => exact inv.clearPtr at'

end Keep

/-- The invariant holds at the start. -/
lemma Inv.init {tid : τ} {s : Kick ι τ} (h : Init s) : Inv tid s where
  threads := by
    rw [h.control, h.pc]
    rfl
  runPtr reg := by
    rw [h.pc] at reg
    cases reg
  pointer at' := by
    rw [h.pc] at at'
    rcases at' with at' | at' <;> cases at'
  woken ask past := by
    rw [h.pc] at past
    cases ask <;> cases past

end Kick

/-! ## The result -/

/-- While the vcpu thread is in `KVM_RUN`, a flag that is set comes with the signal that ends it: it
    is delivered already, or pending, or the caller has yet to send it. -/
theorem no_lost_kick [DecidableEq ι] [DecidableEq τ] {tid : τ} {s : Kick ι τ}
    (h : Reach Kick.Init (Kick.Step tid) s) (inKvm : s.pc = .inKvm) (ask : Ask)
    (set : s.control.flag ask = true) :
    s.immediateExit = true ∨ 0 < s.pending ∨ ∃ i, Kick.Owes tid ask (s.caller i) := by
  have inv := h.invariant (fun _ start => Kick.Inv.init start) fun _ _ inv st => inv.step st
  apply inv.woken ask _ set
  rw [inKvm]
  cases ask <;> rfl

namespace Kick

/-- The vcpu thread has yet to start, and one caller has yet to call. -/
def fresh : Kick Unit Unit where
  control := .new
  lock := none
  caller _ := .idle
  pc := .start
  runPtr := false
  immediateExit := false
  pending := 0

/-- The thread runs the guest. -/
def running : Kick Unit Unit :=
  { fresh with control := VmControl.new.registerVcpuThread (), pc := .inKvm, runPtr := true }

/-- The caller has set `should_stop` and signalled the thread. -/
def stopped : Kick Unit Unit :=
  { running with
    control := running.control.store .stop
    lock := some (.caller ())
    caller := fun _ => .signalling .stop []
    pending := 1 }

end Kick

/-- A running thread that is stopped has the signal. -/
theorem stopped_signalled : Kick.stopped.control.flag .stop = true ∧
    (Kick.stopped.immediateExit = true ∨ 0 < Kick.stopped.pending ∨
      ∃ i, Kick.Owes () .stop (Kick.stopped.caller i)) := by
  have start : Reach Kick.Init (Kick.Step ()) Kick.fresh := .init ⟨rfl, rfl, fun _ => rfl, rfl, rfl⟩
  have registered := ((start.step (.setPtr rfl)).step (.lockRegister rfl rfl)).step (.register rfl)
  have running : Reach Kick.Init (Kick.Step ()) Kick.running :=
    ((registered.step (.test rfl)).step (.take rfl)).step (.enter rfl)
  have called := (running.step (.store () .stop rfl)).step (.lockList () rfl rfl)
  have stopped : Reach Kick.Init (Kick.Step ()) Kick.stopped := called.step (.send () rfl)
  exact ⟨rfl, no_lost_kick stopped rfl .stop rfl⟩

end Hearth
