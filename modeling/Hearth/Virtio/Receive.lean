import Hearth.Lib.Transition
import Hearth.Virtio.Access
import Hearth.Virtio.Net

/-!
# Network receive never stalls

The tap thread queues incoming frames and kicks a vcpu only when the queue was empty; any other
frame is left to whoever is draining the queue, or to the driver's next notification.
`Receive.Step` is the system of

* the tap thread, which appends a frame under the lock and then, maybe, kicks;
* the vcpu threads, which take the kick and poll, or handle a `QUEUE_NOTIFY`. A turn
  of `queueNotify` is taken in pieces (`canProcess`, `popAvail`, `process`, and the
  rest), so frames arrive in between;
* a driver, which notifies queue 0 after it has made a buffer available in it.

`receive_never_stalls` is the result. The invariant is that a frame that could be delivered is
covered: by the kick (still to come or pending), by a notification, or by a vcpu that has the
receive queue yet to drain, and such a vcpu stops only where it finds no frame or no buffer.
-/

namespace Hearth
open Lib

variable {ι : Type} {mem : GuestMemory} {q : Fin vringQueuesMax} {w w' : World VirtioNet}

/-! ## The tap thread -/

/-- What the tap thread does under the lock: the frames then pending, and whether it kicks. -/
def rxAppend (frame : List UInt8) (pending : List (List UInt8)) : List (List UInt8) × Bool :=
  if rxPendingMax ≤ pending.length then (pending, false)
  else (pending ++ [frame], (pending ++ [frame]).length == 1)

/-- A frame appended to others is not kicked for; one appended to none is. -/
lemma rxAppend_covered (frame : List UInt8) (pending : List (List UInt8)) :
    (rxAppend frame pending).2 = true ∨ (rxAppend frame pending).1 = [] ∨ pending ≠ [] := by
  cases pending with
  | nil => exact .inl rfl
  | cons _ _ => exact .inr (.inr nofun)

/-- Where the thread that reads the tap is. -/
inductive TapThread where
  | reading
  /-- has appended a frame to an empty queue -/
  | kicking
  deriving DecidableEq

/-! ## The vcpu threads -/

/-- Where a vcpu is in a turn of `queueNotify`. -/
inductive Stage where
  | check
  | pop
  | process (chain : DescChain)
  | push (chain : DescChain) (len : UInt32)

/-- Where a vcpu thread is; the queues are those it has still to drain. -/
inductive Vcpu where
  /-- in the guest, or on its way there -/
  | guest
  /-- has taken the kick, or left the guest with a notification, and waits for the device's lock -/
  | waiting (queues : List (Fin vringQueuesMax))
  | draining (queues : List (Fin vringQueuesMax))
  /-- in a turn for `q` -/
  | turn (q : Fin vringQueuesMax) (queues : List (Fin vringQueuesMax)) (stage : Stage)
  /-- has left its run loop -/
  | stopped

/-- The receive queue is set up and the driver has a buffer in it for the device. -/
def Receivable (mem : GuestMemory) (w : World VirtioNet) : Prop :=
  (w.mmio.queue 0).Live ∧
    ∃ ptr, gpaToHost mem (w.mmio.queue 0).avail (w.mmio.queue 0).availSize = some ptr ∧
      (w.mmio.queue 0).lastAvailIdx ≠ w.host.mem.load UInt16 (ptr + 2)

/-- A frame is pending and could be delivered. -/
def Deliverable (mem : GuestMemory) (w : World VirtioNet) : Prop :=
  w.mmio.device.rxPending ≠ [] ∧ Receivable mem w

/-- The driver makes a buffer available between `w` and `w'`. -/
def Publishes (mem : GuestMemory) (w w' : World VirtioNet) : Prop :=
  Receivable mem w' ∧ ¬ Receivable mem w

/-! ## The system -/

/-- The device with the threads around it. `owed` is the driver's notification of queue
    0 that is still outstanding. -/
structure Receive (ι : Type) where
  world : World VirtioNet
  devicesPending : Bool
  tap : TapThread
  vcpu : ι → Vcpu
  /-- which vcpu holds the device's lock -/
  lock : Option ι
  owed : Bool

namespace Receive

/-- The pending frames change. -/
def setPending (pending : List (List UInt8)) (w : World VirtioNet) : World VirtioNet :=
  { w with mmio := { w.mmio with device := { w.mmio.device with rxPending := pending } } }

section Steps

variable [DecidableEq ι]

/-- Vcpu `i` goes on to `pc`. -/
def move (i : ι) (pc : Vcpu) (s : Receive ι) : Receive ι :=
  { s with vcpu := Function.update s.vcpu i pc }

/-- The steps of the system: the tap thread, the vcpus, register accesses and what the driver
    writes to memory. -/
inductive Step (mem : GuestMemory) (s : Receive ι) : Receive ι → Prop where
  /-- the tap thread reads a frame, and queues or drops it -/
  | append (frame : List UInt8) (at' : s.tap = .reading) :
    Step mem s
      { s with
        world := setPending (rxAppend frame s.world.mmio.device.rxPending).1 s.world
        tap := if (rxAppend frame s.world.mmio.device.rxPending).2 then .kicking else .reading }
  /-- `kick` -/
  | kick (at' : s.tap = .kicking) : Step mem s { s with devicesPending := true, tap := .reading }
  /-- `take_devices_pending`, and on to `poll_mmio_devices` -/
  | swap (i : ι) (at' : s.vcpu i = .guest) (set : s.devicesPending = true) :
    Step mem s { s.move i (.waiting [0, 1]) with devicesPending := false }
  /-- the guest writes to `QUEUE_NOTIFY` -/
  | notify (i : ι) (exit : Mmio) {q : Fin vringQueuesMax} (at' : s.vcpu i = .guest)
    (reg : exit.reg = .writeQueueNotify)
    (idx : VirtioMmio.queueIndex (readLe32 exit.data) = some q) :
    Step mem s { s.move i (.waiting [q]) with owed := s.owed && q != 0 }
  | lock (i : ι) {queues : _} (at' : s.vcpu i = .waiting queues) (free : s.lock = none) :
    Step mem s { s.move i (.draining queues) with lock := some i }
  | unlock (i : ι) (at' : s.vcpu i = .draining []) :
      Step mem s { s.move i .guest with lock := none }
  /-- a queue that is not set up is left alone -/
  | skip (i : ι) {q : Fin vringQueuesMax} {queues : _} (at' : s.vcpu i = .draining (q :: queues))
    (live : ¬ (s.world.mmio.queue q).Live) : Step mem s (s.move i (.draining queues))
  | enter (i : ι) {q : Fin vringQueuesMax} {queues : _} (at' : s.vcpu i = .draining (q :: queues))
    (live : (s.world.mmio.queue q).Live) : Step mem s (s.move i (.turn q queues .check))
  | check (i : ι) {q : Fin vringQueuesMax} {queues : _} (at' : s.vcpu i = .turn q queues .check) :
    Step mem s (s.move i
      (if VirtioDevice.canProcess s.world.mmio.device (UInt32.ofNat q) then .turn q queues .pop
        else .draining queues))
  | pop (i : ι) {q : Fin vringQueuesMax} {queues queue chain h}
    (at' : s.vcpu i = .turn q queues .pop)
    (e : (s.world.mmio.queue q).popAvail mem s.world.host = (.ok (some chain, queue), h)) :
    Step mem s { s.move i (.turn q queues (.process chain)) with
      world := { host := h, mmio := s.world.mmio.setQueue q queue } }
  | popNone (i : ι) {q : Fin vringQueuesMax} {queues queue h}
    (at' : s.vcpu i = .turn q queues .pop)
    (e : (s.world.mmio.queue q).popAvail mem s.world.host = (.ok (none, queue), h)) :
    Step mem s { s.move i (.draining queues) with
      world := { host := h, mmio := s.world.mmio.setQueue q queue } }
  | process (i : ι) {q : Fin vringQueuesMax} {queues chain len w'}
    (at' : s.vcpu i = .turn q queues (.process chain))
    (e : onDevice (VirtioDevice.process (UInt32.ofNat q) chain) s.world = (.ok len, w')) :
    Step mem s { s.move i (.turn q queues (.push chain len)) with world := w' }
  /-- the chain is handed back and announced. If that changes the available ring of the receive
      queue, the driver, who has put it there, owes a notification -/
  | push (i : ι) {q : Fin vringQueuesMax} {queues chain len w₁ w' owed}
    (at' : s.vcpu i = .turn q queues (.push chain len))
    (e : onHost ((s.world.mmio.queue q).pushUsed mem chain.head len) s.world = (.ok (), w₁))
    (e' : announce w₁ = (.ok (), w')) (keeps : s.owed = true → owed = true)
    (owes : q ≠ 0 → Publishes mem s.world w' → owed = true) :
    Step mem s { s.move i (.turn q queues .check) with world := w', owed := owed }
  /-- a register access that notifies no queue -/
  | access (i : ι) {fuel exit data w' owed} (at' : s.vcpu i = .guest) (free : s.lock = none)
    (other : exit.reg = .writeQueueNotify → VirtioMmio.queueIndex (readLe32 exit.data) = none)
    (e : handle fuel exit mem s.world = (.ok data, w')) (keeps : s.owed = true → owed = true)
    (owes : Publishes mem s.world w' → owed = true) :
    Step mem s { s with world := w', owed := owed }
  /-- the guest writes to its memory -/
  | memory (m : Mem) {owed : Bool} (keeps : s.owed = true → owed = true)
    (owes : Publishes mem s.world { s.world with host := { s.world.host with mem := m } } →
      owed = true) :
    Step mem s
      { s with world := { s.world with host := { s.world.host with mem := m } }, owed := owed }
  /-- a vcpu leaves its run loop, for `stop` or for an error, which leaves the device at `w'` -/
  | stop (i : ι) (w' : World VirtioNet) (lock : Option ι) :
    Step mem s { s.move i .stopped with world := w', lock := lock }

end Steps

/-- At the start no frame is pending and the vcpus enter the guest. -/
structure Init (s : Receive ι) : Prop where
  pending : s.world.mmio.device.rxPending = []
  vcpu : ∀ i, s.vcpu i = .guest
  lock : s.lock = none

/-! ## The invariant -/

/-- The vcpu has the receive queue yet to drain. -/
def Active : Vcpu → Prop
  | .guest => False
  | .waiting queues => 0 ∈ queues
  | .draining queues => 0 ∈ queues
  | .turn q queues _ => q = 0 ∨ 0 ∈ queues
  | .stopped => False

/-- Someone will drain the receive queue. -/
def Covered (s : Receive ι) : Prop :=
  s.devicesPending = true ∨ s.tap = .kicking ∨ s.owed = true ∨ ∃ i, Active (s.vcpu i)

/-- Unless a vcpu has left its run loop, what can be delivered is covered. -/
def Inv (mem : GuestMemory) (s : Receive ι) : Prop :=
  (∃ i, s.vcpu i = .stopped) ∨ (Deliverable mem s.world → Covered s)

/-- What `s` is covered by, vcpu `i` apart, is still there. -/
structure Keeps (s s' : Receive ι) : Prop where
  devicesPending : s.devicesPending = true → s'.devicesPending = true
  tap : s.tap = .kicking → s'.tap = .kicking
  owed : s.owed = true → s'.owed = true

section Keep

variable [DecidableEq ι] {s s' : Receive ι} {i : ι} {pc : Vcpu}

/-- A vcpu that goes on to a place where it has the receive queue to drain covers everything. One
    that does not must not have been what covered a frame. -/
lemma Inv.move (inv : Inv mem s) (hv : s'.vcpu = Function.update s.vcpu i pc)
    (run : s.vcpu i ≠ .stopped)
    (h : Active pc ∨ (Keeps s s' ∧ (Deliverable mem s'.world → s'.owed = true ∨
      (Deliverable mem s.world ∧ ¬ Active (s.vcpu i))))) : Inv mem s' := by
  have other : ∀ j, j ≠ i → s'.vcpu j = s.vcpu j := fun j hj => by
    rw [hv, Function.update_of_ne hj]
  rcases inv with ⟨j, hj⟩ | inv
  · refine .inl ⟨j, ?_⟩
    rw [other j fun e => run (e ▸ hj), hj]
  · refine .inr fun d => ?_
    rcases h with active | ⟨keeps, h⟩
    · exact .inr (.inr (.inr ⟨i, by rwa [hv, Function.update_self]⟩))
    · rcases h d with owed | ⟨d', idle⟩
      · exact .inr (.inr (.inl owed))
      · rcases inv d' with c | c | c | ⟨j, c⟩
        · exact .inl (keeps.devicesPending c)
        · exact .inr (.inl (keeps.tap c))
        · exact .inr (.inr (.inl (keeps.owed c)))
        · refine .inr (.inr (.inr ⟨j, ?_⟩))
          rwa [other j fun e => idle (e ▸ c)]

/-- The same for a vcpu that moves on and leaves the rest alone. -/
lemma Inv.move_only (inv : Inv mem s) (lock : Option ι) (run : s.vcpu i ≠ .stopped)
    (h : ¬ Active pc → Deliverable mem s.world → ¬ Active (s.vcpu i)) :
    Inv mem { s.move i pc with lock := lock } := by
  apply inv.move rfl run
  by_cases active : Active pc
  · exact .inl active
  · exact .inr ⟨⟨id, id, id⟩, fun d => .inr ⟨d, h active d⟩⟩

end Keep

end Receive

/-! ## What the pieces of a turn leave -/

/-- Only queue 0 is the receive queue. -/
lemma queueIndex_ne {q : Fin vringQueuesMax} (hq : q ≠ 0) : UInt32.ofNat q ≠ virtioNetQueueRx := by
  match q with
  | 0 => exact absurd rfl hq
  | 1 => decide

/-- Without a frame the receive queue is not drained. -/
lemma canProcess_rx {self : VirtioNet}
    (h : VirtioDevice.canProcess self (UInt32.ofNat (0 : Fin vringQueuesMax)) = false) :
    self.rxPending = [] := by
  have h' : ((0 : UInt32) != virtioNetQueueRx || !self.rxPending.isEmpty) = false := h
  simpa [virtioNetQueueRx] using h'

/-- Transmitting leaves the pending frames and memory alone. -/
lemma process_other {queue : UInt32} (hq : queue ≠ virtioNetQueueRx) {chain : DescChain}
    {s s' : Host × VirtioNet} {len : UInt32} (e : VirtioNet.process queue chain s = (.ok len, s')) :
    s'.1 = s.1 ∧ s'.2.rxPending = s.2.rxPending := by
  unfold VirtioNet.process at e
  rw [if_neg hq] at e
  by_cases tx : queue = virtioNetQueueTx
  · rw [if_pos tx] at e
    obtain ⟨_, s1, e1, e2⟩ := Eff.bind_ok_iff.mp e
    obtain ⟨-, rfl⟩ := Eff.okOr_ok e1
    cases e2
    exact ⟨rfl, rfl⟩
  · rw [if_neg tx] at e
    cases e
    exact ⟨rfl, rfl⟩

/-- Setting another queue leaves it alone. -/
lemma setQueue_other (hq : q ≠ 0) (queue : VringQueue) {mmio : VirtioMmio VirtioNet} :
    (mmio.setQueue q queue).queue 0 = mmio.queue 0 := Function.update_of_ne hq.symm ..

/-- Working on another queue changes the receive queue only through memory. -/
lemma Deliverable.of_other (d : Deliverable mem w') (hmem : w'.host.mem = w.host.mem)
    (hqueue : w'.mmio.queue 0 = w.mmio.queue 0)
    (hpending : w'.mmio.device.rxPending = w.mmio.device.rxPending) : Deliverable mem w := by
  unfold Deliverable Receivable at d ⊢
  rwa [hmem, hqueue, hpending] at d

/-- What is deliverable was so before, if no buffer was made available. -/
lemma Deliverable.or_owed {owed : Bool}
    (hpending : w'.mmio.device.rxPending = w.mmio.device.rxPending)
    (owes : Publishes mem w w' → owed = true) (d : Deliverable mem w') :
    owed = true ∨ Deliverable mem w := by
  by_cases hr : Receivable mem w
  · exact .inr ⟨hpending ▸ d.1, hr⟩
  · exact .inl (owes ⟨d.2, hr⟩)

/-- A queue that is found empty has no buffer. -/
lemma popNone_not_receivable {queue : VringQueue} {h : Host}
    (e : (w.mmio.queue 0).popAvail mem w.host = (.ok (none, queue), h)) :
    ¬ Receivable mem { host := h, mmio := w.mmio.setQueue 0 queue } := by
  rintro ⟨-, ptr, hp, hne⟩
  obtain ⟨ptr', hp', ⟨ev, rfl⟩, ⟨heq, -, rfl⟩ | ⟨-, -, -, ds, -, -, hc⟩⟩ := VringQueue.popAvail_ok e
  · dsimp only [VirtioMmio.setQueue] at hp hne
    rw [Function.update_self] at hp hne
    cases hp.symm.trans hp'
    exact hne heq
  · cases hc

namespace Receive

/-- Without a frame there is nothing to cover. -/
lemma Inv.init {s : Receive ι} (h : Init s) : Inv mem s := .inr fun d => absurd h.pending d.1

/-- The driver's steps keep the invariant. -/
lemma Inv.driver {owed : Bool} {s : Receive ι} (inv : Inv mem s)
    (hpending : w'.mmio.device.rxPending = s.world.mmio.device.rxPending)
    (keeps : s.owed = true → owed = true) (owes : Publishes mem s.world w' → owed = true) :
    Inv mem { s with world := w', owed := owed } := by
  rcases inv with stopped | inv
  · exact .inl stopped
  · refine .inr fun d => ?_
    rcases Deliverable.or_owed hpending owes d with h | d
    · exact .inr (.inr (.inl h))
    · rcases inv d with c | c | c | c
      · exact .inl c
      · exact .inr (.inl c)
      · exact .inr (.inr (.inl (keeps c)))
      · exact .inr (.inr (.inr c))

variable {s s' : Receive ι} {i : ι} {queues : List (Fin vringQueuesMax)}

/-- A frame that is queued comes with a kick, unless one was pending before. -/
lemma Inv.append {frame : List UInt8} (inv : Inv mem s) (at' : s.tap = .reading) :
    Inv mem
      { s with
        world := setPending (rxAppend frame s.world.mmio.device.rxPending).1 s.world
        tap := if (rxAppend frame s.world.mmio.device.rxPending).2 then .kicking
          else .reading } := by
  rcases inv with stopped | inv
  · exact .inl stopped
  · refine .inr fun ⟨hp, hr⟩ => ?_
    rcases rxAppend_covered frame s.world.mmio.device.rxPending with kicks | none | some
    · exact .inr (.inl (if_pos kicks))
    · exact absurd none hp
    · rcases inv ⟨some, hr⟩ with c | c | c | c
      · exact .inl c
      · exact absurd (at'.symm.trans c) nofun
      · exact .inr (.inr (.inl c))
      · exact .inr (.inr (.inr c))

/-- Setting the flag for the vcpu threads keeps the invariant. -/
lemma Inv.kick (inv : Inv mem s) : Inv mem { s with devicesPending := true, tap := .reading } := by
  rcases inv with stopped | inv
  · exact .inl stopped
  · exact .inr fun _ => .inl rfl

/-- A vcpu that is somewhere else has not stopped. -/
lemma not_stopped {pc : Vcpu} (at' : s.vcpu i = pc) (run : pc ≠ .stopped) :
    s.vcpu i ≠ .stopped := at' ▸ run

variable [DecidableEq ι]

/-- A notification of the receive queue has the vcpu drain it; one of
another queue settles nothing. -/
lemma Inv.notify (inv : Inv mem s) (at' : s.vcpu i = .guest) :
    Inv mem { s.move i (.waiting [q]) with owed := s.owed && q != 0 } := by
  apply inv.move rfl (not_stopped at' nofun)
  by_cases hq : q = 0
  · exact .inl (hq ▸ List.mem_cons_self)
  · refine .inr ⟨⟨id, id, fun h => ?_⟩, fun d => .inr ⟨d, by rw [at']; exact id⟩⟩
    show (s.owed && q != 0) = true
    rw [h, Bool.true_and]
    exact bne_iff_ne.mpr hq

/-- The receive queue is not the one that is skipped, for a frame can be delivered to it. -/
lemma Inv.skip (inv : Inv mem s) (at' : s.vcpu i = .draining (q :: queues))
    (live : ¬ (s.world.mmio.queue q).Live) : Inv mem (s.move i (.draining queues)) := by
  refine inv.move_only s.lock (not_stopped at' nofun) fun h d => ?_
  rw [at']
  intro hm
  rcases List.mem_cons.mp hm with rfl | hm
  · exact live d.2.1
  · exact h hm

/-- The queue is not drained by entering its loop. -/
lemma Inv.enter (inv : Inv mem s) (at' : s.vcpu i = .draining (q :: queues)) :
    Inv mem (s.move i (.turn q queues .check)) := by
  refine inv.move_only s.lock (not_stopped at' nofun) fun h d => ?_
  rw [at']
  intro hm
  rcases List.mem_cons.mp hm with rfl | hm
  · exact h (.inl rfl)
  · exact h (.inr hm)

/-- The loop is left for the receive queue only when no frame is pending. -/
lemma Inv.check (inv : Inv mem s) (at' : s.vcpu i = .turn q queues .check) :
    Inv mem (s.move i (if VirtioDevice.canProcess s.world.mmio.device (UInt32.ofNat q)
      then .turn q queues .pop else .draining queues)) := by
  refine inv.move_only s.lock (not_stopped at' nofun) fun h d => ?_
  rw [at']
  intro hm
  split at h
  · exact h hm
  · next can =>
    rcases hm with rfl | hm
    · exact d.1 (canProcess_rx (Bool.eq_false_iff.mpr can))
    · exact h hm

/-- A chain of another queue settles nothing. -/
lemma Inv.pop {queue : VringQueue} {chain : DescChain} {h : Host} (inv : Inv mem s)
    (at' : s.vcpu i = .turn q queues .pop)
    (e : (s.world.mmio.queue q).popAvail mem s.world.host = (.ok (some chain, queue), h)) :
    Inv mem { s.move i (.turn q queues (.process chain)) with
      world := { host := h, mmio := s.world.mmio.setQueue q queue } } := by
  apply inv.move rfl (not_stopped at' nofun)
  by_cases hm : q = 0 ∨ 0 ∈ queues
  · exact .inl hm
  · refine .inr ⟨⟨id, id, id⟩, fun d => .inr ⟨?_, by rw [at']; exact hm⟩⟩
    obtain ⟨ptr, -, ⟨ev, rfl⟩, -⟩ := VringQueue.popAvail_ok e
    exact Deliverable.of_other d rfl (setQueue_other (not_or.mp hm).1 queue) rfl

/-- If the receive queue is the one found empty, nothing can be delivered. -/
lemma Inv.popNone {queue : VringQueue} {h : Host} (inv : Inv mem s)
    (at' : s.vcpu i = .turn q queues .pop)
    (e : (s.world.mmio.queue q).popAvail mem s.world.host = (.ok (none, queue), h)) :
    Inv mem { s.move i (.draining queues) with
      world := { host := h, mmio := s.world.mmio.setQueue q queue } } := by
  apply inv.move rfl (not_stopped at' nofun)
  by_cases hm : 0 ∈ queues
  · exact .inl hm
  · refine .inr ⟨⟨id, id, id⟩, fun d => .inr ?_⟩
    have hq : q ≠ 0 := by
      rintro rfl
      exact popNone_not_receivable e d.2
    obtain ⟨ptr, -, ⟨ev, rfl⟩, -⟩ := VringQueue.popAvail_ok e
    refine ⟨Deliverable.of_other d rfl (setQueue_other hq queue) rfl, ?_⟩
    rw [at']
    exact fun h => h.elim hq hm

/-- Processing a chain of another queue settles nothing. -/
lemma Inv.process {chain : DescChain} {len : UInt32} {w' : World VirtioNet} (inv : Inv mem s)
    (at' : s.vcpu i = .turn q queues (.process chain))
    (e : onDevice (VirtioDevice.process (UInt32.ofNat q) chain) s.world = (.ok len, w')) :
    Inv mem { s.move i (.turn q queues (.push chain len)) with world := w' } := by
  apply inv.move rfl (not_stopped at' nofun)
  by_cases hm : q = 0 ∨ 0 ∈ queues
  · exact .inl hm
  · refine .inr ⟨⟨id, id, id⟩, fun d => .inr ⟨?_, by rw [at']; exact hm⟩⟩
    obtain ⟨process, m⟩ := onDevice_ok e
    obtain ⟨host, pending⟩ := process_other (queueIndex_ne (not_or.mp hm).1) process
    exact Deliverable.of_other d (congrArg Host.mem host) (by rw [m]) pending

/-- Handing back a chain of another queue makes a frame deliverable only if the
driver owes a notification. -/
lemma Inv.push {chain : DescChain} {len : UInt32} {w₁ w' : World VirtioNet} {owed : Bool}
    (inv : Inv mem s) (at' : s.vcpu i = .turn q queues (.push chain len))
    (e : onHost ((s.world.mmio.queue q).pushUsed mem chain.head len) s.world = (.ok (), w₁))
    (e' : announce w₁ = (.ok (), w')) (keeps : s.owed = true → owed = true)
    (owes : q ≠ 0 → Publishes mem s.world w' → owed = true) :
    Inv mem { s.move i (.turn q queues .check) with world := w', owed := owed } := by
  apply inv.move rfl (not_stopped at' nofun)
  by_cases hm : q = 0 ∨ 0 ∈ queues
  · exact .inl hm
  · refine .inr ⟨⟨id, id, keeps⟩, fun d => ?_⟩
    have pending : w'.mmio.device.rxPending = s.world.mmio.device.rxPending := by
      rw [(announce_ok e').2.2, (onHost_ok e).2]
    rcases Deliverable.or_owed pending (owes (not_or.mp hm).1) d with h | d
    · exact .inl h
    · exact .inr ⟨d, by rw [at']; exact hm⟩

/-- Every step keeps the invariant. -/
lemma Inv.step (inv : Inv mem s) (st : Step mem s s') : Inv mem s' := by
  cases st with
  | append frame at' => exact inv.append at'
  | kick at' => exact inv.kick
  | swap i at' set => exact inv.move rfl (not_stopped at' nofun) (.inl List.mem_cons_self)
  | notify i exit at' reg idx => exact inv.notify at'
  | lock i at' free => exact inv.move_only _ (not_stopped at' nofun) fun h _ => by rwa [at']
  | unlock i at' =>
    refine inv.move_only _ (not_stopped at' nofun) fun _ _ => ?_
    rw [at']
    exact List.not_mem_nil
  | skip i at' live => exact inv.skip at' live
  | enter i at' live => exact inv.enter at'
  | check i at' => exact inv.check at'
  | pop i at' e => exact inv.pop at' e
  | popNone i at' e => exact inv.popNone at' e
  | process i at' e => exact inv.process at' e
  | push i at' e e' keeps owes => exact inv.push at' e e' keeps owes
  | access i at' free other e keeps owes =>
    exact inv.driver (congrArg VirtioNet.rxPending (handle_device other e)) keeps owes
  | memory m keeps owes => exact inv.driver rfl keeps owes
  | stop i w' lock => exact .inl ⟨i, Function.update_self ..⟩

/-! ## Calls are steps

A vcpu that drains a queue undisturbed does what `queueNotify` does. -/

/-- The state `s` with vcpu `i` at `pc` and the world `w`. -/
def place (i : ι) (pc : Vcpu) (w : World VirtioNet) (owed : Bool) (s : Receive ι) : Receive ι :=
  { s.move i pc with world := w, owed := owed }

variable {owed : Bool}

/-- A vcpu that is placed goes on. -/
lemma place_move (i : ι) (pc pc' : Vcpu) (w : World VirtioNet) (owed : Bool) (s : Receive ι) :
    (s.place i pc w owed).move i pc' = s.place i pc' w owed := by
  simp only [place, move, Function.update_idem]

/-- The vcpu is where it was placed. -/
lemma place_vcpu (i : ι) (pc : Vcpu) (w : World VirtioNet) (owed : Bool) (s : Receive ι) :
    (s.place i pc w owed).vcpu i = pc := Function.update_self ..

/-- The loop looks whether the device can go on. -/
lemma check_step (mem : GuestMemory) (i : ι) (q : Fin vringQueuesMax)
    (queues : List (Fin vringQueuesMax)) (w : World VirtioNet) (owed : Bool) (s : Receive ι) :
    Step mem (s.place i (.turn q queues .check) w owed)
      (s.place i (if VirtioDevice.canProcess w.mmio.device (UInt32.ofNat q) then .turn q queues .pop
        else .draining queues) w owed) := by
  have st : Step mem (s.place i (.turn q queues .check) w owed) _ := .check i (place_vcpu ..)
  rwa [place_move] at st

/-- A turn that handles a chain is the four pieces. -/
lemma handles_runs (s : Receive ι) (owed : Bool) {chain : DescChain} {len : UInt32}
    (t : Handles mem q w chain len w')
    (can : VirtioDevice.canProcess w.mmio.device (UInt32.ofNat q) = true) :
    Relation.ReflTransGen (Step mem) (s.place i (.turn q queues .check) w owed)
      (s.place i (.turn q queues .check) w' true) := by
  have check := check_step mem i q queues w owed s
  rw [if_pos can] at check
  have pop := Step.pop i (place_vcpu i (.turn q queues .pop) w owed s) t.pop
  rw [place_move] at pop
  set w₁ : World VirtioNet := ⟨t.taken, w.mmio.setQueue q t.queue⟩
  have process : Step mem (s.place i (.turn q queues (.process chain)) w₁ owed) _ :=
    .process i (place_vcpu ..) (onDevice_run t.process)
  rw [place_move] at process
  set w₂ : World VirtioNet :=
    ⟨t.processed.1, { w₁.mmio with device := t.processed.2 }⟩
  have hqueue : w₂.mmio.queue q = t.queue := Function.update_self ..
  have hpush : onHost ((w₂.mmio.queue q).pushUsed mem chain.head len) w₂ =
      (.ok (), { w₂ with host := t.pushed }) := by
    rw [hqueue]
    exact onHost_run t.push
  have hannounce : announce { w₂ with host := t.pushed } = (.ok (), w') := by
    rw [announce_run t.irq]
    exact congrArg (fun m => (Outcome.ok (), World.mk w'.host m)) t.mmio.symm
  have push : Step mem (s.place i (.turn q queues (.push chain len)) w₂ owed) _ :=
    .push i (place_vcpu ..) hpush hannounce (fun _ => (rfl : true = true)) fun _ _ => rfl
  rw [place_move] at push
  exact .head check (.head pop (.head process (.single push)))

/-- A notification that returns `Ok` is a run of the system. -/
lemma queueNotify_runs (s : Receive ι) (owed : Bool) {fuel : Nat} {queueIdx : UInt32}
    (hq : VirtioMmio.queueIndex queueIdx = some q)
    (e : queueNotify fuel queueIdx mem w = (.ok (), w')) :
    ∃ owed', Relation.ReflTransGen (Step mem) (s.place i (.draining (q :: queues)) w owed)
      (s.place i (.draining queues) w' owed') := by
  rw [queueNotify_some hq] at e
  by_cases h0 : (w.mmio.queue q).ready = 0 ∨ (w.mmio.queue q).num = 0
  · rw [if_pos h0] at e
    cases e
    have live : ¬ (w.mmio.queue q).Live := fun h => h0.elim h.1 h.2
    have skip : Step mem (s.place i (.draining (q :: queues)) w owed) _ :=
      .skip i (place_vcpu ..) live
    rw [place_move] at skip
    exact ⟨owed, .single skip⟩
  · rw [if_neg h0] at e
    obtain ⟨w₁, it, e1⟩ := Eff.loop_ok e
    have enter : Step mem (s.place i (.draining (q :: queues)) w owed) _ :=
      .enter i (place_vcpu ..) (not_or.mp h0)
    rw [place_move] at enter
    -- the run begins where the queue's turn does, which the induction is on
    suffices h : ∃ owed',
      Relation.ReflTransGen (Step mem) (s.place i (.turn q queues .check) w owed)
        (s.place i (.draining queues) w' owed') by
      obtain ⟨owed', run⟩ := h
      exact ⟨owed', .head enter run⟩
    clear enter e h0
    -- each turn that goes on has handled a chain, so that an interrupt is owed
    induction it generalizing owed with
    | @refl w =>
      have check := check_step mem i q queues w owed s
      obtain ⟨-, can, rfl⟩ | ⟨-, can, m, pop⟩ | ⟨h, -⟩ := notifyTurn_ok e1
      · rw [if_neg (Bool.eq_false_iff.mp can)] at check
        exact ⟨owed, .single check⟩
      · rw [if_pos can] at check
        have none := Step.popNone i (place_vcpu i (.turn q queues .pop) w owed s) pop
        rw [place_move] at none
        refine ⟨owed, .head check (.single ?_)⟩
        have hw : w' = ⟨w'.host, w.mmio.setQueue q (w.mmio.queue q)⟩ := by
          rw [VirtioMmio.setQueue, Function.update_eq_self, ← m]
        rw [hw]
        exact none
      · cases h
    | step e2 it ih =>
      obtain ⟨h, -⟩ | ⟨h, -⟩ | ⟨-, can, chain, len, ⟨t⟩⟩ := notifyTurn_ok e2
      · cases h
      · cases h
      · obtain ⟨owed', run⟩ := ih true e1
        exact ⟨owed', (handles_runs s owed t can).trans run⟩

end Receive

/-! ## The result -/

/-- While the vcpus run the guest, no kick is pending or to come and no notification is outstanding,
    no frame is pending that could be delivered. -/
theorem receive_never_stalls [DecidableEq ι] {s : Receive ι}
    (h : Reach Receive.Init (Receive.Step mem) s) (guest : ∀ i, s.vcpu i = .guest)
    (clear : s.devicesPending = false) (tap : s.tap = .reading) (notified : s.owed = false) :
    ¬ Deliverable mem s.world := by
  intro d
  have inv := h.invariant (fun _ start => Receive.Inv.init start) fun _ _ inv st => inv.step st
  rcases inv with ⟨i, stopped⟩ | inv
  · exact absurd ((guest i).symm.trans stopped) nofun
  · rcases inv d with c | c | c | ⟨i, c⟩
    · exact absurd (clear.symm.trans c) nofun
    · exact absurd (tap.symm.trans c) nofun
    · exact absurd (notified.symm.trans c) nofun
    · rw [guest i] at c
      exact c

namespace Receive

/-- A receive queue with no buffer in it. -/
def dryWorld (pending : List (List UInt8)) : World VirtioNet where
  host := .release fun _ => 0
  mmio := VirtioMmio.setQueue 0 (transmitQueue 0x400)
    (.new { tap := { sent := [], writeFails := [] }, rxPending := pending } 5)

/-- One vcpu, in the guest. -/
def dry : Receive Unit where
  world := dryWorld []
  devicesPending := false
  tap := .reading
  vcpu _ := .guest
  lock := none
  owed := false

/-- A frame has come, the vcpu was kicked for it, and found no buffer. -/
def dryPolled : Receive Unit :=
  let w := dryWorld [[1]]
  let pop := (w.mmio.queue 0).popAvail onePage w.host
  { dry.move () .guest with world := { host := pop.2, mmio := w.mmio.setQueue 0 (w.mmio.queue 0) } }

end Receive

/-- The frame stays pending and is not lost: there is no buffer for it. -/
theorem dry_not_deliverable : Receive.dryPolled.world.mmio.device.rxPending = [[1]] ∧
    ¬ Deliverable onePage Receive.dryPolled.world := by
  have start : Reach Receive.Init (Receive.Step onePage) Receive.dry :=
    .init ⟨rfl, fun _ => rfl, rfl⟩
  have kicked := (start.step (.append [1] rfl)).step (.kick rfl)
  have polling := (kicked.step (.swap () rfl rfl)).step (.lock () rfl rfl)
  have popping := (polling.step (.enter () rfl ⟨by decide, by decide⟩)).step (.check () rfl)
  have popped := popping.step (.popNone () rfl rfl)
  have polled := (popped.step (.skip () rfl (fun h => h.1 rfl))).step (.unlock () rfl)
  have reached : Reach Receive.Init (Receive.Step onePage) Receive.dryPolled := polled
  exact ⟨rfl, receive_never_stalls reached (fun _ => rfl) rfl rfl rfl⟩

end Hearth
