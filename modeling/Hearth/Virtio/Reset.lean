import Hearth.Virtio.Admission
import Hearth.Virtio.Completion

/-!
# Writing 0 to `STATUS`

The transport has no reset: a write to `STATUS` stores the value, and whatever the registers and the
queues held before they hold after it. A driver that starts over on such a device finds its
interrupt and its queues as they were. What it submits on new rings is processed in order from the
first slot on if the queues it sets up have not given up a chain since the device was created.
-/

namespace Hearth
open Lib

variable {D : Type} {mem : GuestMemory} {w w' : World D}

/-- A value is read from its bytes. -/
lemma readLe32_toLE (val : UInt32) (rest : List UInt8) :
    readLe32 (toLE 4 val.toNat ++ rest) = val := by
  have hlt : val.toNat < 256 ^ 4 := val.toNat_lt
  rw [readLe32, List.take_left' (toLE_length 4 _), ofLE_toLE, Nat.mod_eq_of_lt hlt,
    UInt32.ofNat_toNat]

/-- The value of a write is read from its data. -/
@[simp] lemma readLe32_write (offset : UInt64) (val : UInt32) :
    readLe32 (Mmio.write offset val).data = val :=
  readLe32_toLE val _

/-- A value that was put into the data is read from it. -/
@[simp] lemma readLe32_writeLe32 (data : List UInt8) (val : UInt32) :
    readLe32 (writeLe32 data val) = val :=
  readLe32_toLE val _

/-- What a driver tells the device about a queue; addresses come in two halves. -/
structure QueueSetup where
  num : UInt32
  descLow : UInt32
  descHigh : UInt32
  availLow : UInt32
  availHigh : UInt32
  usedLow : UInt32
  usedHigh : UInt32

/-- The register writes that set up queue `q`. -/
def QueueSetup.writes (q : Fin vringQueuesMax) (s : QueueSetup) : List (UInt64 × UInt32) :=
  [(0x030, UInt32.ofNat q), (0x038, s.num), (0x080, s.descLow), (0x084, s.descHigh),
    (0x090, s.availLow), (0x094, s.availHigh), (0x0a0, s.usedLow), (0x0a4, s.usedHigh), (0x044, 1)]

/-- A queue as it is set up; the device's own index stays. -/
def QueueSetup.queue (s : QueueSetup) (old : VringQueue) : VringQueue where
  ready := 1
  num := s.num
  lastAvailIdx := old.lastAvailIdx
  desc := s.descLow.toUInt64 ||| s.descHigh.toUInt64 <<< 32
  avail := s.availLow.toUInt64 ||| s.availHigh.toUInt64 <<< 32
  used := s.usedLow.toUInt64 ||| s.usedHigh.toUInt64 <<< 32

namespace VirtioMmio

variable (self : VirtioMmio D) (q : Fin vringQueuesMax)

/-- The queue is set. -/
@[simp] lemma setQueue_queue (queue : VringQueue) : (self.setQueue q queue).queue q = queue :=
  Function.update_self ..

/-- The selected queue is not. -/
@[simp] lemma setQueue_currQueue (queue : VringQueue) :
    (self.setQueue q queue).currQueue = self.currQueue := rfl

/-- The last setting counts. -/
@[simp] lemma setQueue_setQueue (queue queue' : VringQueue) :
    (self.setQueue q queue).setQueue q queue' = self.setQueue q queue' := by
  unfold setQueue
  rw [Function.update_idem]

/-- A register of the selected queue is one of that queue. -/
lemma onSelectedQueue_eq (self : VirtioMmio D) {q : Fin vringQueuesMax}
    (h : self.currQueue = UInt32.ofNat q) (f : VringQueue → VringQueue) :
    self.onSelectedQueue f = self.setQueue q (f (self.queue q)) := by
  unfold onSelectedQueue
  rw [h, Rings.Inv.queueIndex_ofNat]

end VirtioMmio

/-- The transport once queue `q` is set up. -/
def QueueSetup.install (q : Fin vringQueuesMax) (s : QueueSetup) (self : VirtioMmio D) :
    VirtioMmio D :=
  ({ self with currQueue := UInt32.ofNat q } : VirtioMmio D).setQueue q (s.queue (self.queue q))

section Access

variable [VirtioDevice D]

/-- The accesses one after the other, up to the first that fails. -/
def runAccesses (fuel : Nat) (mem : GuestMemory) : List Mmio → WorldM D Unit
  | [] => pure ()
  | exit :: exits => do
    let _ ← handle fuel exit mem
    runAccesses fuel mem exits

/-- Any other access does what its register does, and goes well. -/
lemma handle_run (mem : GuestMemory) (exit : Mmio) (notify : exit.reg ≠ .writeQueueNotify)
    (ack : exit.reg ≠ .writeInterruptAck) (fuel : Nat) (w : World D) :
    ∃ data, handle fuel exit mem w =
      (.ok data, { w with mmio := exit.reg.effect (readLe32 exit.data) w.mmio }) :=
  access_run notify ack fuel mem _ exit.data w

/-- Accesses that neither notify nor acknowledge add up their effects. -/
lemma runAccesses_run {exits : List Mmio} (fuel : Nat)
    (plain : ∀ exit ∈ exits, exit.reg ≠ .writeQueueNotify ∧ exit.reg ≠ .writeInterruptAck)
    (w : World D) : runAccesses fuel mem exits w = (.ok (), { w with
      mmio := exits.foldl (fun self exit => exit.reg.effect (readLe32 exit.data) self)
        w.mmio }) := by
  induction exits generalizing w with
  | nil => rfl
  | cons exit exits ih =>
    obtain ⟨notify, ack⟩ := plain exit List.mem_cons_self
    obtain ⟨data, e⟩ := handle_run mem exit notify ack fuel w
    rw [runAccesses, Eff.bind_of_ok e, ih fun exit h => plain exit (List.mem_cons_of_mem _ h)]
    rfl

omit [VirtioDevice D] in
/-- The register of a write. -/
lemma write_reg (offset : UInt64) (val : UInt32) :
    (Mmio.write offset val).reg = Reg.decodeWrite (offset &&& 0xfff).toUInt32 := rfl

/-- The registers of the writes that set up a queue. -/
lemma setup_regs :
    Reg.decodeWrite ((0x030 : UInt64) &&& 0xfff).toUInt32 = .writeQueueSel ∧
    Reg.decodeWrite ((0x038 : UInt64) &&& 0xfff).toUInt32 = .writeQueueNum ∧
    Reg.decodeWrite ((0x080 : UInt64) &&& 0xfff).toUInt32 = .writeQueueDescLow ∧
    Reg.decodeWrite ((0x084 : UInt64) &&& 0xfff).toUInt32 = .writeQueueDescHigh ∧
    Reg.decodeWrite ((0x090 : UInt64) &&& 0xfff).toUInt32 = .writeQueueAvailLow ∧
    Reg.decodeWrite ((0x094 : UInt64) &&& 0xfff).toUInt32 = .writeQueueAvailHigh ∧
    Reg.decodeWrite ((0x0a0 : UInt64) &&& 0xfff).toUInt32 = .writeQueueUsedLow ∧
    Reg.decodeWrite ((0x0a4 : UInt64) &&& 0xfff).toUInt32 = .writeQueueUsedHigh ∧
    Reg.decodeWrite ((0x044 : UInt64) &&& 0xfff).toUInt32 = .writeQueueReady := by
  refine ⟨?_, ?_, ?_, ?_, ?_, ?_, ?_, ?_, ?_⟩ <;> decide

omit [VirtioDevice D] in
/-- The effect of the writes that set up a queue. -/
lemma setup_effect (q : Fin vringQueuesMax) (s : QueueSetup) (self : VirtioMmio D) :
    ((s.writes q).map fun write => Mmio.write write.1 write.2).foldl
        (fun self exit => exit.reg.effect (readLe32 exit.data) self) self =
      s.install q self := by
  obtain ⟨sel, num, descLow, descHigh, availLow, availHigh, usedLow, usedHigh, ready⟩ := setup_regs
  unfold QueueSetup.writes
  simp only [List.map_cons, List.map_nil, List.foldl_cons, List.foldl_nil,
    readLe32_write, write_reg,
    sel, num, descLow, descHigh, availLow, availHigh, usedLow, usedHigh, ready]
  unfold Reg.effect
  dsimp only
  have selected : ∀ queue f, (({ self with currQueue := UInt32.ofNat q } :
      VirtioMmio D).setQueue q queue).onSelectedQueue f =
        ({ self with currQueue := UInt32.ofNat q } : VirtioMmio D).setQueue q (f queue) := by
    intro queue f
    rw [VirtioMmio.onSelectedQueue_eq _ rfl, VirtioMmio.setQueue_queue,
      VirtioMmio.setQueue_setQueue]
  rw [VirtioMmio.onSelectedQueue_eq { self with currQueue := UInt32.ofNat q } rfl]
  simp only [selected]
  rfl

/-- Setting up a queue leaves everything else, and the device's index, as it was. -/
lemma setup_run (fuel : Nat) (q : Fin vringQueuesMax) (s : QueueSetup) (w : World D) :
    runAccesses fuel mem ((s.writes q).map fun write => Mmio.write write.1 write.2) w =
      (.ok (), { w with mmio := s.install q w.mmio }) := by
  rw [runAccesses_run, setup_effect]
  obtain ⟨sel, num, descLow, descHigh, availLow, availHigh, usedLow, usedHigh, ready⟩ := setup_regs
  unfold QueueSetup.writes
  simp only [List.map_cons, List.map_nil, List.forall_mem_cons, write_reg, sel, num,
    descLow, descHigh, availLow, availHigh, usedLow, usedHigh, ready]
  simp

/-- `QUEUE_READY` reads the flag of the selected queue. -/
lemma readQueueReady_run {fuel : Nat} {q : Fin vringQueuesMax} {w : World D}
    (selected : w.mmio.currQueue = UInt32.ofNat q) : handle fuel (.read 0x044) mem w =
      (.ok (writeLe32 (List.replicate 8 0) (w.mmio.queue q).ready), w) := by
  have reg : (Mmio.read 0x044).reg = .readQueueReady := by decide
  change access fuel mem 0x044 (Mmio.read 0x044).data (Mmio.read 0x044).reg w = _
  rw [reg, access, Eff.gets_bind_run]
  dsimp only
  rw [selected, Rings.Inv.queueIndex_ofNat]
  rfl

/-- Setting up one queue after the other. -/
def setUpAll (setups : List (Fin vringQueuesMax × QueueSetup)) (self : VirtioMmio D) :
    VirtioMmio D :=
  setups.foldl (fun self s => s.2.install s.1 self) self

/-- The accesses that set up these queues. -/
def setupAccesses (setups : List (Fin vringQueuesMax × QueueSetup)) : List Mmio :=
  setups.flatMap fun s => (s.2.writes s.1).map fun write => Mmio.write write.1 write.2

/-- Accesses followed by accesses. -/
lemma runAccesses_append (fuel : Nat) (exits exits' : List Mmio) (w : World D)
    (e : runAccesses fuel mem exits w = (.ok (), w')) :
    runAccesses fuel mem (exits ++ exits') w = runAccesses fuel mem exits' w' := by
  induction exits generalizing w with
  | nil =>
    cases e
    rfl
  | cons exit exits ih =>
    obtain ⟨data, w₁, e₁, e₂⟩ := Eff.bind_ok_iff.mp e
    rw [List.cons_append, runAccesses, Eff.bind_of_ok e₁]
    exact ih w₁ e₂

/-- The accesses of a set-up set the queues up. -/
lemma setupAccesses_run (fuel : Nat) (setups : List (Fin vringQueuesMax × QueueSetup))
    (w : World D) : runAccesses fuel mem (setupAccesses setups) w =
      (.ok (), { w with mmio := setUpAll setups w.mmio }) := by
  induction setups generalizing w with
  | nil => rfl
  | cons s setups ih =>
    rw [setupAccesses, List.flatMap_cons, runAccesses_append fuel _ _ w (setup_run fuel s.1 s.2 w)]
    exact ih _

end Access

/-! ## Starting over -/

/-- A set-up leaves the device's index alone. -/
lemma install_last (q q' : Fin vringQueuesMax) (s : QueueSetup) (self : VirtioMmio D) :
    ((s.install q self).queue q').lastAvailIdx = (self.queue q').lastAvailIdx := by
  show (Function.update self.queue q (s.queue (self.queue q)) q').lastAvailIdx = _
  by_cases h : q' = q
  · rw [h, Function.update_self]
    rfl
  · rw [Function.update_of_ne h]

/-- No set-up moves the device's own index. -/
lemma setUpAll_last (setups : List (Fin vringQueuesMax × QueueSetup)) (self : VirtioMmio D)
    (q : Fin vringQueuesMax) :
    ((setUpAll setups self).queue q).lastAvailIdx = (self.queue q).lastAvailIdx := by
  induction setups generalizing self with
  | nil => rfl
  | cons s setups ih => exact (ih _).trans (install_last s.1 q s.2 self)

/-- The new driver's start: memory as it left it, nothing submitted, and a new log of events. -/
def Rings.restart (w : World D) (m : Mem) : Rings D where
  world := { w with host := { w.host with mem := m, events := [] } }
  heads := fun _ => []

section Restart

variable [ConfinedDevice D] {queue : Fin vringQueuesMax → VringQueue}

/-- The chains completed on queue `q` are the first of those submitted, in order and each once;
after a notification the device could go on with, all of them. -/
def Rings.InOrder (L : RingLayout mem queue) (s : Rings D) (q : Fin vringQueuesMax) : Prop :=
  (∃ done, done.map Prod.fst <+: s.heads q ∧ L.UsedRing q done s.world.host) ∧
    ∀ fuel w', queueNotify fuel (UInt32.ofNat q) mem s.world = (.ok (), w') →
      VirtioDevice.canProcess w'.mmio.device (UInt32.ofNat q) = true →
        ∃ done, done.map Prod.fst = s.heads q ∧ L.UsedRing q done w'.host

/-- Queues whose own index is 0 start over with empty rings as new ones do. -/
lemma restart_inOrder {w : World D} {m : Mem} (L : RingLayout mem w.mmio.queue)
    (rings : ∀ q, (w.mmio.queue q).Live →
      (w.mmio.queue q).lastAvailIdx = 0 ∧ L.availIdx q m = 0 ∧ L.usedIdx q m = 0)
    {s : Rings D} (h : Reach (· = Rings.restart w m) (Rings.Step L) s) {q : Fin vringQueuesMax}
    (live : (w.mmio.queue q).Live) : s.InOrder L q := by
  have start : Rings.Inv L (Rings.restart w m) :=
    Rings.Inv.init ⟨rfl, fun q live => (rings q live).1, fun q live => (rings q live).2.1,
      fun q live => (rings q live).2.2, rfl, fun _ => rfl⟩
  have I : Rings.Inv L s := by
    apply Reach.invariant _ _ h
    · rintro s rfl
      exact start
    · exact fun _ _ I st => I.step st
  exact I.completed live

/-- A queue with another index does not take an empty ring for empty. -/
lemma popAvail_ne_none {self queue : VringQueue} {h h' : Host} {ptr : Nat}
    (hp : gpaToHost mem self.avail self.availSize = some ptr)
    (taken : self.lastAvailIdx ≠ h.mem.load UInt16 (ptr + 2)) :
    self.popAvail mem h ≠ (.ok (none, queue), h') := by
  intro e
  obtain ⟨ptr', hp', -, ⟨heq, -⟩ | ⟨-, -, -, ds, -, -, hc⟩⟩ := VringQueue.popAvail_ok e
  · cases hp.symm.trans hp'
    exact taken heq
  · cases hc

/-- Writing 0 to `STATUS` returns, stores the 0 and changes nothing else: `INTERRUPT_STATUS` and
each `QUEUE_READY` read what they read before. Of a driver that then sets up queues with empty rings
exactly the chains it submits are processed, in order from the first slot on, if no live queue has
an index of its own; a queue that has one does not find the new ring empty. -/
theorem status_zero_is_no_reset (w : World D) (fuel : Nat) :
    let w' : World D := { w with mmio := { w.mmio with status := 0 } }
    (∃ data, handle fuel (.write 0x070 0) mem w = (.ok data, w')) ∧
      (∃ data, handle fuel (.read 0x060) mem w' = (.ok data, w') ∧
        readLe32 data = w.mmio.irqStatus) ∧
      (∀ q, ∃ data w'', (do
          let _ ← handle fuel (.write 0x030 (UInt32.ofNat q)) mem
          handle fuel (.read 0x044) mem) w' = (.ok data, w'') ∧
        readLe32 data = (w.mmio.queue q).ready) ∧
      ∀ setups, ∃ w₂, runAccesses fuel mem (setupAccesses setups) w' = (.ok (), w₂) ∧
        ∀ (L : RingLayout mem w₂.mmio.queue) (m : Mem),
          (∀ q, (w₂.mmio.queue q).Live → L.availIdx q m = 0 ∧ L.usedIdx q m = 0) →
            ((∀ q, (w₂.mmio.queue q).Live → (w.mmio.queue q).lastAvailIdx = 0) →
              ∀ s, Reach (· = Rings.restart w₂ m) (Rings.Step L) s →
                ∀ q, (w₂.mmio.queue q).Live → s.InOrder L q) ∧
            ∀ q, (w₂.mmio.queue q).Live → (w.mmio.queue q).lastAvailIdx ≠ 0 → ∀ queue h,
              (w₂.mmio.queue q).popAvail mem (Rings.restart w₂ m).world.host ≠
                (.ok (none, queue), h) := by
  intro w'
  refine ⟨?_, ?_, ?_, ?_⟩
  · have e := handle_run mem (.write 0x070 0) (by decide) (by decide) fuel w
    rwa [readLe32_write] at e
  · exact ⟨_, rfl, readLe32_writeLe32 _ _⟩
  · intro q
    obtain ⟨data, e⟩ := handle_run mem (.write 0x030 (UInt32.ofNat q))
      (by rw [write_reg, setup_regs.1]; decide) (by rw [write_reg, setup_regs.1]; decide) fuel w'
    rw [readLe32_write, write_reg, setup_regs.1] at e
    exact ⟨_, _, (Eff.bind_of_ok e).trans (readQueueReady_run rfl), readLe32_writeLe32 _ _⟩
  · intro setups
    refine ⟨_, setupAccesses_run fuel setups w', fun L m rings => ⟨?_, ?_⟩⟩
    · intro untouched s h q live
      refine restart_inOrder L (fun q live => ?_) h live
      refine ⟨?_, rings q live⟩
      rw [← untouched q live]
      exact setUpAll_last setups w'.mmio q
    · intro q live taken queue h
      apply popAvail_ne_none (L.avail q live)
      intro e
      apply taken
      rw [← setUpAll_last setups w'.mmio q]
      exact e.trans (rings q live).1

end Restart

/-- `pairQueue` as a driver sets it up. -/
def pairSetup : QueueSetup := ⟨2, 0x200, 0, 0x100, 0, 0x400, 0⟩

/-- A device whose second queue has taken this many chains. -/
def pairAfter (last : UInt16) : World VirtioNet where
  host := .release fun _ => 0
  mmio := VirtioMmio.setQueue 1 { VringQueue.new with lastAvailIdx := last }
    (.new { tap := { sent := [], writeFails := [] }, rxPending := [] } 5)

/-- The same once 0 is written to its `STATUS` and the queue is set up. -/
def pairSetUp (last : UInt16) : World VirtioNet :=
  { pairAfter last with
    mmio := setUpAll [(1, pairSetup)] { (pairAfter last).mmio with status := 0 } }

/-- The two queues of the example. -/
lemma pairSetUp_queue (last : UInt16) : (pairSetUp last).mmio.queue = transmitQueues last := by
  have installed : (pairSetUp last).mmio.queue = Function.update
      (Function.update (fun _ => VringQueue.new) 1 { VringQueue.new with lastAvailIdx := last }) 1
      (pairSetup.queue { VringQueue.new with lastAvailIdx := last }) := rfl
  have same : pairSetup.queue { VringQueue.new with lastAvailIdx := last } =
    { pairQueue with lastAvailIdx := last } :=
    rfl
  rw [installed, Function.update_idem, same]
  rfl

/-- The driver submits both chains on a device that has taken none from that queue: they are
completed in order. On one that has taken two the queue does not find the new ring empty. -/
theorem status_zero_set_up :
    (∃ s done, Reach (· = Rings.restart (pairSetUp 0) (twoBuffers 0))
      (Rings.Step (transmitLayout 0)) s ∧
      done.map Prod.fst = [1, 0] ∧
      (transmitLayout 0).UsedRing 1 done (queueNotify 3 1 onePage s.world).2.host) ∧
    ∀ queue h, (transmitQueues 2 1).popAvail onePage
      (Rings.restart (pairSetUp 2) (twoBuffers 0)).world.host ≠
      (.ok (none, queue), h) := by
  -- the theorem at the one queue that is set up again, whatever its index was before
  have again (last : UInt16) (queue : Fin vringQueuesMax →
    VringQueue) (same : (pairSetUp last).mmio.queue = queue)
      (L : RingLayout onePage queue) (m : Mem)
      (empty : ∀ q, (queue q).Live → L.availIdx q m = 0 ∧ L.usedIdx q m = 0) :
      ((∀ q, (queue q).Live → ((pairAfter last).mmio.queue q).lastAvailIdx = 0) →
        ∀ s, Reach (· = Rings.restart (pairSetUp last) m) (Rings.Step L) s →
          ∀ q, (queue q).Live → s.InOrder L q) ∧
      ∀ q, (queue q).Live → ((pairAfter last).mmio.queue q).lastAvailIdx ≠ 0 → ∀ queue' h,
        (queue q).popAvail onePage (Rings.restart (pairSetUp last) m).world.host ≠
          (.ok (none, queue'), h) := by
    cases same
    obtain ⟨-, -, -, later⟩ := @status_zero_is_no_reset VirtioNet onePage _ (pairAfter last) 1
    obtain ⟨w₂, run, after⟩ := later [(1, pairSetup)]
    cases run.symm.trans (setupAccesses_run ..)
    exact after L m empty
  have live (last : UInt16) : (transmitQueues last 1).Live :=
    ⟨(by decide : (1 : UInt32) ≠ 0), (by decide : (2 : UInt32) ≠ 0)⟩
  have empty (last : UInt16) (q : Fin vringQueuesMax) (live : (transmitQueues last q).Live) :
      (transmitLayout last).availIdx q (twoBuffers 0) = 0 ∧
        (transmitLayout last).usedIdx q (twoBuffers 0) = 0 := by
    cases transmitQueues_live q live
    exact ⟨(by decide : (twoBuffers 0).load UInt16 0x1102 = 0),
      (by decide : (twoBuffers 0).load UInt16 0x1402 = 0)⟩
  constructor
  · have inOrder := (again 0 _ (pairSetUp_queue 0) (transmitLayout 0) (twoBuffers 0) (empty 0)).1
    have untouched (q : Fin vringQueuesMax) (live : (transmitQueues 0 q).Live) :
        ((pairAfter 0).mmio.queue q).lastAvailIdx = 0 := by
      cases transmitQueues_live q live
      rfl
    let s₀ : Rings VirtioNet := Rings.restart (pairSetUp 0) (twoBuffers 0)
    let s₁ := Transmit.submit 1 0 (Transmit.submit 0 1 s₀)
    have first : Rings.Step (transmitLayout 0) s₀ (Transmit.submit 0 1 s₀) :=
      Transmit.submit_one rfl rfl
    have second : Rings.Step (transmitLayout 0) (Transmit.submit 0 1 s₀) s₁ :=
      Transmit.submit_two rfl rfl
    have start : Reach (· = Rings.restart (pairSetUp 0) (twoBuffers 0))
      (Rings.Step (transmitLayout 0)) s₀ := .init rfl
    have reach := (start.step first).step second
    have returns : (queueNotify 3 1 onePage s₁.world).1 = .ok () := by decide +kernel
    obtain ⟨done, heads, ring⟩ :=
      (inOrder untouched s₁ reach 1 (live 0)).2 3 _ (Prod.ext returns rfl) rfl
    exact ⟨s₁, done, reach, heads, ring⟩
  -- an index of 2 makes the queue take buffers that the driver has not offered
  · have taken := (again 2 _ (pairSetUp_queue 2) (transmitLayout 2) (twoBuffers 0) (empty 2)).2
    exact taken 1 (live 2) (by decide)

/-- A queue with a chain in it is set up and notified, 0 is written to `STATUS`, and the interrupt
status and the queue's flag are read: both are still set. -/
theorem status_zero_forgets_nothing : ∃ w : World VirtioNet,
    Reach NewTransport (TransportStep onePage fun _ _ => True) w ∧
      let w' := (handle 2 (.write 0x070 0) onePage w).2
      (∃ data, handle 2 (.read 0x060) onePage w' = (.ok data, w') ∧ readLe32 data ≠ 0) ∧
        (∃ data, handle 2 (.read 0x044) onePage w' = (.ok data, w') ∧ readLe32 data ≠ 0) ∧
        (w'.mmio.queue 1).lastAvailIdx ≠ 0 := by
  have access {w : World VirtioNet}
    (h : Reach NewTransport (TransportStep onePage fun _ _ => True) w)
      (exit : Mmio) : Reach NewTransport (TransportStep onePage fun _ _ => True)
        (handle 2 exit onePage w).2 :=
    h.step (.access trivial rfl)
  have start : Reach NewTransport (TransportStep onePage fun _ _ => True) newNet :=
    .init ⟨_, _, rfl⟩
  have selected := access (access start (.write 0x030 1)) (.write 0x038 1)
  have addressed := access (access (access selected (.write 0x080 0x200)) (.write 0x090 0x100))
    (.write 0x0a0 0x400)
  have notified := access (access addressed (.write 0x044 1)) (.write 0x050 1)
  exact ⟨_, notified, ⟨_, rfl, by decide⟩, ⟨_, rfl, by decide⟩, by decide⟩

end Hearth
