import Hearth.Lib.Transition
import Hearth.Virtio.Panic

/-!
# Which queues are processed

A device advertises the size of each of its queues in `QUEUE_NUM_MAX`, 0 for a queue it does not
have. The transport stores whatever the driver writes to `QUEUE_NUM` and goes by that alone. So a
queue that is processed is one the device has, and of admissible size, as long as the driver writes
no more than was advertised; a driver that does write more gets its queue processed all the same.
-/

namespace Hearth
open Lib

variable {D : Type} {mem : GuestMemory} {q : Fin vringQueuesMax} {w w' : World D}

/-- The sizes of the queues are the same. -/
def SameNum (w w' : World D) : Prop := ∀ q, (w'.mmio.queue q).num = (w.mmio.queue q).num

/-- Doing nothing keeps the sizes. -/
lemma SameNum.refl (w : World D) : SameNum w w := fun _ => rfl

/-- What two operations keep they keep together. -/
lemma SameNum.trans {w w' w'' : World D} (h : SameNum w w') (h' : SameNum w' w'') : SameNum w w'' :=
  fun q => (h' q).trans (h q)

/-- What leaves the queues alone keeps the sizes. -/
lemma SameNum.of_queue (h : w'.mmio.queue = w.mmio.queue) : SameNum w w' := fun q => by rw [h]

/-- The size is part of the set-up. -/
lemma SameSetup.num (h : SameSetup w w') : SameNum w w' := fun q =>
  show (w'.mmio.queue q).setup.num = (w.mmio.queue q).setup.num by rw [h.queue q]

/-- A turn keeps the sizes. -/
lemma notifyTurn_sameNum [VirtioDevice D] (q : Fin vringQueuesMax) :
    Eff.Within SameNum (notifyTurn (D := D) q mem) :=
  fun w => (notifyTurn_setup q w).num

section Turn

variable [VirtioDevice D]

/-- A notification keeps the sizes. -/
lemma queueNotify_sameNum (fuel : Nat) (queueIdx : UInt32) (mem : GuestMemory) :
    Eff.Within SameNum (queueNotify (D := D) fuel queueIdx mem) :=
  fun w => (queueNotify_setup fuel queueIdx mem w).num

/-! ## What is written to `QUEUE_NUM` -/

/-- The size of every queue is admissible. -/
def Admissible (w : World D) : Prop :=
  ∀ q : Fin vringQueuesMax, (w.mmio.queue q).num ≤ VirtioDevice.queueNumMax D (UInt32.ofNat q)

/-- Whether they are admissible depends on the sizes only. -/
lemma Admissible.of_sameNum (h : Admissible w) (same : SameNum w w') : Admissible w' := by
  intro q
  rw [same q]
  exact h q

omit [VirtioDevice D] in
/-- Writes to other registers of a queue keep its size. -/
lemma onSelectedQueue_num {f : VringQueue → VringQueue} (hf : ∀ q, (f q).num = q.num)
    (self : VirtioMmio D) (q : Fin vringQueuesMax) :
    ((self.onSelectedQueue f).queue q).num = (self.queue q).num := by
  unfold VirtioMmio.onSelectedQueue
  split
  · next q' _ =>
    show (Function.update self.queue q' (f (self.queue q')) q).num = _
    by_cases h : q = q'
    · rw [h, Function.update_self, hf]
    · rw [Function.update_of_ne h]
  · rfl

omit [VirtioDevice D] in
/-- A write to any other register leaves the sizes alone. -/
lemma effect_num {reg : Reg} (other : reg ≠ .writeQueueNum) (val : UInt32) (self : VirtioMmio D)
    (q : Fin vringQueuesMax) : ((reg.effect val self).queue q).num = (self.queue q).num := by
  cases reg
  case writeQueueNum => exact absurd rfl other
  all_goals first
    | rfl
    | refine onSelectedQueue_num ?_ self q
      exact fun _ => rfl

/-- The index of a queue that is there. -/
lemma queueIndex_eq {idx : UInt32} (h : VirtioMmio.queueIndex idx = some q) :
    UInt32.ofNat q = idx := by
  unfold VirtioMmio.queueIndex at h
  split at h
  · cases h
    exact UInt32.ofNat_toNat
  · cases h

/-- A sized write keeps the sizes admissible. -/
lemma effect_admissible {val : UInt32} (h : Admissible w)
    (sized : ∀ q, VirtioMmio.queueIndex w.mmio.currQueue = some q →
      val ≤ VirtioDevice.queueNumMax D w.mmio.currQueue) :
    Admissible { w with mmio := Reg.writeQueueNum.effect val w.mmio } := by
  intro q
  show ((VirtioMmio.onSelectedQueue _ w.mmio).queue q).num ≤ _
  unfold VirtioMmio.onSelectedQueue
  cases hq : VirtioMmio.queueIndex w.mmio.currQueue with
  | none => exact h q
  | some q' =>
    show (Function.update w.mmio.queue q' _ q).num ≤ _
    by_cases hqq : q = q'
    · rw [hqq, Function.update_self, queueIndex_eq hq]
      exact sized q' hq
    · rw [Function.update_of_ne hqq]
      exact h q

/-- An access keeps them admissible if the size it writes is. -/
lemma access_admissible (fuel : Nat) (mem : GuestMemory) (addr : UInt32) {data : List UInt8}
    {reg : Reg} (h : Admissible w) (sized : reg = .writeQueueNum → ∀ q,
      VirtioMmio.queueIndex w.mmio.currQueue = some q →
        readLe32 data ≤ VirtioDevice.queueNumMax D w.mmio.currQueue) :
    Admissible (access fuel mem addr data reg w).2 := by
  by_cases notify : reg = .writeQueueNotify
  · exact h.of_sameNum (access_setup (.inl notify) fuel mem addr data w).num
  by_cases ack : reg = .writeInterruptAck
  · exact h.of_sameNum (access_setup (.inr ack) fuel mem addr data w).num
  obtain ⟨data', e⟩ := access_run notify ack fuel mem addr data w
  rw [e]
  by_cases hnum : reg = .writeQueueNum
  · subst hnum
    exact effect_admissible h (sized rfl)
  · exact h.of_sameNum fun q => effect_num hnum _ _ q

/-- The access does not write more to `QUEUE_NUM` than the device
advertises for the selected queue. -/
def Mmio.Sized (exit : Mmio) (w : World D) : Prop :=
  exit.reg = .writeQueueNum → ∀ q, VirtioMmio.queueIndex w.mmio.currQueue = some q →
    readLe32 exit.data ≤ VirtioDevice.queueNumMax D w.mmio.currQueue

/-- What happens to a transport, with register accesses of which `allowed` holds; calls that return
an error or panic leave what they leave. -/
inductive TransportStep (mem : GuestMemory) (allowed : Mmio → World D → Prop) :
    World D → World D → Prop where
  | access {w w' : World D} {fuel exit o} (ok : allowed exit w)
      (e : handle fuel exit mem w = (o, w')) :
    TransportStep mem allowed w w'
  /-- a notification from a register access, or one of the two that a poll makes -/
  | notify {w w' : World D} {fuel queueIdx o} (e : queueNotify fuel queueIdx mem w = (o, w')) :
    TransportStep mem allowed w w'
  /-- the guest runs, or something arrives at the device -/
  | other {w w' : World D} (queue : w'.mmio.queue = w.mmio.queue)
    (currQueue : w'.mmio.currQueue = w.mmio.currQueue) : TransportStep mem allowed w w'

/-- The transport of a device as it is created. -/
def NewTransport (w : World D) : Prop := ∃ device irq, w.mmio = VirtioMmio.new device irq

/-- A notification of queue `q` that starts in `w` comes to `w₁`, where it pops `chain`. -/
structure Pops (mem : GuestMemory) (q : Fin vringQueuesMax) (w w₁ : World D) (chain : DescChain) :
    Prop where
  live : (w.mmio.queue q).Live
  turns : Eff.Iter (notifyTurn q mem) w w₁
  can : VirtioDevice.canProcess w₁.mmio.device (UInt32.ofNat q) = true
  pop : ∃ queue h, (w₁.mmio.queue q).popAvail mem w₁.host = (.ok (some chain, queue), h)

/-- The chain is that of at most `n` descriptors of the queue's table. -/
def VringQueue.ChainOf (queue : VringQueue) (mem : GuestMemory) (h : Host) (n : Nat)
    (chain : DescChain) : Prop :=
  ∃ ds, queue.chainDescs mem h.mem queue.num.toNat chain.head = some ds ∧ ds.length ≤ n ∧
    chain = DescChain.addBufs mem h.mem (ds.map Prod.snd) ⟨chain.head, [], []⟩

/-- Every step keeps the sizes admissible. -/
lemma TransportStep.admissible (st : TransportStep mem Mmio.Sized w w') (h : Admissible w) :
    Admissible w' := by
  cases st with
  | @access fuel exit o sized e =>
    have after := access_admissible fuel mem (exit.physAddr &&& 0xfff).toUInt32 h sized
    change Hearth.access fuel mem _ exit.data exit.reg w = _ at e
    rwa [e] at after
  | @notify fuel queueIdx o e =>
    have same := queueNotify_sameNum fuel queueIdx mem w
    rw [e] at same
    exact h.of_sameNum same
  | other queue currQueue => exact h.of_sameNum (.of_queue queue)

/-- The sizes of a new transport are admissible. -/
lemma NewTransport.admissible (h : NewTransport w) : Admissible w := by
  obtain ⟨device, irq, h⟩ := h
  intro q
  rw [h]
  exact UInt32.zero_le

/-- The chain popped from a queue has at most as many descriptors as the queue has slots. -/
lemma Pops.chainOf {w₁ : World D} {chain : DescChain} (h : Pops mem q w w₁ chain) :
    (w₁.mmio.queue q).ChainOf mem w₁.host (w₁.mmio.queue q).num.toNat chain := by
  obtain ⟨queue, h', pop⟩ := h.pop
  obtain ⟨ptr, -, -, ⟨-, hnone, -⟩ | ⟨-, -, -, ds, hds, -, hchain⟩⟩ := VringQueue.popAvail_ok pop
  · cases hnone
  · cases hchain
    exact ⟨ds, hds, VringQueue.chainDescs_length hds, rfl⟩

/-- In every run that writes only advertised sizes to `QUEUE_NUM`, a queue that a chain is popped
from is one the device has and of admissible size, and so is the chain. -/
theorem pops_admissible (h : Reach NewTransport (TransportStep mem Mmio.Sized) w) {w₁ : World D}
    {chain : DescChain} (pops : Pops mem q w w₁ chain) :
    VirtioDevice.queueNumMax D (UInt32.ofNat q) ≠ 0 ∧
      (w₁.mmio.queue q).num ≤ VirtioDevice.queueNumMax D (UInt32.ofNat q) ∧
      (w₁.mmio.queue q).ChainOf mem w₁.host (VirtioDevice.queueNumMax D (UInt32.ofNat q)).toNat
        chain := by
  have admissible : Admissible w :=
    h.invariant (fun _ hn => hn.admissible) fun _ _ ha st => st.admissible ha
  have same : SameNum w w₁ := pops.turns.rel .refl .trans (notifyTurn_sameNum q)
  have le : (w₁.mmio.queue q).num ≤ VirtioDevice.queueNumMax D (UInt32.ofNat q) := by
    rw [same q]
    exact admissible q
  refine ⟨?_, le, ?_⟩
  · intro zero
    have hnum := admissible q
    rw [zero] at hnum
    exact pops.live.2 (UInt32.le_antisymm hnum UInt32.zero_le)
  · obtain ⟨ds, hds, hlen, hchain⟩ := pops.chainOf
    exact ⟨ds, hds, hlen.trans (UInt32.le_iff_toNat_le.mp le), hchain⟩

end Turn

/-- An empty disk in a guest whose memory holds one chain. -/
def emptyDisk : World VirtioBlk where
  host := .release oneChain
  mmio := .new noSectors 5

/-- A queue the disk does not have is set up, and a chain is popped from it. -/
theorem absentQueue_pops : ∃ w : World VirtioBlk,
    Reach NewTransport (TransportStep onePage fun _ _ => True) w ∧
      VirtioDevice.queueNumMax VirtioBlk (UInt32.ofNat 1) = 0 ∧
      ∃ w₁ chain, Pops onePage 1 w w₁ chain := by
  have start : Reach NewTransport (TransportStep onePage fun _ _ => True) emptyDisk :=
    .init ⟨_, _, rfl⟩
  have access {w : World VirtioBlk}
    (h : Reach NewTransport (TransportStep onePage fun _ _ => True) w)
      (exit : Mmio) : Reach NewTransport (TransportStep onePage fun _ _ => True)
        (handle 1 exit onePage w).2 :=
    h.step (.access trivial rfl)
  have selected := access (access start (.write 0x030 1)) (.write 0x038 1)
  have addressed := access (access (access selected (.write 0x080 0x200)) (.write 0x090 0x100))
    (.write 0x0a0 0x400)
  have ready := access addressed (.write 0x044 1)
  exact ⟨_, ready, rfl, _, _, ⟨by decide, by decide⟩, .refl, rfl, _, _, rfl⟩

/-- A network device in that guest. -/
def newNet : World VirtioNet where
  host := .release oneChain
  mmio := .new { tap := { sent := [], writeFails := [] }, rxPending := [] } 5

/-- A transmit queue of one slot is set up, and a chain is popped from it. -/
theorem transmit_admissible : ∃ w₁ : World VirtioNet, ∃ chain,
    (w₁.mmio.queue 1).ChainOf onePage w₁.host 256 chain := by
  have start : Reach NewTransport (TransportStep onePage Mmio.Sized) newNet := .init ⟨_, _, rfl⟩
  have access {w : World VirtioNet} (h : Reach NewTransport (TransportStep onePage Mmio.Sized) w)
      (exit : Mmio) (sized : exit.Sized w) :
      Reach NewTransport (TransportStep onePage Mmio.Sized) (handle 1 exit onePage w).2 :=
    h.step (.access sized rfl)
  have other {w : World VirtioNet} (exit : Mmio) (h : exit.reg ≠ .writeQueueNum) : exit.Sized w :=
    fun e => absurd e h
  have selected := access start (.write 0x030 1) (other _ (by decide))
  have sized := access selected (.write 0x038 1) fun _ q _ => by decide
  have table := access sized (.write 0x080 0x200) (other _ (by decide))
  have avail := access table (.write 0x090 0x100) (other _ (by decide))
  have used := access avail (.write 0x0a0 0x400) (other _ (by decide))
  have ready := access used (.write 0x044 1) (other _ (by decide))
  exact ⟨_, _, (pops_admissible ready
    ⟨⟨by decide, by decide⟩, .refl, rfl, _, _, rfl⟩).2.2⟩

end Hearth
