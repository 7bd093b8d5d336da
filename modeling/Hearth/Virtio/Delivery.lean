import Hearth.Lib.Scatter
import Hearth.Virtio.Receive

/-!
# What network receive delivers

`Delivering.Step` is the device with the two histories that its receive queue should agree on:
the frames that the tap thread appended while there was room, and the chains that were handed
back in the queue. Frames arrive between the pieces of a turn, the driver accesses registers
while the device is not locked for a turn, and the guest may write to its memory at any time.
`receive_fifo` is the result: the frames that were accepted are those that the completed
chains carry (`Carries`), in their order and one chain each, then that of the chain not yet
handed back, then the pending ones.
-/

namespace Hearth
open Lib

variable {mem : GuestMemory} {w w' : World VirtioNet}

/-- Header plus the largest frame the tap can hand us. -/
def tapFrameMax : Nat := 65536 + 12

/-! ## A frame over the buffers of a chain -/

/-- A chain that was processed for the receive queue, the length that was returned for it, and
    memory before and after that. -/
structure RxChain where
  chain : DescChain
  len : UInt32
  before : Mem
  after : Mem

/-- The bytes that the device-writable buffers have room for. -/
def RxChain.room (d : RxChain) : Nat := (d.chain.writeBuf.map Span.len).sum

/-- As much of the frame as there is room for was laid out over the buffers,
and nothing else was changed. -/
structure Carries (frame : List UInt8) (d : RxChain) : Prop where
  len : d.len.toNat = min frame.length d.room
  contents : d.chain.writeBuf.Pairwise Span.Apart → d.after.contents d.chain.writeBuf =
    frame.take d.len.toNat ++ (d.before.contents d.chain.writeBuf).drop d.len.toNat
  outside : ∀ a, (∀ buf ∈ d.chain.writeBuf, a ∉ buf) → d.after a = d.before a

namespace VirtioNet

variable {s s' : Host × VirtioNet}

/-- The loop copies what is left of the frame as far as there is room,
in the order of the buffers. -/
lemma scatter_run (frame : List UInt8) (copied : Nat) (bufs : List Span) (s : Host × VirtioNet)
    (h : copied ≤ frame.length) :
    ∃ s', scatter frame copied bufs s =
        (.ok (copied + min (frame.length - copied) (bufs.map Span.len).sum), s') ∧
      s'.1.mem = s.1.mem.scatter (frame.drop copied) bufs ∧ s'.2 = s.2 := by
  induction bufs generalizing copied s with
  | nil =>
    rw [List.map_nil, List.sum_nil, Nat.min_zero]
    exact ⟨s, rfl, rfl, rfl⟩
  | cons buf bufs ih =>
    unfold scatter
    by_cases done : copied = frame.length
    · rw [if_pos done, done, Nat.sub_self, Nat.zero_min, List.drop_length, Mem.scatter_nil]
      exact ⟨s, rfl, rfl, rfl⟩
    · rw [if_neg done]
      set len := min buf.len (frame.length - copied)
      set s₁ : Host × VirtioNet :=
        (host (writeSlice ⟨buf.base, len⟩ ((frame.drop copied).take len)) s).2
      obtain ⟨s', run, stored, device⟩ := ih (copied + len) s₁ (by omega)
      refine ⟨s', ?_, ?_, device⟩
      · have count : copied + len + min (frame.length - (copied + len)) (bufs.map Span.len).sum =
            copied + min (frame.length - copied) ((buf :: bufs).map Span.len).sum := by
          rw [List.map_cons, List.sum_cons]
          omega
        rw [← count]
        exact run
      · have first : (frame.drop copied).take len = (frame.drop copied).take buf.len := by
          rw [List.take_eq_take_iff, List.length_drop]
          omega
        have rest : frame.drop (copied + len) = (frame.drop copied).drop buf.len := by
          rw [List.drop_drop]
          rcases Nat.le_total buf.len (frame.length - copied) with fits | short
          · exact congrArg (fun n => frame.drop (copied + n)) (Nat.min_eq_left fits)
          · rw [List.drop_eq_nil_of_le (by omega), List.drop_eq_nil_of_le (by omega)]
        rw [stored, rest]
        exact congrArg (fun bs => (s.1.mem.write buf.base bs).scatter _ bufs) first

/-- What the loop leaves in memory is what a chain that carries the frame does. -/
lemma carries_scatter {frame : List UInt8} {chain : DescChain} {m : Mem}
    (fits : frame.length ≤ tapFrameMax) :
    Carries frame ⟨chain, UInt32.ofNat (min frame.length (chain.writeBuf.map Span.len).sum), m,
      m.scatter frame chain.writeBuf⟩ := by
  set room := (chain.writeBuf.map Span.len).sum
  have len : (UInt32.ofNat (min frame.length room)).toNat = min frame.length room := by
    apply UInt32.toNat_ofNat_of_lt'
    exact Nat.lt_of_le_of_lt (Nat.le_trans (Nat.min_le_left ..) fits) (by decide)
  refine ⟨len, fun apart => ?_, fun a outside => Mem.scatter_outside outside⟩
  dsimp only at apart ⊢
  have stored : frame.take room = frame.take (min frame.length room) := by
    rw [List.take_eq_take_iff]
    omega
  have kept : (m.contents chain.writeBuf).drop frame.length =
      (m.contents chain.writeBuf).drop (min frame.length room) := by
    rcases Nat.le_total frame.length room with short | long
    · rw [Nat.min_eq_left short]
    · have length : (m.contents chain.writeBuf).length = room := m.contents_length _
      rw [List.drop_eq_nil_of_le (by omega), List.drop_eq_nil_of_le (by omega)]
  rw [len, Mem.contents_scatter apart, stored, kept]

/-- Processing for the receive queue takes the first frame, and the chain then carries it. -/
lemma process_rx {chain : DescChain} {len : UInt32} {frame : List UInt8} {rest : List (List UInt8)}
    (pending : s.2.rxPending = frame :: rest) (fits : frame.length ≤ tapFrameMax)
    (e : VirtioNet.process virtioNetQueueRx chain s = (.ok len, s')) :
    s'.2.rxPending = rest ∧ Carries frame ⟨chain, len, s.1.mem, s'.1.mem⟩ := by
  unfold VirtioNet.process at e
  rw [if_pos rfl] at e
  obtain ⟨popped, s₁, e₁, e₂⟩ := Eff.bind_ok_iff.mp e
  cases e₁
  rw [pending] at e₂
  obtain ⟨s₂, run, stored, device⟩ := scatter_run frame 0 chain.writeBuf
    (s.1, { s.2 with rxPending := (frame :: rest).tail }) (Nat.zero_le _)
  dsimp only [List.head?_cons] at e₂
  rw [Eff.bind_of_ok run] at e₂
  cases e₂
  rw [device, stored, Nat.zero_add]
  exact ⟨rfl, carries_scatter fits⟩

end VirtioNet

/-! ## The system -/

/-- Where a turn for the receive queue is. -/
inductive RxTurn where
  | check
  | pop
  | process (chain : DescChain)
  | push (d : RxChain)

/-- The device, the turn for the receive queue that it is locked for, if any, and the histories: the
    frames that were appended and the chains that were handed back. -/
structure Delivering where
  world : World VirtioNet
  turn : Option RxTurn
  accepted : List (List UInt8)
  completed : List RxChain

namespace Delivering

/-- The frames that wait to be delivered. -/
def pending (s : Delivering) : List (List UInt8) := s.world.mmio.device.rxPending

/-- The steps: frames that arrive, the parts of a turn, other accesses and stores of the guest. -/
inductive Step (mem : GuestMemory) (s : Delivering) : Delivering → Prop where
  /-- the tap thread reads a frame and appends it, if there is room -/
  | arrive (frame : List UInt8) (fits : frame.length ≤ tapFrameMax) :
    Step mem s
      { s with
        world := Receive.setPending (rxAppend frame s.pending).1 s.world
        accepted := if s.pending.length < rxPendingMax then s.accepted ++ [frame] else s.accepted }
  /-- a notification of queue 0, or a poll -/
  | enter (free : s.turn = none) (live : (s.world.mmio.queue 0).Live) :
      Step mem s { s with turn := some .check }
  | check (at' : s.turn = some .check) :
    Step mem s
      { s with
        turn := if VirtioDevice.canProcess s.world.mmio.device (UInt32.ofNat
          (0 : Fin vringQueuesMax)) then some .pop
          else none }
  | pop {chain queue h} (at' : s.turn = some .pop)
    (e : (s.world.mmio.queue 0).popAvail mem s.world.host = (.ok (some chain, queue), h)) :
    Step mem s
      { s with world := { host := h, mmio := s.world.mmio.setQueue 0 queue },
               turn := some (.process chain) }
  | popNone {queue h} (at' : s.turn = some .pop)
    (e : (s.world.mmio.queue 0).popAvail mem s.world.host = (.ok (none, queue), h)) :
    Step mem s { s with world := { host := h, mmio := s.world.mmio.setQueue 0 queue },
                        turn := none }
  | process {chain len w'} (at' : s.turn = some (.process chain))
    (e : onDevice (VirtioDevice.process (UInt32.ofNat (0 : Fin vringQueuesMax)) chain) s.world =
      (.ok len, w')) :
    Step mem s { s with world := w',
                        turn := some (.push ⟨chain, len, s.world.host.mem, w'.host.mem⟩) }
  /-- the chain is handed back and announced -/
  | push {d w₁ w'} (at' : s.turn = some (.push d))
    (e : onHost ((s.world.mmio.queue 0).pushUsed mem d.chain.head d.len) s.world = (.ok (), w₁))
    (e' : announce w₁ = (.ok (), w')) :
    Step mem s { s with world := w', turn := some .check, completed := s.completed ++ [d] }
  /-- a notification of another queue -/
  | transmit {fuel queueIdx q w'} (free : s.turn = none)
      (idx : VirtioMmio.queueIndex queueIdx = some q) (other : q ≠ 0)
    (e : queueNotify fuel queueIdx mem s.world = (.ok (), w')) : Step mem s { s with world := w' }
  /-- a register access that notifies no queue -/
  | access {fuel exit data w'} (free : s.turn = none)
    (other : exit.reg = .writeQueueNotify → VirtioMmio.queueIndex (readLe32 exit.data) = none)
    (e : handle fuel exit mem s.world = (.ok data, w')) : Step mem s { s with world := w' }
  /-- the guest writes to its memory -/
  | memory (m : Mem) :
      Step mem s { s with world := { s.world with host := { s.world.host with mem := m } } }

/-- At the start no frame has come. -/
structure Init (s : Delivering) : Prop where
  pending : s.pending = []
  turn : s.turn = none
  accepted : s.accepted = []
  completed : s.completed = []

/-- The chain that carries a frame and is not handed back yet. -/
def underway : Option RxTurn → List RxChain
  | some (.push d) => [d]
  | _ => []

/-- The turn has found a frame and not taken it yet. -/
def Ready : Option RxTurn → Prop
  | some .pop => True
  | some (.process _) => True
  | _ => False

/-- The chains carry, in their order and one frame each, the frames that were accepted
up to those that are pending. -/
def Fifo (s : Delivering) : Prop :=
  ∃ frames, s.accepted = frames ++ s.pending ∧
    List.Forall₂ Carries frames (s.completed ++ underway s.turn)

/-- What holds between steps: what was delivered and what is pending is what was accepted,
    in order. -/
structure Inv (s : Delivering) : Prop where
  bound : s.pending.length ≤ rxPendingMax
  ready : Ready s.turn → s.pending ≠ []
  fits : ∀ frame ∈ s.accepted, frame.length ≤ tapFrameMax
  fifo : Fifo s

variable {s s' : Delivering}

/-- At the start there is none. -/
lemma Inv.init (h : Init s) : Inv s := by
  refine ⟨?_, ?_, ?_, [], ?_, ?_⟩
  · rw [h.pending]
    exact Nat.zero_le _
  · rw [h.turn]
    exact nofun
  · rw [h.accepted]
    exact nofun
  · rw [h.accepted, h.pending]
    rfl
  · rw [h.completed, h.turn]
    exact .nil

/-- A step that takes no frame and hands no chain back keeps the invariant. -/
lemma Inv.keep (inv : Inv s) (pending : s'.pending = s.pending)
    (accepted : s'.accepted = s.accepted)
    (chains : s'.completed ++ underway s'.turn = s.completed ++ underway s.turn)
    (ready : Ready s'.turn → s.pending ≠ []) : Inv s' := by
  refine ⟨?_, ?_, ?_, ?_⟩
  · rw [pending]
    exact inv.bound
  · rw [pending]
    exact ready
  · rw [accepted]
    exact inv.fits
  · unfold Fifo
    rw [accepted, pending, chains]
    exact inv.fifo

/-- A frame that comes is appended to the pending ones, or dropped. -/
lemma arrive_cases (frame : List UInt8) (pending : List (List UInt8)) :
    (rxPendingMax ≤ pending.length ∧ (rxAppend frame pending).1 = pending) ∨
      (pending.length < rxPendingMax ∧ (rxAppend frame pending).1 = pending ++ [frame]) := by
  unfold rxAppend
  rcases Nat.lt_or_ge pending.length rxPendingMax with room | full
  · exact .inr ⟨room, congrArg Prod.fst (if_neg (Nat.not_le.mpr room))⟩
  · exact .inl ⟨full, congrArg Prod.fst (if_pos full)⟩

/-- A frame is accepted behind the others, or dropped. -/
lemma Inv.arrive (inv : Inv s) {frame : List UInt8} (fits : frame.length ≤ tapFrameMax) :
    Inv { s with
      world := Receive.setPending (rxAppend frame s.pending).1 s.world
      accepted := if s.pending.length < rxPendingMax then s.accepted ++ [frame]
        else s.accepted } := by
  rcases arrive_cases frame s.pending with ⟨full, same⟩ | ⟨room, appended⟩
  · rw [same, if_neg (Nat.not_lt.mpr full)]
    exact inv.keep rfl rfl rfl inv.ready
  · rw [appended, if_pos room]
    obtain ⟨frames, accepted, carried⟩ := inv.fifo
    refine ⟨?_, fun _ => ?_, ?_, frames, ?_, carried⟩
    · show (s.pending ++ [frame]).length ≤ rxPendingMax
      rw [List.length_append]
      exact room
    · show s.pending ++ [frame] ≠ []
      exact List.concat_ne_nil _ _
    · intro f hf
      rcases List.mem_append.mp hf with hf | hf
      · exact inv.fits f hf
      · exact List.mem_singleton.mp hf ▸ fits
    · show s.accepted ++ [frame] = frames ++ (s.pending ++ [frame])
      rw [accepted, List.append_assoc]

/-- A processed chain carries the first of the pending frames. -/
lemma Inv.process (inv : Inv s) {chain : DescChain} {len : UInt32}
    (at' : s.turn = some (.process chain))
    (e : onDevice (VirtioDevice.process (UInt32.ofNat (0 : Fin vringQueuesMax)) chain) s.world =
      (.ok len, w')) :
    ∃ frame, s.pending = frame :: w'.mmio.device.rxPending ∧
      Carries frame ⟨chain, len, s.world.host.mem, w'.host.mem⟩ := by
  have some : s.pending ≠ [] := inv.ready (by rw [at']; exact trivial)
  obtain ⟨frame, rest, hp⟩ := List.exists_cons_of_ne_nil some
  obtain ⟨frames, accepted, -⟩ := inv.fifo
  have fits : frame.length ≤ tapFrameMax := by
    apply inv.fits
    rw [accepted, hp]
    exact List.mem_append_right _ List.mem_cons_self
  obtain ⟨run, -⟩ := onDevice_ok e
  obtain ⟨taken, carries⟩ := VirtioNet.process_rx hp fits run
  refine ⟨frame, ?_, carries⟩
  rw [hp]
  exact congrArg _ taken.symm

end Delivering

/-! ## What the other steps leave -/

section Other

variable {q : Fin vringQueuesMax}

/-- A turn for another queue takes no frame. -/
lemma notifyTurn_pending (hq : q ≠ 0) {b : Bool} (e : notifyTurn q mem w = (.ok b, w')) :
    w'.mmio.device.rxPending = w.mmio.device.rxPending := by
  obtain ⟨-, -, rfl⟩ | ⟨-, -, mmio, -⟩ | ⟨-, -, chain, len, ⟨t⟩⟩ := notifyTurn_ok e
  · rfl
  · rw [mmio]
  · rw [t.mmio]
    exact (process_other (queueIndex_ne hq) t.process).2

/-- Notifying another queue leaves the pending frames. -/
lemma queueNotify_pending (hq : q ≠ 0) {fuel : Nat} {queueIdx : UInt32}
    (idx : VirtioMmio.queueIndex queueIdx = some q)
    (e : queueNotify fuel queueIdx mem w = (.ok (), w')) :
    w'.mmio.device.rxPending = w.mmio.device.rxPending := by
  rw [queueNotify_some idx] at e
  split at e
  · cases e
    rfl
  · obtain ⟨w₁, it, last⟩ := Eff.loop_ok e
    refine (notifyTurn_pending hq last).trans ?_
    exact it.invariant (I := fun w' => w'.mmio.device.rxPending = w.mmio.device.rxPending)
      (fun _ _ ih turn => (notifyTurn_pending hq turn).trans ih) rfl

end Other

/-- Handing a chain back leaves the pending frames. -/
lemma push_pending {x : HostM Unit} {w₁ : World VirtioNet} (e : onHost x w = (.ok (), w₁))
    (e' : announce w₁ = (.ok (), w')) : w'.mmio.device.rxPending = w.mmio.device.rxPending := by
  rw [(announce_ok e').2.2, (onHost_ok e).2]

namespace Delivering

variable {s s' : Delivering}

/-- Every step keeps the invariant. -/
lemma Inv.step (inv : Inv s) (st : Step mem s s') : Inv s' := by
  cases st with
  | arrive frame fits => exact inv.arrive fits
  | enter free live =>
    refine inv.keep rfl rfl ?_ nofun
    rw [free]
    rfl
  | check at' =>
    -- only a test with a frame waiting lets the turn go on
    split
    · next can =>
      refine inv.keep rfl rfl ?_ fun _ none => ?_
      · rw [at']
        rfl
      · have h : (!s.pending.isEmpty) = true := can
        rw [none] at h
        cases h
    · refine inv.keep rfl rfl ?_ nofun
      rw [at']
      rfl
  | pop at' e =>
    refine inv.keep rfl rfl ?_ fun _ => inv.ready ?_
    · rw [at']
      rfl
    · rw [at']
      exact trivial
  | popNone at' e =>
    refine inv.keep rfl rfl ?_ nofun
    rw [at']
    rfl
  | @process chain len w' at' e =>
    -- the oldest frame goes from those that wait to those under way
    obtain ⟨frame, hp, carries⟩ := inv.process at' e
    obtain ⟨frames, accepted, carried⟩ := inv.fifo
    refine ⟨?_, nofun, inv.fits, frames ++ [frame], ?_, ?_⟩
    · have bound := inv.bound
      rw [hp] at bound
      exact Nat.le_of_succ_le bound
    · show s.accepted = frames ++ [frame] ++ w'.mmio.device.rxPending
      rw [accepted, hp, List.append_assoc]
      rfl
    · have before : s.completed ++ underway s.turn = s.completed := by
        rw [at']
        exact List.append_nil _
      rw [before] at carried
      exact List.rel_append carried (.cons carries .nil)
  | @push d w₁ w' at' e e' =>
    -- what was under way is completed
    refine inv.keep (push_pending e e') rfl ?_ nofun
    rw [at']
    exact List.append_nil _
  | transmit free idx other e =>
    refine inv.keep (queueNotify_pending other idx e) rfl rfl ?_
    rw [free]
    exact nofun
  | access free other e =>
    refine inv.keep (congrArg VirtioNet.rxPending (handle_device other e)) rfl rfl ?_
    rw [free]
    exact nofun
  | memory m => exact inv.keep rfl rfl rfl inv.ready

/-- A frame leaves the pending ones only for the chain that the turn has taken. -/
lemma Inv.leaves (inv : Inv s) (st : Step mem s s') :
    (∃ new, s'.pending = s.pending ++ new) ∨
      ∃ chain frame, s.turn = some (.process chain) ∧ s.pending = frame :: s'.pending := by
  have same (h : s'.pending = s.pending) : ∃ new, s'.pending = s.pending ++ new :=
    ⟨[], h.trans (List.append_nil _).symm⟩
  cases st with
  | arrive frame fits =>
    rcases arrive_cases frame s.pending with ⟨-, h⟩ | ⟨-, h⟩
    · exact .inl (same h)
    · exact .inl ⟨[frame], h⟩
  | @process chain len w' at' e =>
    obtain ⟨frame, hp, -⟩ := inv.process at' e
    exact .inr ⟨chain, frame, at', hp⟩
  | push at' e e' => exact .inl (same (push_pending e e'))
  | transmit free idx other e => exact .inl (same (queueNotify_pending other idx e))
  | access free other e => exact .inl (same (congrArg VirtioNet.rxPending (handle_device other e)))
  | _ => exact .inl (same rfl)

/-! ## Calls are runs

A notification of the receive queue, or a poll, that nothing disturbs and that returns
`Ok` is a run of the system. -/

/-- The state `s` with the world `w`, the turn at `turn`, and more chains handed back. -/
def resume (w : World VirtioNet) (turn : Option RxTurn) (handed : List RxChain)
    (s : Delivering) : Delivering :=
  { s with world := w, turn := turn, completed := s.completed ++ handed }

/-- The loop looks whether the device can go on. -/
lemma check_run (mem : GuestMemory) (w : World VirtioNet) (handed : List RxChain) (s : Delivering) :
    Step mem (s.resume w (some .check) handed)
      (s.resume w (if VirtioDevice.canProcess w.mmio.device (UInt32.ofNat
        (0 : Fin vringQueuesMax)) then some .pop
        else none) handed) := .check rfl

/-- A turn that handles a chain is the four pieces. -/
lemma handles_run (s : Delivering) (handed : List RxChain) {chain : DescChain} {len : UInt32}
    (t : Handles mem 0 w chain len w')
    (can : VirtioDevice.canProcess w.mmio.device (UInt32.ofNat (0 : Fin vringQueuesMax)) = true) :
    ∃ d, Relation.ReflTransGen (Step mem) (s.resume w (some .check) handed)
      (s.resume w' (some .check) (handed ++ [d])) := by
  have check := check_run mem w handed s
  rw [if_pos can] at check
  have pop : Step mem (s.resume w (some .pop) handed) _ := .pop rfl t.pop
  set w₁ : World VirtioNet := ⟨t.taken, w.mmio.setQueue 0 t.queue⟩
  have process : Step mem (s.resume w₁ (some (.process chain)) handed) _ :=
    .process rfl (onDevice_run t.process)
  set w₂ : World VirtioNet := ⟨t.processed.1, { w₁.mmio with device := t.processed.2 }⟩
  set d : RxChain := ⟨chain, len, w₁.host.mem, w₂.host.mem⟩
  have queue : w₂.mmio.queue 0 = t.queue := by
    show Function.update w.mmio.queue 0 t.queue 0 = t.queue
    exact Function.update_self ..
  have handBack : onHost ((w₂.mmio.queue 0).pushUsed mem d.chain.head d.len) w₂ =
      (.ok (), { w₂ with host := t.pushed }) := by
    rw [queue]
    exact onHost_run t.push
  have announced : announce { w₂ with host := t.pushed } = (.ok (), w') := by
    rw [announce_run t.irq]
    exact congrArg (fun m => (Outcome.ok (), World.mk w'.host m)) t.mmio.symm
  have push : Step mem (s.resume w₂ (some (.push d)) handed) _ := .push rfl handBack announced
  have last : s.resume w' (some .check) (handed ++ [d]) =
      { s.resume w₂ (some (.push d)) handed with
        world := w', turn := some .check, completed := s.completed ++ handed ++ [d] } := by
    rw [List.append_assoc]
    rfl
  refine ⟨d, .head check (.head pop (.head process (.single ?_)))⟩
  rw [last]
  exact push

/-- Turns for the receive queue are runs. -/
lemma turns_run (s : Delivering) (handed : List RxChain) {w₁ : World VirtioNet}
    (it : Eff.Iter (notifyTurn 0 mem) w w₁) (last : notifyTurn 0 mem w₁ = (.ok false, w')) :
    ∃ more, Relation.ReflTransGen (Step mem) (s.resume w (some .check) handed)
      (s.resume w' none (handed ++ more)) := by
  induction it generalizing handed with
  | @refl w =>
    have check := check_run mem w handed s
    refine ⟨[], ?_⟩
    rw [List.append_nil]
    obtain ⟨-, can, rfl⟩ | ⟨-, can, mmio, pop⟩ | ⟨h, -⟩ := notifyTurn_ok last
    · rw [if_neg (Bool.eq_false_iff.mp can)] at check
      exact .single check
    · rw [if_pos can] at check
      have same : w' = ⟨w'.host, w.mmio.setQueue 0 (w.mmio.queue 0)⟩ := by
        rw [VirtioMmio.setQueue, Function.update_eq_self, ← mmio]
      refine .head check (.single ?_)
      rw [same]
      exact .popNone rfl pop
    · cases h
  | step turn it ih =>
    obtain ⟨h, -⟩ | ⟨h, -⟩ | ⟨-, can, chain, len, ⟨t⟩⟩ := notifyTurn_ok turn
    · cases h
    · cases h
    · obtain ⟨d, first⟩ := handles_run s handed t can
      obtain ⟨more, rest⟩ := ih (handed ++ [d]) last
      refine ⟨d :: more, first.trans ?_⟩
      rw [List.append_cons handed d more]
      exact rest

/-- A notification of the receive queue is steps. -/
lemma queueNotify_run {fuel : Nat} (free : s.turn = none)
    (e : queueNotify fuel 0 mem s.world = (.ok (), w')) :
    ∃ handed, Relation.ReflTransGen (Step mem) s (s.resume w' none handed) := by
  have idx : VirtioMmio.queueIndex 0 = some 0 := rfl
  rw [queueNotify_some idx] at e
  by_cases h0 : (s.world.mmio.queue 0).ready = 0 ∨ (s.world.mmio.queue 0).num = 0
  · rw [if_pos h0] at e
    cases e
    have same : s.resume s.world none [] = s := by
      unfold resume
      rw [List.append_nil, ← free]
    refine ⟨[], ?_⟩
    rw [same]
  · rw [if_neg h0] at e
    obtain ⟨w₁, it, last⟩ := Eff.loop_ok e
    have entered : s.resume s.world (some .check) [] = { s with turn := some .check } := by
      unfold resume
      rw [List.append_nil]
    obtain ⟨more, run⟩ := turns_run s [] it last
    rw [entered] at run
    exact ⟨more, .head (.enter free (not_or.mp h0)) run⟩

/-- A poll is a notification of the receive queue and then one of the other. -/
lemma poll_run {fuel : Nat} (free : s.turn = none) (e : poll fuel mem s.world = (.ok (), w')) :
    ∃ handed, Relation.ReflTransGen (Step mem) s (s.resume w' none handed) := by
  obtain ⟨_, w₁, receive, transmit⟩ := Eff.bind_ok_iff.mp e
  obtain ⟨handed, run⟩ := queueNotify_run free receive
  have idx : VirtioMmio.queueIndex 1 = some 1 := rfl
  exact ⟨handed, run.tail (.transmit (s := s.resume w₁ none handed) rfl idx nofun transmit)⟩

/-- The receive queue is a FIFO: no more frames are pending than the limit, the frames that
    were accepted are those that the chains carry and then the pending ones, and a frame
    leaves the pending ones only for a chain. Notifications of the queue and polls that return
    `Ok` are runs of the system. -/
theorem receive_fifo (h : Reach Init (Step mem) s) :
    s.pending.length ≤ rxPendingMax ∧ Fifo s ∧
      (∀ s', Step mem s s' → (∃ new, s'.pending = s.pending ++ new) ∨
        ∃ chain frame, s.turn = some (.process chain) ∧ s.pending = frame :: s'.pending) ∧
      ∀ fuel w', s.turn = none →
        queueNotify fuel 0 mem s.world = (.ok (), w') ∨ poll fuel mem s.world = (.ok (), w') →
        ∃ handed, Reach Init (Step mem) (s.resume w' none handed) := by
  have inv := h.invariant (fun _ start => Inv.init start) fun _ _ inv st => inv.step st
  refine ⟨inv.bound, inv.fifo, fun s' st => inv.leaves st, fun fuel w' free call => ?_⟩
  rcases call with e | e
  · obtain ⟨handed, run⟩ := queueNotify_run free e
    exact ⟨handed, h.run run⟩
  · obtain ⟨handed, run⟩ := poll_run free e
    exact ⟨handed, h.run run⟩

/-- A device that waits for frames, with two writable buffers in its receive queue,
the second of the table first. -/
def listening : Delivering where
  world := pairWorld 0 (offer 1 0 (offer 0 1 (twoBuffers vringDescFWrite)))
  turn := none
  accepted := []
  completed := []

/-- The device once it has got another frame. -/
def came (s : Delivering) (frame : List UInt8) : Delivering :=
  { s with
    world := Receive.setPending (rxAppend frame s.pending).1 s.world
    accepted := if s.pending.length < rxPendingMax then s.accepted ++ [frame] else s.accepted }

/-- A frame behind its header, which is all zeros. -/
def headed (frame : List UInt8) : List UInt8 := List.replicate 12 0 ++ frame

/-- Three frames have come. -/
def arrived : Delivering :=
  ((listening.came (headed [7, 8])).came (headed [9])).came (headed [5, 6])

/-- Of three frames that came the first two are carried, in their order, by the chains that the next
    notification hands back. The third is pending. -/
theorem receive_fifo_arrived : ∃ d d', Carries (headed [7, 8]) d ∧ Carries (headed [9]) d' ∧
    Reach Init (Step onePage)
      (arrived.resume (queueNotify 3 0 onePage arrived.world).2 none [d, d']) ∧
    (queueNotify 3 0 onePage arrived.world).2.mmio.device.rxPending = [headed [5, 6]] := by
  have start : Reach Init (Step onePage) listening := .init ⟨rfl, rfl, rfl, rfl⟩
  have two : Reach Init (Step onePage) ((listening.came (headed [7, 8])).came (headed [9])) :=
    (start.step (.arrive _ (by decide))).step (.arrive _ (by decide))
  have all : Reach Init (Step onePage) arrived := two.step (.arrive _ (by decide))
  have returns : (queueNotify 3 0 onePage arrived.world).1 = .ok () := by decide +kernel
  have left : (queueNotify 3 0 onePage arrived.world).2.mmio.device.rxPending =
    [headed [5, 6]] := by decide +kernel
  obtain ⟨handed, reached⟩ := (receive_fifo all).2.2.2 3 _ rfl (.inl (Prod.ext returns rfl))
  obtain ⟨frames, accepted, carried⟩ := (receive_fifo reached).2.1
  have taken : frames = [headed [7, 8], headed [9]] := by
    have whole : [headed [7, 8], headed [9]] ++ [headed [5, 6]] =
        frames ++ (queueNotify 3 0 onePage arrived.world).2.mmio.device.rxPending := accepted
    rw [left] at whole
    exact (List.append_cancel_right whole).symm
  rw [taken] at carried
  obtain ⟨d, more, first, others, same⟩ := List.forall₂_cons_left_iff.mp carried
  obtain ⟨d', none, second, last, rfl⟩ := List.forall₂_cons_left_iff.mp others
  cases List.forall₂_nil_left_iff.mp last
  have handed_eq : handed = [d, d'] := (List.append_nil handed).symm.trans same
  exact ⟨d, d', first, second, handed_eq ▸ reached, left⟩

end Delivering

end Hearth
