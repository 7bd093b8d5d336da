import Hearth.Virtio.Admission

/-!
# The ring addresses

A driver writes each of the three addresses of a queue in two halves. `handle` assigns the whole
address when the low half is written and sets bits of it when the high half is. So what the halves
written last make together is the address only if each low half is written before its high half, and
no high half over another that has bits it lacks. `Halves` keeps the halves written last;
`KeepsHalves` is what an access must meet for the addresses to follow them, and
`addresses_follow_iff` says that this is exact.
-/

namespace Hearth
open Lib

variable {D : Type} {mem : GuestMemory} {w w' : World D}

/-- The three areas of a queue. -/
inductive Area where
  | desc
  | avail
  | used
  deriving DecidableEq, Repr

/-- Which half of an address. -/
inductive Half where
  | low
  | high
  deriving DecidableEq, Repr

namespace VringQueue

/-- The address of an area. -/
def address (self : VringQueue) : Area → UInt64
  | .desc => self.desc
  | .avail => self.avail
  | .used => self.used

/-- The address of an area is set. -/
def setAddress (self : VringQueue) (a : Area) (val : UInt64) : VringQueue :=
  match a with
  | .desc => { self with desc := val }
  | .avail => { self with avail := val }
  | .used => { self with used := val }

/-- The address is what was set. -/
@[simp] lemma setAddress_self (self : VringQueue) (a : Area) (val : UInt64) :
    (self.setAddress a val).address a = val := by
  cases a <;> rfl

/-- The other areas keep theirs. -/
lemma setAddress_of_ne {self : VringQueue} {a b : Area} (h : b ≠ a) (val : UInt64) :
    (self.setAddress a val).address b = self.address b := by
  cases a <;> cases b <;> first | rfl | exact absurd rfl h

/-- The addresses are part of the set-up. -/
lemma address_of_setup {self self' : VringQueue} (h : self'.setup = self.setup) (a : Area) :
    self'.address a = self.address a := by
  have haddr : ∀ queue : VringQueue, queue.address a = queue.setup.address a := by
    intro queue
    cases a <;> rfl
  rw [haddr self', h, ← haddr self]

end VringQueue

/-- The half of an address that a register is. -/
def Reg.half? : Reg → Option (Area × Half)
  | .writeQueueDescLow => some (.desc, .low)
  | .writeQueueDescHigh => some (.desc, .high)
  | .writeQueueAvailLow => some (.avail, .low)
  | .writeQueueAvailHigh => some (.avail, .high)
  | .writeQueueUsedLow => some (.used, .low)
  | .writeQueueUsedHigh => some (.used, .high)
  | _ => none

/-- The address after a half was written. -/
def Half.write (half : Half) (val : UInt32) (address : UInt64) : UInt64 :=
  match half with
  | .low => val.toUInt64
  | .high => address ||| val.toUInt64 <<< 32

/-- A register of a half writes it. -/
lemma effect_half {reg : Reg} {a : Area} {half : Half} (h : reg.half? = some (a, half))
    (val : UInt32) (self : VirtioMmio D) : reg.effect val self =
      self.onSelectedQueue fun q => q.setAddress a (half.write val (q.address a)) := by
  cases reg <;> cases h <;> rfl

/-- No other register changes an address or the selected queue. -/
lemma effect_noHalf {reg : Reg} (h : reg.half? = none) (sel : reg ≠ .writeQueueSel) (val : UInt32)
    (self : VirtioMmio D) : (reg.effect val self).currQueue = self.currQueue ∧
      ∀ q a, ((reg.effect val self).queue q).address a = (self.queue q).address a := by
  have selected : ∀ f :
    VringQueue → VringQueue, (∀ queue a, (f queue).address a = queue.address a) →
      (self.onSelectedQueue f).currQueue = self.currQueue ∧
        ∀ q a, ((self.onSelectedQueue f).queue q).address a = (self.queue q).address a := by
    intro f hf
    unfold VirtioMmio.onSelectedQueue
    cases VirtioMmio.queueIndex self.currQueue with
    | none => exact ⟨rfl, fun _ _ => rfl⟩
    | some q =>
      refine ⟨rfl, fun q' a => ?_⟩
      show (Function.update self.queue q (f (self.queue q)) q').address a = _
      by_cases hq : q' = q
      · rw [hq, Function.update_self, hf]
      · rw [Function.update_of_ne hq]
  cases reg
  case writeQueueSel => exact absurd rfl sel
  case writeQueueNum => exact selected _ fun queue a => by cases a <;> rfl
  case writeQueueReady => exact selected _ fun queue a => by cases a <;> rfl
  all_goals first
    | exact ⟨rfl, fun _ _ => rfl⟩
    | cases h

/-! ## Two halves of a word -/

/-- The word with these halves. -/
def join (high low : UInt32) : UInt64 := low.toUInt64 ||| high.toUInt64 <<< 32

/-- The two halves as a number. -/
lemma join_toNat (high low : UInt32) : (join high low).toNat = high.toNat * 2 ^ 32 + low.toNat := by
  have hl := low.toNat_lt
  have hh := high.toNat_lt
  have shift : (high.toUInt64 <<< 32).toNat = high.toNat <<< 32 := by
    rw [UInt64.toNat_shiftLeft, UInt32.toNat_toUInt64, Nat.shiftLeft_eq]
    have h32 : (32 : UInt64).toNat % 64 = 32 := by decide
    rw [h32, Nat.mod_eq_of_lt (by omega), Nat.shiftLeft_eq]
  rw [join, UInt64.toNat_or, shift, UInt32.toNat_toUInt64, Nat.or_comm,
    ← Nat.shiftLeft_add_eq_or_of_lt hl, Nat.shiftLeft_eq]

/-- The halves can be told from the address. -/
lemma join_inj {high low high' low' : UInt32} (h : join high low = join high' low') :
    high = high' ∧ low = low' := by
  have e := congrArg UInt64.toNat h
  rw [join_toNat, join_toNat] at e
  have hl := low.toNat_lt
  have hl' := low'.toNat_lt
  exact ⟨UInt32.toNat_inj.mp (by omega), UInt32.toNat_inj.mp (by omega)⟩

/-- A low half alone has a high half of zero. -/
lemma join_low (low : UInt32) : low.toUInt64 = join 0 low := by
  apply UInt64.toNat_inj.mp
  rw [join_toNat, UInt32.toNat_toUInt64]
  simp

/-- ORing into the high half leaves the low one. -/
lemma join_or_high (high low val : UInt32) :
    join high low ||| val.toUInt64 <<< 32 = join (high ||| val) low := by
  unfold join
  rw [UInt32.toUInt64_or, UInt64.shiftLeft_or, UInt64.or_assoc]

/-! ## Histories -/

/-- The selector and the half of each address written last while its queue was selected,
    0 for a half never written. -/
structure Halves where
  sel : UInt32
  last : Fin vringQueuesMax → Area → Half → UInt32

namespace Halves

/-- Everything is zero at first. -/
def initial : Halves where
  sel := 0
  last := fun _ _ _ => 0

/-- The half `half` of address `a` of queue `q` is written. -/
def record (q : Fin vringQueuesMax) (a : Area) (half : Half) (val : UInt32) (s : Halves) : Halves :=
  { s with
    last := fun q' a' half' => if q' = q ∧ a' = a ∧ half' = half then val else s.last q' a' half' }

/-- An access as the history sees it. -/
def after (s : Halves) (exit : Mmio) : Halves :=
  if exit.reg = .writeQueueSel then { s with sel := readLe32 exit.data }
  else
    match exit.reg.half?, VirtioMmio.queueIndex s.sel with
    | some (a, half), some q => s.record q a half (readLe32 exit.data)
    | _, _ => s

/-- The address that the halves written last make. -/
def address (s : Halves) (q : Fin vringQueuesMax) (a : Area) : UInt64 :=
  join (s.last q a .high) (s.last q a .low)

end Halves

/-- Each address of each queue is the one that the halves written last make. -/
def World.Follows (w : World D) (s : Halves) : Prop :=
  ∀ q a, ((w.mmio.queue q).address a).toNat =
    (s.last q a .high).toNat * 2 ^ 32 + (s.last q a .low).toNat

/-- The device follows the registers if each address is made of its halves. -/
lemma World.follows_iff {s : Halves} :
    w.Follows s ↔ ∀ q a, (w.mmio.queue q).address a = s.address q a := by
  constructor
  · intro h q a
    apply UInt64.toNat_inj.mp
    rw [h q a, Halves.address, join_toNat]
  · intro h q a
    rw [h q a, Halves.address, join_toNat]

/-- The half of an address that an access writes: of which queue, and which. -/
def Mmio.half? (exit : Mmio) (w : World D) : Option (Fin vringQueuesMax × Area × Half) :=
  match exit.reg.half?, VirtioMmio.queueIndex w.mmio.currQueue with
  | some (a, half), some q => some (q, a, half)
  | _, _ => none

/-- A low half is to be written only to an address whose high half is 0, and a high half only
    over one whose bits it has. -/
def Half.Keeps (half : Half) (val : UInt32) (address : UInt64) : Prop :=
  match half with
  | .low => (address >>> 32).toUInt32 = 0
  | .high => (address >>> 32).toUInt32 ||| val = val

/-- If an access writes a half, it keeps to that. -/
def Mmio.KeepsHalves (exit : Mmio) (w : World D) : Prop :=
  ∀ q a half, exit.half? w = some (q, a, half) →
    half.Keeps (readLe32 exit.data) ((w.mmio.queue q).address a)

/-- The high half of a joined address. -/
lemma join_high (high low : UInt32) : (join high low >>> 32).toUInt32 = high := by
  apply UInt32.toNat_inj.mp
  have hl := low.toNat_lt
  have hh := high.toNat_lt
  have h32 : (32 : UInt64).toNat % 64 = 32 := by decide
  rw [UInt64.toNat_toUInt32, UInt64.toNat_shiftRight, join_toNat, h32, Nat.shiftRight_eq_div_pow]
  omega

section Step

variable [VirtioDevice D] {s : Halves} {exit : Mmio}

/-- An access that writes no half leaves the addresses, and the selector unless it writes that. -/
lemma handle_noHalf (mem : GuestMemory) (fuel : Nat) (h : exit.reg.half? = none)
    (sel : exit.reg ≠ .writeQueueSel)
    (w : World D) : (handle fuel exit mem w).2.mmio.currQueue = w.mmio.currQueue ∧
      ∀ q a, ((handle fuel exit mem w).2.mmio.queue q).address a = (w.mmio.queue q).address a := by
  show (access fuel mem _ exit.data exit.reg w).2.mmio.currQueue = _ ∧
    ∀ q a, ((access fuel mem _ exit.data exit.reg w).2.mmio.queue q).address a = _
  by_cases notify : exit.reg = .writeQueueNotify
  · have same := access_setup (.inl notify) fuel mem (exit.physAddr &&& 0xfff).toUInt32 exit.data w
    exact ⟨same.currQueue, fun q a => VringQueue.address_of_setup (same.queue q) a⟩
  by_cases ack : exit.reg = .writeInterruptAck
  · have same := access_setup (.inr ack) fuel mem (exit.physAddr &&& 0xfff).toUInt32 exit.data w
    exact ⟨same.currQueue, fun q a => VringQueue.address_of_setup (same.queue q) a⟩
  obtain ⟨data, e⟩ := access_run notify ack fuel mem (exit.physAddr &&& 0xfff).toUInt32 exit.data w
  rw [e]
  exact effect_noHalf h sel _ _

omit [VirtioDevice D] in
/-- Writing a half makes the address follow it exactly if the condition is met. -/
lemma record_follows {q : Fin vringQueuesMax} {a : Area} {half : Half} {val : UInt32}
    (hf : ∀ q a, (w.mmio.queue q).address a = s.address q a) :
    (∀ q' a', ((w.mmio.setQueue q ((w.mmio.queue q).setAddress a
        (half.write val ((w.mmio.queue q).address a)))).queue q').address a' =
      (s.record q a half val).address q' a') ↔ half.Keeps val ((w.mmio.queue q).address a) := by
  -- elsewhere both sides are as they were
  have other : ∀ q' a', ¬ (q' = q ∧ a' = a) →
      ((w.mmio.setQueue q ((w.mmio.queue q).setAddress a
        (half.write val ((w.mmio.queue q).address a)))).queue q').address a' =
      (s.record q a half val).address q' a' := by
    intro q' a' hne
    have hrec : (s.record q a half val).address q' a' = s.address q' a' := by
      unfold Halves.address Halves.record
      dsimp only
      rw [if_neg (fun h => hne ⟨h.1, h.2.1⟩), if_neg (fun h => hne ⟨h.1, h.2.1⟩)]
    rw [hrec, ← hf]
    show (Function.update w.mmio.queue q _ q').address a' = _
    by_cases hq : q' = q
    · subst hq
      rw [Function.update_self, VringQueue.setAddress_of_ne fun ha => hne ⟨rfl, ha⟩]
    · rw [Function.update_of_ne hq]
  have here : ((w.mmio.setQueue q ((w.mmio.queue q).setAddress a
      (half.write val ((w.mmio.queue q).address a)))).queue q).address a =
      half.write val ((w.mmio.queue q).address a) := by
    show (Function.update w.mmio.queue q _ q).address a = _
    rw [Function.update_self, VringQueue.setAddress_self]
  have hcond : half.write val ((w.mmio.queue q).address a) = (s.record q a half val).address q a ↔
      half.Keeps val ((w.mmio.queue q).address a) := by
    have hhigh : ((w.mmio.queue q).address a >>> 32).toUInt32 = s.last q a .high := by
      rw [hf, Halves.address, join_high]
    unfold Half.Keeps
    rw [hhigh, hf, Halves.address]
    cases half with
    | low =>
      have hrec : (s.record q a .low val).address q a = join (s.last q a .high) val := by
        simp [Halves.address, Halves.record]
      rw [hrec, Half.write, join_low]
      exact ⟨fun h => (join_inj h).1.symm, fun h => by rw [h]⟩
    | high =>
      have hrec : (s.record q a .high val).address q a = join val (s.last q a .low) := by
        simp [Halves.address, Halves.record]
      rw [hrec, Half.write, join_or_high]
      exact ⟨fun h => (join_inj h).1, fun h => by rw [h]⟩
  constructor
  · intro h
    exact hcond.mp (here.symm.trans (h q a))
  · intro h q' a'
    by_cases hqa : q' = q ∧ a' = a
    · obtain ⟨rfl, rfl⟩ := hqa
      exact here.trans (hcond.mpr h)
    · exact other q' a' hqa

/-- After one access the addresses follow the halves exactly if the access met the condition. -/
lemma step_follows (mem : GuestMemory) (fuel : Nat) (exit : Mmio) (hf : w.Follows s)
    (hsel : w.mmio.currQueue = s.sel) :
    (handle fuel exit mem w).2.mmio.currQueue = (s.after exit).sel ∧
      ((handle fuel exit mem w).2.Follows (s.after exit) ↔ exit.KeepsHalves w) := by
  -- an access that writes no half: the addresses and what was last written both stay
  have same : ∀ w' : World D, (∀ q a, (w'.mmio.queue q).address a = (w.mmio.queue q).address a) →
      ∀ s' : Halves, s'.last = s.last → exit.half? w = none →
      (w'.Follows s' ↔ exit.KeepsHalves w) := by
    intro w' hw s' hs hnone
    constructor
    · intro _ q a half h
      rw [hnone] at h
      cases h
    · intro _ q a
      rw [hw, hs]
      exact hf q a
  unfold Halves.after
  -- only a write to QUEUE_SEL changes which queue the halves go to
  by_cases sel : exit.reg = .writeQueueSel
  · rw [if_pos sel]
    have run : ∃ data, access fuel mem _ exit.data .writeQueueSel w = (.ok data, _) :=
      access_run (by decide) (by decide) fuel mem (exit.physAddr &&& 0xfff).toUInt32 exit.data w
    obtain ⟨data, e⟩ := run
    have e' : handle fuel exit mem w = (.ok data, { w with
        mmio := { w.mmio with currQueue := readLe32 exit.data } }) := by
      show access fuel mem _ exit.data exit.reg w = _
      rw [sel, e]
      rfl
    rw [e']
    refine ⟨rfl, same _ (fun _ _ => rfl) _ rfl ?_⟩
    unfold Mmio.half?
    rw [sel]
    rfl
  · rw [if_neg sel]
    cases hh : exit.reg.half? with
    | none =>
      obtain ⟨hcurr, haddr⟩ := handle_noHalf mem fuel hh sel w
      refine ⟨hcurr.trans hsel, same _ haddr _ rfl ?_⟩
      unfold Mmio.half?
      rw [hh]
    | some p =>
      obtain ⟨a, half⟩ := p
      have notify : exit.reg ≠ .writeQueueNotify := by
        intro h
        rw [h] at hh
        cases hh
      have ack : exit.reg ≠ .writeInterruptAck := by
        intro h
        rw [h] at hh
        cases hh
      obtain ⟨data, e⟩ :=
        access_run notify ack fuel mem (exit.physAddr &&& 0xfff).toUInt32 exit.data w
      rw [effect_half hh] at e
      have e' : handle fuel exit mem w = _ := e
      rw [e', ← hsel]
      -- a half is dropped if the selected queue does not exist
      unfold VirtioMmio.onSelectedQueue
      cases hq : VirtioMmio.queueIndex w.mmio.currQueue with
      | none =>
        refine ⟨hsel, same _ (fun _ _ => rfl) _ rfl ?_⟩
        unfold Mmio.half?
        rw [hh, hq]
      | some q =>
        refine ⟨hsel, ?_⟩
        have hhalf : exit.half? w = some (q, a, half) := by
          unfold Mmio.half?
          rw [hh, hq]
        rw [World.follows_iff, Mmio.KeepsHalves]
        refine (record_follows (World.follows_iff.mp hf)).trans ?_
        constructor
        · intro h q' a' half' h'
          cases hhalf.symm.trans h'
          exact h
        · intro h
          exact h q a half hhalf

end Step

/-! ## Runs -/

/-- The world after accesses, each with the fuel of its loops, however each of them ends. -/
def runExits [VirtioDevice D] (mem : GuestMemory) (exits : List (Nat × Mmio))
    (w : World D) : World D :=
  exits.foldl (fun w exit => (handle exit.1 exit.2 mem w).2) w

/-- The halves written last by these accesses. -/
def Halves.ofExits (exits : List (Nat × Mmio)) (s : Halves) : Halves :=
  exits.foldl (fun s exit => s.after exit.2) s

section Run

variable [VirtioDevice D]

/-- The device follows a run exactly if it follows each of its writes. -/
lemma run_follows_iff {exits : List (Nat × Mmio)} {s : Halves} (hf : w.Follows s)
    (hsel : w.mmio.currQueue = s.sel) :
    (∀ k ≤ exits.length, (runExits mem (exits.take k) w).Follows (s.ofExits (exits.take k))) ↔
      ∀ k (hk : k < exits.length), exits[k].2.KeepsHalves (runExits mem (exits.take k) w) := by
  induction exits generalizing w s with
  | nil =>
    constructor
    · intro _ k hk
      cases hk
    · intro _ k hk
      rw [List.take_nil]
      exact hf
  | cons exit exits ih =>
    obtain ⟨hsel', hstep⟩ := step_follows mem exit.1 exit.2 hf hsel
    constructor
    · intro h k hk
      have first : (handle exit.1 exit.2 mem w).2.Follows (s.after exit.2) :=
        h 1 (Nat.succ_le_succ (Nat.zero_le _))
      cases k with
      | zero => exact hstep.mp first
      | succ k =>
        apply (ih first hsel').mp (fun k hk => ?_) k (Nat.lt_of_succ_lt_succ hk)
        exact h (k + 1) (Nat.succ_le_succ hk)
    · intro h k hk
      have first := hstep.mpr (h 0 (Nat.succ_pos _))
      cases k with
      | zero => exact hf
      | succ k =>
        apply (ih first hsel').mpr (fun k hk => ?_) k (Nat.le_of_succ_le_succ hk)
        exact h (k + 1) (Nat.succ_lt_succ hk)

/-- From a new transport on, every address is at all times the one its last halves make if and only
    if every access meets the condition. -/
theorem addresses_follow_iff (mem : GuestMemory) (exits : List (Nat × Mmio)) (w : World D)
    (h : NewTransport w) :
    (∀ k ≤ exits.length,
        (runExits mem (exits.take k) w).Follows (Halves.initial.ofExits (exits.take k))) ↔
      ∀ k (hk : k < exits.length), exits[k].2.KeepsHalves (runExits mem (exits.take k) w) := by
  obtain ⟨device, irq, hnew⟩ := h
  apply run_follows_iff
  · intro q a
    rw [hnew]
    cases a <;> simp [VirtioMmio.new, VringQueue.new, VringQueue.address, Halves.initial]
  · rw [hnew]
    rfl

end Run

/-- Not every order of the halves makes the address: the low half clears
what the high half had set. -/
theorem low_after_high_lost :
    ¬ ∀ (exits : List (Nat × Mmio)) (w : World VirtioNet), NewTransport w →
    (runExits onePage exits w).Follows (Halves.initial.ofExits exits) := by
  intro always
  have h := always [(0, .write 0x084 1), (0, .write 0x080 0x1000)] newNet ⟨_, _, rfl⟩ 0 .desc
  have last : (Halves.initial.ofExits [(0, .write 0x084 1), (0, .write 0x080 0x1000)]).last 0 .desc
    .high = 1 := by
    decide
  have low : (Halves.initial.ofExits [(0, .write 0x084 1), (0, .write 0x080 0x1000)]).last 0 .desc
    .low = 0x1000 := by
    decide
  have addr : (((runExits onePage [(0, .write 0x084 1), (0, .write 0x080 0x1000)] newNet).mmio.queue
    0).address
      .desc) = 0x1000 := by
    decide
  rw [last, low, addr] at h
  exact absurd h (by decide)

/-- The accesses of a driver that writes the low half first. -/
def lowFirst : List (Nat × Mmio) := [(0, .write 0x080 0x1000), (0, .write 0x084 1)]

/-- With the low half first the address is the one that was meant. -/
theorem low_before_high_kept :
    (((runExits onePage lowFirst newNet).mmio.queue 0).address .desc).toNat = 0x100001000 := by
  have keeps : ∀ k (hk : k < lowFirst.length),
      lowFirst[k].2.KeepsHalves (runExits onePage (lowFirst.take k) newNet) := by
    intro k hk q a half h
    match k, hk with
    | 0, _ =>
      have e : (Mmio.write 0x080 0x1000).half? newNet = some (0, .desc, .low) := by decide
      cases e.symm.trans h
      show _ = _
      decide
    | 1, _ =>
      have e : (Mmio.write 0x084 1).half? (runExits onePage [(0, .write 0x080 0x1000)] newNet) =
          some (0, .desc, .high) := by decide
      cases e.symm.trans h
      show ((((runExits onePage [(0, .write 0x080 0x1000)] newNet).mmio.queue 0).address
        .desc) >>> 32).toUInt32
        ||| readLe32 (Mmio.write 0x084 1).data = readLe32 (Mmio.write 0x084 1).data
      decide
  have follows :=
    (addresses_follow_iff onePage lowFirst newNet ⟨_, _, rfl⟩).mpr keeps 2 (Nat.le_refl 2)
  have halves : (Halves.initial.ofExits lowFirst).last 0 .desc .high = 1 ∧
      (Halves.initial.ofExits lowFirst).last 0 .desc .low = 0x1000 := by decide
  refine (follows 0 .desc).trans ?_
  show ((Halves.initial.ofExits lowFirst).last 0 .desc .high).toNat * 2 ^ 32 +
    ((Halves.initial.ofExits lowFirst).last 0 .desc .low).toNat = _
  rw [halves.1, halves.2]
  decide

end Hearth
