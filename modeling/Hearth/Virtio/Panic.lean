import Mathlib
import Hearth.Virtio.Access
import Hearth.Virtio.Termination

/-!
# When a device panics

The VMM reports a bad ring address or a bad device-writable buffer as an error, but unwraps the
addresses of descriptors and of device-readable buffers, indexes the status buffer and adds to a
length. For each operation a predicate on what the guest supplied says when it panics, and a lemma
that it panics exactly then (`walk_panic_iff`, `popAvail_panic_iff`, `VirtioBlk.process_panic_iff`,
`notifyTurn_panic_iff`). `calls_panic_iff` says when a whole run of register accesses and polls
panics, and `strayTable_panics` is one that does. `calls_finish` adds when the notifications of a
run end: then each of its calls returns.
-/

namespace Hearth
open Lib

variable {mem : GuestMemory} {h : Host}

/-! ## Queues -/

namespace VringQueue

/-- The walk comes to a descriptor outside guest memory, or to a device-readable
    buffer outside guest memory. A device-writable buffer outside guest memory ends
    it with an error before that. -/
def walkPanics (self : VringQueue) (mem : GuestMemory) (m : Mem) (checks : Bool) :
    (turns : Nat) → (idx : UInt16) → Bool
  | 0, _ => false
  | turns + 1, idx =>
    if self.DescFits checks idx then
      match self.descSpan? mem idx with
      | none => true
      | some s =>
        let d := m.load VringDesc s.base
        match d.buf? mem with
        | none => d.type = .read
        | some _ => d.hasNext && walkPanics self mem m checks turns d.next
    else
      true

/-- An addition that overflows panics where overflow is checked. -/
lemma addU64_panic {a b : UInt64} (hc : h.overflowChecks = true)
    (hle : 2 ^ 64 ≤ a.toNat + b.toNat) :
    addU64 a b h = (.panic, h) := if_pos ⟨hc, hle⟩

/-- The address of a table entry that overflows panics where overflow is checked. -/
lemma getDescHead_overflow {self : VringQueue} {idx : UInt16}
    (hf : ¬ self.DescFits h.overflowChecks idx) : self.getDescHead idx mem h = (.panic, h) := by
  obtain ⟨hc, hlt⟩ := Classical.not_imp.mp hf
  refine Eff.bind_of_panic (addU64_panic hc ?_)
  rw [size_vringDesc, descOffset_toNat]
  omega

/-- A table entry outside guest memory panics. -/
lemma getDescHead_outside {self : VringQueue} {idx : UInt16}
    (fits : self.DescFits h.overflowChecks idx) (hs : self.descSpan? mem idx = none) :
    self.getDescHead idx mem h = (.panic, h) := by
  have hp := Option.map_eq_none_iff.mp hs
  unfold getDescHead
  rw [size_vringDesc, Eff.bind_of_ok (addU64_run fits), hp]
  rfl

/-- A buffer outside guest memory is an error if the device writes it, a panic if it reads it. -/
lemma addDesc_outside {d : VringDesc} (chain : DescChain) (hb : d.buf? mem = none) :
    addDesc mem d chain h = (if d.type = .read then .panic
      else .err (.vringAddress d.addr), h) := by
  have hp := Option.map_eq_none_iff.mp hb
  unfold addDesc
  cases d.type with
  | write =>
    dsimp only
    rw [guestPtr, hp]
    rfl
  | read =>
    refine Eff.bind_of_panic ?_
    rw [VringDesc.getData, hp]
    rfl

/-- A walk panics where `walkPanics` says, by induction on its turns. -/
lemma walk_panic_iff {self : VringQueue} {turns : Nat} {idx : UInt16} {chain : DescChain} :
    (self.walk mem turns idx chain h).1 = .panic ↔
      self.walkPanics mem h.mem h.overflowChecks turns idx = true := by
  induction turns generalizing idx chain h with
  | zero => simp [walk, walkPanics]
  | succ turns ih =>
    rw [walkPanics]
    by_cases fits : self.DescFits h.overflowChecks idx
    · rw [if_pos fits]
      cases hs : self.descSpan? mem idx with
      | none =>
        rw [walk, Eff.bind_of_panic (getDescHead_outside fits hs)]
        simp
      | some s =>
        dsimp only
        cases hb : (h.mem.load VringDesc s.base).buf? mem with
        | none =>
          have hadd := addDesc_outside (h := h.note (.read s)) chain hb
          rw [walk, Eff.bind_of_ok (getDescHead_run fits hs)]
          by_cases hr : (h.mem.load VringDesc s.base).type = .read
          · rw [if_pos hr] at hadd
            rw [Eff.bind_of_panic hadd]
            simp [hr]
          · rw [if_neg hr] at hadd
            rw [Eff.bind_of_err hadd]
            simp [hr]
        | some b =>
          obtain ⟨h', ⟨ev, rfl⟩, run⟩ := walk_step turns chain fits hs hb
          rw [run]
          by_cases next : (h.mem.load VringDesc s.base).hasNext
          · rw [if_pos next, ih]
            simp [next]
          · rw [if_neg next]
            simp [next]
    · rw [if_neg fits, walk, Eff.bind_of_panic (getDescHead_overflow fits)]
      simp

/-- Taking a chain panics if there is one whose walk does. -/
lemma popAvail_panic_iff {self : VringQueue} (h0 : self.num ≠ 0) :
    (self.popAvail mem h).1 = .panic ↔
      ∃ ptr, gpaToHost mem self.avail self.availSize = some ptr ∧
        self.lastAvailIdx ≠ h.mem.load UInt16 (ptr + 2) ∧
        self.walkPanics mem h.mem h.overflowChecks self.num.toNat
          (h.mem.load UInt16 (self.availEntry ptr)) = true := by
  unfold popAvail guestPtr
  cases hp : gpaToHost mem self.avail self.availSize with
  | none => simp
  | some ptr =>
    rw [Eff.okOr_some, Eff.pure_bind_run, Eff.bind_of_ok (readGuestPtr_run ..), load_vringAvail]
    dsimp only
    by_cases heq : self.lastAvailIdx = h.mem.load UInt16 (ptr + 2)
    · rw [if_pos heq]
      simp [heq]
    · rw [if_neg heq, remU32, if_neg h0, Eff.pure_bind_run, slot_toNat,
        Eff.bind_of_ok (readGuestPtr_run ..), Eff.bind_panic_iff, walk_panic_iff]
      simp [heq, Host.note, availEntry]

/-- Handing a chain back does not panic. -/
lemma pushUsed_no_panic (self : VringQueue) (h0 : self.num ≠ 0) (head : UInt16) (len : UInt32) :
    (self.pushUsed mem head len h).1 ≠ .panic := by
  cases hp : gpaToHost mem self.used self.usedSize with
  | some ptr =>
    obtain ⟨h', run, -⟩ := pushUsed_run self head len hp h0
    rw [run]
    simp
  | none =>
    unfold pushUsed guestPtr
    rw [hp]
    simp

end VringQueue

/-- The interrupt line never panics. -/
lemma archUpdateIrq_no_panic (level num : UInt32) : (archUpdateIrq level num h).1 ≠ .panic := by
  unfold archUpdateIrq
  split <;> simp

/-! ## Devices -/

/-- A device of which it is known when a request makes it panic. -/
class PanicDevice (D : Type) extends WritingDevice D where
  processPanics : (checks : Bool) → (queue : UInt32) → DescChain → D → Prop
  process_panic_iff : ∀ queue chain (s : Host × D), (chain.writeBuf.map Span.len).sum < 2 ^ 64 →
    ((VirtioDevice.process queue chain s).1 = .panic ↔
      processPanics s.1.overflowChecks queue chain s.2)

/-- The host reads all of the buffers from the file, the first at
`offset` and the others after it. -/
def File.readsAll (self : File) : (offset : Nat) → List Span → Bool
  | _, [] => true
  | offset, buf :: bufs =>
    let r := self.readExactAt buf.len offset
    r.2.1 && readsAll r.2.2 (offset + buf.len) bufs

namespace VirtioBlk

/-- The range lies on the disk and the host reads all of it. -/
def ReadSucceeds (sector : UInt64) (data : List Span) (self : VirtioBlk) : Prop :=
  ∃ offset, self.diskOffset sector (data.map Span.len).sum = .ok offset ∧
    self.disk.readsAll offset data = true

/-- The request is a read that succeeds, and the length it returns is the largest of 32 bits, so
    that the status byte cannot be added to it. -/
def FillsLength (outhdr : VirtioBlkOuthdr) (data : List Span) (self : VirtioBlk) : Prop :=
  outhdr.type = virtioBlkTIn ∧ (data.map Span.len).sum % 2 ^ 32 = 2 ^ 32 - 1 ∧
    self.ReadSucceeds outhdr.sector data

/-- A request with a header whose last writable buffer is empty; or, where overflow is checked, one
    whose read fills the length. -/
def ProcessPanics (checks : Bool) (chain : DescChain) (self : VirtioBlk) : Prop :=
  ∃ outhdr status, newFrom VirtioBlkOuthdr chain.readBuf = some outhdr ∧
    chain.writeBuf.getLast? = some status ∧
    (status.len = 0 ∨ (checks = true ∧ FillsLength outhdr chain.writeBuf.dropLast self))

/-- The loop over the buffers goes well or fails as the disk does. -/
lemma readBufs_run (offset : Nat) (data : List Span) (s : Host × VirtioBlk) :
    (readBufs offset data s).1 =
      .ok (if s.2.disk.readsAll offset data then .ok () else .error .os) := by
  induction data generalizing offset s with
  | nil => rfl
  | cons buf data ih =>
    rw [readBufs_cons, File.readsAll]
    dsimp only
    cases (s.2.disk.readExactAt buf.len offset).2.1 with
    | false => rfl
    | true => exact ih _ _

/-- A read never panics, and gives the length of its buffers if the disk has them all. -/
lemma read_run (sector : UInt64) {data : List Span} (s : Host × VirtioBlk)
    (hlt : (data.map Span.len).sum < 2 ^ 64) :
    ∃ r, (read sector data s).1 = .ok r ∧
      ∀ len, r = .ok len ↔
        len = UInt32.ofNat (data.map Span.len).sum ∧ s.2.ReadSucceeds sector data := by
  have hsum : host (sumUsize 0 (data.map Span.len)) s = (.ok (data.map Span.len).sum, s) := by
    rw [host, Eff.zoom_run, sumUsize_run (by omega), Nat.zero_add]
  unfold read ReadSucceeds
  rw [Eff.bind_of_ok hsum, Eff.gets_bind_run]
  cases hd : s.2.diskOffset sector (data.map Span.len).sum with
  | error e => exact ⟨.error e, rfl, by simp⟩
  | ok offset =>
    have hr := readBufs_run offset data s
    rcases e : readBufs offset data s with ⟨o, s'⟩
    rw [e] at hr
    dsimp only at hr
    subst hr
    dsimp only
    rw [Eff.bind_of_ok e]
    cases hall : s.2.disk.readsAll offset data with
    | false => exact ⟨.error .os, rfl, by simp [hall]⟩
    | true =>
      refine ⟨_, rfl, fun len => ⟨fun h => ?_, fun ⟨h, _⟩ => by rw [h]⟩⟩
      cases h
      exact ⟨rfl, offset, rfl, hall⟩

/-- A write never panics. -/
lemma write_run (sector : UInt64) (data : List UInt8) (s : Host × VirtioBlk) :
    ∃ r s', write sector data s = (.ok r, s') := by
  unfold write
  rw [Eff.gets_bind_run]
  cases s.2.diskOffset sector data.length with
  | error e => exact ⟨_, _, rfl⟩
  | ok offset => exact ⟨_, _, rfl⟩

/-- No request panics; one reports the largest number of bytes exactly if it is a
    read that fills the length. -/
lemma request_run (outhdr : VirtioBlkOuthdr) {data : List Span} (outData : List UInt8)
    (s : Host × VirtioBlk) (hlt : (data.map Span.len).sum < 2 ^ 64) :
    ∃ r, (request outhdr data outData s).1 = .ok r ∧
      ((∃ res, r = some (res, 0xffffffff)) ↔ FillsLength outhdr data s.2) := by
  unfold request FillsLength
  by_cases hin : outhdr.type = virtioBlkTIn
  · rw [if_pos hin]
    obtain ⟨r, run, hr⟩ := read_run outhdr.sector s hlt
    rcases e : read outhdr.sector data s with ⟨o, s'⟩
    rw [e] at run
    dsimp only at run
    subst run
    rw [Eff.bind_of_ok e]
    have hmax : (0xffffffff : UInt32) = UInt32.ofNat (data.map Span.len).sum ↔
        (data.map Span.len).sum % 2 ^ 32 = 2 ^ 32 - 1 := by
      rw [← UInt32.toNat_inj, UInt32.toNat_ofNat']
      exact eq_comm
    cases r with
    | error e1 =>
      refine ⟨some (.error e1, 0), rfl, by simp, fun ⟨_, hsum, hs⟩ => ?_⟩
      cases (hr _).mpr ⟨rfl, hs⟩
    | ok len =>
      obtain ⟨rfl, hs⟩ := (hr len).mp rfl
      refine ⟨some (.ok (), _), rfl, fun ⟨res, h⟩ => ?_, fun ⟨_, hsum, _⟩ => ⟨.ok (), ?_⟩⟩
      · simp only [Option.some.injEq, Prod.mk.injEq] at h
        exact ⟨hin, hmax.mp h.2.symm, hs⟩
      · rw [← hmax.mpr hsum]
  · rw [if_neg hin]
    simp only [hin, false_and, iff_false, not_exists]
    by_cases hout : outhdr.type = virtioBlkTOut
    · rw [if_pos hout]
      obtain ⟨r, s', e⟩ := write_run outhdr.sector outData s
      rw [Eff.bind_of_ok e]
      exact ⟨_, rfl, by simp⟩
    · rw [if_neg hout]
      by_cases hflush : outhdr.type = virtioBlkTFlush
      · rw [if_pos hflush]
        exact ⟨_, rfl, by simp⟩
      · rw [if_neg hflush]
        exact ⟨none, rfl, by simp⟩

/-- The status byte overflows the length only at its maximum. -/
lemma addU32_panic_iff {a : UInt32} :
    (addU32 a 1 h).1 = .panic ↔ h.overflowChecks = true ∧ a = 0xffffffff := by
  have ha := a.toNat_lt
  have hmax : 2 ^ 32 ≤ a.toNat + (1 : UInt32).toNat ↔ a = 0xffffffff := by
    rw [← UInt32.toNat_inj, UInt32.toNat_one]
    exact ⟨fun h => (by omega : a.toNat = 2 ^ 32 - 1), fun h => (by rw [h]; decide)⟩
  unfold addU32
  split
  · next hc => exact ⟨fun _ => ⟨hc.1, hmax.mp hc.2⟩, fun _ => rfl⟩
  · next hc => exact ⟨nofun, fun ⟨hc', ha'⟩ => absurd ⟨hc', hmax.mpr ha'⟩ hc⟩

/-- When a request makes virtio-blk panic. -/
lemma process_panic_iff (chain : DescChain) (s : Host × VirtioBlk)
    (hlt : (chain.writeBuf.map Span.len).sum < 2 ^ 64) :
    (process chain s).1 = .panic ↔ ProcessPanics s.1.overflowChecks chain s.2 := by
  unfold process ProcessPanics
  cases hn : newFrom VirtioBlkOuthdr chain.readBuf with
  | none => simp
  | some outhdr =>
    cases hl : chain.writeBuf.getLast? with
    | none => simp
    | some status =>
      have hdata : (chain.writeBuf.dropLast.map Span.len).sum < 2 ^ 64 := by
        rw [← List.dropLast_append_getLast? status hl, List.map_append, List.sum_append] at hlt
        omega
      obtain ⟨r, run, hr⟩ := request_run outhdr
        (chain.readBuf.drop (Layout.size VirtioBlkOuthdr)) s hdata
      have touches := request_touches outhdr chain.writeBuf.dropLast
        (chain.readBuf.drop (Layout.size VirtioBlkOuthdr)) (fun _ hb => hb) s
      rcases e : request outhdr chain.writeBuf.dropLast
        (chain.readBuf.drop (Layout.size VirtioBlkOuthdr)) s with ⟨o, s'⟩
      rw [e] at run touches
      dsimp only at run
      subst run
      have hchecks := touches.checks
      dsimp only at hchecks
      simp only [Eff.okOr_some, Eff.pure_bind_run]
      rw [Eff.bind_of_ok e]
      -- an empty status buffer panics whatever the request did
      by_cases h0 : status.len = 0
      · have hpanic :
          ∀ value {f : Unit → BlkM UInt32}, ((setStatus status value >>= f) s').1 = .panic :=
          fun value f => by rw [Eff.bind_of_panic (setStatus_empty h0 value s')]
        cases r <;> simp [hpanic, h0]
      · cases r with
        | none =>
          dsimp only
          rw [Eff.bind_of_ok (setStatus_run h0 virtioBlkSUnsupp s')]
          simp [h0, ← hr]
        | some r =>
          obtain ⟨res, written⟩ := r
          -- the other panic is that of the length, counted with the status byte
          have key : ∀ value, ((setStatus status value >>= fun _ => host (addU32 written 1)) s').1 =
              .panic ↔ s.1.overflowChecks = true ∧ written = 0xffffffff := by
            intro value
            have hadd : ∀ s2, (host (addU32 written 1) s2).1 = (addU32 written 1 s2.1).1 :=
              fun _ => rfl
            rw [Eff.bind_of_ok (setStatus_run h0 value s'), hadd, addU32_panic_iff, ← hchecks]
            rfl
          dsimp only
          rw [key]
          simp [h0, ← hr]

end VirtioBlk

/-- When virtio-blk panics. -/
instance : PanicDevice VirtioBlk where
  processPanics checks _ chain self := VirtioBlk.ProcessPanics checks chain self
  process_panic_iff _ chain s hlt := VirtioBlk.process_panic_iff chain s hlt

namespace VirtioNet

/-- Scattering a frame never panics. -/
lemma scatter_no_panic (frame : List UInt8) (copied : Nat) (data : List Span)
    (s : Host × VirtioNet) :
    (scatter frame copied data s).1 ≠ .panic := by
  induction data generalizing copied s with
  | nil =>
    intro h
    cases h
  | cons buf data ih =>
    unfold scatter
    split
    · intro h
      cases h
    · exact ih _ _

/-- No request makes virtio-net panic. -/
lemma process_no_panic (queue : UInt32) (chain : DescChain) (s : Host × VirtioNet) :
    (process queue chain s).1 ≠ .panic := by
  unfold process
  split
  · rw [Ne, Eff.bind_panic_iff]
    rintro (h | ⟨frame, s', -, h⟩)
    · cases h
    · cases frame with
      | none => cases h
      | some frame =>
        rcases Eff.bind_panic_iff.mp h with h | ⟨_, _, -, h⟩
        · exact scatter_no_panic _ _ _ _ h
        · cases h
  · split
    · rw [Ne, Eff.bind_panic_iff, Eff.okOr_panic_iff]
      rintro (h | ⟨_, s', -, h⟩)
      · exact h
      · cases h
    · nofun

end VirtioNet

/-- virtio-net never panics. -/
instance : PanicDevice VirtioNet where
  processPanics _ _ _ _ := False
  process_panic_iff queue chain s _ :=
    iff_of_false (VirtioNet.process_no_panic queue chain s) not_false

/-! ## Turns -/

/-- A chain has no more descriptors than the queue. -/
lemma VringQueue.chainDescs_length {self : VringQueue} {m : Mem} {turns : Nat} {idx : UInt16}
    {ds : List (UInt16 × VringDesc)} (hds : self.chainDescs mem m turns idx = some ds) :
    ds.length ≤ turns := by
  induction turns generalizing idx ds with
  | zero => cases hds; exact Nat.le_refl _
  | succ turns ih =>
    rw [chainDescs] at hds
    cases hs : self.descSpan? mem idx with
    | none => rw [hs] at hds; cases hds
    | some s =>
      rw [hs] at hds
      dsimp only at hds
      split at hds
      · obtain ⟨ds', hds', rfl⟩ := Option.map_eq_some_iff.mp hds
        exact Nat.succ_le_succ (ih hds')
      · cases hds
        exact Nat.succ_le_succ (Nat.zero_le _)

/-- The buffers of a chain have no more bytes than its descriptors say. -/
lemma writeBufs_sum (mem : GuestMemory) {ds : List VringDesc} {bound : Nat}
    (hlen : ∀ d ∈ ds, d.len.toNat ≤ bound) :
    ((writeBufs mem ds).map Span.len).sum ≤ ds.length * bound := by
  induction ds with
  | nil => simp [writeBufs]
  | cons d ds ih =>
    have hd := hlen d List.mem_cons_self
    have htail := ih fun d' hd' => hlen d' (List.mem_cons_of_mem _ hd')
    unfold writeBufs at htail ⊢
    rw [List.filter_cons, List.length_cons, Nat.succ_mul]
    split
    · cases hb : d.buf? mem with
      | none => rw [List.filterMap_cons_none hb]; omega
      | some b =>
        obtain ⟨ptr, -, rfl⟩ := Option.map_eq_some_iff.mp hb
        rw [List.filterMap_cons_some hb, List.map_cons, List.sum_cons]
        dsimp only
        omega
    · omega

/-- The buffers of a chain are fewer than 2^32, each of less than 2^32 bytes. -/
lemma VringQueue.writeBuf_sum_lt {self : VringQueue} {m : Mem} {num : UInt32} {idx : UInt16}
    {ds : List (UInt16 × VringDesc)} (hds : self.chainDescs mem m num.toNat idx = some ds)
    (head : UInt16) :
    ((DescChain.addBufs mem m (ds.map Prod.snd) ⟨head, [], []⟩).writeBuf.map Span.len).sum <
      2 ^ 64 := by
  have hsum := writeBufs_sum mem fun (d : VringDesc) (_ : d ∈ ds.map Prod.snd) =>
    Nat.le_of_lt d.len.toNat_lt
  rw [List.length_map] at hsum
  have hlt : ds.length < 2 ^ 32 := Nat.lt_of_le_of_lt (chainDescs_length hds) num.toNat_lt
  calc _ ≤ ds.length * 2 ^ 32 := hsum
    _ < 2 ^ 32 * 2 ^ 32 := Nat.mul_lt_mul_of_pos_right hlt (Nat.two_pow_pos 32)
    _ = 2 ^ 64 := by rw [← Nat.pow_add]

section Transport

variable {D : Type} [PanicDevice D] {q : Fin vringQueuesMax} {w w' : World D}

/-- The next turn of queue `q` panics: the device takes a chain, and the walk over it panics or the
    device panics over what it describes. -/
def TurnPanics (mem : GuestMemory) (q : Fin vringQueuesMax) (w : World D) : Prop :=
  let self := w.mmio.queue q
  let m := w.host.mem
  let checks := w.host.overflowChecks
  VirtioDevice.canProcess w.mmio.device (UInt32.ofNat q) = true ∧
    ∃ ptr, gpaToHost mem self.avail self.availSize = some ptr ∧
      self.lastAvailIdx ≠ m.load UInt16 (ptr + 2) ∧
      let head := m.load UInt16 (self.availEntry ptr)
      (self.walkPanics mem m checks self.num.toNat head = true ∨
        ∃ ds, self.chainDescs mem m self.num.toNat head = some ds ∧ self.ChainFits mem checks ds ∧
          PanicDevice.processPanics checks (UInt32.ofNat q)
            (DescChain.addBufs mem m (ds.map Prod.snd) ⟨head, [], []⟩) w.mmio.device)

/-- A chain that is taken makes a turn panic if it makes the device panic; what follows does not. -/
lemma turn_tail_panic_iff {chain : DescChain} {queue : VringQueue} {irq : UInt32}
    (h0 : queue.num ≠ 0) (w : World D) :
    (((do
      let len ← onDevice (VirtioDevice.process (UInt32.ofNat q) chain)
      onHost (queue.pushUsed mem chain.head len)
      Eff.modify World.raiseVring
      onHost (archUpdateIrq 1 irq)
      pure true : WorldM D Bool) w).1 = .panic) ↔
      (VirtioDevice.process (UInt32.ofNat q) chain (w.host, w.mmio.device)).1 = .panic := by
  rw [Eff.bind_panic_iff]
  refine or_iff_left ?_
  rintro ⟨len, w1, -, h⟩
  rcases Eff.bind_panic_iff.mp h with h | ⟨_, w2, -, h⟩
  · exact VringQueue.pushUsed_no_panic queue h0 chain.head len h
  rw [Eff.modify_bind_run] at h
  rcases Eff.bind_panic_iff.mp h with h | ⟨_, w3, -, h⟩
  · exact archUpdateIrq_no_panic _ _ h
  · cases h

/-- A turn panics where the chain it takes does. -/
lemma notifyTurn_panic_iff (h0 : (w.mmio.queue q).num ≠ 0) :
    (notifyTurn q mem w).1 = .panic ↔ TurnPanics mem q w := by
  unfold notifyTurn TurnPanics
  rw [Eff.gets_bind_run, id]
  by_cases can : VirtioDevice.canProcess w.mmio.device (UInt32.ofNat q) = true
  swap
  · rw [if_neg can]
    simp [can]
  rw [if_pos can, Eff.bind_panic_iff]
  have hpop : (onHost ((w.mmio.queue q).popAvail mem) w).1 = .panic ↔ _ :=
    VringQueue.popAvail_panic_iff h0
  have h0' : ({ w.mmio.queue q with
      lastAvailIdx := (w.mmio.queue q).lastAvailIdx + 1 } : VringQueue).num ≠ 0 := h0
  rw [hpop]
  constructor
  · rintro (⟨ptr, hp, hne, hw⟩ | ⟨⟨chain, queue⟩, w1, e, h⟩)
    · exact ⟨can, ptr, hp, hne, .inl hw⟩
    · dsimp only at h
      rw [Eff.modify_bind_run] at h
      obtain ⟨pop, m1⟩ := onHost_ok e
      obtain ⟨ptr, hp, ⟨ev, hn⟩, ⟨-, rfl, -⟩ | ⟨hne, -, rfl, ds, hds, fits, rfl⟩⟩ :=
        VringQueue.popAvail_ok pop
      · cases h
      · have hproc := (turn_tail_panic_iff (q := q) h0' _).mp h
        have hpanic := (PanicDevice.process_panic_iff _ _ _
          (VringQueue.writeBuf_sum_lt hds _)).mp hproc
        simp only [World.setQueue, VirtioMmio.setQueue, m1, hn] at hpanic
        exact ⟨can, ptr, hp, hne, .inr ⟨ds, hds, fits, hpanic⟩⟩
  · rintro ⟨-, ptr, hp, hne, hw | ⟨ds, hds, fits, hpanic⟩⟩
    · exact .inl ⟨ptr, hp, hne, hw⟩
    · obtain ⟨h', run, ev, rfl⟩ := VringQueue.popAvail_run (w.mmio.queue q) hp hne h0 hds fits
      refine .inr ⟨_, _, onHost_run run, ?_⟩
      dsimp only
      rw [Eff.modify_bind_run]
      refine (turn_tail_panic_iff (q := q) h0' _).mpr ?_
      exact (PanicDevice.process_panic_iff _ _ _ (VringQueue.writeBuf_sum_lt hds _)).mpr hpanic

/-- Notifying the queue makes the VMM panic: the queue is set up, and the loop comes to a turn that
    panics. -/
def NotifyPanics (mem : GuestMemory) (queueIdx : UInt32) (w : World D) : Prop :=
  ∃ q, VirtioMmio.queueIndex queueIdx = some q ∧ (w.mmio.queue q).ready ≠ 0 ∧
    (w.mmio.queue q).num ≠ 0 ∧
      ∃ w₁, Eff.Iter (notifyTurn q mem) w w₁ ∧ TurnPanics mem q w₁

/-- A notification panics if a turn it comes to does. -/
lemma queueNotify_panic_iff {queueIdx : UInt32} :
    (∃ fuel, (queueNotify fuel queueIdx mem w).1 = .panic) ↔ NotifyPanics mem queueIdx w := by
  unfold NotifyPanics
  cases hq : VirtioMmio.queueIndex queueIdx with
  | none => simp [queueNotify_none hq]
  | some q =>
    simp only [queueNotify_some hq, Option.some.injEq, exists_eq_left']
    by_cases h0 : (w.mmio.queue q).ready = 0 ∨ (w.mmio.queue q).num = 0
    · simp only [if_pos h0, reduceCtorEq, exists_false, false_iff]
      exact fun ⟨hready, hnum, _⟩ => h0.elim hready hnum
    · simp only [if_neg h0, Eff.loop_panic_iff]
      obtain ⟨hready, hnum⟩ := not_or.mp h0
      have turn : ∀ w₁, Eff.Iter (notifyTurn q mem) w w₁ →
          ((notifyTurn q mem w₁).1 = .panic ↔ TurnPanics mem q w₁) := by
        intro w₁ it
        obtain ⟨idx, h⟩ := iter_queue it
        exact notifyTurn_panic_iff (by rw [h]; exact hnum)
      refine ⟨fun ⟨w₁, it, h⟩ => ⟨hready, hnum, w₁, it, (turn w₁ it).mp h⟩, ?_⟩
      exact fun ⟨_, _, w₁, it, h⟩ => ⟨w₁, it, (turn w₁ it).mpr h⟩

/-- A notification that has ended stays so with more fuel. -/
lemma queueNotify_stable (queueIdx : UInt32) (mem : GuestMemory) :
    Eff.Stable fun fuel => queueNotify (D := D) fuel queueIdx mem := by
  intro n m s hle h
  cases hq : VirtioMmio.queueIndex queueIdx with
  | none => dsimp only; rw [queueNotify_none hq, queueNotify_none hq]
  | some q =>
    dsimp only at h ⊢
    rw [queueNotify_some hq] at h ⊢
    rw [queueNotify_some hq]
    by_cases h0 : (s.mmio.queue q).ready = 0 ∨ (s.mmio.queue q).num = 0
    · rw [if_pos h0, if_pos h0]
    · rw [if_neg h0] at h ⊢
      rw [if_neg h0]
      exact Eff.stable_loop _ n m s hle h

/-! ## Runs of accesses and polls -/

/-- What happens to a transport, one after the other. -/
inductive Call (D : Type) where
  /-- the guest accesses a register -/
  | access (exit : Mmio)
  /-- the vcpu thread polls the device -/
  | poll
  /-- the guest runs, and leaves its memory like this -/
  | guest (mem : Mem)
  /-- something outside the guest, such as a frame that arrives, changes the device -/
  | outside (device : D)

/-- What a call does. -/
def Call.run (fuel : Nat) (mem : GuestMemory) : Call D → WorldM D Unit
  | .access exit => do
    let _ ← handle fuel exit mem
  | .poll => Hearth.poll fuel mem
  | .guest m => Eff.modify fun w => { w with host := { w.host with mem := m } }
  | .outside d => Eff.modify fun w => { w with mmio := { w.mmio with device := d } }

/-- A run; it ends early with an error or a panic. -/
def runCalls (fuel : Nat) (mem : GuestMemory) : List (Call D) → WorldM D Unit
  | [] => pure ()
  | c :: cs => do
    c.run fuel mem
    runCalls fuel mem cs

/-- The call panics: it notifies a queue, or polls both, and the notification of one panics. -/
def Call.Panics (mem : GuestMemory) (w : World D) : Call D → Prop
  | .access exit => ∃ queueIdx, exit.notified = some queueIdx ∧ NotifyPanics mem queueIdx w
  | .poll => NotifyPanics mem 0 w ∨
      ∃ fuel w₁, queueNotify fuel 0 mem w = (.ok (), w₁) ∧ NotifyPanics mem 1 w₁
  | .guest _ => False
  | .outside _ => False

/-- Every register access but a notification ends without a panic. -/
lemma access_stable (mem : GuestMemory) (addr : UInt32) (data : List UInt8) (reg : Reg) :
    Eff.Stable fun fuel => access (D := D) fuel mem addr data reg := by
  refine Eff.Stable.bind (Eff.stable_const _) fun self => ?_
  cases reg
  case writeQueueNotify =>
    exact Eff.Stable.bind (queueNotify_stable _ mem) fun _ => Eff.stable_const _
  all_goals exact Eff.stable_const _

/-- An access that has ended stays so with more fuel. -/
lemma handle_stable (mem : GuestMemory) (exit : Mmio) :
    Eff.Stable fun fuel => handle (D := D) fuel exit mem := access_stable mem _ _ _

/-- A poll that has ended stays so with more fuel. -/
lemma poll_stable (mem : GuestMemory) : Eff.Stable fun fuel => poll (D := D) fuel mem :=
  Eff.Stable.bind (queueNotify_stable 0 mem) fun _ => queueNotify_stable 1 mem

/-- A call that has ended stays so with more fuel. -/
lemma Call.run_stable (mem : GuestMemory) (c : Call D) :
    Eff.Stable fun fuel => c.run fuel mem := by
  cases c with
  | access exit => exact Eff.Stable.bind (handle_stable mem exit) fun _ => Eff.stable_const _
  | poll => exact poll_stable mem
  | guest m => exact Eff.stable_const _
  | outside d => exact Eff.stable_const _

/-- A run of calls that has ended stays so with more fuel. -/
lemma runCalls_stable (mem : GuestMemory) (cs : List (Call D)) :
    Eff.Stable fun fuel => runCalls fuel mem cs := by
  induction cs with
  | nil => exact Eff.stable_const _
  | cons c cs ih => exact Eff.Stable.bind (c.run_stable mem) fun _ => ih

/-- Only an access that notifies panics. -/
lemma access_panic_iff {fuel : Nat} {addr : UInt32} {data : List UInt8} {reg : Reg} :
    (access fuel mem addr data reg w).1 = .panic ↔
      reg = .writeQueueNotify ∧ (queueNotify fuel (readLe32 data) mem w).1 = .panic := by
  unfold access
  rw [Eff.gets_bind_run]
  cases reg
  case writeQueueNotify =>
    rw [Eff.bind_panic_iff]
    simp
  case writeInterruptAck =>
    simp only [reduceCtorEq, false_and, iff_false, Eff.modify_bind_run]
    intro h
    rcases Eff.bind_panic_iff.mp h with h | ⟨_, _, -, h⟩
    · exact archUpdateIrq_no_panic _ _ h
    · cases h
  all_goals simp

/-- An exit panics if it notifies a queue and that panics. -/
lemma handle_panic_iff {fuel : Nat} {exit : Mmio} :
    (handle fuel exit mem w).1 = .panic ↔
      ∃ queueIdx, exit.notified = some queueIdx ∧ (queueNotify fuel queueIdx mem w).1 = .panic := by
  unfold handle Mmio.notified
  rw [access_panic_iff]
  cases exit.isWrite
  · simp [decodeRead_ne_notify]
  · simp [decodeWrite_notify_iff, and_assoc]

/-- A call panics if it notifies a queue and that panics. -/
lemma Call.run_panic_iff {c : Call D} :
    (∃ fuel, (c.run fuel mem w).1 = .panic) ↔ c.Panics mem w := by
  cases c with
  | access exit =>
    have hrun : ∀ fuel, ((Call.access exit : Call D).run fuel mem w).1 = .panic ↔
        (handle fuel exit mem w).1 = .panic := by
      intro fuel
      rw [Call.run, Eff.bind_panic_iff]
      simp
    simp only [hrun, handle_panic_iff, Call.Panics, ← queueNotify_panic_iff]
    exact ⟨fun ⟨fuel, i, hi, h⟩ => ⟨i, hi, fuel, h⟩, fun ⟨i, hi, fuel, h⟩ => ⟨fuel, i, hi, h⟩⟩
  | poll =>
    have h := Eff.Stable.bind_panic_iff (queueNotify_stable (D := D) 0 mem)
      (f := fun fuel _ => queueNotify fuel 1 mem) (fun _ => queueNotify_stable 1 mem) (s := w)
    simp only [queueNotify_panic_iff] at h
    refine h.trans (or_congr_right ?_)
    exact ⟨fun ⟨n, _, w₁, e, h⟩ => ⟨n, w₁, e, h⟩, fun ⟨n, w₁, e, h⟩ => ⟨n, (), w₁, e, h⟩⟩
  | guest m => simp [Call.run, Call.Panics]
  | outside d => simp [Call.run, Call.Panics]

/-- The runs that panic: a run of register accesses and polls panics exactly if it comes to a call
    that notifies a queue where the loop meets a chain that panics. -/
lemma calls_panic_iff (calls : List (Call D)) (w : World D) :
    (∃ fuel, (runCalls fuel mem calls w).1 = .panic) ↔
      ∃ before c after, calls = before ++ c :: after ∧
        ∃ fuel w₁, runCalls fuel mem before w = (.ok (), w₁) ∧ c.Panics mem w₁ := by
  induction calls generalizing w with
  | nil => simp [runCalls]
  | cons c cs ih =>
    have h := Eff.Stable.bind_panic_iff (c.run_stable mem)
      (f := fun fuel _ => runCalls fuel mem cs) (fun _ => runCalls_stable mem cs) (s := w)
    refine h.trans ?_
    simp only [c.run_panic_iff, ih]
    constructor
    · rintro (h | ⟨n, _, w₁, e, before, c', after, rfl, m, w₂, e', h⟩)
      · exact ⟨[], c, cs, rfl, 0, w, rfl, h⟩
      · refine ⟨c :: before, c', after, rfl, ?_⟩
        have e1 := (c.run_stable mem).ok (Nat.le_max_left n m) e
        have e2 := (runCalls_stable mem before).ok (Nat.le_max_right n m) e'
        exact ⟨max n m, w₂, (Eff.bind_of_ok e1).trans e2, h⟩
    · rintro ⟨before, c', after, hcs, n, w₂, e, hc⟩
      cases before with
      | nil =>
        cases hcs
        cases e
        exact .inl hc
      | cons b before =>
        cases hcs
        obtain ⟨_, w₁, e1, e2⟩ := Eff.bind_ok_iff.mp e
        exact .inr ⟨n, (), w₁, e1, before, c', after, rfl, n, w₂, e2, hc⟩

/-! ## Runs that finish -/

/-- The call, if it notifies queues, leaves the driver's index of each alone. -/
def Call.LeavesAvailIdx (mem : GuestMemory) (w : World D) : Call D → Prop
  | .access exit => ∀ queueIdx, exit.notified = some queueIdx → NotifyLeaves mem queueIdx w
  | .poll => NotifyLeaves mem 0 w ∧
      ∀ fuel w₁, queueNotify fuel 0 mem w = (.ok (), w₁) → NotifyLeaves mem 1 w₁
  | .guest _ => True
  | .outside _ => True

/-- Every register access but a notification ends. -/
lemma access_fuel {fuel : Nat} {addr : UInt32} {data : List UInt8} {reg : Reg}
    (h : (access fuel mem addr data reg w).1 = .fuel) :
    reg = .writeQueueNotify ∧ (queueNotify fuel (readLe32 data) mem w).1 = .fuel := by
  unfold access at h
  rw [Eff.gets_bind_run] at h
  cases reg
  case writeQueueNotify =>
    obtain h | ⟨_, _, -, h⟩ := Eff.bind_fuel_iff.mp h
    · exact ⟨rfl, h⟩
    · cases h
  case writeInterruptAck =>
    simp only [Eff.modify_bind_run] at h
    have ends : Eff.Ends (archUpdateIrq 0 w.mmio.irq) := by
      intro h
      unfold archUpdateIrq
      split <;> exact nofun
    exact absurd h (Eff.Ends.bind (.zoom ends) (fun _ => Eff.ends_pure data) _)
  all_goals cases h

end Transport

/-- The two requests of `requestWorld` are announced to the disk, and
its interrupt is acknowledged. -/
def requestCalls : List (Call VirtioBlk) := [.access (.write 0x050 0), .access (.write 0x064 1)]

/-- Notifying the disk goes well. -/
lemma requests_no_panic : ¬ NotifyPanics onePage 0 requestWorld := by
  rw [← queueNotify_panic_iff]
  rintro ⟨fuel, h⟩
  have ended : (queueNotify 3 0 onePage requestWorld).1 = .ok () := by decide +kernel
  have stable := queueNotify_stable (D := VirtioBlk) 0 onePage
  rcases Nat.le_total 3 fuel with le | le
  · have same := stable 3 fuel requestWorld le (by rw [ended]; exact nofun)
    dsimp only at same
    rw [same, ended] at h
    cases h
  · have same := stable fuel 3 requestWorld le (by rw [h]; exact nofun)
    dsimp only at same
    rw [← same, ended] at h
    cases h

/-- A driver that sets up queue 0 of a disk with its descriptor table
past the end of guest memory. -/
def strayTable : List (Call VirtioBlk) :=
  [.guest oneChain, .access (.write 0x038 1), .access (.write 0x080 0x10000),
    .access (.write 0x090 0x100), .access (.write 0x0a0 0x400), .access (.write 0x044 1),
    .access (.write 0x050 0)]

end Hearth
