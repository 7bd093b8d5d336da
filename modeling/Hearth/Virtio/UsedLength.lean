import Hearth.Virtio.Disk

/-!
# The used length of virtio-blk

`VirtioBlk::process` returns how many bytes it has written for the guest, the status byte included.
It counts all buffers of a read that succeeded, as `u32`, and none of one that failed. What was
really written are the bytes of the stores noted meanwhile. The two agree for every request but a
read that fails after the host delivered some bytes, and one of 4 GiB or more;
`usedLength_exact_iff` is that.
-/

namespace Hearth
open Lib

/-- The bytes of guest memory that an event stores. -/
def Event.stored : Event → Nat
  | .write _ bytes => bytes.length
  | _ => 0

/-- The bytes stored by the events from `h` to `h'`. -/
def Host.stored (h h' : Host) : Nat := ((h'.events.drop h.events.length).map Event.stored).sum

/-- From `h` to `h'` the events were noted that store `n` bytes. -/
def Stores (n : Nat) (h h' : Host) : Prop :=
  ∃ new, h'.events = h.events ++ new ∧ (new.map Event.stored).sum = n

variable {h h' h'' : Host} {n n' : Nat}

/-- What notes nothing stores nothing. -/
lemma Stores.zero (he : h'.events = h.events) : Stores 0 h h' :=
  ⟨[], by rw [he, List.append_nil], rfl⟩

/-- Bytes stored one after the other. -/
lemma Stores.trans (t : Stores n h h') (t' : Stores n' h' h'') : Stores (n + n') h h'' := by
  obtain ⟨new, hnew, hn⟩ := t
  obtain ⟨new', hnew', hn'⟩ := t'
  refine ⟨new ++ new', by rw [hnew', hnew, List.append_assoc], ?_⟩
  rw [List.map_append, List.sum_append, hn, hn']

/-- The bytes stored are those noted. -/
lemma Stores.stored (t : Stores n h h') : h.stored h' = n := by
  obtain ⟨new, hnew, hn⟩ := t
  unfold Host.stored
  rw [hnew, List.drop_left, hn]

/-- The bytes that the host's reads into buffers of these lengths deliver, and whether all succeed;
    the first that fails is the last. -/
def File.readAll (disk : File) : (offset : Nat) → List Nat → Nat × Bool
  | _, [] => (0, true)
  | offset, len :: lens =>
    let r := disk.readExactAt len offset
    if r.2.1 then
      let rest := readAll r.2.2 (offset + len) lens
      (r.1.length + rest.1, rest.2)
    else (r.1.length, false)

namespace VirtioBlk

variable {s s' : Host × VirtioBlk}

/-- A read that succeeds fills its buffer. -/
lemma readExactAt_full {disk : File} {len offset : Nat}
    (h : (disk.readExactAt len offset).2.1 = true) :
    (disk.readExactAt len offset).1.length = len := by
  unfold File.readExactAt at h ⊢
  split
  · next h0 => exact h0.symm
  · next h0 =>
    rw [if_neg h0] at h
    dsimp only at h ⊢
    cases hm : disk.readFails.headD none with
    | some moved => rw [hm] at h; cases h
    | none =>
      rw [hm] at h
      have hle := of_decide_eq_true h
      rw [List.length_take, List.length_drop]
      omega

/-- If every read is full the bytes are those of all buffers. -/
lemma readAll_full (disk : File) (offset : Nat) (lens : List Nat)
    (h : (disk.readAll offset lens).2 = true) :
    (disk.readAll offset lens).1 = lens.sum := by
  induction lens generalizing disk offset with
  | nil => rfl
  | cons len lens ih =>
    rw [File.readAll] at h ⊢
    dsimp only at h ⊢
    split at h
    · next hok =>
      rw [if_pos hok, List.sum_cons, readExactAt_full hok, ih _ _ h]
    · cases h

/-- The buffers are stored to as the host's reads deliver. -/
lemma readBufs_stores (offset : Nat) (bufs : List Span) (s : Host × VirtioBlk) :
    ∃ res s', readBufs offset bufs s = (.ok res, s') ∧
      Stores (s.2.disk.readAll offset (bufs.map Span.len)).1 s.1 s'.1 ∧
      (res = .ok () ↔ (s.2.disk.readAll offset (bufs.map Span.len)).2 = true) := by
  induction bufs generalizing offset s with
  | nil => exact ⟨.ok (), s, rfl, .zero rfl, fun _ => rfl, fun _ => rfl⟩
  | cons buf bufs ih =>
    rw [readBufs_cons, List.map_cons, File.readAll]
    dsimp only
    have stored : Stores (s.2.disk.readExactAt buf.len offset).1.length s.1
        { s.1.note (.write buf.base (s.2.disk.readExactAt buf.len offset).1) with
          mem := s.1.mem.write buf.base (s.2.disk.readExactAt buf.len offset).1 } :=
      ⟨[_], rfl, by simp [Event.stored]⟩
    split
    · obtain ⟨res, s', e, stores, hres⟩ := ih (offset + buf.len) _
      exact ⟨res, s', e, stored.trans stores, hres⟩
    · exact ⟨_, _, rfl, stored, nofun, nofun⟩

/-- The status is one byte. -/
lemma setStatus_stores {status : Span} {value : UInt8}
    (e : setStatus status value s = (.ok (), s')) :
    Stores 1 s.1 s'.1 := by
  by_cases h0 : status.len = 0
  · rw [setStatus_empty h0] at e
    cases e
  · rw [setStatus_run h0] at e
    cases e
    exact ⟨[_], rfl, rfl⟩

/-- What goes well on the host does in the device. -/
lemma host_ok {α : Type} {x : HostM α} {a : α} (e : host x s = (.ok a, s')) :
    x s.1 = (.ok a, s'.1) ∧ s'.2 = s.2 := by
  rw [host, Eff.zoom_run, Prod.mk.injEq] at e
  obtain ⟨e1, rfl⟩ := e
  exact ⟨Prod.ext e1 rfl, rfl⟩

/-- The sum of the lengths, as the machine has it. -/
lemma sumUsize_ok {acc a : Nat} {ns : List Nat} (hacc : acc < 2 ^ 64)
    (e : sumUsize acc ns h = (.ok a, h')) : a = (acc + ns.sum) % 2 ^ 64 ∧ h' = h := by
  induction ns generalizing acc with
  | nil =>
    cases e
    exact ⟨(Nat.mod_eq_of_lt hacc).symm, rfl⟩
  | cons n ns ih =>
    unfold sumUsize at e
    split at e
    · cases e
    · obtain ⟨rfl, rfl⟩ := ih (Nat.mod_lt _ (by decide)) e
      refine ⟨?_, rfl⟩
      rw [List.sum_cons, Nat.mod_add_mod, Nat.add_assoc]

/-- The sum of two lengths, as the machine has it. -/
lemma addU32_ok {a b c : UInt32} (e : addU32 a b h = (.ok c, h')) : c = a + b ∧ h' = h := by
  unfold addU32 at e
  split at e
  · cases e
  · cases e
    exact ⟨rfl, rfl⟩

/-- Where a read request starts to read, if it does: the sum of the lengths is a `usize`. -/
def readsFrom (self : VirtioBlk) (sector : UInt64) (data : List Span) : Option Nat :=
  match self.diskOffset sector ((data.map Span.len).sum % 2 ^ 64) with
  | .ok offset => some offset
  | .error _ => none

/-- What a read stores, and what it returns. -/
lemma read_stores {sector : UInt64} {data : List Span} {res : Except IoError UInt32}
    (e : read sector data s = (.ok res, s')) :
    (s.2.readsFrom sector data = none ∧ (∃ err, res = .error err) ∧ s' = s) ∨
      ∃ offset, s.2.readsFrom sector data = some offset ∧
        Stores (s.2.disk.readAll offset (data.map Span.len)).1 s.1 s'.1 ∧
        if (s.2.disk.readAll offset (data.map Span.len)).2 then
          res = .ok (UInt32.ofNat ((data.map Span.len).sum % 2 ^ 64))
        else ∃ err, res = .error err := by
  unfold read at e
  obtain ⟨total, s1, e1, e2⟩ := Eff.bind_ok_iff.mp e
  obtain ⟨hsum, hs⟩ := host_ok e1
  obtain ⟨rfl, hh⟩ := sumUsize_ok (by decide) hsum
  have h1 : s1 = s := Prod.ext hh hs
  subst h1
  rw [Nat.zero_add, Eff.gets_bind_run] at e2
  unfold readsFrom
  cases hd : s1.2.diskOffset sector ((data.map Span.len).sum % 2 ^ 64) with
  | error err =>
    rw [hd] at e2
    cases e2
    exact .inl ⟨rfl, ⟨err, rfl⟩, rfl⟩
  | ok offset =>
    rw [hd] at e2
    right
    refine ⟨offset, rfl, ?_⟩
    obtain ⟨r, s2, e3, stores, hr⟩ := readBufs_stores offset data s1
    dsimp only at e2
    rw [Eff.bind_of_ok e3] at e2
    cases r with
    | error err =>
      cases e2
      refine ⟨stores, ?_⟩
      rw [if_neg fun h => nomatch hr.mpr h]
      exact ⟨err, rfl⟩
    | ok _ =>
      cases e2
      refine ⟨stores, ?_⟩
      rw [if_pos (hr.mp rfl)]

/-- What a request stores before its status, and the length it returns for that. -/
lemma request_stores {outhdr : VirtioBlkOuthdr} {data : List Span} {outData : List UInt8}
    {res : Option (Except IoError Unit × UInt32)}
    (e : request outhdr data outData s = (.ok res, s')) :
    (Stores 0 s.1 s'.1 ∧ (∀ r written, res = some (r, written) → written = 0) ∧
        (outhdr.type = virtioBlkTIn → s.2.readsFrom outhdr.sector data = none)) ∨
      (outhdr.type = virtioBlkTIn ∧ ∃ offset, s.2.readsFrom outhdr.sector data = some offset ∧
        Stores (s.2.disk.readAll offset (data.map Span.len)).1 s.1 s'.1 ∧ ∃ r, res = some (r,
          if (s.2.disk.readAll offset (data.map Span.len)).2 then
            UInt32.ofNat ((data.map Span.len).sum % 2 ^ 64)
          else 0)) := by
  unfold request at e
  split at e
  · next hin =>
    obtain ⟨r, s1, e1, e2⟩ := Eff.bind_ok_iff.mp e
    rcases read_stores e1 with ⟨hnone, ⟨err, rfl⟩, rfl⟩ | ⟨offset, hsome, stores, hr⟩
    · cases e2
      refine .inl ⟨.zero rfl, fun r written h => ?_, fun _ => hnone⟩
      cases h
      rfl
    · refine .inr ⟨hin, offset, hsome, ?_⟩
      split at hr
      · next full =>
        subst hr
        cases e2
        exact ⟨stores, _, by rw [if_pos full]⟩
      · next part =>
        obtain ⟨err, rfl⟩ := hr
        cases e2
        exact ⟨stores, _, by rw [if_neg part]⟩
  · next hin =>
    -- what does not read from the disk stores nothing and returns 0
    have other : ∀ {x : BlkM (Except IoError Unit)}, (∀ t r t', x t = (.ok r, t') → t'.1 = t.1) →
        (x >>= fun res => pure (some (res, 0))) s = (.ok res, s') →
        Stores 0 s.1 s'.1 ∧ ∀ r written, res = some (r, written) → written = 0 := by
      intro x hx h
      obtain ⟨r, s1, e1, e2⟩ := Eff.bind_ok_iff.mp h
      cases e2
      refine ⟨.zero (by rw [hx _ _ _ e1]), fun r written h => ?_⟩
      cases h
      rfl
    left
    split at e
    · have keeps : ∀ t r t', write outhdr.sector outData t = (.ok r, t') → t'.1 = t.1 := by
        intro t r t' ht
        unfold write at ht
        rw [Eff.gets_bind_run] at ht
        cases hd : t.2.diskOffset outhdr.sector outData.length with
        | error err =>
          rw [hd] at ht
          cases ht
          rfl
        | ok offset =>
          rw [hd] at ht
          obtain ⟨ok, t1, e1, e2⟩ := Eff.bind_ok_iff.mp ht
          cases e1
          cases e2
          rfl
      obtain ⟨stores, hz⟩ := other keeps e
      exact ⟨stores, hz, fun h => absurd h hin⟩
    · split at e
      · obtain ⟨ok, s1, e1, e2⟩ := Eff.bind_ok_iff.mp e
        cases e1
        cases e2
        refine ⟨.zero rfl, fun r written h => ?_, fun h => absurd h hin⟩
        cases h
        rfl
      · cases e
        exact ⟨.zero rfl, nofun, fun h => absurd h hin⟩

/-- If the request reads from the disk, the reads all succeed and deliver less than 4 GiB with the
    status byte, or the first that fails comes before the first byte. -/
def LengthExact (self : VirtioBlk) (chain : DescChain) : Prop :=
  ∀ outhdr offset, newFrom VirtioBlkOuthdr chain.readBuf = some outhdr →
    outhdr.type = virtioBlkTIn →
    self.readsFrom outhdr.sector chain.writeBuf.dropLast = some offset →
    match self.disk.readAll offset (chain.writeBuf.dropLast.map Span.len) with
    | (moved, true) => moved + 1 < 2 ^ 32
    | (moved, false) => moved = 0

/-- The length that is returned is what was stored exactly for these requests. -/
theorem usedLength_exact_iff {chain : DescChain} {len : UInt32}
    (e : process chain s = (.ok len, s')) :
    len.toNat = s.1.stored s'.1 ↔ s.2.LengthExact chain := by
  unfold process at e
  obtain ⟨outhdr, s1, e1, e2⟩ := Eff.bind_ok_iff.mp e
  obtain ⟨header, rfl⟩ := Eff.okOr_ok e1
  obtain ⟨status, s2, e3, e4⟩ := Eff.bind_ok_iff.mp e2
  obtain ⟨last, rfl⟩ := Eff.okOr_ok e3
  obtain ⟨res, s3, e5, e6⟩ := Eff.bind_ok_iff.mp e4
  -- the request stores, then the status byte, which is counted apart
  have returned : ∃ written : UInt32, (∀ r w, res = some (r, w) → written = w) ∧
    (res = none → written = 0) ∧
      Stores 1 s3.1 s'.1 ∧ len = written + 1 := by
    cases res with
    | none =>
      obtain ⟨⟨⟩, s4, e7, e8⟩ := Eff.bind_ok_iff.mp e6
      cases e8
      exact ⟨0, nofun, fun _ => rfl, setStatus_stores e7, rfl⟩
    | some p =>
      obtain ⟨r, w⟩ := p
      obtain ⟨⟨⟩, s4, e7, e8⟩ := Eff.bind_ok_iff.mp e6
      obtain ⟨hadd, hs⟩ := host_ok e8
      obtain ⟨rfl, hh⟩ := addU32_ok hadd
      refine ⟨w, fun r' w' h => ?_, nofun, ?_, rfl⟩
      · cases h
        rfl
      · rw [hh]
        exact setStatus_stores e7
  obtain ⟨written, hsome, hnone, status1, rfl⟩ := returned
  -- only a request that reads from the disk stores more than the status
  rcases request_stores e5 with ⟨stores, zero, notRead⟩ | ⟨hin, offset, hfrom, stores, r, rfl⟩
  · have hw : written = 0 := by
      cases hr : res with
      | none => exact hnone hr
      | some p => exact (hsome p.1 p.2 hr).trans (zero p.1 p.2 hr)
    rw [(stores.trans status1).stored, hw]
    constructor
    · intro _ outhdr' offset header' hin' hfrom
      cases header.symm.trans header'
      rw [notRead hin'] at hfrom
      cases hfrom
    · intro _
      decide
  · rw [(stores.trans status1).stored, hsome _ _ rfl]
    have hexact : s2.2.LengthExact chain ↔
        match s2.2.disk.readAll offset (chain.writeBuf.dropLast.map Span.len) with
        | (moved, true) => moved + 1 < 2 ^ 32
        | (moved, false) => moved = 0 := by
      constructor
      · intro h
        exact h outhdr offset header hin hfrom
      · intro h outhdr' offset' header' hin' hfrom'
        cases header.symm.trans header'
        cases hfrom.symm.trans hfrom'
        exact h
    rw [hexact]
    have full := readAll_full s2.2.disk offset (chain.writeBuf.dropLast.map Span.len)
    rcases hall : s2.2.disk.readAll offset (chain.writeBuf.dropLast.map Span.len) with ⟨moved, ok⟩
    rw [hall] at full
    cases ok with
    | true =>
      have hm : moved = (chain.writeBuf.dropLast.map Span.len).sum := full rfl
      dsimp only
      have h1 : (1 : UInt32).toNat = 1 := rfl
      rw [if_pos rfl, ← hm, UInt32.toNat_add, UInt32.toNat_ofNat', h1]
      omega
    | false =>
      dsimp only
      have h1 : ((0 : UInt32) + 1).toNat = 1 := rfl
      rw [if_neg (by simp), h1]
      omega

end VirtioBlk

open VirtioBlk

/-- The offset of the second sector does not wrap. -/
lemma one_sector_fits : (1 : UInt64).toNat * sectorSize < 2 ^ 64 := by decide

/-- A disk of one sector whose file has become so short. -/
def shortDisk (bytes : List UInt8) : VirtioBlk where
  disk := { bytes := bytes, readFails := [], writeFails := [], syncFails := [] }
  capacity := 1
  fits := one_sector_fits

/-- A read of the first two bytes into two buffers. -/
def readTwo : DescChain where
  head := 0
  readBuf := List.replicate 16 0
  writeBuf := [⟨0x100, 1⟩, ⟨0x200, 1⟩, ⟨0x300, 1⟩]

/-- If the second read fails, the buffer the first has filled is not counted. -/
theorem shortDisk_miscounts : ¬ ∀ (chain : DescChain) (s s' : Host × VirtioBlk) (len : UInt32),
    process chain s = (.ok len, s') → len.toNat = s.1.stored s'.1 := by
  intro always
  have h := always readTwo (.release fun _ => 0, shortDisk [7]) _ 1 rfl
  exact absurd h (by decide)

/-- If both succeed, both buffers and the status byte are counted. -/
theorem readTwo_counts :
    ∃ s', process readTwo (.release fun _ => 0, shortDisk [7, 7]) = (.ok 3, s') ∧
    (3 : UInt32).toNat = (Host.release fun _ => 0).stored s'.1 := by
  have run : process readTwo (.release fun _ => 0, shortDisk [7, 7]) =
      (.ok 3, (process readTwo (.release fun _ => 0, shortDisk [7, 7])).2) := rfl
  refine ⟨_, run, (usedLength_exact_iff run).mpr fun outhdr offset header hin hfrom => ?_⟩
  have h0 : (shortDisk [7, 7]).readsFrom outhdr.sector readTwo.writeBuf.dropLast = some 0 := by
    cases (by decide : newFrom VirtioBlkOuthdr readTwo.readBuf = some ⟨0, 0, 0⟩).symm.trans header
    decide
  cases h0.symm.trans hfrom
  show 2 + 1 < 2 ^ 32
  decide

end Hearth
