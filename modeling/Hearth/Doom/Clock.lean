import Hearth.Lib.SeqLock
import Hearth.Lib.Transition

/-!
# The clock

`pvclock_ns` of `guests/doom/libc/clock.c` access by access, with KVM updating `time_info` between
any two of them. The struct is a sequence lock of which the guest is the reader. Where C leaves open
in which order two operands are evaluated, either may come first.
-/

namespace Hearth.Doom.Clock

open Lib

/-- The fields of `pvclock_vcpu_time_info` that `pvclock_ns` reads under the version. -/
inductive Field where
  | tscTimestamp
  | systemTime
  | tscToSystemMul
  | tscShift
  deriving DecidableEq, Repr

/-- The width of a field. -/
def Field.Value : Field → Type
  | .tscTimestamp | .systemTime => UInt64
  | .tscToSystemMul => UInt32
  | .tscShift => Int8

/-- The values of one update. -/
abbrev TimeInfo := (f : Field) → f.Value

/-- An update with these values. -/
def timeInfo (tscTimestamp systemTime : UInt64) (tscToSystemMul : UInt32)
    (tscShift : Int8) : TimeInfo
  | .tscTimestamp => tscTimestamp
  | .systemTime => systemTime
  | .tscToSystemMul => tscToSystemMul
  | .tscShift => tscShift

-- what a shift by 64 or more gives, which C leaves undefined
variable (beyond : UInt64 → Int8 → UInt64)

/-- `shift < 0 ? delta >> -shift : delta << shift` -/
def scale (delta : UInt64) (shift : Int8) : UInt64 :=
  if 64 ≤ shift.toInt.natAbs then beyond delta shift
  else if shift < 0 then delta >>> UInt64.ofNat shift.toInt.natAbs
  else delta <<< UInt64.ofNat shift.toInt.natAbs

/-- `(uint64_t)(((unsigned __int128)delta * mul) >> 32)` -/
def mulHigh (delta : UInt64) (mul : UInt32) : UInt64 :=
  UInt64.ofNat ((delta.toNat * mul.toNat) >>> 32)

/-- The time at a value of the time stamp counter. -/
def nsAt (tsc : UInt64) (info : TimeInfo) : UInt64 :=
  let tscTimestamp : UInt64 := info .tscTimestamp
  let shift : Int8 := info .tscShift
  let systemTime : UInt64 := info .systemTime
  systemTime + mulHigh (scale beyond (tsc - tscTimestamp) shift) (info .tscToSystemMul)

/-- What is read between the two loads of the version. -/
inductive Access where
  | rdtsc
  | load (f : Field)
  deriving DecidableEq, Repr

/-- The accesses of an iteration, those in one expression together. -/
def accesses : List (List Access) :=
  [[.rdtsc, .load .tscTimestamp], [.load .tscShift], [.load .systemTime, .load .tscToSystemMul]]

/-- Where `pvclock_ns` is. -/
inductive Pc where
  /-- at `version = time_info.version` -/
  | start
  /-- these accesses are left in the iteration, then the test -/
  | reading (left : List (List Access))
  | returned (ns : UInt64)

/-- `time_info` and the variables of `pvclock_ns`, with the results of `rdtsc` so far, the last one
first. -/
structure State where
  info : SeqLock Field Field.Value
  pc : Pc
  version : UInt32
  tsc : UInt64
  loaded : TimeInfo
  tscs : List UInt64

/-- A field is loaded. -/
def load (f : Field) (s : State) : State :=
  { s with loaded := Function.update s.loaded f (s.info.fields f) }

/-- An access, with what the time stamp counter is then. -/
def access (tsc : UInt64) (s : State) : Access → State
  | .rdtsc => { s with tsc := tsc, tscs := tsc :: s.tscs }
  | .load f => load f s

/-- The test at the end of an iteration. -/
def test (s : State) : Pc :=
  if s.version &&& 1 ≠ 0 ∨ s.version ≠ s.info.version then .start
    else .returned (nsAt beyond s.tsc s.loaded)

/-- What the guest does next. -/
inductive Turn (s : State) : State → Prop where
  | version : s.pc = .start → Turn s { s with pc := .reading accesses, version := s.info.version }
  | access {expr left} (a : Access) (tsc : UInt64) : s.pc = .reading (expr :: left) → a ∈ expr →
      Turn s { access tsc s a with pc := .reading (expr.erase a :: left) }
  | next {left} : s.pc = .reading ([] :: left) → Turn s { s with pc := .reading left }
  | test : s.pc = .reading [] → Turn s { s with pc := test beyond s }

/-- The steps of the reader and of KVM. -/
inductive Step (s : State) : State → Prop where
  | guest {s'} : Turn beyond s s' → Step s s'
  | kvm {info} : s.info.Write info → Step s { s with info := info }

/-- `pvclock_ns` is called, between two updates or during one. -/
structure Start (s : State) : Prop where
  pc : s.pc = .start
  info : s.info.Sound
  made : s.info.made = []

/-- The time at the last result of `rdtsc`, computed with the values of one update. -/
def Consistent (s : State) (ns : UInt64) : Prop :=
  ∃ info ∈ s.info.updates, ∃ tsc, s.tscs.head? = some tsc ∧ ns = nsAt beyond tsc info

/-! ## The invariant -/

/-- An access that is not left any more. -/
def Done (left : List (List Access)) (a : Access) : Prop := ∀ expr ∈ left, a ∉ expr

/-- What the variables hold. -/
inductive At (s : State) : Pc → Prop where
  | start : At s .start
  | reading {left} : s.info.Seen s.version (fun f => Done left (.load f)) s.loaded →
      (Done left .rdtsc → s.tscs.head? = some s.tsc) → At s (.reading left)
  | returned {ns} : (s.info.made.length < 2 ^ 31 → Consistent beyond s ns) → At s (.returned ns)

/-- What holds at every point: the record is sound, and what was loaded was there. -/
structure Inv (s : State) : Prop where
  sound : s.info.Sound
  pc : At beyond s s.pc

variable {beyond} {s s' : State}

/-- With the access that is done next, those are done that were not left apart from it. -/
lemma Done.of_erase {expr : List Access} {left : List (List Access)} {a b : Access}
    (h : Done (expr.erase a :: left) b) : b = a ∨ Done (expr :: left) b := by
  by_cases e : b = a
  · exact .inl e
  · refine .inr fun expr' hmem hb => ?_
    cases hmem with
    | head => exact h _ List.mem_cons_self ((List.mem_erase_of_ne e).mpr hb)
    | tail _ hmem => exact h _ (List.mem_cons_of_mem _ hmem) hb

/-- At the end no access is left. -/
lemma not_done_accesses (a : Access) : ¬ Done accesses a := by
  intro h
  cases a with
  | rdtsc => exact h [.rdtsc, .load .tscTimestamp] (by decide) (by decide)
  | load f =>
    cases f with
    | tscTimestamp => exact h [.rdtsc, .load .tscTimestamp] (by decide) (by decide)
    | tscShift => exact h [.load .tscShift] (by decide) (by decide)
    | systemTime => exact h [.load .systemTime, .load .tscToSystemMul] (by decide) (by decide)
    | tscToSystemMul => exact h [.load .systemTime, .load .tscToSystemMul] (by decide) (by decide)

/-- At the start nothing was loaded. -/
lemma Start.inv (h : Start s) : Inv beyond s := by
  refine ⟨h.info, ?_⟩
  rw [h.pc]
  exact .start

/-- The test of the lowest bit. -/
lemma version_even_iff {version : UInt32} : version &&& 1 = 0 ↔ version.toNat % 2 = 0 := by
  rw [← UInt32.toNat_inj, UInt32.toNat_and]
  show version.toNat &&& 1 = 0 ↔ _
  rw [Nat.and_one_is_mod]

/-- At the test, all that was loaded is from the latest update if the
version is even and the same. -/
lemma At.test (h : At beyond s (.reading [])) (few : s.info.made.length < 2 ^ 31)
    (even : s.version &&& 1 = 0)
    (same : s.version = s.info.version) : Consistent beyond s (nsAt beyond s.tsc s.loaded) := by
  cases h with
  | reading seen read =>
    have latest :=
      seen.accept (version_even_iff.mp even) same few fun f expr hmem =>
        absurd hmem List.not_mem_nil
    refine ⟨s.info.latest, s.info.latest_mem, s.tsc, ?_, ?_⟩
    · exact read fun expr hmem => absurd hmem List.not_mem_nil
    · rw [latest]

/-- The reader's steps keep the invariant. -/
lemma Inv.turn (h : Inv beyond s) (st : Turn beyond s s') : Inv beyond s' := by
  obtain ⟨sound, hat⟩ := h
  cases st with
  | version hpc =>
    refine ⟨sound, .reading ?_ ?_⟩
    · exact (sound.seen s.loaded).mono fun f hf => not_done_accesses _ hf
    · exact fun hd => absurd hd (not_done_accesses _)
  | @access expr left a tsc hpc hmem =>
    rw [hpc] at hat
    cases hat with
    | reading seen read =>
      cases a with
      | rdtsc =>
        refine ⟨sound, .reading ?_ fun _ => rfl⟩
        exact seen.mono fun f hf => hf.of_erase.resolve_left fun e => by cases e
      | load f =>
        refine ⟨sound, .reading ?_ ?_⟩
        · exact (seen.load sound f).mono fun g hg => hg.of_erase.imp_left Access.load.inj
        · exact fun hd => read (hd.of_erase.resolve_left fun e => by cases e)
  | next hpc =>
    rw [hpc] at hat
    cases hat with
    | @reading left seen read =>
      have done {a : Access} {left : List (List Access)} (h : Done left a) :
        Done ([] :: left) a := by
        intro expr hmem
        cases hmem with
        | head => exact List.not_mem_nil
        | tail _ hmem => exact h expr hmem
      exact ⟨sound, .reading (seen.mono fun f hf => done hf) fun hd => read (done hd)⟩
  | test hpc =>
    rw [hpc] at hat
    refine ⟨sound, ?_⟩
    show At beyond _ (Clock.test beyond s)
    unfold Clock.test
    split
    case isTrue => exact .start
    case isFalse passed =>
      obtain ⟨even, same⟩ := not_or.mp passed
      exact .returned fun few => hat.test few (not_not.mp even) (not_not.mp same)

/-- The steps of KVM keep the invariant. -/
lemma Inv.kvm {info : SeqLock Field Field.Value} (h : Inv beyond s) (st : s.info.Write info) :
    Inv beyond { s with info := info } := by
  obtain ⟨sound, hat⟩ := h
  refine ⟨sound.write st, ?_⟩
  show At beyond _ s.pc
  cases hpc : s.pc with
  | start => exact .start
  | reading left =>
    rw [hpc] at hat
    cases hat with
    | reading seen read => exact .reading (seen.write st) read
  | returned ns =>
    rw [hpc] at hat
    cases hat with
    | returned hns =>
      apply At.returned
      intro few
      obtain ⟨values, hmem, tsc, htsc, e⟩ := hns (Nat.lt_of_le_of_lt st.made_length few)
      exact ⟨values, st.updates_subset hmem, tsc, htsc, e⟩

/-- Every step keeps the invariant. -/
lemma Inv.step (h : Inv beyond s) (st : Step beyond s s') : Inv beyond s' := by
  cases st with
  | guest st => exact h.turn st
  | kvm st => exact h.kvm st

/-! ## The result -/

variable {init : State → Prop}

/-- The rest of an iteration without an update in it. -/
lemma after_rdtsc (h : Reach init (Step beyond) s)
    (hpc : s.pc = .reading ([.load .tscTimestamp] :: accesses.tail)) :
    ∃ s', Reach init (Step beyond) s' ∧
      s'.info = s.info ∧ s'.tscs = s.tscs ∧
      s'.pc = test beyond { s with loaded := s.info.fields } := by
  have tscTimestamp := h.step (.guest (.access (.load .tscTimestamp) 0 hpc (by decide)))
  have delta := tscTimestamp.step (.guest (.next rfl))
  have tscShift := delta.step (.guest (.access (.load .tscShift) 0 rfl (by decide)))
  have scaled := tscShift.step (.guest (.next rfl))
  have systemTime := scaled.step (.guest (.access (.load .systemTime) 0 rfl (by decide)))
  have tscToSystemMul :=
    systemTime.step (.guest (.access (.load .tscToSystemMul) 0 rfl (by decide)))
  have ns := tscToSystemMul.step (.guest (.next rfl))
  exact ⟨_, ns.step (.guest (.test rfl)), rfl, rfl, rfl⟩

/-- With no update in between, an iteration ends with all fields read, at the version it started
    with. -/
lemma iteration (h : Reach init (Step beyond) s) (start : s.pc = .start) (tsc : UInt64) :
    ∃ s', Reach init (Step beyond) s' ∧ s'.info = s.info ∧ s'.tscs = tsc :: s.tscs ∧
      s'.pc = if s.info.version &&& 1 ≠ 0 then .start
        else .returned (nsAt beyond tsc s.info.fields) := by
  have version := h.step (.guest (.version start))
  have rdtsc := version.step (.guest (.access .rdtsc tsc rfl (by decide)))
  obtain ⟨s', reached, hinfo, htscs, hpc⟩ := after_rdtsc rdtsc rfl
  refine ⟨s', reached, hinfo, htscs, hpc.trans (if_congr ?_ rfl rfl)⟩
  exact or_iff_left fun ne => ne rfl

/-- A whole update of the time info can be made where none is under way. -/
lemma update (h : Reach init (Step beyond) s) (idle : s.info.update = none) (values : TimeInfo) :
    Reach init (Step beyond)
      { s with info := { (s.info.begin values).finish with fields := values } } := by
  have begun := h.step (.kvm (.begin values idle))
  have tscTimestamp := begun.step (.kvm (.field .tscTimestamp rfl))
  have systemTime := tscTimestamp.step (.kvm (.field .systemTime rfl))
  have tscToSystemMul := systemTime.step (.kvm (.field .tscToSystemMul rfl))
  have tscShift := tscToSystemMul.step (.kvm (.field .tscShift rfl))
  have written (fields : TimeInfo) :
    Function.update (Function.update (Function.update (Function.update fields
      .tscTimestamp (values .tscTimestamp)) .systemTime (values .systemTime)) .tscToSystemMul
        (values .tscToSystemMul))
      .tscShift (values .tscShift) = values := by
    funext f
    cases f <;> rfl
  have finished := tscShift.step (.kvm (.finish (congrArg some (written _).symm)))
  have after (fields : TimeInfo) (e : fields = values)
      (h : Reach init (Step beyond)
        { s with info := { (s.info.begin values).finish with fields := fields } }) :
      Reach init (Step beyond)
      { s with info := { (s.info.begin values).finish with fields := values } } := e ▸ h
  exact after _ (written _) finished

/-- An iteration between two updates returns the time by the latest. -/
theorem iteration_returns (h : Reach init (Step beyond) s) (start : s.pc = .start)
    (sound : s.info.Sound) (idle : s.info.update = none) (tsc : UInt64) :
    ∃ s', Reach init (Step beyond) s' ∧ s'.pc = .returned (nsAt beyond tsc s.info.latest) := by
  obtain ⟨s', reached, -, -, hpc⟩ := iteration h start tsc
  obtain ⟨even, e⟩ := sound.even_of_idle idle
  refine ⟨s', reached, ?_⟩
  rw [hpc, e]
  exact if_neg fun odd => odd (version_even_iff.mpr even)

/-- Whatever updates come between its accesses, as long as they are fewer than `2 ^ 31`:
`pvclock_ns` returns the time by one of them. -/
theorem pvclockNs_consistent {ns : UInt64} (h : Reach Start (Step beyond) s)
    (returned : s.pc = .returned ns)
    (few : s.info.made.length < 2 ^ 31) : Consistent beyond s ns := by
  have inv : Inv beyond s := h.invariant (fun _ h => h.inv) (fun _ _ h st => h.step st)
  have hat := inv.pc
  rw [returned] at hat
  cases hat with
  | returned hns => exact hns few

/-- Before the first call: the clock runs at one nanosecond for a tick. -/
def running : State where
  info := ⟨2, timeInfo 1000 5000 0x80000000 1, none, timeInfo 1000 5000 0x80000000 1, []⟩
  pc := .start
  version := 0
  tsc := 0
  loaded := timeInfo 0 0 0 0
  tscs := []

/-- The example starts between updates. -/
lemma running_start : Start running := ⟨rfl, .idle rfl rfl rfl, rfl⟩

/-- An update comes after the first `rdtsc`, so that the call takes two iterations. -/
theorem pvclockNs_consistent_two : ∃ s, Reach Start (Step fun _ _ => 0) s ∧ s.pc = .returned 9300 ∧
    s.info.made.length = 1 ∧ Consistent (fun _ _ => 0) s 9300 := by
  have called : Reach Start (Step fun _ _ => 0) _ :=
    .step (.init running_start) (.guest (.version rfl))
  have rdtsc := called.step (.guest (.access .rdtsc 1500 rfl (by decide)))
  obtain ⟨torn, hreach, hinfo, htscs, hpc⟩ :=
    after_rdtsc (update rdtsc rfl (timeInfo 2000 9000 0x80000000 1)) rfl
  obtain ⟨s, reached, hinfo', -, hpc'⟩ := iteration hreach hpc 2300
  rw [hinfo] at hinfo' hpc'
  have few : s.info.made.length = 1 := by
    rw [hinfo']
    rfl
  exact ⟨s, reached, hpc', few, pvclockNs_consistent reached hpc' (few ▸ by decide)⟩

end Hearth.Doom.Clock
