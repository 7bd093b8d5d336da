import Hearth.Lib.Transition
import Hearth.Vga.Display

/-!
# Clients converge

The guest, the device and any number of clients that render it. The guest writes the framebuffer,
which the dirty log notes, and the registers, by exits or through KVM's ring; a client takes the
lock to apply what is queued and to start a frame, and draws without it, a pixel at a time. What the
log and the flag for a repaint say is used up by whichever client comes first: the others go by the
number of the frame that each page was last written in.

`display_converges` is the result. The invariant is that a pixel of a client is right, or will be
drawn in the right colour, or that something is left which makes the client's next frame draw it.
-/

namespace Hearth
open Lib

/-- A frontend's buffer, the frame it has seen, and what it is drawing. -/
structure VgaClient where
  out : Nat → UInt32
  seen : UInt64
  drawing : Option Vga.Drawing

namespace VgaClient

/-- What `render` leaves the client with once it gives the lock back. -/
def startFrame (v : Vga) (fetched : Option (List UInt64)) (self : VgaClient) : VgaClient :=
  { self with
    seen := (v.startFrame fetched self.seen).2.frame
    drawing := (v.startFrame fetched self.seen).1 }

/-- The next pixel of a drawing. -/
def draw (mem : Nat → UInt8) (d : Vga.Drawing) (self : VgaClient) : VgaClient :=
  { self with
    out := Function.update self.out d.next (d.color (mem d.next))
    drawing := some { d with next := d.next + 1 } }

end VgaClient

/-- `lock` is the client that has applied the queued writes and not yet
given the device's lock back. -/
structure Rendering (κ : Type) where
  vga : Vga
  /-- the bytes of the framebuffer -/
  mem : Nat → UInt8
  /-- the pages written since the log was last fetched -/
  dirty : Fin Vga.framebufferPages → Bool
  lock : Option κ
  client : κ → VgaClient

namespace Vga

/-- What `DirtyLog::fetch` may return: an error, or a bitmap that has every page that was
written. Fetching clears the log. Without a framebuffer or a log nothing is fetched, and
what would be is not looked at. -/
inductive Fetches (v : Vga) (dirty : Fin framebufferPages → Bool) :
    Option (List UInt64) → (Fin framebufferPages → Bool) → Prop where
  | failed : Fetches v dirty none dirty
  | reported {log bitmap} : v.framebuffer.isSome → v.dirtyLog = some log →
      bitmap.length = (log.pages + 63) / 64 →
    (∀ page, dirty page = true → logged bitmap page = true) →
    Fetches v dirty (some bitmap) fun _ => false

/-- A step of the device that does not start a frame. -/
structure Between (v v' : Vga) : Prop where
  changes : Changes v v'
  dirtyLog : v'.dirtyLog = v.dirtyLog
  frame : v'.frame = v.frame
  pageWritten : v'.pageWritten = v.pageWritten

/-- A device is the same as itself. -/
lemma Between.refl (v : Vga) : Between v v := ⟨.refl v, rfl, rfl, rfl⟩

/-- One change after the other. -/
lemma Between.trans {v v' v'' : Vga} (h : Between v v') (h' : Between v' v'') : Between v v'' where
  changes := h.changes.trans h'.changes
  dirtyLog := h'.dirtyLog.trans h.dirtyLog
  frame := h'.frame.trans h.frame
  pageWritten := h'.pageWritten.trans h.pageWritten

/-- What leaves the window alone and marks what it changes. -/
lemma SameWindow.between {v v' : Vga} (h : SameWindow v v') (changes : Changes v v') :
    Between v v' :=
  ⟨changes, h.dirtyLog, h.frame, h.pageWritten⟩

/-- The queue is not looked at. -/
lemma Between.queue (v : Vga) (dacWrites : Option CoalescedRing) :
    Between v { v with dacWrites := dacWrites } :=
  ⟨⟨rfl, .inr rfl, id⟩, rfl, rfl, rfl⟩

/-- A drain marks all as to be redrawn if it changes a colour. -/
lemma Between.drained (v : Vga) : Between v v.drained := by
  unfold Vga.drained
  cases v.dacWrites with
  | none => exact .refl v
  | some ring =>
    have applied : Between v (v.applyEntries ring.queued) :=
      (applyEntries_window ring.queued v).between (.applyEntries ring.queued v)
    exact applied.trans (.queue _ _)

/-- What an exit does that returns. -/
lemma handle_between {io : PortIo} {buffer data : List UInt8} {v v' : Vga} (valid : v.QueueValid)
    (run : handle io buffer v = (.ok data, v')) : Between v v' ∧ v'.QueueValid ∧ v'.QueueEmpty := by
  obtain ⟨-, -, rfl⟩ := handle_ok valid run
  have window :=
    accessBytes_window io.direction io.port io.size.toNat 0
      (buffer.take (io.size.toNat * io.count.toNat))
    v.drained
  refine ⟨(Between.drained v).trans (window.between (.accessBytes ..)),
    valid.drained.window window, ?_⟩
  exact (drained_empty v).window window

end Vga

namespace Rendering
open Vga

variable {κ : Type} [DecidableEq κ] {s s' s₁ s₂ : Rendering κ} {c : κ} {p : Nat}
    {page : Fin framebufferPages}

/-- A client's own part of the state. -/
def setClient (c : κ) (client : VgaClient) (s : Rendering κ) : Rendering κ :=
  { s with client := Function.update s.client c client }

/-- The device after a frame for a client, with what the fetch left of the log. -/
def framed (c : κ) (fetched : Option (List UInt64)) (dirty : Fin framebufferPages → Bool)
    (s : Rendering κ) :
    Rendering κ :=
  { s with vga := (s.vga.startFrame fetched (s.client c).seen).2, dirty := dirty,
           lock := none }.setClient c
    ((s.client c).startFrame s.vga fetched)

/-- A new adapter, and clients that have seen nothing. -/
def Init (s : Rendering κ) : Prop :=
  ∃ elapsed framebuffer dirtyLog dacWrites, s.vga = Vga.new elapsed framebuffer dirtyLog dacWrites ∧
    (∀ log, dirtyLog = some log → log.pages = framebufferPages) ∧
    (∀ ring, dacWrites = some ring → ring.Valid) ∧
      s.lock = none ∧ ∀ c, (s.client c).seen = 0 ∧ (s.client c).drawing = none

/-- The steps of the guest, of KVM and of the clients. -/
inductive Step : Rendering κ → Rendering κ → Prop where
  /-- the guest writes the framebuffer -/
  | store {s : Rendering κ} (p : Nat) (byte : UInt8) : p < framebufferSize →
    Step s { s with
      mem := Function.update s.mem p byte
      dirty := fun page => s.dirty page || decide (page.val = p / pageSize.toNat) }
  /-- an access of the guest exits -/
  | exit {s : Rendering κ} {io buffer data vga} :
      s.lock = none → Vga.handle io buffer s.vga = (.ok data, vga) →
    Step s { s with vga := vga }
  /-- KVM queues a write of the guest -/
  | queue {s : Rendering κ} {ring} (entry : CoalescedMmio) :
      s.vga.dacWrites = some ring → ring.Room →
    Step s { s with vga := { s.vga with dacWrites := some (ring.push entry) } }
  /-- a client wants the whole picture -/
  | forget {s : Rendering κ} (c : κ) : Step s (s.setClient c { s.client c with seen := 0 })
  /-- a client starts a render -/
  | lock {s : Rendering κ} {c : κ} {vga} : s.lock = none → (s.client c).drawing = none →
    applyQueuedWrites s.vga = (.ok (), vga) → Step s { s with vga := vga, lock := some c }
  /-- it fetches the log, takes what it needs, and gives the lock back;
  `self.frame += 1` does not overflow -/
  | frame {s : Rendering κ} {c : κ} {fetched dirty} :
      s.lock = some c → s.vga.frame.toNat + 1 < 2 ^ 64 →
    Fetches s.vga s.dirty fetched dirty → Step s (s.framed c fetched dirty)
  | draw {s : Rendering κ} {c : κ} {d} : (s.client c).drawing = some d → d.next < d.rows.2 * width →
    Step s (s.setClient c ((s.client c).draw s.mem d))
  | done {s : Rendering κ} {c : κ} {d} : (s.client c).drawing = some d → d.next = d.rows.2 * width →
    Step s (s.setClient c { s.client c with drawing := none })

/-- The client is not in a render. -/
def Idle (c : κ) (s : Rendering κ) : Prop := s.lock ≠ some c ∧ (s.client c).drawing = none

/-- A step that leaves the framebuffer, the palette and the bit for the display. The registers are
those the guest has set, queued writes included. -/
structure Quiet (s s' : Rendering κ) : Prop where
  step : Step s s'
  mem : s'.mem = s.mem
  palette : s'.vga.drained.palette = s.vga.drained.palette
  display : s'.vga.drained.acIndex &&& acPas = s.vga.drained.acIndex &&& acPas

/-! ## The invariant -/

/-- The pixel is still to be drawn. -/
def Pending (client : VgaClient) (p : Nat) : Prop :=
  ∃ d, client.drawing = some d ∧ d.next ≤ p ∧ p < d.rows.2 * width

/-- The pixel has the colour of its byte, or will be drawn in these colours. -/
def Fresh (color : UInt8 → UInt32) (mem : Nat → UInt8) (client : VgaClient) (p : Nat) : Prop :=
  (∃ d, client.drawing = some d ∧ d.next ≤ p ∧ p < d.rows.2 * width ∧ d.color = color) ∨
    ¬ Pending client p ∧ client.out p = color (mem p)

/-- The client's next frame draws the page. -/
def Redraws (s : Rendering κ) (client : VgaClient) (page : Fin framebufferPages) : Prop :=
  client.seen = 0 ∨ s.vga.repaint = true ∨ client.seen < s.vga.pageWritten page ∨
    s.vga.framebuffer.isSome ∧ (s.vga.dirtyLog = none ∨ s.dirty page = true)

/-- What holds between steps: every client has what has not changed since it last looked. -/
structure Inv (s : Rendering κ) : Prop where
  valid : s.vga.QueueValid
  locked : ∀ c, s.lock = some c → (s.client c).drawing = none
  seen : ∀ c, (s.client c).seen ≤ s.vga.frame
  rows : ∀ c d, (s.client c).drawing = some d → d.rows.2 ≤ height
  shown : ∀ c p page, PageOf page p →
    Fresh s.vga.color s.mem (s.client c) p ∨ s.Redraws (s.client c) page

/-- The client is set. -/
@[simp] lemma setClient_self (s : Rendering κ) (c : κ) (client : VgaClient) :
    (s.setClient c client).client c = client := by
  show Function.update s.client c client c = client
  rw [Function.update_self]

/-- The other clients are as they were. -/
lemma setClient_ne {c' : κ} (h : c' ≠ c) (s : Rendering κ) (client : VgaClient) :
    (s.setClient c client).client c' = s.client c' := by
  show Function.update s.client c client c' = s.client c'
  rw [Function.update_of_ne h]

/-- A frame is started for the client. -/
lemma framed_self (s : Rendering κ) (c : κ) (fetched : Option (List UInt64))
    (dirty : Fin framebufferPages → Bool) :
    (s.framed c fetched dirty).client c = (s.client c).startFrame s.vga fetched :=
  setClient_self { s with vga := (s.vga.startFrame fetched (s.client c).seen).2, dirty := dirty,
                          lock := none } c _

/-- The others are left alone. -/
lemma framed_ne {c' : κ} (h : c' ≠ c) (s : Rendering κ) (fetched : Option (List UInt64))
    (dirty : Fin framebufferPages → Bool) : (s.framed c fetched dirty).client c' = s.client c' :=
  setClient_ne h { s with vga := (s.vga.startFrame fetched (s.client c).seen).2, dirty := dirty,
                          lock := none } _

/-- What is said of each client, where one of them changed. -/
lemma forall_setClient {P : κ → VgaClient → Prop} {client : VgaClient} (own : P c client)
    (others : ∀ c', c' ≠ c → P c' (s.client c')) :
    ∀ c', P c' ((s.setClient c client).client c') := by
  intro c'
  by_cases e : c' = c
  · subst e
    rw [setClient_self]
    exact own
  · rw [setClient_ne e]
    exact others c' e

/-! ## Pixels -/

variable {color : UInt8 → UInt32} {mem : Nat → UInt8} {client : VgaClient} {d : Drawing}

/-- Drawing a pixel leaves every pixel right that was. -/
lemma Fresh.draw (hd : client.drawing = some d) (lt : d.next < d.rows.2 * width)
    (h : Fresh color mem client p) :
    Fresh color mem (client.draw mem d) p := by
  rcases h with ⟨d', hd', ge, lt', e⟩ | ⟨pending, e⟩
  · cases hd.symm.trans hd'
    rcases Nat.eq_or_lt_of_le ge with rfl | gt
    · refine .inr ⟨?_, ?_⟩
      · rintro ⟨_, ⟨⟩, ge', -⟩
        exact Nat.not_succ_le_self _ ge'
      · show Function.update client.out d.next _ d.next = _
        rw [Function.update_self, e]
    · exact .inl ⟨_, rfl, gt, lt', e⟩
  · refine .inr ⟨?_, ?_⟩
    · rintro ⟨_, ⟨⟩, ge', lt'⟩
      exact pending ⟨d, hd, Nat.le_of_succ_le ge', lt'⟩
    · show Function.update client.out d.next _ p = _
      have ne : p ≠ d.next := by
        rintro rfl
        exact pending ⟨d, hd, Nat.le_refl _, lt⟩
      rw [Function.update_of_ne ne, e]

/-- The end of the drawing leaves every pixel right that was. -/
lemma Fresh.done (hd : client.drawing = some d) (last : d.next = d.rows.2 * width)
    (h : Fresh color mem client p) :
    Fresh color mem { client with drawing := none } p := by
  rcases h with ⟨d', hd', ge, lt, -⟩ | ⟨-, e⟩
  · cases hd.symm.trans hd'
    exact absurd lt (Nat.not_lt_of_le (last ▸ ge))
  · refine .inr ⟨?_, e⟩
    rintro ⟨_, ⟨⟩, -⟩

/-- Nothing is pending where nothing is drawn. -/
lemma Fresh.out (h : Fresh color mem client p) (idle : client.drawing = none) :
    client.out p = color (mem p) := by
  rcases h with ⟨d, hd, -⟩ | ⟨-, e⟩
  · cases idle.symm.trans hd
  · exact e

/-- A byte that is stored shows where there is a framebuffer. -/
lemma Fresh.store {v : Vga} (h : Fresh v.color mem client p) (q : Nat) (byte : UInt8) :
    Fresh v.color (Function.update mem q byte) client p ∨ v.framebuffer.isSome ∧ p = q := by
  rcases h with pending | ⟨pending, e⟩
  · exact .inl (.inl pending)
  · cases fb : v.framebuffer with
    | none =>
      have blank : ∀ byte, v.color byte = 0 := fun byte => if_pos (.inl (by rw [fb]; rfl))
      exact .inl (.inr ⟨pending, e.trans ((blank _).trans (blank _).symm)⟩)
    | some _ =>
      by_cases eq : p = q
      · exact .inr ⟨rfl, eq⟩
      · refine .inl (.inr ⟨pending, ?_⟩)
        rw [Function.update_of_ne eq, e]

/-! ## A new frame -/

variable {fetched : Option (List UInt64)} {dirty : Fin framebufferPages → Bool}

/-- A page stamped with the next frame is newer than what was seen. -/
lemma lt_nextFrame {frame seen : UInt64} (small : frame.toNat + 1 < 2 ^ 64) (le : seen ≤ frame) :
    seen < frame + 1 := by
  rw [UInt64.lt_iff_toNat_lt, UInt64.toNat_add, show (1 : UInt64).toNat = 1 from rfl,
    Nat.mod_eq_of_lt small]
  exact Nat.lt_succ_of_le (UInt64.le_iff_toNat_le.mp le)

omit [DecidableEq κ] in
/-- Whatever was to be drawn for a client is stamped. -/
lemma Redraws.stamped (h : s.Redraws client page) (fetches : Fetches s.vga s.dirty fetched dirty)
    (small : s.vga.frame.toNat + 1 < 2 ^ 64) (le : client.seen ≤ s.vga.frame) (seen : UInt64) :
    client.seen = 0 ∨ client.seen < (s.vga.writtenPages fetched seen).2.pageWritten page := by
  have stamped (e : s.vga.repaint = true ∨ logged (s.vga.bitmap fetched) page = true) :
      client.seen < (s.vga.writtenPages fetched seen).2.pageWritten page := by
    rw [writtenPages_stamps e]
    exact lt_nextFrame small le
  have all (e : s.vga.bitmap fetched = [~~~0]) : logged (s.vga.bitmap fetched) page = true := by
    rw [e]
    exact logged_all page
  rcases h with zero | repaint | lt | ⟨fb, written⟩
  · exact .inl zero
  · exact .inr (stamped (.inl repaint))
  · apply Or.inr
    rcases writtenPages_stamp s.vga fetched seen page with e | e
    · rw [e]
      exact lt_nextFrame small le
    · rw [e]
      exact lt
  · apply Or.inr
    apply stamped
    apply Or.inr
    cases log : s.vga.dirtyLog with
    | none => exact all (bitmap_unlogged fb log)
    | some l =>
      have logged := bitmap_logged fetched fb log
      cases fetches with
      | failed => exact all logged
      | reported _ _ _ reports =>
        rw [logged]
        exact reports page (written.resolve_left (by rw [log]; exact Option.some_ne_none l))

/-- A page that is stamped is drawn. -/
lemma startFrame_draws {v : Vga} {seen : UInt64} (hp : PageOf page p)
    (h : seen = 0 ∨ seen < (v.writtenPages fetched seen).2.pageWritten page) :
    ∃ d, (v.startFrame fetched seen).1 = some d ∧ d.next ≤ p ∧ p < d.rows.2 * width := by
  obtain ⟨first, last, pages, ge, lt⟩ := writtenPages_covers h
  obtain ⟨lo, hi⟩ := rows_cover hp ge lt
  have drawing : (v.startFrame fetched seen).1 = some _ := congrArg (Option.map _) pages
  exact ⟨_, drawing, lo, hi⟩

/-- A drawing stays on the screen. -/
lemma startFrame_rows {v : Vga} {seen : UInt64} (h : (v.startFrame fetched seen).1 = some d) :
    d.rows.2 ≤ height := by
  obtain ⟨pages, -, rfl⟩ := Option.map_eq_some_iff.mp h
  exact rows_fit pages

/-- Drawing starts at the first row. -/
lemma startFrame_first {v : Vga} {seen : UInt64} (h : (v.startFrame fetched seen).1 = some d) :
    d.next = d.rows.1 * width := by
  obtain ⟨pages, -, rfl⟩ := Option.map_eq_some_iff.mp h
  rfl

/-- That is not below the last one. -/
lemma startFrame_next {v : Vga} {seen : UInt64} (h : (v.startFrame fetched seen).1 = some d) :
    d.next ≤ d.rows.2 * width := by
  obtain ⟨⟨first, last⟩, pages, rfl⟩ := Option.map_eq_some_iff.mp h
  obtain ⟨lt, le⟩ := writtenPages_order pages
  have le : last ≤ 16 := le
  show first * 4096 / 320 * 320 ≤ (min (last * 4096) 64000 + 319) / 320 * 320
  omega

omit [DecidableEq κ] in
/-- A client that starts a frame will have the picture. -/
lemma Inv.fresh (h : Inv s) (lock : s.lock = some c) (small : s.vga.frame.toNat + 1 < 2 ^ 64)
    (fetches : Fetches s.vga s.dirty fetched dirty) (hp : PageOf page p) :
    Fresh s.vga.color s.mem ((s.client c).startFrame s.vga fetched) p := by
  rcases h.shown c p page hp with fresh | redraws
  · have e := fresh.out (h.locked c lock)
    by_cases pending : Pending ((s.client c).startFrame s.vga fetched) p
    · obtain ⟨d, hd, ge, lt⟩ := pending
      exact .inl ⟨d, hd, ge, lt, startFrame_color hd⟩
    · exact .inr ⟨pending, e⟩
  · have stamped := redraws.stamped fetches small (h.seen c) (s.client c).seen
    obtain ⟨d, hd, ge, lt⟩ := startFrame_draws hp stamped
    exact .inl ⟨d, hd, ge, lt, startFrame_color hd⟩

/-! ## Every step -/

omit [DecidableEq κ] in
/-- The device may change, up to what makes the next frames draw. -/
lemma Inv.device {v : Vga} {l : Option κ} (h : Inv s) (between : Between s.vga v)
    (valid : v.QueueValid) (locked : ∀ c, l = some c → (s.client c).drawing = none) :
    Inv { s with vga := v, lock := l } where
  valid := valid
  locked := locked
  seen c := by
    show (s.client c).seen ≤ v.frame
    rw [between.frame]
    exact h.seen c
  rows := h.rows
  shown c p page hp := by
    rcases between.changes.color with repaint | e
    · exact .inr (.inr (.inl repaint))
    rcases h.shown c p page hp with fresh | redraws
    · apply Or.inl
      show Fresh v.color _ _ _
      rw [e]
      exact fresh
    · apply Or.inr
      show _ ∨ v.repaint = true ∨ _ < v.pageWritten page ∨
        v.framebuffer.isSome ∧ (v.dirtyLog = none ∨ _)
      rw [between.pageWritten, between.changes.framebuffer, between.dirtyLog]
      exact redraws.imp_right (.imp_left between.changes.repaint)

/-- A client may change, if its pixels stay right or are drawn again. -/
lemma Inv.setClient (h : Inv s) (locked : s.lock = some c → client.drawing = none)
    (seen : client.seen ≤ s.vga.frame) (rows : ∀ d, client.drawing = some d → d.rows.2 ≤ height)
    (shown : ∀ p page, PageOf page p → Fresh s.vga.color s.mem client p ∨ s.Redraws client page) :
    Inv (s.setClient c client) where
  valid := h.valid
  locked := forall_setClient (P := fun c client => s.lock = some c → client.drawing = none)
    locked fun c' _ =>
    h.locked c'
  seen := forall_setClient (P := fun _ client => client.seen ≤ s.vga.frame) seen fun c' _ =>
    h.seen c'
  rows := forall_setClient (P := fun _ client => ∀ d, client.drawing = some d → d.rows.2 ≤ height)
    rows fun c' _ =>
    h.rows c'
  shown := by
    have shown' := forall_setClient (c := c) (P := fun _ client => ∀ p page, PageOf page p →
      Fresh s.vga.color s.mem client p ∨ s.Redraws client page) shown fun c' _ => h.shown c'
    exact shown'

omit [DecidableEq κ] in
/-- The guest's write is in the log. -/
lemma Inv.store (h : Inv s) (p : Nat) (byte : UInt8) :
    Inv { s with
      mem := Function.update s.mem p byte
      dirty := fun page => s.dirty page || decide (page.val = p / pageSize.toNat) } where
  valid := h.valid
  locked := h.locked
  seen := h.seen
  rows := h.rows
  shown c q page hq := by
    rcases h.shown c q page hq with fresh | zero | repaint | stamped | ⟨fb, none | dirty⟩
    · rcases fresh.store p byte with fresh | ⟨fb, rfl⟩
      · exact .inl fresh
      · exact .inr (.inr
          (.inr (.inr ⟨fb, .inr ((Bool.or_eq_true _ _).mpr (.inr (decide_eq_true hq.1)))⟩)))
    · exact .inr (.inl zero)
    · exact .inr (.inr (.inl repaint))
    · exact .inr (.inr (.inr (.inl stamped)))
    · exact .inr (.inr (.inr (.inr ⟨fb, .inl none⟩)))
    · exact .inr (.inr (.inr (.inr ⟨fb, .inr ((Bool.or_eq_true _ _).mpr (.inl dirty))⟩)))

/-- What a frame uses up is in the stamps, for the other clients. -/
lemma Inv.frame (h : Inv s) (lock : s.lock = some c) (small : s.vga.frame.toNat + 1 < 2 ^ 64)
    (fetches : Fetches s.vga s.dirty fetched dirty) : Inv (s.framed c fetched dirty) where
  valid := h.valid
  locked c' hc := by cases hc
  seen := forall_setClient (P := fun _ client => client.seen ≤ s.vga.frame + 1)
    (UInt64.le_refl _) fun c' _ =>
    UInt64.le_of_lt (lt_nextFrame small (h.seen c'))
  rows := forall_setClient (P := fun _ client => ∀ d, client.drawing = some d → d.rows.2 ≤ height)
    (fun _ => startFrame_rows) fun c' _ => h.rows c'
  shown := by
    have shown' :=
      forall_setClient (s := s) (c := c) (P := fun _ client => ∀ p page, PageOf page p →
      Fresh s.vga.color s.mem client p ∨ client.seen = 0 ∨
        client.seen < (s.vga.writtenPages fetched (s.client c).seen).2.pageWritten page)
      (fun p page hp => .inl (h.fresh lock small fetches hp)) fun c' _ p page hp =>
        (h.shown c' p page hp).imp_right fun redraws => redraws.stamped fetches small (h.seen c') _
    intro c' p page hp
    exact (shown' c' p page hp).imp_right (.imp_right fun stamped => .inr (.inl stamped))

/-- Every step keeps the invariant. -/
lemma Inv.step (h : Inv s) (st : Step s s') : Inv s' := by
  cases st with
  | store p byte _ => exact h.store p byte
  | exit lock handled =>
    obtain ⟨between, valid, -⟩ := handle_between h.valid handled
    exact h.device between valid h.locked
  | @queue ring entry hring room =>
    refine h.device (.queue _ _) ?_ h.locked
    intro ring' e
    cases e
    exact (h.valid ring hring).push entry
  | forget c =>
    exact h.setClient (h.locked c) (UInt64.zero_le) (h.rows c) fun p page hp => .inr (.inl rfl)
  | @lock c vga lock idle applied =>
    rw [applyQueuedWrites_run h.valid] at applied
    cases applied
    refine h.device (.drained _) h.valid.drained ?_
    intro c' e
    cases e
    exact idle
  | frame lock small fetches => exact h.frame lock small fetches
  | @draw c d hd lt =>
    refine h.setClient ?_ (h.seen c) ?_ fun p page hp => ?_
    · intro lock
      cases (h.locked c lock).symm.trans hd
    · intro d' e
      cases e
      exact h.rows c d hd
    · exact (h.shown c p page hp).imp_left (.draw hd lt)
  | @done c d hd last =>
    refine h.setClient (fun _ => rfl) (h.seen c) (fun d' e => by cases e) fun p page hp => ?_
    exact (h.shown c p page hp).imp_left (.done hd last)

omit [DecidableEq κ] in
/-- The invariant holds at the start. -/
lemma Init.inv (h : Init s) : Inv s := by
  obtain ⟨elapsed, framebuffer, dirtyLog, dacWrites, vga, -, valid, lock, client⟩ := h
  constructor
  case valid =>
    rw [vga]
    exact valid
  case locked =>
    intro c hc
    exact (client c).2
  case seen =>
    intro c
    rw [(client c).1]
    exact UInt64.zero_le
  case rows =>
    intro c d hd
    cases (client c).2.symm.trans hd
  case shown =>
    intro c p page _
    exact .inr (.inl (client c).1)

/-- It holds in every state that is reached. -/
lemma reach_inv (h : Reach Init Step s) : Inv s :=
  h.invariant (fun _ h => h.inv) fun _ _ h st => h.step st

/-! ## While the guest changes nothing -/

/-- The colours of the device change with what is queued applied, and its framebuffer never does. -/
lemma Step.colors (h : Inv s) (st : Step s s') : s'.vga.framebuffer = s.vga.framebuffer ∧
    (s'.vga.color = s.vga.color ∨ s'.vga.QueueEmpty) := by
  cases st with
  | store p byte _ => exact ⟨rfl, .inl rfl⟩
  | exit _ handled =>
    obtain ⟨between, -, empty⟩ := handle_between h.valid handled
    exact ⟨between.changes.framebuffer, .inr empty⟩
  | queue entry _ _ => exact ⟨rfl, .inl rfl⟩
  | forget c => exact ⟨rfl, .inl rfl⟩
  | lock _ _ applied =>
    rw [applyQueuedWrites_run h.valid] at applied
    cases applied
    exact ⟨(Between.drained _).changes.framebuffer, .inr (drained_empty _)⟩
  | frame _ _ _ => exact ⟨rfl, .inl rfl⟩
  | draw _ _ => exact ⟨rfl, .inl rfl⟩
  | done _ _ => exact ⟨rfl, .inl rfl⟩

/-- Where the guest's colours are the device's, they stay so. -/
lemma Quiet.colors (h : Inv s) (q : Quiet s s') (e : s.vga.color = s.vga.drained.color) :
    s'.vga.color = s.vga.color ∧ s'.vga.drained.color = s.vga.color := by
  obtain ⟨framebuffer, color⟩ := q.step.colors h
  have fb : s'.vga.drained.framebuffer = s.vga.drained.framebuffer := by
    rw [(Between.drained _).changes.framebuffer,
      (Between.drained _).changes.framebuffer, framebuffer]
  have drained : s'.vga.drained.color = s.vga.color :=
    (color_congr fb q.palette q.display).trans e.symm
  refine ⟨?_, drained⟩
  rcases color with same | empty
  · exact same
  · rw [drained_of_empty empty] at drained
    exact drained

/-- The client's render will show what the guest sees, once it has its frame. -/
structure Converging (c : κ) (s : Rendering κ) : Prop where
  color : s.vga.color = s.vga.drained.color
  fresh : s.lock = some c ∨ ∀ p page, PageOf page p → Fresh s.vga.color s.mem (s.client c) p

/-- The client's own part says what a pixel is. -/
lemma Fresh.setClient {c' : κ} (h : Fresh color mem (s.client c) p)
    (own : c' = c → Fresh color mem client p) :
    Fresh color mem ((s.setClient c' client).client c) p := by
  by_cases e : c' = c
  · subst e
    rw [setClient_self]
    exact own rfl
  · rw [setClient_ne (Ne.symm e)]
    exact h

/-- While the guest leaves its screen alone a client keeps converging. -/
lemma Converging.quiet (inv : Inv s) (h : Converging c s) (q : Quiet s s') : Converging c s' := by
  obtain ⟨color, drained⟩ := q.colors inv h.color
  refine ⟨color.trans drained.symm, ?_⟩
  rw [color, q.mem]
  cases q.step with
  | store p byte _ => exact h.fresh
  | exit _ _ => exact h.fresh
  | queue entry _ _ => exact h.fresh
  | @forget c' =>
    refine h.fresh.imp_right fun fresh p page hp => (fresh p page hp).setClient ?_
    rintro rfl
    exact fresh p page hp
  | @lock c' _ free _ _ =>
    rcases h.fresh with lock | fresh
    · cases free.symm.trans lock
    · exact .inr fresh
  | @frame c' _ _ lock small fetches =>
    apply Or.inr
    intro p page hp
    by_cases e : c' = c
    · subst e
      rw [framed_self]
      exact inv.fresh lock small fetches hp
    · rw [framed_ne (Ne.symm e)]
      rcases h.fresh with own | fresh
      · exact absurd (Option.some.inj (lock.symm.trans own)) e
      · exact fresh p page hp
  | @draw c' d hd lt =>
    refine h.fresh.imp_right fun fresh p page hp => (fresh p page hp).setClient ?_
    rintro rfl
    exact (fresh p page hp).draw hd lt
  | @done c' d hd last =>
    refine h.fresh.imp_right fun fresh p page hp => (fresh p page hp).setClient ?_
    rintro rfl
    exact (fresh p page hp).done hd last

/-- A client keeps converging over any number of steps that leave the screen alone. -/
lemma Converging.run (inv : Inv s) (h : Converging c s) (run : Relation.ReflTransGen Quiet s s') :
    Inv s' ∧ Converging c s' := by
  induction run with
  | refl => exact ⟨inv, h⟩
  | tail _ q ih => exact ⟨ih.1.step q.step, ih.2.quiet ih.1 q⟩

/-- A render starts with what is queued applied. -/
lemma Converging.start (inv : Inv s) (st : Step s s') (free : s.lock = none)
    (lock : s'.lock = some c) :
    Converging c s' := by
  refine ⟨?_, .inl lock⟩
  cases st with
  | lock _ _ applied =>
    rw [applyQueuedWrites_run inv.valid] at applied
    cases applied
    exact congrArg Vga.color (drained_of_empty (drained_empty s.vga)).symm
  | store p byte _ => cases free.symm.trans lock
  | exit _ _ => cases free.symm.trans lock
  | queue entry _ _ => cases free.symm.trans lock
  | forget c => cases free.symm.trans lock
  | frame held _ _ => cases free.symm.trans held
  | draw _ _ => cases free.symm.trans lock
  | done _ _ => cases free.symm.trans lock

/-- Every client draws rows below 200 only, and once the guest changes no colour and no byte, the
next render that a client starts and completes leaves it the picture. -/
theorem display_converges (h : Reach Init Step s) (c : κ) :
    (∀ d, (s.client c).drawing = some d → d.rows.2 ≤ height) ∧
      ∀ s₁ s₂, s.lock = none → Step s s₁ → s₁.lock = some c →
        Relation.ReflTransGen Quiet s₁ s₂ → Idle c s₂ →
        ∀ p < framebufferSize, (s₂.client c).out p = s₂.vga.drained.color (s₂.mem p) := by
  have inv := reach_inv h
  refine ⟨inv.rows c, fun s₁ s₂ free st lock quiet idle p hp => ?_⟩
  obtain ⟨-, converging⟩ := (Converging.start inv st free lock).run (inv.step st) quiet
  obtain ⟨page, hpage⟩ := exists_page hp
  rcases converging.fresh with held | fresh
  · exact absurd held idle.1
  · rw [(fresh p page hpage).out idle.2, converging.color]

/-! ## A render ends -/

/-- Drawing changes nothing that the guest sees. -/
lemma Quiet.ofClient (st : Step s (s.setClient c client)) : Quiet s (s.setClient c client) :=
  ⟨st, rfl, rfl, rfl⟩

/-- What a render of a client leaves: the others' own parts, the framebuffer, and
the device after the frame. -/
structure Leaves (c : κ) (v : Vga) (s s' : Rendering κ) : Prop where
  lock : s'.lock = none
  vga : s'.vga = v
  mem : s'.mem = s.mem
  others : ∀ c', c' ≠ c → s'.client c' = s.client c'

/-- What is left of a drawing can be drawn. -/
lemma drawing_ends (lock : s.lock = none) (hd : (s.client c).drawing = some d)
    (le : d.next ≤ d.rows.2 * width) :
    ∃ s', Relation.ReflTransGen Quiet s s' ∧ Idle c s' ∧ Leaves c s.vga s s' := by
  induction left : d.rows.2 * width - d.next generalizing s d with
  | zero =>
    have last : d.next = d.rows.2 * width := Nat.le_antisymm le (Nat.le_of_sub_eq_zero left)
    refine ⟨_, .single (.ofClient (.done hd last)), ⟨fun held => ?_, ?_⟩, lock, rfl, rfl, ?_⟩
    · cases lock.symm.trans held
    · rw [setClient_self]
    · exact fun c' ne => setClient_ne ne s _
  | succ n ih =>
    have lt : d.next < d.rows.2 * width := Nat.lt_of_sub_pos (left ▸ Nat.succ_pos n)
    have drawn := Quiet.ofClient (.draw hd lt)
    have hd' := congrArg VgaClient.drawing (setClient_self s c ((s.client c).draw s.mem d))
    have left' : d.rows.2 * width - (d.next + 1) = n := by
      rw [Nat.sub_succ, left]
      rfl
    obtain ⟨s', run, idle, rest⟩ :=
      ih (s := s.setClient c _) (d := { d with next := d.next + 1 }) lock hd' lt left'
    refine ⟨s', .head drawn run, idle, rest.lock, rest.vga, rest.mem, fun c' ne => ?_⟩
    exact (rest.others c' ne).trans (setClient_ne ne s _)

/-- A frame of a device with nothing queued. -/
lemma Quiet.framed (st : Step s (s.framed c fetched dirty)) (empty : s.vga.QueueEmpty) :
    Quiet s (s.framed c fetched dirty) := by
  have empty' : (s.vga.startFrame fetched (s.client c).seen).2.QueueEmpty := empty
  have drained :
    (s.framed c fetched dirty).vga.drained = (s.vga.startFrame fetched (s.client c).seen).2 :=
    drained_of_empty empty'
  refine ⟨st, rfl, ?_, ?_⟩
  · rw [drained, drained_of_empty empty]
    rfl
  · rw [drained, drained_of_empty empty]
    rfl

/-- A client that gets the lock can complete its render. -/
lemma render_ends (inv : Inv s) (free : s.lock = none) (idle : (s.client c).drawing = none)
    (small : s.vga.frame.toNat + 1 < 2 ^ 64) :
    ∃ s₁ s₂, Step s s₁ ∧ s₁.lock = some c ∧ Relation.ReflTransGen Quiet s₁ s₂ ∧ Idle c s₂ ∧
      Leaves c (s.vga.drained.startFrame none (s.client c).seen).2 s s₂ := by
  let s₁ : Rendering κ := { s with vga := s.vga.drained, lock := some c }
  have started : Step s s₁ := .lock free idle (applyQueuedWrites_run inv.valid)
  have small₁ : s₁.vga.frame.toNat + 1 < 2 ^ 64 := (Between.drained s.vga).frame ▸ small
  have framed := Quiet.framed (.frame (s := s₁) (c := c) rfl small₁ .failed) (drained_empty s.vga)
  have drawing := congrArg VgaClient.drawing (framed_self s₁ c none s.dirty)
  have others (c' : κ) (ne : c' ≠ c) : (s₁.framed c none s.dirty).client c' = s.client c' :=
    framed_ne ne s₁ none s.dirty
  cases hd : (s₁.vga.startFrame none (s.client c).seen).1 with
  | none =>
    refine ⟨s₁, _, started, rfl, .single framed, ⟨fun held => ?_, drawing.trans hd⟩, rfl,
      rfl, rfl, others⟩
    cases held
  | some d =>
    obtain ⟨s₂, run, idle₂, rest⟩ := drawing_ends rfl (drawing.trans hd) (startFrame_next hd)
    refine ⟨s₁, s₂, started, rfl, .head framed run, idle₂, rest.lock, rest.vga, rest.mem,
      fun c' ne => ?_⟩
    exact (rest.others c' ne).trans (others c' ne)

/-! ## Two clients -/

/-- The guest writes a byte to a port, and the write exits. -/
def outs (port : UInt16) (byte : UInt8) (s : Rendering κ) : Rendering κ :=
  { s with vga := (Vga.handle ⟨kvmExitIoOut, 1, port, 1⟩ [byte] s.vga).2 }

/-- The guest writes a component of a colour, and the write is queued. -/
def queues (byte : UInt8) (s : Rendering κ) : Rendering κ :=
  { s with vga := { s.vga with
      dacWrites := s.vga.dacWrites.map fun ring =>
        ring.push ⟨VgaPort.dacData.toUInt64, 1, [byte]⟩ } }

/-- The guest writes a byte of the framebuffer. -/
def stores (p : Nat) (byte : UInt8) (s : Rendering κ) : Rendering κ :=
  { s with
    mem := Function.update s.mem p byte
    dirty := fun page => s.dirty page || decide (page.val = p / pageSize.toNat) }

/-- A register is written. -/
lemma outs_step (free : s.lock = none) (valid : s.vga.QueueValid) (port : UInt16) (byte : UInt8) :
    Step s (s.outs port byte) := by
  have size : (1 : UInt8) ≠ 0 := by decide
  have run : (handle ⟨kvmExitIoOut, 1, port, 1⟩ [byte] s.vga).1 = _ :=
    congrArg Prod.fst (handle_run valid size [byte])
  exact .exit free (Prod.fst_eq_iff.mp run)

/-- A write is queued. -/
lemma queues_step (room : s.vga.dacWrites.any (fun ring => decide ring.Room) = true)
    (byte : UInt8) :
    Step s (s.queues byte) := by
  cases hring : s.vga.dacWrites with
  | none =>
    rw [hring] at room
    cases room
  | some ring =>
    rw [hring] at room
    have queued :=
      Step.queue (s := s) ⟨VgaPort.dacData.toUInt64, 1, [byte]⟩ hring (of_decide_eq_true room)
    have same : s.vga.dacWrites.map (fun ring => ring.push ⟨VgaPort.dacData.toUInt64, 1, [byte]⟩) =
        some (ring.push ⟨VgaPort.dacData.toUInt64, 1, [byte]⟩) := by
      rw [hring]
      rfl
    rw [← same] at queued
    exact queued

/-- Two clients before the first frame, with buffers that show nothing of it. -/
def twoClients : Rendering Bool where
  vga := Vga.new [] (some 0xa0000) (some ⟨0, framebufferPages⟩) (some ⟨0, 0, fun _ => ⟨0, 0, []⟩⟩)
  mem := fun p => UInt8.ofNat p
  dirty := fun _ => false
  lock := none
  client := fun c => ⟨fun _ => if c then 1 else 2, 0, none⟩

/-- The example starts with a new adapter. -/
lemma twoClients_init : Init twoClients := by
  refine ⟨_, _, _, _, rfl, ?_, ?_, rfl, fun c => ⟨rfl, rfl⟩⟩
  · intro log hlog
    cases hlog
    rfl
  · intro ring hring
    cases hring
    exact ⟨by decide, by decide⟩

/-- The guest turns the display on and makes colour 5 red, and the last pixel has it. -/
def lit : Rendering Bool :=
  ((((((twoClients.outs VgaPort.acIndex acPas).outs VgaPort.dacWriteIndex 5).queues 63).queues
    0).queues 0).stores
    63999 5)

/-- `lit` is reached from the start. -/
lemma lit_reach : Reach Init Step lit := by
  have on : Reach Init Step (twoClients.outs VgaPort.acIndex acPas) :=
    (Reach.init twoClients_init).step (outs_step rfl twoClients_init.inv.valid _ _)
  have index := on.step (outs_step rfl (reach_inv on).valid VgaPort.dacWriteIndex 5)
  have red := index.step (queues_step (by decide +kernel) 63)
  have green := red.step (queues_step (by decide +kernel) 0)
  have blue := green.step (queues_step (by decide +kernel) 0)
  exact blue.step (.store 63999 5 (by decide))

/-- One client has rendered and the guest writes another pixel; the render of the
other leaves it the picture. -/
theorem display_converges_twoClients : ∃ s₀ s s₁ s₂, Reach Init Step s₀ ∧
    (∀ p < framebufferSize, (s₀.client false).out p = s₀.vga.drained.color (s₀.mem p)) ∧
    s = s₀.stores 0 5 ∧
      Step s s₁ ∧ s₁.lock = some true ∧ Relation.ReflTransGen Quiet s₁ s₂ ∧ Idle true s₂ ∧
        (s₂.client true).out 0 = 0xff0000 ∧ (s₂.client true).out 1 = 0 ∧
          ∀ p < framebufferSize, (s₂.client true).out p = s₂.vga.drained.color (s₂.mem p) := by
  obtain ⟨s₁, s₂, started, lock, run, idle, first⟩ :=
    render_ends (c := false) (reach_inv lit_reach) rfl rfl
    (by decide +kernel)
  have shown := (display_converges lit_reach false).2 s₁ s₂ rfl started lock run idle
  have reach := (lit_reach.step started).run
    (Relation.ReflTransGen.mono (fun _ _ => Quiet.step) _ _ run)
  have other : s₂.client true = ⟨fun _ => 1, 0, none⟩ := first.others true (by decide)
  have stored : Reach Init Step (s₂.stores 0 5) := reach.step (.store 0 5 (by decide))
  obtain ⟨s₃, s₄, started', lock', run', idle', second⟩ :=
    render_ends (c := true) (reach_inv stored) first.lock
    (by show (s₂.client true).drawing = none; rw [other])
    (by show s₂.vga.frame.toNat + 1 < 2 ^ 64; rw [first.vga]; decide +kernel)
  have shown' := (display_converges stored true).2 s₃ s₄ first.lock started' lock' run' idle'
  have colour (byte : UInt8) : s₄.vga.drained.color byte =
      (((lit.vga.drained.startFrame none 0).2.drained.startFrame none 0).2.drained).color byte := by
    have seen : ((s₂.stores 0 5).client true).seen = 0 := congrArg VgaClient.seen other
    have vga : (s₂.stores 0 5).vga = (lit.vga.drained.startFrame none 0).2 := first.vga
    rw [second.vga, seen, vga]
  have byte (p : Nat) : s₄.mem p = Function.update lit.mem 0 5 p := by
    rw [second.mem, ← first.mem]
    rfl
  refine ⟨s₂, _, s₃, s₄, reach, shown, rfl, started', lock', run', idle', ?_, ?_, shown'⟩
  · rw [shown' 0 (by decide), colour, byte]
    decide +kernel
  · rw [shown' 1 (by decide), colour, byte]
    decide +kernel

end Rendering

end Hearth
