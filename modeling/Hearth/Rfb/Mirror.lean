import Hearth.Rfb.Screen
import Hearth.Vga.Convergence
import Hearth.Vga.Queued

/-!
# The guest's screen at a client

`Display::render` of the VGA adapter, as the update thread calls it. Whatever else goes on, the
guest and the other clients, goes on between the steps of the thread: a `Surrounding` is what
happens at each of these times.

It keeps the contract of the trait, and what it does is a run of the steps of `Rendering`. So
`viewer_shows_screen` can put the two ends together: the guest's framebuffer and its registers, and
the rows that a viewer has been sent.
-/

namespace Hearth
open Lib

namespace Rendering
open Vga

variable {κ : Type} [DecidableEq κ]

/-- A step that is not one of this client's. -/
structure Others (c : κ) (s s' : Rendering κ) : Prop where
  step : Step s s'
  client : s'.client c = s.client c
  lock : s'.lock = some c ↔ s.lock = some c

/-- What others do leaves the client alone. -/
lemma others_client {c : κ} {s s' : Rendering κ} (run : Relation.ReflTransGen (Others c) s s') :
    s'.client c = s.client c := by
  induction run with
  | refl => rfl
  | tail _ st ih => exact st.client.trans ih

/-- What the guest has on its screen. -/
def picture (s : Rendering κ) (p : Nat) : UInt32 := s.vga.drained.color (s.mem p)

/-- What a fetch leaves of the log. -/
def left (fetched : Option (List UInt64)) (dirty : Fin framebufferPages → Bool) :
    Fin framebufferPages → Bool :=
  if fetched.isSome then fun _ => false else dirty

end Rendering

/-- Everything but the update thread of a client: what happens at each time, and what
a fetch of the log returns. -/
structure Surrounding {κ : Type} [DecidableEq κ] (c : κ) where
  act : Nat → Rendering κ → Rendering κ
  fetched : Nat → Rendering κ → Option (List UInt64)
  others : ∀ time s, Relation.ReflTransGen (Rendering.Others c) s (act time s)
  fetches : ∀ time s,
    Vga.Fetches s.vga s.dirty (fetched time s) (Rendering.left (fetched time s) s.dirty)

/-- The display, for one client. The last two are for the statements only: when the last
render got the lock, and whether one could not go on, as the lock was held for good or the
counter of frames was used up. -/
structure Screen (κ : Type) where
  state : Rendering κ
  time : Nat
  started : Nat
  blocked : Bool

namespace Surrounding
open Vga Rendering

variable {κ : Type} [DecidableEq κ] {c : κ} (world : Surrounding c)

/-- What the thread passes to `render`. -/
def enter (c : κ) (frame : List UInt32) (seen : UInt64) (s : Rendering κ) : Rendering κ :=
  s.setClient c ⟨fun p => frame.getD p 0, seen, none⟩

/-- The lock is taken and what is queued is applied. -/
def lock (c : κ) (s : Rendering κ) : Rendering κ :=
  { s with vga := (applyQueuedWrites s.vga).2, lock := some c }

/-- The pages written are known, and the lock is given back. -/
def frame (time : Nat) (s : Rendering κ) : Rendering κ :=
  s.framed c (world.fetched time s) (left (world.fetched time s) s.dirty)

/-- So many pixels are drawn. -/
def drawPixels : (n time : Nat) → Drawing → Rendering κ → Rendering κ
  | 0, _, _, s => s.setClient c { s.client c with drawing := none }
  | n + 1, time, d, s =>
    let s := world.act time s
    drawPixels n (time + 1) { d with next := d.next + 1 }
      (s.setClient c ((s.client c).draw s.mem d))

/-- What is seen when the lock is given back. -/
def locked (frame : List UInt32) (seen : UInt64) (d : Screen κ) : Rendering κ :=
  world.act (d.time + 1) (lock c (world.act d.time (enter c frame seen d.state)))

/-- A frame is started for the client, after what happened before it got the lock. -/
def framed (frame : List UInt32) (seen : UInt64) (d : Screen κ) : Rendering κ :=
  world.frame (d.time + 1) (world.locked frame seen d)

/-- The render cannot go on. -/
def blocks (frame : List UInt32) (seen : UInt64) (d : Screen κ) : Bool :=
  (world.act d.time (enter c frame seen d.state)).lock.isSome ||
    decide (2 ^ 64 ≤ (world.locked frame seen d).vga.frame.toNat + 1)

/-- `Display::render` of the VGA adapter. -/
def render : Render (Screen κ) := fun frame seen d =>
  let s := world.framed frame seen d
  let blocked := d.blocked || world.blocks frame seen d
  match (s.client c).drawing with
  | none => (none, frame, (s.client c).seen, ⟨s, d.time + 2, d.time + 1, blocked⟩)
  | some drawing =>
    let n := drawing.rows.2 * width - drawing.next
    let s := world.drawPixels n (d.time + 2) drawing s
    (some drawing.rows, frame.mapIdx fun p _ => (s.client c).out p, (s.client c).seen,
      ⟨s, d.time + 2 + n, d.time + 1, blocked⟩)

/-! ## The contract -/

/-- The surroundings leave the client alone. -/
lemma act_client (time : Nat) (s : Rendering κ) : (world.act time s).client c = s.client c :=
  others_client (world.others time s)

/-- Pixels are drawn where the drawing says, and nowhere else. -/
lemma drawPixels_client (n time : Nat) (d : Drawing) (s : Rendering κ) :
    ((world.drawPixels n time d s).client c).seen = (s.client c).seen ∧
      ((world.drawPixels n time d s).client c).drawing = none ∧
      ∀ p, ¬ (d.next ≤ p ∧ p < d.next + n) →
        ((world.drawPixels n time d s).client c).out p = (s.client c).out p := by
  induction n generalizing time d s with
  | zero =>
    rw [drawPixels, setClient_self]
    exact ⟨rfl, rfl, fun _ _ => rfl⟩
  | succ n ih =>
    let s₁ := world.act time s
    obtain ⟨seen, drawing, out⟩ := ih (time + 1) { d with next := d.next + 1 }
      (s₁.setClient c ((s₁.client c).draw s₁.mem d))
    rw [setClient_self] at seen out
    have same : s₁.client c = s.client c := world.act_client time s
    have kept : (s₁.client c).seen = (s.client c).seen := congrArg VgaClient.seen same
    refine ⟨seen.trans kept, drawing, fun p outside => ?_⟩
    have ne : p ≠ d.next := by omega
    calc ((world.drawPixels (n + 1) time d s).client c).out p
      _ = Function.update (s₁.client c).out d.next _ p := by
        apply out p
        show ¬ (d.next + 1 ≤ p ∧ p < d.next + 1 + n)
        omega
      _ = (s₁.client c).out p := Function.update_of_ne ne _ _
      _ = (s.client c).out p := congrFun (congrArg VgaClient.out same) p

/-- The frame is started from what the thread has. -/
lemma framed_client (frame : List UInt32) (seen : UInt64) (d : Screen κ) :
    ∃ fetched, (world.framed frame seen d).client c =
      (⟨fun p => frame.getD p 0, seen, none⟩ : VgaClient).startFrame
        (world.locked frame seen d).vga fetched := by
  refine ⟨world.fetched (d.time + 1) (world.locked frame seen d), ?_⟩
  have client : (world.locked frame seen d).client c = ⟨fun p => frame.getD p 0, seen, none⟩ := by
    unfold locked
    rw [world.act_client]
    show (world.act d.time _).client c = _
    rw [world.act_client]
    exact setClient_self _ _ _
  exact (framed_self _ _ _ _).trans (congrArg (VgaClient.startFrame _ _) client)

/-- Without a drawing the render returns nothing. -/
lemma render_none {frame : List UInt32} {seen : UInt64} {d : Screen κ}
    (h : ((world.framed frame seen d).client c).drawing = none) :
    world.render frame seen d = (none, frame, ((world.framed frame seen d).client c).seen,
      ⟨world.framed frame seen d, d.time + 2, d.time + 1,
        d.blocked || world.blocks frame seen d⟩) := by
  simp only [render, h]

/-- The state once everything is drawn. -/
def drawn (frame : List UInt32) (seen : UInt64) (d : Screen κ) (drawing : Drawing) : Rendering κ :=
  world.drawPixels (drawing.rows.2 * width - drawing.next) (d.time + 2) drawing
    (world.framed frame seen d)

/-- With one it returns the rows drawn. -/
lemma render_some {frame : List UInt32} {seen : UInt64} {d : Screen κ} {drawing : Drawing}
    (h : ((world.framed frame seen d).client c).drawing = some drawing) :
    world.render frame seen d =
      (some drawing.rows,
        frame.mapIdx (fun p _ => ((world.drawn frame seen d drawing).client c).out p),
        ((world.drawn frame seen d drawing).client c).seen,
        ⟨world.drawn frame seen d drawing,
          d.time + 2 + (drawing.rows.2 * width - drawing.next), d.time + 1,
          d.blocked || world.blocks frame seen d⟩) := by
  simp only [render, h]
  rfl

/-- What `render` does, by whether anything is drawn. -/
lemma render_cases (frame : List UInt32) (seen : UInt64) (d : Screen κ) :
    ∃ v fetched, v = (world.locked frame seen d).vga ∧
      ((world.render frame seen d).1 = none ∧ (v.startFrame fetched seen).1 = none ∧
          (world.render frame seen d).2.1 = frame ∨
        ∃ drawing, (world.render frame seen d).1 = some drawing.rows ∧
          (v.startFrame fetched seen).1 = some drawing ∧
          ∃ out : Nat → UInt32, (world.render frame seen d).2.1 = frame.mapIdx (fun p _ => out p) ∧
            ∀ p, ¬ (drawing.next ≤ p ∧ p < drawing.rows.2 * width) → out p = frame.getD p 0) := by
  obtain ⟨fetched, client⟩ := world.framed_client frame seen d
  refine ⟨_, fetched, rfl, ?_⟩
  have drawing : ((world.framed frame seen d).client c).drawing = _ :=
    congrArg VgaClient.drawing client
  cases h : ((world.framed frame seen d).client c).drawing with
  | none =>
    rw [world.render_none h]
    exact .inl ⟨rfl, drawing.symm.trans h, rfl⟩
  | some drawn =>
    rw [world.render_some h]
    refine .inr ⟨drawn, rfl, drawing.symm.trans h, _, rfl, fun p outside => ?_⟩
    obtain ⟨-, -, out⟩ :=
      world.drawPixels_client (drawn.rows.2 * width - drawn.next) (d.time + 2) drawn
      (world.framed frame seen d)
    exact (out p (by omega)).trans (congrFun (congrArg VgaClient.out client) p)

/-- A row of a frame that was drawn elsewhere. -/
lemma rowPixels_mapIdx {frame : List UInt32} {out : Nat → UInt32} {row : Nat} {wide : UInt16}
    (h : ∀ p, row * wide.toNat ≤ p → p < (row + 1) * wide.toNat → out p = frame.getD p 0) :
    Updates.rowPixels wide (frame.mapIdx fun p _ => out p) row =
      Updates.rowPixels wide frame row := by
  apply List.ext_getElem
  · simp [Updates.rowPixels]
  · intro i left right
    simp only [Updates.rowPixels, List.length_take, List.length_drop] at right
    have low : i < wide.toNat := by omega
    have inside : row * wide.toNat + i < frame.length := by omega
    simp only [Updates.rowPixels, List.getElem_take, List.getElem_drop, List.getElem_mapIdx]
    rw [h _ (Nat.le_add_right _ _) (by rw [Nat.succ_mul]; omega), List.getD_eq_getElem _ 0 inside]

/-- The VGA adapter is a display. -/
lemma render_contract : Updates.Contract world.render 320 200 where
  length frame seen d length := by
    obtain ⟨v, fetched, -, ⟨-, -, same⟩ | ⟨drawing, -, -, out, drawn, -⟩⟩ :=
      world.render_cases frame seen d
    · rw [same, length]
    · rw [drawn, List.length_mapIdx, length]
  range := by
    intro frame seen d first last h
    obtain ⟨v, fetched, -, ⟨none, -, -⟩ | ⟨drawing, rows, start, -⟩⟩ :=
      world.render_cases frame seen d
    · cases none.symm.trans h
    · obtain ⟨⟨lo, hi⟩, pages, rfl⟩ := Option.map_eq_some_iff.mp start
      cases rows.symm.trans h
      obtain ⟨lt, le⟩ := writtenPages_order pages
      have le : hi ≤ 16 := le
      refine ⟨?_, rows_fit (lo, hi)⟩
      show lo * 4096 / 320 ≤ (min (hi * 4096) 64000 + 319) / 320
      omega
  other := by
    intro frame seen d row h
    obtain ⟨v, fetched, -, ⟨-, -, same⟩ | ⟨drawing, rows, start, out, drawn, outside⟩⟩ :=
      world.render_cases frame seen d
    · rw [same]
    · rw [drawn]
      have apart := h _ _ rows
      obtain ⟨pages, -, rfl⟩ := Option.map_eq_some_iff.mp start
      refine rowPixels_mapIdx fun p ge lt => outside p ?_
      have ge : row * 320 ≤ p := ge
      have lt : p < (row + 1) * 320 := lt
      show ¬ ((Vga.rows pages).1 * 320 ≤ p ∧ p < (Vga.rows pages).2 * 320)
      have apart : ¬ ((Vga.rows pages).1 ≤ row ∧ row < (Vga.rows pages).2) := apart
      omega
  all := by
    intro frame d
    obtain ⟨v, fetched, -, ⟨-, none, -⟩ | ⟨drawing, rows, start, -⟩⟩ := world.render_cases frame 0 d
    · cases none
    · rw [rows]
      cases start
      rfl

end Surrounding

/-! ## A render is a run -/

namespace Rendering
open Vga

variable {κ : Type} [DecidableEq κ] {c : κ} {s s' : Rendering κ}

/-- What others do keeps the invariant, and whether the client has the lock. -/
lemma others_run (inv : Inv s) (run : Relation.ReflTransGen (Others c) s s') :
    Inv s' ∧ (s'.lock = some c ↔ s.lock = some c) := by
  induction run with
  | refl => exact ⟨inv, Iff.rfl⟩
  | tail _ st ih => exact ⟨ih.1.step st.step, st.lock.trans ih.2⟩

/-- A frame changes nothing that the guest sees. -/
lemma Quiet.frame {fetched : Option (List UInt64)} {dirty : Fin framebufferPages → Bool}
    (st : Step s (s.framed c fetched dirty)) : Quiet s (s.framed c fetched dirty) := by
  have same : Same s.vga.drained (s.framed c fetched dirty).vga.drained :=
    Same.drained ⟨rfl, rfl⟩ rfl
  refine ⟨st, rfl, ?_, ?_⟩
  · rw [same.registers]
  · rw [same.registers]

end Rendering

namespace Surrounding
open Vga Rendering

variable {κ : Type} [DecidableEq κ] {c : κ} {world : Surrounding c} {frame : List UInt32}
    {seen : UInt64} {d : Screen κ}

/-- From some time on the guest leaves its screen alone. -/
def Calm (world : Surrounding c) (since : Nat) : Prop :=
  ∀ time, since ≤ time → ∀ s, Relation.ReflTransGen Quiet s (world.act time s)

/-- Up to where the lock is given back. -/
lemma locked_run (inv : Inv (enter c frame seen d.state))
    (go : world.blocks frame seen d = false) :
    Inv (world.locked frame seen d) ∧ (world.locked frame seen d).lock = some c ∧
      Step (world.locked frame seen d) (world.framed frame seen d) ∧
      (world.Calm (d.time + 1) → Converging c (world.locked frame seen d)) := by
  obtain ⟨free, small⟩ := Bool.or_eq_false_iff.mp go
  have free : (world.act d.time (enter c frame seen d.state)).lock = none :=
    Option.isNone_iff_eq_none.mp (Option.isSome_eq_false_iff.mp free)
  have small : (world.locked frame seen d).vga.frame.toNat + 1 < 2 ^ 64 :=
    Nat.not_le.mp (of_decide_eq_false small)
  obtain ⟨inv₀, -⟩ := others_run inv (world.others d.time _)
  have idle : ((world.act d.time (enter c frame seen d.state)).client c).drawing = none := by
    rw [world.act_client, enter, setClient_self]
  have applied := applyQueuedWrites_run inv₀.valid
  have taken : Step (world.act d.time (enter c frame seen d.state))
      (lock c (world.act d.time (enter c frame seen d.state))) := by
    apply Step.lock free idle
    rw [applied]
  have inv₁ := inv₀.step taken
  obtain ⟨inv₂, held⟩ := others_run inv₁ (world.others (d.time + 1) _)
  have held : (world.locked frame seen d).lock = some c := held.mpr rfl
  refine ⟨inv₂, held, .frame held small (world.fetches (d.time + 1) _), fun calm => ?_⟩
  exact ((Converging.start inv₀ taken free rfl).run inv₁ (calm _ (Nat.le_refl _) _)).2

/-- The pixels are drawn, whatever the others do meanwhile. -/
lemma drawPixels_run (n time : Nat) (drawing : Drawing) {s : Rendering κ} (inv : Inv s)
    (hd : (s.client c).drawing = some drawing) (left : drawing.next + n = drawing.rows.2 * width)
    (unlocked : s.lock ≠ some c) :
    Inv (world.drawPixels n time drawing s) ∧ (world.drawPixels n time drawing s).lock ≠ some c ∧
      ∀ since ≤ time, world.Calm since →
        Relation.ReflTransGen Quiet s (world.drawPixels n time drawing s) := by
  induction n generalizing time drawing s with
  | zero =>
    have last : Step s (s.setClient c { s.client c with drawing := none }) := .done hd left
    exact ⟨inv.step last, unlocked, fun _ _ _ => .single (.ofClient last)⟩
  | succ n ih =>
    obtain ⟨inv₁, lock⟩ := others_run inv (world.others time s)
    have hd₁ : ((world.act time s).client c).drawing = some drawing := by rw [world.act_client, hd]
    have pixel : Step (world.act time s)
        ((world.act time s).setClient c
          (((world.act time s).client c).draw (world.act time s).mem drawing)) :=
      .draw hd₁ (by omega)
    have hd₂ := congrArg VgaClient.drawing (setClient_self (world.act time s) c
      (((world.act time s).client c).draw (world.act time s).mem drawing))
    obtain ⟨inv', unlocked', quiet⟩ :=
      ih (time + 1) { drawing with next := drawing.next + 1 } (inv₁.step pixel) hd₂
      (by rw [← left, Nat.add_right_comm, Nat.add_assoc]) fun held => unlocked (lock.mp held)
    refine ⟨inv', unlocked', fun since le calm => ?_⟩
    have rest := quiet since (Nat.le_succ_of_le le) calm
    exact (calm time le s).trans (.head (.ofClient pixel) rest)

/-- The thread has what the client has. -/
lemma enter_self {s : Rendering κ} (client : s.client c = ⟨fun p => frame.getD p 0, seen, none⟩) :
    enter c frame seen s = s := by
  show { s with client := Function.update s.client c ⟨fun p => frame.getD p 0, seen, none⟩ } = s
  rw [← client, Function.update_eq_self]

/-- Where pixels were drawn the thread has what the client has. -/
lemma getD_mapIdx {out : Nat → UInt32} (length : frame.length = framebufferSize)
    (outside : ∀ p, framebufferSize ≤ p → out p = frame.getD p 0) (p : Nat) :
    (frame.mapIdx fun p _ => out p).getD p 0 = out p := by
  rcases Nat.lt_or_ge p framebufferSize with inside | beyond
  · rw [List.getD_eq_getElem _ _ (by rw [List.length_mapIdx, length]; exact inside),
      List.getElem_mapIdx]
  · rw [outside p beyond,
      List.getD_eq_default _ _ (by rw [List.length_mapIdx, length]; exact beyond),
      List.getD_eq_default _ _ (by rw [length]; exact beyond)]

/-- Once a frame was started something has been seen. -/
lemma framed_seen (go : world.blocks frame seen d = false) :
    ((world.framed frame seen d).client c).seen ≠ 0 := by
  obtain ⟨fetched, client⟩ := world.framed_client frame seen d
  obtain ⟨-, small⟩ := Bool.or_eq_false_iff.mp go
  have next := lt_nextFrame (Nat.not_le.mp (of_decide_eq_false small)) (UInt64.le_refl _)
  have seen : ((world.framed frame seen d).client c).seen =
    (world.locked frame seen d).vga.frame + 1 :=
    congrArg VgaClient.seen client
  intro zero
  rw [← seen, zero] at next
  exact UInt64.not_lt_zero next

/-- What a render leaves: the invariant of the device and its clients, with what the
thread has as the client's own part. If the guest has left its screen alone meanwhile,
that is what the thread has. -/
lemma render_run (inv : Inv (enter c frame seen d.state)) (length : frame.length = framebufferSize)
    (go : world.blocks frame seen d = false) :
    let r := world.render frame seen d
    Inv (enter c r.2.1 r.2.2.1 r.2.2.2.state) ∧ r.2.2.1 ≠ 0 ∧
      (world.Calm (d.time + 1) →
        ∀ p < framebufferSize, r.2.1.getD p 0 = r.2.2.2.state.picture p) := by
  obtain ⟨inv₁, held, st, converging⟩ := locked_run inv go
  obtain ⟨fetched, client⟩ := world.framed_client frame seen d
  have inv₂ := inv₁.step st
  have unlocked : (world.framed frame seen d).lock ≠ some c := nofun
  -- once the client is idle and holds no lock, every page it has is fresh
  have shown {s : Rendering κ} (calm : world.Calm (d.time + 1)) (run : Relation.ReflTransGen Quiet
      (world.framed frame seen d) s) (free : s.lock ≠ some c) (idle : (s.client c).drawing = none) :
      ∀ p < framebufferSize, (s.client c).out p = s.picture p := by
    intro p hp
    obtain ⟨page, hpage⟩ := exists_page hp
    obtain ⟨-, there⟩ := (converging calm).run inv₁ (.head (.frame st) run)
    rcases there.fresh with lock | fresh
    · exact absurd lock free
    · rw [(fresh p page hpage).out idle, there.color]
      rfl
  have out : ((world.framed frame seen d).client c).out = fun p => frame.getD p 0 :=
    congrArg VgaClient.out client
  cases h : ((world.framed frame seen d).client c).drawing with
  | none =>
    -- the frame is not drawn in pieces: it is whole when the lock is left
    rw [world.render_none h]
    have own : (world.framed frame seen d).client c =
        ⟨fun p => frame.getD p 0, ((world.framed frame seen d).client c).seen, none⟩ := by
      rw [← out, ← h]
    dsimp only
    rw [enter_self own]
    refine ⟨inv₂, framed_seen go, fun calm p hp => ?_⟩
    rw [← shown calm .refl unlocked h p hp, out]
  | some drawing =>
    rw [world.render_some h]
    have start := (congrArg VgaClient.drawing client).symm.trans h
    have fits : drawing.rows.2 * width ≤ framebufferSize :=
      Nat.mul_le_mul_right width (startFrame_rows start)
    -- the pixels are drawn without the lock, while the guest may store
    obtain ⟨inv₃, unlocked₃, quiet⟩ :=
      drawPixels_run (drawing.rows.2 * width - drawing.next) (d.time + 2) drawing
      inv₂ h (Nat.add_sub_cancel' (startFrame_next start)) unlocked
    obtain ⟨seen₃, idle, untouched⟩ :=
      world.drawPixels_client (drawing.rows.2 * width - drawing.next) (d.time + 2)
      drawing (world.framed frame seen d)
    have same (p : Nat) :
      (frame.mapIdx fun p _ => ((world.drawn frame seen d drawing).client c).out p).getD p 0 =
        ((world.drawn frame seen d drawing).client c).out p := by
      refine getD_mapIdx length (fun p beyond => ?_) p
      rw [← congrFun out p]
      apply untouched
      omega
    have own : (world.drawn frame seen d drawing).client c =
        ⟨fun p => (frame.mapIdx fun p _ =>
          ((world.drawn frame seen d drawing).client c).out p).getD p 0,
          ((world.drawn frame seen d drawing).client c).seen, none⟩ := by
      rw [funext same, ← idle]
      rfl
    dsimp only
    rw [enter_self own]
    refine ⟨inv₃, ?_, fun calm p hp => ?_⟩
    · show ((world.drawPixels _ _ drawing _).client c).seen ≠ 0
      rw [seen₃]
      exact framed_seen go
    · rw [same]
      exact shown calm (quiet _ (Nat.le_succ _) calm) unlocked₃ idle p hp

/-! ## The update thread -/

/-- The event makes the next render draw everything. -/
def Forgets : UpdateEvent → Prop
  | .received (.pixelFormat _) => True
  | .received (.update false) => True
  | _ => False

/-- The display was rendered, and nothing was forgotten since. -/
def Rendered (events : List UpdateEvent) : Prop :=
  ∃ earlier later, events = earlier ++ UpdateEvent.rendered :: later ∧ ∀ e ∈ later, ¬ Forgets e

/-- The thread keeps up with the guest: no render was held up, and what one has left is right. -/
structure Mirrors (world : Surrounding c) (s : Updates (Screen κ)) : Prop where
  inv : s.display.blocked = false → Inv (enter c s.frame s.seen s.display.state)
  shows : s.display.blocked = false → Rendered s.events →
    s.seen ≠ 0 ∧ (world.Calm s.display.started →
    ∀ p < framebufferSize, s.frame.getD p 0 = s.display.state.picture p)

/-- It was rendered before something else happened. -/
lemma Rendered.of_append {events : List UpdateEvent} {e : UpdateEvent}
    (h : Rendered (events ++ [e])) (render : e ≠ .rendered) : Rendered events ∧ ¬ Forgets e := by
  obtain ⟨earlier, later, split, kept⟩ := h
  rcases Updates.split_last split with ⟨-, -, last⟩ | ⟨later, rfl, before⟩
  · exact absurd last.symm render
  · refine ⟨⟨earlier, later, before, fun e he => kept e (List.mem_append_left _ he)⟩, ?_⟩
    exact kept e (List.mem_append_right _ (List.mem_singleton_self e))

/-- Entering again starts from there. -/
lemma enter_enter (frame' : List UInt32) (seen' : UInt64) (s : Rendering κ) :
    enter c frame' seen' (enter c frame seen s) = enter c frame' seen' s := by
  unfold enter setClient
  rw [Function.update_idem]

/-- A client that is shown everything is shown what is right. -/
lemma inv_forget {s : Rendering κ} (inv : Inv s) (frame : List UInt32) : Inv (enter c frame 0 s) :=
  inv.setClient (fun _ => rfl) UInt64.zero_le (fun _ h => by cases h) fun _ _ _ => .inr (.inl rfl)

/-- What a render does to the screen around it. -/
lemma render_screen (world : Surrounding c) (frame : List UInt32) (seen : UInt64) (d : Screen κ) :
    (world.render frame seen d).2.2.2.started = d.time + 1 ∧
      (world.render frame seen d).2.2.2.blocked = (d.blocked || world.blocks frame seen d) := by
  cases h : ((world.framed frame seen d).client c).drawing with
  | none =>
    rw [world.render_none h]
    exact ⟨rfl, rfl⟩
  | some drawing =>
    rw [world.render_some h]
    exact ⟨rfl, rfl⟩

variable {s s' : Updates (Screen κ)} {clock : Nat → Nat} {overflowChecks : Bool}

/-- A render keeps the copy. -/
lemma Mirrors.rendered (h : Mirrors world s) (length : s.frame.length = framebufferSize)
    (frame : s'.frame = (world.render s.frame s.seen s.display).2.1)
    (seen : s'.seen = (world.render s.frame s.seen s.display).2.2.1)
    (display : s'.display = (world.render s.frame s.seen s.display).2.2.2) : Mirrors world s' := by
  obtain ⟨started, blocked⟩ := render_screen world s.frame s.seen s.display
  have run (go : s'.display.blocked = false) := by
    rw [display, blocked] at go
    obtain ⟨before, go⟩ := Bool.or_eq_false_iff.mp go
    exact render_run (h.inv before) length go
  constructor
  case inv =>
    intro go
    rw [frame, seen, display]
    exact (run go).1
  case shows =>
    intro go _
    rw [frame, seen, display, started]
    exact (run go).2

/-- Something else than a render happens; only where it makes the next one draw
everything is a frame forgotten. -/
lemma Mirrors.noted {e : UpdateEvent} (h : Mirrors world s) (render : e ≠ .rendered)
    (events : s'.events = s.events ++ [e]) (frame : s'.frame = s.frame)
    (display : s'.display = s.display)
    (seen : s'.seen = s.seen ∨ s'.seen = 0 ∧ Forgets e) : Mirrors world s' := by
  constructor
  case inv =>
    intro go
    rw [display] at go ⊢
    rw [frame]
    rcases seen with same | ⟨zero, -⟩
    · rw [same]
      exact h.inv go
    · rw [zero, ← enter_enter s.frame 0]
      exact inv_forget (h.inv go) s.frame
  case shows =>
    intro go rendered
    rw [events] at rendered
    obtain ⟨rendered, kept⟩ := rendered.of_append render
    rcases seen with same | ⟨-, forgets⟩
    · rw [display] at go ⊢
      rw [frame, same]
      exact h.shows go rendered
    · exact absurd forgets kept

/-- Whatever is received keeps the copy. -/
lemma Mirrors.take (h : Mirrors world s) (received : Received) :
    Mirrors world (Updates.take received s) := by
  cases received with
  | pixelFormat format =>
    exact h.noted (e := .received (.pixelFormat format)) nofun rfl rfl rfl (.inr ⟨rfl, trivial⟩)
  | update incremental =>
    refine h.noted (e := .received (.update incremental)) nofun rfl rfl rfl ?_
    cases incremental with
    | false => exact .inr ⟨rfl, trivial⟩
    | true => exact .inl rfl
  | timeout => exact h.noted (e := .received .timeout) nofun rfl rfl rfl (.inl rfl)
  | disconnected => exact h.noted (e := .received .disconnected) nofun rfl rfl rfl (.inl rfl)

/-- The invariant is kept. -/
lemma mirrors_rules (world : Surrounding c) (rows : Nat → List UInt8) :
    Updates.Rules clock world.render overflowChecks 320
      (fun s => Updates.Shown rows overflowChecks 320 200 s ∧ Mirrors world s) fun _ => True := by
  have client : Updates.Rules clock world.render overflowChecks 320
    (Updates.Shown rows overflowChecks 320 200)
    fun _ => True := Updates.shown_rules world.render_contract
  constructor
  case weaken => exact fun _ => trivial
  case waits => exact fun wait h => ⟨client.waits wait h.1, h.2.inv, h.2.shows⟩
  case reads =>
    intro s h
    exact ⟨client.reads h.1,
      h.2.noted (e := .clock (clock s.readings)) nofun rfl rfl rfl (.inl rfl)⟩
  case takes => exact fun received h => ⟨client.takes received h.1, h.2.take received⟩
  case draws =>
    intro s s' o h pending due run
    refine ⟨trivial, fun ok => ?_⟩
    obtain ⟨-, shown⟩ := client.draws h.1 pending due run
    refine ⟨shown ok, ?_⟩
    have length : s.frame.length = framebufferSize := h.1.length
    cases range : (world.render s.frame s.seen s.display).1 with
    | none =>
      rw [range] at run
      cases run
      exact h.2.rendered length rfl rfl rfl
    | some rowRange =>
      rw [range] at run
      rcases Updates.sendRows_cases run with ⟨rfl, -⟩ | ⟨message, fails, written,
        ⟨rfl, -⟩ | ⟨-, rfl⟩⟩
      · cases ok
      · cases ok
      · exact h.2.rendered length rfl rfl rfl

/-- A row of the guest's screen. -/
def pictureRow (s : Rendering κ) (row : Nat) : List UInt32 :=
  (List.range width).map fun x => s.picture (row * width + x)

omit [DecidableEq κ] in
/-- A row of a frame that shows the picture is the picture's. -/
lemma rowPixels_picture {row : Nat} (length : frame.length = framebufferSize) (low : row < height)
    {s : Rendering κ} (shows : ∀ p < framebufferSize, frame.getD p 0 = s.picture p) :
    Updates.rowPixels 320 frame row = pictureRow s row := by
  have inside : (row + 1) * width ≤ frame.length := by
    rw [length]
    exact Nat.mul_le_mul_right width low
  rw [Nat.succ_mul] at inside
  apply List.ext_getElem
  · rw [pictureRow, List.length_map, List.length_range, Updates.rowPixels, List.length_take,
      List.length_drop]
    show min width (frame.length - row * width) = width
    omega
  · intro x left right
    rw [pictureRow, List.length_map, List.length_range] at right
    have there : row * width + x < frame.length := by omega
    have pixel := shows _ (length ▸ there)
    simp only [pictureRow, Updates.rowPixels, List.getElem_take, List.getElem_drop,
      List.getElem_map, List.getElem_range]
    rw [← pixel, List.getD_eq_getElem _ 0 there]
    rfl

/-- Whatever the guest and other clients do, between the renders for a client and during them: once
the guest has left its screen alone since the last render got the lock, and the client has applied
what it was sent, it shows the guest's screen, in the format it asked for last. -/
theorem viewer_shows_screen {world : Surrounding c} {s : Rendering κ} (reach : Reach Init Step s)
    (writeFails : List Bool) (received : List Received) (rows : Nat → List UInt8)
    {s' : Updates (Screen κ)} {go : Bool}
    (run : Updates.sendUpdates clock world.render overflowChecks 320 received
      (Updates.start 320 200 ⟨s, 0, 0, false⟩ writeFails) = (.ok go, s'))
    (rendered : Rendered s'.events) (unblocked : s'.display.blocked = false)
    (calm : world.Calm s'.display.started) :
    (Updates.receptions s'.events <+: received ∧
      (go = true → Updates.receptions s'.events = received)) ∧
      (Viewer.view rows s'.events).format = s'.format ∧
      ∀ row < height, s'.format.encodeAll overflowChecks (pictureRow s'.display.state row) [] =
        some ((Viewer.view rows s'.events).rows row) := by
  have first : Updates.Shown rows overflowChecks 320 200 _ :=
    Updates.shown_start clock (⟨s, 0, 0, false⟩ : Screen κ) writeFails
  have mirrors : Mirrors world
      { Updates.read clock (Updates.start 320 200 (⟨s, 0, 0, false⟩ : Screen κ) writeFails) with
        nextRender := clock 0 } := by
    refine ⟨fun _ => inv_forget (reach_inv reach) _, fun _ rendered => ?_⟩
    obtain ⟨earlier, later, split, -⟩ := rendered
    have split : [] ++ [UpdateEvent.clock (clock 0)] = earlier ++ UpdateEvent.rendered ::
      later := split
    rcases Updates.split_last split with ⟨-, -, last⟩ | ⟨later, -, split⟩
    · cases last
    · cases earlier <;> cases split
  obtain ⟨-, last⟩ := (mirrors_rules world rows).turns ⟨first, mirrors⟩ run
  obtain ⟨shown, mirrored⟩ := last go rfl
  obtain ⟨seen, shows⟩ := mirrored.shows unblocked rendered
  obtain ⟨part, whole⟩ := Updates.sendUpdates_receptions run
  refine ⟨⟨part, fun on => whole (congrArg Outcome.ok on)⟩, shown.format, fun row low => ?_⟩
  rw [← rowPixels_picture shown.length low (shows calm)]
  exact shown.held seen row low

/-! ## A run with a partial redraw -/

section

variable {δ : Type} {draw : Render δ} {wide high : UInt16} {first last : Nat}

/-- A render of which the rows are known is sent. -/
lemma respond_sends (clock : Nat → Nat) (contract : Updates.Contract draw wide high) {s : Updates δ}
    (asked : s.pending = true)
    (due : s.nextRender ≤ clock s.readings) (length : s.frame.length = wide.toNat * high.toNat)
    (encodable : s.format.Encodable true) (fine : s.writeFails = [])
    (rows : (draw s.frame s.seen s.display).1 = some (first, last)) :
    ∃ message, Updates.respond clock draw true wide s =
      (.ok (), { Updates.drawn clock draw s with
        events := (Updates.drawn clock draw s).events ++ [.updated message], pending := false }) ∧
      be16 message 6 = first := by
  obtain ⟨order, inside⟩ := contract.range rows
  have fits : first ≤ last ∧ last * wide.toNat ≤ (Updates.drawn clock draw s).frame.length := by
    refine ⟨order, ?_⟩
    rw [show (Updates.drawn clock draw s).frame.length =
      _ from contract.length _ _ _ length, Nat.mul_comm]
    exact Nat.mul_le_mul_left _ inside
  obtain ⟨message, written⟩ :
      ∃ message, Updates.message true wide first last (Updates.drawn clock draw s) = some message :=
    ⟨_, (if_pos fits).trans (PixelFormat.encodeAll_some encodable _ _)⟩
  refine ⟨message, ?_,
    (Updates.reads_of_message (Nat.lt_of_le_of_lt inside high.toNat_lt) written).y⟩
  rw [Updates.respond_draws asked due, rows]
  exact Updates.sendRows_ok fine written

/-- What is sent after a render leaves it the last one. -/
lemma rendered_sent (s : Updates δ) (message : List UInt8) :
    Rendered ((Updates.drawn clock draw s).events ++ [.updated message]) := by
  refine ⟨s.events ++ [UpdateEvent.clock (clock s.readings), .clock (clock (s.readings + 1))],
    [.updated message],
    ?_, fun e he => ?_⟩
  · show (s.events ++ [UpdateEvent.clock (clock s.readings), .clock (clock (s.readings + 1)),
      .rendered]) ++
      [.updated message] = _
    simp only [List.append_assoc, List.cons_append, List.nil_append]
  · cases List.mem_singleton.mp he
    exact id

/-- A display that has something to redraw for `Updates.asked` after the
first update of everything. -/
lemma asked_run (contract : Updates.Contract draw wide high) (display : δ) (r₁ r₂ : _ × _ × _ × δ)
    (whole : draw (List.replicate (wide.toNat * high.toNat) 0) 0 display = r₁)
    (part : draw r₁.2.1 r₁.2.2.1 r₁.2.2.2 = r₂) (rows : r₂.1 = some (first, last)) :
    ∃ s message, Updates.sendUpdates Updates.ticks draw true wide Updates.asked
      (Updates.start wide high display []) = (.ok true, s) ∧ Updates.JustUpdated s.events message ∧
      be16 message 6 = first ∧ Rendered s.events ∧ s.format = .fromBytes PixelFormat.rgb565 ∧
        s.display = r₂.2.2.2 := by
  subst whole part
  have encodable : (PixelFormat.fromBytes PixelFormat.rgb565).Encodable true := by
    refine ⟨fun i => .inr ?_, by decide⟩
    revert i
    decide
  -- the state after each message; only the update of a part has to wait for its time
  let s₀ : Updates δ :=
    { Updates.read Updates.ticks (Updates.start wide high display []) with
      nextRender := Updates.ticks 0 }
  let s₁ := Updates.take (.pixelFormat (.fromBytes PixelFormat.rgb565))
    (Updates.waiting Updates.ticks s₀)
  let s₂ := Updates.take (.update false) (Updates.waiting Updates.ticks s₁)
  obtain ⟨first, everything, -⟩ := respond_sends Updates.ticks contract (s := s₂) rfl
    (show Updates.ticks 0 ≤ Updates.ticks 1 by decide) List.length_replicate encodable rfl
    (contract.all _ _)
  let s₃ : Updates δ := { Updates.drawn Updates.ticks draw s₂ with
    events := (Updates.drawn Updates.ticks draw s₂).events ++ [.updated first], pending := false }
  let s₄ := Updates.take (.update true) (Updates.waiting Updates.ticks s₃)
  let s₅ := Updates.take .timeout (Updates.waiting Updates.ticks (Updates.read Updates.ticks s₄))
  have early : Updates.respond Updates.ticks draw true wide s₄ =
    (.ok (), Updates.read Updates.ticks s₄) :=
    Updates.respond_early rfl
    (show Updates.ticks 3 < Updates.ticks 2 + Updates.updateInterval by decide)
  obtain ⟨message, redrawn, y⟩ := respond_sends Updates.ticks contract (s := s₅) rfl
    (show Updates.ticks 2 + Updates.updateInterval ≤ Updates.ticks 5 by decide)
    (contract.length _ _ _ List.length_replicate) encodable rfl rows
  have format : Updates.turn Updates.ticks draw true wide
    (.pixelFormat (.fromBytes PixelFormat.rgb565)) s₀ =
      (.ok true, s₁) := Updates.turn_run _ _ _ _ _ _
  have answers {r : Received} {s s' : Updates δ}
    (turn : Updates.turn Updates.ticks draw true wide r s =
      ((Updates.respond Updates.ticks draw true wide
        (Updates.take r (Updates.waiting Updates.ticks s))).1.map
        fun _ => true, (Updates.respond Updates.ticks draw true wide
          (Updates.take r (Updates.waiting Updates.ticks s))).2))
      (run : Updates.respond Updates.ticks draw true wide
        (Updates.take r (Updates.waiting Updates.ticks s)) =
        (.ok (), s')) : Updates.turn Updates.ticks draw true wide r s = (.ok true, s') := by
    rw [turn, run]
    rfl
  let s₆ : Updates δ := { Updates.drawn Updates.ticks draw s₅ with
    events := (Updates.drawn Updates.ticks draw s₅).events ++ [.updated message], pending := false }
  refine ⟨s₆, message, ?_, ⟨_, rfl⟩, y, rendered_sent s₅ message, rfl, rfl⟩
  calc
    Updates.sendUpdates Updates.ticks draw true wide Updates.asked
        (Updates.start wide high display [])
    _ = Updates.turns Updates.ticks draw true wide Updates.asked s₀ :=
      Updates.sendUpdates_run _ _ _ _ _ _
    _ = Updates.turns Updates.ticks draw true wide [.update false, .update true, .timeout] s₁ :=
      Updates.turns_cons format
    _ = Updates.turns Updates.ticks draw true wide [.update true, .timeout] s₃ :=
      Updates.turns_cons (answers (Updates.turn_run _ _ _ _ _ s₁) everything)
    _ = Updates.turns Updates.ticks draw true wide [.timeout] (Updates.read Updates.ticks s₄) :=
      Updates.turns_cons (answers (Updates.turn_run _ _ _ _ _ s₃) early)
    _ = Updates.turns Updates.ticks draw true wide [] s₆ :=
      Updates.turns_cons
        (answers (Updates.turn_run _ _ _ _ _ (Updates.read Updates.ticks s₄)) redrawn)
    _ = (.ok true, s₆) := rfl

end

/-- The guest lets a pixel of the last page blink, up to a time. -/
def blink (time : Nat) (s : Rendering Bool) : Rendering Bool :=
  if time ≤ 64002 then s.stores 63998 (if time % 2 = 0 then 5 else 0) else s

/-- The log can be fetched, and at most the last page was written. -/
def Reports (s : Rendering Bool) : Prop :=
  s.vga.framebuffer.isSome = true ∧ s.vga.dirtyLog.map DirtyLog.pages = some framebufferPages ∧
    ∀ page, s.dirty page = true → page.val = 15

/-- It is decided by the two clients. -/
instance (s : Rendering Bool) : Decidable (Reports s) := inferInstanceAs (Decidable (_ ∧ _ ∧ _))

/-- While a client renders, the guest goes on, and the log is fetched where it can be. -/
def blinking : Surrounding true where
  act := blink
  fetched _ s := if Reports s then some [0x8000] else none
  others := by
    intro time s
    unfold blink
    split
    · exact .single ⟨.store 63998 _ (by decide), rfl, Iff.rfl⟩
    · exact .refl
  fetches := by
    intro time s
    by_cases known : Reports s
    · obtain ⟨framebuffer, pages, last⟩ := known
      obtain ⟨log, hlog, pages⟩ := Option.map_eq_some_iff.mp pages
      rw [if_pos ⟨framebuffer, by rw [hlog, Option.map_some, pages], last⟩]
      refine .reported framebuffer hlog (by rw [pages]; rfl) fun page written => ?_
      rw [last page written]
      decide
    · rw [if_neg known]
      exact .failed

/-- The guest only writes the last page. -/
structure Blinks (s s' : Rendering Bool) : Prop where
  vga : s'.vga = s.vga
  lock : s'.lock = s.lock
  dirty : ∀ page, s'.dirty page = true → s.dirty page = true ∨ page.val = 15

/-- The surroundings keep blinking. -/
lemma blinks_act (time : Nat) (s : Rendering Bool) : Blinks s (blinking.act time s) := by
  show Blinks s (blink time s)
  unfold blink
  split
  · refine ⟨rfl, rfl, fun page written => ?_⟩
    rcases Bool.or_eq_true_iff.mp written with before | now
    · exact .inl before
    · exact .inr (of_decide_eq_true now)
  · exact ⟨rfl, rfl, fun page written => .inl written⟩

/-- Two stretches of blinking make one. -/
lemma Blinks.trans {s s' s'' : Rendering Bool} (h : Blinks s s') (h' : Blinks s' s'') :
    Blinks s s'' where
  vga := h'.vga.trans h.vga
  lock := h'.lock.trans h.lock
  dirty := fun page written => (h'.dirty page written).elim (h.dirty page) .inr

/-- They do while pixels are drawn. -/
lemma blinks_drawPixels (n time : Nat) (d : Drawing) (s : Rendering Bool) :
    Blinks s (blinking.drawPixels n time d s) := by
  induction n generalizing time d s with
  | zero => exact ⟨rfl, rfl, fun _ => .inl⟩
  | succ n ih =>
    have drawn : Blinks (blinking.act time s)
        ((blinking.act time s).setClient true
          (((blinking.act time s).client true).draw (blinking.act time s).mem d)) :=
      ⟨rfl, rfl, fun _ => .inl⟩
    exact ((blinks_act time s).trans drawn).trans (ih (time + 1) { d with next := d.next + 1 } _)

/-- The display is ready for a render that has the last page to draw. -/
structure Ready (v : Vga) (d : Screen Bool) : Prop where
  free : d.state.lock = none
  applied : (applyQueuedWrites d.state.vga).2 = v
  framebuffer : v.framebuffer.isSome = true
  log : v.dirtyLog.map DirtyLog.pages = some framebufferPages
  frame : v.frame.toNat + 1 < 2 ^ 64
  dirty : ∀ page, d.state.dirty page = true → page.val = 15

variable {v : Vga} {frame : List UInt32} {seen : UInt64} {d : Screen Bool}

/-- The lock is got and the log is fetched. -/
lemma Ready.framed (h : Ready v d) (frame : List UInt32) (seen : UInt64) :
    blinking.blocks frame seen d = false ∧
      (blinking.framed frame seen d).vga = (v.startFrame (some [0x8000]) seen).2 ∧
      (∀ page, (blinking.framed frame seen d).dirty page = false) ∧
      (blinking.framed frame seen d).client true =
        (⟨fun p => frame.getD p 0, seen, none⟩ : VgaClient).startFrame v (some [0x8000]) := by
  have entered := blinks_act d.time (enter true frame seen d.state)
  have waited :=
    blinks_act (d.time + 1) (lock true (blinking.act d.time (enter true frame seen d.state)))
  have vga : (blinking.locked frame seen d).vga = v := by
    refine waited.vga.trans ?_
    show (applyQueuedWrites (blinking.act d.time (enter true frame seen d.state)).vga).2 = v
    rw [entered.vga]
    exact h.applied
  have reports : Reports (blinking.locked frame seen d) := by
    rw [Reports, vga]
    refine ⟨h.framebuffer, h.log, fun page written => ?_⟩
    rcases waited.dirty page written with before | last
    · exact (entered.dirty page before).elim (h.dirty page) id
    · exact last
  have client : (blinking.locked frame seen d).client true =
    ⟨fun p => frame.getD p 0, seen, none⟩ := by
    unfold locked
    rw [blinking.act_client]
    show (blinking.act d.time _).client true = _
    rw [blinking.act_client]
    exact setClient_self _ _ _
  -- KVM reports the last page, and no other
  have fetched : blinking.fetched (d.time + 1) (blinking.locked frame seen d) = some [0x8000] :=
    if_pos reports
  have framed : blinking.framed frame seen d =
      (blinking.locked frame seen d).framed true (some [0x8000]) fun _ => false := by
    unfold Surrounding.framed Surrounding.frame
    rw [fetched]
    rfl
  rw [framed]
  refine ⟨Bool.or_eq_false_iff.mpr ⟨?_, ?_⟩, ?_, fun _ => rfl, ?_⟩
  · rw [entered.lock]
    exact congrArg Option.isSome h.free
  · rw [vga]
    exact decide_eq_false (Nat.not_le.mpr h.frame)
  · show ((blinking.locked frame seen d).vga.startFrame _
      ((blinking.locked frame seen d).client true).seen).2 = _
    rw [vga, client]
  · rw [framed_self, vga, client]

/-- What a whole render gives where the display is ready. -/
lemma Ready.render (h : Ready v d) (frame : List UInt32) (seen : UInt64) (first last : Nat)
    (rows : (v.startFrame (some [0x8000]) seen).1.map Drawing.rows = some (first, last)) :
    let r := blinking.render frame seen d
    r.1 = some (first, last) ∧ r.2.2.1 = (v.startFrame (some [0x8000]) seen).2.frame ∧
      r.2.2.2.state.vga = (v.startFrame (some [0x8000]) seen).2 ∧ r.2.2.2.state.lock = none ∧
      (∀ page, r.2.2.2.state.dirty page = true → page.val = 15) ∧
      r.2.2.2.time = d.time + 2 + (last * width - first * width) ∧ r.2.2.2.started = d.time + 1 ∧
      r.2.2.2.blocked = d.blocked := by
  obtain ⟨unblocked, vga, dirty, client⟩ := h.framed frame seen
  obtain ⟨drawing, start, same⟩ := Option.map_eq_some_iff.mp rows
  have draws : ((blinking.framed frame seen d).client true).drawing = some drawing :=
    (congrArg VgaClient.drawing client).trans start
  have next : drawing.next = first * width := by rw [startFrame_first start, same]
  have blinks := blinks_drawPixels (drawing.rows.2 * width - drawing.next) (d.time + 2) drawing
    (blinking.framed frame seen d)
  obtain ⟨kept, -, -⟩ :=
    blinking.drawPixels_client (drawing.rows.2 * width - drawing.next) (d.time + 2) drawing
    (blinking.framed frame seen d)
  rw [blinking.render_some draws]
  dsimp only
  refine ⟨congrArg some same, ?_, ?_, ?_, fun page written => ?_, ?_, rfl, ?_⟩
  · rw [drawn, kept, client]
    rfl
  · exact blinks.vga.trans vga
  · exact blinks.lock.trans rfl
  · rcases blinks.dirty page written with before | last
    · cases (dirty page).symm.trans before
    · exact last
  · show d.time + 2 + (drawing.rows.2 * width - drawing.next) = _
    rw [next, same]
  · show (d.blocked || _) = _
    rw [unblocked, Bool.or_false]

/-- The client asks for another format and for everything, and while that is drawn and then
sent the guest goes on; the second update has the rows of the last page only, and the
client shows the guest's screen. -/
theorem viewer_shows_screen_blinking : ∃ s message,
    Updates.sendUpdates Updates.ticks blinking.render true 320 Updates.asked
      (Updates.start 320 200 ⟨lit, 0, 0, false⟩ []) = (.ok true, s) ∧
    Updates.JustUpdated s.events message ∧ be16 message 6 = 192 ∧
    Updates.receptions s.events = Updates.asked ∧
      s.format = .fromBytes PixelFormat.rgb565 ∧
        ∀ row < height, s.format.encodeAll true (pictureRow s.display.state row) [] =
          some ((Viewer.view (fun _ => []) s.events).rows row) := by
  have ready : Ready (applyQueuedWrites lit.vga).2 ⟨lit, 0, 0, false⟩ :=
    ⟨rfl, rfl, by decide +kernel, by decide +kernel, by decide +kernel, by decide +kernel⟩
  obtain ⟨-, seen, vga, free, dirty, time, -, unblocked⟩ := ready.render
    (List.replicate ((320 : UInt16).toNat * (200 : UInt16).toNat) 0) 0 0 200 (by decide +kernel)
  generalize whole :
    blinking.render (List.replicate ((320 : UInt16).toNat * (200 : UInt16).toNat) 0) 0
    ⟨lit, 0, 0, false⟩ = r₁ at *
  have again : Ready
    (applyQueuedWrites ((applyQueuedWrites lit.vga).2.startFrame (some [0x8000]) 0).2).2 r₁.2.2.2 :=
    ⟨free, by rw [vga], by decide +kernel, by decide +kernel, by decide +kernel, dirty⟩
  obtain ⟨rows, -, -, -, -, -, started, unblocked'⟩ := again.render r₁.2.1 r₁.2.2.1 192 200
    (by rw [seen]; decide +kernel)
  generalize part : blinking.render r₁.2.1 r₁.2.2.1 r₁.2.2.2 = r₂ at *
  obtain ⟨s, message, run, just, y, rendered, format, display⟩ :=
    asked_run blinking.render_contract ⟨lit, 0, 0, false⟩ r₁ r₂ whole part rows
  have calm : blinking.Calm s.display.started := by
    rw [display, started, time]
    intro time after s
    have late : ¬ time ≤ 64002 := Nat.not_le.mpr after
    have quiet : blinking.act time s = s := if_neg late
    rw [quiet]
  obtain ⟨⟨-, received⟩, -, shows⟩ :=
    viewer_shows_screen lit_reach [] Updates.asked (fun _ => []) run rendered
    (by rw [display, unblocked', unblocked]) calm
  exact ⟨s, message, run, just, y, received rfl, format, shows⟩

end Surrounding

end Hearth
