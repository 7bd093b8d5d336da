import Hearth.Console.Output
import Hearth.Keyboard.Line
import Hearth.Vga.Queue

/-!
# String accesses

KVM reports `rep outsb` and `rep insb` as one exit with a count. The law is that such an exit does
what one exit for each byte does. `Vga::handle` goes over all the bytes; `UART::handle` and
`I8042::handle` work on the first.
-/

namespace Hearth
open Lib

/-! ## The law -/

section Law

variable {σ τ : Type} (handle : PortIo → List UInt8 → Eff IoError σ (List UInt8))
  (direction : UInt8) (port : UInt16) (page : List UInt8)

/-- One exit for all the bytes: what it leaves of them. They are
followed by the rest of the page. -/
def oneExit (bytes : List UInt8) : Eff IoError σ (List UInt8) := do
  let data ← handle ⟨direction, 1, port, UInt32.ofNat bytes.length⟩ (bytes ++ page)
  pure (data.take bytes.length)

/-- The exit for a single byte. -/
def singleExit (byte : UInt8) : Eff IoError σ (List UInt8) := do
  let data ← handle ⟨direction, 1, port, 1⟩ (byte :: page)
  pure (data.take 1)

/-- An exit for each byte, in order. -/
def singleExits : List UInt8 → Eff IoError σ (List UInt8)
  | [] => pure []
  | byte :: bytes => do
    let data ← singleExit handle direction port page byte
    let rest ← singleExits bytes
    pure (data ++ rest)

/-- Both ways return the same and leave the same, as far as `view` shows it. -/
def SameExits (view : σ → τ) (bytes : List UInt8) (s : σ) : Prop :=
  (oneExit handle direction port page bytes s).1 =
    (singleExits handle direction port page bytes s).1 ∧
    view (oneExit handle direction port page bytes s).2 =
      view (singleExits handle direction port page bytes s).2

variable {handle direction port page}

/-- For one byte the two are the same exit. -/
lemma sameExits_one (view : σ → τ) (byte : UInt8) (s : σ) :
    SameExits handle direction port page view [byte] s := by
  have e : oneExit handle direction port page [byte] s =
      singleExits handle direction port page [byte] s := by
    show singleExit handle direction port page byte s =
      (singleExit handle direction port page byte >>= fun data => pure (data ++ [])) s
    rw [Eff.bind_pure_eq]
    rcases singleExit handle direction port page byte s with ⟨o, s'⟩
    cases o with
    | ok data => exact congrArg (fun l => (Outcome.ok l, s')) (List.append_nil data).symm
    | err e => rfl
    | panic => rfl
    | fuel => rfl
  exact ⟨congrArg Prod.fst e, congrArg (view ·.2) e⟩

/-- What single exits do to a register that each of them sets from its byte alone. -/
lemma singleExits_last {ρ : Type} {Good : σ → Prop} {reg : σ → ρ} {f : UInt8 → ρ}
    {bytes : List UInt8} (step : ∀ s b, Good s → b ∈ bytes → ∃ data s',
      singleExit handle direction port page b s = (.ok data, s') ∧ Good s' ∧ reg s' = f b)
    {s : σ} (good : Good s) {last : UInt8} (hlast : bytes.getLast? = some last) :
    ∃ data s', singleExits handle direction port page bytes s = (.ok data, s') ∧
      reg s' = f last := by
  induction bytes generalizing s with
  | nil => cases hlast
  | cons b bytes ih =>
    obtain ⟨data, s', e, good', hreg⟩ := step s b good List.mem_cons_self
    cases bytes with
    | nil =>
      cases hlast
      exact ⟨data ++ [], s', Eff.bind_of_ok e, hreg⟩
    | cons b' bytes =>
      have hlast' : (b' :: bytes).getLast? = some last := by rwa [List.getLast?_cons_cons] at hlast
      obtain ⟨rest, s'', e', hreg'⟩ :=
        ih (fun s b hs hb => step s b hs (List.mem_cons_of_mem _ hb)) good' hlast'
      exact ⟨data ++ rest, s'', (Eff.bind_of_ok e).trans (Eff.bind_of_ok e'), hreg'⟩

/-- Where the byte that was there before does not matter, single exits
return the same for all bytes. -/
lemma singleExits_blind
    (blind : ∀ b b', singleExit handle direction port page b =
      singleExit handle direction port page b')
    {bytes bytes' : List UInt8} (hlen : bytes.length = bytes'.length) :
    singleExits handle direction port page bytes =
      singleExits handle direction port page bytes' := by
  induction bytes generalizing bytes' with
  | nil => rw [List.length_eq_zero_iff.mp hlen.symm]
  | cons b bytes ih =>
    cases bytes' with
    | nil => cases hlen
    | cons b' bytes' =>
      rw [singleExits, singleExits, blind b b', ih (Nat.succ.inj hlen)]

/-- A string access of this kind does what single ones do, from every state that is reached and for
all bytes; the rest of the page is not empty. -/
def StringLaw (handle : PortIo → List UInt8 → Eff IoError σ (List UInt8)) (Reachable : σ → Prop)
    (view : σ → τ) (direction : UInt8) (port : UInt16) (count : UInt32) : Prop :=
  ∀ s, Reachable s → ∀ bytes page : List UInt8, bytes.length = count.toNat → page ≠ [] →
    SameExits handle direction port page view bytes s

/-- A string of one access is that access. -/
lemma stringLaw_one {Reachable : σ → Prop} {view : σ → τ} :
    StringLaw handle Reachable view direction port 1 := by
  intro s _ bytes page hlen _
  obtain ⟨byte, rfl⟩ := List.length_eq_one_iff.mp hlen
  exact sameExits_one view byte s

/-! ## Handlers of the first byte -/

/-- A string access does what an exit for its first byte does, and leaves the other bytes. -/
def FirstOnly (handle : PortIo → List UInt8 → Eff IoError σ (List UInt8)) : Prop :=
  ∀ (direction : UInt8) (port : UInt16) (page : List UInt8) (byte : UInt8)
    (bytes : List UInt8) (s : σ),
    bytes.length + 1 < 2 ^ 32 → oneExit handle direction port page (byte :: bytes) s =
      (singleExit handle direction port page byte >>= fun data => pure (data ++ bytes)) s

variable {Reachable : σ → Prop} {view : σ → τ} {count : UInt32} {s : σ}

/-- The law fails where single exits leave the last byte in a register. -/
lemma FirstOnly.not_law_of_last {ρ : Type} (first : FirstOnly handle) (two : 2 ≤ count.toNat)
    (reached : Reachable s) (Good : σ → Prop) (good : Good s) (reg : τ → ρ) (f : UInt8 → ρ)
    (b₀ b₁ : UInt8) (ne : f b₀ ≠ f b₁)
    (step : ∀ s b, Good s → b = b₀ ∨ b = b₁ → ∃ data s',
      singleExit handle direction port [0] b s = (.ok data, s') ∧ Good s' ∧ reg (view s') = f b) :
    ¬ StringLaw handle Reachable view direction port count := by
  intro law
  obtain ⟨n, hn⟩ := Nat.exists_eq_add_of_le two
  have hlt := count.toNat_lt
  have hlen : (b₀ :: (List.replicate n b₀ ++ [b₁])).length = count.toNat := by
    simp only [List.length_cons, List.length_append, List.length_replicate, List.length_nil]
    omega
  obtain ⟨-, same⟩ := law s reached _ [0] hlen (List.cons_ne_nil 0 [])
  obtain ⟨data, s', e, -, hreg⟩ := step s b₀ good (.inl rfl)
  rw [first direction port [0] b₀ _ s (by rw [← hlen, List.length_cons] at hlt; exact hlt),
    Eff.bind_of_ok e] at same
  have step' : ∀ s b, Good s → b ∈ b₀ :: (List.replicate n b₀ ++ [b₁]) → ∃ data s',
      singleExit handle direction port [0] b s = (.ok data, s') ∧ Good s' ∧
        reg (view s') = f b := by
    intro s b hs hb
    apply step s b hs
    rcases List.mem_cons.mp hb with rfl | hb
    · exact .inl rfl
    · rcases List.mem_append.mp hb with hb | hb
      · exact .inl (List.eq_of_mem_replicate hb)
      · exact .inr (List.mem_singleton.mp hb)
  have hlast : (b₀ :: (List.replicate n b₀ ++ [b₁])).getLast? = some b₁ := by
    rw [← List.cons_append, List.getLast?_concat]
  obtain ⟨data', s'', e', hreg'⟩ := singleExits_last step' good hlast
  rw [e'] at same
  exact ne (hreg.symm.trans ((congrArg reg same).trans hreg'))

/-- The law fails where reads return something whatever the bytes were before. -/
lemma FirstOnly.not_law_of_blind (first : FirstOnly handle) (two : 2 ≤ count.toNat)
    (reached : Reachable s) (blind : ∀ b b', singleExit handle direction port [0] b =
      singleExit handle direction port [0] b')
    {data : List UInt8} (ok : (singleExit handle direction port [0] 0 s).1 = .ok data) :
    ¬ StringLaw handle Reachable view direction port count := by
  intro law
  obtain ⟨n, hn⟩ := Nat.exists_eq_add_of_le two
  have hlt := count.toNat_lt
  have left : ∀ b : UInt8, (oneExit handle direction port [0] (0 :: List.replicate (n + 1) b) s).1 =
      .ok (data ++ List.replicate (n + 1) b) := by
    intro b
    rw [first direction port [0] 0 _ s (by rw [List.length_replicate]; omega), Eff.bind_pure_eq, ok]
    rfl
  have same : ∀ b : UInt8, .ok (data ++ List.replicate (n + 1) b) =
      (singleExits handle direction port [0] (0 :: List.replicate (n + 1) b) s).1 := by
    intro b
    rw [← left b]
    refine (law s reached _ [0] ?_ (List.cons_ne_nil 0 [])).1
    rw [List.length_cons, List.length_replicate]
    omega
  have hblind := singleExits_blind blind (show (0 :: List.replicate (n + 1) (0 : UInt8)).length =
    (0 :: List.replicate (n + 1) (1 : UInt8)).length by simp)
  have e := (same 0).trans ((congrArg (fun x => (x s).1) hblind).trans (same 1).symm)
  have e' : List.replicate (n + 1) (0 : UInt8) = List.replicate (n + 1) 1 :=
    List.append_cancel_left (Outcome.ok.inj e)
  cases (List.cons_eq_cons.mp e').1

end Law

/-! ## The serial port -/

namespace Uart

/-- What an exit leaves: the state, and what it put on the console. -/
def shown (self : Uart) : Uart × List UInt8 :=
  ({ self with irqLineFails := [], events := [] }, consoleBytes self.events)

/-- An exit, or a byte that is typed. -/
inductive ExitStep (s s' : Uart) : Prop where
  | handle (io : PortIo) (buffer data : List UInt8) (run : handle io buffer s = (.ok data, s'))
  | sendChar (ch : UInt8) (run : sendChar ch s = (.ok (), s'))

/-- The states that operations lead to, whichever calls of `KVM_IRQ_LINE` fail. -/
abbrev Exited : Uart → Prop := Reach (fun s => ∃ fails, s = new fails) ExitStep

/-- The line of a new console is low. -/
lemma new_level (fails : List Bool) : (new fails).level = false := by
  simp [new, level]

/-- Updating the line brings it to the level. -/
lemma updateIrq_level {s s' : Uart} (run : updateIrq s = (.ok (), s')) :
    s'.irqLevel = s'.level := by
  unfold updateIrq at run
  split at run
  · unfold archUpdateIrq at run
    split at run
    · cases run
    · cases run; rfl
    · cases run; rfl
  · next h =>
    cases run
    exact (not_not.mp h).symm

/-- A line that is there is left alone. -/
lemma updateIrq_idle {s : Uart} (h : s.irqLevel = s.level) : updateIrq s = (.ok (), s) := by
  unfold updateIrq
  rw [if_neg (not_not.mpr h.symm)]

/-- After an exit the line is at its level. -/
lemma Exited.level {s : Uart} (h : Exited s) : s.irqLevel = s.level := by
  cases h with
  | init h =>
    obtain ⟨fails, rfl⟩ := h
    exact (new_level fails).symm
  | step _ st =>
    cases st with
    | handle io buffer data run =>
      obtain ⟨data, s₁, -, run⟩ := Eff.bind_ok_iff.mp run
      obtain ⟨⟨⟩, s₂, hirq, e⟩ := Eff.bind_ok_iff.mp run
      cases e
      exact updateIrq_level hirq
    | sendChar ch run => exact updateIrq_level run

/-- An exit of one byte is an access. -/
lemma singleExit_eq (direction : UInt8) (port : UInt16) (page : List UInt8)
    (byte : UInt8) (s : Uart) :
    singleExit handle direction port page byte s =
      (UartOp.access ⟨direction, port, byte⟩).run s := by
  have hbuf : (byte :: page).take ((1 : UInt8).toNat * (1 : UInt32).toNat) = [byte] := rfl
  have hrun := handle_run ⟨direction, 1, port, 1⟩ ⟨direction, port, byte⟩ rfl rfl hbuf s
  unfold singleExit
  rw [UartOp.run_eq, Eff.bind_pure_eq, hrun, Outcome.map_map]
  rfl

/-- The console takes only the first byte of an exit. -/
lemma firstOnly : FirstOnly handle := by
  intro direction port page byte bytes s hlen
  have hcount : (UInt32.ofNat (byte :: bytes).length).toNat = (byte :: bytes).length :=
    UInt32.toNat_ofNat_of_lt' hlen
  have hbuf : ((byte :: bytes) ++ page).take
      ((1 : UInt8).toNat * (UInt32.ofNat (byte :: bytes).length).toNat) = byte :: bytes := by
    rw [hcount, show (1 : UInt8).toNat = 1 from rfl, Nat.one_mul, List.take_left]
  have hrun := handle_run ⟨direction, 1, port, UInt32.ofNat (byte :: bytes).length⟩
    ⟨direction, port, byte⟩ rfl rfl hbuf s
  unfold oneExit
  rw [Eff.bind_pure_eq, Eff.bind_pure_eq, hrun, singleExit_eq, UartOp.run_eq, Outcome.map_map,
    Outcome.map_map]
  have htake : ∀ (v : UInt8) rest, (v :: bytes ++ rest).take (byte :: bytes).length = v :: bytes :=
    fun v rest => List.take_left' rfl
  simp only [htake]
  rfl

/-- Each write that is looked at leaves its byte somewhere, whatever the line then does. -/
lemma writePort_register {port : UInt16} {write : UInt8 → Uart → Uart}
    (h : writePort port = some write) :
    ∃ reg : Uart × List UInt8 → UInt8,
      (∀ (u : Uart) level bytes, reg ({ u with irqLevel := level }, bytes) = reg (u, bytes)) ∧
        ∀ byte s, reg (write byte s).shown &&& 0x0f = byte &&& 0x0f := by
  unfold writePort at h
  split at h
  · cases h
    refine ⟨fun v => v.2.getLastD 0, fun _ _ _ => rfl, fun byte s => ?_⟩
    show (consoleBytes (transmit byte s).events).getLastD 0 &&& 0x0f = _
    rw [transmit_prints]
    unfold withReturn
    split <;> simp
  · split at h
    · cases h
      refine ⟨fun v => v.1.ier, fun _ _ _ => rfl, fun byte s => ?_⟩
      exact UInt8.and_assoc byte 0x0f 0x0f
    · repeat' split at h
      all_goals cases h
      · exact ⟨fun v => v.1.fcr, fun _ _ _ => rfl, fun _ _ => rfl⟩
      · exact ⟨fun v => v.1.lcr, fun _ _ _ => rfl, fun _ _ => rfl⟩
      · exact ⟨fun v => v.1.mcr, fun _ _ _ => rfl, fun _ _ => rfl⟩
      · exact ⟨fun v => v.1.scr, fun _ _ _ => rfl, fun _ _ => rfl⟩

/-- Updating the line changes nothing else that shows. -/
lemma updateIrq_shown {s : Uart} (hf : s.irqLineFails = []) : ∃ s', updateIrq s = (.ok (), s') ∧
    s'.irqLineFails = [] ∧ ∃ level,
      s'.shown = ({ s.shown.1 with irqLevel := level }, s.shown.2) := by
  refine ⟨_, updateIrq_run hf, hf, s.level, ?_⟩
  have quiet : consoleBytes (if s.level ≠ s.irqLevel then [.irq s.level] else []) = [] := by
    split <;> rfl
  show (_, consoleBytes (s.events ++ _)) = _
  rw [consoleBytes_append, quiet, List.append_nil]
  rfl

/-- Writes that nothing looks at do nothing, however many there are. -/
lemma stringLaw_ignored {direction : UInt8} {port : UInt16} {count : UInt32}
    (out : direction = kvmExitIoOut) (ignored : writePort port = none) :
    StringLaw handle Exited shown direction port count := by
  intro s reached bytes page hlen _
  -- the port is not the device's: neither the registers nor the line change
  have idle : ∀ a : ByteAccess, a.direction = direction → a.port = port →
      s.effect a = (a.byte, s) ∧ updateIrq s = (.ok (), s) := by
    intro a hd hp
    refine ⟨?_, updateIrq_idle reached.level⟩
    have heff : s.effect a = _ := if_pos (hd.trans out)
    rw [heff, hp, ignored]
  have single : ∀ byte, singleExit handle direction port page byte s = (.ok [byte], s) := by
    intro byte
    obtain ⟨heff, hirq⟩ := idle ⟨direction, port, byte⟩ rfl rfl
    rw [singleExit_eq, UartOp.run_eq]
    show ((updateIrq (s.effect _).2).1.map fun _ => [(s.effect _).1],
      (updateIrq (s.effect _).2).2) = _
    rw [heff, hirq]
    rfl
  have singles : singleExits handle direction port page bytes s = (.ok bytes, s) := by
    clear hlen
    induction bytes with
    | nil => rfl
    | cons byte bytes ih =>
      exact (Eff.bind_of_ok (single byte)).trans (Eff.bind_of_ok ih)
  have one : oneExit handle direction port page bytes s = (.ok bytes, s) := by
    cases bytes with
    | nil =>
      have hacc : access ⟨direction, 1, port, 0⟩ [] = pure [] := by
        unfold access
        rw [if_pos out, ignored]
      show ((access ⟨direction, 1, port, 0⟩ [] >>= fun data => updateIrq >>= fun _ =>
        pure (data ++ page.drop 0)) >>= fun data => pure (data.take 0) : UartM _) s = _
      rw [hacc, Eff.bind_pure_eq, Eff.pure_bind_run, Eff.bind_of_ok (updateIrq_idle reached.level)]
      rfl
    | cons byte bytes =>
      have hlt : bytes.length + 1 < 2 ^ 32 := by
        rw [← List.length_cons, hlen]
        exact count.toNat_lt
      rw [firstOnly direction port page byte bytes s hlt, Eff.bind_of_ok (single byte)]
      rfl
  rw [SameExits, one, singles]
  exact ⟨rfl, rfl⟩

/-- An exit without bytes panics where a byte is looked at. -/
lemma oneExit_empty {direction : UInt8} {port : UInt16} {page : List UInt8} (s : Uart)
    (looked : direction = kvmExitIoOut ∧ writePort port ≠ none ∨ direction = kvmExitIoIn) :
    (oneExit handle direction port page [] s).1 = .panic := by
  have hacc : (access ⟨direction, 1, port, 0⟩ [] s).1 = .panic := by
    unfold access
    rcases looked with ⟨out, hw⟩ | inp
    · rw [if_pos out]
      cases hport : writePort port with
      | none => exact absurd hport hw
      | some write => rfl
    · have hno : ¬ direction = kvmExitIoOut := fun out => absurd (inp.symm.trans out) (by decide)
      rw [if_neg hno, if_pos inp]
      rfl
  rcases e : access ⟨direction, 1, port, 0⟩ [] s with ⟨o, s'⟩
  rw [e] at hacc
  cases hacc
  exact congrArg Prod.fst (Eff.bind_of_panic (Eff.bind_of_panic e))

/-- A write leaves the failures that are to come. -/
lemma writePort_fails {port : UInt16} {write : UInt8 → Uart → Uart}
    (h : writePort port = some write)
    (byte : UInt8) (s : Uart) : (write byte s).irqLineFails = s.irqLineFails := by
  unfold writePort at h
  split at h
  · cases h
    unfold transmit
    split
    · rfl
    · rfl
  · repeat' split at h
    all_goals
      cases h
      try rfl

/-- An access leaves the failures that are to come. -/
lemma effect_fails (a : ByteAccess) (s : Uart) : (s.effect a).2.irqLineFails = s.irqLineFails := by
  unfold effect
  split
  · cases hw : writePort a.port with
    | some write => exact writePort_fails hw a.byte s
    | none => rfl
  · unfold readPort readIir
    repeat' split
    all_goals rfl

/-- A single exit that nothing makes fail. -/
lemma singleExit_run {s : Uart} (hf : s.irqLineFails = []) (direction : UInt8) (port : UInt16)
    (page : List UInt8) (byte : UInt8) : ∃ s',
      singleExit handle direction port page byte s =
        (.ok [(s.effect ⟨direction, port, byte⟩).1], s') ∧
      s'.irqLineFails = [] ∧ ∃ level, s'.shown =
        ({ (s.effect ⟨direction, port, byte⟩).2.shown.1 with irqLevel := level },
          (s.effect ⟨direction, port, byte⟩).2.shown.2) := by
  obtain ⟨s', hirq, hf', hshown⟩ :=
    updateIrq_shown ((effect_fails ⟨direction, port, byte⟩ s).trans hf)
  refine ⟨s', ?_, hf', hshown⟩
  rw [singleExit_eq, UartOp.run_eq]
  show ((updateIrq (s.effect _).2).1.map fun _ => [(s.effect _).1],
    (updateIrq (s.effect _).2).2) = _
  rw [hirq]
  rfl

/-- The law on the serial port's ports, exactly. -/
lemma stringLaw_iff {direction : UInt8} {port : UInt16} {count : UInt32}
    (dir : direction = kvmExitIoIn ∨ direction = kvmExitIoOut) :
    StringLaw handle Exited shown direction port count ↔
      count = 1 ∨ direction = kvmExitIoOut ∧ writePort port = none := by
  have start : Exited (new []) := .init ⟨[], rfl⟩
  constructor
  · intro law
    by_contra h
    obtain ⟨h1, hw⟩ := not_or.mp h
    by_cases h0 : count = 0
    · -- the handler looks at a byte that is not there
      have looked : direction = kvmExitIoOut ∧ writePort port ≠ none ∨ direction = kvmExitIoIn :=
        dir.symm.imp_left fun out => ⟨out, fun h => hw ⟨out, h⟩⟩
      obtain ⟨same, -⟩ := law (new []) start [] [0] (by rw [h0]; rfl) (List.cons_ne_nil 0 [])
      cases (oneExit_empty (new []) looked).symm.trans same
    · have two : 2 ≤ count.toNat := by
        have h0' : count.toNat ≠ 0 := fun h => h0 (UInt32.toNat_inj.mp h)
        have h1' : count.toNat ≠ 1 := fun h => h1 (UInt32.toNat_inj.mp h)
        omega
      rcases dir with inp | out
      · have blind : ∀ b b', singleExit handle direction port [0] b =
            singleExit handle direction port [0] b' := by
          intro b b'
          funext s
          have heff : ∀ b, s.effect ⟨direction, port, b⟩ = s.readPort port := fun b =>
            (if_neg fun out => absurd (inp.symm.trans out) (by decide)).trans (if_pos inp)
          rw [singleExit_eq, singleExit_eq, UartOp.run_eq, UartOp.run_eq, UartOp.effect,
            UartOp.effect, heff, heff]
        obtain ⟨s', e, -⟩ := singleExit_run (s := new []) rfl direction port [0] 0
        exact firstOnly.not_law_of_blind two start blind (congrArg Prod.fst e) law
      · cases hport : writePort port with
        | none => exact hw ⟨out, hport⟩
        | some write =>
          obtain ⟨reg, hirq, hreg⟩ := writePort_register hport
          refine firstOnly.not_law_of_last two start (fun s => s.irqLineFails = []) rfl
            (fun v => reg v &&& 0x0f) (fun b => b &&& 0x0f) 0 1 (by decide) (fun s b hf _ => ?_) law
          obtain ⟨s', e, hf', level, hs'⟩ := singleExit_run hf direction port [0] b
          refine ⟨_, s', e, hf', ?_⟩
          have heff : s.effect ⟨direction, port, b⟩ = (b, write b s) := by
            unfold effect
            rw [if_pos out]
            simp only [hport]
          show reg s'.shown &&& 0x0f = _
          rw [hs', hirq, heff]
          exact hreg b s
  · rintro (rfl | ⟨out, hw⟩)
    · exact stringLaw_one
    · exact stringLaw_ignored out hw

end Uart

/-! ## The keyboard controller -/

namespace I8042

/-- What an exit leaves. -/
def shown (self : I8042) : I8042 := { self with irqLineFails := [], events := [] }

/-- The states that operations lead to, whichever calls of `KVM_IRQ_LINE` fail. -/
abbrev Exited : I8042 → Prop := Reach (fun s => ∃ fails, s = new fails) Step

/-- Updating the line brings it to the level. -/
lemma updateIrq_level {s s' : I8042} (run : updateIrq s = (.ok (), s')) :
    s'.irqLevel = s'.level := by
  unfold updateIrq at run
  split at run
  · unfold archUpdateIrq at run
    split at run
    · cases run
    · cases run; rfl
    · cases run; rfl
  · next h =>
    cases run
    exact (not_not.mp h).symm

/-- A line that is there is left alone. -/
lemma updateIrq_idle {s : I8042} (h : s.irqLevel = s.level) : updateIrq s = (.ok (), s) := by
  unfold updateIrq
  rw [if_neg (not_not.mpr h.symm)]

/-- After a key the line is at its level. -/
lemma keyEvent_level {down : Bool} {keysym : UInt32} {s s' : I8042} (h : s.irqLevel = s.level)
    (run : keyEvent down keysym s = (.ok (), s')) : s'.irqLevel = s'.level := by
  unfold keyEvent at run
  rw [Eff.gets_bind_run] at run
  split at run
  · cases run
    exact h
  · cases hk : keysymToSet1 keysym with
    | none =>
      rw [hk] at run
      cases run
      exact h
    | some key =>
      obtain ⟨extended, code⟩ := key
      rw [hk] at run
      cases extended with
      | false => exact updateIrq_level run
      | true => exact updateIrq_level run

/-- After an exit the line is at its level. -/
lemma Exited.level {s : I8042} (h : Exited s) : s.irqLevel = s.level := by
  apply Reach.invariant (I := fun s => s.irqLevel = s.level) _ _ h
  · rintro s ⟨fails, rfl⟩
    rfl
  · rintro s s' hs ⟨op, run⟩
    cases op with
    | access io buffer =>
      obtain ⟨data, s₁, run, e⟩ := Eff.bind_ok_iff.mp run
      cases e
      obtain ⟨data, s₂, -, run⟩ := Eff.bind_ok_iff.mp run
      obtain ⟨⟨⟩, s₃, hirq, e⟩ := Eff.bind_ok_iff.mp run
      cases e
      exact updateIrq_level hirq
    | key down keysym => exact keyEvent_level hs run

/-- The access leaves as many bytes as there were. -/
lemma access_length {io : PortIo} {data data' : List UInt8} {s s' : I8042}
    (run : access io data s = (.ok data', s')) : data'.length = data.length := by
  have hset : ∀ {byte : UInt8} {s₁ : I8042}, setFirst data byte s₁ = (.ok data', s') →
      data'.length = data.length := by
    intro byte s₁ h
    cases data with
    | nil => cases h
    | cons b rest => cases h; rfl
  unfold access at run
  split at run
  · split at run
    · obtain ⟨byte, s₁, -, h⟩ := Eff.bind_ok_iff.mp run
      exact hset h
    · split at run
      · exact hset run
      · cases run
        exact List.length_map _
  · split at run
    · split at run
      · obtain ⟨-, s₁, -, run⟩ := Eff.bind_ok_iff.mp run
        obtain ⟨param, s₂, -, run⟩ := Eff.bind_ok_iff.mp run
        obtain ⟨-, s₃, -, run⟩ := Eff.bind_ok_iff.mp run
        obtain ⟨byte, s₄, -, run⟩ := Eff.bind_ok_iff.mp run
        cases param with
        | none => cases run; rfl
        | some cmd => cases run; rfl
      · split at run
        · cases data with
          | nil => cases run
          | cons b rest => cases run; rfl
        · cases run; rfl
    · cases run; rfl

/-- The controller takes only the first byte of an exit. -/
lemma firstOnly : FirstOnly handle := by
  intro direction port page byte bytes s hlen
  unfold oneExit singleExit handle
  rw [Eff.bind_assoc, Eff.bind_assoc, Eff.bind_assoc]
  apply Eff.bind_congr
  intro data s' run
  obtain ⟨b, rfl⟩ := List.length_eq_one_iff.mp (access_length run)
  rw [Eff.bind_assoc, Eff.bind_assoc]
  apply Eff.bind_congr
  intro _ s'' _
  show (Outcome.ok ((b :: (bytes ++ page)).take (bytes.length + 1)), s'') =
    (Outcome.ok (b :: bytes), s'')
  rw [List.take_succ_cons, List.take_left]

/-- An exit from what its access does. -/
lemma handle_of_access {io : PortIo} {buffer bytes data : List UInt8} {s s₁ : I8042}
    (hbuf : buffer.take io.size.toNat = bytes) (run : access io bytes s = (.ok data, s₁)) :
    handle io buffer s =
      ((updateIrq s₁).1.map fun _ => data ++ buffer.drop io.size.toNat, (updateIrq s₁).2) := by
  unfold handle
  rw [hbuf, Eff.bind_of_ok run]
  exact Eff.bind_pure_eq _ _ _

/-- A single exit that nothing makes fail. -/
lemma singleExit_run {direction : UInt8} {port : UInt16} (page : List UInt8) {b b' : UInt8}
    {s s₁ : I8042} (run : access ⟨direction, 1, port, 1⟩ [b] s = (.ok [b'], s₁))
    (hf : s₁.irqLineFails = []) : ∃ events, singleExit handle direction port page b s =
      (.ok [b'], { s₁ with irqLevel := s₁.level, events := events }) := by
  obtain ⟨log, -, hirq⟩ := updateIrq_run hf
  have hbuf : (b :: page).take (1 : UInt8).toNat = [b] := rfl
  refine ⟨s₁.events ++ log, ?_⟩
  unfold singleExit
  rw [Eff.bind_pure_eq, handle_of_access hbuf run, hirq]
  rfl

/-- A count of zero: the handler still works on a byte. Only reading the
status then changes nothing. -/
lemma status_none (s : I8042) (h : s.irqLevel = s.level) {page : List UInt8} (hp : page ≠ []) :
    SameExits handle kvmExitIoIn i8042Command page shown [] s := by
  obtain ⟨x, xs, rfl⟩ := List.exists_cons_of_ne_nil hp
  have run : access ⟨kvmExitIoIn, 1, i8042Command, UInt32.ofNat ([] : List UInt8).length⟩ [x] s =
      (.ok [s.status], s) := rfl
  have hbuf : ([] ++ x :: xs).take (1 : UInt8).toNat = [x] := rfl
  have e : oneExit handle kvmExitIoIn i8042Command (x :: xs) [] s = (.ok [], s) := by
    unfold oneExit
    rw [Eff.bind_pure_eq, handle_of_access hbuf run, updateIrq_idle h]
    rfl
  rw [SameExits, e]
  exact ⟨rfl, rfl⟩

/-- What commands of the controller leave when each waits for a parameter. -/
lemma command_param {s : I8042} (hf : s.irqLineFails = []) {page : List UInt8} {b : UInt8}
    (hb : b = cmdWriteConfig ∨ b = cmdWriteKbdOutput) : ∃ data s',
      singleExit handle kvmExitIoOut i8042Command page b s = (.ok data, s') ∧
        s'.irqLineFails = [] ∧ s'.shown.controllerParam = some b := by
  have run : access ⟨kvmExitIoOut, 1, i8042Command, 1⟩ [b] s =
      (.ok [b], { s with statusCmd := true, controllerParam := some b }) := by
    rcases hb with rfl | rfl
    · rfl
    · rfl
  obtain ⟨events, e⟩ := singleExit_run page run hf
  exact ⟨[b], _, e, hf, rfl⟩

/-- A byte that is queued touches neither the parameters nor the scanning. -/
lemma push_fields (byte : UInt8) (s : I8042) : (s.push byte).irqLineFails = s.irqLineFails ∧
    (s.push byte).controllerParam = s.controllerParam ∧
      (s.push byte).keyboardParam = s.keyboardParam ∧ (s.push byte).scanning = s.scanning := by
  unfold push
  dsimp only
  split
  · unfold loadNext
    split
    · exact ⟨rfl, rfl, rfl, rfl⟩
    · exact ⟨rfl, rfl, rfl, rfl⟩
  · exact ⟨rfl, rfl, rfl, rfl⟩

/-- What commands of the keyboard leave when they turn it on or off. -/
lemma keyboard_scanning {s : I8042} (hf : s.irqLineFails = []) (hc : s.controllerParam = none)
    (hk : s.keyboardParam = none) {page : List UInt8} {b : UInt8}
    (hb : b = Hearth.kbdEnable ∨ b = Hearth.kbdDisable) : ∃ data s',
      singleExit handle kvmExitIoOut i8042Data page b s = (.ok data, s') ∧
        (s'.irqLineFails = [] ∧ s'.controllerParam = none ∧ s'.keyboardParam = none) ∧
          s'.shown.scanning = (b == Hearth.kbdEnable) := by
  obtain ⟨s₁, run⟩ :
    ∃ s₁, access ⟨kvmExitIoOut, 1, i8042Data, 1⟩ [b] s = (.ok [b], push kbdAck s₁) ∧
      s₁.irqLineFails = [] ∧ s₁.controllerParam = none ∧ s₁.keyboardParam = none ∧
        s₁.scanning = (b == Hearth.kbdEnable) := by
    rcases s with ⟨config, output, queue, param, kparam, statusCmd, scanning, irqLevel,
      fails, events⟩
    cases hf
    cases hc
    cases hk
    rcases hb with rfl | rfl
    · exact ⟨_, rfl, rfl, rfl, rfl, rfl⟩
    · exact ⟨_, rfl, rfl, rfl, rfl, rfl⟩
  obtain ⟨run, hf₁, hc₁, hk₁, hs₁⟩ := run
  obtain ⟨hf₂, hc₂, hk₂, hs₂⟩ := push_fields kbdAck s₁
  obtain ⟨events, e⟩ := singleExit_run page run (hf₂.trans hf₁)
  exact ⟨[b], _, e, ⟨hf₂.trans hf₁, hc₂.trans hc₁, hk₂.trans hk₁⟩, hs₂.trans hs₁⟩

/-- A read does not look at what is in the page. -/
lemma read_blind {port : UInt16} (hp : port = i8042Data ∨ port = i8042Command) (b b' : UInt8) :
    singleExit handle kvmExitIoIn port [0] b = singleExit handle kvmExitIoIn port [0] b' := by
  rcases hp with rfl | rfl
  · rfl
  · rfl

/-- The law on the controller's ports, exactly. -/
lemma stringLaw_iff {direction : UInt8} {port : UInt16} {count : UInt32}
    (dir : direction = kvmExitIoIn ∨ direction = kvmExitIoOut)
    (hp : port = i8042Data ∨ port = i8042Command) :
    StringLaw handle Exited shown direction port count ↔
      count = 1 ∨ direction = kvmExitIoIn ∧ port = i8042Command ∧ count = 0 := by
  have start : Exited (new []) := .init ⟨[], rfl⟩
  constructor
  · intro law
    by_contra h
    obtain ⟨h1, hstatus⟩ := not_or.mp h
    by_cases h0 : count = 0
    · -- the handler takes a byte that is not of the access
      have none : ∀ s, Exited s → ∀ page : List UInt8, page ≠ [] →
          (oneExit handle direction port page [] s).2.shown = s.shown := by
        intro s reached page hpage
        exact (law s reached [] page (by rw [h0]; rfl) hpage).2
      rcases dir with rfl | rfl
      · rcases hp with rfl | rfl
        · have pressed : Exited pressed := .step start ⟨.key true 0x61, rfl⟩
          exact absurd (congrArg output (none _ pressed [0] (List.cons_ne_nil 0 []))) (by decide)
        · exact hstatus ⟨rfl, rfl, h0⟩
      · rcases hp with rfl | rfl
        · exact absurd
            (congrArg scanning (none _ start [Hearth.kbdDisable] (List.cons_ne_nil _ [])))
            (by decide)
        · exact absurd
            (congrArg I8042.statusCmd (none _ start [0] (List.cons_ne_nil 0 []))) (by decide)
    · have two : 2 ≤ count.toNat := by
        have h0' : count.toNat ≠ 0 := fun h => h0 (UInt32.toNat_inj.mp h)
        have h1' : count.toNat ≠ 1 := fun h => h1 (UInt32.toNat_inj.mp h)
        omega
      rcases dir with rfl | rfl
      · obtain ⟨data, ok⟩ :
          ∃ data, (singleExit handle kvmExitIoIn port [0] 0 (new [])).1 = .ok data := by
          rcases hp with rfl | rfl
          · exact ⟨[0], rfl⟩
          · exact ⟨[0x14], rfl⟩
        exact firstOnly.not_law_of_blind two start (read_blind hp) ok law
      · rcases hp with rfl | rfl
        · exact firstOnly.not_law_of_last two start
            (fun s => s.irqLineFails = [] ∧ s.controllerParam = none ∧ s.keyboardParam = none)
            ⟨rfl, rfl, rfl⟩ I8042.scanning (· == Hearth.kbdEnable) Hearth.kbdEnable
            Hearth.kbdDisable
            (by decide) (fun s b hs hb => keyboard_scanning hs.1 hs.2.1 hs.2.2 hb) law
        · exact firstOnly.not_law_of_last two start (fun s => s.irqLineFails = []) rfl
            I8042.controllerParam some cmdWriteConfig cmdWriteKbdOutput (by decide)
            (fun s b hf hb => command_param hf hb) law
  · rintro (rfl | ⟨rfl, rfl, rfl⟩)
    · exact stringLaw_one
    · intro s reached bytes page hlen hpage
      rw [List.length_eq_zero_iff.mp hlen]
      exact status_none s reached.level hpage

end I8042

/-! ## The display -/

namespace Vga

/-- What happens to the device: an exit, a write that KVM queues, and what
a frontend's frame changes. -/
inductive ExitStep (v : Vga) : Vga → Prop where
  | handle (io : PortIo) (buffer : List UInt8) {data : List UInt8} {v' : Vga}
      (run : handle io buffer v = (.ok data, v')) : ExitStep v v'
  | queue {ring : CoalescedRing} (entry : CoalescedMmio) (queued : v.dacWrites = some ring)
      (room : ring.Room) : ExitStep v { v with dacWrites := some (ring.push entry) }
  | frame {v' : Vga} (run : applyQueuedWrites v = (.ok (), v')) (frame : UInt64)
      (pageWritten : Fin framebufferPages → UInt64) :
      ExitStep v { v' with frame := frame, pageWritten := pageWritten, repaint := false }

/-- The states of the device. KVM's ring starts empty. -/
abbrev Exited : Vga → Prop :=
  Reach (fun v => ∃ elapsed framebuffer dirtyLog ring, v = new elapsed framebuffer dirtyLog ring ∧
    ∀ r, ring = some r → r.first = 0 ∧ r.last = 0) ExitStep

/-- After an exit the queue's indices are in range. -/
lemma Exited.valid {v : Vga} (h : Exited v) : v.QueueValid := by
  apply Reach.invariant (I := QueueValid) _ _ h
  · rintro v ⟨elapsed, framebuffer, dirtyLog, ring, rfl, hring⟩ r hr
    obtain ⟨h0, h1⟩ := hring r hr
    exact ⟨by rw [h0]; decide, by rw [h1]; decide⟩
  · intro v v' hv st
    cases st with
    | handle io buffer run =>
      obtain ⟨-, -, rfl⟩ := handle_ok hv run
      exact hv.drained.window (accessBytes_window _ _ _ _ _ _)
    | queue entry queued room =>
      intro r hr
      cases hr
      exact (hv _ queued).push entry
    | frame run =>
      rw [applyQueuedWrites_run hv] at run
      cases run
      exact hv.drained

/-- The first of single exits drains the queue. -/
lemma singleExit_run (direction : UInt8) (port : UInt16) (page : List UInt8)
    (byte : UInt8) {v : Vga} (valid : v.QueueValid) : singleExit handle direction port page byte v =
      (.ok [(v.drained.accessByte direction (port + UInt16.ofNat 0) byte).1],
        (v.drained.accessByte direction (port + UInt16.ofNat 0) byte).2) := by
  have one : (⟨direction, 1, port, 1⟩ : PortIo).size ≠ 0 := show (1 : UInt8) ≠ 0 by decide
  exact Eff.bind_of_ok (handle_run valid one (byte :: page))

/-- Single exits make the accesses of one, one after the other. -/
lemma singleExits_run (direction : UInt8) (port : UInt16) (page bytes : List UInt8) {v : Vga}
    (valid : v.QueueValid) (empty : v.QueueEmpty) :
    singleExits handle direction port page bytes v =
      (.ok (accessBytes direction port 1 0 bytes v).1,
        (accessBytes direction port 1 0 bytes v).2) := by
  induction bytes generalizing v with
  | nil => rfl
  | cons byte bytes ih =>
    have single := singleExit_run direction port page byte valid
    rw [drained_of_empty empty] at single
    have same := accessByte_window direction (port + UInt16.ofNat 0) byte v
    exact (Eff.bind_of_ok single).trans
      (Eff.bind_of_ok (ih (valid.window same) (empty.window same)))

/-- The law holds on all of the adapter's ports. What is compared is the
device with nothing queued. -/
lemma stringLaw (direction : UInt8) (port : UInt16) (count : UInt32) :
    StringLaw handle Exited drained direction port count := by
  intro v reached bytes page hlen _
  have valid := reached.valid
  have hcount : (UInt32.ofNat bytes.length).toNat = bytes.length :=
    UInt32.toNat_ofNat_of_lt' (by rw [hlen]; exact count.toNat_lt)
  have one : oneExit handle direction port page bytes v =
      (.ok (accessBytes direction port 1 0 bytes v.drained).1,
        (accessBytes direction port 1 0 bytes v.drained).2) := by
    have hsize : (⟨direction, 1, port, UInt32.ofNat bytes.length⟩ : PortIo).size ≠ 0 :=
      show (1 : UInt8) ≠ 0 by decide
    have hbuf : (bytes ++ page).take ((1 : UInt8).toNat * (UInt32.ofNat bytes.length).toNat) =
      bytes := by
      rw [hcount, show (1 : UInt8).toNat = 1 from rfl, Nat.one_mul, List.take_left]
    have hrun := handle_run valid hsize (bytes ++ page)
    dsimp only at hrun
    rw [hbuf] at hrun
    refine (Eff.bind_of_ok hrun).trans ?_
    rw [List.take_left' (accessBytes_length _ _ _ _ _ _)]
    rfl
  cases bytes with
  | nil =>
    -- a count of zero only drains the queue
    rw [SameExits, one]
    exact ⟨rfl, drained_of_empty v.drained_empty⟩
  | cons byte bytes =>
    have same := accessByte_window direction (port + UInt16.ofNat 0) byte v.drained
    have rest := singleExits_run direction port page bytes
      (valid.drained.window same) (v.drained_empty.window same)
    have singles : singleExits handle direction port page (byte :: bytes) v =
        (.ok (accessBytes direction port 1 0 (byte :: bytes) v.drained).1,
          (accessBytes direction port 1 0 (byte :: bytes) v.drained).2) :=
      (Eff.bind_of_ok (singleExit_run direction port page byte valid)).trans (Eff.bind_of_ok rest)
    rw [SameExits, one, singles]
    exact ⟨rfl, rfl⟩

end Vga

/-! ## All port devices -/

/-- The devices with ports. -/
inductive PortDevice where
  | uart
  | i8042
  | vga
  deriving DecidableEq, Repr

/-- `arch_handle_io`: the device that a port belongs to. -/
def portDevice (port : UInt16) : Option PortDevice :=
  if 0x3f8 ≤ port ∧ port ≤ 0x3ff then some .uart
  else if port = i8042Data ∨ port = i8042Command then some .i8042
  else if 0x3c0 ≤ port ∧ port ≤ 0x3df then some .vga
  else none

namespace PortDevice

/-- String accesses of this kind do what single ones do. -/
def StringLaw : PortDevice → UInt8 → UInt16 → UInt32 → Prop
  | .uart => Hearth.StringLaw Uart.handle Uart.Exited Uart.shown
  | .i8042 => Hearth.StringLaw I8042.handle I8042.Exited I8042.shown
  | .vga => Hearth.StringLaw Vga.handle Vga.Exited Vga.drained

/-- The kinds of accesses that are handled byte by byte, or for which it makes no difference. -/
def Splits (device : PortDevice) (direction : UInt8) (port : UInt16) (count : UInt32) : Prop :=
  device = .vga ∨ count = 1 ∨
    device = .uart ∧ direction = kvmExitIoOut ∧ (port = 0x3fd ∨ port = 0x3fe) ∨
    device = .i8042 ∧ direction = kvmExitIoIn ∧ port = i8042Command ∧ count = 0

end PortDevice

/-- The ports whose writes the serial port ignores. -/
lemma Uart.ignored_iff {port : UInt16} (hp : portDevice port = some .uart) :
    writePort port = none ↔ port = 0x3fd ∨ port = 0x3fe := by
  have range : 0x3f8 ≤ port ∧ port ≤ 0x3ff := by
    unfold portDevice at hp
    grind
  constructor
  · intro h
    unfold writePort at h
    grind
  · rintro (rfl | rfl)
    · rfl
    · rfl

/-- For which device, direction, port and count a string access does what single ones do. -/
theorem string_access_iff {device : PortDevice} {direction : UInt8} {port : UInt16} (count : UInt32)
    (dir : direction = kvmExitIoIn ∨ direction = kvmExitIoOut)
    (claimed : portDevice port = some device) :
    device.StringLaw direction port count ↔ device.Splits direction port count := by
  cases device with
  | uart =>
    refine (Uart.stringLaw_iff dir).trans ?_
    rw [Uart.ignored_iff claimed]
    simp [PortDevice.Splits]
  | i8042 =>
    have hp : port = i8042Data ∨ port = i8042Command := by
      unfold portDevice at claimed
      grind
    refine (I8042.stringLaw_iff dir hp).trans ?_
    simp [PortDevice.Splits]
  | vga => exact iff_of_true (Vga.stringLaw direction port count) (.inl rfl)

/-- A string of three bytes for the screen. -/
theorem vga_string_splits : PortDevice.vga.StringLaw kvmExitIoOut VgaPort.dacData 3 :=
  (string_access_iff 3 (.inr rfl) (by decide)).mpr (.inl rfl)

/-- Of two bytes for the serial console the first is printed. -/
theorem uart_string_dropped :
    ¬ ∀ (device : PortDevice) (direction : UInt8) (port : UInt16) (count : UInt32),
    direction = kvmExitIoIn ∨ direction = kvmExitIoOut → portDevice port = some device →
      device.StringLaw direction port count := by
  intro law
  obtain ⟨-, same⟩ :=
    law .uart kvmExitIoOut 0x3f8 2 (.inr rfl) (by decide) (Uart.new []) (.init ⟨[], rfl⟩)
    [0x68, 0x69] [0] rfl (List.cons_ne_nil 0 [])
  exact absurd (congrArg Prod.snd same) (by decide)

end Hearth
