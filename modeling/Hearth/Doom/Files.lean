import Hearth.Doom.Ctype

/-!
# Memory files

The files of `guests/doom/libc/stdio.c` that `memfs_add` registers: the bytes of an object and a
position in it. Every byte that is read is checked against the object; one outside ends the call
with `none`. `Cursor` says what such a file is for, and `memory_files_refine` that every
sequence of calls is one of a cursor.
-/

namespace Hearth.Doom

/-- What a stream is. -/
inductive FileKind where
  | console
  | memory
  deriving DecidableEq, Repr

/-- `data` is the object that the pointer of that name points to. -/
structure FILE where
  kind : FileKind
  data : List UInt8
  size : UInt64
  pos : UInt64
  eof : Bool
  error : Bool

/-- What has been registered under a name. The object has as many bytes as its size says. -/
structure MemFile where
  name : List UInt8
  data : List UInt8
  fits : data.length < 2 ^ 64

/-- How many files in memory there may be. -/
def memfsMax : Nat := 16

/-- `memfs_add` -/
def memfsAdd (file : MemFile) (memfs : List MemFile) : Int × List MemFile :=
  if memfs.length = memfsMax then (-1, memfs) else (0, memfs ++ [file])

/-- What follows the last slash. -/
def baseName (path : List UInt8) : List UInt8 := (path.reverse.takeWhile (· ≠ '/'.toUInt8)).reverse

/-- Strings are compared without their terminating NULs, which are less than every other byte. -/
def strcasecmp : List UInt8 → List UInt8 → Int
  | [], [] => 0
  | [], b :: _ => 0 - (tolower b).toNat
  | a :: _, [] => (tolower a).toNat
  | a :: as, b :: bs => if tolower a = tolower b then strcasecmp as bs
    else (tolower a).toNat - (tolower b).toNat

/-- The files after some have been added. -/
def registered (files : List MemFile) : List MemFile :=
  files.foldl (fun memfs file => (memfsAdd file memfs).2) []

/-- `fopen`; `allocated` is whether `calloc` has room for a `FILE`.
Without a file `errno` is set. -/
def fopen (path mode : List UInt8) (allocated : Bool) (memfs : List MemFile) : Option FILE :=
  if 'w'.toUInt8 ∈ mode ∨ 'a'.toUInt8 ∈ mode ∨ '+'.toUInt8 ∈ mode then none
  else do
    let file ← memfs.find? fun file => strcasecmp (baseName path) file.name = 0
    if allocated then
      some {
        kind := .memory
        data := file.data
        size := UInt64.ofNat file.data.length
        pos := 0
        eof := false
        error := false }
    else none

namespace FILE

/-- Some bytes of the object. -/
def bytes (pos len : Nat) (f : FILE) : Option (List UInt8) :=
  if pos + len ≤ f.data.length then some ((f.data.drop pos).take len) else none

/-- The bytes that are copied to `ptr`, and what is returned. -/
def fread (size n : UInt64) (f : FILE) : Option ((List UInt8 × UInt64) × FILE) :=
  if f.kind ≠ .memory ∨ size = 0 then some (([], 0), { f with eof := true })
  else do
    let items := (f.size - f.pos) / size
    let (n, f) := if items < n then (items, { f with eof := true }) else (n, f)
    let bytes ← f.bytes f.pos.toNat (n * size).toNat
    some ((bytes, n), { f with pos := f.pos + n * size })

/-- `SEEK_SET`. -/
def seekSet : Int32 := 0
/-- `SEEK_CUR`. -/
def seekCur : Int32 := 1

/-- A sum that overflows fails, whatever it is: here it wraps. A failure sets `errno`. -/
def fseek (offset : Int64) (whence : Int32) (f : FILE) : Int × FILE :=
  let base : Int64 := if whence = seekSet then 0 else if whence = seekCur then f.pos.toInt64
    else f.size.toInt64
  if f.kind ≠ .memory ∨ base + offset < 0 ∨ f.size.toInt64 < base + offset then (-1, f)
  else (0, { f with pos := (base + offset).toUInt64, eof := false })

/-- `ftell`. -/
def ftell (f : FILE) : Int64 := if f.kind = .memory then f.pos.toInt64 else -1

/-- `EOF`. -/
def EOF : Int := -1

/-- `fgetc`. -/
def fgetc (f : FILE) : Option (Int × FILE) :=
  if f.kind ≠ .memory ∨ f.pos = f.size then some (EOF, { f with eof := true })
  else do
    let c ← (← f.bytes f.pos.toNat 1).head?
    some (c.toNat, { f with pos := f.pos + 1 })

/-- The loop of `fgets`, which has room for `left` more bytes. -/
def fgetsLoop : (left : Nat) → (s : List UInt8) → FILE → Option (List UInt8 × FILE)
  | 0, s, f => some (s, f)
  | left + 1, s, f => do
    let (c, f) ← f.fgetc
    if c = EOF then some (s, f)
    else
      let s := s ++ [UInt8.ofInt c]
      if c = '\n'.toNat then some (s, f) else fgetsLoop left s f

/-- The string that is stored, or a null pointer. -/
def fgets (size : Int32) (f : FILE) : Option (Option (List UInt8) × FILE) := do
  let (s, f) ← fgetsLoop (size - 1).toInt.toNat [] f
  some (if s = [] then none else some (s ++ [0]), f)

end FILE

/-! ## Calls -/

/-- A call for a file. -/
inductive FileCall where
  | fread (size n : UInt64)
  | fgetc
  | fgets (size : Int32)
  | fseek (offset : Int64) (whence : Int32)
  | ftell

/-- What a call stores and returns. -/
inductive FileResult where
  | fread (bytes : List UInt8) (n : UInt64)
  | fgetc (c : Int)
  | fgets (s : Option (List UInt8))
  | fseek (r : Int)
  | ftell (pos : Int64)

/-- What a call does to a stream. -/
def FileCall.run : FileCall → FILE → Option (FileResult × FILE)
  | fread size n, f => do
    let ((bytes, n), f) ← f.fread size n
    some (.fread bytes n, f)
  | fgetc, f => do
    let (c, f) ← f.fgetc
    some (.fgetc c, f)
  | fgets size, f => do
    let (s, f) ← f.fgets size
    some (.fgets s, f)
  | fseek offset whence, f =>
    let (r, f) := f.fseek offset whence
    some (.fseek r, f)
  | ftell, f => some (.ftell f.ftell, f)

/-- The results of a sequence of calls. -/
def FILE.runAll : List FileCall → FILE → Option (List FileResult × FILE)
  | [], f => some ([], f)
  | call :: calls, f => do
    let (r, f) ← call.run f
    let (rs, f) ← runAll calls f
    some (r :: rs, f)

/-! ## Cursors -/

/-- A position in some data. -/
structure Cursor where
  data : List UInt8
  pos : Nat
  inside : pos ≤ data.length

namespace Cursor

/-- What is still to be read. -/
def rest (c : Cursor) : List UInt8 := c.data.drop c.pos

/-- The bytes up to the end of the line, which is among them if it is there. -/
def lineOf : List UInt8 → List UInt8
  | [] => []
  | c :: cs => if c = '\n'.toUInt8 then [c] else c :: lineOf cs

/-- How many whole items there are, up to `n`. -/
def items (size n : Nat) (c : Cursor) : Nat := if size = 0 then 0 else min n (c.rest.length / size)

/-- Where a seek goes to. -/
def target (offset : Int) (whence : Int32) (c : Cursor) : Int :=
  (if whence = FILE.seekSet then 0 else if whence = FILE.seekCur then (c.pos : Int)
    else c.data.length) + offset

/-- The bytes are the next ones, and the position is after them. -/
structure Consumes (read : List UInt8) (c c' : Cursor) : Prop where
  data : c'.data = c.data
  bytes : read = c.rest.take read.length
  pos : c'.pos = c.pos + read.length

/-- What a call may do. -/
inductive Step (c : Cursor) : FileCall → FileResult → Cursor → Prop where
  | fread {size n bytes count c'} : count.toNat = c.items size.toNat n.toNat →
      bytes.length = count.toNat * size.toNat → c.Consumes bytes c' →
      Step c (.fread size n) (.fread bytes count) c'
  | fgetc {byte c'} : c.Consumes [byte] c' → Step c .fgetc (.fgetc byte.toNat) c'
  | eof : c.rest = [] → Step c .fgetc (.fgetc FILE.EOF) c
  | fgets {size line c'} : line = lineOf (c.rest.take (size - 1).toInt.toNat) → line ≠ [] →
      c.Consumes line c' →
      Step c (.fgets size) (.fgets (some (line ++ [0]))) c'
  | noLine {size} : lineOf (c.rest.take (size - 1).toInt.toNat) = [] →
      Step c (.fgets size) (.fgets none) c
  | fseek {offset whence c'} : c'.data = c.data → (c'.pos : Int) = c.target offset.toInt whence →
      Step c (.fseek offset whence) (.fseek 0) c'
  /-- it is not inside the data, or there are more of them than a `long` can count -/
  | refused {offset whence} :
      c.target offset.toInt whence < 0 ∨ c.data.length < c.target offset.toInt whence ∨
      2 ^ 63 ≤ c.data.length → Step c (.fseek offset whence) (.fseek (-1)) c
  | ftell : Step c .ftell (.ftell (UInt64.ofNat c.pos).toInt64) c

/-- What a sequence of calls may do. -/
inductive Run : Cursor → List FileCall → List FileResult → Cursor → Prop where
  | nil {c} : Run c [] [] c
  | cons {c c' c'' call r calls rs} :
      Step c call r c' → Run c' calls rs c'' → Run c (call :: calls) (r :: rs) c''

end Cursor

/-! ## Files are cursors -/

/-- The file is a memory file at the cursor's position. -/
structure FILE.At (f : FILE) (c : Cursor) : Prop where
  kind : f.kind = .memory
  data : f.data = c.data
  size : f.size.toNat = c.data.length
  pos : f.pos.toNat = c.pos

variable {f : FILE} {c : Cursor}

/-- The cursor some bytes further on. -/
def Cursor.advance (c : Cursor) (k : Nat) (h : k ≤ c.rest.length) : Cursor where
  data := c.data
  pos := c.pos + k
  inside := by
    unfold rest at h
    rw [List.length_drop] at h
    have := c.inside
    omega

/-- Going on consumes the bytes passed. -/
lemma Cursor.advance_consumes (k : Nat) (h : k ≤ c.rest.length) :
    c.Consumes (c.rest.take k) (c.advance k h) := by
  have len : (c.rest.take k).length = k := List.length_take_of_le h
  refine ⟨rfl, ?_, ?_⟩
  · rw [len]
  · rw [len]
    rfl

/-- How much is left of the data. -/
lemma Cursor.rest_length (c : Cursor) : c.rest.length = c.data.length - c.pos := List.length_drop ..

/-- What is left after going on. -/
lemma Cursor.rest_advance {k : Nat} (h : k ≤ c.rest.length) :
    (c.advance k h).rest = c.rest.drop k := by
  show c.data.drop (c.pos + k) = (c.data.drop c.pos).drop k
  rw [List.drop_drop]

/-- The bytes at the position are those that the cursor has left. -/
lemma FILE.At.bytes (h : f.At c) {k : Nat} (hk : k ≤ c.rest.length) :
    f.bytes f.pos.toNat k = some (c.rest.take k) := by
  rw [c.rest_length] at hk
  have := c.inside
  unfold FILE.bytes Cursor.rest
  rw [h.data, h.pos, if_pos (by omega)]

/-- The position after some bytes that are there. -/
lemma FILE.At.advance (h : f.At c) {k : Nat} {n : UInt64} (hn : n.toNat = k)
    (hk : k ≤ c.rest.length) (eof : Bool) :
    FILE.At { f with pos := f.pos + n, eof := eof } (c.advance k hk) where
  kind := h.kind
  data := h.data
  size := h.size
  pos := by
    have := c.inside
    have := f.size.toNat_lt
    have := h.size
    rw [c.rest_length] at hk
    show (f.pos + n).toNat = c.pos + k
    rw [UInt64.toNat_add, h.pos, hn, Nat.mod_eq_of_lt (by omega)]

/-- As many bytes are left of the stream. -/
lemma FILE.At.left (h : f.At c) : (f.size - f.pos).toNat = c.rest.length := by
  have le : f.pos ≤ f.size := by
    apply UInt64.le_iff_toNat_le.mpr
    rw [h.pos, h.size]
    exact c.inside
  rw [UInt64.toNat_sub_of_le _ _ le, h.size, h.pos, c.rest_length]

/-- Whole items that are there are read. -/
lemma FILE.At.read_items (h : f.At c) {size n count : UInt64} (size_pos : size ≠ 0)
    (items : count.toNat = c.items size.toNat n.toNat) (eof : Bool) :
    ∃ bytes c', ({ f with eof := eof } : FILE).bytes f.pos.toNat (count * size).toNat = some bytes ∧
      c.Step (.fread size n) (.fread bytes count) c' ∧
      FILE.At { f with pos := f.pos + count * size, eof := eof } c' := by
  have pos : size.toNat ≠ 0 := fun e => size_pos (UInt64.toNat_inj.mp e)
  have le : count.toNat ≤ c.rest.length / size.toNat := by
    rw [items, Cursor.items, if_neg pos]
    exact Nat.min_le_right _ _
  have fits : count.toNat * size.toNat ≤ c.rest.length :=
    (Nat.le_div_iff_mul_le (Nat.pos_of_ne_zero pos)).mp le
  have small : c.rest.length < 2 ^ 64 := h.left ▸ (f.size - f.pos).toNat_lt
  have mul : (count * size).toNat = count.toNat * size.toNat := by
    rw [UInt64.toNat_mul, Nat.mod_eq_of_lt (by omega)]
  refine ⟨c.rest.take (count.toNat * size.toNat), c.advance _ fits, ?_, ?_, h.advance mul fits eof⟩
  · rw [mul]
    exact h.bytes fits
  · exact .fread items (List.length_take_of_le fits) (Cursor.advance_consumes _ fits)

/-- `fread` gives whole items from the cursor on, and goes on behind what it read. -/
lemma FILE.At.fread (h : f.At c) (size n : UInt64) :
    ∃ r f' c', (FileCall.fread size n).run f = some (r, f') ∧ c.Step (.fread size n) r c' ∧
      f'.At c' := by
  by_cases empty : size = 0
  · refine ⟨.fread [] 0, { f with eof := true }, c, ?_, ?_, ⟨h.kind, h.data, h.size, h.pos⟩⟩
    · rw [FileCall.run, FILE.fread, if_pos (.inr empty)]
      rfl
    · have items : (0 : UInt64).toNat = c.items size.toNat n.toNat := by
        rw [empty]
        rfl
      exact .fread items (Nat.zero_mul _).symm ⟨rfl, rfl, rfl⟩
  · have known : ¬ (f.kind ≠ .memory ∨ size = 0) := fun e => e.elim (absurd h.kind) empty
    have pos : size.toNat ≠ 0 := fun e => empty (UInt64.toNat_inj.mp e)
    have whole : ((f.size - f.pos) / size).toNat = c.rest.length / size.toNat := by
      rw [UInt64.toNat_div, h.left]
    by_cases few : (f.size - f.pos) / size < n
    · have items : ((f.size - f.pos) / size).toNat = c.items size.toNat n.toNat := by
        have := UInt64.lt_iff_toNat_lt.mp few
        rw [Cursor.items, if_neg pos, whole, Nat.min_eq_right (by omega)]
      obtain ⟨bytes, c', run, step, after⟩ := h.read_items empty items true
      refine ⟨_, _, c', ?_, step, after⟩
      show (do let ((bytes, n), f) ← FILE.fread size n f; some (FileResult.fread bytes n, f)) = _
      simp only [FILE.fread, if_neg known, if_pos few, run, Option.bind_eq_bind, Option.bind_some]
    · have items : n.toNat = c.items size.toNat n.toNat := by
        have := UInt64.le_iff_toNat_le.mp (UInt64.not_lt.mp few)
        rw [Cursor.items, if_neg pos, Nat.min_eq_left (by omega)]
      obtain ⟨bytes, c', run, step, after⟩ := h.read_items empty items f.eof
      refine ⟨_, _, c', ?_, step, after⟩
      show (do let ((bytes, n), f) ← FILE.fread size n f; some (FileResult.fread bytes n, f)) = _
      simp only [FILE.fread, if_neg known, if_neg few, run, Option.bind_eq_bind, Option.bind_some]

/-- `fgetc` at a cursor. -/
lemma FILE.At.fgetc (h : f.At c) :
    (c.rest = [] ∧ f.fgetc = some (EOF, { f with eof := true }) ∧
      FILE.At { f with eof := true } c) ∨
      ∃ (byte : UInt8) (tail : List UInt8) (f' : FILE) (c' : Cursor), c.rest = byte :: tail ∧
        f.fgetc = some ((byte.toNat : Int), f') ∧ c.Consumes [byte] c' ∧ c'.rest = tail ∧
        f'.At c' := by
  cases rest : c.rest with
  | nil =>
    have done : f.pos = f.size := by
      apply UInt64.toNat_inj.mp
      have := congrArg List.length rest
      rw [c.rest_length, List.length_nil] at this
      have := c.inside
      rw [h.pos, h.size]
      omega
    exact .inl ⟨rfl, if_pos (.inr done), h.kind, h.data, h.size, h.pos⟩
  | cons byte tail =>
    have len : c.rest.length = tail.length + 1 := congrArg List.length rest
    have one : 1 ≤ c.rest.length := by omega
    have more : f.pos ≠ f.size := by
      intro e
      rw [c.rest_length, ← h.pos, ← h.size, e, Nat.sub_self] at one
      exact absurd one (Nat.not_succ_le_zero 0)
    have known : ¬ (f.kind ≠ .memory ∨ f.pos = f.size) := fun e => e.elim (absurd h.kind) more
    have consumes := Cursor.advance_consumes 1 one
    have read := h.bytes one
    rw [rest] at consumes read
    refine .inr ⟨byte, tail, { f with pos := f.pos + 1 }, c.advance 1 one, rfl, ?_,
      consumes, ?_, ?_⟩
    · rw [FILE.fgetc, if_neg known, read]
      rfl
    · rw [Cursor.rest_advance, rest]
      rfl
    · exact h.advance (n := 1) rfl one f.eof

/-- A byte, and what follows it. -/
lemma Cursor.Consumes.cons {byte : UInt8} {line : List UInt8} {c' c'' : Cursor}
    (first : c.Consumes [byte] c')
    (then_ : c'.Consumes line c'') : c.Consumes (byte :: line) c'' := by
  have next : c'.rest = c.rest.drop 1 := by
    show c'.data.drop c'.pos = (c.data.drop c.pos).drop 1
    rw [first.data, first.pos, List.drop_drop]
    rfl
  refine ⟨then_.data.trans first.data, ?_, ?_⟩
  · have one := first.bytes
    have more := then_.bytes
    rw [next] at more
    cases rest : c.rest with
    | nil =>
      rw [rest] at one
      exact absurd one (List.cons_ne_nil _ _)
    | cons b tail =>
      rw [rest] at one more
      obtain rfl : byte = b := List.head_eq_of_cons_eq one
      show byte :: line = byte :: tail.take line.length
      rw [← show line = tail.take line.length from more]
  · rw [then_.pos, first.pos, List.length_singleton, List.length_cons]
    omega

/-- Reading nothing leaves the cursor where it is. -/
lemma Cursor.consumes_nil (c : Cursor) : c.Consumes [] c := ⟨rfl, rfl, rfl⟩

/-- A byte is given as an `int`. -/
lemma byte_ofInt (byte : UInt8) : UInt8.ofInt (byte.toNat : Int) = byte := by
  apply UInt8.toNat_inj.mp
  show (BitVec.ofNat 8 ((byte.toNat : Int) % 2 ^ 8).toNat).toNat = byte.toNat
  have := byte.toNat_lt
  rw [BitVec.toNat_ofNat]
  omega

/-- Which is not `EOF`. -/
lemma byte_ne_EOF (byte : UInt8) : (byte.toNat : Int) ≠ FILE.EOF := by
  show (byte.toNat : Int) ≠ -1
  omega

/-- It is a newline if the byte is. -/
lemma byte_newline {byte : UInt8} : (byte.toNat : Int) = '\n'.toNat ↔ byte = '\n'.toUInt8 := by
  rw [Int.natCast_inj, ← UInt8.toNat_inj]
  rfl

/-- The loop reads a line, or as much of it as there is room for. -/
lemma FILE.At.fgetsLoop (h : f.At c) (left : Nat) (s : List UInt8) :
    ∃ f' c', FILE.fgetsLoop left s f = some (s ++ Cursor.lineOf (c.rest.take left), f') ∧
      c.Consumes (Cursor.lineOf (c.rest.take left)) c' ∧ f'.At c' := by
  induction left generalizing f c s with
  | zero =>
    refine ⟨f, c, ?_, c.consumes_nil, h⟩
    show some (s, f) = some (s ++ [], f)
    rw [List.append_nil]
  | succ left ih =>
    obtain ⟨rest, run, after⟩ | ⟨byte, tail, f', c', rest, run, consumes, rest', after⟩ := h.fgetc
    · refine ⟨{ f with eof := true }, c, ?_, ?_, after⟩
      · rw [FILE.fgetsLoop, run, rest]
        show some (s, _) = some (s ++ [], _)
        rw [List.append_nil]
      · rw [rest]
        exact c.consumes_nil
    · rw [rest, List.take_succ_cons, Cursor.lineOf, FILE.fgetsLoop, run, Option.bind_eq_bind,
        Option.bind_some]
      simp only [if_neg (byte_ne_EOF byte), byte_ofInt, byte_newline]
      split
      · exact ⟨f', c', rfl, consumes, after⟩
      · obtain ⟨f'', c'', run, more, after⟩ := ih after (s ++ [byte])
        rw [rest'] at run more
        refine ⟨f'', c'', ?_, consumes.cons more, after⟩
        rw [run, List.append_assoc]
        rfl

/-- `fgets` gives a line, or what fits of it. -/
lemma FILE.At.fgets (h : f.At c) (size : Int32) :
    ∃ r f' c', (FileCall.fgets size).run f = some (r, f') ∧ c.Step (.fgets size) r c' ∧
      f'.At c' := by
  obtain ⟨f', c', run, consumes, after⟩ := h.fgetsLoop (size - 1).toInt.toNat []
  by_cases empty : Cursor.lineOf (c.rest.take (size - 1).toInt.toNat) = []
  · have same : c' = c := by
      rw [empty] at consumes
      cases c
      cases c'
      cases consumes.data
      cases consumes.pos
      rfl
    subst same
    refine ⟨.fgets none, f', c', ?_, .noLine empty, after⟩
    show (do let (s, f) ← FILE.fgets size f; some (FileResult.fgets s, f)) = _
    simp only [FILE.fgets, run, empty, Option.bind_eq_bind, Option.bind_some,
      List.nil_append, if_true]
  · refine ⟨_, f', c', ?_, .fgets rfl empty consumes, after⟩
    show (do let (s, f) ← FILE.fgets size f; some (FileResult.fgets s, f)) = _
    simp only [FILE.fgets, run, if_neg empty, Option.bind_eq_bind, Option.bind_some,
      List.nil_append]

/-- A size as a `long`. -/
lemma toInt64_toInt (x : UInt64) :
    x.toInt64.toInt = if x.toNat < 2 ^ 63 then (x.toNat : Int) else x.toNat - 2 ^ 64 := by
  show x.toBitVec.toInt = _
  rw [BitVec.toInt_eq_toNat_cond]
  show (if 2 * x.toNat < 2 ^ 64 then _ else _) = _
  split <;> split <;> first | rfl | omega

/-- A sum that is not negative and that a `long` can count wraps to another
one only above all of them. -/
lemma toInt_add_of_nonneg {base : Int64} (offset : Int64) (base_nonneg : 0 ≤ base.toInt) :
    (base + offset).toInt = base.toInt + offset.toInt ∨
      (base + offset).toInt < 0 ∧ 2 ^ 63 ≤ base.toInt + offset.toInt := by
  have := base.toInt_lt
  have := offset.toInt_lt
  have := offset.le_toInt
  rw [Int64.toInt_add]
  by_cases small : base.toInt + offset.toInt < 2 ^ 63
  · exact .inl (Int.bmod_eq_of_le_mul_two (by omega) (by omega))
  · have wraps :
      (base.toInt + offset.toInt).bmod (2 ^ 64) = base.toInt + offset.toInt - 2 ^ 64 := by
      rw [← Int.sub_bmod_right]
      exact Int.bmod_eq_of_le_mul_two (by omega) (by omega)
    rw [wraps]
    omega

/-- Where a seek starts, for an object that a `long` can count. -/
lemma FILE.At.base (h : f.At c) (small : c.data.length < 2 ^ 63) (offset : Int64) (whence : Int32) :
    ∃ base : Int64,
      (if whence = seekSet then 0 else if whence = seekCur then f.pos.toInt64
        else f.size.toInt64) = base ∧
      0 ≤ base.toInt ∧ c.target offset.toInt whence = base.toInt + offset.toInt := by
  have := c.inside
  have size := toInt64_toInt f.size
  have pos := toInt64_toInt f.pos
  rw [h.size, if_pos small] at size
  rw [h.pos, if_pos (by omega)] at pos
  refine ⟨_, rfl, ?_, ?_⟩
  · split
    · exact Int.le_refl 0
    · split <;> omega
  · show (if whence = seekSet then 0 else if whence = seekCur then (c.pos : Int)
      else c.data.length) + _ = _
    split
    · rfl
    · split
      · rw [pos]
      · rw [size]

/-- `fseek` moves the cursor within the data, or fails. -/
lemma FILE.At.fseek (h : f.At c) (offset : Int64) (whence : Int32) :
    ∃ r f' c', (FileCall.fseek offset whence).run f = some (r, f') ∧
      c.Step (.fseek offset whence) r c' ∧ f'.At c' := by
  have size := toInt64_toInt f.size
  rw [h.size] at size
  -- a file of 2 ^ 63 bytes or more has a negative size here, and every seek is refused
  by_cases small : c.data.length < 2 ^ 63
  · rw [if_pos small] at size
    obtain ⟨base, start, nonneg, target⟩ := h.base small offset whence
    have sum := toInt_add_of_nonneg offset nonneg
    -- the code compares signed values: the sum does not overflow, for the base is not negative
    by_cases out : f.kind ≠ .memory ∨ base + offset < 0 ∨ f.size.toInt64 < base + offset
    · refine ⟨.fseek (-1), f, c, ?_, .refused ?_, h⟩
      · show some (FileResult.fseek (FILE.fseek offset whence f).1,
          (FILE.fseek offset whence f).2) = _
        simp only [FILE.fseek, start, if_pos out]
      · obtain kind | below | above := out
        · exact absurd h.kind kind
        · have : (base + offset).toInt < 0 := Int64.lt_iff_toInt_lt.mp below
          omega
        · have := Int64.lt_iff_toInt_lt.mp above
          omega
    · have nonneg : 0 ≤ (base + offset).toInt := by
        have := mt (fun e : (base + offset).toInt < 0 =>
          .inr (.inl (Int64.lt_iff_toInt_lt.mpr e))) out
        omega
      have inside : (base + offset).toInt ≤ c.data.length := by
        have := mt (fun e : f.size.toInt64.toInt < (base + offset).toInt =>
          .inr (.inr (Int64.lt_iff_toInt_lt.mpr e))) out
        omega
      refine ⟨.fseek 0, { f with pos := (base + offset).toUInt64, eof := false },
        ⟨c.data, (base + offset).toInt.toNat, by omega⟩, ?_, .fseek rfl ?_, h.kind,
        h.data, h.size, ?_⟩
      · show some (FileResult.fseek (FILE.fseek offset whence f).1,
          (FILE.fseek offset whence f).2) = _
        simp only [FILE.fseek, start, if_neg out]
      · show (((base + offset).toInt.toNat : Nat) : Int) = _
        omega
      · exact Int64.toNat_toUInt64_of_le (Int64.le_iff_toInt_le.mpr nonneg)
  · rw [if_neg small] at size
    have := f.size.toNat_lt
    have := h.size
    refine ⟨.fseek (-1), f, c, ?_, .refused (.inr (.inr (by omega))), h⟩
    show some (FileResult.fseek (FILE.fseek offset whence f).1, (FILE.fseek offset whence f).2) = _
    have out (base : Int64) :
      f.kind ≠ .memory ∨ base + offset < 0 ∨ f.size.toInt64 < base + offset := by
      by_cases below : base + offset < 0
      · exact .inr (.inl below)
      · have : ¬ (base + offset).toInt < 0 := fun e => below (Int64.lt_iff_toInt_lt.mpr e)
        exact .inr (.inr (Int64.lt_iff_toInt_lt.mpr (by omega)))
    simp only [FILE.fseek, if_pos (out _)]

/-- A failed `fseek` leaves the stream as it was. -/
lemma FILE.fseek_failed {offset : Int64} {whence : Int32} {f' : FILE}
    (failed : (FileCall.fseek offset whence).run f = some (.fseek (-1), f')) : f' = f := by
  have failed : some (FileResult.fseek (FILE.fseek offset whence f).1,
    (FILE.fseek offset whence f).2) = _ := failed
  simp only [FILE.fseek] at failed
  generalize (if whence = seekSet then (0 : Int64) else _) = base at failed
  by_cases out : f.kind ≠ .memory ∨ base + offset < 0 ∨ f.size.toInt64 < base + offset
  · rw [if_pos out] at failed
    cases failed
    rfl
  · rw [if_neg out] at failed
    cases failed

/-- A call for a file at a cursor is one for the cursor. -/
lemma FILE.At.run (h : f.At c) (call : FileCall) :
    ∃ r f' c', call.run f = some (r, f') ∧ c.Step call r c' ∧ f'.At c' := by
  cases call with
  | fread size n => exact h.fread size n
  | fgetc =>
    obtain ⟨rest, run, after⟩ | ⟨byte, tail, f', c', rest, run, consumes, rest', after⟩ := h.fgetc
    · refine ⟨.fgetc EOF, _, c, ?_, .eof rest, after⟩
      rw [FileCall.run, run]
      rfl
    · refine ⟨.fgetc byte.toNat, f', c', ?_, .fgetc consumes, after⟩
      rw [FileCall.run, run]
      rfl
  | fgets size => exact h.fgets size
  | fseek offset whence => exact h.fseek offset whence
  | ftell =>
    have pos : UInt64.ofNat c.pos = f.pos := by rw [← h.pos, UInt64.ofNat_toNat]
    refine ⟨.ftell f.ftell, f, c, rfl, ?_, h⟩
    rw [FILE.ftell, if_pos h.kind, ← pos]
    exact .ftell

/-- No call changes the data. -/
lemma Cursor.Step.data {call : FileCall} {r : FileResult} {c' : Cursor} (step : c.Step call r c') :
    c'.data = c.data := by
  cases step with
  | fread _ _ consumes => exact consumes.data
  | fgetc consumes => exact consumes.data
  | fgets _ _ consumes => exact consumes.data
  | fseek data _ => exact data
  | eof | noLine | refused | ftell => rfl

/-- Calls in order are steps of the cursor, by induction on them. -/
lemma FILE.At.runAll (h : f.At c) (calls : List FileCall) :
    ∃ rs f' c', f.runAll calls = some (rs, f') ∧ Cursor.Run c calls rs c' ∧ c'.data = c.data ∧
      f'.At c' := by
  induction calls generalizing f c with
  | nil => exact ⟨[], f, c, rfl, .nil, rfl, h⟩
  | cons call calls ih =>
    obtain ⟨r, f', c', run, step, after⟩ := h.run call
    obtain ⟨rs, f'', c'', runs, more, data, last⟩ := ih after
    refine ⟨r :: rs, f'', c'', ?_, .cons step more, data.trans step.data, last⟩
    show (do let (r, f) ← call.run f; let (rs, f) ← FILE.runAll calls f; some (r :: rs, f)) = _
    simp only [run, runs, Option.bind_eq_bind, Option.bind_some]

/-- A registered file was added. -/
lemma mem_registered {adds : List MemFile} {file : MemFile} (h : file ∈ registered adds) :
    file ∈ adds := by
  suffices ∀ memfs, file ∈ adds.foldl (fun memfs file => (memfsAdd file memfs).2) memfs →
      file ∈ memfs ∨ file ∈ adds from
    (this [] h).resolve_left List.not_mem_nil
  clear h
  induction adds with
  | nil => exact fun _ h => .inl h
  | cons add adds ih =>
    intro memfs h
    obtain kept | later := ih _ h
    · change file ∈ (if memfs.length = memfsMax then (-1, memfs) else (0, memfs ++ [add]) :
        Int × List MemFile).2 at kept
      split at kept
      · exact .inl kept
      · obtain old | new := List.mem_append.mp kept
        · exact .inl old
        · exact .inr (List.mem_cons.mpr (.inl (List.mem_singleton.mp new)))
    · exact .inr (List.mem_cons_of_mem _ later)

/-- A file that is opened is at the start of one that has been registered. -/
lemma fopen_at {path mode : List UInt8} {allocated : Bool} {memfs : List MemFile}
    (opened : fopen path mode allocated memfs = some f) :
    ∃ file ∈ memfs, f.At ⟨file.data, 0, Nat.zero_le _⟩ := by
  unfold fopen at opened
  split at opened
  · exact absurd opened (Option.some_ne_none _).symm
  · obtain ⟨file, found, opened⟩ := Option.bind_eq_some_iff.mp opened
    split at opened
    · cases opened
      refine ⟨file, List.mem_of_find?_eq_some found, rfl, rfl, ?_, rfl⟩
      exact UInt64.toNat_ofNat_of_lt' file.fits
    · exact absurd opened (Option.some_ne_none _).symm

/-- Every sequence of calls for a file that is opened is one for a cursor over
the data of a registered file. -/
theorem memory_files_refine {path mode : List UInt8} {allocated : Bool} {adds : List MemFile}
    (opened : fopen path mode allocated (registered adds) = some f) (calls : List FileCall) :
    ∃ file ∈ adds, ∃ rs f' c', f.runAll calls = some (rs, f') ∧
      Cursor.Run ⟨file.data, 0, Nat.zero_le _⟩ calls rs c' ∧
      c'.data = file.data ∧ f'.pos.toNat = c'.pos ∧ f'.size.toNat = file.data.length ∧
      ∀ offset whence f'', (FileCall.fseek offset whence).run f' = some (.fseek (-1), f'') →
        f'' = f' := by
  obtain ⟨file, registered, start⟩ := fopen_at opened
  obtain ⟨rs, f', c', runs, run, data, last⟩ := start.runAll calls
  refine ⟨file, mem_registered registered, rs, f', c', runs, run, data, last.pos,
    last.size.trans (congrArg List.length data), ?_⟩
  exact fun _ _ _ failed => FILE.fseek_failed failed

/-- Two bytes of a file of three are read, and a seek past its end is refused. -/
theorem memory_files_refine_three :
    let file : MemFile := ⟨['d'.toUInt8], [1, 2, 3], by decide⟩
    let f : FILE := ⟨.memory, [1, 2, 3], 3, 0, false, false⟩
    fopen ['/'.toUInt8, 'D'.toUInt8] ['r'.toUInt8] true (registered [file]) = some f ∧
      ∃ file' ∈ [file], ∃ rs f' c', f.runAll [.fread 1 2, .fseek 2 FILE.seekCur] = some (rs, f') ∧
        Cursor.Run ⟨file'.data, 0, Nat.zero_le _⟩ [.fread 1 2, .fseek 2 FILE.seekCur] rs c' ∧
        f'.pos.toNat = c'.pos := by
  intro file f
  have opened : fopen ['/'.toUInt8, 'D'.toUInt8] ['r'.toUInt8] true
    (registered [file]) = some f := rfl
  obtain ⟨file', mem, rs, f', c', runs, run, data, pos, size, failed⟩ :=
    memory_files_refine opened [.fread 1 2, .fseek 2 FILE.seekCur]
  exact ⟨opened, file', mem, rs, f', c', runs, run, pos⟩

end Hearth.Doom
