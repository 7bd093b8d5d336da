import Hearth.Lib.Cells
import Hearth.Lib.Words

/-!
# The command line

`build_argv` of `guests/doom/kvm.c` and `strncpy` of `libc/string.c`: the command line is copied
into a buffer and split in place, the blanks after a word become NULs and `argv` gets where the
words start. An access outside of an array gives `none`. The last entry that there is room for is
not ended, if blanks follow it.
-/

namespace Hearth.Doom.CommandLine

open Lib (put words Ends)

variable {m : Nat}

/-! ## strncpy -/

/-- The second loop of `strncpy`: as many NULs as are left. -/
def strncpyPad (dst : Vector UInt8 m) (i : Nat) : Nat → Option (Vector UInt8 m)
  | 0 => some dst
  | left + 1 => do
    let dst ← put dst i 0
    strncpyPad dst (i + 1) left

/-- The first loop of `strncpy`, at `dst[i]` and with the memory from `src[i]` on. -/
def strncpyFrom (dst : Vector UInt8 m) (i : Nat) : List UInt8 → Nat → Option (Vector UInt8 m)
  | _, 0 => some dst
  | [], _ + 1 => none
  | c :: src, left + 1 =>
    if c = 0 then strncpyPad dst i (left + 1)
    else do
      let dst ← put dst i c
      strncpyFrom dst (i + 1) src left

/-- `strncpy`. -/
def strncpy (dst : Vector UInt8 m) (src : List UInt8) (n : Nat) : Option (Vector UInt8 m) :=
  strncpyFrom dst 0 src n

/-! ## build_argv -/

/-- `ARGV_MAX` -/
def argvMax : Nat := 32

/-- The size of `cmdline`, with the zero at its end. -/
def cmdlineSize : Nat := 1024

/-- A blank. -/
def blank : UInt8 := ' '.toUInt8

/-- `cmdline` and `argv`; an entry is `NULL` or where in `cmdline` it points. -/
structure Args where
  cmdline : Vector UInt8 cmdlineSize
  argv : Vector (Option Nat) argvMax

/-- `while (*p == ' ') *p++ = '\0'` -/
def skipBlanks (cmdline : Vector UInt8 m) (p : Nat) : Option (Vector UInt8 m × Nat) :=
  if h : p < m then
    if cmdline[p] = blank then skipBlanks (cmdline.set p 0) (p + 1) else some (cmdline, p)
  else none
termination_by m - p

/-- `while (*p && *p != ' ') p++` -/
def skipWord (cmdline : Vector UInt8 m) (p : Nat) : Option Nat :=
  if h : p < m then
    if cmdline[p] ≠ 0 ∧ cmdline[p] ≠ blank then skipWord cmdline (p + 1) else some p
  else none
termination_by m - p

/-- The loop over the words. -/
def splitWords (args : Args) (p argc : Nat) : Option (Nat × Args) := do
  let c ← args.cmdline[p]?
  if _room : c ≠ 0 ∧ argc < argvMax - 1 then
    let (cmdline, p) ← skipBlanks args.cmdline p
    let c ← cmdline[p]?
    if c = 0 then some (argc, ⟨cmdline, args.argv⟩)
    else
      let argv ← put args.argv argc (some p)
      let p ← skipWord cmdline p
      splitWords ⟨cmdline, argv⟩ p (argc + 1)
  else some (argc, args)
termination_by argvMax - argc

/-- `build_argv` -/
def buildArgv (args : Args) (line : List UInt8) (fixed : Nat) : Option (Nat × Args) := do
  let cmdline ← strncpy args.cmdline line (cmdlineSize - 1)
  let (argc, args) ← splitWords ⟨cmdline, args.argv⟩ 0 fixed
  let argv ← put args.argv argc none
  some (argc, ⟨args.cmdline, argv⟩)

/-- The string that starts here, if a NUL ends it. -/
def stringAt (cells : Vector UInt8 m) (p : Nat) : Option (List UInt8) :=
  let bytes := cells.toList.drop p
  if 0 ∈ bytes then some (bytes.takeWhile (· ≠ 0)) else none

/-- The string of an entry of `argv`. -/
def Args.arg (args : Args) (i : Nat) : Option (List UInt8) :=
  args.argv[i]?.join.bind fun p => stringAt args.cmdline p

/-! ## What the loops do -/

variable {cells dst : Vector UInt8 m} {front back old content after word : List UInt8}

/-- The padding puts zeros over what was there. -/
lemma strncpyPad_gives (h : dst.toList = front ++ (old ++ back)) : ∃ dst',
    strncpyPad dst front.length old.length = some dst' ∧
      dst'.toList = front ++ (List.replicate old.length 0 ++ back) := by
  induction old generalizing dst front with
  | nil => exact ⟨dst, rfl, h⟩
  | cons c old ih =>
    obtain ⟨dst', written, h'⟩ := Lib.put_between h 0
    have next : dst'.toList = (front ++ [0]) ++ (old ++ back) := h'.trans (List.append_cons ..)
    obtain ⟨dst'', padded, h''⟩ := ih next
    refine ⟨dst'', ?_, ?_⟩
    · show (put dst front.length 0 >>= fun dst => strncpyPad dst (front.length + 1) old.length) = _
      rw [written]
      rw [List.length_append] at padded
      exact padded
    · rw [h'', List.append_assoc]
      rfl

/-- The characters up to the NUL are copied as far as there is room, and NULs fill what is left. -/
lemma strncpyFrom_gives (nonzero : 0 ∉ content) (h : dst.toList = front ++ (old ++ back)) : ∃ dst',
    strncpyFrom dst front.length (content ++ 0 :: after) old.length = some dst' ∧ dst'.toList =
      front ++ (content.take old.length ++
        (List.replicate (old.length - content.length) 0 ++ back)) := by
  induction old generalizing dst front content with
  | nil =>
    refine ⟨dst, ?_, ?_⟩
    · unfold strncpyFrom
      rfl
    · rw [List.length_nil, List.take_zero, Nat.zero_sub]
      exact h
  | cons o old ih =>
    cases content with
    | nil =>
      obtain ⟨dst', padded, h'⟩ := strncpyPad_gives h
      exact ⟨dst', padded, h'⟩
    | cons c content =>
      have hc : c ≠ 0 := fun e => nonzero (e ▸ List.mem_cons_self)
      obtain ⟨dst', written, h'⟩ := Lib.put_between h c
      have next : dst'.toList = (front ++ [c]) ++ (old ++ back) := h'.trans (List.append_cons ..)
      obtain ⟨dst'', copied, h''⟩ := ih (fun h => nonzero (List.mem_cons_of_mem _ h)) next
      refine ⟨dst'', ?_, ?_⟩
      · show (if c = 0 then _ else put dst front.length c >>= fun dst =>
          strncpyFrom dst (front.length + 1) (content ++ 0 :: after) old.length) = _
        rw [if_neg hc, written]
        rw [List.length_append] at copied
        exact copied
      · rw [h'', List.append_assoc, List.length_cons, List.length_cons, Nat.add_sub_add_right]
        rfl

/-- A copy into a buffer of NULs, up to its last one. -/
lemma strncpy_zeros (pos : 0 < m) (after : List UInt8) (nonzero : 0 ∉ content) : ∃ dst,
    strncpy (Vector.replicate m 0) (content ++ 0 :: after) (m - 1) = some dst ∧
      dst.toList = content.take (m - 1) ++ 0 :: List.replicate (m - 1 - content.length) 0 := by
  obtain ⟨n, rfl⟩ := Nat.exists_eq_succ_of_ne_zero (Nat.ne_of_gt pos)
  have zeros : (Vector.replicate (n + 1) (0 : UInt8)).toList = [] ++
    (List.replicate n 0 ++ [0]) := by
    rw [Vector.toList_replicate]
    exact List.replicate_succ'
  obtain ⟨dst, copied, h⟩ :
    ∃ dst, strncpyFrom (Vector.replicate (n + 1) 0) 0 (content ++ 0 :: after)
      (List.replicate n (0 : UInt8)).length = some dst ∧ _ := strncpyFrom_gives nonzero zeros
  rw [List.length_replicate] at copied h
  refine ⟨dst, copied, ?_⟩
  rw [h, ← List.replicate_succ, List.replicate_succ']
  rfl

/-- Blanks are skipped and zeroed. -/
lemma skipBlanks_gives {k : Nat} {c : UInt8}
    (h : cells.toList = front ++ (List.replicate k blank ++ c :: back))
    (hc : c ≠ blank) : ∃ cells', skipBlanks cells front.length = some (cells', front.length + k) ∧
      cells'.toList = front ++ (List.replicate k 0 ++ c :: back) := by
  induction k generalizing cells front with
  | zero =>
    have lt := Lib.length_lt_between h
    have get := Lib.getElem?_between h
    rw [Vector.getElem?_eq_getElem lt] at get
    refine ⟨cells, ?_, h⟩
    rw [skipBlanks, dif_pos lt, Option.some.inj get, if_neg hc]
    rfl
  | succ k ih =>
    have lt := Lib.length_lt_between h
    have get := Lib.getElem?_between h
    rw [Vector.getElem?_eq_getElem lt] at get
    have next : (cells.set front.length 0 lt).toList =
      (front ++ [0]) ++ (List.replicate k blank ++ c :: back) :=
      (Lib.set_between h 0 lt).trans (List.append_cons ..)
    obtain ⟨cells', skipped, h'⟩ := ih next
    refine ⟨cells', ?_, ?_⟩
    · rw [skipBlanks, dif_pos lt, Option.some.inj get, if_pos rfl]
      rw [List.length_append, List.length_singleton, Nat.add_assoc, Nat.add_comm 1 k] at skipped
      exact skipped
    · rw [h', List.append_assoc]
      rfl

/-- A word is skipped, up to what ends it. -/
lemma skipWord_gives {c : UInt8} (h : cells.toList = front ++ (word ++ c :: back))
    (nonzero : 0 ∉ word) (inside : blank ∉ word) (hc : c = 0 ∨ c = blank) :
    skipWord cells front.length = some (front.length + word.length) := by
  induction word generalizing front with
  | nil =>
    have lt := Lib.length_lt_between h
    have get := Lib.getElem?_between h
    rw [Vector.getElem?_eq_getElem lt] at get
    rw [skipWord, dif_pos lt, Option.some.inj get, if_neg fun h => hc.elim h.1 h.2]
    rfl
  | cons d word ih =>
    have lt := Lib.length_lt_between h
    have get := Lib.getElem?_between h
    rw [Vector.getElem?_eq_getElem lt] at get
    have next : cells.toList = (front ++ [d]) ++ (word ++ c :: back) :=
      h.trans (List.append_cons ..)
    have skipped :=
      ih next (fun h => nonzero (List.mem_cons_of_mem _ h)) fun h =>
        inside (List.mem_cons_of_mem _ h)
    rw [List.length_append, List.length_singleton, Nat.add_assoc, Nat.add_comm 1] at skipped
    rw [skipWord, dif_pos lt, Option.some.inj get, if_pos]
    · exact skipped
    · exact ⟨fun e => nonzero (e ▸ List.mem_cons_self), fun e => inside (e ▸ List.mem_cons_self)⟩

/-! ## The strings of argv -/

/-- The strings that `n` entries get: the words in their order, but what is left
of the text if they run out. -/
def strings : Nat → List UInt8 → List (List UInt8)
  | 0, _ => []
  | n + 1, text =>
    let rest := text.dropWhile (· = blank)
    if rest = [] then []
    else if n = 0 then [rest]
    else rest.takeWhile (· ≠ blank) :: strings n (rest.dropWhile (· ≠ blank))

variable {text rest : List UInt8} {n k : Nat}

/-- Blanks in front are dropped. -/
lemma dropWhile_blanks (k : Nat) (text : List UInt8) :
    (List.replicate k blank ++ text).dropWhile (· = blank) = text.dropWhile (· = blank) := by
  induction k with
  | zero => rfl
  | succ k ih => exact (List.dropWhile_cons_of_pos (by exact decide_eq_true rfl)).trans ih

/-- There are no strings in blanks. -/
lemma strings_blanks (n k : Nat) : strings n (List.replicate k blank) = [] := by
  cases n with
  | zero => rfl
  | succ n =>
    apply if_pos
    have e := dropWhile_blanks k []
    rw [List.append_nil] at e
    exact e

/-- A first word, and what comes after it. -/
structure First (word rest : List UInt8) : Prop where
  ne : word ≠ []
  inside : blank ∉ word
  ends : Ends blank rest

/-- A text that starts with a word has no blanks in front. -/
lemma First.dropWhile_blank (h : First word rest) :
    (word ++ rest).dropWhile (· = blank) = word ++ rest := by
  obtain ⟨ne, inside, -⟩ := h
  cases word with
  | nil => exact absurd rfl ne
  | cons c word =>
    exact List.dropWhile_cons_of_neg fun e => inside (of_decide_eq_true e ▸ List.mem_cons_self)

/-- The word and the rest are found by looking for a blank. -/
lemma First.parts (h : First word rest) : (word ++ rest).takeWhile (· ≠ blank) = word ∧
    (word ++ rest).dropWhile (· ≠ blank) = rest := by
  have all : ∀ c ∈ word, decide (c ≠ blank) = true :=
    fun c hc => decide_eq_true fun e => h.inside (e ▸ hc)
  rw [List.takeWhile_append_of_pos all, List.dropWhile_append_of_pos all]
  cases rest with
  | nil => exact ⟨List.append_nil word, rfl⟩
  | cons c rest =>
    obtain rfl : c = blank := h.ends c rfl
    exact ⟨List.append_nil word, rfl⟩

/-- The first word is the first string, or takes the rest with it if there is room for no other. -/
lemma strings_word (n k : Nat) (h : First word rest) :
    strings (n + 1) (List.replicate k blank ++ (word ++ rest)) =
    if n = 0 then [word ++ rest] else word :: strings n rest := by
  rw [strings]
  rw [dropWhile_blanks, h.dropWhile_blank, h.parts.1, h.parts.2]
  exact if_neg fun e => h.ne (List.append_eq_nil_iff.mp e).1

/-- The first word, and those of the rest. -/
lemma words_word (k : Nat) (h : First word rest) :
    words blank (List.replicate k blank ++ (word ++ rest)) = word :: words blank rest := by
  rw [Lib.words_replicate_append, Lib.words_word_append h.ne h.inside h.ends]

/-- As many strings as words, but no more than there is room for. -/
lemma strings_length (n : Nat) (text : List UInt8) :
    (strings n text).length = min (words blank text).length n := by
  induction n generalizing text with
  | zero => exact (Nat.min_zero _).symm
  | succ n ih =>
    rcases Lib.words_cases blank text with ⟨k, rfl⟩ | ⟨k, word, rest, rfl, ne, inside, ends⟩
    · rw [strings_blanks, Lib.words_replicate]
      exact (Nat.zero_min _).symm
    · have first : First word rest := ⟨ne, inside, ends⟩
      rw [strings_word n k first, words_word k first, List.length_cons, Nat.succ_min_succ]
      split
      case isTrue zero => rw [zero, Nat.min_zero, List.length_singleton]
      case isFalse => rw [List.length_cons, ih rest]

/-- Every word is ended: they are fewer than the entries, or as many and the
text ends with the last one. -/
def AllEnded (n : Nat) (text : List UInt8) : Prop :=
  (words blank text).length < n ∨ (words blank text).length = n ∧ text.getLast? ≠ some blank

/-- It is decided by the text. -/
instance (n : Nat) (text : List UInt8) : Decidable (AllEnded n text) :=
  inferInstanceAs (Decidable (_ ∨ _))

/-- Whether a text ends with a blank is decided behind its first word. -/
lemma getLast?_word (k : Nat) (h : First word rest) :
    (List.replicate k blank ++ (word ++ rest)).getLast? = some blank ↔
    rest.getLast? = some blank := by
  rw [List.getLast?_append, List.getLast?_append]
  cases hrest : rest.getLast? with
  | some c => exact Iff.rfl
  | none =>
    cases hword : word.getLast? with
    | none => exact absurd (List.getLast?_eq_none_iff.mp hword) h.ne
    | some c =>
      refine iff_of_false (fun e => ?_) (fun e => by cases e)
      cases e
      exact h.inside (List.mem_of_getLast? hword)

/-- Whether all words are ended is decided behind the first. -/
lemma allEnded_word (n k : Nat) (h : First word rest) :
    AllEnded (n + 1) (List.replicate k blank ++ (word ++ rest)) ↔ AllEnded n rest := by
  unfold AllEnded
  rw [words_word k h, List.length_cons, Nat.succ_lt_succ_iff, Nat.succ_inj, Ne, getLast?_word k h]

/-- Without entries, nothing may be left. -/
lemma allEnded_zero (rest : List UInt8) : AllEnded 0 rest ↔ rest = [] := by
  refine ⟨fun h => ?_, fun e => ?_⟩
  · rcases h with lt | ⟨none, last⟩
    · exact absurd lt (Nat.not_lt_zero _)
    · obtain ⟨k, rfl⟩ := Lib.eq_replicate_of_words (List.length_eq_zero_iff.mp none)
      cases k with
      | zero => rfl
      | succ k => exact absurd List.getLast?_replicate last
  · rw [e]
    exact .inr ⟨rfl, fun e => by cases e⟩

/-- The strings are the words exactly if all of them are ended, by induction on the room. -/
lemma strings_eq_iff (n : Nat) (text : List UInt8) :
    strings (n + 1) text = (words blank text).take (n + 1) ↔ AllEnded (n + 1) text := by
  induction n generalizing text with
  | zero =>
    rcases Lib.words_cases blank text with ⟨k, rfl⟩ | ⟨k, word, rest, rfl, ne, inside, ends⟩
    · unfold AllEnded
      rw [strings_blanks, Lib.words_replicate]
      exact iff_of_true rfl (.inl Nat.zero_lt_one)
    · have first : First word rest := ⟨ne, inside, ends⟩
      rw [allEnded_word 0 k first, allEnded_zero, strings_word 0 k first,
        words_word k first, if_pos rfl]
      show [word ++ rest] = [word] ↔ _
      rw [List.singleton_inj, List.append_right_eq_self]
  | succ n ih =>
    rcases Lib.words_cases blank text with ⟨k, rfl⟩ | ⟨k, word, rest, rfl, ne, inside, ends⟩
    · unfold AllEnded
      rw [strings_blanks, Lib.words_replicate]
      exact iff_of_true rfl (.inl (Nat.zero_lt_succ _))
    · have first : First word rest := ⟨ne, inside, ends⟩
      rw [allEnded_word (n + 1) k first, ← ih rest, strings_word (n + 1) k first,
        words_word k first, if_neg (Nat.succ_ne_zero n), List.take_succ_cons, List.cons_inj_right]

/-! ## build_argv -/

/-- A blank is not the end. -/
lemma zero_ne_blank : (0 : UInt8) ≠ blank := by decide

/-- The string from a place on, up to a zero. -/
lemma stringAt_between (h : cells.toList = front ++ (word ++ 0 :: back)) (nonzero : 0 ∉ word) :
    stringAt cells front.length = some word := by
  unfold stringAt
  rw [h, List.drop_left]
  have mem : 0 ∈ word ++ 0 :: back := List.mem_append_right word List.mem_cons_self
  have all : ∀ c ∈ word, decide (c ≠ 0) = true :=
    fun c hc => decide_eq_true fun e => nonzero (e ▸ hc)
  show (if 0 ∈ word ++ 0 :: back then some ((word ++ 0 :: back).takeWhile fun c => decide (c ≠ 0))
    else none) = _
  rw [if_pos mem, List.takeWhile_append_of_pos all]
  exact congrArg some (List.append_nil word)

variable {args : Args} {argc : Nat}

/-- What the loop leaves of the text from `front` on, and of `argv` from `argc` on. -/
structure Gives (args : Args) (argc n : Nat) (front text back : List UInt8)
    (args' : Args) : Prop where
  kept : ∀ i < argc, args'.argv[i]? = args.argv[i]?
  given : ∀ (i : Nat) (s : List UInt8), (strings n text)[i]? = some s →
    args'.arg (argc + i) = some s
  /-- a word before the text is ended, unless there was no entry left -/
  ended : ∃ back', args'.cmdline.toList = front ++ back' ∧
    if n = 0 then back' = text ++ 0 :: back else Ends blank text → back'.head? = some 0

/-- Without room for another word nothing is split. -/
lemma splitWords_full (full : argc = argvMax - 1)
    (h : args.cmdline.toList = front ++ (text ++ 0 :: back)) :
    splitWords args front.length argc = some (argc, args) := by
  obtain ⟨c, tail, e⟩ : ∃ c tail, text ++ 0 :: back = c :: tail := by
    cases text with
    | nil => exact ⟨0, back, rfl⟩
    | cons c text => exact ⟨c, text ++ 0 :: back, rfl⟩
  rw [e] at h
  rw [splitWords, Lib.getElem?_between h]
  exact dif_neg fun h => Nat.ne_of_lt h.2 full

/-- At the end of the text nothing is split. -/
lemma splitWords_end {p : Nat} (h : args.cmdline[p]? = some 0) :
    splitWords args p argc = some (argc, args) := by
  have done : ¬((0 : UInt8) ≠ 0 ∧ argc < argvMax - 1) := fun both => both.1 rfl
  rw [splitWords, h, Option.bind_eq_bind, Option.bind_some, dif_neg done]

/-- The loop is entered, and its blanks are skipped. -/
lemma splitWords_enter {c d : UInt8} {tail : List UInt8} (room : argc < argvMax - 1)
    (h : args.cmdline.toList = front ++ (List.replicate k blank ++ d :: tail))
    (hc : args.cmdline[front.length]? = some c) (nonzero : c ≠ 0) (hd : d ≠ blank) :
    ∃ cells, cells.toList = front ++ (List.replicate k 0 ++ d :: tail) ∧
      splitWords args front.length argc = (if d = 0 then some (argc, ⟨cells, args.argv⟩) else do
        let argv ← put args.argv argc (some (front.length + k))
        let p ← skipWord cells (front.length + k)
        splitWords ⟨cells, argv⟩ p (argc + 1)) := by
  obtain ⟨cells, skipped, hcells⟩ := skipBlanks_gives h hd
  have hnext : cells.toList = (front ++ List.replicate k 0) ++ d ::
    tail := by rw [hcells, List.append_assoc]
  have get := Lib.getElem?_between hnext
  rw [List.length_append, List.length_replicate] at get
  refine ⟨cells, hcells, ?_⟩
  rw [splitWords, hc]
  refine (dif_pos ⟨nonzero, room⟩).trans ?_
  rw [skipped]
  show (cells[front.length + k]? >>= fun d => _) = _
  rw [get]
  rfl

/-- Behind a word there is a zero where a blank was. -/
lemma head_blanks (k : Nat) (tail : List UInt8)
    (h : Ends blank (List.replicate k blank ++ (word ++ rest)))
    (first : First word rest) : (List.replicate k 0 ++ tail).head? = some 0 := by
  cases k with
  | succ k => rfl
  | zero =>
    obtain ⟨ne, inside, -⟩ := first
    cases word with
    | nil => exact absurd rfl ne
    | cons c word =>
      obtain rfl : c = blank := h c rfl
      exact absurd List.mem_cons_self inside

/-- The loop with a word before it: the word has its entry, and the loop goes on behind it. -/
lemma Gives.cons {cells : Vector UInt8 cmdlineSize} {argv : Vector (Option Nat) argvMax}
    {args' : Args} (first : First word rest) (nonzero : 0 ∉ word ++ rest)
    (entries : ∀ i, argv[i]? = if argc = i then some (some (front.length + k)) else args.argv[i]?)
    (h : Gives ⟨cells, argv⟩ (argc + 1) n (front ++ List.replicate k 0 ++ word) rest back args') :
    Gives args argc (n + 1) front (List.replicate k blank ++ (word ++ rest)) back args' := by
  obtain ⟨back', hmem, hend⟩ := h.ended
  rw [List.append_assoc] at hmem
  have at_word : (front ++ List.replicate k 0).length = front.length + k := by
    rw [List.length_append, List.length_replicate]
  have entry : args'.arg argc = stringAt args'.cmdline (front ++ List.replicate k 0).length := by
    have e : args'.argv[argc]? = some (some (front.length + k)) :=
      (h.kept argc (Nat.lt_succ_self _)).trans ((entries argc).trans (if_pos rfl))
    unfold Args.arg
    rw [e, at_word]
    rfl
  refine ⟨fun i hi => ?_, fun i s hs => ?_, ?_⟩
  · rw [h.kept i (Nat.lt_succ_of_lt hi)]
    exact (entries i).trans (if_neg (Nat.ne_of_gt hi))
  · rw [strings_word n k first] at hs
    split at hend
    case isTrue zero =>
      rw [if_pos zero] at hs
      rw [hend, ← List.append_assoc word] at hmem
      cases i with
      | zero => exact entry.trans ((stringAt_between hmem nonzero).trans hs)
      | succ i => cases hs
    case isFalse more =>
      rw [if_neg more] at hs
      obtain ⟨tail, rfl⟩ := List.head?_eq_some_iff.mp (hend first.ends)
      cases i with
      | zero =>
        exact entry.trans
          ((stringAt_between hmem fun h => nonzero (List.mem_append_left rest h)).trans hs)
      | succ i =>
        rw [← Nat.succ_add_eq_add_succ]
        exact h.given i s hs
  · refine ⟨List.replicate k 0 ++ (word ++ back'), ?_, ?_⟩
    · rw [hmem, List.append_assoc]
    · rw [if_neg (Nat.succ_ne_zero n)]
      exact fun ends => head_blanks k _ ends first

/-- What is left when only blanks are. -/
lemma Gives.blanks {args' : Args}
    (h : args'.cmdline.toList = front ++ (List.replicate k 0 ++ 0 :: back))
    (same : args'.argv = args.argv) :
    Gives args argc (n + 1) front (List.replicate k blank) back args' := by
  refine ⟨fun i _ => by rw [same], fun i s hs => ?_, _, h, ?_⟩
  · rw [strings_blanks] at hs
    cases hs
  · rw [if_neg (Nat.succ_ne_zero n)]
    intro _
    cases k with
    | zero => rfl
    | succ k => rfl

/-- A text that is not empty starts with a character. -/
lemma first_char (h : args.cmdline.toList = front ++ (text ++ 0 :: back)) (ne : text ≠ [])
    (nonzero : 0 ∉ text) :
    ∃ c, args.cmdline[front.length]? = some c ∧ c ≠ 0 := by
  cases text with
  | nil => exact absurd rfl ne
  | cons c text => exact ⟨c, Lib.getElem?_between h, fun e => nonzero (e ▸ List.mem_cons_self)⟩

/-- What stops the loop over a word. -/
lemma behind_word (ends : Ends blank rest) (back : List UInt8) :
    ∃ c tail, rest ++ 0 :: back = c :: tail ∧ (c = 0 ∨ c = blank) := by
  cases rest with
  | nil => exact ⟨0, back, rfl, .inl rfl⟩
  | cons c rest => exact ⟨c, rest ++ 0 :: back, rfl, .inr (ends c rfl)⟩

/-- The loop over the rest of the text, with `n` entries left. -/
lemma splitWords_gives (n : Nat) {argc : Nat} {front text : List UInt8} {args : Args}
    (room : argc + n = argvMax - 1)
    (h : args.cmdline.toList = front ++ (text ++ 0 :: back)) (nonzero : 0 ∉ text) : ∃ args',
      splitWords args front.length argc = some (argc + (strings n text).length, args') ∧
        Gives args argc n front text back args' := by
  -- on the words there is still room for: each turn takes one, and the blanks before it
  induction n generalizing argc front text args with
  | zero =>
    refine ⟨args, splitWords_full room h, fun i hi => rfl, fun i s hs => ?_, _, h, ?_⟩
    · cases hs
    · rw [if_pos rfl]
  | succ n ih =>
    have lt : argc < argvMax - 1 := by omega
    rcases Lib.words_cases blank text with ⟨k, rfl⟩ | ⟨k, word, rest, rfl, ne, inside, ends⟩
    · rw [strings_blanks]
      -- only blanks are left, or nothing is
      cases k with
      | zero =>
        exact ⟨args, splitWords_end (Lib.getElem?_between h), Gives.blanks h rfl⟩
      | succ k =>
        obtain ⟨c, hc, hne⟩ := first_char h (List.cons_ne_nil _ _) nonzero
        obtain ⟨cells, hcells, run⟩ := splitWords_enter lt h hc hne zero_ne_blank
        exact ⟨⟨cells, args.argv⟩, run.trans (if_pos rfl), Gives.blanks hcells rfl⟩
    · have first : First word rest := ⟨ne, inside, ends⟩
      have nonzero' : 0 ∉ word ++ rest := fun h => nonzero (List.mem_append_right _ h)
      have ne' := List.append_ne_nil_of_right_ne_nil (List.replicate k blank)
        (List.append_ne_nil_of_left_ne_nil ne rest)
      obtain ⟨c, hc, hne⟩ := first_char h ne' nonzero
      cases word with
      | nil => exact absurd rfl ne
      | cons d word =>
        have hd : d ≠ blank := fun e => inside (e ▸ List.mem_cons_self)
        have hd0 : d ≠ 0 := fun e => nonzero' (e ▸ List.mem_cons_self)
        rw [List.append_assoc] at h
        obtain ⟨cells, hcells, run⟩ := splitWords_enter lt h hc hne hd
        obtain ⟨argv, written, entries⟩ := Lib.put_getElem? (Nat.lt_of_lt_of_le lt (Nat.sub_le _ _))
          (some (front.length + k)) args.argv
        have at_word :
          cells.toList = (front ++ List.replicate k 0) ++ ((d :: word) ++ (rest ++ 0 :: back)) := by
          rw [hcells, List.append_assoc, ← List.append_assoc (d :: word)]
          rfl
        have behind : cells.toList = (front ++ List.replicate k 0 ++ (d :: word)) ++
          (rest ++ 0 :: back) := by
          rw [at_word, ← List.append_assoc]
        -- the rest is split with one entry less
        obtain ⟨args', looped, gives⟩ := @ih (argc + 1) _ _ ⟨cells, argv⟩ (by omega) behind
          fun h => nonzero' (List.mem_append_right _ h)
        refine ⟨args', ?_, Gives.cons first nonzero' entries gives⟩
        obtain ⟨e, tail, he, hstop⟩ := behind_word ends back
        rw [he] at at_word
        have skipped :=
          skipWord_gives at_word (fun h => nonzero' (List.mem_append_left _ h)) inside hstop
        rw [List.length_append, List.length_replicate] at skipped
        rw [List.length_append, List.length_append, List.length_replicate] at looped
        rw [run, if_neg hd0, written]
        show (skipWord cells (front.length + k) >>= fun p =>
          splitWords ⟨cells, argv⟩ p (argc + 1)) = _
        rw [skipped]
        refine looped.trans ?_
        rw [strings_word n k first]
        cases n with
        | zero => rfl
        | succ n => rw [if_neg (Nat.succ_ne_zero n), List.length_cons, Nat.succ_add_eq_add_succ]

/-- `argv` has the words from entry 1 on, as many as there is room for, and `NULL` after them. -/
structure Splits (text : List UInt8) (argc : Nat) (args : Args) : Prop where
  count : argc = 1 + min (words blank text).length 30
  word : ∀ i < min (words blank text).length 30, args.arg (1 + i) = (words blank text)[i]?
  null : args.argv[argc]? = some none

/-- What is in `argv` in any case. -/
lemma buildArgv_gives (argv : Vector (Option Nat) argvMax) (after : List UInt8)
    (nonzero : 0 ∉ content) :
    ∃ argc args, buildArgv ⟨Vector.replicate cmdlineSize 0, argv⟩ (content ++ 0 :: after) 1 =
      some (argc, args) ∧
      argc = 1 + (strings 30 (content.take (cmdlineSize - 1))).length ∧
      args.argv[argc]? = some none ∧
      ∀ (i : Nat) (s : List UInt8), (strings 30 (content.take (cmdlineSize - 1)))[i]? = some s →
        args.arg (1 + i) = some s := by
  obtain ⟨cmdline, copied, text⟩ := strncpy_zeros (by decide : 0 < cmdlineSize) after nonzero
  have nonzero' : 0 ∉ content.take (cmdlineSize - 1) := fun h => nonzero (List.mem_of_mem_take h)
  obtain ⟨args, looped, gives⟩ := @splitWords_gives _ 30 1 [] _ ⟨cmdline, argv⟩ rfl text nonzero'
  rw [List.length_nil] at looped
  have bound : 1 + (strings 30 (content.take (cmdlineSize - 1))).length < argvMax := by
    rw [strings_length]
    show 1 + min _ 30 < 32
    omega
  obtain ⟨argv', written, entries⟩ := Lib.put_getElem? bound none args.argv
  refine ⟨_, ⟨args.cmdline, argv'⟩, ?_, rfl, (entries _).trans (if_pos rfl), fun i s hs => ?_⟩
  · show (strncpy (Vector.replicate cmdlineSize 0) (content ++ 0 :: after)
      (cmdlineSize - 1) >>= fun cmdline => _) = _
    rw [copied]
    show (splitWords ⟨cmdline, argv⟩ 0 1 >>= fun p => _) = _
    rw [looped]
    show (put args.argv _ none >>= fun argv => _) = _
    rw [written]
    rfl
  · have hi : i < (strings 30 (content.take (cmdlineSize - 1))).length :=
      (List.getElem?_eq_some_iff.mp hs).1
    have e := gives.given i s hs
    unfold Args.arg at e ⊢
    rw [entries (1 + i), if_neg (by omega)]
    exact e

/-- The words of a command line are all in `argv` as strings exactly if there is an entry for
each and the last one is ended. -/
theorem buildArgv_splits_iff (argv : Vector (Option Nat) argvMax) (after : List UInt8)
    (nonzero : 0 ∉ content) :
    ∃ argc args, buildArgv ⟨Vector.replicate cmdlineSize 0, argv⟩ (content ++ 0 :: after) 1 =
      some (argc, args) ∧
      (Splits (content.take (cmdlineSize - 1)) argc args ↔
        AllEnded 30 (content.take (cmdlineSize - 1))) := by
  obtain ⟨argc, args, run, count, null, given⟩ := buildArgv_gives argv after nonzero
  refine ⟨argc, args, run, ?_⟩
  rw [strings_length] at count
  rw [← strings_eq_iff]
  have at_entry : ∀ i < min (words blank (content.take (cmdlineSize - 1))).length 30,
      args.arg (1 + i) = (strings 30 (content.take (cmdlineSize - 1)))[i]? := by
    intro i hi
    rw [← strings_length] at hi
    rw [List.getElem?_eq_getElem hi]
    exact given i _ (List.getElem?_eq_getElem hi)
  refine ⟨fun h => ?_, fun h => ⟨count, fun i hi => ?_, null⟩⟩
  · apply List.ext_getElem?
    intro i
    by_cases hi : i < min (words blank (content.take (cmdlineSize - 1))).length 30
    · rw [← at_entry i hi, h.word i hi]
      exact (List.getElem?_take_of_lt (Nat.lt_of_lt_of_le hi (Nat.min_le_right _ _))).symm
    · have past := Nat.le_of_not_lt hi
      rw [List.getElem?_eq_none, List.getElem?_eq_none]
      · rw [List.length_take, Nat.min_comm]
        exact past
      · rw [strings_length]
        exact past
  · rw [at_entry i hi, h]
    exact List.getElem?_take_of_lt (Nat.lt_of_lt_of_le hi (Nat.min_le_right _ _))

/-- Two words, with blanks before, between and after them. -/
theorem buildArgv_splits_two :
    ∃ argc args, buildArgv ⟨Vector.replicate cmdlineSize 0, Vector.replicate argvMax none⟩
    ([blank, 'g'.toUInt8, 'o'.toUInt8, blank, blank, '1'.toUInt8, blank] ++ 0 :: []) 1 =
      some (argc, args) ∧
      Splits [blank, 'g'.toUInt8, 'o'.toUInt8, blank, blank, '1'.toUInt8, blank] argc args := by
  obtain ⟨argc, args, run, splits⟩ :=
    buildArgv_splits_iff (Vector.replicate argvMax none) [] (by decide :
    (0 : UInt8) ∉ [blank, 'g'.toUInt8, 'o'.toUInt8, blank, blank, '1'.toUInt8, blank])
  exact ⟨argc, args, run, splits.mpr (by decide)⟩

/-- `a a … a`, 31 words. -/
def manyWords : List UInt8 := (List.replicate 30 ['a'.toUInt8, blank]).flatten ++ ['a'.toUInt8]

/-- The 30th of 31 words is not ended: its entry is `a a`. -/
theorem buildArgv_thirtieth_not_ended :
    ¬ ∀ (argv : Vector (Option Nat) argvMax) (content after : List UInt8),
    0 ∉ content → ∃ argc args,
      buildArgv ⟨Vector.replicate cmdlineSize 0, argv⟩ (content ++ 0 :: after) 1 =
        some (argc, args) ∧
        Splits (content.take (cmdlineSize - 1)) argc args := by
  intro h
  obtain ⟨argc, args, run, splits⟩ := h (Vector.replicate argvMax none) manyWords [] (by decide)
  obtain ⟨argc', args', run', -, -, given⟩ :=
    buildArgv_gives (Vector.replicate argvMax none) [] (by decide :
    0 ∉ manyWords)
  cases run.symm.trans run'
  have entry := given 29 ['a'.toUInt8, blank, 'a'.toUInt8] (by decide)
  have word := splits.word 29 (by decide)
  exact absurd (entry.symm.trans word) (by decide)

end Hearth.Doom.CommandLine
