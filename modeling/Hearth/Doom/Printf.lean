import Hearth.Doom.Files

/-!
# Formatted output

The `printf` family of `guests/doom/libc/stdio.c`. A format is the characters before its NUL, and
the arguments have the types that they are passed with; where the format asks for another one, or a
string has no NUL, the result is `none`. An `int` is an `Int` in the layout, since C gives an
overflow no meaning: a width or a precision has the value that is written, and what is said here is
about the code as long as an `int` holds it. `vsnprintf_prefix` is that a bounded buffer has the
beginning of what the console is given.
-/

namespace Hearth.Doom

/-- Where the text goes; `len` counts every character. The console has been given `printed`,
and `%n` has stored `stored`. -/
structure Out where
  buf : Nat → UInt8
  size : Nat
  len : Nat
  console : Bool
  printed : List UInt8
  stored : List (UInt64 × Int32)

/-- `out_char`. -/
def outChar (o : Out) (c : UInt8) : Out :=
  let o :=
    if o.console then { o with printed := o.printed ++ [c] }
    else if o.len + 1 < o.size then { o with buf := Function.update o.buf o.len c }
    else o
  { o with len := o.len + 1 }

/-- One character after the other. -/
def outText (o : Out) (text : List UInt8) : Out := text.foldl outChar o

/-- `out_pad`: the character `n` times, never if `n` is negative. -/
def outPad (o : Out) (c : UInt8) (n : Int) : Out := outText o (List.replicate n.toNat c)

/-- `F_LEFT`, `F_PLUS`, `F_SPACE`, `F_ALT` and `F_ZERO` -/
structure Flags where
  left : Bool
  plus : Bool
  space : Bool
  alt : Bool
  zero : Bool
  deriving DecidableEq, Repr

/-- None of the flags is set. -/
def Flags.none : Flags := ⟨false, false, false, false, false⟩

/-- `out_str`. -/
def outStr (o : Out) (s : List UInt8) (width : Int) (flags : Flags) : Out :=
  let o := if flags.left then o else outPad o ' '.toUInt8 (width - s.length)
  let o := outText o s
  if flags.left then outPad o ' '.toUInt8 (width - s.length) else o

/-- The characters of `set`. -/
def digitChar (upper : Bool) (d : Nat) : UInt8 :=
  UInt8.ofNat (if d < 10 then '0'.toNat + d
    else (if upper then 'A'.toNat else 'a'.toNat) + (d - 10))

/-- The digits of a number that is not 0 in a base that is at least 2, the last one first. -/
def digitsOf (base : Nat) (upper : Bool) (v : Nat) : List UInt8 :=
  if _ : v = 0 ∨ base ≤ 1 then []
  else digitChar upper (v % base) :: digitsOf base upper (v / base)
termination_by v
decreasing_by exact Nat.div_lt_self (by omega) (by omega)

/-- What `digits` holds: with a precision of 0, nothing for 0. -/
def numDigits (v : UInt64) (base : Nat) (upper : Bool) (prec : Int) : List UInt8 :=
  if v = 0 ∧ prec ≠ 0 then ['0'.toUInt8] else digitsOf base upper v.toNat

/-- The sign, if there is one. -/
def numSign (neg : Bool) (flags : Flags) : List UInt8 :=
  if neg then ['-'.toUInt8] else if flags.plus then ['+'.toUInt8]
    else if flags.space then [' '.toUInt8] else []

/-- What `out_num` puts between the sign and the digits. -/
def numPrefix (digits : List UInt8) (base : Nat) (upper : Bool) (flags : Flags) : List UInt8 :=
  if flags.alt ∧ base = 16 ∧ digits ≠ [] ∧ digits.getLast? ≠ some '0'.toUInt8 then
    ['0'.toUInt8, if upper then 'X'.toUInt8 else 'x'.toUInt8]
  else if flags.alt ∧ base = 8 ∧ (digits = [] ∨
    digits.getLast? ≠ some '0'.toUInt8) then ['0'.toUInt8]
  else []

/-- `out_num`. -/
def outNum (o : Out) (v : UInt64) (neg : Bool) (base : Nat) (upper : Bool) (width prec : Int)
    (flags : Flags) : Out :=
  let digits := numDigits v base upper prec
  let sign := numSign neg flags
  let before := numPrefix digits base upper flags
  let n : Int := digits.length
  let zeros := if n < prec then prec - n else 0
  let len := n + zeros + sign.length + before.length
  let fill := flags.zero && !flags.left && prec < 0 && len < width
  let (zeros, len) := if fill then (zeros + (width - len), width) else (zeros, len)
  let o := if flags.left then o else outPad o ' '.toUInt8 (width - len)
  let o := outText o sign
  let o := outText o before
  let o := outPad o '0'.toUInt8 zeros
  let o := outText o digits.reverse
  if flags.left then outPad o ' '.toUInt8 (width - len) else o

/-- The size of `tmp`. -/
def tmpSize : Nat := 48

/-- `out_double`. -/
def outDouble (o : Out) (d : Float) (width prec : Int) (flags : Flags) : Out :=
  let prec := if prec < 0 then 6 else prec
  let prec := if 9 < prec then 9 else prec
  let neg := d < 0
  let d := if neg then -d else d
  let scale : UInt64 := (List.range prec.toNat).foldl (fun scale _ => scale * 10) 1
  let ip := d.toUInt64
  let fp := ((d - ip.toFloat) * scale.toFloat + 0.5).toUInt64
  let (ip, fp) := if scale ≤ fp then (ip + 1, fp - scale) else (ip, fp)
  let t : Out := { buf := fun _ => 0, size := tmpSize, len := 0, console := false, printed := [],
                   stored := [] }
  let t := outNum t ip neg 10 false 0 (-1) { Flags.none with plus := flags.plus,
                                                             space := flags.space }
  let t := if prec ≠ 0 then outNum (outChar t '.'.toUInt8) fp false 10 false 0 prec .none else t
  outStr o ((List.range (min t.len (tmpSize - 1))).map t.buf) width flags

/-! ## Arguments -/

/-- An argument as it is passed: the bits of an integer, the bytes of the object that a
string is in, or a pointer. -/
inductive Arg where
  | int (v : UInt32)
  | long (v : UInt64)
  | pointer (p : UInt64)
  | string (s : Option (List UInt8))
  | double (d : Float)
  | counter (p : UInt64)

/-- The next argument as an `int`. -/
def vaInt : List Arg → Option (UInt32 × List Arg)
  | .int v :: ap => some (v, ap)
  | _ => none

/-- The next argument as a `long`. -/
def vaLong : List Arg → Option (UInt64 × List Arg)
  | .long v :: ap => some (v, ap)
  | _ => none

/-- A `long` or an `int`, as a `long long`. -/
def vaSigned (lng : Nat) (ap : List Arg) : Option (Int64 × List Arg) :=
  if lng ≠ 0 then (vaLong ap).map fun (v, ap) => (v.toInt64, ap)
  else (vaInt ap).map fun (v, ap) => (v.toInt32.toInt64, ap)

/-- An `unsigned long` or an `unsigned int`, as an `unsigned long long`. -/
def vaUnsigned (lng : Nat) (ap : List Arg) : Option (UInt64 × List Arg) :=
  if lng ≠ 0 then vaLong ap else (vaInt ap).map fun (v, ap) => (v.toUInt64, ap)

/-- The next argument as a pointer. -/
def vaPointer : List Arg → Option (UInt64 × List Arg)
  | .pointer p :: ap => some (p, ap)
  | _ => none

/-- The next argument as a string, which may be `NULL`. -/
def vaString : List Arg → Option (Option (List UInt8) × List Arg)
  | .string s :: ap => some (s, ap)
  | _ => none

/-- The next argument as a `double`. -/
def vaDouble : List Arg → Option (Float × List Arg)
  | .double d :: ap => some (d, ap)
  | _ => none

/-- The next argument as a pointer for `%n`. -/
def vaCounter : List Arg → Option (UInt64 × List Arg)
  | .counter p :: ap => some (p, ap)
  | _ => none

/-! ## Formats -/

/-- The flags with another one, if the character is one. -/
def Flags.set (flags : Flags) (c : UInt8) : Option Flags :=
  if c = '-'.toUInt8 then some { flags with left := true }
  else if c = '+'.toUInt8 then some { flags with plus := true }
  else if c = ' '.toUInt8 then some { flags with space := true }
  else if c = '#'.toUInt8 then some { flags with alt := true }
  else if c = '0'.toUInt8 then some { flags with zero := true }
  else Option.none

/-- The flags at the start of a directive. -/
def flagsOf (flags : Flags) : List UInt8 → Flags × List UInt8
  | [] => (flags, [])
  | c :: fmt =>
    match flags.set c with
    | some flags => flagsOf flags fmt
    | none => (flags, c :: fmt)

/-- The digits at the start of a format, after `n`. -/
def numberOf (n : Int) : List UInt8 → Int × List UInt8
  | [] => (n, [])
  | c :: fmt => if isdigit c then numberOf (n * 10 + (c.toNat - '0'.toNat)) fmt else (n, c :: fmt)

/-- The width, and the flags with what its sign says. -/
def widthOf (flags : Flags) (fmt : List UInt8) (ap : List Arg) :
    Option (Flags × Int × List UInt8 × List Arg) :=
  if fmt.head? = some '*'.toUInt8 then do
    let (v, ap) ← vaInt ap
    let width := v.toInt32.toInt
    let (flags, width) := if width < 0 then ({ flags with left := true }, -width)
      else (flags, width)
    let (width, fmt) := numberOf width fmt.tail
    some (flags, width, fmt, ap)
  else
    let (width, fmt) := numberOf 0 fmt
    some (flags, width, fmt, ap)

/-- The precision, and the argument it takes if it is a star. -/
def precOf (fmt : List UInt8) (ap : List Arg) : Option (Int × List UInt8 × List Arg) :=
  if fmt.head? = some '.'.toUInt8 then
    if fmt.tail.head? = some '*'.toUInt8 then do
      let (v, ap) ← vaInt ap
      let (prec, fmt) := numberOf v.toInt32.toInt fmt.tail.tail
      some (prec, fmt, ap)
    else
      let (prec, fmt) := numberOf 0 fmt.tail
      some (prec, fmt, ap)
  else some (-1, fmt, ap)

/-- How often an argument is said to be a `long`. -/
def lengthOf (lng : Nat) : List UInt8 → Nat × List UInt8
  | [] => (lng, [])
  | c :: fmt =>
    if c ∈ ['h', 'l', 'z', 'j', 't', 'L'].map Char.toUInt8 then
      lengthOf (if c ∈ ['l', 'z', 'j', 't'].map Char.toUInt8 then lng + 1 else lng) fmt
    else (lng, c :: fmt)

/-- What is between a `%` and the conversion. -/
structure Directive where
  flags : Flags
  width : Int
  prec : Int
  lng : Nat
  deriving DecidableEq, Repr

/-- All of a directive up to its conversion. -/
def directiveOf (fmt : List UInt8) (ap : List Arg) :
    Option (Directive × List UInt8 × List Arg) := do
  let (flags, fmt) := flagsOf .none fmt
  let (flags, width, fmt, ap) ← widthOf flags fmt ap
  let (prec, fmt, ap) ← precOf fmt ap
  let (lng, fmt) := lengthOf 0 fmt
  some (⟨flags, width, prec, lng⟩, fmt, ap)

/-- The length of the string, as far as it is printed. Its characters are
read up to the one that is not. -/
def strLength (prec : Int) (len : Nat) : List UInt8 → Option Nat
  | [] => none
  | c :: s => if c ≠ 0 ∧ (prec < 0 ∨ len < prec) then strLength prec (len + 1) s else some len

/-- What is printed for a null pointer. -/
def nullString : List UInt8 := ['(', 'n', 'u', 'l', 'l', ')', '\x00'].map Char.toUInt8

/-- The cases of the conversion. -/
def convert (o : Out) (d : Directive) (c : UInt8) (ap : List Arg) : Option (Out × List Arg) :=
  if c ∈ ['d', 'i'].map Char.toUInt8 then do
    let (v, ap) ← vaSigned d.lng ap
    some (outNum o (if v < 0 then -v.toUInt64 else v.toUInt64)
      (v < 0) 10 false d.width d.prec d.flags, ap)
  else if c ∈ ['u', 'x', 'X', 'o'].map Char.toUInt8 then do
    let (v, ap) ← vaUnsigned d.lng ap
    let base := if c = 'u'.toUInt8 then 10 else if c = 'o'.toUInt8 then 8 else 16
    some (outNum o v false base (c = 'X'.toUInt8) d.width d.prec d.flags, ap)
  else if c = 'p'.toUInt8 then do
    let (p, ap) ← vaPointer ap
    some (outNum o p false 16 false d.width d.prec { d.flags with alt := true }, ap)
  else if c = 'c'.toUInt8 then do
    let (v, ap) ← vaInt ap
    some (outStr o [v.toUInt8] d.width d.flags, ap)
  else if c = 's'.toUInt8 then do
    let (s, ap) ← vaString ap
    let s := s.getD nullString
    let len ← strLength d.prec 0 s
    some (outStr o (s.take len) d.width d.flags, ap)
  else if c ∈ ['f', 'F', 'e', 'E', 'g', 'G'].map Char.toUInt8 then do
    let (v, ap) ← vaDouble ap
    some (outDouble o v d.width d.prec d.flags, ap)
  else if c = 'n'.toUInt8 then do
    let (p, ap) ← vaCounter ap
    some ({ o with stored := o.stored ++ [(p, Int32.ofNat o.len)] }, ap)
  else if c = '%'.toUInt8 then some (outChar o '%'.toUInt8, ap)
  else some (outChar (outChar o '%'.toUInt8) c, ap)

/-- Reading flags makes the format no longer. -/
lemma flagsOf_length (flags : Flags) (fmt : List UInt8) :
    (flagsOf flags fmt).2.length ≤ fmt.length := by
  induction fmt generalizing flags with
  | nil => exact Nat.le_refl _
  | cons c fmt ih =>
    unfold flagsOf
    split
    · exact Nat.le_succ_of_le (ih _)
    · exact Nat.le_refl _

/-- Reading a number makes the format no longer. -/
lemma numberOf_length (n : Int) (fmt : List UInt8) : (numberOf n fmt).2.length ≤ fmt.length := by
  induction fmt generalizing n with
  | nil => exact Nat.le_refl _
  | cons c fmt ih =>
    unfold numberOf
    split
    · exact Nat.le_succ_of_le (ih _)
    · exact Nat.le_refl _

/-- Reading a length modifier makes the format no longer. -/
lemma lengthOf_length (lng : Nat) (fmt : List UInt8) :
    (lengthOf lng fmt).2.length ≤ fmt.length := by
  induction fmt generalizing lng with
  | nil => exact Nat.le_refl _
  | cons c fmt ih =>
    unfold lengthOf
    split
    · exact Nat.le_succ_of_le (ih _)
    · exact Nat.le_refl _

/-- Reading a width makes the format no longer. -/
lemma widthOf_length {flags flags' : Flags} {fmt fmt' : List UInt8}
    {ap ap' : List Arg} {width : Int}
    (h : widthOf flags fmt ap = some (flags', width, fmt', ap')) : fmt'.length ≤ fmt.length := by
  unfold widthOf at h
  split at h
  · obtain ⟨⟨v, rest⟩, _, h⟩ := Option.bind_eq_some_iff.mp h
    cases h
    exact Nat.le_trans (numberOf_length _ _) (fmt.length_tail ▸ Nat.sub_le _ _)
  · cases h
    exact numberOf_length _ _

/-- Reading a precision makes the format no longer. -/
lemma precOf_length {fmt fmt' : List UInt8} {ap ap' : List Arg} {prec : Int}
    (h : precOf fmt ap = some (prec, fmt', ap')) : fmt'.length ≤ fmt.length := by
  have tail (s : List UInt8) : s.tail.length ≤ s.length := s.length_tail ▸ Nat.sub_le _ _
  unfold precOf at h
  split at h
  · split at h
    · obtain ⟨⟨v, rest⟩, _, h⟩ := Option.bind_eq_some_iff.mp h
      cases h
      exact Nat.le_trans (numberOf_length _ _) (Nat.le_trans (tail _) (tail _))
    · cases h
      exact Nat.le_trans (numberOf_length _ _) (tail _)
  · cases h
    exact Nat.le_refl _

/-- A directive makes the format no longer, which is why `outFormat` terminates. -/
lemma directiveOf_length {fmt fmt' : List UInt8} {ap ap' : List Arg} {d : Directive}
    (h : directiveOf fmt ap = some (d, fmt', ap')) : fmt'.length ≤ fmt.length := by
  unfold directiveOf at h
  obtain ⟨⟨flags, width, fmt₁, ap₁⟩, width_eq, h⟩ := Option.bind_eq_some_iff.mp h
  obtain ⟨⟨prec, fmt₂, ap₂⟩, prec_eq, h⟩ := Option.bind_eq_some_iff.mp h
  cases h
  have := widthOf_length width_eq
  have := precOf_length prec_eq
  have := flagsOf_length .none fmt
  have := lengthOf_length 0 fmt₂
  omega

/-- `out_format`. -/
def outFormat (o : Out) (fmt : List UInt8) (ap : List Arg) : Option Out :=
  match fmt with
  | [] => some o
  | c :: fmt =>
    if c ≠ '%'.toUInt8 then outFormat (outChar o c) fmt ap
    else
      match h : directiveOf fmt ap with
      | none => none
      | some (_, [], _) => some o
      | some (d, c :: rest, ap) =>
        have : rest.length ≤ fmt.length := Nat.le_of_succ_le (directiveOf_length h)
        match convert o d c ap with
        | none => none
        | some (o, ap) => outFormat o rest ap
termination_by fmt.length

section

variable {o : Out} {fmt : List UInt8} {ap : List Arg}

/-- At the end nothing more is printed. -/
lemma outFormat_nil : outFormat o [] ap = some o := by rw [outFormat]

/-- An ordinary character is printed. -/
lemma outFormat_char {c : UInt8} (other : c ≠ '%'.toUInt8) :
    outFormat o (c :: fmt) ap = outFormat (outChar o c) fmt ap := by
  rw [outFormat, if_pos other]

/-- A directive that lacks an argument ends in nothing. -/
lemma outFormat_none (h : directiveOf fmt ap = none) :
    outFormat o ('%'.toUInt8 :: fmt) ap = none := by
  rw [outFormat, if_neg (not_not_intro rfl)]
  split <;> simp_all

/-- A format that ends within a directive prints nothing for it. -/
lemma outFormat_end {d : Directive} {ap' : List Arg} (h : directiveOf fmt ap = some (d, [], ap')) :
    outFormat o ('%'.toUInt8 :: fmt) ap = some o := by
  rw [outFormat, if_neg (not_not_intro rfl)]
  split <;> simp_all

/-- A directive is converted, and the rest of the format goes on with the arguments left. -/
lemma outFormat_convert {d : Directive} {c : UInt8} {rest : List UInt8} {ap' : List Arg}
    (h : directiveOf fmt ap = some (d, c :: rest, ap')) :
    outFormat o ('%'.toUInt8 :: fmt) ap = (convert o d c ap').bind fun (o, ap) =>
      outFormat o rest ap := by
  rw [outFormat, if_neg (not_not_intro rfl)]
  split
  · simp_all
  · simp_all
  · next d' c' rest' ap'' h' =>
    rw [h] at h'
    cases h'
    cases convert o d c ap' <;> rfl

end

/-- A bounded buffer that is empty. -/
def Out.buffer (buf : Nat → UInt8) (size : Nat) : Out := ⟨buf, size, 0, false, [], []⟩

/-- The console. -/
def Out.toConsole : Out := ⟨fun _ => 0, 0, 0, true, [], []⟩

/-- The NUL after the text, if there is any room. -/
def Out.terminated (o : Out) (size : Nat) : Out :=
  if size ≠ 0 then
    { o with buf := Function.update o.buf (if o.len < size then o.len else size - 1) 0 } else o

/-- What is returned, and what has been written. -/
def vsnprintf (buf : Nat → UInt8) (size : Nat) (fmt : List UInt8) (ap : List Arg) :
    Option (Int32 × Out) := do
  let o ← outFormat (.buffer buf size) fmt ap
  some (Int32.ofNat o.len, o.terminated size)

/-- For a file that is not the console, `errno` is set. -/
def vfprintf (f : FILE) (fmt : List UInt8) (ap : List Arg) : Option (Int32 × Out) :=
  if f.kind ≠ .console then some (-1, .toConsole)
  else do
    let o ← outFormat .toConsole fmt ap
    some (Int32.ofNat o.len, o)

/-! ## The text of a number -/

/-- What `outNum` gives out. -/
def numText (v : UInt64) (neg : Bool) (base : Nat) (upper : Bool) (width prec : Int)
    (flags : Flags) : List UInt8 :=
  let digits := numDigits v base upper prec
  let sign := numSign neg flags
  let before := numPrefix digits base upper flags
  let n : Int := digits.length
  let zeros := if n < prec then prec - n else 0
  let len := n + zeros + sign.length + before.length
  let fill := flags.zero && !flags.left && prec < 0 && len < width
  let (zeros, len) := if fill then (zeros + (width - len), width) else (zeros, len)
  let blanks := List.replicate (width - len).toNat ' '.toUInt8
  (if flags.left then [] else blanks) ++
    (sign ++ before ++ List.replicate zeros.toNat '0'.toUInt8 ++ digits.reverse) ++
    if flags.left then blanks else []

/-- The text that `outStr` prints. -/
def strText (s : List UInt8) (width : Int) (flags : Flags) : List UInt8 :=
  let blanks := List.replicate (width - s.length).toNat ' '.toUInt8
  (if flags.left then [] else blanks) ++ s ++ if flags.left then blanks else []

/-- What comes first is printed first. -/
lemma outText_append (o : Out) (s t : List UInt8) : outText o (s ++ t) = outText (outText o s) t :=
  List.foldl_append

/-- No text prints nothing. -/
lemma outText_nil (o : Out) : outText o [] = o := rfl

/-- What `outNum` prints is a text that does not depend on where it goes. -/
lemma outNum_eq (o : Out) (v : UInt64) (neg : Bool) (base : Nat) (upper : Bool) (width prec : Int)
    (flags : Flags) :
    outNum o v neg base upper width prec flags =
      outText o (numText v neg base upper width prec flags) := by
  unfold outNum numText
  cases flags.left
    <;> simp only [outText_append, outPad, Bool.false_eq_true, if_true, if_false, outText_nil]

/-- What `outStr` prints is a text that does not depend on where it goes. -/
lemma outStr_eq (o : Out) (s : List UInt8) (width : Int) (flags : Flags) :
    outStr o s width flags = outText o (strText s width flags) := by
  unfold outStr strText
  cases flags.left
    <;> simp only [outText_append, outPad, Bool.false_eq_true, if_true, if_false, outText_nil]

/-- What `outDouble` prints is a text that does not depend on where it goes. -/
lemma outDouble_eq (d : Float) (width prec : Int) (flags : Flags) :
    ∃ text, ∀ o, outDouble o d width prec flags = outText o text :=
  ⟨_, fun o => outStr_eq o _ width flags⟩

/-! ## Two outputs -/

/-- Both end, or both go on with the same arguments. -/
inductive Both (R : Out → Out → Prop) :
    Option (Out × List Arg) → Option (Out × List Arg) → Prop where
  | none : Both R none none
  | some {a b ap} : R a b → Both R (some (a, ap)) (some (b, ap))

section

variable {R : Out → Out → Prop} {a b : Out}

/-- A case distinction that is the same on both sides. -/
lemma Both.ite {p : Prop} [Decidable p] {x y x' y' : Option (Out × List Arg)} (pos : Both R x y)
    (neg : Both R x' y') :
    Both R (if p then x else x') (if p then y else y') := by
  split
  · exact pos
  · exact neg

/-- A value that is the same on both sides. -/
lemma Both.bind {α : Type} (r : Option α) {f g : α → Option (Out × List Arg)}
    (h : ∀ v, Both R (f v) (g v)) :
    Both R (r.bind f) (r.bind g) := by
  cases r with
  | none => exact .none
  | some v => exact h v

/-- What a character keeps a text keeps, by induction on it. -/
lemma outText_rel (char : ∀ a b c, R a b → R (outChar a c) (outChar b c)) (h : R a b)
    (s : List UInt8) :
    R (outText a s) (outText b s) := by
  induction s generalizing a b with
  | nil => exact h
  | cons c s ih => exact ih (char _ _ c h)

/-- What a conversion does to two outputs alike. -/
lemma convert_rel (char : ∀ a b c, R a b → R (outChar a c) (outChar b c))
    (store : ∀ a b p, R a b → R { a with stored := a.stored ++ [(p, Int32.ofNat a.len)] }
      { b with stored := b.stored ++ [(p, Int32.ofNat b.len)] }) (h : R a b) (d :
        Directive) (c : UInt8)
    (ap : List Arg) : Both R (convert a d c ap) (convert b d c ap) := by
  have num (v : UInt64) (neg : Bool) (base : Nat) (upper : Bool) (flags : Flags) :
      R (outNum a v neg base upper d.width d.prec flags)
        (outNum b v neg base upper d.width d.prec flags) := by
    rw [outNum_eq, outNum_eq]
    exact outText_rel char h _
  have str (s : List UInt8) : R (outStr a s d.width d.flags) (outStr b s d.width d.flags) := by
    rw [outStr_eq, outStr_eq]
    exact outText_rel char h _
  have double (v : Float) :
    R (outDouble a v d.width d.prec d.flags) (outDouble b v d.width d.prec d.flags) := by
    obtain ⟨text, out⟩ := outDouble_eq v d.width d.prec d.flags
    rw [out, out]
    exact outText_rel char h _
  unfold convert
  apply Both.ite
  · exact .bind _ fun _ => .some (num _ _ _ _ _)
  apply Both.ite
  · exact .bind _ fun _ => .some (num _ _ _ _ _)
  apply Both.ite
  · exact .bind _ fun _ => .some (num _ _ _ _ _)
  apply Both.ite
  · exact .bind _ fun _ => .some (str _)
  apply Both.ite
  · exact .bind _ fun _ => .bind _ fun _ => .some (str _)
  apply Both.ite
  · exact .bind _ fun _ => .some (double _)
  apply Both.ite
  · exact .bind _ fun _ => .some (store _ _ _ h)
  apply Both.ite
  · exact .some (char _ _ _ h)
  · exact .some (char _ _ _ (char _ _ _ h))

/-- What keeps two outputs alike for a character and for `%n` keeps them so for every format. -/
lemma outFormat_rel (char : ∀ a b c, R a b → R (outChar a c) (outChar b c))
    (store : ∀ a b p, R a b → R { a with stored := a.stored ++ [(p, Int32.ofNat a.len)] }
      { b with stored := b.stored ++ [(p, Int32.ofNat b.len)] }) (fmt : List UInt8) (ap :
        List Arg) (h : R a b) :
    (outFormat a fmt ap = none ∧ outFormat b fmt ap = none) ∨
      ∃ a' b', outFormat a fmt ap = some a' ∧ outFormat b fmt ap = some b' ∧ R a' b' := by
  fun_induction outFormat a fmt ap generalizing b with
  | case1 o ap => exact .inr ⟨o, b, rfl, outFormat_nil, h⟩
  | case2 o ap c fmt other ih =>
    rw [outFormat_char other]
    exact ih (char _ _ _ h)
  | case3 o ap c fmt percent bad =>
    obtain rfl := not_not.mp percent
    exact .inl ⟨rfl, outFormat_none bad⟩
  | case4 o ap c fmt percent d ap' last =>
    obtain rfl := not_not.mp percent
    exact .inr ⟨o, b, rfl, outFormat_end last, h⟩
  | case5 o ap c fmt percent d conv rest ap' directive le failed =>
    obtain rfl := not_not.mp percent
    rw [outFormat_convert directive]
    have both := convert_rel char store h d conv ap'
    rw [failed] at both
    generalize convert b d conv ap' = y at both
    cases both
    exact .inl ⟨rfl, rfl⟩
  | case6 o ap c fmt percent d conv rest ap' directive le o' ap'' converted ih =>
    obtain rfl := not_not.mp percent
    rw [outFormat_convert directive]
    have both := convert_rel char store h d conv ap'
    rw [converted] at both
    generalize convert b d conv ap' = y at both
    cases both with
    | some h => exact ih h

end

/-! ## The buffer -/

/-- The buffer has as much of what the console has been given as there is room for. -/
structure Bounded (init : Nat → UInt8) (n : Nat) (b c : Out) : Prop where
  bounded : b.console = false
  console : c.console = true
  size : b.size = n
  len : b.len = c.printed.length
  counted : c.len = c.printed.length
  inside : ∀ i (h : i < c.printed.length), i + 1 < n → b.buf i = c.printed[i]
  outside : ∀ i, c.printed.length ≤ i ∨ n ≤ i + 1 → b.buf i = init i
  stored : b.stored = c.stored

/-- The console prints every character. -/
lemma outChar_console {o : Out} (h : o.console = true) (c : UInt8) :
    outChar o c = { o with printed := o.printed ++ [c], len := o.len + 1 } := by
  simp only [outChar, h, if_true]

/-- A character is the next one of a buffer that has room for it. -/
lemma outChar_buffer {o : Out} (h : o.console = false) (c : UInt8) :
    ∃ buf, outChar o c = { o with buf := buf, len := o.len + 1 } ∧
      ∀ i, buf i = if i = o.len ∧ i + 1 < o.size then c else o.buf i := by
  by_cases room : o.len + 1 < o.size
  · refine ⟨Function.update o.buf o.len c, ?_, fun i => ?_⟩
    · simp only [outChar, h, room, if_true, Bool.false_eq_true, if_false]
    · by_cases last : i = o.len
      · subst last
        rw [Function.update_self, if_pos ⟨rfl, room⟩]
      · rw [Function.update_of_ne last, if_neg (fun e => last e.1)]
  · refine ⟨o.buf, ?_, fun i => ?_⟩
    · simp only [outChar, h, room, Bool.false_eq_true, if_false]
    · rw [if_neg]
      rintro ⟨rfl, lt⟩
      exact room lt

/-- A character more keeps both sides related, whether or not the buffer has room for it. -/
lemma Bounded.char {init : Nat → UInt8} {n : Nat} {b c : Out} (ch : UInt8)
    (h : Bounded init n b c) :
    Bounded init n (outChar b ch) (outChar c ch) := by
  obtain ⟨buf, buffer, written⟩ := outChar_buffer h.bounded ch
  rw [outChar_console h.console, buffer]
  have length : (c.printed ++ [ch]).length = c.printed.length + 1 := List.length_append
  refine ⟨h.bounded, h.console, h.size, ?_, ?_, ?_, ?_, h.stored⟩
  · exact (congrArg (· + 1) h.len).trans length.symm
  · exact (congrArg (· + 1) h.counted).trans length.symm
  · intro i lt room
    show buf i = (c.printed ++ [ch])[i]
    rw [written, h.len, h.size]
    obtain before | rfl := Nat.lt_succ_iff_lt_or_eq.mp (length ▸ lt : i < c.printed.length + 1)
    · rw [if_neg (fun e => before.ne e.1), List.getElem_append_left before]
      exact h.inside i before room
    · rw [if_pos ⟨rfl, room⟩, List.getElem_concat_length rfl]
  · intro i out
    have out : c.printed.length + 1 ≤ i ∨ n ≤ i + 1 := length ▸ out
    show buf i = init i
    rw [written, h.len, h.size, if_neg (by omega)]
    exact h.outside i (by omega)

/-- Storing the count keeps both sides related. -/
lemma Bounded.store {init : Nat → UInt8} {n : Nat} {b c : Out} (p : UInt64)
    (h : Bounded init n b c) :
    Bounded init n { b with stored := b.stored ++ [(p, Int32.ofNat b.len)] }
      { c with stored := c.stored ++ [(p, Int32.ofNat c.len)] } := by
  refine ⟨h.bounded, h.console, h.size, h.len, h.counted, h.inside, h.outside, ?_⟩
  show b.stored ++ _ = c.stored ++ _
  rw [h.stored, h.len, h.counted]

/-- They are related at the start. -/
lemma Bounded.start (init : Nat → UInt8) (n : Nat) : Bounded init n (.buffer init n) .toConsole :=
  ⟨rfl, rfl, rfl, rfl, rfl, fun _ h => absurd h (Nat.not_lt_zero _), fun _ _ => rfl, rfl⟩

/-- The two paths for one format: neither has a result, or the buffer is as `Bounded` says. -/
lemma outFormat_bounded (init : Nat → UInt8) (n : Nat) (fmt : List UInt8) (ap : List Arg) :
    (outFormat (.buffer init n) fmt ap = none ∧ outFormat .toConsole fmt ap = none) ∨
      ∃ b c, outFormat (.buffer init n) fmt ap = some b ∧ outFormat .toConsole fmt ap = some c ∧
        Bounded init n b c :=
  outFormat_rel (fun _ _ ch => Bounded.char ch) (fun _ _ p => Bounded.store p) fmt ap
    (.start init n)

/-- The console prints the whole text. -/
lemma outText_console {o : Out} (h : o.console = true) (s : List UInt8) :
    outText o s = { o with printed := o.printed ++ s, len := o.len + s.length } := by
  induction s generalizing o with
  | nil =>
    rw [List.append_nil]
    rfl
  | cons c s ih =>
    show outText (outChar o c) s = _
    have next : (outChar o c).console = true := by
      rw [outChar_console h]
      exact h
    rw [ih next, outChar_console h]
    show ({ o with printed := o.printed ++ [c] ++ s, len := o.len + 1 + s.length } : Out) = _
    rw [List.append_assoc, Nat.add_assoc, Nat.add_comm 1]
    rfl

/-- `stdout` -/
def console : FILE := ⟨.console, [], 0, 0, false, false⟩

/-- On the console `vfprintf` prints the formatted text and returns its length. -/
lemma vfprintf_console {f : FILE} (stream : f.kind = .console) (fmt : List UInt8) (ap : List Arg) :
    vfprintf f fmt ap = (outFormat .toConsole fmt ap).map fun o => (Int32.ofNat o.len, o) := by
  rw [vfprintf, if_neg (not_not_intro stream)]
  cases outFormat .toConsole fmt ap <;> rfl

/-- The terminating zero leaves what `%n` stored alone. -/
lemma Out.terminated_stored (o : Out) (size : Nat) : (o.terminated size).stored = o.stored := by
  unfold terminated
  split <;> rfl

/-- The NUL is inside the buffer. -/
lemma Out.terminated_outside (o : Out) {size i : Nat} (out : size ≤ i) :
    (o.terminated size).buf i = o.buf i := by
  unfold terminated
  split
  · apply Function.update_of_ne
    split <;> omega
  · rfl

/-- The terminating zero stands behind the text, or at the end of the buffer. -/
lemma Out.terminated_buf {o : Out} {size : Nat} (room : size ≠ 0) :
    (o.terminated size).buf = Function.update o.buf (min o.len (size - 1)) 0 := by
  have ends : (if o.len < size then o.len else size - 1) = min o.len (size - 1) := by
    split <;> omega
  rw [terminated, if_pos room, ends]

/-- A count below 2^31 is an `int`. -/
lemma int32_ofNat_small {n : Nat} (small : n < 2 ^ 31) : (Int32.ofNat n).toInt = n := by
  exact Int32.toInt_ofNat_of_lt small

/-- A conversion of one character. -/
lemma outFormat_c (o : Out) (width : Int) {fmt : List UInt8} (rest : List UInt8) {v : UInt32}
    {ap : List Arg} (h : directiveOf fmt (.int v :: ap) =
      some (⟨.none, width, -1, 0⟩, 'c'.toUInt8 :: rest, .int v :: ap)) :
    outFormat o ('%'.toUInt8 :: fmt) (.int v :: ap) =
      outFormat (outText o (strText [v.toUInt8] width .none)) rest ap := by
  rw [outFormat_convert h]
  show outFormat (outStr o [v.toUInt8] width .none) rest ap = _
  rw [outStr_eq]

/-- A string is printed whole, and padded to the width. -/
lemma strText_length (s : List UInt8) (width : Int) (flags : Flags) :
    (strText s width flags).length = max s.length width.toNat := by
  unfold strText
  cases flags.left <;>
    simp only [Bool.false_eq_true, if_true, if_false, List.append_nil, List.nil_append,
      List.length_append, List.length_replicate] <;> omega

end Hearth.Doom
