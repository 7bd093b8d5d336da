import Hearth.Doom.Numbers

/-!
# Integer conversions

What the C standard prescribes for `d`, `i`, `u`, `x`, `X` and `o`, against what
`out_format` prints for them. The code reads a width or a precision that is written into an
`int`; here it may be any number, and the comparison is one of the code as long as an `int`
holds it, as the standard asks of a format.
-/

namespace Hearth.Doom

/-- The flags of a conversion specification. -/
inductive Flag where
  | minus
  | plus
  | space
  | alt
  | zero
  deriving DecidableEq, Repr

/-- How a flag is written. -/
def Flag.char : Flag → UInt8
  | minus => '-'.toUInt8
  | plus => '+'.toUInt8
  | space => ' '.toUInt8
  | alt => '#'.toUInt8
  | zero => '0'.toUInt8

/-- A width that is written does not start with a 0, which is a flag. -/
inductive Width where
  | omitted
  | number (first : Fin 10) (rest : List (Fin 10)) (pos : first.1 ≠ 0)
  | star (w : Int32)

/-- The precision of a specification: none, digits after the point, or an argument. -/
inductive Precision where
  | omitted
  | number (digits : List (Fin 10))
  | star (p : Int32)

/-- The length modifiers. -/
inductive Length where
  | int
  | hh
  | h
  | l
  | ll
  | j
  | z
  | t
  deriving DecidableEq, Repr

/-- The integer conversions. -/
inductive Conversion where
  | d
  | i
  | u
  | x
  | X
  | o
  deriving DecidableEq, Repr

/-- A conversion specification, with the arguments of its width and its precision. -/
structure Spec where
  flags : List Flag
  width : Width
  prec : Precision
  length : Length
  conv : Conversion

/-! ## Their format and their arguments -/

/-- A number as it is written. -/
def decimalChars (digits : List (Fin 10)) : List UInt8 := digits.map fun d => digitChar false d.1

/-- How a width is written. -/
def Width.chars : Width → List UInt8
  | omitted => []
  | number first rest _ => decimalChars (first :: rest)
  | star _ => ['*'.toUInt8]

/-- The argument it takes, if it is a star. -/
def Width.args : Width → List Arg
  | omitted | number .. => []
  | star w => [.int w.toUInt32]

/-- How a precision is written. -/
def Precision.chars : Precision → List UInt8
  | omitted => []
  | number digits => '.'.toUInt8 :: decimalChars digits
  | star _ => ['.'.toUInt8, '*'.toUInt8]

/-- The argument it takes, if it is a star. -/
def Precision.args : Precision → List Arg
  | omitted | number _ => []
  | star p => [.int p.toUInt32]

/-- How a length modifier is written. -/
def Length.chars : Length → List UInt8
  | int => []
  | hh => ['h'.toUInt8, 'h'.toUInt8]
  | h => ['h'.toUInt8]
  | l => ['l'.toUInt8]
  | ll => ['l'.toUInt8, 'l'.toUInt8]
  | j => ['j'.toUInt8]
  | z => ['z'.toUInt8]
  | t => ['t'.toUInt8]

/-- How a conversion is written. -/
def Conversion.char : Conversion → UInt8
  | d => 'd'.toUInt8
  | i => 'i'.toUInt8
  | u => 'u'.toUInt8
  | x => 'x'.toUInt8
  | X => 'X'.toUInt8
  | o => 'o'.toUInt8

/-- The argument is passed as a `long`. -/
def Length.long : Length → Bool
  | int | hh | h => false
  | l | ll | j | z | t => true

namespace Spec

/-- The specification as text. -/
def format (s : Spec) : List UInt8 :=
  '%'.toUInt8 ::
    (s.flags.map Flag.char ++
      (s.width.chars ++ (s.prec.chars ++ (s.length.chars ++ [s.conv.char]))))

/-- The arguments for an integer of these bits: a `long`, or an `int` of the lower ones. -/
def args (s : Spec) (value : UInt64) : List Arg :=
  s.width.args ++ (s.prec.args ++ [if s.length.long then .long value else .int value.toUInt32])

/-! ## What the standard prescribes -/

/-- The field is left-justified: by a flag, or by a width that is negative. -/
def left (s : Spec) : Bool :=
  match s.width with
  | .star w => Flag.minus ∈ s.flags || w.toInt < 0
  | _ => Flag.minus ∈ s.flags

/-- The least number of characters; a negative argument counts as positive, with the flag `-`. -/
def minWidth (s : Spec) : Nat :=
  match s.width with
  | .omitted => 0
  | .number first rest _ => Nat.ofDigits 10 ((first :: rest).map Fin.val).reverse
  | .star w => w.toInt.natAbs

/-- A negative precision is taken as if it were omitted. -/
def precision (s : Spec) : Option Nat :=
  match s.prec with
  | .omitted => none
  | .number digits => some (Nat.ofDigits 10 (digits.map Fin.val).reverse)
  | .star p => if p.toInt < 0 then none else some p.toInt.toNat

/-- The argument is signed. -/
def signed (s : Spec) : Bool := s.conv = .d || s.conv = .i

/-- The base of the conversion. -/
def base (s : Spec) : Nat :=
  match s.conv with
  | .d | .i | .u => 10
  | .x | .X => 16
  | .o => 8

/-- Letters among the digits are capital for `X`. -/
def upper (s : Spec) : Bool := s.conv = .X

/-- The argument after its conversion to the type that its length says. -/
def signedValue (s : Spec) (value : UInt64) : Int :=
  match s.length with
  | .hh => value.toUInt8.toInt8.toInt
  | .h => value.toUInt16.toInt16.toInt
  | .int => value.toUInt32.toInt32.toInt
  | .l | .ll | .j | .z | .t => value.toInt64.toInt

/-- The argument converted to the unsigned type of the length modifier. -/
def unsignedValue (s : Spec) (value : UInt64) : Nat :=
  match s.length with
  | .hh => value.toUInt8.toNat
  | .h => value.toUInt16.toNat
  | .int => value.toUInt32.toNat
  | .l | .ll | .j | .z | .t => value.toNat

/-- The value without its sign. -/
def magnitude (s : Spec) (value : UInt64) : Nat :=
  if s.signed then (s.signedValue value).natAbs else s.unsignedValue value

/-- What is printed in front for the sign. -/
def sign (s : Spec) (value : UInt64) : List UInt8 :=
  if s.signed then
    if s.signedValue value < 0 then ['-'.toUInt8]
    else if Flag.plus ∈ s.flags then ['+'.toUInt8]
    else if Flag.space ∈ s.flags then [' '.toUInt8]
    else []
  else []

/-- A number with at least so many digits. -/
def numeral (s : Spec) (least n : Nat) : List UInt8 :=
  let digits := ((Nat.digits s.base n).map (digitChar s.upper)).reverse
  List.replicate (least - digits.length) '0'.toUInt8 ++ digits

/-- The digits of the precision, which is 1 if it is omitted; `#` increases it for
`o` if the first one is no 0. -/
def digits (s : Spec) (value : UInt64) : List UInt8 :=
  let digits := s.numeral (s.precision.getD 1) (s.magnitude value)
  if Flag.alt ∈ s.flags ∧ s.conv = .o ∧ digits.head? ≠ some '0'.toUInt8 then
    '0'.toUInt8 :: digits else digits

/-- The prefix of a hexadecimal number that is not 0. -/
def before (s : Spec) (value : UInt64) : List UInt8 :=
  if Flag.alt ∈ s.flags ∧ s.base = 16 ∧ s.magnitude value ≠ 0 then
    ['0'.toUInt8, if s.upper then 'X'.toUInt8 else 'x'.toUInt8]
  else []

/-- What has to be printed. -/
def text (s : Spec) (value : UInt64) : List UInt8 :=
  let number := s.sign value ++ s.before value
  let fill := s.minWidth - (number ++ s.digits value).length
  if s.left then number ++ s.digits value ++ List.replicate fill ' '.toUInt8
  else if Flag.zero ∈ s.flags ∧ s.precision = none then
    number ++ List.replicate fill '0'.toUInt8 ++ s.digits value
  else List.replicate fill ' '.toUInt8 ++ number ++ s.digits value

end Spec

/-! ## How they are read -/

/-- The flags with some more. -/
def Flags.and (flags : Flags) (more : List Flag) : Flags where
  left := flags.left || Flag.minus ∈ more
  plus := flags.plus || Flag.plus ∈ more
  space := flags.space || Flag.space ∈ more
  alt := flags.alt || Flag.alt ∈ more
  zero := flags.zero || Flag.zero ∈ more

/-- What follows the flags. -/
def NoFlag (fmt : List UInt8) : Prop := ∀ flags : Flags, ∀ c ∈ fmt.head?, flags.set c = none

/-- The text does not start with a digit. -/
def NoDigit (fmt : List UInt8) : Prop := ∀ c ∈ fmt.head?, isdigit c = false

/-- What starts with another character starts with no flag. -/
lemma noFlag_cons {c : UInt8} (fmt : List UInt8)
    (h : c ∉ ['-', '+', ' ', '#', '0'].map Char.toUInt8) :
    NoFlag (c :: fmt) := by
  intro flags c' mem
  obtain rfl : c = c' := Option.some.inj mem
  simp only [List.map_cons, List.map_nil, List.mem_cons, List.not_mem_nil, or_false, not_or] at h
  rw [Flags.set, if_neg h.1, if_neg h.2.1, if_neg h.2.2.1, if_neg h.2.2.2.1, if_neg h.2.2.2.2]

/-- The flags of a specification are read, and nothing else. -/
lemma flagsOf_chars (more : List Flag) (flags : Flags) {fmt : List UInt8} (h : NoFlag fmt) :
    flagsOf flags (more.map Flag.char ++ fmt) = (flags.and more, fmt) := by
  induction more generalizing flags with
  | nil =>
    have same : flags.and [] = flags := by simp [Flags.and]
    rw [same]
    cases fmt with
    | nil => rfl
    | cons c fmt =>
      show flagsOf flags (c :: fmt) = _
      rw [flagsOf, h flags c rfl]
  | cons flag more ih =>
    have set : ∃ next :
      Flags, flags.set flag.char = some next ∧ next.and more = flags.and (flag :: more) := by
      cases flag
      all_goals
        refine ⟨_, rfl, ?_⟩
        simp [Flags.and]
    obtain ⟨next, set, same⟩ := set
    rw [List.map_cons, List.cons_append, flagsOf, set, ← same]
    exact ih next

/-- The characters of the digits are digits, with the values they stand for. -/
lemma isdigit_digitChar : ∀ d : Fin 10, isdigit (digitChar false d.1) = true ∧
    (digitChar false d.1).toNat = '0'.toNat + d.1 := by
  decide

/-- A number is read as it is written. -/
lemma numberOf_digits (digits : List (Fin 10)) (n : Nat) {fmt : List UInt8} (h : NoDigit fmt) :
    numberOf n (decimalChars digits ++ fmt) =
      (((digits.foldl (fun n d => n * 10 + d.1) n : Nat) : Int), fmt) := by
  induction digits generalizing n with
  | nil =>
    cases fmt with
    | nil => rfl
    | cons c fmt =>
      show numberOf n (c :: fmt) = _
      rw [numberOf, h c rfl]
      rfl
  | cons d digits ih =>
    obtain ⟨digit, value⟩ := isdigit_digitChar d
    show numberOf n (digitChar false d.1 :: (decimalChars digits ++ fmt)) = _
    rw [numberOf, digit, if_pos rfl, value]
    have next : (n * 10 + ((('0'.toNat + d.1 : Nat) : Int) - '0'.toNat) : Int) =
      ((n * 10 + d.1 : Nat) : Int) := by
      omega
    rw [next]
    exact ih (n * 10 + d.1)

/-- That is the number its digits stand for. -/
lemma foldl_digits (digits : List (Fin 10)) :
    digits.foldl (fun n d => n * 10 + d.1) 0 = Nat.ofDigits 10 (digits.map Fin.val).reverse := by
  rw [Nat.ofDigits_eq_foldr, List.foldr_reverse, List.foldl_map]
  congr 1
  funext n d
  rw [Nat.mul_comm, Nat.add_comm]
  rfl

/-- What follows the precision: neither a digit, nor a flag, nor what starts another part. -/
lemma tail_start (length : Length) (conv : Conversion) :
    ∃ c rest, length.chars ++ [conv.char] = c :: rest ∧
      c ∉ ['-', '+', ' ', '#', '0'].map Char.toUInt8 ∧
      isdigit c = false ∧ c ≠ '*'.toUInt8 ∧ c ≠ '.'.toUInt8 := by
  cases length <;> cases conv <;> exact ⟨_, _, rfl, by decide, by decide, by decide, by decide⟩

/-- How often the length says `long`. -/
def Length.lng : Length → Nat
  | int | hh | h => 0
  | l | j | z | t => 1
  | ll => 2

/-- The length modifier is read. -/
lemma lengthOf_chars (length : Length) (conv : Conversion) :
    lengthOf 0 (length.chars ++ [conv.char]) = (length.lng, [conv.char]) := by
  cases length <;> cases conv <;> decide

/-- The precision as the code has it. -/
def Precision.value : Precision → Int
  | omitted => -1
  | number digits => (Nat.ofDigits 10 (digits.map Fin.val).reverse : Nat)
  | star p => p.toInt

/-- The precision is read, with its argument if it takes one. -/
lemma precOf_chars (prec : Precision) (length : Length) (conv : Conversion) (ap : List Arg) :
    precOf (prec.chars ++ (length.chars ++ [conv.char])) (prec.args ++ ap) =
      some (prec.value, length.chars ++ [conv.char], ap) := by
  obtain ⟨c, rest, tail, _, no_digit, no_star, no_dot⟩ := tail_start length conv
  have stop : NoDigit (c :: rest) := by
    intro c' mem
    obtain rfl : c = c' := Option.some.inj mem
    exact no_digit
  rw [tail]
  cases prec with
  | omitted =>
    rw [precOf, if_neg]
    · rfl
    · exact fun e => no_dot (Option.some.inj e)
  | number digits =>
    have read := numberOf_digits digits 0 stop
    rw [foldl_digits] at read
    -- a digit is no star, and neither is what follows the precision
    have no_star : (decimalChars digits ++ c :: rest).head? ≠ some '*'.toUInt8 := by
      cases digits with
      | nil => exact fun e => no_star (Option.some.inj e)
      | cons d digits =>
        intro e
        have star : digitChar false d.1 = '*'.toUInt8 := Option.some.inj e
        have digit := (isdigit_digitChar d).1
        rw [star] at digit
        cases digit
    have dot : ((Precision.number digits).chars ++ c :: rest).head? = some '.'.toUInt8 := rfl
    rw [precOf, if_pos dot]
    show (if (decimalChars digits ++ c :: rest).head? = some '*'.toUInt8 then _ else _) = _
    rw [if_neg no_star]
    show some ((numberOf (0 : Nat) (decimalChars digits ++ c :: rest)).1,
      (numberOf (0 : Nat) (decimalChars digits ++ c :: rest)).2, ap) = _
    rw [read]
    rfl
  | star p =>
    have read : numberOf p.toInt (c :: rest) = (p.toInt, c :: rest) := by
      rw [numberOf, no_digit]
      rfl
    have dot : ((Precision.star p).chars ++ c :: rest).head? = some '.'.toUInt8 := rfl
    have star : ((Precision.star p).chars ++ c :: rest).tail.head? = some '*'.toUInt8 := rfl
    rw [precOf, if_pos dot, if_pos star]
    show some ((numberOf p.toInt (c :: rest)).1, (numberOf p.toInt (c :: rest)).2, ap) = _
    rw [read]
    rfl

/-- What follows the width. -/
lemma afterWidth_start (prec : Precision) (length : Length) (conv : Conversion) :
    ∃ c rest, prec.chars ++ (length.chars ++ [conv.char]) = c :: rest ∧
      c ∉ ['-', '+', ' ', '#', '0'].map Char.toUInt8 ∧ isdigit c = false ∧ c ≠ '*'.toUInt8 := by
  cases prec with
  | omitted =>
    obtain ⟨c, rest, tail, no_flag, no_digit, no_star, _⟩ := tail_start length conv
    exact ⟨c, rest, tail, no_flag, no_digit, no_star⟩
  | number digits => exact ⟨_, _, rfl, by decide, by decide, by decide⟩
  | star p => exact ⟨_, _, rfl, by decide, by decide, by decide⟩

/-- No digit is taken for a star, and none but zero for a flag. -/
lemma first_digit : ∀ d : Fin 10, digitChar false d.1 ≠ '*'.toUInt8 ∧
    (d.1 ≠ 0 → digitChar false d.1 ∉ ['-', '+', ' ', '#', '0'].map Char.toUInt8) := by
  decide

/-- What the flags and the width come to. -/
def Spec.readFlags (s : Spec) : Flags where
  left := s.left
  plus := Flag.plus ∈ s.flags
  space := Flag.space ∈ s.flags
  alt := Flag.alt ∈ s.flags
  zero := Flag.zero ∈ s.flags

/-- A width does not start with a flag. -/
lemma Spec.noFlag_width (s : Spec) {fmt : List UInt8} (h : NoFlag fmt) :
    NoFlag (s.width.chars ++ fmt) := by
  cases width : s.width with
  | omitted => exact h
  | number first rest pos => exact noFlag_cons _ ((first_digit first).2 pos)
  | star w => exact noFlag_cons _ (by decide)

/-- The width is read, with its argument if it takes one. -/
lemma Spec.widthOf_chars (s : Spec) {c : UInt8} (fmt : List UInt8) (no_digit : isdigit c = false)
    (no_star : c ≠ '*'.toUInt8) (ap : List Arg) :
    widthOf (Flags.none.and s.flags) (s.width.chars ++ c :: fmt) (s.width.args ++ ap) =
      some (s.readFlags, (s.minWidth : Int), c :: fmt, ap) := by
  have stop : NoDigit (c :: fmt) := by
    intro c' mem
    obtain rfl : c = c' := Option.some.inj mem
    exact no_digit
  cases width : s.width with
  | omitted =>
    have none : (Width.omitted.chars ++ c :: fmt).head? ≠ some '*'.toUInt8 :=
      fun e => no_star (Option.some.inj e)
    have flags : Flags.none.and s.flags =
      s.readFlags := by simp [Flags.and, Flags.none, readFlags, left, width]
    rw [widthOf, if_neg none]
    show some (_, (numberOf 0 (c :: fmt)).1, (numberOf 0 (c :: fmt)).2, ap) = _
    rw [numberOf, no_digit, flags]
    simp only [minWidth, width]
    rfl
  | number first rest pos =>
    have none : ((Width.number first rest pos).chars ++ c :: fmt).head? ≠ some '*'.toUInt8 :=
      fun e => (first_digit first).1 (Option.some.inj e)
    have flags : Flags.none.and s.flags =
      s.readFlags := by simp [Flags.and, Flags.none, readFlags, left, width]
    have read := numberOf_digits (first :: rest) 0 stop
    rw [foldl_digits] at read
    rw [widthOf, if_neg none]
    show some (_, (numberOf (0 : Nat) (decimalChars (first :: rest) ++ c :: fmt)).1,
      (numberOf (0 : Nat) (decimalChars (first :: rest) ++ c :: fmt)).2, ap) = _
    rw [read, flags]
    simp only [minWidth, width]
  | star w =>
    -- a negative argument is a flag `-` and a width
    have star : ((Width.star w).chars ++ c :: fmt).head? = some '*'.toUInt8 := rfl
    have read (n : Int) : numberOf n (c :: fmt) = (n, c :: fmt) := by
      rw [numberOf, no_digit]
      rfl
    have unfolded :
      widthOf (Flags.none.and s.flags) ((Width.star w).chars ++ c :: fmt)
        ((Width.star w).args ++ ap) =
        some ((if w.toInt < 0 then ({ Flags.none.and s.flags with left := true }, -w.toInt)
          else (Flags.none.and s.flags, w.toInt) : Flags × Int).1,
        (if w.toInt < 0 then ({ Flags.none.and s.flags with left := true }, -w.toInt)
          else (Flags.none.and s.flags, w.toInt) : Flags × Int).2, c :: fmt, ap) := by
      rw [widthOf, if_pos star]
      show some (_, (numberOf _ (c :: fmt)).1, (numberOf _ (c :: fmt)).2, ap) = _
      rw [read]
      rfl
    rw [unfolded]
    by_cases negative : w.toInt < 0
    · have flags : ({ Flags.none.and s.flags with left := true } : Flags) = s.readFlags := by
        simp [Flags.and, Flags.none, readFlags, left, width, negative]
      have least : -w.toInt = (s.minWidth : Int) := by
        simp only [minWidth, width]
        omega
      rw [if_pos negative, flags, least]
    · have flags : Flags.none.and s.flags = s.readFlags := by
        simp [Flags.and, Flags.none, readFlags, left, width, negative]
      have least : w.toInt = (s.minWidth : Int) := by
        simp only [minWidth, width]
        omega
      rw [if_neg negative, flags, least]

/-- The argument as it is passed. -/
def Spec.arg (s : Spec) (value : UInt64) : Arg :=
  if s.length.long then .long value else .int value.toUInt32

/-- A specification is read back from its text. -/
lemma Spec.directive (s : Spec) (value : UInt64) :
    directiveOf (s.flags.map Flag.char ++
      (s.width.chars ++ (s.prec.chars ++ (s.length.chars ++ [s.conv.char]))))
        (s.args value) =
      some (⟨s.readFlags, s.minWidth, s.prec.value, s.length.lng⟩, [s.conv.char],
        [s.arg value]) := by
  obtain ⟨c, rest, tail, no_flag, no_digit, no_star⟩ := afterWidth_start s.prec s.length s.conv
  have flags := flagsOf_chars s.flags .none (s.noFlag_width (noFlag_cons rest no_flag))
  have width := s.widthOf_chars rest no_digit no_star (s.prec.args ++ [s.arg value])
  have prec := precOf_chars s.prec s.length s.conv [s.arg value]
  rw [← tail] at flags width
  unfold directiveOf
  rw [flags]
  show (widthOf _ _ (s.width.args ++ (s.prec.args ++ [s.arg value]))).bind _ = _
  rw [width]
  show (precOf _ _).bind _ = _
  rw [prec]
  show some (Directive.mk _ _ _ (lengthOf 0 _).1, (lengthOf 0 _).2, _) = _
  rw [lengthOf_chars]

/-- The argument as `va_arg` gives it. -/
def Spec.passed (s : Spec) (value : UInt64) : UInt64 :=
  if s.length.long then value else value.toUInt32.toUInt64

/-- The argument as the signed type has it. -/
def Spec.passedSigned (s : Spec) (value : UInt64) : Int64 :=
  if s.length.long then value.toInt64 else value.toUInt32.toInt32.toInt64

/-- The argument is read as the signed type of the length modifier. -/
lemma Spec.vaSigned_arg (s : Spec) (value : UInt64) :
    vaSigned s.length.lng [s.arg value] = some (s.passedSigned value, []) := by
  unfold arg passedSigned
  cases s.length <;> rfl

/-- The argument is read as the unsigned type of the length modifier. -/
lemma Spec.vaUnsigned_arg (s : Spec) (value : UInt64) :
    vaUnsigned s.length.lng [s.arg value] = some (s.passed value, []) := by
  unfold arg passed
  cases s.length <;> rfl

/-- What is printed for a conversion. -/
def Spec.printed (s : Spec) (value : UInt64) : List UInt8 :=
  if s.signed then
    numText (Doom.magnitude (s.passedSigned value))
      (s.passedSigned value < 0) 10 false s.minWidth s.prec.value s.readFlags
  else numText (s.passed value) false s.base s.upper s.minWidth s.prec.value s.readFlags

/-- The conversion prints what `printed` says. -/
lemma Spec.convert_arg (s : Spec) (value : UInt64) (o : Out) :
    convert o ⟨s.readFlags, s.minWidth, s.prec.value, s.length.lng⟩ s.conv.char [s.arg value] =
      some (outText o (s.printed value), []) := by
  have signed := s.vaSigned_arg value
  have unsigned := s.vaUnsigned_arg value
  unfold printed Spec.signed base upper
  cases s.conv
  case d | i =>
    show (vaSigned _ _).bind _ = _
    rw [signed]
    show some (outNum _ _ _ _ _ _ _ _, _) = _
    rw [outNum_eq]
    rfl
  all_goals
    show (vaUnsigned _ _).bind _ = _
    rw [unsigned]
    show some (outNum _ _ _ _ _ _ _ _, _) = _
    rw [outNum_eq]
    rfl

/-- A conversion prints its text and nothing else. -/
lemma Spec.outFormat_format (s : Spec) (value : UInt64) :
    outFormat .toConsole s.format (s.args value) = some (outText .toConsole (s.printed value)) := by
  rw [format, outFormat_convert (s.directive value), s.convert_arg value]
  exact outFormat_nil

/-! ## What has to be printed, as what is printed for other flags -/

/-- The digits are those of the number in its base. -/
lemma digitsOf_eq {base : Nat} (h : Base base) (upper : Bool) (n : Nat) :
    digitsOf base upper n = (Nat.digits base n).map (digitChar upper) := by
  have two := h.two_le
  induction n using Nat.strongRecOn with
  | _ n ih =>
    by_cases pos : n = 0
    · rw [pos, digitsOf_zero, Nat.digits_zero]
      rfl
    · rw [digitsOf_pos h pos, Nat.digits_def' two (Nat.pos_of_ne_zero pos), List.map_cons,
        ih (n / base) (Nat.div_lt_self (Nat.pos_of_ne_zero pos) two)]

/-- Only zero is written as zero. -/
lemma digitChar_ne_zero (upper : Bool) : ∀ d < 16, d ≠ 0 → digitChar upper d ≠ '0'.toUInt8 := by
  cases upper <;> decide

/-- The first digit of a number that is not 0 is not 0. -/
lemma digitsOf_getLast {base : Nat} (h : Base base) (upper : Bool) {n : Nat} (pos : n ≠ 0) :
    ∃ c, (digitsOf base upper n).getLast? = some c ∧ c ≠ '0'.toUInt8 := by
  have some_digit : Nat.digits base n ≠ [] := Nat.digits_ne_nil_iff_ne_zero.mpr pos
  refine ⟨_, by rw [digitsOf_eq h, List.getLast?_map,
    List.getLast?_eq_some_getLast some_digit]; rfl, ?_⟩
  apply digitChar_ne_zero
  · exact Nat.lt_of_lt_of_le (Nat.digits_lt_base h.two_le (List.getLast_mem some_digit)) h.le
  · exact Nat.getLast_digit_ne_zero base pos

namespace Spec

variable (s : Spec) (value : UInt64)

/-- The bases are among those the guest can print. -/
lemma base_base : Base s.base := by
  unfold base
  cases s.conv <;> simp [Base]

/-- An unsigned argument has 64 bits at most. -/
lemma unsignedValue_lt : s.unsignedValue value < 2 ^ 64 := by
  unfold unsignedValue
  have := value.toUInt8.toNat_lt
  have := value.toUInt16.toNat_lt
  have := value.toUInt32.toNat_lt
  have := value.toNat_lt
  cases s.length <;> simp only <;> omega

/-- A signed argument has 64 bits at most. -/
lemma signedValue_bounds : -2 ^ 63 ≤ s.signedValue value ∧ s.signedValue value < 2 ^ 63 := by
  unfold signedValue
  have h8 := value.toUInt8.toInt8.le_toInt
  have h8' := value.toUInt8.toInt8.toInt_lt
  have h16 := value.toUInt16.toInt16.le_toInt
  have h16' := value.toUInt16.toInt16.toInt_lt
  have h32 := value.toUInt32.toInt32.le_toInt
  have h32' := value.toUInt32.toInt32.toInt_lt
  have h64 := value.toInt64.le_toInt
  have h64' := value.toInt64.toInt_lt
  cases s.length <;> simp only <;> omega

/-- The value without its sign has 64 bits at most. -/
lemma magnitude_lt : s.magnitude value < 2 ^ 64 := by
  have := s.unsignedValue_lt value
  have := s.signedValue_bounds value
  unfold magnitude
  split <;> omega

/-- The precision has zeros in front of an octal number. -/
def Excess : Prop := s.conv = .o ∧ s.magnitude value ≠ 0 ∧
    ((Nat.digits 8 (s.magnitude value)).length : Int) < s.prec.value

/-- It is decided by the specification. -/
instance : Decidable (s.Excess value) := inferInstanceAs (Decidable (_ ∧ _))

/-- The flags that have a meaning for the conversion. -/
def meant : Flags where
  left := s.left
  plus := s.signed && Flag.plus ∈ s.flags
  space := s.signed && Flag.space ∈ s.flags
  alt := Flag.alt ∈ s.flags && !decide (s.Excess value)
  zero := Flag.zero ∈ s.flags

/-- What is printed before the digits, with a sign for a number below 0. -/
lemma sign_eq : s.sign value = numSign (s.signed && s.signedValue value < 0) (s.meant value) := by
  unfold sign numSign meant
  cases s.signed
  · rfl
  · simp

/-- A negative precision counts as none. -/
lemma precision_none : s.precision = none ↔ s.prec.value < 0 := by
  unfold precision Precision.value
  cases s.prec with
  | omitted => simp
  | number digits => simp
  | star p => by_cases h : p.toInt < 0 <;> simp [h]

/-- Without a precision there is at least one digit. -/
lemma precision_getD : s.precision.getD 1 = if s.prec.value < 0 then 1 else s.prec.value.toNat := by
  unfold precision Precision.value
  cases s.prec with
  | omitted => rfl
  | number digits =>
    have nonneg : ¬ ((Nat.ofDigits 10 (digits.map Fin.val).reverse : Nat) : Int) < 0 := by omega
    exact (if_neg nonneg).symm
  | star p => by_cases h : p.toInt < 0 <;> simp [h]

/-- The digits that are printed. -/
def printedDigits : List UInt8 :=
  numDigits (UInt64.ofNat (s.magnitude value)) s.base s.upper s.prec.value

/-- Zero has no digits at precision zero, and one otherwise. -/
lemma printedDigits_zero (zero : s.magnitude value = 0) :
    s.printedDigits value = if s.prec.value = 0 then [] else ['0'.toUInt8] := by
  unfold printedDigits numDigits
  rw [zero]
  by_cases none : s.prec.value = 0
  · rw [if_neg (fun e => e.2 none), if_pos none]
    exact digitsOf_zero
  · rw [if_pos ⟨rfl, none⟩, if_neg none]

/-- Any other number has its own. -/
lemma printedDigits_pos (pos : s.magnitude value ≠ 0) :
    s.printedDigits value = (Nat.digits s.base (s.magnitude value)).map (digitChar s.upper) := by
  have toNat : (UInt64.ofNat (s.magnitude value)).toNat = s.magnitude value :=
    UInt64.toNat_ofNat_of_lt' (s.magnitude_lt value)
  have pos' : UInt64.ofNat (s.magnitude value) ≠ 0 := by
    intro e
    rw [e] at toNat
    exact pos toNat.symm
  unfold printedDigits numDigits
  rw [if_neg (fun e => pos' e.1), toNat, digitsOf_eq s.base_base]

/-- Zeros and digits are a number with the digits of its precision. -/
lemma numeral_eq : s.numeral (s.precision.getD 1) (s.magnitude value) =
    List.replicate (s.prec.value - (s.printedDigits value).length).toNat '0'.toUInt8 ++
      (s.printedDigits value).reverse := by
  unfold numeral
  rw [precision_getD]
  by_cases zero : s.magnitude value = 0
  · rw [s.printedDigits_zero value zero, zero, Nat.digits_zero]
    by_cases none : s.prec.value = 0
    · rw [if_pos none, none]
      rfl
    · have least :
        (if s.prec.value < 0 then 1 else s.prec.value.toNat) = (s.prec.value - 1).toNat + 1 := by
        split <;> omega
      rw [if_neg none, least]
      show List.replicate ((s.prec.value - 1).toNat + 1 - 0) _ ++ [] =
        List.replicate (s.prec.value - (1 : Nat)).toNat _ ++ ['0'.toUInt8]
      rw [Nat.sub_zero, List.append_nil, List.replicate_succ']
      rfl
  · rw [s.printedDigits_pos value zero]
    have some_digit : (Nat.digits s.base (s.magnitude value)).length ≠ 0 :=
      fun e => Nat.digits_ne_nil_iff_ne_zero.mpr zero (List.length_eq_zero_iff.mp e)
    simp only [List.length_reverse, List.length_map]
    congr 2
    split <;> omega

/-- The first digit, which is the last one of the buffer, is not 0 for a number that is not 0. -/
lemma printedDigits_getLast (pos : s.magnitude value ≠ 0) :
    ∃ c, (s.printedDigits value).getLast? = some c ∧ c ≠ '0'.toUInt8 := by
  rw [s.printedDigits_pos value pos, ← digitsOf_eq s.base_base]
  exact digitsOf_getLast s.base_base s.upper pos

/-- There is a digit in front that is not zero unless the value is zero. -/
lemma significant_iff :
    (s.printedDigits value ≠ [] ∧ (s.printedDigits value).getLast? ≠ some '0'.toUInt8) ↔
    s.magnitude value ≠ 0 := by
  constructor
  · rintro ⟨some_digit, last⟩ zero
    rw [s.printedDigits_zero value zero] at some_digit last
    split at some_digit
    · exact some_digit rfl
    · next prec =>
      rw [if_neg prec] at last
      exact last rfl
  · intro pos
    obtain ⟨c, last, ne⟩ := s.printedDigits_getLast value pos
    refine ⟨fun none => ?_, fun zero => ne (Option.some.inj (last.symm.trans zero))⟩
    rw [none] at last
    cases last

/-- The code adds a zero to an octal number where the standard does. -/
lemma octal_iff (conv : s.conv = .o) :
    ((s.meant value).alt = true ∧
      (s.printedDigits value = [] ∨ (s.printedDigits value).getLast? ≠ some '0'.toUInt8)) ↔
    Flag.alt ∈ s.flags ∧
    (s.numeral (s.precision.getD 1) (s.magnitude value)).head? ≠ some '0'.toUInt8 := by
  have alt : (s.meant value).alt = true ↔ Flag.alt ∈ s.flags ∧ ¬ s.Excess value := by simp [meant]
  rw [alt, numeral_eq]
  by_cases zero : s.magnitude value = 0
  · have no_excess : ¬ s.Excess value := fun e => e.2.1 zero
    rw [s.printedDigits_zero value zero]
    by_cases none : s.prec.value = 0
    · simp [none, no_excess]
    · rw [if_neg none]
      cases (s.prec.value - (['0'.toUInt8] : List UInt8).length).toNat
        <;> simp [List.replicate_succ]
  · obtain ⟨c, last, ne⟩ := s.printedDigits_getLast value zero
    have length : (s.printedDigits value).length = (Nat.digits 8 (s.magnitude value)).length := by
      rw [s.printedDigits_pos value zero, List.length_map]
      simp [base, conv]
    have first : (s.printedDigits value).reverse.head? = some c := by
      rw [List.head?_reverse, last]
    by_cases excess : s.Excess value
    · obtain ⟨k, more⟩ : ∃ k, (s.prec.value - (s.printedDigits value).length).toNat = k + 1 :=
        ⟨(s.prec.value - (s.printedDigits value).length).toNat - 1, by have := excess.2.2; omega⟩
      rw [more]
      simp [excess, List.replicate_succ]
    · have fits : (s.prec.value - (s.printedDigits value).length).toNat = 0 := by
        have : ¬ ((Nat.digits 8 (s.magnitude value)).length : Int) < s.prec.value :=
          fun e => excess ⟨conv, zero, e⟩
        omega
      rw [fits, List.replicate_zero, List.nil_append, first, last]
      simp [excess, ne]

/-- A zero in front of an octal number is a prefix of what is printed,
and a digit of what has to be. -/
lemma prefix_digits :
    (numPrefix (s.printedDigits value) s.base s.upper (s.meant value) = s.before value ∧
      s.digits value = s.numeral (s.precision.getD 1) (s.magnitude value)) ∨
    (s.before value = [] ∧
      numPrefix (s.printedDigits value) s.base s.upper (s.meant value) = ['0'.toUInt8] ∧
      s.digits value = '0'.toUInt8 :: s.numeral (s.precision.getD 1) (s.magnitude value)) := by
  have significant := s.significant_iff value
  have octal := s.octal_iff value
  cases conv : s.conv with
  | d | i | u =>
    left
    simp [numPrefix, before, digits, base, conv]
  | x | X =>
    left
    have base : s.base = 16 := by simp [base, conv]
    have alt : (s.meant value).alt = decide (Flag.alt ∈ s.flags) := by simp [meant, Excess, conv]
    refine ⟨?_, by simp [digits, conv]⟩
    unfold numPrefix before
    simp only [alt, base, significant, decide_eq_true_eq, true_and]
    simp
  | o =>
    have base : s.base = 8 := by simp [base, conv]
    have before : s.before value = [] := by simp [before, base]
    have octal := octal conv
    by_cases zero : Flag.alt ∈ s.flags ∧
      (s.numeral (s.precision.getD 1) (s.magnitude value)).head? ≠ some '0'.toUInt8
    · right
      have printed := octal.mpr zero
      refine ⟨before, ?_, ?_⟩
      · simp only [numPrefix, base, printed]
        simp
      · simp only [digits, conv, zero, true_and]
        simp [zero]
    · left
      have printed := mt octal.mp zero
      refine ⟨?_, ?_⟩
      · rw [before, numPrefix, if_neg (by simp [base]), if_neg]
        rintro ⟨alt, _, last⟩
        exact printed ⟨alt, last⟩
      · rw [digits, if_neg]
        rintro ⟨alt, _, first⟩
        exact zero ⟨alt, first⟩

/-- A zero before zeros or behind them. -/
lemma replicate_zero_cons (k : Nat) (N : List UInt8) :
    ['0'.toUInt8] ++ (List.replicate k '0'.toUInt8 ++ N) =
      List.replicate k '0'.toUInt8 ++ '0'.toUInt8 :: N := by
  show List.replicate (k + 1) '0'.toUInt8 ++ N = _
  rw [List.replicate_succ', List.append_assoc]
  rfl

/-- Wherever zeros fill the field up, it is the same number. -/
lemma zeros_digits (k : Nat) :
    numPrefix (s.printedDigits value) s.base s.upper (s.meant value) ++
        (List.replicate k '0'.toUInt8 ++ s.numeral (s.precision.getD 1) (s.magnitude value)) =
      s.before value ++ (List.replicate k '0'.toUInt8 ++ s.digits value) := by
  obtain ⟨before, digits⟩ | ⟨before, zero, digits⟩ := s.prefix_digits value
  · rw [before, digits]
  · rw [before, zero, digits, List.nil_append]
    exact replicate_zero_cons k _

/-- The number without padding. -/
lemma plain_digits :
    numPrefix (s.printedDigits value) s.base s.upper (s.meant value) ++
        (List.replicate (s.prec.value - (s.printedDigits value).length).toNat '0'.toUInt8 ++
          (s.printedDigits value).reverse) =
      s.before value ++ s.digits value := by
  rw [← numeral_eq]
  exact s.zeros_digits value 0

/-- The length that the guest's code computes is that of the text without its filling. -/
lemma plain_length (m : Nat) :
    plainLength (s.printedDigits value).length
        (m + (numPrefix (s.printedDigits value) s.base s.upper (s.meant value)).length)
          s.prec.value =
      m + (s.before value ++ s.digits value).length := by
  rw [← plain_digits]
  simp only [plainLength, List.length_append, List.length_replicate, List.length_reverse]
  omega

/-- What has to be printed is what is printed with the flags that have a meaning. -/
lemma text_eq : s.text value = numText (UInt64.ofNat (s.magnitude value))
    (s.signed && s.signedValue value < 0) s.base s.upper s.minWidth s.prec.value
      (s.meant value) := by
  have none := s.precision_none
  have length : plainLength _ ((s.sign value).length + _) s.prec.value =
    ((s.sign value ++ s.before value) ++ s.digits value).length :=
    (s.plain_length value (s.sign value).length).trans
    (by simp only [List.length_append, Nat.add_assoc])
  have numeral := s.numeral_eq value
  have zeros := s.zeros_digits value
  have all := s.plain_digits value
  rw [numText_layout, ← sign_eq]
  change _ = layout _ (numPrefix (s.printedDigits value) _ _ _) (s.printedDigits value) _ _ _
  -- the parts get names, so that the three layouts are compared as lists
  generalize numPrefix (s.printedDigits value) s.base s.upper (s.meant value) = P at *
  generalize s.printedDigits value = D at *
  generalize s.numeral (s.precision.getD 1) (s.magnitude value) = N at *
  unfold text layout zerosOf blanksOf
  simp only [length]
  generalize ((s.sign value ++ s.before value) ++ s.digits value).length = len
  have fill : ((s.minWidth : Int) - len).toNat = s.minWidth - len := by omega
  have filled : fills len s.minWidth s.prec.value (s.meant value) =
      decide (s.left = false ∧ (Flag.zero ∈ s.flags ∧ s.precision = Option.none) ∧
        len < s.minWidth) := by
    simp only [fills, meant, none]
    cases s.left <;> simp [Bool.and_assoc]
  have meant_left : (s.meant value).left = s.left := rfl
  have tail (R : List UInt8) :
    P ++ (List.replicate (s.prec.value - D.length).toNat '0'.toUInt8 ++ (D.reverse ++ R)) =
      s.before value ++ (s.digits value ++ R) := by
    rw [← List.append_assoc (List.replicate _ _), ← List.append_assoc, all, List.append_assoc]
  rw [filled, fill, meant_left]
  cases left : s.left
  -- zeros fill only without a precision, and then the digits need no others
  · by_cases zero : Flag.zero ∈ s.flags ∧ s.precision = Option.none
    · have no_prec : (s.prec.value - D.length).toNat = 0 := by
        have := none.mp zero.2
        omega
      have reversed :
        N = D.reverse := by rw [numeral, no_prec, List.replicate_zero, List.nil_append]
      by_cases room : len < s.minWidth
      · simp only [zero, room, and_self, decide_true, Bool.false_eq_true, if_false, if_true,
          no_prec, Nat.zero_add,
          List.replicate_zero, List.nil_append, List.append_nil, List.append_assoc, ← reversed]
        rw [zeros]
      · have no_fill : s.minWidth - len = 0 := by omega
        simp only [zero, room, and_self, and_false, decide_false, Bool.false_eq_true, if_false,
          if_true, no_fill, Nat.add_zero, List.replicate_zero, List.nil_append, List.append_nil,
          List.append_assoc, all]
    · simp only [zero, and_false, false_and, decide_false, Bool.false_eq_true, if_false,
        Nat.add_zero, List.append_nil, List.append_assoc, all]
  · simp only [if_true, Bool.true_eq_false, false_and, decide_false, Bool.false_eq_true, if_false,
      List.nil_append, Nat.add_zero, List.append_assoc, tail]

end Spec

/-! ## Layouts that differ in a blank -/

section

variable {sign before digits : List UInt8} {width prec : Int} {flags : Flags}

/-- With `-`, or with a precision, no zeros fill the width. -/
lemma fills_false (h : flags.left = true ∨ ¬ (flags.zero = true ∧ prec < 0)) (len : Nat) :
    fills len width prec flags = false := by
  obtain left | no_zero := h
  · simp [fills, left]
  · by_contra filled
    simp only [fills, Bool.and_eq_true, decide_eq_true_eq, Bool.not_eq_false] at filled
    exact no_zero ⟨filled.1.1.1, filled.1.2⟩

/-- To the left: blanks behind. -/
lemma layout_left (left : flags.left = true) : layout sign before digits width prec flags =
    sign ++ (before ++
      (List.replicate (prec - digits.length).toNat '0'.toUInt8 ++ (digits.reverse ++
      List.replicate (width - plainLength digits.length (sign.length + before.length) prec).toNat
        ' '.toUInt8))) := by
  simp only [layout, zerosOf, blanksOf, fills_false (.inl left), left, if_true,
    Bool.false_eq_true, if_false, Nat.add_zero,     List.nil_append]

/-- To the right: blanks in front. -/
lemma layout_right (left : flags.left = false) (no_zero : ¬ (flags.zero = true ∧ prec < 0)) :
    layout sign before digits width prec flags =
      List.replicate (width - plainLength digits.length (sign.length + before.length) prec).toNat
        ' '.toUInt8 ++
        (sign ++ (before ++
          (List.replicate (prec - digits.length).toNat '0'.toUInt8 ++ digits.reverse))) := by
  simp only [layout, zerosOf, blanksOf, fills_false (.inr no_zero), left, Bool.false_eq_true,
    if_false, Nat.add_zero, List.append_nil]

/-- Zeros fill up the field, if there is any room. -/
lemma layout_zero (left : flags.left = false) (zero : flags.zero = true) (no_prec : prec < 0) :
    layout sign before digits width prec flags = sign ++ (before ++
      (List.replicate (width - plainLength digits.length (sign.length + before.length) prec).toNat
        '0'.toUInt8 ++
        digits.reverse)) := by
  have no_zeros : (prec - digits.length).toNat = 0 := by omega
  unfold layout zerosOf blanksOf
  simp only
  generalize plainLength digits.length (sign.length + before.length) prec = len
  by_cases room : (len : Int) < width
  · have filled : fills len width prec flags = true := by simp [fills, left, zero, no_prec, room]
    simp only [filled, left, no_zeros, if_true, Bool.false_eq_true, if_false, Nat.zero_add,
      List.replicate_zero, List.nil_append, List.append_nil]
  · have filled : fills len width prec flags = false := by simp [fills, room]
    have full : (width - len).toNat = 0 := by omega
    simp only [filled, left, no_zeros, full, Bool.false_eq_true, if_false, Nat.add_zero,
      List.replicate_zero, List.nil_append, List.append_nil]

/-- A text whose first character is no blank. -/
def NoBlank (text : List UInt8) : Prop := text.head? ≠ some ' '.toUInt8

/-- A text that starts with a blank is not one that does not. -/
lemma cons_blank_ne {s t : List UInt8} (h : NoBlank t) : [' '.toUInt8] ++ s ≠ t := by
  rintro rfl
  exact h rfl

/-- A text with a first character that is no blank does not start with one. -/
lemma noBlank_append {s : List UInt8} (no_blank : ∀ c ∈ s, c ≠ ' '.toUInt8) (some_char : s ≠ [])
    (t : List UInt8) :
    NoBlank (s ++ t) := by
  cases s with
  | nil => exact absurd rfl some_char
  | cons c s =>
    intro e
    exact no_blank c List.mem_cons_self (Option.some.inj e)

/-- A blank as a sign does not show where there is a blank anyway. -/
lemma layout_blank (no_blank : ∀ c ∈ before ++ digits, c ≠ ' '.toUInt8)
    (some_digit : prec < 0 → digits ≠ []) :
    layout [' '.toUInt8] before digits width prec flags = layout [] before digits width prec flags ↔
      (plainLength digits.length before.length prec : Int) < width ∧
        (plainLength digits.length before.length prec = 0 ∨
          flags.left = false ∧ ¬ (flags.zero = true ∧ prec < 0)) := by
  have clean (k : Nat) :
    ∀ c ∈ before ++ (List.replicate k '0'.toUInt8 ++ digits.reverse), c ≠ ' '.toUInt8 := by
    intro c mem
    obtain mem | mem := List.mem_append.mp mem
    · exact no_blank c (List.mem_append_left _ mem)
    obtain mem | mem := List.mem_append.mp mem
    · rw [List.eq_of_mem_replicate mem]
      decide
    · exact no_blank c (List.mem_append_right _ (List.mem_reverse.mp mem))
  have longer : plainLength digits.length ([' '.toUInt8].length + before.length) prec =
      plainLength digits.length before.length prec + 1 := by
    simp only [plainLength, List.length_singleton]
    omega
  have same : plainLength digits.length (([] : List UInt8).length + before.length) prec =
      plainLength digits.length before.length prec := by
    simp only [plainLength, List.length_nil, Nat.zero_add]
  have length (k : Nat) : (before ++ (List.replicate k '0'.toUInt8 ++ digits.reverse)).length =
      before.length + (k + digits.length) := by
    simp only [List.length_append, List.length_replicate, List.length_reverse]
  -- with blanks on the left the sign is one of them; with zeros or blanks elsewhere it comes first
  cases left : flags.left
  · by_cases zero : flags.zero = true ∧ prec < 0
    · rw [layout_zero left zero.1 zero.2, layout_zero left zero.1 zero.2]
      have some_digit := List.length_pos_iff.mpr (some_digit zero.2)
      constructor
      · intro e
        refine absurd e (cons_blank_ne ?_)
        rw [List.nil_append, ← List.append_nil (before ++ _)]
        apply noBlank_append (clean _)
        intro none
        have := congrArg List.length none
        rw [length, List.length_nil] at this
        omega
      · rintro ⟨_, none | ⟨_, no_zero⟩⟩
        · unfold plainLength at none
          omega
        · exact absurd zero no_zero
    -- both fill with blanks on the left: they agree exactly if one blank is left to fill
    · rw [layout_right left zero, layout_right left zero, longer,
        same, ← List.append_assoc, ← List.replicate_succ']
      constructor
      · intro e
        have := congrArg List.length e
        simp only [List.length_append, List.length_replicate, List.length_nil] at this
        exact ⟨by omega, .inr ⟨rfl, zero⟩⟩
      · rintro ⟨room, _⟩
        have one : (width - (plainLength digits.length before.length prec + 1 : Nat)).toNat + 1 =
            (width - plainLength digits.length before.length prec).toNat := by
          omega
        rw [one, List.nil_append]
  · rw [layout_left left, layout_left left, longer, same]
    by_cases empty : plainLength digits.length before.length prec = 0
    · have no_before : before = [] :=
        List.length_eq_zero_iff.mp (by unfold plainLength at empty; omega)
      have no_digit : digits = [] :=
        List.length_eq_zero_iff.mp (by unfold plainLength at empty; omega)
      have no_zeros : (prec - digits.length).toNat = 0 := by
        unfold plainLength at empty
        omega
      rw [no_zeros, empty, no_before, no_digit]
      simp only [List.nil_append, List.replicate_zero, List.reverse_nil,
        List.singleton_append, ← List.replicate_succ, List.replicate_inj]
      constructor
      · rintro ⟨one, _⟩
        exact ⟨by omega, .inl trivial⟩
      · rintro ⟨room, _⟩
        exact ⟨by omega, .inr trivial⟩
    · constructor
      · intro e
        refine absurd e (cons_blank_ne ?_)
        rw [List.nil_append, ← List.append_assoc (List.replicate _ _), ← List.append_assoc]
        apply noBlank_append (clean _)
        intro none
        have := congrArg List.length none
        rw [length, List.length_nil] at this
        unfold plainLength at empty
        omega
      · rintro ⟨_, none | ⟨no_left, _⟩⟩
        · exact absurd none empty
        · cases no_left

end

/-- A value in the range of the type is kept by it. -/
lemma toUInt64_ofInt {v : Int} (low : -2 ^ 63 ≤ v) (high : v < 2 ^ 63) :
    (Int64.ofInt v).toInt = v :=
  Int64.toInt_ofInt_of_le low high

/-- The magnitude of a `long` is that of its value. -/
lemma magnitude_eq (v : Int64) : magnitude v = UInt64.ofNat v.toInt.natAbs := by
  have value : v.toInt =
      if 2 * v.toUInt64.toNat < 2 ^ 64 then (v.toUInt64.toNat : Int)
      else v.toUInt64.toNat - 2 ^ 64 :=
    BitVec.toInt_eq_toNat_cond v.toBitVec
  have := v.toUInt64.toNat_lt
  have := v.le_toInt
  apply UInt64.toNat_inj.mp
  unfold magnitude
  by_cases neg : v < 0
  · have below : v.toInt < 0 := Int64.lt_iff_toInt_lt.mp neg
    have negated : v.toInt.natAbs < 2 ^ 64 := by omega
    rw [if_pos neg, UInt64.toNat_neg, UInt64.toNat_ofNat_of_lt' negated]
    show (2 ^ 64 - v.toUInt64.toNat) % 2 ^ 64 = _
    split at value <;> omega
  · have above : ¬ v.toInt < 0 := fun e => neg (Int64.lt_iff_toInt_lt.mpr e)
    have kept : v.toInt.natAbs < 2 ^ 64 := by omega
    rw [if_neg neg, UInt64.toNat_ofNat_of_lt' kept]
    split at value <;> omega

namespace Spec

variable (s : Spec) (value : UInt64)

/-- The argument is a value of the type that the length says. -/
def Fits : Prop :=
  if s.signed then (s.passedSigned value).toInt = s.signedValue value
  else (s.passed value).toNat = s.unsignedValue value

/-- It is decided by the text. -/
instance : Decidable (s.Fits value) := by
  unfold Fits
  infer_instance

/-- Signed conversions are decimal. -/
lemma signed_base (signed : s.signed = true) : s.base = 10 ∧ s.upper = false := by
  unfold Spec.signed at signed
  unfold base upper
  cases conv : s.conv <;> simp [conv] at signed ⊢

/-- What is printed in excess concerns unsigned conversions only. -/
lemma not_excess (signed : s.signed = true) : ¬ s.Excess value := by
  rintro ⟨conv, _⟩
  simp [Spec.signed, conv] at signed

/-- Every flag of a signed conversion has a meaning, or none at all. -/
lemma meant_signed (signed : s.signed = true) : s.meant value = s.readFlags := by
  simp [meant, readFlags, signed, s.not_excess value signed]

/-- What a signed conversion should print, in terms of the guest's code. -/
lemma text_signed (signed : s.signed = true) :
    s.text value = numText (Doom.magnitude (Int64.ofInt (s.signedValue value)))
      (Int64.ofInt (s.signedValue value) < 0)
      10 false s.minWidth s.prec.value s.readFlags := by
  have ⟨low, high⟩ := s.signedValue_bounds value
  have toInt := toUInt64_ofInt low high
  have neg : (Int64.ofInt (s.signedValue value) < 0) ↔ s.signedValue value < 0 := by
    rw [Int64.lt_iff_toInt_lt, toInt]
    rfl
  have magnitude : s.magnitude value = (s.signedValue value).natAbs := by
    rw [Spec.magnitude, if_pos signed]
  have ⟨base, upper⟩ := s.signed_base signed
  rw [text_eq, magnitude_eq, toInt, magnitude, base, upper, s.meant_signed value signed, signed]
  simp only [neg, Bool.true_and]

/-- What an unsigned conversion should print, in terms of the guest's code. -/
lemma text_unsigned (unsigned : s.signed = false) :
    s.text value =
      numText (UInt64.ofNat (s.unsignedValue value)) false s.base s.upper s.minWidth s.prec.value
      (s.meant value) := by
  have magnitude : s.magnitude value = s.unsignedValue value := by
    rw [Spec.magnitude, unsigned]
    rfl
  rw [text_eq, magnitude, unsigned]
  rfl

/-- For a signed conversion, only an argument that does not fit makes a difference. -/
lemma printed_signed (signed : s.signed = true) :
    s.printed value = s.text value ↔ s.Fits value := by
  have ⟨low, high⟩ := s.signedValue_bounds value
  have toInt := toUInt64_ofInt low high
  rw [printed, if_pos signed, s.text_signed value signed, Fits, if_pos signed]
  constructor
  · intro same
    have read := congrArg (fun text => (strtoul text 10).1) same
    simp only [strtoul_numText (.inr (.inl rfl)), magnitude_signed] at read
    have same : s.passedSigned value = Int64.ofInt (s.signedValue value) :=
      congrArg UInt64.toInt64 read
    rw [same, toInt]
  · intro fits
    rw [← toInt] at fits
    rw [Int64.toInt_inj.mp fits]

/-- An unsigned conversion that prints what it has to has an argument that fits. -/
lemma fits_of_printed (unsigned : s.signed = false) (same : s.printed value = s.text value) :
    s.Fits value := by
  rw [printed, unsigned, s.text_unsigned value unsigned] at same
  have read := congrArg (fun text => (strtoul text s.base).1) same
  simp only [Bool.false_eq_true, if_false, strtoul_numText s.base_base] at read
  rw [Fits, unsigned, if_neg Bool.false_ne_true, read,
    UInt64.toNat_ofNat_of_lt' (s.unsignedValue_lt value)]

/-- A blank for a sign stands where the field has a blank anyway. -/
def Absorbed : Prop :=
  (s.before value ++ s.digits value).length < s.minWidth ∧
    (s.before value ++ s.digits value = [] ∨
      s.left = false ∧ ¬ (Flag.zero ∈ s.flags ∧ s.precision = none))

/-- When a conversion prints what it has to: the argument fits, an unsigned conversion has no flag
for a sign that shows, and no zero is added to an octal number that has one for its precision. -/
def Conforms : Prop :=
  s.Fits value ∧
    (s.signed = false → Flag.plus ∉ s.flags ∧ (Flag.space ∈ s.flags → s.Absorbed value)) ∧
    ¬ (Flag.alt ∈ s.flags ∧ s.Excess value)

/-- A text has no other characters than its parts, blanks and zeros. -/
lemma mem_layout {sign before digits : List UInt8} {width prec : Int} {flags : Flags} {c : UInt8}
    (mem : c ∈ layout sign before digits width prec flags) :
    c = ' '.toUInt8 ∨ c = '0'.toUInt8 ∨ c ∈ sign ∨ c ∈ before ∨ c ∈ digits := by
  unfold layout at mem
  cases left : flags.left <;>
    simp only [left, Bool.false_eq_true, if_true, if_false, List.mem_append, List.mem_replicate,
      List.mem_reverse, List.not_mem_nil, or_false, false_or] at mem <;> tauto

/-- The characters of the sign are in the text. -/
lemma mem_layout_sign {sign before digits : List UInt8} {width prec : Int}
    {flags : Flags} {c : UInt8} (mem : c ∈ sign) :
    c ∈ layout sign before digits width prec flags :=
  List.mem_append_right _ (List.mem_append_left _ mem)

/-- A prefix is made of `0`, `x` and `X`. -/
lemma mem_numPrefix {digits : List UInt8} {base : Nat} {upper : Bool} {flags : Flags} {c : UInt8}
    (mem : c ∈ numPrefix digits base upper flags) :
    c = '0'.toUInt8 ∨ c = 'x'.toUInt8 ∨ c = 'X'.toUInt8 := by
  unfold numPrefix at mem
  split at mem
  · cases upper <;> simp at mem <;> tauto
  split at mem
  · exact .inl (List.mem_singleton.mp mem)
  · exact absurd mem List.not_mem_nil

/-- No digit is a blank or a plus. -/
lemma digitChar_other (upper : Bool) : ∀ d < 16, digitChar upper d ≠ ' '.toUInt8 ∧
    digitChar upper d ≠ '+'.toUInt8 := by
  cases upper <;> decide

/-- No digit that is printed is a blank or a plus. -/
lemma mem_printedDigits {c : UInt8} (mem : c ∈ s.printedDigits value) :
    c ≠ ' '.toUInt8 ∧ c ≠ '+'.toUInt8 := by
  obtain ⟨d, lt, rfl⟩ := mem_numDigits s.base_base mem
  exact digitChar_other s.upper d (Nat.lt_of_lt_of_le lt s.base_base.le)

/-- For an unsigned conversion whose argument fits, only the flags make a difference. -/
lemma printed_unsigned (unsigned : s.signed = false) (fits : s.Fits value) : s.printed value =
    layout (numSign false s.readFlags)
      (numPrefix (s.printedDigits value) s.base s.upper s.readFlags)
      (s.printedDigits value) s.minWidth s.prec.value s.readFlags := by
  rw [Fits, unsigned, if_neg Bool.false_ne_true] at fits
  have magnitude : s.magnitude value = s.unsignedValue value := by
    rw [Spec.magnitude, unsigned]
    rfl
  have passed : s.passed value = UInt64.ofNat (s.magnitude value) := by
    rw [magnitude, ← fits, UInt64.ofNat_toNat]
  rw [printed, unsigned, passed, if_neg Bool.false_ne_true, numText_layout]
  rfl

/-- The text of an unsigned conversion has no sign. -/
lemma text_layout (unsigned : s.signed = false) : s.text value =
    layout [] (numPrefix (s.printedDigits value) s.base s.upper (s.meant value))
      (s.printedDigits value) s.minWidth
      s.prec.value (s.meant value) := by
  have no_sign : s.sign value = [] := by simp [sign, unsigned]
  rw [text_eq, numText_layout, ← sign_eq, no_sign]
  rfl

/-- A plus sign shows that the code prints for an unsigned conversion. -/
lemma printed_ne_of_plus (unsigned : s.signed = false) (fits : s.Fits value)
    (plus : Flag.plus ∈ s.flags) :
    s.printed value ≠ s.text value := by
  rw [s.printed_unsigned value unsigned fits, s.text_layout value unsigned]
  intro same
  have sign : numSign false s.readFlags = ['+'.toUInt8] := by simp [numSign, readFlags, plus]
  have mem : '+'.toUInt8 ∈ layout (numSign false s.readFlags)
      (numPrefix (s.printedDigits value) s.base s.upper s.readFlags)
      (s.printedDigits value) s.minWidth s.prec.value
      s.readFlags := by
    apply mem_layout_sign
    rw [sign]
    exact List.mem_singleton_self _
  rw [same] at mem
  obtain blank | zero | none | before | digit := mem_layout mem
  · cases blank
  · cases zero
  · cases none
  · obtain e | e | e := mem_numPrefix before <;> cases e
  · exact (s.mem_printedDigits value digit).2 rfl

/-- The zeros of a text with a precision. -/
lemma count_layout {sign before digits : List UInt8} {width prec : Int} {flags : Flags}
    (prec_pos : 0 ≤ prec) :
    (layout sign before digits width prec flags).count '0'.toUInt8 =
      sign.count '0'.toUInt8 + before.count '0'.toUInt8 + (prec - digits.length).toNat +
        digits.count '0'.toUInt8 := by
  have no_blank (k : Nat) : (List.replicate k ' '.toUInt8).count '0'.toUInt8 = 0 := by
    rw [List.count_replicate, if_neg (by decide)]
  have no_fill : ¬ (flags.zero = true ∧ prec < 0) := fun e => absurd e.2 (Int.not_lt.mpr prec_pos)
  have reversed : digits.reverse.count '0'.toUInt8 = digits.count '0'.toUInt8 := List.count_reverse
  cases left : flags.left
  · rw [layout_right left no_fill]
    simp only [List.count_append, no_blank, List.count_replicate_self, reversed]
    omega
  · rw [layout_left left]
    simp only [List.count_append, no_blank, List.count_replicate_self, reversed]
    omega

/-- A zero more makes the text another. -/
lemma printed_ne_of_excess (unsigned : s.signed = false) (fits : s.Fits value)
    (plus : Flag.plus ∉ s.flags)
    (alt : Flag.alt ∈ s.flags) (excess : s.Excess value) : s.printed value ≠ s.text value := by
  rw [s.printed_unsigned value unsigned fits, s.text_layout value unsigned]
  intro same
  have prec_pos : 0 ≤ s.prec.value := by
    have := excess.2.2
    omega
  have base : s.base = 8 := by simp [base, excess.1]
  obtain ⟨c, last, ne⟩ := s.printedDigits_getLast value excess.2.1
  have printed_zero :
    numPrefix (s.printedDigits value) s.base s.upper s.readFlags = ['0'.toUInt8] := by
    simp [numPrefix, base, readFlags, alt, last, ne]
  have unprefixed : numPrefix (s.printedDigits value) s.base s.upper (s.meant value) = [] := by
    simp [numPrefix, meant, excess]
  have no_sign : (numSign false s.readFlags).count '0'.toUInt8 = 0 := by
    unfold numSign readFlags
    by_cases space : Flag.space ∈ s.flags <;> simp [plus, space]; decide
  have counts := congrArg (List.count '0'.toUInt8) same
  rw [count_layout prec_pos, count_layout prec_pos, printed_zero, unprefixed, no_sign,
    List.count_nil, List.count_singleton_self] at counts
  omega

/-- The layout has only two flags to ask for. -/
lemma layout_congr {sign before digits : List UInt8} {width prec : Int} {f g : Flags}
    (left : f.left = g.left) (zero : f.zero = g.zero) :
    layout sign before digits width prec f = layout sign before digits width prec g := by
  cases f
  cases g
  cases left
  cases zero
  rfl

/-- Without a precision there are digits. -/
lemma printedDigits_ne_nil (no_prec : s.prec.value < 0) : s.printedDigits value ≠ [] := by
  by_cases zero : s.magnitude value = 0
  · rw [s.printedDigits_zero value zero, if_neg (by omega)]
    exact List.cons_ne_nil _ _
  · exact ((s.significant_iff value).mpr zero).1

/-- A blank for a sign makes no difference exactly where it is absorbed. -/
lemma blank_absorbed :
    layout [' '.toUInt8] (numPrefix (s.printedDigits value) s.base s.upper (s.meant value))
        (s.printedDigits value) s.minWidth s.prec.value (s.meant value) =
      layout [] (numPrefix (s.printedDigits value) s.base s.upper (s.meant value))
        (s.printedDigits value) s.minWidth s.prec.value (s.meant value) ↔ s.Absorbed value := by
  have length := s.plain_length value 0
  rw [Nat.zero_add, Nat.zero_add] at length
  rw [layout_blank, length, Absorbed, Nat.cast_lt, List.length_eq_zero_iff, s.precision_none]
  · simp [meant]
  · intro c mem
    obtain before | digit := List.mem_append.mp mem
    · obtain rfl | rfl | rfl := mem_numPrefix before <;> decide
    · exact (s.mem_printedDigits value digit).1
  · exact s.printedDigits_ne_nil value

/-- What is printed is what has to be, exactly when the conversion is one of those. -/
lemma printed_iff : s.printed value = s.text value ↔ s.Conforms value := by
  cases unsigned : s.signed with
  | true =>
    rw [s.printed_signed value unsigned]
    exact ⟨fun fits => ⟨fits, fun e => absurd (unsigned.symm.trans e) nofun,
      fun e => s.not_excess value unsigned e.2⟩,
      fun h => h.1⟩
  | false =>
    by_cases fits : s.Fits value
    · by_cases plus : Flag.plus ∈ s.flags
      · exact ⟨fun e => absurd e (s.printed_ne_of_plus value unsigned fits plus),
          fun h => absurd plus (h.2.1 unsigned).1⟩
      by_cases excess : Flag.alt ∈ s.flags ∧ s.Excess value
      · exact ⟨fun e =>
          absurd e (s.printed_ne_of_excess value unsigned fits plus excess.1 excess.2),
          fun h => absurd excess h.2.2⟩
      have alt : (s.meant value).alt = s.readFlags.alt := by
        simp only [meant, readFlags]
        by_cases alt : Flag.alt ∈ s.flags
        · have no_excess : ¬ s.Excess value := fun e => excess ⟨alt, e⟩
          simp [no_excess]
        · simp [alt]
      have prefix_eq : numPrefix (s.printedDigits value) s.base s.upper s.readFlags =
          numPrefix (s.printedDigits value) s.base s.upper (s.meant value) := by
        simp only [numPrefix, alt]
      rw [s.printed_unsigned value unsigned fits, s.text_layout value unsigned, prefix_eq,
        layout_congr (f := s.readFlags) (g := s.meant value) rfl rfl]
      by_cases space : Flag.space ∈ s.flags
      · have sign : numSign false s.readFlags =
          [' '.toUInt8] := by simp [numSign, readFlags, plus, space]
        rw [sign, blank_absorbed]
        exact ⟨fun absorbed => ⟨fits, fun _ => ⟨plus, fun _ => absorbed⟩, excess⟩,
          fun h => (h.2.1 unsigned).2 space⟩
      · have no_sign : numSign false s.readFlags = [] := by simp [numSign, readFlags, plus, space]
        rw [no_sign]
        exact ⟨fun _ => ⟨fits, fun _ => ⟨plus, fun e => absurd e space⟩, excess⟩, fun _ => rfl⟩
    · exact ⟨fun e => absurd (s.fits_of_printed value unsigned e) fits, fun h => absurd h.1 fits⟩

/-- An integer conversion follows the standard exactly when it is one of those. -/
theorem conversion_conforms_iff (s : Spec) (value : UInt64) :
    (∃ o, outFormat .toConsole s.format (s.args value) = some o ∧ o.printed = s.text value) ↔
    s.Conforms value := by
  rw [← printed_iff]
  have run := s.outFormat_format value
  rw [outText_console rfl] at run
  constructor
  · rintro ⟨o, run', text⟩
    cases run.symm.trans run'
    exact text
  · intro text
    exact ⟨_, run, text⟩

/-- `%+u` has a sign. -/
theorem plus_unsigned_differs :
    ¬ ∃ o, outFormat .toConsole (Spec.mk [.plus] .omitted .omitted .int .u).format
        ((Spec.mk [.plus] .omitted .omitted .int .u).args 5) = some o ∧
      o.printed = (Spec.mk [.plus] .omitted .omitted .int .u).text 5 := by
  rintro ⟨o, run, text⟩
  rw [outFormat_format, outText_console rfl] at run
  cases run
  have same : (Spec.mk [.plus] .omitted .omitted .int .u).printed 5 =
    (Spec.mk [.plus] .omitted .omitted .int .u).text 5 := text
  exact (printed_iff _ _ |>.mp same).2.1 rfl |>.1 (by decide)

end Spec

end Hearth.Doom
