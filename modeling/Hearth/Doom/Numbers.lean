import Hearth.Doom.Printf

/-!
# Numbers read back

`strtoul` and `strtol` of `guests/doom/libc/stdlib.c`, which read the text that
`out_num` prints: `out_num_reads_back`.
-/

namespace Hearth.Doom

/-- The value of a digit, whichever its case. -/
def digitValue (c : UInt8) : Nat :=
  if isdigit c then c.toNat - '0'.toNat
  else if isalpha c then (tolower c).toNat - 'a'.toNat + 10
  else 99

/-- The digits of a number and what is after them, which may be its NUL. -/
def strtoulDigits (base : Nat) (v : UInt64) : List UInt8 → UInt64 × List UInt8
  | [] => (v, [])
  | c :: p =>
    if digitValue c < base then
      strtoulDigits base (v * UInt64.ofNat base + UInt64.ofNat (digitValue c)) p
    else (v, c :: p)

/-- The base, and the digits without its prefix. -/
def strtoulBase (base : Nat) (p : List UInt8) : Nat × List UInt8 :=
  if (base = 0 ∨ base = 16) ∧ p[0]? = some '0'.toUInt8 ∧
    (p[1]? = some 'x'.toUInt8 ∨ p[1]? = some 'X'.toUInt8) ∧
      p[2]?.any isxdigit then
    (16, p.drop 2)
  else if base = 0 then (if p[0]? = some '0'.toUInt8 then 8 else 10, p)
  else (base, p)

/-- The number at the start of a string, and where it ends: at the start if there is none. -/
def strtoul (s : List UInt8) (base : Nat) : UInt64 × List UInt8 :=
  let p := s.dropWhile isspace
  let signed := p.head? = some '+'.toUInt8 ∨ p.head? = some '-'.toUInt8
  let neg := p.head? = some '-'.toUInt8
  let p := if signed then p.tail else p
  let (base, digits) := strtoulBase base p
  let (v, p) := strtoulDigits base 0 digits
  (if neg then -v else v, if p.length = digits.length then s else p)

/-- `strtol`. -/
def strtol (s : List UInt8) (base : Nat) : Int64 × List UInt8 :=
  let (v, p) := strtoul s base
  (v.toInt64, p)

variable {base : Nat} {upper : Bool} {flags : Flags}

/-! ## Digits -/

/-- A base that numbers are printed in. -/
def Base (base : Nat) : Prop := base = 8 ∨ base = 10 ∨ base = 16

/-- A base is at least two. -/
lemma Base.two_le (h : Base base) : 2 ≤ base := by
  obtain rfl | rfl | rfl := h <;> decide

/-- A base is at most sixteen. -/
lemma Base.le (h : Base base) : base ≤ 16 := by
  obtain rfl | rfl | rfl := h <;> decide

/-- A digit is read as the value it was written for. -/
lemma digitValue_digitChar (upper : Bool) : ∀ d < 16, digitValue (digitChar upper d) = d := by
  cases upper <;> decide

/-- The digits are hexadecimal digits. -/
lemma isxdigit_digitChar (upper : Bool) : ∀ d < 16, isxdigit (digitChar upper d) = true := by
  cases upper <;> decide

/-- Zero has no digits here. -/
lemma digitsOf_zero : digitsOf base upper 0 = [] := by
  rw [digitsOf, dif_pos (.inl rfl)]

/-- The last digit, and those in front. -/
lemma digitsOf_pos (h : Base base) {v : Nat} (pos : v ≠ 0) :
    digitsOf base upper v = digitChar upper (v % base) :: digitsOf base upper (v / base) := by
  have := h.two_le
  rw [digitsOf, dif_neg (by omega)]

/-- A number below a power of the base has no more digits than its exponent. -/
lemma digitsOf_length (h : Base base) (k : Nat) {v : Nat} (lt : v < base ^ k) :
    (digitsOf base upper v).length ≤ k := by
  induction k generalizing v with
  | zero =>
    obtain rfl : v = 0 := by
      rw [Nat.pow_zero] at lt
      omega
    rw [digitsOf_zero]
    exact Nat.le_refl 0
  | succ k ih =>
    by_cases pos : v = 0
    · subst pos
      rw [digitsOf_zero]
      exact Nat.zero_le _
    · rw [digitsOf_pos h pos]
      apply Nat.succ_le_succ
      apply ih
      exact Nat.div_lt_of_lt_mul (by rwa [← Nat.pow_succ'])

/-- There are at most 22 digits, in base eight. -/
lemma numDigits_length (h : Base base) (v : UInt64) (prec : Int) :
    (numDigits v base upper prec).length ≤ 22 := by
  unfold numDigits
  split
  · exact Nat.le_of_ble_eq_true rfl
  · apply digitsOf_length h
    have := v.toNat_lt
    have : 2 ^ 64 ≤ base ^ 22 := by
      obtain rfl | rfl | rfl := h <;> decide
    omega

/-- Every digit is one of the base. -/
lemma mem_digitsOf (h : Base base) {v : Nat} {c : UInt8} (mem : c ∈ digitsOf base upper v) :
    ∃ d < base, c = digitChar upper d := by
  have := h.two_le
  induction v using Nat.strongRecOn with
  | _ v ih =>
    by_cases pos : v = 0
    · rw [pos, digitsOf_zero] at mem
      exact absurd mem List.not_mem_nil
    · rw [digitsOf_pos h pos] at mem
      obtain rfl | mem := List.mem_cons.mp mem
      · exact ⟨v % base, Nat.mod_lt _ (by omega), rfl⟩
      · exact ih (v / base) (Nat.div_lt_self (by omega) this) mem

/-- They are digits of the base. -/
lemma mem_numDigits (h : Base base) {v : UInt64} {prec : Int} {c : UInt8}
    (mem : c ∈ numDigits v base upper prec) :
    ∃ d < base, c = digitChar upper d := by
  unfold numDigits at mem
  split at mem
  · refine ⟨0, Nat.lt_of_lt_of_le Nat.zero_lt_two h.two_le, ?_⟩
    rw [List.mem_singleton.mp mem]
    rfl
  · exact mem_digitsOf h mem

/-- Only zero has none, at precision zero. -/
lemma numDigits_nil (h : Base base) {v : UInt64} {prec : Int}
    (none : numDigits v base upper prec = []) : v = 0 := by
  unfold numDigits at none
  split at none
  · cases none
  · by_contra pos
    have pos : v.toNat ≠ 0 := fun e => pos (UInt64.toNat_inj.mp e)
    rw [digitsOf_pos h pos] at none
    cases none

/-- A digit of the base is read as its value. -/
lemma strtoulDigits_digit (h : Base base) {d : Nat} (lt : d < base) (v : UInt64) (p : List UInt8) :
    strtoulDigits base v (digitChar upper d :: p) =
      strtoulDigits base (v * UInt64.ofNat base + UInt64.ofNat d) p := by
  have value := digitValue_digitChar upper d (Nat.lt_of_lt_of_le lt h.le)
  rw [strtoulDigits, value, if_pos lt]

/-- Digits are read one after the other, the first one first. -/
lemma strtoulDigits_digitsOf (h : Base base) (v : Nat) (p : List UInt8) :
    strtoulDigits base 0 ((digitsOf base upper v).reverse ++ p) =
      strtoulDigits base (UInt64.ofNat v) p := by
  have two := h.two_le
  induction v using Nat.strongRecOn generalizing p with
  | _ v ih =>
    by_cases pos : v = 0
    · subst pos
      rw [digitsOf_zero]
      rfl
    · rw [digitsOf_pos h pos, List.reverse_cons, List.append_assoc,
        ih (v / base) (Nat.div_lt_self (by omega) two)]
      show strtoulDigits base _ (digitChar upper (v % base) :: p) = _
      rw [strtoulDigits_digit h (Nat.mod_lt _ (by omega)), ← UInt64.ofNat_mul, ← UInt64.ofNat_add,
        Nat.div_add_mod']

/-- Leading zeros make no difference. -/
lemma strtoulDigits_zeros (h : Base base) (z : Nat) (p : List UInt8) :
    strtoulDigits base 0 (List.replicate z '0'.toUInt8 ++ p) = strtoulDigits base 0 p := by
  induction z with
  | zero => rfl
  | succ z ih =>
    have lt : 0 < base := Nat.lt_of_lt_of_le Nat.zero_lt_two h.two_le
    show strtoulDigits base 0 (digitChar false 0 :: (List.replicate z '0'.toUInt8 ++ p)) = _
    rw [strtoulDigits_digit h lt, UInt64.zero_mul]
    exact ih

/-- The digits of a number are read as the number. -/
lemma strtoulDigits_numDigits (h : Base base) (v : UInt64) (prec : Int) (p : List UInt8) :
    strtoulDigits base 0 ((numDigits v base upper prec).reverse ++ p) = strtoulDigits base v p := by
  unfold numDigits
  split
  · next zero =>
    rw [zero.1]
    exact strtoulDigits_zeros h 1 p
  · rw [strtoulDigits_digitsOf h, UInt64.ofNat_toNat]

/-- What is no digit ends the number. -/
lemma strtoulDigits_blanks (h : Base base) (v : UInt64) (r : Nat) :
    strtoulDigits base v (List.replicate r ' '.toUInt8) = (v, List.replicate r ' '.toUInt8) := by
  cases r with
  | zero => rfl
  | succ r =>
    have := h.le
    show strtoulDigits base v (' '.toUInt8 :: List.replicate r ' '.toUInt8) = _
    rw [strtoulDigits, if_neg]
    · rfl
    · show ¬ 99 < base
      omega

/-! ## The layout -/

/-- The characters of a number without padding: `n` digits, and `m` that
are its sign and its prefix. -/
def plainLength (n m : Nat) (prec : Int) : Nat := n + (prec - n).toNat + m

/-- The number is filled up with zeros. -/
def fills (len : Nat) (width prec : Int) (flags : Flags) : Bool :=
  flags.zero && !flags.left && prec < 0 && (len : Int) < width

/-- The zeros that fill up a number to its precision or width. -/
def zerosOf (n m : Nat) (width prec : Int) (flags : Flags) : Nat :=
  (prec - n).toNat + if fills (plainLength n m prec) width prec flags then
    (width - plainLength n m prec).toNat else 0

/-- The blanks that fill it up to its width. -/
def blanksOf (n m : Nat) (width prec : Int) (flags : Flags) : Nat :=
  if fills (plainLength n m prec) width prec flags then 0 else (width - plainLength n m prec).toNat

/-- Blanks, the sign, the prefix, zeros, the digits, blanks. -/
def layout (sign before digits : List UInt8) (width prec : Int) (flags : Flags) : List UInt8 :=
  let m := sign.length + before.length
  let blanks := List.replicate (blanksOf digits.length m width prec flags) ' '.toUInt8
  (if flags.left then [] else blanks) ++ (sign ++ (before ++
    (List.replicate (zerosOf digits.length m width prec flags) '0'.toUInt8 ++
      (digits.reverse ++ if flags.left then blanks else []))))

/-- A number's text is its parts in order. -/
lemma numText_layout (v : UInt64) (neg : Bool) (base : Nat) (upper : Bool) (width prec : Int)
    (flags : Flags) :
    numText v neg base upper width prec flags = layout (numSign neg flags)
      (numPrefix (numDigits v base upper prec) base upper flags)
        (numDigits v base upper prec) width prec flags := by
  let digits := numDigits v base upper prec
  let before := numPrefix digits base upper flags
  let m := (numSign neg flags).length + before.length
  have zeros : (if (digits.length : Int) < prec then prec - digits.length else 0) =
      ((prec - digits.length).toNat : Int) := by
    split <;> omega
  have len : (digits.length : Int) + ((prec - digits.length).toNat : Int) +
    (numSign neg flags).length + before.length =
      plainLength digits.length m prec := by
    unfold plainLength
    omega
  have fill : (flags.zero && !flags.left && decide (prec < 0) &&
      decide ((plainLength digits.length m prec : Int) < width)) =
        fills (plainLength digits.length m prec) width prec flags := rfl
  unfold numText layout blanksOf zerosOf
  simp only
  rw [zeros, len, fill]
  cases filled : fills (plainLength digits.length m prec) width prec flags
  · simp only [Bool.false_eq_true, if_false, Int.toNat_natCast, Nat.add_zero]
    cases flags.left <;>
      simp only [Bool.false_eq_true, if_true, if_false, List.append_assoc, List.append_nil,
        List.nil_append] <;> rfl
  · have room : (plainLength digits.length m prec : Int) < width := by
      simp only [fills, Bool.and_eq_true, decide_eq_true_eq] at filled
      exact filled.2
    have all : ((prec - digits.length).toNat +
      (width - plainLength digits.length m prec) : Int).toNat =
        (prec - digits.length).toNat + (width - plainLength digits.length m prec).toNat := by
      omega
    simp only [if_true, Int.sub_self, Int.toNat_zero, List.replicate_zero, all]
    cases flags.left <;>
      simp only [Bool.false_eq_true, if_true, if_false, List.append_assoc, List.append_nil,
        List.nil_append] <;> rfl

/-- The characters after the sign. -/
def Inner (c : UInt8) : Prop := c = ' '.toUInt8 ∨ ∃ d upper, d < 16 ∧ c = digitChar upper d

/-- No such character is an `x`. -/
lemma Inner.no_x {c : UInt8} (h : Inner c) : c ≠ 'x'.toUInt8 ∧ c ≠ 'X'.toUInt8 := by
  obtain rfl | ⟨d, upper, lt, rfl⟩ := h
  · decide
  · have all : ∀ d < 16, digitChar upper d ≠ 'x'.toUInt8 ∧ digitChar upper d ≠ 'X'.toUInt8 := by
      cases upper <;> decide
    exact all d lt

/-- A number that has no letter of a prefix. -/
lemma strtoulBase_same (h : Base base) {p : List UInt8} (inner : ∀ c ∈ p, Inner c) :
    strtoulBase base p = (base, p) := by
  have two := h.two_le
  rw [strtoulBase, if_neg, if_neg (by omega)]
  rintro ⟨_, _, x | x, _⟩
  · exact (inner _ (List.mem_of_getElem? x)).no_x.1 rfl
  · exact (inner _ (List.mem_of_getElem? x)).no_x.2 rfl

/-- Zeros, digits and blanks. -/
lemma inner_digits (h : Base base) {v : UInt64} {prec : Int} (z r : Nat) :
    ∀ c ∈ List.replicate z '0'.toUInt8 ++
      ((numDigits v base upper prec).reverse ++ List.replicate r ' '.toUInt8),
      Inner c := by
  intro c mem
  obtain zero | mem := List.mem_append.mp mem
  · rw [List.eq_of_mem_replicate zero]
    exact .inr ⟨0, false, by decide, rfl⟩
  obtain digit | blank := List.mem_append.mp mem
  · obtain ⟨d, lt, rfl⟩ := mem_numDigits h (List.mem_reverse.mp digit)
    exact .inr ⟨d, upper, Nat.lt_of_lt_of_le lt h.le, rfl⟩
  · exact .inl (List.eq_of_mem_replicate blank)

/-- The number after the sign. -/
lemma strtoulDigits_after (h : Base base) (v : UInt64) (prec : Int) (z r : Nat) :
    (strtoulDigits base 0 (List.replicate z '0'.toUInt8 ++
      ((numDigits v base upper prec).reverse ++ List.replicate r ' '.toUInt8))).1 = v := by
  rw [strtoulDigits_zeros h, strtoulDigits_numDigits h, strtoulDigits_blanks h]

/-- A number starts with a digit: one of its own, or a zero of its prefix or of those before it. -/
lemma head_after (upper : Bool) (h : Base base) (v : UInt64) (prec : Int) (z : Nat)
    (p : List UInt8) :
    (List.replicate z '0'.toUInt8 ++ ((numDigits v base upper prec).reverse ++ p)).head?.any
      isxdigit = true ∨
      z = 0 ∧ numDigits v base upper prec = [] := by
  cases z with
  | succ z => exact .inl rfl
  | zero =>
    cases digits : (numDigits v base upper prec).reverse with
    | nil => exact .inr ⟨rfl, List.reverse_eq_nil_iff.mp digits⟩
    | cons c rest =>
      have mem : c ∈ numDigits v base upper prec := by
        rw [← List.mem_reverse, digits]
        exact List.mem_cons_self
      obtain ⟨d, lt, rfl⟩ := mem_numDigits h mem
      exact .inl (isxdigit_digitChar upper d (Nat.lt_of_lt_of_le lt h.le))

/-- What comes after the sign is read back. -/
lemma strtoul_after (upper : Bool) (flags : Flags) (h : Base base) (v : UInt64)
    (prec : Int) (z r : Nat) :
    ∃ base' digits, strtoulBase base (numPrefix (numDigits v base upper prec) base upper flags ++
        (List.replicate z '0'.toUInt8 ++
          ((numDigits v base upper prec).reverse ++ List.replicate r ' '.toUInt8))) =
      (base', digits) ∧ (strtoulDigits base' 0 digits).1 = v := by
  unfold numPrefix
  split
  · next hex =>
    obtain ⟨_, rfl, some_digit, _⟩ := hex
    refine ⟨16, _, if_pos ⟨.inr rfl, rfl, ?_, ?_⟩, strtoulDigits_after h v prec z r⟩
    · cases upper
      · exact .inl rfl
      · exact .inr rfl
    · obtain head | ⟨_, no_digit⟩ := head_after upper h v prec z (List.replicate r ' '.toUInt8)
      · rw [List.head?_eq_getElem?] at head
        exact head
      · exact absurd no_digit some_digit
  split
  · exact ⟨base, _, strtoulBase_same h (inner_digits h (z + 1) r),
      strtoulDigits_after h v prec (z + 1) r⟩
  · exact ⟨base, _, strtoulBase_same h (inner_digits h z r), strtoulDigits_after h v prec z r⟩

/-- What is read without a sign. -/
lemma strtoul_unsigned {s p : List UInt8} (start : s.dropWhile isspace = p)
    (plus : p.head? ≠ some '+'.toUInt8)
    (minus : p.head? ≠ some '-'.toUInt8) {base' : Nat} {digits : List UInt8}
    (radix : strtoulBase base p = (base', digits)) :
    (strtoul s base).1 = (strtoulDigits base' 0 digits).1 := by
  simp only [strtoul, start, plus, minus, or_self, if_false, radix]

/-- What is read behind a sign. -/
lemma strtoul_signed {s p : List UInt8} {sign : UInt8} (start : s.dropWhile isspace = sign :: p)
    (signed : sign = '+'.toUInt8 ∨ sign = '-'.toUInt8) {base' : Nat} {digits : List UInt8}
    (radix : strtoulBase base p = (base', digits)) :
    (strtoul s base).1 =
      if sign = '-'.toUInt8 then -(strtoulDigits base' 0 digits).1
        else (strtoulDigits base' 0 digits).1 := by
  simp only [strtoul, start, List.head?_cons, Option.some.injEq, signed, if_true,
    List.tail_cons, radix]

/-- Blanks in front are skipped. -/
lemma dropWhile_blanks (l : Nat) (s : List UInt8) :
    (List.replicate l ' '.toUInt8 ++ s).dropWhile isspace = s.dropWhile isspace := by
  induction l with
  | zero => rfl
  | succ l ih => exact ih

/-- A digit is neither a blank nor a sign. -/
lemma isxdigit_start {c : UInt8} (h : isxdigit c = true) :
    isspace c = false ∧ c ≠ '+'.toUInt8 ∧ c ≠ '-'.toUInt8 := by
  have le : '0'.toUInt8 ≤ c := by
    simp only [isxdigit, isdigit, Bool.or_eq_true, Bool.and_eq_true, decide_eq_true_eq] at h
    obtain (⟨le, _⟩ | ⟨le, _⟩) | ⟨le, _⟩ := h
    · exact le
    · exact UInt8.le_trans (by decide) le
    · exact UInt8.le_trans (by decide) le
  refine ⟨?_, ?_, ?_⟩
  · have above : '\r'.toUInt8 < c := UInt8.lt_of_lt_of_le (by decide) le
    simp only [isspace, Bool.or_eq_false_iff, beq_eq_false_iff_ne, Bool.and_eq_false_iff,
      decide_eq_false_iff_not]
    refine ⟨?_, .inr (UInt8.not_le.mpr above)⟩
    rintro rfl
    exact absurd le (by decide)
  · rintro rfl
    exact absurd le (by decide)
  · rintro rfl
    exact absurd le (by decide)

/-- A number without a sign is read back, after any blanks. -/
lemma strtoul_plain (h : Base base) (v : UInt64) (prec : Int) (l z r : Nat) :
    (strtoul (List.replicate l ' '.toUInt8 ++
      (numPrefix (numDigits v base upper prec) base upper flags ++
        (List.replicate z '0'.toUInt8 ++
          ((numDigits v base upper prec).reverse ++ List.replicate r ' '.toUInt8))))
      base).1 = v := by
  obtain ⟨base', digits, radix, value⟩ := strtoul_after upper flags h v prec z r
  generalize text :
    numPrefix (numDigits v base upper prec) base upper flags ++ (List.replicate z '0'.toUInt8 ++
    ((numDigits v base upper prec).reverse ++ List.replicate r ' '.toUInt8)) = p at radix
  cases head : p.head?.any isxdigit with
  | true =>
    cases p with
    | nil => cases head
    | cons c p =>
      have ⟨no_space, plus, minus⟩ := isxdigit_start head
      have start : (List.replicate l ' '.toUInt8 ++ c :: p).dropWhile isspace = c :: p := by
        rw [dropWhile_blanks, List.dropWhile_cons_of_neg (by simp [no_space])]
      rw [strtoul_unsigned start (by simpa using plus) (by simpa using minus) radix]
      exact value
  | false =>
    -- there is no digit at all, which is a zero that is not printed
    have unprefixed : numPrefix (numDigits v base upper prec) base upper flags = [] := by
      revert text
      unfold numPrefix
      split
      · rintro rfl
        cases head
      split
      · rintro rfl
        cases head
      · exact fun _ => rfl
    rw [unprefixed, List.nil_append] at text
    obtain some_digit | ⟨rfl, no_digit⟩ :=
      head_after upper h v prec z (List.replicate r ' '.toUInt8)
    · rw [text, head] at some_digit
      cases some_digit
    · rw [no_digit] at text
      obtain rfl : List.replicate r ' '.toUInt8 = p := text
      have start : (List.replicate l ' '.toUInt8 ++ List.replicate r ' '.toUInt8).dropWhile
        isspace = [] := by
        rw [dropWhile_blanks, ← List.append_nil (List.replicate r _), dropWhile_blanks]
        rfl
      rw [strtoul_unsigned start nofun nofun (strtoulBase_same h nofun), numDigits_nil h no_digit]
      rfl

/-- What is read behind blanks and a sign. -/
lemma strtoul_sign {p : List UInt8} {sign : UInt8}
    (signed : sign = '+'.toUInt8 ∨ sign = '-'.toUInt8) (l : Nat)
    {base' : Nat} {digits : List UInt8} (radix : strtoulBase base p = (base', digits)) :
    (strtoul (List.replicate l ' '.toUInt8 ++ ([sign] ++ p)) base).1 =
      if sign = '-'.toUInt8 then -(strtoulDigits base' 0 digits).1
        else (strtoulDigits base' 0 digits).1 := by
  apply strtoul_signed _ signed radix
  rw [dropWhile_blanks]
  obtain rfl | rfl := signed <;> rfl

/-- A number is read back with its sign. -/
lemma strtoul_numText (h : Base base) (v : UInt64) (neg : Bool) (width prec : Int) :
    (strtoul (numText v neg base upper width prec flags) base).1 = if neg then -v else v := by
  rw [numText_layout, layout]
  generalize blanksOf _ _ width prec flags = blanks
  generalize zerosOf _ _ width prec flags = z
  obtain ⟨l, r, left, right⟩ :
    ∃ l r, (if flags.left then [] else List.replicate blanks ' '.toUInt8) =
      List.replicate l ' '.toUInt8 ∧
      (if flags.left then List.replicate blanks ' '.toUInt8 else []) =
        List.replicate r ' '.toUInt8 := by
    cases flags.left
    · exact ⟨blanks, 0, rfl, rfl⟩
    · exact ⟨0, blanks, rfl, rfl⟩
  simp only [left, right]
  obtain ⟨base', digits, radix, value⟩ := strtoul_after upper flags h v prec z r
  unfold numSign
  split
  · rw [strtoul_sign (.inr rfl) l radix, value]
    rfl
  split
  · rw [strtoul_sign (.inl rfl) l radix, value]
    rfl
  split
  · rw [← List.append_assoc, ← List.replicate_succ']
    exact strtoul_plain h v prec (l + 1) z r
  · exact strtoul_plain h v prec l z r

/-- The console prints the number's text. -/
lemma outNum_console (v : UInt64) (neg : Bool) (base : Nat) (upper : Bool) (width prec : Int)
    (flags : Flags) :
    (outNum .toConsole v neg base upper width prec flags).printed =
      numText v neg base upper width prec flags := by
  rw [outNum_eq, outText_console rfl]
  rfl

/-- What is given to `outNum` for a `long`. -/
def magnitude (v : Int64) : UInt64 := if v < 0 then -v.toUInt64 else v.toUInt64

/-- The value without its sign, with the sign, is the value. -/
lemma magnitude_signed (v : Int64) :
    (if decide (v < 0) then -magnitude v else magnitude v) = v.toUInt64 := by
  unfold magnitude
  by_cases neg : v < 0
  · simp only [neg, decide_true, if_true, UInt64.neg_neg]
  · simp only [neg, decide_false, if_false, Bool.false_eq_true]

/-- A number that is printed is read back, and its digits are inside the
buffer they are put together in. -/
theorem out_num_reads_back (h : base = 8 ∨ base = 10 ∨ base = 16) (upper : Bool) (width prec : Int)
    (flags : Flags) :
    (∀ (v : UInt64) (neg : Bool),
      (strtoul (outNum .toConsole v neg base upper width prec flags).printed base).1 =
        if neg then -v else v) ∧
    (∀ v : Int64,
      (strtol (outNum .toConsole (magnitude v) (v < 0) base upper width prec flags).printed
        base).1 = v) ∧
    ∀ v : UInt64, (numDigits v base upper prec).length ≤ 24 := by
  have unsigned (v : UInt64) (neg : Bool) :
      (strtoul (outNum .toConsole v neg base upper width prec flags).printed base).1 =
        if neg then -v else v := by
    rw [outNum_console]
    exact strtoul_numText h v neg width prec
  refine ⟨unsigned, fun v => ?_, fun v => ?_⟩
  · show (strtoul _ base).1.toInt64 = v
    rw [unsigned, magnitude_signed]
    rfl
  · exact Nat.le_trans (numDigits_length h v prec) (by decide)

/-- The most negative `long`, in a field of 30. -/
theorem out_num_reads_back_min :
    (strtol (outNum .toConsole (magnitude Int64.minValue) (Int64.minValue < 0) 10 false 30
      (-1) .none).printed 10).1 =
      Int64.minValue :=
  (out_num_reads_back (.inr (.inl rfl)) false 30 (-1) .none).2.1 Int64.minValue

end Hearth.Doom
