import Mathlib

/-!
# Classes of characters

`guests/doom/libc/ctype.c`, for the arguments it is called with: the values of `unsigned char`.
-/

namespace Hearth.Doom

/-- A decimal digit. -/
def isdigit (c : UInt8) : Bool := '0'.toUInt8 ≤ c && c ≤ '9'.toUInt8
/-- A small letter. -/
def islower (c : UInt8) : Bool := 'a'.toUInt8 ≤ c && c ≤ 'z'.toUInt8
/-- A capital letter. -/
def isupper (c : UInt8) : Bool := 'A'.toUInt8 ≤ c && c ≤ 'Z'.toUInt8
/-- A letter. -/
def isalpha (c : UInt8) : Bool := islower c || isupper c

/-- A hexadecimal digit, in either case. -/
def isxdigit (c : UInt8) : Bool :=
  isdigit c || ('a'.toUInt8 ≤ c && c ≤ 'f'.toUInt8) || ('A'.toUInt8 ≤ c && c ≤ 'F'.toUInt8)

/-- A blank, or one of the controls from tab to carriage return. -/
def isspace (c : UInt8) : Bool := c == ' '.toUInt8 || ('\t'.toUInt8 ≤ c && c ≤ '\r'.toUInt8)
/-- A capital letter made small; anything else is kept. -/
def tolower (c : UInt8) : UInt8 := if isupper c then c + ('a'.toUInt8 - 'A'.toUInt8) else c

end Hearth.Doom
