import BoardBlob.Text.Blank

/-!
# Numbers written as text

A board and the command line write numbers as text in the same way: white space around the number
and underscores anywhere in it do not count; `0x` or `0X` starts a hexadecimal number and anything
else is decimal; one plus sign may stand before the digits. The number must be below 2^64. Digits
are read from the left, so of two faults the one further left is reported, and a number is too
large as soon as its first digits are.
-/

namespace BoardBlob.Numeral

/-- Why a text is not a number. -/
inductive Fault where
  /-- No digit was written. -/
  | empty
  /-- A character is not a digit of the base. -/
  | invalidDigit
  /-- The number is 2^64 or more. -/
  | tooLarge
  deriving DecidableEq, Repr

/-- The fault in words. -/
def Fault.message : Fault → String
  | empty => "cannot parse integer from empty string"
  | invalidDigit => "invalid digit found in string"
  | tooLarge => "number too large to fit in target type"

/-- The value of a digit, in either letter case, when the base has it. -/
def digitValue? (base : Nat) (character : Char) : Option Nat :=
  let point := character.toNat
  let value :=
    if 0x30 ≤ point && point ≤ 0x39 then point - 0x30
    else if 0x41 ≤ point && point ≤ 0x5a then point - 0x41 + 10
    else if 0x61 ≤ point && point ≤ 0x7a then point - 0x61 + 10
    else base
  if value < base then some value else none

/-- Reads the remaining digits of a number whose digits so far stand for `value`. -/
def readDigits (base value : Nat) : List Char → Except Fault Nat
  | [] => .ok value
  | character :: rest =>
    match digitValue? base character with
    | none => .error .invalidDigit
    | some digit =>
      let grown := value * base + digit
      if grown < UInt64.size then readDigits base grown rest else .error .tooLarge

/-- Reads a number in a base, after an optional plus sign. -/
def readBase (base : Nat) : List Char → Except Fault Nat
  | [] => .error .empty
  | ['+'] => .error .invalidDigit
  | '+' :: digits => readDigits base 0 digits
  | digits => readDigits base 0 digits

/-- The characters that count: those between the white space at the ends, less the underscores. -/
def significant (text : String) : List Char :=
  (Blank.trim text.toList).filter fun character => character != '_'

/-- Reads a number from the characters that count. -/
def readSignificant : List Char → Except Fault Nat
  | '0' :: 'x' :: digits => readBase 16 digits
  | '0' :: 'X' :: digits => readBase 16 digits
  | digits => readBase 10 digits

/-- The number that a text stands for. -/
def read (text : String) : Except Fault UInt64 :=
  (readSignificant (significant text)).map UInt64.ofNat

end BoardBlob.Numeral
