import BoardBlob.Json.Number

/-!
# Tokens of a document

A document is read as a list of tokens. A stretch of text that is no token becomes a token that
carries its fault, and ends the list: the fault is reported only by a reader that asks for a value
there, because a reader that asks for a comma has met another fault first. A text that breaks off
is kept apart from other faults, since it still shows that a key or a value in quotes began there.
-/

namespace BoardBlob.Json

/-- One token. -/
inductive Token where
  | openObject
  | closeObject
  | openList
  | closeList
  | colon
  | comma
  | null
  | boolean (value : Bool)
  | number (value : Number)
  | text (value : String)
  /-- What begins here with a quote is no text. -/
  | brokenText (fault : Fault)
  /-- What begins here without a quote is no token. -/
  | broken (fault : Fault)
  deriving DecidableEq, Repr

/-- A character between tokens. -/
def isSeparator (character : Char) : Bool :=
  character == ' ' || character == '\t' || character == '\n' || character == '\r'

/-! ## Texts -/

/-- The value of a hexadecimal digit, in either letter case. -/
def hexDigit? (character : Char) : Option Nat :=
  let point := character.toNat
  if 0x30 ≤ point ∧ point ≤ 0x39 then some (point - 0x30)
  else if 0x41 ≤ point ∧ point ≤ 0x46 then some (point - 0x41 + 10)
  else if 0x61 ≤ point ∧ point ≤ 0x66 then some (point - 0x61 + 10)
  else none

/-- Count of bytes that the first four characters of a text take in UTF-8. -/
def leadingBytes (text : List Char) : Nat := (String.ofList (text.take 4)).utf8ByteSize

/-- Reads four hexadecimal digits. A text with fewer than four bytes left has ended; any other text
that has no four digits is a wrong escape. -/
def readHex (text : List Char) : Except Fault (Nat × List Char) :=
  let wrong : Fault :=
    if leadingBytes text < 4 then .unfinished .text else .grammar .invalidEscape
  match text with
  | first :: second :: third :: fourth :: rest =>
    match hexDigit? first, hexDigit? second, hexDigit? third, hexDigit? fourth with
    | some a, some b, some c, some d => .ok (((a * 16 + b) * 16 + c) * 16 + d, rest)
    | _, _, _, _ => .error wrong
  | _ => .error wrong

/-- A code unit is the first of a surrogate pair. -/
def isHighSurrogate (unit : Nat) : Bool := 0xd800 ≤ unit && unit ≤ 0xdbff

/-- A code unit is the second of a surrogate pair. -/
def isLowSurrogate (unit : Nat) : Bool := 0xdc00 ≤ unit && unit ≤ 0xdfff

/-- Reads what must follow the first code unit of a surrogate pair: the escape of the second. -/
def readLowSurrogate (high : Nat) (text : List Char) : Except Fault (Char × List Char) :=
  match text with
  | [] => .error (.unfinished .text)
  | ['\\'] => .error (.unfinished .text)
  | '\\' :: 'u' :: rest =>
    match readHex rest with
    | .error fault => .error fault
    | .ok (low, rest) =>
      if isLowSurrogate low then
        .ok (Char.ofNat ((high - 0xd800) * 0x400 + (low - 0xdc00) + 0x10000), rest)
      else .error (.grammar .loneSurrogate)
  | _ => .error (.grammar .unfinishedSurrogate)

/-- Reads the escape of a code unit, after its letter. -/
def readUnit (text : List Char) : Except Fault (Char × List Char) :=
  match readHex text with
  | .error fault => .error fault
  | .ok (unit, rest) =>
    if isLowSurrogate unit then .error (.grammar .loneSurrogate)
    else if isHighSurrogate unit then readLowSurrogate unit rest
    else .ok (Char.ofNat unit, rest)

/-- Reads an escape, after its backslash. -/
def readEscape (text : List Char) : Except Fault (Char × List Char) :=
  match text with
  | [] => .error (.unfinished .text)
  | '"' :: rest => .ok ('"', rest)
  | '\\' :: rest => .ok ('\\', rest)
  | '/' :: rest => .ok ('/', rest)
  | 'b' :: rest => .ok ('\x08', rest)
  | 'f' :: rest => .ok ('\x0c', rest)
  | 'n' :: rest => .ok ('\n', rest)
  | 'r' :: rest => .ok ('\r', rest)
  | 't' :: rest => .ok ('\t', rest)
  | 'u' :: rest => readUnit rest
  | _ => .error (.grammar .invalidEscape)

/-- Reads a text after its opening quote, up to and with its closing quote. The length of the first
argument bounds the count of characters read, for which the input itself is always long enough; the
second argument holds the characters read so far, the last one first. -/
def readTextWithin : List Char → List Char → List Char → Except Fault (String × List Char)
  | [], _, _ => .error (.unfinished .text)
  | _ :: _, _, [] => .error (.unfinished .text)
  | _ :: _, read, '"' :: rest => .ok (String.ofList read.reverse, rest)
  | _ :: limit, read, '\\' :: rest =>
    match readEscape rest with
    | .error fault => .error fault
    | .ok (character, rest) => readTextWithin limit (character :: read) rest
  | _ :: limit, read, character :: rest =>
    if character.toNat < 0x20 then .error (.grammar .controlCharacter)
    else readTextWithin limit (character :: read) rest

/-- Reads a text after its opening quote, up to and with its closing quote. -/
def readText (text : List Char) : Except Fault (String × List Char) := readTextWithin text [] text

/-! ## Numbers -/

/-- The value of a decimal digit. -/
def digit? (character : Char) : Option Nat :=
  let point := character.toNat
  if 0x30 ≤ point ∧ point ≤ 0x39 then some (point - 0x30) else none

/-- Splits off the decimal digits at the start of a text. -/
def takeDigits : List Char → List Nat × List Char
  | [] => ([], [])
  | character :: rest =>
    match digit? character with
    | none => ([], character :: rest)
    | some digit => let (digits, rest) := takeDigits rest; (digit :: digits, rest)

/-- Reads the digits that must stand here. -/
def readDigits (text : List Char) : Except Fault (List Nat × List Char) :=
  match takeDigits text with
  | ([], []) => .error (.unfinished .value)
  | ([], _) => .error (.grammar .invalidNumber)
  | found => .ok found

/-- Reads the digits before the point. A zero stands alone. -/
def readWhole (text : List Char) : Except Fault (List Nat × List Char) :=
  match readDigits text with
  | .error fault => .error fault
  | .ok (0 :: _ :: _, _) => .error (.grammar .invalidNumber)
  | .ok found => .ok found

/-- Reads the fraction, if there is one. -/
def readFraction (text : List Char) : Except Fault (Option (List Nat) × List Char) :=
  match text with
  | '.' :: rest => (readDigits rest).map fun (digits, rest) => (some digits, rest)
  | _ => .ok (none, text)

/-- Reads the sign of an exponent and says whether it is a minus. -/
def readSign (text : List Char) : Bool × List Char :=
  match text with
  | '+' :: rest => (false, rest)
  | '-' :: rest => (true, rest)
  | _ => (false, text)

/-- Reads the exponent, if there is one. -/
def readExponent (text : List Char) : Except Fault (Option (Bool × List Nat) × List Char) :=
  match text with
  | [] => .ok (none, [])
  | mark :: rest =>
    if mark = 'e' ∨ mark = 'E' then
      let (isNegative, rest) := readSign rest
      (readDigits rest).map fun (digits, rest) => (some (isNegative, digits), rest)
    else .ok (none, mark :: rest)

/-- Reads a number literal after its sign. -/
def readLiteral (negative : Bool) (text : List Char) : Except Fault (Literal × List Char) := do
  let (whole, rest) ← readWhole text
  let (fraction, rest) ← readFraction rest
  let (exponent, rest) ← readExponent rest
  .ok (⟨negative, whole, fraction, exponent⟩, rest)

/-- Reads a number after its sign. -/
def readNumber (negative : Bool) (text : List Char) : Except Fault (Number × List Char) := do
  let (literal, rest) ← readLiteral negative text
  match literal.number? with
  | none => .error (.grammar .numberOutOfRange)
  | some number => .ok (number, rest)

/-! ## Tokens -/

/-- Reads the rest of a word of which the first letter was read. -/
def readWord (value : Token) : List Char → List Char → Except Fault (Token × List Char)
  | [], text => .ok (value, text)
  | _ :: _, [] => .error (.unfinished .value)
  | expected :: more, character :: rest =>
    if character = expected then readWord value more rest else .error (.grammar .expectedIdent)

/-- The token that a finished reading stands for, with the text after it; a fault ends the text. -/
def settle (found : Except Fault (Token × List Char)) : Token × List Char :=
  match found with
  | .ok found => found
  | .error fault => (.broken fault, [])

/-- The token that begins with a character, and the text after it. -/
def readToken (character : Char) (rest : List Char) : Token × List Char :=
  match character with
  | '\x7b' => (.openObject, rest)
  | '\x7d' => (.closeObject, rest)
  | '[' => (.openList, rest)
  | ']' => (.closeList, rest)
  | ':' => (.colon, rest)
  | ',' => (.comma, rest)
  | 'n' => settle (readWord .null ['u', 'l', 'l'] rest)
  | 't' => settle (readWord (.boolean true) ['r', 'u', 'e'] rest)
  | 'f' => settle (readWord (.boolean false) ['a', 'l', 's', 'e'] rest)
  | '"' =>
    match readText rest with
    | .ok (content, rest) => (.text content, rest)
    | .error fault => (.brokenText fault, [])
  | '-' => settle ((readNumber true rest).map fun (number, rest) => (.number number, rest))
  | _ =>
    if (digit? character).isSome then
      settle ((readNumber false (character :: rest)).map fun (number, rest) =>
        (.number number, rest))
    else (.broken (.grammar .expectedValue), [])

/-- The tokens of a text. The length of the first argument bounds the count of separators and tokens
read, for which the text itself is always long enough; the second argument holds the tokens read so
far, the last one first. -/
def tokensWithin : List Char → List Token → List Char → List Token
  | [], read, _ => read.reverse
  | _ :: _, read, [] => read.reverse
  | _ :: limit, read, character :: rest =>
    if isSeparator character then tokensWithin limit read rest
    else
      let (token, rest) := readToken character rest
      tokensWithin limit (token :: read) rest

/-- The tokens of a document. -/
def tokens (text : String) : List Token :=
  let characters := text.toList
  tokensWithin characters [] characters

end BoardBlob.Json
