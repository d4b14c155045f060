import BoardBlob.Text.Hexadecimal
import BoardBlob.Text.Unprinted

/-!
# Quoted text

Names and texts stand in messages between double quotes. A quote, a backslash and the common control
characters are written with a backslash; every other character without a printed form is written as
its code point in braces. An apostrophe is written as itself.
-/

namespace BoardBlob.Quoted

/-- A code point in braces. -/
def codePoint (character : Char) : List Char :=
  ['\\', 'u', '{'] ++ Nat.toDigits 16 character.toNat ++ ['}']

/-- A character as written between the quotes. -/
def escape (character : Char) : List Char :=
  match character with
  | '\x00' => ['\\', '0']
  | '\t' => ['\\', 't']
  | '\n' => ['\\', 'n']
  | '\r' => ['\\', 'r']
  | '"' => ['\\', '"']
  | '\\' => ['\\', '\\']
  | _ => if unprinted character then codePoint character else [character]

/-- A text between quotes. -/
def text (content : String) : String :=
  String.ofList ('"' :: content.toList.flatMap escape ++ ['"'])

end BoardBlob.Quoted
