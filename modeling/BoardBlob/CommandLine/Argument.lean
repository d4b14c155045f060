/-!
# Forms of an argument

What one argument is can be told from its first characters alone: two dashes begin a word, one dash
begins letters, and two dashes alone separate the options from what follows. A single dash is an
operand like any other text.
-/

namespace BoardBlob.CommandLine

/-- One argument by its form. -/
inductive Argument where
  /-- Everything after it is an operand. -/
  | separator
  /-- The word of an option, and the value after its equals sign. -/
  | word (word : String) (value : Option String)
  /-- The letters of options, of which the last may be followed by its value. -/
  | letters (letters : List Char)
  /-- An operand, or the value of the option before it. -/
  | plain (text : String)
  deriving DecidableEq, Repr

/-- A word and, when it has an equals sign, the value after the first. -/
def splitValue (characters : List Char) : Argument :=
  let isWord (character : Char) : Bool := character != '='
  let word := String.ofList (characters.takeWhile isWord)
  match characters.dropWhile isWord with
  | [] => .word word none
  | _ :: value => .word word (some (String.ofList value))

/-- The form of an argument. -/
def Argument.of (written : String) : Argument :=
  match written.toList with
  | ['-', '-'] => .separator
  | '-' :: '-' :: characters => splitValue characters
  | ['-'] => .plain written
  | '-' :: characters => .letters characters
  | _ => .plain written

end BoardBlob.CommandLine
