import BoardBlob.Text.Quoted
import BoardBlob.Text.RealText

/-!
# Faults of a document

Why a board document cannot be read: its text breaks the grammar of JSON, ends too early, or holds a
value of another shape than the board has at that place. A document is read once from its start, so
the fault that is met first is the one reported. A fault keeps what is wrong and not where: its
message has neither the line nor the column of the text at which reading stopped.
-/

namespace BoardBlob.Json

/-- A breach of the grammar. -/
inductive GrammarFault where
  | expectedColon
  | expectedCommaOrListEnd
  | expectedCommaOrObjectEnd
  | expectedIdent
  | expectedValue
  | invalidEscape
  | invalidNumber
  | numberOutOfRange
  | controlCharacter
  | keyNotText
  | loneSurrogate
  | unfinishedSurrogate
  | trailingComma
  | trailingCharacters
  | tooDeep
  deriving DecidableEq, Repr

/-- The fault in words. -/
def GrammarFault.message : GrammarFault → String
  | expectedColon => "expected `:`"
  | expectedCommaOrListEnd => "expected `,` or `]`"
  | expectedCommaOrObjectEnd => "expected `,` or `\x7d`"
  | expectedIdent => "expected ident"
  | expectedValue => "expected value"
  | invalidEscape => "invalid escape"
  | invalidNumber => "invalid number"
  | numberOutOfRange => "number out of range"
  | controlCharacter => "control character (\\u0000-\\u001F) found while parsing a string"
  | keyNotText => "key must be a string"
  | loneSurrogate => "lone leading surrogate in hex escape"
  | unfinishedSurrogate => "unexpected end of hex escape"
  | trailingComma => "trailing comma"
  | trailingCharacters => "trailing characters"
  | tooDeep => "recursion limit exceeded"

/-- What the text was inside of when it ended. -/
inductive Unfinished where
  | value
  | list
  | object
  | text
  deriving DecidableEq, Repr

/-- The fault in words. -/
def Unfinished.message : Unfinished → String
  | value => "EOF while parsing a value"
  | list => "EOF while parsing a list"
  | object => "EOF while parsing an object"
  | text => "EOF while parsing a string"

/-- A value that was found where another was expected. -/
inductive Found where
  | null
  | boolean (value : Bool)
  | whole (value : Nat)
  | negative (magnitude : Nat)
  | real (value : Float)
  | text (value : String)
  | list
  | object
  deriving DecidableEq, Repr

/-- The value in words. -/
def Found.message : Found → String
  | null => "null"
  | boolean true => "boolean `true`"
  | boolean false => "boolean `false`"
  | whole value => "integer `" ++ value.repr ++ "`"
  | negative magnitude => "integer `-" ++ magnitude.repr ++ "`"
  | real value => "floating point `" ++ messageReals.text value ++ "`"
  | text value => "string " ++ Quoted.text value
  | list => "sequence"
  | object => "map"

/-- A value of another shape than the place asks for. -/
inductive ShapeFault where
  /-- A value of another kind. -/
  | unexpected (found : Found) (expected : String)
  /-- A member that the object does not have. -/
  | unknownMember (name : String) (known : List String)
  /-- A member that was given before. -/
  | repeatedMember (name : String)
  /-- A required member that was not given. -/
  | missingMember (name : String)
  /-- A list that ends before a required item. -/
  | tooFewItems (count : Nat) (expected : String)
  /-- A value that is none of the alternatives. -/
  | noAlternative (expected : String)
  deriving DecidableEq, Repr

/-- A name between backquotes. -/
def backquoted (name : String) : String := "`" ++ name ++ "`"

/-- The names that were possible, in words. -/
def oneOf : List String → String
  | [only] => backquoted only
  | [first, second] => backquoted first ++ " or " ++ backquoted second
  | names => "one of " ++ ", ".intercalate (names.map backquoted)

/-- The fault in words. -/
def ShapeFault.message : ShapeFault → String
  | unexpected found expected => "invalid type: " ++ found.message ++ ", expected " ++ expected
  | unknownMember name known => "unknown field " ++ backquoted name ++ ", expected " ++ oneOf known
  | repeatedMember name => "duplicate field " ++ backquoted name
  | missingMember name => "missing field " ++ backquoted name
  | tooFewItems count expected => "invalid length " ++ count.repr ++ ", expected " ++ expected
  | noAlternative expected => "data did not match any variant of untagged enum " ++ expected

/-- Why a document cannot be read. -/
inductive Fault where
  | grammar (fault : GrammarFault)
  | unfinished (inside : Unfinished)
  | shape (fault : ShapeFault)
  deriving DecidableEq, Repr

/-- The fault in words. -/
def Fault.message : Fault → String
  | grammar fault => fault.message
  | unfinished inside => inside.message
  | shape fault => fault.message

end BoardBlob.Json
