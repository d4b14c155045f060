import BoardBlob.Json.Token

/-!
# Values of any shape

Where a board expects a number, a list or an object may stand instead. It is wrong there, but it is
read to its end before that is said, so a fault inside it is reported first. Reading it needs no
value, only the brackets that are open and what may come next.
-/

namespace BoardBlob.Json

/-- The greatest count of lists and objects that may be open at once. -/
def depthLimit : Nat := 127

/-- An open bracket. -/
inductive Bracket where
  | list
  | object
  deriving DecidableEq, Repr

/-- What may come next inside a value. -/
inductive Expecting where
  | value
  | firstItem
  | nextItem
  | firstKey
  | nextKey
  | colon
  | afterValue
  deriving DecidableEq, Repr

/-- How far the reading of a value has come. -/
structure Nesting where
  /-- The open brackets of the value, the innermost first. -/
  brackets : List Bracket := []
  expecting : Expecting := .value
  deriving DecidableEq, Repr

namespace Nesting

/-- Opens a bracket, with `outer` brackets open around the value. -/
def opened (nesting : Nesting) (outer : Nat) (bracket : Bracket) : Except Fault Nesting :=
  if outer + nesting.brackets.length < depthLimit then
    .ok {
      brackets := bracket :: nesting.brackets
      expecting := match bracket with
        | .list => .firstItem
        | .object => .firstKey }
  else .error (.grammar .tooDeep)

/-- Reads the token with which a value begins. -/
def beginValue (nesting : Nesting) (outer : Nat) : Token → Except Fault Nesting
  | .openList => nesting.opened outer .list
  | .openObject => nesting.opened outer .object
  | .null | .boolean _ | .number _ | .text _ => .ok { nesting with expecting := .afterValue }
  | .brokenText fault | .broken fault => .error fault
  | .closeList | .closeObject | .colon | .comma => .error (.grammar .expectedValue)

/-- Closes the innermost bracket. -/
def closed (nesting : Nesting) : Nesting := ⟨nesting.brackets.drop 1, .afterValue⟩

/-- Reads one token. -/
def step (nesting : Nesting) (outer : Nat) (token : Token) : Except Fault Nesting :=
  match nesting.expecting with
  | .value => nesting.beginValue outer token
  | .firstItem =>
    match token with
    | .closeList => .ok nesting.closed
    | token => nesting.beginValue outer token
  | .nextItem =>
    match token with
    | .closeList => .error (.grammar .trailingComma)
    | token => nesting.beginValue outer token
  | .firstKey =>
    match token with
    | .closeObject => .ok nesting.closed
    | .text _ => .ok { nesting with expecting := .colon }
    | .brokenText fault => .error fault
    | _ => .error (.grammar .keyNotText)
  | .nextKey =>
    match token with
    | .closeObject => .error (.grammar .trailingComma)
    | .text _ => .ok { nesting with expecting := .colon }
    | .brokenText fault => .error fault
    | _ => .error (.grammar .keyNotText)
  | .colon =>
    match token with
    | .colon => .ok { nesting with expecting := .value }
    | _ => .error (.grammar .expectedColon)
  | .afterValue =>
    match nesting.brackets, token with
    | .list :: _, .comma => .ok { nesting with expecting := .nextItem }
    | .list :: _, .closeList => .ok nesting.closed
    | .object :: _, .comma => .ok { nesting with expecting := .nextKey }
    | .object :: _, .closeObject => .ok nesting.closed
    | .object :: _, _ => .error (.grammar .expectedCommaOrObjectEnd)
    | _, _ => .error (.grammar .expectedCommaOrListEnd)

/-- What the text is inside of when it ends here. -/
def inside (nesting : Nesting) : Unfinished :=
  match nesting.expecting, nesting.brackets with
  | .firstItem, _ => .list
  | .firstKey, _ | .colon, _ => .object
  | .afterValue, .object :: _ => .object
  | .afterValue, _ => .list
  | .value, _ | .nextItem, _ | .nextKey, _ => .value

/-- The value has ended. -/
def isDone (nesting : Nesting) : Bool :=
  nesting.brackets.isEmpty && nesting.expecting == .afterValue

/-- The fault of a value that must not stand here: the first fault inside it or, when there is none,
that it stands here. -/
def faultOf (atEnd : Fault) (outer : Nat) : Nesting → List Token → Fault
  | nesting, [] => .unfinished nesting.inside
  | nesting, token :: rest =>
    match nesting.step outer token with
    | .error fault => fault
    | .ok next => if next.isDone then atEnd else faultOf atEnd outer next rest

end Nesting

end BoardBlob.Json
