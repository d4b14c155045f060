import BoardBlob.Json.Nesting

/-!
# Reading values of a known shape

A reader takes one value off the front of the tokens, or gives the first fault that it meets. It is
told how many lists and objects are open around the value. A record, that is a value with a fixed
set of members, may be written as an object or as the list of its members in their order; in an
object, a member that the record does not have, or that was given before, is reported as soon as its
key is read.
-/

namespace BoardBlob.Json

/-- Takes a value off the tokens, with a count of lists and objects open around it. -/
abbrev Reader (α : Type) := Nat → List Token → Except Fault (α × List Token)

/-- Opens one more list or object. -/
def enter (opened : Nat) : Except Fault Nat :=
  if opened < depthLimit then .ok (opened + 1) else .error (.grammar .tooDeep)

/-- The fault of tokens that begin with another kind of value than expected. A list or an object is
not read to its end. -/
def unexpected (expected : String) (tokens : List Token) : Fault :=
  let found (value : Found) : Fault := .shape (.unexpected value expected)
  match tokens with
  | [] => .unfinished .value
  | .null :: _ => found .null
  | .boolean value :: _ => found (.boolean value)
  | .number (.whole value) :: _ => found (.whole value.toNat)
  | .number (.negative magnitude) :: _ => found (.negative magnitude)
  | .number (.real value) :: _ => found (.real value)
  | .text value :: _ => found (.text value)
  | .openList :: _ => found .list
  | .openObject :: _ => found .object
  | .brokenText fault :: _ | .broken fault :: _ => fault
  | .closeList :: _ | .closeObject :: _ | .colon :: _ | .comma :: _ => .grammar .expectedValue

/-- Reads a text. -/
def text : Reader String := fun _ tokens =>
  match tokens with
  | .text value :: rest => .ok (value, rest)
  | _ => .error (unexpected "a string" tokens)

/-- Reads a value or a null. -/
def nullable {α : Type} (reader : Reader α) : Reader (Option α) := fun opened tokens =>
  match tokens with
  | .null :: rest => .ok (none, rest)
  | _ => (reader opened tokens).map fun (value, rest) => (some value, rest)

/-! ## Lists -/

/-- Moves to the next item of a list; `none` at the end of the list. -/
def nextItem? (first : Bool) (tokens : List Token) : Except Fault (Option (List Token)) :=
  match tokens with
  | [] => .error (.unfinished .list)
  | .closeList :: _ => .ok none
  | _ =>
    if first then .ok (some tokens)
    else
      match tokens with
      | [.comma] => .error (.unfinished .value)
      | .comma :: .closeList :: _ => .error (.grammar .trailingComma)
      | .comma :: rest => .ok (some rest)
      | _ => .error (.grammar .expectedCommaOrListEnd)

/-- Reads the end of a list. -/
def endList (tokens : List Token) : Except Fault (List Token) :=
  match tokens with
  | [] => .error (.unfinished .list)
  | .closeList :: rest => .ok rest
  | .comma :: .closeList :: _ => .error (.grammar .trailingComma)
  | _ => .error (.grammar .trailingCharacters)

/-- Reads the items of a list and its end. The length of the first argument bounds the count of
items, for which the tokens themselves are always enough; `read` holds the items read so far, the
last one first. -/
def itemsWithin {α : Type} (item : List Token → Except Fault (α × List Token)) :
    List Token → Bool → List α → List Token → Except Fault (List α × List Token)
  | [], _, _, _ => .error (.unfinished .list)
  | _ :: limit, first, read, tokens =>
    match nextItem? first tokens with
    | .error fault => .error fault
    | .ok none => (endList tokens).map fun rest => (read.reverse, rest)
    | .ok (some tokens) =>
      match item tokens with
      | .error fault => .error fault
      | .ok (value, rest) => itemsWithin item limit false (value :: read) rest

/-- Reads a list. -/
def list {α : Type} (item : Reader α) : Reader (List α) := fun opened tokens =>
  match tokens with
  | .openList :: rest =>
    match enter opened with
    | .error fault => .error fault
    | .ok opened => itemsWithin (item opened) rest true [] rest
  | _ => .error (unexpected "a sequence" tokens)

/-! ## Objects -/

/-- Moves past the next key of an object; `none` at the end of the object. -/
def nextKey? (first : Bool) (tokens : List Token) :
    Except Fault (Option (String × List Token)) :=
  let key (tokens : List Token) : Except Fault (Option (String × List Token)) :=
    match tokens with
    | .text name :: rest => .ok (some (name, rest))
    | .brokenText fault :: _ => .error fault
    | _ => .error (.grammar .keyNotText)
  match tokens with
  | [] => .error (.unfinished .object)
  | .closeObject :: _ => .ok none
  | _ =>
    if first then key tokens
    else
      match tokens with
      | [.comma] => .error (.unfinished .value)
      | .comma :: .closeObject :: _ => .error (.grammar .trailingComma)
      | .comma :: rest => key rest
      | _ => .error (.grammar .expectedCommaOrObjectEnd)

/-- Reads the colon after a key. -/
def colon (tokens : List Token) : Except Fault (List Token) :=
  match tokens with
  | [] => .error (.unfinished .object)
  | .colon :: rest => .ok rest
  | _ => .error (.grammar .expectedColon)

/-- Reads the members of an object and its end, into a state. `choose` decides by the key alone how
the member changes the state. The length of the first list bounds the count of members, for
which the tokens themselves are always enough. -/
def membersWithin {σ : Type}
    (choose : String → σ → Except Fault (List Token → Except Fault (σ × List Token))) :
    List Token → Bool → σ → List Token → Except Fault (σ × List Token)
  | [], _, _, _ => .error (.unfinished .object)
  | _ :: limit, first, state, tokens =>
    match nextKey? first tokens with
    | .error fault => .error fault
    | .ok none => .ok (state, tokens.drop 1)
    | .ok (some (name, rest)) =>
      match choose name state with
      | .error fault => .error fault
      | .ok read =>
        match colon rest with
        | .error fault => .error fault
        | .ok rest =>
          match read rest with
          | .error fault => .error fault
          | .ok (state, rest) => membersWithin choose limit false state rest

/-- Reads an object with keys of any name, into a state. -/
def object {α σ : Type} (value : Reader α) (start : σ) (add : σ → String → α → σ) : Reader σ :=
  fun opened tokens =>
    match tokens with
    | .openObject :: rest =>
      match enter opened with
      | .error fault => .error fault
      | .ok opened =>
        membersWithin
          (fun name state => .ok fun tokens =>
            (value opened tokens).map fun (found, rest) => (add state name found, rest))
          rest true start rest
    | _ => .error (unexpected "a map" tokens)

/-! ## Records -/

/-- One member of a record that is read into a state. -/
structure Member (σ : Type) where
  name : String
  /-- The record cannot do without the member. -/
  required : Bool
  /-- The member was given already. -/
  isGiven : σ → Bool
  /-- Reads the member's value. -/
  read : σ → Reader σ

/-- A member that is kept in an optional part of the state. -/
def Member.of {σ α : Type} (name : String) (required : Bool) (part : σ → Option α)
    (store : σ → α → σ) (reader : Reader α) : Member σ where
  name := name
  required := required
  isGiven state := (part state).isSome
  read state opened tokens :=
    (reader opened tokens).map fun (value, rest) => (store state value, rest)

/-- A record that is read into a state. -/
structure Record (σ α : Type) where
  /-- What messages call the record. -/
  label : String
  /-- The members, in the order of the list form. -/
  members : List (Member σ)
  /-- The state before any member is read. -/
  start : σ
  /-- The value of a state. -/
  finish : σ → Except Fault α

namespace Record

variable {σ α : Type}

/-- The record with the count of its members, in words. -/
def counted (record : Record σ α) : String :=
  let count := record.members.length
  record.label ++ " with " ++ count.repr ++ if count = 1 then " element" else " elements"

/-- Decides by a key which member is read. -/
def choose (record : Record σ α) (opened : Nat) (name : String) (state : σ) :
    Except Fault (List Token → Except Fault (σ × List Token)) :=
  match record.members.find? fun member => member.name == name with
  | none => .error (.shape (.unknownMember name (record.members.map Member.name)))
  | some member =>
    if member.isGiven state then .error (.shape (.repeatedMember name))
    else .ok (member.read state opened)

/-- Reads the list form from the member at a position on. A list may end before a member that is not
required. -/
def positional (record : Record σ α) (opened : Nat) :
    Nat → List (Member σ) → Bool → σ → List Token → Except Fault (σ × List Token)
  | _, [], _, state, tokens => (endList tokens).map fun rest => (state, rest)
  | index, member :: more, first, state, tokens =>
    match nextItem? first tokens with
    | .error fault => .error fault
    | .ok none =>
      if member.required then .error (.shape (.tooFewItems index record.counted))
      else record.positional opened (index + 1) more first state tokens
    | .ok (some tokens) =>
      match member.read state opened tokens with
      | .error fault => .error fault
      | .ok (state, rest) => record.positional opened (index + 1) more false state rest

/-- Reads the members of a record in either form. -/
def readState (record : Record σ α) : Reader σ := fun opened tokens =>
  match tokens with
  | .openList :: rest =>
    match enter opened with
    | .error fault => .error fault
    | .ok opened => record.positional opened 0 record.members true record.start rest
  | .openObject :: rest =>
    match enter opened with
    | .error fault => .error fault
    | .ok opened => membersWithin (record.choose opened) rest true record.start rest
  | _ => .error (unexpected record.label tokens)

/-- Reads a record. -/
def read (record : Record σ α) : Reader α := fun opened tokens =>
  match record.readState opened tokens with
  | .error fault => .error fault
  | .ok (state, rest) => (record.finish state).map fun value => (value, rest)

end Record

/-- Reads a whole document. -/
def document {α : Type} (reader : Reader α) (tokens : List Token) : Except Fault α :=
  match reader 0 tokens with
  | .error fault => .error fault
  | .ok (value, []) => .ok value
  | .ok (_, _ :: _) => .error (.grammar .trailingCharacters)

end BoardBlob.Json
