import BoardBlob.CommandLine.Argument
import BoardBlob.CommandLine.Fault

/-!
# What was given so far

The command line is read from left to right, on one level before the subcommand and on another
after it. The value of a setting and the operand are looked at only when the next option or operand
comes, or at the end; until then they are pending. So an argument that is not known is reported even
after a value that is wrong.
-/

namespace BoardBlob.CommandLine

/-- An argument that was read but not yet looked at. -/
inductive Pending where
  /-- A setting, with its value once that was read. -/
  | setting (setting : Setting) (value : Option String)
  /-- The operand, with what messages call it. -/
  | operand (label value : String)
  deriving DecidableEq, Repr

/-- What was given on one level of the command line. -/
structure Given where
  /-- Which of `verbose` and `quiet` were given, the one given last at the end. -/
  switches : List Switch := []
  /-- How often `verbose` was given, as far as one byte can count. -/
  verbosity : Nat := 0
  output : Option String := none
  alignment : Option UInt64 := none
  headerFlags : Option UInt32 := none
  operand : Option String := none
  pending : Option Pending := none
  deriving DecidableEq, Repr

namespace Given

/-- Nothing was given. -/
def nothing : Given := {}

/-- A setting was looked at before. -/
def has (given : Given) : Setting → Bool
  | .output => given.output.isSome
  | .alignment => given.alignment.isSome
  | .headerFlags => given.headerFlags.isSome

/-- Looks at the value of a setting. -/
def store (given : Given) (setting : Setting) (value : String) : Except Fault Given :=
  if given.has setting then .error (.repeated setting.label)
  else
    match setting with
    | .output =>
      if value = "" then .error (.missingValue setting.label)
      else .ok { given with output := some value }
    | .alignment =>
      match readAlignment value with
      | .error reason => .error (.invalidValue value setting.label reason)
      | .ok alignment => .ok { given with alignment := some alignment }
    | .headerFlags =>
      match readWord value with
      | .error reason => .error (.invalidValue value setting.label reason)
      | .ok headerFlags => .ok { given with headerFlags := some headerFlags }

/-- Looks at what is pending. -/
def settle (given : Given) : Except Fault Given :=
  match given.pending with
  | none => .ok given
  | some (.setting setting none) => .error (.missingValue setting.label)
  | some (.setting setting (some value)) => store { given with pending := none } setting value
  | some (.operand label value) =>
    if value = "" then .error (.missingValue label)
    else .ok { given with pending := none, operand := some value }

/-- An operand was read, whether it was looked at or not. -/
def hasOperand (given : Given) : Bool :=
  given.operand.isSome ||
    match given.pending with
    | some (.operand _ _) => true
    | _ => false

/-- Reads an operand of a subcommand, which has only one. -/
def takeOperand (given : Given) (subcommand : Subcommand) (value : String) : Except Fault Given :=
  if given.hasOperand then .error (.unknownArgument value)
  else
    match given.settle with
    | .error fault => .error fault
    | .ok settled =>
      .ok { settled with pending := some (.operand subcommand.operandLabel value) }

/-- Reads an argument that is no option: the value of the setting before it, or else an operand. -/
def takePlain (given : Given) (subcommand : Subcommand) (value : String) : Except Fault Given :=
  match given.pending with
  | some (.setting setting none) =>
    .ok { given with pending := some (.setting setting (some value)) }
  | _ => given.takeOperand subcommand value

/-- Reads a switch. -/
def takeSwitch (given : Given) (subcommand : Option Subcommand) (switch : Switch) :
    Except Fault Given :=
  match given.settle with
  | .error fault => .error fault
  | .ok settled =>
    match switch with
    | .help => .error (.help subcommand)
    | .version => .error (.version subcommand)
    | .quiet =>
      if settled.switches.contains .quiet then .error (.repeated Switch.quiet.label)
      else .ok { settled with switches := settled.switches ++ [.quiet] }
    | .verbose =>
      .ok { settled with
        switches := settled.switches.filter (fun earlier => earlier != .verbose) ++ [.verbose]
        verbosity := min (settled.verbosity + 1) 255 }

/-- Reads a setting, with its value if that is part of the same argument. -/
def takeSetting (given : Given) (setting : Setting) (value : Option String) :
    Except Fault Given :=
  match given.settle with
  | .error fault => .error fault
  | .ok settled =>
    match value with
    | none => .ok { settled with pending := some (.setting setting none) }
    | some value => settled.store setting value

/-- The settings that are known on a level. -/
def settingsOf (subcommand : Option Subcommand) : List Setting :=
  match subcommand with
  | none => []
  | some subcommand => subcommand.settings

/-- Reads an option that is written as a word. -/
def takeWord (given : Given) (subcommand : Option Subcommand) (word : String)
    (value : Option String) : Except Fault Given :=
  match Switch.ofWord? word with
  | some switch =>
    match value with
    | some value => .error (.surplusValue value switch.label)
    | none => given.takeSwitch subcommand switch
  | none =>
    match (settingsOf subcommand).find? fun setting => setting.word == word with
    | some setting => given.takeSetting setting value
    | none => .error (.unknownArgument ("--" ++ word))

/-- The value that follows the letter of a setting, less an equals sign before it. -/
def attachedValue : List Char → Option String
  | [] => none
  | '=' :: value => some (String.ofList value)
  | value => some (String.ofList value)

/-- Reads options that are written as letters. What follows the letter of a setting is its value. -/
def takeLetters (given : Given) (subcommand : Option Subcommand) :
    List Char → Except Fault Given
  | [] => .ok given
  | letter :: rest =>
    match Switch.ofLetter? letter with
    | some switch =>
      match given.takeSwitch subcommand switch with
      | .error fault => .error fault
      | .ok taken => taken.takeLetters subcommand rest
    | none =>
      match (settingsOf subcommand).find? fun setting => setting.letter? == some letter with
      | some setting => given.takeSetting setting (attachedValue rest)
      | none => .error (.unknownArgument (String.ofList ['-', letter]))

/-- Refuses two switches that exclude each other. -/
def checkConflict (given : Given) : Except Fault Unit :=
  match given.switches with
  | [earlier, later] => .error (.conflicting earlier.label later.label)
  | _ => .ok ()

/-- The configuration that the settings ask for. -/
def config (given : Given) : Config :=
  let standard : Config := {}
  { mmioAlignment := given.alignment.getD standard.mmioAlignment
    headerFlags := given.headerFlags.getD standard.headerFlags }

end Given

end BoardBlob.CommandLine
