import BoardBlob.CommandLine.Value
import BoardBlob.CommandLine.Vocabulary
import BoardBlob.Text.Terminal

/-!
# Why a command line asks for no work

Either the command line cannot be understood, or it asks for help or the version in place of work.
What a person wrote is shown back without its terminal controls, since it may hold any character.
-/

namespace BoardBlob.CommandLine

/-- Why there is nothing to do. -/
inductive Fault where
  /-- Help was asked for, about a subcommand or about the program. -/
  | help (about : Option Subcommand)
  /-- The version was asked for, of a subcommand or of the program. -/
  | version (of : Option Subcommand)
  /-- Neither a subcommand nor any switch was given. -/
  | nothingGiven
  | missingSubcommand
  | unknownSubcommand (word : String)
  | unknownArgument (shown : String)
  /-- Arguments that a subcommand needs were not given. -/
  | missingArguments (labels : List String)
  /-- An argument that needs a value has none, or an empty one where it may not be empty. -/
  | missingValue (label : String)
  /-- A switch was given a value. -/
  | surplusValue (value label : String)
  | invalidValue (value label : String) (reason : ValueFault)
  /-- An option was given twice. -/
  | repeated (label : String)
  /-- Two switches were given that exclude each other. -/
  | conflicting (earlier later : String)
  deriving DecidableEq, Repr

/-- Name of the program. -/
def programName : String := "devtreec"

/-- Version of the program. -/
def programVersion : String := "0.0.0"

/-- A text between apostrophes. -/
def apostrophed (text : String) : String := "'" ++ text ++ "'"

/-- What a person wrote, as shown back. -/
def shownBack (written : String) : String := apostrophed (Terminal.visible written)

/-- The fault in words. Help and version have none, nor has a command line without arguments: they
are answered in place of work. -/
def Fault.message? : Fault → Option String
  | help _ => none
  | version _ => none
  | nothingGiven => none
  | missingSubcommand =>
    some (apostrophed programName ++ " requires a subcommand but one was not provided")
  | unknownSubcommand word => some ("unrecognized subcommand " ++ shownBack word)
  | unknownArgument shown => some ("unexpected argument " ++ shownBack shown ++ " found")
  | missingArguments labels =>
    let listed := String.join (labels.map fun label => "\n  " ++ label)
    some ("the following required arguments were not provided:" ++ listed)
  | missingValue label =>
    some ("a value is required for " ++ apostrophed label ++ " but none was supplied")
  | surplusValue value label =>
    some ("unexpected value " ++ shownBack value ++ " for " ++ apostrophed label ++
      " found; no more were expected")
  | invalidValue value label reason =>
    some ("invalid value " ++ shownBack value ++ " for " ++ apostrophed label ++ ": " ++
      reason.message)
  | repeated label =>
    some ("the argument " ++ apostrophed label ++ " cannot be used multiple times")
  | conflicting earlier later =>
    some ("the argument " ++ apostrophed earlier ++ " cannot be used with " ++ apostrophed later)

end BoardBlob.CommandLine
