import BoardBlob.CommandLine.Given
import BoardBlob.CommandLine.Request

/-!
# Understanding a command line

The arguments before the first subcommand can only be switches. Those after it are read to the end
before anything that is missing or contradictory is reported, and on the level of the subcommand
before the level of the program. A switch given after the subcommand counts in place of the same
switch before it.
-/

namespace BoardBlob.CommandLine

/-- Why the word `help` asks for no work: the words after it name at most one subcommand. -/
def helpFault : List String → Fault
  | [] => .help none
  | [word] =>
    if word = helpWord then .help none
    else
      match Subcommand.ofWord? word with
      | some subcommand => .help (some subcommand)
      | none => .unknownSubcommand word
  | word :: next :: _ =>
    if word = helpWord ∨ (Subcommand.ofWord? word).isSome then .unknownSubcommand next
    else .unknownSubcommand word

/-- The fault of an argument that stands after two dashes and before any subcommand. -/
def afterSeparatorFault (word : String) : Fault :=
  if word = helpWord ∨ (Subcommand.ofWord? word).isSome then .unknownArgument word
  else .unknownSubcommand word

/-- Reads the arguments up to the subcommand, and gives it with the arguments after it. -/
def readProgramLevel (given : Given) :
    List String → Except Fault (Given × Option (Subcommand × List String))
  | [] => .ok (given, none)
  | argument :: rest =>
    match Subcommand.ofWord? argument with
    | some subcommand => .ok (given, some (subcommand, rest))
    | none =>
      if argument = helpWord then .error (helpFault rest)
      else
        match Argument.of argument with
        | .separator =>
          match rest with
          | [] => .ok (given, none)
          | word :: _ => .error (afterSeparatorFault word)
        | .word word value =>
          match given.takeWord none word value with
          | .error fault => .error fault
          | .ok taken => readProgramLevel taken rest
        | .letters letters =>
          match given.takeLetters none letters with
          | .error fault => .error fault
          | .ok taken => readProgramLevel taken rest
        | .plain text => .error (.unknownSubcommand text)

/-- Reads one argument after the subcommand; `none` when it is the separator. -/
def readArgument (subcommand : Subcommand) (given : Given) (argument : String) :
    Except Fault (Option Given) :=
  match Argument.of argument with
  | .separator => .ok none
  | .word word value => (given.takeWord (some subcommand) word value).map some
  | .letters letters => (given.takeLetters (some subcommand) letters).map some
  | .plain text => (given.takePlain subcommand text).map some

/-- Reads the arguments after the subcommand. -/
def readSubcommandLevel (subcommand : Subcommand) (separated : Bool) (given : Given) :
    List String → Except Fault Given
  | [] => given.settle
  | argument :: rest =>
    if separated then
      match given.takeOperand subcommand argument with
      | .error fault => .error fault
      | .ok taken => readSubcommandLevel subcommand true taken rest
    else
      match readArgument subcommand given argument with
      | .error fault => .error fault
      | .ok none => readSubcommandLevel subcommand true given rest
      | .ok (some taken) => readSubcommandLevel subcommand false taken rest

/-- The work that a subcommand with these arguments asks for. -/
def work (subcommand : Subcommand) (given : Given) : Except Fault Work :=
  let operandLabel := subcommand.operandLabel
  match subcommand, given.operand, given.output with
  | .compile, some board, some output => .ok (.compile board output given.config)
  | .compile, some _, none => .error (.missingArguments [Setting.output.label])
  | .compile, none, some _ => .error (.missingArguments [operandLabel])
  | .compile, none, none => .error (.missingArguments [Setting.output.label, operandLabel])
  | .check, some board, _ => .ok (.check board given.config)
  | .dump, some blob, _ => .ok (.dump blob)
  | .check, none, _ => .error (.missingArguments [operandLabel])
  | .dump, none, _ => .error (.missingArguments [operandLabel])

/-- What a command line asks for. -/
def parse (arguments : List String) : Except Fault Request := do
  let (program, found) ← readProgramLevel .nothing arguments
  match found with
  | none => .error (if program.switches = [] then .nothingGiven else .missingSubcommand)
  | some (subcommand, rest) =>
    let given ← readSubcommandLevel subcommand false .nothing rest
    given.checkConflict
    let work ← work subcommand given
    program.checkConflict
    let verbosity :=
      if given.switches.contains .verbose then given.verbosity else program.verbosity
    .ok {
      verbosity := verbosity
      quiet := given.switches.contains .quiet || program.switches.contains .quiet
      work := work }

end BoardBlob.CommandLine
