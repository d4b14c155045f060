import BoardBlob.CommandLine.Fault

/-!
# Help

The texts that tell a person how to use the program. They are made from the same vocabulary that
the command line is read with.
-/

namespace BoardBlob.CommandLine.Help

/-- What the program does. -/
def about : String := "Compiles board device descriptions into the early-boot device tree blob"

/-- Two columns of text, each line indented. -/
def columns (rows : List (String × String)) : List String :=
  let width := (rows.map fun row => row.1.length).foldr max 0
  rows.map fun row =>
    "  " ++ row.1 ++ String.ofList (List.replicate (width - row.1.length + 2) ' ') ++ row.2

/-- A block of lines under a heading. -/
def block (heading : String) (rows : List (String × String)) : List String :=
  "" :: heading :: columns rows

/-- The rows for the switches. -/
def switchRows : List (String × String) :=
  Switch.all.map fun switch =>
    (String.ofList ['-', switch.letter, ',', ' '] ++ switch.label, switch.purpose)

/-- The row for a setting. -/
def settingRow (setting : Setting) : String × String :=
  let short :=
    match setting.letter? with
    | some letter => ['-', letter, ',', ' ']
    | none => [' ', ' ', ' ', ' ']
  (String.ofList short ++ setting.label, setting.purpose)

/-- The lines of help about the program. -/
def programLines : List String :=
  let subcommands := Subcommand.all.map fun subcommand => (subcommand.word, subcommand.purpose)
  let help := (helpWord, "Print this message or the help of the given subcommand(s)")
  [about, "", "Usage: " ++ programName ++ " [OPTIONS] <COMMAND>"] ++
    block "Commands:" (subcommands ++ [help]) ++ block "Options:" switchRows

/-- The lines of help about a subcommand. -/
def subcommandLines (subcommand : Subcommand) : List String :=
  let output := if subcommand = .compile then " " ++ Setting.output.label else ""
  let usage := programName ++ " " ++ subcommand.word ++ " [OPTIONS]" ++ output ++ " " ++
    subcommand.operandLabel
  [subcommand.purpose, "", "Usage: " ++ usage] ++
    block "Arguments:" [(subcommand.operandLabel, subcommand.operandMeaning)] ++
    block "Options:" (subcommand.settings.map settingRow ++ switchRows)

/-- The lines of help about a subcommand or about the program. -/
def lines : Option Subcommand → List String
  | none => programLines
  | some subcommand => subcommandLines subcommand

/-- The line that tells the version of the program, or of a subcommand. -/
def versionLine : Option Subcommand → String
  | none => programName ++ " " ++ programVersion
  | some subcommand => programName ++ "-" ++ subcommand.word ++ " " ++ programVersion

end BoardBlob.CommandLine.Help
