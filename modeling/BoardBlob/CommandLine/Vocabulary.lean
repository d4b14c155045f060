import BoardBlob.Device.Device

/-!
# The words of the command line

The subcommands, and the options that each understands. A switch stands alone and may be given
before or after the subcommand; a setting has a value and belongs to a subcommand. An operand is an
argument that is no option; every subcommand has one.
-/

namespace BoardBlob.CommandLine

/-- What the program can be told to do. -/
inductive Subcommand where
  | compile
  | check
  | dump
  deriving DecidableEq, Repr

/-- An option without a value. -/
inductive Switch where
  | verbose
  | quiet
  | help
  | version
  deriving DecidableEq, Repr

/-- An option with a value. -/
inductive Setting where
  | output
  | alignment
  | headerFlags
  deriving DecidableEq, Repr

namespace Subcommand

/-- Every subcommand. -/
def all : List Subcommand := [compile, check, dump]

/-- The word that asks for the subcommand. -/
def word : Subcommand → String
  | compile => "compile"
  | check => "check"
  | dump => "dump"

/-- The subcommand that a word asks for. -/
def ofWord? (written : String) : Option Subcommand :=
  all.find? fun subcommand => subcommand.word == written

/-- The settings of the subcommand. -/
def settings : Subcommand → List Setting
  | compile => [.output, .alignment, .headerFlags]
  | check => [.alignment, .headerFlags]
  | dump => []

/-- What messages call the operand. -/
def operandLabel : Subcommand → String
  | compile => "<BOARD>"
  | check => "<BOARD>"
  | dump => "<BLOB>"

/-- What the operand is. -/
def operandMeaning : Subcommand → String
  | compile => "Board description (JSON)"
  | check => "Board description (JSON)"
  | dump => "Compiled blob"

/-- What the subcommand does. -/
def purpose : Subcommand → String
  | compile => "Compile a board description into a blob"
  | check => "Validate and encode a board description without writing anything"
  | dump => "Decode a blob and print its contents"

end Subcommand

/-- The word that asks for help about a subcommand. -/
def helpWord : String := "help"

namespace Switch

/-- Every switch. -/
def all : List Switch := [verbose, quiet, help, version]

/-- The word after two dashes. -/
def word : Switch → String
  | verbose => "verbose"
  | quiet => "quiet"
  | help => "help"
  | version => "version"

/-- The letter after one dash. -/
def letter : Switch → Char
  | verbose => 'v'
  | quiet => 'q'
  | help => 'h'
  | version => 'V'

/-- What messages call the switch. Only `verbose` may be given more than once. -/
def label : Switch → String
  | verbose => "--verbose..."
  | quiet => "--quiet"
  | help => "--help"
  | version => "--version"

/-- What the switch does. -/
def purpose : Switch → String
  | verbose => "More log output (-v debug, -vv trace)"
  | quiet => "Only report errors"
  | help => "Print help"
  | version => "Print version"

/-- The switch with this word. -/
def ofWord? (written : String) : Option Switch := all.find? fun switch => switch.word == written

/-- The switch with this letter. -/
def ofLetter? (written : Char) : Option Switch := all.find? fun switch => switch.letter == written

end Switch

namespace Setting

/-- The word after two dashes. -/
def word : Setting → String
  | output => "output"
  | alignment => "mmio-align"
  | headerFlags => "flags"

/-- The letter after one dash. -/
def letter? : Setting → Option Char
  | output => some 'o'
  | alignment => none
  | headerFlags => none

/-- What messages call the setting. -/
def label : Setting → String
  | output => "--output <OUTPUT>"
  | alignment => "--mmio-align <BYTES>"
  | headerFlags => "--flags <BITS>"

/-- What the setting is. -/
def purpose : Setting → String
  | output => "Output blob"
  | alignment =>
    "Required MMIO base alignment in bytes (power of two) [default: " ++
      (Config.mmioAlignment {}).toNat.repr ++ "]"
  | headerFlags =>
    "Global header flags [default: " ++ (Config.headerFlags {}).toNat.repr ++ "]"

end Setting

end BoardBlob.CommandLine
