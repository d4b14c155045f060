import BoardBlob.Blob.Decompile
import BoardBlob.Blob.Listing
import BoardBlob.Blob.Writing
import BoardBlob.Board.Loading
import BoardBlob.CommandLine.Help
import BoardBlob.CommandLine.Parsing

/-!
# Running the program

The program on any disk: what it prints, what it tells, and the code with which it ends, which is 0
after work that succeeded, 1 after work that failed and 2 after a command line that asks for none.
A listing is printed whole before the blob is checked for entries that cannot be trusted, so a
listing may be followed by a failure.
-/

namespace BoardBlob.CommandLine

/-- What came of the work. -/
structure Report where
  /-- What was told on the way. -/
  notices : List Notice := []
  /-- What was printed. -/
  output : String := ""
  /-- Why the work failed. -/
  failure : Option String := none
  deriving DecidableEq, Repr

/-- How a run of the program ends. -/
structure Outcome where
  code : Nat
  /-- The text on the output stream. -/
  output : String := ""
  /-- The lines on the error stream. -/
  messages : List String := []
  deriving DecidableEq, Repr

/-- A failure after what was being attempted on a file. -/
def failedTo (attempt path reason : String) : String :=
  "failed to " ++ attempt ++ " " ++ path ++ ": " ++ reason

namespace Work

variable {m : Type → Type} [Monad m]

/-- The report on a board that cannot be loaded. -/
def notLoaded (board : String) (failure : Failure) : Report :=
  { failure := some (failedTo "load board" board failure.text) }

/-- Compiles a board file to a file. -/
def runCompile (disk : Disk m) (board output : String) (config : Config) : m Report := do
  match ← disk.loadBoard board with
  | .error failure => pure (notLoaded board failure)
  | .ok devices =>
    let notices := compileNotices devices config
    match ← disk.compileToFile devices config output with
    | .error failure =>
      pure { notices := notices, failure := some (failedTo "compile" board failure.text) }
    | .ok blob =>
      pure { notices := notices ++
        [.written blob.size output, .compiled devices.length board blob.size] }

/-- What is printed about a board that compiles. -/
def checkedLine (board : String) (devices : List Device) (blob : Blob) : String :=
  board ++ ": " ++ devices.length.repr ++ " devices, " ++ blob.size.repr ++ " bytes\n"

/-- Compiles a board file and keeps nothing. -/
def runCheck (disk : Disk m) (board : String) (config : Config) : m Report := do
  match ← disk.loadBoard board with
  | .error failure => pure (notLoaded board failure)
  | .ok devices =>
    let notices := compileNotices devices config
    match BoardBlob.compile devices config with
    | .error fault =>
      let failure := Failure.compile fault
      pure { notices := notices, failure := some (failedTo "compile" board failure.text) }
    | .ok blob => pure { notices := notices, output := checkedLine board devices blob }

/-- The report on the bytes of a blob file. -/
def dumpBytes (path : String) (bytes : List UInt8) : Report :=
  let corrupt (fault : LoadFault) : String :=
    failedTo "decode" path (Failure.corruptBlob fault).text
  match BlobView.parse bytes with
  | .error fault => { failure := some (corrupt fault) }
  | .ok view =>
    match decompile bytes with
    | .error fault => { output := Listing.text view, failure := some (corrupt fault) }
    | .ok _ => { output := Listing.text view }

/-- Shows a blob file. -/
def runDump (disk : Disk m) (path : String) : m Report := do
  match ← disk.readFile path with
  | .error fault => pure { failure := some (failedTo "read" path fault.message) }
  | .ok bytes => pure (dumpBytes path bytes)

/-- Does the work. -/
def run (disk : Disk m) : Work → m Report
  | .compile board output config => runCompile disk board output config
  | .check board config => runCheck disk board config
  | .dump blob => runDump disk blob

end Work

/-- How a run ends after work, for a reader who asks for notices up to a level. -/
def Report.outcome (report : Report) (level : Level) : Outcome :=
  let told := Notice.linesUpTo level report.notices
  match report.failure with
  | none => { code := 0, output := report.output, messages := told }
  | some failure =>
    { code := 1, output := report.output, messages := told ++ ["error: " ++ failure] }

/-- How a run ends without work. -/
def Fault.outcome (fault : Fault) : Outcome :=
  match fault with
  | .help about =>
    { code := 0, output := String.join ((Help.lines about).map fun line => line ++ "\n") }
  | .version of => { code := 0, output := Help.versionLine of ++ "\n" }
  | .nothingGiven => { code := 2, messages := Help.lines none }
  | _ => { code := 2, messages := ["error: " ++ fault.message?.getD ""] }

/-- Runs the program. -/
def run {m : Type → Type} [Monad m] (disk : Disk m) (arguments : List String) : m Outcome :=
  match parse arguments with
  | .error fault => pure fault.outcome
  | .ok request => do
    let report ← request.work.run disk
    pure (report.outcome request.level)

end BoardBlob.CommandLine
