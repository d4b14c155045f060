import BoardBlob.Device.Device
import BoardBlob.Journal

/-!
# Requests

What a command line that can be understood asks for.
-/

namespace BoardBlob.CommandLine

/-- The work that is asked for. -/
inductive Work where
  /-- Compile a board file and write the blob to a file. -/
  | compile (board output : String) (config : Config)
  /-- Compile a board file and write nothing. -/
  | check (board : String) (config : Config)
  /-- Show a blob file. -/
  | dump (blob : String)
  deriving DecidableEq, Repr

/-- The work that is asked for, and how much shall be told about it. -/
structure Request where
  /-- How often more detail was asked for. -/
  verbosity : Nat
  /-- Only errors shall be told. -/
  quiet : Bool
  work : Work
  deriving DecidableEq, Repr

/-- The level up to which notices are told. -/
def Request.level (request : Request) : Level :=
  if request.quiet then .error
  else
    match request.verbosity with
    | 0 => .info
    | 1 => .debug
    | _ => .trace

end BoardBlob.CommandLine
