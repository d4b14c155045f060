import BoardBlob.Blob.CompileFault
import BoardBlob.Blob.LoadFault
import BoardBlob.Files.FileFault
import BoardBlob.Json.Fault

/-!
# Failures

Everything that can stop the work on a board or a blob. A failure is told in one line: what was
being attempted, and then its cause where that is a fault of another part.
-/

namespace BoardBlob

/-- Why a board or a blob could not be worked on. -/
inductive Failure where
  /-- The devices have no blob. -/
  | compile (fault : CompileFault)
  /-- The bytes are no blob, or not all of its entries can be trusted. -/
  | corruptBlob (fault : LoadFault)
  /-- The document is no board. -/
  | malformedBoard (fault : Json.Fault)
  /-- A file cannot be used. -/
  | file (path : String) (fault : FileFault)
  deriving DecidableEq, Repr

namespace Failure

/-- The failure in words, without its cause. -/
def message : Failure → String
  | compile fault => fault.message
  | corruptBlob _ => "corrupt device tree blob"
  | malformedBoard _ => "malformed board description"
  | file path _ => "I/O error on " ++ path

/-- The cause in words, unless the failure speaks for itself. -/
def cause? : Failure → Option String
  | compile _ => none
  | corruptBlob fault => some fault.message
  | malformedBoard fault => some fault.message
  | file _ fault => some fault.message

/-- The failure and its cause in one line. -/
def text (failure : Failure) : String :=
  match failure.cause? with
  | none => failure.message
  | some cause => failure.message ++ ": " ++ cause

end Failure

end BoardBlob
