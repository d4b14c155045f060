import BoardBlob.Board.Parsing
import BoardBlob.Bytes.Utf8
import BoardBlob.Files.Disk

/-!
# Loading boards from files

A board file must be text before it can be a board.
-/

namespace BoardBlob.Disk

variable {m : Type → Type} [Monad m]

/-- The devices of a board file. -/
def loadBoard (disk : Disk m) (path : String) : m (Except Failure (List Device)) := do
  match ← disk.readFile path with
  | .error fault => pure (.error (.file path fault))
  | .ok bytes =>
    match Utf8.text? bytes with
    | none => pure (.error (.file path .notText))
    | some text => pure (parseBoard text)

end BoardBlob.Disk
