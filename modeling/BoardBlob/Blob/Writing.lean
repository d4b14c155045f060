import BoardBlob.Blob.Compile
import BoardBlob.Files.Disk

/-!
# Writing blobs to files

A blob is written only when it is complete, so devices that have no blob change no file.
-/

namespace BoardBlob.Disk

variable {m : Type → Type} [Monad m]

/-- Compiles devices and writes the blob to a file. -/
def compileToFile (disk : Disk m) (devices : List Device) (config : Config) (path : String) :
    m (Except Failure Blob) := do
  match compile devices config with
  | .error fault => pure (.error (.compile fault))
  | .ok blob =>
    match ← disk.replaceFile path blob.bytes with
    | .error failure => pure (.error failure)
    | .ok () => pure (.ok blob)

end BoardBlob.Disk
