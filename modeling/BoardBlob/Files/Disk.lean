import BoardBlob.Failure
import BoardBlob.Files.FileTree

/-!
# Disks

What the program asks of a file system, whichever it is: a `Disk` gives the few operations that
boards and blobs need, in any monad. A file tree is a disk whose operations are pure.

`replaceFile` writes a file under a fresh name beside its target and then moves it there, so at no
moment does the target hold part of the bytes; when a step fails, the staged file is taken away
again.
-/

namespace BoardBlob

/-- The operations of a file system. -/
structure Disk (m : Type → Type) where
  /-- The bytes of a file. -/
  readFile : String → m (Except FileFault (List UInt8))
  /-- Makes a new empty file in the directory of a path, and gives the path of that file. -/
  stage : String → m (Except FileFault String)
  /-- Gives a file new bytes. -/
  write : String → List UInt8 → m (Except FileFault Unit)
  /-- Moves a file to another path, where it takes the place of any file. -/
  rename : String → String → m (Except FileFault Unit)
  /-- Takes a file away. -/
  discard : String → m Unit

namespace FileTree

/-- An operation that changes the tree unless it fails. -/
def change (operation : FileTree → Except FileFault FileTree) :
    StateM FileTree (Except FileFault Unit) := fun tree =>
  match operation tree with
  | .error fault => (.error fault, tree)
  | .ok changed => (.ok (), changed)

/-- A file tree as a disk. -/
def disk : Disk (StateM FileTree) where
  readFile path := fun tree => (tree.readFile path, tree)
  stage path := fun tree =>
    match tree.stage path with
    | .error fault => (.error fault, tree)
    | .ok (staged, changed) => (.ok staged, changed)
  write path bytes := change fun tree => tree.write path bytes
  rename source target := change fun tree => tree.rename source target
  discard path := fun tree => ((), tree.discard path)

end FileTree

namespace Disk

variable {m : Type → Type} [Monad m]

/-- Puts bytes at a path, all of them or none. -/
def replaceFile (disk : Disk m) (path : String) (bytes : List UInt8) :
    m (Except Failure Unit) := do
  match ← disk.stage path with
  | .error fault => pure (.error (.file (Path.directory path) fault))
  | .ok staged =>
    match ← disk.write staged bytes with
    | .error fault =>
      disk.discard staged
      pure (.error (.file staged fault))
    | .ok () =>
      match ← disk.rename staged path with
      | .error fault =>
        disk.discard staged
        pure (.error (.file path fault))
      | .ok () => pure (.ok ())

end Disk

end BoardBlob
