import BoardBlob.CommandLine.Run

/-!
# The program

Runs the program on the disk of the machine.
-/

namespace BoardBlob

/-- The number of a system fault, which some operations give with its sign changed. -/
def systemNumber (code : UInt32) : Nat :=
  if code.toNat < UInt32.size / 2 then code.toNat else (0 - code).toNat

/-- A fault of the machine's file system. -/
def FileFault.ofSystem : IO.Error → FileFault
  | .noFileOrDirectory .. => .notFound
  | .inappropriateType _ code details =>
    match systemNumber code with
    | 20 => .notDirectory
    | 21 => .isDirectory
    | _ => .other details
  | .invalidArgument _ code details =>
    if systemNumber code = 36 then .nameTooLong else .other details
  | .resourceBusy .. => .busy
  | fault => .other (toString fault)

/-- The result of an action on the machine's file system. -/
def attempt {α : Type} (action : IO α) : IO (Except FileFault α) := do
  match ← action.toBaseIO with
  | .error fault => pure (.error (.ofSystem fault))
  | .ok value => pure (.ok value)

/-- Makes a new empty file in a directory of the machine, under the first staged name from a number
on that nothing has, and gives its path from the root. Gives up after some attempts. -/
def stageFile (directory : String) (number : Nat) : Nat → IO String
  | 0 => throw (.userError "no name is left for a new file")
  | attempts + 1 => do
    let path := (← IO.FS.realPath ".") / directory / StagedName.ofNumber number
    try
      let _ ← IO.FS.Handle.mk path .writeNew
      pure path.toString
    catch
      | .alreadyExists .. => stageFile directory (number + 1) attempts
      | fault => throw fault

/-- The disk of the machine. -/
def machineDisk : Disk IO where
  readFile path := attempt do
    let bytes ← IO.FS.readBinFile path
    pure bytes.toList
  stage path := attempt do
    stageFile (Path.directory path) ((← IO.monoNanosNow) % 100000) 100000
  write path bytes := attempt (IO.FS.writeBinFile path ⟨bytes.toArray⟩)
  rename source target := attempt (IO.FS.rename source target)
  discard path := do
    let _ ← attempt (IO.FS.removeFile path)

end BoardBlob

/-- Runs the program with the given arguments. -/
def main (arguments : List String) : IO UInt32 := do
  let outcome ← BoardBlob.CommandLine.run BoardBlob.machineDisk arguments
  IO.print outcome.output
  for message in outcome.messages do
    IO.eprintln message
  pure (UInt32.ofNat outcome.code)
