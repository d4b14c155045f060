import Mathlib.Control.Monad.Basic
import BoardBlob.Blob.Writing
import BoardBlob.Proofs.StagedFiles

/-!
# Writing all of a file or nothing

A file is replaced in three steps, and a disk may fail at each of them (`Disk.Fallible`). A run ends
in the tree from before or in the one with the new file, and in no other (`replaceFile_cases`). So a
blob is written whole or not at all (`compileToFile_atomic`).
-/
namespace BoardBlob

namespace Disk

/-! ## Disks that may fail -/

/-- A disk that holds a file tree and may fail, except at taking a file away. An operation that does
not fail does what it does on a file tree. One that fails changes nothing, but for a write, which
may leave any bytes in its file. -/
structure Fallible (disk : Disk (StateM FileTree)) : Prop where
  /-- A new file is made, or nothing is. -/
  stage : ∀ path tree, disk.stage path tree = FileTree.disk.stage path tree ∨
    ∃ fault, disk.stage path tree = (.error fault, tree)
  /-- A file is given its bytes, or is left with others. -/
  write : ∀ path bytes tree, disk.write path bytes tree = FileTree.disk.write path bytes tree ∨
    ∃ fault left,
      disk.write path bytes tree = (.error fault, (FileTree.disk.write path left tree).2)
  /-- A file is moved, or stays. -/
  rename : ∀ source target tree,
    disk.rename source target tree = FileTree.disk.rename source target tree ∨
    ∃ fault, disk.rename source target tree = (.error fault, tree)
  /-- A file is taken away. -/
  discard : ∀ path tree, disk.discard path tree = FileTree.disk.discard path tree

/-- A file tree is such a disk. -/
theorem fallible_disk : FileTree.disk.Fallible where
  stage _ _ := Or.inl rfl
  write _ _ _ := Or.inl rfl
  rename _ _ _ := Or.inl rfl
  discard _ _ := rfl

variable {disk : Disk (StateM FileTree)} {tree : FileTree} {path staged : String}
  {place : Location} {bytes old : List UInt8}

namespace Fallible

/-- Nothing is staged and nothing changes, or a file is staged. -/
theorem stage_cases (fallible : disk.Fallible) (path : String) (tree : FileTree) :
    (∃ fault, disk.stage path tree = (.error fault, tree)) ∨
    ∃ staged place, disk.stage path tree = (.ok staged, tree.put place (.file [])) ∧
      tree.Staged staged place := by
  obtain same | failed := fallible.stage path tree
  · rw [same]
    by_cases parent : tree.IsDirectory (Path.directory path)
    · obtain ⟨fault, _, failed⟩ | ⟨place, _, made, holds⟩ := FileTree.stage_of_isDirectory parent
      · exact Or.inl ⟨fault, failed⟩
      · exact Or.inr ⟨_, place, made, holds⟩
    · exact Or.inl (FileTree.stage_of_not_isDirectory parent)
  · exact Or.inl failed

/-- Writing a staged file changes its bytes and nothing else. -/
theorem write_cases (fallible : disk.Fallible) (holds : tree.Staged staged place) :
    disk.write staged bytes (tree.put place (.file old)) = (.ok (), tree.put place (.file bytes)) ∨
    ∃ fault left, disk.write staged bytes (tree.put place (.file old)) =
      (.error fault, tree.put place (.file left)) := by
  obtain same | ⟨fault, left, failed⟩ := fallible.write staged bytes (tree.put place (.file old))
  · exact Or.inl (same.trans holds.write)
  · exact Or.inr ⟨fault, left, by rw [failed, holds.write]⟩

/-- Taking a staged file away gives back the tree from before. -/
theorem discard_eq (fallible : disk.Fallible) (holds : tree.Staged staged place) :
    disk.discard staged (tree.put place (.file old)) = ((), tree) := by
  rw [fallible.discard, holds.discard]

/-- Moving a staged file changes nothing, or puts the file where the path leads. -/
theorem rename_cases (fallible : disk.Fallible) (holds : tree.Staged staged place) :
    (∃ fault, disk.rename staged path (tree.put place (.file bytes)) =
      (.error fault, tree.put place (.file bytes))) ∨
    ∃ target, disk.rename staged path (tree.put place (.file bytes)) =
        (.ok (), tree.put target (.file bytes)) ∧ tree.Receives path target := by
  obtain same | failed := fallible.rename staged path (tree.put place (.file bytes))
  · rw [same, holds.rename]
    cases found : (tree.put place (.file bytes)).placeFor path with
    | error fault => exact Or.inl ⟨fault, rfl⟩
    | ok target => exact Or.inr ⟨target, rfl, holds.receives found⟩
  · exact Or.inl failed

end Fallible

/-! ## Replacing a file -/

section Steps

variable {fault : FileFault} {opened filled after : FileTree}

/-- One step after the other, on the tree that the first one leaves. -/
theorem run_bind {α β : Type} (first : StateM FileTree α) (next : α → StateM FileTree β)
    (tree : FileTree) : (first >>= next) tree = next (first tree).1 (first tree).2 := rfl

/-- Replacing a file ends when nothing is staged. -/
theorem replaceFile_of_unstaged (failed : disk.stage path tree = (.error fault, after)) :
    disk.replaceFile path bytes tree = (.error (.file (Path.directory path) fault), after) := by
  rw [replaceFile, run_bind, failed]
  rfl

/-- Replacing a file ends when the staged file cannot be written, which is taken away. -/
theorem replaceFile_of_unwritten (made : disk.stage path tree = (.ok staged, opened))
    (failed : disk.write staged bytes opened = (.error fault, after)) :
    disk.replaceFile path bytes tree =
      (.error (.file staged fault), (disk.discard staged after).2) := by
  rw [replaceFile, run_bind, made]
  simp only [run_bind, failed]
  rfl

/-- Replacing a file ends when the staged file cannot be moved, which is taken away. -/
theorem replaceFile_of_unmoved (made : disk.stage path tree = (.ok staged, opened))
    (written : disk.write staged bytes opened = (.ok (), filled))
    (failed : disk.rename staged path filled = (.error fault, after)) :
    disk.replaceFile path bytes tree =
      (.error (.file path fault), (disk.discard staged after).2) := by
  rw [replaceFile, run_bind, made]
  simp only [run_bind, written, failed]
  rfl

/-- A file is replaced when the staged file is moved to its path. -/
theorem replaceFile_of_moved (made : disk.stage path tree = (.ok staged, opened))
    (written : disk.write staged bytes opened = (.ok (), filled))
    (moved : disk.rename staged path filled = (.ok (), after)) :
    disk.replaceFile path bytes tree = (.ok (), after) := by
  rw [replaceFile, run_bind, made]
  simp only [run_bind, written, moved]
  rfl

end Steps

/-- Replacing a file on a disk that may fail leaves the tree as it was, or puts the file where the
path leads and changes nothing else. -/
theorem Fallible.replaceFile_cases (fallible : disk.Fallible) (path : String) (bytes : List UInt8)
    (tree : FileTree) :
    (∃ failure, disk.replaceFile path bytes tree = (.error failure, tree)) ∨
    ∃ target, disk.replaceFile path bytes tree = (.ok (), tree.put target (.file bytes)) ∧
      tree.Receives path target := by
  obtain ⟨fault, failed⟩ | ⟨staged, place, made, holds⟩ := fallible.stage_cases path tree
  · exact Or.inl ⟨_, replaceFile_of_unstaged failed⟩
  · obtain written | ⟨fault, left, failed⟩ := fallible.write_cases holds
    · obtain ⟨fault, failed⟩ | ⟨target, moved, receives⟩ := fallible.rename_cases holds
      · refine Or.inl ⟨.file path fault, ?_⟩
        rw [replaceFile_of_unmoved made written failed, fallible.discard_eq holds]
      · exact Or.inr ⟨target, replaceFile_of_moved made written moved, receives⟩
    · refine Or.inl ⟨.file staged fault, ?_⟩
      rw [replaceFile_of_unwritten made failed, fallible.discard_eq holds]

/-- Without the directory of a path, a file cannot be replaced there, and the fault is that of the
directory. -/
theorem Fallible.replaceFile_of_not_isDirectory (fallible : disk.Fallible)
    (missing : ¬tree.IsDirectory (Path.directory path)) (bytes : List UInt8) :
    ∃ fault, disk.replaceFile path bytes tree =
      (.error (.file (Path.directory path) fault), tree) := by
  obtain same | ⟨fault, failed⟩ := fallible.stage path tree
  · obtain ⟨fault, failed⟩ := FileTree.stage_of_not_isDirectory missing
    exact ⟨fault, replaceFile_of_unstaged (same.trans failed)⟩
  · exact ⟨fault, replaceFile_of_unstaged failed⟩

/-- A file whose staged file has no possible path is not replaced, and the fault is that of the
directory. -/
theorem replaceFile_of_impossible (parent : tree.IsDirectory (Path.directory path))
    {fault : FileFault}
    (impossible : FileTree.pathFault? (tree.fromRoot (tree.stagedPath path)) = some fault) :
    FileTree.disk.replaceFile path bytes tree =
      (.error (.file (Path.directory path) fault), tree) := by
  obtain ⟨other, found, failed⟩ | ⟨_, possible, _⟩ := FileTree.stage_of_isDirectory parent
  · obtain rfl : fault = other := Option.some.inj (impossible.symm.trans found)
    exact replaceFile_of_unstaged failed
  · simp [impossible] at possible

/-- A directory is not replaced by a file: the staged file cannot be moved there. -/
theorem replaceFile_of_isDirectory (parent : tree.IsDirectory (Path.directory path))
    (directory : tree.IsDirectory path)
    (possible : FileTree.pathFault? (tree.fromRoot (tree.stagedPath path)) = none) :
    ∃ fault, FileTree.disk.replaceFile path bytes tree = (.error (.file path fault), tree) := by
  obtain ⟨_, impossible, _⟩ | ⟨place, _, made, holds⟩ := FileTree.stage_of_isDirectory parent
  · simp [possible] at impossible
  cases found : (tree.put place (.file bytes)).placeFor path with
  | error fault =>
    refine ⟨fault, ?_⟩
    rw [replaceFile_of_unmoved made holds.write (by rw [holds.rename, found]), holds.discard]
  | ok target =>
    have receives := holds.receives found
    obtain ⟨location, located, here⟩ := directory
    obtain rfl : location = target := Except.ok.inj (located.symm.trans receives.located)
    exact absurd here receives.vacant

/-! ## Compiling to a file -/

section Compiling

variable {devices : List Device} {config : Config} {blob : Blob} {after : FileTree}

/-- Devices without a blob change no file. -/
theorem compileToFile_of_fault (disk : Disk (StateM FileTree)) (path : String) (tree : FileTree)
    {fault : CompileFault} (failed : compile devices config = .error fault) :
    disk.compileToFile devices config path tree = (.error (.compile fault), tree) := by
  rw [compileToFile, failed]
  rfl

/-- A blob that cannot be written is not given. -/
theorem compileToFile_of_failure (compiled : compile devices config = .ok blob) {failure : Failure}
    (failed : disk.replaceFile path blob.bytes tree = (.error failure, after)) :
    disk.compileToFile devices config path tree = (.error failure, after) := by
  simp only [compileToFile, compiled, run_bind, failed]
  rfl

/-- A blob that was written is given. -/
theorem compileToFile_of_done (compiled : compile devices config = .ok blob)
    (done : disk.replaceFile path blob.bytes tree = (.ok (), after)) :
    disk.compileToFile devices config path tree = (.ok blob, after) := by
  simp only [compileToFile, compiled, run_bind, done]
  rfl

end Compiling

/-- Compiling to a file writes all of the blob or nothing, on a disk that may fail at any step.
Devices without a blob give their fault, whatever the path. Either there is a failure, and the tree
is the one from before, or the blob is given: it is then all that the path leads to, and no other
location of the tree has changed. Without the directory of the path, the failure is a fault of that
directory. A directory that stands at the path is not replaced: on a disk that fails only where the
tree makes it, the fault is that of the path, or of its directory where the staged file has no
possible path from the root. -/
theorem compileToFile_atomic {disk : Disk (StateM FileTree)} (fallible : disk.Fallible)
    (devices : List Device) (config : Config) (path : String) (tree : FileTree) :
    (∀ fault, compile devices config = .error fault →
      disk.compileToFile devices config path tree = (.error (.compile fault), tree)) ∧
    ((∃ failure, disk.compileToFile devices config path tree = (.error failure, tree)) ∨
      ∃ blob after place, disk.compileToFile devices config path tree = (.ok blob, after) ∧
        compile devices config = .ok blob ∧
        tree.locate path = .ok place ∧ after.locate path = .ok place ∧
        after.node? place = some (.file blob.bytes) ∧
        (∀ other, other ≠ place → after.node? other = tree.node? other) ∧
        after.workingDirectory = tree.workingDirectory ∧
        after.readFile path = .ok blob.bytes) ∧
    ∀ blob, compile devices config = .ok blob →
      (¬tree.IsDirectory (Path.directory path) →
        ∃ fault, disk.compileToFile devices config path tree =
          (.error (.file (Path.directory path) fault), tree)) ∧
      (tree.IsDirectory (Path.directory path) → tree.IsDirectory path →
        ∃ fault, FileTree.disk.compileToFile devices config path tree = (.error (.file (
          if FileTree.pathFault? (tree.fromRoot (tree.stagedPath path)) = none then path
          else Path.directory path) fault), tree)) := by
  refine ⟨fun fault failed => compileToFile_of_fault disk path tree failed, ?outcome, ?refused⟩
  case outcome =>
    cases compiled : compile devices config with
    | error fault => exact Or.inl ⟨_, compileToFile_of_fault disk path tree compiled⟩
    | ok blob =>
      obtain ⟨failure, failed⟩ | ⟨place, done, receives⟩ :=
        fallible.replaceFile_cases path blob.bytes tree
      · exact Or.inl ⟨failure, compileToFile_of_failure compiled failed⟩
      · exact Or.inr ⟨blob, _, place, compileToFile_of_done compiled done, rfl, receives.located,
          receives.locate_put, FileTree.node?_put_self tree receives.inside _,
          fun other differ => FileTree.node?_put_ne tree differ _, rfl, receives.readFile_put⟩
  case refused =>
    refine fun blob compiled => ⟨fun missing => ?_, fun parent directory => ?_⟩
    · obtain ⟨fault, failed⟩ := fallible.replaceFile_of_not_isDirectory missing blob.bytes
      exact ⟨fault, compileToFile_of_failure compiled failed⟩
    · cases possible : FileTree.pathFault? (tree.fromRoot (tree.stagedPath path)) with
      | some fault =>
        exact ⟨fault, compileToFile_of_failure compiled (replaceFile_of_impossible parent possible)⟩
      | none =>
        obtain ⟨fault, failed⟩ := replaceFile_of_isDirectory parent directory possible
        exact ⟨fault, compileToFile_of_failure compiled failed⟩

/-! ## A disk without room -/

/-- A disk without room: a write leaves the first bytes and fails. -/
def fullDisk : Disk (StateM FileTree) :=
  { FileTree.disk with
    write := fun path bytes tree =>
      (.error (.other "No space left on device (os error 28)"),
        (FileTree.disk.write path (bytes.take 7) tree).2) }

/-- A disk without room is one that may fail. -/
theorem fallible_fullDisk : fullDisk.Fallible where
  stage _ _ := Or.inl (by simp only [fullDisk])
  write _ bytes _ := Or.inr ⟨.other "No space left on device (os error 28)", bytes.take 7,
    by simp only [fullDisk]⟩
  rename _ _ _ := Or.inl (by simp only [fullDisk])
  discard _ _ := by simp only [fullDisk]

/-- A tree of one file. -/
def singleFile : FileTree := ⟨[(["out"], .file [1])], []⟩

/-- A device with a blob. -/
def clock : Device := { kind := .rtc, name := "c", irqLane := 7 }

/-- A device that is refused: its region is memory-mapped and has no place. -/
def adrift : Device := { kind := .uart, name := "u", flags := 1 }

/-- The clock alone has a blob. -/
theorem exists_compile_clock : ∃ blob, compile [clock] {} = .ok blob := by
  have compiles : (compile [clock] {}).isOk = true := by decide +kernel
  cases compiled : compile [clock] {} with
  | ok blob => exact ⟨blob, rfl⟩
  | error fault =>
    rw [compiled] at compiles
    cases compiles

/-- Two devices, of which the second is refused, give that fault and change no file, also where the
directory of the path is missing. The clock alone is compiled to a file that is there, once without
room and once with it, then to a file of a directory that is missing, and to the root directory.
Without room the file keeps its bytes; with room it is left with those of the blob. -/
theorem compileToFile_atomic_singleFile :
    fullDisk.compileToFile [clock, adrift] {} "missing/out" singleFile =
      (.error (.compile (.invalid (.misaligned 1 "u" 0 4096))), singleFile) ∧
    (∃ failure, fullDisk.compileToFile [clock] {} "out" singleFile = (.error failure, singleFile)) ∧
    (∃ blob after, FileTree.disk.compileToFile [clock] {} "out" singleFile = (.ok blob, after) ∧
      compile [clock] {} = .ok blob ∧ after.readFile "out" = .ok blob.bytes) ∧
    (∃ fault, FileTree.disk.compileToFile [clock] {} "missing/out" singleFile =
      (.error (.file "missing" fault), singleFile)) ∧
    ∃ fault, FileTree.disk.compileToFile [clock] {} "/" singleFile =
      (.error (.file "/" fault), singleFile) := by
  have unwritten : (fullDisk.compileToFile [clock] {} "out" singleFile).1.toOption = none := by
    decide +kernel
  have written :
      (FileTree.disk.compileToFile [clock] {} "out" singleFile).1.toOption.isSome = true := by
    decide +kernel
  have invalid : compile [clock, adrift] {} = .error (.invalid (.misaligned 1 "u" 0 4096)) := by
    decide +kernel
  obtain ⟨blob, compiled⟩ := exists_compile_clock
  refine ⟨?refused, ?full, ?room, ?missing, ?root⟩
  case refused =>
    exact (compileToFile_atomic fallible_fullDisk [clock, adrift] {} "missing/out" singleFile).1 _
      invalid
  case full =>
    obtain ⟨_, failed | ⟨blob, after, place, done, _⟩, _⟩ :=
      compileToFile_atomic fallible_fullDisk [clock] {} "out" singleFile
    · exact failed
    · rw [done] at unwritten
      exact absurd unwritten (by simp [Except.toOption])
  case room =>
    obtain ⟨_, ⟨failure, failed⟩ | ⟨blob, after, _, done, compiled, _, _, _, _, _, read⟩, _⟩ :=
      compileToFile_atomic fallible_disk [clock] {} "out" singleFile
    · rw [failed] at written
      exact absurd written (by simp [Except.toOption])
    · exact ⟨blob, after, done, compiled, read⟩
  case missing =>
    obtain ⟨_, _, refused⟩ := compileToFile_atomic fallible_disk [clock] {} "missing/out" singleFile
    have directory : Path.directory "missing/out" = "missing" := by decide +kernel
    have located : singleFile.locate "missing" = .ok ["missing"] := rfl
    have missing : ¬singleFile.IsDirectory "missing" := by
      rintro ⟨location, found, here⟩
      obtain rfl : ["missing"] = location := Except.ok.inj (located.symm.trans found)
      exact absurd here (by decide)
    obtain ⟨noParent, _⟩ := refused blob compiled
    rw [directory] at noParent
    exact noParent missing
  case root =>
    obtain ⟨_, _, refused⟩ := compileToFile_atomic fallible_disk [clock] {} "/" singleFile
    have directory : Path.directory "/" = "." := by decide +kernel
    have possible : FileTree.pathFault?
        (singleFile.fromRoot (singleFile.stagedPath "/")) = none := by decide +kernel
    obtain ⟨_, standing⟩ := refused blob compiled
    rw [if_pos possible, directory] at standing
    exact standing ⟨[], rfl, by decide⟩ ⟨[], rfl, by decide⟩

/-! ## Paths near the greatest length -/

/-- A path that steps in place some times before it ends. -/
def detour : Nat → String
  | 0 => "d"
  | count + 1 => detour count ++ "/" ++ "."

/-- A detour takes two bytes for each step. -/
theorem size_detour (count : Nat) : (detour count).utf8ByteSize = 1 + 2 * count := by
  have slash : "/".utf8ByteSize = 1 := rfl
  have dot : ".".utf8ByteSize = 1 := rfl
  induction count with
  | zero => rfl
  | succ count ih =>
    rw [detour, String.utf8ByteSize_append, String.utf8ByteSize_append, ih, slash, dot]
    omega

/-- A detour leads where it starts. -/
theorem locate_detour {location : Location} (found : tree.locate "d" = .ok location)
    (inside : tree.node? location = some .directory) {count : Nat}
    (short : 1 + 2 * count ≤ FileTree.longestPath) :
    tree.locate (detour count) = .ok location := by
  induction count with
  | zero => exact found
  | succ count ih =>
    have reached := ih (by omega)
    obtain ⟨earlier, _⟩ := FileTree.locate_eq_ok_iff.mp reached
    have possible : FileTree.pathFault? (detour count ++ "/" ++ ".") = none :=
      FileTree.pathFault?_append earlier (by decide) ((size_detour (count + 1)).symm ▸ short)
    rw [detour, FileTree.locate_append reached inside (by decide) possible]
    rfl

/-- A tree of three directories, each in the one before. -/
def nestedTree : FileTree :=
  ⟨[(["d"], .directory), (["d", "e"], .directory), (["d", "e", "x"], .directory)], []⟩

/-- A path that leads to the innermost directory on a detour. -/
def detourPath : String := detour 2040 ++ "/" ++ "e" ++ "/" ++ "x"

/-- The directory of that path. -/
theorem directory_detourPath : Path.directory detourPath = detour 2040 ++ "/" ++ "e" :=
  Path.directory_append (by decide) (by decide) (by decide) (by decide)

/-- The sizes of the path and of its directory. -/
theorem size_detourPath : detourPath.utf8ByteSize = 4085 ∧
    (detour 2040 ++ "/" ++ "e").utf8ByteSize = 4083 := by
  have slash : "/".utf8ByteSize = 1 := rfl
  have middle : "e".utf8ByteSize = 1 := rfl
  have last : "x".utf8ByteSize = 1 := rfl
  simp only [detourPath, String.utf8ByteSize_append, size_detour, slash, middle, last, and_self]

/-- The path leads through its directory, and both are there. -/
theorem isDirectory_detourPath :
    nestedTree.IsDirectory (Path.directory detourPath) ∧ nestedTree.IsDirectory detourPath := by
  obtain ⟨whole, front⟩ := size_detourPath
  have outer : nestedTree.locate (detour 2040) = .ok ["d"] :=
    locate_detour rfl (by decide) (by decide)
  obtain ⟨possible, _⟩ := FileTree.locate_eq_ok_iff.mp outer
  have possibleFront := FileTree.pathFault?_append possible (by decide)
    (show (detour 2040 ++ "/" ++ "e").utf8ByteSize ≤ FileTree.longestPath by rw [front]; decide)
  have parent : nestedTree.locate (detour 2040 ++ "/" ++ "e") = .ok ["d", "e"] :=
    FileTree.locate_entry outer (by decide) ⟨by decide, by decide, by decide⟩ possibleFront
  have possibleWhole := FileTree.pathFault?_append possibleFront (by decide)
    (show detourPath.utf8ByteSize ≤ FileTree.longestPath by rw [whole]; decide)
  have inner : nestedTree.locate detourPath = .ok ["d", "e", "x"] :=
    FileTree.locate_entry parent (by decide) ⟨by decide, by decide, by decide⟩ possibleWhole
  rw [directory_detourPath]
  exact ⟨⟨_, parent, by decide⟩, ⟨_, inner, by decide⟩⟩

/-- A directory at a path of 4085 bytes: the path of the staged file is longer than a path can be, so
that the fault is that of the directory around it. -/
theorem compileToFile_detour :
    nestedTree.IsDirectory (Path.directory detourPath) ∧ nestedTree.IsDirectory detourPath ∧
      (∃ blob, compile [] {} = .ok blob) ∧
      ¬∃ fault after, FileTree.disk.compileToFile [] {} detourPath nestedTree =
        (.error (.file detourPath fault), after) := by
  obtain ⟨parent, directory⟩ := isDirectory_detourPath
  obtain ⟨whole, front⟩ := size_detourPath
  have long : FileTree.longestPath <
      (nestedTree.fromRoot (nestedTree.stagedPath detourPath)).utf8ByteSize := by
    obtain ⟨before, joined, _⟩ := nestedTree.exists_fromRoot_eq (nestedTree.stagedPath detourPath)
    have slash : "/".utf8ByteSize = 1 := rfl
    have name : 13 ≤ (nestedTree.freshName detourPath).utf8ByteSize :=
      StagedName.le_size_ofNumber _
    rw [joined, FileTree.stagedPath, directory_detourPath]
    simp only [String.utf8ByteSize_append, slash] at front ⊢
    rw [FileTree.longestPath]
    omega
  have impossible := FileTree.pathFault?_stagedPath parent (by decide)
  rw [if_pos long] at impossible
  obtain ⟨blob, compiled⟩ : ∃ blob, compile [] {} = .ok blob := ⟨_, rfl⟩
  have failed := compileToFile_of_failure compiled (replaceFile_of_impossible parent impossible)
  refine ⟨parent, directory, ⟨blob, compiled⟩, ?_⟩
  rintro ⟨fault, after, reported⟩
  rw [failed] at reported
  obtain ⟨same, _⟩ := Prod.mk.inj reported
  obtain ⟨same, _⟩ := Failure.file.inj (Except.error.inj same)
  rw [directory_detourPath] at same
  rw [same, whole] at front
  exact absurd front (by decide)

end Disk

end BoardBlob
