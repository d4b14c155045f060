import BoardBlob.Files.Disk
import BoardBlob.Proofs.FilePaths

/-!
# Staged files

What the operations of a disk do with a staged file of a file tree. While the file is there, only
its bytes change, and taking it away gives back the tree from before; moving it to a path changes
what is at that path and nothing else. A file can be staged for a path wherever the directory of the
path is there, unless the path of the staged file would be too long.
-/
namespace BoardBlob

namespace FileTree

variable {tree : FileTree} {path staged : String} {location place target : Location}
  {bytes old : List UInt8}

/-! ## Files that come and go -/

/-- What was put at a location is gone when something else is put there. -/
theorem put_put (tree : FileTree) (location : Location) (first second : Node) :
    (tree.put location first).put location second = tree.put location second := by
  simp [put, remove]

/-- Nothing is found at a fresh location below the root. -/
theorem node?_of_isFresh (inside : place ≠ []) (fresh : tree.IsFresh place) :
    tree.node? place = none := by
  rw [node?, if_neg inside, List.lookup_eq_none_iff]
  exact fun entry member => bne_iff_ne.mpr (Ne.symm (fresh entry member))

/-- A file that is put where no directory is leaves every directory. -/
theorem directory_put (vacant : tree.node? place ≠ some .directory)
    (found : tree.node? location = some .directory) :
    (tree.put place (.file bytes)).node? location = some .directory := by
  have differ : location ≠ place := fun same => vacant (same ▸ found)
  rw [node?_put_ne tree differ, found]

/-- A file that is put somewhere makes no directory. -/
theorem directory_of_put (inside : place ≠ [])
    (found : (tree.put place (.file bytes)).node? location = some .directory) :
    tree.node? location = some .directory := by
  by_cases same : location = place
  · rw [same, node?_put_self tree inside] at found
    simp at found
  · rwa [node?_put_ne tree same] at found

/-! ## Staged files -/

/-- A new place for a staged file, and the path that leads there as soon as there is one. -/
structure Staged (tree : FileTree) (staged : String) (place : Location) : Prop where
  /-- The place is below the root. -/
  inside : place ≠ []
  /-- Nothing is there. -/
  fresh : tree.IsFresh place
  /-- The path leads to the file. -/
  located : ∀ bytes, (tree.put place (.file bytes)).locate staged = .ok place

/-- The path of the file that is staged for a path. -/
def stagedPath (tree : FileTree) (path : String) : String :=
  Path.directory path ++ "/" ++ tree.freshName path

/-- Without the directory of a path, nothing is staged for it. -/
theorem stage_of_not_isDirectory (missing : ¬tree.IsDirectory (Path.directory path)) :
    ∃ fault, disk.stage path tree = (.error fault, tree) := by
  obtain ⟨fault, failed⟩ : ∃ fault, tree.stage path = .error fault := by
    rw [stage]
    cases pathFault? (tree.fromRoot (Path.directory path ++ "/" ++ tree.freshName path)) with
    | some fault => exact ⟨fault, rfl⟩
    | none =>
      cases found : tree.locate (Path.directory path) with
      | error fault => exact ⟨fault, rfl⟩
      | ok location =>
        cases here : tree.node? location with
        | none => exact ⟨absence location, by simp only [here]⟩
        | some node =>
          cases node with
          | file bytes => exact ⟨.notDirectory, by simp only [here]⟩
          | directory => exact absurd ⟨location, found, here⟩ missing
  exact ⟨fault, by simp only [disk, failed]⟩

/-- In a directory a file is staged, unless its path from the root is not possible. -/
theorem stage_of_isDirectory (parent : tree.IsDirectory (Path.directory path)) :
    (∃ fault, pathFault? (tree.fromRoot (tree.stagedPath path)) = some fault ∧
      disk.stage path tree = (.error fault, tree)) ∨
    ∃ place, pathFault? (tree.fromRoot (tree.stagedPath path)) = none ∧
      disk.stage path tree = (.ok (tree.stagedPath path), tree.put place (.file [])) ∧
      tree.Staged (tree.stagedPath path) place := by
  obtain ⟨location, found, directory⟩ := parent
  cases possible : pathFault? (tree.fromRoot (tree.stagedPath path)) with
  | some fault =>
    rw [stagedPath] at possible
    exact Or.inl ⟨fault, rfl, by simp only [disk, stage, possible]⟩
  | none =>
    have fresh := tree.isFresh_freshName path location
    have inside : location ++ [tree.freshName path] ≠ [] := by simp
    have vacant : tree.node? (location ++ [tree.freshName path]) ≠ some .directory := by
      rw [node?_of_isFresh inside fresh]
      simp
    refine Or.inr ⟨location ++ [tree.freshName path], rfl, ?_, inside, fresh, fun bytes => ?_⟩
    · rw [stagedPath] at possible
      simp only [disk, stage, possible, found, directory, stagedPath]
    · have reached := locate_entry found directory (StagedName.entryName_fresh _)
        (pathFault?_of_fromRoot (by simp) possible)
      exact locate_of_directories (fun _ => directory_put vacant) rfl reached

/-- What is wrong with the path of a staged file, if its directory is there: it is too long from the
root, or nothing is. No name of a directory has U+0000 in it. -/
theorem pathFault?_stagedPath (parent : tree.IsDirectory (Path.directory path))
    (plain : ∀ name ∈ tree.workingDirectory, '\x00' ∉ name.toList) :
    pathFault? (tree.fromRoot (tree.stagedPath path)) =
      if longestPath < (tree.fromRoot (tree.stagedPath path)).utf8ByteSize then some .nameTooLong
      else none := by
  obtain ⟨location, found, _⟩ := parent
  obtain ⟨possible, _⟩ := locate_eq_ok_iff.mp found
  obtain ⟨plainParent, _, _⟩ := pathFault?_eq_none_iff.mp possible
  refine pathFault?_fromRoot_of_plain (by simp [stagedPath]) ?_ plain
  simp only [stagedPath, String.toList_append, List.mem_append, not_or]
  exact ⟨⟨plainParent, by decide⟩, StagedName.nul_not_mem_fresh _⟩

/-- A path leads to the file that was put at its place. -/
theorem Receives.locate_put (receives : tree.Receives path place) :
    (tree.put place (.file bytes)).locate path = .ok place :=
  locate_of_directories (fun _ => directory_put receives.vacant) rfl receives.located

/-- A path gives the bytes of the file that was put at its place. -/
theorem Receives.readFile_put (receives : tree.Receives path place) :
    (tree.put place (.file bytes)).readFile path = .ok bytes := by
  simp only [readFile, receives.locate_put, node?_put_self tree receives.inside]

namespace Staged

/-- A staged file is given its bytes. -/
theorem write (holds : tree.Staged staged place) :
    disk.write staged bytes (tree.put place (.file old)) =
      (.ok (), tree.put place (.file bytes)) := by
  simp only [disk, change, FileTree.write, holds.located, node?_put_self tree holds.inside, put_put]

/-- Taking a staged file away gives back the tree from before. -/
theorem discard (holds : tree.Staged staged place) :
    disk.discard staged (tree.put place (.file old)) = ((), tree) := by
  simp only [disk, FileTree.discard, holds.located, remove_put_of_isFresh holds.fresh]

/-- A staged file is moved to the place of a path, if there is one. -/
theorem rename (holds : tree.Staged staged place) :
    disk.rename staged path (tree.put place (.file bytes)) =
      match (tree.put place (.file bytes)).placeFor path with
      | .error fault => (.error fault, tree.put place (.file bytes))
      | .ok target => (.ok (), tree.put target (.file bytes)) := by
  simp only [disk, change, FileTree.rename, holds.located, node?_put_self tree holds.inside,
    remove_put_of_isFresh holds.fresh]
  cases (tree.put place (.file bytes)).placeFor path <;> rfl

/-- A place that is found for a path while a file is staged is one for it without that file. -/
theorem receives (holds : tree.Staged staged place)
    (found : (tree.put place (.file bytes)).placeFor path = .ok target) :
    tree.Receives path target := by
  obtain ⟨reached, inside, vacant⟩ := placeFor_eq_ok found
  have absent : tree.node? place ≠ some .directory := by
    rw [node?_of_isFresh holds.inside holds.fresh]
    simp
  exact {
    located := locate_of_directories (fun _ => directory_of_put holds.inside) rfl reached
    inside := inside
    vacant := fun directory => vacant (directory_put absent directory) }

end Staged

end FileTree

end BoardBlob
