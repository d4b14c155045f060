import BoardBlob.Files.FileFault
import BoardBlob.Files.Path
import BoardBlob.Files.StagedName

/-!
# File trees

A file tree is what a file system holds: at every location either a file with its bytes, a directory
or nothing. The root directory is always there. A path that begins with a slash starts at the root,
and any other path at the working directory. A path is resolved one segment at a time, and only a
directory can be passed through; two dots lead back to the directory above, and from the root to the
root.

A new file is staged beside the place where a path leads, under a name that no file or directory
has (`isFresh_freshName`) and that is no segment of the path either, so the path leads where it led;
taking the staged file away again gives back the tree as it was (`remove_put_of_isFresh`).
-/

namespace BoardBlob

/-- What is at a location. -/
inductive Node where
  | file (bytes : List UInt8)
  | directory
  deriving DecidableEq, Repr

/-- A place in a file tree: the names that lead to it from the root. -/
abbrev Location := List String

/-- The files and directories of a file system, below its root directory. -/
structure FileTree where
  nodes : List (Location × Node)
  /-- The place that a path starts from unless it begins with a slash. -/
  workingDirectory : Location
  deriving DecidableEq, Repr

namespace FileTree

/-- The tree that has the root directory only. -/
def empty : FileTree := ⟨[], []⟩

/-- What is at a location. -/
def node? (tree : FileTree) (location : Location) : Option Node :=
  if location = [] then some .directory else tree.nodes.lookup location

/-- The tree without what is at a location. -/
def remove (tree : FileTree) (location : Location) : FileTree :=
  { tree with nodes := tree.nodes.filter fun entry => entry.1 != location }

/-- The tree with something else at a location. -/
def put (tree : FileTree) (location : Location) (node : Node) : FileTree :=
  { tree with nodes := (location, node) :: (tree.remove location).nodes }

/-- Nothing in the tree has this location. -/
def IsFresh (tree : FileTree) (location : Location) : Prop :=
  ∀ entry ∈ tree.nodes, entry.1 ≠ location

/-! ## Paths -/

/-- Greatest count of bytes in a path. -/
def longestPath : Nat := 4095

/-- Greatest count of bytes in a name that a file or directory can have. -/
def longestPossibleName : Nat := 255

/-- What is wrong with a path whatever the tree holds. -/
def pathFault? (path : String) : Option FileFault :=
  if path.toList.contains '\x00' then some .containsNul
  else if path = "" then some .notFound
  else if longestPath < path.utf8ByteSize then some .nameTooLong
  else none

/-- Why there is nothing at a location: nothing can have its name, or nothing does. -/
def absence (location : Location) : FileFault :=
  match location.getLast? with
  | none => .notFound
  | some name => if longestPossibleName < name.utf8ByteSize then .nameTooLong else .notFound

/-- Where the segments of a path are followed from. -/
def start (tree : FileTree) (segments : List String) : Location :=
  if segments.head? = some "" then [] else tree.workingDirectory

/-- Follows segments from a location on. What is passed through must be a directory; what is
reached last may be anything or nothing. -/
def follow (tree : FileTree) : Location → List String → Except FileFault Location
  | location, [] => .ok location
  | location, segment :: rest =>
    match tree.node? location with
    | none => .error (absence location)
    | some (.file _) => .error .notDirectory
    | some .directory =>
      if Path.isIdle segment then tree.follow location rest
      else if segment = ".." then tree.follow location.dropLast rest
      else tree.follow (location ++ [segment]) rest

/-- The location that a path leads to. The empty path leads nowhere. -/
def locate (tree : FileTree) (path : String) : Except FileFault Location :=
  match pathFault? path with
  | some fault => .error fault
  | none =>
    let segments := Path.segments path
    tree.follow (tree.start segments) segments

/-- The bytes of a file. -/
def readFile (tree : FileTree) (path : String) : Except FileFault (List UInt8) :=
  match tree.locate path with
  | .error fault => .error fault
  | .ok location =>
    match tree.node? location with
    | none => .error (absence location)
    | some .directory => .error .isDirectory
    | some (.file bytes) => .ok bytes

/-! ## Staged files -/

/-- Every name in the tree, and those that lead to its working directory. -/
def names (tree : FileTree) : List String :=
  tree.workingDirectory ++ (tree.nodes.map Prod.fst).flatten

/-- A staged name that nothing in the tree has and that is no segment of a path. -/
def freshName (tree : FileTree) (path : String) : String :=
  StagedName.fresh (tree.names ++ Path.segments path)

/-- A path that begins at the root and leads where a path leads. -/
def fromRoot (tree : FileTree) (path : String) : String :=
  if path.startsWith "/" then path
  else tree.workingDirectory.foldr (fun name rest => "/" ++ name ++ rest) ("/" ++ path)

/-- Makes a new empty file in the directory of a path, and gives the path of that file. The new file
is made from the root, so its path from there must not be too long. -/
def stage (tree : FileTree) (path : String) : Except FileFault (String × FileTree) :=
  let directory := Path.directory path
  let name := tree.freshName path
  let staged := directory ++ "/" ++ name
  match pathFault? (tree.fromRoot staged) with
  | some fault => .error fault
  | none =>
    match tree.locate directory with
    | .error fault => .error fault
    | .ok location =>
      match tree.node? location with
      | none => .error (absence location)
      | some (.file _) => .error .notDirectory
      | some .directory => .ok (staged, tree.put (location ++ [name]) (.file []))

/-- Gives a file new bytes. -/
def write (tree : FileTree) (path : String) (bytes : List UInt8) : Except FileFault FileTree :=
  match tree.locate path with
  | .error fault => .error fault
  | .ok location =>
    match tree.node? location with
    | none => .error (absence location)
    | some .directory => .error .isDirectory
    | some (.file _) => .ok (tree.put location (.file bytes))

/-- Takes a file away, if there is one. -/
def discard (tree : FileTree) (path : String) : FileTree :=
  match tree.locate path with
  | .error _ => tree
  | .ok location => tree.remove location

/-- The location at which a path can put a file: that of a file that may be replaced, or one in a
directory at which there is nothing. A path that ends in a slash can only name a directory. -/
def placeFor (tree : FileTree) (path : String) : Except FileFault Location :=
  match pathFault? path with
  | some fault => .error fault
  | none =>
    let segments := Path.segments path
    match segments.reverse.dropWhile fun segment => segment == "" with
    | [] => .error .busy
    | last :: outer =>
      match tree.follow (tree.start segments) (outer.reverse ++ ["."]) with
      | .error fault => .error fault
      | .ok parent =>
        if last = "." ∨ last = ".." then .error .busy
        else
          let location := parent ++ [last]
          let found := tree.node? location
          if found = none ∧ absence location = .nameTooLong then .error .nameTooLong
          else if segments.getLast? = some "" then .error .notDirectory
          else if found = some .directory then .error .isDirectory
          else .ok location

/-- Moves a file to another path, where it takes the place of any file. -/
def rename (tree : FileTree) (source target : String) : Except FileFault FileTree :=
  match tree.locate source with
  | .error fault => .error fault
  | .ok location =>
    match tree.node? location with
    | none => .error (absence location)
    | some node =>
      match tree.placeFor target with
      | .error fault => .error fault
      | .ok place => .ok ((tree.remove location).put place node)

/-! ## Laws -/

/-- A location holds what was put there. -/
theorem node?_put_self (tree : FileTree) {location : Location} (inside : location ≠ [])
    (node : Node) : (tree.put location node).node? location = some node := by
  simp [node?, put, inside]

/-- Taking away what is at one location leaves what is looked up at another. -/
theorem lookup_filter_ne {location other : Location} (differ : other ≠ location)
    (nodes : List (Location × Node)) :
    (nodes.filter fun entry => entry.1 != location).lookup other = nodes.lookup other := by
  induction nodes with
  | nil => rfl
  | cons entry rest ih =>
    obtain ⟨key, node⟩ := entry
    by_cases same : key = location
    · subst same
      have skipped : (other == key) = false := by simpa using differ
      simpa [List.lookup_cons, skipped] using ih
    · have kept : (key != location) = true := by simpa using same
      simp only [List.filter_cons, kept, ↓reduceIte, List.lookup_cons, ih]

/-- Taking away what is at one location leaves every other as it was. -/
theorem node?_remove_ne (tree : FileTree) {location other : Location} (differ : other ≠ location) :
    (tree.remove location).node? other = tree.node? other := by
  simp [node?, remove, lookup_filter_ne differ]

/-- Putting something at one location leaves every other as it was. -/
theorem node?_put_ne (tree : FileTree) {location other : Location} (differ : other ≠ location)
    (node : Node) : (tree.put location node).node? other = tree.node? other := by
  have skipped : (other == location) = false := by simpa using differ
  simp [node?, put, remove, List.lookup_cons, skipped, lookup_filter_ne differ]

/-- Nothing changes when nothing is taken away. -/
theorem remove_of_isFresh {tree : FileTree} {location : Location} (fresh : tree.IsFresh location) :
    tree.remove location = tree := by
  obtain ⟨nodes, _⟩ := tree
  simp only [remove, mk.injEq, List.filter_eq_self, and_true]
  intro entry member
  simpa using fresh entry member

/-- Taking away what was put at a fresh location gives back the tree. -/
theorem remove_put_of_isFresh {tree : FileTree} {location : Location}
    (fresh : tree.IsFresh location) (node : Node) :
    (tree.put location node).remove location = tree := by
  have same := remove_of_isFresh fresh
  obtain ⟨nodes, _⟩ := tree
  simp only [put, remove, mk.injEq] at same ⊢
  simp [same]

/-- Nothing in the tree has a location that ends in the fresh name. -/
theorem isFresh_freshName (tree : FileTree) (path : String) (directory : Location) :
    tree.IsFresh (directory ++ [tree.freshName path]) := by
  intro entry member same
  have named : tree.freshName path ∈ tree.names :=
    List.mem_append_right _
      (List.mem_flatten.mpr ⟨entry.1, List.mem_map_of_mem member, by simp [same]⟩)
  exact StagedName.fresh_not_mem _ (List.mem_append_left _ named)

/-- The fresh name is no segment of the path that it is made for. -/
theorem freshName_not_mem_segments (tree : FileTree) (path : String) :
    tree.freshName path ∉ Path.segments path := fun member =>
  StagedName.fresh_not_mem _ (List.mem_append_right _ member)

end FileTree

end BoardBlob
