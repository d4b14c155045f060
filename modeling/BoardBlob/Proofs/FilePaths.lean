import BoardBlob.Files.FileTree

/-!
# Where paths lead

A path is followed through directories only, so where it leads depends on nothing but the
directories of a tree (`follow_of_directories`): files may come and go. A path with one more name
leads one step further (`locate_append`). A place where a path can put a file is the one that the
path leads to, and no directory is there (`placeFor_eq_ok`).
-/
namespace BoardBlob

namespace Path

/-- A text that is cut at one of its slashes is cut on both sides of it. -/
theorem split_append (front back : List Char) :
    split (front ++ '/' :: back) = split front ++ split back := by
  induction front with
  | nil => simp [split]
  | cons character rest ih =>
    rw [List.cons_append, split, split]
    by_cases slash : character = '/'
    · simp [slash, ih]
    · rw [if_neg slash, if_neg slash, ih]
      cases pieces : split rest with
      | nil => exact absurd pieces (split_ne_nil rest)
      | cons segment more => simp

/-- A text without a slash is left whole. -/
theorem split_of_plain {text : List Char} (plain : '/' ∉ text) : split text = [text] := by
  induction text with
  | nil => rfl
  | cons character rest ih =>
    rw [List.mem_cons, not_or] at plain
    obtain ⟨here, later⟩ := plain
    rw [split, if_neg (Ne.symm here), ih later]

/-- The segments of two paths with a slash between them. -/
theorem segments_append (front back : String) :
    segments (front ++ "/" ++ back) = segments front ++ segments back := by
  have texts : (front ++ "/" ++ back).toList = front.toList ++ '/' :: back.toList := by simp
  rw [segments, texts, split_append, List.map_append, segments, segments]

/-- A path is never without segments. -/
theorem segments_ne_nil (path : String) : segments path ≠ [] := by
  simp [segments, split_ne_nil]

/-- A name without a slash is a single segment. -/
theorem segments_of_plain {name : String} (plain : '/' ∉ name.toList) : segments name = [name] := by
  rw [segments, split_of_plain plain, List.map_singleton, String.ofList_toList]

/-- A path is its segments with slashes between them. -/
theorem intercalate_segments (path : String) : "/".intercalate (segments path) = path := by
  apply String.toList_inj.mp
  rw [String.toList_intercalate, segments, List.map_map]
  have texts : (split path.toList).map (String.toList ∘ String.ofList) = split path.toList := by
    simp [Function.comp_def]
  rw [texts]
  exact intercalate_split path.toList

/-- Segments that end in one that is not idle end in no idle one. -/
theorem dropIdleEnd_append {front : List String} {last : String} (counted : isIdle last = false) :
    dropIdleEnd (front ++ [last]) = front ++ [last] := by
  simp [dropIdleEnd, counted]

/-- The directory of a path that ends in a name is what stands before that name, if that is more
than one segment and ends in a name as well. -/
theorem directory_append {outer parent name : String} (plainParent : '/' ∉ parent.toList)
    (countedParent : isIdle parent = false) (plain : '/' ∉ name.toList)
    (counted : isIdle name = false) :
    directory (outer ++ "/" ++ parent ++ "/" ++ name) = outer ++ "/" ++ parent := by
  have pieces : segments (outer ++ "/" ++ parent) = segments outer ++ [parent] := by
    rw [segments_append, segments_of_plain plainParent]
  rw [directory, segments_append, segments_of_plain plain, pieces]
  cases start : segments outer with
  | nil => exact absurd start (segments_ne_nil outer)
  | cons first more =>
    have kept : dropIdleEnd (more ++ [parent] ++ [name]) = more ++ [parent] ++ [name] :=
      dropIdleEnd_append counted
    have trimmed : dropIdleEnd (more ++ [parent] ++ [name]).dropLast = more ++ [parent] := by
      rw [List.dropLast_concat, dropIdleEnd_append countedParent]
    have whole : "/".intercalate (first :: (more ++ [parent])) = outer ++ "/" ++ parent := by
      rw [← List.cons_append, ← start, ← pieces, intercalate_segments]
    -- Neither of the two lists that are told apart is empty.
    simp only [List.cons_append, kept]
    cases more <;> simp_all

/-- Of segments of which the last is not empty, taking away the empty ones at the end leaves all. -/
theorem eq_append_of_dropWhile {segments outer : List String} {last : String}
    (ends : segments.reverse.dropWhile (fun segment => segment == "") = last :: outer)
    (filled : segments.getLast? ≠ some "") : segments = outer.reverse ++ [last] ∧ last ≠ "" := by
  rw [← List.head?_reverse] at filled
  cases reversed : segments.reverse with
  | nil => simp [reversed] at ends
  | cons first more =>
    rw [reversed] at filled ends
    have counted : first ≠ "" := by simpa using filled
    rw [List.dropWhile_cons_of_neg (by simpa using counted)] at ends
    cases ends
    exact ⟨by simpa using congrArg List.reverse reversed, counted⟩

end Path

/-- A name that leads to an entry of a directory: one segment that is neither passed over nor leads
back. -/
structure EntryName (name : String) : Prop where
  /-- No slash cuts the name. -/
  plain : '/' ∉ name.toList
  /-- The name is not passed over. -/
  counted : Path.isIdle name = false
  /-- The name does not lead back. -/
  forward : name ≠ ".."

namespace StagedName

/-- Every character of a staged name is one of the letters around its number, or a digit. -/
theorem mem_ofNumber {number : Nat} {character : Char}
    (member : character ∈ (ofNumber number).toList) :
    character ∈ ".devtree-.tmp".toList ∨ character.isDigit := by
  simp only [ofNumber, String.toList_append, List.mem_append, Nat.toList_repr] at member
  obtain (front | digit) | back := member
  · exact Or.inl (List.mem_append_left ".tmp".toList front)
  · exact Or.inr (Nat.isDigit_of_mem_toDigits (by decide) (by decide) digit)
  · exact Or.inl (List.mem_append_right ".devtree-".toList back)

/-- The letters around its number take thirteen bytes of a staged name. -/
theorem le_size_ofNumber (number : Nat) : 13 ≤ (ofNumber number).utf8ByteSize := by
  have front : ".devtree-".utf8ByteSize = 9 := rfl
  have back : ".tmp".utf8ByteSize = 4 := rfl
  rw [ofNumber, String.utf8ByteSize_append, String.utf8ByteSize_append, front, back]
  omega

/-- A staged name is no name of fewer bytes. -/
theorem ofNumber_ne {number : Nat} {short : String} (few : short.utf8ByteSize < 13) :
    ofNumber number ≠ short := by
  rintro rfl
  exact absurd (le_size_ofNumber number) (Nat.not_le.mpr few)

/-- A staged name leads to an entry of a directory. -/
theorem entryName_fresh (avoided : List String) : EntryName (fresh avoided) where
  plain member := by
    have known := mem_ofNumber member
    simp at known
  counted := by
    have filled : fresh avoided ≠ "" := ofNumber_ne (by decide)
    have dotted : fresh avoided ≠ "." := ofNumber_ne (by decide)
    simp [Path.isIdle, filled, dotted]
  forward := ofNumber_ne (by decide)

/-- No U+0000 stands in a staged name. -/
theorem nul_not_mem_fresh (avoided : List String) : '\x00' ∉ (fresh avoided).toList := by
  intro member
  have known := mem_ofNumber member
  simp at known

end StagedName

namespace FileTree

variable {tree other : FileTree} {location place : Location} {path name : String}

/-- Where one segment leads from a directory. -/
def stepFrom (location : Location) (segment : String) : Location :=
  if Path.isIdle segment then location
  else if segment = ".." then location.dropLast
  else location ++ [segment]

/-- Segments lead somewhere from a directory only, and one after the other. -/
theorem follow_cons_eq_ok_iff {segment : String} {rest : List String} :
    tree.follow location (segment :: rest) = .ok place ↔
      tree.node? location = some .directory ∧
        tree.follow (stepFrom location segment) rest = .ok place := by
  rw [follow, stepFrom]
  cases tree.node? location with
  | none => simp
  | some node =>
    cases node with
    | file bytes => simp
    | directory =>
      by_cases idle : Path.isIdle segment
      · simp [idle]
      · simp only [if_neg idle]
        by_cases back : segment = ".." <;> simp [back]

/-- Segments lead where their second part leads from where the first part leads. -/
theorem follow_append_eq_ok_iff {front back : List String} :
    tree.follow location (front ++ back) = .ok place ↔
      ∃ reached, tree.follow location front = .ok reached ∧
        tree.follow reached back = .ok place := by
  induction front generalizing location with
  | nil => simp [follow]
  | cons segment rest ih =>
    simp only [List.cons_append, follow_cons_eq_ok_iff, ih, and_assoc, exists_and_left]

/-- A single segment leads one step, from a directory only. -/
theorem follow_singleton_eq_ok_iff {segment : String} :
    tree.follow location [segment] = .ok place ↔
      tree.node? location = some .directory ∧ stepFrom location segment = place := by
  rw [follow_cons_eq_ok_iff, follow, Except.ok.injEq]

/-- A name that is neither passed over nor leads back leads to the entry. -/
theorem stepFrom_entry (location : Location) (counted : Path.isIdle name = false)
    (forward : name ≠ "..") : stepFrom location name = location ++ [name] := by
  simp [stepFrom, counted, forward]

/-- Where segments lead, they lead in every tree that has the same directories. -/
theorem follow_of_directories
    (kept : ∀ place, tree.node? place = some .directory → other.node? place = some .directory)
    {segments : List String} (found : tree.follow location segments = .ok place) :
    other.follow location segments = .ok place := by
  induction segments generalizing location with
  | nil => exact found
  | cons segment rest ih =>
    rw [follow_cons_eq_ok_iff] at found ⊢
    exact ⟨kept location found.1, ih found.2⟩

/-! ## Paths -/

/-- What a path must be in any tree: it has no U+0000, is not empty, and is not too long. -/
theorem pathFault?_eq_none_iff : pathFault? path = none ↔
    '\x00' ∉ path.toList ∧ path ≠ "" ∧ path.utf8ByteSize ≤ longestPath := by
  rw [pathFault?]
  by_cases nul : '\x00' ∈ path.toList
  · simp [nul]
  · by_cases blank : path = ""
    · simp [blank]
    · by_cases long : longestPath < path.utf8ByteSize <;> simp [nul, blank, long, Nat.not_lt.mp]

/-- A possible path with one more name is possible as long as it is not too long. -/
theorem pathFault?_append (possible : pathFault? path = none) (plain : '\x00' ∉ name.toList)
    (short : (path ++ "/" ++ name).utf8ByteSize ≤ longestPath) :
    pathFault? (path ++ "/" ++ name) = none := by
  obtain ⟨plainPath, _, _⟩ := pathFault?_eq_none_iff.mp possible
  exact pathFault?_eq_none_iff.mpr ⟨by simpa [plainPath] using plain, by simp, short⟩

/-- The path from the root that leads where a path leads ends in that path. What stands before it
are slashes and the names that lead to the working directory. -/
theorem exists_fromRoot_eq (tree : FileTree) (path : String) :
    ∃ front, tree.fromRoot path = front ++ path ∧ ∀ character ∈ front.toList,
      character = '/' ∨ ∃ name ∈ tree.workingDirectory, character ∈ name.toList := by
  rw [fromRoot]
  split
  · exact ⟨"", by simp, by simp⟩
  · induction tree.workingDirectory with
    | nil => exact ⟨"/", rfl, by simp⟩
    | cons name rest ih =>
      obtain ⟨front, joined, known⟩ := ih
      refine ⟨"/" ++ name ++ front, ?_, ?_⟩
      · rw [List.foldr_cons, joined]
        simp only [String.append_assoc]
      · intro character member
        simp only [String.toList_append, List.mem_append] at member
        obtain (slash | here) | later := member
        · exact Or.inl (by simpa using slash)
        · exact Or.inr ⟨name, List.mem_cons_self, here⟩
        · obtain slash | ⟨deeper, listed, within⟩ := known character later
          · exact Or.inl slash
          · exact Or.inr ⟨deeper, List.mem_cons_of_mem name listed, within⟩

/-- A path that is possible from the root is possible from the working directory. -/
theorem pathFault?_of_fromRoot (filled : path ≠ "")
    (possible : pathFault? (tree.fromRoot path) = none) : pathFault? path = none := by
  obtain ⟨front, joined, _⟩ := tree.exists_fromRoot_eq path
  rw [joined, pathFault?_eq_none_iff] at possible
  obtain ⟨plain, _, short⟩ := possible
  rw [String.utf8ByteSize_append] at short
  rw [String.toList_append, List.mem_append, not_or] at plain
  exact pathFault?_eq_none_iff.mpr ⟨plain.2, filled, by omega⟩

/-- What is wrong, from the root, with a path of possible names: it is too long, or nothing is. -/
theorem pathFault?_fromRoot_of_plain (filled : path ≠ "") (plain : '\x00' ∉ path.toList)
    (plainNames : ∀ name ∈ tree.workingDirectory, '\x00' ∉ name.toList) :
    pathFault? (tree.fromRoot path) =
      if longestPath < (tree.fromRoot path).utf8ByteSize then some .nameTooLong else none := by
  obtain ⟨front, joined, known⟩ := tree.exists_fromRoot_eq path
  have absent : '\x00' ∉ (tree.fromRoot path).toList := by
    rw [joined, String.toList_append, List.mem_append, not_or]
    refine ⟨fun member => ?_, plain⟩
    obtain slash | ⟨name, listed, within⟩ := known _ member
    · exact absurd slash (by decide)
    · exact plainNames name listed within
  have present : tree.fromRoot path ≠ "" := by
    rw [joined]
    simpa using fun _ => filled
  simp [pathFault?, absent, present]

/-- A path leads somewhere when it is one that any tree can have, and its segments lead there. -/
theorem locate_eq_ok_iff : tree.locate path = .ok location ↔ pathFault? path = none ∧
    tree.follow (tree.start (Path.segments path)) (Path.segments path) = .ok location := by
  rw [locate]
  cases pathFault? path <;> simp

/-- Where a path leads, it leads in every tree that has the same directories. -/
theorem locate_of_directories
    (kept : ∀ place, tree.node? place = some .directory → other.node? place = some .directory)
    (sameStart : other.workingDirectory = tree.workingDirectory)
    (found : tree.locate path = .ok location) : other.locate path = .ok location := by
  rw [locate_eq_ok_iff] at found ⊢
  obtain ⟨possible, followed⟩ := found
  have start : other.start (Path.segments path) = tree.start (Path.segments path) := by
    rw [FileTree.start, FileTree.start, sameStart]
  rw [start]
  exact ⟨possible, follow_of_directories kept followed⟩

/-- A path leads to a directory of the tree. -/
def IsDirectory (tree : FileTree) (path : String) : Prop :=
  ∃ location, tree.locate path = .ok location ∧ tree.node? location = some .directory

/-- A path with one more segment leads one step further, from a directory. -/
theorem locate_append (found : tree.locate path = .ok location)
    (inside : tree.node? location = some .directory) (plain : '/' ∉ name.toList)
    (possible : pathFault? (path ++ "/" ++ name) = none) :
    tree.locate (path ++ "/" ++ name) = .ok (stepFrom location name) := by
  rw [locate_eq_ok_iff] at found ⊢
  obtain ⟨_, followed⟩ := found
  have start : tree.start (Path.segments path ++ [name]) = tree.start (Path.segments path) := by
    cases pieces : Path.segments path with
    | nil => exact absurd pieces (Path.segments_ne_nil path)
    | cons first more => rfl
  rw [Path.segments_append, Path.segments_of_plain plain, start]
  exact ⟨possible, follow_append_eq_ok_iff.mpr
    ⟨location, followed, follow_singleton_eq_ok_iff.mpr ⟨inside, rfl⟩⟩⟩

/-- A path with the name of an entry after it leads to that entry. -/
theorem locate_entry (found : tree.locate path = .ok location)
    (inside : tree.node? location = some .directory) (named : EntryName name)
    (possible : pathFault? (path ++ "/" ++ name) = none) :
    tree.locate (path ++ "/" ++ name) = .ok (location ++ [name]) := by
  rw [locate_append found inside named.plain possible,
    stepFrom_entry location named.counted named.forward]

/-- A place at which a path can put a file: the path leads there, and no directory is there. -/
structure Receives (tree : FileTree) (path : String) (place : Location) : Prop where
  /-- The path leads to the place. -/
  located : tree.locate path = .ok place
  /-- The place is below the root. -/
  inside : place ≠ []
  /-- No directory is there. -/
  vacant : tree.node? place ≠ some .directory

/-- A place that is found for a file is one at which the path can put it. -/
theorem placeFor_eq_ok (found : tree.placeFor path = .ok place) : tree.Receives path place := by
  rw [placeFor] at found
  cases possible : pathFault? path with
  | some fault => simp [possible] at found
  | none =>
    cases ends : (Path.segments path).reverse.dropWhile fun segment => segment == "" with
    | nil => simp [possible, ends] at found
    | cons last outer =>
      cases followed : tree.follow (tree.start (Path.segments path)) (outer.reverse ++ ["."]) with
      | error fault => simp [possible, ends, followed] at found
      | ok parent =>
        simp only [possible, ends, followed] at found
        by_cases dots : last = "." ∨ last = ".."
        · simp [dots] at found
        by_cases long : tree.node? (parent ++ [last]) = none ∧
            absence (parent ++ [last]) = .nameTooLong
        · simp [dots, long] at found
        by_cases slash : (Path.segments path).getLast? = some ""
        · simp [dots, long, slash] at found
        by_cases directory : tree.node? (parent ++ [last]) = some .directory
        · simp [dots, slash, directory] at found
        simp only [dots, long, slash, directory, ↓reduceIte, Except.ok.injEq] at found
        subst found
        obtain ⟨segments, filled⟩ := Path.eq_append_of_dropWhile ends slash
        obtain ⟨location, reached, dot⟩ := follow_append_eq_ok_iff.mp followed
        obtain ⟨inside, rfl⟩ := follow_singleton_eq_ok_iff.mp dot
        have counted : Path.isIdle last = false := by
          simp [Path.isIdle, filled, (not_or.mp dots).1]
        have step : stepFrom location last = location ++ [last] :=
          stepFrom_entry location counted (not_or.mp dots).2
        refine ⟨locate_eq_ok_iff.mpr ⟨possible, ?_⟩, by simp, directory⟩
        rw [segments] at reached ⊢
        exact follow_append_eq_ok_iff.mpr
          ⟨location, reached, follow_singleton_eq_ok_iff.mpr ⟨inside, step⟩⟩

end FileTree

end BoardBlob
