/-!
# Paths

A path is a text; the slashes in it separate its segments. A leading slash gives an empty first
segment. Further empty segments, and segments that are a single dot, do not change what a path
names, so they do not count when the last part of a path is sought; a dot that begins a path counts,
since without it the path would be empty.
-/

namespace BoardBlob.Path

/-- Cuts a text at its slashes. -/
def split : List Char → List (List Char)
  | [] => [[]]
  | character :: rest =>
    if character = '/' then [] :: split rest
    else
      match split rest with
      | [] => [[character]]
      | segment :: more => (character :: segment) :: more

/-- The segments of a path. There is always at least one. -/
def segments (path : String) : List String := (split path.toList).map String.ofList

/-- A text cut at its slashes is never without pieces. -/
theorem split_ne_nil (text : List Char) : split text ≠ [] := by
  induction text with
  | nil => simp [split]
  | cons character rest ih =>
    unfold split
    split
    · simp
    · split <;> simp

/-- The pieces of a text, put together again with slashes, are the text. -/
theorem intercalate_split (text : List Char) : ['/'].intercalate (split text) = text := by
  induction text with
  | nil => rfl
  | cons character rest ih =>
    unfold split
    split
    · rename_i slash
      cases pieces : split rest with
      | nil => exact absurd pieces (split_ne_nil rest)
      | cons segment more =>
        rw [pieces] at ih
        simp [List.intercalate, List.intersperse, slash] at ih ⊢
        exact ih
    · cases pieces : split rest with
      | nil => exact absurd pieces (split_ne_nil rest)
      | cons segment more =>
        rw [pieces] at ih
        cases more <;> simp [List.intercalate, List.intersperse] at ih ⊢ <;> exact ih

/-- A segment after the first that does not change what the path names. -/
def isIdle (segment : String) : Bool := segment == "" || segment == "."

/-- Segments without the idle ones at their end. -/
def dropIdleEnd (segments : List String) : List String :=
  (segments.reverse.dropWhile isIdle).reverse

/-- The directory in which a path lies: the path without its last part, or a dot when nothing is
left or there is no part to take away. -/
def directory (path : String) : String :=
  match segments path with
  | [] => "."
  | first :: rest =>
    match dropIdleEnd rest with
    | [] => "."
    | counted =>
      match first, dropIdleEnd counted.dropLast with
      | "", [] => "/"
      | first, outer => "/".intercalate (first :: outer)

end BoardBlob.Path
