/-!
# Names of staged files

A file is staged under a short name that nothing has. Staged names are numbered; the numbers begin
at one hundred thousand, so the names are all of one length until the numbers have seven digits.

`fresh_not_mem` says that the chosen name is not among the names to avoid, however many those are:
two numbers never give one name (`ofNumber_inj`), so of one number more than there are names, one
is left over.
-/

namespace BoardBlob.StagedName

/-- The staged name with a number. -/
def ofNumber (number : Nat) : String := ".devtree-" ++ (100000 + number).repr ++ ".tmp"

/-- The first number whose name is not among the names to avoid. -/
def freshNumber (avoided : List String) : Nat :=
  ((List.range (avoided.length + 1)).find? fun number => ofNumber number ∉ avoided).getD 0

/-- The first staged name that is not among the names to avoid. -/
def fresh (avoided : List String) : String := ofNumber (freshNumber avoided)

/-- Two numbers never give one name. -/
theorem ofNumber_inj {first second : Nat} (same : ofNumber first = ofNumber second) :
    first = second := by
  have texts := congrArg String.toList same
  simp only [ofNumber, String.toList_append] at texts
  have digits := List.append_cancel_left (List.append_cancel_right texts)
  have numbers := congrArg (fun digits => Nat.ofDigitChars 10 digits 0) digits
  simp only [Nat.toList_repr, Nat.ofDigitChars_ten_toDigits] at numbers
  omega

/-- A fresh name is not among the names to avoid. -/
theorem fresh_not_mem (avoided : List String) : fresh avoided ∉ avoided := by
  unfold fresh freshNumber
  cases found : (List.range (avoided.length + 1)).find? fun number => ofNumber number ∉ avoided with
  | some number => simpa using List.find?_some found
  | none =>
    have taken : (List.range (avoided.length + 1)).map ofNumber ⊆ avoided := by
      intro name member
      obtain ⟨number, listed, rfl⟩ := List.mem_map.mp member
      simpa using List.find?_eq_none.mp found number listed
    have apart : ((List.range (avoided.length + 1)).map ofNumber).Nodup :=
      List.Pairwise.map ofNumber (fun _ _ differ same => differ (ofNumber_inj same))
        List.nodup_range
    have count := apart.length_le_of_subset taken
    simp only [List.length_map, List.length_range] at count
    omega

end BoardBlob.StagedName
