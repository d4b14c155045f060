/-!
# Checked slices of byte lists

A reader of untrusted bytes takes every range through `slice?` or `suffix?`, which answer `none`
when the range is not inside the list. That a range is inside the list is therefore a fact to prove
about a reader and never one it relies on.
-/

namespace BoardBlob

/-- The bytes from position `start` up to, and without, position `stop`; `none` when the list
ends before `stop`. -/
def slice? (bytes : List UInt8) (start stop : Nat) : Option (List UInt8) :=
  if start ≤ stop ∧ stop ≤ bytes.length then some ((bytes.drop start).take (stop - start))
  else none

/-- A slice exists exactly when its range is inside the list. -/
theorem isSome_slice? (bytes : List UInt8) (start stop : Nat) :
    (slice? bytes start stop).isSome ↔ start ≤ stop ∧ stop ≤ bytes.length := by
  unfold slice?
  split <;> simp_all

/-- The slice of a range that is inside the list. -/
theorem slice?_of_le {bytes : List UInt8} {start stop : Nat} (ordered : start ≤ stop)
    (inside : stop ≤ bytes.length) :
    slice? bytes start stop = some ((bytes.drop start).take (stop - start)) := by
  simp [slice?, ordered, inside]

/-- A slice is as long as its range. -/
theorem length_of_slice? {bytes part : List UInt8} {start stop : Nat}
    (found : slice? bytes start stop = some part) : part.length = stop - start := by
  unfold slice? at found
  split at found
  · cases found
    simp only [List.length_take, List.length_drop]
    omega
  · contradiction

/-- The bytes from position `start` on; `none` when the list ends before `start`. -/
def suffix? (bytes : List UInt8) (start : Nat) : Option (List UInt8) :=
  if start ≤ bytes.length then some (bytes.drop start) else none

/-- A suffix exists exactly when its start is inside the list or at its end. -/
theorem isSome_suffix? (bytes : List UInt8) (start : Nat) :
    (suffix? bytes start).isSome ↔ start ≤ bytes.length := by
  unfold suffix?
  split <;> simp_all

/-- The suffix from a position that is inside the list or at its end. -/
theorem suffix?_of_le {bytes : List UInt8} {start : Nat} (inside : start ≤ bytes.length) :
    suffix? bytes start = some (bytes.drop start) := by
  simp [suffix?, inside]

end BoardBlob
