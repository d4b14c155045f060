import BoardBlob.Proofs.RecordCodec

/-!
# Overwritten bytes

A patch that is written over as many bytes of a list keeps the length of the list and every byte
outside itself (`getElem?_overwrite_of_outside`). Whoever reads a range that keeps its bytes reads
the same from both lists: a slice by `slice?_congr`, and everything from a place on by
`drop_overwrite`. Two patches that do not meet can be written in either order (`overwrite_comm`).
-/
namespace BoardBlob

/-- Two lists that have the same bytes in a range have the same slice there. -/
theorem slice?_congr {first second : List UInt8} {start stop : Nat}
    (inside : stop ≤ first.length) (insideSecond : stop ≤ second.length)
    (agree : ∀ position, start ≤ position → position < stop →
      first[position]? = second[position]?) :
    slice? first start stop = slice? second start stop := by
  by_cases ordered : start ≤ stop
  · rw [slice?_of_le ordered inside, slice?_of_le ordered insideSecond]
    apply congrArg some
    apply List.ext_getElem?
    intro position
    by_cases within : position < stop - start
    · have low : start ≤ start + position := Nat.le_add_right _ _
      have high : start + position < stop := by omega
      rw [List.getElem?_take_of_lt within, List.getElem?_take_of_lt within, List.getElem?_drop,
        List.getElem?_drop]
      exact agree _ low high
    · have past : stop - start ≤ position := Nat.not_lt.mp within
      rw [List.getElem?_take_eq_none past, List.getElem?_take_eq_none past]
  · simp [slice?, ordered]

/-- The bytes with a patch in the place of as many bytes from a position on. -/
def overwrite (bytes : List UInt8) (position : Nat) (patch : List UInt8) : List UInt8 :=
  bytes.take position ++ patch ++ bytes.drop (position + patch.length)

/-- Writing over the middle part of a joined list puts the patch between the two others. -/
theorem overwrite_middle (front back : List UInt8) {middle patch : List UInt8}
    (sized : patch.length = middle.length) :
    overwrite (front ++ middle ++ back) front.length patch = front ++ patch ++ back := by
  have before : (front ++ middle ++ back).take front.length = front := by
    rw [List.append_assoc, List.take_left]
  have after : (front ++ middle ++ back).drop (front.length + patch.length) = back := by
    rw [sized, ← List.length_append, List.drop_left]
  rw [overwrite, before, after]

section Inside

variable {bytes patch : List UInt8} {position : Nat}

/-- Overwriting keeps the length. -/
theorem length_overwrite (inside : position + patch.length ≤ bytes.length) :
    (overwrite bytes position patch).length = bytes.length := by
  simp only [overwrite, List.length_append, List.length_take, List.length_drop]
  omega

/-- Overwriting keeps every byte outside the patch. -/
theorem getElem?_overwrite_of_outside (inside : position + patch.length ≤ bytes.length)
    {other : Nat} (outside : other < position ∨ position + patch.length ≤ other) :
    (overwrite bytes position patch)[other]? = bytes[other]? := by
  have front : (bytes.take position).length = position := by
    rw [List.length_take]
    omega
  cases outside with
  | inl before =>
    have here : other < (bytes.take position).length := by omega
    rw [overwrite, List.append_assoc, List.getElem?_append_left here,
      List.getElem?_take_of_lt before]
  | inr after =>
    have reached : (bytes.take position ++ patch).length = position + patch.length := by
      rw [List.length_append, front]
    have past : (bytes.take position ++ patch).length ≤ other := by omega
    have rejoined : position + patch.length + (other - (position + patch.length)) = other := by
      omega
    rw [overwrite, List.getElem?_append_right past, reached, List.getElem?_drop, rejoined]

/-- Overwriting puts the bytes of the patch where they are counted from its start. -/
theorem getElem?_overwrite_of_inside (inside : position + patch.length ≤ bytes.length)
    {other : Nat} (after : position ≤ other) (before : other < position + patch.length) :
    (overwrite bytes position patch)[other]? = patch[other - position]? := by
  have front : (bytes.take position).length = position := by
    rw [List.length_take]
    omega
  have past : (bytes.take position).length ≤ other := by omega
  have within : other - position < patch.length := by omega
  rw [overwrite, List.append_assoc, List.getElem?_append_right past, front,
    List.getElem?_append_left within]

/-- The patch is found where it was written. -/
theorem slice?_overwrite_self (inside : position + patch.length ≤ bytes.length) :
    slice? (overwrite bytes position patch) position (position + patch.length) = some patch := by
  have front : (bytes.take position).length = position := by
    rw [List.length_take]
    omega
  have found := slice?_middle (bytes.take position) patch (bytes.drop (position + patch.length))
  rwa [front] at found

/-- Overwriting keeps the slice of every range that the patch does not meet. -/
theorem slice?_overwrite_of_disjoint (inside : position + patch.length ≤ bytes.length)
    {start stop : Nat} (reached : stop ≤ bytes.length)
    (disjoint : stop ≤ position ∨ position + patch.length ≤ start) :
    slice? (overwrite bytes position patch) start stop = slice? bytes start stop := by
  apply slice?_congr (by rwa [length_overwrite inside]) reached
  intro other low high
  apply getElem?_overwrite_of_outside inside
  omega

/-- Overwriting keeps everything after the patch. -/
theorem drop_overwrite (inside : position + patch.length ≤ bytes.length) {start : Nat}
    (after : position + patch.length ≤ start) :
    (overwrite bytes position patch).drop start = bytes.drop start := by
  apply List.ext_getElem?
  intro other
  rw [List.getElem?_drop, List.getElem?_drop]
  apply getElem?_overwrite_of_outside inside
  omega

/-- Two patches that do not meet give the same bytes in either order. -/
theorem overwrite_comm (inside : position + patch.length ≤ bytes.length) {second : List UInt8}
    {place : Nat} (insideSecond : place + second.length ≤ bytes.length)
    (disjoint : position + patch.length ≤ place ∨ place + second.length ≤ position) :
    overwrite (overwrite bytes position patch) place second =
      overwrite (overwrite bytes place second) position patch := by
  have keptFirst : place + second.length ≤ (overwrite bytes position patch).length := by
    rwa [length_overwrite inside]
  have keptSecond : position + patch.length ≤ (overwrite bytes place second).length := by
    rwa [length_overwrite insideSecond]
  apply List.ext_getElem?
  intro other
  -- A position is in one patch, in the other, or in neither; each order finds the same byte there.
  by_cases inFirst : position ≤ other ∧ other < position + patch.length
  · rw [getElem?_overwrite_of_outside keptFirst (by omega),
      getElem?_overwrite_of_inside inside inFirst.1 inFirst.2,
      getElem?_overwrite_of_inside keptSecond inFirst.1 inFirst.2]
  · have outsideFirst : other < position ∨ position + patch.length ≤ other := by omega
    rw [getElem?_overwrite_of_outside keptSecond outsideFirst]
    by_cases inSecond : place ≤ other ∧ other < place + second.length
    · rw [getElem?_overwrite_of_inside keptFirst inSecond.1 inSecond.2,
        getElem?_overwrite_of_inside insideSecond inSecond.1 inSecond.2]
    · have outsideSecond : other < place ∨ place + second.length ≤ other := by omega
      rw [getElem?_overwrite_of_outside keptFirst outsideSecond,
        getElem?_overwrite_of_outside inside outsideFirst,
        getElem?_overwrite_of_outside insideSecond outsideSecond]

end Inside

/-- Writing a slice back where it was found changes nothing. -/
theorem overwrite_of_slice? {bytes part : List UInt8} {start stop : Nat}
    (found : slice? bytes start stop = some part) : overwrite bytes start part = bytes := by
  have sized := length_of_slice? found
  obtain ⟨ordered, reached⟩ := (isSome_slice? bytes start stop).mp (by rw [found]; rfl)
  rw [slice?_of_le ordered reached, Option.some.injEq] at found
  rw [overwrite, sized, ← found, List.append_assoc, ← List.drop_drop, List.take_append_drop,
    List.take_append_drop]

end BoardBlob
