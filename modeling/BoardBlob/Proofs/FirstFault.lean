/-!
# The first fault of a list

Every check of a list in this library goes from its start and stops at the first item that fails.
`FirstAt` says of an item that it is that one, by its position; a test may depend on the position
as well. A list has at most one such item, and has one unless every item passes. A search is a
check of the same kind: it stops at the first item that is sought. Stages that follow one another
stop at the first that fails, and succeed when each of them does.
-/
namespace BoardBlob

section Stages

variable {ε α β : Type}

/-- A result that is kept came from a result. -/
theorem map_eq_ok_iff {stage : Except ε α} {keep : α → β} {value : β} :
    stage.map keep = .ok value ↔ ∃ found, stage = .ok found ∧ keep found = value := by
  cases stage <;> simp [Except.map]

/-- Two stages succeed when the first does and then the second. -/
theorem bind_eq_ok_iff {stage : Except ε α} {next : α → Except ε β} {value : β} :
    stage >>= next = .ok value ↔ ∃ found, stage = .ok found ∧ next found = .ok value := by
  cases stage <;> simp [bind, Except.bind]

end Stages

/-- The item at `index` fails, and no item before it does. -/
structure FirstAt {α : Type} (fails : Nat → α → Prop) (items : List α) (index : Nat)
    (item : α) : Prop where
  /-- The item stands at the position. -/
  here : items[index]? = some item
  /-- The item fails. -/
  fault : fails index item
  /-- No earlier item fails. -/
  earlier : ∀ position other, position < index → items[position]? = some other →
    ¬fails position other

/-- Every item of a list passes, each at its own position. -/
def NoneFails {α : Type} (fails : Nat → α → Prop) (items : List α) : Prop :=
  ∀ index item, items[index]? = some item → ¬fails index item

namespace FirstAt

variable {α : Type} {fails : Nat → α → Prop} {head item other : α} {rest items : List α}
  {index position : Nat}

/-- There is only one first fault. -/
theorem unique (first : FirstAt fails items index item)
    (second : FirstAt fails items position other) : index = position ∧ item = other := by
  have notBefore : ¬index < position := fun before =>
    second.earlier index item before first.here first.fault
  have notAfter : ¬position < index := fun before =>
    first.earlier position other before second.here second.fault
  have same : index = position := by omega
  subst same
  exact ⟨rfl, Option.some.inj (first.here.symm.trans second.here)⟩

/-- The head of a list that fails is its first fault. -/
theorem of_head (bad : fails 0 head) : FirstAt fails (head :: rest) 0 head where
  here := rfl
  fault := bad
  earlier position _ before := absurd before (Nat.not_lt_zero position)

/-- A first fault of the tail is one of the list when the head passes. -/
theorem of_tail (pass : ¬fails 0 head)
    (first : FirstAt (fun position => fails (position + 1)) rest index item) :
    FirstAt fails (head :: rest) (index + 1) item where
  here := first.here
  fault := first.fault
  earlier position other before found := by
    cases position with
    | zero =>
      cases found
      exact pass
    | succ position => exact first.earlier position other (by omega) found

/-- A first fault past the head is one of the tail, and the head passes. -/
theorem tail (first : FirstAt fails (head :: rest) (index + 1) item) :
    ¬fails 0 head ∧ FirstAt (fun position => fails (position + 1)) rest index item :=
  ⟨first.earlier 0 head (Nat.succ_pos index) rfl,
    { here := first.here
      fault := first.fault
      earlier := fun position other before found =>
        first.earlier (position + 1) other (by omega) found }⟩

/-- The first fault of a list is that of its image when the same items fail there. -/
theorem map {β : Type} {f : α → β} {failsImage : Nat → β → Prop}
    (same : ∀ position item, items[position]? = some item →
      (failsImage position (f item) ↔ fails position item))
    (first : FirstAt fails items index item) : FirstAt failsImage (items.map f) index (f item) where
  here := by rw [List.getElem?_map, first.here, Option.map_some]
  fault := (same index item first.here).mpr first.fault
  earlier position other before found := by
    rw [List.getElem?_map, Option.map_eq_some_iff] at found
    obtain ⟨original, there, rfl⟩ := found
    exact fun bad => first.earlier position original before there ((same _ _ there).mp bad)

/-- The first item that is sought is the one that a search finds. -/
theorem find?_eq_some {test : α → Bool} (first : FirstAt (fun _ item => test item) items index item) :
    items.find? test = some item := by
  obtain ⟨inside, here⟩ := List.getElem?_eq_some_iff.mp first.here
  refine List.find?_eq_some_iff_getElem.mpr ⟨first.fault, index, inside, here, ?_⟩
  intro position before
  have other := first.earlier position items[position] before
    (List.getElem?_eq_getElem (Nat.lt_trans before inside))
  simpa using other

/-- A list whose items do not all pass has a first fault. -/
theorem exists_or_noneFails (fails : Nat → α → Prop) (items : List α) :
    (∃ index item, FirstAt fails items index item) ∨ NoneFails fails items := by
  induction items generalizing fails with
  | nil => exact Or.inr fun index item found => by simp at found
  | cons head rest ih =>
    by_cases bad : fails 0 head
    · exact Or.inl ⟨0, head, of_head bad⟩
    · cases ih fun position => fails (position + 1) with
      | inl found =>
        obtain ⟨index, item, first⟩ := found
        exact Or.inl ⟨index + 1, item, of_tail bad first⟩
      | inr pass =>
        refine Or.inr fun index item found => ?_
        cases index with
        | zero =>
          cases found
          exact bad
        | succ index => exact pass index item found

/-- A list with an item that fails has a first fault, at the latest there. -/
theorem exists_le (fails : Nat → α → Prop) (found : items[index]? = some item)
    (bad : fails index item) : ∃ position ≤ index, ∃ other, FirstAt fails items position other := by
  cases exists_or_noneFails fails items with
  | inl some =>
    obtain ⟨position, other, first⟩ := some
    have upTo : ¬index < position := fun before => first.earlier index item before found bad
    exact ⟨position, Nat.not_lt.mp upTo, other, first⟩
  | inr pass => exact absurd bad (pass index item found)

/-- The first fault of a list is that of every list with the same items up to there. -/
theorem congr {others : List α}
    (same : ∀ position ≤ index, others[position]? = items[position]?)
    (first : FirstAt fails items index item) : FirstAt fails others index item where
  here := (same index (Nat.le_refl index)).trans first.here
  fault := first.fault
  earlier position other before found :=
    first.earlier position other before ((same position (Nat.le_of_lt before)).symm.trans found)

end FirstAt

namespace NoneFails

variable {α : Type} {fails : Nat → α → Prop} {head : α} {rest : List α}

/-- Every item passes when the head does and every item of the tail does. -/
theorem cons_iff : NoneFails fails (head :: rest) ↔
    ¬fails 0 head ∧ NoneFails (fun position => fails (position + 1)) rest := by
  constructor
  · exact fun pass => ⟨pass 0 head rfl, fun index item found => pass (index + 1) item found⟩
  · rintro ⟨atHead, later⟩ index item found
    cases index with
    | zero =>
      cases found
      exact atHead
    | succ index => exact later index item found

/-- Every item of the front of a list passes when every item of the list does. -/
theorem of_append {more : List α} (pass : NoneFails fails (rest ++ more)) :
    NoneFails fails rest := by
  intro index item found
  obtain ⟨inside, _⟩ := List.getElem?_eq_some_iff.mp found
  apply pass index item
  rw [List.getElem?_append_left inside, found]

/-- A search finds nothing when no item is sought. -/
theorem find?_eq_none {test : α → Bool} (pass : NoneFails (fun _ item => test item) rest) :
    rest.find? test = none := by
  refine List.find?_eq_none.mpr fun item member => ?_
  obtain ⟨index, found⟩ := List.getElem?_of_mem member
  exact pass index item found

end NoneFails

end BoardBlob
