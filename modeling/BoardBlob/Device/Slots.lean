/-!
# Families of four

A device record carries four auxiliary slots, numbered from zero. Their values, their meanings and
the fields that hold them are each a family of four, indexed by the slot number.
-/

namespace BoardBlob

/-- One value for each of the four auxiliary slots. -/
structure Slots (α : Type) where
  first : α
  second : α
  third : α
  fourth : α
  deriving DecidableEq, Repr

namespace Slots

variable {α β : Type}

/-- The same value in every slot. -/
def replicate (value : α) : Slots α := ⟨value, value, value, value⟩

/-- The value in one slot. -/
def get (slots : Slots α) : Fin 4 → α
  | 0 => slots.first
  | 1 => slots.second
  | 2 => slots.third
  | 3 => slots.fourth

/-- The family with one slot replaced. -/
def set (slots : Slots α) (slot : Fin 4) (value : α) : Slots α :=
  match slot with
  | 0 => { slots with first := value }
  | 1 => { slots with second := value }
  | 2 => { slots with third := value }
  | 3 => { slots with fourth := value }

/-- The four values in slot order. -/
def toList (slots : Slots α) : List α := [slots.first, slots.second, slots.third, slots.fourth]

/-- A function applied in every slot. -/
def map (f : α → β) (slots : Slots α) : Slots β :=
  ⟨f slots.first, f slots.second, f slots.third, f slots.fourth⟩

/-- The lowest slot whose value passes a test. -/
def find? (test : α → Bool) (slots : Slots α) : Option (Fin 4) :=
  (List.finRange 4).find? fun slot => test (slots.get slot)

/-- Two families are equal when they agree in every slot. -/
@[ext]
theorem ext_get {left right : Slots α} (same : ∀ slot, left.get slot = right.get slot) :
    left = right := by
  cases left
  cases right
  have first := same 0
  have second := same 1
  have third := same 2
  have fourth := same 3
  simp only [get] at first second third fourth
  simp [first, second, third, fourth]

/-- A replaced slot holds its new value. -/
@[simp]
theorem get_set_self (slots : Slots α) (slot : Fin 4) (value : α) :
    (slots.set slot value).get slot = value := by
  match slot with
  | 0 | 1 | 2 | 3 => rfl

/-- Replacing a slot leaves every other slot as it was. -/
theorem get_set_ne (slots : Slots α) {changed other : Fin 4} (value : α)
    (differ : other ≠ changed) : (slots.set changed value).get other = slots.get other := by
  match changed, other with
  | 0, 0 | 1, 1 | 2, 2 | 3, 3 => exact absurd rfl differ
  | 0, 1 | 0, 2 | 0, 3 | 1, 0 | 1, 2 | 1, 3 | 2, 0 | 2, 1 | 2, 3 | 3, 0 | 3, 1 | 3, 2 => rfl

/-- Applying a function in every slot is applying it to the value of each. -/
@[simp]
theorem get_map (f : α → β) (slots : Slots α) (slot : Fin 4) :
    (slots.map f).get slot = f (slots.get slot) := by
  match slot with
  | 0 | 1 | 2 | 3 => rfl

end Slots

end BoardBlob
