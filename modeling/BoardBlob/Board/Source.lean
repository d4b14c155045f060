import BoardBlob.Device.Slots

/-!
# Boards as written

What a board document says, before any name, flag or number in it is given a meaning: texts are
still texts, and a number may be written as a number or as a text.
-/

namespace BoardBlob

/-- A number as written. -/
inductive Quantity where
  | whole (value : UInt64)
  | text (written : String)
  deriving DecidableEq, Repr

/-- A device type as written: a name, or the number of a tag. -/
inductive KindTag where
  | tag (value : UInt64)
  | name (written : String)
  deriving DecidableEq, Repr

/-- Numbers under keys. Every key is given once, and the keys ascend by code points. -/
structure KeyedQuantities where
  entries : List (String × Quantity)
  ascending : entries.Pairwise fun left right => left.1 < right.1
  deriving DecidableEq, Repr

namespace KeyedQuantities

/-- No keys. -/
def empty : KeyedQuantities := ⟨[], .nil⟩

/-- The entries with a number under a key. A key that is there already gets the new number. -/
def insertIn (key : String) (value : Quantity) : List (String × Quantity) → List (String × Quantity)
  | [] => [(key, value)]
  | entry :: rest =>
    if key < entry.1 then (key, value) :: entry :: rest
    else if key = entry.1 then (key, value) :: rest
    else entry :: insertIn key value rest

/-- Every entry after an insertion was inserted or was there before. -/
theorem mem_of_mem_insertIn {key : String} {value : Quantity} {entries : List (String × Quantity)}
    {entry : String × Quantity} (member : entry ∈ insertIn key value entries) :
    entry.1 = key ∨ entry ∈ entries := by
  induction entries with
  | nil =>
    simp only [insertIn, List.mem_singleton] at member
    exact Or.inl (by rw [member])
  | cons head rest ih =>
    unfold insertIn at member
    split at member
    · rcases List.mem_cons.mp member with rfl | old
      · exact Or.inl rfl
      · exact Or.inr old
    · split at member
      · rcases List.mem_cons.mp member with rfl | old
        · exact Or.inl rfl
        · exact Or.inr (List.mem_cons_of_mem _ old)
      · rcases List.mem_cons.mp member with rfl | later
        · exact Or.inr (List.mem_cons_self ..)
        · rcases ih later with same | old
          · exact Or.inl same
          · exact Or.inr (List.mem_cons_of_mem _ old)

/-- An insertion keeps the keys ascending. -/
theorem ascending_insertIn (key : String) (value : Quantity) {entries : List (String × Quantity)}
    (ascending : entries.Pairwise fun left right => left.1 < right.1) :
    (insertIn key value entries).Pairwise fun left right => left.1 < right.1 := by
  induction entries with
  | nil => simp [insertIn]
  | cons head rest ih =>
    obtain ⟨below, tail⟩ := List.pairwise_cons.mp ascending
    unfold insertIn
    split
    · rename_i before
      refine List.pairwise_cons.mpr ⟨fun entry member => ?_, ascending⟩
      rcases List.mem_cons.mp member with rfl | later
      · exact before
      · exact String.lt_trans before (below entry later)
    · rename_i notBefore
      split
      · rename_i same
        exact List.pairwise_cons.mpr ⟨fun entry member => same ▸ below entry member, tail⟩
      · rename_i differ
        refine List.pairwise_cons.mpr ⟨fun entry member => ?_, ih tail⟩
        rcases mem_of_mem_insertIn member with same | old
        · rw [same]
          have reached : head.1 ≤ key := String.not_lt.mp notBefore
          exact Std.lt_of_le_of_ne reached fun equal => differ equal.symm
        · exact below entry old

/-- The numbers with one more under a key. A key that is there already gets the new number. -/
def insert (quantities : KeyedQuantities) (key : String) (value : Quantity) : KeyedQuantities where
  entries := insertIn key value quantities.entries
  ascending := ascending_insertIn key value quantities.ascending

end KeyedQuantities

/-- An address region as written. -/
structure Region where
  base : Quantity := .whole 0
  size : Quantity := .whole 0
  deriving DecidableEq, Repr

/-- An interrupt as written. -/
structure Interrupt where
  lane : Quantity := .whole 0
  flags : List String := []
  priority : Quantity := .whole 0
  deriving DecidableEq, Repr

/-- A device as written. -/
structure BoardDevice where
  name : String
  kind : KindTag
  flags : List String := []
  region : Option Region := none
  interrupt : Option Interrupt := none
  /-- Auxiliary values as members of the device, by position. -/
  directAux : Slots (Option Quantity) := .replicate none
  /-- Auxiliary values under the position or the meaning of their slot. -/
  keyedAux : KeyedQuantities := .empty
  deriving DecidableEq, Repr

/-- A board as written. -/
structure Board where
  devices : List BoardDevice
  deriving DecidableEq, Repr

end BoardBlob
