import Mathlib.Algebra.Ring.Nat
import Mathlib.Data.List.Induction
import BoardBlob.Blob.NameTable

/-!
# What a name table holds

A table that has met a list of names holds each different name once, in the order of first use
(`image`), and the place of a name is the size of the table of the names used before it
(`placeIn`). `Holds` is the invariant of the table: it says both of the stored bytes and of the
look-up, and `Holds.intern` carries it over one name. Later names leave every place as it is.
-/
namespace BoardBlob.NameTable

/-- The bytes of a table that has met these names: each different name once, in the order of first
use. -/
def image (names : List String) : List UInt8 := names.eraseDups.flatMap stored

/-- The place of a name: the size of the table of the names that come before its first use. -/
def placeIn (names : List String) (name : String) : Nat :=
  (image (names.takeWhile fun earlier => earlier != name)).length

/-- A stored name takes its UTF-8 bytes and one zero byte. -/
theorem length_stored (name : String) : (stored name).length = name.utf8ByteSize + 1 := by
  simp only [stored, Utf8.bytes, List.length_append, Array.length_toList, List.length_singleton]
  rfl

/-- The size of a table is that of its different names. -/
theorem length_image (names : List String) :
    (image names).length = (names.eraseDups.map fun name => name.utf8ByteSize + 1).sum := by
  simp [image, List.length_flatMap, length_stored]

/-- The table of no names is empty. -/
@[simp]
theorem image_nil : image [] = [] := rfl

/-- Further names are stored after the ones that are there. -/
theorem image_append (names later : List String) :
    image (names ++ later) = image names ++ image (later.removeAll names) := by
  simp [image, List.eraseDups_append]

/-- A name that was met before is no further name. -/
theorem eraseDups_append_of_mem {names : List String} {name : String} (known : name ∈ names) :
    (names ++ [name]).eraseDups = names.eraseDups := by
  simp [List.eraseDups_append, List.removeAll, known]

/-- A name that is met for the first time is the last of the different names. -/
theorem eraseDups_append_of_not_mem {names : List String} {name : String} (fresh : name ∉ names) :
    (names ++ [name]).eraseDups = names.eraseDups ++ [name] := by
  simp [List.eraseDups_append, List.removeAll, fresh, List.eraseDups_cons]

/-- A name that was met before takes no further bytes. -/
theorem image_append_of_mem {names : List String} {name : String} (known : name ∈ names) :
    image (names ++ [name]) = image names := by
  rw [image, eraseDups_append_of_mem known, image]

/-- A name that is met for the first time is stored at the end. -/
theorem image_append_of_not_mem {names : List String} {name : String} (fresh : name ∉ names) :
    image (names ++ [name]) = image names ++ stored name := by
  rw [image, eraseDups_append_of_not_mem fresh]
  simp [image]

/-- A table never gets smaller. -/
theorem length_image_le (names later : List String) :
    (image names).length ≤ (image (names ++ later)).length := by
  simp [image_append]

/-- The names before the first use of a name. -/
theorem takeWhile_first_use {before : List String} {name : String} (fresh : name ∉ before)
    (after : List String) :
    ((before ++ name :: after).takeWhile fun earlier => earlier != name) = before := by
  rw [List.takeWhile_append_of_pos]
  · simp
  · intro earlier member
    simpa using fun same : earlier = name => fresh (same ▸ member)

/-- A name that is met for the first time is placed at the end of the table. -/
theorem placeIn_append_of_not_mem {names : List String} {name : String} (fresh : name ∉ names)
    (later : List String) : placeIn (names ++ name :: later) name = (image names).length := by
  rw [placeIn, takeWhile_first_use fresh]

/-- Names met later do not move a name that is stored. -/
theorem placeIn_append_of_mem {names : List String} {name : String} (known : name ∈ names)
    (later : List String) : placeIn (names ++ later) name = placeIn names name := by
  obtain ⟨before, after, rfl, fresh⟩ := List.eq_append_cons_of_mem known
  rw [List.append_assoc, List.cons_append, placeIn_append_of_not_mem fresh,
    placeIn_append_of_not_mem fresh]

/-- A stored name stands at its place in the table. -/
theorem image_eq_of_mem {names : List String} {name : String} (known : name ∈ names) :
    ∃ before after, image names = before ++ stored name ++ after ∧
      before.length = placeIn names name := by
  obtain ⟨before, after, rfl, fresh⟩ := List.eq_append_cons_of_mem known
  refine ⟨image before, image (after.removeAll (before ++ [name])), ?_, ?_⟩
  · rw [← image_append_of_not_mem fresh, ← image_append, List.append_assoc, List.singleton_append]
  · exact (placeIn_append_of_not_mem fresh after).symm

/-- A stored name ends inside the table. -/
theorem placeIn_add_le {names : List String} {name : String} (known : name ∈ names) :
    placeIn names name + (name.utf8ByteSize + 1) ≤ (image names).length := by
  obtain ⟨before, after, parts, placed⟩ := image_eq_of_mem known
  rw [parts, ← placed, ← length_stored]
  simp only [List.length_append]
  omega

/-- The last name that was stored ends where the table does. -/
theorem exists_placeIn_add_eq {names : List String} (used : names ≠ []) :
    ∃ name ∈ names, placeIn names name + (name.utf8ByteSize + 1) = (image names).length := by
  induction names using List.reverseRecOn with
  | nil => exact absurd rfl used
  | append_singleton earlier name ih =>
    by_cases known : name ∈ earlier
    · obtain ⟨last, member, ends⟩ := ih (List.ne_nil_of_mem known)
      refine ⟨last, List.mem_append_left _ member, ?_⟩
      rw [placeIn_append_of_mem member, image_append_of_mem known, ends]
    · refine ⟨name, by simp, ?_⟩
      rw [placeIn_append_of_not_mem known, image_append_of_not_mem known, List.length_append,
        length_stored]

/-- A name that is used before another is placed before it. -/
theorem placeIn_lt_of_mem_takeWhile {names : List String} {first second : String}
    (before : first ∈ names.takeWhile fun earlier => earlier != second) :
    placeIn names first < placeIn names second := by
  have bound := placeIn_add_le before
  have same : placeIn (names.takeWhile fun earlier => earlier != second) first =
      placeIn names first := by
    have moved := placeIn_append_of_mem before
      (names.dropWhile fun earlier => earlier != second)
    rw [List.takeWhile_append_dropWhile] at moved
    exact moved.symm
  rw [placeIn.eq_1 names second]
  omega

/-- Of two different names that are used, one is used before the other. -/
theorem mem_takeWhile_or {names : List String} {first second : String} (differ : first ≠ second)
    (known : first ∈ names) :
    (first ∈ names.takeWhile fun earlier => earlier != second) ∨
      (second ∈ names.takeWhile fun earlier => earlier != first) := by
  -- The name that comes up first in the list is the one that is used earlier.
  induction names with
  | nil => simp at known
  | cons head rest ih =>
    by_cases isFirst : head = first
    · left
      simp [isFirst, differ]
    · have further : first ∈ rest := by
        cases List.mem_cons.mp known with
        | inl equal => exact absurd equal.symm isFirst
        | inr member => exact member
      by_cases isSecond : head = second
      · right
        simp [isSecond, Ne.symm differ]
      · simpa [isFirst, isSecond, Ne.symm isFirst, Ne.symm isSecond] using ih further

/-- Two names that are used have the same place only if they are the same. -/
theorem placeIn_inj {names : List String} {first second : String} (known : first ∈ names) :
    placeIn names first = placeIn names second ↔ first = second := by
  constructor
  · intro same
    by_cases differ : first = second
    · exact differ
    · cases mem_takeWhile_or differ known with
      | inl before => exact absurd same (Nat.ne_of_lt (placeIn_lt_of_mem_takeWhile before))
      | inr before => exact absurd same (Nat.ne_of_gt (placeIn_lt_of_mem_takeWhile before))
  · intro same
    rw [same]

/-- The table has met exactly these names, in this order, and every place fits 32 bits. -/
structure Holds (table : NameTable) (names : List String) : Prop where
  /-- The stored bytes are those of the names. -/
  bytes : table.bytes.toList = image names
  /-- Exactly the names that were met are found, each at its place. -/
  place : ∀ name, table.place? name =
    if name ∈ names then some (UInt32.ofNat (placeIn names name)) else none
  /-- Each different name is counted once. -/
  distinct : table.distinct = names.eraseDups.length
  /-- The table can be addressed with 32 bits. -/
  fits : (image names).length < UInt32.size

namespace Holds

/-- The table without names has met none. -/
theorem empty : NameTable.empty.Holds [] where
  bytes := rfl
  place name := by simp [place?, NameTable.empty]
  distinct := rfl
  fits := by simp

variable {table grown : NameTable} {names : List String} {name : String}

/-- The size of a table is that of the names it has met. -/
theorem size (holds : table.Holds names) : table.size = (image names).length := by
  rw [NameTable.size, ← Array.length_toList, holds.bytes]

/-- Meeting a known name changes nothing and gives its place. -/
theorem intern_of_mem (holds : table.Holds names) (known : name ∈ names) :
    table.intern name = some (UInt32.ofNat (placeIn names name), table) := by
  simp [intern, holds.place, known]

/-- Meeting a known name again keeps the invariant. -/
theorem append_of_mem (holds : table.Holds names) (known : name ∈ names) :
    table.Holds (names ++ [name]) where
  bytes := by rw [holds.bytes, image_append_of_mem known]
  place other := by
    rw [holds.place]
    by_cases member : other ∈ names
    · simp [member, placeIn_append_of_mem member]
    · have differ : other ≠ name := fun same => member (same ▸ known)
      simp [member, differ]
  distinct := by
    rw [holds.distinct, eraseDups_append_of_mem known]
  fits := by rw [image_append_of_mem known]; exact holds.fits

/-- Meeting a new name places it at the end of the table, if the table can grow that far. -/
theorem intern_of_not_mem (holds : table.Holds names) (fresh : name ∉ names) :
    table.intern name =
      if (image (names ++ [name])).length < UInt32.size then
        some (UInt32.ofNat (image names).length,
          { bytes := table.bytes.appendList (stored name)
            places := (name, UInt32.ofNat (image names).length) :: table.places })
      else none := by
  simp [intern, holds.place, fresh, holds.size, image_append_of_not_mem fresh]

/-- A table that has stored a new name at its end has met that name as well. -/
theorem append_of_not_mem (holds : table.Holds names) (fresh : name ∉ names)
    (fits : (image (names ++ [name])).length < UInt32.size) :
    Holds { bytes := table.bytes.appendList (stored name)
            places := (name, UInt32.ofNat (image names).length) :: table.places }
      (names ++ [name]) where
  bytes := by
    rw [image_append_of_not_mem fresh, ← holds.bytes]
    simp
  place other := by
    by_cases same : other = name
    · subst same
      simp [place?, placeIn_append_of_not_mem fresh]
    · have found := holds.place other
      rw [place?] at found
      rw [place?, List.lookup_cons, beq_eq_false_iff_ne.mpr same]
      by_cases member : other ∈ names
      · simp [found, member, placeIn_append_of_mem member]
      · simp [same, found, member]
  distinct := by
    have counted := holds.distinct
    rw [NameTable.distinct] at counted ⊢
    simp [eraseDups_append_of_not_mem fresh, counted]
  fits := fits

/-- Meeting one more name succeeds exactly when the table of all names still fits. It gives the name
its place, and the table it leaves has met that name as well. -/
theorem intern (holds : table.Holds names) (fits : (image (names ++ [name])).length < UInt32.size) :
    ∃ grown, table.intern name = some (UInt32.ofNat (placeIn (names ++ [name]) name), grown) ∧
      grown.Holds (names ++ [name]) := by
  by_cases known : name ∈ names
  · exact ⟨table, by rw [holds.intern_of_mem known, placeIn_append_of_mem known],
      holds.append_of_mem known⟩
  · refine ⟨_, ?_, holds.append_of_not_mem known fits⟩
    rw [holds.intern_of_not_mem known, if_pos fits, placeIn_append_of_not_mem known]

/-- Meeting one more name fails when the table of all names no longer fits. -/
theorem intern_eq_none (holds : table.Holds names)
    (large : UInt32.size ≤ (image (names ++ [name])).length) : table.intern name = none := by
  have fresh : name ∉ names := by
    intro known
    rw [image_append_of_mem known] at large
    exact absurd holds.fits (Nat.not_lt.mpr large)
  rw [holds.intern_of_not_mem fresh, if_neg (Nat.not_lt.mpr large)]

end Holds

end BoardBlob.NameTable
