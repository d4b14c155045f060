import Mathlib.Data.List.TakeWhile
import BoardBlob.Proofs.ReferenceLayout

/-!
# Stored names as a loader reads them

A name table takes any text, one with U+0000 in it as well, and a loader reads a name only up to the
next zero byte. So a loader reads what stands before the first U+0000 of the stored text, wherever
the text is in the table and whatever was stored after it (`get_of_interned`).
-/
namespace BoardBlob

namespace NameTable

/-- Stores names one after the other, and gives the place of each. -/
def internAll (table : NameTable) : List String → Option (List UInt32 × NameTable)
  | [] => some ([], table)
  | name :: rest =>
    match table.intern name with
    | none => none
    | some (place, grown) =>
      (internAll grown rest).map fun (places, complete) => (place :: places, complete)

/-- A table that has met some names meets further ones as long as all of them fit, and gives each
its place among all. -/
theorem Holds.internAll {table : NameTable} {seen names : List String} (holds : table.Holds seen)
    (fits : (image (seen ++ names)).length < UInt32.size) :
    ∃ complete, table.internAll names =
        some (names.map fun name => UInt32.ofNat (placeIn (seen ++ names) name), complete) ∧
      complete.Holds (seen ++ names) := by
  induction names generalizing table seen with
  | nil => exact ⟨table, rfl, by simpa using holds⟩
  | cons name rest ih =>
    have joined : seen ++ name :: rest = (seen ++ [name]) ++ rest := by simp
    rw [joined] at fits ⊢
    have fitsHead := Nat.lt_of_le_of_lt (length_image_le _ _) fits
    obtain ⟨grown, interned, holdsGrown⟩ := holds.intern fitsHead
    obtain ⟨complete, stored, holdsAll⟩ := ih holdsGrown fits
    refine ⟨complete, ?_, holdsAll⟩
    -- The place of this name does not move while the later names are stored.
    have known : name ∈ seen ++ [name] := by simp
    rw [NameTable.internAll, interned]
    simp only [stored, Option.map_some, List.map_cons, placeIn_append_of_mem known]

/-- What stands in a text before its first U+0000. -/
def beforeNul (text : String) : String :=
  String.ofList (text.toList.takeWhile fun character => character != '\x00')

/-- A text without U+0000 stands before it as a whole. -/
theorem beforeNul_of_plain {text : String} (plain : '\x00' ∉ text.toList) :
    beforeNul text = text := by
  have whole : (text.toList.takeWhile fun character => character != '\x00') = text.toList := by
    rw [List.takeWhile_eq_self_iff]
    intro character member
    simpa using fun same : character = '\x00' => plain (same ▸ member)
  rw [beforeNul, whole, String.ofList_toList]

/-- No U+0000 stands before the first one. -/
theorem nul_not_mem_beforeNul (text : String) : '\x00' ∉ (beforeNul text).toList := by
  rw [beforeNul, String.toList_ofList]
  intro member
  have kept := List.mem_takeWhile_imp member
  simp at kept

/-- A stored text begins with what stands before its first U+0000, and a zero byte follows that. -/
theorem exists_stored_eq (text : String) :
    ∃ after, stored text = Utf8.bytes (beforeNul text) ++ 0 :: after := by
  have cut := List.takeWhile_append_dropWhile
    (p := fun character => character != '\x00') (l := text.toList)
  have front : Utf8.bytes text = Utf8.bytes (beforeNul text) ++
      (text.toList.dropWhile fun character => character != '\x00').flatMap
        String.utf8EncodeChar := by
    rw [Utf8.bytes_eq_flatMap, Utf8.bytes_eq_flatMap, beforeNul, String.toList_ofList,
      ← List.flatMap_append, cut]
  rw [stored, front]
  cases rest : text.toList.dropWhile fun character => character != '\x00' with
  | nil => exact ⟨[], by simp⟩
  | cons character more =>
    -- The first character that is not before a U+0000 is one.
    have stops := List.head?_dropWhile_not (fun character => character != '\x00') text.toList
    rw [rest] at stops
    have nul : character = '\x00' := by simpa using stops
    subst nul
    exact ⟨more.flatMap String.utf8EncodeChar ++ [0], by
      simp [show String.utf8EncodeChar '\x00' = [0] by decide]⟩

end NameTable

namespace BlobView

/-- The entry whose record stands at a position, whatever its name is. -/
def entryAt? (view : BlobView) (index : Nat) : Option Entry :=
  if index < view.size then
    (slice? view.bytes (Header.size + index * Entry.size)
      (Header.size + index * Entry.size + Entry.size)).bind Entry.decode
  else none

/-- An entry is read with the name that stands at its place in the name table. -/
theorem get_of_entryAt? {view : BlobView} {index : Nat} {entry : Entry}
    (found : view.entryAt? index = some entry) :
    view.get index = (view.nameAt entry.nameOffset).map fun name =>
      { entry := entry, name := name } := by
  rw [entryAt?] at found
  split at found
  case isTrue inside =>
    obtain ⟨record, sliced, decoded⟩ := Option.bind_eq_some_iff.mp found
    exact get_of_record inside sliced decoded
  case isFalse => contradiction

/-- At the place of a stored text, a loader reads what stands before its first U+0000. -/
theorem nameAt_of_image {view : BlobView} {names : List String} {name : String} {offset : UInt32}
    (table : view.nameTable = NameTable.image names) (known : name ∈ names)
    (placed : offset.toNat = NameTable.placeIn names name) :
    view.nameAt offset = .ok (NameTable.beforeNul name) := by
  obtain ⟨before, after, parts, start⟩ := NameTable.image_eq_of_mem known
  obtain ⟨tail, split⟩ := NameTable.exists_stored_eq name
  have whole : view.nameTable =
      before ++ (Utf8.bytes (NameTable.beforeNul name) ++ 0 :: (tail ++ after)) := by
    rw [table, parts, split]
    simp
  exact nameAt_of_nameTable whole (placed.trans start.symm) (NameTable.nul_not_mem_beforeNul name)

end BlobView

/-- Names that fit a table together are all stored in it, and each is given a place. Whichever of
them a place was given to, and whatever was stored later: in every blob that is accepted and has the
table for its name table, an entry with this place is read with the text before the first U+0000 of
the name. That is the whole name when no U+0000 is in it. -/
theorem get_of_interned {names : List String}
    (fits : storedSize names.eraseDups < UInt32.size) :
    ∃ places table, NameTable.internAll .empty names = some (places, table) ∧
      places.length = names.length ∧
      ∀ (position : Nat) (name : String) (place : UInt32),
        names[position]? = some name → places[position]? = some place →
        ∀ (bytes : List UInt8) (view : BlobView) (index : Nat) (entry : Entry),
          BlobView.parse bytes = .ok view → view.nameTable = table.bytes.toList →
          view.entryAt? index = some entry → entry.nameOffset = place →
          view.get index = .ok { entry := entry, name := NameTable.beforeNul name } ∧
            ('\x00' ∉ name.toList → view.get index = .ok { entry := entry, name := name }) := by
  have imageFits : (NameTable.image names).length < UInt32.size := by
    rw [NameTable.length_image]
    exact fits
  obtain ⟨table, stored, holds⟩ := NameTable.Holds.empty.internAll imageFits
  refine ⟨_, table, stored, by simp, ?_⟩
  intro position name place named given bytes view index entry _ tableEq found referred
  have known : name ∈ names := List.mem_of_getElem? named
  have bound := NameTable.placeIn_add_le known
  have placed : entry.nameOffset.toNat = NameTable.placeIn names name := by
    rw [List.getElem?_map, named, Option.map_some] at given
    rw [referred, ← Option.some.inj given]
    exact UInt32.toNat_ofNat_of_lt' (Nat.lt_of_le_of_lt (Nat.le_of_add_right_le bound) imageFits)
  have read : view.get index = .ok { entry := entry, name := NameTable.beforeNul name } := by
    rw [BlobView.get_of_entryAt? found,
      BlobView.nameAt_of_image (tableEq.trans holds.bytes) known placed]
    rfl
  refine ⟨read, fun plain => ?_⟩
  rw [read, NameTable.beforeNul_of_plain plain]

/-- Two texts with U+0000 inside, one of them stored twice, and the empty text between them. -/
def namesWithNul : List String := ["a\x00b", "", "a\x00b", "\x00é"]

/-- A blob whose entries refer to those texts. -/
def blobWithNul : List UInt8 :=
  Layout.assemble (.current 3 240 0)
    ([{ nameOffset := 0 }, { nameOffset := 4 }, { typeTag := 6, nameOffset := 5 }].flatMap
      Entry.encode)
    [0x61, 0, 0x62, 0, 0, 0, 0xc3, 0xa9, 0]

/-- The names that a loader reads there are what stands before U+0000: one letter, and nothing at
the two other places. -/
theorem get_of_interned_namesWithNul :
    storedSize namesWithNul.eraseDups < UInt32.size ∧
    ∃ view, BlobView.parse blobWithNul = .ok view ∧
      view.get 0 = .ok { entry := { nameOffset := 0 }, name := "a" } ∧
      view.get 1 = .ok { entry := { nameOffset := 4 }, name := "" } ∧
      view.get 2 = .ok { entry := { typeTag := 6, nameOffset := 5 }, name := "" } := by
  have fits : storedSize namesWithNul.eraseDups < UInt32.size := by decide +kernel
  have run : (NameTable.internAll .empty namesWithNul).map
      (fun found => (found.1, found.2.bytes.toList)) =
        some ([0, 4, 0, 5], [0x61, 0, 0x62, 0, 0, 0, 0xc3, 0xa9, 0]) := by
    decide +kernel
  obtain ⟨places, table, stored, _, reads⟩ := get_of_interned fits
  rw [stored] at run
  simp only [Option.map_some, Option.some.injEq, Prod.mk.injEq] at run
  obtain ⟨rfl, bytes⟩ := run
  have parsed : BlobView.parse blobWithNul =
      .ok { bytes := blobWithNul, header := .current 3 240 0 } := by decide +kernel
  have names : BlobView.nameTable { bytes := blobWithNul, header := .current 3 240 0 } =
      table.bytes.toList := by
    rw [bytes]
    decide +kernel
  refine ⟨fits, _, parsed, ?_, ?_, ?_⟩
  · exact (reads 2 "a\x00b" 0 rfl rfl _ _ 0 _ parsed names (by decide +kernel) rfl).1
  · exact (reads 1 "" 4 rfl rfl _ _ 1 _ parsed names (by decide +kernel) rfl).1
  · exact (reads 3 "\x00é" 5 rfl rfl _ _ 2 _ parsed names (by decide +kernel) rfl).1

end BoardBlob
