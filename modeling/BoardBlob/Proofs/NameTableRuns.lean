import BoardBlob.Proofs.InternedNames

/-!
# Runs of a name table

What a table holds after any run of names, and what it keeps in the runs that follow. `Holds` is the
invariant that one step preserves and hence a whole run; everything here is read off it. The bytes
are those of the different names, every name has the place it got when it was first met, and later
names change neither (`internAll_exact`).
-/
namespace BoardBlob.NameTable

/-- A run over two lists of names is the run over the first, continued over the second. -/
theorem internAll_append (table : NameTable) (names later : List String) :
    table.internAll (names ++ later) =
      (table.internAll names).bind fun found =>
        (found.2.internAll later).map fun further => (found.1 ++ further.1, further.2) := by
  induction names generalizing table with
  | nil =>
    rw [internAll, List.nil_append, Option.bind_some]
    exact Option.map_id'.symm
  | cons name rest ih =>
    rw [List.cons_append, internAll, internAll]
    cases table.intern name with
    | none => rfl
    | some found =>
      obtain ⟨place, grown⟩ := found
      dsimp only
      rw [ih grown]
      cases grown.internAll rest with
      | none => rfl
      | some stored =>
        simp only [Option.bind_some, Option.map_some, Option.map_map]
        rfl

namespace Holds

variable {table grown : NameTable} {names later : List String} {name other : String}

/-- The size of a table is that of its different names. -/
theorem size_eq (holds : table.Holds names) : table.size = storedSize names.eraseDups := by
  rw [holds.size, length_image, storedSize]

/-- The place of a known name fits 32 bits, and is the size of the different names before it. -/
theorem toNat_place (holds : table.Holds names) (known : name ∈ names) :
    (UInt32.ofNat (placeIn names name)).toNat = referencePlace names name := by
  have inside := placeIn_add_le known
  have fits := holds.fits
  rw [UInt32.toNat_ofNat_of_lt' (by omega), placeIn_eq known]

/-- Two known names have one place only if they are one name. -/
theorem place_eq_iff (holds : table.Holds names) (known : name ∈ names)
    (knownOther : other ∈ names) :
    UInt32.ofNat (placeIn names name) = UInt32.ofNat (placeIn names other) ↔ name = other := by
  rw [← UInt32.toNat_inj, holds.toNat_place known, holds.toNat_place knownOther, ← placeIn_eq known,
    ← placeIn_eq knownOther]
  exact placeIn_inj known

/-- A table that has met further names finds a known name where it was. -/
theorem place?_of_append (holds : table.Holds names) (further : grown.Holds (names ++ later))
    (known : name ∈ names) : grown.place? name = table.place? name := by
  have still : name ∈ names ++ later := List.mem_append_left later known
  rw [further.place, holds.place, if_pos still, if_pos known, placeIn_append_of_mem known]

/-- The bytes of a table are the first of every table that has met further names. -/
theorem bytes_prefix_of_append (holds : table.Holds names)
    (further : grown.Holds (names ++ later)) : table.bytes.toList <+: grown.bytes.toList := by
  rw [holds.bytes, further.bytes, image_append]
  exact List.prefix_append _ _

end Holds

/-- A run of names whose different names fit a table. It gives every name a place, and leaves a
table with the bytes of the different names in the order of first use, a zero byte after each. The
place of a name is the size of the different names that were met before it for the first time, so
two places are the same exactly when their names are. Meeting a known name again gives its place and
leaves the table as it is. Every run that goes on, as far as the names fit, gives the earlier names
the same places, has the bytes of the table as its first bytes, and finds every known name where it
was. -/
theorem internAll_exact {names : List String} (fits : storedSize names.eraseDups < UInt32.size) :
    ∃ places table, internAll .empty names = some (places, table) ∧
      table.bytes.toList = names.eraseDups.flatMap (fun name => Utf8.bytes name ++ [0]) ∧
      table.distinct = names.eraseDups.length ∧
      table.size = storedSize names.eraseDups ∧
      places.length = names.length ∧
      (∀ (index : Nat) (name : String) (place : UInt32),
        names[index]? = some name → places[index]? = some place →
        place.toNat = referencePlace names name ∧
        table.intern name = some (place, table) ∧
        ∀ (position : Nat) (other : String) (otherPlace : UInt32),
          names[position]? = some other → places[position]? = some otherPlace →
          (place = otherPlace ↔ name = other)) ∧
      ∀ later : List String, storedSize (names ++ later).eraseDups < UInt32.size →
        ∃ more grown, table.internAll later = some (more, grown) ∧
          internAll .empty (names ++ later) = some (places ++ more, grown) ∧
          table.bytes.toList <+: grown.bytes.toList ∧
          ∀ name ∈ names, grown.place? name = table.place? name := by
  have imageFits : (image names).length < UInt32.size := by
    rwa [length_image]
  obtain ⟨table, run, holds⟩ := Holds.empty.internAll imageFits
  rw [List.nil_append] at run holds
  have placed {index : Nat} {name : String} {place : UInt32} (here : names[index]? = some name)
      (given : (names.map fun name => UInt32.ofNat (placeIn names name))[index]? = some place) :
      name ∈ names ∧ UInt32.ofNat (placeIn names name) = place := by
    rw [List.getElem?_map, here, Option.map_some, Option.some.injEq] at given
    exact ⟨List.mem_of_getElem? here, given⟩
  refine ⟨_, table, run, holds.bytes, holds.distinct, holds.size_eq, by simp, ?places, ?further⟩
  case places =>
    intro index name place here given
    obtain ⟨known, rfl⟩ := placed here given
    refine ⟨holds.toNat_place known, holds.intern_of_mem known, ?_⟩
    intro position other otherPlace there givenToo
    obtain ⟨knownOther, rfl⟩ := placed there givenToo
    exact holds.place_eq_iff known knownOther
  case further =>
    intro later fitsAll
    have imageFitsAll : (image (names ++ later)).length < UInt32.size := by
      rwa [length_image]
    obtain ⟨grown, runOn, further⟩ := holds.internAll imageFitsAll
    refine ⟨_, grown, runOn, ?_, holds.bytes_prefix_of_append further,
      fun name known => holds.place?_of_append further known⟩
    rw [internAll_append, run, Option.bind_some, runOn, Option.map_some]

/-- The two texts with U+0000 inside, of which one repeats, and the empty text between them. The
text that repeats has one place, the table holds three texts, and two more names, one of them known,
change none of that. -/
theorem internAll_exact_namesWithNul :
    storedSize namesWithNul.eraseDups < UInt32.size ∧
    ∃ table, internAll .empty namesWithNul = some ([0, 4, 0, 5], table) ∧
      table.bytes.toList = [0x61, 0, 0x62, 0, 0, 0, 0xc3, 0xa9, 0] ∧
      table.distinct = 3 ∧ table.size = 9 ∧
      table.intern "a\x00b" = some (0, table) ∧
      ∃ grown, table.internAll ["b", ""] = some ([9, 4], grown) ∧
        table.bytes.toList <+: grown.bytes.toList ∧
        grown.place? "\x00é" = table.place? "\x00é" := by
  have fits : storedSize namesWithNul.eraseDups < UInt32.size := by decide +kernel
  have fitsAll : storedSize (namesWithNul ++ ["b", ""]).eraseDups < UInt32.size := by
    decide +kernel
  have places : (internAll .empty namesWithNul).map Prod.fst = some [0, 4, 0, 5] := by
    decide +kernel
  have placesAll : (internAll .empty (namesWithNul ++ ["b", ""])).map Prod.fst =
      some [0, 4, 0, 5, 9, 4] := by
    decide +kernel
  obtain ⟨given, table, run, bytes, distinct, size, _, known, further⟩ := internAll_exact fits
  obtain ⟨more, grown, runOn, runAll, kept, found⟩ := further _ fitsAll
  rw [run, Option.map_some, Option.some.injEq] at places
  obtain rfl : given = [0, 4, 0, 5] := places
  rw [runAll, Option.map_some, Option.some.injEq] at placesAll
  have split : [0, 4, 0, 5] ++ more = [0, 4, 0, 5] ++ [9, 4] := placesAll
  obtain rfl : more = [9, 4] := List.append_cancel_left split
  have repeated := (known 2 "a\x00b" 0 rfl rfl).2.1
  refine ⟨fits, table, run, ?_, ?_, ?_, repeated, grown, runOn, kept, found _ (by decide)⟩
  · rw [bytes]
    decide +kernel
  · rw [distinct]
    decide +kernel
  · rw [size]
    decide +kernel

end BoardBlob.NameTable
