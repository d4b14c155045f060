import BoardBlob.Proofs.AcceptedView
import BoardBlob.Proofs.TextBytes

/-!
# The view of an assembled blob

What a loader sees of a blob that was put together from a header, entries and a name table: the
same header, the same table, and every entry at its position. The entries and the table may hold
anything; only the header has to be one that `Layout.header` makes for the count of the entries.
-/
namespace BoardBlob

namespace Layout

/-- A count of entries whose name table starts within 32 bits is within 32 bits itself. -/
theorem count_lt {count : Nat} (small : Header.size + Entry.size * count < UInt32.size) :
    count < UInt32.size := by
  simp only [Header.size, Entry.size] at small
  omega

/-- The header of a count of entries whose name table starts within 32 bits. -/
theorem header_of_small {count : Nat} (small : Header.size + Entry.size * count < UInt32.size)
    (flags : UInt32) :
    header count flags =
      .ok (.current (UInt32.ofNat count) (UInt32.ofNat (Header.size + Entry.size * count))
        flags) := by
  have bound := count_lt small
  rw [header, if_neg (Nat.not_le.mpr bound), nameListOffset?_of_lt bound]
  exact if_neg (Nat.not_le.mpr small)

/-- A count of entries whose name table starts past 32 bits has no header. The count is reported if
it does not fit itself, and else the place of the name table. -/
theorem header_of_large {count : Nat} (large : UInt32.size ≤ Header.size + Entry.size * count)
    (flags : UInt32) :
    header count flags = .error (
      if UInt32.size ≤ count then .layoutOverflow Header.entriesCountField.name count
      else .layoutOverflow Header.nameListOffsetField.name
        (Header.size + Entry.size * count)) := by
  by_cases many : UInt32.size ≤ count
  · rw [header, if_pos many, if_pos many]
  · rw [header, if_neg many, if_neg many, nameListOffset?_of_lt (Nat.not_le.mp many)]
    exact if_pos large

/-- A count of entries has a header exactly when the name table starts within 32 bits. -/
theorem header_eq_ok_iff {count : Nat} {flags : UInt32} {made : Header} :
    header count flags = .ok made ↔ Header.size + Entry.size * count < UInt32.size ∧
      made = .current (UInt32.ofNat count) (UInt32.ofNat (Header.size + Entry.size * count))
        flags := by
  constructor
  · intro found
    by_cases small : Header.size + Entry.size * count < UInt32.size
    · rw [header_of_small small] at found
      exact ⟨small, (Except.ok.inj found).symm⟩
    · rw [header_of_large (Nat.not_lt.mp small)] at found
      contradiction
  · rintro ⟨small, rfl⟩
    exact header_of_small small flags

section Made

variable {count : Nat} {flags : UInt32} {made : Header}

/-- A made header counts the entries it was made for. -/
theorem entriesCount_of_header (found : header count flags = .ok made) :
    made.entriesCount.toNat = count := by
  obtain ⟨small, rfl⟩ := header_eq_ok_iff.mp found
  exact UInt32.toNat_ofNat_of_lt' (count_lt small)

/-- A made header says where the name table starts. -/
theorem nameListOffset_of_header (found : header count flags = .ok made) :
    made.nameListOffset.toNat = Header.size + Entry.size * count := by
  obtain ⟨small, rfl⟩ := header_eq_ok_iff.mp found
  exact UInt32.toNat_ofNat_of_lt' small

end Made

end Layout

namespace BlobView

section Assembled

variable {count : Nat} {flags : UInt32} {header : Header} {entries names : List UInt8}

/-- The view of a blob put together from three parts. -/
def ofParts (header : Header) (entries names : List UInt8) : BlobView where
  bytes := Layout.assemble header entries names
  header := header

/-- The view has as many entries as its header was made for. -/
theorem size_ofParts (made : Layout.header count flags = .ok header) :
    (ofParts header entries names).size = count :=
  Layout.entriesCount_of_header made

/-- The header that was put in is found at the start. -/
theorem slice?_header (header : Header) (entries names : List UInt8) :
    slice? (Layout.assemble header entries names) 0 Header.size = some header.encode := by
  simpa [Layout.assemble] using slice?_middle [] header.encode (entries ++ names)

/-- A blob put together from fitting parts is accepted, with the header that was put in. -/
theorem parse_assemble (made : Layout.header count flags = .ok header)
    (filled : entries.length = Entry.size * count) :
    parse (Layout.assemble header entries names) = .ok (ofParts header entries names) := by
  have position := Layout.nameListOffset_of_header made
  have decoded : (slice? (Layout.assemble header entries names) 0 Header.size).bind Header.decode =
      some header := by
    rw [slice?_header, Option.bind_some, Header.decode_encode]
  refine parse_eq_ok_iff.mpr ⟨rfl, decoded, ?_⟩
  obtain ⟨_, current⟩ := Layout.header_eq_ok_iff.mp made
  constructor
  · show header.signature = Header.currentSignature
    rw [current]
    rfl
  · show header.revision = Header.currentRevision
    rw [current]
    rfl
  · show header.nameListOffset.toNat = Header.size + Entry.size * header.entriesCount.toNat
    rw [position, Layout.entriesCount_of_header made]
  · show header.nameListOffset.toNat ≤ (Layout.assemble header entries names).length
    rw [position]
    simp only [Layout.assemble, List.length_append, Header.length_encode, filled]
    omega

/-- The table of a view is the one that was put in. -/
theorem nameTable_ofParts (made : Layout.header count flags = .ok header)
    (filled : entries.length = Entry.size * count) :
    (ofParts header entries names).nameTable = names := by
  have front : (header.encode ++ entries).length = Header.size + Entry.size * count := by
    rw [List.length_append, Header.length_encode, filled]
  have inside : (header.encode ++ entries).length ≤ (header.encode ++ entries ++ names).length := by
    simp
  rw [nameTable, ofParts, Layout.assemble, Layout.nameListOffset_of_header made, ← front,
    suffix?_of_le inside, List.drop_left, Option.getD_some]

/-- The record of an entry is found among the entries that were put in. -/
theorem slice?_assemble (filled : entries.length = Entry.size * count) {index : Nat}
    (inside : index < count) :
    slice? (Layout.assemble header entries names) (Header.size + index * Entry.size)
        (Header.size + index * Entry.size + Entry.size) =
      slice? entries (index * Entry.size) (index * Entry.size + Entry.size) := by
  have bound : index * Entry.size + Entry.size ≤ entries.length := by
    simp only [filled, Entry.size]
    omega
  have part := slice?_append_middle header.encode entries names (index * Entry.size) bound
  rwa [Header.length_encode, ← Nat.add_assoc] at part

/-- The record of an entry that was put in is found at its position. -/
theorem slice?_assemble_of_getElem? {stored : List Entry} {index : Nat} {entry : Entry}
    (here : stored[index]? = some entry) :
    slice? (Layout.assemble header (stored.flatMap Entry.encode) names)
        (Header.size + index * Entry.size) (Header.size + index * Entry.size + Entry.size) =
      some entry.encode := by
  obtain ⟨inside, placed⟩ := List.getElem?_eq_some_iff.mp here
  have part := slice?_flatMap Entry.length_encode stored inside 0 (Nat.le_refl _)
  rw [Nat.add_zero, placed] at part
  rw [slice?_assemble (length_flatMap_of_sized Entry.length_encode stored) inside, part,
    ← Entry.length_encode entry, slice?_whole]

/-- Reading an entry of a blob that was put together is decoding its part of the bytes put in for
the entries, whatever they are, and finding the name. -/
theorem get_ofParts_of_lt (made : Layout.header count flags = .ok header)
    (filled : entries.length = Entry.size * count) {index : Nat} (inside : index < count) :
    ∃ record entry,
      slice? entries (index * Entry.size) (index * Entry.size + Entry.size) = some record ∧
      Entry.decode record = some entry ∧
      (ofParts header entries names).get index =
        ((ofParts header entries names).nameAt entry.nameOffset).map
          fun name => { entry := entry, name := name } := by
  have bound : index * Entry.size + Entry.size ≤ entries.length := by
    simp only [filled, Entry.size]
    omega
  obtain ⟨record, found⟩ := Option.isSome_iff_exists.mp
    ((isSome_slice? entries _ _).mpr ⟨Nat.le_add_right (index * Entry.size) Entry.size, bound⟩)
  have whole := length_of_slice? found
  rw [Nat.add_sub_cancel_left] at whole
  obtain ⟨entry, decoded⟩ := Entry.exists_decode (Nat.le_of_eq whole.symm)
  have placed : index < (ofParts header entries names).size := size_ofParts made ▸ inside
  exact ⟨record, entry, found, decoded,
    get_of_record placed ((slice?_assemble filled inside).trans found) decoded⟩

/-- Reading an entry of an assembled blob is finding the name of the entry that was put in. -/
theorem get_ofParts {stored : List Entry} (made : Layout.header stored.length flags = .ok header)
    {index : Nat} {entry : Entry} (here : stored[index]? = some entry) :
    (ofParts header (stored.flatMap Entry.encode) names).get index =
      ((ofParts header (stored.flatMap Entry.encode) names).nameAt entry.nameOffset).map
        fun name => { entry := entry, name := name } := by
  obtain ⟨inside, _⟩ := List.getElem?_eq_some_iff.mp here
  exact get_of_record (size_ofParts made ▸ inside) (slice?_assemble_of_getElem? here)
    (Entry.decode_encode entry)

end Assembled

/-- The header of an accepted view is the one that is made for its count of entries. -/
theorem Accepted.header_eq {view : BlobView} (accepted : view.Accepted) :
    Layout.header view.size view.header.flags = .ok view.header := by
  have position := accepted.position
  have bound := view.header.nameListOffset.toNat_lt_size
  rw [position] at bound
  have current : view.header = .current (UInt32.ofNat view.size)
      (UInt32.ofNat (Header.size + Entry.size * view.size)) view.header.flags := by
    rw [← position, size, UInt32.ofNat_toNat, UInt32.ofNat_toNat, Header.current,
      ← accepted.signature, ← accepted.revision]
  exact Layout.header_eq_ok_iff.mpr ⟨bound, current⟩

/-- Bytes that are accepted are those of a header, of some entries and of a name table. -/
theorem exists_parts {bytes : List UInt8} {view : BlobView} (parsed : parse bytes = .ok view) :
    ∃ stored : List Entry, stored.length = view.size ∧
      view = ofParts view.header (stored.flatMap Entry.encode) view.nameTable := by
  obtain ⟨rfl, decoded, accepted⟩ := parse_eq_ok_iff.mp parsed
  have position := accepted.position
  have inside := accepted.inside
  have long : Header.size ≤ view.bytes.length := by omega
  rw [slice?_zero long, Option.bind_some] at decoded
  have front : view.header.encode = view.bytes.take Header.size := by
    refine Header.encode_of_decode ?_ decoded
    rw [List.length_take, Nat.min_eq_left long]
  have filled : ((view.bytes.drop Header.size).take (Entry.size * view.size)).length =
      Entry.size * view.size := by
    rw [List.length_take, List.length_drop]
    omega
  obtain ⟨stored, counted, joined⟩ := Entry.exists_flatMap_encode filled
  refine ⟨stored, counted, ?_⟩
  have bytes : view.bytes = Layout.assemble view.header (stored.flatMap Entry.encode)
      view.nameTable := by
    rw [Layout.assemble, front, joined, accepted.nameTable_eq, position, ← List.drop_drop,
      List.append_assoc, List.take_append_drop, List.take_append_drop]
  rw [ofParts, ← bytes]

/-- A text that stands in the table before a zero byte, and has none inside, is the name at its
place. -/
theorem nameAt_of_nameTable {view : BlobView} {before after : List UInt8} {name : String}
    {offset : UInt32} (table : view.nameTable = before ++ (Utf8.bytes name ++ 0 :: after))
    (placed : offset.toNat = before.length) (plain : '\x00' ∉ name.toList) :
    view.nameAt offset = .ok name := by
  have inside : ¬(before ++ (Utf8.bytes name ++ 0 :: after)).length ≤ before.length := by
    simp only [List.length_append, List.length_cons]
    omega
  have rest : suffix? (before ++ (Utf8.bytes name ++ 0 :: after)) before.length =
      some (Utf8.bytes name ++ 0 :: after) := by
    rw [suffix?_of_le (by simp), List.drop_left]
  have stored : slice? (before ++ (Utf8.bytes name ++ 0 :: after)) before.length
      (before.length + (Utf8.bytes name).length) = some (Utf8.bytes name) := by
    rw [← List.append_assoc]
    exact slice?_middle _ _ _
  rw [nameAt, table, placed]
  simp only [inside, ↓reduceIte, rest, Utf8.idxOf?_bytes_append plain, stored, Option.bind_some,
    Utf8.text?_bytes]

end BlobView

/-- The header that is made for a count of entries and the parser agree on where the sections of a
blob start. A count has a header exactly when the name table starts within 32 bits; if it does not,
the count is reported when it does not fit itself, and else the place of the name table. What is put
together from a header, as many bytes as the entries take and any bytes as the name table is
accepted, with that header and that table. Reading an entry is decoding its 72 bytes and finding its
name, so a device that is read has the entry that its 72 bytes decode to. -/
theorem layout_agreement (count : Nat) (flags : UInt32) :
    ((∃ header, Layout.header count flags = .ok header) ↔ 24 + 72 * count < UInt32.size) ∧
    (UInt32.size ≤ count →
      Layout.header count flags = .error (.layoutOverflow "entries_count" count)) ∧
    (count < UInt32.size → UInt32.size ≤ 24 + 72 * count →
      Layout.header count flags =
        .error (.layoutOverflow "name_list_offset" (24 + 72 * count))) ∧
    ∀ header, Layout.header count flags = .ok header →
      header.entriesCount.toNat = count ∧ header.nameListOffset.toNat = 24 + 72 * count ∧
      header.flags = flags ∧
      ∀ entries names : List UInt8, entries.length = 72 * count →
        ∃ view, BlobView.parse (Layout.assemble header entries names) = .ok view ∧
          view.header = header ∧ view.nameTable = names ∧ view.size = count ∧
          ∀ index < count, ∃ record entry,
            slice? entries (index * 72) (index * 72 + 72) = some record ∧
            Entry.decode record = some entry ∧
            (view.get index = (view.nameAt entry.nameOffset).map
              fun name => { entry := entry, name := name }) ∧
            ∀ device, view.get index = .ok device → device.entry = entry := by
  refine ⟨?fits, ?many, ?far, ?made⟩
  case fits =>
    constructor
    · rintro ⟨header, made⟩
      exact (Layout.header_eq_ok_iff.mp made).1
    · exact fun small => ⟨_, Layout.header_of_small small flags⟩
  case many =>
    intro many
    have large : UInt32.size ≤ Header.size + Entry.size * count := by
      simp only [Header.size, Entry.size]
      omega
    rw [Layout.header_of_large large, if_pos many]
    rfl
  case far =>
    intro few large
    rw [Layout.header_of_large large, if_neg (Nat.not_le.mpr few)]
    rfl
  case made =>
    intro header made
    obtain ⟨_, current⟩ := Layout.header_eq_ok_iff.mp made
    refine ⟨Layout.entriesCount_of_header made, Layout.nameListOffset_of_header made, ?_, ?_⟩
    · rw [current]
      rfl
    · intro entries names filled
      refine ⟨_, BlobView.parse_assemble made filled, rfl, BlobView.nameTable_ofParts made filled,
        BlobView.size_ofParts made, fun index inside => ?_⟩
      obtain ⟨record, entry, found, decoded, read⟩ :=
        BlobView.get_ofParts_of_lt made filled inside
      refine ⟨record, entry, found, decoded, read, fun device listed => ?_⟩
      obtain ⟨_, stored, _⟩ := BlobView.get_eq_ok_iff.mp listed
      rw [BlobView.record?, BlobView.ofParts, BlobView.slice?_assemble filled inside] at stored
      exact Option.some.inj (stored.symm.trans (by rw [found, Option.bind_some, decoded]))

/-- Bytes for two entries: the name of the first starts the name table, that of the second is far
outside. -/
def twoRecords : List UInt8 := List.replicate 72 0 ++ List.replicate 72 0xff

/-- The last count that has a header, and the next one. Two records of arbitrary bytes and a name
table with bytes that are no text are accepted; of the two entries one is read, with its bytes. -/
theorem layout_agreement_twoRecords :
    (∃ header, Layout.header 59652323 0 = .ok header) ∧
    Layout.header 59652324 0 = .error (.layoutOverflow "name_list_offset" 4294967352) ∧
    Layout.header UInt32.size 0 = .error (.layoutOverflow "entries_count" UInt32.size) ∧
    ∃ header view, Layout.header 2 7 = .ok header ∧ twoRecords.length = 72 * 2 ∧
      BlobView.parse (Layout.assemble header twoRecords [0x61, 0, 0xff]) = .ok view ∧
      view.header = header ∧ view.nameTable = [0x61, 0, 0xff] ∧
      view.get 0 = .ok { entry := {}, name := "a" } := by
  obtain ⟨last, _, _, _⟩ := layout_agreement 59652323 0
  obtain ⟨_, _, next, _⟩ := layout_agreement 59652324 0
  obtain ⟨_, past, _, _⟩ := layout_agreement UInt32.size 0
  obtain ⟨fits, _, _, made⟩ := layout_agreement 2 7
  obtain ⟨header, found⟩ := fits.mpr (by decide)
  have filled : twoRecords.length = 72 * 2 := by decide +kernel
  obtain ⟨_, _, _, parsed⟩ := made header found
  obtain ⟨view, accepted, same, table, _, reads⟩ := parsed twoRecords [0x61, 0, 0xff] filled
  obtain ⟨record, entry, chunk, decoded, read, _⟩ := reads 0 (by decide)
  have front : slice? twoRecords (0 * 72) (0 * 72 + 72) = some (List.replicate 72 0) := by
    decide +kernel
  have zeros : Entry.decode (List.replicate 72 0) = some {} := by decide +kernel
  rw [front, Option.some.injEq] at chunk
  rw [← chunk, zeros, Option.some.injEq] at decoded
  have named : view.nameAt 0 = .ok "a" :=
    @BlobView.nameAt_of_nameTable view [] [0xff] "a" 0 table rfl (by decide)
  refine ⟨last.mpr (by decide), next (by decide) (by decide), past (Nat.le_refl _), header, view,
    found, filled, accepted, same, table, ?_⟩
  rw [read, ← decoded, named]
  rfl

end BoardBlob
