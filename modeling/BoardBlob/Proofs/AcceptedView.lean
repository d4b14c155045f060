import BoardBlob.Blob.View
import BoardBlob.Proofs.RecordCodec

/-!
# Accepted views

What `parse` establishes once about bytes that may hold anything: the signature and the revision
are the current ones, the entries end where the name table starts, and the name table starts inside
the bytes. `parse_eq_ok_iff` says that this is all that `parse` asks for. The ranges of the table,
of every record and of every name follow from it.
-/
namespace BoardBlob

/-- The place of the name table is a machine word for every count that a header can hold. -/
theorem Layout.nameListOffset?_of_lt {count : Nat} (bound : count < UInt32.size) :
    nameListOffset? count = some (Header.size + Entry.size * count) := by
  have wide : Header.size + Entry.size * count < UInt64.size := by
    simp only [Header.size, Entry.size, UInt32.size, UInt64.size] at bound ⊢
    omega
  rw [nameListOffset?]
  exact if_pos wide

namespace BlobView

/-- The header of a view is one that a loader accepts for its bytes. -/
structure Accepted (view : BlobView) : Prop where
  /-- The signature is the current one. -/
  signature : view.header.signature = Header.currentSignature
  /-- The revision is the current one. -/
  revision : view.header.revision = Header.currentRevision
  /-- The name table follows the entries. -/
  position : view.header.nameListOffset.toNat = Header.size + Entry.size * view.size
  /-- The name table starts inside the bytes or at their end. -/
  inside : view.header.nameListOffset.toNat ≤ view.bytes.length

/-- What parsing makes of bytes with a whole header: its checks in order, each on numbers of the
header that were stored. -/
theorem parse_of_front {bytes : List UInt8} {header : Header}
    (front : (slice? bytes 0 Header.size).bind Header.decode = some header) :
    parse bytes =
      let stop := Header.size + Entry.size * header.entriesCount.toNat
      if header.signature ≠ Header.currentSignature then .error .badSignature
      else if header.revision ≠ Header.currentRevision then
        .error (.unsupportedRevision header.revision)
      else if bytes.length < stop then .error (.truncated header.entriesCount)
      else if header.nameListOffset.toNat ≠ stop then
        .error (.nameListMismatch header.nameListOffset stop)
      else .ok { bytes := bytes, header := header } := by
  have place := Layout.nameListOffset?_of_lt header.entriesCount.toNat_lt_size
  simp only [parse, front, place]

/-- Bytes that end inside the header are refused as too short. -/
theorem parse_of_short {bytes : List UInt8} (short : bytes.length < Header.size) :
    parse bytes = .error .tooShort := by
  have outside : ¬(0 ≤ Header.size ∧ Header.size ≤ bytes.length) := by omega
  rw [parse, slice?, if_neg outside]
  rfl

/-- Bytes that reach the end of the header have one. -/
theorem exists_front {bytes : List UInt8} (long : Header.size ≤ bytes.length) :
    ∃ header, (slice? bytes 0 Header.size).bind Header.decode = some header := by
  have whole : Header.size ≤ (bytes.take Header.size).length := by
    rw [List.length_take, Nat.min_eq_left long]
  obtain ⟨header, decoded⟩ := Header.exists_decode whole
  exact ⟨header, by rw [slice?_zero long, Option.bind_some, decoded]⟩

/-- Parsing gives the bytes and their header when the header is accepted, and else nothing. -/
theorem parse_eq_ok_iff {bytes : List UInt8} {view : BlobView} :
    parse bytes = .ok view ↔ view.bytes = bytes ∧
      (slice? bytes 0 Header.size).bind Header.decode = some view.header ∧ view.Accepted := by
  constructor
  · intro parsed
    by_cases short : bytes.length < Header.size
    · rw [parse_of_short short] at parsed
      contradiction
    · obtain ⟨header, front⟩ := exists_front (Nat.not_lt.mp short)
      rw [parse_of_front front] at parsed
      dsimp only at parsed
      split_ifs at parsed with signature revision long position
      cases parsed
      rw [ne_eq, not_not] at signature revision position
      exact ⟨rfl, front, signature, revision, position, position ▸ Nat.not_lt.mp long⟩
  · rintro ⟨rfl, front, accepted⟩
    have position : view.header.nameListOffset.toNat =
        Header.size + Entry.size * view.header.entriesCount.toNat := accepted.position
    have long : ¬view.bytes.length < Header.size + Entry.size * view.header.entriesCount.toNat :=
      position ▸ Nat.not_lt.mpr accepted.inside
    simp [parse_of_front front, accepted.signature, accepted.revision, long, position]

/-- Bytes that have the header of an accepted view but end inside its entries are refused as
truncated. -/
theorem parse_of_cut {bytes other : List UInt8} {view : BlobView} (parsed : parse bytes = .ok view)
    (front : slice? other 0 Header.size = slice? bytes 0 Header.size)
    (short : other.length < view.header.nameListOffset.toNat) :
    parse other = .error (.truncated view.header.entriesCount) := by
  obtain ⟨_, decoded, accepted⟩ := parse_eq_ok_iff.mp parsed
  have position := accepted.position
  rw [size] at position
  rw [position] at short
  simp [parse_of_front (front ▸ decoded), accepted.signature, accepted.revision, short]

/-- Bytes that have the header of an accepted view and all of its entries are accepted too. -/
theorem parse_of_long {bytes other : List UInt8} {view : BlobView} (parsed : parse bytes = .ok view)
    (front : slice? other 0 Header.size = slice? bytes 0 Header.size)
    (long : view.header.nameListOffset.toNat ≤ other.length) :
    parse other = .ok { view with bytes := other } := by
  obtain ⟨_, decoded, accepted⟩ := parse_eq_ok_iff.mp parsed
  refine parse_eq_ok_iff.mpr ⟨rfl, front ▸ decoded, ?_⟩
  exact {
    signature := accepted.signature
    revision := accepted.revision
    position := accepted.position
    inside := long }

namespace Accepted

variable {view : BlobView} {index : Nat}

/-- The name table is everything from its place on. -/
theorem nameTable_eq (accepted : view.Accepted) :
    view.nameTable = view.bytes.drop view.header.nameListOffset.toNat := by
  rw [nameTable, suffix?_of_le accepted.inside, Option.getD_some]

/-- The record of every entry ends inside the bytes. -/
theorem record_le (accepted : view.Accepted) (inside : index < view.size) :
    Header.size + index * Entry.size + Entry.size ≤ view.bytes.length := by
  have position := accepted.position
  have bound := accepted.inside
  simp only [Header.size, Entry.size] at position ⊢
  omega

/-- The record of every entry ends below the bound of a machine word. -/
theorem record_lt (accepted : view.Accepted) (inside : index < view.size) :
    Header.size + index * Entry.size + Entry.size < UInt64.size := by
  have position := accepted.position
  have bound := view.header.nameListOffset.toNat_lt
  simp only [Header.size, Entry.size, UInt64.size] at position ⊢
  omega

/-- The record of every entry is there, has the size of an entry and can be decoded. -/
theorem exists_record (accepted : view.Accepted) (inside : index < view.size) :
    ∃ record entry,
      slice? view.bytes (Header.size + index * Entry.size)
        (Header.size + index * Entry.size + Entry.size) = some record ∧
      record.length = Entry.size ∧ Entry.decode record = some entry := by
  have range := (isSome_slice? view.bytes (Header.size + index * Entry.size) _).mpr
    ⟨Nat.le_add_right _ Entry.size, accepted.record_le inside⟩
  obtain ⟨record, found⟩ := Option.isSome_iff_exists.mp range
  have length := length_of_slice? found
  rw [Nat.add_sub_cancel_left] at length
  obtain ⟨entry, decoded⟩ := Entry.exists_decode (Nat.le_of_eq length.symm)
  exact ⟨record, entry, found, length, decoded⟩

end Accepted

/-! ## Names and entries -/

/-- The name table of any view is no longer than its bytes. -/
theorem length_nameTable_le (view : BlobView) : view.nameTable.length ≤ view.bytes.length := by
  rw [nameTable, suffix?]
  split
  · simp
  · simp

/-- The first zero byte of a suffix of a table is inside the table. -/
theorem add_idxOf?_lt {table : List UInt8} {start length : Nat}
    (zero : (table.drop start).idxOf? 0 = some length) : start + length < table.length := by
  obtain ⟨bound, _⟩ := List.findIdx?_eq_some_iff_getElem.mp zero
  rw [List.length_drop] at bound
  omega

/-- The name at a place, from the bytes of the table that stand there. -/
theorem nameAt_eq (view : BlobView) (offset : UInt32) : view.nameAt offset =
    if view.nameTable.length ≤ offset.toNat then .error (.nameOutOfRange offset)
    else
      match (view.nameTable.drop offset.toNat).idxOf? 0 with
      | none => .error (.unterminatedName offset)
      | some length =>
        match Utf8.text? ((view.nameTable.drop offset.toNat).take length) with
        | none => .error (.notUtf8 offset)
        | some name => .ok name := by
  rw [nameAt]
  by_cases outside : view.nameTable.length ≤ offset.toNat
  · simp only [outside, ↓reduceIte]
  · have reached : offset.toNat ≤ view.nameTable.length := by omega
    simp only [outside, ↓reduceIte, suffix?_of_le reached]
    cases zero : (view.nameTable.drop offset.toNat).idxOf? 0 with
    | none => rfl
    | some length =>
      have stop := add_idxOf?_lt zero
      have range := slice?_of_le (Nat.le_add_right offset.toNat length) (Nat.le_of_lt stop)
      rw [Nat.add_sub_cancel_left] at range
      cases text : Utf8.text? ((view.nameTable.drop offset.toNat).take length) with
      | none => simp only [range, Option.bind_some, text]
      | some name => simp only [range, Option.bind_some, text]

/-- Reading an entry is decoding its record and then finding its name. -/
theorem get_of_record {view : BlobView} {index : Nat} {record : List UInt8} {entry : Entry}
    (inside : index < view.size)
    (found : slice? view.bytes (Header.size + index * Entry.size)
      (Header.size + index * Entry.size + Entry.size) = some record)
    (decoded : Entry.decode record = some entry) :
    view.get index = (view.nameAt entry.nameOffset).map fun name =>
      { entry := entry, name := name } := by
  rw [get, if_neg (Nat.not_le.mpr inside)]
  simp only [found, Option.bind_some, decoded]
  cases view.nameAt entry.nameOffset <;> rfl

/-- The bytes of the record of an entry. -/
def record? (view : BlobView) (index : Nat) : Option (List UInt8) :=
  slice? view.bytes (Header.size + index * Entry.size)
    (Header.size + index * Entry.size + Entry.size)

/-- An entry that is read was decoded from its record, and its name was found. -/
theorem get_eq_ok_iff {view : BlobView} {index : Nat} {device : LoadedDevice} :
    view.get index = .ok device ↔ index < view.size ∧
      (view.record? index).bind Entry.decode = some device.entry ∧
      view.nameAt device.entry.nameOffset = .ok device.name := by
  rw [record?]
  constructor
  · intro found
    by_cases inside : index < view.size
    · rw [get, if_neg (Nat.not_le.mpr inside)] at found
      cases decoded : (slice? view.bytes (Header.size + index * Entry.size)
          (Header.size + index * Entry.size + Entry.size)).bind Entry.decode with
      | none => simp [decoded] at found
      | some entry =>
        cases named : view.nameAt entry.nameOffset with
        | error fault => simp [decoded, named] at found
        | ok name =>
          simp only [decoded, named, Except.ok.injEq] at found
          subst found
          exact ⟨inside, rfl, named⟩
    · rw [get, if_pos (Nat.not_lt.mp inside)] at found
      contradiction
  · rintro ⟨inside, decoded, named⟩
    obtain ⟨record, found, read⟩ := Option.bind_eq_some_iff.mp decoded
    rw [get_of_record inside found read, named]
    rfl

/-- The entries of a view are what is read for each item of a list that is as long. -/
theorem entries_eq_map {view : BlobView} {α : Type} {items : List α}
    {read : α → Except LoadFault LoadedDevice} (counted : view.size = items.length)
    (reads : ∀ index item, items[index]? = some item → view.get index = read item) :
    view.entries = items.map read := by
  apply List.ext_getElem?
  intro index
  rw [entries, counted, List.getElem?_map, List.getElem?_map]
  cases found : items[index]? with
  | none =>
    have outside : items.length ≤ index := List.getElem?_eq_none_iff.mp found
    simp [outside]
  | some item =>
    obtain ⟨inside, _⟩ := List.getElem?_eq_some_iff.mp found
    rw [List.getElem?_range inside]
    exact congrArg some (reads index item found)

/-- The entries are listed by their positions in the blob. -/
theorem getElem?_entries (view : BlobView) (index : Nat) :
    view.entries[index]? = if index < view.size then some (view.get index) else none := by
  rw [entries, List.getElem?_map]
  by_cases inside : index < view.size
  · rw [if_pos inside, List.getElem?_range inside, Option.map_some]
  · rw [if_neg inside, List.getElem?_eq_none (by simpa using inside), Option.map_none]

/-- The listed entries are those that are read at the positions of the blob. -/
theorem getElem?_entries_iff {view : BlobView} {index : Nat}
    {entry : Except LoadFault LoadedDevice} :
    view.entries[index]? = some entry ↔ index < view.size ∧ view.get index = entry := by
  simp [getElem?_entries]

/-- The entries from a position on start with the one at that position. -/
theorem drop_entries {view : BlobView} {index : Nat} (inside : index < view.size) :
    view.entries.drop index = view.get index :: view.entries.drop (index + 1) := by
  have counted : view.entries.length = view.size := by simp [entries]
  rw [List.drop_eq_getElem_cons (counted.symm ▸ inside)]
  simp [entries]

end BlobView

/-- Reading on from a place gives the entry at its position, as long as there is one. -/
theorem Cursor.next_eq (cursor : Cursor) : cursor.next =
    (cursor.view.entries[cursor.index]?).map fun entry =>
      (entry, { cursor with index := cursor.index + 1 }) := by
  rw [BlobView.getElem?_entries, next]
  by_cases inside : cursor.index < cursor.view.size
  · rw [if_neg (Nat.not_le.mpr inside), if_pos inside, Option.map_some]
  · rw [if_pos (Nat.not_lt.mp inside), if_neg inside, Option.map_none]

end BoardBlob
