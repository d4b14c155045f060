import BoardBlob.Proofs.OverwrittenBytes

/-!
# Records written field by field

A record can be made in place: each number is written into its field, over bytes that held something
else before. The fields of a packed schema leave none of the old bytes, and no write touches the
field of another, so what results is the record of the numbers, whatever stood there
(`Field.writeAll_of_packed`). Hence encoding and decoding are inverse both ways, for entries and for
headers, and encoding is writing every field (`records_exact`).
-/
namespace BoardBlob

namespace Field

/-- The record with each listed number stored in its field, one after the other; `none` when it ends
before one of the fields does. -/
def writeAll : List (Field × Nat) → List UInt8 → Option (List UInt8)
  | [], record => some record
  | (field, value) :: rest, record => (field.write record value).bind (writeAll rest)

/-- Writing a field that is inside the record overwrites its range with the digits of the number. -/
theorem write_of_le {field : Field} {record : List UInt8} (inside : field.stop ≤ record.length)
    (value : Nat) : field.write record value =
      some (overwrite record field.offset (LittleEndian.encode field.width value)) := by
  rw [write, if_pos inside, overwrite, LittleEndian.length_encode, stop]

/-- Writing a field replaces the bytes that stand at its place, and no others. -/
theorem write_append {field : Field} {front old back : List UInt8}
    (placed : front.length = field.offset) (sized : old.length = field.width) (value : Nat) :
    field.write (front ++ old ++ back) value =
      some (front ++ LittleEndian.encode field.width value ++ back) := by
  have inside : field.stop ≤ (front ++ old ++ back).length := by
    rw [List.length_append, List.length_append, placed, sized, stop]
    exact Nat.le_add_right _ _
  have width : (LittleEndian.encode field.width value).length = old.length := by
    rw [LittleEndian.length_encode, sized]
  rw [write_of_le inside, ← placed, overwrite_middle front back width]

/-- Writing all fields of a packed schema over a record, from the start of the schema on, leaves the
numbers and nothing of what stood there. -/
theorem writeAll_of_packed {start last : Nat} {fields : List Field}
    (packed : Packed start last fields) {values : List Nat}
    (counted : values.length = fields.length) {front old : List UInt8}
    (placed : front.length = start) (whole : front.length + old.length = last) :
    writeAll (fields.zip values) (front ++ old) = some (front ++ encodeRecord fields values) := by
  -- The fields that are written have become part of `front`; `old` is what is left to replace.
  induction fields generalizing start values front old with
  | nil =>
    have filled : start = last := packed
    have replaced : old = [] := List.eq_nil_of_length_eq_zero (by omega)
    rw [replaced]
    rfl
  | cons head rest ih =>
    obtain ⟨first, further⟩ := packed
    cases values with
    | nil => simp at counted
    | cons number numbers =>
      have bound := start_le_of_packed further
      rw [stop, first] at bound
      have sized : (old.take head.width).length = head.width := by
        rw [List.length_take]
        omega
      have written : head.write (front ++ old) number =
          some (front ++ LittleEndian.encode head.width number ++ old.drop head.width) := by
        rw [← write_append (placed.trans first.symm) sized, List.append_assoc,
          List.take_append_drop]
      have placedNext : (front ++ LittleEndian.encode head.width number).length = head.stop := by
        rw [List.length_append, LittleEndian.length_encode, placed, stop, first]
      have wholeNext : (front ++ LittleEndian.encode head.width number).length +
          (old.drop head.width).length = last := by
        rw [placedNext, stop, first, List.length_drop]
        omega
      rw [List.zip_cons_cons, writeAll, written, Option.bind_some,
        ih further (Nat.succ.inj counted) placedNext wholeNext]
      simp [encodeRecord]

/-- Writing all fields of a packed schema over a record of its size gives the record of the numbers,
whatever stood there. -/
theorem writeAll_of_length {last : Nat} {fields : List Field} (packed : Packed 0 last fields)
    {values : List Nat} (counted : values.length = fields.length) {old : List UInt8}
    (whole : old.length = last) :
    writeAll (fields.zip values) old = some (encodeRecord fields values) := by
  have fits : ([] : List UInt8).length + old.length = last := by
    rw [whole, List.length_nil, Nat.zero_add]
  have written := writeAll_of_packed packed counted rfl fits
  rwa [List.nil_append, List.nil_append] at written

end Field

/-- Writing the numbers of an entry into their fields gives its bytes, whatever the record held. -/
theorem Entry.writeAll_values (entry : Entry) {old : List UInt8} (whole : old.length = size) :
    Field.writeAll (fields.zip entry.values) old = some entry.encode :=
  Field.writeAll_of_length packed_fields rfl whole

/-- Writing the numbers of a header into their fields gives its bytes, whatever the record held. -/
theorem Header.writeAll_values (header : Header) {old : List UInt8} (whole : old.length = size) :
    Field.writeAll (fields.zip header.values) old = some header.encode :=
  Field.writeAll_of_length packed_fields rfl whole

/-- The signature of a header stands at its start, byte for byte. -/
theorem Header.take_encode (header : Header) :
    header.encode.take 8 = LittleEndian.encode 8 header.signature.toNat := by
  have joined : header.encode = LittleEndian.encode 8 header.signature.toNat ++
      encodeRecord (fields.drop 1) (header.values.drop 1) := by
    simp [encode, encodeRecord, fields, values, signatureField]
  rw [joined, List.take_left' (LittleEndian.length_encode 8 _)]

/-- Entries and records of 72 bytes stand for each other, and so do headers and records of 24 bytes.
Every entry is stored in 72 bytes and decoded from them as it was, whatever its numbers; every 72
bytes are decoded as an entry, each field giving the number that the entry has for it, and that
entry is stored as just these bytes. The bytes of an entry are those that writing its numbers into
their fields gives, over any record. The same holds of headers, whatever the signature and the
revision. -/
theorem records_exact :
    (∀ entry : Entry, entry.encode.length = 72 ∧ Entry.decode entry.encode = some entry ∧
      ∀ old : List UInt8, old.length = 72 →
        Field.writeAll (Entry.fields.zip entry.values) old = some entry.encode) ∧
    (∀ record : List UInt8, record.length = 72 →
      ∃ entry, Entry.decode record = some entry ∧ entry.encode = record ∧
        ∀ part ∈ Entry.fields.zip entry.values, part.1.read record = some part.2) ∧
    (∀ header : Header, header.encode.length = 24 ∧ Header.decode header.encode = some header ∧
      header.encode.take 8 = LittleEndian.encode 8 header.signature.toNat ∧
      ∀ old : List UInt8, old.length = 24 →
        Field.writeAll (Header.fields.zip header.values) old = some header.encode) ∧
    ∀ record : List UInt8, record.length = 24 →
      ∃ header, Header.decode record = some header ∧ header.encode = record ∧
        ∀ part ∈ Header.fields.zip header.values, part.1.read record = some part.2 := by
  refine ⟨?entry, ?record, ?header, ?front⟩
  case entry =>
    exact fun entry => ⟨entry.length_encode, entry.decode_encode,
      fun _ whole => entry.writeAll_values whole⟩
  case record =>
    intro record whole
    obtain ⟨entry, decoded⟩ := Entry.exists_decode (Nat.le_of_eq whole.symm)
    exact ⟨entry, decoded, Entry.encode_of_decode whole decoded, Entry.read_of_decode decoded⟩
  case header =>
    exact fun header => ⟨header.length_encode, header.decode_encode, header.take_encode,
      fun _ whole => header.writeAll_values whole⟩
  case front =>
    intro record whole
    obtain ⟨header, decoded⟩ := Header.exists_decode (Nat.le_of_eq whole.symm)
    exact ⟨header, decoded, Header.encode_of_decode whole decoded, Header.read_of_decode decoded⟩

/-- The bytes of 72 different values, as a record. -/
def countingRecord : List UInt8 := (List.range 72).map UInt8.ofNat

/-- An entry of unknown kind with undefined flags, whose numbers are all bits or one bit. -/
def crowdedEntry : Entry where
  typeTag := 99
  flags := 0xffffffff
  regionBase := 0x8000000000000000
  irqFlags := 0x80000000
  nameOffset := 1
  aux := ⟨0, 0xffffffffffffffff, 0, 1⟩

/-- A record of 72 different bytes is that of an entry, and so is that of an unusual one, also when
it is written over the other. The first 24 of the bytes are a header of another signature. -/
theorem records_exact_countingRecord :
    countingRecord.length = 72 ∧
    (∃ entry, Entry.decode countingRecord = some entry ∧ entry.encode = countingRecord ∧
      entry.typeTag = 0x03020100 ∧ entry.aux.fourth = 0x4746454443424140) ∧
    Entry.decode crowdedEntry.encode = some crowdedEntry ∧
    Field.writeAll (Entry.fields.zip crowdedEntry.values) countingRecord =
      some crowdedEntry.encode ∧
    ∃ header, Header.decode (countingRecord.take 24) = some header ∧
      header.encode = countingRecord.take 24 ∧ header.signature ≠ Header.currentSignature := by
  have whole : countingRecord.length = 72 := by decide
  have front : (countingRecord.take 24).length = 24 := by decide
  obtain ⟨entries, records, headers, fronts⟩ := records_exact
  obtain ⟨_, decoded, written⟩ := entries crowdedEntry
  obtain ⟨entry, found, stored, _⟩ := records countingRecord whole
  obtain ⟨header, foundHeader, storedHeader, _⟩ := fronts _ front
  have numbers :
      (Entry.decode countingRecord).map (fun entry => (entry.typeTag, entry.aux.fourth)) =
      some (0x03020100, 0x4746454443424140) := by decide +kernel
  have signature : (Header.decode (countingRecord.take 24)).map Header.signature =
      some 0x0706050403020100 := by decide +kernel
  rw [found, Option.map_some, Option.some.injEq, Prod.mk.injEq] at numbers
  rw [foundHeader, Option.map_some, Option.some.injEq] at signature
  refine ⟨whole, ⟨entry, found, stored, numbers⟩, decoded, written _ whole, header, foundHeader,
    storedHeader, ?_⟩
  rw [signature]
  decide

end BoardBlob
