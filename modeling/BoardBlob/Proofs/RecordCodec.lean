import Mathlib.Algebra.Ring.Nat
import BoardBlob.Record.Entry
import BoardBlob.Record.Header

/-!
# Records and their bytes

A record of a packed schema is the concatenation of its field values, so each field finds its own
number at its own range: `Field.read_encodeRecord` is the one law behind the round trips of entries
and headers. The laws on slices say where a part of a joined list is found again.
-/
namespace BoardBlob

/-- A slice inside the middle part of a joined list is the slice of that part. -/
theorem slice?_append_middle (front middle back : List UInt8) (start : Nat) {stop : Nat}
    (inside : stop ≤ middle.length) :
    slice? (front ++ middle ++ back) (front.length + start) (front.length + stop) =
      slice? middle start stop := by
  have outer : front.length + stop ≤ (front ++ middle ++ back).length := by
    simp only [List.length_append]
    omega
  by_cases ordered : start ≤ stop
  · rw [slice?_of_le (by omega) outer, slice?_of_le ordered inside]
    have reached : (front ++ middle ++ back).drop (front.length + start) =
        middle.drop start ++ back := by
      rw [List.append_assoc, ← List.drop_drop, List.drop_left,
        List.drop_append_of_le_length (by omega)]
    have width : front.length + stop - (front.length + start) = stop - start := by omega
    rw [reached, width, List.take_append_of_le_length (by simp only [List.length_drop]; omega)]
  · simp [slice?, ordered]

/-- The slice of everything is the list. -/
theorem slice?_whole (bytes : List UInt8) : slice? bytes 0 bytes.length = some bytes := by
  rw [slice?_of_le (Nat.zero_le _) (Nat.le_refl _)]
  simp

/-- The middle part of a joined list is found between the two others. -/
theorem slice?_middle (front middle back : List UInt8) :
    slice? (front ++ middle ++ back) front.length (front.length + middle.length) =
      some middle := by
  rw [← slice?_whole middle]
  exact slice?_append_middle front middle back 0 (Nat.le_refl _)

/-- The slice from the start of some bytes is their front. -/
theorem slice?_zero {bytes : List UInt8} {stop : Nat} (inside : stop ≤ bytes.length) :
    slice? bytes 0 stop = some (bytes.take stop) := by
  rw [slice?_of_le (Nat.zero_le _) inside, List.drop_zero, Nat.sub_zero]

/-- A slice that ends inside the front of some bytes is the slice of that front. -/
theorem slice?_take (bytes : List UInt8) (start : Nat) {stop count : Nat} (within : stop ≤ count) :
    slice? (bytes.take count) start stop = slice? bytes start stop := by
  by_cases inside : start ≤ stop ∧ stop ≤ bytes.length
  · have stays : stop ≤ (bytes.take count).length := by
      rw [List.length_take]
      omega
    rw [slice?_of_le inside.1 inside.2, slice?_of_le inside.1 stays, List.drop_take, List.take_take,
      Nat.min_eq_left (by omega)]
  · have outside : ¬(start ≤ stop ∧ stop ≤ (bytes.take count).length) := by
      rw [List.length_take]
      omega
    rw [slice?, slice?, if_neg inside, if_neg outside]

/-- Bytes that go on after their end have the same slices up to that end. -/
theorem slice?_append_left {bytes : List UInt8} {stop : Nat} (inside : stop ≤ bytes.length)
    (padding : List UInt8) (start : Nat) :
    slice? (bytes ++ padding) start stop = slice? bytes start stop := by
  rw [← slice?_take (bytes ++ padding) start inside, List.take_left]

/-- Items that all take the same count of bytes are that count times as long together. -/
theorem length_flatMap_of_sized {α : Type} {encode : α → List UInt8} {size : Nat}
    (sized : ∀ item, (encode item).length = size) (items : List α) :
    (items.flatMap encode).length = size * items.length := by
  induction items with
  | nil => simp
  | cons item rest ih =>
    rw [List.flatMap_cons, List.length_append, sized, ih, List.length_cons, Nat.mul_succ,
      Nat.add_comm]

/-- Of items that all take the same count of bytes, each is found at its position times that
count, with every range inside it. -/
theorem slice?_flatMap {α : Type} {encode : α → List UInt8} {size : Nat}
    (sized : ∀ item, (encode item).length = size) (items : List α) {index : Nat}
    (inside : index < items.length) (start : Nat) {stop : Nat} (within : stop ≤ size) :
    slice? (items.flatMap encode) (index * size + start) (index * size + stop) =
      slice? (encode items[index]) start stop := by
  have parts : items.flatMap encode = (items.take index).flatMap encode ++ encode items[index] ++
      (items.drop (index + 1)).flatMap encode := by
    rw [List.append_assoc, ← List.flatMap_cons, ← List.drop_eq_getElem_cons inside,
      ← List.flatMap_append, List.take_append_drop]
  have before : ((items.take index).flatMap encode).length = index * size := by
    rw [length_flatMap_of_sized sized, List.length_take, Nat.min_eq_left (Nat.le_of_lt inside),
      Nat.mul_comm]
  rw [parts, ← before]
  exact slice?_append_middle _ _ _ start (by rwa [sized])

namespace LittleEndian

/-- A list of bytes stands for a number below the matching power of 256. -/
theorem decode_lt (bytes : List UInt8) : decode bytes < 256 ^ bytes.length := by
  induction bytes with
  | nil => simp [decode]
  | cons digit rest ih =>
    have bound : digit.toNat < 256 := digit.toNat_lt
    simp only [decode, List.length_cons, Nat.pow_succ]
    omega

/-- Decoding an encoding gives the number back, less the digits that did not fit. -/
theorem decode_encode (width value : Nat) : decode (encode width value) = value % 256 ^ width := by
  induction width generalizing value with
  | zero => simp [encode, decode, Nat.mod_one]
  | succ width ih =>
    have low : (UInt8.ofNat value).toNat = value % 256 := by simp
    rw [encode, decode, ih, low, Nat.pow_succ, Nat.mul_comm (256 ^ width) 256, Nat.mod_mul]

/-- Two numbers that fit a width have one encoding only if they are the same. -/
theorem encode_inj {width first second : Nat} (fits : first < 256 ^ width)
    (fitsSecond : second < 256 ^ width) :
    encode width first = encode width second ↔ first = second := by
  constructor
  · intro same
    have decoded := congrArg decode same
    rwa [decode_encode, decode_encode, Nat.mod_eq_of_lt fits, Nat.mod_eq_of_lt fitsSecond]
      at decoded
  · exact congrArg (encode width)

end LittleEndian

namespace Field

/-- A field can be read exactly when the record reaches its end. -/
theorem isSome_read (field : Field) (record : List UInt8) :
    (field.read record).isSome ↔ field.stop ≤ record.length := by
  rw [read, Option.isSome_map, isSome_slice?]
  constructor
  · exact And.right
  · exact fun inside => ⟨by simp [stop], inside⟩

/-- Every number of a packed record stands at the place of its field. -/
theorem slice?_encodeRecord {start last : Nat} {fields : List Field}
    (packed : Packed start last fields) {values : List Nat} (front : List UInt8)
    (placed : front.length = start) {field : Field} {value : Nat}
    (listed : (field, value) ∈ fields.zip values) :
    slice? (front ++ encodeRecord fields values) field.offset field.stop =
      some (LittleEndian.encode field.width value) := by
  -- The fields before the current one have become part of `front`, which ends where it starts.
  induction fields generalizing start values front with
  | nil => simp at listed
  | cons head rest ih =>
    obtain ⟨first, further⟩ := packed
    cases values with
    | nil => simp at listed
    | cons number numbers =>
      have joined : encodeRecord (head :: rest) (number :: numbers) =
          LittleEndian.encode head.width number ++ encodeRecord rest numbers := by
        simp [encodeRecord]
      rw [joined, ← List.append_assoc]
      rw [List.zip_cons_cons, List.mem_cons] at listed
      cases listed with
      | inl same =>
        cases same
        have here := slice?_middle front (LittleEndian.encode field.width value)
          (encodeRecord rest numbers)
        rwa [LittleEndian.length_encode, placed, ← first] at here
      | inr later =>
        refine ih further _ ?_ later
        rw [List.length_append, LittleEndian.length_encode, placed, stop, first]

/-- Every field of a packed schema reads its own number, if that fits the field. -/
theorem read_encodeRecord {last : Nat} {fields : List Field} (packed : Packed 0 last fields)
    {values : List Nat} {field : Field} {value : Nat} (listed : (field, value) ∈ fields.zip values)
    (fits : value < 256 ^ field.width) :
    field.read (encodeRecord fields values) = some value := by
  have range := slice?_encodeRecord packed [] rfl listed
  rw [List.nil_append] at range
  rw [read, range, Option.map_some, LittleEndian.decode_encode, Nat.mod_eq_of_lt fits]

/-- The record of a packed schema is as long as the schema says. -/
theorem length_encodeRecord {start last : Nat} {fields : List Field}
    (packed : Packed start last fields) (values : List Nat)
    (counted : values.length = fields.length) :
    start + (encodeRecord fields values).length = last := by
  induction fields generalizing start values with
  | nil => simpa [encodeRecord, Packed] using packed
  | cons head rest ih =>
    obtain ⟨first, further⟩ := packed
    cases values with
    | nil => simp at counted
    | cons number numbers =>
      have tail := ih further numbers (Nat.succ.inj counted)
      simp only [encodeRecord, List.zip_cons_cons, List.flatMap_cons, List.length_append,
        LittleEndian.length_encode, stop] at tail ⊢
      omega

/-- A packed schema ends no earlier than it starts. -/
theorem start_le_of_packed {start last : Nat} {fields : List Field}
    (packed : Packed start last fields) : start ≤ last := by
  induction fields generalizing start with
  | nil => exact Nat.le_of_eq packed
  | cons head rest ih =>
    have first := packed.1
    have further := ih packed.2
    simp only [stop] at further
    omega

/-- No field of a packed schema goes past its end. -/
theorem stop_le_of_packed {start last : Nat} {fields : List Field}
    (packed : Packed start last fields) {field : Field} (member : field ∈ fields) :
    field.stop ≤ last := by
  induction fields generalizing start with
  | nil => simp at member
  | cons head rest ih =>
    cases List.mem_cons.mp member with
    | inl same => exact same ▸ start_le_of_packed packed.2
    | inr later => exact ih packed.2 later

/-- A number that was read fits its field. -/
theorem read_lt {field : Field} {record : List UInt8} {value : Nat}
    (found : field.read record = some value) : value < 256 ^ field.width := by
  rw [read, Option.map_eq_some_iff] at found
  obtain ⟨part, range, rfl⟩ := found
  have bound := LittleEndian.decode_lt part
  rwa [length_of_slice? range, stop, Nat.add_sub_cancel_left] at bound

/-- A record is made of the numbers that the fields of its schema read, from the start of the
schema on. -/
theorem encodeRecord_of_read {start last : Nat} {fields : List Field}
    (packed : Packed start last fields) {record : List UInt8} (whole : record.length = last)
    {values : List Nat} (counted : values.length = fields.length)
    (reads : ∀ part ∈ fields.zip values, part.1.read record = some part.2) :
    encodeRecord fields values = record.drop start := by
  induction fields generalizing start values with
  | nil =>
    rw [show start = last from packed, ← whole, List.drop_length]
    rfl
  | cons head rest ih =>
    obtain ⟨first, further⟩ := packed
    cases values with
    | nil => simp at counted
    | cons number numbers =>
      rw [List.zip_cons_cons, List.forall_mem_cons] at reads
      obtain ⟨here, later⟩ := reads
      have tail := ih further (Nat.succ.inj counted) later
      have inside : head.stop ≤ record.length := whole ▸ start_le_of_packed further
      rw [read, Option.map_eq_some_iff] at here
      obtain ⟨part, range, rfl⟩ := here
      have width : part.length = head.width := by
        rw [length_of_slice? range, stop, Nat.add_sub_cancel_left]
      have cut : (record.drop start).take head.width = part := by
        have ordered : head.offset ≤ head.stop := Nat.le_add_right _ _
        change slice? record head.offset head.stop = some part at range
        rw [slice?_of_le ordered inside, stop, Nat.add_sub_cancel_left, first] at range
        exact Option.some.inj range
      have encoded : LittleEndian.encode head.width (LittleEndian.decode part) = part := by
        rw [← width, LittleEndian.encode_decode]
      have joined : encodeRecord (head :: rest) (LittleEndian.decode part :: numbers) =
          part ++ encodeRecord rest numbers := by
        simp [encodeRecord, encoded]
      rw [joined, tail, ← cut, stop, first, ← List.drop_drop, List.take_append_drop]

end Field

namespace Entry

/-- Each field of the schema with the number that an entry holds for it. -/
theorem zip_values (entry : Entry) : fields.zip entry.values =
    [(typeField, entry.typeTag.toNat), (flagsField, entry.flags.toNat),
      (regionBaseField, entry.regionBase.toNat), (regionSizeField, entry.regionSize.toNat),
      (irqLaneField, entry.irqLane.toNat), (irqFlagsField, entry.irqFlags.toNat),
      (irqPriorityField, entry.irqPriority.toNat), (nameOffsetField, entry.nameOffset.toNat),
      (auxFields.first, entry.aux.first.toNat), (auxFields.second, entry.aux.second.toNat),
      (auxFields.third, entry.aux.third.toNat), (auxFields.fourth, entry.aux.fourth.toNat)] :=
  rfl

/-- Every number of an entry fits its field. -/
theorem values_fit (entry : Entry) :
    ∀ part ∈ fields.zip entry.values, part.2 < 256 ^ part.1.width := by
  have word (number : UInt32) : number.toNat < 256 ^ 4 := number.toNat_lt
  have long (number : UInt64) : number.toNat < 256 ^ 8 := number.toNat_lt
  simp only [zip_values, List.forall_mem_cons]
  exact ⟨word _, word _, long _, long _, word _, word _, word _, word _, long _, long _, long _,
    long _, by simp⟩

/-- Every field reads its number from the bytes of an entry. -/
theorem read_encode (entry : Entry) :
    ∀ part ∈ fields.zip entry.values, part.1.read entry.encode = some part.2 := by
  intro part listed
  exact Field.read_encodeRecord packed_fields listed (entry.values_fit part listed)

/-- The bytes of an entry fill the record. -/
@[simp]
theorem length_encode (entry : Entry) : entry.encode.length = size := by
  have filled := Field.length_encodeRecord packed_fields entry.values rfl
  simpa [encode] using filled

/-- Decoding the bytes of an entry gives the entry back. -/
theorem decode_encode (entry : Entry) : decode entry.encode = some entry := by
  have reads := entry.read_encode
  simp only [zip_values, List.forall_mem_cons] at reads
  simp [decode, Slots.map, reads]

/-- Bytes that reach the end of the record can be decoded. -/
theorem exists_decode {record : List UInt8} (whole : size ≤ record.length) :
    ∃ entry, decode record = some entry := by
  have reads : ∀ field ∈ fields, ∃ value, field.read record = some value := by
    intro field member
    rw [← Option.isSome_iff_exists, Field.isSome_read]
    exact Nat.le_trans (Field.stop_le_of_packed packed_fields member) whole
  simp only [fields, auxFields, Slots.toList, List.cons_append, List.nil_append,
    List.forall_mem_cons] at reads
  obtain ⟨⟨_, typeTag⟩, ⟨_, flags⟩, ⟨_, regionBase⟩, ⟨_, regionSize⟩, ⟨_, irqLane⟩, ⟨_, irqFlags⟩,
    ⟨_, irqPriority⟩, ⟨_, nameOffset⟩, ⟨_, first⟩, ⟨_, second⟩, ⟨_, third⟩, ⟨_, fourth⟩, _⟩ := reads
  simp [decode, auxFields, typeTag, flags, regionBase, regionSize, irqLane, irqFlags, irqPriority,
    nameOffset, first, second, third, fourth]

/-- Every field reads the number of the decoded entry from the record. -/
theorem read_of_decode {record : List UInt8} {entry : Entry} (decoded : decode record = some entry) :
    ∀ part ∈ fields.zip entry.values, part.1.read record = some part.2 := by
  have word {number : Nat} (fits : number < 256 ^ 4) : (UInt32.ofNat number).toNat = number :=
    UInt32.toNat_ofNat_of_lt' fits
  have long {number : Nat} (fits : number < 256 ^ 8) : (UInt64.ofNat number).toNat = number :=
    UInt64.toNat_ofNat_of_lt' fits
  rw [decode] at decoded
  obtain ⟨_, typeTag, decoded⟩ := Option.bind_eq_some_iff.mp decoded
  obtain ⟨_, flags, decoded⟩ := Option.bind_eq_some_iff.mp decoded
  obtain ⟨_, regionBase, decoded⟩ := Option.bind_eq_some_iff.mp decoded
  obtain ⟨_, regionSize, decoded⟩ := Option.bind_eq_some_iff.mp decoded
  obtain ⟨_, irqLane, decoded⟩ := Option.bind_eq_some_iff.mp decoded
  obtain ⟨_, irqFlags, decoded⟩ := Option.bind_eq_some_iff.mp decoded
  obtain ⟨_, irqPriority, decoded⟩ := Option.bind_eq_some_iff.mp decoded
  obtain ⟨_, nameOffset, decoded⟩ := Option.bind_eq_some_iff.mp decoded
  obtain ⟨_, first, decoded⟩ := Option.bind_eq_some_iff.mp decoded
  obtain ⟨_, second, decoded⟩ := Option.bind_eq_some_iff.mp decoded
  obtain ⟨_, third, decoded⟩ := Option.bind_eq_some_iff.mp decoded
  obtain ⟨_, fourth, decoded⟩ := Option.bind_eq_some_iff.mp decoded
  obtain rfl := Option.some.inj decoded
  simp only [zip_values, Slots.map, List.forall_mem_cons, word (Field.read_lt typeTag),
    word (Field.read_lt flags), long (Field.read_lt regionBase), long (Field.read_lt regionSize),
    word (Field.read_lt irqLane), word (Field.read_lt irqFlags), word (Field.read_lt irqPriority),
    word (Field.read_lt nameOffset), long (Field.read_lt first), long (Field.read_lt second),
    long (Field.read_lt third), long (Field.read_lt fourth)]
  exact ⟨typeTag, flags, regionBase, regionSize, irqLane, irqFlags, irqPriority, nameOffset, first,
    second, third, fourth, by simp⟩

/-- The bytes of a decoded entry are the record that it was decoded from. -/
theorem encode_of_decode {record : List UInt8} {entry : Entry} (whole : record.length = size)
    (decoded : decode record = some entry) : entry.encode = record := by
  rw [encode, Field.encodeRecord_of_read packed_fields whole rfl (read_of_decode decoded),
    List.drop_zero]

/-- Two entries with one record are the same. -/
theorem encode_inj {entry other : Entry} : entry.encode = other.encode ↔ entry = other := by
  constructor
  · intro same
    have decoded := congrArg decode same
    rwa [decode_encode, decode_encode, Option.some.injEq] at decoded
  · exact congrArg encode

/-- Two lists of entries that are stored as the same bytes are the same. -/
theorem flatMap_encode_inj {entries others : List Entry} :
    entries.flatMap encode = others.flatMap encode ↔ entries = others := by
  constructor
  · intro same
    have lengths := congrArg List.length same
    rw [length_flatMap_of_sized length_encode, length_flatMap_of_sized length_encode, size]
      at lengths
    induction entries generalizing others with
    | nil => exact (List.eq_nil_of_length_eq_zero (by simpa using lengths.symm)).symm
    | cons entry rest ih =>
      cases others with
      | nil => simp at lengths
      | cons other more =>
        rw [List.flatMap_cons, List.flatMap_cons] at same
        obtain ⟨here, later⟩ := List.append_inj same (by rw [length_encode, length_encode])
        rw [encode_inj.mp here, ih later (by simpa using lengths)]
  · exact congrArg (List.flatMap encode)

/-- The record of an entry: what precedes the place of the name, that place, and what follows. -/
theorem encode_eq_parts (entry : Entry) : entry.encode =
    encodeRecord (fields.take 7) (entry.values.take 7) ++
      LittleEndian.encode nameOffsetField.width entry.nameOffset.toNat ++
      encodeRecord (fields.drop 8) (entry.values.drop 8) := by
  simp [encode, encodeRecord, fields, values, auxFields, Slots.toList]

/-- A record with another place of the name differs in the bytes of that field only. -/
theorem encode_nameOffset (entry : Entry) (place : UInt32) :
    ({ entry with nameOffset := place } : Entry).encode.take nameOffsetField.offset =
      entry.encode.take nameOffsetField.offset ∧
    ({ entry with nameOffset := place } : Entry).encode.drop nameOffsetField.stop =
      entry.encode.drop nameOffsetField.stop := by
  have packed : Field.Packed 0 nameOffsetField.offset (fields.take 7) := by decide
  have front : (encodeRecord (fields.take 7) (entry.values.take 7)).length =
      nameOffsetField.offset := by
    have filled := Field.length_encodeRecord packed (entry.values.take 7) rfl
    rwa [Nat.zero_add] at filled
  have reached (place : UInt32) : (encodeRecord (fields.take 7) (entry.values.take 7) ++
      LittleEndian.encode nameOffsetField.width place.toNat).length = nameOffsetField.stop := by
    rw [List.length_append, front, LittleEndian.length_encode, Field.stop]
  have moved : ({ entry with nameOffset := place } : Entry).encode =
      encodeRecord (fields.take 7) (entry.values.take 7) ++
        LittleEndian.encode nameOffsetField.width place.toNat ++
        encodeRecord (fields.drop 8) (entry.values.drop 8) := encode_eq_parts _
  rw [moved, encode_eq_parts entry]
  constructor
  · rw [List.append_assoc, List.append_assoc, List.take_left' front, List.take_left' front]
  · rw [List.drop_left' (reached place), List.drop_left' (reached entry.nameOffset)]

/-- Bytes that are as long as some records are the bytes of that many entries. -/
theorem exists_flatMap_encode {bytes : List UInt8} {count : Nat}
    (filled : bytes.length = size * count) :
    ∃ entries : List Entry, entries.length = count ∧ entries.flatMap encode = bytes := by
  induction count generalizing bytes with
  | zero => exact ⟨[], rfl, (List.eq_nil_of_length_eq_zero filled).symm⟩
  | succ count ih =>
    rw [Nat.mul_succ] at filled
    have record : (bytes.take size).length = size := by
      rw [List.length_take]
      omega
    obtain ⟨entry, decoded⟩ := exists_decode (Nat.le_of_eq record.symm)
    have further : (bytes.drop size).length = size * count := by
      rw [List.length_drop]
      omega
    obtain ⟨entries, counted, joined⟩ := ih further
    refine ⟨entry :: entries, by rw [List.length_cons, counted], ?_⟩
    rw [List.flatMap_cons, encode_of_decode record decoded, joined, List.take_append_drop]

end Entry

namespace Header

/-- Each field of the schema with the number that a header holds for it. -/
theorem zip_values (header : Header) : fields.zip header.values =
    [(signatureField, header.signature.toNat), (revisionField, header.revision.toNat),
      (flagsField, header.flags.toNat), (entriesCountField, header.entriesCount.toNat),
      (nameListOffsetField, header.nameListOffset.toNat)] :=
  rfl

/-- Every number of a header fits its field. -/
theorem values_fit (header : Header) :
    ∀ part ∈ fields.zip header.values, part.2 < 256 ^ part.1.width := by
  have word (number : UInt32) : number.toNat < 256 ^ 4 := number.toNat_lt
  have long (number : UInt64) : number.toNat < 256 ^ 8 := number.toNat_lt
  simp only [zip_values, List.forall_mem_cons]
  exact ⟨long _, word _, word _, word _, word _, by simp⟩

/-- Every field reads its number from the bytes of a header. -/
theorem read_encode (header : Header) :
    ∀ part ∈ fields.zip header.values, part.1.read header.encode = some part.2 := by
  intro part listed
  exact Field.read_encodeRecord packed_fields listed (header.values_fit part listed)

/-- The bytes of a header fill the record. -/
@[simp]
theorem length_encode (header : Header) : header.encode.length = size := by
  have filled := Field.length_encodeRecord packed_fields header.values rfl
  simpa [encode] using filled

/-- Decoding the bytes of a header gives the header back. -/
theorem decode_encode (header : Header) : decode header.encode = some header := by
  have reads := header.read_encode
  simp only [zip_values, List.forall_mem_cons] at reads
  simp [decode, reads]

/-- Bytes that reach the end of the record can be decoded. -/
theorem exists_decode {record : List UInt8} (whole : size ≤ record.length) :
    ∃ header, decode record = some header := by
  have reads : ∀ field ∈ fields, ∃ value, field.read record = some value := by
    intro field member
    rw [← Option.isSome_iff_exists, Field.isSome_read]
    exact Nat.le_trans (Field.stop_le_of_packed packed_fields member) whole
  simp only [fields, List.forall_mem_cons] at reads
  obtain ⟨⟨_, signature⟩, ⟨_, revision⟩, ⟨_, flags⟩, ⟨_, count⟩, ⟨_, offset⟩, _⟩ := reads
  simp [decode, signature, revision, flags, count, offset]

/-- Every field reads the number of the decoded header from the record. -/
theorem read_of_decode {record : List UInt8} {header : Header}
    (decoded : decode record = some header) :
    ∀ part ∈ fields.zip header.values, part.1.read record = some part.2 := by
  have word {number : Nat} (fits : number < 256 ^ 4) : (UInt32.ofNat number).toNat = number :=
    UInt32.toNat_ofNat_of_lt' fits
  have long {number : Nat} (fits : number < 256 ^ 8) : (UInt64.ofNat number).toNat = number :=
    UInt64.toNat_ofNat_of_lt' fits
  rw [decode] at decoded
  obtain ⟨_, signature, decoded⟩ := Option.bind_eq_some_iff.mp decoded
  obtain ⟨_, revision, decoded⟩ := Option.bind_eq_some_iff.mp decoded
  obtain ⟨_, flags, decoded⟩ := Option.bind_eq_some_iff.mp decoded
  obtain ⟨_, count, decoded⟩ := Option.bind_eq_some_iff.mp decoded
  obtain ⟨_, offset, decoded⟩ := Option.bind_eq_some_iff.mp decoded
  obtain rfl := Option.some.inj decoded
  simp only [zip_values, List.forall_mem_cons, long (Field.read_lt signature),
    word (Field.read_lt revision), word (Field.read_lt flags), word (Field.read_lt count),
    word (Field.read_lt offset)]
  exact ⟨signature, revision, flags, count, offset, by simp⟩

/-- The bytes of a decoded header are the record that it was decoded from. -/
theorem encode_of_decode {record : List UInt8} {header : Header} (whole : record.length = size)
    (decoded : decode record = some header) : header.encode = record := by
  rw [encode, Field.encodeRecord_of_read packed_fields whole rfl (read_of_decode decoded),
    List.drop_zero]

/-- Every number of a decoded header stands in the record at the place of its field. -/
theorem slice?_of_decode {record : List UInt8} {header : Header} (whole : record.length = size)
    (decoded : decode record = some header) :
    ∀ part ∈ fields.zip header.values,
      slice? record part.1.offset part.1.stop =
        some (LittleEndian.encode part.1.width part.2) := by
  intro part listed
  have range := Field.slice?_encodeRecord packed_fields [] rfl listed
  rwa [List.nil_append, ← encode, encode_of_decode whole decoded] at range

end Header

end BoardBlob
