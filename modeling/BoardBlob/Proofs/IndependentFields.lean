import Mathlib.Data.List.Pairwise
import BoardBlob.Proofs.WrittenRecords

/-!
# Fields that do not meet

Writing a field overwrites its range with the digits of a number (`Field.write_of_le`), so the field
and its record satisfy the laws of a lens: what was written is read back, and writing back what was
read changes nothing. The fields of a packed schema lie one behind the other
(`Field.pairwise_of_packed`), hence two different ones have no byte in common. A write to one is then
invisible to the other, and writes to both can change places. A field fails only on a record that
ends before the field does (`fields_independent`).
-/
namespace BoardBlob

namespace Field

/-- Two fields without a common byte: one ends before the other starts. -/
def Apart (field other : Field) : Prop := field.stop ≤ other.offset ∨ other.stop ≤ field.offset

/-- Which of the two fields comes first does not matter. -/
theorem Apart.symm {field other : Field} (apart : field.Apart other) : other.Apart field :=
  Or.symm apart

instance symm_apart : Std.Symm Apart := ⟨fun _ _ => Apart.symm⟩

/-- No field of a packed schema starts before the schema does. -/
theorem start_le_offset_of_packed {start last : Nat} {fields : List Field}
    (packed : Packed start last fields) {field : Field} (member : field ∈ fields) :
    start ≤ field.offset := by
  induction fields generalizing start with
  | nil => simp at member
  | cons head rest ih =>
    obtain ⟨first, further⟩ := packed
    cases List.mem_cons.mp member with
    | inl same => exact Nat.le_of_eq (same ▸ first.symm)
    | inr later =>
      have after := ih further later
      rw [stop, first] at after
      omega

/-- Every field of a packed schema ends before all later ones start. -/
theorem pairwise_of_packed {start last : Nat} {fields : List Field}
    (packed : Packed start last fields) :
    fields.Pairwise fun field other => field.stop ≤ other.offset := by
  induction fields generalizing start with
  | nil => exact .nil
  | cons head rest ih =>
    obtain ⟨_, further⟩ := packed
    exact .cons (fun _ later => start_le_offset_of_packed further later) (ih further)

/-- Two different fields of a packed schema have no byte in common. -/
theorem apart_of_packed {start last : Nat} {fields : List Field} (packed : Packed start last fields)
    {field other : Field} (listed : field ∈ fields) (listedOther : other ∈ fields)
    (differ : field ≠ other) : field.Apart other := by
  have apart : fields.Pairwise Apart := (pairwise_of_packed packed).imp Or.inl
  exact apart.forall listed listedOther differ

/-- A field of at most eight bytes holds the numbers that have no more digits in base 256 than it
has bytes. -/
theorem le_maximum_iff {field : Field} (narrow : field.width ≤ 8) {value : Nat} :
    value ≤ field.maximum ↔ value < 256 ^ field.width := by
  have positive : 0 < 256 ^ field.width := Nat.pow_pos (by decide)
  rw [maximum]
  split
  case isTrue wide =>
    have eight : field.width = 8 := Nat.le_antisymm narrow wide
    rw [eight, Nat.le_iff_lt_add_one]
    rfl
  case isFalse =>
    have digits : 1 <<< (8 * field.width) = 256 ^ field.width := by
      rw [Nat.one_shiftLeft, Nat.pow_mul]
    rw [digits]
    omega

section Record

variable {field other : Field} {record written : List UInt8} {value number : Nat}

/-- A field cannot be read exactly when the record ends before the field does. -/
theorem read_eq_none_iff : field.read record = none ↔ record.length < field.stop := by
  rw [← Option.not_isSome_iff_eq_none, isSome_read, Nat.not_le]

/-- A field cannot be written exactly when the record ends before the field does. -/
theorem write_eq_none_iff : field.write record value = none ↔ record.length < field.stop := by
  rw [write, ite_eq_right_iff, ← Nat.not_le]
  simp

/-- A field that is inside the record can be read. -/
theorem exists_read (inside : field.stop ≤ record.length) :
    ∃ stored, field.read record = some stored :=
  Option.isSome_iff_exists.mp ((isSome_read field record).mpr inside)

/-- A field that is inside the record can be written. -/
theorem exists_write (inside : field.stop ≤ record.length) (value : Nat) :
    ∃ written, field.write record value = some written :=
  ⟨_, write_of_le inside value⟩

/-- A field that is inside the record is inside it up to the last digit of a number. -/
theorem reached_of_le (inside : field.stop ≤ record.length) (value : Nat) :
    field.offset + (LittleEndian.encode field.width value).length ≤ record.length := by
  rwa [LittleEndian.length_encode]

/-- What was written is a record with the range of the field overwritten. -/
theorem eq_overwrite_of_write (done : field.write record value = some written) :
    field.stop ≤ record.length ∧
      written = overwrite record field.offset (LittleEndian.encode field.width value) := by
  by_cases inside : field.stop ≤ record.length
  · rw [write_of_le inside, Option.some.injEq] at done
    exact ⟨inside, done.symm⟩
  · rw [write_eq_none_iff.mpr (Nat.not_le.mp inside)] at done
    contradiction

/-- Writing a field keeps the length of the record. -/
theorem length_of_write (done : field.write record value = some written) :
    written.length = record.length := by
  obtain ⟨inside, rfl⟩ := eq_overwrite_of_write done
  exact length_overwrite (reached_of_le inside value)

/-- Writing a field keeps every byte outside it. -/
theorem getElem?_of_write (done : field.write record value = some written) {position : Nat}
    (outside : position < field.offset ∨ field.stop ≤ position) :
    written[position]? = record[position]? := by
  obtain ⟨inside, rfl⟩ := eq_overwrite_of_write done
  apply getElem?_overwrite_of_outside (reached_of_le inside value)
  rwa [LittleEndian.length_encode]

/-- A number that fits the field is read back after it was written. -/
theorem read_of_write (done : field.write record value = some written)
    (fits : value < 256 ^ field.width) : field.read written = some value := by
  obtain ⟨inside, rfl⟩ := eq_overwrite_of_write done
  have found := slice?_overwrite_self (reached_of_le inside value)
  rw [LittleEndian.length_encode] at found
  rw [read, stop, found, Option.map_some, LittleEndian.decode_encode, Nat.mod_eq_of_lt fits]

/-- A field reads what it read before another one was written. -/
theorem read_of_write_of_apart (apart : field.Apart other)
    (done : field.write record value = some written) (inside : other.stop ≤ record.length) :
    other.read written = other.read record := by
  have kept := length_of_write done
  rw [read, read]
  apply congrArg (Option.map LittleEndian.decode)
  apply slice?_congr (by rwa [kept]) inside
  intro position low high
  apply getElem?_of_write done
  cases apart with
  | inl before => exact Or.inr (Nat.le_trans before low)
  | inr after => exact Or.inl (Nat.lt_of_lt_of_le high after)

/-- Writing back what was read changes nothing. -/
theorem write_of_read (stored : field.read record = some value) :
    field.write record value = some record := by
  have inside : field.stop ≤ record.length := (isSome_read field record).mp (by rw [stored]; rfl)
  rw [read, Option.map_eq_some_iff] at stored
  obtain ⟨part, found, rfl⟩ := stored
  have width : part.length = field.width := by
    rw [length_of_slice? found, stop, Nat.add_sub_cancel_left]
  rw [write_of_le inside, ← width, LittleEndian.encode_decode, overwrite_of_slice? found]

/-- Two fields without a common byte can be written in either order. -/
theorem write_comm_of_apart (apart : field.Apart other) (inside : field.stop ≤ record.length)
    (insideOther : other.stop ≤ record.length) (value number : Nat) :
    (field.write record value).bind (other.write · number) =
      (other.write record number).bind (field.write · value) := by
  have reached := reached_of_le inside value
  have reachedOther := reached_of_le insideOther number
  have kept := length_overwrite reached
  have keptOther := length_overwrite reachedOther
  have disjoint : field.offset + (LittleEndian.encode field.width value).length ≤ other.offset ∨
      other.offset + (LittleEndian.encode other.width number).length ≤ field.offset := by
    rwa [LittleEndian.length_encode, LittleEndian.length_encode]
  rw [write_of_le inside, write_of_le insideOther, Option.bind_some, Option.bind_some,
    write_of_le (by rwa [kept]), write_of_le (by rwa [keptOther]),
    overwrite_comm reached reachedOther disjoint]

end Record

/-- Every field of the two schemas has four or eight bytes, so at most as many as a number. -/
theorem width_le_of_mem {schema : List Field} (known : schema ∈ [Header.fields, Entry.fields])
    {field : Field} (listed : field ∈ schema) : field.width ≤ 8 := by
  have narrow : ∀ schema ∈ [Header.fields, Entry.fields], ∀ field ∈ schema, field.width ≤ 8 := by
    decide
  exact narrow schema known field listed

/-- The two schemas are packed. -/
theorem packed_of_mem {schema : List Field} (known : schema ∈ [Header.fields, Entry.fields]) :
    ∃ last, Packed 0 last schema := by
  rw [List.mem_cons, List.mem_singleton] at known
  obtain rfl | rfl := known
  · exact ⟨_, Header.packed_fields⟩
  · exact ⟨_, Entry.packed_fields⟩

end Field

/-- Two different fields of a header, or of an entry, are independent lenses on every record that
reaches the end of both, however far it goes on. A number that the first field holds is written and
read back; the second field still reads what it read; the record keeps its length and every byte
outside the first field. Writing back what the first field reads, which is a number that it holds,
changes nothing, and that number is a 32-bit word where the field has four bytes. Writes to both
give one record in either order, and each field reads its own number from it. The first field cannot
be read or written exactly when the record ends before the field does. -/
theorem fields_independent {schema : List Field} (known : schema ∈ [Header.fields, Entry.fields])
    {field other : Field} (listed : field ∈ schema) (listedOther : other ∈ schema)
    (differ : field ≠ other) :
    (∀ (record : List UInt8) (value number : Nat), field.stop ≤ record.length →
      other.stop ≤ record.length → value ≤ field.maximum → number ≤ other.maximum →
      (∃ written kept, field.write record value = some written ∧
        field.read written = some value ∧
        other.read record = some kept ∧ other.read written = some kept ∧
        written.length = record.length ∧
        ∀ position, position < field.offset ∨ field.stop ≤ position →
          written[position]? = record[position]?) ∧
      (∃ stored, field.read record = some stored ∧ stored ≤ field.maximum ∧
        field.write record stored = some record ∧
        (field.width = 4 → (UInt32.ofNat stored).toNat = stored)) ∧
      ∃ both, (field.write record value).bind (other.write · number) = some both ∧
        (other.write record number).bind (field.write · value) = some both ∧
        field.read both = some value ∧ other.read both = some number) ∧
    ∀ record : List UInt8, (field.read record = none ↔ record.length < field.stop) ∧
      ∀ value ≤ field.maximum, (field.write record value = none ↔ record.length < field.stop) := by
  obtain ⟨_, packed⟩ := Field.packed_of_mem known
  have apart := Field.apart_of_packed packed listed listedOther differ
  have narrow := Field.width_le_of_mem known listed
  have narrowOther := Field.width_le_of_mem known listedOther
  refine ⟨?laws, fun _ => ⟨Field.read_eq_none_iff, fun _ _ => Field.write_eq_none_iff⟩⟩
  intro record value number inside insideOther holds holdsOther
  have fits := (Field.le_maximum_iff narrow).mp holds
  have fitsOther := (Field.le_maximum_iff narrowOther).mp holdsOther
  obtain ⟨written, done⟩ := Field.exists_write inside value
  have read := Field.read_of_write done fits
  have unread := Field.read_of_write_of_apart apart done insideOther
  have sized := Field.length_of_write done
  refine ⟨?written, ?unchanged, ?both⟩
  case written =>
    obtain ⟨kept, readOther⟩ := Field.exists_read insideOther
    exact ⟨written, kept, done, read, readOther, unread.trans readOther, sized,
      fun _ => Field.getElem?_of_write done⟩
  case unchanged =>
    obtain ⟨stored, readStored⟩ := Field.exists_read inside
    have bound := Field.read_lt readStored
    refine ⟨stored, readStored, (Field.le_maximum_iff narrow).mpr bound,
      Field.write_of_read readStored, fun four => ?_⟩
    rw [four] at bound
    exact UInt32.toNat_ofNat_of_lt' bound
  case both =>
    have reached : field.stop ≤ written.length := by rwa [sized]
    have reachedOther : other.stop ≤ written.length := by rwa [sized]
    obtain ⟨both, doneBoth⟩ := Field.exists_write reachedOther number
    have forward : (field.write record value).bind (other.write · number) = some both := by
      rw [done, Option.bind_some, doneBoth]
    have backward := Field.write_comm_of_apart apart inside insideOther value number
    rw [forward] at backward
    have kept := Field.read_of_write_of_apart apart.symm doneBoth reached
    exact ⟨both, forward, backward.symm, kept.trans read, Field.read_of_write doneBoth fitsOther⟩

/-- The name offset and the first auxiliary value stand side by side. In a record of 49 bytes, too
short for an entry, the largest numbers of both are written without a change of the other or of the
bytes around them; in one of 39 bytes the name offset is one byte short. -/
theorem fields_independent_neighbours :
    (∃ written, Entry.nameOffsetField.write (countingRecord.take 49) 0xffffffff = some written ∧
      Entry.nameOffsetField.read written = some 0xffffffff ∧
      Entry.auxFields.first.read written = some 0x2f2e2d2c2b2a2928 ∧ written.length = 49 ∧
      written[35]? = some 35 ∧ written[40]? = some 40) ∧
    Entry.nameOffsetField.write (countingRecord.take 49) 0x27262524 =
      some (countingRecord.take 49) ∧
    (∃ both, (Entry.nameOffsetField.write (countingRecord.take 49) 0xffffffff).bind
        (Entry.auxFields.first.write · 0xffffffffffffffff) = some both ∧
      (Entry.auxFields.first.write (countingRecord.take 49) 0xffffffffffffffff).bind
        (Entry.nameOffsetField.write · 0xffffffff) = some both ∧
      Entry.nameOffsetField.read both = some 0xffffffff ∧
      Entry.auxFields.first.read both = some 0xffffffffffffffff) ∧
    Entry.nameOffsetField.read (countingRecord.take 39) = none ∧
    Entry.nameOffsetField.write (countingRecord.take 39) 0xffffffff = none ∧
    Entry.nameOffsetField.read (countingRecord.take 40) ≠ none := by
  have known : Entry.fields ∈ [Header.fields, Entry.fields] := by decide
  have listed : Entry.nameOffsetField ∈ Entry.fields := by decide
  have listedOther : Entry.auxFields.first ∈ Entry.fields := by decide
  have holds : 0xffffffff ≤ Entry.nameOffsetField.maximum := by decide
  obtain ⟨laws, refused⟩ := fields_independent known listed listedOther (by decide)
  obtain ⟨⟨written, kept, done, read, readOther, readAfter, sized, outside⟩,
    ⟨stored, readStored, _, unchanged, _⟩, commute⟩ :=
    laws (countingRecord.take 49) 0xffffffff 0xffffffffffffffff (by decide) (by decide) holds
      (by decide)
  have old : Entry.nameOffsetField.read (countingRecord.take 49) = some 0x27262524 := by decide
  have oldOther : Entry.auxFields.first.read (countingRecord.take 49) =
      some 0x2f2e2d2c2b2a2928 := by decide
  obtain rfl : kept = 0x2f2e2d2c2b2a2928 := Option.some.inj (readOther.symm.trans oldOther)
  obtain rfl : stored = 0x27262524 := Option.some.inj (readStored.symm.trans old)
  refine ⟨⟨written, done, read, readAfter, sized, outside 35 (by decide), outside 40 (by decide)⟩,
    unchanged, commute, (refused _).1.mpr (by decide), ((refused _).2 _ holds).mpr (by decide), ?_⟩
  rw [ne_eq, (refused _).1]
  decide

end BoardBlob
