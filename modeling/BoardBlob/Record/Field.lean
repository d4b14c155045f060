import BoardBlob.Bytes.LittleEndian
import BoardBlob.Bytes.Slice

/-!
# Fields of a fixed-width record

A record is a list of bytes, and a field is a named range of it that holds one little-endian
number. A schema is the list of a record's fields in wire order; `Packed` says that they follow
each other without gap or overlap, so a record is the concatenation of its field values
(`encodeRecord`) and every field can be read back from its own range.
-/

namespace BoardBlob

/-- One number at a fixed place in a record. -/
structure Field where
  /-- Name used in diagnostics. -/
  name : String
  /-- Position of the first byte. -/
  offset : Nat
  /-- Count of bytes. -/
  width : Nat
  deriving DecidableEq, Repr

namespace Field

/-- Position after the last byte of the field. -/
def stop (field : Field) : Nat := field.offset + field.width

/-- Largest number the field holds. A number has at most eight bytes, however wide its field. -/
def maximum (field : Field) : Nat :=
  if 8 ≤ field.width then UInt64.size - 1 else (1 <<< (8 * field.width)) - 1

/-- The number stored in a record; `none` when the record ends before the field does. -/
def read (field : Field) (record : List UInt8) : Option Nat :=
  (slice? record field.offset field.stop).map LittleEndian.decode

/-- The record with the low bytes of a number stored in the field; `none` when the record ends
before the field does. -/
def write (field : Field) (record : List UInt8) (value : Nat) : Option (List UInt8) :=
  if field.stop ≤ record.length then
    some (record.take field.offset ++ LittleEndian.encode field.width value ++
      record.drop field.stop)
  else none

/-- The fields follow each other from `start` to `stop` without gap or overlap. -/
def Packed : Nat → Nat → List Field → Prop
  | start, stop, [] => start = stop
  | start, stop, field :: rest => field.offset = start ∧ Packed field.stop stop rest

instance decidablePacked : ∀ start stop fields, Decidable (Packed start stop fields)
  | start, stop, [] => inferInstanceAs (Decidable (start = stop))
  | start, stop, field :: rest =>
    have := decidablePacked field.stop stop rest
    inferInstanceAs (Decidable (field.offset = start ∧ Packed field.stop stop rest))

end Field

/-- The record of a packed schema that holds the given numbers, in schema order. -/
def encodeRecord (fields : List Field) (values : List Nat) : List UInt8 :=
  (fields.zip values).flatMap fun (field, value) => LittleEndian.encode field.width value

end BoardBlob
