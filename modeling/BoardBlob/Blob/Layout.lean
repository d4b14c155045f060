import BoardBlob.Blob.CompileFault
import BoardBlob.Record.Entry
import BoardBlob.Record.Header

/-!
# The layout of a blob

A blob is the header, the entries and the name table, one directly after the other. The header's
numbers follow from the count of entries alone, and exist only while they fit their 32-bit fields.
-/

namespace BoardBlob

namespace Layout

/-- Position of the name table of a blob with this many entries; `none` when it is not a 64-bit
number. -/
def nameListOffset? (entriesCount : Nat) : Option Nat :=
  let position := Header.size + Entry.size * entriesCount
  if position < UInt64.size then some position else none

/-- The header of a blob with this many entries. -/
def header (entriesCount : Nat) (flags : UInt32) : Except CompileFault Header :=
  if UInt32.size ≤ entriesCount then
    .error (.layoutOverflow Header.entriesCountField.name entriesCount)
  else
    match nameListOffset? entriesCount with
    | none => .error (.layoutOverflow Header.nameListOffsetField.name (UInt64.size - 1))
    | some position =>
      if UInt32.size ≤ position then
        .error (.layoutOverflow Header.nameListOffsetField.name position)
      else .ok (.current (UInt32.ofNat entriesCount) (UInt32.ofNat position) flags)

/-- The bytes of a blob with this header, these entries and this name table. -/
def assemble (header : Header) (entries names : List UInt8) : List UInt8 :=
  header.encode ++ entries ++ names

end Layout

end BoardBlob
