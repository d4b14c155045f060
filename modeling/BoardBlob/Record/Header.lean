import BoardBlob.Record.Field

/-!
# The header record

A blob opens with 24 bytes: a signature, a layout revision, opaque flags, the count of entries and
the position of the name table. The signature is kept as the little-endian word of its eight
bytes, so that every header field is a number of the schema.
-/

namespace BoardBlob

/-- The fixed record at the start of every blob. -/
structure Header where
  /-- The eight signature bytes as one little-endian word. -/
  signature : UInt64
  /-- Layout revision. -/
  revision : UInt32
  /-- Global flags, carried without a meaning. -/
  flags : UInt32
  /-- Count of entries that follow. -/
  entriesCount : UInt32
  /-- Position of the name table from the start of the blob. -/
  nameListOffset : UInt32
  deriving DecidableEq, Repr

namespace Header

/-- The bytes of the signature: the letters `odtr3` and three zero bytes. -/
def signatureBytes : List UInt8 := [0x6f, 0x64, 0x74, 0x72, 0x33, 0, 0, 0]

/-- The signature of every blob that a loader accepts. -/
def currentSignature : UInt64 := UInt64.ofNat (LittleEndian.decode signatureBytes)

/-- The layout revision of every blob that a loader accepts. -/
def currentRevision : UInt32 := 1

/-- Size of the record in bytes. -/
def size : Nat := 24

def signatureField : Field := ⟨"signature", 0, 8⟩
def revisionField : Field := ⟨"revision", 8, 4⟩
def flagsField : Field := ⟨"flags", 12, 4⟩
def entriesCountField : Field := ⟨"entries_count", 16, 4⟩
def nameListOffsetField : Field := ⟨"name_list_offset", 20, 4⟩

/-- The schema of the record, in wire order. -/
def fields : List Field :=
  [signatureField, revisionField, flagsField, entriesCountField, nameListOffsetField]

/-- The schema fills the record without gap or overlap. -/
theorem packed_fields : Field.Packed 0 size fields := by decide

/-- A header of the current signature and revision. -/
def current (entriesCount nameListOffset flags : UInt32) : Header where
  signature := currentSignature
  revision := currentRevision
  flags := flags
  entriesCount := entriesCount
  nameListOffset := nameListOffset

/-- The numbers that the record holds, in wire order. -/
def values (header : Header) : List Nat :=
  [header.signature.toNat, header.revision.toNat, header.flags.toNat,
    header.entriesCount.toNat, header.nameListOffset.toNat]

/-- The bytes of the record. -/
def encode (header : Header) : List UInt8 := encodeRecord fields header.values

/-- The header stored in a record, whatever its signature and revision; `none` when the bytes end
before the last field does. -/
def decode (record : List UInt8) : Option Header := do
  let signature ← signatureField.read record
  let revision ← revisionField.read record
  let flags ← flagsField.read record
  let entriesCount ← entriesCountField.read record
  let nameListOffset ← nameListOffsetField.read record
  some {
    signature := UInt64.ofNat signature
    revision := UInt32.ofNat revision
    flags := UInt32.ofNat flags
    entriesCount := UInt32.ofNat entriesCount
    nameListOffset := UInt32.ofNat nameListOffset }

end Header

end BoardBlob
