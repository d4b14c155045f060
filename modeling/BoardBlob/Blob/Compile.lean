import BoardBlob.Blob.EntryBuffer
import BoardBlob.Blob.Layout
import BoardBlob.Blob.NameTable
import BoardBlob.Device.Validation

/-!
# Compiling devices to a blob

Every stage works on the whole list before the next begins: all devices are validated, then all
names are stored, then all entries are encoded, then the header is made. So a fault of an early
stage is reported before one of a later stage, whatever devices they are about, and no bytes exist
unless every stage succeeds.
-/

namespace BoardBlob

/-- A compiled blob. -/
structure Blob where
  /-- The bytes, in file order. -/
  bytes : List UInt8
  deriving DecidableEq, Repr

/-- Size of a blob in bytes. -/
def Blob.size (blob : Blob) : Nat := blob.bytes.length

/-- Stores the names of the devices from position `start` on, and gives the place of each. -/
def internNames (table : NameTable) : Nat → List Device →
    Except CompileFault (List UInt32 × NameTable)
  | _, [] => .ok ([], table)
  | start, device :: rest =>
    match table.intern device.name with
    | none =>
      .error (.encodingOverflow start device.name Entry.nameOffsetField.name table.size)
    | some (place, grown) =>
      match internNames grown (start + 1) rest with
      | .error fault => .error fault
      | .ok (places, complete) => .ok (place :: places, complete)

/-- Encodes the devices from position `start` on, each with the place of its name. -/
def encodeEntries (buffer : EntryBuffer) : Nat → List (Device × UInt32) →
    Except CompileFault EntryBuffer
  | _, [] => .ok buffer
  | start, (device, place) :: rest =>
    match buffer.push start device place with
    | .error fault => .error fault
    | .ok grown => encodeEntries grown (start + 1) rest

/-- Compiles a list of devices. -/
def compile (devices : List Device) (config : Config) : Except CompileFault Blob := do
  (validateAll devices config).mapError .invalid
  let (places, names) ← internNames .empty 0 devices
  let entries ← encodeEntries .empty 0 (devices.zip places)
  let header ← Layout.header entries.count config.headerFlags
  .ok { bytes := Layout.assemble header entries.finish names.bytes.toList }

end BoardBlob
