import BoardBlob.Blob.CompileFault
import BoardBlob.Device.Device
import BoardBlob.Record.Entry

/-!
# Encoding devices as entries

A device becomes an entry once the place of its name is known and its interrupt numbers fit their
32-bit fields. Entries are collected back to back; a device that does not fit leaves the collected
bytes as they were.
-/

namespace BoardBlob

namespace Device

/-- A number of a device as the 32-bit number that its field stores. -/
def narrow (index : Nat) (device : Device) (field : Field) (value : UInt64) :
    Except CompileFault UInt32 :=
  if value.toNat < UInt32.size then .ok (UInt32.ofNat value.toNat)
  else .error (.encodingOverflow index device.name field.name value.toNat)

/-- The entry of a device whose name has this place in the name table. -/
def encode (index : Nat) (device : Device) (nameOffset : UInt32) : Except CompileFault Entry := do
  let irqLane ← device.narrow index Entry.irqLaneField device.irqLane
  let irqPriority ← device.narrow index Entry.irqPriorityField device.irqPriority
  .ok {
    typeTag := device.kind.tag
    flags := device.flags
    regionBase := device.regionBase
    regionSize := device.regionSize
    irqLane := irqLane
    irqFlags := device.irqFlags
    irqPriority := irqPriority
    nameOffset := nameOffset
    aux := device.aux }

end Device

/-- Entries collected back to back. -/
structure EntryBuffer where
  /-- The bytes of the entries collected so far. -/
  bytes : Array UInt8 := #[]
  deriving DecidableEq, Repr

namespace EntryBuffer

/-- The buffer without entries. -/
def empty : EntryBuffer := {}

/-- Adds the entry of one device. -/
def push (buffer : EntryBuffer) (index : Nat) (device : Device) (nameOffset : UInt32) :
    Except CompileFault EntryBuffer :=
  (device.encode index nameOffset).map fun entry : Entry =>
    { bytes := buffer.bytes.appendList entry.encode }

/-- Count of entries collected so far. -/
def count (buffer : EntryBuffer) : Nat := buffer.bytes.size / Entry.size

/-- The bytes of all entries. -/
def finish (buffer : EntryBuffer) : List UInt8 := buffer.bytes.toList

end EntryBuffer

end BoardBlob
