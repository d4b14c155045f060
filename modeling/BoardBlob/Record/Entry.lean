import BoardBlob.Device.Slots
import BoardBlob.Record.Field

/-!
# The entry record

Each device takes 72 bytes. The type tag and both flag words are kept as stored, so that a record
with an unknown tag or an undefined flag can be represented, shown and refused.
-/

namespace BoardBlob

/-- One device record, as stored. -/
structure Entry where
  /-- Tag of the device type. -/
  typeTag : UInt32 := 0
  /-- Device flags. -/
  flags : UInt32 := 0
  /-- Start of the device's address region. -/
  regionBase : UInt64 := 0
  /-- Length of the device's address region. -/
  regionSize : UInt64 := 0
  /-- Interrupt line. -/
  irqLane : UInt32 := 0
  /-- Interrupt flags. -/
  irqFlags : UInt32 := 0
  /-- Interrupt priority. -/
  irqPriority : UInt32 := 0
  /-- Position of the name from the start of the name table. -/
  nameOffset : UInt32 := 0
  /-- The four auxiliary values. -/
  aux : Slots UInt64 := .replicate 0
  deriving DecidableEq, Repr

namespace Entry

/-- Size of the record in bytes. -/
def size : Nat := 72

def typeField : Field := ⟨"type", 0, 4⟩
def flagsField : Field := ⟨"flags", 4, 4⟩
def regionBaseField : Field := ⟨"region_base", 8, 8⟩
def regionSizeField : Field := ⟨"region_size", 16, 8⟩
def irqLaneField : Field := ⟨"irq_lane", 24, 4⟩
def irqFlagsField : Field := ⟨"irq_flags", 28, 4⟩
def irqPriorityField : Field := ⟨"irq_priority", 32, 4⟩
def nameOffsetField : Field := ⟨"rel_name_offset", 36, 4⟩

/-- The fields of the four auxiliary slots. -/
def auxFields : Slots Field := ⟨⟨"aux1", 40, 8⟩, ⟨"aux2", 48, 8⟩, ⟨"aux3", 56, 8⟩, ⟨"aux4", 64, 8⟩⟩

/-- The schema of the record, in wire order. -/
def fields : List Field :=
  [typeField, flagsField, regionBaseField, regionSizeField, irqLaneField, irqFlagsField,
    irqPriorityField, nameOffsetField] ++ auxFields.toList

/-- The schema fills the record without gap or overlap. -/
theorem packed_fields : Field.Packed 0 size fields := by decide

/-- The numbers that the record holds, in wire order. -/
def values (entry : Entry) : List Nat :=
  [entry.typeTag.toNat, entry.flags.toNat, entry.regionBase.toNat, entry.regionSize.toNat,
    entry.irqLane.toNat, entry.irqFlags.toNat, entry.irqPriority.toNat, entry.nameOffset.toNat] ++
    (entry.aux.map UInt64.toNat).toList

/-- The bytes of the record. -/
def encode (entry : Entry) : List UInt8 := encodeRecord fields entry.values

/-- The entry stored in a record, whatever its tag and flags; `none` when the bytes end before the
last field does. -/
def decode (record : List UInt8) : Option Entry := do
  let typeTag ← typeField.read record
  let flags ← flagsField.read record
  let regionBase ← regionBaseField.read record
  let regionSize ← regionSizeField.read record
  let irqLane ← irqLaneField.read record
  let irqFlags ← irqFlagsField.read record
  let irqPriority ← irqPriorityField.read record
  let nameOffset ← nameOffsetField.read record
  let first ← auxFields.first.read record
  let second ← auxFields.second.read record
  let third ← auxFields.third.read record
  let fourth ← auxFields.fourth.read record
  some {
    typeTag := UInt32.ofNat typeTag
    flags := UInt32.ofNat flags
    regionBase := UInt64.ofNat regionBase
    regionSize := UInt64.ofNat regionSize
    irqLane := UInt32.ofNat irqLane
    irqFlags := UInt32.ofNat irqFlags
    irqPriority := UInt32.ofNat irqPriority
    nameOffset := UInt32.ofNat nameOffset
    aux := Slots.map UInt64.ofNat ⟨first, second, third, fourth⟩ }

end Entry

end BoardBlob
