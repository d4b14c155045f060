import BoardBlob.Device.Device
import BoardBlob.Device.Fault
import BoardBlob.Record.Entry

/-!
# Validation

Decides whether a device may be encoded. The checks come in a fixed order, and the first that fails
is reported: the name, the device flags, the interrupt flags, the end of the region, the alignment
of a memory-mapped region, and the reserved auxiliary slots from the lowest up. A list of devices is
checked from its start, and the first fault ends the check.
-/

namespace BoardBlob

/-- A number is a multiple of another; of zero, only zero is. -/
def isMultipleOf (value unit : UInt64) : Bool :=
  if unit = 0 then value == 0 else value.toNat % unit.toNat == 0

namespace Device

/-- What is wrong with the name, if anything. -/
def nameFault? (device : Device) : Option NameFault :=
  let characters := device.name.toList
  if characters = [] then some .empty
  else if characters.contains '\x00' then some .containsNul
  else none

/-- A flag word with undefined bits, as a fault. -/
def flagFault? (family : FlagFamily) (word : UInt32) : Option RangeFault :=
  let unknown := family.undefinedBits word
  if unknown = 0 then none else some (.undefinedBits unknown)

/-- A region that ends past the last address, as a fault. -/
def regionFault? (device : Device) : Option RangeFault :=
  if device.regionBase.toNat + device.regionSize.toNat < UInt64.size then none
  else some (.wrapsAddressSpace device.regionBase device.regionSize)

/-- The region is memory-mapped and starts at zero or off the alignment. -/
def isMisaligned (device : Device) (alignment : UInt64) : Bool :=
  device.isMmio && (device.regionBase == 0 || !isMultipleOf device.regionBase alignment)

/-- The lowest auxiliary slot that has a value but no meaning. -/
def reservedSlot? (device : Device) : Option (Fin 4) :=
  (List.finRange 4).find? fun slot =>
    (device.kind.auxLayout.get slot).isNone && device.aux.get slot != 0

/-- Checks one device, which stands at `index` in its list. -/
def validate (index : Nat) (config : Config) (device : Device) : Except DeviceFault Unit :=
  let outOfRange (field : Field) (reason : RangeFault) : Except DeviceFault Unit :=
    .error (.fieldOutOfRange index device.name field.name reason)
  match device.nameFault? with
  | some reason => .error (.invalidName index device.name reason)
  | none =>
  match flagFault? deviceFlagFamily device.flags with
  | some reason => outOfRange Entry.flagsField reason
  | none =>
  match flagFault? irqFlagFamily device.irqFlags with
  | some reason => outOfRange Entry.irqFlagsField reason
  | none =>
  match device.regionFault? with
  | some reason => outOfRange Entry.regionSizeField reason
  | none =>
  if device.isMisaligned config.mmioAlignment then
    .error (.misaligned index device.name device.regionBase config.mmioAlignment)
  else
  match device.reservedSlot? with
  | some slot =>
    outOfRange (Entry.auxFields.get slot) (.reservedSlot device.kind (device.aux.get slot))
  | none => .ok ()

end Device

/-- Checks the devices from position `start` on. -/
def validateFrom (config : Config) : Nat → List Device → Except DeviceFault Unit
  | _, [] => .ok ()
  | start, device :: rest =>
    match device.validate start config with
    | .error fault => .error fault
    | .ok () => validateFrom config (start + 1) rest

/-- Checks a whole list of devices. -/
def validateAll (devices : List Device) (config : Config) : Except DeviceFault Unit :=
  validateFrom config 0 devices

end BoardBlob
