import BoardBlob.Board.Source
import BoardBlob.Device.Device
import BoardBlob.Device.Fault
import BoardBlob.Record.Entry
import BoardBlob.Text.Numeral

/-!
# From boards to devices

Gives meaning to a board as written: names become kinds, flags and slots, and texts become numbers.
The parts of a device are converted in the order of its record (type, flags, region, interrupt,
auxiliary values) and the devices in file order; the first part that has no meaning is reported.
-/

namespace BoardBlob

/-- The number that was written; `none` when a text stands for no number. -/
def Quantity.value? : Quantity → Option UInt64
  | whole value => some value
  | text written => (Numeral.read written).toOption

/-- The kind that was written. A tag past 32 bits stands for no kind. -/
def KindTag.kind? : KindTag → Option DeviceKind
  | name written => DeviceKind.ofName? written
  | tag value => if value.toNat < UInt32.size then DeviceKind.ofTag? value.toUInt32 else none

/-- The type as messages show it. -/
def KindTag.shown : KindTag → String
  | name written => written
  | tag value => value.toNat.repr

/-- The device that is being converted, for its faults. -/
structure Conversion where
  index : Nat
  name : String

namespace Conversion

/-- A part of the device without a meaning. -/
def outOfRange {α : Type} (conversion : Conversion) (field : String) (reason : RangeFault) :
    Except DeviceFault α :=
  .error (.fieldOutOfRange conversion.index conversion.name field reason)

/-- Converts the number of a field. -/
def number (conversion : Conversion) (field : Field) (written : Quantity) :
    Except DeviceFault UInt64 :=
  match written with
  | .whole value => .ok value
  | .text text =>
    match (Quantity.text text).value? with
    | some value => .ok value
    | none => conversion.outOfRange field.name (.notANumber text)

/-- Converts the device type. -/
def kind (conversion : Conversion) (written : KindTag) : Except DeviceFault DeviceKind :=
  match written.kind? with
  | some kind => .ok kind
  | none => .error (.unknownKind conversion.index conversion.name written.shown)

/-- Converts flag names to a flag word that has the bits of all of them. -/
def flags (conversion : Conversion) (family : FlagFamily) (field : Field)
    (unknown : String → RangeFault) (word : UInt32) : List String → Except DeviceFault UInt32
  | [] => .ok word
  | written :: rest =>
    match family.ofName? written with
    | none => conversion.outOfRange field.name (unknown written)
    | some bits => conversion.flags family field unknown (word ||| bits) rest

/-- The auxiliary values that a device gives, each with its key: first those that are members of the
device, then those under keys, in the order of the keys. -/
def auxSources (device : BoardDevice) : List (String × Quantity) :=
  let direct := (List.finRange 4).filterMap fun slot =>
    (device.directAux.get slot).map fun value => ((Entry.auxFields.get slot).name, value)
  direct ++ device.keyedAux.entries

/-- Puts auxiliary values into the slots that their keys stand for. -/
def assignAux (conversion : Conversion) (kind : DeviceKind) (given : Slots (Option UInt64)) :
    List (String × Quantity) → Except DeviceFault (Slots (Option UInt64))
  | [] => .ok given
  | (key, written) :: rest =>
    match kind.resolveKey? key with
    | none => conversion.outOfRange "aux" (.noSuchSlot kind key)
    | some slot =>
      let field := Entry.auxFields.get slot
      if (given.get slot).isSome then conversion.outOfRange field.name .givenMoreThanOnce
      else
        match conversion.number field written with
        | .error fault => .error fault
        | .ok value => conversion.assignAux kind (given.set slot (some value)) rest

/-- Converts the auxiliary values. A slot that is not given is zero. -/
def aux (conversion : Conversion) (kind : DeviceKind) (device : BoardDevice) :
    Except DeviceFault (Slots UInt64) :=
  (conversion.assignAux kind (.replicate none) (auxSources device)).map fun given =>
    given.map fun value => value.getD 0

/-- Converts one device. -/
def device (conversion : Conversion) (written : BoardDevice) : Except DeviceFault Device := do
  let kind ← conversion.kind written.kind
  let flags ← conversion.flags deviceFlagFamily Entry.flagsField .unknownFlag 0 written.flags
  let region := written.region.getD {}
  let regionBase ← conversion.number Entry.regionBaseField region.base
  let regionSize ← conversion.number Entry.regionSizeField region.size
  let interrupt := written.interrupt.getD {}
  let irqLane ← conversion.number Entry.irqLaneField interrupt.lane
  let irqFlags ←
    conversion.flags irqFlagFamily Entry.irqFlagsField .unknownIrqFlag 0 interrupt.flags
  let irqPriority ← conversion.number Entry.irqPriorityField interrupt.priority
  let aux ← conversion.aux kind written
  .ok {
    kind := kind
    name := written.name
    flags := flags
    regionBase := regionBase
    regionSize := regionSize
    irqLane := irqLane
    irqFlags := irqFlags
    irqPriority := irqPriority
    aux := aux }

end Conversion

namespace Board

/-- Converts the devices from position `start` on. -/
def devicesFrom : Nat → List BoardDevice → Except DeviceFault (List Device)
  | _, [] => .ok []
  | start, written :: rest =>
    match Conversion.device ⟨start, written.name⟩ written with
    | .error fault => .error fault
    | .ok device =>
      match devicesFrom (start + 1) rest with
      | .error fault => .error fault
      | .ok devices => .ok (device :: devices)

/-- The devices of a board. -/
def toDevices (board : Board) : Except DeviceFault (List Device) := devicesFrom 0 board.devices

end Board

end BoardBlob
