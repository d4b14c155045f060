import BoardBlob.Device.Kind
import BoardBlob.Text.Hexadecimal
import BoardBlob.Text.Quoted

/-!
# Faults of a device

Why a device is refused before anything is encoded. A fault names the device by its position in the
list and by its name; the words of every fault are in `message`.
-/

namespace BoardBlob

/-- What is wrong with the value of a field. -/
inductive RangeFault where
  /-- A flag word has bits without a name. -/
  | undefinedBits (bits : UInt32)
  /-- A region ends past the last address. -/
  | wrapsAddressSpace (base size : UInt64)
  /-- A slot without a meaning for the kind is not zero. -/
  | reservedSlot (kind : DeviceKind) (value : UInt64)
  /-- A text stands where a number is expected. -/
  | notANumber (written : String)
  /-- No device flag has this name. -/
  | unknownFlag (written : String)
  /-- No interrupt flag has this name. -/
  | unknownIrqFlag (written : String)
  /-- The kind has no auxiliary slot of this name. -/
  | noSuchSlot (kind : DeviceKind) (key : String)
  /-- An auxiliary slot was given before. -/
  | givenMoreThanOnce
  deriving DecidableEq, Repr

/-- The fault in words. -/
def RangeFault.message : RangeFault → String
  | undefinedBits bits => "undefined bits " ++ Hexadecimal.text bits.toNat
  | wrapsAddressSpace base size =>
    "region " ++ Hexadecimal.text base.toNat ++ "+" ++ Hexadecimal.text size.toNat ++
      " wraps the address space"
  | reservedSlot kind value =>
    "slot is reserved for " ++ kind.name ++ " devices, got " ++ Hexadecimal.text value.toNat
  | notANumber written => "Text(" ++ Quoted.text written ++ ") is not a number"
  | unknownFlag written => "unknown flag " ++ Quoted.text written
  | unknownIrqFlag written => "unknown IRQ flag " ++ Quoted.text written
  | noSuchSlot kind key => kind.name ++ " devices have no aux slot " ++ Quoted.text key
  | givenMoreThanOnce => "given more than once"

/-- What is wrong with a name. -/
inductive NameFault where
  | empty
  | containsNul
  deriving DecidableEq, Repr

/-- The fault in words. -/
def NameFault.message : NameFault → String
  | empty => "name is empty"
  | containsNul => "name contains a NUL byte"

/-- Why a device is refused. -/
inductive DeviceFault where
  /-- The written type is no known kind. -/
  | unknownKind (index : Nat) (name : String) (written : String)
  /-- A field has a value that it may not have. -/
  | fieldOutOfRange (index : Nat) (name : String) (field : String) (reason : RangeFault)
  /-- A memory-mapped region starts at zero or off its alignment. -/
  | misaligned (index : Nat) (name : String) (base alignment : UInt64)
  /-- The name cannot be stored. -/
  | invalidName (index : Nat) (name : String) (reason : NameFault)
  deriving DecidableEq, Repr

/-- A device as messages name it: its position, and its name in brackets. -/
def describeDevice (index : Nat) (name : String) : String :=
  "device #" ++ index.repr ++ " (" ++ Quoted.text name ++ ")"

/-- The fault in words. -/
def DeviceFault.message : DeviceFault → String
  | unknownKind index name written =>
    describeDevice index name ++ ": unknown device type " ++ Quoted.text written
  | fieldOutOfRange index name field reason =>
    describeDevice index name ++ ": field `" ++ field ++ "` out of range: " ++ reason.message
  | misaligned index name base alignment =>
    describeDevice index name ++ ": MMIO region base " ++ Hexadecimal.text base.toNat ++
      " is null or not aligned to " ++ Hexadecimal.text alignment.toNat
  | invalidName index name reason =>
    "device #" ++ index.repr ++ ": invalid name " ++ Quoted.text name ++ ": " ++ reason.message

end BoardBlob
