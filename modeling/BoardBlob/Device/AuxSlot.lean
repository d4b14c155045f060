import BoardBlob.Device.Kind
import BoardBlob.Device.Slots

/-!
# Meanings of the auxiliary slots

What a slot means depends on the kind of the device. `auxLayout` is the one table of these
meanings; a slot without a meaning is reserved. A board names a slot by its position (`aux1` to
`aux4`) for every kind, or by its meaning where the kind has it.
-/

namespace BoardBlob

/-- The meaning of one auxiliary slot. -/
inductive AuxSlot where
  | width
  | height
  | stride
  | pixelFormat
  | clockHz
  | baudRate
  | blockSize
  | busStart
  | busEnd
  deriving DecidableEq, Repr

namespace AuxSlot

/-- Every meaning. -/
def all : List AuxSlot :=
  [width, height, stride, pixelFormat, clockHz, baudRate, blockSize, busStart, busEnd]

/-- The name used in boards and listings. -/
def name : AuxSlot → String
  | width => "width"
  | height => "height"
  | stride => "stride"
  | pixelFormat => "pixel_format"
  | clockHz => "clock_hz"
  | baudRate => "baud_rate"
  | blockSize => "block_size"
  | busStart => "bus_start"
  | busEnd => "bus_end"

end AuxSlot

namespace DeviceKind

/-- The meanings of the four slots of a device of this kind; `none` marks a reserved slot. -/
def auxLayout : DeviceKind → Slots (Option AuxSlot)
  | io | ram | rtc => .replicate none
  | framebuffer => ⟨some .width, some .height, some .stride, some .pixelFormat⟩
  | uart => ⟨some .clockHz, some .baudRate, none, none⟩
  | storage => ⟨some .blockSize, none, none, none⟩
  | busController => ⟨some .busStart, some .busEnd, none, none⟩

/-- The slot that has this meaning for a device of this kind. -/
def slotOf? (kind : DeviceKind) (meaning : AuxSlot) : Option (Fin 4) :=
  kind.auxLayout.find? fun slot => slot == some meaning

/-- The names of the four slots by position. -/
def positionalKeys : Slots String := ⟨"aux1", "aux2", "aux3", "aux4"⟩

/-- The slot that a written key stands for on a device of this kind. -/
def resolveKey? (kind : DeviceKind) (key : String) : Option (Fin 4) :=
  (positionalKeys.find? fun name => name == key).or
    (kind.auxLayout.find? fun slot => slot.any fun meaning => meaning.name == key)

end DeviceKind

end BoardBlob
