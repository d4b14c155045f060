import BoardBlob.Device.AuxSlot
import BoardBlob.Device.Flags

/-!
# Devices

A device before it is encoded. Its interrupt line and priority are held as 64-bit numbers although
a record stores 32 bits of each, so that a number that is too large is found when the device is
encoded and never shortened before.
-/

namespace BoardBlob

/-- One hardware device. -/
structure Device where
  /-- What the device is. -/
  kind : DeviceKind
  /-- Name, which need not be unique. -/
  name : String
  /-- Device flags. -/
  flags : UInt32 := 0
  /-- Start of the address region. -/
  regionBase : UInt64 := 0
  /-- Length of the address region. -/
  regionSize : UInt64 := 0
  /-- Interrupt line. -/
  irqLane : UInt64 := 0
  /-- Interrupt flags. -/
  irqFlags : UInt32 := 0
  /-- Interrupt priority. -/
  irqPriority : UInt64 := 0
  /-- The four auxiliary values. -/
  aux : Slots UInt64 := .replicate 0
  deriving DecidableEq, Repr

namespace Device

/-- The device with a memory-mapped region. -/
def withMmio (device : Device) (base size : UInt64) : Device :=
  { device with flags := device.flags ||| mmioBit, regionBase := base, regionSize := size }

/-- The device with another region, its flags as they were. -/
def withRegion (device : Device) (base size : UInt64) : Device :=
  { device with regionBase := base, regionSize := size }

/-- The device with another interrupt. -/
def withIrq (device : Device) (lane : UInt64) (flags : UInt32) (priority : UInt64) : Device :=
  { device with irqLane := lane, irqFlags := flags, irqPriority := priority }

/-- The device with other auxiliary values. -/
def withAux (device : Device) (aux : Slots UInt64) : Device := { device with aux := aux }

/-- The device's region is memory-mapped. -/
def isMmio (device : Device) : Bool := device.flags &&& mmioBit == mmioBit

end Device

/-- What a compilation needs besides the devices. -/
structure Config where
  /-- Alignment that the region of a memory-mapped device must have. -/
  mmioAlignment : UInt64 := 4096
  /-- Global flags written to the header. -/
  headerFlags : UInt32 := 0
  deriving DecidableEq, Repr

end BoardBlob
