import BoardBlob.Blob.View
import BoardBlob.Device.Device

/-!
# Reading a blob back as devices

Reads every entry of a blob as a device. One entry that cannot be read, or whose type tag stands for
no kind, makes the whole blob unreadable; the first such entry is reported.
-/

namespace BoardBlob

/-- A loaded device as a device: its interrupt numbers widened, all else as stored. -/
def LoadedDevice.toDevice (loaded : LoadedDevice) (kind : DeviceKind) : Device where
  kind := kind
  name := loaded.name
  flags := loaded.entry.flags
  regionBase := loaded.entry.regionBase
  regionSize := loaded.entry.regionSize
  irqLane := UInt64.ofNat loaded.entry.irqLane.toNat
  irqFlags := loaded.entry.irqFlags
  irqPriority := UInt64.ofNat loaded.entry.irqPriority.toNat
  aux := loaded.entry.aux

/-- The devices that the listed entries stand for. -/
def devicesOf : List (Except LoadFault LoadedDevice) → Except LoadFault (List Device)
  | [] => .ok []
  | .error fault :: _ => .error fault
  | .ok loaded :: rest =>
    match loaded.kind with
    | .error fault => .error fault
    | .ok kind =>
      match devicesOf rest with
      | .error fault => .error fault
      | .ok devices => .ok (loaded.toDevice kind :: devices)

/-- The devices that a blob holds. -/
def decompile (bytes : List UInt8) : Except LoadFault (List Device) :=
  match BlobView.parse bytes with
  | .error fault => .error fault
  | .ok view => devicesOf view.entries

end BoardBlob
