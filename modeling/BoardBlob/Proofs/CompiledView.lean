import Mathlib.Control.Monad.Basic
import BoardBlob.Blob.Decompile
import BoardBlob.Proofs.CompileStages

/-!
# The view of a compiled blob

What a loader sees of a blob that was compiled from a list: at every position the entry of the
device of that position, with the device's own name, although equal names share one place in the
table. So decompiling gives the list back (`compile_round_trip`).
-/
namespace BoardBlob

/-- An accepted device has a name without a fault. -/
theorem Device.nameFault?_of_accepted {config : Config} {index : Nat} {device : Device}
    (accepted : device.validate index config = .ok ()) : device.nameFault? = none := by
  cases fault : device.nameFault? with
  | none => rfl
  | some reason => simp [validate, fault] at accepted

/-- An accepted device has a name that is not empty. -/
theorem Device.name_ne_empty_of_accepted {config : Config} {index : Nat} {device : Device}
    (accepted : device.validate index config = .ok ()) : device.name ≠ "" := by
  have named := nameFault?_of_accepted accepted
  intro blank
  simp [nameFault?, blank] at named

/-- An accepted device has no U+0000 in its name. -/
theorem Device.plain_of_accepted {config : Config} {index : Nat} {device : Device}
    (accepted : device.validate index config = .ok ()) : '\x00' ∉ device.name.toList := by
  have named := nameFault?_of_accepted accepted
  intro member
  by_cases blank : device.name.toList = []
  · simp [blank] at member
  · simp [nameFault?, blank, member] at named

/-- What a loader makes of a device of a compiled list. -/
def loadedOf (devices : List Device) (device : Device) : LoadedDevice where
  entry := device.entry
    (UInt32.ofNat (NameTable.placeIn (devices.map Device.name) device.name))
  name := device.name

/-- The kind of a loaded device is that of the device. -/
theorem kind_loadedOf (devices : List Device) (device : Device) :
    (loadedOf devices device).kind = .ok device.kind := by
  simp [LoadedDevice.kind, Entry.kind?, loadedOf, Device.entry]

/-- The view of the blob of a list. -/
def viewOf (devices : List Device) (config : Config) : BlobView :=
  .ofParts (headerOf devices config) ((entriesOf devices).flatMap Entry.encode)
    (NameTable.image (devices.map Device.name))

namespace Compiles

variable {devices : List Device} {config : Config} {device : Device} {index : Nat}

/-- The header of a compiled list is the one made for its length. -/
theorem header (compiles : Compiles devices config) :
    Layout.header devices.length config.headerFlags = .ok (headerOf devices config) :=
  Layout.header_of_small compiles.small _

/-- The entries of a list fill the part of the blob that is meant for them. -/
theorem length_entries (devices : List Device) :
    ((entriesOf devices).flatMap Entry.encode).length = Entry.size * devices.length := by
  rw [length_flatMap_of_sized Entry.length_encode, entriesOf, List.length_map]

/-- No device of a list that has a blob is wide. -/
theorem not_wide (compiles : Compiles devices config) (member : device ∈ devices) :
    ¬device.Wide := by
  obtain ⟨index, found⟩ := List.getElem?_of_mem member
  exact compiles.narrow index device found

/-- The blob of a list is accepted. -/
theorem parse_eq (compiles : Compiles devices config) :
    BlobView.parse (blobBytes devices config) = .ok (viewOf devices config) :=
  BlobView.parse_assemble compiles.header (length_entries devices)

/-- The name of every device is placed within 32 bits. -/
theorem toNat_placeIn (compiles : Compiles devices config) (member : device ∈ devices) :
    (UInt32.ofNat (NameTable.placeIn (devices.map Device.name) device.name)).toNat =
      NameTable.placeIn (devices.map Device.name) device.name := by
  have known : device.name ∈ devices.map Device.name := List.mem_map_of_mem member
  have bound := NameTable.placeIn_add_le known
  have stored := compiles.stored
  exact UInt32.toNat_ofNat_of_lt' (by omega)

/-- The name of every device stands in the table at the place that its entry says. -/
theorem exists_image_eq (compiles : Compiles devices config) (member : device ∈ devices) :
    ∃ before after, NameTable.image (devices.map Device.name) =
        before ++ (Utf8.bytes device.name ++ 0 :: after) ∧
      (loadedOf devices device).entry.nameOffset.toNat = before.length := by
  obtain ⟨before, after, parts, placed⟩ :=
    NameTable.image_eq_of_mem (List.mem_map_of_mem (f := Device.name) member)
  refine ⟨before, after, ?_, ?_⟩
  · rw [parts]
    simp [NameTable.stored]
  · rw [loadedOf, Device.entry, compiles.toNat_placeIn member, placed]

/-- No device of a list that has a blob has U+0000 in its name. -/
theorem plain (compiles : Compiles devices config) (member : device ∈ devices) :
    '\x00' ∉ device.name.toList := by
  obtain ⟨index, found⟩ := List.getElem?_of_mem member
  exact Device.plain_of_accepted (Device.not_refused_iff.mp (compiles.valid index device found))

/-- The blob of a list has as many entries as the list has devices. -/
theorem size_eq (compiles : Compiles devices config) :
    (viewOf devices config).size = devices.length :=
  BlobView.size_ofParts compiles.header

/-- The name table of the blob of a list is that of the names of the list. -/
theorem nameTable_eq (compiles : Compiles devices config) :
    (viewOf devices config).nameTable = NameTable.image (devices.map Device.name) :=
  BlobView.nameTable_ofParts compiles.header (length_entries devices)

/-- The name of every device is found at the place that its entry says. -/
theorem nameAt_eq (compiles : Compiles devices config) (member : device ∈ devices) :
    (viewOf devices config).nameAt (loadedOf devices device).entry.nameOffset =
      .ok device.name := by
  obtain ⟨before, after, parts, placed⟩ := compiles.exists_image_eq member
  exact BlobView.nameAt_of_nameTable (compiles.nameTable_eq.trans parts) placed
    (compiles.plain member)

/-- The entry at a position is that of the device at that position. -/
theorem getElem?_entriesOf (found : devices[index]? = some device) :
    (entriesOf devices)[index]? = some (loadedOf devices device).entry := by
  rw [entriesOf, List.getElem?_map, found]
  rfl

/-- The record at a position holds the entry of the device at that position. -/
theorem slice?_record (found : devices[index]? = some device) :
    slice? (blobBytes devices config) (Header.size + index * Entry.size)
      (Header.size + index * Entry.size + Entry.size) =
        some (loadedOf devices device).entry.encode :=
  BlobView.slice?_assemble_of_getElem? (getElem?_entriesOf found)

/-- The entry at a position is the one of the device at that position, with its name. -/
theorem get_eq (compiles : Compiles devices config) (found : devices[index]? = some device) :
    (viewOf devices config).get index = .ok (loadedOf devices device) := by
  obtain ⟨inside, _⟩ := List.getElem?_eq_some_iff.mp found
  rw [BlobView.get_of_record (compiles.size_eq ▸ inside) (slice?_record found)
    (Entry.decode_encode _), compiles.nameAt_eq (List.mem_of_getElem? found)]
  rfl

/-- The entries of a compiled blob are those of the devices, in order and each readable. -/
theorem entries_eq (compiles : Compiles devices config) :
    (viewOf devices config).entries =
      devices.map fun device => .ok (loadedOf devices device) :=
  BlobView.entries_eq_map compiles.size_eq fun _ _ found => compiles.get_eq found

/-- A device that is not wide is what its entry and its name stand for. -/
theorem toDevice_loadedOf {device : Device} (narrow : ¬device.Wide) (devices : List Device) :
    (loadedOf devices device).toDevice device.kind = device := by
  obtain ⟨lane, priority⟩ := Device.not_wide_iff.mp narrow
  simp only [loadedOf, Device.entry, LoadedDevice.toDevice,
    UInt32.toNat_ofNat_of_lt' lane, UInt32.toNat_ofNat_of_lt' priority, UInt64.ofNat_toNat]

/-- The loaded entries of devices that are not wide are those devices. -/
theorem devicesOf_loaded (all : List Device) (narrow : ∀ device ∈ devices, ¬device.Wide) :
    devicesOf (devices.map fun device => .ok (loadedOf all device)) = .ok devices := by
  induction devices with
  | nil => rfl
  | cons head rest ih =>
    have later := ih fun device member => narrow device (List.mem_cons_of_mem head member)
    have here := toDevice_loadedOf (narrow head List.mem_cons_self) all
    simp only [List.map_cons, devicesOf, kind_loadedOf, later, here]

/-- The blob of a list decompiles to the list. -/
theorem decompile_eq (compiles : Compiles devices config) :
    decompile (blobBytes devices config) = .ok devices := by
  rw [decompile, compiles.parse_eq]
  simp only [compiles.entries_eq]
  exact devicesOf_loaded devices fun device member => compiles.not_wide member

end Compiles

/-- Decompiling a compiled blob gives back the list it was compiled from, every device in every
field. The header carries the flags of the configuration and the length of the list. -/
theorem compile_round_trip {devices : List Device} {config : Config} {blob : Blob}
    (compiled : compile devices config = .ok blob) :
    decompile blob.bytes = .ok devices ∧
    ∃ view, BlobView.parse blob.bytes = .ok view ∧ view.header.flags = config.headerFlags ∧
      view.header.entriesCount.toNat = devices.length := by
  obtain ⟨compiles, bytes⟩ := compile_eq_ok_iff.mp compiled
  have decoded := compiles.decompile_eq
  have parsed := compiles.parse_eq
  rw [← bytes] at decoded parsed
  exact ⟨decoded, viewOf devices config, parsed, rfl,
    Layout.entriesCount_of_header compiles.header⟩

/-- Two devices with one name, around a device with a name outside ASCII. -/
def namesakes : List Device :=
  [{ kind := .uart, name := "u", flags := 1, regionBase := 4096, regionSize := 256, irqLane := 33,
     aux := ⟨24000000, 115200, 0, 0⟩ },
   { kind := .rtc, name := "é" },
   { kind := .rtc, name := "u", irqPriority := 4294967295 }]

/-- The three devices have a blob. -/
theorem compile_namesakes : compile namesakes {} = .ok { bytes := blobBytes namesakes {} } := by
  decide +kernel

/-- The round trip for names of which two are equal. -/
theorem compile_round_trip_namesakes :
    ∃ blob, compile namesakes {} = .ok blob ∧ decompile blob.bytes = .ok namesakes ∧
      ∃ view, BlobView.parse blob.bytes = .ok view ∧
        view.header.flags = ({} : Config).headerFlags ∧
        view.header.entriesCount.toNat = namesakes.length :=
  ⟨_, compile_namesakes, compile_round_trip compile_namesakes⟩

end BoardBlob
