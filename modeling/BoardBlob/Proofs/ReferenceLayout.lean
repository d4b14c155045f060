import BoardBlob.Proofs.CompiledView

/-!
# The reference layout of a blob

A closed form of the bytes that a list of devices is compiled to, written without the passes of the
compiler: no table of names is carried along and no position is counted up. `compile_layout` says
that a compiled blob is this closed form byte for byte, where each number of each device stands, and
that two records refer to one stored name exactly when their devices have one name.
-/
namespace BoardBlob

/-! ## The closed form -/

/-- The count of bytes that some names take with one zero byte after each. -/
def storedSize (names : List String) : Nat :=
  (names.map fun name => name.utf8ByteSize + 1).sum

/-- The different names of a list that are used before a name is used for the first time. -/
def earlierNames (names : List String) (name : String) : List String :=
  names.eraseDups.filter fun earlier => names.idxOf earlier < names.idxOf name

/-- The place of a name among the names of a list. -/
def referencePlace (names : List String) (name : String) : Nat :=
  storedSize (earlierNames names name)

/-- Every field of an entry with the number that the device has for it, its name at the given
place. -/
def Device.recordTable (device : Device) (place : Nat) : List (Field × Nat) :=
  [(Entry.typeField, device.kind.tag.toNat), (Entry.flagsField, device.flags.toNat),
    (Entry.regionBaseField, device.regionBase.toNat),
    (Entry.regionSizeField, device.regionSize.toNat),
    (Entry.irqLaneField, device.irqLane.toNat), (Entry.irqFlagsField, device.irqFlags.toNat),
    (Entry.irqPriorityField, device.irqPriority.toNat), (Entry.nameOffsetField, place),
    (Entry.auxFields.first, device.aux.first.toNat),
    (Entry.auxFields.second, device.aux.second.toNat),
    (Entry.auxFields.third, device.aux.third.toNat),
    (Entry.auxFields.fourth, device.aux.fourth.toNat)]

/-- The record of a device: the numbers of its table, one after the other. -/
def Device.referenceRecord (device : Device) (place : Nat) : List UInt8 :=
  (device.recordTable place).flatMap fun (field, number) =>
    LittleEndian.encode field.width number

/-- The bytes of a list of devices: header, records and names. -/
def referenceBytes (devices : List Device) (config : Config) : List UInt8 :=
  let names := devices.map Device.name
  Header.signatureBytes ++ LittleEndian.encode 4 1 ++
    LittleEndian.encode 4 config.headerFlags.toNat ++ LittleEndian.encode 4 devices.length ++
    LittleEndian.encode 4 (24 + 72 * devices.length) ++
    (devices.flatMap fun device => device.referenceRecord (referencePlace names device.name)) ++
    names.eraseDups.flatMap fun name => Utf8.bytes name ++ [0]

/-! ## Places -/

/-- The names used before a name, each once, are the different names that are used earlier. -/
theorem eraseDups_takeWhile {names : List String} {name : String} (known : name ∈ names) :
    (names.takeWhile fun earlier => earlier != name).eraseDups = earlierNames names name := by
  obtain ⟨before, after, rfl, fresh⟩ := List.eq_append_cons_of_mem known
  have first : (before ++ name :: after).idxOf name = before.length := by
    simp [List.idxOf_append, fresh]
  rw [NameTable.takeWhile_first_use fresh, earlierNames, first, List.eraseDups_append,
    List.filter_append]
  have kept : before.eraseDups.filter
      (fun earlier => (before ++ name :: after).idxOf earlier < before.length) =
        before.eraseDups := by
    refine List.filter_eq_self.mpr fun earlier member => ?_
    have used : earlier ∈ before := List.mem_eraseDups.mp member
    simpa [List.idxOf_append, used] using List.idxOf_lt_length_of_mem used
  have dropped : ((name :: after).removeAll before).eraseDups.filter
      (fun earlier => (before ++ name :: after).idxOf earlier < before.length) = [] := by
    refine List.filter_eq_nil_iff.mpr fun later member => ?_
    have unused : later ∉ before := by
      have left := List.mem_eraseDups.mp member
      simp only [List.removeAll, List.mem_filter] at left
      simpa using left.2
    simp [List.idxOf_append, unused]
  rw [kept, dropped, List.append_nil]

/-- The table places every name where the closed form has it. -/
theorem placeIn_eq {names : List String} {name : String} (known : name ∈ names) :
    NameTable.placeIn names name = referencePlace names name := by
  rw [NameTable.placeIn, NameTable.length_image, eraseDups_takeWhile known, referencePlace,
    storedSize]

/-! ## Records -/

/-- The numbers of the entry of a device that is not wide are those of its table. -/
theorem Device.zip_values_entry {device : Device} (narrow : ¬device.Wide) (place : UInt32) :
    Entry.fields.zip (device.entry place).values = device.recordTable place.toNat := by
  obtain ⟨lane, priority⟩ := not_wide_iff.mp narrow
  simp only [Entry.zip_values, entry, recordTable, UInt32.toNat_ofNat_of_lt' lane,
    UInt32.toNat_ofNat_of_lt' priority]

/-- The entry of a device that is not wide is stored as its record. -/
theorem Device.encode_entry {device : Device} (narrow : ¬device.Wide) (place : UInt32) :
    (device.entry place).encode = device.referenceRecord place.toNat := by
  rw [Entry.encode, encodeRecord, zip_values_entry narrow, referenceRecord]

/-- The bytes of a header of the current signature and revision. -/
theorem Header.encode_current (entriesCount nameListOffset flags : UInt32) :
    (Header.current entriesCount nameListOffset flags).encode =
      signatureBytes ++ LittleEndian.encode 4 1 ++ LittleEndian.encode 4 flags.toNat ++
        LittleEndian.encode 4 entriesCount.toNat ++
        LittleEndian.encode 4 nameListOffset.toNat := by
  have signature : LittleEndian.encode 8 currentSignature.toNat = signatureBytes := by decide
  have revision : currentRevision.toNat = 1 := rfl
  simp only [encode, encodeRecord, values, current, fields, List.zip_cons_cons, List.zip_nil_left,
    List.flatMap_cons, List.flatMap_nil, List.append_nil, signatureField, revisionField,
    flagsField, entriesCountField, nameListOffsetField, signature, revision, List.append_assoc]

namespace Compiles

variable {devices : List Device} {config : Config} {device : Device} {index : Nat}

/-- The place that the entry of a device refers to. -/
theorem toNat_place (compiles : Compiles devices config) (member : device ∈ devices) :
    (UInt32.ofNat (NameTable.placeIn (devices.map Device.name) device.name)).toNat =
      referencePlace (devices.map Device.name) device.name := by
  rw [compiles.toNat_placeIn member, placeIn_eq (List.mem_map_of_mem member)]

/-- The entries are stored as the records of the devices. -/
theorem flatMap_entriesOf (compiles : Compiles devices config) :
    (entriesOf devices).flatMap Entry.encode = devices.flatMap fun device =>
      device.referenceRecord (referencePlace (devices.map Device.name) device.name) := by
  rw [entriesOf, List.flatMap_map, List.flatMap_def, List.flatMap_def]
  refine congrArg List.flatten (List.map_congr_left fun device member => ?_)
  rw [Device.encode_entry (compiles.not_wide member), compiles.toNat_place member]

/-- The header of the blob of a list. -/
theorem encode_headerOf (compiles : Compiles devices config) :
    (headerOf devices config).encode = Header.signatureBytes ++ LittleEndian.encode 4 1 ++
      LittleEndian.encode 4 config.headerFlags.toNat ++ LittleEndian.encode 4 devices.length ++
      LittleEndian.encode 4 (24 + 72 * devices.length) := by
  have position := Layout.nameListOffset_of_header compiles.header
  have counted := Layout.entriesCount_of_header compiles.header
  rw [headerOf] at position counted ⊢
  rw [Header.encode_current]
  change (UInt32.ofNat devices.length).toNat = devices.length at counted
  change (UInt32.ofNat (Header.size + Entry.size * devices.length)).toNat =
    24 + 72 * devices.length at position
  rw [counted, position]

/-- The blob of a list is the closed form. -/
theorem blobBytes_eq (compiles : Compiles devices config) :
    blobBytes devices config = referenceBytes devices config := by
  rw [blobBytes, Layout.assemble, compiles.flatMap_entriesOf, compiles.encode_headerOf,
    referenceBytes]
  rfl

/-- The length of the blob of a list. -/
theorem length_blobBytes (devices : List Device) (config : Config) :
    (blobBytes devices config).length =
      24 + 72 * devices.length + storedSize (devices.map Device.name).eraseDups := by
  rw [blobBytes, Layout.assemble, List.length_append, List.length_append, Header.length_encode,
    length_entries, NameTable.length_image, storedSize, Header.size, Entry.size]

/-- Every number of every device stands at the place of its field in the record of the device, and
fits there. -/
theorem slice?_blobBytes (compiles : Compiles devices config)
    (found : devices[index]? = some device) {field : Field} {number : Nat}
    (listed : (field, number) ∈
      device.recordTable (referencePlace (devices.map Device.name) device.name)) :
    number < 256 ^ field.width ∧
    slice? (blobBytes devices config) (24 + 72 * index + field.offset)
      (24 + 72 * index + field.stop) = some (LittleEndian.encode field.width number) := by
  obtain ⟨inside, here⟩ := List.getElem?_eq_some_iff.mp found
  have member : device ∈ devices := List.mem_of_getElem? found
  let entry := device.entry
    (UInt32.ofNat (NameTable.placeIn (devices.map Device.name) device.name))
  have values : (field, number) ∈ Entry.fields.zip entry.values := by
    rwa [Device.zip_values_entry (compiles.not_wide member), compiles.toNat_place member]
  have within : field.stop ≤ Entry.size :=
    Field.stop_le_of_packed Entry.packed_fields (List.of_mem_zip values).1
  have insideEntries : index < (entriesOf devices).length := by
    rwa [entriesOf, List.length_map]
  have record : (entriesOf devices)[index] = entry := by
    simp [entriesOf, here, entry]
  have reached : index * Entry.size + field.stop ≤
      ((entriesOf devices).flatMap Entry.encode).length := by
    rw [length_entries]
    simp only [Entry.size] at within ⊢
    omega
  refine ⟨entry.values_fit _ values, ?_⟩
  have start : 24 + 72 * index + field.offset =
      (headerOf devices config).encode.length + (index * Entry.size + field.offset) := by
    rw [Header.length_encode, Header.size, Entry.size]
    omega
  have stop : 24 + 72 * index + field.stop =
      (headerOf devices config).encode.length + (index * Entry.size + field.stop) := by
    rw [Header.length_encode, Header.size, Entry.size]
    omega
  rw [start, stop, blobBytes, Layout.assemble, slice?_append_middle _ _ _ _ reached,
    slice?_flatMap Entry.length_encode _ insideEntries _ within, record]
  exact Field.slice?_encodeRecord Entry.packed_fields [] rfl values

/-- The records of two devices have one name offset exactly when the devices have one name. -/
theorem slice?_nameOffset_eq_iff (compiles : Compiles devices config) {other : Device}
    {second : Nat} (found : devices[index]? = some device)
    (foundOther : devices[second]? = some other) :
    slice? (blobBytes devices config) (24 + 72 * index + Entry.nameOffsetField.offset)
        (24 + 72 * index + Entry.nameOffsetField.stop) =
      slice? (blobBytes devices config) (24 + 72 * second + Entry.nameOffsetField.offset)
        (24 + 72 * second + Entry.nameOffsetField.stop) ↔
    device.name = other.name := by
  have listed (device : Device) (place : Nat) :
      (Entry.nameOffsetField, place) ∈ device.recordTable place := by
    simp [Device.recordTable]
  obtain ⟨fits, here⟩ := compiles.slice?_blobBytes found (listed device _)
  obtain ⟨fitsOther, there⟩ := compiles.slice?_blobBytes foundOther (listed other _)
  have known : device.name ∈ devices.map Device.name :=
    List.mem_map_of_mem (List.mem_of_getElem? found)
  have knownOther : other.name ∈ devices.map Device.name :=
    List.mem_map_of_mem (List.mem_of_getElem? foundOther)
  rw [here, there, Option.some.injEq, LittleEndian.encode_inj fits fitsOther,
    ← placeIn_eq known, ← placeIn_eq knownOther, NameTable.placeIn_inj known]

end Compiles

/-- A compiled blob is the closed form byte for byte, and the numbers of its header words are not
reduced. Every number of every device stands, unreduced, at the place of its field in the record at
the device's position. Two records have one name offset exactly when their devices have one name. -/
theorem compile_layout {devices : List Device} {config : Config} {blob : Blob}
    (compiled : compile devices config = .ok blob) :
    blob.bytes = referenceBytes devices config ∧
    blob.size = 24 + 72 * devices.length + storedSize (devices.map Device.name).eraseDups ∧
    24 + 72 * devices.length < UInt32.size ∧
    (∀ index device, devices[index]? = some device →
      ∀ part ∈ device.recordTable (referencePlace (devices.map Device.name) device.name),
        part.2 < 256 ^ part.1.width ∧
        slice? blob.bytes (24 + 72 * index + part.1.offset) (24 + 72 * index + part.1.stop) =
          some (LittleEndian.encode part.1.width part.2)) ∧
    ∀ (first second : Nat) (device other : Device),
      devices[first]? = some device → devices[second]? = some other →
      (slice? blob.bytes (24 + 72 * first + Entry.nameOffsetField.offset)
          (24 + 72 * first + Entry.nameOffsetField.stop) =
        slice? blob.bytes (24 + 72 * second + Entry.nameOffsetField.offset)
          (24 + 72 * second + Entry.nameOffsetField.stop) ↔
        device.name = other.name) := by
  obtain ⟨compiles, bytes⟩ := compile_eq_ok_iff.mp compiled
  rw [Blob.size, bytes]
  refine ⟨compiles.blobBytes_eq, Compiles.length_blobBytes devices config, compiles.small, ?_, ?_⟩
  · intro index device found part listed
    exact compiles.slice?_blobBytes found listed
  · intro first second device other found foundOther
    exact compiles.slice?_nameOffset_eq_iff found foundOther

/-- The layout for names of which two are equal: the two records share an offset, and the record
between them has another one. -/
theorem compile_layout_namesakes :
    ∃ blob, compile namesakes {} = .ok blob ∧ blob.bytes = referenceBytes namesakes {} ∧
      blob.size = 245 ∧
      slice? blob.bytes 60 64 = slice? blob.bytes 204 208 ∧
      slice? blob.bytes 60 64 ≠ slice? blob.bytes 132 136 := by
  obtain ⟨bytes, size, _, _, offsets⟩ := compile_layout compile_namesakes
  refine ⟨_, compile_namesakes, bytes, size, (offsets 0 2 _ _ rfl rfl).mpr rfl, ?_⟩
  intro same
  have equal := (offsets 0 1 _ _ rfl rfl).mp same
  exact absurd equal (by decide)

end BoardBlob
