import BoardBlob.Proofs.CompiledLookup
import BoardBlob.Proofs.DecodedDevices
import BoardBlob.Proofs.ReferenceLayout

/-!
# Compiling what a blob was decompiled to

A blob that decompiles need not have been compiled: its names may overlap, repeat or be followed by
bytes that no entry refers to. `Decoded` relates such a blob to its devices. Compiling the devices
again keeps the header and every record but for the place of the name (`Decoded.entriesOf_eq`), and
lays the names out anew. So the blobs that a compilation leaves as they are, and hence the blobs
that come from one at all, are those whose names are laid out that way (`recompile_decoded`).
-/
namespace BoardBlob

/-- Two lists have one image exactly when their items agree in pairs. -/
theorem map_eq_map_iff_forall₂ {α β γ : Type} {f : α → γ} {g : β → γ} {first : List α}
    {second : List β} :
    first.map f = second.map g ↔ List.Forall₂ (fun item other => f item = g other) first second := by
  rw [← List.forall₂_eq_eq_eq, List.forall₂_map_left_iff, List.forall₂_map_right_iff]

/-! ## Entries that stand for devices -/

/-- An entry that stands for a device is readable and shows that device. -/
theorem shows_of_deviceOf {entry : Except LoadFault LoadedDevice} {device : Device}
    (stands : deviceOf entry = .ok device) :
    ∃ loaded, entry = .ok loaded ∧ loaded.Shows device := by
  cases entry with
  | error fault => simp [deviceOf] at stands
  | ok loaded =>
    refine ⟨loaded, rfl, ?_⟩
    cases known : loaded.entry.kind? with
    | none => simp [deviceOf, LoadedDevice.kind, known, Except.map] at stands
    | some kind =>
      simp only [deviceOf, LoadedDevice.kind, known, Except.map, Except.ok.injEq] at stands
      subst stands
      exact {
        name := rfl
        typeTag := (DeviceKind.tag_of_ofTag? known).symm
        flags := rfl
        regionBase := rfl
        regionSize := rfl
        irqLane := (UInt64.toNat_ofNat_of_lt' (Nat.lt_trans loaded.entry.irqLane.toNat_lt
          (by decide))).symm
        irqFlags := rfl
        irqPriority := (UInt64.toNat_ofNat_of_lt' (Nat.lt_trans loaded.entry.irqPriority.toNat_lt
          (by decide))).symm
        aux := rfl }

/-- Entries that stand for devices are readable one and all, and each shows the device at its
position. -/
theorem forall₂_shows_of_devicesOf {entries : List (Except LoadFault LoadedDevice)}
    {devices : List Device} (decoded : devicesOf entries = .ok devices) :
    ∃ loaded, entries = loaded.map .ok ∧ List.Forall₂ LoadedDevice.Shows loaded devices := by
  rw [devicesOf_eq_ok_iff, map_eq_map_iff_forall₂] at decoded
  induction decoded with
  | nil => exact ⟨[], rfl, .nil⟩
  | cons stands _ ih =>
    obtain ⟨loaded, rfl, shows⟩ := shows_of_deviceOf stands
    obtain ⟨more, rfl, later⟩ := ih
    exact ⟨loaded :: more, rfl, .cons shows later⟩

namespace LoadedDevice.Shows

variable {loaded : LoadedDevice} {device : Device}

/-- A device that an entry shows is not wide. -/
theorem not_wide (shows : loaded.Shows device) : ¬device.Wide := by
  rw [Device.not_wide_iff, ← shows.irqLane, ← shows.irqPriority]
  exact ⟨loaded.entry.irqLane.toNat_lt_size, loaded.entry.irqPriority.toNat_lt_size⟩

/-- Encoding a device gives the entry that shows it, but for the place of the name. -/
theorem entry_eq (shows : loaded.Shows device) (place : UInt32) :
    device.entry place = { loaded.entry with nameOffset := place } := by
  simp only [Device.entry, ← shows.typeTag, ← shows.flags, ← shows.regionBase, ← shows.regionSize,
    ← shows.irqLane, ← shows.irqFlags, ← shows.irqPriority, ← shows.aux, UInt32.ofNat_toNat]

end LoadedDevice.Shows

/-! ## Decoded blobs -/

/-- A blob whose entries are all readable, with the devices that they show. -/
structure Decoded (view : BlobView) (loaded : List LoadedDevice) (devices : List Device) :
    Prop where
  /-- The blob is accepted. -/
  accepted : view.Accepted
  /-- The bytes are those of the header, of the entries that were read, and of the names. -/
  parts : view.bytes = Layout.assemble view.header
    ((loaded.map LoadedDevice.entry).flatMap Entry.encode) view.nameTable
  /-- Every entry is readable. -/
  entries : view.entries = loaded.map .ok
  /-- Every entry shows the device at its position. -/
  shows : List.Forall₂ LoadedDevice.Shows loaded devices

/-- The entries that a blob was put together from are those of its loaded devices. -/
theorem entries_of_ofParts {stored : List Entry} {loaded : List LoadedDevice} {flags : UInt32}
    {header : Header} {names : List UInt8}
    (made : Layout.header stored.length flags = .ok header)
    (readable : (BlobView.ofParts header (stored.flatMap Entry.encode) names).entries =
      loaded.map .ok) : stored = loaded.map LoadedDevice.entry := by
  rw [BlobView.entries_eq_map (BlobView.size_ofParts made) fun _ _ here =>
      BlobView.get_ofParts made here, map_eq_map_iff_forall₂] at readable
  rw [← List.map_id stored, map_eq_map_iff_forall₂]
  refine readable.imp fun entry found read => ?_
  cases named : (BlobView.ofParts header (stored.flatMap Entry.encode) names).nameAt
      entry.nameOffset with
  | error fault => simp [named, Except.map] at read
  | ok name =>
    rw [named] at read
    cases read
    rfl

/-- A blob that decompiles to devices is one whose entries show them. -/
theorem exists_decoded {bytes : List UInt8} {devices : List Device}
    (decompiled : decompile bytes = .ok devices) :
    ∃ view loaded, BlobView.parse bytes = .ok view ∧ Decoded view loaded devices := by
  cases parsed : BlobView.parse bytes with
  | error fault => simp [decompile, parsed] at decompiled
  | ok view =>
    rw [decompile, parsed] at decompiled
    obtain ⟨loaded, entries, shows⟩ := forall₂_shows_of_devicesOf decompiled
    obtain ⟨stored, counted, parts⟩ := BlobView.exists_parts parsed
    obtain ⟨_, _, accepted⟩ := BlobView.parse_eq_ok_iff.mp parsed
    have made : Layout.header stored.length view.header.flags = .ok view.header :=
      counted.symm ▸ accepted.header_eq
    obtain rfl : stored = loaded.map LoadedDevice.entry :=
      entries_of_ofParts made (parts ▸ entries)
    exact ⟨view, loaded, rfl, accepted, congrArg BlobView.bytes parts, entries, shows⟩

namespace Decoded

variable {view : BlobView} {loaded : List LoadedDevice} {devices : List Device} {config : Config}

/-- A blob holds as many devices as it has entries. -/
theorem length_eq (decoded : Decoded view loaded devices) : devices.length = view.size := by
  rw [← decoded.shows.length_eq]
  simpa [BlobView.entries] using (congrArg List.length decoded.entries).symm

/-- The entry at the position of a device shows that device. -/
theorem exists_shown (decoded : Decoded view loaded devices) {index : Nat} {device : Device}
    (here : devices[index]? = some device) :
    ∃ found, loaded[index]? = some found ∧ found.Shows device := by
  obtain ⟨inside, rfl⟩ := List.getElem?_eq_some_iff.mp here
  have insideLoaded : index < loaded.length := decoded.shows.length_eq ▸ inside
  exact ⟨loaded[index], List.getElem?_eq_getElem insideLoaded,
    decoded.shows.get insideLoaded inside⟩

/-- Of the devices of a blob, none is wide and there are not too many, so that they have a blob as
soon as they are accepted and their names fit. -/
theorem compiles (decoded : Decoded view loaded devices)
    (valid : validateAll devices config = .ok ())
    (addressable : storedSize (devices.map Device.name).eraseDups < UInt32.size) :
    Compiles devices config where
  valid := validateAll_eq_ok_iff.mp valid
  stored := by
    rw [NameTable.length_image]
    exact addressable
  narrow index device here := by
    obtain ⟨_, _, shows⟩ := decoded.exists_shown here
    exact shows.not_wide
  small := by
    obtain ⟨small, _⟩ := Layout.header_eq_ok_iff.mp decoded.accepted.header_eq
    rwa [decoded.length_eq]

/-- Compiling the devices of a blob with the flags of the blob gives its header. -/
theorem header_eq (decoded : Decoded view loaded devices)
    (flags : config.headerFlags = view.header.flags) : headerOf devices config = view.header := by
  obtain ⟨_, current⟩ := Layout.header_eq_ok_iff.mp decoded.accepted.header_eq
  rw [headerOf, decoded.length_eq, flags, ← current]

/-- Compiling the devices of a blob gives its entries, each with the place that the name has in the
new table. -/
theorem entriesOf_eq (decoded : Decoded view loaded devices) :
    entriesOf devices = loaded.map fun found =>
      { found.entry with
        nameOffset := UInt32.ofNat (NameTable.placeIn (devices.map Device.name) found.name) } := by
  symm
  rw [entriesOf, map_eq_map_iff_forall₂]
  refine decoded.shows.imp fun found device shows => ?_
  rw [shows.name, shows.entry_eq]

/-- The record of an entry, in the blob and in the one that its devices are compiled to: the two
differ in the place of the name only. -/
theorem exists_records (decoded : Decoded view loaded devices) {index : Nat}
    (inside : index < devices.length) :
    ∃ record again,
      slice? view.bytes (Header.size + index * Entry.size)
        (Header.size + index * Entry.size + Entry.size) = some record ∧
      slice? (blobBytes devices config) (Header.size + index * Entry.size)
        (Header.size + index * Entry.size + Entry.size) = some again ∧
      again.take Entry.nameOffsetField.offset = record.take Entry.nameOffsetField.offset ∧
      again.drop Entry.nameOffsetField.stop = record.drop Entry.nameOffsetField.stop := by
  obtain ⟨found, here, shows⟩ := decoded.exists_shown (List.getElem?_eq_getElem inside)
  have stored : (loaded.map LoadedDevice.entry)[index]? = some found.entry := by
    rw [List.getElem?_map, here, Option.map_some]
  have compiled := Compiles.getElem?_entriesOf (List.getElem?_eq_getElem inside)
  obtain ⟨front, back⟩ := found.entry.encode_nameOffset
    (loadedOf devices devices[index]).entry.nameOffset
  have entry : (loadedOf devices devices[index]).entry =
      { found.entry with nameOffset := (loadedOf devices devices[index]).entry.nameOffset } :=
    shows.entry_eq _
  rw [← entry] at front back
  exact ⟨_, _, decoded.parts ▸ BlobView.slice?_assemble_of_getElem? stored,
    BlobView.slice?_assemble_of_getElem? compiled, front, back⟩

/-- Every name that the blob has is the name of a device. -/
theorem mem_names (decoded : Decoded view loaded devices) {found : LoadedDevice}
    (member : found ∈ loaded) : found.name ∈ devices.map Device.name := by
  have names : loaded.map LoadedDevice.name = devices.map Device.name :=
    map_eq_map_iff_forall₂.mpr (decoded.shows.imp fun _ _ shows => shows.name)
  exact names ▸ List.mem_map_of_mem member

/-- Compiling the devices of a blob gives its entries exactly when every name is where the new table
has it. -/
theorem entriesOf_eq_iff (decoded : Decoded view loaded devices)
    (compiles : Compiles devices config) :
    entriesOf devices = loaded.map LoadedDevice.entry ↔ ∀ found ∈ loaded,
      found.entry.nameOffset.toNat =
        referencePlace (devices.map Device.name) found.name := by
  rw [decoded.entriesOf_eq, List.map_inj_left]
  refine forall₂_congr fun found member => ?_
  obtain ⟨device, listed, named⟩ := List.mem_map.mp (decoded.mem_names member)
  rw [← named, ← compiles.toNat_place listed, UInt32.toNat_inj]
  constructor
  · exact fun same => (congrArg Entry.nameOffset same).symm
  · intro same
    rw [← same]

/-- Compiling the devices of a blob gives the bytes of the blob exactly when its name table holds
their different names and nothing else, and every name is where that table has it. -/
theorem blobBytes_eq_iff (decoded : Decoded view loaded devices)
    (compiles : Compiles devices config) (flags : config.headerFlags = view.header.flags) :
    blobBytes devices config = view.bytes ↔
      view.nameTable = (devices.map Device.name).eraseDups.flatMap NameTable.stored ∧
      ∀ found ∈ loaded, found.entry.nameOffset.toNat =
        referencePlace (devices.map Device.name) found.name := by
  have lengths : ((entriesOf devices).flatMap Entry.encode).length =
      ((loaded.map LoadedDevice.entry).flatMap Entry.encode).length := by
    rw [decoded.entriesOf_eq, length_flatMap_of_sized Entry.length_encode,
      length_flatMap_of_sized Entry.length_encode, List.length_map, List.length_map]
  rw [← decoded.entriesOf_eq_iff compiles, ← Entry.flatMap_encode_inj, decoded.parts, blobBytes,
    decoded.header_eq flags, Layout.assemble, Layout.assemble, List.append_assoc, List.append_assoc,
    List.append_cancel_left_eq, NameTable.image]
  constructor
  · intro same
    obtain ⟨records, names⟩ := List.append_inj same lengths
    exact ⟨names.symm, records⟩
  · rintro ⟨names, records⟩
    rw [names, records]

end Decoded

/-- Compiling again what a blob was decompiled to. The blob may come from anywhere: its names may
overlap, repeat, or be followed by further bytes. If its devices are accepted and their names fit,
then the new blob has the header of the old one and, but for the place of the name, every record.
It holds the same devices. It is the old blob exactly when the old name table is that of the
different names in the order of first use, and every name is referred to where that table has it. -/
theorem recompile_decoded {bytes : List UInt8} {devices : List Device}
    (decompiled : decompile bytes = .ok devices) :
    ∃ view loaded, BlobView.parse bytes = .ok view ∧ view.entries = loaded.map .ok ∧
      List.Forall₂ LoadedDevice.Shows loaded devices ∧
      ∀ config : Config, config.headerFlags = view.header.flags →
        validateAll devices config = .ok () →
        storedSize (devices.map Device.name).eraseDups < UInt32.size →
        ∃ blob, compile devices config = .ok blob ∧
          (∃ header, slice? bytes 0 24 = some header ∧ slice? blob.bytes 0 24 = some header) ∧
          (∀ index < devices.length, ∃ record again,
            slice? bytes (24 + 72 * index) (24 + 72 * index + 72) = some record ∧
            slice? blob.bytes (24 + 72 * index) (24 + 72 * index + 72) = some again ∧
            again.take 36 = record.take 36 ∧ again.drop 40 = record.drop 40) ∧
          decompile blob.bytes = .ok devices ∧
          (blob.bytes = bytes ↔
            view.nameTable = (devices.map Device.name).eraseDups.flatMap
              (fun name => Utf8.bytes name ++ [0]) ∧
            ∀ found ∈ loaded, found.entry.nameOffset.toNat =
              referencePlace (devices.map Device.name) found.name) := by
  obtain ⟨view, loaded, parsed, decoded⟩ := exists_decoded decompiled
  obtain ⟨rfl, _⟩ := BlobView.parse_eq_ok_iff.mp parsed
  refine ⟨view, loaded, parsed, decoded.entries, decoded.shows, ?_⟩
  intro config flags valid addressable
  have compiles := decoded.compiles valid addressable
  refine ⟨_, compiles.compile_eq, ?header, ?records, compiles.decompile_eq,
    decoded.blobBytes_eq_iff compiles flags⟩
  case header =>
    refine ⟨view.header.encode, decoded.parts ▸ BlobView.slice?_header _ _ _, ?_⟩
    rw [← decoded.header_eq flags]
    exact BlobView.slice?_header _ _ _
  case records =>
    intro index inside
    have start : 24 + 72 * index = Header.size + index * Entry.size := by
      rw [Header.size, Entry.size, Nat.mul_comm]
    rw [start]
    exact decoded.exists_records inside

/-- A blob that no compilation gives: the second name is the end of the first, and the table goes on
after both. -/
def overlappingBytes : List UInt8 :=
  Layout.assemble (.current 2 168 7)
    ([{ typeTag := 6, irqLane := 33 }, { typeTag := 6, nameOffset := 1 }].flatMap Entry.encode)
    [0x61, 0x62, 0, 0xff]

/-- Compiling again the devices of a blob whose names overlap gives another blob, with the same
header and the same devices. -/
theorem recompile_decoded_overlapping :
    ∃ devices blob, decompile overlappingBytes = .ok devices ∧
      devices.map Device.name = ["ab", "b"] ∧
      compile devices { headerFlags := 7 } = .ok blob ∧
      slice? blob.bytes 0 24 = slice? overlappingBytes 0 24 ∧
      decompile blob.bytes = .ok devices ∧ blob.bytes ≠ overlappingBytes := by
  have decompiled : decompile overlappingBytes = .ok
      [{ kind := .rtc, name := "ab", irqLane := 33 }, { kind := .rtc, name := "b" }] := by
    decide +kernel
  obtain ⟨view, loaded, parsed, _, _, recompiled⟩ := recompile_decoded decompiled
  have flags : (7 : UInt32) = view.header.flags := by
    have header : (BlobView.parse overlappingBytes).toOption.map (fun view => view.header.flags) =
        some 7 := by decide +kernel
    rw [parsed] at header
    exact (Option.some.inj header).symm
  have table : view.nameTable = [0x61, 0x62, 0, 0xff] := by
    have names : (BlobView.parse overlappingBytes).toOption.map BlobView.nameTable =
        some [0x61, 0x62, 0, 0xff] := by decide +kernel
    rw [parsed] at names
    exact Option.some.inj names
  obtain ⟨blob, compiled, ⟨header, old, new⟩, _, again, same⟩ :=
    recompiled { headerFlags := 7 } flags (by decide +kernel) (by decide +kernel)
  refine ⟨_, blob, decompiled, rfl, compiled, new.trans old.symm, again, fun equal => ?_⟩
  obtain ⟨names, _⟩ := same.mp equal
  rw [table] at names
  exact absurd names (by decide +kernel)

end BoardBlob
