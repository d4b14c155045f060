import BoardBlob.Blob.Compile
import BoardBlob.Proofs.AssembledView
import BoardBlob.Proofs.FirstFault
import BoardBlob.Proofs.StoredNames

/-!
# The stages of a compilation

What each stage does with a whole list, once as its result and once as its first fault: validation,
the names, the entries, the header. `compile_eq_ok_iff` puts the stages together: a list compiles
exactly under four conditions (`Compiles`), and then to the bytes of `blobBytes`.
-/
namespace BoardBlob

/-! ## Validation -/

/-- The device may not be encoded when it stands at this position of its list. -/
def Device.Refused (config : Config) (index : Nat) (device : Device) : Prop :=
  ∃ fault, device.validate index config = .error fault

/-- A device is either refused or accepted. -/
theorem Device.not_refused_iff {config : Config} {index : Nat} {device : Device} :
    ¬device.Refused config index ↔ device.validate index config = .ok () := by
  cases checked : device.validate index config with
  | error fault => simp [Refused, checked]
  | ok => simp [Refused, checked]

/-- A list is refused for its first refused device. -/
theorem validateFrom_of_firstAt {config : Config} {index : Nat} {devices : List Device}
    {device : Device} (start : Nat)
    (first : FirstAt (fun position => Device.Refused config (start + position)) devices index
      device) :
    validateFrom config start devices = device.validate (start + index) config := by
  induction devices generalizing start index with
  | nil => exact absurd first.here (by simp)
  | cons head rest ih =>
    cases index with
    | zero =>
      obtain rfl : head = device := Option.some.inj first.here
      obtain ⟨fault, refused⟩ := first.fault
      rw [Nat.add_zero] at refused ⊢
      rw [validateFrom, refused]
    | succ index =>
      obtain ⟨pass, later⟩ := first.tail
      have checked : head.validate start config = .ok () := Device.not_refused_iff.mp pass
      have shifted : start + (index + 1) = start + 1 + index := by omega
      rw [validateFrom, checked, shifted]
      refine ih (start + 1) ?_
      simpa [Nat.add_assoc, Nat.add_comm 1] using later

/-- A list of devices that each pass is accepted. -/
theorem validateFrom_of_noneFails {config : Config} {devices : List Device} (start : Nat)
    (pass : NoneFails (fun position => Device.Refused config (start + position)) devices) :
    validateFrom config start devices = .ok () := by
  induction devices generalizing start with
  | nil => rfl
  | cons head rest ih =>
    obtain ⟨atHead, later⟩ := NoneFails.cons_iff.mp pass
    have checked : head.validate start config = .ok () := Device.not_refused_iff.mp atHead
    rw [validateFrom, checked]
    refine ih (start + 1) ?_
    simpa [Nat.add_assoc, Nat.add_comm 1] using later

/-- A list with a refused device is refused for the first one. -/
theorem validateAll_of_firstAt {config : Config} {devices : List Device} {index : Nat}
    {device : Device} (first : FirstAt (Device.Refused config) devices index device) :
    validateAll devices config = device.validate index config := by
  rw [validateAll, validateFrom_of_firstAt 0 (by simpa using first), Nat.zero_add]

/-- A list is accepted exactly when every device passes at its position. -/
theorem validateAll_eq_ok_iff {config : Config} {devices : List Device} :
    validateAll devices config = .ok () ↔ NoneFails (Device.Refused config) devices := by
  constructor
  · intro accepted
    refine (FirstAt.exists_or_noneFails _ devices).resolve_left ?_
    rintro ⟨index, device, first⟩
    obtain ⟨fault, refused⟩ := first.fault
    rw [validateAll_of_firstAt first, refused] at accepted
    contradiction
  · exact fun pass => validateFrom_of_noneFails 0 (by simpa using pass)

/-! ## Names -/

section Names

open NameTable

variable {table : NameTable} {seen : List String}

/-- Storing the names of a list succeeds when all of them fit, and gives each device the place of
its name. The table may have met other names before. -/
theorem internNames_of_fits (holds : table.Holds seen) (start : Nat) (devices : List Device)
    (fits : (image (seen ++ devices.map Device.name)).length < UInt32.size) :
    ∃ complete,
      internNames table start devices = .ok (devices.map fun device =>
        UInt32.ofNat (placeIn (seen ++ devices.map Device.name) device.name), complete) ∧
      complete.Holds (seen ++ devices.map Device.name) := by
  -- `Holds` goes from device to device; the names before the current one are in `seen`.
  induction devices generalizing table seen start with
  | nil => exact ⟨table, rfl, by simpa using holds⟩
  | cons device rest ih =>
    have joined : seen ++ (device :: rest).map Device.name =
        (seen ++ [device.name]) ++ rest.map Device.name := by simp
    rw [joined] at fits ⊢
    have fitsHead := Nat.lt_of_le_of_lt (length_image_le _ _) fits
    obtain ⟨grown, interned, holdsGrown⟩ := holds.intern fitsHead
    obtain ⟨complete, stored, holdsAll⟩ := ih holdsGrown (start + 1) fits
    refine ⟨complete, ?_, holdsAll⟩
    -- The place of this name does not move while the later names are stored.
    have known : device.name ∈ seen ++ [device.name] := by simp
    rw [internNames, interned]
    simp only [stored, List.map_cons, placeIn_append_of_mem known]

/-- Storing the names of a list fails when not all of them fit. -/
theorem internNames_of_large (holds : table.Holds seen) (start : Nat) (devices : List Device)
    (large : UInt32.size ≤ (image (seen ++ devices.map Device.name)).length) :
    ∃ fault, internNames table start devices = .error fault := by
  induction devices generalizing table seen start with
  | nil =>
    have fits := holds.fits
    simp only [List.map_nil, List.append_nil] at large
    omega
  | cons device rest ih =>
    rw [internNames]
    by_cases fits : (image (seen ++ [device.name])).length < UInt32.size
    · obtain ⟨grown, interned, holdsGrown⟩ := holds.intern fits
      have larger : UInt32.size ≤
          (image ((seen ++ [device.name]) ++ rest.map Device.name)).length := by simpa using large
      obtain ⟨fault, failed⟩ := ih holdsGrown (start + 1) larger
      simp [interned, failed]
    · simp [holds.intern_eq_none (Nat.not_lt.mp fits)]

end Names

/-! ## Entries -/

namespace Device

/-- A number of the device does not fit the 32 bits that an entry has for it. -/
def Wide (device : Device) : Prop :=
  UInt32.size ≤ device.irqLane.toNat ∨ UInt32.size ≤ device.irqPriority.toNat

/-- A device is not wide when both numbers fit. -/
theorem not_wide_iff {device : Device} : ¬device.Wide ↔
    device.irqLane.toNat < UInt32.size ∧ device.irqPriority.toNat < UInt32.size := by
  rw [Wide, not_or, Nat.not_le, Nat.not_le]

/-- The fault of a wide device: its interrupt line if that is too large, else its priority. -/
def wideFault (index : Nat) (device : Device) : CompileFault :=
  if UInt32.size ≤ device.irqLane.toNat then
    .encodingOverflow index device.name Entry.irqLaneField.name device.irqLane.toNat
  else .encodingOverflow index device.name Entry.irqPriorityField.name device.irqPriority.toNat

/-- The entry of a device that is not wide. -/
def entry (device : Device) (nameOffset : UInt32) : Entry where
  typeTag := device.kind.tag
  flags := device.flags
  regionBase := device.regionBase
  regionSize := device.regionSize
  irqLane := UInt32.ofNat device.irqLane.toNat
  irqFlags := device.irqFlags
  irqPriority := UInt32.ofNat device.irqPriority.toNat
  nameOffset := nameOffset
  aux := device.aux

/-- A number that fits its field is stored as it is. -/
theorem narrow_of_lt {value : UInt64} (fits : value.toNat < UInt32.size) (index : Nat)
    (device : Device) (field : Field) :
    device.narrow index field value = .ok (UInt32.ofNat value.toNat) := by
  rw [narrow, if_pos fits]

/-- A number that is too large for its field is reported as it is. -/
theorem narrow_of_le {value : UInt64} (large : UInt32.size ≤ value.toNat) (index : Nat)
    (device : Device) (field : Field) : device.narrow index field value =
      .error (.encodingOverflow index device.name field.name value.toNat) := by
  rw [narrow, if_neg (Nat.not_lt.mpr large)]

/-- A wide device has no entry. -/
theorem encode_of_wide {device : Device} (wide : device.Wide) (index : Nat)
    (nameOffset : UInt32) : device.encode index nameOffset = .error (device.wideFault index) := by
  by_cases lane : UInt32.size ≤ device.irqLane.toNat
  · rw [encode, narrow_of_le lane, wideFault, if_pos lane]
    rfl
  · have priority := wide.resolve_left lane
    rw [encode, narrow_of_lt (Nat.not_le.mp lane), narrow_of_le priority, wideFault, if_neg lane]
    rfl

/-- A device that is not wide is encoded as its entry. -/
theorem encode_of_not_wide {device : Device} (narrow : ¬device.Wide) (index : Nat)
    (nameOffset : UInt32) : device.encode index nameOffset = .ok (device.entry nameOffset) := by
  obtain ⟨lane, priority⟩ := not_wide_iff.mp narrow
  rw [encode, narrow_of_lt lane, narrow_of_lt priority]
  rfl

end Device

section Entries

variable {devices : List Device} {device : Device} {index : Nat}

/-- Encoding a list stops at its first wide device. -/
theorem encodeEntries_of_firstAt (buffer : EntryBuffer) (place : Device → UInt32) (start : Nat)
    (first : FirstAt (fun _ => Device.Wide) devices index device) :
    encodeEntries buffer start (devices.map fun device => (device, place device)) =
      .error (device.wideFault (start + index)) := by
  induction devices generalizing buffer start index with
  | nil => exact absurd first.here (by simp)
  | cons head rest ih =>
    rw [List.map_cons, encodeEntries]
    cases index with
    | zero =>
      obtain rfl : head = device := Option.some.inj first.here
      simp [EntryBuffer.push, Device.encode_of_wide first.fault, Except.map]
    | succ index =>
      obtain ⟨narrow, later⟩ := first.tail
      have shifted : start + (index + 1) = start + 1 + index := by omega
      simp only [EntryBuffer.push, Device.encode_of_not_wide narrow, Except.map]
      rw [shifted]
      exact ih _ (start + 1) later

/-- Encoding a list without wide devices adds the bytes of all entries. -/
theorem encodeEntries_of_noneWide (buffer : EntryBuffer) (place : Device → UInt32) (start : Nat)
    (narrow : NoneFails (fun _ => Device.Wide) devices) :
    ∃ complete,
      encodeEntries buffer start (devices.map fun device => (device, place device)) =
        .ok complete ∧
      complete.finish = buffer.finish ++
        (devices.map fun device => device.entry (place device)).flatMap Entry.encode := by
  induction devices generalizing buffer start with
  | nil => exact ⟨buffer, rfl, by simp⟩
  | cons head rest ih =>
    obtain ⟨atHead, later⟩ := NoneFails.cons_iff.mp narrow
    rw [List.map_cons, encodeEntries]
    simp only [EntryBuffer.push, Device.encode_of_not_wide atHead, Except.map]
    obtain ⟨complete, encoded, finished⟩ := ih _ (start + 1) later
    refine ⟨complete, encoded, ?_⟩
    rw [finished]
    simp [EntryBuffer.finish]

end Entries

/-! ## Compilation -/

/-- The entry of every device of a list, its name placed among the names of all. -/
def entriesOf (devices : List Device) : List Entry :=
  devices.map fun device =>
    device.entry (UInt32.ofNat (NameTable.placeIn (devices.map Device.name) device.name))

/-- The header of the blob of a list. -/
def headerOf (devices : List Device) (config : Config) : Header :=
  .current (UInt32.ofNat devices.length)
    (UInt32.ofNat (Header.size + Entry.size * devices.length)) config.headerFlags

/-- The bytes of the blob of a list. -/
def blobBytes (devices : List Device) (config : Config) : List UInt8 :=
  Layout.assemble (headerOf devices config) ((entriesOf devices).flatMap Entry.encode)
    (NameTable.image (devices.map Device.name))

/-- What a list must satisfy to have a blob. -/
structure Compiles (devices : List Device) (config : Config) : Prop where
  /-- Every device may be encoded. -/
  valid : NoneFails (Device.Refused config) devices
  /-- The names fit a table that 32 bits can address. -/
  stored : (NameTable.image (devices.map Device.name)).length < UInt32.size
  /-- Every number fits its field. -/
  narrow : NoneFails (fun _ => Device.Wide) devices
  /-- The name table starts within 32 bits. -/
  small : Header.size + Entry.size * devices.length < UInt32.size

section Compile

variable {devices : List Device} {config : Config} {device : Device} {index : Nat}

/-- A list with a refused device is refused for the first one, whatever else is wrong with it. -/
theorem compile_of_refused {fault : DeviceFault}
    (first : FirstAt (Device.Refused config) devices index device)
    (refused : device.validate index config = .error fault) :
    compile devices config = .error (.invalid fault) := by
  have checked : validateAll devices config = .error fault := by
    rw [validateAll_of_firstAt first, refused]
  simp [compile, checked, Except.mapError, bind, Except.bind]

/-- An accepted list compiles as its names, entries and header do. -/
theorem compile_of_valid (valid : NoneFails (Device.Refused config) devices) :
    compile devices config = (do
      let (places, names) ← internNames .empty 0 devices
      let entries ← encodeEntries .empty 0 (devices.zip places)
      let header ← Layout.header entries.count config.headerFlags
      .ok { bytes := Layout.assemble header entries.finish names.bytes.toList }) := by
  have checked : validateAll devices config = .ok () := validateAll_eq_ok_iff.mpr valid
  simp [compile, checked, Except.mapError, bind, Except.bind]

/-- An accepted list whose names do not fit a table has no blob. -/
theorem compile_of_overfull (valid : NoneFails (Device.Refused config) devices)
    (large : UInt32.size ≤ (NameTable.image (devices.map Device.name)).length) :
    ∃ fault, compile devices config = .error fault := by
  obtain ⟨fault, failed⟩ :=
    internNames_of_large NameTable.Holds.empty 0 devices (by simpa using large)
  exact ⟨fault, by simp [compile_of_valid valid, failed, bind, Except.bind]⟩

/-- An accepted list whose names fit compiles as its entries and header do. -/
theorem compile_of_stored (valid : NoneFails (Device.Refused config) devices)
    (stored : (NameTable.image (devices.map Device.name)).length < UInt32.size) :
    compile devices config = (do
      let entries ← encodeEntries .empty 0 (devices.map fun device => (device,
        UInt32.ofNat (NameTable.placeIn (devices.map Device.name) device.name)))
      let header ← Layout.header entries.count config.headerFlags
      .ok { bytes := Layout.assemble header entries.finish
              (NameTable.image (devices.map Device.name)) }) := by
  obtain ⟨complete, interned, holds⟩ :=
    internNames_of_fits NameTable.Holds.empty 0 devices (by simpa using stored)
  have bytes := holds.bytes
  simp only [List.nil_append] at interned bytes
  rw [compile_of_valid valid, interned]
  simp only [bind, Except.bind, ← List.map_prod_left_eq_zip, bytes]

/-- An accepted list whose names fit is refused for its first wide device. -/
theorem compile_of_wide (valid : NoneFails (Device.Refused config) devices)
    (stored : (NameTable.image (devices.map Device.name)).length < UInt32.size)
    (first : FirstAt (fun _ => Device.Wide) devices index device) :
    compile devices config = .error (device.wideFault index) := by
  rw [compile_of_stored valid stored, encodeEntries_of_firstAt _ _ 0 first, Nat.zero_add]
  rfl

/-- A list that passes all stages before the header compiles as its header does. -/
theorem compile_of_narrow (valid : NoneFails (Device.Refused config) devices)
    (stored : (NameTable.image (devices.map Device.name)).length < UInt32.size)
    (narrow : NoneFails (fun _ => Device.Wide) devices) :
    compile devices config = (do
      let header ← Layout.header devices.length config.headerFlags
      .ok { bytes := Layout.assemble header ((entriesOf devices).flatMap Entry.encode)
              (NameTable.image (devices.map Device.name)) }) := by
  obtain ⟨complete, encoded, finished⟩ := encodeEntries_of_noneWide .empty
    (fun device => UInt32.ofNat (NameTable.placeIn (devices.map Device.name) device.name)) 0 narrow
  have bytes : complete.finish = (entriesOf devices).flatMap Entry.encode := by
    simpa [entriesOf, EntryBuffer.empty, EntryBuffer.finish] using finished
  -- The buffer counts its entries by its size, which is a multiple of that of an entry.
  have count : complete.count = devices.length := by
    have sized := length_flatMap_of_sized Entry.length_encode (entriesOf devices)
    rw [← bytes, EntryBuffer.finish, Array.length_toList, entriesOf, List.length_map] at sized
    rw [EntryBuffer.count, sized]
    exact Nat.mul_div_cancel_left _ (by decide)
  rw [compile_of_stored valid stored, encoded]
  simp only [bind, Except.bind, count, bytes]

/-- A list that passes all stages before the header has no blob when its name table starts past 32
bits. -/
theorem compile_of_large (valid : NoneFails (Device.Refused config) devices)
    (stored : (NameTable.image (devices.map Device.name)).length < UInt32.size)
    (narrow : NoneFails (fun _ => Device.Wide) devices)
    (large : UInt32.size ≤ Header.size + Entry.size * devices.length) :
    compile devices config = .error (
      if UInt32.size ≤ devices.length then
        .layoutOverflow Header.entriesCountField.name devices.length
      else .layoutOverflow Header.nameListOffsetField.name
        (Header.size + Entry.size * devices.length)) := by
  rw [compile_of_narrow valid stored narrow, Layout.header_of_large large]
  rfl

/-- A list that satisfies the four conditions compiles to its bytes. -/
theorem Compiles.compile_eq (compiles : Compiles devices config) :
    compile devices config = .ok { bytes := blobBytes devices config } := by
  rw [compile_of_narrow compiles.valid compiles.stored compiles.narrow,
    Layout.header_of_small compiles.small]
  rfl

/-- A list has a blob exactly when it satisfies the four conditions, and which blob that is. -/
theorem compile_eq_ok_iff {blob : Blob} : compile devices config = .ok blob ↔
    Compiles devices config ∧ blob.bytes = blobBytes devices config := by
  constructor
  · intro compiled
    -- A stage that is not passed would give its fault, and the list compiled.
    have valid : NoneFails (Device.Refused config) devices := by
      refine (FirstAt.exists_or_noneFails _ devices).resolve_left ?_
      rintro ⟨index, device, first⟩
      obtain ⟨fault, refused⟩ := first.fault
      simp [compile_of_refused first refused] at compiled
    have stored : (NameTable.image (devices.map Device.name)).length < UInt32.size := by
      refine Nat.not_le.mp fun large => ?_
      obtain ⟨fault, failed⟩ := compile_of_overfull valid large
      simp [failed] at compiled
    have narrow : NoneFails (fun _ => Device.Wide) devices := by
      refine (FirstAt.exists_or_noneFails _ devices).resolve_left ?_
      rintro ⟨index, device, first⟩
      simp [compile_of_wide valid stored first] at compiled
    have small : Header.size + Entry.size * devices.length < UInt32.size := by
      refine Nat.not_le.mp fun large => ?_
      simp [compile_of_large valid stored narrow large] at compiled
    have compiles : Compiles devices config := ⟨valid, stored, narrow, small⟩
    rw [compiles.compile_eq] at compiled
    cases compiled
    exact ⟨compiles, rfl⟩
  · rintro ⟨compiles, same⟩
    rw [compiles.compile_eq, ← same]

end Compile

end BoardBlob
