import BoardBlob.Proofs.ReferenceLayout

/-!
# The outcome of a compilation

Which result a compilation has, for every list whose names fit a table. A device that may not be
encoded is reported before any number that is too large, wherever the two stand in the list, and
every fault is the one of the first device that has it. What remains has a blob, from which every
number is read back as it was given (`compile_outcome`).
-/
namespace BoardBlob

/-- A field inside the front part of joined bytes is read from that part. -/
theorem Field.read_append {field : Field} {front : List UInt8} (inside : field.stop ≤ front.length)
    (back : List UInt8) : field.read (front ++ back) = field.read front := by
  rw [read, slice?_append_left inside, read]

namespace Compiles

variable {devices : List Device} {config : Config} {device : Device} {index : Nat}

/-- The header of a blob has the length of the list and the place of the names, both unreduced. -/
theorem read_header (compiles : Compiles devices config) :
    Header.entriesCountField.read (blobBytes devices config) = some devices.length ∧
    Header.nameListOffsetField.read (blobBytes devices config) =
      some (24 + 72 * devices.length) := by
  have reads := (headerOf devices config).read_encode
  have counted := Layout.entriesCount_of_header compiles.header
  have position := Layout.nameListOffset_of_header compiles.header
  have inside {field : Field} (member : field ∈ Header.fields) :
      field.stop ≤ (headerOf devices config).encode.length := by
    rw [Header.length_encode]
    exact Field.stop_le_of_packed Header.packed_fields member
  rw [blobBytes, Layout.assemble, List.append_assoc,
    Field.read_append (inside (by decide)), Field.read_append (inside (by decide))]
  simp only [Header.zip_values, List.forall_mem_cons] at reads
  obtain ⟨_, _, _, count, offset, _⟩ := reads
  rw [count, offset, counted, position]
  exact ⟨rfl, rfl⟩

/-- Every number of a device is read back, unreduced, from the record at its position. -/
theorem read_record (compiles : Compiles devices config) (found : devices[index]? = some device) :
    ∃ record, slice? (blobBytes devices config) (24 + 72 * index) (24 + 72 * index + 72) =
        some record ∧
      ∀ part ∈ device.recordTable (referencePlace (devices.map Device.name) device.name),
        part.1.read record = some part.2 := by
  have member : device ∈ devices := List.mem_of_getElem? found
  have start : 24 + 72 * index = Header.size + index * Entry.size := by
    rw [Header.size, Entry.size, Nat.mul_comm]
  refine ⟨(loadedOf devices device).entry.encode, ?_, ?_⟩
  · rw [start]
    exact slice?_record found
  · rw [← compiles.toNat_place member, ← Device.zip_values_entry (compiles.not_wide member)]
    exact Entry.read_encode _

end Compiles

/-- The result of a compilation of a list whose names fit a table. If a device may not be encoded,
the first such device is reported with its own fault; if else a number is too large for its entry,
the first device with such a number is; if else the names would start past 32 bits, that is. If
none of this is so there is a blob, and no blob holds a reduced number. -/
theorem compile_outcome (devices : List Device) (config : Config)
    (addressable : storedSize (devices.map Device.name).eraseDups < UInt32.size) :
    (¬NoneFails (Device.Refused config) devices →
      ∃ index device fault, FirstAt (Device.Refused config) devices index device ∧
        device.validate index config = .error fault ∧
        compile devices config = .error (.invalid fault)) ∧
    (NoneFails (Device.Refused config) devices →
      ¬NoneFails (fun _ => Device.Wide) devices →
      ∃ index device, FirstAt (fun _ => Device.Wide) devices index device ∧
        compile devices config = .error (
          if UInt32.size ≤ device.irqLane.toNat then
            .encodingOverflow index device.name "irq_lane" device.irqLane.toNat
          else .encodingOverflow index device.name "irq_priority" device.irqPriority.toNat)) ∧
    (NoneFails (Device.Refused config) devices →
      NoneFails (fun _ => Device.Wide) devices →
      UInt32.size ≤ 24 + 72 * devices.length →
      compile devices config = .error (
        if UInt32.size ≤ devices.length then .layoutOverflow "entries_count" devices.length
        else .layoutOverflow "name_list_offset" (24 + 72 * devices.length))) ∧
    (NoneFails (Device.Refused config) devices →
      NoneFails (fun _ => Device.Wide) devices →
      24 + 72 * devices.length < UInt32.size →
      ∃ blob, compile devices config = .ok blob) ∧
    ∀ blob, compile devices config = .ok blob →
      Header.entriesCountField.read blob.bytes = some devices.length ∧
      Header.nameListOffsetField.read blob.bytes = some (24 + 72 * devices.length) ∧
      ∀ index device, devices[index]? = some device →
        ∃ record, slice? blob.bytes (24 + 72 * index) (24 + 72 * index + 72) = some record ∧
          ∀ part ∈ device.recordTable (referencePlace (devices.map Device.name) device.name),
            part.1.read record = some part.2 := by
  have stored : (NameTable.image (devices.map Device.name)).length < UInt32.size := by
    rwa [NameTable.length_image]
  refine ⟨?refused, ?wide, ?large, ?fits, ?unreduced⟩
  case refused =>
    intro someRefused
    obtain ⟨index, device, first⟩ :=
      (FirstAt.exists_or_noneFails (Device.Refused config) devices).resolve_right someRefused
    obtain ⟨fault, refused⟩ := first.fault
    exact ⟨index, device, fault, first, refused, compile_of_refused first refused⟩
  case wide =>
    intro valid someWide
    obtain ⟨index, device, first⟩ :=
      (FirstAt.exists_or_noneFails (fun _ => Device.Wide) devices).resolve_right someWide
    exact ⟨index, device, first, compile_of_wide valid stored first⟩
  case large =>
    intro valid narrow large
    exact compile_of_large valid stored narrow large
  case fits =>
    intro valid narrow small
    have compiles : Compiles devices config := ⟨valid, stored, narrow, small⟩
    exact ⟨_, compiles.compile_eq⟩
  case unreduced =>
    intro blob compiled
    obtain ⟨compiles, bytes⟩ := compile_eq_ok_iff.mp compiled
    obtain ⟨count, offset⟩ := compiles.read_header
    rw [bytes]
    exact ⟨count, offset, fun index device found => compiles.read_record found⟩

/-- A device with a line that is too large, before one that may not be encoded. -/
def wideThenRefused : List Device :=
  [{ kind := .rtc, name := "a", irqLane := 4294967296 }, { kind := .rtc, name := "" }]

/-- The outcome where the first device has a line that is too large and the second may not be
encoded: the second is reported. -/
theorem compile_outcome_wideThenRefused :
    storedSize (wideThenRefused.map Device.name).eraseDups < UInt32.size ∧
    compile wideThenRefused {} = .error (.invalid (.invalidName 1 "" .empty)) := by
  have addressable : storedSize (wideThenRefused.map Device.name).eraseDups < UInt32.size := by
    decide
  have expected : FirstAt (Device.Refused {}) wideThenRefused 1 { kind := .rtc, name := "" } := by
    refine ⟨rfl, ⟨.invalidName 1 "" .empty, by decide⟩, ?_⟩
    intro position other before found
    obtain rfl : position = 0 := by omega
    cases found
    exact Device.not_refused_iff.mpr (by decide)
  obtain ⟨refused, _⟩ := compile_outcome wideThenRefused {} addressable
  obtain ⟨index, device, fault, first, fails, compiled⟩ :=
    refused fun pass => pass 1 _ expected.here expected.fault
  obtain ⟨rfl, rfl⟩ := first.unique expected
  have same : fault = .invalidName 1 "" .empty := by
    have checked : Device.validate 1 {} { kind := .rtc, name := "" } =
        .error (.invalidName 1 "" .empty) := by decide
    rw [checked] at fails
    exact (Except.error.inj fails).symm
  exact ⟨addressable, same ▸ compiled⟩

end BoardBlob
