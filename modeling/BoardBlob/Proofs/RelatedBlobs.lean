import BoardBlob.Proofs.OverwrittenBytes
import BoardBlob.Proofs.ReferenceLayout

/-!
# Blobs of related inputs

Two compilations compared. A list that is continued keeps the entries and the names that it had, byte
for byte, although the new names may repeat or extend the old ones (`compile_append`). Another
configuration changes nothing of a blob but the header flags, and a list that was compiled for an
alignment is compiled for every divisor of it (`compile_reconfigured`).
-/
namespace BoardBlob

/-! ## Longer lists -/

/-- The bytes of the entries of a blob. -/
def BlobView.entryBytes (view : BlobView) : List UInt8 :=
  (view.bytes.drop Header.size).take (Entry.size * view.size)

/-- The entries of a view are the ones that were put in. -/
theorem BlobView.entryBytes_ofParts {count : Nat} {flags : UInt32} {header : Header}
    {entries names : List UInt8} (made : Layout.header count flags = .ok header)
    (filled : entries.length = Entry.size * count) :
    (ofParts header entries names).entryBytes = entries := by
  have start : (header.encode ++ (entries ++ names)).drop Header.size = entries ++ names := by
    rw [← header.length_encode, List.drop_left]
  rw [entryBytes, size_ofParts made, ← filled, ofParts, Layout.assemble, List.append_assoc, start,
    List.take_left]

/-- The entries of a list that is continued come first, each with its old place of the name. -/
theorem entriesOf_append (earlier later : List Device) :
    entriesOf (earlier ++ later) = entriesOf earlier ++
      later.map fun device => (loadedOf (earlier ++ later) device).entry := by
  rw [entriesOf, List.map_append, entriesOf]
  apply congrArg (· ++ _)
  apply List.map_congr_left
  intro device member
  have known : device.name ∈ earlier.map Device.name := List.mem_map_of_mem member
  rw [List.map_append, NameTable.placeIn_append_of_mem known]

namespace Compiles

variable {earlier later devices : List Device} {config : Config}

/-- A list that has a blob when it is continued has one itself. -/
theorem of_append (compiles : Compiles (earlier ++ later) config) : Compiles earlier config where
  valid := compiles.valid.of_append
  stored := by
    have stored := compiles.stored
    rw [List.map_append] at stored
    exact Nat.lt_of_le_of_lt (NameTable.length_image_le _ _) stored
  narrow := compiles.narrow.of_append
  small := by
    have small := compiles.small
    simp only [List.length_append, Header.size, Entry.size] at small ⊢
    omega

/-- The bytes of the entries of a compiled blob are those of the list. -/
theorem entryBytes_eq (compiles : Compiles devices config) :
    (viewOf devices config).entryBytes = (entriesOf devices).flatMap Entry.encode :=
  BlobView.entryBytes_ofParts compiles.header (length_entries devices)

end Compiles

/-- Appending devices moves nothing that is there. If a list has a blob when it is continued, then it
has a blob itself; the bytes of its entries, the places of the names included, are the first of the
entries of the longer blob, and its name table is the start of the longer one. -/
theorem compile_append {earlier later : List Device} {config : Config} {blob : Blob}
    (compiled : compile (earlier ++ later) config = .ok blob) :
    ∃ prior priorView view, compile earlier config = .ok prior ∧
      BlobView.parse prior.bytes = .ok priorView ∧ BlobView.parse blob.bytes = .ok view ∧
      priorView.entryBytes.length = 72 * earlier.length ∧
      view.entryBytes.length = 72 * (earlier ++ later).length ∧
      view.entryBytes.take (72 * earlier.length) = priorView.entryBytes ∧
      priorView.nameTable <+: view.nameTable := by
  obtain ⟨compiles, bytes⟩ := compile_eq_ok_iff.mp compiled
  have front := compiles.of_append
  have parsed := compiles.parse_eq
  rw [← bytes] at parsed
  have filled : ((entriesOf earlier).flatMap Entry.encode).length = 72 * earlier.length :=
    Compiles.length_entries earlier
  refine ⟨_, _, _, front.compile_eq, front.parse_eq, parsed, ?_, ?_, ?entries, ?names⟩
  · rw [front.entryBytes_eq, filled]
  · rw [compiles.entryBytes_eq]
    exact Compiles.length_entries (earlier ++ later)
  case entries =>
    rw [compiles.entryBytes_eq, front.entryBytes_eq, entriesOf_append, List.flatMap_append, ← filled,
      List.take_left]
  case names =>
    rw [compiles.nameTable_eq, front.nameTable_eq, List.map_append, NameTable.image_append]
    exact List.prefix_append _ _

/-- Devices of which one repeats a name of the three before, and one goes on with it. -/
def furtherDevices : List Device := [{ kind := .rtc, name := "é" }, { kind := .ram, name := "ué" }]

/-- The three devices keep their bytes when the two are appended: of the two names only the longer
one is new, and it is stored after the old ones. -/
theorem compile_append_furtherDevices :
    ∃ blob prior priorView view, compile (namesakes ++ furtherDevices) {} = .ok blob ∧
      compile namesakes {} = .ok prior ∧
      BlobView.parse prior.bytes = .ok priorView ∧ BlobView.parse blob.bytes = .ok view ∧
      view.entryBytes.length = 360 ∧ view.entryBytes.take 216 = priorView.entryBytes ∧
      priorView.nameTable <+: view.nameTable ∧
      view.nameTable = [0x75, 0, 0xc3, 0xa9, 0, 0x75, 0xc3, 0xa9, 0] := by
  have compiled : compile (namesakes ++ furtherDevices) {} =
      .ok { bytes := blobBytes (namesakes ++ furtherDevices) {} } := by
    decide +kernel
  obtain ⟨prior, priorView, view, before, parsedBefore, parsed, _, filled, entries, names⟩ :=
    compile_append compiled
  obtain ⟨compiles, _⟩ := compile_eq_ok_iff.mp compiled
  have own : view = viewOf (namesakes ++ furtherDevices) {} := by
    rw [compiles.parse_eq] at parsed
    exact (Except.ok.inj parsed).symm
  have table : view.nameTable = [0x75, 0, 0xc3, 0xa9, 0, 0x75, 0xc3, 0xa9, 0] := by
    rw [own, compiles.nameTable_eq]
    decide +kernel
  exact ⟨_, prior, priorView, view, compiled, before, parsedBefore, parsed, filled, entries, names,
    table⟩

/-! ## Other configurations -/

/-- A number is a multiple of another exactly when that one divides it. Zero divides only zero. -/
theorem isMultipleOf_iff {value unit : UInt64} :
    isMultipleOf value unit = true ↔ unit.toNat ∣ value.toNat := by
  by_cases zero : unit = 0
  · subst zero
    rw [isMultipleOf, if_pos rfl, beq_iff_eq, UInt64.toNat_zero, Nat.zero_dvd,
      ← UInt64.toNat_inj, UInt64.toNat_zero]
  · rw [isMultipleOf, if_neg zero, beq_iff_eq, Nat.dvd_iff_mod_eq_zero]

namespace Device

variable {device : Device}

/-- A device is misaligned unless its region is not memory-mapped, or starts at a multiple of the
alignment other than zero. -/
theorem isMisaligned_eq_false_iff {alignment : UInt64} :
    device.isMisaligned alignment = false ↔
      (device.isMmio = true → device.regionBase ≠ 0 ∧
        alignment.toNat ∣ device.regionBase.toNat) := by
  rw [← isMultipleOf_iff, isMisaligned]
  cases device.isMmio
  · simp
  · simp

/-- What a device must satisfy to be encoded. The alignment is all that this takes from outside. -/
structure Admissible (alignment : UInt64) (device : Device) : Prop where
  /-- The name can be stored. -/
  named : device.nameFault? = none
  /-- Every device flag has a name. -/
  flags : flagFault? deviceFlagFamily device.flags = none
  /-- Every interrupt flag has a name. -/
  irqFlags : flagFault? irqFlagFamily device.irqFlags = none
  /-- The region ends inside the address space. -/
  region : device.regionFault? = none
  /-- A memory-mapped region starts at a multiple of the alignment other than zero. -/
  aligned : device.isMmio = true →
    device.regionBase ≠ 0 ∧ alignment.toNat ∣ device.regionBase.toNat
  /-- Every slot without a meaning is zero. -/
  reserved : device.reservedSlot? = none

/-- A device passes the checks exactly when it is admissible, wherever it stands in its list. -/
theorem validate_eq_ok_iff {index : Nat} {config : Config} :
    device.validate index config = .ok () ↔ device.Admissible config.mmioAlignment := by
  constructor
  · intro passed
    simp only [validate] at passed
    -- Every check but the last one refuses in its first branch.
    split at passed
    · contradiction
    rename_i named
    split at passed
    · contradiction
    rename_i flags
    split at passed
    · contradiction
    rename_i irqFlags
    split at passed
    · contradiction
    rename_i region
    split at passed
    · contradiction
    rename_i aligned
    split at passed
    · contradiction
    rename_i reserved
    have placed := isMisaligned_eq_false_iff.mp (Bool.eq_false_iff.mpr aligned)
    exact ⟨named, flags, irqFlags, region, placed, reserved⟩
  · intro admissible
    have aligned := isMisaligned_eq_false_iff.mpr admissible.aligned
    simp [validate, admissible.named, admissible.flags, admissible.irqFlags, admissible.region,
      aligned, admissible.reserved]

/-- A device that is admissible for an alignment is so for every divisor of it. -/
theorem Admissible.of_dvd {alignment divisor : UInt64} (admissible : device.Admissible alignment)
    (divides : divisor.toNat ∣ alignment.toNat) : device.Admissible divisor where
  named := admissible.named
  flags := admissible.flags
  irqFlags := admissible.irqFlags
  region := admissible.region
  aligned mapped := by
    obtain ⟨placed, multiple⟩ := admissible.aligned mapped
    exact ⟨placed, Nat.dvd_trans divides multiple⟩
  reserved := admissible.reserved

end Device

namespace Compiles

variable {devices : List Device} {config : Config}

/-- A list that has a blob for an alignment has one for every divisor of it, whatever the header
flags are. -/
theorem of_dvd {other : Config} (compiles : Compiles devices config)
    (divides : other.mmioAlignment.toNat ∣ config.mmioAlignment.toNat) :
    Compiles devices other where
  valid index device here := by
    have passed := Device.not_refused_iff.mp (compiles.valid index device here)
    have admissible := (Device.validate_eq_ok_iff.mp passed).of_dvd divides
    exact Device.not_refused_iff.mpr (Device.validate_eq_ok_iff.mpr admissible)
  stored := compiles.stored
  narrow := compiles.narrow
  small := compiles.small

end Compiles

/-- A blob is its header flags between two parts that no configuration has a share in. -/
theorem exists_blobBytes_eq (devices : List Device) :
    ∃ front back : List UInt8, front.length = 12 ∧ ∀ config : Config,
      blobBytes devices config =
        front ++ LittleEndian.encode 4 config.headerFlags.toNat ++ back := by
  let count := UInt32.ofNat devices.length
  let position := UInt32.ofNat (Header.size + Entry.size * devices.length)
  refine ⟨Header.signatureBytes ++ LittleEndian.encode 4 1,
    LittleEndian.encode 4 count.toNat ++ LittleEndian.encode 4 position.toNat ++
      (entriesOf devices).flatMap Entry.encode ++ NameTable.image (devices.map Device.name),
    rfl, ?_⟩
  intro config
  rw [blobBytes, Layout.assemble, headerOf, Header.encode_current]
  simp only [List.append_assoc, count, position]

/-- The blob for another configuration is the blob with other header flags written over its own. -/
theorem blobBytes_eq_overwrite (devices : List Device) (config other : Config) :
    blobBytes devices other =
      overwrite (blobBytes devices config) 12 (LittleEndian.encode 4 other.headerFlags.toNat) := by
  obtain ⟨front, back, twelve, parts⟩ := exists_blobBytes_eq devices
  rw [parts config, parts other, ← twelve, overwrite_middle front back (by simp)]

/-- The header flags are inside every blob. -/
theorem flags_inside (devices : List Device) (config : Config) (flags : UInt32) :
    12 + (LittleEndian.encode 4 flags.toNat).length ≤ (blobBytes devices config).length := by
  rw [LittleEndian.length_encode, Compiles.length_blobBytes]
  omega

/-- The header flags stand at positions 12 to 15 of a blob. -/
theorem slice?_flags (devices : List Device) (config : Config) :
    slice? (blobBytes devices config) 12 16 =
      some (LittleEndian.encode 4 config.headerFlags.toNat) := by
  have written := slice?_overwrite_self (flags_inside devices config config.headerFlags)
  rwa [← blobBytes_eq_overwrite, LittleEndian.length_encode] at written

/-- No other position of a blob depends on the configuration. -/
theorem getElem?_blobBytes_of_outside (devices : List Device) (config other : Config)
    {position : Nat} (outside : position < 12 ∨ 16 ≤ position) :
    (blobBytes devices other)[position]? = (blobBytes devices config)[position]? := by
  rw [blobBytes_eq_overwrite devices config other]
  apply getElem?_overwrite_of_outside (flags_inside devices config other.headerFlags)
  rwa [LittleEndian.length_encode]

/-- Configurations with the same header flags have the same blob. -/
theorem blobBytes_eq_of_flags_eq (devices : List Device) {config other : Config}
    (same : other.headerFlags = config.headerFlags) :
    blobBytes devices other = blobBytes devices config := by
  rw [blobBytes_eq_overwrite devices config other, same, ← blobBytes_eq_overwrite]

/-- What a configuration changes in a blob. The header flags stand at positions 12 to 15. Under
every other configuration for which the list has a blob, that blob is as long and has the same bytes
at all other positions, so that it is the same blob for the same header flags. If the alignment is
replaced by one of its divisors, where every number divides zero, then the list still has a blob, and
the same one for the same header flags. -/
theorem compile_reconfigured {devices : List Device} {config : Config} {blob : Blob}
    (compiled : compile devices config = .ok blob) :
    slice? blob.bytes 12 16 = some (LittleEndian.encode 4 config.headerFlags.toNat) ∧
    (∀ other otherBlob, compile devices other = .ok otherBlob →
      otherBlob.size = blob.size ∧
      (∀ position, position < 12 ∨ 16 ≤ position →
        otherBlob.bytes[position]? = blob.bytes[position]?) ∧
      slice? otherBlob.bytes 12 16 = some (LittleEndian.encode 4 other.headerFlags.toNat) ∧
      (other.headerFlags = config.headerFlags → otherBlob = blob)) ∧
    ∀ alignment flags, alignment.toNat ∣ config.mmioAlignment.toNat →
      ∃ otherBlob,
        compile devices { mmioAlignment := alignment, headerFlags := flags } = .ok otherBlob ∧
        (flags = config.headerFlags → otherBlob = blob) := by
  obtain ⟨compiles, bytes⟩ := compile_eq_ok_iff.mp compiled
  refine ⟨?own, ?others, ?divisors⟩
  case own =>
    rw [bytes]
    exact slice?_flags devices config
  case others =>
    intro other otherBlob compiledOther
    obtain ⟨_, otherBytes⟩ := compile_eq_ok_iff.mp compiledOther
    refine ⟨?_, ?_, ?_, ?_⟩
    · rw [Blob.size, Blob.size, otherBytes, bytes, Compiles.length_blobBytes,
        Compiles.length_blobBytes]
    · intro position outside
      rw [otherBytes, bytes]
      exact getElem?_blobBytes_of_outside devices config other outside
    · rw [otherBytes]
      exact slice?_flags devices other
    · intro flags
      have same : otherBlob.bytes = blob.bytes := by
        rw [otherBytes, bytes, blobBytes_eq_of_flags_eq devices flags]
      cases otherBlob
      cases blob
      exact congrArg Blob.mk same
  case divisors =>
    intro alignment flags divides
    have again : Compiles devices { mmioAlignment := alignment, headerFlags := flags } :=
      compiles.of_dvd divides
    refine ⟨_, again.compile_eq, ?_⟩
    intro same
    cases blob
    apply congrArg Blob.mk
    rw [blobBytes_eq_of_flags_eq devices same]
    exact bytes.symm

/-- Other header flags change four bytes of the blob of the three devices, with an alignment of 16
beside them. The divisor 256 of the default alignment changes nothing. -/
theorem compile_reconfigured_namesakes :
    ∃ blob flagged, compile namesakes {} = .ok blob ∧
      compile namesakes { mmioAlignment := 16, headerFlags := 0x80402 } = .ok flagged ∧
      slice? blob.bytes 12 16 = some [0, 0, 0, 0] ∧
      slice? flagged.bytes 12 16 = some [2, 4, 8, 0] ∧
      flagged.size = blob.size ∧
      (∀ position, position < 12 ∨ 16 ≤ position →
        flagged.bytes[position]? = blob.bytes[position]?) ∧
      compile namesakes { mmioAlignment := 256 } = .ok blob := by
  obtain ⟨own, others, divisors⟩ := compile_reconfigured compile_namesakes
  have compiledFlagged : compile namesakes { mmioAlignment := 16, headerFlags := 0x80402 } =
      .ok { bytes := blobBytes namesakes { mmioAlignment := 16, headerFlags := 0x80402 } } := by
    decide +kernel
  obtain ⟨sized, kept, flags, _⟩ := others _ _ compiledFlagged
  have divides : (256 : UInt64).toNat ∣ ({} : Config).mmioAlignment.toNat := by
    decide
  obtain ⟨again, compiledAgain, same⟩ := divisors 256 0 divides
  rw [same rfl] at compiledAgain
  exact ⟨_, _, compile_namesakes, compiledFlagged, own, flags, sized, kept, compiledAgain⟩

end BoardBlob
