import BoardBlob.Proofs.FormatChecks
import BoardBlob.Proofs.InternedNames
import BoardBlob.Proofs.LoaderSafety
import BoardBlob.Proofs.Recompilation

/-!
# The outcome of decompiling

Decompiling any bytes has one of three outcomes: the fault of their header, the fault of the first
entry that stands for no device, or one device for every entry. Of one entry the name is resolved
before the tag is looked up (`EntryFault`), and of the list of devices there is never a part
(`decompile_exact`).
-/
namespace BoardBlob

/-! ## One entry -/

/-- An entry stands for a device exactly when it is read and shows the device. -/
theorem deviceOf_eq_ok_iff {entry : Except LoadFault LoadedDevice} {device : Device} :
    deviceOf entry = .ok device ↔ ∃ loaded, entry = .ok loaded ∧ loaded.Shows device := by
  constructor
  · exact shows_of_deviceOf
  · rintro ⟨loaded, rfl, shows⟩
    have widened (number : UInt32) (wide : UInt64) (same : number.toNat = wide.toNat) :
        UInt64.ofNat number.toNat = wide := by
      rw [same, UInt64.ofNat_toNat]
    simp only [deviceOf, LoadedDevice.kind, shows.kind?, Except.map, LoadedDevice.toDevice,
      shows.name, shows.flags, shows.regionBase, shows.regionSize, shows.irqFlags, shows.aux,
      widened _ _ shows.irqLane, widened _ _ shows.irqPriority]

namespace BlobView

/-- What is wrong with an entry that stands for no device: it cannot be read, or it is read and its
tag is past those of the kinds. -/
inductive EntryFault (view : BlobView) (index : Nat) : LoadFault → Prop where
  | unread {fault : LoadFault} (failed : view.get index = .error fault) :
      EntryFault view index fault
  | unknownKind {loaded : LoadedDevice} (read : view.get index = .ok loaded)
      (unknown : 6 < loaded.entry.typeTag.toNat) :
      EntryFault view index (.unknownKind loaded.entry.typeTag)

variable {view : BlobView} {index : Nat} {fault : LoadFault}

/-- An entry stands for no device exactly when something is wrong with it. -/
theorem deviceOf_get_eq_error_iff :
    deviceOf (view.get index) = .error fault ↔ view.EntryFault index fault := by
  constructor
  · intro failed
    cases read : view.get index with
    | error found =>
      rw [read] at failed
      cases failed
      exact .unread read
    | ok loaded =>
      rw [read] at failed
      cases known : loaded.entry.kind? with
      | some kind => simp [deviceOf, LoadedDevice.kind, known, Except.map] at failed
      | none =>
        simp only [deviceOf, LoadedDevice.kind, known, Except.map, Except.error.injEq] at failed
        rw [← failed]
        exact .unknownKind read (DeviceKind.ofTag?_eq_none_iff.mp known)
  · intro wrong
    cases wrong with
    | unread failed => rw [failed, deviceOf]
    | unknownKind read unknown =>
      have unfound := DeviceKind.ofTag?_eq_none_iff.mpr unknown
      simp [read, deviceOf, LoadedDevice.kind, Entry.kind?, unfound, Except.map]

/-- An entry of an accepted view that cannot be read has one of the three faults of its own name. -/
theorem Accepted.exists_nameFaultAt (accepted : view.Accepted) (inside : index < view.size)
    (failed : view.get index = .error fault) :
    ∃ entry, view.entryAt? index = some entry ∧ NameFaultAt entry.nameOffset fault := by
  obtain ⟨record, entry, found, _, decoded⟩ := accepted.exists_record inside
  refine ⟨entry, by simp [entryAt?, inside, found, decoded], ?_⟩
  rw [get_of_record inside found decoded] at failed
  cases named : view.nameAt entry.nameOffset with
  | ok name => simp [named, Except.map] at failed
  | error reason =>
    simp only [named, Except.map, Except.error.injEq] at failed
    exact failed ▸ nameFaultAt_of_nameAt named

/-! ## All entries -/

/-- The entries of a view stand for no list of devices exactly when something is wrong with one of
them. The fault is that of the first such entry. -/
theorem devicesOf_entries_eq_error_iff :
    devicesOf view.entries = .error fault ↔ ∃ index < view.size, view.EntryFault index fault ∧
      ∀ earlier < index, ∀ other, ¬view.EntryFault earlier other := by
  constructor
  · intro failed
    obtain ⟨index, entry, first, wrong⟩ := exists_firstAt_of_devicesOf failed
    obtain ⟨inside, rfl⟩ := getElem?_entries_iff.mp first.here
    refine ⟨index, inside, deviceOf_get_eq_error_iff.mp wrong, ?_⟩
    intro earlier before other wrongEarlier
    have listed := getElem?_entries_iff.mpr ⟨Nat.lt_trans before inside, rfl⟩
    exact first.earlier earlier _ before listed ⟨other, deviceOf_get_eq_error_iff.mpr wrongEarlier⟩
  · rintro ⟨index, inside, wrong, sound⟩
    have failed := deviceOf_get_eq_error_iff.mpr wrong
    have listed := getElem?_entries_iff.mpr ⟨inside, rfl⟩
    refine devicesOf_of_firstAt ⟨listed, ⟨fault, failed⟩, ?_⟩ failed
    rintro earlier entry before found ⟨other, wrongEarlier⟩
    obtain ⟨_, rfl⟩ := getElem?_entries_iff.mp found
    exact sound earlier before other (deviceOf_get_eq_error_iff.mp wrongEarlier)

/-- The entries of a view stand for a list of devices exactly when there are as many of both and
every entry is read and shows the device at its position. -/
theorem devicesOf_entries_eq_ok_iff {devices : List Device} :
    devicesOf view.entries = .ok devices ↔ devices.length = view.size ∧
      ∀ index < view.size, ∃ loaded device, view.get index = .ok loaded ∧
        devices[index]? = some device ∧ loaded.Shows device := by
  have counted : view.entries.length = view.size := by
    simp [entries]
  rw [devicesOf_eq_ok_iff]
  constructor
  · intro same
    have sized := congrArg List.length same
    rw [List.length_map, List.length_map, counted] at sized
    refine ⟨sized.symm, fun index inside => ?_⟩
    obtain ⟨device, here⟩ : ∃ device, devices[index]? = some device :=
      ⟨_, List.getElem?_eq_getElem (sized ▸ inside)⟩
    have stands := congrArg (fun list => list[index]?) same
    simp only [List.getElem?_map, getElem?_entries, if_pos inside, here, Option.map_some,
      Option.some.injEq] at stands
    obtain ⟨loaded, read, shows⟩ := deviceOf_eq_ok_iff.mp stands
    exact ⟨loaded, device, read, here, shows⟩
  · rintro ⟨sized, shown⟩
    apply List.ext_getElem?
    intro index
    rw [List.getElem?_map, List.getElem?_map, getElem?_entries]
    by_cases inside : index < view.size
    · obtain ⟨loaded, device, read, here, shows⟩ := shown index inside
      rw [if_pos inside, here, Option.map_some, Option.map_some,
        deviceOf_eq_ok_iff.mpr ⟨loaded, read, shows⟩]
    · have outside : devices.length ≤ index := sized ▸ Nat.not_lt.mp inside
      rw [if_neg inside, List.getElem?_eq_none outside, Option.map_none, Option.map_none]

/-- What is wrong with bytes that are not accepted. -/
inductive HeaderFault : LoadFault → Prop where
  | tooShort : HeaderFault .tooShort
  | badSignature : HeaderFault .badSignature
  | unsupportedRevision (revision : UInt32) : HeaderFault (.unsupportedRevision revision)
  | truncated (entriesCount : UInt32) : HeaderFault (.truncated entriesCount)
  | nameListMismatch (found : UInt32) (expected : Nat) :
      HeaderFault (.nameListMismatch found expected)

/-- Bytes are refused for one of the five faults of a header. -/
theorem headerFault_of_parse {bytes : List UInt8} (refused : parse bytes = .error fault) :
    HeaderFault fault := by
  have verdict := Format.verdict_parse bytes
  rw [refused] at verdict
  cases verdict with
  | tooShort => exact .tooShort
  | badSignature => exact .badSignature
  | unsupportedRevision => exact .unsupportedRevision _
  | truncated => exact .truncated _
  | nameListMismatch => exact .nameListMismatch _ _

end BlobView

/-- Decompiling any bytes. Bytes that are not accepted give the fault that parsing them gives, one
of the five of a header. Accepted bytes give a fault exactly when something is wrong with an entry,
and then that of the first such entry: one of the three of its name when the name cannot be
resolved, and its unknown tag only when the name is resolved. They give a list of devices exactly
when nothing is wrong with any entry; it has one device for each entry, in their order, with all
numbers of the entry as stored. -/
theorem decompile_exact (bytes : List UInt8) :
    (∀ fault, BlobView.parse bytes = .error fault →
      decompile bytes = .error fault ∧ BlobView.HeaderFault fault) ∧
    ∀ view, BlobView.parse bytes = .ok view →
      (∀ fault, decompile bytes = .error fault ↔
        ∃ index < view.header.entriesCount.toNat, view.EntryFault index fault ∧
          ∀ earlier < index, ∀ other, ¬view.EntryFault earlier other) ∧
      (∀ index < view.header.entriesCount.toNat, ∀ fault, view.get index = .error fault →
        ∃ entry, view.entryAt? index = some entry ∧
          BlobView.NameFaultAt entry.nameOffset fault) ∧
      ((∃ devices, decompile bytes = .ok devices) ↔
        ∀ index < view.header.entriesCount.toNat, ∀ fault, ¬view.EntryFault index fault) ∧
      ∀ devices, decompile bytes = .ok devices ↔
        devices.length = view.header.entriesCount.toNat ∧
          ∀ index < view.header.entriesCount.toNat, ∃ loaded device,
            view.get index = .ok loaded ∧ devices[index]? = some device ∧
              loaded.Shows device := by
  refine ⟨?refused, ?accepted⟩
  case refused =>
    intro fault refused
    exact ⟨by rw [decompile, refused], BlobView.headerFault_of_parse refused⟩
  case accepted =>
    intro view parsed
    have decompiled : decompile bytes = devicesOf view.entries := by
      rw [decompile, parsed]
    obtain ⟨_, _, accepted⟩ := BlobView.parse_eq_ok_iff.mp parsed
    rw [decompiled]
    refine ⟨fun fault => BlobView.devicesOf_entries_eq_error_iff, ?names, ?whole,
      fun devices => BlobView.devicesOf_entries_eq_ok_iff⟩
    case names => exact fun index inside fault failed => accepted.exists_nameFaultAt inside failed
    case whole =>
      constructor
      · rintro ⟨devices, read⟩ index inside fault wrong
        obtain ⟨_, shown⟩ := BlobView.devicesOf_entries_eq_ok_iff.mp read
        obtain ⟨loaded, device, found, _, shows⟩ := shown index inside
        have stands := deviceOf_eq_ok_iff.mpr ⟨loaded, found, shows⟩
        rw [BlobView.deviceOf_get_eq_error_iff.mpr wrong] at stands
        contradiction
      · intro sound
        cases read : devicesOf view.entries with
        | ok devices => exact ⟨devices, rfl⟩
        | error fault =>
          obtain ⟨index, inside, wrong, _⟩ := BlobView.devicesOf_entries_eq_error_iff.mp read
          exact absurd wrong (sound index inside fault)

/-- The view of a blob with these entries and a name table of one letter and its zero byte. -/
def overOneName (entries : List Entry) : BlobView :=
  let header :=
    Header.current (UInt32.ofNat entries.length) (UInt32.ofNat (24 + 72 * entries.length)) 0
  { bytes := Layout.assemble header (entries.flatMap Entry.encode) [0x61, 0], header := header }

/-- An entry with undefined flags, the largest interrupt line of a record, and a value in a slot
that its kind does not use. -/
def unusualEntry : Entry :=
  { typeTag := 6, flags := 0x80000001, irqLane := 4294967295, irqFlags := 2, aux := ⟨0, 0, 0, 7⟩ }

/-- The device that the entry stands for. -/
def unusualDevice : Device where
  kind := .rtc
  name := "a"
  flags := 0x80000001
  irqLane := 4294967295
  irqFlags := 2
  aux := ⟨0, 0, 0, 7⟩

/-- Of two entries with an unknown tag, the first gives the fault: its tag when its name is
resolved, and else the fault of its name. Without them the entry before gives a device with all of
its numbers. -/
theorem decompile_exact_unusualEntry :
    decompile (overOneName
      [unusualEntry, { typeTag := 9 }, { typeTag := 9, nameOffset := 7 }]).bytes =
        .error (.unknownKind 9) ∧
    decompile (overOneName
      [unusualEntry, { typeTag := 9, nameOffset := 7 }, { typeTag := 9 }]).bytes =
        .error (.nameOutOfRange 7) ∧
    decompile (overOneName [unusualEntry]).bytes = .ok [unusualDevice] := by
  have parsed (entries : List Entry) (small : entries ∈ [
      [unusualEntry, { typeTag := 9 }, { typeTag := 9, nameOffset := 7 }],
      [unusualEntry, { typeTag := 9, nameOffset := 7 }, { typeTag := 9 }], [unusualEntry]]) :
      BlobView.parse (overOneName entries).bytes = .ok (overOneName entries) ∧
        (overOneName entries).get 0 = .ok ⟨unusualEntry, "a"⟩ := by
    revert entries small
    decide +kernel
  have sound {view : BlobView} (read : view.get 0 = .ok ⟨unusualEntry, "a"⟩) :
      ∀ earlier < 1, ∀ other, ¬view.EntryFault earlier other := by
    intro earlier before other wrong
    obtain rfl : earlier = 0 := by omega
    cases wrong with
    | unread failed =>
      simp [read] at failed
    | unknownKind readToo unknown =>
      obtain rfl := Except.ok.inj (read.symm.trans readToo)
      exact absurd unknown (by decide)
  refine ⟨?tag, ?name, ?device⟩
  case tag =>
    obtain ⟨accepted, read⟩ := parsed _ (List.mem_cons_self ..)
    obtain ⟨failed, _⟩ := (decompile_exact _).2 _ accepted
    have tagged : (overOneName
        [unusualEntry, { typeTag := 9 }, { typeTag := 9, nameOffset := 7 }]).get 1 =
          .ok ⟨{ typeTag := 9 }, "a"⟩ := by
      decide +kernel
    exact (failed _).mpr ⟨1, by decide, .unknownKind tagged (by decide), sound read⟩
  case name =>
    obtain ⟨accepted, read⟩ := parsed _ (List.mem_cons_of_mem _ (List.mem_cons_self ..))
    obtain ⟨failed, _⟩ := (decompile_exact _).2 _ accepted
    have unnamed : (overOneName
        [unusualEntry, { typeTag := 9, nameOffset := 7 }, { typeTag := 9 }]).get 1 =
          .error (.nameOutOfRange 7) := by
      decide +kernel
    exact (failed _).mpr ⟨1, by decide, .unread unnamed, sound read⟩
  case device =>
    obtain ⟨accepted, read⟩ := parsed [unusualEntry] (by simp)
    obtain ⟨_, _, _, decoded⟩ := (decompile_exact _).2 _ accepted
    refine (decoded _).mpr ⟨by decide, fun index inside => ?_⟩
    have first : index = 0 := by
      have inside : index < 1 := inside
      omega
    subst first
    exact ⟨_, unusualDevice, read, rfl, by constructor <;> rfl⟩

end BoardBlob
