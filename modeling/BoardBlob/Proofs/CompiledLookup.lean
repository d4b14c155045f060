import Mathlib.Data.List.Forall2
import BoardBlob.Proofs.CompiledView

/-!
# Looking devices up in a compiled blob

A loader that looks into the blob of a list finds the devices of that list and no others. `Shows`
relates an entry that was read to the device it was compiled from, field by field; equal names share
one place in the name table, so it says nothing of that place. Entry by entry, by name, by kind and
by the meaning of an auxiliary value, the blob answers as the list does (`compile_lookup`).
-/
namespace BoardBlob

/-! ## Auxiliary values -/

/-- The slot with a meaning is the one that the table of the kind has it in. -/
theorem DeviceKind.slotOf?_eq_some_iff (kind : DeviceKind) (meaning : AuxSlot) (slot : Fin 4) :
    kind.slotOf? meaning = some slot ↔ kind.auxLayout.get slot = some meaning := by
  -- No kind has one meaning in two slots, which only the whole table can tell.
  cases kind <;> cases meaning <;> revert slot <;> decide

/-! ## Entries and devices -/

/-- A loaded device shows a device: it has the name of the device, and its entry has all numbers of
the device, none of them reduced. -/
structure LoadedDevice.Shows (loaded : LoadedDevice) (device : Device) : Prop where
  name : loaded.name = device.name
  typeTag : loaded.entry.typeTag = device.kind.tag
  flags : loaded.entry.flags = device.flags
  regionBase : loaded.entry.regionBase = device.regionBase
  regionSize : loaded.entry.regionSize = device.regionSize
  irqLane : loaded.entry.irqLane.toNat = device.irqLane.toNat
  irqFlags : loaded.entry.irqFlags = device.irqFlags
  irqPriority : loaded.entry.irqPriority.toNat = device.irqPriority.toNat
  aux : loaded.entry.aux = device.aux

namespace LoadedDevice.Shows

variable {loaded : LoadedDevice} {device : Device}

/-- An entry that shows a device is of its kind. -/
theorem kind? (shows : loaded.Shows device) : loaded.entry.kind? = some device.kind := by
  rw [Entry.kind?, shows.typeTag, DeviceKind.ofTag?_tag]

/-- A meaning that the kind has in a slot gives the value of the device in that slot. -/
theorem auxValue?_of_get (shows : loaded.Shows device) {meaning : AuxSlot} {slot : Fin 4}
    (placed : device.kind.auxLayout.get slot = some meaning) :
    loaded.entry.auxValue? meaning = some (device.aux.get slot) := by
  have found := (device.kind.slotOf?_eq_some_iff meaning slot).mpr placed
  simp [Entry.auxValue?, shows.kind?, found, shows.aux]

/-- A meaning that the kind has in no slot gives no value. -/
theorem auxValue?_of_forall_ne (shows : loaded.Shows device) {meaning : AuxSlot}
    (absent : ∀ slot, device.kind.auxLayout.get slot ≠ some meaning) :
    loaded.entry.auxValue? meaning = none := by
  have unfound : device.kind.slotOf? meaning = none := by
    refine Option.eq_none_iff_forall_ne_some.mpr fun slot found => ?_
    exact absent slot ((device.kind.slotOf?_eq_some_iff meaning slot).mp found)
  simp [Entry.auxValue?, shows.kind?, unfound]

end LoadedDevice.Shows

/-- What a loader makes of a device that is not wide shows that device. -/
theorem loadedOf_shows {device : Device} (narrow : ¬device.Wide) (devices : List Device) :
    (loadedOf devices device).Shows device := by
  obtain ⟨lane, priority⟩ := Device.not_wide_iff.mp narrow
  exact {
    name := rfl
    typeTag := rfl
    flags := rfl
    regionBase := rfl
    regionSize := rfl
    irqLane := UInt32.toNat_ofNat_of_lt' lane
    irqFlags := rfl
    irqPriority := UInt32.toNat_ofNat_of_lt' priority
    aux := rfl }

/-! ## Lookups in a view -/

namespace BlobView

/-- A search among readable entries is one among the devices. -/
theorem findIn_map_ok (name : String) (loaded : List LoadedDevice) :
    findIn name (loaded.map .ok) = .ok (loaded.find? fun device => device.name = name) := by
  induction loaded with
  | nil => rfl
  | cons device rest ih =>
    rw [List.map_cons, findIn, List.find?_cons]
    by_cases named : device.name = name
    · simp [named]
    · simpa [named] using ih

end BlobView

namespace Compiles

variable {devices : List Device} {config : Config} {device : Device} {index : Nat}

/-- Every entry of a compiled blob shows the device at its position. -/
theorem forall₂_shows (compiles : Compiles devices config) :
    List.Forall₂ LoadedDevice.Shows (devices.map (loadedOf devices)) devices := by
  rw [List.forall₂_map_left_iff, List.forall₂_same]
  exact fun device member => loadedOf_shows (compiles.not_wide member) devices

/-- The entries of a compiled blob are readable one and all. -/
theorem entries_eq_map_ok (compiles : Compiles devices config) :
    (viewOf devices config).entries = (devices.map (loadedOf devices)).map .ok := by
  rw [compiles.entries_eq, List.map_map]
  rfl

/-- The search for a name in a compiled blob is the search in the list. -/
theorem find_eq (compiles : Compiles devices config) (name : String) :
    (viewOf devices config).find name =
      .ok ((devices.find? fun device => device.name = name).map (loadedOf devices)) := by
  rw [BlobView.find, compiles.entries_eq_map_ok, BlobView.findIn_map_ok, List.find?_map]
  rfl

/-- The search for a name that a device has gives the entry of the first such device. -/
theorem find_of_firstAt (compiles : Compiles devices config) {name : String}
    (first : FirstAt (fun _ device => device.name = name) devices index device) :
    (viewOf devices config).find name = .ok (some (loadedOf devices device)) := by
  have found : (devices.find? fun device => device.name = name) = some device :=
    FirstAt.find?_eq_some (by simpa using first)
  rw [compiles.find_eq, found, Option.map_some]

/-- The search for a name that no device has gives nothing. -/
theorem find_of_noneFails (compiles : Compiles devices config) {name : String}
    (unused : NoneFails (fun _ device => device.name = name) devices) :
    (viewOf devices config).find name = .ok none := by
  have unfound : (devices.find? fun device => device.name = name) = none :=
    NoneFails.find?_eq_none (by simpa using unused)
  rw [compiles.find_eq, unfound, Option.map_none]

/-- The devices of a kind in a compiled blob are those of the list. -/
theorem ofKind_eq (compiles : Compiles devices config) (kind : DeviceKind) :
    (viewOf devices config).ofKind kind =
      ((devices.filter fun device => device.kind = kind).map (loadedOf devices)).map .ok := by
  have ofKind (device : Device) :
      ((loadedOf devices device).entry.kind? == some kind) = decide (device.kind = kind) := by
    simp [Entry.kind?, loadedOf, Device.entry, beq_eq_decide]
  rw [BlobView.ofKind, compiles.entries_eq, List.filter_map, List.map_map]
  refine congrArg (List.map _) (List.filter_congr fun device _ => ?_)
  exact ofKind device

/-- No device of a compiled list has an empty name or one with U+0000. -/
theorem noneFails_of_unusable (compiles : Compiles devices config) {name : String}
    (unusable : name = "" ∨ '\x00' ∈ name.toList) :
    NoneFails (fun _ device => device.name = name) devices := by
  intro index device found same
  cases unusable with
  | inl blank =>
    have accepted := Device.not_refused_iff.mp (compiles.valid index device found)
    exact Device.name_ne_empty_of_accepted accepted (same.trans blank)
  | inr nul => exact compiles.plain (List.mem_of_getElem? found) (same ▸ nul)

end Compiles

/-- What a loader finds in a compiled blob. Every entry is readable and shows the device at its
position, whether the entries are taken as a list or one after the other. A search gives the entry
of the first device with the name, or nothing when no device has it, as for the empty name and any
name with U+0000, and never a fault. The devices of a kind are those of the list, in order. An
entry has the value of a slot under the meaning that its kind gives the slot, and under no other. -/
theorem compile_lookup {devices : List Device} {config : Config} {blob : Blob}
    (compiled : compile devices config = .ok blob) :
    ∃ view loaded, BlobView.parse blob.bytes = .ok view ∧
      (view.entries = loaded.map .ok ∧ List.Forall₂ LoadedDevice.Shows loaded devices) ∧
      (∀ index, Cursor.next { view := view, index := index } =
        (loaded[index]?).map fun found => (.ok found, { view := view, index := index + 1 })) ∧
      (∀ name,
        (∃ index device found, FirstAt (fun _ device => device.name = name) devices index device ∧
          loaded[index]? = some found ∧ view.find name = .ok (some found)) ∨
        (NoneFails (fun _ device => device.name = name) devices ∧ view.find name = .ok none)) ∧
      (∀ name, name = "" ∨ '\x00' ∈ name.toList → view.find name = .ok none) ∧
      (∀ kind, ∃ found, view.ofKind kind = found.map .ok ∧
        List.Forall₂ LoadedDevice.Shows found (devices.filter fun device => device.kind = kind)) ∧
      ∀ (index : Nat) (device : Device) (found : LoadedDevice) (meaning : AuxSlot),
        devices[index]? = some device → loaded[index]? = some found →
          (∀ slot, device.kind.auxLayout.get slot = some meaning →
            found.entry.auxValue? meaning = some (device.aux.get slot)) ∧
          ((∀ slot, device.kind.auxLayout.get slot ≠ some meaning) →
            found.entry.auxValue? meaning = none) := by
  obtain ⟨compiles, bytes⟩ := compile_eq_ok_iff.mp compiled
  refine ⟨viewOf devices config, devices.map (loadedOf devices), bytes ▸ compiles.parse_eq,
    ⟨compiles.entries_eq_map_ok, compiles.forall₂_shows⟩, ?iterate, ?find, ?unusable, ?ofKind,
    ?auxiliary⟩
  case iterate =>
    intro index
    rw [Cursor.next_eq, compiles.entries_eq_map_ok, List.getElem?_map, Option.map_map]
    rfl
  case find =>
    intro name
    cases FirstAt.exists_or_noneFails (fun _ device => device.name = name) devices with
    | inl used =>
      obtain ⟨index, device, first⟩ := used
      have here : (devices.map (loadedOf devices))[index]? = some (loadedOf devices device) := by
        rw [List.getElem?_map, first.here, Option.map_some]
      exact Or.inl ⟨index, device, _, first, here, compiles.find_of_firstAt first⟩
    | inr unused => exact Or.inr ⟨unused, compiles.find_of_noneFails unused⟩
  case unusable =>
    intro name unusable
    exact compiles.find_of_noneFails (compiles.noneFails_of_unusable unusable)
  case ofKind =>
    intro kind
    refine ⟨_, compiles.ofKind_eq kind, ?_⟩
    rw [List.forall₂_map_left_iff, List.forall₂_same]
    intro device member
    exact loadedOf_shows (compiles.not_wide (List.mem_of_mem_filter member)) devices
  case auxiliary =>
    intro index device found meaning here there
    rw [List.getElem?_map, here] at there
    cases there
    have shows := loadedOf_shows (compiles.not_wide (List.mem_of_getElem? here)) devices
    exact ⟨fun slot placed => shows.auxValue?_of_get placed, shows.auxValue?_of_forall_ne⟩

/-- Lookups where two devices have one name: the search gives the entry of the first of them, which
has the baud rate of that device, and a name that no device has gives nothing. -/
theorem compile_lookup_namesakes :
    ∃ blob view found, compile namesakes {} = .ok blob ∧ BlobView.parse blob.bytes = .ok view ∧
      view.find "u" = .ok (some found) ∧ found.entry.auxValue? .baudRate = some 115200 ∧
      view.find "rtc" = .ok none := by
  obtain ⟨view, loaded, parsed, _, _, search, _, _, auxiliary⟩ := compile_lookup compile_namesakes
  have expected : FirstAt (fun _ device => device.name = "u") namesakes 0 namesakes[0] :=
    FirstAt.of_head rfl
  obtain ⟨index, device, found, first, here, shown⟩ | ⟨unused, _⟩ := search "u"
  · obtain ⟨rfl, rfl⟩ := first.unique expected
    obtain ⟨placed, _⟩ := auxiliary 0 namesakes[0] found .baudRate rfl here
    obtain ⟨index, device, _, used, _, _⟩ | ⟨_, missing⟩ := search "rtc"
    · have absent : ∀ device ∈ namesakes, device.name ≠ "rtc" := by decide
      exact absurd used.fault (absent device (List.mem_of_getElem? used.here))
    · exact ⟨_, view, found, compile_namesakes, parsed, shown, placed 1 rfl, missing⟩
  · exact absurd rfl (unused 0 namesakes[0] rfl)

end BoardBlob
