import BoardBlob.Proofs.AcceptedView
import BoardBlob.Proofs.DecodedDevices
import BoardBlob.Proofs.OverwrittenBytes

/-!
# Blobs whose bytes were changed

How far a change of some bytes of an accepted blob reaches. A record is read by its own position
only, and a name only from the name table, which starts after all records: so a record that is
overwritten changes no other entry, and names that are overwritten change no field of any entry
(`parse_overwritten`). A name ends at its first zero byte, so bytes after the end of a blob can only
mend a name that ran past that end, and change nothing that was read before (`parse_padded`).
-/
namespace BoardBlob

/-- The first zero byte of a list is that of every longer list. -/
theorem idxOf?_append_of_eq_some {bytes : List UInt8} {length : Nat}
    (zero : bytes.idxOf? 0 = some length) (padding : List UInt8) :
    (bytes ++ padding).idxOf? 0 = some length := by
  rw [List.idxOf?] at zero ⊢
  rw [List.findIdx?_append, zero, Option.some_or]

namespace BlobView

/-- The view of other bytes with the same header. -/
def withBytes (view : BlobView) (bytes : List UInt8) : BlobView := { view with bytes := bytes }

/-! ## Overwritten bytes -/

/-- Names are read from the name table alone. -/
theorem nameAt_congr {view other : BlobView} (table : other.nameTable = view.nameTable)
    (offset : UInt32) : other.nameAt offset = view.nameAt offset := by
  rw [nameAt_eq, nameAt_eq, table]

/-- An entry is read from its own record and the name table alone. -/
theorem get_congr {view other : BlobView} {index : Nat} (header : other.header = view.header)
    (record : index < view.size → other.record? index = view.record? index)
    (table : other.nameTable = view.nameTable) : other.get index = view.get index := by
  have counted : other.size = view.size := by
    rw [size, size, header]
  by_cases inside : index < view.size
  · have range := record inside
    rw [record?, record?] at range
    have name (offset : UInt32) := nameAt_congr table offset
    simp only [get, counted, range, header, name]
  · have outside : view.size ≤ index := Nat.not_lt.mp inside
    rw [get, get, counted, if_pos outside, if_pos outside]

section Overwrite

variable {view : BlobView} {patch : List UInt8} {position index : Nat}

/-- Bytes that were overwritten after the header are accepted with the same header. -/
theorem parse_overwrite {bytes : List UInt8} (parsed : parse bytes = .ok view)
    (inside : position + patch.length ≤ bytes.length) (after : Header.size ≤ position) :
    parse (overwrite bytes position patch) =
      .ok (view.withBytes (overwrite bytes position patch)) := by
  obtain ⟨rfl, _, accepted⟩ := parse_eq_ok_iff.mp parsed
  apply parse_of_long parsed
  · apply slice?_overwrite_of_disjoint inside
    · omega
    · exact Or.inl after
  · rw [length_overwrite inside]
    exact accepted.inside

/-- Bytes that were overwritten before the name table leave the table as it was. -/
theorem nameTable_overwrite (inside : position + patch.length ≤ view.bytes.length)
    (before : position + patch.length ≤ view.header.nameListOffset.toNat) :
    (view.withBytes (overwrite view.bytes position patch)).nameTable = view.nameTable := by
  simp only [nameTable, withBytes, suffix?, length_overwrite inside, drop_overwrite inside before]

/-- An entry keeps its fields when its record keeps its bytes. -/
theorem entry_eq_of_get {other : BlobView} {before after : LoadedDevice}
    (record : other.record? index = view.record? index)
    (found : view.get index = .ok before) (foundAfter : other.get index = .ok after) :
    after.entry = before.entry := by
  obtain ⟨_, decoded, _⟩ := get_eq_ok_iff.mp found
  obtain ⟨_, decodedAfter, _⟩ := get_eq_ok_iff.mp foundAfter
  rw [record, decoded] at decodedAfter
  exact (Option.some.inj decodedAfter).symm

namespace Accepted

/-- A record that the patch does not meet keeps its bytes. -/
theorem record?_overwrite (accepted : view.Accepted) (inside : index < view.size)
    (reached : position + patch.length ≤ view.bytes.length)
    (disjoint : Header.size + index * Entry.size + Entry.size ≤ position ∨
      position + patch.length ≤ Header.size + index * Entry.size) :
    (view.withBytes (overwrite view.bytes position patch)).record? index = view.record? index :=
  slice?_overwrite_of_disjoint reached (accepted.record_le inside) disjoint

/-- An entry is read as before when bytes before the name table are overwritten that are not those
of its record. -/
theorem get_overwrite_of_disjoint (accepted : view.Accepted)
    (before : position + patch.length ≤ view.header.nameListOffset.toNat)
    (disjoint : Header.size + index * Entry.size + Entry.size ≤ position ∨
      position + patch.length ≤ Header.size + index * Entry.size) :
    (view.withBytes (overwrite view.bytes position patch)).get index = view.get index := by
  have reached := Nat.le_trans before accepted.inside
  refine get_congr rfl (fun inside => ?_) (nameTable_overwrite reached before)
  exact accepted.record?_overwrite inside reached disjoint

/-- The entries before and after a record that is overwritten are read as before. -/
theorem get_overwrite_of_ne (accepted : view.Accepted) (inside : index < view.size)
    (sized : patch.length = Entry.size) {other : Nat} (differ : other ≠ index) :
    (view.withBytes (overwrite view.bytes (Header.size + index * Entry.size) patch)).get other =
      view.get other := by
  apply accepted.get_overwrite_of_disjoint
  · rw [accepted.position, sized]
    simp only [Entry.size]
    omega
  · rw [sized]
    simp only [Header.size, Entry.size]
    omega

/-- An entry whose record is overwritten has the fields of the new record. -/
theorem decode_of_get_overwrite (accepted : view.Accepted) (inside : index < view.size)
    (sized : patch.length = Entry.size) {device : LoadedDevice}
    (found : (view.withBytes (overwrite view.bytes (Header.size + index * Entry.size) patch)).get
      index = .ok device) : Entry.decode patch = some device.entry := by
  have reached : Header.size + index * Entry.size + patch.length ≤ view.bytes.length := by
    rw [sized]
    exact accepted.record_le inside
  have written := slice?_overwrite_self reached
  rw [sized] at written
  obtain ⟨_, decoded, _⟩ := get_eq_ok_iff.mp found
  rwa [record?, withBytes, written, Option.bind_some] at decoded

/-- Names that are overwritten change no field of an entry. -/
theorem entry_overwrite_names (accepted : view.Accepted)
    (after : view.header.nameListOffset.toNat ≤ position)
    (reached : position + patch.length ≤ view.bytes.length) {found changed : LoadedDevice}
    (read : view.get index = .ok found)
    (readAfter : (view.withBytes (overwrite view.bytes position patch)).get index =
      .ok changed) : changed.entry = found.entry := by
  obtain ⟨inside, _, _⟩ := get_eq_ok_iff.mp read
  have follows := accepted.position
  apply entry_eq_of_get _ read readAfter
  apply accepted.record?_overwrite inside reached
  left
  simp only [Header.size, Entry.size] at follows ⊢
  omega

end Accepted

end Overwrite

end BlobView

/-- Entries of an accepted blob do not reach into each other. When the record of one entry is
overwritten, whatever with, the blob is accepted with the same header, every other entry is read as
before, with its fault if it has one, and the entry itself has the fields of the new record as soon
as its name is found. When bytes of the name table are overwritten, the blob is accepted with the
same header, and every entry that is read before and after keeps its fields. -/
theorem parse_overwritten {bytes : List UInt8} {view : BlobView}
    (parsed : BlobView.parse bytes = .ok view) :
    (∀ (index : Nat) (record : List UInt8), index < view.size → record.length = 72 →
      ∃ changed entry, BlobView.parse (overwrite bytes (24 + 72 * index) record) = .ok changed ∧
        changed.header = view.header ∧
        (∀ other, other ≠ index → changed.get other = view.get other) ∧
        Entry.decode record = some entry ∧
        ∀ device, changed.get index = .ok device → device.entry = entry) ∧
    ∀ (position : Nat) (patch : List UInt8), view.header.nameListOffset.toNat ≤ position →
      position + patch.length ≤ bytes.length →
      ∃ changed, BlobView.parse (overwrite bytes position patch) = .ok changed ∧
        changed.header = view.header ∧
        ∀ index before after, view.get index = .ok before → changed.get index = .ok after →
          after.entry = before.entry := by
  obtain ⟨rfl, _, accepted⟩ := BlobView.parse_eq_ok_iff.mp parsed
  constructor
  · intro index record inside sized
    have start : 24 + 72 * index = Header.size + index * Entry.size := by
      rw [Header.size, Entry.size, Nat.mul_comm]
    have reached : Header.size + index * Entry.size + record.length ≤ view.bytes.length := by
      rw [show record.length = Entry.size from sized]
      exact accepted.record_le inside
    obtain ⟨entry, decoded⟩ := Entry.exists_decode (Nat.le_of_eq sized.symm)
    rw [start]
    refine ⟨_, entry, BlobView.parse_overwrite parsed reached (Nat.le_add_right _ _), rfl, ?_,
      decoded, ?_⟩
    · intro other differ
      exact accepted.get_overwrite_of_ne inside sized differ
    · intro device found
      have stored := accepted.decode_of_get_overwrite inside sized found
      rw [decoded] at stored
      exact (Option.some.inj stored).symm
  · intro position patch after inside
    have afterHeader : Header.size ≤ position := by
      have follows := accepted.position
      omega
    refine ⟨_, BlobView.parse_overwrite parsed inside afterHeader, rfl, ?_⟩
    intro index before found read readAfter
    exact accepted.entry_overwrite_names after inside read readAfter

/-- A blob of four entries: the second name is the end of the first, the third is not text, and the
fourth runs past the end of the table. -/
def nestedNames : List UInt8 :=
  Layout.assemble (.current 4 312 0)
    ([{ typeTag := 6, irqLane := 33 }, { typeTag := 6, nameOffset := 1 },
      { typeTag := 2, nameOffset := 3 }, { typeTag := 2, nameOffset := 5 }].flatMap Entry.encode)
    [0x61, 0x62, 0, 0xff, 0, 0x63]

/-- The view of that blob. -/
def nestedView : BlobView := { bytes := nestedNames, header := .current 4 312 0 }

/-- The blob is accepted with that view. -/
theorem parse_nestedNames : BlobView.parse nestedNames = .ok nestedView := by
  decide +kernel

/-- Two of the four entries are read. -/
theorem get_nestedView :
    nestedView.get 0 = .ok { entry := { typeTag := 6, irqLane := 33 }, name := "ab" } ∧
      nestedView.get 1 = .ok { entry := { typeTag := 6, nameOffset := 1 }, name := "b" } ∧
      nestedView.get 2 = .error (.notUtf8 3) ∧
      nestedView.get 3 = .error (.unterminatedName 5) := by
  decide +kernel

/-- With another record, the second entry has other fields, and the fault of the third stays. With
another letter in the table, the first entry has another name and its old fields. -/
theorem parse_overwritten_nestedNames :
    ∃ changed renamed device after,
      BlobView.parse (overwrite nestedNames 96 (Entry.encode { typeTag := 9, irqLane := 7 })) =
        .ok changed ∧
      changed.get 1 = .ok device ∧ device.entry = { typeTag := 9, irqLane := 7 } ∧
      changed.get 2 = .error (.notUtf8 3) ∧
      BlobView.parse (overwrite nestedNames 312 [0x7a]) = .ok renamed ∧
      renamed.get 0 = .ok after ∧ after.name = "zb" ∧
      after.entry = { typeTag := 6, irqLane := 33 } := by
  obtain ⟨records, names⟩ := parse_overwritten parse_nestedNames
  obtain ⟨changed, entry, parsed, _, others, decoded, own⟩ :=
    records 1 (Entry.encode { typeTag := 9, irqLane := 7 }) (by decide) (Entry.length_encode _)
  obtain ⟨renamed, parsedNames, _, kept⟩ := names 312 [0x7a] (by decide) (by decide +kernel)
  rw [Entry.decode_encode] at decoded
  obtain ⟨first, _, notText, _⟩ := get_nestedView
  have second : (BlobView.parse (overwrite nestedNames (24 + 72 * 1)
      (Entry.encode { typeTag := 9, irqLane := 7 }))).bind (fun view => view.get 1) =
        .ok { entry := { typeTag := 9, irqLane := 7 }, name := "ab" } := by
    decide +kernel
  have renames : (BlobView.parse (overwrite nestedNames 312 [0x7a])).bind
      (fun view => view.get 0) =
        .ok { entry := { typeTag := 6, irqLane := 33 }, name := "zb" } := by
    decide +kernel
  rw [parsed] at second
  rw [parsedNames] at renames
  refine ⟨changed, renamed, _, _, parsed, second, ?_, ?_, parsedNames, renames, rfl, ?_⟩
  · rw [own _ second]
    exact (Option.some.inj decoded).symm
  · rw [others 2 (by decide), notText]
  · exact kept 0 _ _ first renames

/-! ## Further bytes -/

/-- The fault is one of a name that runs past the end of the name table. -/
inductive LoadFault.PastEnd : LoadFault → Prop where
  | outOfRange (offset : UInt32) : PastEnd (.nameOutOfRange offset)
  | unterminated (offset : UInt32) : PastEnd (.unterminatedName offset)

/-- What was read is not the fault of a name that runs past the end of the table. -/
def Settled {α : Type} (result : Except LoadFault α) : Prop :=
  ∀ fault, result = .error fault → ¬fault.PastEnd

namespace BlobView

variable {view : BlobView} {padding : List UInt8}

/-- A name that does not run past the end of the table is the same in every longer table. -/
theorem nameAt_append {padded : BlobView} (table : padded.nameTable = view.nameTable ++ padding)
    {offset : UInt32} (settled : Settled (view.nameAt offset)) :
    padded.nameAt offset = view.nameAt offset := by
  by_cases outside : view.nameTable.length ≤ offset.toNat
  · have fault : view.nameAt offset = .error (.nameOutOfRange offset) := by
      rw [nameAt_eq, if_pos outside]
    exact absurd (.outOfRange offset) (settled _ fault)
  · cases zero : (view.nameTable.drop offset.toNat).idxOf? 0 with
    | none =>
      have fault : view.nameAt offset = .error (.unterminatedName offset) := by
        rw [nameAt_eq, if_neg outside, zero]
      exact absurd (.unterminated offset) (settled _ fault)
    | some length =>
      have insideStill : ¬padded.nameTable.length ≤ offset.toNat := by
        rw [table, List.length_append]
        omega
      have rest : padded.nameTable.drop offset.toNat =
          view.nameTable.drop offset.toNat ++ padding := by
        rw [table, List.drop_append_of_le_length (by omega)]
      have zeroStill := idxOf?_append_of_eq_some zero padding
      have stop := add_idxOf?_lt zero
      have within : length ≤ (view.nameTable.drop offset.toNat).length := by
        rw [List.length_drop]
        omega
      rw [nameAt_eq, nameAt_eq, if_neg insideStill, if_neg outside, rest, zero, zeroStill]
      simp only [List.take_append_of_le_length within]

namespace Accepted

/-- The name table of a blob that goes on is the old one, followed by the further bytes. -/
theorem nameTable_append (accepted : view.Accepted) :
    (view.withBytes (view.bytes ++ padding)).nameTable = view.nameTable ++ padding := by
  have inside := accepted.inside
  have insideStill : view.header.nameListOffset.toNat ≤ (view.bytes ++ padding).length := by
    rw [List.length_append]
    omega
  rw [accepted.nameTable_eq, nameTable, withBytes, suffix?_of_le insideStill, Option.getD_some,
    List.drop_append_of_le_length inside]

/-- An entry that has no name past the end of the table is the same in every longer blob. -/
theorem get_append (accepted : view.Accepted) {index : Nat} (settled : Settled (view.get index)) :
    (view.withBytes (view.bytes ++ padding)).get index = view.get index := by
  by_cases inside : index < view.size
  · obtain ⟨record, entry, found, _, decoded⟩ := accepted.exists_record inside
    have read := get_of_record inside found decoded
    have named : Settled (view.nameAt entry.nameOffset) := by
      intro fault failed
      apply settled fault
      rw [read, failed]
      rfl
    have foundStill : slice? (view.bytes ++ padding) (Header.size + index * Entry.size)
        (Header.size + index * Entry.size + Entry.size) = some record := by
      rw [slice?_append_left (accepted.record_le inside), found]
    have readStill : (view.withBytes (view.bytes ++ padding)).get index =
        ((view.withBytes (view.bytes ++ padding)).nameAt entry.nameOffset).map fun name =>
          { entry := entry, name := name } :=
      get_of_record inside foundStill decoded
    rw [readStill, read, nameAt_append accepted.nameTable_append named]
  · have outside : view.size ≤ index := Nat.not_lt.mp inside
    have outsideStill : (view.withBytes (view.bytes ++ padding)).size ≤ index := outside
    rw [get, get, if_pos outside, if_pos outsideStill]

/-- A device that is read from a blob is read from every longer one. -/
theorem get_append_of_ok (accepted : view.Accepted) {index : Nat} {device : LoadedDevice}
    (read : view.get index = .ok device) :
    (view.withBytes (view.bytes ++ padding)).get index = .ok device := by
  have settled : Settled (view.get index) := by
    intro fault failed
    rw [read] at failed
    contradiction
  rw [accepted.get_append settled, read]

end Accepted

/-! ### Searches that read the same devices -/

section Keeps

variable {α : Type} {read readAgain : α → Except LoadFault LoadedDevice}

/-- A search that ends without a fault ends the same way when every device is still read. -/
theorem findIn_map_of_keeps (keeps : ∀ item device, read item = .ok device →
      readAgain item = .ok device)
    {name : String} {items : List α} {found : Option LoadedDevice}
    (searched : findIn name (items.map read) = .ok found) :
    findIn name (items.map readAgain) = .ok found := by
  induction items with
  | nil => exact searched
  | cons item rest ih =>
    rw [List.map_cons] at searched ⊢
    cases here : read item with
    | error fault => simp [here, findIn] at searched
    | ok device =>
      rw [here, findIn] at searched
      rw [keeps item device here, findIn]
      by_cases named : device.name = name
      · rwa [if_pos named] at searched ⊢
      · rw [if_neg named] at searched ⊢
        exact ih searched

/-- Entries that stand for devices stand for the same ones when every device is still read. -/
theorem devicesOf_map_of_keeps (keeps : ∀ item device, read item = .ok device →
      readAgain item = .ok device)
    {items : List α} {devices : List Device} (decoded : devicesOf (items.map read) = .ok devices) :
    devicesOf (items.map readAgain) = .ok devices := by
  have each := devicesOf_eq_ok_iff.mp decoded
  have same : items.map readAgain = items.map read := by
    apply List.map_congr_left
    intro item member
    have stands : deviceOf (read item) ∈ devices.map Except.ok := by
      rw [← each]
      exact List.mem_map_of_mem (List.mem_map_of_mem member)
    cases here : read item with
    | error fault => simp [here, deviceOf] at stands
    | ok loaded => exact keeps item loaded here
  rw [same, decoded]

end Keeps

end BlobView

/-- What bytes after the end of an accepted blob may change. The longer blob is accepted with the
same header. Every device that was read is read again, and every fault stays as it was unless it is
that of a name that ran past the end of the name table. So a search that ended without a fault ends
the same way, and a blob that was decompiled is decompiled to the same devices. -/
theorem parse_padded {bytes : List UInt8} {view : BlobView}
    (parsed : BlobView.parse bytes = .ok view) (padding : List UInt8) :
    ∃ padded, BlobView.parse (bytes ++ padding) = .ok padded ∧ padded.header = view.header ∧
      (∀ index device, view.get index = .ok device → padded.get index = .ok device) ∧
      (∀ index fault, view.get index = .error fault → ¬fault.PastEnd →
        padded.get index = .error fault) ∧
      (∀ name found, view.find name = .ok found → padded.find name = .ok found) ∧
      ∀ devices, decompile bytes = .ok devices → decompile (bytes ++ padding) = .ok devices := by
  obtain ⟨rfl, _, accepted⟩ := BlobView.parse_eq_ok_iff.mp parsed
  have long : Header.size ≤ view.bytes.length := by
    have position := accepted.position
    have inside := accepted.inside
    omega
  have parsedStill : BlobView.parse (view.bytes ++ padding) =
      .ok (view.withBytes (view.bytes ++ padding)) := by
    apply BlobView.parse_of_long parsed (slice?_append_left long padding 0)
    have inside := accepted.inside
    rw [List.length_append]
    omega
  have keeps (index : Nat) (device : LoadedDevice) (read : view.get index = .ok device) :
      (view.withBytes (view.bytes ++ padding)).get index = .ok device :=
    accepted.get_append_of_ok read
  refine ⟨_, parsedStill, rfl, keeps, ?faults, ?searches, ?devices⟩
  case faults =>
    intro index fault failed stays
    have settled : Settled (view.get index) := by
      intro other same past
      rw [failed] at same
      cases same
      exact stays past
    rw [accepted.get_append settled, failed]
  case searches =>
    intro name found searched
    exact BlobView.findIn_map_of_keeps keeps searched
  case devices =>
    intro devices decompiled
    rw [decompile, parsed] at decompiled
    rw [decompile, parsedStill]
    exact BlobView.devicesOf_map_of_keeps keeps decompiled

/-- Two further bytes end the name that ran past the end of the table, and leave the name that is
not text and every device as they were. -/
theorem parse_padded_nestedNames :
    ∃ padded mended, BlobView.parse (nestedNames ++ [0x64, 0]) = .ok padded ∧
      padded.get 0 = .ok { entry := { typeTag := 6, irqLane := 33 }, name := "ab" } ∧
      padded.find "b" = .ok (some { entry := { typeTag := 6, nameOffset := 1 }, name := "b" }) ∧
      padded.get 2 = .error (.notUtf8 3) ∧
      nestedView.get 3 = .error (.unterminatedName 5) ∧ padded.get 3 = .ok mended ∧
      mended.name = "cd" := by
  obtain ⟨padded, parsed, _, devices, faults, searches, _⟩ :=
    parse_padded parse_nestedNames [0x64, 0]
  obtain ⟨first, _, notText, endless⟩ := get_nestedView
  have search : nestedView.find "b" =
      .ok (some { entry := { typeTag := 6, nameOffset := 1 }, name := "b" }) := by
    decide +kernel
  have ended : (BlobView.parse (nestedNames ++ [0x64, 0])).bind (fun view => view.get 3) =
      .ok { entry := { typeTag := 2, nameOffset := 5 }, name := "cd" } := by
    decide +kernel
  rw [parsed] at ended
  have stays : ¬(LoadFault.notUtf8 3).PastEnd := by
    rintro ⟨⟩
  exact ⟨padded, _, parsed, devices 0 _ first, searches _ _ search, faults 2 _ notText stays,
    endless, ended, rfl⟩

end BoardBlob
