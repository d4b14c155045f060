import BoardBlob.Proofs.CompiledLookup
import BoardBlob.Proofs.DecodedDevices

/-!
# Compiled blobs that were cut short

What a loader makes of the first bytes of a compiled blob. Every cut is noticed: inside the header,
inside the entries, or else at the first entry whose name has lost its zero byte, which may be an
entry far from the last (`decompile_take`). Such an entry always exists, since the last bytes of the
table are those of a name that some device has.
-/
namespace BoardBlob

namespace BlobView

/-- The position in a blob of the zero byte that ends the name of a loaded device. -/
def nameStop (view : BlobView) (found : LoadedDevice) : Nat :=
  view.header.nameListOffset.toNat + found.entry.nameOffset.toNat + found.name.utf8ByteSize

/-! ## Names in a table that was cut short -/

/-- A name in a table of which only the first `count` bytes are left: it is out of range when it
would start past them, has no end when its zero byte is past them, and is whole else. -/
theorem nameAt_of_take {view : BlobView} {before after : List UInt8} {name : String}
    {offset : UInt32} {count : Nat}
    (table : view.nameTable = (before ++ (Utf8.bytes name ++ 0 :: after)).take count)
    (placed : offset.toNat = before.length) (plain : '\x00' ∉ name.toList) :
    view.nameAt offset =
      if count ≤ before.length then .error (.nameOutOfRange offset)
      else if count ≤ before.length + (Utf8.bytes name).length then
        .error (.unterminatedName offset)
      else .ok name := by
  by_cases outside : count ≤ before.length
  · have short : view.nameTable.length ≤ offset.toNat := by
      rw [table, placed, List.length_take]
      omega
    rw [nameAt_eq, if_pos short, if_pos outside]
  · rw [if_neg outside]
    by_cases cut : count ≤ before.length + (Utf8.bytes name).length
    · have long : ¬view.nameTable.length ≤ offset.toNat := by
        rw [table, placed, List.length_take]
        simp only [List.length_append, List.length_cons]
        omega
      -- What is left of the name has no zero byte, as the name has none.
      have rest : view.nameTable.drop offset.toNat =
          (Utf8.bytes name).take (count - before.length) := by
        rw [table, placed, List.drop_take, List.drop_left,
          List.take_append_of_le_length (by omega)]
      have endless : ((Utf8.bytes name).take (count - before.length)).idxOf? 0 = none := by
        refine List.idxOf?_eq_none_iff.mpr fun zero => ?_
        exact plain ((Utf8.zero_mem_bytes_iff name).mp (List.mem_of_mem_take zero))
      rw [nameAt_eq, if_neg long, rest, endless, if_pos cut]
    · have whole : view.nameTable = before ++
          (Utf8.bytes name ++ 0 :: after.take (count - before.length - (Utf8.bytes name).length - 1)) := by
        have shorter : count - before.length - (Utf8.bytes name).length =
            count - before.length - (Utf8.bytes name).length - 1 + 1 := by omega
        rw [table, List.take_append, List.take_of_length_le (by omega), List.take_append,
          List.take_of_length_le (by omega), shorter, List.take_succ_cons, Nat.add_sub_cancel]
      rw [if_neg cut]
      exact nameAt_of_nameTable whole placed plain

end BlobView

/-- The fault of a device whose name has lost its zero byte, in a blob whose name table starts at
`table` and of which the first `kept` bytes are left. -/
def lostName (table kept : Nat) (found : LoadedDevice) : LoadFault :=
  if kept ≤ table + found.entry.nameOffset.toNat then .nameOutOfRange found.entry.nameOffset
  else .unterminatedName found.entry.nameOffset

/-! ## Compiled blobs -/

/-- What is left of the view of a blob of which only the first `kept` bytes are. -/
def cutView (devices : List Device) (config : Config) (kept : Nat) : BlobView :=
  { viewOf devices config with bytes := (blobBytes devices config).take kept }

/-- What is read of a device in a blob of which only the first `kept` bytes are left. -/
def cutEntry (view : BlobView) (kept : Nat) (found : LoadedDevice) :
    Except LoadFault LoadedDevice :=
  if kept ≤ view.nameStop found then .error (lostName view.header.nameListOffset.toNat kept found)
  else .ok found

namespace Compiles

variable {devices : List Device} {config : Config} {device : Device} {index kept : Nat}

/-- The name table of a compiled blob starts after its entries. -/
theorem nameListOffset_eq (compiles : Compiles devices config) :
    (viewOf devices config).header.nameListOffset.toNat =
      Header.size + Entry.size * devices.length :=
  Layout.nameListOffset_of_header compiles.header

/-- The blob of a list is its header, its entries and its names. -/
theorem size_blobBytes (devices : List Device) (config : Config) :
    (blobBytes devices config).length = Header.size + Entry.size * devices.length +
      (NameTable.image (devices.map Device.name)).length := by
  rw [blobBytes, Layout.assemble, List.length_append, List.length_append, Header.length_encode,
    length_entries]

/-- A cut that leaves all entries leaves a blob that is accepted. -/
theorem parse_take (compiles : Compiles devices config)
    (whole : Header.size + Entry.size * devices.length ≤ kept)
    (cut : kept < (blobBytes devices config).length) :
    BlobView.parse ((blobBytes devices config).take kept) = .ok (cutView devices config kept) := by
  refine BlobView.parse_of_long compiles.parse_eq (slice?_take _ 0 (by omega)) ?_
  rw [compiles.nameListOffset_eq, List.length_take]
  omega

/-- The name table of a cut blob is what is left of the table. -/
theorem nameTable_cutView (compiles : Compiles devices config)
    (whole : Header.size + Entry.size * devices.length ≤ kept)
    (cut : kept < (blobBytes devices config).length) :
    (cutView devices config kept).nameTable = (NameTable.image (devices.map Device.name)).take
      (kept - (Header.size + Entry.size * devices.length)) := by
  obtain ⟨_, _, accepted⟩ := BlobView.parse_eq_ok_iff.mp (compiles.parse_take whole cut)
  obtain ⟨_, _, uncut⟩ := BlobView.parse_eq_ok_iff.mp compiles.parse_eq
  have position := compiles.nameListOffset_eq
  have table : (blobBytes devices config).drop (Header.size + Entry.size * devices.length) =
      NameTable.image (devices.map Device.name) := by
    rw [← position, ← compiles.nameTable_eq]
    exact uncut.nameTable_eq.symm
  rw [accepted.nameTable_eq]
  change ((blobBytes devices config).take kept).drop
    (viewOf devices config).header.nameListOffset.toNat = _
  rw [position, List.drop_take, table]

/-- The entry at a position of a cut blob, which has a fault when the zero byte after its name is
lost. -/
theorem get_cutView (compiles : Compiles devices config) (found : devices[index]? = some device)
    (whole : Header.size + Entry.size * devices.length ≤ kept)
    (cut : kept < (blobBytes devices config).length) :
    (cutView devices config kept).get index =
      cutEntry (viewOf devices config) kept (loadedOf devices device) := by
  have member : device ∈ devices := List.mem_of_getElem? found
  obtain ⟨inside, _⟩ := List.getElem?_eq_some_iff.mp found
  have size : (cutView devices config kept).size = devices.length := compiles.size_eq
  have record : slice? (cutView devices config kept).bytes (Header.size + index * Entry.size)
      (Header.size + index * Entry.size + Entry.size) =
        some (loadedOf devices device).entry.encode := by
    rw [cutView, slice?_take _ _ (by simp only [Entry.size] at whole ⊢; omega)]
    exact slice?_record found
  obtain ⟨before, after, parts, placed⟩ := compiles.exists_image_eq member
  have table := compiles.nameTable_cutView whole cut
  rw [parts] at table
  have stop : (viewOf devices config).nameStop (loadedOf devices device) =
      Header.size + Entry.size * devices.length + before.length +
        (Utf8.bytes device.name).length := by
    rw [BlobView.nameStop, compiles.nameListOffset_eq, placed]
    rfl
  have starts : kept - (Header.size + Entry.size * devices.length) ≤ before.length ↔
      kept ≤ Header.size + Entry.size * devices.length + before.length := by omega
  have ends : kept - (Header.size + Entry.size * devices.length) ≤
        before.length + (Utf8.bytes device.name).length ↔
      kept ≤ Header.size + Entry.size * devices.length + before.length +
        (Utf8.bytes device.name).length := by omega
  rw [BlobView.get_of_record (size ▸ inside) record (Entry.decode_encode _),
    BlobView.nameAt_of_take table placed (compiles.plain member), cutEntry, stop, lostName,
    compiles.nameListOffset_eq, placed]
  simp only [starts, ends]
  by_cases outside : kept ≤ Header.size + Entry.size * devices.length + before.length
  · have lost : kept ≤ Header.size + Entry.size * devices.length + before.length +
        (Utf8.bytes device.name).length := by omega
    rw [if_pos outside, if_pos lost, if_pos outside]
    rfl
  · rw [if_neg outside, if_neg outside]
    split
    · rfl
    · rfl

/-- The name of every device stands in the blob where its entry says, and a zero byte after it. -/
theorem slice?_name (compiles : Compiles devices config) (member : device ∈ devices) :
    slice? (blobBytes devices config)
        (Header.size + Entry.size * devices.length +
          (loadedOf devices device).entry.nameOffset.toNat)
        ((viewOf devices config).nameStop (loadedOf devices device)) =
      some (Utf8.bytes device.name) ∧
    (blobBytes devices config)[(viewOf devices config).nameStop (loadedOf devices device)]? =
      some 0 := by
  obtain ⟨before, after, parts, placed⟩ := compiles.exists_image_eq member
  let front := (headerOf devices config).encode ++ (entriesOf devices).flatMap Entry.encode ++ before
  have bytes : blobBytes devices config = front ++ Utf8.bytes device.name ++ 0 :: after := by
    rw [blobBytes, Layout.assemble, parts]
    simp [front]
  have start : Header.size + Entry.size * devices.length +
      (loadedOf devices device).entry.nameOffset.toNat = front.length := by
    simp only [front, List.length_append, Header.length_encode, length_entries, placed]
  have stop : (viewOf devices config).nameStop (loadedOf devices device) =
      front.length + (Utf8.bytes device.name).length := by
    rw [BlobView.nameStop, compiles.nameListOffset_eq, start]
    rfl
  rw [start, stop, bytes]
  refine ⟨slice?_middle _ _ _, ?_⟩
  rw [← List.length_append, List.getElem?_append_right (Nat.le_refl _), Nat.sub_self]
  rfl

/-- Some name of a blob that was cut inside its name table has lost its zero byte. -/
theorem exists_lost (compiles : Compiles devices config)
    (whole : Header.size + Entry.size * devices.length ≤ kept)
    (cut : kept < (blobBytes devices config).length) :
    ∃ index found, FirstAt (fun _ found => kept ≤ (viewOf devices config).nameStop found)
      (devices.map (loadedOf devices)) index found := by
  refine (FirstAt.exists_or_noneFails _ _).resolve_right fun pass => ?_
  rw [size_blobBytes] at cut
  have used : devices.map Device.name ≠ [] := by
    intro unused
    rw [unused, NameTable.image_nil, List.length_nil] at cut
    omega
  -- The name that was stored last ends at the last byte of the blob.
  obtain ⟨name, known, last⟩ := NameTable.exists_placeIn_add_eq used
  obtain ⟨device, member, rfl⟩ := List.mem_map.mp known
  obtain ⟨index, found⟩ := List.getElem?_of_mem member
  have stop : (viewOf devices config).nameStop (loadedOf devices device) =
      Header.size + Entry.size * devices.length +
        NameTable.placeIn (devices.map Device.name) device.name + device.name.utf8ByteSize := by
    rw [BlobView.nameStop, compiles.nameListOffset_eq, loadedOf, Device.entry,
      compiles.toNat_placeIn member]
  refine pass index (loadedOf devices device) ?_ (by omega)
  rw [List.getElem?_map, found, Option.map_some]

/-- Decompiling a blob that was cut inside its name table gives the fault of the first device whose
name has lost its zero byte. -/
theorem decompile_take (compiles : Compiles devices config)
    (whole : Header.size + Entry.size * devices.length ≤ kept)
    (cut : kept < (blobBytes devices config).length) {found : LoadedDevice}
    (first : FirstAt (fun _ found => kept ≤ (viewOf devices config).nameStop found)
      (devices.map (loadedOf devices)) index found) :
    decompile ((blobBytes devices config).take kept) =
      .error (lostName (viewOf devices config).header.nameListOffset.toNat kept found) := by
  have entries : (cutView devices config kept).entries =
      (devices.map (loadedOf devices)).map (cutEntry (viewOf devices config) kept) := by
    rw [List.map_map]
    exact BlobView.entries_eq_map compiles.size_eq fun _ _ here =>
      compiles.get_cutView here whole cut
  have lost := first.fault
  have failed : deviceOf (cutEntry (viewOf devices config) kept found) =
      .error (lostName (viewOf devices config).header.nameListOffset.toNat kept found) := by
    rw [cutEntry, if_pos lost, deviceOf]
  rw [decompile, compiles.parse_take whole cut]
  simp only [entries]
  refine devicesOf_of_firstAt (first.map fun position item here => ?_) failed
  -- Every kind of a compiled blob is known, so an entry has a fault only for its name.
  by_cases ends : kept ≤ (viewOf devices config).nameStop item
  · simp [cutEntry, ends, deviceOf]
  · rw [List.getElem?_map, Option.map_eq_some_iff] at here
    obtain ⟨device, _, rfl⟩ := here
    simp [cutEntry, ends, deviceOf, kind_loadedOf, Except.map]

end Compiles

/-- Every cut of a compiled blob is noticed when it is decompiled. A cut inside the header leaves
too few bytes, and one inside the entries truncates them. A cut inside the name table is reported
for the first device whose name has lost its zero byte, and there is one: the name is out of range
when not even its first byte is left, and unterminated else. The zero byte of a name is the one
after its bytes, which start where its entry says. -/
theorem decompile_cut {devices : List Device} {config : Config} {blob : Blob}
    (compiled : compile devices config = .ok blob) :
    ∃ view loaded, BlobView.parse blob.bytes = .ok view ∧
      (view.entries = loaded.map .ok ∧ List.Forall₂ LoadedDevice.Shows loaded devices) ∧
      view.header.entriesCount.toNat = devices.length ∧
      view.header.nameListOffset.toNat = 24 + 72 * devices.length ∧
      (∀ found ∈ loaded,
        slice? blob.bytes (24 + 72 * devices.length + found.entry.nameOffset.toNat)
          (view.nameStop found) = some (Utf8.bytes found.name) ∧
        blob.bytes[view.nameStop found]? = some 0) ∧
      ∀ kept < blob.size,
        (kept < 24 → decompile (blob.bytes.take kept) = .error .tooShort) ∧
        (24 ≤ kept → kept < 24 + 72 * devices.length →
          decompile (blob.bytes.take kept) = .error (.truncated view.header.entriesCount)) ∧
        (24 + 72 * devices.length ≤ kept →
          ∃ index found, FirstAt (fun _ found => kept ≤ view.nameStop found) loaded index found ∧
            decompile (blob.bytes.take kept) = .error (
              if kept ≤ 24 + 72 * devices.length + found.entry.nameOffset.toNat then
                .nameOutOfRange found.entry.nameOffset
              else .unterminatedName found.entry.nameOffset)) := by
  obtain ⟨compiles, bytes⟩ := compile_eq_ok_iff.mp compiled
  have position := compiles.nameListOffset_eq
  refine ⟨viewOf devices config, devices.map (loadedOf devices), bytes ▸ compiles.parse_eq,
    ⟨compiles.entries_eq_map_ok, compiles.forall₂_shows⟩, compiles.size_eq, position, ?names, ?cuts⟩
  case names =>
    intro found member
    obtain ⟨device, listed, rfl⟩ := List.mem_map.mp member
    rw [bytes]
    exact compiles.slice?_name listed
  case cuts =>
    intro kept cut
    rw [Blob.size, bytes] at cut
    rw [bytes]
    refine ⟨?header, ?entries, ?table⟩
    case header =>
      intro short
      have few : ((blobBytes devices config).take kept).length < Header.size := by
        rw [List.length_take, Header.size]
        omega
      rw [decompile, BlobView.parse_of_short few]
    case entries =>
      intro long short
      have few : ((blobBytes devices config).take kept).length <
          (viewOf devices config).header.nameListOffset.toNat := by
        rw [List.length_take, position, Header.size, Entry.size]
        omega
      rw [decompile, BlobView.parse_of_cut compiles.parse_eq (slice?_take _ 0 long) few]
    case table =>
      intro whole
      obtain ⟨index, found, first⟩ := compiles.exists_lost whole cut
      refine ⟨index, found, first, ?_⟩
      rw [compiles.decompile_take whole cut first, lostName, position]
      rfl

/-- Cuts of a blob of 245 bytes. Of the names `u` and `é` the last byte kept is the last of `é`, so
the second device is reported although the third, which shares the name of the first, is whole. -/
theorem decompile_cut_namesakes :
    ∃ blob, compile namesakes {} = .ok blob ∧ blob.size = 245 ∧
      decompile (blob.bytes.take 23) = .error .tooShort ∧
      decompile (blob.bytes.take 239) = .error (.truncated 3) ∧
      decompile (blob.bytes.take 244) = .error (.unterminatedName 2) := by
  obtain ⟨compiles, _⟩ := compile_eq_ok_iff.mp compile_namesakes
  obtain ⟨view, loaded, parsed, ⟨entries, _⟩, _, _, _, cuts⟩ := decompile_cut compile_namesakes
  have size : (blobBytes namesakes {}).length = 245 := by decide +kernel
  obtain rfl : viewOf namesakes {} = view := Except.ok.inj (compiles.parse_eq.symm.trans parsed)
  obtain rfl : namesakes.map (loadedOf namesakes) = loaded := by
    rw [compiles.entries_eq_map_ok] at entries
    exact List.map_injective_iff.mpr (fun _ _ => Except.ok.inj) entries
  have expected : FirstAt (fun _ found => 244 ≤ (viewOf namesakes {}).nameStop found)
      (namesakes.map (loadedOf namesakes)) 1 (loadedOf namesakes namesakes[1]) := by
    refine ⟨rfl, by decide +kernel, ?_⟩
    intro position other before found
    obtain rfl : position = 0 := by omega
    cases found
    decide +kernel
  obtain ⟨short, _, _⟩ := cuts 23 (by rw [Blob.size, size]; decide)
  obtain ⟨_, truncated, _⟩ := cuts 239 (by rw [Blob.size, size]; decide)
  obtain ⟨_, _, lost⟩ := cuts 244 (by rw [Blob.size, size]; decide)
  obtain ⟨index, found, first, reported⟩ := lost (by decide)
  obtain ⟨rfl, rfl⟩ := first.unique expected
  exact ⟨_, compile_namesakes, size, short (by decide), truncated (by decide) (by decide), reported⟩

end BoardBlob
