import BoardBlob.Blob.LoadFault
import BoardBlob.Blob.Layout
import BoardBlob.Bytes.Utf8
import BoardBlob.Device.AuxSlot

/-!
# The loader's view of a blob

A loader trusts nothing but the bytes it was given. `parse` checks the signature and the revision
before any other number of the header, then that the entries are inside the bytes and that the name
table follows them. Entries are read one at a time, each with its name, which starts at the entry's
place in the name table and ends before the next zero byte.
-/

namespace BoardBlob

namespace Entry

/-- The kind that the type tag stands for. -/
def kind? (entry : Entry) : Option DeviceKind := DeviceKind.ofTag? entry.typeTag

/-- The auxiliary value with this meaning, when the entry's kind has it. -/
def auxValue? (entry : Entry) (meaning : AuxSlot) : Option UInt64 := do
  let kind ← entry.kind?
  let slot ← kind.slotOf? meaning
  some (entry.aux.get slot)

end Entry

/-- An entry together with its name. -/
structure LoadedDevice where
  entry : Entry
  name : String
  deriving DecidableEq, Repr

/-- The kind of a loaded device. -/
def LoadedDevice.kind (device : LoadedDevice) : Except LoadFault DeviceKind :=
  match device.entry.kind? with
  | some kind => .ok kind
  | none => .error (.unknownKind device.entry.typeTag)

/-- The bytes of a blob that `parse` accepted, with their header. -/
structure BlobView where
  bytes : List UInt8
  header : Header
  deriving DecidableEq, Repr

namespace BlobView

/-- Accepts the bytes of a blob, or says what is wrong with them. -/
def parse (bytes : List UInt8) : Except LoadFault BlobView :=
  match (slice? bytes 0 Header.size).bind Header.decode with
  | none => .error .tooShort
  | some header =>
    if header.signature ≠ Header.currentSignature then .error .badSignature
    else if header.revision ≠ Header.currentRevision then
      .error (.unsupportedRevision header.revision)
    else
      match Layout.nameListOffset? header.entriesCount.toNat with
      | none => .error (.truncated header.entriesCount)
      | some entriesStop =>
        if bytes.length < entriesStop then .error (.truncated header.entriesCount)
        else if header.nameListOffset.toNat ≠ entriesStop then
          .error (.nameListMismatch header.nameListOffset entriesStop)
        else .ok { bytes := bytes, header := header }

/-- Count of entries. -/
def size (view : BlobView) : Nat := view.header.entriesCount.toNat

/-- The bytes of the name table, which reaches to the end of the blob. -/
def nameTable (view : BlobView) : List UInt8 :=
  (suffix? view.bytes view.header.nameListOffset.toNat).getD []

/-- The name at a place in the name table: the bytes from there up to, and without, the next zero
byte. -/
def nameAt (view : BlobView) (offset : UInt32) : Except LoadFault String :=
  let table := view.nameTable
  let start := offset.toNat
  if table.length ≤ start then .error (.nameOutOfRange offset)
  else
    match suffix? table start with
    | none => .error (.nameOutOfRange offset)
    | some stored =>
      match stored.idxOf? 0 with
      | none => .error (.unterminatedName offset)
      | some length =>
        match (slice? table start (start + length)).bind Utf8.text? with
        | none => .error (.notUtf8 offset)
        | some name => .ok name

/-- The entry at a position, with its name. -/
def get (view : BlobView) (index : Nat) : Except LoadFault LoadedDevice :=
  if view.size ≤ index then .error (.indexOutOfRange index)
  else
    let start := Header.size + index * Entry.size
    match (slice? view.bytes start (start + Entry.size)).bind Entry.decode with
    | none => .error (.truncated view.header.entriesCount)
    | some entry =>
      match view.nameAt entry.nameOffset with
      | .error fault => .error fault
      | .ok name => .ok { entry := entry, name := name }

/-- All entries in blob order, each with its name or with what is wrong with it. -/
def entries (view : BlobView) : List (Except LoadFault LoadedDevice) :=
  (List.range view.size).map view.get

/-- The first of the listed devices with this name. A fault before it ends the search. -/
def findIn (name : String) : List (Except LoadFault LoadedDevice) →
    Except LoadFault (Option LoadedDevice)
  | [] => .ok none
  | .error fault :: _ => .error fault
  | .ok device :: rest => if device.name = name then .ok (some device) else findIn name rest

/-- The first device with this name. -/
def find (view : BlobView) (name : String) : Except LoadFault (Option LoadedDevice) :=
  findIn name view.entries

/-- The devices of a kind in blob order. An entry that cannot be read is listed as well, since its
kind cannot be trusted either. -/
def ofKind (view : BlobView) (kind : DeviceKind) : List (Except LoadFault LoadedDevice) :=
  view.entries.filter fun
    | .ok device => device.entry.kind? == some kind
    | .error _ => true

end BlobView

/-- A place between the entries of a blob, from which they are read one after the other. -/
structure Cursor where
  view : BlobView
  /-- Position of the next entry. -/
  index : Nat
  deriving DecidableEq, Repr

namespace Cursor

/-- The next entry and the place after it; `none` past the last entry. -/
def next (cursor : Cursor) : Option (Except LoadFault LoadedDevice × Cursor) :=
  if cursor.view.size ≤ cursor.index then none
  else some (cursor.view.get cursor.index, { cursor with index := cursor.index + 1 })

/-- Count of entries still to come. -/
def remaining (cursor : Cursor) : Nat := cursor.view.size - cursor.index

/-- The bounds on the count of entries still to come that a cursor promises: from below and, if any,
from above. -/
def sizeHint (cursor : Cursor) : Nat × Option Nat := (cursor.remaining, some cursor.remaining)

end Cursor

/-- The place before the first entry. -/
def BlobView.cursor (view : BlobView) : Cursor := { view := view, index := 0 }

end BoardBlob
