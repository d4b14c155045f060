import BoardBlob.Blob.View
import BoardBlob.Device.Flags

/-!
# The listing of a blob

Shows a blob to a person: five lines for the header, then a block for every entry. An entry that
cannot be read is shown as one line with its fault, and the listing goes on after it. An auxiliary
value is shown in decimal under its meaning; a slot without a meaning is shown in hexadecimal under
its position, and only when it is not zero.
-/

namespace BoardBlob

namespace Listing

/-- The signature as shown: its letters up to the first zero byte. -/
def signature (header : Header) : String :=
  let bytes := LittleEndian.encode Header.signatureField.width header.signature.toNat
  String.ofList ((bytes.takeWhile fun byte => byte != 0).map fun byte => Char.ofNat byte.toNat)

/-- The lines for the header. -/
def headerLines (view : BlobView) : List String :=
  [ "signature: " ++ signature view.header,
    "revision: " ++ view.header.revision.toNat.repr,
    "flags: " ++ Hexadecimal.text view.header.flags.toNat,
    "entries: " ++ view.header.entriesCount.toNat.repr,
    "name table: " ++ Hexadecimal.text view.header.nameListOffset.toNat ++ " (" ++
      view.nameTable.length.repr ++ " bytes)" ]

/-- The kind of an entry as shown: its name, or its tag when that stands for no kind. -/
def kindText (entry : Entry) : String :=
  match entry.kind? with
  | some kind => kind.name
  | none => "<type " ++ entry.typeTag.toNat.repr ++ ">"

/-- The line for one auxiliary slot, if it is shown. -/
def auxLine (meaning : Option AuxSlot) (field : Field) (value : UInt64) : List String :=
  match meaning with
  | some slot => ["    " ++ slot.name ++ ": " ++ value.toNat.repr]
  | none =>
    if value = 0 then [] else ["    " ++ field.name ++ ": " ++ Hexadecimal.text value.toNat]

/-- The meanings of the slots of an entry; an unknown kind has none. -/
def meanings (entry : Entry) : Slots (Option AuxSlot) :=
  match entry.kind? with
  | some kind => kind.auxLayout
  | none => .replicate none

/-- The lines for the auxiliary slots of an entry. -/
def auxLines (entry : Entry) : List String :=
  (List.finRange 4).flatMap fun slot =>
    auxLine ((meanings entry).get slot) (Entry.auxFields.get slot) (entry.aux.get slot)

/-- The lines for the entry at a position. -/
def entryLines (index : Nat) : Except LoadFault LoadedDevice → List String
  | .error fault => ["[" ++ index.repr ++ "] <" ++ fault.message ++ ">"]
  | .ok device =>
    let entry := device.entry
    [ "[" ++ index.repr ++ "] " ++ device.name ++ " " ++ kindText entry,
      "    flags: " ++ deviceFlagFamily.text entry.flags,
      "    region: " ++ Hexadecimal.text entry.regionBase.toNat ++ " + " ++
        Hexadecimal.text entry.regionSize.toNat,
      "    irq: lane " ++ entry.irqLane.toNat.repr ++ " flags " ++
        irqFlagFamily.text entry.irqFlags ++ " priority " ++ entry.irqPriority.toNat.repr ] ++
      auxLines entry

/-- The lines for the entries from position `start` on. -/
def blocks : Nat → List (Except LoadFault LoadedDevice) → List String
  | _, [] => []
  | start, entry :: rest => entryLines start entry ++ blocks (start + 1) rest

/-- The lines of the whole listing. -/
def lines (view : BlobView) : List String := headerLines view ++ blocks 0 view.entries

/-- The listing as one text, every line ended by a line feed. -/
def text (view : BlobView) : String :=
  String.join ((lines view).map fun line => line ++ "\n")

end Listing

end BoardBlob
