import BoardBlob.Blob.Decompile
import BoardBlob.Blob.Listing

/-!
# A loader that may stop the machine

The functions of the loader once more, on a machine with 64-bit words that stops when a slice is
not inside its bytes or a word overflows. `none` stands for the stopped machine and for nothing
else: a fault of the blob is a result. Every sum and every product that a position is made of is
checked before the position is used.

All loops over the entries are one loop (`walk?`), which reads an entry only when it is asked for
one more; they differ in what they do with an entry and in when they are done.
-/
namespace BoardBlob

/-- A number as a machine word; `none` when it overflows. -/
def word? (value : Nat) : Option Nat := if value < UInt64.size then some value else none

/-- A number below the bound is a machine word. -/
theorem word?_of_lt {value : Nat} (bound : value < UInt64.size) : word? value = some value := by
  rw [word?, if_pos bound]

/-! ## Reading one entry -/

namespace BlobView

/-- The name table, which starts where the header says. -/
def nameTable? (view : BlobView) : Option (List UInt8) :=
  suffix? view.bytes view.header.nameListOffset.toNat

/-- The name at a place in the name table. -/
def nameAt? (view : BlobView) (offset : UInt32) : Option (Except LoadFault String) := do
  let table ← view.nameTable?
  let start := offset.toNat
  if table.length ≤ start then some (.error (.nameOutOfRange offset))
  else
    let stored ← suffix? table start
    match stored.idxOf? 0 with
    | none => some (.error (.unterminatedName offset))
    | some length =>
      let stop ← word? (start + length)
      let bytes ← slice? table start stop
      match Utf8.text? bytes with
      | none => some (.error (.notUtf8 offset))
      | some name => some (.ok name)

/-- The entry at a position, with its name. A record of another size than an entry's would be a
fault of the blob. -/
def get? (view : BlobView) (index : Nat) : Option (Except LoadFault LoadedDevice) :=
  if view.size ≤ index then some (.error (.indexOutOfRange index))
  else do
    let skipped ← word? (index * Entry.size)
    let start ← word? (Header.size + skipped)
    let stop ← word? (start + Entry.size)
    let record ← slice? view.bytes start stop
    if record.length ≠ Entry.size then some (.error (.truncated view.header.entriesCount))
    else
      let entry ← Entry.decode record
      let name ← view.nameAt? entry.nameOffset
      some (name.map fun name => { entry := entry, name := name })

/-! ## Loops over the entries -/

section Loop

variable {State Result : Type}
  (step : State → Except LoadFault LoadedDevice → State ⊕ Result) (finish : State → Result)

/-- A loop over listed entries: each step goes on with a new state or ends with a result. -/
def walk : State → List (Except LoadFault LoadedDevice) → Result
  | state, [] => finish state
  | state, entry :: rest =>
    match step state entry with
    | .inl next => walk next rest
    | .inr result => result

/-- The same loop over the entries of a view, from a position on. -/
def walk? (view : BlobView) (state : State) (index : Nat) : Option Result :=
  if view.size ≤ index then some (finish state)
  else do
    let _ ← word? (index + 1)
    let entry ← view.get? index
    match step state entry with
    | .inl next => walk? view next (index + 1)
    | .inr result => some result
  termination_by view.size - index

end Loop

/-- Keeps every entry. -/
def collectStep (found : List (Except LoadFault LoadedDevice))
    (entry : Except LoadFault LoadedDevice) : List (Except LoadFault LoadedDevice) ⊕
      List (Except LoadFault LoadedDevice) :=
  .inl (found ++ [entry])

/-- Keeping every entry gives the list back, after the entries that were kept before. -/
theorem walk_collectStep (found entries : List (Except LoadFault LoadedDevice)) :
    walk collectStep id found entries = found ++ entries := by
  induction entries generalizing found with
  | nil => simp [walk]
  | cons entry rest ih =>
    have tail := ih (found ++ [entry])
    simpa [walk, collectStep] using tail

/-- All entries in blob order. -/
def entries? (view : BlobView) : Option (List (Except LoadFault LoadedDevice)) :=
  walk? collectStep id view [] 0

/-- Ends with the first device of a name, or with a fault before it. -/
def findStep (name : String) (_ : Unit) :
    Except LoadFault LoadedDevice → Unit ⊕ Except LoadFault (Option LoadedDevice)
  | .error fault => .inr (.error fault)
  | .ok device => if device.name = name then .inr (.ok (some device)) else .inl ()

/-- The loop that ends at a name is the search for it. -/
theorem walk_findStep (name : String) (entries : List (Except LoadFault LoadedDevice)) :
    walk (findStep name) (fun _ => .ok none) () entries = findIn name entries := by
  induction entries with
  | nil => rfl
  | cons entry rest ih =>
    cases entry with
    | error fault => rfl
    | ok device =>
      by_cases named : device.name = name
      · simp [walk, findStep, findIn, named]
      · simpa [walk, findStep, findIn, named] using ih

/-- The first device with a name. -/
def find? (view : BlobView) (name : String) : Option (Except LoadFault (Option LoadedDevice)) :=
  walk? (findStep name) (fun _ => .ok none) view () 0

/-- The devices of a kind in blob order. -/
def ofKind? (view : BlobView) (kind : DeviceKind) :
    Option (List (Except LoadFault LoadedDevice)) :=
  view.entries?.map fun entries => entries.filter fun
    | .ok device => device.entry.kind? == some kind
    | .error _ => true

end BlobView

/-- Keeps the device that an entry stands for, or ends with its fault. -/
def decompileStep (found : List Device) :
    Except LoadFault LoadedDevice → List Device ⊕ Except LoadFault (List Device)
  | .error fault => .inr (.error fault)
  | .ok loaded =>
    match loaded.kind with
    | .error fault => .inr (.error fault)
    | .ok kind => .inl (found ++ [loaded.toDevice kind])

/-- The loop that keeps devices gives those of the list, after the ones that were kept before. -/
theorem walk_decompileStep (found : List Device)
    (entries : List (Except LoadFault LoadedDevice)) :
    BlobView.walk decompileStep .ok found entries =
      (devicesOf entries).map fun devices => found ++ devices := by
  induction entries generalizing found with
  | nil => simp [BlobView.walk, devicesOf, Except.map]
  | cons entry rest ih =>
    cases entry with
    | error fault => rfl
    | ok loaded =>
      cases kind : loaded.kind with
      | error fault => simp [BlobView.walk, decompileStep, devicesOf, kind, Except.map]
      | ok known =>
        have tail := ih (found ++ [loaded.toDevice known])
        simp only [BlobView.walk, decompileStep, devicesOf, kind, tail]
        cases devicesOf rest with
        | error fault => rfl
        | ok devices => simp [Except.map]

/-- The devices that a blob holds. -/
def decompile? (bytes : List UInt8) : Option (Except LoadFault (List Device)) :=
  match BlobView.parse bytes with
  | .error fault => some (.error fault)
  | .ok view => view.walk? decompileStep .ok [] 0

namespace Listing

/-- The signature as shown, cut out of its bytes at the first zero byte. -/
def signature? (header : Header) : Option String :=
  let bytes := LittleEndian.encode Header.signatureField.width header.signature.toNat
  (slice? bytes 0 (bytes.idxOf 0)).map fun letters =>
    String.ofList (letters.map fun byte => Char.ofNat byte.toNat)

/-- Cutting the signature at its first zero byte leaves the letters before it. -/
theorem signature?_eq (header : Header) : signature? header = some (signature header) := by
  have cut (bytes : List UInt8) :
      bytes.take (bytes.idxOf 0) = bytes.takeWhile fun byte => byte != 0 := by
    rw [List.takeWhile_eq_take_findIdx_not, List.idxOf]
    simp [bne]
  rw [signature?, slice?_of_le (Nat.zero_le _) List.idxOf_le_length]
  simp only [Option.map_some, List.drop_zero, Nat.sub_zero, cut]
  rfl

/-- The lines for the header. -/
def headerLines? (view : BlobView) : Option (List String) := do
  let letters ← signature? view.header
  let table ← view.nameTable?
  some
    [ "signature: " ++ letters,
      "revision: " ++ view.header.revision.toNat.repr,
      "flags: " ++ Hexadecimal.text view.header.flags.toNat,
      "entries: " ++ view.header.entriesCount.toNat.repr,
      "name table: " ++ Hexadecimal.text view.header.nameListOffset.toNat ++ " (" ++
        table.length.repr ++ " bytes)" ]

/-- Adds the lines of an entry to those that are there, and counts it. -/
def listStep (shown : List String × Nat) (entry : Except LoadFault LoadedDevice) :
    (List String × Nat) ⊕ List String :=
  .inl (shown.1 ++ entryLines shown.2 entry, shown.2 + 1)

/-- The loop that lists gives the lines of all entries, after the lines that were there before. -/
theorem walk_listStep (shown : List String) (start : Nat)
    (entries : List (Except LoadFault LoadedDevice)) :
    BlobView.walk listStep Prod.fst (shown, start) entries = shown ++ blocks start entries := by
  induction entries generalizing shown start with
  | nil => simp [BlobView.walk, blocks]
  | cons entry rest ih =>
    have tail := ih (shown ++ entryLines start entry) (start + 1)
    simpa [BlobView.walk, listStep, blocks] using tail

/-- The listing as one text. -/
def text? (view : BlobView) : Option String := do
  let header ← headerLines? view
  let shown ← view.walk? listStep Prod.fst (header, 0) 0
  some (String.join (shown.map fun line => line ++ "\n"))

end Listing

end BoardBlob
