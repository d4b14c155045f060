import BoardBlob.Proofs.DecodedDevices
import BoardBlob.Proofs.DryRun

/-!
# Faults in a listing

A listing is printed as its lines, each ended by a line feed: those of the header, and one block for
every entry (`toList_text`). It goes on where decompiling stops, yet the two find the same faults. A
block of the listing shows a fault in one of two forms, which its lines alone tell (`ShowsFault`):
one line with the fault of an entry that cannot be read, or a first line with a tag that stands for
no kind. A block shows a fault exactly when its entry stands for no device (`showsFault_of_deviceOf`,
`deviceOf_of_showsFault`), so the first block that shows one shows what decompiling reports
(`dump_agrees_with_decompile`).
-/
namespace BoardBlob

namespace Listing

/-! ## Blocks -/

/-- The block of the entry at a position. -/
def block (view : BlobView) (index : Nat) : List String := entryLines index (view.get index)

/-- The blocks of consecutive entries follow each other in order. -/
theorem blocks_map (view : BlobView) (start count : Nat) :
    blocks start ((List.range' start count).map view.get) =
      (List.range' start count).flatMap (block view) := by
  induction count generalizing start with
  | zero => rfl
  | succ count ih => simp [List.range'_succ, blocks, block, ih]

/-- A listing is the header followed by one block for every entry, in order. -/
theorem lines_eq (view : BlobView) :
    lines view = headerLines view ++ (List.range view.size).flatMap (block view) := by
  rw [lines, BlobView.entries, List.range_eq_range', blocks_map]

/-- The characters of lines, each ended by a line feed. -/
def ended (lines : List String) : List Char := lines.flatMap fun line => line.toList ++ ['\n']

/-- The characters of a listing: the lines of the header, and those of one block for every entry. -/
theorem toList_text (view : BlobView) : (text view).toList =
    ended (headerLines view ++ (List.range view.size).flatMap (block view)) := by
  rw [← lines_eq]
  simp [text, ended, String.toList_join, List.flatMap_map]

/-! ## Lines that show faults -/

/-- The line that stands for an entry that cannot be read. -/
def errorLine (index : Nat) (fault : LoadFault) : String :=
  "[" ++ index.repr ++ "] <" ++ fault.message ++ ">"

/-- The first line of an entry whose tag stands for a kind. -/
def knownLine (index : Nat) (name : String) (kind : DeviceKind) : String :=
  "[" ++ index.repr ++ "] " ++ name ++ " " ++ kind.name

/-- The first line of an entry whose tag stands for no kind. -/
def unknownLine (index : Nat) (name : String) (tag : UInt32) : String :=
  "[" ++ index.repr ++ "] " ++ name ++ " " ++ ("<type " ++ tag.toNat.repr ++ ">")

/-- Lines list an entry: one line with its fault when it cannot be read, and else more than one, of
which the first shows its name and its kind, or its tag where that stands for no kind. -/
inductive Lists (index : Nat) : Except LoadFault LoadedDevice → List String → Prop
  | unreadable (fault : LoadFault) : Lists index (.error fault) [errorLine index fault]
  | known {device : LoadedDevice} {kind : DeviceKind} (known : device.entry.kind? = some kind)
    (line : String) (more : List String) :
    Lists index (.ok device) (knownLine index device.name kind :: line :: more)
  | unknown {device : LoadedDevice} (unknown : device.entry.kind? = none) (line : String)
    (more : List String) :
    Lists index (.ok device)
      (unknownLine index device.name device.entry.typeTag :: line :: more)

/-- The lines of a block show a fault of its entry. -/
inductive ShowsFault (index : Nat) : List String → LoadFault → Prop
  /-- The entry cannot be read: its fault is the whole block. -/
  | unreadable (fault : LoadFault) : ShowsFault index [errorLine index fault] fault
  /-- The entry is read, but the first of its lines shows a tag in place of a kind. -/
  | unknownKind (name : String) (tag : UInt32) (line : String) (more : List String) :
    ShowsFault index (unknownLine index name tag :: line :: more) (.unknownKind tag)

/-- The block of an entry that is read has more than one line, and the first shows the kind. -/
theorem exists_entryLines_ok (index : Nat) (device : LoadedDevice) :
    ∃ line more, entryLines index (.ok device) =
      ("[" ++ index.repr ++ "] " ++ device.name ++ " " ++ kindText device.entry) ::
        line :: more :=
  ⟨_, _, rfl⟩

/-- The block of an entry lists it. -/
theorem lists_entryLines (index : Nat) (entry : Except LoadFault LoadedDevice) :
    Lists index entry (entryLines index entry) := by
  cases entry with
  | error fault => exact .unreadable fault
  | ok device =>
    obtain ⟨line, more, listed⟩ := exists_entryLines_ok index device
    cases known : device.entry.kind? with
    | some kind =>
      rw [listed, kindText, known]
      exact .known known line more
    | none =>
      rw [listed, kindText, known]
      exact .unknown known line more

/-- A line that shows a fault shows its message. -/
theorem message_eq_of_errorLine {index : Nat} {fault other : LoadFault}
    (same : errorLine index fault = errorLine index other) : fault.message = other.message := by
  have texts := congrArg String.toList same
  simp only [errorLine, String.toList_append] at texts
  exact String.toList_inj.mp (List.append_cancel_left (List.append_cancel_right texts))

/-- What follows the last occurrence of a separator is determined. -/
theorem eq_of_append_cons_eq {α : Type} {separator : α} {before after front back : List α}
    (same : before ++ separator :: after = front ++ separator :: back)
    (last : separator ∉ after) (lastToo : separator ∉ back) : after = back := by
  obtain ⟨between, _, rest⟩ | ⟨between, _, rest⟩ := List.append_eq_append_iff.mp same
  all_goals
    cases between with
    | nil => simp_all
    | cons head tail => simp_all

/-- What follows the last space of a line that shows a tag. -/
theorem toList_unknownLine (index : Nat) (name : String) (tag : UInt32) :
    (unknownLine index name tag).toList =
      ("[" ++ index.repr ++ "] " ++ name ++ " <type").toList ++
        ' ' :: (tag.toNat.repr.toList ++ ['>']) := by
  simp [unknownLine]

/-- A line that shows a tag shows no other tag, whatever the names are. -/
theorem tag_eq_of_unknownLine {index : Nat} {name other : String} {tag stored : UInt32}
    (same : unknownLine index name tag = unknownLine index other stored) : tag = stored := by
  have unspaced : ∀ value : Nat, ' ' ∉ value.repr.toList ++ ['>'] := by
    intro value member
    rw [List.mem_append, Nat.toList_repr] at member
    cases member with
    | inl digit =>
      exact absurd (Nat.isDigit_of_mem_toDigits (by decide) (by decide) digit) (by decide)
    | inr mark => simp at mark
  have texts := congrArg String.toList same
  rw [toList_unknownLine, toList_unknownLine] at texts
  have ends := eq_of_append_cons_eq texts (unspaced _) (unspaced _)
  have numbers := congrArg (fun digits => Nat.ofDigitChars 10 digits 0)
    (List.append_cancel_right ends)
  simp only [Nat.toList_repr, Nat.ofDigitChars_ten_toDigits] at numbers
  exact UInt32.toNat_inj.mp numbers

/-- A line that shows a kind shows no tag. -/
theorem ne_unknownLine (index position : Nat) (name other : String) (kind : DeviceKind)
    (tag : UInt32) :
    knownLine index name kind ≠ unknownLine position other tag := by
  intro same
  have lasts := congrArg (fun line => line.toList.getLast?) same
  simp only [knownLine, unknownLine, String.toList_append, List.getLast?_append] at lasts
  have mark : ">".toList.getLast? = some '>' := by decide
  rw [mark] at lasts
  cases kind <;> simp [DeviceKind.name] at lasts

/-! ## Blocks that show faults -/

/-- An entry that stands for no device is listed with its fault. -/
theorem showsFault_of_deviceOf (index : Nat) {entry : Except LoadFault LoadedDevice}
    {fault : LoadFault} (failed : deviceOf entry = .error fault) :
    ShowsFault index (entryLines index entry) fault := by
  have lists := lists_entryLines index entry
  generalize entryLines index entry = lines at lists ⊢
  cases lists with
  | unreadable found =>
    obtain rfl : found = fault := Except.error.inj failed
    exact .unreadable found
  | known known line more => simp [deviceOf, LoadedDevice.kind, known, Except.map] at failed
  | unknown unknown line more =>
    simp only [deviceOf, LoadedDevice.kind, unknown, Except.map, Except.error.injEq] at failed
    subst failed
    exact .unknownKind _ _ line more

/-- A block that is one line with a fault is that of an entry that cannot be read, for the same
reason in words. -/
theorem eq_error_of_errorLine {index : Nat} {entry : Except LoadFault LoadedDevice}
    {shown : LoadFault} (listed : entryLines index entry = [errorLine index shown]) :
    ∃ fault, entry = .error fault ∧ shown.message = fault.message := by
  have lists := lists_entryLines index entry
  generalize entryLines index entry = lines at lists listed
  cases lists with
  | unreadable fault =>
    have line : errorLine index fault = errorLine index shown := List.head_eq_of_cons_eq listed
    exact ⟨fault, rfl, (message_eq_of_errorLine line).symm⟩
  | known => simp at listed
  | unknown => simp at listed

/-- A block of several lines whose first shows a tag is that of an entry that is read and has the
tag, which stands for no kind. -/
theorem eq_ok_of_unknownLine {index : Nat} {entry : Except LoadFault LoadedDevice} {name : String}
    {tag : UInt32} {line : String} {more : List String}
    (listed : entryLines index entry = unknownLine index name tag :: line :: more) :
    ∃ device, entry = .ok device ∧ device.entry.kind? = none ∧ device.entry.typeTag = tag := by
  have lists := lists_entryLines index entry
  generalize entryLines index entry = lines at lists listed
  cases lists with
  | unreadable => simp at listed
  | known =>
    exact absurd (List.head_eq_of_cons_eq listed) (ne_unknownLine index index _ name _ tag)
  | unknown unknown =>
    exact ⟨_, rfl, unknown, tag_eq_of_unknownLine (List.head_eq_of_cons_eq listed)⟩

/-- An entry whose block shows a fault stands for no device, for the same reason in words. -/
theorem deviceOf_of_showsFault {index : Nat} {entry : Except LoadFault LoadedDevice}
    {shown : LoadFault} (shows : ShowsFault index (entryLines index entry) shown) :
    ∃ fault, deviceOf entry = .error fault ∧ shown.message = fault.message := by
  generalize listed : entryLines index entry = lines at shows
  cases shows with
  | unreadable =>
    obtain ⟨fault, rfl, message⟩ := eq_error_of_errorLine listed
    exact ⟨fault, rfl, message⟩
  | unknownKind name tag line more =>
    obtain ⟨device, rfl, unknown, rfl⟩ := eq_ok_of_unknownLine listed
    exact ⟨_, by simp [deviceOf, LoadedDevice.kind, unknown, Except.map], rfl⟩

/-- A block is a line with a fault exactly when its entry cannot be read. -/
theorem exists_errorLine_iff (view : BlobView) (index : Nat) :
    (∃ fault, block view index = [errorLine index fault]) ↔
      ∃ fault, view.get index = .error fault := by
  constructor
  · rintro ⟨shown, listed⟩
    obtain ⟨fault, unread, _⟩ := eq_error_of_errorLine listed
    exact ⟨fault, unread⟩
  · rintro ⟨fault, unread⟩
    exact ⟨fault, by rw [block, unread, entryLines, errorLine]⟩

/-- A block shows a tag in place of a kind exactly when its entry is read and the tag stands for no
kind. -/
theorem exists_unknownLine_iff (view : BlobView) (index : Nat) :
    (∃ name tag line more, block view index = unknownLine index name tag :: line :: more) ↔
      ∃ device, view.get index = .ok device ∧ device.entry.kind? = none := by
  constructor
  · rintro ⟨name, tag, line, more, listed⟩
    obtain ⟨device, read, unknown, _⟩ := eq_ok_of_unknownLine listed
    exact ⟨device, read, unknown⟩
  · rintro ⟨device, read, unknown⟩
    have lists := lists_entryLines index (.ok device)
    rw [block, read]
    generalize entryLines index (.ok device) = lines at lists ⊢
    cases lists with
    | known known => simp [unknown] at known
    | unknown _ line more => exact ⟨device.name, device.entry.typeTag, line, more, rfl⟩

/-! ## The first fault -/

/-- The block at a position shows a fault, and no block before it shows any. -/
structure FirstShown (view : BlobView) (index : Nat) (fault : LoadFault) : Prop where
  /-- There is an entry at the position. -/
  inside : index < view.size
  /-- Its block shows the fault. -/
  shows : ShowsFault index (block view index) fault
  /-- The blocks before it show none. -/
  earlier : ∀ position < index, ∀ other, ¬ShowsFault position (block view position) other

variable {view : BlobView} {index : Nat} {fault shown : LoadFault}

/-- What decompiling reports is what the first block that shows a fault shows. -/
theorem exists_firstShown (failed : devicesOf view.entries = .error fault) :
    ∃ index, FirstShown view index fault := by
  obtain ⟨index, entry, first, bad⟩ := exists_firstAt_of_devicesOf failed
  obtain ⟨inside, rfl⟩ := BlobView.getElem?_entries_iff.mp first.here
  refine ⟨index, inside, showsFault_of_deviceOf index bad, ?_⟩
  intro position before other shows
  obtain ⟨found, here, _⟩ := deviceOf_of_showsFault shows
  have listed := BlobView.getElem?_entries_iff.mpr ⟨Nat.lt_trans before inside, rfl⟩
  exact first.earlier position _ before listed ⟨found, here⟩

/-- What the first block that shows a fault shows is, in words, what decompiling reports. -/
theorem FirstShown.devicesOf_eq (first : FirstShown view index shown) :
    ∃ fault, devicesOf view.entries = .error fault ∧ shown.message = fault.message := by
  obtain ⟨fault, bad, words⟩ := deviceOf_of_showsFault first.shows
  have firstBad : FirstAt (fun _ entry => ∃ fault, deviceOf entry = .error fault) view.entries index
      (view.get index) := by
    refine ⟨BlobView.getElem?_entries_iff.mpr ⟨first.inside, rfl⟩, ⟨fault, bad⟩, ?_⟩
    rintro position entry before found ⟨other, failed⟩
    obtain ⟨_, rfl⟩ := BlobView.getElem?_entries_iff.mp found
    exact first.earlier position before other (showsFault_of_deviceOf position failed)
  exact ⟨fault, devicesOf_of_firstAt firstBad bad, words⟩

/-- Some block of a listing shows a fault exactly when the entries stand for no list of devices. -/
theorem exists_showsFault_iff :
    (∃ fault, devicesOf view.entries = .error fault) ↔
      ∃ index < view.size, ∃ fault, ShowsFault index (block view index) fault := by
  constructor
  · rintro ⟨fault, failed⟩
    obtain ⟨index, first⟩ := exists_firstShown failed
    exact ⟨index, first.inside, fault, first.shows⟩
  · rintro ⟨index, inside, shown, shows⟩
    obtain ⟨fault, bad, _⟩ := deviceOf_of_showsFault shows
    cases decoded : devicesOf view.entries with
    | error found => exact ⟨found, rfl⟩
    | ok devices =>
      have listed := BlobView.getElem?_entries_iff.mpr ⟨inside, rfl⟩
      have here : some (deviceOf (view.get index)) = devices[index]?.map .ok := by
        simpa [listed] using congrArg (·[index]?) (devicesOf_eq_ok_iff.mp decoded)
      rw [bad] at here
      obtain ⟨device, _, wrong⟩ := Option.map_eq_some_iff.mp here.symm
      contradiction

end Listing

namespace CommandLine

open Listing (block ended errorLine unknownLine headerLines Lists ShowsFault FirstShown)

/-- Dumping bytes fails exactly when decompiling them does. -/
theorem Work.failure_dumpBytes_iff (path : String) (bytes : List UInt8) :
    (dumpBytes path bytes).failure = none ↔ ∃ devices, decompile bytes = .ok devices := by
  rw [dumpBytes]
  cases parsed : BlobView.parse bytes with
  | error fault => simp [decompile, parsed]
  | ok view => cases decompile bytes <;> simp

/-- Of bytes that are no blob, nothing is printed; of a blob, the listing, whatever its entries
are. -/
theorem Work.output_dumpBytes (path : String) (bytes : List UInt8) :
    (dumpBytes path bytes).output =
      match BlobView.parse bytes with
      | .error _ => ""
      | .ok view => Listing.text view := by
  rw [dumpBytes]
  cases BlobView.parse bytes with
  | error fault => rfl
  | ok view => cases decompile bytes <;> simp

/-- A run that dumps a file ends as dumping its bytes does. -/
theorem run_dump {disk : Disk (StateM FileTree)} {arguments : List String} {request : Request}
    {path : String} {tree : FileTree} {bytes : List UInt8}
    (asked : parse arguments = .ok request) (dumps : request.work = .dump path)
    (held : (disk.readFile path tree).1 = .ok bytes) :
    (run disk arguments tree).1 = (Work.dumpBytes path bytes).outcome request.level := by
  rw [run_eq asked, dumps, Work.run, Work.runDump, Disk.run_bind, held]
  rfl

/-- Dumping a file ends with 0 exactly when its bytes hold devices, and else with 1. Of bytes that
are no blob nothing is printed. Of a blob the whole listing is printed, however the run ends: the
lines of the header and those of one block for every entry in order, each ended by a line feed. A
block begins with the position of its entry and shows its fault, its kind or its tag: it is a line
with a fault exactly when its entry cannot be read, and shows a tag in place of a kind exactly when
its entry is read and the tag stands for no kind. Decompiling fails exactly when some block is of one of these forms, and the
first such block shows what it reports. A dump of the output of a compilation that succeeded ends
with 0. -/
theorem dump_agrees_with_decompile :
    (∀ (disk : Disk (StateM FileTree)) (arguments : List String) (request : Request)
      (path : String) (tree : FileTree) (bytes : List UInt8),
      parse arguments = .ok request → request.work = .dump path →
      (disk.readFile path tree).1 = .ok bytes →
      let outcome := (run disk arguments tree).1
      (outcome.code = 0 ∨ outcome.code = 1) ∧
      (outcome.code = 0 ↔ ∃ devices, decompile bytes = .ok devices) ∧
      (∀ fault, BlobView.parse bytes = .error fault → outcome.output = "") ∧
      ∀ view, BlobView.parse bytes = .ok view →
        outcome.output = Listing.text view ∧
        outcome.output.toList =
          ended (headerLines view ++ (List.range view.size).flatMap (block view)) ∧
        (∀ index, Lists index (view.get index) (block view index)) ∧
        (∀ index, (∃ fault, block view index = [errorLine index fault]) ↔
          ∃ fault, view.get index = .error fault) ∧
        (∀ index, (∃ name tag line more,
            block view index = unknownLine index name tag :: line :: more) ↔
          ∃ device, view.get index = .ok device ∧ device.entry.kind? = none) ∧
        ((∃ fault, decompile bytes = .error fault) ↔
          ∃ index < view.size, ∃ fault, ShowsFault index (block view index) fault) ∧
        (∀ fault, decompile bytes = .error fault → ∃ index, FirstShown view index fault) ∧
        (∀ index shown, FirstShown view index shown →
          ∃ fault, decompile bytes = .error fault ∧ shown.message = fault.message)) ∧
    ∀ (disk : Disk (StateM FileTree)), disk.Fallible → disk.ReadsOnly →
      ∀ (compiling dumping : List String) (ordered asked : Request) (board output : String)
        (config : Config) (tree : FileTree),
        parse compiling = .ok ordered → ordered.work = .compile board output config →
        parse dumping = .ok asked → asked.work = .dump output →
        (run disk compiling tree).1.code = 0 →
        (run FileTree.disk dumping (run disk compiling tree).2).1.code = 0 := by
  constructor
  · intro disk arguments request path tree bytes asked dumps held
    rw [run_dump asked dumps held]
    refine ⟨?codes, ?code, ?nothing, ?listing⟩
    case codes => exact Report.code_eq_zero_or_one _ _
    case code => rw [Report.code_eq_zero_iff, Work.failure_dumpBytes_iff]
    case nothing =>
      intro fault parsed
      rw [Report.output_outcome, Work.output_dumpBytes, parsed]
    case listing =>
      intro view parsed
      have decoded : decompile bytes = devicesOf view.entries := by rw [decompile, parsed]
      rw [Report.output_outcome, Work.output_dumpBytes, parsed, decoded]
      exact ⟨rfl, Listing.toList_text view, fun index => Listing.lists_entryLines index _,
        Listing.exists_errorLine_iff view,
        Listing.exists_unknownLine_iff view, Listing.exists_showsFault_iff,
        fun _ failed => Listing.exists_firstShown failed, fun _ _ first => first.devicesOf_eq⟩
  · intro disk fallible quiet compiling dumping ordered asked board output config tree compile
      compiles dump dumps done
    obtain ⟨devices, blob, _, held, decoded⟩ :=
      written_of_run_compile fallible quiet compile compiles done
    rw [run_dump dump dumps held, Report.code_eq_zero_iff, Work.failure_dumpBytes_iff]
    exact ⟨devices, decoded⟩

/-- A blob of three entries: one is sound, one is of an unknown kind, and the name of the last
starts outside the name table. -/
def faultyBlob : List UInt8 :=
  Layout.assemble (.current 3 240 0)
    ([{ typeTag := 6 }, { typeTag := 99 }, { nameOffset := 7 }].flatMap Entry.encode) [0x75, 0]

/-- The view of that blob. -/
def faultyView : BlobView := ⟨faultyBlob, .current 3 240 0⟩

/-- The lines of its listing. -/
def faultyLines : List String := [
  "signature: odtr3", "revision: 1", "flags: 0x0", "entries: 3", "name table: 0xf0 (2 bytes)",
  "[0] u RTC", "    flags: EntryFlags(0x0)", "    region: 0x0 + 0x0",
  "    irq: lane 0 flags IrqFlags(0x0) priority 0", "[1] u <type 99>",
  "    flags: EntryFlags(0x0)", "    region: 0x0 + 0x0",
  "    irq: lane 0 flags IrqFlags(0x0) priority 0",
  "[2] <name offset 7 lies outside the name table>"]

/-- A tree of the blob alone. -/
def faultyTree : FileTree := ⟨[(["f"], .file faultyBlob)], []⟩

/-- The first block of the listing that shows a fault is the one in the middle. -/
theorem eq_one_of_firstShown {index : Nat} {fault : LoadFault}
    (first : FirstShown faultyView index fault) : index = 1 := by
  have sound : (deviceOf (faultyView.get 0)).isOk = true := by decide +kernel
  have unknown : deviceOf (faultyView.get 1) = .error (.unknownKind 99) := by decide +kernel
  have notFirst : index ≠ 0 := by
    rintro rfl
    obtain ⟨fault, bad, _⟩ := Listing.deviceOf_of_showsFault first.shows
    rw [bad] at sound
    cases sound
  have notLast : ¬1 < index := fun before =>
    first.earlier 1 before _ (Listing.showsFault_of_deviceOf 1 unknown)
  omega

/-- The dump of the blob ends with 1 and prints every line of its listing. The last block is the
fault of its entry, and the first block that shows a fault shows the unknown kind, which is what
decompiling reports. The board of `boardTree` is compiled to a blob whose dump ends with 0. -/
theorem dump_agrees_with_decompile_faultyTree :
    ((run FileTree.disk ["dump", "f"] faultyTree).1.code = 1 ∧
      decompile faultyBlob = .error (.unknownKind 99) ∧
      BlobView.parse faultyBlob = .ok faultyView ∧
      (run FileTree.disk ["dump", "f"] faultyTree).1.output.toList = ended faultyLines ∧
      Lists 2 (.error (.nameOutOfRange 7)) (block faultyView 2) ∧
      FirstShown faultyView 1 (.unknownKind 99)) ∧
    (run FileTree.disk ["dump", "out"]
      (run FileTree.disk ["compile", "b", "-o", "out"] boardTree).2).1.code = 0 := by
  have dump : parse ["dump", "f"] =
      .ok { verbosity := 0, quiet := false, work := .dump "f" } := by decide +kernel
  have compile : parse ["compile", "b", "-o", "out"] =
      .ok { verbosity := 0, quiet := false, work := .compile "b" "out" {} } := by decide +kernel
  have dumpOutput : parse ["dump", "out"] =
      .ok { verbosity := 0, quiet := false, work := .dump "out" } := by decide +kernel
  have parsed : BlobView.parse faultyBlob = .ok faultyView := by decide +kernel
  have failed : decompile faultyBlob = .error (.unknownKind 99) := by decide +kernel
  have lines : headerLines faultyView ++ (List.range faultyView.size).flatMap (block faultyView) =
      faultyLines := by
    decide +kernel
  have unread : faultyView.get 2 = .error (.nameOutOfRange 7) := by decide +kernel
  constructor
  · obtain ⟨codes, code, _, listing⟩ := dump_agrees_with_decompile.1 FileTree.disk _ _ "f"
      faultyTree faultyBlob dump rfl (by decide +kernel)
    obtain ⟨_, printed, lists, _, _, _, first, _⟩ := listing _ parsed
    obtain ⟨index, shown⟩ := first _ failed
    obtain rfl := eq_one_of_firstShown shown
    have last := lists 2
    rw [unread] at last
    rw [lines] at printed
    refine ⟨codes.resolve_left fun zero => ?_, failed, parsed, printed, last, shown⟩
    obtain ⟨devices, decoded⟩ := code.mp zero
    rw [failed] at decoded
    cases decoded
  · exact dump_agrees_with_decompile.2 FileTree.disk Disk.fallible_disk Disk.readsOnly_disk _ _ _ _
      "b" "out" {} boardTree compile rfl dumpOutput rfl (by decide +kernel)

end CommandLine

end BoardBlob
