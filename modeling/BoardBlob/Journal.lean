import BoardBlob.Blob.Compile

/-!
# The journal

While it works, the program tells what it does in notices. A notice has a level, which says how much
detail it gives, and a source, which says which part of the program gives it. A reader asks for
notices up to a level. The notices of a compilation are those of the stages that were reached.
-/

namespace BoardBlob

/-- How much detail a notice gives. -/
inductive Level where
  | error
  | info
  | debug
  | trace
  deriving DecidableEq, Repr

namespace Level

/-- The levels in ascending order of detail. -/
def rank : Level → Nat
  | error => 0
  | info => 1
  | debug => 2
  | trace => 3

/-- Name of the level. -/
def name : Level → String
  | error => "ERROR"
  | info => "INFO"
  | debug => "DEBUG"
  | trace => "TRACE"

end Level

/-- One thing that the program tells. -/
structure Notice where
  level : Level
  source : String
  text : String
  deriving DecidableEq, Repr

namespace Notice

/-- The notice as one line. -/
def line (notice : Notice) : String :=
  "[" ++ notice.level.name ++ "] " ++ notice.source ++ ": " ++ notice.text

/-- The lines for a reader who asks for notices up to a level. -/
def linesUpTo (limit : Level) (notices : List Notice) : List String :=
  (notices.filter fun notice => decide (notice.level.rank ≤ limit.rank)).map line

/-- A name was stored for the first time. -/
def interned (name : String) (place : UInt32) : Notice :=
  ⟨.trace, "devtree_compiler::name_table",
    "name " ++ Quoted.text name ++ " interned at offset " ++ place.toNat.repr⟩

/-- A name was found where it was stored before. -/
def reused (name : String) (place : UInt32) : Notice :=
  ⟨.trace, "devtree_compiler::name_table",
    "name " ++ Quoted.text name ++ " reuses offset " ++ place.toNat.repr⟩

/-- All names are stored. -/
def namesStored (count : Nat) (names : NameTable) : Notice :=
  ⟨.debug, "devtree_compiler",
    "name table: " ++ names.distinct.repr ++ " distinct of " ++ count.repr ++ " names, " ++
      names.size.repr ++ " bytes"⟩

/-- The header is made. -/
def headerMade (header : Header) : Notice :=
  ⟨.debug, "devtree_compiler::header",
    "header: " ++ header.entriesCount.toNat.repr ++ " entries, name table at " ++
      Hexadecimal.text header.nameListOffset.toNat ++ ", flags " ++
      Hexadecimal.text header.flags.toNat⟩

/-- The blob is put together. -/
def blobAssembled (entries names : Nat) : Notice :=
  ⟨.debug, "devtree_compiler::writer",
    "blob: " ++ (Header.size + entries + names).repr ++ " bytes (" ++ entries.repr ++
      " entry bytes, " ++ names.repr ++ " name bytes)"⟩

/-- A blob is written to a file. -/
def written (size : Nat) (path : String) : Notice :=
  ⟨.info, "devtree_compiler::writer", "wrote " ++ size.repr ++ " bytes to " ++ path⟩

/-- A board is compiled. -/
def compiled (devices : Nat) (board : String) (size : Nat) : Notice :=
  ⟨.info, "devtreec",
    "compiled " ++ devices.repr ++ " devices from " ++ board ++ " into " ++ size.repr ++ " bytes"⟩

end Notice

/-- What storing the names of devices tells. -/
def internNotices (table : NameTable) : List Device → List Notice
  | [] => []
  | device :: rest =>
    match table.intern device.name with
    | none => []
    | some (place, grown) =>
      let notice :=
        if (table.place? device.name).isSome then Notice.reused device.name place
        else Notice.interned device.name place
      notice :: internNotices grown rest

/-- What the stages of a compilation tell after the names are stored. -/
def encodingNotices (devices : List Device) (config : Config) (places : List UInt32)
    (names : NameTable) : List Notice :=
  match encodeEntries .empty 0 (devices.zip places) with
  | .error _ => []
  | .ok entries =>
    match Layout.header entries.count config.headerFlags with
    | .error _ => []
    | .ok header =>
      [.headerMade header, .blobAssembled entries.finish.length names.size]

/-- What a compilation tells. -/
def compileNotices (devices : List Device) (config : Config) : List Notice :=
  match validateAll devices config with
  | .error _ => []
  | .ok () =>
    internNotices .empty devices ++
      match internNames .empty 0 devices with
      | .error _ => []
      | .ok (places, names) =>
        .namesStored devices.length names :: encodingNotices devices config places names

end BoardBlob
