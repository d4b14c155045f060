import BoardBlob.Bytes.Utf8

/-!
# The name table

The names of all devices stand in one list of bytes, each ended by a zero byte. A name is stored
once, where it was first met, and every later use of it refers to that place. A place is the
position of the name's first byte from the start of the table, and must fit 32 bits, as must the
size of the table.
-/

namespace BoardBlob

/-- The names stored so far. -/
structure NameTable where
  /-- The stored bytes. -/
  bytes : Array UInt8 := #[]
  /-- Each stored name with its place, the last stored first. -/
  places : List (String × UInt32) := []
  deriving DecidableEq, Repr

namespace NameTable

/-- The table without names. -/
def empty : NameTable := {}

/-- Size of the table in bytes, the zero bytes included. -/
def size (table : NameTable) : Nat := table.bytes.size

/-- Count of different names. -/
def distinct (table : NameTable) : Nat := table.places.length

/-- The place of a stored name. -/
def place? (table : NameTable) (name : String) : Option UInt32 := table.places.lookup name

/-- The bytes that a name takes in the table. -/
def stored (name : String) : List UInt8 := Utf8.bytes name ++ [0]

/-- Stores a name unless it is stored already, and gives its place; `none` when the table would
grow past what 32 bits can address. -/
def intern (table : NameTable) (name : String) : Option (UInt32 × NameTable) :=
  match table.place? name with
  | some place => some (place, table)
  | none =>
    if table.size + (stored name).length < UInt32.size then
      let place := UInt32.ofNat table.size
      let grown : NameTable :=
        { bytes := table.bytes.appendList (stored name)
          places := (name, place) :: table.places }
      some (place, grown)
    else none

end NameTable

end BoardBlob
