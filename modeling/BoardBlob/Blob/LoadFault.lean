/-!
# Faults of a stored blob

Why a blob, or one entry of it, cannot be trusted.
-/

namespace BoardBlob

/-- What is wrong with a stored blob. -/
inductive LoadFault where
  /-- The bytes end inside the header. -/
  | tooShort
  /-- The signature is another. -/
  | badSignature
  /-- The layout revision is another. -/
  | unsupportedRevision (revision : UInt32)
  /-- The bytes end inside the entries. -/
  | truncated (entriesCount : UInt32)
  /-- The name table does not follow the entries. -/
  | nameListMismatch (found : UInt32) (expected : Nat)
  /-- A name starts outside the name table. -/
  | nameOutOfRange (offset : UInt32)
  /-- A name has no end. -/
  | unterminatedName (offset : UInt32)
  /-- A name is not text. -/
  | notUtf8 (offset : UInt32)
  /-- A type tag stands for no kind. -/
  | unknownKind (tag : UInt32)
  /-- There is no entry at this position. -/
  | indexOutOfRange (index : Nat)
  deriving DecidableEq, Repr

/-- The fault in words. -/
def LoadFault.message : LoadFault → String
  | tooShort => "blob is shorter than the header"
  | badSignature => "signature mismatch"
  | unsupportedRevision revision => "unsupported revision " ++ revision.toNat.repr
  | truncated count => "blob is shorter than its " ++ count.toNat.repr ++ " declared entries"
  | nameListMismatch found expected =>
    "name list offset " ++ found.toNat.repr ++ " does not follow the entry array (expected " ++
      expected.repr ++ ")"
  | nameOutOfRange offset => "name offset " ++ offset.toNat.repr ++ " lies outside the name table"
  | unterminatedName offset => "name at offset " ++ offset.toNat.repr ++ " is not NUL-terminated"
  | notUtf8 offset => "name at offset " ++ offset.toNat.repr ++ " is not valid UTF-8"
  | unknownKind tag => "unknown device type tag " ++ tag.toNat.repr
  | indexOutOfRange index => "entry index " ++ index.repr ++ " out of range"

end BoardBlob
