import BoardBlob.Device.Fault

/-!
# Faults of a compilation

Why a list of devices has no blob.
-/

namespace BoardBlob

/-- Why a compilation stops. -/
inductive CompileFault where
  /-- A device may not be encoded. -/
  | invalid (fault : DeviceFault)
  /-- A number of a device does not fit the field that stores it. -/
  | encodingOverflow (index : Nat) (name : String) (field : String) (value : Nat)
  /-- A number of the header does not fit the field that stores it. -/
  | layoutOverflow (field : String) (value : Nat)
  deriving DecidableEq, Repr

/-- The fault in words. -/
def CompileFault.message : CompileFault → String
  | invalid fault => fault.message
  | encodingOverflow index name field value =>
    describeDevice index name ++ ": value " ++ Hexadecimal.text value ++ " does not fit field `" ++
      field ++ "`"
  | layoutOverflow field value =>
    "layout field `" ++ field ++ "` overflows its width (value " ++ Hexadecimal.text value ++ ")"

end BoardBlob
