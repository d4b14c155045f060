import BoardBlob.Text.Hexadecimal
import BoardBlob.Text.Numeral
import BoardBlob.Text.Quoted

/-!
# Numbers on the command line

The numbers of settings are written as in a board. Header flags must fit 32 bits, and an alignment
must be a power of two.
-/

namespace BoardBlob.CommandLine

/-- Why the value of a setting is refused. -/
inductive ValueFault where
  /-- The characters that count are no number. -/
  | notANumber (significant : String) (fault : Numeral.Fault)
  /-- The number needs more than 32 bits. -/
  | tooWide (value : UInt64)
  | notPowerOfTwo (value : UInt64)
  deriving DecidableEq, Repr

/-- The fault in words. -/
def ValueFault.message : ValueFault → String
  | notANumber significant fault => Quoted.text significant ++ ": " ++ fault.message
  | tooWide value => Hexadecimal.text value.toNat ++ " does not fit 32 bits"
  | notPowerOfTwo value => Hexadecimal.text value.toNat ++ " is not a power of two"

/-- Reads a number. -/
def readNumber (written : String) : Except ValueFault UInt64 :=
  (Numeral.read written).mapError
    (.notANumber (String.ofList (Numeral.significant written)))

/-- Reads a number that fits 32 bits. -/
def readWord (written : String) : Except ValueFault UInt32 :=
  match readNumber written with
  | .error fault => .error fault
  | .ok value =>
    if value.toNat < UInt32.size then .ok (UInt32.ofNat value.toNat) else .error (.tooWide value)

/-- A word is a power of two. -/
def isPowerOfTwo (value : UInt64) : Bool :=
  (List.range 64).any fun exponent => value.toNat == 1 <<< exponent

/-- Reads a power of two. -/
def readAlignment (written : String) : Except ValueFault UInt64 :=
  match readNumber written with
  | .error fault => .error fault
  | .ok value => if isPowerOfTwo value then .ok value else .error (.notPowerOfTwo value)

end BoardBlob.CommandLine
