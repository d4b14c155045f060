import BoardBlob.Json.Fault

/-!
# Number literals

A number literal is digits, an optional fraction and an optional exponent, with an optional minus
sign. A literal without fraction and exponent whose value is a 64-bit word, or the negative of a
63-bit one, stands for exactly that value; every other literal, minus zero included, stands for a
double. The digits of such a literal are gathered into a 64-bit significand for as long as they fit,
and the significand is scaled by its power of ten in double arithmetic; a literal whose double would
be infinite has no value.
-/

namespace BoardBlob.Json

/-- The parts of a number literal. -/
structure Literal where
  negative : Bool
  /-- The digits before the point. -/
  whole : List Nat
  /-- The digits after the point, if there is one. -/
  fraction : Option (List Nat)
  /-- The sign and the digits of the exponent, if there is one. -/
  exponent : Option (Bool × List Nat)
  deriving DecidableEq, Repr

/-- The value of a number literal. -/
inductive Number where
  | whole (value : UInt64)
  /-- The negative of a positive magnitude. -/
  | negative (magnitude : Nat)
  | real (value : Float)
  deriving DecidableEq, Repr

namespace Literal

/-- A significand and the power of ten that scales it. -/
structure Scaled where
  significand : Nat
  power : Int
  deriving DecidableEq, Repr

/-- Gathers digits before the point. Once a digit does not fit, it and all later digits only raise
the power. -/
def gatherWhole : Scaled → List Nat → Scaled
  | scaled, [] => scaled
  | scaled, digit :: rest =>
    let grown := scaled.significand * 10 + digit
    if grown < UInt64.size then gatherWhole { scaled with significand := grown } rest
    else { scaled with power := Int.ofNat (rest.length + 1) }

/-- Gathers digits after the point. Once a digit does not fit, it and all later digits are left
out. -/
def gatherFraction : Scaled → List Nat → Scaled
  | scaled, [] => scaled
  | scaled, digit :: rest =>
    let grown := scaled.significand * 10 + digit
    if grown < UInt64.size then gatherFraction ⟨grown, scaled.power - 1⟩ rest else scaled

/-- The largest power of ten that is a double. -/
def largestPower : Nat := 308

/-- A significand scaled by a power of ten, in double arithmetic. A power of ten past the range of a
double divides by the largest power first, as often as `rounds` allows; `none` marks an overflow. -/
def scale : Nat → Float → Int → Option Float
  | 0, value, _ => some value
  | rounds + 1, value, power =>
    if power.natAbs ≤ largestPower then
      let unit := Float.ofScientific 1 false power.natAbs
      if 0 ≤ power then
        let scaled := value * unit
        if scaled.isInf then none else some scaled
      else some (value / unit)
    else if value == 0 then some value
    else if 0 ≤ power then none
    else scale rounds (value / Float.ofScientific 1 false largestPower) (power + largestPower)

/-- The number that digits stand for. -/
def digitsValue (digits : List Nat) : Nat :=
  digits.foldl (fun value digit => value * 10 + digit) 0

/-- The double that a literal stands for, its sign left aside; `none` when it is infinite. Three
divisions by the largest power of ten make any significand zero, so four rounds always suffice. -/
def magnitude? (literal : Literal) : Option Float :=
  let start := gatherWhole ⟨0, 0⟩ literal.whole
  let scaled := gatherFraction start (literal.fraction.getD [])
  let written : Int :=
    match literal.exponent with
    | none => 0
    | some (isNegative, digits) =>
      if isNegative then -(digitsValue digits : Nat) else (digitsValue digits : Nat)
  scale 4 (UInt64.toFloat (UInt64.ofNat scaled.significand)) (scaled.power + written)

/-- The value of a literal; `none` when it is out of the range of a double. -/
def number? (literal : Literal) : Option Number :=
  let value := digitsValue literal.whole
  let signed (magnitude : Float) : Number :=
    .real (if literal.negative then -magnitude else magnitude)
  match literal.fraction, literal.exponent with
  | none, none =>
    if literal.negative = false ∧ value < UInt64.size then some (.whole (UInt64.ofNat value))
    else if literal.negative = true ∧ 0 < value ∧ value ≤ UInt64.size / 2 then
      some (.negative value)
    else literal.magnitude?.map signed
  | _, _ => literal.magnitude?.map signed

end Literal

end BoardBlob.Json
