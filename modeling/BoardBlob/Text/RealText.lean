import BoardBlob.Text.Shortest

/-!
# Real numbers in messages

A message shows a real number with the fewest digits that read back. `RealFormat` holds the choices
that are left: from which to which decimal exponent a number is written out, and how an exponent is
written outside that range. A number that is written out always has a point and a digit on both
sides of it.
-/

namespace BoardBlob

/-- How the digits of a real number are laid out. -/
structure RealFormat where
  /-- The least exponent of the leading digit at which a number is written out. -/
  lowest : Int
  /-- The greatest exponent of the leading digit at which a number is written out. -/
  highest : Int
  /-- What stands between the digits and an exponent. -/
  mark : String
  /-- What stands before an exponent that is not negative. -/
  plus : String

/-- Messages write out the numbers from 0.00001 to below 10^16, and mark exponents by `e`. -/
def messageReals : RealFormat := ⟨-5, 15, "e", "+"⟩

namespace RealFormat

/-- A count of zeros. -/
def zeros (count : Nat) : String := String.ofList (List.replicate count '0')

/-- The magnitude of a number that is not zero. -/
def magnitude (format : RealFormat) (decimal : Shortest.Decimal) : String :=
  let digits := Nat.toDigits 10 decimal.digits
  let point : Int := digits.length + decimal.power
  let lead := point - 1
  if format.lowest ≤ lead ∧ lead ≤ format.highest then
    if point ≤ 0 then "0." ++ zeros (-point).toNat ++ String.ofList digits
    else if 0 ≤ decimal.power then String.ofList digits ++ zeros decimal.power.toNat ++ ".0"
    else
      String.ofList (digits.take point.toNat) ++ "." ++ String.ofList (digits.drop point.toNat)
  else
    let head := String.ofList (digits.take 1)
    let tail := digits.drop 1
    let exponent := if lead < 0 then "-" ++ (-lead).toNat.repr else format.plus ++ lead.toNat.repr
    head ++ (if tail = [] then "" else "." ++ String.ofList tail) ++ format.mark ++ exponent

/-- A finite number as text. -/
def text (format : RealFormat) (value : Float) : String :=
  let binary := Shortest.Binary.ofFloat value
  let sign := if value.toBits.toNat < UInt64.size / 2 then "" else "-"
  sign ++ if binary.significand = 0 then "0.0" else format.magnitude (Shortest.shortest binary)

end RealFormat

end BoardBlob
