/-!
# The shortest decimal number that reads back

A positive double is m · 2^q for natural m and integer q. The real numbers that round to it fill an
interval around it, ends included exactly when m is even. The shortest decimal number in the
interval is found on the decimal grids of one digit, two digits and so on: the first grid with a
point in the interval wins, and of two points the nearer. All arithmetic is exact. If a grid has a
point in the interval then one of the two neighbours of the number itself is in it, and some grid of
at most 17 digits has one.
-/

namespace BoardBlob.Shortest

/-- A positive double, as its significand and its power of two. -/
structure Binary where
  significand : Nat
  power : Int
  deriving DecidableEq, Repr

/-- The significand and the power of two of a double, its sign left aside. -/
def Binary.ofFloat (value : Float) : Binary :=
  let bits := value.toBits.toNat
  let hidden := 1 <<< 52
  let fraction := bits % hidden
  let biased := bits / hidden % 2048
  if biased = 0 then ⟨fraction, -1074⟩ else ⟨hidden + fraction, Int.ofNat biased - 1075⟩

/-- A decimal number, as its digits and its power of ten. -/
structure Decimal where
  digits : Nat
  power : Int
  deriving DecidableEq, Repr

/-- A quarter unit of the significand is the step in which the interval is measured. This is
`quarters` such steps, on the common scale of the grid with power of ten `power`. -/
def scaledQuarters (binary : Binary) (power : Int) (quarters : Nat) : Nat :=
  (quarters <<< (binary.power - 2).toNat) * Nat.pow 10 (-power).toNat

/-- A point of the grid with power of ten `power`, on the same scale. -/
def scaledPoint (binary : Binary) (power : Int) (point : Nat) : Nat :=
  (point * Nat.pow 10 power.toNat) <<< (2 - binary.power).toNat

/-- A point of a grid reads back as the double. -/
def readsBack (binary : Binary) (power : Int) (point : Nat) : Bool :=
  let quarters := 4 * binary.significand
  let below := if binary.significand = 1 <<< 52 ∧ -1074 < binary.power then 1 else 2
  let low := scaledQuarters binary power (quarters - below)
  let high := scaledQuarters binary power (quarters + 2)
  let place := scaledPoint binary power point
  if binary.significand % 2 = 0 then low ≤ place && place ≤ high else low < place && place < high

/-- The point of a grid that reads back and is nearest the double; of two equally near, the even. -/
def onGrid? (binary : Binary) (power : Int) : Option Nat :=
  let exact := scaledQuarters binary power (4 * binary.significand)
  let below := exact / scaledPoint binary power 1
  let above := below + 1
  match readsBack binary power below, readsBack binary power above with
  | false, false => none
  | true, false => some below
  | false, true => some above
  | true, true =>
    let down := exact - scaledPoint binary power below
    let up := scaledPoint binary power above - exact
    if down < up then some below
    else if up < down then some above
    else if below % 2 = 0 then some below else some above

/-- The exponent of the leading decimal digit. -/
def leadingExponent (binary : Binary) : Int :=
  let numerator := binary.significand <<< binary.power.toNat
  let denominator := 1 <<< (-binary.power).toNat
  if denominator ≤ numerator then
    ((Nat.toDigits 10 (numerator / denominator)).length : Int) - 1
  else
    let reached (places : Nat) : Bool := denominator ≤ numerator * Nat.pow 10 places
    Int.negOfNat (((List.range 330).find? reached).getD 0)

/-- Moves the zeros at the end of the digits into the power of ten. -/
def dropZeros : Nat → Decimal → Decimal
  | 0, decimal => decimal
  | limit + 1, decimal =>
    if decimal.digits % 10 = 0 then dropZeros limit ⟨decimal.digits / 10, decimal.power + 1⟩
    else decimal

/-- The shortest decimal number that reads back as a positive double. -/
def shortest (binary : Binary) : Decimal :=
  let lead := leadingExponent binary
  let found := (List.range 17).findSome? fun extra : Nat =>
    let power := lead - Int.ofNat extra
    (onGrid? binary power).map fun point => Decimal.mk point power
  dropZeros 17 (found.getD ⟨0, 0⟩)

end BoardBlob.Shortest
