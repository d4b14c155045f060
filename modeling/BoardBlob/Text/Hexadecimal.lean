/-!
# Hexadecimal numbers

Addresses, flag words and sizes are shown as `0x` and the lower-case hexadecimal digits of the
number, without leading zeros.
-/

namespace BoardBlob.Hexadecimal

/-- The lower-case hexadecimal digits of a number, without leading zeros. -/
def digits (value : Nat) : String := String.ofList (Nat.toDigits 16 value)

/-- A number as shown: its digits after `0x`. -/
def text (value : Nat) : String := "0x" ++ digits value

end BoardBlob.Hexadecimal
