/-!
# Little-endian numbers

A number stored in a fixed count of bytes is its base-256 digits, least significant first.
`encode` keeps the low digits only, so a caller that must not lose any compares the number with
`256 ^ width` first. The two functions are inverse up to that bound, in both directions.
-/

namespace BoardBlob.LittleEndian

/-- The low `width` base-256 digits of a number, least significant first. -/
def encode : Nat → Nat → List UInt8
  | 0, _ => []
  | width + 1, value => UInt8.ofNat value :: encode width (value / 256)

/-- The number that a list of base-256 digits stands for, least significant first. -/
def decode : List UInt8 → Nat
  | [] => 0
  | digit :: rest => digit.toNat + 256 * decode rest

/-- An encoding has one byte for each digit asked for. -/
@[simp]
theorem length_encode (width value : Nat) : (encode width value).length = width := by
  induction width generalizing value with
  | zero => rfl
  | succ width ih => simp [encode, ih]

/-- Encoding what a list of bytes stands for, in as many bytes, gives the list back. -/
theorem encode_decode (bytes : List UInt8) : encode bytes.length (decode bytes) = bytes := by
  induction bytes with
  | nil => rfl
  | cons digit rest ih =>
    have bound : digit.toNat < 256 := digit.toNat_lt
    have low : UInt8.ofNat (digit.toNat + 256 * decode rest) = digit := by
      apply UInt8.toNat_inj.mp
      simp only [UInt8.toNat_ofNat']
      omega
    have high : (digit.toNat + 256 * decode rest) / 256 = decode rest := by omega
    simp only [List.length_cons, encode, decode, low, high, ih]

end BoardBlob.LittleEndian
