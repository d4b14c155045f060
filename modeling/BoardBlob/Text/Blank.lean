/-!
# White space around a number

A number written as text may stand between white space, which here is every character with the
Unicode property White_Space. (The separators of a board document are a smaller set, four ASCII
characters.)
-/

namespace BoardBlob.Blank

/-- The character has the property White_Space. -/
def isBlank (character : Char) : Bool :=
  let point := character.toNat
  (0x9 ≤ point && point ≤ 0xd) || point == 0x20 || point == 0x85 || point == 0xa0 ||
    point == 0x1680 || (0x2000 ≤ point && point ≤ 0x200a) || point == 0x2028 || point == 0x2029 ||
    point == 0x202f || point == 0x205f || point == 0x3000

/-- A text without the white space at its two ends. -/
def trim (text : List Char) : List Char :=
  ((text.dropWhile isBlank).reverse.dropWhile isBlank).reverse

end BoardBlob.Blank
