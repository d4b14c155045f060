/-!
# Text up to ASCII letter case

Names written in a board may use either case of the letters A to Z. No other character has a
second spelling: two texts are the same up to case exactly when they agree after every ASCII letter
is made small.
-/

namespace BoardBlob.AsciiCase

/-- The characters of a text with the ASCII letters made small. -/
def fold (text : String) : List Char := text.toList.map Char.toLower

/-- Two texts agree up to the case of their ASCII letters. -/
def same (left right : String) : Bool := fold left == fold right

end BoardBlob.AsciiCase
