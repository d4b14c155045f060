/-!
# Text as UTF-8 bytes

A `String` is by construction the UTF-8 encoding of its characters, so writing text is taking its
bytes and reading text is checking them. The two are inverse: `text?_bytes` and
`bytes_of_text?`.
-/

namespace BoardBlob.Utf8

/-- The UTF-8 bytes of a text. -/
def bytes (text : String) : List UInt8 := text.toByteArray.data.toList

/-- The text whose UTF-8 bytes these are; `none` when they are not valid UTF-8. -/
def text? (bytes : List UInt8) : Option String :=
  if valid : (ByteArray.mk bytes.toArray).IsValidUTF8 then some (String.ofByteArray _ valid)
  else none

/-- Reading the bytes of a text gives the text. -/
@[simp]
theorem text?_bytes (text : String) : text? (bytes text) = some text := by
  have valid : (ByteArray.mk (bytes text).toArray).IsValidUTF8 := by
    simpa [bytes] using text.isValidUTF8
  simp only [text?, dif_pos valid, Option.some.injEq]
  apply String.toByteArray_inj.mp
  simp [bytes]

/-- A text that was read has exactly the bytes it was read from. -/
theorem bytes_of_text? {stored : List UInt8} {text : String} (read : text? stored = some text) :
    bytes text = stored := by
  unfold text? at read
  split at read
  · cases read
    simp [bytes]
  · contradiction

/-- Different texts have different bytes. -/
theorem bytes_injective {left right : String} (same : bytes left = bytes right) : left = right := by
  have read := text?_bytes left
  rw [same, text?_bytes] at read
  exact (Option.some.inj read).symm

end BoardBlob.Utf8
