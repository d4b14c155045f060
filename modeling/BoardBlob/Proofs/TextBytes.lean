import BoardBlob.Bytes.Utf8

/-!
# Zero bytes in texts

A name in a blob ends at the next zero byte, so it matters which texts have a zero byte inside. In
UTF-8 only the character U+0000 has one: `zero_mem_bytes_iff`. The bytes of a text without it,
followed by a zero byte, are therefore found again up to that byte (`idxOf?_bytes_append`).
-/
namespace BoardBlob.Utf8

/-- The bytes of a text are those of its characters in order. -/
theorem bytes_eq_flatMap (text : String) :
    bytes text = text.toList.flatMap String.utf8EncodeChar := by
  rw [bytes, ← String.utf8Encode_toList, List.utf8Encode, List.data_toByteArray]

/-- The low byte of a number is zero exactly when the number is a multiple of 256. -/
theorem zero_eq_ofNat_iff (number : Nat) : (0 : UInt8) = UInt8.ofNat number ↔ number % 256 = 0 := by
  rw [← UInt8.toNat_inj, UInt8.toNat_ofNat']
  exact eq_comm

/-- A character with a zero byte is U+0000. -/
theorem eq_nul_of_zero_mem {character : Char}
    (member : (0 : UInt8) ∈ String.utf8EncodeChar character) : character = '\x00' := by
  unfold String.utf8EncodeChar at member
  by_cases ascii : character.val.toNat ≤ 0x7f
  · simp only [ascii, ↓reduceIte, List.mem_singleton, zero_eq_ofNat_iff] at member
    apply Char.ext
    apply UInt32.toNat_inj.mp
    change character.val.toNat = 0
    omega
  · -- Every byte of a longer encoding has its highest bit set.
    exfalso
    simp only [ascii, ↓reduceIte] at member
    split at member
    · simp only [List.mem_cons, List.not_mem_nil, or_false, zero_eq_ofNat_iff] at member
      omega
    · split at member
      all_goals
        simp only [List.mem_cons, List.not_mem_nil, or_false, zero_eq_ofNat_iff] at member
        omega

/-- A text has a zero byte exactly when it has the character U+0000. -/
theorem zero_mem_bytes_iff (text : String) : 0 ∈ bytes text ↔ '\x00' ∈ text.toList := by
  rw [bytes_eq_flatMap, List.mem_flatMap]
  constructor
  · rintro ⟨character, member, zero⟩
    exact eq_nul_of_zero_mem zero ▸ member
  · exact fun member => ⟨'\x00', member, by decide⟩

/-- The first zero byte after the bytes of a text without U+0000 is where the bytes end. -/
theorem idxOf?_bytes_append {text : String} (plain : '\x00' ∉ text.toList)
    (rest : List UInt8) : (bytes text ++ 0 :: rest).idxOf? 0 = some (bytes text).length := by
  have absent : (0 : UInt8) ∉ bytes text := fun member =>
    plain ((zero_mem_bytes_iff text).mp member)
  rw [List.idxOf?_eq_some_iff]
  refine ⟨by simp, by simp, ?_⟩
  intro position before same
  rw [List.getElem_append_left before] at same
  exact absent (same ▸ List.getElem_mem before)

/-- Bytes that cannot be read as text are those of no text. -/
theorem text?_eq_none_iff {stored : List UInt8} :
    text? stored = none ↔ ∀ text, bytes text ≠ stored := by
  constructor
  · rintro unread text rfl
    simp at unread
  · intro noText
    refine Option.eq_none_iff_forall_ne_some.mpr fun text read => ?_
    exact noText text (bytes_of_text? read)

end BoardBlob.Utf8
