import Mathlib.Data.String.Basic
import BoardBlob.Proofs.TextBytes

/-!
# The order of texts

Texts are ordered by the code points of their characters. In UTF-8 that is the order of their bytes
as well (`bytes_lt_of_lt`), so keys that ascend by code points also ascend byte by byte.
-/
namespace BoardBlob.Utf8

/-- Up to a bound, the bytes of a smaller number come before those of a larger one, whatever
follows them. -/
def Ascends (encode : Nat → List UInt8) (bound : Nat) : Prop :=
  ∀ left right, left < right → right < bound →
    ∀ rest other, encode left ++ rest < encode right ++ other

/-- The first bytes of an encoding ascend as long as they do not repeat. -/
theorem Ascends.leading (size base : Nat) (fits : size + base ≤ 256) :
    Ascends (fun number => [UInt8.ofNat (number % size + base)]) size := by
  intro left right before inside rest other
  apply List.cons_lt_cons_iff.mpr
  apply Or.inl
  rw [UInt8.lt_iff_toNat_lt, UInt8.toNat_ofNat', UInt8.toNat_ofNat',
    Nat.mod_eq_of_lt inside, Nat.mod_eq_of_lt (Nat.lt_trans before inside)]
  omega

/-- An encoding that ascends still does with a continuation byte for six more bits. -/
theorem Ascends.continued {encode : Nat → List UInt8} {bound : Nat}
    (ascends : Ascends encode bound) :
    Ascends (fun number => encode (number / 64) ++ [UInt8.ofNat (number % 64 + 128)])
      (64 * bound) := by
  intro left right before inside rest other
  dsimp only
  rw [List.append_assoc, List.append_assoc]
  by_cases higher : left / 64 < right / 64
  · exact ascends _ _ higher (by omega) _ _
  · have same : left / 64 = right / 64 := by omega
    rw [same]
    apply List.append_left_lt
    apply List.cons_lt_cons_iff.mpr
    apply Or.inl
    rw [UInt8.lt_iff_toNat_lt, UInt8.toNat_ofNat', UInt8.toNat_ofNat']
    omega

/-- The bytes of a character come before those of every later character, whatever follows them. -/
theorem utf8EncodeChar_append_lt {left right : Char} (before : left < right)
    (rest other : List UInt8) :
    String.utf8EncodeChar left ++ rest < String.utf8EncodeChar right ++ other := by
  have numbers : left.val.toNat < right.val.toNat := UInt32.lt_iff_toNat_lt.mp before
  have bound : right.val.toNat < 64 * (64 * (64 * 8)) := by
    have valid : right.val.toNat < 55296 ∨ 57343 < right.val.toNat ∧ right.val.toNat < 1114112 :=
      right.valid
    omega
  have two := (Ascends.leading 32 192 (by decide)).continued
  have three := (Ascends.leading 16 224 (by decide)).continued.continued
  have four := (Ascends.leading 8 240 (by decide)).continued.continued.continued
  simp only [Nat.div_div_eq_div_mul] at three four
  have leading {first later : Nat} (smaller : first < later) (fits : later < 256)
      {more others : List UInt8} :
      UInt8.ofNat first :: more ++ rest < UInt8.ofNat later :: others ++ other := by
    apply List.cons_lt_cons_iff.mpr
    apply Or.inl
    rw [UInt8.lt_iff_toNat_lt, UInt8.toNat_ofNat', UInt8.toNat_ofNat']
    omega
  unfold String.utf8EncodeChar
  dsimp only
  -- A longer encoding starts with a larger byte, and no later character has a shorter one.
  split_ifs
  any_goals omega
  any_goals (apply leading <;> omega)
  · exact two _ _ numbers (by omega) rest other
  · exact three _ _ numbers (by omega) rest other
  · exact four _ _ numbers (by omega) rest other

/-- Texts that ascend by their characters ascend by their bytes. -/
theorem bytes_lt_of_lt {left right : String} (before : left < right) :
    bytes left < bytes right := by
  rw [bytes_eq_flatMap, bytes_eq_flatMap]
  have characters : left.toList.lt right.toList := String.lt_iff_toList_lt.mp before
  rw [List.lt_iff_lex_lt] at characters
  generalize left.toList = first at characters
  generalize right.toList = second at characters
  induction characters with
  | @nil character rest =>
    rw [List.flatMap_nil, List.flatMap_cons]
    obtain ⟨byte, more, starts⟩ :=
      List.exists_cons_of_ne_nil (String.utf8EncodeChar_ne_nil (c := character))
    rw [starts]
    exact List.nil_lt_cons byte _
  | rel earlier =>
    rw [List.flatMap_cons, List.flatMap_cons]
    exact utf8EncodeChar_append_lt earlier _ _
  | cons _ ih =>
    rw [List.flatMap_cons, List.flatMap_cons]
    exact List.append_left_lt ih

end BoardBlob.Utf8
