import BoardBlob.Blob.Listing
import BoardBlob.Proofs.ExpressedDevices
import BoardBlob.Proofs.NumberTexts

/-!
# Values shown in a listing

A listing shows numbers in decimal or in hexadecimal, words of flags by the names of their bits, and
kinds by their name or tag. Each of these texts tells the value that it shows, undefined bits and
unknown tags included: a number is the value of its digits (`Numeral.exists_digits`), a word of flags
is that of the names and the rest in its brackets (`FlagFamily.Legible.text_append_inj`), and a tag
is that of its kind or stands in brackets itself (`Listing.typeTag_eq_of_kindText`). Which characters
are in none of these texts is stated beside each, so that a line can be cut where a value ends.
-/
namespace BoardBlob

/-! ## Marks -/

section Marks

variable {α : Type} {mark : α} {front other rest more : List α}

/-- There is nothing, or the first is a mark. -/
def BeginsWith (mark : α) (rest : List α) : Prop := ∀ first ∈ rest.head?, first = mark

@[simp]
theorem beginsWith_nil : BeginsWith mark ([] : List α) := by simp [BeginsWith]

@[simp]
theorem beginsWith_cons (rest : List α) : BeginsWith mark (mark :: rest) := by simp [BeginsWith]

/-- What stands before the first mark is told apart from what follows. -/
theorem append_inj_of_beginsWith (unmarked : mark ∉ front) (unmarkedToo : mark ∉ other)
    (begins : BeginsWith mark rest) (beginsToo : BeginsWith mark more)
    (same : front ++ rest = other ++ more) : front = other ∧ rest = more := by
  obtain ⟨between, rfl, rfl⟩ | ⟨between, rfl, rfl⟩ := List.append_eq_append_iff.mp same
  · cases between with
    | nil => simp
    | cons first _ =>
      obtain rfl : first = mark := begins first rfl
      simp at unmarkedToo
  · cases between with
    | nil => simp
    | cons first _ =>
      obtain rfl : first = mark := beginsToo first rfl
      simp at unmarked

/-- Joined parts begin with the first one, and each other follows a separator. -/
theorem intercalate_cons (separator part : List α) (parts : List (List α)) :
    separator.intercalate (part :: parts) = part ++ parts.flatMap (separator ++ ·) := by
  induction parts generalizing part with
  | nil => simp
  | cons next parts later => simp [later]

/-- Parts that each follow a separator begin with its mark. -/
theorem beginsWith_flatMap (parts : List (List α)) :
    BeginsWith mark (parts.flatMap (mark :: rest ++ ·)) := by
  cases parts <;> simp

/-- Parts that each follow a separator are told apart when its mark is in none of them. -/
theorem flatMap_separator_inj {parts others : List (List α)}
    (unmarked : ∀ part ∈ parts, mark ∉ part) (unmarkedToo : ∀ part ∈ others, mark ∉ part)
    (same : parts.flatMap (mark :: rest ++ ·) = others.flatMap (mark :: rest ++ ·)) :
    parts = others := by
  induction parts generalizing others with
  | nil =>
    cases others with
    | nil => rfl
    | cons other others => simp at same
  | cons part parts later =>
    cases others with
    | nil => simp at same
    | cons other others =>
      rw [List.flatMap_cons, List.flatMap_cons, List.append_assoc, List.append_assoc] at same
      obtain ⟨rfl, tails⟩ := append_inj_of_beginsWith (unmarked part List.mem_cons_self)
        (unmarkedToo other List.mem_cons_self) (beginsWith_flatMap parts)
        (beginsWith_flatMap others) (List.append_cancel_left same)
      rw [later (fun part member => unmarked part (List.mem_cons_of_mem _ member))
        (fun part member => unmarkedToo part (List.mem_cons_of_mem _ member)) tails]

/-- Joined parts are told apart when the mark that begins the separator is in none of them. -/
theorem intercalate_inj {parts others : List (List α)} (filled : [] ∉ parts)
    (filledToo : [] ∉ others) (unmarked : ∀ part ∈ parts, mark ∉ part)
    (unmarkedToo : ∀ part ∈ others, mark ∉ part)
    (same : (mark :: rest).intercalate parts = (mark :: rest).intercalate others) :
    parts = others := by
  cases parts with
  | nil =>
    cases others with
    | nil => rfl
    | cons other others =>
      rw [intercalate_cons] at same
      simp_all
  | cons part parts =>
    cases others with
    | nil =>
      rw [intercalate_cons] at same
      simp_all
    | cons other others =>
      rw [intercalate_cons, intercalate_cons] at same
      rw [List.forall_mem_cons] at unmarked unmarkedToo
      obtain ⟨rfl, tails⟩ := append_inj_of_beginsWith unmarked.1 unmarkedToo.1
        (beginsWith_flatMap parts) (beginsWith_flatMap others) same
      rw [flatMap_separator_inj unmarked.2 unmarkedToo.2 tails]

/-- What is in no part and not in the separator is not in the joined parts. -/
theorem not_mem_intercalate {item : α} {separator : List α} {parts : List (List α)}
    (outside : item ∉ separator) (absent : ∀ part ∈ parts, item ∉ part) :
    item ∉ separator.intercalate parts := by
  cases parts with
  | nil => simp
  | cons part parts =>
    rw [intercalate_cons]
    simp_all

end Marks

/-! ## Words -/

/-- The characters of words: letters, figures and underscores. -/
def isWordCharacter (character : Char) : Bool := character.isAlphanum || character == '_'

/-- A text is one word: there is something in it, and nothing but the characters of words. -/
def IsWord (text : String) : Prop := text ≠ "" ∧ text.toList.all isWordCharacter = true

instance (text : String) : Decidable (IsWord text) := inferInstanceAs (Decidable (_ ∧ _))

namespace IsWord

variable {text other separator rest more : String} {character : Char}

/-- No other character is in a word. -/
theorem not_mem (isWord : IsWord text) (sign : isWordCharacter character = false) :
    character ∉ text.toList := by
  intro member
  rw [List.all_eq_true.mp isWord.2 character member] at sign
  contradiction

/-- A word before a separator is told apart from what follows the separator. -/
theorem append_inj (isWord : IsWord text) (isWordToo : IsWord other)
    (separates : separator.toList.head?.map isWordCharacter = some false)
    (same : text ++ (separator ++ rest) = other ++ (separator ++ more)) :
    text = other ∧ rest = more := by
  obtain ⟨mark, first, sign⟩ := Option.map_eq_some_iff.mp separates
  have begins (after : String) : BeginsWith mark (separator ++ after).toList := by
    simp [BeginsWith, first]
  have texts := congrArg String.toList same
  rw [@String.toList_append text, @String.toList_append other] at texts
  obtain ⟨words, tails⟩ := append_inj_of_beginsWith (isWord.not_mem sign) (isWordToo.not_mem sign)
    (begins rest) (begins more) texts
  exact ⟨String.toList_inj.mp words,
    (String.append_right_inj separator).mp (String.toList_inj.mp tails)⟩

end IsWord

/-! ## Numbers -/

namespace Numeral

/-- A digit is a letter or one of the ten figures. -/
theorem IsDigit.isAlphanum {base value : Nat} {character : Char} (small : base ≤ 16)
    (digit : IsDigit base value character) : character.isAlphanum = true := by
  have each : ∀ value < 16, (Nat.digitChar value).isAlphanum = true ∧
      (Nat.digitChar value).toUpper.isAlphanum = true := by
    decide
  obtain ⟨inside, rfl | rfl⟩ := digit
  · exact (each value (by omega)).1
  · exact (each value (by omega)).2

/-- The characters written for a number are digits of the base, and the number is their value. -/
theorem exists_digits {base : Nat} (several : 1 < base) (number : Nat) :
    ∃ values, List.Forall₂ (IsDigit base) values (Nat.toDigits base number) ∧
      number = Nat.ofDigits base values.reverse := by
  have digit : ∀ value < base, IsDigit base value (Nat.digitChar value) :=
    fun value inside => ⟨inside, .inl rfl⟩
  induction number using Nat.strongRecOn with
  | ind number higher =>
    by_cases single : number < base
    · refine ⟨[number], ?_, by simp⟩
      rw [Nat.toDigits_of_lt_base single]
      exact .cons (digit number single) .nil
    · -- The last digit is the remainder, and those before it are the digits of the quotient.
      have many : base ≤ number := Nat.not_lt.mp single
      obtain ⟨values, digits, worth⟩ :=
        higher (number / base) (Nat.div_lt_self (by omega) several)
      refine ⟨values ++ [number % base], ?_, ?_⟩
      · rw [Nat.toDigits_of_base_le several many]
        exact List.rel_append digits (.cons (digit _ (Nat.mod_lt _ (by omega))) .nil)
      · rw [List.reverse_concat, Nat.ofDigits_cons, ← worth, Nat.mod_add_div]

/-- The characters written for a number tell it. -/
theorem toDigits_inj {base number other : Nat} (several : 1 < base) (small : base ≤ 16)
    (same : Nat.toDigits base number = Nat.toDigits base other) : number = other := by
  obtain ⟨values, digits, rfl⟩ := exists_digits several number
  obtain ⟨others, digitsToo, rfl⟩ := exists_digits several other
  rw [same] at digits
  rw [(leftUnique_isDigit small).forall₂ digits digitsToo]

/-- A number written in decimal tells the number. -/
theorem repr_inj {number other : Nat} : number.repr = other.repr ↔ number = other := by
  refine ⟨fun same => ?_, congrArg Nat.repr⟩
  have digits := congrArg String.toList same
  rw [Nat.toList_repr, Nat.toList_repr] at digits
  exact toDigits_inj (by decide) (by decide) digits

/-- The characters written for a number are letters and figures. -/
theorem isAlphanum_of_mem_toDigits {base number : Nat} {character : Char} (several : 1 < base)
    (small : base ≤ 16) (written : character ∈ Nat.toDigits base number) :
    character.isAlphanum = true := by
  obtain ⟨values, digits, -⟩ := exists_digits several number
  generalize Nat.toDigits base number = characters at digits written
  induction digits with
  | nil => cases written
  | cons digit _ later =>
    cases written with
    | head => exact digit.isAlphanum small
    | tail _ further => exact later further

/-- The characters written for a number are characters of words. -/
theorem all_isWordCharacter_toDigits {base : Nat} (several : 1 < base) (small : base ≤ 16)
    (number : Nat) : (Nat.toDigits base number).all isWordCharacter = true := by
  refine List.all_eq_true.mpr fun character written => ?_
  rw [isWordCharacter, isAlphanum_of_mem_toDigits several small written, Bool.true_or]

/-- A number written in decimal is one word. -/
theorem isWord_repr (number : Nat) : IsWord number.repr := by
  refine ⟨Nat.repr_ne_empty, ?_⟩
  rw [Nat.toList_repr]
  exact all_isWordCharacter_toDigits (by decide) (by decide) number

end Numeral

namespace Hexadecimal

/-- The characters of a hexadecimal number. -/
theorem toList_text (number : Nat) :
    (text number).toList = '0' :: 'x' :: Nat.toDigits 16 number := by
  simp [text, digits]

/-- A hexadecimal number tells the number. -/
theorem text_inj {number other : Nat} : text number = text other ↔ number = other := by
  refine ⟨fun same => ?_, congrArg text⟩
  have texts := congrArg String.toList same
  rw [toList_text, toList_text, List.cons_inj_right, List.cons_inj_right] at texts
  exact Numeral.toDigits_inj (by decide) (by decide) texts

/-- A hexadecimal number is one word. -/
theorem isWord_text (number : Nat) : IsWord (text number) := by
  have digits := Numeral.all_isWordCharacter_toDigits (by decide) (Nat.le_refl 16) number
  refine ⟨fun empty => ?_, ?_⟩
  · have characters := toList_text number
    rw [empty] at characters
    contradiction
  · rw [toList_text, List.all_cons, List.all_cons, digits]
    decide

end Hexadecimal

/-! ## Flag words -/

namespace FlagFamily

/-- Words of the family can be read off their texts: the members are single bits, and their names
are words that are not numbers. -/
structure Legible (family : FlagFamily) : Prop extends family.Separate where
  /-- The label is one word. -/
  label : IsWord family.label
  /-- A name is one word. -/
  named : ∀ member ∈ family.members, IsWord member.1
  /-- A name begins otherwise than a number. -/
  noNumber : ∀ member ∈ family.members, member.1.toList.head? ≠ some '0'

/-- The words of flags of a device can be read off. -/
theorem legible_deviceFlagFamily : deviceFlagFamily.Legible where
  toSeparate := separate_deviceFlagFamily
  label := by decide
  named := by decide
  noNumber := by decide

/-- The words of flags of an interrupt can be read off. -/
theorem legible_irqFlagFamily : irqFlagFamily.Legible where
  toSeparate := separate_irqFlagFamily
  label := by decide
  named := by decide
  noNumber := by decide

variable {family : FlagFamily} {word other : UInt32}

/-- The parts of a word are the names of the members in it and the number of its undefined bits. -/
theorem mem_parts_iff {part : String} :
    part ∈ family.parts word ↔
      (∃ member ∈ family.members, word &&& member.2 = member.2 ∧ member.1 = part) ∨
        family.undefinedBits word ≠ 0 ∧
          part = Hexadecimal.text (family.undefinedBits word).toNat := by
  rw [parts, List.mem_append, List.mem_map]
  refine or_congr ?_ ?_
  · simp [and_assoc]
  · by_cases none : family.undefinedBits word = 0 <;> simp [none]

/-- No name is a number. -/
theorem Legible.ne_text (legible : family.Legible) {member : String × UInt32}
    (listed : member ∈ family.members) (number : Nat) : member.1 ≠ Hexadecimal.text number := by
  intro same
  have first := legible.noNumber member listed
  rw [same, Hexadecimal.toList_text] at first
  contradiction

/-- The name of a member is a part of the words that have its bit. -/
theorem Legible.name_mem_parts_iff (legible : family.Legible) {member : String × UInt32}
    (listed : member ∈ family.members) {bit : Nat} (has : member.2.toNat.testBit bit = true) :
    member.1 ∈ family.parts word ↔ word.toNat.testBit bit = true := by
  rw [mem_parts_iff]
  constructor
  · rintro (⟨found, listedToo, inside, named⟩ | ⟨-, number⟩)
    · have bits : some found.2 = some member.2 := by
        rw [← legible.found found listedToo, named, legible.found member listed]
      rw [Option.some.inj bits] at inside
      exact and_eq_right_iff.mp inside bit has
    · exact absurd number (legible.ne_text listed _)
  · intro set
    refine .inl ⟨member, listed, and_eq_right_iff.mpr fun other hasToo => ?_, rfl⟩
    rwa [legible.single member listed other bit hasToo has]

/-- A number is a part of the words whose undefined bits are the number, which is not zero. -/
theorem Legible.text_mem_parts_iff (legible : family.Legible) {number : Nat} :
    Hexadecimal.text number ∈ family.parts word ↔
      number ≠ 0 ∧ (family.undefinedBits word).toNat = number := by
  rw [mem_parts_iff, Hexadecimal.text_inj, ← UInt32.toNat_inj.ne]
  constructor
  · rintro (⟨member, listed, -, named⟩ | ⟨filled, rfl⟩)
    · exact absurd named (legible.ne_text listed number)
    · exact ⟨filled, rfl⟩
  · rintro ⟨filled, rfl⟩
    exact .inr ⟨filled, rfl⟩

/-- Words of the same parts have the same undefined bits. -/
theorem Legible.undefinedBits_eq (legible : family.Legible)
    (same : family.parts word = family.parts other) :
    family.undefinedBits word = family.undefinedBits other := by
  have numbers : ∀ number ≠ 0, (family.undefinedBits word).toNat = number ↔
      (family.undefinedBits other).toNat = number := by
    intro number filled
    have parts : Hexadecimal.text number ∈ family.parts word ↔
        Hexadecimal.text number ∈ family.parts other := by rw [same]
    simpa [legible.text_mem_parts_iff, filled] using parts
  apply UInt32.toNat_inj.mp
  by_cases none : (family.undefinedBits word).toNat = 0
  · by_contra differ
    exact differ ((numbers _ fun noneToo => differ (none.trans noneToo.symm)).mpr rfl)
  · exact ((numbers _ none).mp rfl).symm

/-- Words of the same parts are the same. -/
theorem Legible.parts_inj (legible : family.Legible)
    (same : family.parts word = family.parts other) : word = other := by
  apply UInt32.toNat_inj.mp
  apply Nat.eq_of_testBit_eq
  intro bit
  by_cases defined : family.defined.toNat.testBit bit = true
  · obtain ⟨member, listed, has⟩ := testBit_defined_iff.mp defined
    rw [Bool.eq_iff_iff, ← legible.name_mem_parts_iff listed has, same,
      legible.name_mem_parts_iff listed has]
  · -- A bit that no member has is one of the undefined bits of both.
    have undefined := Bool.eq_false_of_not_eq_true defined
    have rests := congrArg (fun rest => rest.toNat.testBit bit) (legible.undefinedBits_eq same)
    simpa only [testBit_undefinedBits, undefined, Bool.not_false, Bool.and_true] using rests

/-- What is shown of a word: its parts, or a zero. -/
def shown (family : FlagFamily) (word : UInt32) : List String :=
  if word = 0 then [Hexadecimal.text 0] else family.parts word

/-- A word is shown as what is shown of it, joined, in the brackets of its label. -/
theorem toList_text (family : FlagFamily) (word : UInt32) :
    (family.text word).toList = family.label.toList ++
      '(' :: ([' ', '|', ' '].intercalate ((family.shown word).map String.toList) ++ [')']) := by
  rw [text, shown]
  split <;> simp [String.toList_intercalate]

/-- Words of which the same is shown are the same. -/
theorem Legible.shown_inj (legible : family.Legible)
    (same : family.shown word = family.shown other) : word = other := by
  have notZero (word : UInt32) : Hexadecimal.text 0 ∉ family.parts word := by
    simp [legible.text_mem_parts_iff]
  simp only [shown] at same
  split_ifs at same with zero zeroToo zeroToo
  · rw [zero, zeroToo]
  · exact absurd (same ▸ List.mem_singleton_self _) (notZero other)
  · exact absurd (same ▸ List.mem_singleton_self _) (notZero word)
  · exact legible.parts_inj same

/-- All that is shown of a word is words. -/
theorem Legible.isWord_of_mem_shown (legible : family.Legible) {part : String}
    (listed : part ∈ family.shown word) : IsWord part := by
  rw [shown] at listed
  split_ifs at listed
  · rw [List.mem_singleton.mp listed]
    exact Hexadecimal.isWord_text 0
  · obtain ⟨member, known, -, rfl⟩ | ⟨-, rfl⟩ := mem_parts_iff.mp listed
    · exact legible.named member known
    · exact Hexadecimal.isWord_text _

/-- The text of a word tells the word and is told apart from what follows. -/
theorem Legible.text_append_inj (legible : family.Legible) {rest more : String}
    (same : family.text word ++ rest = family.text other ++ more) :
    word = other ∧ rest = more := by
  have unmarked {mark : Char} (sign : isWordCharacter mark = false) (word : UInt32) :
      ∀ part ∈ (family.shown word).map String.toList, mark ∉ part :=
    List.forall_mem_map.mpr fun part listed => (legible.isWord_of_mem_shown listed).not_mem sign
  have filled (word : UInt32) : [] ∉ (family.shown word).map String.toList := by
    intro empty
    obtain ⟨part, listed, none⟩ := List.mem_map.mp empty
    exact (legible.isWord_of_mem_shown listed).1 (String.toList_eq_nil_iff.mp none)
  have unclosed (word : UInt32) :
      ')' ∉ [' ', '|', ' '].intercalate ((family.shown word).map String.toList) :=
    not_mem_intercalate (by decide) (unmarked (by decide) word)
  have texts := congrArg String.toList same
  simp only [String.toList_append, toList_text, List.append_assoc, List.cons_append,
    List.append_cancel_left_eq, List.cons_inj_right, List.nil_append] at texts
  obtain ⟨joined, tails⟩ := append_inj_of_beginsWith (unclosed word) (unclosed other)
    (beginsWith_cons _) (beginsWith_cons _) texts
  have parts := intercalate_inj (filled word) (filled other) (unmarked (by decide) word)
    (unmarked (by decide) other) joined
  exact ⟨legible.shown_inj (List.map_injective_iff.mpr (fun _ _ => String.toList_inj.mp) parts),
    String.toList_inj.mp (List.tail_eq_of_cons_eq tails)⟩

/-- The text of a word tells the word. -/
theorem Legible.text_inj (legible : family.Legible)
    (same : family.text word = family.text other) : word = other :=
  (legible.text_append_inj (congrArg (· ++ "") same)).1

/-- In the text of a word are only the characters of words, spaces, bars and brackets. -/
theorem Legible.not_mem_text (legible : family.Legible) {character : Char}
    (sign : isWordCharacter character = false) (others : character ∉ ['(', ' ', '|', ')']) :
    character ∉ (family.text word).toList := by
  have joined : character ∉ [' ', '|', ' '].intercalate ((family.shown word).map String.toList) :=
    not_mem_intercalate (by simp_all) (List.forall_mem_map.mpr fun part listed =>
      (legible.isWord_of_mem_shown listed).not_mem sign)
  rw [toList_text]
  simp_all [legible.label.not_mem sign]

end FlagFamily

/-! ## Kinds -/

namespace DeviceKind

/-- Different kinds have different names. -/
theorem name_inj {kind other : DeviceKind} : kind.name = other.name ↔ kind = other := by
  refine ⟨fun same => ?_, congrArg name⟩
  have found := ofName?_name kind
  rw [same, ofName?_name, Option.some.injEq] at found
  exact found.symm

/-- The name of a kind is one word. -/
theorem isWord_name (kind : DeviceKind) : IsWord kind.name := by
  cases kind <;> decide

end DeviceKind

namespace Listing

variable {entry other : Entry}

/-- A tag that stands for no kind, as shown. -/
theorem kindText_of_unknown (unknown : entry.kind? = none) :
    kindText entry = "<type " ++ entry.typeTag.toNat.repr ++ ">" := by
  rw [kindText, unknown]

/-- A kind, as shown. -/
theorem kindText_of_known {kind : DeviceKind} (known : entry.kind? = some kind) :
    kindText entry = kind.name := by
  rw [kindText, known]

/-- A tag in angle brackets is no word. -/
theorem ne_isWord {text : String} (isWord : IsWord text) (tag : Nat) :
    text ≠ "<type " ++ tag.repr ++ ">" := by
  rintro rfl
  have absent : '<' ∉ ("<type " ++ tag.repr ++ ">").toList := isWord.not_mem (by decide)
  simp at absent

/-- The kind as shown tells the tag, whether it stands for a kind or not. -/
theorem typeTag_eq_of_kindText (same : kindText entry = kindText other) :
    entry.typeTag = other.typeTag := by
  cases known : entry.kind? with
  | some kind =>
    rw [kindText_of_known known] at same
    cases knownToo : other.kind? with
    | some kindToo =>
      rw [kindText_of_known knownToo, DeviceKind.name_inj] at same
      rw [DeviceKind.ofTag?_eq_some_iff.mp known, same, DeviceKind.ofTag?_eq_some_iff.mp knownToo]
    | none =>
      rw [kindText_of_unknown knownToo] at same
      exact absurd same (ne_isWord kind.isWord_name _)
  | none =>
    rw [kindText_of_unknown known] at same
    cases knownToo : other.kind? with
    | some kindToo =>
      rw [kindText_of_known knownToo] at same
      exact absurd same.symm (ne_isWord kindToo.isWord_name _)
    | none =>
      rw [kindText_of_unknown knownToo, String.append_left_inj, String.append_right_inj,
        Numeral.repr_inj] at same
      exact UInt32.toNat_inj.mp same

/-- In the kind as shown are only the characters of words, spaces and angle brackets. -/
theorem not_mem_kindText {character : Char} (sign : isWordCharacter character = false)
    (others : character ∉ [' ', '<', '>']) (entry : Entry) :
    character ∉ (kindText entry).toList := by
  cases known : entry.kind? with
  | some kind =>
    rw [kindText_of_known known]
    exact kind.isWord_name.not_mem sign
  | none =>
    have type : character ∉ "type".toList := IsWord.not_mem (by decide) sign
    have tag := (Numeral.isWord_repr entry.typeTag.toNat).not_mem sign
    rw [kindText_of_unknown known]
    simp_all

end Listing

end BoardBlob
