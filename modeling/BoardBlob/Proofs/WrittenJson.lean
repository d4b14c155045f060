import Mathlib.Computability.Language

/-!
# Written values

The spellings of a value in a document, as languages of characters that say nothing of how a
document is read. A character of a text may be spelled in several ways (`Spelling`), separators may
stand around every mark (`mark`), and the members of a record may come in any order and, where that
says the same, be left out (`recordOf`).
-/
namespace BoardBlob.Json.Written

/-! ## Texts -/

/-- The letters of the short escapes, with the characters that they stand for. -/
def shortEscapes : List (Char × Char) :=
  [('"', '"'), ('\\', '\\'), ('/', '/'), ('b', '\x08'), ('f', '\x0c'), ('n', '\n'), ('r', '\r'),
    ('t', '\t')]

/-- A character is the hexadecimal digit of a value, in either letter case. -/
def IsHexDigit (value : Nat) (digit : Char) : Prop :=
  digit = Nat.digitChar value ∨ digit = (Nat.digitChar value).toUpper

/-- Four characters are the hexadecimal digits of a code unit. -/
def IsHexUnit (unit : Nat) (digits : List Char) : Prop :=
  List.Forall₂ IsHexDigit
    [unit / 0x1000, unit / 0x100 % 0x10, unit / 0x10 % 0x10, unit % 0x10] digits

/-- The ways to spell a character inside a text. -/
inductive Spelling : Char → List Char → Prop
  /-- The character itself, unless it is a control character, a quote or a backslash. -/
  | plain (character : Char) : 0x20 ≤ character.toNat → character ≠ '"' → character ≠ '\\' →
    Spelling character [character]
  /-- A backslash and a letter. -/
  | short (letter character : Char) : (letter, character) ∈ shortEscapes →
    Spelling character ['\\', letter]
  /-- The code unit of a character that has one. -/
  | unit (character : Char) (digits : List Char) : character.toNat < 0x10000 →
    IsHexUnit character.toNat digits → Spelling character ('\\' :: 'u' :: digits)
  /-- The surrogate pair of a character that has two code units. -/
  | pair (character : Char) (high low : List Char) : 0x10000 ≤ character.toNat →
    IsHexUnit (0xd800 + (character.toNat - 0x10000) / 0x400) high →
    IsHexUnit (0xdc00 + (character.toNat - 0x10000) % 0x400) low →
    Spelling character ('\\' :: 'u' :: high ++ '\\' :: 'u' :: low)

/-- The spellings of a character inside a text. -/
def spellings (character : Char) : Language Char := {spelled | Spelling character spelled}

/-- The written forms of a text. -/
def quoted (content : String) : Language Char :=
  {['"']} * (content.toList.map spellings).prod * {['"']}

/-! ## Numbers and null -/

/-- The written form of a 64-bit word: its decimal digits. -/
def number (value : UInt64) : Language Char := {value.toNat.repr.toList}

/-- One or more decimal digits. -/
def digits : Language Char := {text | text ≠ [] ∧ ∀ character ∈ text, character.isDigit}

/-- The digits before the point. A zero stands alone. -/
def wholePart : Language Char := {text | text ∈ digits ∧ (text.head? = some '0' → text = ['0'])}

/-- The point and the digits after it. -/
def fractionPart : Language Char := {['.']} * digits

/-- The mark of an exponent, its sign, and its digits. -/
def exponentPart : Language Char := ({['e']} + {['E']}) * (1 + {['+']} + {['-']}) * digits

/-- The number literals, of any value. -/
def literal : Language Char :=
  (1 + {['-']}) * wholePart * (1 + fractionPart) * (1 + exponentPart)

/-- A literal has no minus sign, no fraction and no exponent. -/
def Plain (text : List Char) : Prop := ∀ mark ∈ ['-', '.', 'e', 'E'], mark ∉ text

instance (text : List Char) : Decidable (Plain text) :=
  List.decidableBAll (fun mark => mark ∉ text) ['-', '.', 'e', 'E']

/-- The written forms of a value, or null where there is none. -/
def orNull {α : Type} (written : α → Language Char) : Option α → Language Char
  | none => {['n', 'u', 'l', 'l']}
  | some value => written value

/-! ## Lists and objects -/

/-- Any number of separators. -/
def blank : Language Char := {text | ∀ character ∈ text, character ∈ [' ', '\t', '\n', '\r']}

/-- A mark, with any separators around it. -/
def mark (character : Char) : Language Char := blank * {[character]} * blank

/-- Values after each other, with commas between them. -/
def separated : List (Language Char) → Language Char
  | [] => 1
  | first :: more => first * (more.map fun next => mark ',' * next).prod

/-- The written forms of a list. -/
def listOf (items : List (Language Char)) : Language Char := mark '[' * separated items * mark ']'

/-- The written forms of a member of an object. -/
def member (key : String) (value : Language Char) : Language Char := quoted key * mark ':' * value

/-- The written forms of an object with its members in this order. -/
def objectOf (members : List (String × Language Char)) : Language Char :=
  mark '\x7b' * separated (members.map fun given => member given.1 given.2) * mark '\x7d'

/-- A member of a record. -/
structure RecordMember where
  name : String
  /-- The written forms of its value. -/
  written : Language Char
  /-- Leaving it out says the same. -/
  omissible : Prop

/-- The written forms of a record: its members in any order, less any that may be left out. -/
def recordOf (members : List RecordMember) : Language Char :=
  {text | ∃ given omitted : List RecordMember, (given ++ omitted).Perm members ∧
    (∀ member ∈ omitted, member.omissible) ∧
    text ∈ objectOf (given.map fun member => (member.name, member.written))}

/-- The written forms of a whole document. -/
def document (value : Language Char) : Language Char := blank * value * blank

/-! ## Every value can be written -/

/-- There is a written form. -/
def Possible (form : Language Char) : Prop := ∃ text, text ∈ form

variable {first second form : Language Char} {forms : List (Language Char)}

/-- Two forms can be written after each other. -/
theorem Possible.mul (one : Possible first) (other : Possible second) :
    Possible (first * second) := by
  obtain ⟨text, written⟩ := one
  obtain ⟨more, writtenToo⟩ := other
  exact ⟨text ++ more, Language.append_mem_mul written writtenToo⟩

/-- Any number of forms can be written after each other. -/
theorem Possible.prod (each : ∀ form ∈ forms, Possible form) : Possible forms.prod := by
  induction forms with
  | nil => exact ⟨[], (Language.mem_one []).mpr rfl⟩
  | cons form forms ih =>
    rw [List.prod_cons]
    exact (each form List.mem_cons_self).mul
      (ih fun other listed => each other (List.mem_cons_of_mem _ listed))

/-- Every code unit has its digits. -/
theorem exists_isHexUnit (unit : Nat) : ∃ digits, IsHexUnit unit digits :=
  ⟨List.map Nat.digitChar _, List.forall₂_map_right_iff.mpr (List.forall₂_same.mpr
    fun _ _ => Or.inl rfl)⟩

/-- Every character can be spelled. -/
theorem possible_spellings (character : Char) : Possible (spellings character) := by
  by_cases small : character.toNat < 0x10000
  · obtain ⟨digits, isUnit⟩ := exists_isHexUnit character.toNat
    exact ⟨_, .unit character digits small isUnit⟩
  · refine ⟨_, .plain character (by omega) ?_ ?_⟩ <;>
    · rintro rfl
      exact small (by decide)

/-- Every text can be written. -/
theorem possible_quoted (content : String) : Possible (quoted content) := by
  have quote : Possible {['"']} := ⟨_, rfl⟩
  refine (quote.mul (.prod fun form listed => ?_)).mul quote
  obtain ⟨character, _, rfl⟩ := List.mem_map.mp listed
  exact possible_spellings character

/-- A character that needs no escape. -/
def isPlain (character : Char) : Bool :=
  0x20 ≤ character.toNat && character != '"' && character != '\\'

/-- Characters that need no escape can be spelled as themselves. -/
theorem mem_prod_spellings {characters : List Char} (plain : characters.all isPlain) :
    characters ∈ (characters.map spellings).prod := by
  induction characters with
  | nil => exact (Language.mem_one []).mpr rfl
  | cons character characters ih =>
    simp only [List.all_cons, isPlain, Bool.and_eq_true, decide_eq_true_eq, bne_iff_ne] at plain
    obtain ⟨⟨⟨printed, notQuote⟩, notEscape⟩, later⟩ := plain
    have here : [character] ∈ spellings character := .plain character printed notQuote notEscape
    exact Language.append_mem_mul here (ih later)

/-- A text of characters that need no escape can be written as it is. -/
theorem mem_quoted_of_plain {content : String} (plain : content.toList.all isPlain) :
    '"' :: content.toList ++ ['"'] ∈ quoted content := by
  have quote : ['"'] ∈ ({['"']} : Language Char) := rfl
  exact Language.append_mem_mul (Language.append_mem_mul quote (mem_prod_spellings plain)) quote

/-- A value or its absence can be written when every value can. -/
theorem possible_orNull {α : Type} {written : α → Language Char}
    (each : ∀ value, Possible (written value)) (value : Option α) :
    Possible (orNull written value) := by
  cases value with
  | none => exact ⟨_, rfl⟩
  | some value => exact each value

/-- Separators can be left out. -/
theorem nil_mem_blank : [] ∈ blank := fun _ listed => absurd listed List.not_mem_nil

/-- A mark can be written alone. -/
theorem mem_mark (character : Char) : [character] ∈ mark character :=
  Language.mem_mul.mpr ⟨[character],
    Language.mem_mul.mpr ⟨[], nil_mem_blank, [character], rfl, rfl⟩, [], nil_mem_blank, rfl⟩

/-- A member with a plain key can be written without separators. -/
theorem mem_member {key : String} (plain : key.toList.all isPlain) {value : Language Char}
    {text : List Char} (written : text ∈ value) :
    '"' :: key.toList ++ ['"'] ++ [':'] ++ text ∈ member key value :=
  Language.append_mem_mul
    (Language.append_mem_mul (mem_quoted_of_plain plain) (mem_mark ':')) written

/-- Every mark can be written. -/
theorem possible_mark (character : Char) : Possible (mark character) := ⟨_, mem_mark character⟩

/-- Values that can be written can be written with commas between them. -/
theorem Possible.separated (each : ∀ form ∈ forms, Possible form) :
    Possible (separated forms) := by
  cases forms with
  | nil => exact ⟨[], (Language.mem_one []).mpr rfl⟩
  | cons form forms =>
    refine (each form List.mem_cons_self).mul (.prod fun other listed => ?_)
    obtain ⟨next, later, rfl⟩ := List.mem_map.mp listed
    exact (possible_mark ',').mul (each next (List.mem_cons_of_mem _ later))

/-- A list of values that can be written can be written. -/
theorem Possible.listOf (each : ∀ form ∈ forms, Possible form) : Possible (listOf forms) :=
  ((possible_mark '[').mul (.separated each)).mul (possible_mark ']')

/-- An object of values that can be written can be written. -/
theorem Possible.objectOf {members : List (String × Language Char)}
    (each : ∀ given ∈ members, Possible given.2) : Possible (objectOf members) := by
  refine ((possible_mark _).mul (.separated fun form listed => ?_)).mul (possible_mark _)
  obtain ⟨given, present, rfl⟩ := List.mem_map.mp listed
  exact ((possible_quoted given.1).mul (possible_mark ':')).mul (each given present)

/-- A record of values that can be written can be written, with all of its members. -/
theorem Possible.recordOf {members : List RecordMember}
    (each : ∀ member ∈ members, Possible member.written) : Possible (recordOf members) := by
  have whole : Possible
      (Written.objectOf (members.map fun member => (member.name, member.written))) := by
    refine .objectOf fun given listed => ?_
    obtain ⟨member, present, rfl⟩ := List.mem_map.mp listed
    exact each member present
  obtain ⟨text, written⟩ := whole
  exact ⟨text, members, [], by simp, by simp, written⟩

/-- A document of a value that can be written can be written. -/
theorem Possible.document (possible : Possible form) : Possible (document form) := by
  have blanks : Possible blank := ⟨[], nil_mem_blank⟩
  exact (blanks.mul possible).mul blanks

end BoardBlob.Json.Written
