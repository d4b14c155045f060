import Mathlib.Data.List.TakeWhile
import Mathlib.Data.Nat.Digits.Defs
import Mathlib.Tactic.Ring
import BoardBlob.Board.Conversion
import BoardBlob.CommandLine.Value
import BoardBlob.Proofs.WrittenJson

/-!
# The texts that are numbers

Which texts a board and the command line take for a number, told without the way in which they are
read: what is left of a text between white space and without underscores (`Numeral.Trimmed`) is
digits of one base after an optional plus sign (`Numeral.Denotes`), and the number is the value of
the digits in that base. Digits are read from the left and refused as soon as their value leaves 64
bits, which is never before the whole number does (`Numeral.readDigits_eq_ok_iff`). So every number
below the bound is read as itself, however many zeros it begins with, and nothing else is read
(`numeral_exact`).
-/
namespace BoardBlob

open Json.Written (IsHexDigit)

/-! ## White space -/

namespace Blank

/-- The characters with the property White_Space. -/
def whiteSpace : List Char :=
  ['\t', '\n', '\x0b', '\x0c', '\r', ' ', '\u0085', '\u00a0', '\u1680', '\u2000', '\u2001', '\u2002',
    '\u2003', '\u2004', '\u2005', '\u2006', '\u2007', '\u2008', '\u2009', '\u200a', '\u2028',
    '\u2029', '\u202f', '\u205f', '\u3000']

/-- The blank characters are the listed ones. -/
theorem isBlank_iff {character : Char} : isBlank character = true ↔ character ∈ whiteSpace := by
  simp only [isBlank, whiteSpace, List.mem_cons, List.not_mem_nil, or_false, ← Char.toNat_inj,
    Bool.or_eq_true, Bool.and_eq_true, decide_eq_true_eq, beq_iff_eq, Char.reduceToNat]
  omega

end Blank

namespace Numeral

/-- What is left of a text without the white space at its ends. -/
structure Trimmed (text core : List Char) : Prop where
  /-- Only white space stands around what is left. -/
  around : ∃ front back, text = front ++ core ++ back ∧
    (∀ character ∈ front, character ∈ Blank.whiteSpace) ∧
    ∀ character ∈ back, character ∈ Blank.whiteSpace
  /-- What is left begins with another character. -/
  begins : ∀ character ∈ core.head?, character ∉ Blank.whiteSpace
  /-- What is left ends with another character. -/
  ends : ∀ character ∈ core.getLast?, character ∉ Blank.whiteSpace

/-- White space in front of a text is dropped up to where the text begins. -/
theorem dropWhile_isBlank_append {front rest : List Char}
    (blank : ∀ character ∈ front, character ∈ Blank.whiteSpace)
    (begins : ∀ character ∈ rest.head?, character ∉ Blank.whiteSpace) :
    (front ++ rest).dropWhile Blank.isBlank = rest := by
  rw [List.dropWhile_append_of_pos fun character member => Blank.isBlank_iff.mpr (blank _ member)]
  cases rest with
  | nil => rfl
  | cons character rest =>
    exact List.dropWhile_cons_of_neg (mt Blank.isBlank_iff.mp (begins character rfl))

/-- The first character after dropped white space is another character. -/
theorem head?_dropWhile_isBlank (text : List Char) :
    ∀ character ∈ (text.dropWhile Blank.isBlank).head?, character ∉ Blank.whiteSpace := by
  intro character first listed
  have kept := List.head?_dropWhile_not Blank.isBlank text
  rw [Option.mem_def] at first
  rw [first] at kept
  simp [Blank.isBlank_iff.mpr listed] at kept

/-- Trimming leaves what is left of a text without the white space at its ends. -/
theorem trimmed_trim (text : List Char) : Trimmed text (Blank.trim text) := by
  let rest := text.dropWhile Blank.isBlank
  let back := (rest.reverse.takeWhile Blank.isBlank).reverse
  have parts : rest = Blank.trim text ++ back := by
    have split := congrArg List.reverse
      (List.takeWhile_append_dropWhile (p := Blank.isBlank) (l := rest.reverse))
    rw [List.reverse_append, List.reverse_reverse] at split
    exact split.symm
  refine ⟨⟨text.takeWhile Blank.isBlank, back, ?_, ?_, ?_⟩, ?_, ?_⟩
  · rw [List.append_assoc, ← parts, List.takeWhile_append_dropWhile]
  · exact fun character member => Blank.isBlank_iff.mp (List.mem_takeWhile_imp member)
  · intro character member
    exact Blank.isBlank_iff.mp (List.mem_takeWhile_imp (List.mem_reverse.mp member))
  · intro character first
    apply head?_dropWhile_isBlank text
    change character ∈ rest.head?
    rw [parts, List.head?_append_of_ne_nil _ (by rintro empty; simp [empty] at first)]
    exact first
  · intro character last
    rw [Blank.trim, List.getLast?_reverse] at last
    exact head?_dropWhile_isBlank _ character last

/-- Nothing else is left of a text without the white space at its ends. -/
theorem Trimmed.trim_eq {text core : List Char} (trimmed : Trimmed text core) :
    Blank.trim text = core := by
  obtain ⟨⟨front, back, rfl, blankFront, blankBack⟩, begins, ends⟩ := trimmed
  cases core with
  | nil =>
    have blank : ∀ character ∈ front ++ [] ++ back, character ∈ Blank.whiteSpace := by
      simp only [List.append_nil, List.mem_append]
      rintro character (before | after)
      · exact blankFront character before
      · exact blankBack character after
    have dropped : (front ++ [] ++ back).dropWhile Blank.isBlank = [] := by
      rw [← List.append_nil (front ++ [] ++ back), dropWhile_isBlank_append blank (by simp)]
    simp only [Blank.trim, dropped]
    rfl
  | cons first core =>
    have blankReversed : ∀ character ∈ back.reverse, character ∈ Blank.whiteSpace :=
      fun character member => blankBack character (List.mem_reverse.mp member)
    have reversedEnds :
        ∀ character ∈ (first :: core).reverse.head?, character ∉ Blank.whiteSpace := by
      rwa [List.head?_reverse]
    rw [Blank.trim, List.append_assoc, dropWhile_isBlank_append blankFront (by simpa using begins),
      List.reverse_append, dropWhile_isBlank_append blankReversed reversedEnds,
      List.reverse_reverse]

/-! ## Digits -/

/-- A character is the digit of a value in a base, in either letter case. -/
def IsDigit (base value : Nat) (character : Char) : Prop :=
  value < base ∧ IsHexDigit value character

/-- The digits of a base are the digits that number and letters have in common with sixteen. -/
theorem isHexDigit_iff {value : Nat} {character : Char} (small : value < 16) :
    IsHexDigit value character ↔
      value < 10 ∧ character.toNat = value + 48 ∨
        10 ≤ value ∧ (character.toNat = value + 55 ∨ character.toNat = value + 87) := by
  have each : ∀ value < 16,
      (Nat.digitChar value).toNat = (if value < 10 then value + 48 else value + 87) ∧
        (Nat.digitChar value).toUpper.toNat = (if value < 10 then value + 48 else value + 55) := by
    decide
  obtain ⟨lower, upper⟩ := each value small
  rw [IsHexDigit, ← Char.toNat_inj, ← Char.toNat_inj, lower, upper]
  split <;> omega

/-- A digit of a base is read as its value, and nothing else is read. -/
theorem digitValue?_eq_some_iff {base value : Nat} {character : Char} (small : base ≤ 16) :
    digitValue? base character = some value ↔ IsDigit base value character := by
  constructor
  · intro read
    have inside : value < base := by
      unfold digitValue? at read
      simp only [Option.ite_none_right_eq_some, Option.some.injEq] at read
      omega
    refine ⟨inside, (isHexDigit_iff (by omega)).mpr ?_⟩
    simp only [digitValue?, Bool.and_eq_true, decide_eq_true_eq, Option.ite_none_right_eq_some,
      Option.some.injEq] at read
    split_ifs at read <;> omega
  · rintro ⟨inside, digit⟩
    rw [isHexDigit_iff (by omega)] at digit
    simp only [digitValue?, Bool.and_eq_true, decide_eq_true_eq, Option.ite_none_right_eq_some,
      Option.some.injEq]
    split_ifs <;> omega

/-- Two leading digits count as one that holds them both. -/
theorem ofDigits_carry (base digit value : Nat) (low : List Nat) :
    Nat.ofDigits base (low ++ [digit, value]) =
      Nat.ofDigits base (low ++ [value * base + digit]) := by
  simp only [Nat.ofDigits_append, Nat.ofDigits_cons, Nat.ofDigits_nil]
  ring

/-- A number is no less than its leading digit. -/
theorem le_ofDigits_concat {base : Nat} (positive : 0 < base) (value : Nat) (low : List Nat) :
    value ≤ Nat.ofDigits base (low ++ [value]) := by
  rw [Nat.ofDigits_append, Nat.ofDigits_singleton]
  calc
    value ≤ base ^ low.length * value := Nat.le_mul_of_pos_left _ (Nat.pow_pos positive)
    _ ≤ Nat.ofDigits base low + base ^ low.length * value := Nat.le_add_left _ _

/-- Reading digits that follow others continues the value of those, and stops at the bound exactly
when the whole number reaches it. -/
theorem readDigits_eq_ok_iff {base : Nat} (small : base ≤ 16) (positive : 0 < base) {number : Nat} :
    ∀ {chars : List Char} {value : Nat}, value < UInt64.size →
      (readDigits base value chars = .ok number ↔
        number < UInt64.size ∧ ∃ values, List.Forall₂ (IsDigit base) values chars ∧
          number = Nat.ofDigits base (values.reverse ++ [value])) := by
  intro chars
  induction chars with
  | nil =>
    intro value below
    rw [readDigits, Except.ok.injEq]
    constructor
    · rintro rfl
      exact ⟨below, [], .nil, by simp⟩
    · rintro ⟨-, values, digits, rfl⟩
      cases digits
      simp
  | cons character chars continue_ =>
    intro value below
    rw [readDigits]
    cases read : digitValue? base character with
    | none =>
      constructor
      · intro given
        cases given
      · rintro ⟨-, values, digits, -⟩
        cases digits with
        | cons digit rest =>
          rw [(digitValue?_eq_some_iff small).mpr digit] at read
          cases read
    | some digit =>
      -- The digits after this one are those of the whole number with the value so far in front.
      have first : (∃ values, List.Forall₂ (IsDigit base) values (character :: chars) ∧
            number = Nat.ofDigits base (values.reverse ++ [value])) ↔
          ∃ values, List.Forall₂ (IsDigit base) values chars ∧
            number = Nat.ofDigits base (values.reverse ++ [value * base + digit]) := by
        constructor
        · rintro ⟨values, digits, rfl⟩
          cases digits with
          | cons found rest =>
            have same := (digitValue?_eq_some_iff small).mpr found
            rw [read, Option.some.injEq] at same
            refine ⟨_, rest, ?_⟩
            rw [same, ← ofDigits_carry, List.reverse_cons, List.append_assoc]
            rfl
        · rintro ⟨values, rest, rfl⟩
          refine ⟨digit :: values, .cons ((digitValue?_eq_some_iff small).mp read) rest, ?_⟩
          rw [← ofDigits_carry, List.reverse_cons, List.append_assoc]
          rfl
      rw [first]
      dsimp only
      split
      case isTrue grown => exact continue_ grown
      case isFalse large =>
        constructor
        · intro given
          cases given
        · rintro ⟨below, values, -, rfl⟩
          exact absurd (lt_of_le_of_lt (le_ofDigits_concat positive _ _) below) large

/-! ## Numbers -/

/-- One or more digits of a base are a number, which is their value. -/
inductive Spelled (base : Nat) : List Char → Nat → Prop
  /-- The digits alone. -/
  | plain {values : List Nat} {chars : List Char} : values ≠ [] →
    List.Forall₂ (IsDigit base) values chars → Spelled base chars (Nat.ofDigits base values.reverse)
  /-- The digits after a plus sign. -/
  | signed {values : List Nat} {chars : List Char} : values ≠ [] →
    List.Forall₂ (IsDigit base) values chars →
    Spelled base ('+' :: chars) (Nat.ofDigits base values.reverse)

/-- The characters that count are a number. -/
inductive Denotes : List Char → Nat → Prop
  /-- Hexadecimal digits after their mark. -/
  | hexadecimal {mark : Char} {chars : List Char} {number : Nat} : mark = 'x' ∨ mark = 'X' →
    Spelled 16 chars number → Denotes ('0' :: mark :: chars) number
  /-- Decimal digits. -/
  | decimal {chars : List Char} {number : Nat} : Spelled 10 chars number → Denotes chars number

/-- A text stands for a number: between the white space at its ends and without its underscores, it
is that number. -/
def StandsFor (text : String) (number : Nat) : Prop :=
  ∃ core, Trimmed text.toList core ∧ Denotes (core.filter fun character => character != '_') number

/-- A plus sign is no digit. -/
theorem not_isDigit_plus {base value : Nat} (small : base ≤ 16) : ¬IsDigit base value '+' := by
  rw [← digitValue?_eq_some_iff small]
  simp only [digitValue?, Char.reduceToNat]
  split_ifs <;> simp_all

/-- Reading digits from the start gives their value when that is below the bound. -/
theorem readDigits_zero_eq_ok_iff {base : Nat} (small : base ≤ 16) (positive : 0 < base)
    {chars : List Char} {number : Nat} :
    readDigits base 0 chars = .ok number ↔
      number < UInt64.size ∧ ∃ values, List.Forall₂ (IsDigit base) values chars ∧
        number = Nat.ofDigits base values.reverse := by
  simp only [readDigits_eq_ok_iff small positive (show 0 < UInt64.size by decide),
    Nat.ofDigits_append, Nat.ofDigits_singleton, Nat.mul_zero, Nat.add_zero]

/-- Reading in a base takes what is a number below the bound, and nothing else. -/
theorem readBase_eq_ok_iff {base : Nat} (small : base ≤ 16) (positive : 0 < base)
    {chars : List Char} {number : Nat} :
    readBase base chars = .ok number ↔ number < UInt64.size ∧ Spelled base chars number := by
  unfold readBase
  split
  case h_1 =>
    constructor
    · intro given
      cases given
    · rintro ⟨-, spelled⟩
      cases spelled with
      | plain written digits =>
        cases digits
        exact absurd rfl written
  case h_2 =>
    constructor
    · intro given
      cases given
    · rintro ⟨-, spelled⟩
      cases spelled with
      | plain written digits =>
        cases digits with
        | cons digit rest => exact absurd digit (not_isDigit_plus small)
      | signed written digits =>
        cases digits
        exact absurd rfl written
  case h_3 digits more =>
    rw [readDigits_zero_eq_ok_iff small positive]
    refine and_congr_right fun _ => ⟨?_, ?_⟩
    · rintro ⟨values, found, rfl⟩
      refine .signed ?_ found
      rintro rfl
      cases found
      exact more rfl
    · intro spelled
      cases spelled with
      | plain written digits =>
        cases digits with
        | cons digit rest => exact absurd digit (not_isDigit_plus small)
      | signed written digits => exact ⟨_, digits, rfl⟩
  case h_4 written notEmpty _ unsigned =>
    rw [readDigits_zero_eq_ok_iff small positive]
    refine and_congr_right fun _ => ⟨?_, ?_⟩
    · rintro ⟨values, found, rfl⟩
      refine .plain ?_ found
      rintro rfl
      cases found
      exact notEmpty rfl
    · intro spelled
      cases spelled with
      | plain written digits => exact ⟨_, digits, rfl⟩
      | signed written digits => exact absurd rfl (unsigned _)

/-- Behind the mark of hexadecimal numbers stands nothing but such a number. -/
theorem denotes_mark_iff {mark : Char} (letter : mark = 'x' ∨ mark = 'X') {chars : List Char}
    {number : Nat} : Denotes ('0' :: mark :: chars) number ↔ Spelled 16 chars number := by
  refine ⟨?_, .hexadecimal letter⟩
  intro denotes
  cases denotes with
  | hexadecimal _ spelled => exact spelled
  | decimal spelled =>
    cases spelled with
    | plain _ digits =>
      obtain _ | ⟨-, _ | ⟨digit, -⟩⟩ := digits
      rw [← digitValue?_eq_some_iff (by decide)] at digit
      rcases letter with rfl | rfl <;> simp [digitValue?] at digit

/-- Reading takes what is a number below the bound, and nothing else. -/
theorem readSignificant_eq_ok_iff {chars : List Char} {number : Nat} :
    readSignificant chars = .ok number ↔ number < UInt64.size ∧ Denotes chars number := by
  unfold readSignificant
  split
  case h_1 => rw [denotes_mark_iff (.inl rfl), readBase_eq_ok_iff (by decide) (by decide)]
  case h_2 => rw [denotes_mark_iff (.inr rfl), readBase_eq_ok_iff (by decide) (by decide)]
  case h_3 unmarked capital =>
    rw [readBase_eq_ok_iff (by decide) (by decide)]
    refine and_congr_right fun _ => ⟨.decimal, ?_⟩
    intro denotes
    cases denotes with
    | hexadecimal letter _ =>
      rcases letter with rfl | rfl
      · exact absurd rfl (unmarked _)
      · exact absurd rfl (capital _)
    | decimal spelled => exact spelled

/-- A text stands for the number that the characters that count are. -/
theorem standsFor_iff {text : String} {number : Nat} :
    StandsFor text number ↔ Denotes (significant text) number := by
  constructor
  · rintro ⟨core, trimmed, denotes⟩
    rwa [significant, trimmed.trim_eq]
  · exact fun denotes => ⟨_, trimmed_trim text.toList, denotes⟩

/-- A text is read as the number that it stands for, when that is below the bound. -/
theorem read_eq_ok_iff {text : String} {value : UInt64} :
    read text = .ok value ↔ StandsFor text value.toNat := by
  rw [standsFor_iff, read]
  cases found : readSignificant (significant text) with
  | error fault =>
    constructor
    · intro given
      cases given
    · intro denotes
      rw [readSignificant_eq_ok_iff.mpr ⟨value.toNat_lt_size, denotes⟩] at found
      cases found
  | ok number =>
    have small := (readSignificant_eq_ok_iff.mp found).1
    change (Except.ok (UInt64.ofNat number) : Except Fault UInt64) = .ok value ↔ _
    rw [Except.ok.injEq]
    constructor
    · rintro rfl
      rw [UInt64.toNat_ofNat_of_lt' small]
      exact (readSignificant_eq_ok_iff.mp found).2
    · intro denotes
      rw [readSignificant_eq_ok_iff.mpr ⟨value.toNat_lt_size, denotes⟩, Except.ok.injEq] at found
      rw [← found, UInt64.ofNat_toNat]

/-- Digits of a base have one value. -/
theorem leftUnique_isDigit {base : Nat} (small : base ≤ 16) : Relator.LeftUnique (IsDigit base) := by
  intro value other character digit also
  rw [← digitValue?_eq_some_iff small] at digit also
  exact Option.some.inj (digit.symm.trans also)

/-- Characters are one number in a base. -/
theorem Spelled.unique {base number other : Nat} {chars : List Char} (small : base ≤ 16)
    (spelled : Spelled base chars number) (also : Spelled base chars other) : number = other := by
  have same := (leftUnique_isDigit small).forall₂
  cases spelled with
  | plain _ digits =>
    cases also with
    | plain _ others => rw [same digits others]
    | signed _ _ =>
      cases digits with
      | cons digit _ => exact absurd digit (not_isDigit_plus small)
  | signed _ digits =>
    cases also with
    | plain _ others =>
      cases others with
      | cons digit _ => exact absurd digit (not_isDigit_plus small)
    | signed _ others => rw [same digits others]

/-- The characters that count are one number. -/
theorem Denotes.unique {chars : List Char} {number other : Nat} (denotes : Denotes chars number)
    (also : Denotes chars other) : number = other := by
  cases denotes with
  | hexadecimal letter spelled =>
    exact spelled.unique (by decide) ((denotes_mark_iff letter).mp also)
  | decimal spelled =>
    cases also with
    | hexadecimal letter others =>
      exact ((denotes_mark_iff letter).mp (.decimal spelled)).unique (by decide) others
    | decimal others => exact spelled.unique (by decide) others

/-- A text stands for one number, of any size. -/
theorem StandsFor.unique {text : String} {number other : Nat} (stands : StandsFor text number)
    (also : StandsFor text other) : number = other :=
  (standsFor_iff.mp stands).unique (standsFor_iff.mp also)

/-- A text is read as the allowed number that it stands for, and refused when it stands for none. -/
structure ReadExactly {α : Type} (toNat : α → Nat) (allowed : Nat → Prop) (text : String)
    (result : Option α) : Prop where
  /-- The text is read as a value exactly when it stands for that number. -/
  accepted : ∀ value, result = some value ↔ StandsFor text (toNat value) ∧ allowed (toNat value)
  /-- The text is refused exactly when no allowed number is what it stands for. -/
  refused : result = none ↔ ∀ number, StandsFor text number → ¬allowed number

/-- Reading that takes what it should refuses everything else, when every allowed number is the
number of a value. -/
theorem ReadExactly.of_accepted {α : Type} {toNat : α → Nat} {allowed : Nat → Prop} {text : String}
    {result : Option α} (valued : ∀ number, allowed number → ∃ value, toNat value = number)
    (accepted : ∀ value, result = some value ↔ StandsFor text (toNat value) ∧ allowed (toNat value)) :
    ReadExactly toNat allowed text result := by
  refine ⟨accepted, ?_⟩
  constructor
  · rintro rfl number stands isAllowed
    obtain ⟨value, rfl⟩ := valued number isAllowed
    exact nomatch (accepted value).mpr ⟨stands, isAllowed⟩
  · intro refuses
    cases result with
    | none => rfl
    | some value =>
      obtain ⟨stands, isAllowed⟩ := (accepted value).mp rfl
      exact absurd isAllowed (refuses _ stands)

end Numeral

/-! ## The readers -/

namespace CommandLine

/-- The powers of two among the words are those of the numbers. -/
theorem isPowerOfTwo_iff {value : UInt64} :
    isPowerOfTwo value = true ↔ ∃ exponent, value.toNat = 2 ^ exponent := by
  simp only [isPowerOfTwo, List.any_eq_true, List.mem_range, beq_iff_eq, Nat.one_shiftLeft]
  constructor
  · rintro ⟨exponent, -, power⟩
    exact ⟨exponent, power⟩
  · rintro ⟨exponent, power⟩
    have bound : 2 ^ exponent < 2 ^ 64 := power ▸ value.toNat_lt
    exact ⟨exponent, (Nat.pow_lt_pow_iff_right (by decide)).mp bound, power⟩

/-- The command line reads a number as its text stands. -/
theorem readNumber_eq_ok_iff {text : String} {value : UInt64} :
    readNumber text = .ok value ↔ Numeral.StandsFor text value.toNat := by
  rw [← Numeral.read_eq_ok_iff, readNumber]
  cases Numeral.read text <;> simp [Except.mapError]

/-- A word of the command line is a number that fits it. -/
theorem readWord_eq_ok_iff {text : String} {value : UInt32} :
    readWord text = .ok value ↔ Numeral.StandsFor text value.toNat := by
  rw [readWord]
  constructor
  · intro given
    split at given
    case h_1 => cases given
    case h_2 wide read =>
      split at given
      case isTrue small =>
        obtain rfl := Except.ok.inj given
        rw [UInt32.toNat_ofNat_of_lt' small]
        exact readNumber_eq_ok_iff.mp read
      case isFalse => cases given
  · intro stands
    have wide : value.toUInt64.toNat = value.toNat := value.toNat_toUInt64
    rw [readNumber_eq_ok_iff.mpr (wide.symm ▸ stands)]
    dsimp only
    rw [wide, if_pos value.toNat_lt_size, UInt32.ofNat_toNat]

/-- An alignment is a number that is a power of two. -/
theorem readAlignment_eq_ok_iff {text : String} {value : UInt64} :
    readAlignment text = .ok value ↔
      Numeral.StandsFor text value.toNat ∧ ∃ exponent, value.toNat = 2 ^ exponent := by
  rw [readAlignment, ← isPowerOfTwo_iff]
  constructor
  · intro given
    split at given
    case h_1 => cases given
    case h_2 number read =>
      split at given
      case isTrue power =>
        obtain rfl := Except.ok.inj given
        exact ⟨readNumber_eq_ok_iff.mp read, power⟩
      case isFalse => cases given
  · rintro ⟨stands, power⟩
    rw [readNumber_eq_ok_iff.mpr stands]
    exact if_pos power

end CommandLine

/-- What is left of a result without its fault. -/
theorem toOption_eq_some_iff {ε α : Type} {result : Except ε α} {value : α} :
    result.toOption = some value ↔ result = .ok value := by
  cases result <;> simp [Except.toOption]

/-- A number of a board that is written as a text is read as the text stands. -/
theorem Quantity.value?_text_eq_some_iff {text : String} {value : UInt64} :
    (Quantity.text text).value? = some value ↔ Numeral.StandsFor text value.toNat := by
  rw [← Numeral.read_eq_ok_iff, value?]
  exact toOption_eq_some_iff

/-- Texts that are numbers. A text stands for at most one number: between white space and without
underscores it is the value of its hexadecimal digits after `0x` or `0X`, or of its decimal digits,
with at most one plus sign before them. A board and the command line read every number below 2^64
as itself, a word of the command line every number below 2^32 and an alignment every power of two;
a text that stands for no such number is refused. -/
theorem numeral_exact (text : String) :
    (∀ number other, Numeral.StandsFor text number → Numeral.StandsFor text other →
      number = other) ∧
    Numeral.ReadExactly UInt64.toNat (· < 2 ^ 64) text (Quantity.text text).value? ∧
    Numeral.ReadExactly UInt64.toNat (· < 2 ^ 64) text (CommandLine.readNumber text).toOption ∧
    Numeral.ReadExactly UInt32.toNat (· < 2 ^ 32) text (CommandLine.readWord text).toOption ∧
    Numeral.ReadExactly UInt64.toNat
      (fun number => number < 2 ^ 64 ∧ ∃ exponent, number = 2 ^ exponent) text
      (CommandLine.readAlignment text).toOption := by
  have wide : ∀ number < 2 ^ 64, ∃ value : UInt64, value.toNat = number :=
    fun number below => ⟨_, UInt64.toNat_ofNat_of_lt' below⟩
  have narrow : ∀ number < 2 ^ 32, ∃ value : UInt32, value.toNat = number :=
    fun number below => ⟨_, UInt32.toNat_ofNat_of_lt' below⟩
  refine ⟨fun number other => Numeral.StandsFor.unique, .of_accepted wide ?board,
    .of_accepted wide ?number, .of_accepted narrow ?word,
    .of_accepted (fun number allowed => wide number allowed.1) ?alignment⟩
  case board =>
    intro value
    rw [Quantity.value?_text_eq_some_iff, and_iff_left value.toNat_lt]
  case number =>
    intro value
    rw [toOption_eq_some_iff, CommandLine.readNumber_eq_ok_iff, and_iff_left value.toNat_lt]
  case word =>
    intro value
    rw [toOption_eq_some_iff, CommandLine.readWord_eq_ok_iff, and_iff_left value.toNat_lt]
  case alignment =>
    intro value
    rw [toOption_eq_some_iff, CommandLine.readAlignment_eq_ok_iff,
      and_iff_right value.toNat_lt]

/-- A hexadecimal number between white space, with underscores around its mark, a plus sign and
leading zeros. -/
def paddedNumeral : String := "\u00a0 0_X+00_fF_\n"

/-- The padded text stands for 255. -/
theorem standsFor_paddedNumeral : Numeral.StandsFor paddedNumeral 255 := by
  refine ⟨['0', '_', 'X', '+', '0', '0', '_', 'f', 'F', '_'], ?trimmed, ?denotes⟩
  case trimmed =>
    refine ⟨⟨['\u00a0', ' '], ['\n'], rfl, ?_, ?_⟩, ?_, ?_⟩ <;> simp [Blank.whiteSpace]
  case denotes =>
    have digit : ∀ {value : Nat} {character : Char},
        Numeral.digitValue? 16 character = some value → Numeral.IsDigit 16 value character :=
      (Numeral.digitValue?_eq_some_iff (by decide)).mp
    exact .hexadecimal (.inr rfl) (@Numeral.Spelled.signed 16 [0, 0, 15, 15] _ (by decide)
      (.cons (digit rfl) (.cons (digit rfl) (.cons (digit rfl) (.cons (digit rfl) .nil)))))

/-- The padded text is no other number, and no power of two. -/
theorem numeral_exact_paddedNumeral :
    Numeral.StandsFor paddedNumeral 255 ∧ (Quantity.text paddedNumeral).value? = some 255 ∧
      (∀ other, Numeral.StandsFor paddedNumeral other → other = 255) ∧
      (CommandLine.readWord paddedNumeral).toOption = some 255 ∧
      (CommandLine.readAlignment paddedNumeral).toOption = none := by
  obtain ⟨unique, board, -, word, alignment⟩ := numeral_exact paddedNumeral
  refine ⟨standsFor_paddedNumeral, (board.accepted 255).mpr ⟨standsFor_paddedNumeral, by decide⟩,
    fun other stands => unique other 255 stands standsFor_paddedNumeral,
    (word.accepted 255).mpr ⟨standsFor_paddedNumeral, by decide⟩, alignment.refused.mpr ?_⟩
  rintro number stands ⟨-, exponent, power⟩
  obtain rfl := unique number 255 stands standsFor_paddedNumeral
  have odd : ¬2 ∣ 255 := by decide
  cases exponent with
  | zero => cases power
  | succ exponent => exact odd ⟨2 ^ exponent, power.trans (Nat.pow_succ' ..)⟩

end BoardBlob
