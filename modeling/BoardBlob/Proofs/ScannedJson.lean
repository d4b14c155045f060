import BoardBlob.Json.Token
import BoardBlob.Proofs.WrittenJson

/-!
# Scanning written values

How the pieces of a document are scanned for tokens. Every spelling of a character is read as that
character (`readTextWithin_spelling`), so every written form of a text is one token; a number is one
token when nothing after it continues it (`Delimited`); and separators leave no token. `Scans` says
of a text that it is read as certain tokens wherever it stands before a delimiter.
-/
namespace BoardBlob.Json

open Written (IsHexDigit IsHexUnit Spelling shortEscapes spellings quoted blank mark wholePart)

/-! ## Characters of texts -/

/-- A hexadecimal digit has its value, in either letter case. -/
theorem hexDigit?_of_isHexDigit {value : Nat} {digit : Char} (small : value < 0x10)
    (isDigit : IsHexDigit value digit) : hexDigit? digit = some value := by
  cases isDigit with
  | inl lower => subst lower; revert value; decide
  | inr upper => subst upper; revert value; decide

/-- The four digits of a code unit are read as the unit. -/
theorem readHex_of_isHexUnit {unit : Nat} {digits : List Char} (small : unit < 0x10000)
    (isUnit : IsHexUnit unit digits) (rest : List Char) :
    readHex (digits ++ rest) = .ok (unit, rest) := by
  obtain _ | ⟨first, _ | ⟨second, _ | ⟨third, _ | ⟨fourth, ⟨⟩⟩⟩⟩⟩ := isUnit
  have sum : ((unit / 0x1000 * 16 + unit / 0x100 % 0x10) * 16 + unit / 0x10 % 0x10) * 16 +
      unit % 0x10 = unit := by omega
  simp only [readHex, List.cons_append, List.nil_append,
    hexDigit?_of_isHexDigit (by omega) first, hexDigit?_of_isHexDigit (by omega) second,
    hexDigit?_of_isHexDigit (by omega) third, hexDigit?_of_isHexDigit (by omega) fourth, sum]

/-- A character is no surrogate, and is below the end of the code points. -/
theorem toNat_valid (character : Char) : character.toNat < 0xd800 ∨
    0xdfff < character.toNat ∧ character.toNat < 0x110000 :=
  character.valid

/-- A character is never a surrogate. -/
theorem not_surrogate (character : Char) :
    isLowSurrogate character.toNat = false ∧ isHighSurrogate character.toNat = false := by
  have valid := toNat_valid character
  simp only [isLowSurrogate, isHighSurrogate, Bool.and_eq_false_iff, decide_eq_false_iff_not]
  omega

/-- The escape of a character with one code unit is read as the character. -/
theorem readUnit_of_isHexUnit {character : Char} {digits : List Char}
    (small : character.toNat < 0x10000) (isUnit : IsHexUnit character.toNat digits)
    (rest : List Char) : readUnit (digits ++ rest) = .ok (character, rest) := by
  obtain ⟨notLow, notHigh⟩ := not_surrogate character
  simp [readUnit, readHex_of_isHexUnit small isUnit, notLow, notHigh]

/-- The escapes of a surrogate pair are read as the character. -/
theorem readUnit_of_pair {character : Char} {high low : List Char}
    (large : 0x10000 ≤ character.toNat)
    (highUnit : IsHexUnit (0xd800 + (character.toNat - 0x10000) / 0x400) high)
    (lowUnit : IsHexUnit (0xdc00 + (character.toNat - 0x10000) % 0x400) low) (rest : List Char) :
    readUnit (high ++ '\\' :: 'u' :: (low ++ rest)) = .ok (character, rest) := by
  have valid := toNat_valid character
  have isHigh : isHighSurrogate (0xd800 + (character.toNat - 0x10000) / 0x400) = true := by
    simp only [isHighSurrogate, Bool.and_eq_true, decide_eq_true_eq]
    omega
  have highNotLow : isLowSurrogate (0xd800 + (character.toNat - 0x10000) / 0x400) = false := by
    simp only [isLowSurrogate, Bool.and_eq_false_iff, decide_eq_false_iff_not]
    omega
  have isLow : isLowSurrogate (0xdc00 + (character.toNat - 0x10000) % 0x400) = true := by
    simp only [isLowSurrogate, Bool.and_eq_true, decide_eq_true_eq]
    omega
  have point : (0xd800 + (character.toNat - 0x10000) / 0x400 - 0xd800) * 0x400 +
      (0xdc00 + (character.toNat - 0x10000) % 0x400 - 0xdc00) + 0x10000 = character.toNat := by
    omega
  rw [readUnit, readHex_of_isHexUnit (by omega) highUnit]
  simp only [highNotLow, isHigh, if_true, readLowSurrogate, readHex_of_isHexUnit (by omega) lowUnit,
    isLow, point, Char.ofNat_toNat]
  rfl

/-- A short escape is read as its character. -/
theorem readEscape_of_mem_shortEscapes {letter character : Char}
    (listed : (letter, character) ∈ shortEscapes) (rest : List Char) :
    readEscape (letter :: rest) = .ok (character, rest) := by
  have each : ∀ entry ∈ shortEscapes, readEscape (entry.1 :: rest) = .ok (entry.2, rest) := by
    simp [shortEscapes, readEscape]
  exact each _ listed

/-- A spelling of a character is read as the character. -/
theorem readTextWithin_spelling {character : Char} {spelled : List Char}
    (spelling : Spelling character spelled) (bound : Char) (limit read rest : List Char) :
    readTextWithin (bound :: limit) read (spelled ++ rest) =
      readTextWithin limit (character :: read) rest := by
  cases spelling with
  | plain _ printed notQuote notEscape =>
    simp [readTextWithin, Nat.not_lt.mpr printed]
  | short letter _ listed =>
    simp [readTextWithin, readEscape_of_mem_shortEscapes listed]
  | unit _ digits small isUnit =>
    simp [readTextWithin, readEscape, readUnit_of_isHexUnit small isUnit]
  | pair _ high low large highUnit lowUnit =>
    simp [readTextWithin, readEscape, readUnit_of_pair large highUnit lowUnit]

/-- No spelling is empty. -/
theorem length_pos_of_spelling {character : Char} {spelled : List Char}
    (spelling : Spelling character spelled) : 0 < spelled.length := by
  cases spelling <;> simp

/-- Spellings of characters are read as the characters, up to a quote. -/
theorem readTextWithin_spellings {content spelled : List Char}
    (spells : spelled ∈ (content.map spellings).prod) (limit read rest : List Char)
    (enough : spelled.length < limit.length) :
    readTextWithin limit read (spelled ++ '"' :: rest) =
      .ok (String.ofList (read.reverse ++ content), rest) := by
  induction content generalizing spelled limit read with
  | nil =>
    obtain rfl := (Language.mem_one spelled).mp spells
    cases limit with
    | nil => simp at enough
    | cons bound limit => simp [readTextWithin]
  | cons character content ih =>
    rw [List.map_cons, List.prod_cons] at spells
    obtain ⟨here, spelling, later, more, rfl⟩ := Language.mem_mul.mp spells
    have filled := length_pos_of_spelling spelling
    simp only [List.length_append] at enough
    cases limit with
    | nil => simp at enough
    | cons bound limit =>
      rw [List.length_cons] at enough
      rw [List.append_assoc, readTextWithin_spelling spelling, ih more _ _ (by omega)]
      simp

/-! ## Digits -/

/-- What may stand after a number: nothing that would continue it. -/
def Delimited (rest : List Char) : Prop :=
  ∀ character ∈ rest.head?, digit? character = none ∧ character ≠ '.' ∧ character ≠ 'e' ∧
    character ≠ 'E'

/-- What may stand after digits: no other digit. -/
def DigitsEnd (rest : List Char) : Prop := ∀ character ∈ rest.head?, digit? character = none

/-- What does not continue a number does not continue its digits. -/
theorem Delimited.digitsEnd {rest : List Char} (delimited : Delimited rest) : DigitsEnd rest :=
  fun character first => (delimited character first).1

/-- The value of a decimal digit. -/
def digitValue (digit : Char) : Nat := digit.toNat - '0'.toNat

/-- A decimal digit has its value. -/
theorem digit?_of_isDigit {character : Char} (isDigit : character.isDigit) :
    digit? character = some (digitValue character) := by
  simp only [Char.isDigit, Bool.and_eq_true, decide_eq_true_eq] at isDigit
  have low : 0x30 ≤ character.toNat := isDigit.1
  have high : character.toNat ≤ 0x39 := isDigit.2
  simp [digit?, digitValue, low, high]

/-- Decimal digits are taken off up to where they end. -/
theorem takeDigits_append {digits rest : List Char} (all : ∀ digit ∈ digits, digit.isDigit)
    (ends : DigitsEnd rest) :
    takeDigits (digits ++ rest) = (digits.map digitValue, rest) := by
  induction digits with
  | nil =>
    cases rest with
    | nil => rfl
    | cons character rest => simp [takeDigits, ends character rfl]
  | cons digit digits ih =>
    have here := digit?_of_isDigit (all digit List.mem_cons_self)
    have later := ih fun other listed => all other (List.mem_cons_of_mem _ listed)
    simp [takeDigits, here, later]

/-- The value of decimal digits is the number that the characters stand for. -/
theorem digitsValue_map (digits : List Char) :
    Literal.digitsValue (digits.map digitValue) = Nat.ofDigitChars 10 digits 0 := by
  rw [Literal.digitsValue, List.foldl_map, Nat.ofDigitChars_eq_foldl]
  simp only [digitValue, Nat.mul_comm]

/-- The decimal digits of a number begin with a zero only when the number is zero. -/
theorem eq_nil_of_toDigits_eq_zero_cons {value : Nat} {more : List Char}
    (begins : Nat.toDigits 10 value = '0' :: more) : more = [] := by
  induction value using Nat.strongRecOn generalizing more with
  | _ value ih =>
    by_cases small : value < 10
    · rw [Nat.toDigits_of_lt_base small] at begins
      exact (List.tail_eq_of_cons_eq begins).symm
    · rw [Nat.toDigits_of_base_le (by decide) (by omega)] at begins
      cases front : Nat.toDigits 10 (value / 10) with
      | nil => exact absurd front Nat.toDigits_ne_nil
      | cons head tail =>
        rw [front, List.cons_append] at begins
        obtain rfl := List.head_eq_of_cons_eq begins
        obtain rfl := ih (value / 10) (by omega) front
        have zero : Nat.ofDigitChars 10 (Nat.toDigits 10 (value / 10)) 0 = 0 := by
          rw [front]
          rfl
        rw [Nat.ofDigitChars_ten_toDigits] at zero
        omega

/-- Digits that must stand somewhere are read up to where they end. -/
theorem readDigits_append {digits rest : List Char} (some : digits ≠ [])
    (all : ∀ digit ∈ digits, digit.isDigit) (ends : DigitsEnd rest) :
    readDigits (digits ++ rest) = .ok (digits.map digitValue, rest) := by
  rw [readDigits, takeDigits_append all ends]
  cases digits with
  | nil => contradiction
  | cons digit digits => rfl

/-- The digits before the point are read up to where they end. -/
theorem readWhole_append {text rest : List Char} (written : text ∈ wholePart)
    (ends : DigitsEnd rest) : readWhole (text ++ rest) = .ok (text.map digitValue, rest) := by
  obtain ⟨⟨some, all⟩, alone⟩ := written
  rw [readWhole, readDigits_append some all ends]
  cases text with
  | nil => contradiction
  | cons first more =>
    cases more with
    | nil => simp
    | cons second more =>
      -- A zero would stand alone.
      have notZero : digitValue first ≠ 0 := by
        intro zero
        rw [digitValue] at zero
        have isDigit := all first List.mem_cons_self
        simp only [Char.isDigit, Bool.and_eq_true, decide_eq_true_eq] at isDigit
        have low : '0'.toNat ≤ first.toNat := isDigit.1
        obtain rfl : first = '0' := Char.toNat_inj.mp (by omega)
        exact absurd (alone rfl) (by simp)
      obtain ⟨digit, positive⟩ := Nat.exists_eq_succ_of_ne_zero notZero
      rw [List.map_cons, List.map_cons, positive]
      rfl

/-- The decimal digits of a number may stand before a point. -/
theorem toDigits_mem_wholePart (value : Nat) : Nat.toDigits 10 value ∈ wholePart := by
  refine ⟨⟨Nat.toDigits_ne_nil, fun digit listed => ?digit⟩, fun begins => ?alone⟩
  case digit => exact Nat.isDigit_of_mem_toDigits (by decide) (by decide) listed
  case alone =>
    obtain ⟨more, written⟩ := List.head?_eq_some_iff.mp begins
    rw [written, eq_nil_of_toDigits_eq_zero_cons written]

/-- The decimal digits of a word are read as the word. -/
theorem readNumber_repr (value : UInt64) {rest : List Char} (delimited : Delimited rest) :
    readNumber false (value.toNat.repr.toList ++ rest) = .ok (.whole value, rest) := by
  have fraction : readFraction rest = .ok (none, rest) := by
    cases rest with
    | nil => rfl
    | cons character rest => simp [readFraction, (delimited character rfl).2.1]
  have exponent : readExponent rest = .ok (none, rest) := by
    cases rest with
    | nil => rfl
    | cons character rest => simp [readExponent, (delimited character rfl).2.2]
  have literal : readLiteral false (Nat.toDigits 10 value.toNat ++ rest) =
      .ok (⟨false, (Nat.toDigits 10 value.toNat).map digitValue, none, none⟩, rest) := by
    have whole := readWhole_append (toDigits_mem_wholePart value.toNat) delimited.digitsEnd
    simp [readLiteral, whole, fraction, exponent, bind, Except.bind]
  have worth : Literal.number? ⟨false, (Nat.toDigits 10 value.toNat).map digitValue, none, none⟩ =
      some (.whole value) := by
    have small : value.toNat < UInt64.size := value.toNat_lt
    simp [Literal.number?, digitsValue_map, small]
  rw [Nat.toList_repr, readNumber, literal]
  simp only [bind, Except.bind, worth]

/-! ## Tokens -/

/-- A text is read as these tokens, whatever was read before it. -/
def Scanned (text : List Char) (found : List Token) : Prop :=
  ∀ limit read, text.length ≤ limit.length → tokensWithin limit read text = read.reverse ++ found

/-- A text is read as these tokens wherever it stands before something that is read. -/
def Scans (text : List Char) (found : List Token) : Prop :=
  ∀ rest more, Delimited rest → Scanned rest more → Scanned (text ++ rest) (found ++ more)

/-- A text may stand after a number wherever what follows the text may. -/
def Delimits (text : List Char) : Prop := ∀ rest, Delimited rest → Delimited (text ++ rest)

namespace Scanned

variable {text rest : List Char} {found more : List Token}

/-- The tokens of a document are those that its characters are read as. -/
theorem tokens_eq {text : String} (scanned : Scanned text.toList found) : tokens text = found := by
  simpa [tokens] using scanned text.toList [] (Nat.le_refl _)

/-- Where a document ends, there are no more tokens. -/
theorem nil : Scanned [] [] := by
  intro limit read _
  cases limit <;> simp [tokensWithin]

/-- A separator leaves no token. -/
theorem separator {character : Char} (separates : isSeparator character)
    (scanned : Scanned rest more) : Scanned (character :: rest) more := by
  intro limit read enough
  cases limit with
  | nil => simp at enough
  | cons bound limit =>
    rw [tokensWithin, if_pos separates]
    exact scanned limit read (Nat.le_of_succ_le_succ enough)

/-- Any number of separators leave no token. -/
theorem blank (written : text ∈ Written.blank) (scanned : Scanned rest more) :
    Scanned (text ++ rest) more := by
  induction text with
  | nil => exact scanned
  | cons character text ih =>
    have separates : isSeparator character := by
      have listed := written character List.mem_cons_self
      simpa [isSeparator, or_assoc] using listed
    exact (ih fun other listed => written other (List.mem_cons_of_mem _ listed)).separator separates

/-- A token is read, and then what stands after it. -/
theorem token {character : Char} {token : Token} (solid : isSeparator character = false)
    (reads : readToken character (text ++ rest) = (token, rest)) (scanned : Scanned rest more) :
    Scanned (character :: text ++ rest) (token :: more) := by
  intro limit read enough
  cases limit with
  | nil => simp at enough
  | cons bound limit =>
    rw [List.cons_append, List.length_cons, List.length_cons, List.length_append] at enough
    rw [List.cons_append, tokensWithin, solid, reads, if_neg Bool.false_ne_true]
    simpa using scanned limit (token :: read) (by omega)

end Scanned

/-! ## Marks -/

/-- The marks between values, with their tokens. -/
def marks : List (Char × Token) :=
  [('[', .openList), (']', .closeList), ('\x7b', .openObject), ('\x7d', .closeObject),
    (':', .colon), (',', .comma)]

/-- A text is read as the token of a mark, whatever stands before or after it. -/
structure ScansMark (text : List Char) (token : Token) : Prop where
  /-- The text may stand after a number. -/
  delimited : ∀ rest, Delimited (text ++ rest)
  /-- The text is read as the token. -/
  scanned : ∀ rest more, Scanned rest more → Scanned (text ++ rest) (token :: more)

/-- Separators may stand after a number. -/
theorem delimits_blank {text : List Char} (written : text ∈ blank) : Delimits text := by
  intro rest delimited
  cases text with
  | nil => exact delimited
  | cons character text =>
    rintro _ ⟨⟩
    have listed := written character List.mem_cons_self
    simp only [List.mem_cons, List.not_mem_nil, or_false] at listed
    obtain rfl | rfl | rfl | rfl := listed <;> decide

/-- A mark is read as its token. -/
theorem scansMark_of_mem {character : Char} {token : Token} {text : List Char}
    (listed : (character, token) ∈ marks) (written : text ∈ mark character) :
    ScansMark text token := by
  have solid : ∀ entry ∈ marks, isSeparator entry.1 = false ∧ digit? entry.1 = none ∧
      entry.1 ≠ '.' ∧ entry.1 ≠ 'e' ∧ entry.1 ≠ 'E' := by decide
  have reads : ∀ entry ∈ marks, ∀ rest, readToken entry.1 rest = (entry.2, rest) := by
    simp [marks, readToken]
  obtain ⟨_, ⟨before, blankBefore, _, rfl, rfl⟩, after, blankAfter, rfl⟩ := written
  constructor
  · intro rest
    rw [List.append_assoc, List.append_assoc]
    refine delimits_blank blankBefore _ ?_
    rintro _ ⟨⟩
    exact (solid _ listed).2
  · intro rest more scanned
    rw [List.append_assoc, List.append_assoc]
    refine Scanned.blank blankBefore ?_
    exact Scanned.token (solid _ listed).1 (reads _ listed _) (scanned.blank blankAfter)

/-! ## Values -/

/-- A written form of a text is read as one token, whatever stands after it. -/
theorem scanned_quoted {content : String} {text rest : List Char} {more : List Token}
    (written : text ∈ quoted content) (scanned : Scanned rest more) :
    Scanned (text ++ rest) (.text content :: more) := by
  obtain ⟨_, ⟨_, rfl, spelled, spells, rfl⟩, _, rfl, rfl⟩ := written
  have reads : readText (spelled ++ ['"'] ++ rest) = .ok (content, rest) := by
    rw [readText, List.append_assoc, List.singleton_append,
      readTextWithin_spellings spells _ _ _ (by simp)]
    simp
  have token : readToken '"' (spelled ++ ['"'] ++ rest) = (.text content, rest) := by
    simp only [readToken, reads]
  exact Scanned.token (by decide) token scanned

/-- A written form of a text is read as one token. -/
theorem scans_quoted {content : String} {text : List Char} (written : text ∈ quoted content) :
    Scans text [.text content] :=
  fun _ _ _ scanned => scanned_quoted written scanned

/-- A character that begins a number begins no other token. -/
theorem readToken_of_isDigit {character : Char} (isDigit : character.isDigit) (rest : List Char) :
    readToken character rest =
      settle ((readNumber false (character :: rest)).map fun (number, rest) =>
        (.number number, rest)) := by
  rw [readToken.eq_def]
  split
  case h_12 => simp [digit?_of_isDigit isDigit]
  all_goals cases isDigit

/-- The decimal digits of a word are read as one token. -/
theorem scans_number (value : UInt64) : Scans value.toNat.repr.toList [.number (.whole value)] := by
  intro rest more delimited scanned
  have reads := readNumber_repr value delimited
  rw [Nat.toList_repr] at reads ⊢
  have all : ∀ digit ∈ Nat.toDigits 10 value.toNat, digit.isDigit := fun digit listed =>
    Nat.isDigit_of_mem_toDigits (by decide) (by decide) listed
  cases written : Nat.toDigits 10 value.toNat with
  | nil => exact absurd written Nat.toDigits_ne_nil
  | cons first digits =>
    rw [written] at reads all
    have isDigit := all first List.mem_cons_self
    have solid : isSeparator first = false := by
      rw [Bool.eq_false_iff]
      intro separates
      simp only [isSeparator, Bool.or_eq_true, beq_iff_eq] at separates
      obtain ((rfl | rfl) | rfl) | rfl := separates <;> cases isDigit
    have token : readToken first (digits ++ rest) = (.number (.whole value), rest) := by
      rw [readToken_of_isDigit isDigit, ← List.cons_append, reads]
      rfl
    exact Scanned.token solid token scanned

/-- A null is read as one token. -/
theorem scans_null : Scans ['n', 'u', 'l', 'l'] [.null] := by
  intro rest more _ scanned
  have token : readToken 'n' (['u', 'l', 'l'] ++ rest) = (.null, rest) := by
    simp [readToken, readWord, settle]
  exact Scanned.token (by decide) token scanned

/-! ## Texts after each other -/

variable {text next : List Char} {token : Token} {found others : List Token}

/-- A value and what delimits it are read one after the other. -/
theorem Scans.append (scans : Scans text found) (delimits : Delimits next)
    (after : Scans next others) : Scans (text ++ next) (found ++ others) := by
  intro rest more delimited scanned
  rw [List.append_assoc, List.append_assoc]
  exact scans _ _ (delimits rest delimited) (after rest more delimited scanned)

/-- A mark delimits what stands before it. -/
theorem ScansMark.delimits (mark : ScansMark text token) : Delimits (text ++ next) := by
  intro rest _
  rw [List.append_assoc]
  exact mark.delimited _

/-- What stands after a mark is read after it. -/
theorem ScansMark.append (mark : ScansMark text token) (scans : Scans next found) :
    Scans (text ++ next) (token :: found) := by
  intro rest more delimited scanned
  rw [List.append_assoc]
  exact mark.scanned _ _ (scans rest more delimited scanned)

/-- A mark is read as its token. -/
theorem ScansMark.scans (mark : ScansMark text token) : Scans text [token] := by
  intro rest more _ scanned
  exact mark.scanned rest more scanned

end BoardBlob.Json
