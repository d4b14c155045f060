import BoardBlob.Proofs.FirstFault
import BoardBlob.Proofs.ScannedJson

/-!
# Number literals in a document

How the literals that the grammar of numbers allows are scanned where a document has a gap for one
(`Gap`). A literal that is digits only, of a value below 2^64, is the token of just that value;
every other literal leaves a token that is no value of a board. Around the gap the tokens are the
same for every literal, because how a text is scanned does not depend on the bound that the scan is
given (`exists_scanned`).
-/
namespace BoardBlob.Json

open Written (digits wholePart fractionPart exponentPart literal Plain)

/-! ## The parts of a literal -/

/-- Decimal digits are none of the marks in a literal. -/
theorem plain_of_digits {text : List Char} (all : ∀ character ∈ text, character.isDigit) :
    Plain text := by
  have marks : ∀ mark ∈ ['-', '.', 'e', 'E'], mark.isDigit = false := by simp
  intro mark listed member
  have isDigit := all mark member
  rw [marks mark listed] at isDigit
  cases isDigit

/-- The sign of an exponent, if there is one, is read in front of the digits. -/
theorem readSign_append {sign text : List Char}
    (signed : sign ∈ (1 + {['+']} + {['-']} : Language Char)) (written : text ∈ digits)
    (rest : List Char) :
    ∃ negative, readSign (sign ++ (text ++ rest)) = (negative, text ++ rest) := by
  rcases signed with (none | plus) | minus
  case inl.inl =>
    obtain rfl : sign = [] := none
    obtain ⟨filled, all⟩ := written
    cases text with
    | nil => contradiction
    | cons digit more =>
      have isDigit := all digit List.mem_cons_self
      refine ⟨false, ?_⟩
      rw [List.nil_append, List.cons_append, readSign.eq_def]
      split
      case h_1 begins => cases begins; cases isDigit
      case h_2 begins => cases begins; cases isDigit
      case h_3 => rfl
  case inl.inr =>
    obtain rfl : sign = ['+'] := plus
    exact ⟨false, rfl⟩
  case inr =>
    obtain rfl : sign = ['-'] := minus
    exact ⟨true, rfl⟩

/-- What may stand after a fraction: neither a digit nor a point. -/
def FractionEnd (rest : List Char) : Prop :=
  ∀ character ∈ rest.head?, digit? character = none ∧ character ≠ '.'

/-- The exponent of a literal, if there is one, is read up to its end. -/
theorem readExponent_append {text rest : List Char} (written : text ∈ 1 + exponentPart)
    (delimited : Delimited rest) :
    FractionEnd (text ++ rest) ∧ ∃ exponent,
      readExponent (text ++ rest) = .ok (exponent, rest) ∧ (exponent = none ↔ text = []) := by
  rcases written with none | some
  case inl =>
    obtain rfl : text = [] := none
    refine ⟨fun character first => ?_, none, ?_, by simp⟩
    · obtain ⟨noDigit, noPoint, -⟩ := delimited character first
      exact ⟨noDigit, noPoint⟩
    · cases rest with
      | nil => rfl
      | cons character rest => simp [readExponent, (delimited character rfl).2.2]
  case inr =>
    obtain ⟨_, ⟨mark, marked, sign, signed, rfl⟩, digits, written, rfl⟩ := some
    obtain ⟨negative, readsSign⟩ := readSign_append signed written rest
    have readsDigits := readDigits_append written.1 written.2 delimited.digitsEnd
    obtain ⟨letter, isMark, rfl⟩ : ∃ letter, (letter = 'e' ∨ letter = 'E') ∧ mark = [letter] := by
      rcases marked with small | capital
      · exact ⟨'e', .inl rfl, small⟩
      · exact ⟨'E', .inr rfl, capital⟩
    refine ⟨?_, some (negative, digits.map digitValue), ?_, by simp⟩
    · rintro _ ⟨⟩
      rcases isMark with rfl | rfl <;> decide
    · simp [readExponent, isMark, readsSign, readsDigits, Except.map]

/-- The fraction of a literal, if there is one, is read up to its end. -/
theorem readFraction_append {text rest : List Char} (written : text ∈ 1 + fractionPart)
    (ends : FractionEnd rest) :
    DigitsEnd (text ++ rest) ∧ ∃ fraction,
      readFraction (text ++ rest) = .ok (fraction, rest) ∧ (fraction = none ↔ text = []) := by
  rcases written with none | some
  case inl =>
    obtain rfl : text = [] := none
    refine ⟨fun character first => (ends character first).1, none, ?_, by simp⟩
    cases rest with
    | nil => rfl
    | cons character rest => simp [readFraction, (ends character rfl).2]
  case inr =>
    obtain ⟨_, rfl, digits, written, rfl⟩ := some
    have digitsEnd : DigitsEnd rest := fun character first => (ends character first).1
    have readsDigits := readDigits_append written.1 written.2 digitsEnd
    refine ⟨?_, some (digits.map digitValue), ?_, by simp⟩
    · rintro _ ⟨⟩
      decide
    · simp [readFraction, readsDigits, Except.map]

/-- What is read of a literal after its sign. Without fraction and exponent it is the digits. -/
theorem readLiteral_append {whole fraction exponent rest : List Char} (negative : Bool)
    (isWhole : whole ∈ wholePart) (isFraction : fraction ∈ 1 + fractionPart)
    (isExponent : exponent ∈ 1 + exponentPart) (delimited : Delimited rest) :
    ∃ found, readLiteral negative (whole ++ fraction ++ exponent ++ rest) = .ok (found, rest) ∧
      found.negative = negative ∧ found.whole = whole.map digitValue ∧
      (found.fraction = none ↔ fraction = []) ∧ (found.exponent = none ↔ exponent = []) := by
  obtain ⟨fractionEnd, readExp, readsExponent, noExponent⟩ :=
    readExponent_append isExponent delimited
  obtain ⟨digitsEnd, readFrac, readsFraction, noFraction⟩ :=
    readFraction_append isFraction fractionEnd
  have readsWhole := readWhole_append isWhole digitsEnd
  refine ⟨⟨negative, whole.map digitValue, readFrac, readExp⟩, ?_, rfl, rfl, noFraction, noExponent⟩
  simp [readLiteral, List.append_assoc, readsWhole, readsFraction, readsExponent, bind, Except.bind]

/-- A literal stands for a word exactly when it has neither sign, fraction nor exponent and its
digits have the value of that word. -/
theorem number?_eq_some_whole_iff {found : Literal} {value : UInt64} :
    found.number? = some (.whole value) ↔ found.negative = false ∧ found.fraction = none ∧
      found.exponent = none ∧ Literal.digitsValue found.whole = value.toNat := by
  obtain ⟨negative, whole, fraction, exponent⟩ := found
  have real : ∀ (double : Option Float) (signed : Float → Float),
      double.map (fun magnitude => Number.real (signed magnitude)) ≠ some (.whole value) := by
    intro double signed
    cases double <;> simp
  cases fraction with
  | some digits => simp [Literal.number?, real]
  | none =>
    cases exponent with
    | some power => simp [Literal.number?, real]
    | none =>
      simp only [Literal.number?, true_and]
      split
      case isTrue fits =>
        obtain ⟨positive, small⟩ := fits
        rw [Option.some.injEq, Number.whole.injEq, ← UInt64.toNat_inj,
          UInt64.toNat_ofNat_of_lt' small]
        exact ⟨fun same => ⟨positive, same⟩, fun parts => parts.2⟩
      case isFalse tooWide =>
        have small := value.toNat_lt_size
        refine iff_of_false ?_ fun parts => tooWide ⟨parts.1, parts.2 ▸ small⟩
        split
        · simp
        · exact real _ _

/-! ## The token of a literal -/

/-- A digit separates no tokens. -/
theorem isSeparator_of_isDigit {character : Char} (isDigit : character.isDigit) :
    isSeparator character = false := by
  rw [Bool.eq_false_iff]
  intro separates
  simp only [isSeparator, Bool.or_eq_true, beq_iff_eq] at separates
  obtain ((rfl | rfl) | rfl) | rfl := separates <;> cases isDigit

/-- The parts of a literal without a sign are plain when there are no more than the digits. -/
theorem plain_append_iff {whole fraction exponent : List Char} (isWhole : whole ∈ wholePart)
    (isFraction : fraction ∈ 1 + fractionPart) (isExponent : exponent ∈ 1 + exponentPart) :
    Plain (whole ++ fraction ++ exponent) ↔ fraction = [] ∧ exponent = [] := by
  constructor
  · intro plain
    constructor
    · rcases isFraction with none | ⟨_, rfl, digits, -, rfl⟩
      · exact none
      · exact absurd (by simp) (plain '.' (by simp))
    · rcases isExponent with none | ⟨_, ⟨_, rfl | rfl, sign, -, rfl⟩, digits, -, rfl⟩
      · exact none
      · exact absurd (by simp) (plain 'e' (by simp))
      · exact absurd (by simp) (plain 'E' (by simp))
  · rintro ⟨rfl, rfl⟩
    rw [List.append_nil, List.append_nil]
    exact plain_of_digits isWhole.1.2

/-- The token that a literal is read as, with the text after it. -/
def literalToken (found : Literal) (rest : List Char) : Token × List Char :=
  match found.number? with
  | some number => (.number number, rest)
  | none => (.broken (.grammar .numberOutOfRange), [])

/-- Reading the literal settles the token. -/
theorem settle_readNumber {negative : Bool} {text rest : List Char} {found : Literal}
    (reads : readLiteral negative text = .ok (found, rest)) :
    settle ((readNumber negative text).map fun (number, rest) => (.number number, rest)) =
      literalToken found rest := by
  simp only [readNumber, reads, bind, Except.bind, literalToken]
  cases found.number? <;> rfl

/-- A literal is one token, before anything that does not continue it. It stands for a word when it
is plain and its digits have the value of that word. -/
theorem readToken_literal {text rest : List Char} (written : text ∈ literal)
    (delimited : Delimited rest) :
    ∃ character more found, text = character :: more ∧ isSeparator character = false ∧
      readToken character (more ++ rest) = literalToken found rest ∧
      ∀ value, found.number? = some (.whole value) ↔
        Plain text ∧ Nat.ofDigitChars 10 text 0 = value.toNat := by
  obtain ⟨_, ⟨_, ⟨sign, signed, whole, isWhole, rfl⟩, fraction, isFraction, rfl⟩, exponent,
    isExponent, rfl⟩ := written
  rcases signed with none | minus
  case inl =>
    obtain rfl : sign = [] := none
    obtain ⟨found, reads, positive, digits, noFraction, noExponent⟩ :=
      readLiteral_append false isWhole isFraction isExponent delimited
    have isPlain := plain_append_iff isWhole isFraction isExponent
    cases whole with
    | nil => exact absurd rfl isWhole.1.1
    | cons digit more =>
      have isDigit := isWhole.1.2 digit List.mem_cons_self
      refine ⟨digit, more ++ fraction ++ exponent, found, rfl, isSeparator_of_isDigit isDigit, ?_,
        fun value => ?_⟩
      · rw [readToken_of_isDigit isDigit]
        exact settle_readNumber reads
      · change _ ↔ Plain (digit :: more ++ fraction ++ exponent) ∧
          Nat.ofDigitChars 10 (digit :: more ++ fraction ++ exponent) 0 = value.toNat
        rw [number?_eq_some_whole_iff, noFraction, noExponent, digits, digitsValue_map, isPlain,
          and_assoc]
        constructor
        · rintro ⟨-, rfl, rfl, worth⟩
          exact ⟨rfl, rfl, by simpa using worth⟩
        · rintro ⟨rfl, rfl, worth⟩
          exact ⟨positive, rfl, rfl, by simpa using worth⟩
  case inr =>
    obtain rfl : sign = ['-'] := minus
    obtain ⟨found, reads, negative, -⟩ :=
      readLiteral_append true isWhole isFraction isExponent delimited
    refine ⟨'-', whole ++ fraction ++ exponent, found, rfl, by decide, settle_readNumber reads,
      fun value => ?_⟩
    rw [number?_eq_some_whole_iff, negative]
    exact iff_of_false (by simp) fun parts => parts.1 '-' (by simp) List.mem_cons_self

/-! ## Scanning any text -/

section Suffixes

variable {text rest : List Char}

/-- What follows four hexadecimal digits is the end of the text. -/
theorem readHex_suffix {unit : Nat} (reads : readHex text = .ok (unit, rest)) : rest <:+ text := by
  revert reads
  fun_cases readHex text
  case case1 first second third fourth more _ _ _ _ _ _ _ _ =>
    intro reads
    obtain ⟨-, rfl⟩ := Prod.mk.inj (Except.ok.inj reads)
    exact ⟨[first, second, third, fourth], rfl⟩
  all_goals
    intro reads
    cases reads

/-- What follows the second half of a pair is the end of the text. -/
theorem readLowSurrogate_suffix {high : Nat} {character : Char}
    (reads : readLowSurrogate high text = .ok (character, rest)) : rest <:+ text := by
  unfold readLowSurrogate at reads
  split at reads
  case h_3 more =>
    split at reads
    case h_1 => cases reads
    case h_2 low left found =>
      split at reads
      case isTrue =>
        obtain ⟨rfl, rfl⟩ := Prod.mk.inj (Except.ok.inj reads)
        exact (readHex_suffix found).trans ⟨['\\', 'u'], rfl⟩
      case isFalse => cases reads
  all_goals cases reads

/-- What follows a code unit is the end of the text. -/
theorem readUnit_suffix {character : Char} (reads : readUnit text = .ok (character, rest)) :
    rest <:+ text := by
  unfold readUnit at reads
  split at reads
  case h_1 => cases reads
  case h_2 unit left found =>
    split_ifs at reads
    · exact (readLowSurrogate_suffix reads).trans (readHex_suffix found)
    · obtain ⟨rfl, rfl⟩ := Prod.mk.inj (Except.ok.inj reads)
      exact readHex_suffix found

/-- What follows an escape is the end of the text. -/
theorem readEscape_suffix {character : Char} (reads : readEscape text = .ok (character, rest)) :
    rest <:+ text := by
  unfold readEscape at reads
  split at reads
  case h_1 | h_11 => cases reads
  case h_10 => exact (readUnit_suffix reads).trans (List.suffix_cons _ _)
  all_goals
    obtain ⟨-, rfl⟩ := Prod.mk.inj (Except.ok.inj reads)
    exact List.suffix_cons _ _

/-- What follows a text is the end of what it began in. -/
theorem readTextWithin_suffix {content : String} {limit read : List Char}
    (reads : readTextWithin limit read text = .ok (content, rest)) : rest <:+ text := by
  fun_induction readTextWithin limit read text with
  | case3 =>
    obtain ⟨-, rfl⟩ := Prod.mk.inj (Except.ok.inj reads)
    exact List.suffix_cons _ _
  | case5 _ _ _ _ _ _ escaped ih =>
    exact (ih reads).trans ((readEscape_suffix escaped).trans (List.suffix_cons _ _))
  | case7 _ _ _ _ _ _ _ _ ih => exact (ih reads).trans (List.suffix_cons _ _)
  | case1 | case2 | case4 | case6 => cases reads

/-- What follows digits is the end of the text. -/
theorem takeDigits_suffix (text : List Char) : (takeDigits text).2 <:+ text := by
  fun_induction takeDigits text with
  | case1 => exact List.suffix_refl _
  | case2 => exact List.suffix_refl _
  | case3 character more digit found digits left taken ih =>
    rw [taken] at ih
    exact ih.trans (List.suffix_cons _ _)

/-- What follows digits that must stand somewhere is the end of the text after its first
character. -/
theorem readDigits_suffix {found : List Nat} (reads : readDigits text = .ok (found, rest)) :
    rest <:+ text.tail := by
  cases text with
  | nil => cases reads
  | cons character more =>
    cases isDigit : digit? character with
    | none =>
      simp only [readDigits, takeDigits, isDigit] at reads
      cases reads
    | some digit =>
      simp only [readDigits, takeDigits, isDigit] at reads
      obtain ⟨-, rfl⟩ := Prod.mk.inj (Except.ok.inj reads)
      exact takeDigits_suffix more

/-- What follows the digits before the point is the end of the text after its first character. -/
theorem readWhole_suffix {found : List Nat} (reads : readWhole text = .ok (found, rest)) :
    rest <:+ text.tail := by
  unfold readWhole at reads
  split at reads
  case h_3 left _ read =>
    rw [reads] at read
    exact readDigits_suffix read
  all_goals cases reads

/-- What follows a fraction is the end of the text. -/
theorem readFraction_suffix {found : Option (List Nat)}
    (reads : readFraction text = .ok (found, rest)) : rest <:+ text := by
  unfold readFraction at reads
  split at reads
  case h_1 more =>
    obtain ⟨left, read, same⟩ := map_eq_ok_iff.mp reads
    obtain ⟨-, rfl⟩ := Prod.mk.inj same
    exact (readDigits_suffix read).trans ((List.tail_suffix _).trans (List.suffix_cons _ _))
  case h_2 =>
    obtain ⟨-, rfl⟩ := Prod.mk.inj (Except.ok.inj reads)
    exact List.suffix_refl _

/-- What follows a sign is the end of the text. -/
theorem readSign_suffix (text : List Char) : (readSign text).2 <:+ text := by
  unfold readSign
  split
  · exact List.suffix_cons _ _
  · exact List.suffix_cons _ _
  · exact List.suffix_refl _

/-- What follows an exponent is the end of the text. -/
theorem readExponent_suffix {found : Option (Bool × List Nat)}
    (reads : readExponent text = .ok (found, rest)) : rest <:+ text := by
  unfold readExponent at reads
  split at reads
  case h_1 =>
    obtain ⟨-, rfl⟩ := Prod.mk.inj (Except.ok.inj reads)
    exact List.suffix_refl _
  case h_2 mark more =>
    split at reads
    case isTrue =>
      obtain ⟨left, read, same⟩ := map_eq_ok_iff.mp reads
      obtain ⟨-, rfl⟩ := Prod.mk.inj same
      exact ((readDigits_suffix read).trans (List.tail_suffix _)).trans
        ((readSign_suffix more).trans (List.suffix_cons _ _))
    case isFalse =>
      obtain ⟨-, rfl⟩ := Prod.mk.inj (Except.ok.inj reads)
      exact List.suffix_refl _

/-- What follows a literal is the end of the text after its first character. -/
theorem readLiteral_suffix {negative : Bool} {found : Literal}
    (reads : readLiteral negative text = .ok (found, rest)) : rest <:+ text.tail := by
  obtain ⟨whole, readsWhole, reads⟩ := bind_eq_ok_iff.mp reads
  obtain ⟨fraction, readsFraction, reads⟩ := bind_eq_ok_iff.mp reads
  obtain ⟨exponent, readsExponent, reads⟩ := bind_eq_ok_iff.mp reads
  obtain ⟨-, rfl⟩ := Prod.mk.inj (Except.ok.inj reads)
  exact ((readExponent_suffix readsExponent).trans (readFraction_suffix readsFraction)).trans
    (readWhole_suffix readsWhole)

/-- What follows a number is the end of the text after its first character. -/
theorem readNumber_suffix {negative : Bool} {number : Number}
    (reads : readNumber negative text = .ok (number, rest)) : rest <:+ text.tail := by
  obtain ⟨literal, read, reads⟩ := bind_eq_ok_iff.mp reads
  dsimp only at reads
  split at reads
  case h_1 => cases reads
  case h_2 =>
    obtain ⟨-, rfl⟩ := Prod.mk.inj (Except.ok.inj reads)
    exact readLiteral_suffix read

/-- What follows a word is the end of the text. -/
theorem readWord_suffix {value token : Token} {letters : List Char}
    (reads : readWord value letters text = .ok (token, rest)) : rest <:+ text := by
  fun_induction readWord value letters text with
  | case1 =>
    obtain ⟨-, rfl⟩ := Prod.mk.inj (Except.ok.inj reads)
    exact List.suffix_refl _
  | case3 _ _ _ ih => exact (ih reads).trans (List.suffix_cons _ _)
  | case2 | case4 => cases reads

/-- What follows a settled reading is the end of the text when what follows the reading is. -/
theorem settle_suffix {found : Except Fault (Token × List Char)}
    (read : ∀ token left, found = .ok (token, left) → left <:+ text) :
    (settle found).2 <:+ text := by
  cases found with
  | error fault => exact List.nil_suffix
  | ok pair => exact read pair.1 pair.2 rfl

/-- What follows a number that is kept as a token is the end of the text after its first
character. -/
theorem settle_readNumber_suffix (negative : Bool) (text : List Char) :
    (settle ((readNumber negative text).map fun (number, rest) => (.number number, rest))).2 <:+
      text.tail := by
  refine settle_suffix fun token left kept => ?_
  obtain ⟨number, read, same⟩ := map_eq_ok_iff.mp kept
  obtain ⟨-, rfl⟩ := Prod.mk.inj same
  exact readNumber_suffix read

/-- What follows a token is the end of the text. -/
theorem readToken_suffix (character : Char) (rest : List Char) :
    (readToken character rest).2 <:+ rest := by
  unfold readToken
  split
  case h_7 | h_8 | h_9 => exact settle_suffix fun token left read => readWord_suffix read
  case h_10 =>
    split
    case h_1 read => exact readTextWithin_suffix read
    case h_2 => exact List.nil_suffix
  case h_11 => exact (settle_readNumber_suffix true rest).trans (List.tail_suffix rest)
  case h_12 =>
    split
    · exact settle_readNumber_suffix false (character :: rest)
    · exact List.nil_suffix
  all_goals exact List.suffix_refl _

end Suffixes

/-- Every text is scanned, and its tokens do not depend on the bound that the scan is given. -/
theorem exists_scanned (text : List Char) : ∃ found, Scanned text found := by
  induction measured : text.length using Nat.strongRecOn generalizing text with
  | _ size ih =>
    cases text with
    | nil => exact ⟨[], Scanned.nil⟩
    | cons character rest =>
      cases separates : isSeparator character with
      | true =>
        obtain ⟨found, scanned⟩ := ih rest.length (by simp [← measured]) rest rfl
        exact ⟨found, scanned.separator separates⟩
      | false =>
        obtain ⟨taken, same⟩ := readToken_suffix character rest
        have shorter : (readToken character rest).2.length < size := by
          rw [← measured, List.length_cons, ← congrArg List.length same, List.length_append]
          omega
        obtain ⟨found, scanned⟩ := ih _ shorter _ rfl
        refine ⟨(readToken character rest).1 :: found, ?_⟩
        rw [← same]
        exact Scanned.token separates (by rw [same]) scanned

/-! ## Gaps -/

/-- A text is read as these tokens, whatever follows it. -/
def Leads (text : List Char) (before : List Token) : Prop :=
  ∀ rest, tokens (String.ofList (text ++ rest)) = before ++ tokens (String.ofList rest)

/-- A document has room for a number literal: whatever stands there, the text in front of it is read
as tokens of its own, and the text behind it does not continue a number. -/
structure Gap (front back : List Char) : Prop where
  /-- The text in front is read as tokens of its own. -/
  leads : ∃ before, Leads front before
  /-- The text behind does not continue a number. -/
  delimited : Delimited back

/-- A document with a text in its gap. -/
def inserted (front back text : List Char) : String := String.ofList (front ++ text ++ back)

/-- What a literal in a gap leaves of the tokens: its own and those behind it, or its fault. -/
def literalTokens (after : List Token) (found : Literal) : List Token :=
  match found.number? with
  | some number => .number number :: after
  | none => [.broken (.grammar .numberOutOfRange)]

/-- What begins as a number but is no value of a board. -/
inductive Token.Refused : Token → Prop
  | negative (magnitude : Nat) : Refused (.number (.negative magnitude))
  | real (value : Float) : Refused (.number (.real value))
  | broken (fault : Fault) : Refused (.broken fault)

namespace Gap

variable {front back : List Char}

/-- The tokens of a document with a literal in its gap: those in front of it, and then either the
number of the literal and the tokens behind it, or its fault. -/
theorem tokens_inserted {before after : List Token} (leads : Leads front before)
    (delimited : Delimited back) (scanned : Scanned back after) {text : List Char}
    (written : text ∈ literal) :
    ∃ found, tokens (inserted front back text) = before ++ literalTokens after found ∧
      ∀ value, found.number? = some (.whole value) ↔
        Plain text ∧ Nat.ofDigitChars 10 text 0 = value.toNat := by
  obtain ⟨character, more, found, rfl, solid, reads, worth⟩ := readToken_literal written delimited
  refine ⟨found, ?_, worth⟩
  rw [inserted, List.append_assoc, leads]
  congr 1
  apply Scanned.tokens_eq
  rw [String.toList_ofList, List.cons_append]
  cases number : found.number? with
  | some number =>
    rw [literalToken, number] at reads
    rw [literalTokens, number]
    exact Scanned.token solid reads scanned
  | none =>
    rw [literalToken, number] at reads
    rw [literalTokens, number, ← List.append_nil (more ++ back)]
    exact Scanned.token solid (by rw [List.append_nil, reads]) Scanned.nil

/-- A plain literal of a word is the token of that word, between the tokens that stand around the
gap. -/
theorem exists_tokens (gap : Gap front back) : ∃ before after, ∀ text ∈ literal, Plain text →
    ∀ value : UInt64, Nat.ofDigitChars 10 text 0 = value.toNat →
      tokens (inserted front back text) = before ++ .number (.whole value) :: after := by
  obtain ⟨before, leads⟩ := gap.leads
  obtain ⟨after, scanned⟩ := exists_scanned back
  refine ⟨before, after, fun text written plain value worth => ?_⟩
  obtain ⟨found, same, stands⟩ := tokens_inserted leads gap.delimited scanned written
  rw [same, literalTokens, (stands value).mpr ⟨plain, worth⟩]

/-- Any other literal leaves a token that is no value of a board. -/
theorem exists_refused (gap : Gap front back) {text : List Char} (written : text ∈ literal)
    (unfit : ¬(Plain text ∧ Nat.ofDigitChars 10 text 0 < UInt64.size)) :
    ∃ token ∈ tokens (inserted front back text), token.Refused := by
  obtain ⟨before, leads⟩ := gap.leads
  obtain ⟨after, scanned⟩ := exists_scanned back
  obtain ⟨found, same, stands⟩ := tokens_inserted leads gap.delimited scanned written
  rw [same]
  cases number : found.number? with
  | none =>
    rw [literalTokens, number]
    exact ⟨_, List.mem_append_right _ List.mem_cons_self, .broken _⟩
  | some value =>
    refine ⟨.number value, ?_, ?_⟩
    · rw [literalTokens, number]
      exact List.mem_append_right _ List.mem_cons_self
    · cases value with
      | whole value =>
        obtain ⟨plain, worth⟩ := (stands value).mp number
        exact absurd ⟨plain, worth ▸ value.toNat_lt_size⟩ unfit
      | negative magnitude => exact .negative magnitude
      | real value => exact .real value

end Gap

/-- The digits before the point are a literal of their own. -/
theorem mem_literal_of_wholePart {text : List Char} (written : text ∈ wholePart) :
    text ∈ literal := by
  have unsigned : [] ∈ (1 + {['-']} : Language Char) := Or.inl rfl
  have noFraction : [] ∈ 1 + fractionPart := Or.inl rfl
  have noExponent : [] ∈ 1 + exponentPart := Or.inl rfl
  simpa [literal] using Language.append_mem_mul (Language.append_mem_mul
    (Language.append_mem_mul unsigned written) noFraction) noExponent

/-- Digits that do not begin with a zero are a literal. -/
theorem mem_literal_of_digits {text : List Char} (filled : text.head? ≠ none)
    (begins : text.head? ≠ some '0') (all : text.all Char.isDigit) : text ∈ literal := by
  refine mem_literal_of_wholePart ⟨⟨?filled, List.all_eq_true.mp all⟩, fun zero => ?begins⟩
  case filled =>
    rintro rfl
    exact filled rfl
  case begins => exact absurd zero begins

/-- The decimal digits of a word are a plain literal of its value. -/
theorem repr_mem_literal (value : UInt64) :
    value.toNat.repr.toList ∈ literal ∧ Plain value.toNat.repr.toList ∧
      Nat.ofDigitChars 10 value.toNat.repr.toList 0 = value.toNat := by
  rw [Nat.toList_repr]
  have whole := toDigits_mem_wholePart value.toNat
  exact ⟨mem_literal_of_wholePart whole, plain_of_digits whole.1.2, Nat.ofDigitChars_ten_toDigits⟩

/-! ## Pieces -/

/-- A piece of a document: a mark, or a text of characters that need no escape. -/
inductive Piece where
  | mark (character : Char) (token : Token) (listed : (character, token) ∈ marks)
  | text (content : String) (plain : content.toList.all Written.isPlain)

namespace Piece

/-- The characters of a piece. -/
def written : Piece → List Char
  | mark character _ _ => [character]
  | text content _ => '"' :: content.toList ++ ['"']

/-- The token of a piece. -/
def token : Piece → Token
  | mark _ token _ => token
  | text content _ => .text content

variable {rest : List Char} {more : List Token}

/-- A piece is read as its token, whatever stands after it. -/
theorem scanned (piece : Piece) (behind : Scanned rest more) :
    Scanned (piece.written ++ rest) (piece.token :: more) := by
  cases piece with
  | mark character token listed =>
    exact (scansMark_of_mem listed (Written.mem_mark character)).scanned rest more behind
  | text content plain =>
    exact scanned_quoted (Written.mem_quoted_of_plain plain) behind

/-- Pieces are read as their tokens, whatever stands after them. -/
theorem scanned_all (pieces : List Piece) (behind : Scanned rest more) :
    Scanned (pieces.flatMap written ++ rest) (pieces.map token ++ more) := by
  induction pieces with
  | nil => exact behind
  | cons piece pieces ih =>
    rw [List.flatMap_cons, List.append_assoc]
    exact piece.scanned ih

/-- Pieces are read as tokens of their own. -/
theorem leads_all (pieces : List Piece) : Leads (pieces.flatMap written) (pieces.map token) := by
  intro rest
  obtain ⟨found, scanned⟩ := exists_scanned rest
  have here : tokens (String.ofList rest) = found :=
    Scanned.tokens_eq (by rwa [String.toList_ofList])
  rw [here]
  exact Scanned.tokens_eq (by rw [String.toList_ofList]; exact scanned_all pieces scanned)

end Piece

end BoardBlob.Json
