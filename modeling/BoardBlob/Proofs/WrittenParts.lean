import Mathlib.Data.List.Forall2
import Mathlib.Data.Nat.Bitwise
import BoardBlob.Board.Conversion
import BoardBlob.Proofs.FirstFault

/-!
# What the parts of a written device stand for

The types, flags and numbers of a board, each with what it stands for and with the fault it has when
it stands for nothing. A type and a flag are written in any case of the ASCII letters, and of no
other letters (`AsciiCase.same_iff`). The word of some flags depends neither on their order, nor on
how often and in which case each of them is written (`FlagFamily.union_congr`).
-/
namespace BoardBlob

/-! ## Letter case -/

namespace AsciiCase

/-- Two characters are the same, or one ASCII letter in its two cases. -/
inductive SameLetter : Char → Char → Prop where
  | same (character : Char) : SameLetter character character
  | lowered {capital small : Char} (letter : 'A' ≤ capital ∧ capital ≤ 'Z')
      (case : small.toNat = capital.toNat + 32) : SameLetter capital small
  | raised {capital small : Char} (letter : 'A' ≤ capital ∧ capital ≤ 'Z')
      (case : small.toNat = capital.toNat + 32) : SameLetter small capital

/-- Two texts are the same but for the case of their ASCII letters. -/
def SameText (left right : String) : Prop :=
  List.Forall₂ SameLetter left.toList right.toList

/-- A character is one of the capital ASCII letters. -/
theorem capital_iff {character : Char} :
    ('A' ≤ character ∧ character ≤ 'Z') ↔ 65 ≤ character.toNat ∧ character.toNat ≤ 90 := by
  rw [Char.le_def, Char.le_def, UInt32.le_iff_toNat_le, UInt32.le_iff_toNat_le]
  rfl

/-- Making a character small moves the capital ASCII letters and no other character. -/
theorem toNat_toLower (character : Char) : character.toLower.toNat =
    if 65 ≤ character.toNat ∧ character.toNat ≤ 90 then character.toNat + 32
    else character.toNat := by
  unfold Char.toLower
  split
  · rename_i capital
    have range := capital_iff.mp capital
    rw [if_pos range]
    change (character.val + 32).toNat = character.toNat + 32
    rw [UInt32.toNat_add]
    change (character.toNat + 32) % 4294967296 = character.toNat + 32
    omega
  · rename_i other
    rw [if_neg (mt capital_iff.mpr other)]

/-- Two characters are made the same small one exactly when they are one letter. -/
theorem toLower_eq_iff {left right : Char} :
    left.toLower = right.toLower ↔ SameLetter left right := by
  constructor
  · intro same
    have numbers := congrArg Char.toNat same
    rw [toNat_toLower, toNat_toLower] at numbers
    split at numbers
    · rename_i capital
      split at numbers
      · obtain rfl : left = right := Char.toNat_inj.mp (by omega)
        exact .same left
      · exact .lowered (capital_iff.mpr capital) numbers.symm
    · split at numbers
      · rename_i capital
        exact .raised (capital_iff.mpr capital) numbers
      · obtain rfl : left = right := Char.toNat_inj.mp numbers
        exact .same left
  · intro letter
    apply Char.toNat_inj.mp
    rw [toNat_toLower, toNat_toLower]
    cases letter with
    | same => rfl
    | lowered capital case =>
      have range := capital_iff.mp capital
      rw [if_pos range, if_neg (by omega), case]
    | raised capital case =>
      have range := capital_iff.mp capital
      rw [if_neg (by omega), if_pos range, case]

/-- Comparing two texts without regard to case finds them the same exactly when they are. -/
theorem same_iff {left right : String} : same left right = true ↔ SameText left right := by
  rw [same, beq_iff_eq, fold, fold, ← List.forall₂_eq_eq_eq, List.forall₂_map_left_iff,
    List.forall₂_map_right_iff]
  simp only [toLower_eq_iff, SameText]

instance (left right : String) : Decidable (SameText left right) :=
  decidable_of_iff _ same_iff

/-- Texts that are the same but for case have one folded form. -/
theorem SameText.fold_eq {left right : String} (same : SameText left right) :
    fold left = fold right :=
  beq_iff_eq.mp (same_iff.mpr same)

end AsciiCase

open AsciiCase (SameText same_iff)

/-! ## Types -/

namespace DeviceKind

/-- No two kinds have names that are the same but for case. -/
theorem fold_name_inj {kind other : DeviceKind}
    (same : AsciiCase.fold kind.name = AsciiCase.fold other.name) : kind = other := by
  have every : ∀ kind ∈ all, ∀ other ∈ all,
      AsciiCase.fold kind.name = AsciiCase.fold other.name → kind = other := by
    decide +kernel
  exact every kind kind.mem_all other other.mem_all same

/-- The second name of a framebuffer is not the name of a kind. -/
theorem fold_name_ne_alias (kind : DeviceKind) :
    AsciiCase.fold kind.name ≠ AsciiCase.fold framebufferAlias := by
  cases kind <;> decide +kernel

/-- A written name stands for a kind exactly when it is that kind's name, or the second one of a
framebuffer, but for case. -/
theorem ofName?_eq_some_iff {written : String} {kind : DeviceKind} :
    ofName? written = some kind ↔
      SameText written kind.name ∨ kind = .framebuffer ∧ SameText written framebufferAlias := by
  unfold ofName?
  by_cases second : AsciiCase.same written framebufferAlias = true
  · rw [if_pos second, Option.some.injEq]
    have spelled := same_iff.mp second
    constructor
    · rintro rfl
      exact Or.inr ⟨rfl, spelled⟩
    · rintro (own | ⟨rfl, _⟩)
      · exact absurd (own.fold_eq.symm.trans spelled.fold_eq) kind.fold_name_ne_alias
      · rfl
  · rw [if_neg second]
    constructor
    · intro found
      have passes := List.find?_some found
      have own : AsciiCase.fold kind.name = AsciiCase.fold written := beq_iff_eq.mp passes
      exact Or.inl (same_iff.mp (beq_iff_eq.mpr own.symm))
    · rintro (own | ⟨_, spelled⟩)
      · cases found : all.find? fun kind => AsciiCase.same kind.name written with
        | none =>
          have passes : AsciiCase.same kind.name written = true := beq_iff_eq.mpr own.fold_eq.symm
          exact absurd passes (List.find?_eq_none.mp found kind kind.mem_all)
        | some other =>
          have passes := List.find?_some found
          have otherOwn : AsciiCase.fold other.name = AsciiCase.fold written :=
            beq_iff_eq.mp passes
          rw [fold_name_inj (otherOwn.trans own.fold_eq)]
      · exact absurd (same_iff.mpr spelled) second

end DeviceKind

namespace KindTag

/-- A written type stands for a kind: it is the name of the kind or the second one of a framebuffer,
but for case, or it is the number of the kind's tag. -/
inductive StandsFor : KindTag → DeviceKind → Prop where
  | name {written : String} {kind : DeviceKind} (spelled : SameText written kind.name) :
      StandsFor (.name written) kind
  | secondName {written : String} (spelled : SameText written "FB") :
      StandsFor (.name written) .framebuffer
  | tag {value : UInt64} {kind : DeviceKind} (own : value.toNat = kind.tag.toNat) :
      StandsFor (.tag value) kind

/-- The kind of a written type is the one that it stands for. -/
theorem kind?_eq_some_iff {written : KindTag} {kind : DeviceKind} :
    written.kind? = some kind ↔ written.StandsFor kind := by
  cases written with
  | name text =>
    rw [kind?, DeviceKind.ofName?_eq_some_iff]
    constructor
    · rintro (own | ⟨rfl, second⟩)
      · exact .name own
      · exact .secondName second
    · intro stands
      cases stands with
      | name own => exact Or.inl own
      | secondName second => exact Or.inr ⟨rfl, second⟩
  | tag value =>
    have small := kind.tag.toNat_lt_size
    rw [kind?]
    constructor
    · intro found
      split at found
      · rename_i fits
        have own := congrArg UInt32.toNat (DeviceKind.tag_of_ofTag? found)
        rw [UInt64.toNat_toUInt32, Nat.mod_eq_of_lt fits] at own
        exact .tag own.symm
      · contradiction
    · intro stands
      cases stands with
      | tag own =>
        have tag : value.toUInt32 = kind.tag := by
          apply UInt32.toNat_inj.mp
          rw [UInt64.toNat_toUInt32, own]
          exact Nat.mod_eq_of_lt small
        rw [if_pos (own ▸ small), tag, DeviceKind.ofTag?_tag]

/-- A number stands for a kind exactly when it is at most six, however many bits it has. -/
theorem exists_standsFor_tag_iff {value : UInt64} :
    (∃ kind, (tag value).StandsFor kind) ↔ value.toNat ≤ 6 := by
  rw [← DeviceKind.exists_tag_iff]
  constructor
  · rintro ⟨kind, stands⟩
    cases stands with
    | tag own => exact ⟨kind, own.symm⟩
  · rintro ⟨kind, own⟩
    exact ⟨kind, .tag own.symm⟩

/-- The texts that stand for a kind. -/
def knownNames : List String :=
  ["IO", "FRAMEBUFFER", "UART", "RAM", "STORAGE", "BUS_CONTROLLER", "RTC", "FB"]

/-- A text has a kind exactly when it is one of the known names, but for case. -/
theorem isSome_kind?_name_iff {text : String} :
    (name text).kind?.isSome ↔ ∃ known ∈ knownNames, SameText text known := by
  simp only [Option.isSome_iff_exists, kind?_eq_some_iff]
  constructor
  · rintro ⟨kind, stands⟩
    cases stands with
    | name own =>
      have listed : ∀ kind ∈ DeviceKind.all, kind.name ∈ knownNames := by decide
      exact ⟨kind.name, listed kind kind.mem_all, own⟩
    | secondName own => exact ⟨"FB", by decide, own⟩
  · rintro ⟨known, listed, own⟩
    have every : ∀ known ∈ knownNames,
        known = "FB" ∨ ∃ kind ∈ DeviceKind.all, kind.name = known := by
      decide
    rcases every known listed with rfl | ⟨kind, _, rfl⟩
    · exact ⟨.framebuffer, .secondName own⟩
    · exact ⟨kind, .name own⟩

/-- A number has a kind exactly when it is at most six. -/
theorem isSome_kind?_tag_iff {value : UInt64} : (tag value).kind?.isSome ↔ value.toNat ≤ 6 := by
  simp only [Option.isSome_iff_exists, kind?_eq_some_iff, exists_standsFor_tag_iff]

end KindTag

/-! ## Flags -/

namespace FlagFamily

variable {family : FlagFamily} {written other : String} {first second : List String}

/-- A name stands for the bits that it has in any other case. -/
theorem ofName?_congr (family : FlagFamily) (same : SameText written other) :
    family.ofName? written = family.ofName? other := by
  simp only [ofName?, AsciiCase.same, same.fold_eq]

/-- In a family of one name, just that name, but for case, stands for its bits. -/
theorem ofName?_of_single {label name : String} {bits word : UInt32} :
    ofName? ⟨label, [(name, bits)]⟩ written = some word ↔
      SameText name written ∧ word = bits := by
  rw [← same_iff, ofName?, List.find?_cons]
  cases AsciiCase.same name written with
  | true => simp [eq_comm]
  | false => simp

/-- In a family of one name, just that name, but for case, is known. -/
theorem isSome_ofName?_of_single {label name : String} {bits : UInt32} :
    (ofName? ⟨label, [(name, bits)]⟩ written).isSome ↔ SameText name written := by
  rw [Option.isSome_iff_exists]
  simp only [ofName?_of_single, exists_and_left, exists_eq, and_true]

/-- The word that has the bits of all names. -/
def union (family : FlagFamily) (names : List String) : UInt32 :=
  (names.filterMap family.ofName?).foldl (· ||| ·) 0

/-- Two lists have the same names, but for their order, their repetitions and their case. -/
structure SameNames (first second : List String) : Prop where
  there : ∀ name ∈ first, ∃ other ∈ second, SameText name other
  back : ∀ name ∈ second, ∃ other ∈ first, SameText name other

/-- A bit is in a word, joined with the bits of some names, when it was or when a name has it. -/
theorem testBit_foldl_or (words : List UInt32) (word : UInt32) (bit : Nat) :
    (words.foldl (· ||| ·) word).toNat.testBit bit =
      (word.toNat.testBit bit || words.any fun other => other.toNat.testBit bit) := by
  induction words generalizing word with
  | nil => simp
  | cons head rest ih =>
    rw [List.foldl_cons, ih, UInt32.toNat_or, Nat.testBit_or, List.any_cons, Bool.or_assoc]

/-- A bit of one list of names is one of every list that has the names. -/
theorem testBit_union_imp (covered : ∀ name ∈ first, ∃ other ∈ second, SameText name other)
    {bit : Nat} (set : (family.union first).toNat.testBit bit = true) :
    (family.union second).toNat.testBit bit = true := by
  rw [union, testBit_foldl_or, UInt32.toNat_zero, Nat.zero_testBit, Bool.false_or,
    List.any_eq_true] at set ⊢
  obtain ⟨word, member, has⟩ := set
  obtain ⟨name, listed, found⟩ := List.mem_filterMap.mp member
  obtain ⟨other, listedToo, same⟩ := covered name listed
  exact ⟨word, List.mem_filterMap.mpr ⟨other, listedToo, family.ofName?_congr same ▸ found⟩, has⟩

/-- Lists with the same names have one word. -/
theorem union_congr (family : FlagFamily) (same : SameNames first second) :
    family.union first = family.union second := by
  apply UInt32.toNat_inj.mp
  apply Nat.eq_of_testBit_eq
  intro bit
  rw [Bool.eq_iff_iff]
  exact ⟨testBit_union_imp same.there, testBit_union_imp same.back⟩

/-- Of lists with the same names, all names of one are known when all of the other are. -/
theorem known_of_sameNames (same : SameNames first second)
    (known : ∀ name ∈ first, (family.ofName? name).isSome) :
    ∀ name ∈ second, (family.ofName? name).isSome := by
  intro name listed
  obtain ⟨other, listedToo, spelled⟩ := same.back name listed
  rw [family.ofName?_congr spelled]
  exact known other listedToo

end FlagFamily

/-! ## Conversion of one part -/

namespace Conversion

variable {conversion : Conversion} {field : Field} {fault : DeviceFault}

/-- A number is converted to its value. -/
theorem number_eq_ok_iff {written : Quantity} {value : UInt64} :
    conversion.number field written = .ok value ↔ written.value? = some value := by
  cases written with
  | whole value => simp [Conversion.number, Quantity.value?]
  | text content =>
    simp only [Conversion.number]
    cases (Quantity.text content).value? with
    | none => simp [outOfRange]
    | some found => simp

/-- Only a text without a value has a fault. -/
theorem number_eq_error_iff {written : Quantity} :
    conversion.number field written = .error fault ↔ ∃ text, written = .text text ∧
      written.value? = none ∧
      fault = .fieldOutOfRange conversion.index conversion.name field.name (.notANumber text) := by
  cases written with
  | whole value => simp [Conversion.number]
  | text content =>
    simp only [Conversion.number]
    cases (Quantity.text content).value? with
    | none => simp [outOfRange, eq_comm]
    | some found => simp

/-- A type is converted to the kind that it stands for. -/
theorem kind_eq_ok_iff {written : KindTag} {found : DeviceKind} :
    conversion.kind written = .ok found ↔ written.StandsFor found := by
  rw [← KindTag.kind?_eq_some_iff, kind]
  cases written.kind? <;> simp

/-- A type has a fault when it stands for no kind. -/
theorem kind_eq_error_iff {written : KindTag} :
    conversion.kind written = .error fault ↔ (∀ found, ¬written.StandsFor found) ∧
      fault = .unknownKind conversion.index conversion.name written.shown := by
  simp only [← KindTag.kind?_eq_some_iff, ← Option.eq_none_iff_forall_ne_some, kind]
  cases written.kind? with
  | none => simp [eq_comm]
  | some found => simp

section Flags

variable {family : FlagFamily} {unknown : String → RangeFault} {word result : UInt32}
  {names : List String}

/-- Flags are converted, when all of them are known, to the word that has the bits of all. -/
theorem flags_eq_ok_iff :
    conversion.flags family field unknown word names = .ok result ↔
      (∀ name ∈ names, (family.ofName? name).isSome) ∧
        (names.filterMap family.ofName?).foldl (· ||| ·) word = result := by
  induction names generalizing word with
  | nil => simp [flags]
  | cons name rest ih =>
    rw [flags]
    cases found : family.ofName? name with
    | none => simp [outOfRange, found]
    | some bits => simp [found, ih]

/-- Flags have the fault of the first of them that is not known. -/
theorem flags_eq_error_iff :
    conversion.flags family field unknown word names = .error fault ↔
      ∃ position name, FirstAt (fun _ name => family.ofName? name = none) names position name ∧
        fault = .fieldOutOfRange conversion.index conversion.name field.name (unknown name) := by
  induction names generalizing word with
  | nil =>
    constructor
    · intro failed
      cases failed
    · rintro ⟨position, name, first, _⟩
      cases first.here
  | cons head rest ih =>
    rw [flags]
    cases found : family.ofName? head with
    | none =>
      constructor
      · intro failed
        cases failed
        exact ⟨0, head, FirstAt.of_head found, rfl⟩
      · rintro ⟨position, name, first, rfl⟩
        obtain ⟨_, rfl⟩ := (FirstAt.of_head found).unique first
        rfl
    | some bits =>
      have known : ¬family.ofName? head = none := by
        rw [found]
        exact Option.some_ne_none bits
      dsimp only
      rw [ih]
      constructor
      · rintro ⟨position, name, first, same⟩
        exact ⟨position + 1, name, FirstAt.of_tail known first, same⟩
      · rintro ⟨position, name, first, same⟩
        cases position with
        | zero =>
          cases first.here
          exact absurd first.fault known
        | succ position => exact ⟨position, name, first.tail.2, same⟩

end Flags

end Conversion

end BoardBlob
