import Mathlib.Data.List.TakeWhile
import BoardBlob.Proofs.AssembledView

/-!
# Which name an entry has

The name of an entry is told by the name table alone, from the place that the entry refers to up to
the next zero byte. `StandsAt` says that a text is stored there so: at most one is, and the place
may be in the middle of another name. An entry is read exactly when a text stands at its place, and
each of its three faults has one cause in the table (`get_resolved`).
-/
namespace BoardBlob

/-! ## The bytes before a zero byte -/

section ZeroByte

variable {bytes : List UInt8} {length : Nat}

/-- The bytes before the first zero byte are those up to its position. -/
theorem take_of_idxOf? (zero : bytes.idxOf? 0 = some length) :
    bytes.take length = bytes.takeWhile (· != 0) := by
  obtain ⟨_, first⟩ := List.findIdx?_eq_some_iff_findIdx_eq.mp zero
  rw [List.takeWhile_eq_take_findIdx_not, ← first]
  simp [bne]

/-- The first zero byte parts the bytes before it from those after it. -/
theorem exists_eq_append_of_idxOf? (zero : bytes.idxOf? 0 = some length) :
    ∃ after, bytes = bytes.takeWhile (· != 0) ++ 0 :: after := by
  obtain ⟨inside, here, _⟩ := List.idxOf?_eq_some_iff.mp zero
  refine ⟨bytes.drop (length + 1), ?_⟩
  rw [← take_of_idxOf? zero, ← here, ← List.drop_eq_getElem_cons inside, List.take_append_drop]

end ZeroByte

/-! ## Texts in a table -/

/-- A text stands in a table at a place: from there on, the table has the bytes of the text, and
then its first zero byte. -/
structure StandsAt (table : List UInt8) (start : Nat) (text : String) : Prop where
  /-- The place is inside the table. -/
  inside : start < table.length
  /-- No zero byte is one of the text. -/
  plain : '\x00' ∉ text.toList
  /-- The bytes of the text are there, and a zero byte follows them. -/
  stored : Utf8.bytes text ++ [0] <+: table.drop start

/-- At most one text stands at a place. -/
theorem StandsAt.unique {table : List UInt8} {start : Nat} {text other : String}
    (first : StandsAt table start text) (second : StandsAt table start other) : text = other := by
  obtain ⟨after, parts⟩ := first.stored
  obtain ⟨afterOther, partsOther⟩ := second.stored
  rw [List.append_assoc, List.singleton_append] at parts partsOther
  -- Both texts end where the first zero byte of the table is.
  have length := Utf8.idxOf?_bytes_append first.plain after
  rw [parts, ← partsOther, Utf8.idxOf?_bytes_append second.plain, Option.some.injEq] at length
  have same := parts.trans partsOther.symm
  exact Utf8.bytes_injective (List.append_inj_left same length.symm)

/-- What a loader makes of a place of a name table. -/
inductive Resolves (table : List UInt8) (offset : UInt32) : Except LoadFault String → Prop where
  | outOfRange (outside : table.length ≤ offset.toNat) :
      Resolves table offset (.error (.nameOutOfRange offset))
  | unterminated (inside : offset.toNat < table.length) (endless : 0 ∉ table.drop offset.toNat) :
      Resolves table offset (.error (.unterminatedName offset))
  | notUtf8 (inside : offset.toNat < table.length) (ended : 0 ∈ table.drop offset.toNat)
      (noText : ∀ text, Utf8.bytes text ≠ (table.drop offset.toNat).takeWhile (· != 0)) :
      Resolves table offset (.error (.notUtf8 offset))
  | name {text : String} (stands : StandsAt table offset.toNat text) :
      Resolves table offset (.ok text)

namespace Resolves

variable {table : List UInt8} {offset : UInt32}

/-- A place is out of range exactly when it is past the table. -/
theorem outOfRange_iff : Resolves table offset (.error (.nameOutOfRange offset)) ↔
    table.length ≤ offset.toNat := by
  constructor
  · intro resolved
    cases resolved with
    | outOfRange outside => exact outside
  · exact .outOfRange

/-- A place is unterminated exactly when it is inside the table and no zero byte follows. -/
theorem unterminated_iff : Resolves table offset (.error (.unterminatedName offset)) ↔
    offset.toNat < table.length ∧ 0 ∉ table.drop offset.toNat := by
  constructor
  · intro resolved
    cases resolved with
    | unterminated inside endless => exact ⟨inside, endless⟩
  · rintro ⟨inside, endless⟩
    exact .unterminated inside endless

/-- A place is no text exactly when the bytes up to the next zero byte are those of none. -/
theorem notUtf8_iff : Resolves table offset (.error (.notUtf8 offset)) ↔
    offset.toNat < table.length ∧ 0 ∈ table.drop offset.toNat ∧
      ∀ text, Utf8.bytes text ≠ (table.drop offset.toNat).takeWhile (· != 0) := by
  constructor
  · intro resolved
    cases resolved with
    | notUtf8 inside ended noText => exact ⟨inside, ended, noText⟩
  · rintro ⟨inside, ended, noText⟩
    exact .notUtf8 inside ended noText

/-- A place has a name exactly when the name stands there. -/
theorem name_iff {text : String} :
    Resolves table offset (.ok text) ↔ StandsAt table offset.toNat text := by
  constructor
  · intro resolved
    cases resolved with
    | name stands => exact stands
  · exact .name

end Resolves

namespace BlobView

variable {view : BlobView} {offset : UInt32}

/-- The name at a place is resolved as the table has it there. -/
theorem resolves_nameAt (view : BlobView) (offset : UInt32) :
    Resolves view.nameTable offset (view.nameAt offset) := by
  rw [nameAt_eq]
  by_cases outside : view.nameTable.length ≤ offset.toNat
  case pos =>
    rw [if_pos outside]
    exact .outOfRange outside
  rw [if_neg outside]
  have inside : offset.toNat < view.nameTable.length := Nat.not_le.mp outside
  cases zero : (view.nameTable.drop offset.toNat).idxOf? 0 with
  | none => exact .unterminated inside (List.idxOf?_eq_none_iff.mp zero)
  | some length =>
    obtain ⟨after, parts⟩ := exists_eq_append_of_idxOf? zero
    dsimp only
    rw [take_of_idxOf? zero]
    cases read : Utf8.text? ((view.nameTable.drop offset.toNat).takeWhile (· != 0)) with
    | none =>
      have ended : 0 ∈ view.nameTable.drop offset.toNat := by
        rw [parts]
        simp
      exact .notUtf8 inside ended (Utf8.text?_eq_none_iff.mp read)
    | some text =>
      have bytes := Utf8.bytes_of_text? read
      refine .name ⟨inside, ?plain, ⟨after, ?stored⟩⟩
      case plain =>
        rw [← Utf8.zero_mem_bytes_iff, bytes]
        intro member
        have kept := List.mem_takeWhile_imp member
        simp at kept
      case stored =>
        rw [bytes, List.append_assoc, List.singleton_append]
        exact parts.symm

/-- Of the outcomes for a place, the table has only one. -/
theorem nameAt_of_resolves {result : Except LoadFault String}
    (resolved : Resolves view.nameTable offset result) : view.nameAt offset = result := by
  cases resolved with
  | outOfRange outside => rw [nameAt_eq, if_pos outside]
  | unterminated inside endless =>
    rw [nameAt_eq, if_neg (Nat.not_le.mpr inside), List.idxOf?_eq_none_iff.mpr endless]
  | notUtf8 inside ended noText =>
    rw [nameAt_eq, if_neg (Nat.not_le.mpr inside)]
    cases zero : (view.nameTable.drop offset.toNat).idxOf? 0 with
    | none => exact absurd ended (List.idxOf?_eq_none_iff.mp zero)
    | some length =>
      dsimp only
      rw [take_of_idxOf? zero, Utf8.text?_eq_none_iff.mpr noText]
  | name stands =>
    obtain ⟨after, parts⟩ := stands.stored
    rw [List.append_assoc, List.singleton_append] at parts
    have before : offset.toNat = (view.nameTable.take offset.toNat).length := by
      rw [List.length_take, Nat.min_eq_left (Nat.le_of_lt stands.inside)]
    have whole := List.take_append_drop offset.toNat view.nameTable
    rw [← parts] at whole
    exact nameAt_of_nameTable whole.symm before stands.plain

/-- The name at a place is what the table has there. -/
theorem nameAt_eq_iff {result : Except LoadFault String} :
    view.nameAt offset = result ↔ Resolves view.nameTable offset result :=
  ⟨fun found => found ▸ resolves_nameAt view offset, nameAt_of_resolves⟩

/-- An entry whose record is there has exactly the faults of its name. -/
theorem get_eq_error_iff {index : Nat} {entry : Entry} (inside : index < view.size)
    (own : (view.record? index).bind Entry.decode = some entry) (fault : LoadFault) :
    view.get index = .error fault ↔ Resolves view.nameTable entry.nameOffset (.error fault) := by
  obtain ⟨record, found, decoded⟩ := Option.bind_eq_some_iff.mp own
  rw [get_of_record inside found decoded, ← nameAt_eq_iff]
  cases view.nameAt entry.nameOffset with
  | error other => simp [Except.map]
  | ok name => simp [Except.map]

end BlobView

/-- The entries of an accepted blob, each with its name. An entry is the one that its own 72 bytes
stand for. It is read, with a name, exactly when the name stands in the table at the place the entry
refers to, and at most one does. It has one of three faults exactly when that place is past the
table, when no zero byte follows it, or when the bytes up to the next zero byte are those of no
text. -/
theorem get_resolved {bytes : List UInt8} {view : BlobView}
    (parsed : BlobView.parse bytes = .ok view) (index : Nat) (inside : index < view.size) :
    ∃ entry,
      (slice? bytes (24 + 72 * index) (24 + 72 * index + 72)).bind Entry.decode = some entry ∧
      let table := view.nameTable
      let place := entry.nameOffset.toNat
      (∀ device, view.get index = .ok device ↔
        device.entry = entry ∧ StandsAt table place device.name) ∧
      (∀ text other, StandsAt table place text → StandsAt table place other → text = other) ∧
      (view.get index = .error (.nameOutOfRange entry.nameOffset) ↔ table.length ≤ place) ∧
      (view.get index = .error (.unterminatedName entry.nameOffset) ↔
        place < table.length ∧ 0 ∉ table.drop place) ∧
      (view.get index = .error (.notUtf8 entry.nameOffset) ↔
        place < table.length ∧ 0 ∈ table.drop place ∧
          ∀ text, Utf8.bytes text ≠ (table.drop place).takeWhile (· != 0)) := by
  obtain ⟨rfl, _, accepted⟩ := BlobView.parse_eq_ok_iff.mp parsed
  obtain ⟨record, entry, found, _, decoded⟩ := accepted.exists_record inside
  have own : (view.record? index).bind Entry.decode = some entry := by
    rw [BlobView.record?, found, Option.bind_some, decoded]
  have fault := BlobView.get_eq_error_iff inside own
  refine ⟨entry, ?record, ?named, fun _ _ => StandsAt.unique, ?past, ?endless, ?noText⟩
  case record =>
    have start : 24 + 72 * index = Header.size + index * Entry.size := by
      rw [Header.size, Entry.size, Nat.mul_comm]
    rw [start]
    exact own
  case named =>
    intro device
    rw [BlobView.get_eq_ok_iff, own, Option.some.injEq, BlobView.nameAt_eq_iff,
      Resolves.name_iff]
    constructor
    · rintro ⟨_, rfl, stands⟩
      exact ⟨rfl, stands⟩
    · rintro ⟨rfl, stands⟩
      exact ⟨inside, rfl, stands⟩
  case past => exact (fault _).trans Resolves.outOfRange_iff
  case endless => exact (fault _).trans Resolves.unterminated_iff
  case noText => exact (fault _).trans Resolves.notUtf8_iff

/-- A blob of five entries over one table: they refer to a letter of two bytes, to the second of
these bytes, to the zero byte after them, to the byte after that, and to the end of the table. -/
def everyPlace : List UInt8 :=
  Layout.assemble (.current 5 384 0)
    ([{ }, { nameOffset := 1 }, { nameOffset := 2 }, { nameOffset := 3 },
      { nameOffset := 4 }].flatMap Entry.encode)
    [0xc3, 0xa9, 0, 0x61]

/-- The header of that blob is accepted. -/
theorem parse_everyPlace : BlobView.parse everyPlace =
    .ok { bytes := everyPlace, header := .current 5 384 0 } := by
  decide +kernel

/-- The letter is a name, its second byte alone is not text, the name at a zero byte is empty, the
last byte of the table is followed by no zero byte, and nothing is at the end. -/
theorem get_resolved_everyPlace :
    ∃ view, BlobView.parse everyPlace = .ok view ∧
      view.get 0 = .ok { entry := { }, name := "é" } ∧
      view.get 1 = .error (.notUtf8 1) ∧
      view.get 2 = .ok { entry := { nameOffset := 2 }, name := "" } ∧
      view.get 3 = .error (.unterminatedName 3) ∧
      view.get 4 = .error (.nameOutOfRange 4) := by
  have stored (index : Fin 5) :
      (slice? everyPlace (24 + 72 * index) (24 + 72 * index + 72)).bind Entry.decode =
        some { nameOffset := UInt32.ofNat index } := by
    revert index
    decide +kernel
  refine ⟨_, parse_everyPlace, ?_, ?_, ?_, ?_, ?_⟩
  · obtain ⟨entry, own, named, _⟩ := get_resolved parse_everyPlace 0 (by decide)
    obtain rfl := Option.some.inj ((stored 0).symm.trans own)
    refine (named _).mpr ⟨rfl, ?_⟩
    exact ⟨by decide +kernel, by decide +kernel, by decide +kernel⟩
  · obtain ⟨entry, own, _, _, _, _, noText⟩ := get_resolved parse_everyPlace 1 (by decide)
    obtain rfl := Option.some.inj ((stored 1).symm.trans own)
    refine noText.mpr ⟨by decide +kernel, by decide +kernel, ?_⟩
    exact Utf8.text?_eq_none_iff.mp (by decide +kernel)
  · obtain ⟨entry, own, named, _⟩ := get_resolved parse_everyPlace 2 (by decide)
    obtain rfl := Option.some.inj ((stored 2).symm.trans own)
    refine (named _).mpr ⟨rfl, ?_⟩
    exact ⟨by decide +kernel, by decide +kernel, by decide +kernel⟩
  · obtain ⟨entry, own, _, _, _, endless, _⟩ := get_resolved parse_everyPlace 3 (by decide)
    obtain rfl := Option.some.inj ((stored 3).symm.trans own)
    exact endless.mpr ⟨by decide +kernel, by decide +kernel⟩
  · obtain ⟨entry, own, _, _, past, _⟩ := get_resolved parse_everyPlace 4 (by decide)
    obtain rfl := Option.some.inj ((stored 4).symm.trans own)
    exact past.mpr (by decide +kernel)

end BoardBlob
