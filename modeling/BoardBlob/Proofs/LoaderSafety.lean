import Mathlib.Control.Monad.Basic
import BoardBlob.Proofs.AcceptedView
import BoardBlob.Proofs.CheckedLoader

/-!
# Safety of the loader

After `parse` has accepted some bytes, whatever they hold, no access of the loader leaves them and
no word overflows: the checked loader never stops the machine and has the results of the loader
itself (`loader_safe`). Reading an entry has one fault for a position outside the entries and three
for a name that cannot be resolved, and no other.
-/
namespace BoardBlob

namespace BlobView

/-! ## Faults of an entry -/

/-- A name at a place cannot be resolved. -/
inductive NameFaultAt (offset : UInt32) : LoadFault → Prop where
  | outOfRange : NameFaultAt offset (.nameOutOfRange offset)
  | unterminated : NameFaultAt offset (.unterminatedName offset)
  | notUtf8 : NameFaultAt offset (.notUtf8 offset)

/-- A name that is not found has one of the three faults, for its own place. -/
theorem nameFaultAt_of_nameAt {view : BlobView} {offset : UInt32} {fault : LoadFault}
    (failed : view.nameAt offset = .error fault) : NameFaultAt offset fault := by
  rw [nameAt_eq] at failed
  split at failed
  · cases failed
    exact .outOfRange
  · split at failed
    · cases failed
      exact .unterminated
    · split at failed
      · cases failed
        exact .notUtf8
      · contradiction

/-! ## The checked loader of an accepted view -/

namespace Accepted

variable {view : BlobView}

/-- The name table is taken without a stop. -/
theorem nameTable?_eq (accepted : view.Accepted) : view.nameTable? = some view.nameTable := by
  rw [nameTable?, suffix?_of_le accepted.inside, accepted.nameTable_eq]

/-- A name is found without a stop, at every place. -/
theorem nameAt?_eq (accepted : view.Accepted) (addressable : view.bytes.length < UInt64.size)
    (offset : UInt32) : view.nameAt? offset = some (view.nameAt offset) := by
  have bound := view.length_nameTable_le
  rw [nameAt?, accepted.nameTable?_eq, Option.bind_eq_bind, Option.bind_some, nameAt_eq]
  by_cases outside : view.nameTable.length ≤ offset.toNat
  · simp only [outside, ↓reduceIte]
  · have reached : offset.toNat ≤ view.nameTable.length := by omega
    simp only [outside, ↓reduceIte, suffix?_of_le reached, Option.bind_eq_bind, Option.bind_some]
    cases zero : (view.nameTable.drop offset.toNat).idxOf? 0 with
    | none => rfl
    | some length =>
      have stop := add_idxOf?_lt zero
      have word := word?_of_lt (show offset.toNat + length < UInt64.size by omega)
      have range := slice?_of_le (Nat.le_add_right offset.toNat length) (Nat.le_of_lt stop)
      rw [Nat.add_sub_cancel_left] at range
      simp only [word, range, Option.bind_some]
      cases Utf8.text? ((view.nameTable.drop offset.toNat).take length) <;> rfl

/-- An entry is read without a stop, at every position. -/
theorem get?_eq (accepted : view.Accepted) (addressable : view.bytes.length < UInt64.size)
    (index : Nat) : view.get? index = some (view.get index) := by
  by_cases inside : index < view.size
  · obtain ⟨record, entry, found, length, decoded⟩ := accepted.exists_record inside
    have bound := accepted.record_lt inside
    have skipped := word?_of_lt (show index * Entry.size < UInt64.size by omega)
    have start := word?_of_lt (show Header.size + index * Entry.size < UInt64.size by omega)
    have stop := word?_of_lt bound
    rw [get?, if_neg (Nat.not_le.mpr inside), get_of_record inside found decoded]
    simp [skipped, start, stop, found, length, decoded,
      accepted.nameAt?_eq addressable]
  · have outside : view.size ≤ index := Nat.not_lt.mp inside
    simp [get?, get, outside]

/-- A loop over the entries from a position on runs without a stop. -/
theorem walk?_eq (accepted : view.Accepted) (addressable : view.bytes.length < UInt64.size)
    {State Result : Type} (step : State → Except LoadFault LoadedDevice → State ⊕ Result)
    (finish : State → Result) (state : State) (index : Nat) :
    view.walk? step finish state index =
      some (walk step finish state (view.entries.drop index)) := by
  -- The loop goes on with the entries that it has not read yet.
  fun_induction view.walk? step finish state index with
  | case1 state index outside =>
    have finished : view.entries.drop index = [] := by
      simpa [entries] using outside
    rw [finished, walk]
  | case2 state index inside ih =>
    have counted := view.header.entriesCount.toNat_lt
    rw [size] at inside
    have following : index + 1 < UInt64.size := by
      simp only [UInt64.size]
      omega
    have word := word?_of_lt following
    rw [drop_entries (Nat.not_le.mp inside), walk, accepted.get?_eq addressable, word]
    simp only [Option.bind_eq_bind, Option.bind_some]
    cases step state (view.get index) with
    | inl next => exact ih next
    | inr result => rfl

/-- All entries are read without a stop. -/
theorem entries?_eq (accepted : view.Accepted) (addressable : view.bytes.length < UInt64.size) :
    view.entries? = some view.entries := by
  rw [entries?, accepted.walk?_eq addressable, walk_collectStep, List.drop_zero, List.nil_append]

/-- A device is searched for without a stop. -/
theorem find?_eq (accepted : view.Accepted) (addressable : view.bytes.length < UInt64.size)
    (name : String) : view.find? name = some (view.find name) := by
  rw [find?, accepted.walk?_eq addressable, walk_findStep, List.drop_zero, find]

/-- The devices of a kind are listed without a stop. -/
theorem ofKind?_eq (accepted : view.Accepted) (addressable : view.bytes.length < UInt64.size)
    (kind : DeviceKind) : view.ofKind? kind = some (view.ofKind kind) := by
  rw [ofKind?, accepted.entries?_eq addressable, Option.map_some]
  rfl

/-- A blob is shown without a stop. -/
theorem text?_eq (accepted : view.Accepted) (addressable : view.bytes.length < UInt64.size) :
    Listing.text? view = some (Listing.text view) := by
  have header : Listing.headerLines? view = some (Listing.headerLines view) := by
    rw [Listing.headerLines?, Listing.signature?_eq, accepted.nameTable?_eq]
    rfl
  rw [Listing.text?, header, Option.bind_eq_bind, Option.bind_some,
    accepted.walk?_eq addressable, Listing.walk_listStep, List.drop_zero]
  rfl

end Accepted

end BlobView

/-- A blob that is parsed is decompiled without a stop. -/
theorem decompile?_eq {bytes : List UInt8} {view : BlobView}
    (parsed : BlobView.parse bytes = .ok view) (addressable : bytes.length < UInt64.size) :
    decompile? bytes = some (decompile bytes) := by
  obtain ⟨rfl, _, accepted⟩ := BlobView.parse_eq_ok_iff.mp parsed
  simp only [decompile?, decompile, parsed, accepted.walk?_eq addressable, walk_decompileStep,
    List.drop_zero, List.nil_append]
  cases devicesOf view.entries <;> rfl

/-- Once bytes are parsed, whatever they hold, no access of the loader leaves them and no word
overflows. The name table starts inside the bytes. At every position there is either no entry, which
is then the fault, or a whole record inside the bytes. At every place of the name table the first
zero byte is inside the table. Reading an entry has no fault but a position outside the entries and
the three of its name. The checked loader never stops, and has the results of the loader. The bytes
themselves can be addressed, so their count is a machine word. -/
theorem loader_safe {bytes : List UInt8} {view : BlobView}
    (parsed : BlobView.parse bytes = .ok view) (addressable : bytes.length < UInt64.size) :
    (view.bytes = bytes ∧ view.header.nameListOffset.toNat ≤ bytes.length) ∧
    (∀ index, (view.size ≤ index ∧ view.get index = .error (.indexOutOfRange index)) ∨
      (index < view.size ∧
        24 + index * 72 + 72 < UInt64.size ∧ 24 + index * 72 + 72 ≤ bytes.length ∧
        ∃ record entry, slice? bytes (24 + index * 72) (24 + index * 72 + 72) = some record ∧
          record.length = 72 ∧ Entry.decode record = some entry)) ∧
    (∀ offset : UInt32, offset.toNat < view.nameTable.length →
      ∃ stored, suffix? view.nameTable offset.toNat = some stored ∧
        ∀ length, stored.idxOf? 0 = some length →
          offset.toNat + length < UInt64.size ∧
          ∃ name, slice? view.nameTable offset.toNat (offset.toNat + length) = some name) ∧
    (∀ index fault, view.get index = .error fault →
      fault = .indexOutOfRange index ∨ ∃ offset, BlobView.NameFaultAt offset fault) ∧
    view.nameTable? = some view.nameTable ∧
    (∀ offset, view.nameAt? offset = some (view.nameAt offset)) ∧
    (∀ index, view.get? index = some (view.get index)) ∧
    view.entries? = some view.entries ∧
    (∀ name, view.find? name = some (view.find name)) ∧
    (∀ kind, view.ofKind? kind = some (view.ofKind kind)) ∧
    decompile? bytes = some (decompile bytes) ∧
    Listing.text? view = some (Listing.text view) := by
  have decompiled := decompile?_eq parsed addressable
  obtain ⟨rfl, _, accepted⟩ := BlobView.parse_eq_ok_iff.mp parsed
  refine ⟨⟨rfl, accepted.inside⟩, ?records, ?names, ?faults, accepted.nameTable?_eq,
    accepted.nameAt?_eq addressable, accepted.get?_eq addressable,
    accepted.entries?_eq addressable, accepted.find?_eq addressable,
    accepted.ofKind?_eq addressable, decompiled, accepted.text?_eq addressable⟩
  case records =>
    intro index
    by_cases inside : index < view.size
    · exact Or.inr ⟨inside, accepted.record_lt inside, accepted.record_le inside,
        accepted.exists_record inside⟩
    · have outside : view.size ≤ index := Nat.not_lt.mp inside
      exact Or.inl ⟨outside, by rw [BlobView.get, if_pos outside]⟩
  case names =>
    intro offset inside
    refine ⟨_, suffix?_of_le (Nat.le_of_lt inside), ?_⟩
    intro length zero
    have stop := BlobView.add_idxOf?_lt zero
    have bound := view.length_nameTable_le
    exact ⟨by omega, _, slice?_of_le (Nat.le_add_right _ _) (Nat.le_of_lt stop)⟩
  case faults =>
    intro index fault failed
    by_cases inside : index < view.size
    · obtain ⟨record, entry, found, _, decoded⟩ := accepted.exists_record inside
      rw [BlobView.get_of_record inside found decoded] at failed
      cases named : view.nameAt entry.nameOffset with
      | ok name => simp [named, Except.map] at failed
      | error reason =>
        simp only [named, Except.map, Except.error.injEq] at failed
        exact Or.inr ⟨entry.nameOffset, failed ▸ BlobView.nameFaultAt_of_nameAt named⟩
    · rw [BlobView.get, if_pos (Nat.not_lt.mp inside)] at failed
      cases failed
      exact Or.inl rfl

/-- A blob of one entry, whose name would start six bytes past the end of the name table. -/
def strayName : List UInt8 :=
  Layout.assemble (.current 1 96 0) (Entry.encode { nameOffset := 7 }) [65]

/-- The entry whose name is outside the table is a fault and stops no machine. -/
theorem loader_safe_strayName :
    strayName.length < UInt64.size ∧
    ∃ view, BlobView.parse strayName = .ok view ∧
      view.get? 0 = some (.error (.nameOutOfRange 7)) ∧
      decompile? strayName = some (.error (.nameOutOfRange 7)) := by
  have parsed : BlobView.parse strayName =
      .ok { bytes := strayName, header := .current 1 96 0 } := by
    decide +kernel
  have addressable : strayName.length < UInt64.size := by decide +kernel
  obtain ⟨_, _, _, _, _, _, reads, _, _, _, decompiles, _⟩ := loader_safe parsed addressable
  have entry : BlobView.get { bytes := strayName, header := .current 1 96 0 } 0 =
      .error (.nameOutOfRange 7) := by decide +kernel
  have devices : decompile strayName = .error (.nameOutOfRange 7) := by decide +kernel
  exact ⟨addressable, _, parsed, entry ▸ reads 0, devices ▸ decompiles⟩

end BoardBlob
