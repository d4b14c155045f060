import BoardBlob.Proofs.ChangedBytes

/-!
# Searching for a name

A search goes through the entries in blob order, and stops at the first that has the name or that
cannot be read: it finds the one and reports the other. So an entry that cannot be read is never
passed over, and what comes after the stop is not looked at (`find_exact`).
-/
namespace BoardBlob

/-- A search for a name stops at an entry that cannot be read, and at one that has the name. -/
inductive Stops (name : String) : Except LoadFault LoadedDevice → Prop where
  | unread (fault : LoadFault) : Stops name (.error fault)
  | named {device : LoadedDevice} (same : device.name = name) : Stops name (.ok device)

/-- A search goes on after an entry that is read and has another name. -/
theorem not_stops_iff {name : String} {entry : Except LoadFault LoadedDevice} :
    ¬Stops name entry ↔ ∃ device, entry = .ok device ∧ device.name ≠ name := by
  constructor
  · intro goesOn
    cases entry with
    | error fault => exact absurd (.unread fault) goesOn
    | ok device => exact ⟨device, rfl, fun same => goesOn (.named same)⟩
  · rintro ⟨device, rfl, differ⟩ (_ | same)
    exact differ same

namespace BlobView

variable {view : BlobView} {name : String} {entries : List (Except LoadFault LoadedDevice)}
  {entry : Except LoadFault LoadedDevice} {index : Nat}

/-! ## The end of a search -/

/-- What a search gives is the entry that it stops at first. -/
theorem findIn_of_firstAt (first : FirstAt (fun _ => Stops name) entries index entry) :
    findIn name entries = entry.map some := by
  induction entries generalizing index with
  | nil => exact absurd first.here (by simp)
  | cons head rest ih =>
    cases index with
    | zero =>
      obtain rfl : head = entry := Option.some.inj first.here
      cases first.fault with
      | unread fault => rfl
      | named same => exact if_pos same
    | succ index =>
      obtain ⟨pass, later⟩ := first.tail
      obtain ⟨device, rfl, differ⟩ := not_stops_iff.mp pass
      rw [findIn, if_neg differ, ih later]

/-- A search that stops at no entry finds nothing. -/
theorem findIn_of_noneFails (pass : NoneFails (fun _ => Stops name) entries) :
    findIn name entries = .ok none := by
  induction entries with
  | nil => rfl
  | cons head rest ih =>
    obtain ⟨atHead, later⟩ := NoneFails.cons_iff.mp pass
    obtain ⟨device, rfl, differ⟩ := not_stops_iff.mp atHead
    rw [findIn, if_neg differ, ih later]

/-- Every entry before a position is read, and has another name. -/
def PassedUntil (view : BlobView) (name : String) (stop : Nat) : Prop :=
  ∀ position < stop, ∃ device, view.get position = .ok device ∧ device.name ≠ name

/-- A search that goes on up to an entry and stops there gives that entry. -/
theorem find_of_stops (inside : index < view.size) (stops : Stops name (view.get index))
    (passed : view.PassedUntil name index) : view.find name = (view.get index).map some := by
  refine findIn_of_firstAt ⟨getElem?_entries_iff.mpr ⟨inside, rfl⟩, stops, ?_⟩
  intro position other before found
  obtain ⟨_, rfl⟩ := getElem?_entries_iff.mp found
  exact not_stops_iff.mpr (passed position before)

/-- A search that goes on after every entry finds nothing. -/
theorem find_of_passedUntil (passed : view.PassedUntil name view.size) :
    view.find name = .ok none := by
  refine findIn_of_noneFails fun position other found => ?_
  obtain ⟨inside, rfl⟩ := getElem?_entries_iff.mp found
  exact not_stops_iff.mpr (passed position inside)

/-- A search stops at an entry after it went on up to there, or goes on after every entry. -/
theorem stops_or_passedUntil (view : BlobView) (name : String) :
    (∃ index < view.size, Stops name (view.get index) ∧ view.PassedUntil name index) ∨
      view.PassedUntil name view.size := by
  have listed {position : Nat} (inside : position < view.size) :=
    getElem?_entries_iff.mpr ⟨inside, rfl⟩
  cases FirstAt.exists_or_noneFails (fun _ => Stops name) view.entries with
  | inl found =>
    obtain ⟨index, entry, first⟩ := found
    obtain ⟨inside, rfl⟩ := getElem?_entries_iff.mp first.here
    refine Or.inl ⟨index, inside, first.fault, fun position before => not_stops_iff.mp ?_⟩
    exact first.earlier position _ before (listed (Nat.lt_trans before inside))
  | inr pass =>
    exact Or.inr fun position inside => not_stops_iff.mp (pass position _ (listed inside))

/-- What a search gives is the entry that it stops at, or nothing when it stops at none. -/
theorem find_eq_iff {result : Except LoadFault (Option LoadedDevice)} :
    view.find name = result ↔
      (∃ index < view.size, Stops name (view.get index) ∧ view.PassedUntil name index ∧
        (view.get index).map some = result) ∨
      (view.PassedUntil name view.size ∧ .ok none = result) := by
  constructor
  · rintro rfl
    cases stops_or_passedUntil view name with
    | inl stop =>
      obtain ⟨index, inside, stops, passed⟩ := stop
      exact Or.inl ⟨index, inside, stops, passed, (find_of_stops inside stops passed).symm⟩
    | inr passed => exact Or.inr ⟨passed, (find_of_passedUntil passed).symm⟩
  · rintro (⟨index, inside, stops, passed, rfl⟩ | ⟨passed, rfl⟩)
    · exact find_of_stops inside stops passed
    · exact find_of_passedUntil passed

/-! ## Its outcomes -/

/-- A search finds the first entry with the name, when all entries before it are read. -/
theorem find_eq_some_iff {device : LoadedDevice} :
    view.find name = .ok (some device) ↔ ∃ index < view.size, view.get index = .ok device ∧
      device.name = name ∧ view.PassedUntil name index := by
  rw [find_eq_iff]
  constructor
  · rintro (⟨index, inside, stops, passed, found⟩ | ⟨_, found⟩)
    · generalize read : view.get index = entry at stops found
      cases stops with
      | unread fault => contradiction
      | named same =>
        cases found
        exact ⟨index, inside, read, same, passed⟩
    · cases found
  · rintro ⟨index, inside, read, named, passed⟩
    exact Or.inl ⟨index, inside, read ▸ .named named, passed, read ▸ rfl⟩

/-- A search reports the first entry that cannot be read, when no entry before it has the name. -/
theorem find_eq_error_iff {fault : LoadFault} :
    view.find name = .error fault ↔ ∃ index < view.size, view.get index = .error fault ∧
      view.PassedUntil name index := by
  rw [find_eq_iff]
  constructor
  · rintro (⟨index, inside, stops, passed, failed⟩ | ⟨_, failed⟩)
    · generalize read : view.get index = entry at stops failed
      cases stops with
      | unread other =>
        cases failed
        exact ⟨index, inside, read, passed⟩
      | named same => contradiction
    · cases failed
  · rintro ⟨index, inside, unread, passed⟩
    exact Or.inl ⟨index, inside, unread ▸ .unread fault, passed, unread ▸ rfl⟩

/-- A search finds nothing when every entry is read and has another name. -/
theorem find_eq_none_iff : view.find name = .ok none ↔ view.PassedUntil name view.size := by
  rw [find_eq_iff]
  constructor
  · rintro (⟨index, _, _, _, found⟩ | ⟨passed, _⟩)
    · generalize view.get index = entry at found
      cases entry <;> cases found
    · exact passed
  · exact fun passed => Or.inr ⟨passed, rfl⟩

/-! ## What comes after the end -/

/-- A search ends the same way in every view with the same entries up to one that it stops at. -/
theorem find_congr {other : BlobView} (inside : index < view.size)
    (stops : Stops name (view.get index)) (insideOther : index < other.size)
    (same : ∀ position ≤ index, other.get position = view.get position) :
    other.find name = view.find name := by
  obtain ⟨stop, before, entry, first⟩ := FirstAt.exists_le (fun _ => Stops name)
    (getElem?_entries_iff.mpr ⟨inside, rfl⟩) stops
  have listed : ∀ position ≤ stop, other.entries[position]? = view.entries[position]? := by
    intro position upTo
    have upToIndex := Nat.le_trans upTo before
    rw [getElem?_entries, getElem?_entries, if_pos (Nat.lt_of_le_of_lt upToIndex insideOther),
      if_pos (Nat.lt_of_le_of_lt upToIndex inside), same position upToIndex]
  rw [find, find, findIn_of_firstAt first, findIn_of_firstAt (first.congr listed)]

end BlobView

/-- Searching an accepted blob for a name. The search finds a device exactly when it is the entry at
some position, has the name, and all entries before are read and have other names. It reports a
fault exactly when it is that of the entry at some position, and all entries before are read and
have other names. It finds nothing exactly when all entries are read and have other names. What
comes after an entry that has the name or cannot be read changes nothing: the search ends the same
way in every view with the same entries up to there, and in the blob after any bytes between that
entry and the name table were overwritten. -/
theorem find_exact {bytes : List UInt8} {view : BlobView}
    (parsed : BlobView.parse bytes = .ok view) (name : String) :
    (∀ device, view.find name = .ok (some device) ↔ ∃ index < view.size,
      view.get index = .ok device ∧ device.name = name ∧ view.PassedUntil name index) ∧
    (∀ fault, view.find name = .error fault ↔ ∃ index < view.size,
      view.get index = .error fault ∧ view.PassedUntil name index) ∧
    (view.find name = .ok none ↔ view.PassedUntil name view.size) ∧
    ∀ index < view.size, Stops name (view.get index) →
      (∀ other : BlobView, index < other.size →
        (∀ position ≤ index, other.get position = view.get position) →
        other.find name = view.find name) ∧
      ∀ (position : Nat) (patch : List UInt8), 24 + 72 * (index + 1) ≤ position →
        position + patch.length ≤ view.header.nameListOffset.toNat →
        ∃ changed, BlobView.parse (overwrite bytes position patch) = .ok changed ∧
          changed.find name = view.find name := by
  obtain ⟨rfl, _, accepted⟩ := BlobView.parse_eq_ok_iff.mp parsed
  refine ⟨fun _ => BlobView.find_eq_some_iff, fun _ => BlobView.find_eq_error_iff,
    BlobView.find_eq_none_iff, ?_⟩
  intro index inside stops
  refine ⟨fun other insideOther same => BlobView.find_congr inside stops insideOther same, ?_⟩
  intro position patch after before
  have reached := Nat.le_trans before accepted.inside
  have afterHeader : Header.size ≤ position := by
    simp only [Header.size]
    omega
  refine ⟨_, BlobView.parse_overwrite parsed reached afterHeader,
    BlobView.find_congr inside stops inside fun earlier upTo => ?_⟩
  apply accepted.get_overwrite_of_disjoint before
  left
  simp only [Header.size, Entry.size]
  omega

/-- In the blob of four entries the second name is found before the entry whose name is not text,
whatever the records after it are. A name that no earlier entry has is not searched past that
entry. -/
theorem find_exact_nestedNames :
    nestedView.find "b" = .ok (some { entry := { typeTag := 6, nameOffset := 1 }, name := "b" }) ∧
      nestedView.find "x" = .error (.notUtf8 3) ∧
      ∀ patch, patch.length = 144 →
        ∃ changed, BlobView.parse (overwrite nestedNames 168 patch) = .ok changed ∧
          changed.find "b" =
            .ok (some { entry := { typeTag := 6, nameOffset := 1 }, name := "b" }) := by
  obtain ⟨first, second, notText, _⟩ := get_nestedView
  obtain ⟨found, _, _, stable⟩ := find_exact parse_nestedNames "b"
  obtain ⟨_, reported, _, _⟩ := find_exact parse_nestedNames "x"
  have search : nestedView.find "b" =
      .ok (some { entry := { typeTag := 6, nameOffset := 1 }, name := "b" }) := by
    refine (found _).mpr ⟨1, by decide, second, rfl, fun position before => ?_⟩
    obtain rfl : position = 0 := by omega
    exact ⟨_, first, by decide⟩
  refine ⟨search, (reported _).mpr ⟨2, by decide, notText, fun position before => ?_⟩, ?_⟩
  · match position, before with
    | 0, _ => exact ⟨_, first, by decide⟩
    | 1, _ => exact ⟨_, second, by decide⟩
  · intro patch sized
    have stops : Stops "b" (nestedView.get 1) := second ▸ .named rfl
    obtain ⟨_, records⟩ := stable 1 (by decide) stops
    rw [← search]
    refine records 168 patch (by decide) ?_
    rw [sized]
    decide

end BoardBlob
