import Mathlib.Data.List.Nodup
import BoardBlob.Proofs.AcceptedView

/-!
# Going through the entries

A cursor gives the entries of a blob one after the other, and past the last one it gives nothing,
however often it is asked. `after` is the cursor that some calls leave: the item that it gives next
is the one at that position of `entries` (`Cursor.item?_after`), so a search and the devices of a
kind, which go through that list, go through the items of the cursor. The devices of a kind are
told by their positions. A fault has a position in the list of every kind, and a device in that of
its own kind, if its tag stands for one (`iteration_complete`).
-/
namespace BoardBlob

/-! ## The calls of a cursor -/

namespace Cursor

/-- The item that a call gives. -/
def item? (cursor : Cursor) : Option (Except LoadFault LoadedDevice) := cursor.next.map Prod.fst

/-- The cursor that a call leaves. Past the last entry it stays where it is. -/
def rest (cursor : Cursor) : Cursor :=
  match cursor.next with
  | none => cursor
  | some (_, later) => later

/-- The cursor that a count of calls leaves. -/
def after (cursor : Cursor) : Nat → Cursor
  | 0 => cursor
  | calls + 1 => (cursor.after calls).rest

/-- A call gives the entry at the position of the cursor. -/
theorem item?_eq (cursor : Cursor) : cursor.item? = cursor.view.entries[cursor.index]? := by
  rw [item?, next_eq, Option.map_map]
  exact Option.map_id'

/-- A call moves a cursor by one entry, as long as there is one. -/
theorem rest_eq (view : BlobView) (calls : Nat) :
    rest { view := view, index := min calls view.size } =
      { view := view, index := min (calls + 1) view.size } := by
  by_cases inside : calls < view.size
  · have here : min calls view.size = calls := Nat.min_eq_left (Nat.le_of_lt inside)
    have later : min (calls + 1) view.size = calls + 1 := Nat.min_eq_left inside
    rw [here, later, rest, next, if_neg (Nat.not_le.mpr inside)]
  · have outside : view.size ≤ calls := Nat.not_lt.mp inside
    have here : min calls view.size = view.size := Nat.min_eq_right outside
    have later : min (calls + 1) view.size = view.size := by omega
    rw [here, later, rest, next, if_pos (Nat.le_refl view.size)]

/-- Some calls move a cursor by as many entries, but never past the end. -/
theorem after_eq (view : BlobView) (calls : Nat) :
    view.cursor.after calls = { view := view, index := min calls view.size } := by
  induction calls with
  | zero => rw [after, BlobView.cursor, Nat.zero_min]
  | succ calls ih => rw [after, ih, rest_eq]

/-- After some calls, the next item is the entry that comes after as many. -/
theorem item?_after (view : BlobView) (calls : Nat) :
    (view.cursor.after calls).item? = view.entries[calls]? := by
  rw [after_eq, item?_eq, BlobView.getElem?_entries, BlobView.getElem?_entries]
  by_cases inside : calls < view.size
  · rw [Nat.min_eq_left (Nat.le_of_lt inside)]
  · rw [Nat.min_eq_right (Nat.not_lt.mp inside), if_neg (Nat.lt_irrefl view.size), if_neg inside]

/-- After some calls, the entries that are left are the others. -/
theorem remaining_after (view : BlobView) (calls : Nat) :
    (view.cursor.after calls).remaining = view.size - calls := by
  rw [after_eq, remaining]
  change view.size - min calls view.size = view.size - calls
  omega

end Cursor

/-! ## The devices of a kind -/

/-- An entry is listed with a kind when it cannot be read, or has the tag of the kind. -/
def Listed (kind : DeviceKind) : Except LoadFault LoadedDevice → Prop
  | .error _ => True
  | .ok device => device.entry.typeTag = kind.tag

instance (kind : DeviceKind) : DecidablePred (Listed kind)
  | .error _ => inferInstanceAs (Decidable True)
  | .ok device => inferInstanceAs (Decidable (device.entry.typeTag = kind.tag))

namespace BlobView

variable {view : BlobView} {kind : DeviceKind} {index : Nat}

/-- The positions of the entries that are listed with a kind, in blob order. -/
def positionsOf (view : BlobView) (kind : DeviceKind) : List Nat :=
  (List.range view.size).filter fun index => Listed kind (view.get index)

/-- The devices of a kind are the entries that are listed with it. -/
theorem ofKind_eq_map (view : BlobView) (kind : DeviceKind) :
    view.ofKind kind = (view.positionsOf kind).map view.get := by
  rw [ofKind, entries, positionsOf, List.filter_map]
  congr 1
  refine List.filter_congr fun index _ => ?_
  rw [Function.comp_apply, Bool.eq_iff_iff, decide_eq_true_iff]
  cases view.get index with
  | error fault => simp [Listed]
  | ok device => simp [Listed, Entry.kind?, DeviceKind.ofTag?_eq_some_iff]

/-- A position is listed with a kind when an entry is there that is. -/
theorem mem_positionsOf :
    index ∈ view.positionsOf kind ↔ index < view.size ∧ Listed kind (view.get index) := by
  simp [positionsOf]

/-- The positions of a kind are in blob order. -/
theorem pairwise_positionsOf (view : BlobView) (kind : DeviceKind) :
    (view.positionsOf kind).Pairwise (· < ·) :=
  List.pairwise_lt_range.filter _

/-- No position is listed twice with a kind. -/
theorem count_positionsOf (inside : index < view.size) :
    (view.positionsOf kind).count index = if Listed kind (view.get index) then 1 else 0 := by
  have distinct : (view.positionsOf kind).Nodup :=
    (pairwise_positionsOf view kind).imp Nat.ne_of_lt
  by_cases listed : Listed kind (view.get index)
  · rw [if_pos listed, List.count_eq_one_of_mem distinct (mem_positionsOf.mpr ⟨inside, listed⟩)]
  · have absent : index ∉ view.positionsOf kind := fun member =>
      listed (mem_positionsOf.mp member).2
    rw [if_neg listed, List.count_eq_zero_of_not_mem absent]

end BlobView

/-- Going through the entries of a view loses none and gives none twice. After some calls, the next
item is the entry at that position, or nothing once there is none; and the size hint is the count of
the calls that still give an item. The devices of a kind are, in blob order, the entries that cannot
be read or have the tag of the kind. So every entry that cannot be read is listed once with every
kind, every device whose tag stands for a kind is listed once with that kind and not with another,
and a device with any other tag is listed with none. -/
theorem iteration_complete (view : BlobView) :
    (∀ calls, (view.cursor.after calls).item? =
      if calls < view.size then some (view.get calls) else none) ∧
    (∀ calls, ∃ count, (view.cursor.after calls).sizeHint = (count, some count) ∧
      ∀ later, (view.cursor.after (calls + later)).item?.isSome ↔ later < count) ∧
    (∀ kind, view.ofKind kind = (view.positionsOf kind).map view.get ∧
      (view.positionsOf kind).Pairwise (· < ·) ∧
      ∀ index, index ∈ view.positionsOf kind ↔
        index < view.size ∧ Listed kind (view.get index)) ∧
    ∀ index < view.size,
      (∀ fault, view.get index = .error fault →
        ∀ kind, (view.positionsOf kind).count index = 1) ∧
      ∀ device, view.get index = .ok device →
        (∀ kind, device.entry.typeTag = kind.tag →
          ∀ other, (view.positionsOf other).count index = if other = kind then 1 else 0) ∧
        ((∀ kind : DeviceKind, device.entry.typeTag ≠ kind.tag) →
          ∀ kind, index ∉ view.positionsOf kind) := by
  refine ⟨?calls, ?hint, ?kinds, ?across⟩
  case calls =>
    intro calls
    rw [Cursor.item?_after, BlobView.getElem?_entries]
  case hint =>
    intro calls
    refine ⟨view.size - calls, by rw [Cursor.sizeHint, Cursor.remaining_after], fun later => ?_⟩
    rw [Cursor.item?_after, BlobView.getElem?_entries, Option.isSome_ite]
    omega
  case kinds =>
    exact fun kind => ⟨view.ofKind_eq_map kind, view.pairwise_positionsOf kind,
      fun _ => BlobView.mem_positionsOf⟩
  case across =>
    intro index inside
    constructor
    · intro fault unread kind
      rw [BlobView.count_positionsOf inside, unread]
      exact if_pos trivial
    · intro device read
      constructor
      · intro kind known other
        rw [BlobView.count_positionsOf inside, read]
        simp only [Listed, known, DeviceKind.tag_inj, eq_comm]
      · intro unknown kind member
        obtain ⟨_, listed⟩ := BlobView.mem_positionsOf.mp member
        rw [read] at listed
        exact unknown kind listed

/-- The view of a blob of three entries: a device, an entry whose tag stands for no kind, and one
whose name is past the table. -/
def mixedEntries : BlobView where
  bytes := Layout.assemble (.current 3 240 0)
    ([{ typeTag := 2 }, { typeTag := 9 }, { typeTag := 2, nameOffset := 7 }].flatMap Entry.encode)
    [0x61, 0]
  header := .current 3 240 0

/-- What is read at the three positions. -/
theorem get_mixedEntries :
    mixedEntries.get 0 = .ok { entry := { typeTag := 2 }, name := "a" } ∧
      mixedEntries.get 1 = .ok { entry := { typeTag := 9 }, name := "a" } ∧
      mixedEntries.get 2 = .error (.nameOutOfRange 7) := by
  decide +kernel

/-- The third call gives the fault, and later calls nothing. The device is listed with its kind
alone, the second entry with no kind, and the fault with every kind. -/
theorem iteration_complete_mixedEntries :
    (mixedEntries.cursor.after 2).item? = some (.error (.nameOutOfRange 7)) ∧
      (∀ calls, 3 ≤ calls → (mixedEntries.cursor.after calls).item? = none) ∧
      (∀ kind, (mixedEntries.positionsOf kind).count 0 = if kind = .uart then 1 else 0) ∧
      (∀ kind, 1 ∉ mixedEntries.positionsOf kind) ∧
      ∀ kind, (mixedEntries.positionsOf kind).count 2 = 1 := by
  obtain ⟨calls, _, _, across⟩ := iteration_complete mixedEntries
  obtain ⟨first, second, third⟩ := get_mixedEntries
  refine ⟨?_, ?_, ?_, ?_, ?_⟩
  · rw [calls, third]
    rfl
  · exact fun count past => (calls count).trans (if_neg (Nat.not_lt.mpr past))
  · exact ((across 0 (by decide)).2 _ first).1 .uart rfl
  · refine ((across 1 (by decide)).2 _ second).2 fun kind => ?_
    cases kind <;> decide
  · exact (across 2 (by decide)).1 _ third

end BoardBlob
