import BoardBlob.Text.AsciiCase

/-!
# Device kinds

The closed list of device kinds, each with the tag that a record stores and the name that a board
and a listing write. A board may write a name in any ASCII letter case, and `FB` for a framebuffer.
-/

namespace BoardBlob

/-- What a device is. -/
inductive DeviceKind where
  | io
  | framebuffer
  | uart
  | ram
  | storage
  | busController
  | rtc
  deriving DecidableEq, Repr

namespace DeviceKind

/-- Every kind, in the order of the tags. -/
def all : List DeviceKind := [io, framebuffer, uart, ram, storage, busController, rtc]

/-- The tag stored in a record. -/
def tag : DeviceKind → UInt32
  | io => 0
  | framebuffer => 1
  | uart => 2
  | ram => 3
  | storage => 4
  | busController => 5
  | rtc => 6

/-- The kind that a stored tag stands for. -/
def ofTag? (stored : UInt32) : Option DeviceKind := all.find? fun kind => kind.tag == stored

/-- The canonical name. -/
def name : DeviceKind → String
  | io => "IO"
  | framebuffer => "FRAMEBUFFER"
  | uart => "UART"
  | ram => "RAM"
  | storage => "STORAGE"
  | busController => "BUS_CONTROLLER"
  | rtc => "RTC"

/-- The second name that a board may use for a framebuffer. -/
def framebufferAlias : String := "FB"

/-- The kind that a written name stands for. -/
def ofName? (written : String) : Option DeviceKind :=
  if AsciiCase.same written framebufferAlias then some framebuffer
  else all.find? fun kind => AsciiCase.same kind.name written

/-- Every kind is listed. -/
theorem mem_all (kind : DeviceKind) : kind ∈ all := by cases kind <;> decide

/-- A kind is found again by its tag. -/
@[simp]
theorem ofTag?_tag (kind : DeviceKind) : ofTag? kind.tag = some kind := by cases kind <;> decide

/-- A tag that stands for a kind is that kind's tag. -/
theorem tag_of_ofTag? {stored : UInt32} {kind : DeviceKind} (found : ofTag? stored = some kind) :
    kind.tag = stored := by
  have passes := List.find?_some found
  simpa using passes

/-- A tag stands for a kind exactly when it is that kind's tag. -/
theorem ofTag?_eq_some_iff {stored : UInt32} {kind : DeviceKind} :
    ofTag? stored = some kind ↔ stored = kind.tag := by
  constructor
  · exact fun found => (tag_of_ofTag? found).symm
  · rintro rfl
    exact ofTag?_tag kind

/-- Different kinds have different tags. -/
theorem tag_inj {kind other : DeviceKind} : kind.tag = other.tag ↔ kind = other := by
  rw [← ofTag?_eq_some_iff, ofTag?_tag, Option.some.injEq]

/-- The tags of the kinds are the numbers up to six. -/
theorem exists_tag_iff {number : Nat} :
    (∃ kind : DeviceKind, kind.tag.toNat = number) ↔ number ≤ 6 := by
  constructor
  · rintro ⟨kind, rfl⟩
    cases kind <;> decide
  · intro small
    have every : ∀ number ≤ 6, ∃ kind ∈ all, kind.tag.toNat = number := by decide
    obtain ⟨kind, _, own⟩ := every number small
    exact ⟨kind, own⟩

/-- A stored tag stands for no kind exactly when it is past the tags of the kinds. -/
theorem ofTag?_eq_none_iff {stored : UInt32} : ofTag? stored = none ↔ 6 < stored.toNat := by
  rw [← Nat.not_le, ← exists_tag_iff]
  constructor
  · rintro unfound ⟨kind, own⟩
    rw [← UInt32.toNat_inj.mp own, ofTag?_tag] at unfound
    contradiction
  · intro absent
    refine Option.eq_none_iff_forall_ne_some.mpr fun kind found => ?_
    exact absent ⟨kind, congrArg UInt32.toNat (tag_of_ofTag? found)⟩

/-- A kind is found again by its name. -/
theorem ofName?_name (kind : DeviceKind) : ofName? kind.name = some kind := by
  cases kind <;> decide

end DeviceKind

end BoardBlob
