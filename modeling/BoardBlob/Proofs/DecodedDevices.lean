import BoardBlob.Blob.Decompile
import BoardBlob.Proofs.FirstFault

/-!
# The devices that entries stand for

`deviceOf` is what decompiling makes of one entry. A list of entries stands for a list of devices
exactly when every entry stands for the device at its position (`devicesOf_eq_ok_iff`), and else the
fault of the first entry that stands for none is reported (`devicesOf_of_firstAt`).
-/
namespace BoardBlob

/-- The device that one entry stands for, or what is wrong with the entry. -/
def deviceOf : Except LoadFault LoadedDevice → Except LoadFault Device
  | .error fault => .error fault
  | .ok loaded => loaded.kind.map loaded.toDevice

/-- The devices of a list are those of its head and its tail, unless one of the two has a fault. -/
theorem devicesOf_cons (entry : Except LoadFault LoadedDevice)
    (rest : List (Except LoadFault LoadedDevice)) :
    devicesOf (entry :: rest) =
      match deviceOf entry with
      | .error fault => .error fault
      | .ok device => (devicesOf rest).map fun devices => device :: devices := by
  cases entry with
  | error fault => rfl
  | ok loaded =>
    cases kind : loaded.kind with
    | error fault => simp [devicesOf, deviceOf, kind, Except.map]
    | ok known =>
      simp only [devicesOf, deviceOf, kind, Except.map]
      cases devicesOf rest <;> rfl

/-- A list of entries stands for a list of devices exactly when every entry stands for the device at
its position. -/
theorem devicesOf_eq_ok_iff {entries : List (Except LoadFault LoadedDevice)}
    {devices : List Device} :
    devicesOf entries = .ok devices ↔ entries.map deviceOf = devices.map .ok := by
  induction entries generalizing devices with
  | nil => cases devices <;> simp [devicesOf]
  | cons entry rest ih =>
    rw [devicesOf_cons, List.map_cons]
    cases here : deviceOf entry with
    | error fault => cases devices <;> simp
    | ok device =>
      cases devices with
      | nil => cases devicesOf rest <;> simp [Except.map]
      | cons head tail =>
        have later := @ih tail
        cases found : devicesOf rest with
        | error fault =>
          rw [found] at later
          simpa [Except.map] using fun _ => later
        | ok decoded =>
          rw [found] at later
          simpa [Except.map] using fun _ => later

/-- The fault of the first entry that stands for no device is the fault of the list. -/
theorem devicesOf_of_firstAt {entries : List (Except LoadFault LoadedDevice)} {index : Nat}
    {entry : Except LoadFault LoadedDevice} {fault : LoadFault}
    (first : FirstAt (fun _ entry => ∃ fault, deviceOf entry = .error fault) entries index entry)
    (failed : deviceOf entry = .error fault) : devicesOf entries = .error fault := by
  induction entries generalizing index with
  | nil => exact absurd first.here (by simp)
  | cons head rest ih =>
    rw [devicesOf_cons]
    cases index with
    | zero =>
      obtain rfl : head = entry := Option.some.inj first.here
      rw [failed]
    | succ index =>
      obtain ⟨pass, later⟩ := first.tail
      cases decoded : deviceOf head with
      | error other => exact absurd ⟨other, decoded⟩ pass
      | ok device =>
        rw [ih later]
        rfl

/-- A fault of a list is that of the first entry that stands for no device. -/
theorem exists_firstAt_of_devicesOf {entries : List (Except LoadFault LoadedDevice)}
    {fault : LoadFault} (failed : devicesOf entries = .error fault) :
    ∃ index entry, FirstAt (fun _ entry => ∃ fault, deviceOf entry = .error fault) entries index
      entry ∧ deviceOf entry = .error fault := by
  induction entries with
  | nil => simp [devicesOf] at failed
  | cons head rest ih =>
    rw [devicesOf_cons] at failed
    cases here : deviceOf head with
    | error found =>
      rw [here] at failed
      cases failed
      exact ⟨0, head, FirstAt.of_head ⟨fault, here⟩, here⟩
    | ok device =>
      cases later : devicesOf rest with
      | ok devices => simp [here, later, Except.map] at failed
      | error found =>
        simp only [here, later, Except.map, Except.error.injEq] at failed
        subst failed
        obtain ⟨index, entry, first, bad⟩ := ih later
        exact ⟨index + 1, entry, FirstAt.of_tail (by simp [here]) first, bad⟩

end BoardBlob
