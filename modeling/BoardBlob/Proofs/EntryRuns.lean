import BoardBlob.Proofs.ReferenceLayout

/-!
# Runs of an entry buffer

What a buffer of entries holds after any run of calls, of which some may fail. A call works in
place: `pushInPlace` changes the buffer that it is given, and what it leaves there when it fails is
part of its result. The entries of the calls that fit, one after the other, are the invariant of a
run (`run_pushAll`); that a failing call leaves no byte behind is what keeps every later record at a
multiple of its size (`entryBuffer_atomic`).
-/
namespace BoardBlob.EntryBuffer

/-- What a call is asked to add: the entry of a device, whose position in its list a fault names. -/
structure Call where
  /-- Position of the device. -/
  index : Nat
  device : Device
  /-- Place of the name of the device. -/
  nameOffset : UInt32
  deriving DecidableEq, Repr

/-- Adds the entry of a device to the buffer at hand. The entry is made first, so the buffer is not
touched before the whole entry is known to fit. -/
def pushInPlace (call : Call) : ExceptT CompileFault (StateM EntryBuffer) Unit := do
  let entry ← call.device.encode call.index call.nameOffset
  modify fun buffer : EntryBuffer => { bytes := buffer.bytes.appendList entry.encode }

/-- Makes the calls one after the other, and gives the outcome of each. -/
def pushAll (calls : List Call) : StateM EntryBuffer (List (Except CompileFault Unit)) :=
  calls.mapM fun call => (pushInPlace call).run

namespace Call

/-- Both interrupt numbers fit their fields. -/
def Fits (call : Call) : Prop :=
  call.device.irqLane.toNat < UInt32.size ∧ call.device.irqPriority.toNat < UInt32.size

instance : DecidablePred Fits := fun call =>
  inferInstanceAs (Decidable (call.device.irqLane.toNat < UInt32.size ∧
    call.device.irqPriority.toNat < UInt32.size))

/-- The outcome of a call: the interrupt line is reported if it does not fit, and else the priority
if that does not, each with its whole value. -/
def outcome (call : Call) : Except CompileFault Unit :=
  if UInt32.size ≤ call.device.irqLane.toNat then
    .error (.encodingOverflow call.index call.device.name "irq_lane" call.device.irqLane.toNat)
  else if UInt32.size ≤ call.device.irqPriority.toNat then
    .error (.encodingOverflow call.index call.device.name "irq_priority"
      call.device.irqPriority.toNat)
  else .ok ()

/-- The entry that a call adds, if it fits. -/
def entry (call : Call) : Entry := call.device.entry call.nameOffset

variable {call : Call}

/-- A call fits when its device is not wide. -/
theorem fits_iff : call.Fits ↔ ¬call.device.Wide := Device.not_wide_iff.symm

/-- A call that fits makes its entry. -/
theorem encode_of_fits (fits : call.Fits) :
    call.device.encode call.index call.nameOffset = .ok call.entry :=
  Device.encode_of_not_wide (fits_iff.mp fits) call.index call.nameOffset

/-- A call that does not fit makes none, and has the fault of its device. -/
theorem encode_of_not_fits (wide : ¬call.Fits) :
    call.device.encode call.index call.nameOffset = .error (call.device.wideFault call.index) :=
  Device.encode_of_wide (not_not.mp (fits_iff.not.mp wide)) call.index call.nameOffset

/-- A call that fits succeeds. -/
theorem outcome_of_fits (fits : call.Fits) : call.outcome = .ok () := by
  rw [outcome, if_neg (Nat.not_le.mpr fits.1), if_neg (Nat.not_le.mpr fits.2)]

/-- A call that does not fit fails with the fault of its device. -/
theorem outcome_of_not_fits (wide : ¬call.Fits) :
    call.outcome = .error (call.device.wideFault call.index) := by
  rw [outcome, Device.wideFault]
  by_cases lane : UInt32.size ≤ call.device.irqLane.toNat
  · rw [if_pos lane, if_pos lane]
    rfl
  · have priority : UInt32.size ≤ call.device.irqPriority.toNat :=
      Nat.not_lt.mp fun small => wide ⟨Nat.not_le.mp lane, small⟩
    rw [if_neg lane, if_neg lane, if_pos priority]
    rfl

end Call

section Step

variable {call : Call}

/-- A call that fits leaves the buffer that `push` gives. -/
theorem run_pushInPlace_of_fits (fits : call.Fits) (buffer : EntryBuffer) :
    ∃ grown, buffer.push call.index call.device call.nameOffset = .ok grown ∧
      grown.finish = buffer.finish ++ call.entry.encode ∧
      (pushInPlace call).run.run buffer = (call.outcome, grown) := by
  refine ⟨{ bytes := buffer.bytes.appendList call.entry.encode }, ?_, ?_, ?_⟩
  · rw [push, call.encode_of_fits fits]
    rfl
  · simp [finish]
  · rw [pushInPlace, call.encode_of_fits fits, call.outcome_of_fits fits]
    rfl

/-- A call that does not fit leaves the buffer as it is, and has the fault of `push`. -/
theorem run_pushInPlace_of_not_fits (wide : ¬call.Fits) (buffer : EntryBuffer) :
    ∃ fault, buffer.push call.index call.device call.nameOffset = .error fault ∧
      call.outcome = .error fault ∧
      (pushInPlace call).run.run buffer = (call.outcome, buffer) := by
  refine ⟨_, ?_, call.outcome_of_not_fits wide, ?_⟩
  · rw [push, call.encode_of_not_fits wide]
    rfl
  · rw [pushInPlace, call.encode_of_not_fits wide, call.outcome_of_not_fits wide]
    rfl

end Step

/-! ## What a buffer holds -/

/-- The bytes of the buffer are those of the entries, one after the other. -/
def Holds (buffer : EntryBuffer) (entries : List Entry) : Prop :=
  buffer.finish = entries.flatMap Entry.encode

namespace Holds

variable {buffer : EntryBuffer} {entries : List Entry}

/-- An empty buffer holds no entries. -/
theorem empty : EntryBuffer.empty.Holds [] := rfl

/-- A buffer is as long as its entries together. -/
theorem length_finish (holds : buffer.Holds entries) :
    buffer.finish.length = Entry.size * entries.length := by
  rw [holds, length_flatMap_of_sized Entry.length_encode]

/-- A buffer counts its entries by its size, which is a multiple of that of an entry. -/
theorem count_eq (holds : buffer.Holds entries) : buffer.count = entries.length := by
  have sized := holds.length_finish
  rw [finish, Array.length_toList] at sized
  rw [count, sized]
  exact Nat.mul_div_cancel_left _ (by decide)

/-- The bytes of an entry stand at its position, and decode to it. -/
theorem exists_record (holds : buffer.Holds entries) {position : Nat} {entry : Entry}
    (here : entries[position]? = some entry) :
    ∃ record, slice? buffer.finish (position * Entry.size) (position * Entry.size + Entry.size) =
      some record ∧ Entry.decode record = some entry := by
  obtain ⟨inside, placed⟩ := List.getElem?_eq_some_iff.mp here
  have range := slice?_flatMap Entry.length_encode entries inside 0 (Nat.le_refl Entry.size)
  rw [Nat.add_zero, placed] at range
  have whole := slice?_whole entry.encode
  rw [Entry.length_encode] at whole
  exact ⟨entry.encode, by rw [holds, range, whole], entry.decode_encode⟩

end Holds

/-- A run of a first call and others is the call, and then the others on the buffer that it left. -/
theorem run_pushAll_cons (call : Call) (rest : List Call) (buffer : EntryBuffer) :
    (pushAll (call :: rest)).run buffer =
      (((pushInPlace call).run.run buffer).1 ::
          ((pushAll rest).run ((pushInPlace call).run.run buffer).2).1,
        ((pushAll rest).run ((pushInPlace call).run.run buffer).2).2) := by
  rw [pushAll, List.mapM_cons]
  rfl

/-- A run adds the entries of the calls that fit, in their order, and every call has its own outcome
whatever the calls before it were. -/
theorem run_pushAll (calls : List Call) {buffer : EntryBuffer} {entries : List Entry}
    (holds : buffer.Holds entries) :
    ∃ complete, (pushAll calls).run buffer = (calls.map Call.outcome, complete) ∧
      complete.Holds (entries ++ (calls.filter fun call => call.Fits).map Call.entry) := by
  -- A call that does not fit changes neither the buffer nor the entries that it holds.
  induction calls generalizing buffer entries with
  | nil => exact ⟨buffer, rfl, by simpa using holds⟩
  | cons call rest ih =>
    rw [run_pushAll_cons]
    by_cases fits : call.Fits
    · obtain ⟨grown, _, added, step⟩ := run_pushInPlace_of_fits fits buffer
      have holdsGrown : grown.Holds (entries ++ [call.entry]) := by
        rw [Holds, added, holds]
        simp
      obtain ⟨complete, run, holdsAll⟩ := ih holdsGrown
      exact ⟨complete, by rw [step, run, List.map_cons], by simpa [fits] using holdsAll⟩
    · obtain ⟨_, _, _, step⟩ := run_pushInPlace_of_not_fits fits buffer
      obtain ⟨complete, run, holdsAll⟩ := ih holds
      exact ⟨complete, by rw [step, run, List.map_cons], by simpa [fits] using holdsAll⟩

/-- A run of calls over an empty buffer, of which some may fail. A call fails exactly when one of
the two interrupt numbers of its device does not fit 32 bits; the line is reported before the
priority, with the position and the name of the device and the whole value. A call that fails leaves
the buffer and so its count as they were, at any point of any run; another one adds one entry. After
the run the count is that of the calls that did not fail, the bytes are 72 for each of them, and the
72 bytes at a position decode to the entry that the device of the call at that position is encoded
as, in which every field has the number of the device. -/
theorem entryBuffer_atomic (calls : List Call) :
    ∃ buffer, (pushAll calls).run empty = (calls.map Call.outcome, buffer) ∧
      (∀ call : Call,
        (¬call.Fits → ∃ fault, call.outcome = .error fault ∧
          buffer.push call.index call.device call.nameOffset = .error fault ∧
          (pushInPlace call).run.run buffer = (.error fault, buffer)) ∧
        (call.Fits → ∃ grown, call.outcome = .ok () ∧
          buffer.push call.index call.device call.nameOffset = .ok grown ∧
          (pushInPlace call).run.run buffer = (.ok (), grown) ∧
          grown.count = buffer.count + 1)) ∧
      buffer.count = (calls.filter fun call => call.Fits).length ∧
      buffer.finish.length = 72 * buffer.count ∧
      ∀ (position : Nat) (call : Call),
        (calls.filter fun call => call.Fits)[position]? = some call →
        ∃ record entry,
          slice? buffer.finish (position * 72) (position * 72 + 72) = some record ∧
          Entry.decode record = some entry ∧
          call.device.encode call.index call.nameOffset = .ok entry ∧
          Entry.fields.zip entry.values = call.device.recordTable call.nameOffset.toNat := by
  obtain ⟨buffer, run, holds⟩ := run_pushAll calls Holds.empty
  rw [List.nil_append] at holds
  refine ⟨buffer, run, fun call => ⟨fun wide => ?fails, fun fits => ?adds⟩, ?count, ?length,
    fun position call here => ?record⟩
  case fails =>
    obtain ⟨fault, pushed, failed, step⟩ := run_pushInPlace_of_not_fits wide buffer
    exact ⟨fault, failed, pushed, failed ▸ step⟩
  case adds =>
    obtain ⟨grown, pushed, added, step⟩ := run_pushInPlace_of_fits fits buffer
    have holdsGrown : grown.Holds
        ((calls.filter fun call => call.Fits).map Call.entry ++ [call.entry]) := by
      rw [Holds, added, holds]
      simp
    refine ⟨grown, call.outcome_of_fits fits, pushed, call.outcome_of_fits fits ▸ step, ?_⟩
    rw [holdsGrown.count_eq, holds.count_eq, List.length_append, List.length_singleton]
  case count => rw [holds.count_eq, List.length_map]
  case length => rw [holds.length_finish, holds.count_eq, Entry.size]
  case record =>
    have placed : ((calls.filter fun call => call.Fits).map Call.entry)[position]? =
        some call.entry := by
      rw [List.getElem?_map, here, Option.map_some]
    have fits : call.Fits := by
      simpa using (List.mem_filter.mp (List.mem_of_getElem? here)).2
    obtain ⟨record, range, decoded⟩ := holds.exists_record placed
    exact ⟨record, call.entry, range, decoded, call.encode_of_fits fits,
      Device.zip_values_entry (Call.fits_iff.mp fits) call.nameOffset⟩

/-- A call in which neither number fits. -/
def wideCall : Call where
  index := 7
  device := { kind := .rtc, name := "wide", irqLane := 0x100000000, irqPriority := 0x100000001 }
  nameOffset := 0

/-- The call that does not fit between two that do, of which the first has both numbers at the
bound. -/
def boundaryCalls : List Call :=
  [ { index := 0
      device := { kind := .uart, name := "", irqLane := 0xffffffff, irqPriority := 0xffffffff }
      nameOffset := 5 },
    wideCall,
    { index := 1, device := { kind := .rtc, name := "r", flags := 0x80 }, nameOffset := 0 } ]

/-- The call between the two fails for its interrupt line and leaves no byte behind: the buffer
holds two records, of which the second is that of the last call. Making the call again changes
nothing. -/
theorem entryBuffer_atomic_boundaryCalls :
    ∃ buffer,
      (pushAll boundaryCalls).run empty =
        ([.ok (), .error (.encodingOverflow 7 "wide" "irq_lane" 0x100000000), .ok ()], buffer) ∧
      buffer.count = 2 ∧ buffer.finish.length = 144 ∧
      (pushInPlace wideCall).run.run buffer =
        (.error (.encodingOverflow 7 "wide" "irq_lane" 0x100000000), buffer) ∧
      ∃ record, slice? buffer.finish 72 144 = some record ∧
        Entry.decode record = some { typeTag := 6, flags := 0x80 } := by
  obtain ⟨buffer, run, further, count, length, records⟩ := entryBuffer_atomic boundaryCalls
  have outcomes : boundaryCalls.map Call.outcome =
      [.ok (), .error (.encodingOverflow 7 "wide" "irq_lane" 0x100000000), .ok ()] := by
    decide +kernel
  have again : wideCall.outcome =
      .error (.encodingOverflow 7 "wide" "irq_lane" 0x100000000) := by decide +kernel
  have two : (boundaryCalls.filter fun call => call.Fits).length = 2 := by decide
  obtain ⟨fault, failed, _, kept⟩ := (further wideCall).1 (by decide)
  obtain ⟨record, entry, range, decoded, encoded, _⟩ := records 1 _ rfl
  rw [again, Except.error.injEq] at failed
  refine ⟨buffer, outcomes ▸ run, count.trans two, ?_, failed ▸ kept, record, range, ?_⟩
  · rw [length, count, two]
  · rw [decoded]
    cases encoded
    rfl

end BoardBlob.EntryBuffer
