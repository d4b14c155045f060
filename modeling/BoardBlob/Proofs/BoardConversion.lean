import BoardBlob.Board.Document
import BoardBlob.Proofs.AuxSources

/-!
# The conversion of a board

A device as written stands for a device when every part of it stands for the part of that device:
`BoardDevice.StandsFor`. The conversion takes the parts in eight steps, and `StepFault` says which
fault a step has. A board is converted to the devices that its devices stand for, and else it has
the fault of the first step that fails in the first device that stands for none
(`Board.toDevices_exact`). How often, in which order and in which case the flags of a device are
written is the same to it (`Board.devicesFrom_agrees`).
-/
namespace BoardBlob

open Conversion (auxSources)

/-! ## The parts of a device -/

namespace BoardDevice

/-- The start of the region as written. Without a region it is zero. -/
def regionBase (written : BoardDevice) : Quantity := written.region.elim (.whole 0) Region.base

/-- The length of the region as written. Without a region it is zero. -/
def regionSize (written : BoardDevice) : Quantity := written.region.elim (.whole 0) Region.size

/-- The interrupt line as written. Without an interrupt it is zero. -/
def irqLane (written : BoardDevice) : Quantity := written.interrupt.elim (.whole 0) Interrupt.lane

/-- The interrupt flags as written. Without an interrupt there are none. -/
def irqFlags (written : BoardDevice) : List String := written.interrupt.elim [] Interrupt.flags

/-- The interrupt priority as written. Without an interrupt it is zero. -/
def irqPriority (written : BoardDevice) : Quantity :=
  written.interrupt.elim (.whole 0) Interrupt.priority

/-- A device as written stands for a device. -/
structure StandsFor (written : BoardDevice) (device : Device) : Prop where
  name : device.name = written.name
  kind : written.kind.StandsFor device.kind
  knownFlags : ∀ flag ∈ written.flags, (deviceFlagFamily.ofName? flag).isSome
  flags : device.flags = deviceFlagFamily.union written.flags
  regionBase : written.regionBase.value? = some device.regionBase
  regionSize : written.regionSize.value? = some device.regionSize
  irqLane : written.irqLane.value? = some device.irqLane
  knownIrqFlags : ∀ flag ∈ written.irqFlags, (irqFlagFamily.ofName? flag).isSome
  irqFlags : device.irqFlags = irqFlagFamily.union written.irqFlags
  irqPriority : written.irqPriority.value? = some device.irqPriority
  sources : device.kind.Sound (auxSources written)
  aux : ∀ slot, device.kind.SlotValue (auxSources written) slot (device.aux.get slot)

end BoardDevice

/-! ## Steps -/

namespace Conversion

/-- A step of the conversion of a device. -/
inductive Step where
  | kind
  | flags
  | regionBase
  | regionSize
  | irqLane
  | irqFlags
  | irqPriority
  | aux
  deriving DecidableEq, Repr

namespace Step

/-- All steps, in their order. -/
def all : List Step :=
  [kind, flags, regionBase, regionSize, irqLane, irqFlags, irqPriority, aux]

/-- The number that a step converts, with the name of its field. -/
def number? (written : BoardDevice) : Step → Option (String × Quantity)
  | regionBase => some ("region_base", written.regionBase)
  | regionSize => some ("region_size", written.regionSize)
  | irqLane => some ("irq_lane", written.irqLane)
  | irqPriority => some ("irq_priority", written.irqPriority)
  | kind | flags | irqFlags | aux => none

/-- Flags as written, with the name of their field and the fault of an unknown one. -/
structure Flags where
  family : FlagFamily
  field : String
  unknown : String → RangeFault
  names : List String

/-- The flags that a step converts. -/
def flags? (written : BoardDevice) : Step → Option Flags
  | flags => some ⟨deviceFlagFamily, "flags", .unknownFlag, written.flags⟩
  | irqFlags => some ⟨irqFlagFamily, "irq_flags", .unknownIrqFlag, written.irqFlags⟩
  | kind | regionBase | regionSize | irqLane | irqPriority | aux => none

end Step

/-- What is wrong with the part of a device that a step converts. -/
inductive StepFault (conversion : Conversion) (written : BoardDevice) : Step → DeviceFault → Prop
  where
  | unknownKind (unknown : ∀ kind, ¬written.kind.StandsFor kind) :
      StepFault conversion written .kind
        (.unknownKind conversion.index conversion.name written.kind.shown)
  | unknownFlag {step : Step} {part : Step.Flags} {position : Nat} {name : String}
      (own : step.flags? written = some part)
      (first : FirstAt (fun _ name => part.family.ofName? name = none) part.names position name) :
      StepFault conversion written step
        (.fieldOutOfRange conversion.index conversion.name part.field (part.unknown name))
  | notANumber {step : Step} {field text : String}
      (own : step.number? written = some (field, .text text))
      (unread : (Quantity.text text).value? = none) :
      StepFault conversion written step
        (.fieldOutOfRange conversion.index conversion.name field (.notANumber text))
  | badSource {kind : DeviceKind} {position : Nat} {source : AuxSource} {fault : DeviceFault}
      (known : written.kind.StandsFor kind)
      (first : FirstAt (conversion.AtFault kind (auxSources written)) (auxSources written) position
        source)
      (wrong : conversion.SourceFault kind ((auxSources written).take position) source fault) :
      StepFault conversion written .aux fault

/-- A fault is that of the first of some steps that has one. -/
def FirstFault (conversion : Conversion) (written : BoardDevice) (steps : List Step)
    (fault : DeviceFault) : Prop :=
  ∃ position step,
    FirstAt (fun _ step => ∃ other, conversion.StepFault written step other) steps position step ∧
      conversion.StepFault written step fault

variable {conversion : Conversion} {written : BoardDevice} {step : Step} {steps : List Step}
  {fault : DeviceFault} {α β : Type}

/-- The first fault of some steps is that of the head, or, when it has none, that of the others. -/
theorem firstFault_cons_iff : conversion.FirstFault written (step :: steps) fault ↔
    conversion.StepFault written step fault ∨
      (∀ other, ¬conversion.StepFault written step other) ∧
        conversion.FirstFault written steps fault := by
  constructor
  · rintro ⟨position, found, first, wrong⟩
    cases position with
    | zero =>
      cases first.here
      exact Or.inl wrong
    | succ position =>
      obtain ⟨pass, later⟩ := first.tail
      exact Or.inr ⟨not_exists.mp pass, position, found, later, wrong⟩
  · rintro (wrong | ⟨pass, position, found, first, wrong⟩)
    · exact ⟨0, step, .of_head ⟨fault, wrong⟩, wrong⟩
    · exact ⟨position + 1, found, .of_tail (not_exists.mpr pass) first, wrong⟩

/-- A step before the others: its own fault ends the conversion, and without one they follow. -/
theorem bind_eq_error_iff {part : Except DeviceFault α} {next : α → Except DeviceFault β}
    (own : ∀ fault, part = .error fault ↔ conversion.StepFault written step fault)
    (later : ∀ value, part = .ok value →
      (next value = .error fault ↔ conversion.FirstFault written steps fault)) :
    part >>= next = .error fault ↔ conversion.FirstFault written (step :: steps) fault := by
  rw [firstFault_cons_iff, ← own]
  simp only [← own]
  cases part with
  | error other => simp [bind, Except.bind]
  | ok value =>
    have follows := later value rfl
    simp [bind, Except.bind, follows]

/-- The type has a fault when the first step has it. -/
theorem kind_eq_error_iff_stepFault :
    conversion.kind written.kind = .error fault ↔ conversion.StepFault written .kind fault := by
  rw [kind_eq_error_iff]
  constructor
  · rintro ⟨unknown, rfl⟩
    exact .unknownKind unknown
  · intro wrong
    cases wrong with
    | unknownKind unknown => exact ⟨unknown, rfl⟩
    | unknownFlag own => cases own
    | notANumber own => cases own

/-- Flags have a fault when their step has it. -/
theorem flags_eq_error_iff_stepFault {family : FlagFamily} {field : Field}
    {unknown : String → RangeFault} {word : UInt32} {names : List String}
    (own : step.flags? written = some ⟨family, field.name, unknown, names⟩) :
    conversion.flags family field unknown word names = .error fault ↔
      conversion.StepFault written step fault := by
  rw [flags_eq_error_iff]
  constructor
  · rintro ⟨position, name, first, rfl⟩
    exact .unknownFlag own first
  · intro wrong
    cases wrong with
    | unknownKind => cases own
    | unknownFlag ownToo first =>
      obtain rfl := Option.some.inj (own.symm.trans ownToo)
      exact ⟨_, _, first, rfl⟩
    | notANumber ownNumber => cases step <;> first | cases own | cases ownNumber
    | badSource => cases own

/-- A number has a fault when its step has it. -/
theorem number_eq_error_iff_stepFault {field : Field} {quantity : Quantity}
    (own : step.number? written = some (field.name, quantity)) :
    conversion.number field quantity = .error fault ↔
      conversion.StepFault written step fault := by
  rw [number_eq_error_iff]
  constructor
  · rintro ⟨text, rfl, unread, rfl⟩
    exact .notANumber own unread
  · intro wrong
    cases wrong with
    | unknownKind => cases own
    | unknownFlag ownFlags => cases step <;> first | cases own | cases ownFlags
    | @notANumber _ _ text ownToo unread =>
      obtain ⟨rfl, rfl⟩ := Prod.mk.inj (Option.some.inj (own.symm.trans ownToo))
      exact ⟨text, rfl, unread, rfl⟩
    | badSource => cases own

/-- The auxiliary values have a fault when the last step has it. -/
theorem aux_eq_error_iff_stepFault {kind : DeviceKind} (known : written.kind.StandsFor kind) :
    conversion.aux kind written = .error fault ↔ conversion.StepFault written .aux fault := by
  rw [aux_eq_error_iff]
  constructor
  · rintro ⟨position, source, first, wrong⟩
    exact .badSource known first wrong
  · intro wrong
    cases wrong with
    | unknownFlag own => cases own
    | notANumber own => cases own
    | badSource knownToo first wrong =>
      have found := KindTag.kind?_eq_some_iff.mpr known
      have foundToo := KindTag.kind?_eq_some_iff.mpr knownToo
      obtain rfl := Option.some.inj (found.symm.trans foundToo)
      exact ⟨_, _, first, wrong⟩

/-! ## A device -/

/-- The conversion of a device, by its parts as written. -/
theorem device_eq (conversion : Conversion) (written : BoardDevice) :
    conversion.device written = (do
      let kind ← conversion.kind written.kind
      let flags ← conversion.flags deviceFlagFamily Entry.flagsField .unknownFlag 0 written.flags
      let regionBase ← conversion.number Entry.regionBaseField written.regionBase
      let regionSize ← conversion.number Entry.regionSizeField written.regionSize
      let irqLane ← conversion.number Entry.irqLaneField written.irqLane
      let irqFlags ←
        conversion.flags irqFlagFamily Entry.irqFlagsField .unknownIrqFlag 0 written.irqFlags
      let irqPriority ← conversion.number Entry.irqPriorityField written.irqPriority
      let aux ← conversion.aux kind written
      .ok {
        kind := kind
        name := written.name
        flags := flags
        regionBase := regionBase
        regionSize := regionSize
        irqLane := irqLane
        irqFlags := irqFlags
        irqPriority := irqPriority
        aux := aux }) := by
  unfold device BoardDevice.regionBase BoardDevice.regionSize BoardDevice.irqLane
    BoardDevice.irqFlags BoardDevice.irqPriority
  cases written.region <;> cases written.interrupt <;> rfl

/-- A device is converted to the one that it stands for. -/
theorem device_eq_ok_iff {device : Device} :
    conversion.device written = .ok device ↔ written.StandsFor device := by
  simp only [device_eq, bind_eq_ok_iff, kind_eq_ok_iff, flags_eq_ok_iff, number_eq_ok_iff,
    aux_eq_ok_iff, Except.ok.injEq]
  constructor
  · rintro ⟨kind, stands, flags, ⟨known, union⟩, base, baseRead, size, sizeRead, lane, laneRead,
      irqFlags, ⟨knownIrq, irqUnion⟩, priority, priorityRead, aux, ⟨sound, values⟩, rfl⟩
    exact {
      name := rfl
      kind := stands
      knownFlags := known
      flags := union.symm
      regionBase := baseRead
      regionSize := sizeRead
      irqLane := laneRead
      knownIrqFlags := knownIrq
      irqFlags := irqUnion.symm
      irqPriority := priorityRead
      sources := sound
      aux := values }
  · intro stands
    refine ⟨_, stands.kind, _, ⟨stands.knownFlags, rfl⟩, _, stands.regionBase, _,
      stands.regionSize, _, stands.irqLane, _, ⟨stands.knownIrqFlags, rfl⟩, _,
      stands.irqPriority, _, ⟨stands.sources, stands.aux⟩, ?_⟩
    have flags := stands.flags
    have irqFlags := stands.irqFlags
    rw [FlagFamily.union] at flags irqFlags
    rw [← stands.name, ← flags, ← irqFlags]

/-- A device has the fault of the first step that has one. -/
theorem device_eq_error_iff :
    conversion.device written = .error fault ↔ conversion.FirstFault written Step.all fault := by
  rw [device_eq]
  refine bind_eq_error_iff (fun _ => kind_eq_error_iff_stepFault) fun kind found => ?_
  refine bind_eq_error_iff (fun _ => flags_eq_error_iff_stepFault rfl) fun _ _ => ?_
  refine bind_eq_error_iff (fun _ => number_eq_error_iff_stepFault rfl) fun _ _ => ?_
  refine bind_eq_error_iff (fun _ => number_eq_error_iff_stepFault rfl) fun _ _ => ?_
  refine bind_eq_error_iff (fun _ => number_eq_error_iff_stepFault rfl) fun _ _ => ?_
  refine bind_eq_error_iff (fun _ => flags_eq_error_iff_stepFault rfl) fun _ _ => ?_
  refine bind_eq_error_iff (fun _ => number_eq_error_iff_stepFault rfl) fun _ _ => ?_
  refine bind_eq_error_iff
    (fun _ => aux_eq_error_iff_stepFault (kind_eq_ok_iff.mp found)) fun _ _ => ?_
  constructor
  · intro failed
    contradiction
  · rintro ⟨_, _, first, _⟩
    cases first.here

end Conversion

/-! ## A board -/

namespace Board

variable {start : Nat} {written second : List BoardDevice} {devices : List Device}
  {fault : DeviceFault}

/-- The first device is converted and then the others. -/
theorem devicesFrom_cons (start : Nat) (head : BoardDevice) (rest : List BoardDevice) :
    devicesFrom start (head :: rest) = (do
      let device ← Conversion.device ⟨start, head.name⟩ head
      let devices ← devicesFrom (start + 1) rest
      .ok (device :: devices)) := by
  rw [devicesFrom]
  cases Conversion.device ⟨start, head.name⟩ head with
  | error fault => rfl
  | ok device => cases devicesFrom (start + 1) rest <;> rfl

/-- Devices are converted to the ones that they stand for, in their order. -/
theorem devicesFrom_eq_ok_iff :
    devicesFrom start written = .ok devices ↔
      List.Forall₂ BoardDevice.StandsFor written devices := by
  induction written generalizing start devices with
  | nil => rw [devicesFrom, Except.ok.injEq, List.forall₂_nil_left_iff, eq_comm]
  | cons head rest ih =>
    rw [devicesFrom_cons, List.forall₂_cons_left_iff]
    simp only [bind_eq_ok_iff, Conversion.device_eq_ok_iff, ih, Except.ok.injEq]
    constructor
    · rintro ⟨device, stands, others, pairs, rfl⟩
      exact ⟨device, others, stands, pairs, rfl⟩
    · rintro ⟨device, others, stands, pairs, rfl⟩
      exact ⟨device, stands, others, pairs, rfl⟩

/-- Devices are converted when each of them stands for a device. -/
theorem exists_devicesFrom_iff : (∃ devices, devicesFrom start written = .ok devices) ↔
    ∀ member ∈ written, ∃ device, BoardDevice.StandsFor member device := by
  simp only [devicesFrom_eq_ok_iff]
  induction written with
  | nil => exact ⟨fun _ _ member => absurd member List.not_mem_nil, fun _ => ⟨[], .nil⟩⟩
  | cons head rest ih =>
    rw [List.forall_mem_cons, ← ih]
    constructor
    · rintro ⟨_, pairs⟩
      cases pairs with
      | cons stands later => exact ⟨⟨_, stands⟩, _, later⟩
    · rintro ⟨⟨device, stands⟩, devices, later⟩
      exact ⟨device :: devices, .cons stands later⟩

/-- Devices have a fault when the first has it, or, when the first is converted, the others. -/
theorem devicesFrom_cons_eq_error_iff {head : BoardDevice} :
    devicesFrom start (head :: written) = .error fault ↔
      Conversion.device ⟨start, head.name⟩ head = .error fault ∨
        (∃ device, Conversion.device ⟨start, head.name⟩ head = .ok device) ∧
          devicesFrom (start + 1) written = .error fault := by
  rw [devicesFrom]
  cases Conversion.device ⟨start, head.name⟩ head with
  | error own => simp
  | ok device => cases devicesFrom (start + 1) written <;> simp

/-- Devices have the fault of the first of them that stands for no device. -/
theorem devicesFrom_eq_error_iff :
    devicesFrom start written = .error fault ↔ ∃ index bad,
      FirstAt (fun _ bad => ∀ device, ¬BoardDevice.StandsFor bad device) written index bad ∧
        Conversion.FirstFault ⟨start + index, bad.name⟩ bad Conversion.Step.all fault := by
  induction written generalizing start with
  | nil =>
    constructor
    · intro failed
      cases failed
    · rintro ⟨_, _, first, _⟩
      cases first.here
  | cons head rest ih =>
    have moved (index : Nat) : start + 1 + index = start + (index + 1) := by omega
    rw [devicesFrom_cons_eq_error_iff, ih]
    simp only [Conversion.device_eq_ok_iff, moved]
    constructor
    · rintro (failed | ⟨⟨device, stands⟩, index, bad, first, wrong⟩)
      · refine ⟨0, head, .of_head fun device stands => ?_, Conversion.device_eq_error_iff.mp failed⟩
        have converted : Conversion.device ⟨start, head.name⟩ head = .ok device :=
          Conversion.device_eq_ok_iff.mpr stands
        rw [failed] at converted
        contradiction
      · exact ⟨index + 1, bad, .of_tail (fun fails => fails device stands) first, wrong⟩
    · rintro ⟨index, bad, first, wrong⟩
      cases index with
      | zero =>
        cases first.here
        exact Or.inl (Conversion.device_eq_error_iff.mpr wrong)
      | succ index =>
        obtain ⟨pass, later⟩ := first.tail
        exact Or.inr ⟨not_forall_not.mp pass, index, bad, later, wrong⟩

end Board

/-! ## Flags in other words -/

/-- Two devices as written are the same but for the order, the repetitions and the case of their
flags. -/
structure BoardDevice.SameButFlags (first second : BoardDevice) : Prop where
  name : first.name = second.name
  kind : first.kind = second.kind
  flags : FlagFamily.SameNames first.flags second.flags
  regionBase : first.regionBase = second.regionBase
  regionSize : first.regionSize = second.regionSize
  irqLane : first.irqLane = second.irqLane
  irqFlags : FlagFamily.SameNames first.irqFlags second.irqFlags
  irqPriority : first.irqPriority = second.irqPriority
  directAux : first.directAux = second.directAux
  keyedAux : first.keyedAux = second.keyedAux

/-- Two conversions agree: they have one result or one fault. Of two unknown flags of one field,
either may be the one that is shown. -/
inductive Agree {α : Type} : Except DeviceFault α → Except DeviceFault α → Prop where
  | same (result : Except DeviceFault α) : Agree result result
  | otherFlag {index : Nat} {name field first second : String} {unknown : String → RangeFault}
      (flag : unknown = .unknownFlag ∨ unknown = .unknownIrqFlag) :
      Agree (.error (.fieldOutOfRange index name field (unknown first)))
        (.error (.fieldOutOfRange index name field (unknown second)))

variable {α β : Type}

/-- Conversions that agree still do when the same follows. -/
theorem Agree.bind {first second : Except DeviceFault α} (agree : Agree first second)
    {next other : α → Except DeviceFault β} (follows : ∀ value, Agree (next value) (other value)) :
    Agree (first >>= next) (second >>= other) := by
  cases agree with
  | same =>
    cases first with
    | error fault => exact .same _
    | ok value => exact follows value
  | otherFlag flag => exact .otherFlag flag

/-- Conversions that agree have the same results. -/
theorem Agree.ok_iff {first second : Except DeviceFault α} (agree : Agree first second)
    {result : α} : first = .ok result ↔ second = .ok result := by
  cases agree with
  | same => rfl
  | otherFlag => simp

namespace Conversion

variable {first second : List String}

/-- Flags that are the same have one word, or some of them are unknown in both. -/
theorem flags_agree (conversion : Conversion) (family : FlagFamily) (field : Field)
    {unknown : String → RangeFault} (flag : unknown = .unknownFlag ∨ unknown = .unknownIrqFlag)
    (same : FlagFamily.SameNames first second) :
    Agree (conversion.flags family field unknown 0 first)
      (conversion.flags family field unknown 0 second) := by
  cases converted : conversion.flags family field unknown 0 first with
  | ok word =>
    obtain ⟨known, rfl⟩ := flags_eq_ok_iff.mp converted
    have convertedToo : conversion.flags family field unknown 0 second =
        .ok (family.union first) :=
      flags_eq_ok_iff.mpr
        ⟨FlagFamily.known_of_sameNames same known, (family.union_congr same).symm⟩
    rw [convertedToo]
    exact .same _
  | error fault =>
    obtain ⟨_, name, firstAt, rfl⟩ := flags_eq_error_iff.mp converted
    obtain ⟨other, listed, spelled⟩ := same.there name (List.mem_of_getElem? firstAt.here)
    obtain ⟨_, there⟩ := List.getElem?_of_mem listed
    have unfound : family.ofName? other = none := family.ofName?_congr spelled ▸ firstAt.fault
    obtain ⟨position, _, shown, firstToo⟩ :=
      FirstAt.exists_le (fun _ name => family.ofName? name = none) there unfound
    rw [flags_eq_error_iff.mpr ⟨position, shown, firstToo, rfl⟩]
    exact .otherFlag flag

/-- Devices that are the same but for their flags agree. -/
theorem device_agrees (conversion : Conversion) {first second : BoardDevice}
    (same : first.SameButFlags second) :
    Agree (conversion.device first) (conversion.device second) := by
  have sources : auxSources first = auxSources second := by
    rw [auxSources, auxSources, same.directAux, same.keyedAux]
  have aux (kind : DeviceKind) : conversion.aux kind first = conversion.aux kind second := by
    rw [Conversion.aux, Conversion.aux, sources]
  rw [device_eq, device_eq, same.name, same.kind, same.regionBase, same.regionSize, same.irqLane,
    same.irqPriority]
  simp only [aux]
  refine .bind (.same _) fun kind => ?_
  refine .bind (conversion.flags_agree _ _ (Or.inl rfl) same.flags) fun flags => ?_
  refine .bind (.same _) fun base => .bind (.same _) fun size => .bind (.same _) fun lane => ?_
  exact .bind (conversion.flags_agree _ _ (Or.inr rfl) same.irqFlags) fun irqFlags => .same _

end Conversion

/-- Boards whose devices are the same but for their flags agree. -/
theorem Board.devicesFrom_agrees {first second : List BoardDevice} (start : Nat)
    (same : List.Forall₂ BoardDevice.SameButFlags first second) :
    Agree (devicesFrom start first) (devicesFrom start second) := by
  induction same generalizing start with
  | nil => exact .same _
  | cons head _ ih =>
    rw [devicesFrom_cons, devicesFrom_cons, head.name]
    exact .bind (Conversion.device_agrees _ head) fun device =>
      .bind (ih (start + 1)) fun devices => .same _

/-- Converting any board. It is converted exactly when each of its devices stands for a device, and
then to these, in their order; a region or an interrupt, or a member of one, that is left out is
zero. Otherwise the fault is that of the first step that fails in the first device that stands for
none. A text stands for a type when it is one of the known names, and for a flag when it is the name
of the flag, but for the case of ASCII letters; a number stands for a type when it is at most six.
Boards that are the same but for the order, the repetitions and the case of flags have one result;
their faults can differ in the unknown flag that is shown. -/
theorem Board.toDevices_exact (board : Board) :
    ((∃ devices, board.toDevices = .ok devices) ↔
      ∀ written ∈ board.devices, ∃ device, written.StandsFor device) ∧
    (∀ devices, board.toDevices = .ok devices ↔
      List.Forall₂ BoardDevice.StandsFor board.devices devices) ∧
    (∀ draft, Region.record.finish draft =
      .ok ⟨draft.base.getD (.whole 0), draft.size.getD (.whole 0)⟩) ∧
    (∀ draft, Interrupt.record.finish draft =
      .ok ⟨draft.lane.getD (.whole 0), draft.flags.getD [], draft.priority.getD (.whole 0)⟩) ∧
    (∀ fault, board.toDevices = .error fault ↔ ∃ index written,
      FirstAt (fun _ written => ∀ device, ¬BoardDevice.StandsFor written device) board.devices index
          written ∧
        Conversion.FirstFault ⟨index, written.name⟩ written Conversion.Step.all fault) ∧
    (∀ text, (KindTag.name text).kind?.isSome ↔
      ∃ known ∈ KindTag.knownNames, AsciiCase.SameText text known) ∧
    (∀ value, (KindTag.tag value).kind?.isSome ↔ value.toNat ≤ 6) ∧
    (∀ flag, (deviceFlagFamily.ofName? flag).isSome ↔ AsciiCase.SameText "MMIO" flag) ∧
    (∀ flag, (irqFlagFamily.ofName? flag).isSome ↔ AsciiCase.SameText "EDGE_TRIGGER" flag) ∧
    ∀ other : Board, List.Forall₂ BoardDevice.SameButFlags board.devices other.devices →
      Agree board.toDevices other.toDevices := by
  refine ⟨exists_devicesFrom_iff, fun devices => devicesFrom_eq_ok_iff, fun draft => rfl,
    fun draft => rfl, fun fault => ?failed, fun text => KindTag.isSome_kind?_name_iff,
    fun value => KindTag.isSome_kind?_tag_iff, fun flag => FlagFamily.isSome_ofName?_of_single,
    fun flag => FlagFamily.isSome_ofName?_of_single, fun other same => devicesFrom_agrees 0 same⟩
  case failed =>
    rw [toDevices, devicesFrom_eq_error_iff]
    simp only [Nat.zero_add]

/-- A framebuffer by its second name, with its only flag twice. -/
def screen : BoardDevice where
  name := "a"
  kind := .name "Fb"
  flags := ["mmio", "MMIO"]
  region := some { base := .text "0x1000" }

/-- A clock with faults in three of its parts. -/
def brokenClock : BoardDevice where
  name := "b"
  kind := .tag 6
  flags := ["MMIO", "DMA"]
  region := some { base := .text "x" }
  keyedAux := KeyedQuantities.empty.insert "clock_hz" (.whole 2)

/-- A third device, whose type has the low bits of a serial port's tag but is past 32 bits. -/
def wideTag : BoardDevice := { name := "c", kind := .tag 4294967298 }

/-- What the screen stands for. -/
def screenDevice : Device where
  kind := .framebuffer
  name := "a"
  flags := 1
  regionBase := 4096

/-- Of several faults the one of the flags of the second device comes first. The screen alone is
converted, and so it is with its flag written once. -/
theorem Board.toDevices_exact_brokenClock :
    toDevices ⟨[screen, brokenClock, wideTag]⟩ =
      .error (.fieldOutOfRange 1 "b" "flags" (.unknownFlag "DMA")) ∧
    toDevices ⟨[{ screen with flags := ["MMIO"] }]⟩ = .ok [screenDevice] := by
  obtain ⟨_, converted, _, _, _, _, _, _, _, agrees⟩ := toDevices_exact ⟨[screen]⟩
  obtain ⟨_, _, _, _, failed, _⟩ := toDevices_exact ⟨[screen, brokenClock, wideTag]⟩
  have alone : toDevices ⟨[screen]⟩ = .ok [screenDevice] := by decide +kernel
  have stands : screen.StandsFor screenDevice := by
    cases (converted _).mp alone with
    | cons stands _ => exact stands
  refine ⟨(failed _).mpr ⟨1, brokenClock, ⟨rfl, ?refused, ?earlier⟩, ?flags⟩, ?once⟩
  case refused =>
    intro device stands
    have unknown := stands.knownFlags "DMA" (by decide)
    exact absurd unknown (by decide +kernel)
  case earlier =>
    intro position other before found refused
    obtain rfl : position = 0 := by omega
    cases found
    exact refused screenDevice stands
  case flags =>
    have first : FirstAt (fun _ name => deviceFlagFamily.ofName? name = none) brokenClock.flags 1
        "DMA" := by
      refine ⟨rfl, by decide +kernel, fun position other before found => ?_⟩
      obtain rfl : position = 0 := by omega
      cases found
      decide +kernel
    have own : Conversion.Step.flags? brokenClock .flags =
        some ⟨deviceFlagFamily, "flags", .unknownFlag, brokenClock.flags⟩ := rfl
    have wrong : Conversion.StepFault ⟨1, "b"⟩ brokenClock .flags
        (.fieldOutOfRange 1 "b" "flags" (.unknownFlag "DMA")) :=
      .unknownFlag own first
    refine ⟨1, .flags, ⟨rfl, ⟨_, wrong⟩, fun position step before found => ?_⟩, wrong⟩
    obtain rfl : position = 0 := by omega
    cases found
    rintro ⟨_, early⟩
    cases early with
    | unknownKind unknown => exact unknown .rtc (.tag rfl)
    | unknownFlag own => cases own
    | notANumber own => cases own
  case once =>
    have same : screen.SameButFlags { screen with flags := ["MMIO"] } := by
      refine ⟨rfl, rfl, ⟨?_, ?_⟩, rfl, rfl, rfl, ⟨?_, ?_⟩, rfl, rfl, rfl⟩
      all_goals decide +kernel
    exact (agrees ⟨[{ screen with flags := ["MMIO"] }]⟩ (.cons same .nil)).ok_iff.mp alone

end BoardBlob
