import Mathlib.Data.Nat.Bitwise
import BoardBlob.Proofs.AuxSources
import BoardBlob.Proofs.CompileStages
import BoardBlob.Proofs.RelatedBlobs

/-!
# The conditions of a device

Validation told by what a device must satisfy. `Device.Condition.Holds` states each condition in the
terms of the device: bits of a word, sums and multiples of natural numbers, the table of the slots.
The checks take the conditions in the order of `Device.Condition.all`, so a device has the fault of
the first one that it violates (`Device.validate_eq_error_iff`), and a list has the fault of its
first device that violates any (`validateAll_exact`).
-/
namespace BoardBlob

/-! ## Flag words -/

namespace FlagFamily

/-- Every bit of the word is a bit of a member. -/
def Covers (family : FlagFamily) (word : UInt32) : Prop :=
  ∀ bit, word.toNat.testBit bit = true →
    ∃ member ∈ family.members, member.2.toNat.testBit bit = true

/-- A bit is defined when a member has it. -/
theorem testBit_defined_iff {family : FlagFamily} {bit : Nat} :
    family.defined.toNat.testBit bit = true ↔
      ∃ member ∈ family.members, member.2.toNat.testBit bit = true := by
  have joined : family.defined = (family.members.map Prod.snd).foldl (· ||| ·) 0 := by
    rw [defined, List.foldl_map]
  rw [joined, testBit_foldl_or, UInt32.toNat_zero, Nat.zero_testBit, Bool.false_or, List.any_map,
    List.any_eq_true]
  rfl

/-- A bit of a word is undefined when the word has it and no member does. -/
theorem testBit_undefinedBits (family : FlagFamily) (word : UInt32) (bit : Nat) :
    (family.undefinedBits word).toNat.testBit bit =
      (word.toNat.testBit bit && !family.defined.toNat.testBit bit) := by
  have complement : (~~~family.defined).toNat = 2 ^ 32 - (family.defined.toNat + 1) := by
    rw [UInt32.toNat_not]
    change 2 ^ 32 - 1 - family.defined.toNat = _
    omega
  rw [undefinedBits, UInt32.toNat_and, Nat.testBit_and, complement,
    Nat.testBit_two_pow_sub_succ family.defined.toNat_lt]
  by_cases inside : bit < 32
  · simp [inside]
  · -- A word has no bits past its size.
    have word32 : word.toNat < 2 ^ bit :=
      Nat.lt_of_lt_of_le word.toNat_lt (Nat.pow_le_pow_right (by decide) (Nat.not_lt.mp inside))
    simp [Nat.testBit_lt_two_pow word32]

/-- A word has no undefined bits exactly when the members cover it. -/
theorem undefinedBits_eq_zero_iff {family : FlagFamily} {word : UInt32} :
    family.undefinedBits word = 0 ↔ family.Covers word := by
  constructor
  · intro none bit set
    have absent := testBit_undefinedBits family word bit
    rw [none, UInt32.toNat_zero, Nat.zero_testBit, set, Bool.true_and] at absent
    exact testBit_defined_iff.mp (by simpa using absent)
  · intro covers
    apply UInt32.toNat_inj.mp
    apply Nat.eq_of_testBit_eq
    intro bit
    rw [testBit_undefinedBits, UInt32.toNat_zero, Nat.zero_testBit]
    cases set : word.toNat.testBit bit with
    | false => rfl
    | true => rw [testBit_defined_iff.mpr (covers bit set), Bool.true_and, Bool.not_true]

instance (family : FlagFamily) (word : UInt32) : Decidable (family.Covers word) :=
  decidable_of_iff _ undefinedBits_eq_zero_iff

end FlagFamily

namespace Device

/-- A word has a fault exactly when it is not covered, and the fault shows its undefined bits. -/
theorem flagFault?_eq (family : FlagFamily) (word : UInt32) :
    flagFault? family word =
      if family.Covers word then none else some (.undefinedBits (family.undefinedBits word)) := by
  simp only [flagFault?, FlagFamily.undefinedBits_eq_zero_iff]

/-- A device is memory-mapped exactly when the lowest bit of its flags is set. -/
theorem isMmio_iff {device : Device} :
    device.isMmio = true ↔ device.flags.toNat.testBit 0 = true := by
  have lowest : mmioBit.toNat = 1 := rfl
  rw [isMmio, beq_iff_eq, ← UInt32.toNat_inj, UInt32.toNat_and, lowest, Nat.and_one_is_mod,
    Nat.testBit_zero, decide_eq_true_eq]

/-! ## Conditions -/

/-- What a device must satisfy, one item for each check. -/
inductive Condition where
  | nameNotEmpty
  | nameWithoutNul
  | flagsDefined
  | irqFlagsDefined
  | regionInside
  | mmioAligned
  | slotUnused (slot : Fin 4)
  deriving DecidableEq, Repr

namespace Condition

/-- All conditions, in the order of their checks. -/
def all : List Condition :=
  [nameNotEmpty, nameWithoutNul, flagsDefined, irqFlagsDefined, regionInside, mmioAligned] ++
    (List.finRange 4).map slotUnused

/-- Every condition is checked. -/
theorem mem_all (condition : Condition) : condition ∈ all := by
  cases condition with
  | slotUnused slot =>
    exact List.mem_append_right _ (List.mem_map_of_mem (List.mem_finRange slot))
  | _ => decide

/-- A device satisfies a condition. The region of a memory-mapped device, one with the lowest bit of
its flags set, starts at a multiple of the alignment other than zero; a slot to which its kind gives
no meaning is zero. -/
def Holds (alignment : UInt64) (device : Device) : Condition → Prop
  | nameNotEmpty => device.name ≠ ""
  | nameWithoutNul => '\x00' ∉ device.name.toList
  | flagsDefined => deviceFlagFamily.Covers device.flags
  | irqFlagsDefined => irqFlagFamily.Covers device.irqFlags
  | regionInside => device.regionBase.toNat + device.regionSize.toNat < UInt64.size
  | mmioAligned => device.flags.toNat.testBit 0 = true →
      device.regionBase ≠ 0 ∧ alignment.toNat ∣ device.regionBase.toNat
  | slotUnused slot => device.kind.auxLayout.get slot = none → device.aux.get slot = 0

instance (alignment : UInt64) (device : Device) :
    (condition : Condition) → Decidable (condition.Holds alignment device)
  | nameNotEmpty => inferInstanceAs (Decidable (_ ≠ _))
  | nameWithoutNul => inferInstanceAs (Decidable (_ ∉ _))
  | flagsDefined | irqFlagsDefined => inferInstanceAs (Decidable (FlagFamily.Covers _ _))
  | regionInside => inferInstanceAs (Decidable (_ < _))
  | mmioAligned => inferInstanceAs (Decidable (_ → _))
  | slotUnused _ => inferInstanceAs (Decidable (_ → _))

/-- The fault of a device that violates a condition, at its position in the list. -/
def fault (alignment : UInt64) (index : Nat) (device : Device) : Condition → DeviceFault
  | nameNotEmpty => .invalidName index device.name .empty
  | nameWithoutNul => .invalidName index device.name .containsNul
  | flagsDefined => .fieldOutOfRange index device.name "flags"
      (.undefinedBits (deviceFlagFamily.undefinedBits device.flags))
  | irqFlagsDefined => .fieldOutOfRange index device.name "irq_flags"
      (.undefinedBits (irqFlagFamily.undefinedBits device.irqFlags))
  | regionInside => .fieldOutOfRange index device.name "region_size"
      (.wrapsAddressSpace device.regionBase device.regionSize)
  | mmioAligned => .misaligned index device.name device.regionBase alignment
  | slotUnused slot => .fieldOutOfRange index device.name (DeviceKind.positionalKeys.get slot)
      (.reservedSlot device.kind (device.aux.get slot))

end Condition

/-- A device violates a condition. -/
def Violates (alignment : UInt64) (device : Device) : Prop :=
  ∃ condition : Condition, ¬condition.Holds alignment device

variable {alignment : UInt64} {index : Nat} {device : Device} {conditions : List Condition}
  {config : Config} {fault : DeviceFault}

/-- Checks conditions one after the other; the first that is violated is reported. -/
def checkAll (alignment : UInt64) (index : Nat) (device : Device) :
    List Condition → Except DeviceFault Unit
  | [] => .ok ()
  | condition :: rest =>
    if condition.Holds alignment device then checkAll alignment index device rest
    else .error (condition.fault alignment index device)

/-- Of the slots, the lowest without a meaning that is not zero is reported. -/
theorem checkAll_slots (slots : List (Fin 4)) :
    checkAll alignment index device (slots.map .slotUnused) =
      (slots.find? fun slot =>
        (device.kind.auxLayout.get slot).isNone && device.aux.get slot != 0).elim (.ok ())
          fun slot => .error (Condition.fault alignment index device (.slotUnused slot)) := by
  induction slots with
  | nil => rfl
  | cons slot rest ih =>
    rw [List.map_cons, checkAll, ih, List.find?_cons]
    by_cases unused : Condition.Holds alignment device (.slotUnused slot)
    · have passes :
          ((device.kind.auxLayout.get slot).isNone && device.aux.get slot != 0) = false := by
        simpa [Condition.Holds] using unused
      rw [if_pos unused, passes]
    · have found :
          ((device.kind.auxLayout.get slot).isNone && device.aux.get slot != 0) = true := by
        simpa [Condition.Holds] using unused
      rw [if_neg unused, found]
      rfl

/-- Validation checks the conditions in their order. -/
theorem validate_eq_checkAll (config : Config) (index : Nat) (device : Device) :
    device.validate index config = checkAll config.mmioAlignment index device Condition.all := by
  let holds := Condition.Holds config.mmioAlignment device
  have name : device.nameFault? =
      if holds .nameNotEmpty then if holds .nameWithoutNul then none else some .containsNul
      else some .empty := by
    simp only [nameFault?, String.toList_eq_nil_iff, List.contains_iff_mem, holds, Condition.Holds,
      ite_not]
  have flags : flagFault? deviceFlagFamily device.flags =
      if holds .flagsDefined then none else some _ := flagFault?_eq _ _
  have irqFlags : flagFault? irqFlagFamily device.irqFlags =
      if holds .irqFlagsDefined then none else some _ := flagFault?_eq _ _
  have region : device.regionFault? =
      if holds .regionInside then none else some _ := rfl
  have aligned : device.isMisaligned config.mmioAlignment = true ↔ ¬holds .mmioAligned := by
    rw [← Bool.not_eq_false, isMisaligned_eq_false_iff, isMmio_iff]
    rfl
  have slots := @checkAll_slots config.mmioAlignment index device (List.finRange 4)
  simp only [Condition.all, List.cons_append, List.nil_append, checkAll, slots, validate, name,
    flags, irqFlags, region, aligned, reservedSlot?]
  -- Both sides now branch on the same conditions in the same order.
  by_cases filled : holds .nameNotEmpty
  case neg => simp [holds, filled, Condition.fault]
  by_cases plain : holds .nameWithoutNul
  case neg => simp [holds, filled, plain, Condition.fault]
  by_cases flagsDefined : holds .flagsDefined
  case neg =>
    simp [holds, filled, plain, flagsDefined, Condition.fault]
    rfl
  by_cases irqFlagsDefined : holds .irqFlagsDefined
  case neg =>
    simp [holds, filled, plain, flagsDefined, irqFlagsDefined, Condition.fault]
    rfl
  by_cases inside : holds .regionInside
  case neg =>
    simp [holds, filled, plain, flagsDefined, irqFlagsDefined, inside, Condition.fault]
    rfl
  by_cases placed : holds .mmioAligned
  case neg =>
    simp [holds, filled, plain, flagsDefined, irqFlagsDefined, inside, placed, Condition.fault]
  simp only [holds, filled, plain, flagsDefined, irqFlagsDefined, inside, placed, if_true, if_false,
    not_true_eq_false, Condition.fault, Conversion.name_auxFields]
  cases (List.finRange 4).find? fun slot =>
    (device.kind.auxLayout.get slot).isNone && device.aux.get slot != 0 <;> rfl

/-- The check of conditions fails for the first one that is violated. -/
theorem checkAll_of_firstAt {position : Nat} {condition : Condition}
    (first : FirstAt (fun _ condition => ¬condition.Holds alignment device) conditions position
      condition) :
    checkAll alignment index device conditions =
      .error (condition.fault alignment index device) := by
  induction conditions generalizing position with
  | nil => cases first.here
  | cons head rest ih =>
    rw [checkAll]
    cases position with
    | zero =>
      cases first.here
      exact if_neg first.fault
    | succ position =>
      obtain ⟨holds, later⟩ := first.tail
      rw [if_pos (not_not.mp holds), ih later]

/-- The check of conditions passes when none is violated. -/
theorem checkAll_of_noneFails
    (pass : NoneFails (fun _ condition => ¬condition.Holds alignment device) conditions) :
    checkAll alignment index device conditions = .ok () := by
  induction conditions with
  | nil => rfl
  | cons head rest ih =>
    obtain ⟨holds, later⟩ := NoneFails.cons_iff.mp pass
    rw [checkAll, if_pos (not_not.mp holds), ih later]

/-- A device is validated in one of two ways: it violates no condition, or it has the fault of the
first one that it violates. -/
theorem validate_cases (config : Config) (index : Nat) (device : Device) :
    ¬device.Violates config.mmioAlignment ∧ device.validate index config = .ok () ∨
      ∃ position condition,
        FirstAt (fun _ condition => ¬condition.Holds config.mmioAlignment device) Condition.all
            position condition ∧
          device.validate index config =
            .error (condition.fault config.mmioAlignment index device) := by
  rw [validate_eq_checkAll]
  cases FirstAt.exists_or_noneFails
      (fun _ condition => ¬condition.Holds config.mmioAlignment device) Condition.all with
  | inl failing =>
    obtain ⟨position, condition, first⟩ := failing
    exact Or.inr ⟨position, condition, first, checkAll_of_firstAt first⟩
  | inr pass =>
    refine Or.inl ⟨?_, checkAll_of_noneFails pass⟩
    rintro ⟨condition, violated⟩
    obtain ⟨position, here⟩ := List.getElem?_of_mem condition.mem_all
    exact pass position condition here violated

/-- A device is refused, wherever it stands, when it violates a condition. -/
theorem refused_iff : device.Refused config index ↔ device.Violates config.mmioAlignment := by
  rcases validate_cases config index device with ⟨sound, passed⟩ | ⟨_, condition, first, failed⟩
  · rw [← not_iff_not, not_refused_iff, passed]
    simp [sound]
  · exact iff_of_true ⟨_, failed⟩ ⟨condition, first.fault⟩

/-- A device has the fault of the first condition that it violates. -/
theorem validate_eq_error_iff : device.validate index config = .error fault ↔
    ∃ position condition,
      FirstAt (fun _ condition => ¬condition.Holds config.mmioAlignment device) Condition.all
          position condition ∧
        fault = condition.fault config.mmioAlignment index device := by
  rcases validate_cases config index device with ⟨sound, passed⟩ | ⟨_, _, first, failed⟩
  · rw [passed]
    constructor
    · intro error
      contradiction
    · rintro ⟨_, condition, first, _⟩
      exact absurd ⟨condition, first.fault⟩ sound
  · rw [failed, Except.error.injEq]
    constructor
    · rintro rfl
      exact ⟨_, _, first, rfl⟩
    · rintro ⟨_, _, firstToo, rfl⟩
      obtain ⟨_, rfl⟩ := first.unique firstToo
      rfl

end Device

/-! ## Lists of devices -/

variable {devices : List Device} {config : Config} {index : Nat} {device : Device}
  {fault : DeviceFault}

/-- Being refused is violating a condition. -/
theorem refused_eq_violates (config : Config) :
    Device.Refused config = fun _ device => device.Violates config.mmioAlignment := by
  funext index device
  exact propext Device.refused_iff

/-- A list has the fault of the first device that violates a condition. -/
theorem validateAll_eq_error_iff : validateAll devices config = .error fault ↔
    ∃ index device,
      FirstAt (fun _ device => Device.Violates config.mmioAlignment device) devices index device ∧
        device.validate index config = .error fault := by
  rw [← refused_eq_violates]
  cases FirstAt.exists_or_noneFails (Device.Refused config) devices with
  | inl failing =>
    obtain ⟨index, device, first⟩ := failing
    rw [validateAll_of_firstAt first]
    constructor
    · exact fun failed => ⟨index, device, first, failed⟩
    · rintro ⟨_, _, firstToo, failed⟩
      obtain ⟨rfl, rfl⟩ := first.unique firstToo
      exact failed
  | inr pass =>
    rw [validateAll_eq_ok_iff.mpr pass]
    constructor
    · intro error
      contradiction
    · rintro ⟨index, device, first, _⟩
      exact absurd first.fault (pass index device first.here)

/-- No device after the first that violates a condition has a share in the result. -/
theorem validateAll_congr_later
    (first : FirstAt (fun _ device => Device.Violates config.mmioAlignment device) devices index
      device) (later : List Device) :
    validateAll (devices.take (index + 1) ++ later) config = validateAll devices config := by
  rw [← refused_eq_violates] at first
  have inside : index < devices.length := (List.getElem?_eq_some_iff.mp first.here).choose
  have firstToo : FirstAt (Device.Refused config) (devices.take (index + 1) ++ later) index
      device := by
    refine first.congr fun position upTo => ?_
    rw [List.getElem?_append_left (by rw [List.length_take]; omega),
      List.getElem?_take_of_lt (by omega)]
  rw [validateAll_of_firstAt first, validateAll_of_firstAt firstToo]

/-- The test for multiples on a machine that stops when it divides by zero; `none` stands for the
stopped machine. -/
def isMultipleOf? (value unit : UInt64) : Option Bool :=
  let remainder? : Option Nat := if unit = 0 then none else some (value.toNat % unit.toNat)
  if unit = 0 then some (value == 0) else remainder?.map fun remainder => remainder == 0

/-- The test for multiples never divides by zero. -/
theorem isMultipleOf?_eq (value unit : UInt64) :
    isMultipleOf? value unit = some (isMultipleOf value unit) := by
  by_cases zero : unit = 0
  · simp [isMultipleOf?, isMultipleOf, zero]
  · simp [isMultipleOf?, isMultipleOf, zero]

/-- Validation of any list. It passes exactly when every device satisfies every condition. Otherwise
the fault is that of the first device that violates one: it has the position and the name of that
device and is for the first condition, in the order of the checks, that the device violates. The
devices that follow have no share in it. For an alignment of zero no memory-mapped device satisfies
the condition on its region, and no alignment makes the check divide by zero. -/
theorem validateAll_exact (devices : List Device) (config : Config) :
    (validateAll devices config = .ok () ↔ ∀ device ∈ devices, ∀ condition : Device.Condition,
      condition.Holds config.mmioAlignment device) ∧
    (∀ fault, validateAll devices config = .error fault ↔ ∃ index device position condition,
      FirstAt (fun _ device => Device.Violates config.mmioAlignment device) devices index
          device ∧
        FirstAt (fun _ condition => ¬condition.Holds config.mmioAlignment device)
          Device.Condition.all position condition ∧
        fault = condition.fault config.mmioAlignment index device) ∧
    (∀ index device,
      FirstAt (fun _ device => Device.Violates config.mmioAlignment device) devices index device →
        ∀ later,
          validateAll (devices.take (index + 1) ++ later) config = validateAll devices config) ∧
    (∀ device : Device, device.flags.toNat.testBit 0 = true →
      ¬Device.Condition.Holds 0 device .mmioAligned) ∧
    ∀ value unit, isMultipleOf? value unit = some (isMultipleOf value unit) := by
  refine ⟨?passed, fun fault => ?failed, fun index device first => validateAll_congr_later first,
    ?zero, isMultipleOf?_eq⟩
  case passed =>
    rw [validateAll_eq_ok_iff, refused_eq_violates]
    constructor
    · intro pass device member condition
      obtain ⟨index, here⟩ := List.getElem?_of_mem member
      by_contra violated
      exact pass index device here ⟨condition, violated⟩
    · rintro sound index device here ⟨condition, violated⟩
      exact violated (sound device (List.mem_of_getElem? here) condition)
  case failed =>
    rw [validateAll_eq_error_iff]
    simp only [Device.validate_eq_error_iff]
    constructor
    · rintro ⟨index, device, first, position, condition, firstCondition, same⟩
      exact ⟨index, device, position, condition, first, firstCondition, same⟩
    · rintro ⟨index, device, position, condition, first, firstCondition, same⟩
      exact ⟨index, device, first, position, condition, firstCondition, same⟩
  case zero =>
    intro device mapped aligned
    obtain ⟨placed, divides⟩ := aligned mapped
    exact placed (UInt64.toNat_inj.mp (Nat.eq_zero_of_zero_dvd divides))

/-- A bank of memory, a serial port that violates four conditions, and a device without a name. -/
def crookedDevices : List Device :=
  [{ kind := .ram, name := "a", regionSize := 1 },
    { kind := .uart, name := "b", flags := 1, irqFlags := 3, regionBase := 4096,
      regionSize := 18446744073709551615, aux := ⟨0, 0, 7, 9⟩ },
    { kind := .rtc, name := "" }]

/-- Of the four conditions the one of the interrupt flags comes first, and the device without a name
has no share in the fault. -/
theorem validateAll_exact_crookedDevices :
    validateAll crookedDevices { mmioAlignment := 0 } =
      .error (.fieldOutOfRange 1 "b" "irq_flags" (.undefinedBits 2)) ∧
    validateAll (crookedDevices.take 2) { mmioAlignment := 0 } =
      validateAll crookedDevices { mmioAlignment := 0 } := by
  obtain ⟨_, failed, congr, _, _⟩ := validateAll_exact crookedDevices { mmioAlignment := 0 }
  have first : FirstAt (fun _ device => Device.Violates 0 device) crookedDevices 1
      { kind := .uart, name := "b", flags := 1, irqFlags := 3, regionBase := 4096,
        regionSize := 18446744073709551615, aux := ⟨0, 0, 7, 9⟩ } := by
    refine ⟨rfl, ⟨.irqFlagsDefined, by decide +kernel⟩, fun position other before found => ?_⟩
    obtain rfl : position = 0 := by omega
    cases found
    rintro ⟨condition, violated⟩
    have all : ∀ condition ∈ Device.Condition.all, Device.Condition.Holds 0
        { kind := .ram, name := "a", regionSize := 1 } condition := by
      decide +kernel
    exact violated (all condition condition.mem_all)
  refine ⟨(failed _).mpr ⟨1, _, 3, .irqFlagsDefined, first, ⟨rfl, by decide +kernel, ?_⟩, rfl⟩,
    by simpa using congr 1 _ first []⟩
  intro position other before found
  match position with
  | 0 | 1 | 2 =>
    cases found
    decide +kernel
  | position + 3 => omega

end BoardBlob
