import BoardBlob.Board.Parsing
import BoardBlob.Proofs.BoardConversion
import BoardBlob.Proofs.DeviceConditions

/-!
# The devices that boards express

A board gives flags by their names, so the flag words of its devices have named bits only
(`FlagFamily.covers_union`). Nothing else is out of its reach: a device whose flag words have named
bits only is written with those names, and with every number as itself
(`BoardDevice.standsFor_ofDevice`). So the lists that boards express are told by their flags alone,
and both what was parsed and what compiles is among them (`Board.expressed_exact`).
-/
namespace BoardBlob

open Conversion (auxSources directSources)

/-! ## Flag words -/

namespace FlagFamily

variable {family : FlagFamily} {word : UInt32} {bit : Nat}

/-- A bit is in the word of some names when one of the names has it. -/
theorem testBit_union {names : List String} :
    (family.union names).toNat.testBit bit = true ↔
      ∃ name ∈ names, ∃ bits, family.ofName? name = some bits ∧
        bits.toNat.testBit bit = true := by
  rw [union, testBit_foldl_or, UInt32.toNat_zero, Nat.zero_testBit, Bool.false_or,
    List.any_eq_true]
  constructor
  · rintro ⟨bits, member, has⟩
    obtain ⟨name, listed, found⟩ := List.mem_filterMap.mp member
    exact ⟨name, listed, bits, found, has⟩
  · rintro ⟨name, listed, bits, found, has⟩
    exact ⟨bits, List.mem_filterMap.mpr ⟨name, listed, found⟩, has⟩

/-- The word of some names has named bits only. -/
theorem covers_union (family : FlagFamily) (names : List String) :
    family.Covers (family.union names) := by
  intro bit set
  obtain ⟨name, -, bits, found, has⟩ := testBit_union.mp set
  obtain ⟨member, listed, rfl⟩ := Option.map_eq_some_iff.mp found
  exact ⟨member, List.mem_of_find?_eq_some listed, has⟩

/-- The names of the members that are in a word. -/
def namesIn (family : FlagFamily) (word : UInt32) : List String :=
  (family.members.filter fun member => word &&& member.2 == member.2).map Prod.fst

/-- The members of a family are single bits, each found by its name. -/
structure Separate (family : FlagFamily) : Prop where
  /-- Every member is found by its name. -/
  found : ∀ member ∈ family.members, family.ofName? member.1 = some member.2
  /-- No member has two bits. -/
  single : ∀ member ∈ family.members, ∀ bit other, member.2.toNat.testBit bit = true →
    member.2.toNat.testBit other = true → bit = other

/-- A member is in a word when all its bits are. -/
theorem and_eq_right_iff {bits : UInt32} : word &&& bits = bits ↔
    ∀ bit, bits.toNat.testBit bit = true → word.toNat.testBit bit = true := by
  rw [← UInt32.toNat_inj, UInt32.toNat_and]
  constructor
  · intro same bit set
    rw [← same, Nat.testBit_and, Bool.and_eq_true] at set
    exact set.1
  · intro inside
    apply Nat.eq_of_testBit_eq
    intro bit
    rw [Nat.testBit_and]
    cases set : bits.toNat.testBit bit with
    | false => rw [Bool.and_false]
    | true => rw [inside bit set, Bool.and_true]

/-- A word with named bits only is that of the names in it. -/
theorem union_namesIn (separate : family.Separate) (covers : family.Covers word) :
    family.union (family.namesIn word) = word := by
  apply UInt32.toNat_inj.mp
  apply Nat.eq_of_testBit_eq
  intro bit
  rw [Bool.eq_iff_iff, testBit_union]
  constructor
  · rintro ⟨name, listed, bits, found, has⟩
    obtain ⟨member, kept, rfl⟩ := List.mem_map.mp listed
    obtain ⟨memberOf, inside⟩ := List.mem_filter.mp kept
    obtain rfl := Option.some.inj ((separate.found member memberOf).symm.trans found)
    exact and_eq_right_iff.mp (beq_iff_eq.mp inside) bit has
  · intro set
    obtain ⟨member, memberOf, has⟩ := covers bit set
    refine ⟨member.1, List.mem_map_of_mem (List.mem_filter.mpr ⟨memberOf, ?_⟩), member.2,
      separate.found member memberOf, has⟩
    refine beq_iff_eq.mpr (and_eq_right_iff.mpr fun other hasToo => ?_)
    rwa [separate.single member memberOf other bit hasToo has]

/-- The names in a word are known. -/
theorem known_namesIn (separate : family.Separate) (word : UInt32) :
    ∀ name ∈ family.namesIn word, (family.ofName? name).isSome := by
  intro name listed
  obtain ⟨member, kept, rfl⟩ := List.mem_map.mp listed
  rw [separate.found member (List.mem_of_mem_filter kept)]
  rfl

end FlagFamily

/-- The number one has one bit. -/
theorem testBit_one_unique {bit other : Nat} (set : (1 : UInt32).toNat.testBit bit = true)
    (setToo : (1 : UInt32).toNat.testBit other = true) : bit = other := by
  rw [UInt32.toNat_one, Nat.testBit_one_eq_true_iff_self_eq_zero] at set setToo
  rw [set, setToo]

/-- The flags of a device are single bits. -/
theorem separate_deviceFlagFamily : deviceFlagFamily.Separate where
  found := by decide
  single member listed bit other set setToo := by
    obtain rfl := List.mem_singleton.mp listed
    exact testBit_one_unique set setToo

/-- The flags of an interrupt are single bits. -/
theorem separate_irqFlagFamily : irqFlagFamily.Separate where
  found := by decide
  single member listed bit other set setToo := by
    obtain rfl := List.mem_singleton.mp listed
    exact testBit_one_unique set setToo

/-! ## One device -/

/-- The flag words of a device have named bits only. -/
def Device.FlagsNamed (device : Device) : Prop :=
  deviceFlagFamily.Covers device.flags ∧ irqFlagFamily.Covers device.irqFlags

namespace BoardDevice

/-- A device written out in full: the flags by name, the auxiliary values as members, and every
number as itself. -/
def ofDevice (device : Device) : BoardDevice where
  name := device.name
  kind := .name device.kind.name
  flags := deviceFlagFamily.namesIn device.flags
  region := some { base := .whole device.regionBase, size := .whole device.regionSize }
  interrupt := some {
    lane := .whole device.irqLane
    flags := irqFlagFamily.namesIn device.irqFlags
    priority := .whole device.irqPriority }
  directAux := device.aux.map fun value => some (.whole value)

/-- What a device as written stands for has named flags only. -/
theorem StandsFor.flagsNamed {written : BoardDevice} {device : Device}
    (stands : written.StandsFor device) : device.FlagsNamed := by
  refine ⟨?_, ?_⟩
  · rw [stands.flags]
    exact deviceFlagFamily.covers_union written.flags
  · rw [stands.irqFlags]
    exact irqFlagFamily.covers_union written.irqFlags

/-- The sources of a device written out in full are its four values, by position. -/
theorem auxSources_ofDevice (device : Device) :
    auxSources (ofDevice device) = (List.finRange 4).map fun slot =>
      (DeviceKind.positionalKeys.get slot, .whole (device.aux.get slot)) := by
  have given : ∀ slot, (ofDevice device).directAux.get slot =
      some (.whole (device.aux.get slot)) :=
    fun slot => Slots.get_map _ _ slot
  rw [Conversion.auxSources_eq, directSources]
  simp only [given, Option.map_some]
  exact List.append_nil _

/-- The values of a device written out in full fill the slots of any kind. -/
theorem sound_auxSources_ofDevice (kind : DeviceKind) (device : Device) :
    kind.Sound (auxSources (ofDevice device)) := by
  rw [auxSources_ofDevice]
  refine ⟨?named, ?once, ?numbers⟩
  case named =>
    intro source member
    obtain ⟨slot, -, rfl⟩ := List.mem_map.mp member
    exact ⟨slot, .position slot⟩
  case once =>
    refine List.pairwise_map.mpr ((List.pairwise_lt_finRange 4).imp ?_)
    intro left right before slot names namesToo
    obtain rfl := names.unique (.position left)
    exact before.ne (namesToo.unique (.position right))
  case numbers =>
    intro source member
    obtain ⟨slot, -, rfl⟩ := List.mem_map.mp member
    exact ⟨device.aux.get slot, rfl⟩

/-- Each slot has the value that the device has there. -/
theorem slotValue_auxSources_ofDevice (kind : DeviceKind) (device : Device) (slot : Fin 4) :
    kind.SlotValue (auxSources (ofDevice device)) slot (device.aux.get slot) := by
  rw [auxSources_ofDevice]
  exact .given (List.mem_map_of_mem (List.mem_finRange slot)) (.position slot) rfl

/-- A device with named flags only is what it stands for when it is written out in full. -/
theorem standsFor_ofDevice {device : Device} (named : device.FlagsNamed) :
    (ofDevice device).StandsFor device where
  name := rfl
  kind := KindTag.kind?_eq_some_iff.mp device.kind.ofName?_name
  knownFlags := FlagFamily.known_namesIn separate_deviceFlagFamily device.flags
  flags := (FlagFamily.union_namesIn separate_deviceFlagFamily named.1).symm
  regionBase := rfl
  regionSize := rfl
  irqLane := rfl
  knownIrqFlags := FlagFamily.known_namesIn separate_irqFlagFamily device.irqFlags
  irqFlags := (FlagFamily.union_namesIn separate_irqFlagFamily named.2).symm
  irqPriority := rfl
  sources := sound_auxSources_ofDevice device.kind device
  aux := slotValue_auxSources_ofDevice device.kind device

end BoardDevice

/-! ## Lists of devices -/

namespace Board

/-- A list of devices written out in full. -/
def ofDevices (devices : List Device) : Board where
  devices := devices.map BoardDevice.ofDevice

/-- The devices of a board have named flags only. -/
theorem flagsNamed_of_toDevices {board : Board} {devices : List Device}
    (converted : board.toDevices = .ok devices) : ∀ device ∈ devices, device.FlagsNamed := by
  have stands : List.Forall₂ (fun device written => BoardDevice.StandsFor written device) devices
      board.devices := (devicesFrom_eq_ok_iff.mp converted).flip
  exact ((List.forall₂_and_left _ _).mp
    (stands.imp fun device written stands => ⟨stands.flagsNamed, stands⟩)).1

/-- Devices with named flags only are those of the board in which they are written out in full. -/
theorem toDevices_ofDevices {devices : List Device}
    (named : ∀ device ∈ devices, device.FlagsNamed) :
    (ofDevices devices).toDevices = .ok devices := by
  refine devicesFrom_eq_ok_iff.mpr (List.forall₂_map_left_iff.mpr (List.forall₂_same.mpr ?_))
  exact fun device member => BoardDevice.standsFor_ofDevice (named device member)

end Board

/-- Storing names fails only for a place that does not fit. -/
theorem internNames_eq_error_imp {table : NameTable} {start : Nat} {devices : List Device}
    {fault : CompileFault} (failed : internNames table start devices = .error fault) :
    ∃ index name field value, fault = .encodingOverflow index name field value := by
  induction devices generalizing table start with
  | nil => cases failed
  | cons device rest ih =>
    rw [internNames] at failed
    split at failed
    case h_1 =>
      cases failed
      exact ⟨_, _, _, _, rfl⟩
    case h_2 place grown _ =>
      split at failed
      case h_1 later =>
        cases failed
        exact ih later
      case h_2 => cases failed

/-- A compilation has the fault of a device only from the check of the devices. -/
theorem validateAll_of_compile_invalid {devices : List Device} {config : Config}
    {fault : DeviceFault} (failed : compile devices config = .error (.invalid fault)) :
    validateAll devices config = .error fault := by
  cases FirstAt.exists_or_noneFails (Device.Refused config) devices with
  | inl refusing =>
    obtain ⟨index, device, first⟩ := refusing
    obtain ⟨own, refused⟩ := first.fault
    rw [compile_of_refused first refused] at failed
    cases failed
    rw [validateAll_of_firstAt first, refused]
  | inr valid =>
    -- Behind the check of the devices every fault is one of an encoding or of the layout.
    exfalso
    rcases Nat.lt_or_ge (NameTable.image (devices.map Device.name)).length UInt32.size with
      stored | large
    case inr =>
      obtain ⟨own, unstored⟩ :=
        internNames_of_large NameTable.Holds.empty 0 devices (by simpa using large)
      obtain ⟨index, name, field, value, rfl⟩ := internNames_eq_error_imp unstored
      rw [compile_of_valid valid, unstored] at failed
      cases failed
    case inl =>
      cases FirstAt.exists_or_noneFails (fun _ => Device.Wide) devices with
      | inl widening =>
        obtain ⟨index, device, first⟩ := widening
        rw [compile_of_wide valid stored first, Device.wideFault] at failed
        split at failed <;> cases failed
      | inr narrow =>
        rcases Nat.lt_or_ge (Header.size + Entry.size * devices.length) UInt32.size with
          small | large
        case inl =>
          rw [Compiles.compile_eq ⟨valid, stored, narrow, small⟩] at failed
          cases failed
        case inr =>
          rw [compile_of_large valid stored narrow large] at failed
          split at failed <;> cases failed

/-- No fault of a device with named flags only is one of a flag word. -/
theorem Device.FlagsNamed.validate_ne {device : Device} (named : device.FlagsNamed)
    {config : Config} {index position : Nat} {name field : String} {reason : RangeFault}
    (word : field = "flags" ∨ field = "irq_flags") :
    device.validate index config ≠ .error (.fieldOutOfRange position name field reason) := by
  intro refused
  obtain ⟨place, condition, first, same⟩ := Device.validate_eq_error_iff.mp refused
  have violated := first.fault
  cases condition with
  | flagsDefined => exact violated named.1
  | irqFlagsDefined => exact violated named.2
  | slotUnused slot =>
    have positional : ∀ slot, DeviceKind.positionalKeys.get slot ≠ "flags" ∧
        DeviceKind.positionalKeys.get slot ≠ "irq_flags" := by
      decide
    cases same
    rcases word with given | given
    · exact (positional slot).1 given
    · exact (positional slot).2 given
  | regionInside =>
    cases same
    simp at word
  | nameNotEmpty | nameWithoutNul | mmioAligned => cases same

/-- A device that violates no condition has named flags only. -/
theorem Device.flagsNamed_of_sound {device : Device} {alignment : UInt64}
    (sound : ¬device.Violates alignment) : device.FlagsNamed := by
  refine ⟨?_, ?_⟩
  · exact not_not.mp fun violated => sound ⟨.flagsDefined, violated⟩
  · exact not_not.mp fun violated => sound ⟨.irqFlagsDefined, violated⟩

/-- A text is parsed to the devices of the board that it describes. -/
theorem parseBoard_eq_ok_iff {text : String} {devices : List Device} :
    parseBoard text = .ok devices ↔
      ∃ board, Board.ofDocument text = .ok board ∧ board.toDevices = .ok devices := by
  rw [parseBoard]
  cases Board.ofDocument text with
  | error fault => simp
  | ok board => cases converted : board.toDevices <;> simp [converted]

/-- Which lists of devices are those of a board: the ones in whose flag words every bit has a name,
whatever the other fields hold. So compiling what a board text was parsed to never fails for a flag
word of a device, and every list that compiles is that of a board. -/
theorem Board.expressed_exact :
    (∀ devices, (∃ board : Board, board.toDevices = .ok devices) ↔
      ∀ device ∈ devices, deviceFlagFamily.Covers device.flags ∧
        irqFlagFamily.Covers device.irqFlags) ∧
    (∀ text devices, parseBoard text = .ok devices →
      ∀ config index name field reason, field = "flags" ∨ field = "irq_flags" →
        compile devices config ≠ .error (.invalid (.fieldOutOfRange index name field reason))) ∧
    ∀ devices config blob, compile devices config = .ok blob →
      ∃ board : Board, board.toDevices = .ok devices := by
  refine ⟨?expressed, ?parsed, ?compiled⟩
  case expressed =>
    intro devices
    constructor
    · rintro ⟨board, converted⟩
      exact Board.flagsNamed_of_toDevices converted
    · exact fun named => ⟨_, Board.toDevices_ofDevices named⟩
  case parsed =>
    intro text devices parsed config index name field reason word failed
    obtain ⟨board, -, converted⟩ := parseBoard_eq_ok_iff.mp parsed
    have named := Board.flagsNamed_of_toDevices converted
    obtain ⟨position, device, first, refused⟩ :=
      validateAll_eq_error_iff.mp (validateAll_of_compile_invalid failed)
    exact (named device (List.mem_of_getElem? first.here)).validate_ne word refused
  case compiled =>
    intro devices config blob compiled
    have valid := (compile_eq_ok_iff.mp compiled).1.valid
    refine ⟨_, Board.toDevices_ofDevices fun device member => ?_⟩
    obtain ⟨index, here⟩ := List.getElem?_of_mem member
    exact Device.flagsNamed_of_sound (mt Device.refused_iff.mpr (valid index device here))

/-- A board of one clock with a memory-mapped region at zero. -/
def mappedClockText : String :=
  "\x7b\"devices\":[\x7b\"name\":\"a\",\"type\":\"RTC\",\"flags\":[\"mmio\"]\x7d]\x7d"

/-- The clock of that board. -/
def mappedClock : Device := { kind := .rtc, name := "a", flags := 1 }

/-- A clock whose interrupt line is too large for an entry, whose region ends past the last address,
and whose reserved slots are in use. -/
def crowdedClock : Device where
  kind := .rtc
  name := ""
  flags := 1
  regionBase := 18446744073709551615
  regionSize := 18446744073709551615
  irqLane := 1099511627776
  irqFlags := 1
  aux := ⟨1, 2, 3, 4⟩

/-- The mapped clock is refused, but for no flag word; without its flag it compiles. The crowded
clock is that of a board, until its flags get a second bit. -/
theorem Board.expressed_exact_clocks :
    parseBoard mappedClockText = .ok [mappedClock] ∧
    (∀ config index name reason,
      compile [mappedClock] config ≠
        .error (.invalid (.fieldOutOfRange index name "flags" reason))) ∧
    (∃ board : Board, board.toDevices = .ok [{ mappedClock with flags := 0 }]) ∧
    (∃ board : Board, board.toDevices = .ok [crowdedClock]) ∧
    ¬∃ board : Board, board.toDevices = .ok [{ crowdedClock with flags := 3 }] := by
  obtain ⟨expressed, parsed, compiled⟩ := Board.expressed_exact
  have read : parseBoard mappedClockText = .ok [mappedClock] := rfl
  have accepted : ∃ blob, compile [{ mappedClock with flags := 0 }] {} = .ok blob := ⟨_, rfl⟩
  obtain ⟨blob, done⟩ := accepted
  refine ⟨read, fun config index name reason => parsed _ _ read config index name "flags" reason
    (.inl rfl), compiled _ _ _ done, (expressed _).mpr ?_, mt (expressed _).mp ?_⟩
  · decide +kernel
  · decide +kernel

end BoardBlob
