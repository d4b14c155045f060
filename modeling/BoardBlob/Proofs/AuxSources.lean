import Mathlib.Data.List.FinRange
import BoardBlob.Proofs.TextOrder
import BoardBlob.Proofs.WrittenParts

/-!
# The sources of the auxiliary values

A device gives the value of a slot under the position of the slot, as a member of its own or as a
key, or under the meaning that the slot has for the kind. Each of these is a source, and the
conversion takes the sources one after the other. `Assigned` says what the sources so far have left
in the slots; the first source that is at fault after the sources before it is the one reported
(`aux_eq_error_iff`). Without one, each slot has the value of the source that names it, so neither
the order of the sources nor their spelling counts (`aux_congr`).
-/
namespace BoardBlob

/-! ## Keys -/

namespace DeviceKind

/-- A key stands for a slot of a kind: it is the slot's position, or its meaning for the kind. -/
inductive Names (kind : DeviceKind) : String → Fin 4 → Prop where
  | position (slot : Fin 4) : kind.Names (positionalKeys.get slot) slot
  | meaning {slot : Fin 4} {meaning : AuxSlot} (own : kind.auxLayout.get slot = some meaning) :
      kind.Names meaning.name slot

variable {kind : DeviceKind} {key : String} {slot : Fin 4}

/-- The position of a slot is found again, whatever the kind. -/
theorem resolveKey?_position (kind : DeviceKind) (slot : Fin 4) :
    kind.resolveKey? (positionalKeys.get slot) = some slot := by
  have found : ∀ slot, positionalKeys.find? (fun name => name == positionalKeys.get slot) =
      some slot := by
    decide
  rw [resolveKey?, found, Option.some_or]

/-- No two slots of a kind have one meaning, and no meaning is a position. -/
theorem resolveKey?_meaning {meaning : AuxSlot} (own : kind.auxLayout.get slot = some meaning) :
    kind.resolveKey? meaning.name = some slot := by
  have every : ∀ kind ∈ all, ∀ slot, ∀ meaning ∈ kind.auxLayout.get slot,
      kind.resolveKey? meaning.name = some slot := by
    decide +kernel
  exact every kind kind.mem_all slot meaning own

/-- The slot of a key is the one that it stands for. -/
theorem resolveKey?_eq_some_iff : kind.resolveKey? key = some slot ↔ kind.Names key slot := by
  constructor
  · intro found
    rcases Option.or_eq_some_iff.mp found with byPosition | ⟨_, byMeaning⟩
    · have passes := List.find?_some byPosition
      obtain rfl := beq_iff_eq.mp passes
      exact .position slot
    · have passes := List.find?_some byMeaning
      obtain ⟨meaning, own, same⟩ := (Option.any_eq_true _ _).mp passes
      obtain rfl := beq_iff_eq.mp same
      exact .meaning own
  · intro names
    cases names with
    | position => exact kind.resolveKey?_position slot
    | meaning own => exact resolveKey?_meaning own

/-- A key has no slot when it stands for none. -/
theorem resolveKey?_eq_none_iff : kind.resolveKey? key = none ↔ ∀ slot, ¬kind.Names key slot := by
  simp only [Option.eq_none_iff_forall_ne_some, ne_eq, resolveKey?_eq_some_iff]

/-- A key stands for at most one slot. -/
theorem Names.unique {other : Fin 4} (names : kind.Names key slot)
    (namesOther : kind.Names key other) : slot = other :=
  Option.some.inj
    ((resolveKey?_eq_some_iff.mpr names).symm.trans (resolveKey?_eq_some_iff.mpr namesOther))

end DeviceKind

/-! ## Sources -/

/-- A value as written, with its key. -/
abbrev AuxSource : Type := String × Quantity

namespace DeviceKind

/-- The values can be put into the slots of a kind. -/
structure Sound (kind : DeviceKind) (sources : List AuxSource) : Prop where
  /-- Every key stands for a slot. -/
  named : ∀ source ∈ sources, ∃ slot, kind.Names source.1 slot
  /-- No two keys stand for one slot. -/
  once : sources.Pairwise fun left right =>
    ∀ slot, kind.Names left.1 slot → ¬kind.Names right.1 slot
  /-- Every value is a number. -/
  numbers : ∀ source ∈ sources, ∃ value, source.2.value? = some value

/-- The value that a slot gets: that of the source that names it, and zero when there is none. -/
inductive SlotValue (kind : DeviceKind) (sources : List AuxSource) (slot : Fin 4) : UInt64 → Prop
  where
  | given {source : AuxSource} {value : UInt64} (member : source ∈ sources)
      (own : kind.Names source.1 slot) (read : source.2.value? = some value) :
      SlotValue kind sources slot value
  | absent (free : ∀ source ∈ sources, ¬kind.Names source.1 slot) : SlotValue kind sources slot 0

/-- A source without its spelling: the slot that its key stands for, and its value as written. -/
def place (kind : DeviceKind) (source : AuxSource) : Option (Fin 4) × Quantity :=
  (kind.resolveKey? source.1, source.2)

variable {kind : DeviceKind} {sources first second : List AuxSource} {source other : AuxSource}
  {slot : Fin 4} {value : UInt64}

/-- Sources are the same without their spelling when both the slots and the values are. -/
theorem place_eq_iff : kind.place source = kind.place other ↔
    kind.resolveKey? source.1 = kind.resolveKey? other.1 ∧ source.2 = other.2 := by
  rw [place, place, Prod.mk.injEq]

/-- Sources that are the same without their spelling name the same slots. -/
theorem names_congr (same : kind.place source = kind.place other) :
    kind.Names source.1 slot ↔ kind.Names other.1 slot := by
  rw [← resolveKey?_eq_some_iff, ← resolveKey?_eq_some_iff, (place_eq_iff.mp same).1]

/-- Of lists that are the same but for order and spelling, each has every source of the other. -/
theorem exists_mem_of_perm (same : (first.map kind.place).Perm (second.map kind.place))
    (member : source ∈ first) :
    ∃ other ∈ second, kind.place other = kind.place source :=
  List.mem_map.mp (same.mem_iff.mp (List.mem_map_of_mem member))

/-- Two keys stand for different slots whatever their spelling. -/
theorem once_iff_place : (sources.Pairwise fun left right =>
      ∀ slot, kind.Names left.1 slot → ¬kind.Names right.1 slot) ↔
    (sources.map kind.place).Pairwise fun left right =>
      ∀ slot, left.1 = some slot → right.1 ≠ some slot := by
  simp only [List.pairwise_map, place, ne_eq, resolveKey?_eq_some_iff]

/-- Whether values can be put into slots depends neither on the order of the sources nor on their
spelling. -/
theorem Sound.congr (sound : kind.Sound first)
    (same : (first.map kind.place).Perm (second.map kind.place)) : kind.Sound second where
  named source member := by
    obtain ⟨other, before, equal⟩ := exists_mem_of_perm same.symm member
    obtain ⟨slot, names⟩ := sound.named other before
    exact ⟨slot, (names_congr equal).mp names⟩
  once := by
    have apart := once_iff_place.mp sound.once
    apply once_iff_place.mpr
    refine same.pairwise apart fun differ slot left right => ?_
    exact differ slot right left
  numbers source member := by
    obtain ⟨other, before, equal⟩ := exists_mem_of_perm same.symm member
    exact (place_eq_iff.mp equal).2 ▸ sound.numbers other before

/-- The value of a slot depends neither on the order of the sources nor on their spelling. -/
theorem SlotValue.congr (has : kind.SlotValue first slot value)
    (same : (first.map kind.place).Perm (second.map kind.place)) :
    kind.SlotValue second slot value := by
  cases has with
  | @given source _ member own read =>
    obtain ⟨other, after, equal⟩ := exists_mem_of_perm same member
    have written := (place_eq_iff.mp equal).2
    exact .given after ((names_congr equal).mpr own) (written ▸ read)
  | absent free =>
    refine .absent fun source member names => ?_
    obtain ⟨other, before, equal⟩ := exists_mem_of_perm same.symm member
    exact free other before ((names_congr equal).mpr names)

end DeviceKind

/-! ## One source -/

namespace Conversion

variable {conversion : Conversion} {kind : DeviceKind} {earlier sources rest : List AuxSource}
  {source : AuxSource} {given : Slots (Option UInt64)} {fault : DeviceFault} {position : Nat}

/-- What is wrong with a source after the sources before it. The key is looked at before the slot,
and the slot before the number. -/
inductive SourceFault (conversion : Conversion) (kind : DeviceKind) (earlier : List AuxSource)
    (source : AuxSource) : DeviceFault → Prop where
  | unknownKey (unnamed : ∀ slot, ¬kind.Names source.1 slot) :
      SourceFault conversion kind earlier source
        (.fieldOutOfRange conversion.index conversion.name "aux" (.noSuchSlot kind source.1))
  | givenBefore {slot : Fin 4} {other : AuxSource} (own : kind.Names source.1 slot)
      (before : other ∈ earlier) (same : kind.Names other.1 slot) :
      SourceFault conversion kind earlier source
        (.fieldOutOfRange conversion.index conversion.name (Entry.auxFields.get slot).name
          .givenMoreThanOnce)
  | notANumber {slot : Fin 4} {text : String} (own : kind.Names source.1 slot)
      (fresh : ∀ other ∈ earlier, ¬kind.Names other.1 slot) (written : source.2 = .text text)
      (unread : source.2.value? = none) :
      SourceFault conversion kind earlier source
        (.fieldOutOfRange conversion.index conversion.name (Entry.auxFields.get slot).name
          (.notANumber text))

/-- A source is at fault at its position. -/
def AtFault (conversion : Conversion) (kind : DeviceKind) (sources : List AuxSource)
    (position : Nat) (source : AuxSource) : Prop :=
  ∃ fault, conversion.SourceFault kind (sources.take position) source fault

/-- The slots hold what some sources have given. -/
structure Assigned (kind : DeviceKind) (earlier : List AuxSource)
    (given : Slots (Option UInt64)) : Prop where
  /-- Every source has a number. -/
  numbers : ∀ source ∈ earlier, ∃ value, source.2.value? = some value
  /-- A slot holds the number of a source that names it, and of no other. -/
  holds : ∀ slot value, given.get slot = some value ↔
    ∃ source ∈ earlier, kind.Names source.1 slot ∧ source.2.value? = some value

namespace Assigned

/-- Before the first source, no slot holds a value. -/
theorem start (kind : DeviceKind) : Assigned kind [] (.replicate none) where
  numbers _ member := absurd member List.not_mem_nil
  holds slot value := by
    match slot with
    | 0 | 1 | 2 | 3 => simp [Slots.replicate, Slots.get]

/-- A slot holds a value when a source names it, be the value zero or not. -/
theorem isSome_iff (assigned : Assigned kind earlier given) {slot : Fin 4} :
    (given.get slot).isSome ↔ ∃ source ∈ earlier, kind.Names source.1 slot := by
  rw [Option.isSome_iff_exists]
  constructor
  · rintro ⟨value, held⟩
    obtain ⟨source, member, own, _⟩ := (assigned.holds slot value).mp held
    exact ⟨source, member, own⟩
  · rintro ⟨source, member, own⟩
    obtain ⟨value, read⟩ := assigned.numbers source member
    exact ⟨value, (assigned.holds slot value).mpr ⟨source, member, own, read⟩⟩

/-- A slot holds nothing when no source names it. -/
theorem not_isSome_iff (assigned : Assigned kind earlier given) {slot : Fin 4} :
    ¬(given.get slot).isSome ↔ ∀ source ∈ earlier, ¬kind.Names source.1 slot := by
  rw [assigned.isSome_iff]
  simp only [not_exists, not_and]

/-- One more source, which names a slot that holds nothing, gives that slot its value. -/
theorem append (assigned : Assigned kind earlier given) {slot : Fin 4} {value : UInt64}
    (own : kind.Names source.1 slot) (free : ∀ other ∈ earlier, ¬kind.Names other.1 slot)
    (read : source.2.value? = some value) :
    Assigned kind (earlier ++ [source]) (given.set slot (some value)) where
  numbers other member := by
    rcases List.mem_append.mp member with before | last
    · exact assigned.numbers other before
    · obtain rfl := List.mem_singleton.mp last
      exact ⟨value, read⟩
  holds place found := by
    simp only [List.mem_append, List.mem_singleton, or_and_right, exists_or, exists_eq_left]
    by_cases same : place = slot
    · subst same
      have notBefore : ¬∃ other ∈ earlier,
          kind.Names other.1 place ∧ other.2.value? = some found := by
        rintro ⟨other, before, names, _⟩
        exact free other before names
      rw [Slots.get_set_self, read, or_iff_right notBefore, and_iff_right own]
    · have notLast : ¬(kind.Names source.1 place ∧ source.2.value? = some found) := by
        rintro ⟨names, _⟩
        exact same (names.unique own)
      rw [Slots.get_set_ne given _ same, assigned.holds, or_iff_left notLast]

/-- A slot that holds nothing in the end is zero. -/
theorem slotValue_iff (assigned : Assigned kind sources given) {slot : Fin 4} {value : UInt64} :
    kind.SlotValue sources slot value ↔ (given.get slot).getD 0 = value := by
  constructor
  · intro has
    cases has with
    | given member own read =>
      rw [(assigned.holds slot value).mpr ⟨_, member, own, read⟩, Option.getD_some]
    | absent free =>
      have empty := assigned.not_isSome_iff.mpr free
      rw [Option.not_isSome_iff_eq_none.mp empty, Option.getD_none]
  · rintro rfl
    cases held : given.get slot with
    | some value =>
      obtain ⟨source, member, own, read⟩ := (assigned.holds slot value).mp held
      exact .given member own read
    | none => exact .absent (assigned.not_isSome_iff.mp (Option.not_isSome_iff_eq_none.mpr held))

/-- A source that is at fault ends the conversion. -/
theorem assignAux_of_fault (assigned : Assigned kind earlier given)
    (wrong : conversion.SourceFault kind earlier source fault) :
    conversion.assignAux kind given (source :: rest) = .error fault := by
  rw [assignAux.eq_def]
  dsimp only
  cases wrong with
  | unknownKey unnamed =>
    rw [DeviceKind.resolveKey?_eq_none_iff.mpr unnamed]
    rfl
  | givenBefore own before same =>
    rw [DeviceKind.resolveKey?_eq_some_iff.mpr own]
    exact if_pos (assigned.isSome_iff.mpr ⟨_, before, same⟩)
  | @notANumber slot text own fresh written unread =>
    have free := assigned.not_isSome_iff.mpr fresh
    have failed : conversion.number (Entry.auxFields.get slot) source.2 = .error _ :=
      number_eq_error_iff.mpr ⟨text, written, unread, rfl⟩
    rw [DeviceKind.resolveKey?_eq_some_iff.mpr own]
    dsimp only
    rw [if_neg free, failed]

/-- A source that is not at fault gives its slot its value, and the conversion goes on. -/
theorem assignAux_of_sound (assigned : Assigned kind earlier given)
    (sound : ∀ fault, ¬conversion.SourceFault kind earlier source fault)
    (rest : List AuxSource) :
    ∃ next, Assigned kind (earlier ++ [source]) next ∧
      conversion.assignAux kind given (source :: rest) = conversion.assignAux kind next rest := by
  cases resolved : kind.resolveKey? source.1 with
  | none =>
    exact absurd (.unknownKey (DeviceKind.resolveKey?_eq_none_iff.mp resolved)) (sound _)
  | some slot =>
    have own := DeviceKind.resolveKey?_eq_some_iff.mp resolved
    have fresh : ∀ other ∈ earlier, ¬kind.Names other.1 slot := fun other before same =>
      sound _ (.givenBefore own before same)
    have free := assigned.not_isSome_iff.mpr fresh
    cases converted : conversion.number (Entry.auxFields.get slot) source.2 with
    | error fault =>
      obtain ⟨text, written, unread, rfl⟩ := number_eq_error_iff.mp converted
      exact absurd (.notANumber own fresh written unread) (sound _)
    | ok value =>
      refine ⟨_, assigned.append own fresh (number_eq_ok_iff.mp converted), ?_⟩
      rw [assignAux.eq_def]
      dsimp only
      rw [resolved]
      dsimp only
      rw [if_neg free, converted]

end Assigned

/-! ## All sources -/

/-- A source that has been taken is the last of the earlier ones for every source after it. -/
theorem append_take_cons (earlier : List AuxSource) (head : AuxSource) (rest : List AuxSource)
    (count : Nat) :
    earlier ++ (head :: rest).take (count + 1) = (earlier ++ [head]) ++ rest.take count := by
  rw [List.take_succ_cons, List.append_assoc, List.singleton_append]

/-- The first source at fault ends the conversion with its fault. -/
theorem assignAux_of_firstAt (assigned : Assigned kind earlier given)
    (first : FirstAt
      (fun position source =>
        ∃ fault, conversion.SourceFault kind (earlier ++ rest.take position) source fault)
      rest position source)
    (wrong : conversion.SourceFault kind (earlier ++ rest.take position) source fault) :
    conversion.assignAux kind given rest = .error fault := by
  -- By the sources that are left; each one that passes joins the earlier ones of `assigned`.
  induction rest generalizing earlier given position with
  | nil => cases first.here
  | cons head rest ih =>
    cases position with
    | zero =>
      cases first.here
      rw [List.take_zero, List.append_nil] at wrong
      exact assigned.assignAux_of_fault wrong
    | succ position =>
      obtain ⟨pass, later⟩ := first.tail
      simp only [append_take_cons, List.take_zero, List.append_nil, not_exists] at later pass wrong
      obtain ⟨next, assignedNext, continues⟩ := assigned.assignAux_of_sound pass rest
      rw [continues]
      exact ih assignedNext later wrong

/-- Without a source at fault, the slots hold in the end what all sources have given. -/
theorem assignAux_of_noneFails (assigned : Assigned kind earlier given)
    (pass : NoneFails
      (fun position source =>
        ∃ fault, conversion.SourceFault kind (earlier ++ rest.take position) source fault) rest) :
    ∃ last, Assigned kind (earlier ++ rest) last ∧
      conversion.assignAux kind given rest = .ok last := by
  induction rest generalizing earlier given with
  | nil => exact ⟨given, by rwa [List.append_nil], rfl⟩
  | cons head rest ih =>
    obtain ⟨passHead, passRest⟩ := NoneFails.cons_iff.mp pass
    simp only [append_take_cons, List.take_zero, List.append_nil, not_exists] at passHead passRest
    obtain ⟨next, assignedNext, continues⟩ := assigned.assignAux_of_sound passHead rest
    obtain ⟨last, assignedLast, ends⟩ := ih assignedNext (by simpa only [not_exists] using passRest)
    exact ⟨last, by simpa using assignedLast, continues.trans ends⟩

/-- When the values can be put into the slots, no source is at fault. -/
theorem not_atFault (sound : kind.Sound sources) (found : sources[position]? = some source) :
    ¬conversion.AtFault kind sources position source := by
  rintro ⟨fault, wrong⟩
  have member := List.mem_of_getElem? found
  cases wrong with
  | unknownKey unnamed =>
    obtain ⟨slot, own⟩ := sound.named source member
    exact unnamed slot own
  | @givenBefore slot _ own before same =>
    obtain ⟨left, inside, rfl⟩ := List.mem_take_iff_getElem.mp before
    obtain ⟨insideToo, rfl⟩ := List.getElem?_eq_some_iff.mp found
    exact List.pairwise_iff_getElem.mp sound.once left position (by omega) insideToo (by omega)
      slot same own
  | notANumber own fresh written unread =>
    obtain ⟨value, read⟩ := sound.numbers source member
    rw [unread] at read
    contradiction

/-- When no source is at fault, the values can be put into the slots. -/
theorem sound_of_noneFails (pass : NoneFails (conversion.AtFault kind sources) sources) :
    kind.Sound sources := by
  have named : ∀ source ∈ sources, ∃ slot, kind.Names source.1 slot := by
    intro source member
    obtain ⟨position, found⟩ := List.getElem?_of_mem member
    by_contra unnamed
    exact pass position source found ⟨_, .unknownKey (not_exists.mp unnamed)⟩
  have fresh {position : Nat} {source : AuxSource} (found : sources[position]? = some source)
      {slot : Fin 4} (own : kind.Names source.1 slot) :
      ∀ other ∈ sources.take position, ¬kind.Names other.1 slot := fun other before same =>
    pass position source found ⟨_, .givenBefore own before same⟩
  refine ⟨named, ?once, ?numbers⟩
  case once =>
    -- Of two sources of one slot, the later one is at fault: it finds the slot given.
    refine List.pairwise_iff_getElem.mpr fun left right inside insideToo before => ?_
    intro slot names namesToo
    have taken : sources[left] ∈ sources.take right :=
      List.mem_take_iff_getElem.mpr ⟨left, by omega, rfl⟩
    exact fresh (List.getElem?_eq_getElem insideToo) namesToo _ taken names
  case numbers =>
    intro source member
    obtain ⟨position, found⟩ := List.getElem?_of_mem member
    obtain ⟨slot, own⟩ := named source member
    cases converted : conversion.number (Entry.auxFields.get slot) source.2 with
    | ok value => exact ⟨value, number_eq_ok_iff.mp converted⟩
    | error fault =>
      obtain ⟨text, written, unread, _⟩ := number_eq_error_iff.mp converted
      exact absurd ⟨_, .notANumber own (fresh found own) written unread⟩
        (pass position source found)

variable {device other : BoardDevice} {result : Slots UInt64}

/-- The conversion ends in one of two ways, told by the sources. -/
theorem aux_cases (conversion : Conversion) (kind : DeviceKind) (device : BoardDevice) :
    (∃ position source fault,
      FirstAt (conversion.AtFault kind (auxSources device)) (auxSources device) position source ∧
        conversion.SourceFault kind ((auxSources device).take position) source fault ∧
        conversion.aux kind device = .error fault) ∨
      kind.Sound (auxSources device) ∧ ∃ result, conversion.aux kind device = .ok result ∧
        ∀ slot value, kind.SlotValue (auxSources device) slot value ↔ result.get slot = value := by
  rw [aux]
  cases FirstAt.exists_or_noneFails (conversion.AtFault kind (auxSources device))
      (auxSources device) with
  | inl failing =>
    obtain ⟨position, source, first⟩ := failing
    obtain ⟨fault, wrong⟩ := first.fault
    refine Or.inl ⟨position, source, fault, first, wrong, ?_⟩
    rw [assignAux_of_firstAt (Assigned.start kind) first wrong]
    rfl
  | inr pass =>
    obtain ⟨last, assigned, ends⟩ := assignAux_of_noneFails (Assigned.start kind) pass
    refine Or.inr ⟨sound_of_noneFails pass, _, by rw [ends]; rfl, fun slot value => ?_⟩
    rw [Slots.get_map]
    exact assigned.slotValue_iff

/-- The values are converted when they can be put into the slots, each to its slot. -/
theorem aux_eq_ok_iff : conversion.aux kind device = .ok result ↔
    kind.Sound (auxSources device) ∧
      ∀ slot, kind.SlotValue (auxSources device) slot (result.get slot) := by
  rcases aux_cases conversion kind device with
    ⟨position, source, _, first, _, failed⟩ | ⟨sound, found, converted, values⟩
  · rw [failed]
    constructor
    · intro converted
      contradiction
    · rintro ⟨sound, _⟩
      exact absurd first.fault (not_atFault sound first.here)
  · rw [converted, Except.ok.injEq]
    constructor
    · rintro rfl
      exact ⟨sound, fun slot => (values slot _).mpr rfl⟩
    · rintro ⟨_, holds⟩
      exact Slots.ext_get fun slot => (values slot _).mp (holds slot)

/-- The values are converted exactly when they can be put into the slots. -/
theorem exists_aux_eq_ok_iff :
    (∃ result, conversion.aux kind device = .ok result) ↔ kind.Sound (auxSources device) := by
  constructor
  · rintro ⟨result, converted⟩
    exact (aux_eq_ok_iff.mp converted).1
  · intro sound
    rcases aux_cases conversion kind device with
      ⟨position, source, _, first, _, _⟩ | ⟨_, result, converted, _⟩
    · exact absurd first.fault (not_atFault sound first.here)
    · exact ⟨result, converted⟩

/-- The values have the fault of the first source that is at fault. -/
theorem aux_eq_error_iff : conversion.aux kind device = .error fault ↔
    ∃ position source,
      FirstAt (conversion.AtFault kind (auxSources device)) (auxSources device) position source ∧
        conversion.SourceFault kind ((auxSources device).take position) source fault := by
  constructor
  · intro failed
    rcases aux_cases conversion kind device with
      ⟨position, source, found, first, wrong, failedToo⟩ | ⟨_, _, converted, _⟩
    · obtain rfl := Except.error.inj (failedToo.symm.trans failed)
      exact ⟨position, source, first, wrong⟩
    · rw [converted] at failed
      contradiction
  · rintro ⟨position, source, first, wrong⟩
    rw [aux, assignAux_of_firstAt (Assigned.start kind) first wrong]
    rfl

/-- Values are converted to the same slots in another order and another spelling of their keys. -/
theorem aux_congr
    (same : ((auxSources device).map kind.place).Perm ((auxSources other).map kind.place)) :
    conversion.aux kind device = .ok result ↔ conversion.aux kind other = .ok result := by
  rw [aux_eq_ok_iff, aux_eq_ok_iff]
  constructor
  · rintro ⟨sound, values⟩
    exact ⟨sound.congr same, fun slot => (values slot).congr same⟩
  · rintro ⟨sound, values⟩
    exact ⟨sound.congr same.symm, fun slot => (values slot).congr same.symm⟩

/-! ## The order of the sources -/

/-- The values that are members of the device, by position. -/
def directSources (device : BoardDevice) : List AuxSource :=
  (List.finRange 4).filterMap fun slot =>
    (device.directAux.get slot).map fun value => (DeviceKind.positionalKeys.get slot, value)

/-- The field of a slot has the name of its position. -/
theorem name_auxFields (slot : Fin 4) :
    (Entry.auxFields.get slot).name = DeviceKind.positionalKeys.get slot := by
  match slot with
  | 0 | 1 | 2 | 3 => rfl

/-- The sources are the members of the device and then the keys. -/
theorem auxSources_eq (device : BoardDevice) :
    auxSources device = directSources device ++ device.keyedAux.entries := by
  simp only [auxSources, directSources, name_auxFields]

/-- A member of the device is given for a slot. -/
theorem mem_directSources : source ∈ directSources device ↔ ∃ slot,
    source.1 = DeviceKind.positionalKeys.get slot ∧
      device.directAux.get slot = some source.2 := by
  simp only [directSources, List.mem_filterMap, List.mem_finRange, true_and, Option.map_eq_some_iff,
    Prod.ext_iff]
  constructor
  · rintro ⟨slot, value, found, same, rfl⟩
    exact ⟨slot, same.symm, found⟩
  · rintro ⟨slot, same, found⟩
    exact ⟨slot, _, found, same.symm, rfl⟩

/-- The members come in the order of their positions. -/
theorem pairwise_directSources (device : BoardDevice) :
    (directSources device).Pairwise fun left right => Utf8.bytes left.1 < Utf8.bytes right.1 := by
  have ascending : ∀ slot other : Fin 4, slot < other →
      Utf8.bytes (DeviceKind.positionalKeys.get slot) <
        Utf8.bytes (DeviceKind.positionalKeys.get other) := by
    decide +kernel
  refine (List.pairwise_lt_finRange 4).filterMap _ ?_
  intro slot other before left given right givenToo
  obtain ⟨_, _, rfl⟩ := Option.map_eq_some_iff.mp given
  obtain ⟨_, _, rfl⟩ := Option.map_eq_some_iff.mp givenToo
  exact ascending slot other before

/-- The keys come in the order of their bytes. -/
theorem pairwise_entries (quantities : KeyedQuantities) :
    quantities.entries.Pairwise fun left right => Utf8.bytes left.1 < Utf8.bytes right.1 :=
  quantities.ascending.imp Utf8.bytes_lt_of_lt

end Conversion

open Conversion (auxSources directSources)

/-- The auxiliary values of any device, as one of any kind. The sources are the members of the
device by position, and then the keys in the order of their bytes. They are converted exactly when
every key stands for a slot, no two of the sources name one slot, and every value is a number; each
slot then has the value of the source that names it, or zero. In another order or with other
spellings of their slots, the sources give the same. Otherwise the fault is that of the first source
at fault, in whose check an unknown key comes before a slot that was given, zero or not, and that
before a text that is no number. -/
theorem aux_exact (conversion : Conversion) (kind : DeviceKind) (device : BoardDevice) :
    auxSources device = directSources device ++ device.keyedAux.entries ∧
    (∀ source, source ∈ directSources device ↔ ∃ slot,
      source.1 = DeviceKind.positionalKeys.get slot ∧
        device.directAux.get slot = some source.2) ∧
    ((directSources device).Pairwise fun left right =>
      Utf8.bytes left.1 < Utf8.bytes right.1) ∧
    (device.keyedAux.entries.Pairwise fun left right =>
      Utf8.bytes left.1 < Utf8.bytes right.1) ∧
    ((∃ result, conversion.aux kind device = .ok result) ↔
      (∀ entry ∈ device.keyedAux.entries, ∃ slot, kind.Names entry.1 slot) ∧
      ((auxSources device).Pairwise fun left right =>
        ∀ slot, kind.Names left.1 slot → ¬kind.Names right.1 slot) ∧
      ∀ source ∈ auxSources device, ∃ value, source.2.value? = some value) ∧
    (∀ result, conversion.aux kind device = .ok result →
      ∀ slot, kind.SlotValue (auxSources device) slot (result.get slot)) ∧
    (∀ other, ((auxSources device).map kind.place).Perm ((auxSources other).map kind.place) →
      ∀ result, conversion.aux kind device = .ok result ↔
        conversion.aux kind other = .ok result) ∧
    ∀ fault, conversion.aux kind device = .error fault ↔ ∃ position source,
      FirstAt (conversion.AtFault kind (auxSources device)) (auxSources device) position source ∧
        conversion.SourceFault kind ((auxSources device).take position) source fault := by
  refine ⟨Conversion.auxSources_eq device, fun source => Conversion.mem_directSources,
    Conversion.pairwise_directSources device, Conversion.pairwise_entries device.keyedAux,
    ?converted, fun result done => (Conversion.aux_eq_ok_iff.mp done).2,
    fun other same result => Conversion.aux_congr same, fun fault => Conversion.aux_eq_error_iff⟩
  case converted =>
    rw [Conversion.exists_aux_eq_ok_iff]
    constructor
    · rintro ⟨named, once, numbers⟩
      refine ⟨fun entry listed => named entry ?_, once, numbers⟩
      rw [Conversion.auxSources_eq]
      exact List.mem_append_right _ listed
    · rintro ⟨named, once, numbers⟩
      refine ⟨fun source member => ?_, once, numbers⟩
      rw [Conversion.auxSources_eq, List.mem_append] at member
      rcases member with direct | keyed
      · obtain ⟨slot, same, _⟩ := Conversion.mem_directSources.mp direct
        exact ⟨slot, same ▸ .position slot⟩
      · exact named source keyed

/-- A serial port with a zero in its first slot. -/
def zeroClock : BoardDevice where
  name := "u"
  kind := .name "UART"
  directAux := ⟨some (.whole 0), none, none, none⟩
  keyedAux := KeyedQuantities.empty.insert "clock_hz" (.whole 2)

/-- A serial port with one value, by position. -/
def fiveByPosition : BoardDevice where
  name := "u"
  kind := .name "UART"
  directAux := ⟨some (.whole 5), none, none, none⟩

/-- The same value, by the meaning of the slot. -/
def fiveByMeaning : BoardDevice where
  name := "u"
  kind := .name "UART"
  keyedAux := KeyedQuantities.empty.insert "clock_hz" (.whole 5)

/-- A slot that was given a zero is not given again: the fault is that of the key, which is the
second source. A value is converted to the same slots under either spelling. -/
theorem aux_exact_zeroClock :
    Conversion.aux ⟨3, "u"⟩ .uart zeroClock =
      .error (.fieldOutOfRange 3 "u" "aux1" .givenMoreThanOnce) ∧
    Conversion.aux ⟨3, "u"⟩ .uart fiveByPosition = .ok ⟨5, 0, 0, 0⟩ ∧
    Conversion.aux ⟨3, "u"⟩ .uart fiveByMeaning = .ok ⟨5, 0, 0, 0⟩ := by
  obtain ⟨_, _, _, _, _, _, _, failed⟩ := aux_exact ⟨3, "u"⟩ .uart zeroClock
  obtain ⟨_, _, _, _, _, _, spelled, _⟩ := aux_exact ⟨3, "u"⟩ .uart fiveByPosition
  have clock : DeviceKind.uart.Names AuxSlot.clockHz.name 0 := .meaning rfl
  have before : ("aux1", .whole 0) ∈ (auxSources zeroClock).take 1 := by decide +kernel
  have again : Conversion.SourceFault ⟨3, "u"⟩ .uart ((auxSources zeroClock).take 1)
      ("clock_hz", .whole 2) (.fieldOutOfRange 3 "u" "aux1" .givenMoreThanOnce) :=
    .givenBefore clock before (.position 0)
  have byPosition : Conversion.aux ⟨3, "u"⟩ .uart fiveByPosition = .ok ⟨5, 0, 0, 0⟩ := by
    decide +kernel
  refine ⟨(failed _).mpr ⟨1, ("clock_hz", .whole 2), ?first, again⟩, byPosition,
    (spelled fiveByMeaning (by decide +kernel) _).mp byPosition⟩
  refine ⟨by decide +kernel, ⟨_, again⟩, fun position other before found => ?_⟩
  obtain rfl : position = 0 := by omega
  cases found
  rintro ⟨_, wrong⟩
  cases wrong with
  | unknownKey unnamed => exact unnamed 0 (.position 0)
  | givenBefore _ member _ => exact absurd member List.not_mem_nil
  | notANumber _ _ written _ => contradiction

end BoardBlob
