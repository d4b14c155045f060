import BoardBlob.Board.Document
import BoardBlob.Proofs.BoardConversion
import BoardBlob.Proofs.SteadyReaders

/-!
# Boards with gaps for a number

What the reader of a board makes of a template with gaps. The numbers of a board are uniform in the
word that fills the gaps: each is the word or does not depend on it (`Quantity.Uniform`), and a
number whose place in the template is a gap is the word. Everything else does not depend on the
word, but for a device type that is itself a gap (`Board.steady`). No part of a board takes a
refused token (`Board.accepting`).
-/
namespace BoardBlob

open Json (Accepting Constant Kept Member OrNull Part Reader Record Steady Template)

/-! ## Numbers and types -/

namespace Quantity

/-- A number that does nothing with a word but to be it. -/
inductive Uniform : (UInt64 → Quantity) → Prop
  | constant (quantity : Quantity) : Uniform fun _ => quantity
  | word : Uniform whole

/-- A number as a part of a template says: uniform, and the word where the part is a gap. -/
structure Held (part : Option Template) (family : UInt64 → Quantity) : Prop where
  uniform : Uniform family
  gap : part = some .gap → family = whole

/-- A number takes no refused token. -/
theorem accepting (opened : Nat) : Accepting (reader opened) := by
  intro tokens value rest reads
  unfold reader at reads
  split at reads
  case h_1 | h_2 =>
    obtain ⟨rfl, rfl⟩ := Prod.mk.inj (Except.ok.inj reads)
    exact .one (by rintro ⟨⟩) _
  case h_3 => cases reads

/-- A number is read as the template says. -/
theorem steady (opened : Nat) :
    Steady (fun template => Held (some template)) fun _ => reader opened := by
  intro template known rest value left reads
  cases template with
  | gap => exact ⟨whole, ⟨.word, fun _ => rfl⟩, fun word rest => rfl⟩
  | text content => exact ⟨_, ⟨.constant (.text content), by rintro ⟨⟩⟩, fun word rest => rfl⟩
  | number value =>
    cases value with
    | whole value => exact ⟨_, ⟨.constant (.whole value), by rintro ⟨⟩⟩, fun word rest => rfl⟩
    | _ => cases reads
  | _ => cases reads

/-- A number that was not given is zero. -/
theorem held_of_part {part : Option Template} {family : UInt64 → Option Quantity}
    (kept : Part (fun template => Held (some template)) part family) :
    Held part fun word => (family word).getD (.whole 0) := by
  cases kept with
  | absent => exact ⟨.constant _, by rintro ⟨⟩⟩
  | given held => exact held

/-- A number that may be missing, as a part of a template says. -/
inductive HeldOrNone (part : Option Template) : (UInt64 → Option Quantity) → Prop
  | none (solid : part ≠ some .gap) : HeldOrNone part fun _ => none
  | some {family : UInt64 → Quantity} (held : Held part family) :
      HeldOrNone part fun word => some (family word)

/-- A number of a record that was not given, or is null, is zero. -/
theorem held_of_nullable {α : Type} {describes : Template → (UInt64 → α) → Prop}
    {part : Option Template} {family : UInt64 → Option (Option α)}
    (kept : Part (OrNull describes) part family) {member : Template → Option Template}
    (free : member .null = .none) {field : α → Quantity}
    (held : ∀ template family, describes template family →
      Held (member template) fun word => field (family word)) :
    Held (part.bind member) fun word => ((family word).getD .none).elim (.whole 0) field := by
  cases kept with
  | absent => exact ⟨.constant _, by rintro ⟨⟩⟩
  | given described =>
    cases described with
    | null => exact ⟨.constant _, by rw [Option.bind_some, free]; rintro ⟨⟩⟩
    | value described => exact held _ _ described

/-- A number that may be missing is missing with every word, or there with every word and uniform.
-/
theorem HeldOrNone.uniform_or_none {part : Option Template} {family : UInt64 → Option Quantity}
    (held : HeldOrNone part family) : (∀ word, family word = .none) ∨
      ∃ values, Uniform values ∧ ∀ word, family word = .some (values word) := by
  cases held with
  | none => exact Or.inl fun word => rfl
  | some held => exact Or.inr ⟨_, held.uniform, fun word => rfl⟩

/-- A number whose place is a gap is there. -/
theorem HeldOrNone.eq_word {part : Option Template} {family : UInt64 → Option Quantity}
    (held : HeldOrNone part family) (gap : part = .some .gap) (word : UInt64) :
    family word = .some (.whole word) := by
  cases held with
  | none solid => exact absurd gap solid
  | some held => exact congrArg _ (congrFun (held.gap gap) word)

/-- A number or null that was not given is missing. -/
theorem heldOrNone_of_part {part : Option Template} {family : UInt64 → Option (Option Quantity)}
    (kept : Part (OrNull fun template => Held (some template)) part family) :
    HeldOrNone part fun word => (family word).getD none := by
  cases kept with
  | absent => exact .none (by rintro ⟨⟩)
  | given described =>
    cases described with
    | null => exact .none (by rintro ⟨⟩)
    | value held => exact .some held

/-- When a number has a value with one word, it has one with every word. -/
theorem Uniform.exists_value? {family : UInt64 → Quantity} (uniform : Uniform family)
    {known : UInt64} (valued : ∃ value, (family known).value? = some value) (word : UInt64) :
    ∃ value, (family word).value? = some value := by
  cases uniform with
  | constant quantity => exact valued
  | word => exact ⟨word, rfl⟩

end Quantity

namespace KindTag

/-- A device type as a part of a template says: it does not depend on the word but where the part is
a gap. -/
def Held (part : Option Template) (family : UInt64 → KindTag) : Prop :=
  part ≠ some .gap → Constant family

/-- A device type takes no refused token. -/
theorem accepting (opened : Nat) : Accepting (reader opened) := by
  intro tokens value rest reads
  unfold reader at reads
  split at reads
  case h_1 | h_2 =>
    obtain ⟨rfl, rfl⟩ := Prod.mk.inj (Except.ok.inj reads)
    exact .one (by rintro ⟨⟩) _
  case h_3 => cases reads

/-- A device type is read as the template says. -/
theorem steady (opened : Nat) :
    Steady (fun template => Held (some template)) fun _ => reader opened := by
  intro template known rest value left reads
  cases template with
  | gap => exact ⟨tag, fun solid => absurd rfl solid, fun word rest => rfl⟩
  | text content => exact ⟨_, fun _ => ⟨.name content, rfl⟩, fun word rest => rfl⟩
  | number value =>
    cases value with
    | whole value => exact ⟨_, fun _ => ⟨.tag value, rfl⟩, fun word rest => rfl⟩
    | _ => cases reads
  | _ => cases reads

end KindTag

/-! ## Numbers under keys -/

/-- Numbers with their keys, for one word. -/
def evaluated (sources : List (String × (UInt64 → Quantity))) (word : UInt64) : List AuxSource :=
  sources.map fun source => (source.1, source.2 word)

namespace KeyedQuantities

/-- Numbers under keys as the members of an object say: uniform under keys that do not depend on the
word, and the word under a key whose last number is a gap. -/
structure Held (given : List (String × Template)) (family : UInt64 → KeyedQuantities) : Prop where
  entries : ∃ sources, (∀ source ∈ sources, Quantity.Uniform source.2) ∧
    ∀ word, (family word).entries = evaluated sources word
  gap : ∀ key, given.lookup key = some .gap → ∀ word, (key, .whole word) ∈ (family word).entries

variable {key other : String} {value : Quantity} {entries : List (String × Quantity)}

/-- An inserted number is there. -/
theorem mem_insertIn_self : (key, value) ∈ insertIn key value entries := by
  induction entries with
  | nil => exact List.mem_singleton_self _
  | cons entry rest ih =>
    unfold insertIn
    split
    · exact List.mem_cons_self
    · split
      · exact List.mem_cons_self
      · exact List.mem_cons_of_mem _ ih

/-- A number under another key is still there. -/
theorem mem_insertIn_of_ne {found : Quantity} (differ : other ≠ key)
    (member : (other, found) ∈ entries) : (other, found) ∈ insertIn key value entries := by
  induction entries with
  | nil => exact absurd member List.not_mem_nil
  | cons entry rest ih =>
    unfold insertIn
    split
    · exact List.mem_cons_of_mem _ member
    · rcases List.mem_cons.mp member with rfl | later
      · rw [if_neg (Ne.symm differ)]
        exact List.mem_cons_self
      · split
        · exact List.mem_cons_of_mem _ later
        · exact List.mem_cons_of_mem _ (ih later)

/-- An insertion of a uniform number keeps numbers uniform. -/
theorem exists_insertIn_evaluated {family : UInt64 → Quantity} (uniform : Quantity.Uniform family)
    (key : String) {sources : List (String × (UInt64 → Quantity))}
    (each : ∀ source ∈ sources, Quantity.Uniform source.2) :
    ∃ inserted, (∀ source ∈ inserted, Quantity.Uniform source.2) ∧
      ∀ word, insertIn key (family word) (evaluated sources word) = evaluated inserted word := by
  induction sources with
  | nil => exact ⟨[(key, family)], by simpa using uniform, fun word => rfl⟩
  | cons source rest ih =>
    obtain ⟨own, others⟩ := List.forall_mem_cons.mp each
    by_cases before : key < source.1
    case pos =>
      refine ⟨(key, family) :: source :: rest, ?_, fun word => ?_⟩
      · exact List.forall_mem_cons.mpr ⟨uniform, each⟩
      · simp [evaluated, insertIn, before]
    case neg =>
      by_cases same : key = source.1
      case pos =>
        refine ⟨(key, family) :: rest, List.forall_mem_cons.mpr ⟨uniform, others⟩, fun word => ?_⟩
        simp [evaluated, insertIn, same]
      case neg =>
        obtain ⟨inserted, uniformToo, always⟩ := ih others
        refine ⟨source :: inserted, List.forall_mem_cons.mpr ⟨own, uniformToo⟩, fun word => ?_⟩
        have later := always word
        simp only [evaluated] at later
        simp [evaluated, insertIn, before, same, later]

/-- Numbers under keys are read as the object says. -/
theorem steady (opened : Nat) : Steady (Json.Keyed Held) fun _ => reader opened := by
  refine Json.steady_object Quantity.steady ⟨⟨[], by simp, fun word => rfl⟩, by simp⟩ ?_ opened
  intro given state name template family held described
  obtain ⟨sources, each, same⟩ := held.entries
  obtain ⟨inserted, uniform, always⟩ := exists_insertIn_evaluated described.uniform name each
  refine ⟨⟨inserted, uniform, fun word => ?_⟩, fun key gap word => ?_⟩
  · simp only [insert, same, always]
  · by_cases own : key = name
    case pos =>
      subst own
      rw [List.lookup_cons_self] at gap
      rw [described.gap gap]
      exact mem_insertIn_self
    case neg =>
      rw [List.lookup_cons, beq_false_of_ne own] at gap
      exact mem_insertIn_of_ne own (held.gap key gap word)

/-- Without an object there are no numbers under keys. -/
theorem held_of_part {part : Option Template} {family : UInt64 → Option KeyedQuantities}
    (kept : Part (Json.Keyed Held) part family) :
    Held (part.elim [] (Template.given [])) fun word => (family word).getD .empty := by
  cases kept with
  | absent => exact ⟨⟨[], by simp, fun word => rfl⟩, by simp⟩
  | given described => exact described

/-- Numbers under keys take no refused token. -/
theorem accepting (opened : Nat) : Accepting (reader opened) :=
  Json.accepting_object Quantity.accepting _ _ opened

end KeyedQuantities

/-! ## Regions and interrupts -/

namespace Region

/-- The numbers of a region are as the members of its record say. -/
structure Held (given : List (String × Template)) (family : UInt64 → Region) : Prop where
  base : Quantity.Held (given.lookup "base") fun word => (family word).base
  size : Quantity.Held (given.lookup "size") fun word => (family word).size

/-- The parts of the draft of a region. -/
def parts : List (Kept Draft) := [
  ⟨"base", Quantity, Draft.base, fun template => Quantity.Held (some template)⟩,
  ⟨"size", Quantity, Draft.size, fun template => Quantity.Held (some template)⟩]

/-- A region is read as the template says. -/
theorem steady : record.Steady parts Held where
  members := by
    have distinct : (parts.map Kept.name).Nodup := by decide
    simp only [record, List.forall_mem_cons]
    refine ⟨
      Member.steady_of distinct parts[0] (by simp [parts]) Quantity.steady (fun _ _ => rfl) ?_,
      Member.steady_of distinct parts[1] (by simp [parts]) Quantity.steady (fun _ _ => rfl) ?_,
      by simp⟩
    all_goals simp [parts]
  start part listed := by
    simp only [parts, List.mem_cons, List.not_mem_nil, or_false] at listed
    rcases listed with rfl | rfl <;> exact .absent
  finish given state all known value finished := by
    refine ⟨_, ⟨?_, ?_⟩, fun word => rfl⟩
    · exact Quantity.held_of_part (all parts[0] (by simp [parts]))
    · exact Quantity.held_of_part (all parts[1] (by simp [parts]))

end Region

namespace Interrupt

/-- The numbers of an interrupt are as the members of its record say, and its flags do not depend on
the word. -/
structure Held (given : List (String × Template)) (family : UInt64 → Interrupt) : Prop where
  lane : Quantity.Held (given.lookup "lane") fun word => (family word).lane
  flags : Constant fun word => (family word).flags
  priority : Quantity.Held (given.lookup "priority") fun word => (family word).priority

/-- The parts of the draft of an interrupt. -/
def parts : List (Kept Draft) := [
  ⟨"lane", Quantity, Draft.lane, fun template => Quantity.Held (some template)⟩,
  ⟨"flags", List String, Draft.flags, fun _ => Constant⟩,
  ⟨"priority", Quantity, Draft.priority, fun template => Quantity.Held (some template)⟩]

/-- An interrupt is read as the template says. -/
theorem steady : record.Steady parts Held where
  members := by
    have distinct : (parts.map Kept.name).Nodup := by decide
    simp only [record, List.forall_mem_cons]
    refine ⟨
      Member.steady_of distinct parts[0] (by simp [parts]) Quantity.steady (fun _ _ => rfl) ?_,
      Member.steady_of distinct parts[1] (by simp [parts]) Json.steady_texts (fun _ _ => rfl) ?_,
      Member.steady_of distinct parts[2] (by simp [parts]) Quantity.steady (fun _ _ => rfl) ?_,
      by simp⟩
    all_goals simp [parts]
  start part listed := by
    simp only [parts, List.mem_cons, List.not_mem_nil, or_false] at listed
    rcases listed with rfl | rfl | rfl <;> exact .absent
  finish given state all known value finished := by
    refine ⟨_, ⟨?lane, ?flags, ?priority⟩, fun word => rfl⟩
    case lane => exact Quantity.held_of_part (all parts[0] (by simp [parts]))
    case flags => exact Json.constant_of_part (all parts[1] (by simp [parts])) []
    case priority => exact Quantity.held_of_part (all parts[2] (by simp [parts]))

/-- The flags of an interrupt do not depend on the word, and without an interrupt there are none. -/
theorem flags_of_nullable {part : Option Template} {family : UInt64 → Option (Option Interrupt)}
    (kept : Part (OrNull fun template => Held (template.given record.names)) part family) :
    Constant fun word => ((family word).getD none).elim [] Interrupt.flags := by
  cases kept with
  | absent => exact ⟨[], rfl⟩
  | given described =>
    cases described with
    | null => exact ⟨[], rfl⟩
    | value held => exact held.flags

end Interrupt

/-! ## Devices -/

namespace BoardDevice

/-- The parts of a device are as the members of its record say. -/
structure Held (given : List (String × Template)) (family : UInt64 → BoardDevice) : Prop where
  name : Constant fun word => (family word).name
  kind : KindTag.Held (given.lookup "type") fun word => (family word).kind
  flags : Constant fun word => (family word).flags
  regionBase : Quantity.Held
    ((given.lookup "mem").bind (Template.member? Region.record.names "base"))
    fun word => (family word).regionBase
  regionSize : Quantity.Held
    ((given.lookup "mem").bind (Template.member? Region.record.names "size"))
    fun word => (family word).regionSize
  irqLane : Quantity.Held
    ((given.lookup "irq").bind (Template.member? Interrupt.record.names "lane"))
    fun word => (family word).irqLane
  irqFlags : Constant fun word => (family word).irqFlags
  irqPriority : Quantity.Held
    ((given.lookup "irq").bind (Template.member? Interrupt.record.names "priority"))
    fun word => (family word).irqPriority
  directAux : ∀ slot, Quantity.HeldOrNone (given.lookup (DeviceKind.positionalKeys.get slot))
    fun word => (family word).directAux.get slot
  keyedAux : KeyedQuantities.Held ((given.lookup "aux").elim [] (Template.given []))
    fun word => (family word).keyedAux

/-- The part of the draft of a device that holds one auxiliary slot. -/
def slotPart (slot : Fin 4) : Kept Draft :=
  ⟨DeviceKind.positionalKeys.get slot, Option Quantity, fun draft => draft.directAux.get slot,
    OrNull fun template => Quantity.Held (some template)⟩

/-- The parts of the draft of a device. -/
def parts : List (Kept Draft) := [
  ⟨"name", String, Draft.name, fun _ => Constant⟩,
  ⟨"type", KindTag, Draft.kind, fun template => KindTag.Held (some template)⟩,
  ⟨"flags", List String, Draft.flags, fun _ => Constant⟩,
  ⟨"mem", Option Region, Draft.region,
    OrNull fun template => Region.Held (template.given Region.record.names)⟩,
  ⟨"irq", Option Interrupt, Draft.interrupt,
    OrNull fun template => Interrupt.Held (template.given Interrupt.record.names)⟩,
  ⟨"aux", KeyedQuantities, Draft.keyedAux, Json.Keyed KeyedQuantities.Held⟩] ++
  (List.finRange 4).map slotPart

/-- No two parts of the draft of a device have one name. -/
theorem distinct_parts : (parts.map Kept.name).Nodup := by decide

/-- The parts of the draft of a device hold every slot. -/
theorem slotPart_mem_parts (slot : Fin 4) : slotPart slot ∈ parts :=
  List.mem_append_right _ (List.mem_map_of_mem (List.mem_finRange slot))

/-- The members that give the auxiliary slots, by slot. -/
theorem auxMembers_eq :
    List.zipWith auxMember ["aux1", "aux2", "aux3", "aux4"] (List.finRange 4) =
      (List.finRange 4).map fun slot => auxMember (DeviceKind.positionalKeys.get slot) slot :=
  rfl

/-- The member that gives an auxiliary slot is read steadily. -/
theorem steady_auxMember (slot : Fin 4) :
    (auxMember (DeviceKind.positionalKeys.get slot) slot).Steady parts := by
  refine Member.steady_of distinct_parts (slotPart slot) (slotPart_mem_parts slot)
    (fun opened => (Quantity.steady opened).nullable) (fun state value => Slots.get_set_self ..) ?_
  intro other listed differ state value
  rcases List.mem_append.mp listed with plain | slots
  · simp only [List.mem_cons, List.not_mem_nil, or_false] at plain
    rcases plain with rfl | rfl | rfl | rfl | rfl | rfl <;> rfl
  · obtain ⟨changed, -, rfl⟩ := List.mem_map.mp slots
    exact Slots.get_set_ne _ _ fun same => differ (congrArg DeviceKind.positionalKeys.get same)

/-- A device is read as the template says. -/
theorem steady : record.Steady parts Held where
  members := by
    simp only [record, auxMembers_eq, List.forall_mem_append, List.forall_mem_cons,
      List.forall_mem_map]
    refine ⟨⟨?name, ?kind, ?flags, ?region, ?interrupt, ?keyed, by simp⟩,
      fun slot _ => steady_auxMember slot⟩
    case name =>
      refine Member.steady_of distinct_parts parts[0] (by simp [parts]) Json.steady_text
        (fun _ _ => rfl) ?_
      simp [parts, slotPart]
    case kind =>
      refine Member.steady_of distinct_parts parts[1] (by simp [parts]) KindTag.steady
        (fun _ _ => rfl) ?_
      simp [parts, slotPart]
    case flags =>
      refine Member.steady_of distinct_parts parts[2] (by simp [parts]) Json.steady_texts
        (fun _ _ => rfl) ?_
      simp [parts, slotPart]
    case region =>
      refine Member.steady_of distinct_parts parts[3] (by simp [parts])
        (fun opened => (Region.steady.read opened).nullable) (fun _ _ => rfl) ?_
      simp [parts, slotPart]
    case interrupt =>
      refine Member.steady_of distinct_parts parts[4] (by simp [parts])
        (fun opened => (Interrupt.steady.read opened).nullable) (fun _ _ => rfl) ?_
      simp [parts, slotPart]
    case keyed =>
      refine Member.steady_of distinct_parts parts[5] (by simp [parts]) KeyedQuantities.steady
        (fun _ _ => rfl) ?_
      simp [parts, slotPart]
  start part listed := by
    rcases List.mem_append.mp listed with plain | slots
    · simp only [List.mem_cons, List.not_mem_nil, or_false] at plain
      rcases plain with rfl | rfl | rfl | rfl | rfl | rfl <;> exact .absent
    · obtain ⟨slot, -, rfl⟩ := List.mem_map.mp slots
      have free : (fun word : UInt64 => (slotPart slot).get record.start) = fun _ => none := by
        funext word
        match slot with
        | 0 | 1 | 2 | 3 => rfl
      rw [free]
      exact .absent
  finish given state all known value finished := by
    have name : Part (fun _ => Constant) (given.lookup "name") fun word => (state word).name :=
      all parts[0] (by simp [parts])
    have kind : Part (fun template => KindTag.Held (some template)) (given.lookup "type")
      fun word => (state word).kind := all parts[1] (by simp [parts])
    have region := all parts[3] (by simp [parts])
    have interrupt := all parts[4] (by simp [parts])
    cases named : (state known).name with
    | none => simp [record, named] at finished
    | some text =>
      cases typed : (state known).kind with
      | none => simp [record, named, typed] at finished
      | some tag =>
        obtain ⟨_, name, -, described, names⟩ := name.exists_eq_some named
        obtain ⟨_, kind, typedAs, solid, kinds⟩ := kind.exists_eq_some typed
        refine ⟨fun word => {
          name := name word
          kind := kind word
          flags := (state word).flags.getD []
          region := (state word).region.getD none
          interrupt := (state word).interrupt.getD none
          directAux := (state word).directAux.map fun given => given.getD none
          keyedAux := (state word).keyedAux.getD .empty }, {
            name := described
            kind := typedAs ▸ solid
            flags := Json.constant_of_part (all parts[2] (by simp [parts])) []
            regionBase := Quantity.held_of_nullable region rfl fun template family held => held.base
            regionSize := Quantity.held_of_nullable region rfl fun template family held => held.size
            irqLane := Quantity.held_of_nullable interrupt rfl fun template family held => held.lane
            irqFlags := ?irqFlags
            irqPriority :=
              Quantity.held_of_nullable interrupt rfl fun template family held => held.priority
            directAux := fun slot => ?directAux
            keyedAux := ?keyedAux }, fun word => ?made⟩
        case irqFlags => exact Interrupt.flags_of_nullable interrupt
        case directAux =>
          simp only [Slots.get_map]
          exact Quantity.heldOrNone_of_part (all (slotPart slot) (slotPart_mem_parts slot))
        case keyedAux => exact KeyedQuantities.held_of_part (all parts[5] (by simp [parts]))
        case made => simp only [record, names word, kinds word]

end BoardDevice

namespace Board

/-- The devices of a board are as the items of its list say. -/
structure Held (given : List (String × Template)) (family : UInt64 → Board) : Prop where
  devices : ∃ items families, given.lookup "devices" = some (.list items) ∧
    List.Forall₂ (fun template => BoardDevice.Held (template.given BoardDevice.record.names)) items
      families ∧
    ∀ word, (family word).devices = families.map fun device => device word

/-- The parts of the draft of a board. -/
def parts : List (Kept Draft) := [
  ⟨"devices", List BoardDevice, Draft.devices,
    Json.Listed fun template => BoardDevice.Held (template.given BoardDevice.record.names)⟩]

/-- A board is read as the template says. -/
theorem steady : record.Steady parts Held where
  members := by
    have distinct : (parts.map Kept.name).Nodup := by decide
    simp only [record, List.forall_mem_cons]
    refine ⟨Member.steady_of distinct parts[0] (by simp [parts])
      (Json.steady_list BoardDevice.steady.read) (fun _ _ => rfl) ?_, by simp⟩
    simp [parts]
  start part listed := by
    simp only [parts, List.mem_cons, List.not_mem_nil, or_false] at listed
    rcases listed with rfl
    exact .absent
  finish given state all known value finished := by
    have devices : Part (Json.Listed fun template =>
        BoardDevice.Held (template.given BoardDevice.record.names)) (given.lookup "devices")
        fun word => (state word).devices := all parts[0] (by simp [parts])
    cases found : (state known).devices with
    | none => simp [record, found] at finished
    | some written =>
      obtain ⟨_, _, present, ⟨items, families, rfl, each, rfl⟩, always⟩ :=
        devices.exists_eq_some found
      exact ⟨fun word => ⟨families.map fun device => device word⟩,
        ⟨items, families, present, each, fun word => rfl⟩,
        fun word => by simp only [record, always word]⟩

end Board

/-! ## Refused tokens -/

/-- A member that is kept in a part of a draft takes no refused token when its value takes none. -/
theorem Json.Member.accepting_of {σ α : Type} {name : String} {required : Bool}
    {part : σ → Option α} {store : σ → α → σ} {reader : Reader α}
    (accepting : ∀ opened, Accepting (reader opened)) (state : σ) (opened : Nat) :
    Accepting ((Member.of name required part store reader).read state opened) :=
  (accepting opened).map _

/-- A region takes no refused token. -/
theorem Region.accepting (opened : Nat) : Accepting (record.read opened) := by
  refine Json.accepting_record (fun member listed => ?_) opened
  simp only [record, List.mem_cons, List.not_mem_nil, or_false] at listed
  rcases listed with rfl | rfl <;> exact Member.accepting_of Quantity.accepting

/-- An interrupt takes no refused token. -/
theorem Interrupt.accepting (opened : Nat) : Accepting (record.read opened) := by
  refine Json.accepting_record (fun member listed => ?_) opened
  simp only [record, List.mem_cons, List.not_mem_nil, or_false] at listed
  rcases listed with rfl | rfl | rfl
  · exact Member.accepting_of Quantity.accepting
  · exact Member.accepting_of (Json.accepting_list Json.accepting_text)
  · exact Member.accepting_of Quantity.accepting

/-- A device takes no refused token. -/
theorem BoardDevice.accepting (opened : Nat) : Accepting (record.read opened) := by
  refine Json.accepting_record (fun member listed => ?_) opened
  rcases List.mem_append.mp listed with plain | slots
  · simp only [List.mem_cons, List.not_mem_nil, or_false] at plain
    rcases plain with rfl | rfl | rfl | rfl | rfl | rfl
    · exact Member.accepting_of Json.accepting_text
    · exact Member.accepting_of KindTag.accepting
    · exact Member.accepting_of (Json.accepting_list Json.accepting_text)
    · exact Member.accepting_of fun opened => (Region.accepting opened).nullable
    · exact Member.accepting_of fun opened => (Interrupt.accepting opened).nullable
    · exact Member.accepting_of KeyedQuantities.accepting
  · rw [auxMembers_eq] at slots
    obtain ⟨slot, -, rfl⟩ := List.mem_map.mp slots
    exact Member.accepting_of fun opened => (Quantity.accepting opened).nullable

/-- A board takes no refused token. -/
theorem Board.accepting (opened : Nat) : Accepting (record.read opened) := by
  refine Json.accepting_record (fun member listed => ?_) opened
  obtain rfl := List.mem_singleton.mp listed
  exact Member.accepting_of (Json.accepting_list BoardDevice.accepting)

end BoardBlob
