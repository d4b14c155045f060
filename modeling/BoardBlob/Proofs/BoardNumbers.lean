import BoardBlob.Board.Parsing
import BoardBlob.Proofs.BoardFamilies

/-!
# Number literals in boards

A board with a gap for a number is a text around the gap and the template of the text. A place of a
number in the template of a device (`NumberPlace`) stands for a field of the device. With a word in
the gap, every number of the board is that word or does not depend on it. So a board that is
accepted with some word, and has no gap for a type, is accepted with every word
(`Board.Held.exists_devices`), and a field whose place is the gap is the word itself. Hence a
literal in the gap is never rounded, wrapped or cut off: it is in the field as it is, or the
document is refused (`parseBoard_literal_exact`).
-/
namespace BoardBlob

open Conversion (auxSources directSources)
open Json (Piece Template inserted)
open Json.Written (Plain literal)

/-! ## Sources -/

namespace DeviceKind

variable {kind : DeviceKind}

/-- Whether uniform values can be put into slots does not depend on the word. -/
theorem Sound.evaluated {sources : List (String × (UInt64 → Quantity))} {known : UInt64}
    (sound : kind.Sound (BoardBlob.evaluated sources known))
    (each : ∀ source ∈ sources, Quantity.Uniform source.2) (word : UInt64) :
    kind.Sound (BoardBlob.evaluated sources word) where
  named source member := by
    obtain ⟨own, listed, rfl⟩ := List.mem_map.mp member
    exact sound.named (own.1, own.2 known) (List.mem_map_of_mem listed)
  once := by
    have once := sound.once
    rw [BoardBlob.evaluated, List.pairwise_map] at once ⊢
    exact once
  numbers source member := by
    obtain ⟨own, listed, rfl⟩ := List.mem_map.mp member
    exact (each own listed).exists_value?
      (sound.numbers (own.1, own.2 known) (List.mem_map_of_mem listed)) word

end DeviceKind

namespace BoardDevice

variable {given : List (String × Template)} {family : UInt64 → BoardDevice} {known : UInt64}

/-- The auxiliary values of some slots are uniform. -/
theorem Held.exists_direct (held : Held given family) (slots : List (Fin 4)) :
    ∃ sources, (∀ source ∈ sources, Quantity.Uniform source.2) ∧
      ∀ word, (slots.filterMap fun slot => ((family word).directAux.get slot).map fun value =>
        (DeviceKind.positionalKeys.get slot, value)) = evaluated sources word := by
  induction slots with
  | nil => exact ⟨[], by simp, fun word => rfl⟩
  | cons slot slots ih =>
    obtain ⟨sources, each, same⟩ := ih
    rcases (held.directAux slot).uniform_or_none with free | ⟨values, uniform, always⟩
    · exact ⟨sources, each, fun word => by simp [free, same]⟩
    · refine ⟨(DeviceKind.positionalKeys.get slot, values) :: sources,
        List.forall_mem_cons.mpr ⟨uniform, each⟩, fun word => ?_⟩
      simp [always, same, evaluated]

/-- The auxiliary values of a device are uniform. -/
theorem Held.exists_sources (held : Held given family) :
    ∃ sources, (∀ source ∈ sources, Quantity.Uniform source.2) ∧
      ∀ word, auxSources (family word) = evaluated sources word := by
  obtain ⟨direct, each, same⟩ := held.exists_direct (List.finRange 4)
  obtain ⟨entries, eachEntry, sameEntries⟩ := held.keyedAux.entries
  refine ⟨direct ++ entries, List.forall_mem_append.mpr ⟨each, eachEntry⟩, fun word => ?_⟩
  rw [Conversion.auxSources_eq, directSources, same, sameEntries, evaluated, evaluated, evaluated,
    List.map_append]

/-- When a device whose type is no gap stands for one with some word, it stands for one with every
word. -/
theorem Held.exists_standsFor (held : Held given family) (typed : given.lookup "type" ≠ some .gap)
    (stands : ∃ device, (family known).StandsFor device) (word : UInt64) :
    ∃ device, (family word).StandsFor device := by
  obtain ⟨device, stands⟩ := stands
  have name : (family word).name = (family known).name := held.name.eq word known
  have flags : (family word).flags = (family known).flags := held.flags.eq word known
  have irqFlags : (family word).irqFlags = (family known).irqFlags := held.irqFlags.eq word known
  have kind : (family word).kind = (family known).kind := (held.kind typed).eq word known
  obtain ⟨base, baseRead⟩ := held.regionBase.uniform.exists_value? ⟨_, stands.regionBase⟩ word
  obtain ⟨size, sizeRead⟩ := held.regionSize.uniform.exists_value? ⟨_, stands.regionSize⟩ word
  obtain ⟨lane, laneRead⟩ := held.irqLane.uniform.exists_value? ⟨_, stands.irqLane⟩ word
  obtain ⟨priority, priorityRead⟩ :=
    held.irqPriority.uniform.exists_value? ⟨_, stands.irqPriority⟩ word
  obtain ⟨sources, each, same⟩ := held.exists_sources
  have sound : device.kind.Sound (auxSources (family word)) := by
    rw [same]
    exact (same known ▸ stands.sources).evaluated each word
  obtain ⟨aux, converted⟩ := (@Conversion.exists_aux_eq_ok_iff ⟨0, ""⟩ device.kind
    (family word)).mpr sound
  exact ⟨{ device with
      regionBase := base
      regionSize := size
      irqLane := lane
      irqPriority := priority
      aux := aux }, {
    name := stands.name.trans name.symm
    kind := kind ▸ stands.kind
    knownFlags := flags ▸ stands.knownFlags
    flags := flags ▸ stands.flags
    regionBase := baseRead
    regionSize := sizeRead
    irqLane := laneRead
    knownIrqFlags := irqFlags ▸ stands.knownIrqFlags
    irqFlags := irqFlags ▸ stands.irqFlags
    irqPriority := priorityRead
    sources := sound
    aux := (Conversion.aux_eq_ok_iff.mp converted).2 }⟩

end BoardDevice

/-! ## Places and fields -/

/-- A number field of a device. -/
inductive NumberField where
  | regionBase
  | regionSize
  | irqLane
  | irqPriority
  | aux (slot : Fin 4)
  deriving DecidableEq, Repr

/-- The number in a field of a device. -/
def NumberField.value (device : Device) : NumberField → UInt64
  | regionBase => device.regionBase
  | regionSize => device.regionSize
  | irqLane => device.irqLane
  | irqPriority => device.irqPriority
  | aux slot => device.aux.get slot

/-- A place for a number in a device as written. -/
inductive NumberPlace where
  | base
  | size
  | lane
  | priority
  /-- The member of the device that gives a slot. -/
  | slot (position : Fin 4)
  /-- A key of the auxiliary values. -/
  | key (name : String)
  deriving DecidableEq, Repr

namespace NumberPlace

/-- What stands at a place in the template of a device. Under a key that is given several times it
is the last that was given. -/
def template? (device : Template) : NumberPlace → Option Template
  | base => (device.member? BoardDevice.record.names "mem").bind
      (Template.member? Region.record.names "base")
  | size => (device.member? BoardDevice.record.names "mem").bind
      (Template.member? Region.record.names "size")
  | lane => (device.member? BoardDevice.record.names "irq").bind
      (Template.member? Interrupt.record.names "lane")
  | priority => (device.member? BoardDevice.record.names "irq").bind
      (Template.member? Interrupt.record.names "priority")
  | slot position =>
    device.member? BoardDevice.record.names (DeviceKind.positionalKeys.get position)
  | key name => (device.member? BoardDevice.record.names "aux").bind (Template.member? [] name)

/-- The field of a device of a kind that a place stands for. -/
def field? (kind : DeviceKind) : NumberPlace → Option NumberField
  | base => some .regionBase
  | size => some .regionSize
  | lane => some .irqLane
  | priority => some .irqPriority
  | slot position => some (.aux position)
  | key name => (kind.resolveKey? name).map .aux

/-- A number is written at a place of a device. -/
def Holds (written : BoardDevice) (quantity : Quantity) : NumberPlace → Prop
  | base => written.regionBase = quantity
  | size => written.regionSize = quantity
  | lane => written.irqLane = quantity
  | priority => written.irqPriority = quantity
  | slot position => written.directAux.get position = some quantity
  | key name => (name, quantity) ∈ written.keyedAux.entries

variable {place : NumberPlace} {template : Template} {family : UInt64 → BoardDevice}
  {written : BoardDevice} {device : Device} {word : UInt64}

/-- At a place that is a gap, the word is written. -/
theorem holds_of_gap (held : BoardDevice.Held (template.given BoardDevice.record.names) family)
    (gap : place.template? template = some .gap) (word : UInt64) :
    place.Holds (family word) (.whole word) := by
  cases place with
  | base => exact congrFun (held.regionBase.gap gap) word
  | size => exact congrFun (held.regionSize.gap gap) word
  | lane => exact congrFun (held.irqLane.gap gap) word
  | priority => exact congrFun (held.irqPriority.gap gap) word
  | slot position => exact (held.directAux position).eq_word gap word
  | key name =>
    obtain ⟨keyed, found, last⟩ := Option.bind_eq_some_iff.mp gap
    rw [Template.member?] at found
    refine held.keyedAux.gap name ?_ word
    rw [found]
    exact last

end NumberPlace

/-- A device that a device as written stands for has in a slot what the written one gives for it. -/
theorem BoardDevice.StandsFor.aux_eq {written : BoardDevice} {device : Device} {slot : Fin 4}
    {value : UInt64} (stands : written.StandsFor device)
    (has : device.kind.SlotValue (auxSources written) slot value) :
    device.aux.get slot = value := by
  have converted : Conversion.aux ⟨0, ""⟩ device.kind written = .ok device.aux :=
    Conversion.aux_eq_ok_iff.mpr ⟨stands.sources, stands.aux⟩
  have changed : Conversion.aux ⟨0, ""⟩ device.kind written = .ok (device.aux.set slot value) := by
    refine Conversion.aux_eq_ok_iff.mpr ⟨stands.sources, fun other => ?_⟩
    by_cases same : other = slot
    · rw [same, Slots.get_set_self]
      exact has
    · rw [Slots.get_set_ne _ _ same]
      exact stands.aux other
  rw [Except.ok.inj (converted.symm.trans changed), Slots.get_set_self]

/-- A word that is written at a place of a device is in the field that the place stands for. -/
theorem NumberPlace.value_of_holds {place : NumberPlace} {written : BoardDevice} {device : Device}
    {word : UInt64} (stands : written.StandsFor device)
    (holds : place.Holds written (.whole word)) :
    ∃ field, place.field? device.kind = some field ∧ field.value device = word := by
  cases place with
  | base =>
    have read := stands.regionBase
    rw [show written.regionBase = _ from holds] at read
    exact ⟨_, rfl, (Option.some.inj read).symm⟩
  | size =>
    have read := stands.regionSize
    rw [show written.regionSize = _ from holds] at read
    exact ⟨_, rfl, (Option.some.inj read).symm⟩
  | lane =>
    have read := stands.irqLane
    rw [show written.irqLane = _ from holds] at read
    exact ⟨_, rfl, (Option.some.inj read).symm⟩
  | priority =>
    have read := stands.irqPriority
    rw [show written.irqPriority = _ from holds] at read
    exact ⟨_, rfl, (Option.some.inj read).symm⟩
  | slot position =>
    have member : (DeviceKind.positionalKeys.get position, .whole word) ∈ auxSources written := by
      rw [Conversion.auxSources_eq]
      exact List.mem_append_left _ (Conversion.mem_directSources.mpr ⟨position, rfl, holds⟩)
    exact ⟨_, rfl, stands.aux_eq (.given member (.position position) rfl)⟩
  | key name =>
    have member : (name, .whole word) ∈ auxSources written := by
      rw [Conversion.auxSources_eq]
      exact List.mem_append_right _ holds
    obtain ⟨slot, names⟩ := stands.sources.named _ member
    refine ⟨.aux slot, ?_, stands.aux_eq (.given member names rfl)⟩
    rw [NumberPlace.field?, DeviceKind.resolveKey?_eq_some_iff.mpr names]
    rfl

/-! ## Boards -/

/-- In the template of a board, what stands at a place of a device is a gap. -/
def Board.GapAt (template : Template) (index : Nat) (place : NumberPlace) : Prop :=
  ∃ items item, template.member? record.names "devices" = some (.list items) ∧
    items[index]? = some item ∧ place.template? item = some .gap

/-- In the template of a board, no type of a device is a gap. -/
def Board.Typed (template : Template) : Prop :=
  ∀ items item, template.member? record.names "devices" = some (.list items) → item ∈ items →
    item.member? BoardDevice.record.names "type" ≠ some .gap

/-- Of two lists that are related item by item, each item of the first has one in the second. -/
theorem exists_getElem?_of_forall₂ {α β : Type} {related : α → β → Prop} {first : List α}
    {second : List β} (pairs : List.Forall₂ related first second) {index : Nat} {item : α}
    (there : first[index]? = some item) :
    ∃ other, second[index]? = some other ∧ related item other := by
  induction pairs generalizing index with
  | nil => simp at there
  | cons head _ ih =>
    cases index with
    | zero =>
      obtain rfl : _ = item := by simpa using there
      exact ⟨_, rfl, head⟩
    | succ index => exact ih (by simpa using there)

/-- A board with no gap for a type that is converted with some word is converted with every word,
and a field whose place is a gap is the word. -/
theorem Board.Held.exists_devices {template : Template} {family : UInt64 → Board} {known : UInt64}
    {devices : List Device} (held : Held (template.given record.names) family)
    (typed : Typed template) (converted : (family known).toDevices = .ok devices) (word : UInt64) :
    ∃ read, (family word).toDevices = .ok read ∧
      ∀ index place, GapAt template index place → ∃ device field, read[index]? = some device ∧
        place.field? device.kind = some field ∧ field.value device = word := by
  obtain ⟨items, families, present, each, same⟩ := held.devices
  have all : ∃ read, (family word).toDevices = .ok read := by
    have standing := exists_devicesFrom_iff.mp ⟨devices, converted⟩
    refine exists_devicesFrom_iff.mpr fun member listed => ?_
    rw [same] at standing listed
    obtain ⟨device, known, rfl⟩ := List.mem_map.mp listed
    obtain ⟨position, there⟩ := List.getElem?_of_mem known
    obtain ⟨item, listed, described⟩ := exists_getElem?_of_forall₂ each.flip there
    exact described.exists_standsFor (typed items item present (List.mem_of_getElem? listed))
      (standing _ (List.mem_map_of_mem known)) word
  obtain ⟨read, convertedToo⟩ := all
  refine ⟨read, convertedToo, fun index place => ?_⟩
  rintro ⟨others, item, presentToo, there, gap⟩
  have pairs := devicesFrom_eq_ok_iff.mp convertedToo
  rw [same, List.forall₂_map_left_iff] at pairs
  obtain rfl : items = others := by simpa [Template.member?, present] using presentToo
  obtain ⟨values, thereToo, described⟩ := exists_getElem?_of_forall₂ each there
  obtain ⟨device, found, stands⟩ := exists_getElem?_of_forall₂ pairs thereToo
  obtain ⟨field, named, exact⟩ :=
    place.value_of_holds stands (place.holds_of_gap described gap word)
  exact ⟨device, field, found, named, exact⟩

/-- A document with no gap for a type that is read and converted with some word is so with every
word, and a field whose place is a gap is the word. -/
theorem parseBoard_of_filled {template : Template} {text other : String} {known word : UInt64}
    {devices : List Device} (scanned : Json.tokens text = template.filled known)
    (typed : Board.Typed template) (parsed : parseBoard text = .ok devices)
    (scannedOther : Json.tokens other = template.filled word) :
    ∃ read, parseBoard other = .ok read ∧
      ∀ index place, Board.GapAt template index place → ∃ device field,
        read[index]? = some device ∧ place.field? device.kind = some field ∧
          field.value device = word := by
  unfold parseBoard at parsed
  split at parsed
  case h_1 => cases parsed
  case h_2 board read =>
    rw [Board.ofDocument, scanned] at read
    obtain ⟨family, held, always⟩ := (Board.steady.read 0).document read
    obtain rfl := Except.ok.inj ((always known).symm.trans read)
    split at parsed
    case h_1 => cases parsed
    case h_2 converted =>
      obtain ⟨read, convertedToo, exact⟩ := held.exists_devices typed converted word
      refine ⟨read, ?_, exact⟩
      have readToo : Board.ofDocument other = .ok (family word) := by
        rw [Board.ofDocument, scannedOther, always]
      simp only [parseBoard, readToo, convertedToo]

/-- Any number literal in a gap of a board, one that is not for a type of a device, when the board
is accepted with some word in the gap. The board is accepted with the literal exactly when the
literal has no minus sign, no fraction and no exponent and its value is below 2^64; with every other
literal the fault is one of the document. Where the gap is the place of a number of a device, the
field of the device that the place stands for has exactly the value of the literal. -/
theorem parseBoard_literal_exact {front back : List Char} {template : Template}
    (around : Json.Around front back template) {known : UInt64} {devices : List Device}
    (typed : Board.Typed template)
    (accepted : parseBoard (inserted front back known.toNat.repr.toList) = .ok devices)
    {text : List Char} (written : text ∈ literal) :
    ((∃ read, parseBoard (inserted front back text) = .ok read) ↔
      Plain text ∧ Nat.ofDigitChars 10 text 0 < UInt64.size) ∧
    (¬(Plain text ∧ Nat.ofDigitChars 10 text 0 < UInt64.size) →
      ∃ fault, parseBoard (inserted front back text) = .error (.malformedBoard fault)) ∧
    ∀ read, parseBoard (inserted front back text) = .ok read →
      ∀ index place, Board.GapAt template index place → ∃ device field,
        read[index]? = some device ∧ place.field? device.kind = some field ∧
          (field.value device).toNat = Nat.ofDigitChars 10 text 0 := by
  have refused (unfit : ¬(Plain text ∧ Nat.ofDigitChars 10 text 0 < UInt64.size)) :
      ∃ fault, parseBoard (inserted front back text) = .error (.malformedBoard fault) := by
    obtain ⟨token, member, bad⟩ := around.gap.exists_refused written unfit
    cases read : Board.ofDocument (inserted front back text) with
    | error fault => exact ⟨fault, by rw [parseBoard, read]⟩
    | ok board => exact absurd bad ((Board.accepting 0).document read token member)
  have fit {read : List Device} (parsed : parseBoard (inserted front back text) = .ok read) :
      Plain text ∧ Nat.ofDigitChars 10 text 0 < UInt64.size := by
    by_contra unfit
    obtain ⟨fault, failed⟩ := refused unfit
    rw [failed] at parsed
    cases parsed
  have kept (plain : Plain text) (small : Nat.ofDigitChars 10 text 0 < UInt64.size) :
      ∃ read, parseBoard (inserted front back text) = .ok read ∧
        ∀ index place, Board.GapAt template index place → ∃ device field,
          read[index]? = some device ∧ place.field? device.kind = some field ∧
            (field.value device).toNat = Nat.ofDigitChars 10 text 0 := by
    obtain ⟨value, worth⟩ : ∃ value : UInt64, Nat.ofDigitChars 10 text 0 = value.toNat :=
      ⟨UInt64.ofNatLT _ small, UInt64.toNat_ofNatLT.symm⟩
    obtain ⟨read, parsed, fields⟩ := parseBoard_of_filled (around.shape known) typed accepted
      (around.tokens_eq written plain worth)
    refine ⟨read, parsed, fun index place gap => ?_⟩
    obtain ⟨device, field, there, named, same⟩ := fields index place gap
    exact ⟨device, field, there, named, by rw [same, worth]⟩
  refine ⟨⟨fun ⟨read, parsed⟩ => fit parsed, fun ⟨plain, small⟩ => ?accept⟩, refused,
    fun read parsed => ?fields⟩
  case accept =>
    obtain ⟨read, parsed, -⟩ := kept plain small
    exact ⟨read, parsed⟩
  case fields =>
    obtain ⟨plain, small⟩ := fit parsed
    obtain ⟨other, parsedToo, fields⟩ := kept plain small
    obtain rfl := Except.ok.inj (parsedToo.symm.trans parsed)
    exact fields

/-- The front of a board around the base of a clock: `{"devices":[{"mem":{"base":`. -/
def clockFront : List Piece := [
  .mark '\x7b' .openObject (by decide), .text "devices" (by decide), .mark ':' .colon (by decide),
  .mark '[' .openList (by decide), .mark '\x7b' .openObject (by decide), .text "mem" (by decide),
  .mark ':' .colon (by decide), .mark '\x7b' .openObject (by decide), .text "base" (by decide),
  .mark ':' .colon (by decide)]

/-- The back of that board: `},"name":"c","type":"RTC"}]}`. -/
def clockBack : List Piece := [
  .mark '\x7d' .closeObject (by decide), .mark ',' .comma (by decide), .text "name" (by decide),
  .mark ':' .colon (by decide), .text "c" (by decide), .mark ',' .comma (by decide),
  .text "type" (by decide), .mark ':' .colon (by decide), .text "RTC" (by decide),
  .mark '\x7d' .closeObject (by decide), .mark ']' .closeList (by decide),
  .mark '\x7d' .closeObject (by decide)]

/-- The template of that board. -/
def clockTemplate : Template :=
  .object [("devices", .list [.object [("mem", .object [("base", .gap)]), ("name", .text "c"),
    ("type", .text "RTC")]])]

/-- That board with a text in its gap. -/
def clockText (text : String) : String :=
  inserted (clockFront.flatMap Piece.written) (clockBack.flatMap Piece.written) text.toList

/-- The board is accepted with 7 in its gap. With the largest word there the base is just that, and
one more is refused. -/
theorem parseBoard_literal_exact_largestBase :
    (∃ read device, parseBoard (clockText "18446744073709551615") = .ok read ∧
      read[0]? = some device ∧ device.regionBase.toNat = 18446744073709551615) ∧
    ∃ fault, parseBoard (clockText "18446744073709551616") = .error (.malformedBoard fault) := by
  have delimited : Json.Delimited (clockBack.flatMap Piece.written) := by
    rintro _ ⟨⟩
    decide
  have around := @Json.around_pieces clockFront clockBack clockTemplate delimited fun word => rfl
  have typed : Board.Typed clockTemplate := by
    rintro _ item ⟨⟩ listed
    obtain rfl := List.mem_singleton.mp listed
    rintro ⟨⟩
  have accepted : parseBoard (inserted (clockFront.flatMap Piece.written)
      (clockBack.flatMap Piece.written) (7 : UInt64).toNat.repr.toList) =
      .ok [{ kind := .rtc, name := "c", regionBase := 7 }] := by
    decide +kernel
  have base : Board.GapAt clockTemplate 0 .base := ⟨_, _, rfl, rfl, rfl⟩
  have largest : "18446744073709551615".toList ∈ literal :=
    Json.mem_literal_of_digits (by decide) (by decide) (by decide)
  have tooLarge : "18446744073709551616".toList ∈ literal :=
    Json.mem_literal_of_digits (by decide) (by decide) (by decide)
  obtain ⟨fits, -, fields⟩ := parseBoard_literal_exact around typed accepted largest
  obtain ⟨-, refused, -⟩ := parseBoard_literal_exact around typed accepted tooLarge
  obtain ⟨read, parsed⟩ := fits.mpr (by decide)
  obtain ⟨device, _, there, ⟨⟩, same⟩ := fields read parsed 0 .base base
  exact ⟨⟨read, device, parsed, there, same⟩, refused (by decide)⟩

/-- The front of a board around the first of two numbers under one key:
`{"devices":[{"name":"c","type":"RTC","aux":{"aux1":`. -/
def repeatedFront : List Piece := [
  .mark '\x7b' .openObject (by decide), .text "devices" (by decide), .mark ':' .colon (by decide),
  .mark '[' .openList (by decide), .mark '\x7b' .openObject (by decide), .text "name" (by decide),
  .mark ':' .colon (by decide), .text "c" (by decide), .mark ',' .comma (by decide),
  .text "type" (by decide), .mark ':' .colon (by decide), .text "RTC" (by decide),
  .mark ',' .comma (by decide), .text "aux" (by decide), .mark ':' .colon (by decide),
  .mark '\x7b' .openObject (by decide), .text "aux1" (by decide), .mark ':' .colon (by decide)]

/-- The back of that board: `,"aux1":"2"}}]}`. -/
def repeatedBack : List Piece := [
  .mark ',' .comma (by decide), .text "aux1" (by decide), .mark ':' .colon (by decide),
  .text "2" (by decide), .mark '\x7d' .closeObject (by decide),
  .mark '\x7d' .closeObject (by decide), .mark ']' .closeList (by decide),
  .mark '\x7d' .closeObject (by decide)]

/-- The numbers under the key of that board. -/
def repeatedAux : List (String × Template) := [("aux1", .gap), ("aux1", .text "2")]

/-- The template of that board. -/
def repeatedTemplate : Template :=
  .object [("devices", .list [.object [("name", .text "c"), ("type", .text "RTC"),
    ("aux", .object repeatedAux)]])]

/-- A plain literal under a key of the auxiliary values, in a board that is accepted with it, need
not be in the field that the key stands for: the key is given again, and the last number counts. -/
theorem parseBoard_literal_repeatedKey :
    Json.Around (repeatedFront.flatMap Piece.written) (repeatedBack.flatMap Piece.written)
      repeatedTemplate ∧
    (∃ items device, repeatedTemplate.member? Board.record.names "devices" = some (.list items) ∧
      items[0]? = some device ∧
      device.member? BoardDevice.record.names "aux" = some (.object repeatedAux) ∧
      ("aux1", Template.gap) ∈ repeatedAux) ∧
    ['1'] ∈ literal ∧ Plain ['1'] ∧ Nat.ofDigitChars 10 ['1'] 0 < UInt64.size ∧
    ∃ read, parseBoard (inserted (repeatedFront.flatMap Piece.written)
        (repeatedBack.flatMap Piece.written) ['1']) = .ok read ∧
      ¬∃ device field, read[0]? = some device ∧
        NumberPlace.field? device.kind (.key "aux1") = some field ∧
          (field.value device).toNat = Nat.ofDigitChars 10 ['1'] 0 := by
  have delimited : Json.Delimited (repeatedBack.flatMap Piece.written) := by
    rintro _ ⟨⟩
    decide
  have parsed : parseBoard (inserted (repeatedFront.flatMap Piece.written)
      (repeatedBack.flatMap Piece.written) ['1']) =
      .ok [{ kind := .rtc, name := "c", aux := ⟨2, 0, 0, 0⟩ }] := by
    decide +kernel
  refine ⟨Json.around_pieces delimited fun word => rfl, ⟨_, _, rfl, rfl, rfl, List.mem_cons_self⟩,
    Json.mem_literal_of_digits (by decide) (by decide) (by decide), by decide, by decide,
    _, parsed, ?_⟩
  rintro ⟨device, field, there, named, same⟩
  obtain rfl := Option.some.inj there
  have first : NumberPlace.field? .rtc (.key "aux1") = some (.aux 0) := by decide +kernel
  obtain rfl := Option.some.inj (first.symm.trans named)
  exact absurd same (by decide)

end BoardBlob
