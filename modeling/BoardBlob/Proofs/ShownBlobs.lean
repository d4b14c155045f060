import Mathlib.Tactic.IntervalCases
import BoardBlob.Proofs.AcceptedView
import BoardBlob.Proofs.ListedFaults
import BoardBlob.Proofs.ShownValues

/-!
# Blobs with the same listing

Between the blocks of a listing there is no separator, and a block has as many lines as its entry
has auxiliary values to show. Still a listing can be taken apart, whatever the names are: once the
name is known, no later line of its block has the bracket that opens the next one
(`ended_append_inj`), and each line tells what it shows. So two blobs whose entries have the same
names, and the same listing, have the same header and the same entries, but for the places of the
names (`listing_tells`).
-/
namespace BoardBlob

namespace Listing

/-! ## Lines -/

/-- The first line, and the others after its line feed. -/
theorem ended_cons (line : String) (lines : List String) :
    ended (line :: lines) = line.toList ++ '\n' :: ended lines := by
  simp [ended]

/-- Lines after lines. -/
theorem ended_append (lines more : List String) :
    ended (lines ++ more) = ended lines ++ ended more :=
  List.flatMap_append

/-- A line inside a block or a header: it does not break, and it opens no block. -/
def Inner (line : String) : Prop := '\n' ∉ line.toList ∧ '[' ∉ line.toList

instance (line : String) : Decidable (Inner line) := inferInstanceAs (Decidable (_ ∧ _))

section Inner

variable {line other : String} {lines others : List String} {rest more : List Char}

/-- A line is inside when its parts are. -/
theorem inner_append_iff : Inner (line ++ other) ↔ Inner line ∧ Inner other := by
  simp only [Inner, String.toList_append, List.mem_append, not_or]
  exact and_and_and_comm

/-- A word is inside. -/
theorem inner_of_isWord (isWord : IsWord line) : Inner line :=
  ⟨isWord.not_mem (by decide), isWord.not_mem (by decide)⟩

/-- A decimal number is inside. -/
theorem inner_repr (number : Nat) : Inner number.repr :=
  inner_of_isWord (Numeral.isWord_repr number)

/-- A hexadecimal number is inside. -/
theorem inner_hexadecimal (number : Nat) : Inner (Hexadecimal.text number) :=
  inner_of_isWord (Hexadecimal.isWord_text number)

/-- The text of a flag word is inside. -/
theorem inner_flagText {family : FlagFamily} (legible : family.Legible) (word : UInt32) :
    Inner (family.text word) :=
  ⟨legible.not_mem_text (by decide) (by decide), legible.not_mem_text (by decide) (by decide)⟩

/-- The text of a kind is inside. -/
theorem inner_kindText (entry : Entry) : Inner (kindText entry) :=
  ⟨not_mem_kindText (by decide) (by decide) entry, not_mem_kindText (by decide) (by decide) entry⟩

/-- Lines that do not break are told apart. -/
theorem ended_inj (inner : ∀ line ∈ lines, Inner line) (innerToo : ∀ line ∈ others, Inner line)
    (same : ended lines = ended others) : lines = others := by
  induction lines generalizing others with
  | nil =>
    cases others with
    | nil => rfl
    | cons other others => simp [ended] at same
  | cons line lines later =>
    cases others with
    | nil => simp [ended] at same
    | cons other others =>
      rw [List.forall_mem_cons] at inner innerToo
      rw [ended_cons, ended_cons] at same
      obtain ⟨first, tails⟩ :=
        append_inj_of_beginsWith inner.1.1 innerToo.1.1 (beginsWith_cons _) (beginsWith_cons _) same
      rw [String.toList_inj.mp first, later inner.2 innerToo.2 (List.tail_eq_of_cons_eq tails)]

/-- In lines that open no block there is no bracket. -/
theorem bracket_not_mem_ended (inner : ∀ line ∈ lines, Inner line) : '[' ∉ ended lines := by
  simp only [ended, List.mem_flatMap, List.mem_append, List.mem_singleton, not_exists, not_and,
    not_or]
  exact fun line listed => ⟨(inner line listed).2, by decide⟩

/-- Lines that open no block are told apart from the blocks that follow them. -/
theorem ended_append_inj (inner : ∀ line ∈ lines, Inner line)
    (innerToo : ∀ line ∈ others, Inner line) (begins : BeginsWith '[' rest)
    (beginsToo : BeginsWith '[' more)
    (same : ended lines ++ rest = ended others ++ more) : lines = others ∧ rest = more := by
  obtain ⟨fronts, tails⟩ := append_inj_of_beginsWith (bracket_not_mem_ended inner)
    (bracket_not_mem_ended innerToo) begins beginsToo same
  exact ⟨ended_inj inner innerToo fronts, tails⟩

end Inner

/-! ## The header -/

section Header

variable {view other : BlobView}

/-- The signature of an accepted header as shown. -/
theorem signature_of_accepted (accepted : view.Accepted) : signature view.header = "odtr3" := by
  rw [signature, accepted.signature]
  decide

/-- The lines of an accepted header open no block. -/
theorem inner_of_mem_headerLines (accepted : view.Accepted) :
    ∀ line ∈ headerLines view, Inner line := by
  simp only [headerLines, signature_of_accepted accepted, List.forall_mem_cons, inner_append_iff,
    inner_repr, inner_hexadecimal, and_true]
  exact ⟨by decide, by decide, by decide, by decide, by decide, by simp⟩

/-- The lines of accepted headers tell the headers and the lengths of the name tables. -/
theorem header_eq_of_headerLines (accepted : view.Accepted) (acceptedToo : other.Accepted)
    (same : headerLines view = headerLines other) :
    view.header = other.header ∧ view.nameTable.length = other.nameTable.length := by
  simp only [headerLines, List.cons.injEq, String.append_right_inj, String.append_assoc,
    Hexadecimal.text_inj, Numeral.repr_inj, UInt32.toNat_inj] at same
  obtain ⟨-, revision, flags, count, table, -⟩ := same
  obtain ⟨place, length⟩ := (Hexadecimal.isWord_text _).append_inj (Hexadecimal.isWord_text _)
    (by decide) table
  rw [String.append_left_inj, Numeral.repr_inj] at length
  rw [Hexadecimal.text_inj, UInt32.toNat_inj] at place
  have signature : view.header.signature = other.header.signature := by
    rw [accepted.signature, acceptedToo.signature]
  refine ⟨?_, length⟩
  cases header : view.header
  cases headerToo : other.header
  simp_all

end Header

/-! ## Auxiliary slots -/

section Slots

variable {entry other : Entry}

/-- The name of a slot as shown: that of its meaning, or else that of its field. -/
def slotName (meanings : Slots (Option AuxSlot)) (slot : Fin 4) : String :=
  ((meanings.get slot).map AuxSlot.name).getD (Entry.auxFields.get slot).name

/-- The value of a slot as shown: in decimal when the slot has a meaning, else in hexadecimal. -/
def slotText (meanings : Slots (Option AuxSlot)) (slot : Fin 4) (value : UInt64) : String :=
  if (meanings.get slot).isSome then value.toNat.repr else Hexadecimal.text value.toNat

/-- The line of a slot. -/
def slotLine (entry : Entry) (slot : Fin 4) : String :=
  "    " ++ slotName (meanings entry) slot ++ ": " ++
    slotText (meanings entry) slot (entry.aux.get slot)

/-- A slot has a line unless it is zero and has no meaning. -/
def SlotShown (entry : Entry) (slot : Fin 4) : Prop :=
  (meanings entry).get slot = none → entry.aux.get slot ≠ 0

/-- The lines of the slots are those of the slots that have one. -/
theorem mem_auxLines_iff {line : String} :
    line ∈ auxLines entry ↔ ∃ slot, SlotShown entry slot ∧ line = slotLine entry slot := by
  simp only [auxLines, List.mem_flatMap, List.mem_finRange, true_and]
  refine exists_congr fun slot => ?_
  rw [SlotShown, slotLine, slotName, slotText]
  cases (meanings entry).get slot with
  | some meaning => simp [auxLine]
  | none => by_cases zero : entry.aux.get slot = 0 <;> simp [auxLine, zero]

/-- The meanings of the slots are those of a kind, or there are none. -/
theorem meanings_cases (entry : Entry) :
    (∃ kind : DeviceKind, meanings entry = kind.auxLayout) ∨ meanings entry = .replicate none := by
  rw [meanings]
  cases entry.kind? with
  | some kind => exact .inl ⟨kind, rfl⟩
  | none => exact .inr rfl

/-- The name of a slot is one word. -/
theorem isWord_slotName (entry : Entry) (slot : Fin 4) :
    IsWord (slotName (meanings entry) slot) := by
  revert slot
  obtain ⟨kind, known⟩ | unknown := meanings_cases entry
  · rw [known]
    cases kind <;> decide
  · rw [unknown]
    decide

/-- The four slots of an entry have different names. -/
theorem slotName_inj {slot position : Fin 4}
    (same : slotName (meanings entry) slot = slotName (meanings entry) position) :
    slot = position := by
  revert slot position
  obtain ⟨kind, known⟩ | unknown := meanings_cases entry
  · rw [known]
    cases kind <;> decide
  · rw [unknown]
    decide

/-- The value of a slot as shown tells the value. -/
theorem slotText_inj {meanings : Slots (Option AuxSlot)} {slot : Fin 4} {value stored : UInt64}
    (same : slotText meanings slot value = slotText meanings slot stored) : value = stored := by
  apply UInt64.toNat_inj.mp
  simp only [slotText] at same
  split at same
  · exact Numeral.repr_inj.mp same
  · exact Hexadecimal.text_inj.mp same

/-- The lines of the slots open no block. -/
theorem inner_of_mem_auxLines (entry : Entry) : ∀ line ∈ auxLines entry, Inner line := by
  intro line listed
  obtain ⟨slot, -, rfl⟩ := mem_auxLines_iff.mp listed
  have value : Inner (slotText (meanings entry) slot (entry.aux.get slot)) := by
    rw [slotText]
    split <;> simp only [inner_repr, inner_hexadecimal]
  simp only [slotLine, inner_append_iff, inner_of_isWord (isWord_slotName entry slot), value,
    and_true]
  decide

/-- A slot that has a line in a listing has its value wherever the lines are the same. -/
theorem get_aux_of_slotShown (meant : meanings entry = meanings other)
    (same : auxLines entry = auxLines other) {slot : Fin 4} (shown : SlotShown entry slot) :
    other.aux.get slot = entry.aux.get slot := by
  have listed : slotLine entry slot ∈ auxLines other :=
    same ▸ mem_auxLines_iff.mpr ⟨slot, shown, rfl⟩
  obtain ⟨position, -, line⟩ := mem_auxLines_iff.mp listed
  simp only [slotLine, String.append_assoc, String.append_right_inj] at line
  obtain ⟨names, values⟩ := (isWord_slotName entry slot).append_inj (isWord_slotName other position)
    (by decide) line
  rw [meant] at names values
  obtain rfl := slotName_inj names
  exact (slotText_inj values).symm

/-- The lines of the slots tell the values of all four, for entries of the same kind. -/
theorem aux_eq_of_auxLines (meant : meanings entry = meanings other)
    (same : auxLines entry = auxLines other) : entry.aux = other.aux := by
  refine Slots.ext_get fun slot => ?_
  by_cases shown : SlotShown entry slot
  · exact (get_aux_of_slotShown meant same shown).symm
  · by_cases shownToo : SlotShown other slot
    · exact get_aux_of_slotShown meant.symm same.symm shownToo
    · -- A slot that has no line in either listing is zero in both.
      simp only [SlotShown, Classical.not_imp, not_not] at shown shownToo
      rw [shown.2, shownToo.2]

end Slots

/-! ## Entries -/

section Entries

variable {entry other : Entry} {first second : Except LoadFault LoadedDevice} {index : Nat}
  {view another : BlobView} {rest more : List Char}

/-- What precedes the kind in the first line of a block. -/
def opening (index : Nat) (name : String) : String := "[" ++ index.repr ++ "] " ++ name ++ " "

/-- The lines that follow the first line of a block. -/
def detailLines (entry : Entry) : List String :=
  [ "    flags: " ++ deviceFlagFamily.text entry.flags,
    "    region: " ++ Hexadecimal.text entry.regionBase.toNat ++ " + " ++
      Hexadecimal.text entry.regionSize.toNat,
    "    irq: lane " ++ entry.irqLane.toNat.repr ++ " flags " ++
      irqFlagFamily.text entry.irqFlags ++ " priority " ++ entry.irqPriority.toNat.repr ] ++
    auxLines entry

/-- The block of an entry that is read: after the name all that follows are lines of the entry. -/
theorem ended_entryLines_ok (index : Nat) (device : LoadedDevice) :
    ended (entryLines index (.ok device)) = (opening index device.name).toList ++
      ended (kindText device.entry :: detailLines device.entry) := by
  have lines : entryLines index (.ok device) =
      (opening index device.name ++ kindText device.entry) :: detailLines device.entry := rfl
  rw [lines, ended_cons, ended_cons, String.toList_append, List.append_assoc]

/-- The lines of an entry open no block. -/
theorem inner_of_mem_detailLines (entry : Entry) :
    ∀ line ∈ kindText entry :: detailLines entry, Inner line := by
  simp only [detailLines, List.cons_append, List.nil_append, List.forall_mem_cons,
    inner_append_iff, inner_kindText, inner_flagText FlagFamily.legible_deviceFlagFamily,
    inner_flagText FlagFamily.legible_irqFlagFamily, inner_repr, inner_hexadecimal, and_true,
    true_and]
  exact ⟨by decide, by decide, by decide, inner_of_mem_auxLines entry⟩

/-- The lines of an entry tell all of it but the place of its name. -/
theorem entry_eq_of_detailLines
    (same : kindText entry :: detailLines entry = kindText other :: detailLines other) :
    other = { entry with nameOffset := other.nameOffset } := by
  simp only [detailLines, List.cons_append, List.nil_append, List.cons.injEq, String.append_assoc,
    String.append_right_inj] at same
  obtain ⟨kind, flags, region, irq, slots⟩ := same
  have typeTag := typeTag_eq_of_kindText kind
  -- The slots of both have the same meanings, so their lines can be compared.
  have meant : meanings entry = meanings other := by
    simp only [meanings, Entry.kind?, typeTag]
  have aux := aux_eq_of_auxLines meant slots
  have flags := FlagFamily.legible_deviceFlagFamily.text_inj flags
  obtain ⟨base, size⟩ := (Hexadecimal.isWord_text _).append_inj (Hexadecimal.isWord_text _)
    (by decide) region
  obtain ⟨lane, irq⟩ := (Numeral.isWord_repr _).append_inj (Numeral.isWord_repr _) (by decide) irq
  obtain ⟨irqFlags, priority⟩ := FlagFamily.legible_irqFlagFamily.text_append_inj irq
  rw [String.append_right_inj] at priority
  rw [Hexadecimal.text_inj, UInt64.toNat_inj] at base size
  rw [Numeral.repr_inj, UInt32.toNat_inj] at lane priority
  cases entry
  cases other
  simp_all

/-- The second of two entries with the same name is the first, but for the place of its name. -/
def Agree (first second : Except LoadFault LoadedDevice) : Prop :=
  ∀ device, first = .ok device → ∃ found, second = .ok found ∧ found.name = device.name ∧
    found.entry = { device.entry with nameOffset := found.entry.nameOffset }

/-- Blocks of entries with the same name are told apart from the blocks that follow them, and they
tell their entries. -/
theorem agree_of_block (named : first.map LoadedDevice.name = second.map LoadedDevice.name)
    (begins : BeginsWith '[' rest) (beginsToo : BeginsWith '[' more)
    (same : ended (entryLines index first) ++ rest = ended (entryLines index second) ++ more) :
    Agree first second ∧ rest = more := by
  cases first with
  | error fault =>
    cases second with
    | error found =>
      obtain rfl : fault = found := Except.error.inj named
      refine ⟨fun device read => ?_, List.append_cancel_left same⟩
      cases read
    | ok device => cases named
  | ok device =>
    cases second with
    | error found => cases named
    | ok found =>
      have names : device.name = found.name := Except.ok.inj named
      rw [ended_entryLines_ok, ended_entryLines_ok, names, List.append_assoc, List.append_assoc,
        List.append_cancel_left_eq] at same
      obtain ⟨lines, tails⟩ := ended_append_inj (inner_of_mem_detailLines device.entry)
        (inner_of_mem_detailLines found.entry) begins beginsToo same
      refine ⟨?_, tails⟩
      rintro _ ⟨⟩
      exact ⟨found, rfl, names.symm, entry_eq_of_detailLines lines⟩

/-- A block opens with a bracket. -/
theorem beginsWith_block (view : BlobView) (index : Nat) (rest : List Char) :
    BeginsWith '[' (ended (block view index) ++ rest) := by
  rw [block]
  cases view.get index <;> simp [entryLines, ended]

/-- Blocks, if there are any, open with a bracket. -/
theorem beginsWith_blocks (view : BlobView) (positions : List Nat) :
    BeginsWith '[' (ended (positions.flatMap (block view))) := by
  cases positions with
  | nil => simp [ended]
  | cons index positions =>
    rw [List.flatMap_cons, ended_append]
    exact beginsWith_block view index _

/-- Blocks at the same positions tell their entries when these have the same names. -/
theorem agree_of_blocks {positions : List Nat}
    (named : ∀ index ∈ positions,
      (view.get index).map LoadedDevice.name = (another.get index).map LoadedDevice.name)
    (same : ended (positions.flatMap (block view)) = ended (positions.flatMap (block another))) :
    ∀ index ∈ positions, Agree (view.get index) (another.get index) := by
  induction positions with
  | nil =>
    intro index none
    contradiction
  | cons index positions later =>
    rw [List.forall_mem_cons] at named ⊢
    rw [List.flatMap_cons, List.flatMap_cons, ended_append, ended_append] at same
    obtain ⟨here, rest⟩ := agree_of_block named.1 (beginsWith_blocks view positions)
      (beginsWith_blocks another positions) same
    exact ⟨here, later named.2 rest⟩

end Entries

end Listing

/-- A listing hides nothing of an entry but the place of its name. Where two blobs have the same
listing, and at each position the same name or the same fault in its place, their headers are the
same and their name tables equally long, and wherever there is a name the entries agree in the tag,
known or not, in all bits of both flag words, in the region and the interrupt, and in the four
auxiliary values, with a meaning or without. The names may be any texts, also such as look like
lines of a listing. -/
theorem listing_tells {bytes others : List UInt8} {view another : BlobView}
    (parsed : BlobView.parse bytes = .ok view) (parsedToo : BlobView.parse others = .ok another)
    (named : ∀ index, index < view.size → index < another.size →
      (view.get index).map LoadedDevice.name = (another.get index).map LoadedDevice.name)
    (same : Listing.text view = Listing.text another) :
    view.header = another.header ∧ view.nameTable.length = another.nameTable.length ∧
      ∀ index device, view.get index = .ok device → ∃ found, another.get index = .ok found ∧
        found.name = device.name ∧
        found.entry = { device.entry with nameOffset := found.entry.nameOffset } := by
  obtain ⟨-, -, accepted⟩ := BlobView.parse_eq_ok_iff.mp parsed
  obtain ⟨-, -, acceptedToo⟩ := BlobView.parse_eq_ok_iff.mp parsedToo
  have lines := congrArg String.toList same
  rw [Listing.toList_text, Listing.toList_text, Listing.ended_append,
    Listing.ended_append] at lines
  -- The two headers end where the first bracket stands, however long they are.
  obtain ⟨front, blocks⟩ := Listing.ended_append_inj
    (Listing.inner_of_mem_headerLines accepted) (Listing.inner_of_mem_headerLines acceptedToo)
    (Listing.beginsWith_blocks view _) (Listing.beginsWith_blocks another _) lines
  obtain ⟨header, table⟩ := Listing.header_eq_of_headerLines accepted acceptedToo front
  -- So there are as many blocks in one listing as in the other.
  have size : view.size = another.size := congrArg (·.entriesCount.toNat) header
  rw [← size] at blocks
  have names : ∀ index ∈ List.range view.size,
      (view.get index).map LoadedDevice.name = (another.get index).map LoadedDevice.name := by
    intro index listed
    have inside := List.mem_range.mp listed
    exact named index inside (size ▸ inside)
  refine ⟨header, table, fun index device read => ?_⟩
  have inside := (BlobView.get_eq_ok_iff.mp read).1
  exact Listing.agree_of_blocks names blocks index (List.mem_range.mpr inside) device read

/-- An entry of a tag that stands for no kind, with undefined flags and a value in a slot without a
meaning. -/
def strangeEntry (place : UInt32) : Entry where
  typeTag := 7
  flags := 3
  regionBase := 4096
  irqFlags := 2
  nameOffset := place
  aux := ⟨0, 5, 0, 0⟩

/-- A blob with the name `a`, a line feed and `b` twice in its table. The first entry has the name
at a place, and the second has none. -/
def twinBlob (place lane : UInt32) : List UInt8 :=
  (Header.current 2 168 0).encode ++
    ((strangeEntry place).encode ++ ({ irqLane := lane, nameOffset := 99 } : Entry).encode ++
      [97, 10, 98, 0, 97, 10, 98, 0])

/-- Where its name is stored, and what an entry without a name holds, is all that a listing
hides. -/
theorem listing_tells_twinBlob :
    twinBlob 0 1 ≠ twinBlob 4 2 ∧ ∃ view another,
      BlobView.parse (twinBlob 0 1) = .ok view ∧ BlobView.parse (twinBlob 4 2) = .ok another ∧
        Listing.text view = Listing.text another ∧ view.header = another.header ∧
          ∃ found, another.get 0 = .ok found ∧ found.name = "a\nb" ∧
            found.entry = strangeEntry found.entry.nameOffset := by
  let view : BlobView := ⟨twinBlob 0 1, Header.current 2 168 0⟩
  let another : BlobView := ⟨twinBlob 4 2, Header.current 2 168 0⟩
  have parsed : BlobView.parse (twinBlob 0 1) = .ok view := by decide +kernel
  have parsedToo : BlobView.parse (twinBlob 4 2) = .ok another := by decide +kernel
  have first : view.get 0 = .ok ⟨strangeEntry 0, "a\nb"⟩ := by decide +kernel
  have firstToo : another.get 0 = .ok ⟨strangeEntry 4, "a\nb"⟩ := by decide +kernel
  have second : view.get 1 = .error (.nameOutOfRange 99) := by decide +kernel
  have secondToo : another.get 1 = .error (.nameOutOfRange 99) := by decide +kernel
  have named : ∀ index, index < view.size → index < another.size →
      (view.get index).map LoadedDevice.name = (another.get index).map LoadedDevice.name := by
    intro index inside _
    have small : index < 2 := inside
    interval_cases index
    · rw [first, firstToo]
      rfl
    · rw [second, secondToo]
  have same : Listing.text view = Listing.text another := by decide +kernel
  obtain ⟨headers, -, tells⟩ := listing_tells parsed parsedToo named same
  obtain ⟨found, read, name, entry⟩ := tells 0 _ first
  exact ⟨by decide +kernel, view, another, parsed, parsedToo, same, headers, found, read, name,
    entry⟩

end BoardBlob
