import BoardBlob.Board.Parsing
import BoardBlob.Proofs.ReadJson

/-!
# Written boards

The written forms of a board: numbers as digits or as texts, members in any order, and a member that
has its default given or left out. Every written form of a board is read as that board, so parsing
it gives what the board stands for (`parseBoard_of_written`).
-/
namespace BoardBlob

open Json (Drafts Reads depthLimit exists_choose getD_whenGiven reads_list reads_nullable
  reads_number reads_object reads_quoted reads_record reads_text whenGiven whenGiven_of_mem)
open Json.Written (IsHexDigit IsHexUnit Possible RecordMember blank listOf mark mem_mark mem_member
  mem_quoted_of_plain member number objectOf orNull possible_orNull possible_quoted quoted recordOf
  spellings)

/-! ## Numbers and kinds -/

/-- The written forms of a number. -/
def Quantity.written : Quantity → Language Char
  | whole value => number value
  | text content => quoted content

/-- Every number can be written. -/
theorem Quantity.possible (quantity : Quantity) : Possible quantity.written := by
  cases quantity with
  | whole value => exact ⟨_, rfl⟩
  | text content => exact possible_quoted content

/-- A written number is read as the number. -/
theorem Quantity.reads (opened : Nat) (quantity : Quantity) :
    Reads (Quantity.reader opened) quantity.written quantity := by
  cases quantity with
  | whole value => exact reads_number fun _ => rfl
  | text content => exact reads_quoted fun _ => rfl

/-- The written forms of a device type. -/
def KindTag.written : KindTag → Language Char
  | tag value => number value
  | name content => quoted content

/-- Every device type can be written. -/
theorem KindTag.possible (kind : KindTag) : Possible kind.written := by
  cases kind with
  | tag value => exact ⟨_, rfl⟩
  | name content => exact possible_quoted content

/-- A written device type is read as the type. -/
theorem KindTag.reads (opened : Nat) (kind : KindTag) :
    Reads (KindTag.reader opened) kind.written kind := by
  cases kind with
  | tag value => exact reads_number fun _ => rfl
  | name content => exact reads_quoted fun _ => rfl

/-- Every list of texts can be written. -/
theorem possible_texts (contents : List String) : Possible (listOf (contents.map quoted)) :=
  .listOf (List.forall_mem_map.mpr fun content _ => possible_quoted content)

/-- A written list of texts is read as the texts. -/
theorem reads_texts {opened : Nat} (room : opened < depthLimit) (contents : List String) :
    Reads (Json.list Json.text opened) (listOf (contents.map quoted)) contents := by
  refine reads_list room ?_
  rw [List.forall₂_map_left_iff, List.forall₂_same]
  exact fun content _ => reads_text _ content

/-! ## Numbers under keys -/

namespace KeyedQuantities

/-- The written forms of numbers under keys, in any order. -/
def written (quantities : KeyedQuantities) : Language Char :=
  {text | ∃ given : List (String × Quantity), given.Perm quantities.entries ∧
    text ∈ objectOf (given.map fun entry => (entry.1, entry.2.written))}

/-- An insertion under a new key adds one entry. -/
theorem perm_insertIn {key : String} {value : Quantity} {entries : List (String × Quantity)}
    (fresh : key ∉ entries.map Prod.fst) :
    (insertIn key value entries).Perm ((key, value) :: entries) := by
  induction entries with
  | nil => exact .refl _
  | cons head rest ih =>
    obtain ⟨differ, later⟩ := not_or.mp (fun same => fresh (List.mem_cons.mpr same))
    rw [insertIn]
    split
    · exact .refl _
    · exact ((ih later).cons head).trans (.swap ..)

/-- Insertions under new keys add one entry each. -/
theorem perm_foldl_insert (given : List (String × Quantity)) (quantities : KeyedQuantities)
    (distinct : (given.map Prod.fst ++ quantities.entries.map Prod.fst).Nodup) :
    (given.foldl (fun quantities entry => quantities.insert entry.1 entry.2)
      quantities).entries.Perm (given ++ quantities.entries) := by
  induction given generalizing quantities with
  | nil => exact .refl _
  | cons entry given ih =>
    rw [List.map_cons, List.cons_append, List.nodup_cons, List.mem_append, not_or] at distinct
    obtain ⟨⟨freshGiven, fresh⟩, distinct⟩ := distinct
    have inserted : (quantities.insert entry.1 entry.2).entries.Perm
        (entry :: quantities.entries) := perm_insertIn fresh
    have keys := (inserted.map Prod.fst).append_left (given.map Prod.fst)
    have still := keys.nodup_iff.mpr
      (List.nodup_middle.mpr (List.nodup_cons.mpr ⟨by simp [freshGiven, fresh], distinct⟩))
    exact (ih _ still).trans ((inserted.append_left given).trans List.perm_middle)

/-- No key has two numbers. -/
theorem nodup_keys (quantities : KeyedQuantities) : (quantities.entries.map Prod.fst).Nodup := by
  rw [List.Nodup, List.pairwise_map]
  refine quantities.ascending.imp ?_
  intro left right before same
  rw [same] at before
  exact String.lt_irrefl _ before

/-- Numbers under keys are determined by their entries, in whatever order these come. -/
theorem eq_of_perm {left right : KeyedQuantities} (same : left.entries.Perm right.entries) :
    left = right := by
  obtain ⟨entries, ascending⟩ := left
  obtain ⟨others, ascendingToo⟩ := right
  have listed : entries = others := by
    refine List.Perm.eq_of_pairwise ?_ ascending ascendingToo same
    intro entry other _ _ before after
    exact absurd after (String.lt_asymm before)
  subst listed
  rfl

/-- Numbers under keys can always be written, in the order of the keys. -/
theorem possible (quantities : KeyedQuantities) : Possible quantities.written := by
  have ordered : Possible (objectOf (quantities.entries.map fun entry =>
      (entry.1, entry.2.written))) :=
    .objectOf (List.forall_mem_map.mpr fun entry _ => entry.2.possible)
  obtain ⟨text, written⟩ := ordered
  exact ⟨text, quantities.entries, .refl _, written⟩

/-- Written numbers under keys are read as the numbers. -/
theorem reads {opened : Nat} (room : opened < depthLimit) (quantities : KeyedQuantities) :
    Reads (KeyedQuantities.reader opened) quantities.written quantities := by
  rintro text ⟨given, permuted, form⟩
  have distinct : (given.map Prod.fst ++ empty.entries.map Prod.fst).Nodup := by
    rw [empty, List.map_nil, List.append_nil, (permuted.map Prod.fst).nodup_iff]
    exact quantities.nodup_keys
  have whole : given.foldl (fun quantities entry => quantities.insert entry.1 entry.2) empty =
      quantities := by
    refine eq_of_perm ((perm_foldl_insert given empty distinct).trans ?_)
    simpa [empty] using permuted
  have found := reads_object room (fun quantity => Quantity.reads (opened + 1) quantity) empty
    (fun quantities key value => quantities.insert key value) given text form
  rw [whole] at found
  exact found

end KeyedQuantities

/-! ## Regions and interrupts -/

namespace Region

/-- The members of a region, each of which may be left out when it is zero. -/
def members (region : Region) : List RecordMember :=
  [⟨"base", region.base.written, region.base = .whole 0⟩,
    ⟨"size", region.size.written, region.size = .whole 0⟩]

/-- The written forms of a region. -/
def written (region : Region) : Language Char := recordOf region.members

/-- What a region is read into once some of its members were given. -/
def draft (region : Region) (given : List String) : Draft where
  base := whenGiven given "base" region.base
  size := whenGiven given "size" region.size

/-- The drafts of a region lead to the region. -/
theorem drafts (opened : Nat) (region : Region) :
    Drafts record opened region.members region.draft region where
  distinct := by simp [members]
  start := rfl
  step := by
    intro member listed given absent
    simp only [members, List.mem_cons, List.not_mem_nil, or_false] at listed
    obtain rfl | rfl := listed
    · exact exists_choose rfl (by simp [draft, whenGiven, absent]) (by simp [draft, whenGiven])
        (Quantity.reads opened region.base)
    · exact exists_choose rfl (by simp [draft, whenGiven, absent]) (by simp [draft, whenGiven])
        (Quantity.reads opened region.size)
  finish := by
    intro given left
    simp only [members, List.forall_mem_cons, List.not_mem_nil, false_implies, implies_true,
      and_true] at left
    obtain ⟨base, size⟩ := left
    simp [record, draft, getD_whenGiven base, getD_whenGiven size]

/-- Every region can be written. -/
theorem possible (region : Region) : Possible region.written := by
  refine .recordOf ?_
  simp only [members, List.forall_mem_cons, List.not_mem_nil, false_implies, implies_true,
    and_true]
  exact ⟨region.base.possible, region.size.possible⟩

/-- A written region is read as the region. -/
theorem reads {opened : Nat} (room : opened < depthLimit) (region : Region) :
    Reads (record.read opened) region.written region :=
  reads_record room (region.drafts _)

end Region

namespace Interrupt

/-- The members of an interrupt, each of which may be left out when it is zero or empty. -/
def members (interrupt : Interrupt) : List RecordMember :=
  [⟨"lane", interrupt.lane.written, interrupt.lane = .whole 0⟩,
    ⟨"flags", listOf (interrupt.flags.map quoted), interrupt.flags = []⟩,
    ⟨"priority", interrupt.priority.written, interrupt.priority = .whole 0⟩]

/-- The written forms of an interrupt. -/
def written (interrupt : Interrupt) : Language Char := recordOf interrupt.members

/-- What an interrupt is read into once some of its members were given. -/
def draft (interrupt : Interrupt) (given : List String) : Draft where
  lane := whenGiven given "lane" interrupt.lane
  flags := whenGiven given "flags" interrupt.flags
  priority := whenGiven given "priority" interrupt.priority

/-- The drafts of an interrupt lead to the interrupt. -/
theorem drafts {opened : Nat} (room : opened < depthLimit) (interrupt : Interrupt) :
    Drafts record opened interrupt.members interrupt.draft interrupt where
  distinct := by simp [members]
  start := rfl
  step := by
    intro member listed given absent
    simp only [members, List.mem_cons, List.not_mem_nil, or_false] at listed
    obtain rfl | rfl | rfl := listed
    · exact exists_choose rfl (by simp [draft, whenGiven, absent]) (by simp [draft, whenGiven])
        (Quantity.reads opened interrupt.lane)
    · exact exists_choose rfl (by simp [draft, whenGiven, absent]) (by simp [draft, whenGiven])
        (reads_texts room interrupt.flags)
    · exact exists_choose rfl (by simp [draft, whenGiven, absent]) (by simp [draft, whenGiven])
        (Quantity.reads opened interrupt.priority)
  finish := by
    intro given left
    simp only [members, List.forall_mem_cons, List.not_mem_nil, false_implies, implies_true,
      and_true] at left
    obtain ⟨lane, flags, priority⟩ := left
    simp [record, draft, getD_whenGiven lane, getD_whenGiven flags, getD_whenGiven priority]

/-- Every interrupt can be written. -/
theorem possible (interrupt : Interrupt) : Possible interrupt.written := by
  refine .recordOf ?_
  simp only [members, List.forall_mem_cons, List.not_mem_nil, false_implies, implies_true,
    and_true]
  exact ⟨interrupt.lane.possible, possible_texts _, interrupt.priority.possible⟩

/-- A written interrupt is read as the interrupt. -/
theorem reads {opened : Nat} (room : opened + 1 < depthLimit) (interrupt : Interrupt) :
    Reads (record.read opened) interrupt.written interrupt :=
  reads_record (Nat.lt_of_succ_lt room) (interrupt.drafts room)

end Interrupt

/-! ## Devices -/

namespace BoardDevice

/-- The member that gives one auxiliary slot by position. -/
def slotMember (device : BoardDevice) (name : String) (slot : Fin 4) : RecordMember :=
  ⟨name, orNull Quantity.written (device.directAux.get slot), device.directAux.get slot = none⟩

/-- The members of a device. A region, an interrupt and an auxiliary value that a device does not
have may be left out or written as null. -/
def members (device : BoardDevice) : List RecordMember :=
  [⟨"name", quoted device.name, False⟩,
    ⟨"type", device.kind.written, False⟩,
    ⟨"flags", listOf (device.flags.map quoted), device.flags = []⟩,
    ⟨"mem", orNull Region.written device.region, device.region = none⟩,
    ⟨"irq", orNull Interrupt.written device.interrupt, device.interrupt = none⟩,
    ⟨"aux", device.keyedAux.written, device.keyedAux = .empty⟩,
    device.slotMember "aux1" 0, device.slotMember "aux2" 1, device.slotMember "aux3" 2,
    device.slotMember "aux4" 3]

/-- The written forms of a device. -/
def written (device : BoardDevice) : Language Char := recordOf device.members

/-- What a device is read into once some of its members were given. -/
def draft (device : BoardDevice) (given : List String) : Draft where
  name := whenGiven given "name" device.name
  kind := whenGiven given "type" device.kind
  flags := whenGiven given "flags" device.flags
  region := whenGiven given "mem" device.region
  interrupt := whenGiven given "irq" device.interrupt
  keyedAux := whenGiven given "aux" device.keyedAux
  directAux :=
    ⟨whenGiven given "aux1" (device.directAux.get 0),
      whenGiven given "aux2" (device.directAux.get 1),
      whenGiven given "aux3" (device.directAux.get 2),
      whenGiven given "aux4" (device.directAux.get 3)⟩

/-- A region of a device, or its absence, is read as such. -/
theorem reads_region {opened : Nat} (room : opened < depthLimit) (region : Option Region) :
    Reads (Json.nullable Region.record.read opened) (orNull Region.written region) region :=
  reads_nullable (fun _ => ⟨_, rfl⟩) (Region.reads room) region

/-- An interrupt of a device, or its absence, is read as such. -/
theorem reads_interrupt {opened : Nat} (room : opened + 1 < depthLimit)
    (interrupt : Option Interrupt) :
    Reads (Json.nullable Interrupt.record.read opened) (orNull Interrupt.written interrupt)
      interrupt :=
  reads_nullable (fun _ => ⟨_, rfl⟩) (Interrupt.reads room) interrupt

/-- An auxiliary value of a device, or its absence, is read as such. -/
theorem reads_slot (opened : Nat) (value : Option Quantity) :
    Reads (Json.nullable Quantity.reader opened) (orNull Quantity.written value) value :=
  reads_nullable (fun _ => ⟨_, rfl⟩) (Quantity.reads opened) value

/-- The drafts of a device lead to the device. -/
theorem drafts {opened : Nat} (room : opened + 1 < depthLimit) (device : BoardDevice) :
    Drafts record opened device.members device.draft device where
  distinct := by simp [members, slotMember]
  start := rfl
  step := by
    intro member listed given absent
    have outer : opened < depthLimit := Nat.lt_of_succ_lt room
    simp only [members, List.mem_cons, List.not_mem_nil, or_false] at listed
    obtain rfl | rfl | rfl | rfl | rfl | rfl | rfl | rfl | rfl | rfl := listed
    · exact exists_choose rfl (by simp [draft, whenGiven, absent]) (by simp [draft, whenGiven])
        (reads_text opened device.name)
    · exact exists_choose rfl (by simp [draft, whenGiven, absent]) (by simp [draft, whenGiven])
        (KindTag.reads opened device.kind)
    · exact exists_choose rfl (by simp [draft, whenGiven, absent]) (by simp [draft, whenGiven])
        (reads_texts outer device.flags)
    · exact exists_choose rfl (by simp [draft, whenGiven, absent]) (by simp [draft, whenGiven])
        (reads_region outer device.region)
    · exact exists_choose rfl (by simp [draft, whenGiven, absent]) (by simp [draft, whenGiven])
        (reads_interrupt room device.interrupt)
    · exact exists_choose rfl (by simp [draft, whenGiven, absent]) (by simp [draft, whenGiven])
        (KeyedQuantities.reads outer device.keyedAux)
    all_goals
      simp only [slotMember] at absent ⊢
      exact exists_choose rfl (by simp [draft, whenGiven, Slots.get, absent])
        (by simp [draft, whenGiven, Slots.set]) (reads_slot opened (device.directAux.get _))
  finish := by
    intro given left
    simp only [members, slotMember, List.forall_mem_cons, List.not_mem_nil, false_implies,
      implies_true, and_true] at left
    obtain ⟨name, kind, flags, region, interrupt, keyed, first, second, third, fourth⟩ := left
    simp [record, draft, whenGiven_of_mem (not_not.mp name), whenGiven_of_mem (not_not.mp kind),
      getD_whenGiven flags, getD_whenGiven region, getD_whenGiven interrupt, getD_whenGiven keyed,
      Slots.map, getD_whenGiven first, getD_whenGiven second, getD_whenGiven third,
      getD_whenGiven fourth]
    rfl

/-- Every device can be written. -/
theorem possible (device : BoardDevice) : Possible device.written := by
  refine .recordOf ?_
  simp only [members, slotMember, List.forall_mem_cons, List.not_mem_nil, false_implies,
    implies_true, and_true]
  exact ⟨possible_quoted _, device.kind.possible, possible_texts _,
    possible_orNull Region.possible _, possible_orNull Interrupt.possible _,
    device.keyedAux.possible, possible_orNull Quantity.possible _,
    possible_orNull Quantity.possible _, possible_orNull Quantity.possible _,
    possible_orNull Quantity.possible _⟩

/-- A written device is read as the device. -/
theorem reads {opened : Nat} (room : opened + 2 < depthLimit) (device : BoardDevice) :
    Reads (record.read opened) device.written device :=
  reads_record (Nat.lt_of_succ_lt (Nat.lt_of_succ_lt room)) (device.drafts room)

end BoardDevice

/-! ## Boards -/

namespace Board

/-- The members of a board. -/
def members (board : Board) : List RecordMember :=
  [⟨"devices", listOf (board.devices.map BoardDevice.written), False⟩]

/-- The written forms of a board. -/
def written (board : Board) : Language Char := recordOf board.members

/-- What a board is read into once some of its members were given. -/
def draft (board : Board) (given : List String) : Draft where
  devices := whenGiven given "devices" board.devices

/-- Written devices of a board are read as the devices. -/
theorem reads_devices {opened : Nat} (room : opened + 3 < depthLimit)
    (devices : List BoardDevice) :
    Reads (Json.list BoardDevice.record.read opened) (listOf (devices.map BoardDevice.written))
      devices := by
  refine reads_list (by omega) ?_
  rw [List.forall₂_map_left_iff, List.forall₂_same]
  exact fun device _ => BoardDevice.reads (by omega) device

/-- The drafts of a board lead to the board. -/
theorem drafts {opened : Nat} (room : opened + 3 < depthLimit) (board : Board) :
    Drafts record opened board.members board.draft board where
  distinct := by simp [members]
  start := rfl
  step := by
    intro member listed given absent
    simp only [members, List.mem_cons, List.not_mem_nil, or_false] at listed
    subst listed
    exact exists_choose rfl (by simp [draft, whenGiven, absent]) (by simp [draft, whenGiven])
      (reads_devices room board.devices)
  finish := by
    intro given left
    simp only [members, List.forall_mem_cons, List.not_mem_nil, false_implies, implies_true,
      and_true] at left
    simp [record, draft, whenGiven_of_mem (not_not.mp left)]

/-- A written board is read as the board. -/
theorem reads (board : Board) : Reads (record.read 0) board.written board :=
  reads_record (by decide) (board.drafts (by decide))

/-- The texts that write a board. -/
def documents (board : Board) : Language Char := Json.Written.document board.written

/-- Every board can be written. -/
theorem exists_document (board : Board) : ∃ text : String, text.toList ∈ board.documents := by
  have possible : Possible board.written := by
    refine .recordOf ?_
    simp only [members, List.forall_mem_cons, List.not_mem_nil, false_implies, implies_true,
      and_true]
    exact .listOf (List.forall_mem_map.mpr fun device _ => device.possible)
  obtain ⟨text, written⟩ := possible.document
  exact ⟨String.ofList text, by rwa [String.toList_ofList]⟩

/-- A text that writes a board describes the board. -/
theorem ofDocument_of_written {board : Board} {text : String}
    (written : text.toList ∈ board.documents) : ofDocument text = .ok board :=
  Json.document_of_reads board.reads written

end Board

/-- Every board can be written. A text that writes a board is no malformed board: it describes that
board, and parsing it gives what the board stands for, be that devices or the fault of the first
part without a meaning. -/
theorem parseBoard_of_written (board : Board) :
    (∃ text : String, text.toList ∈ board.documents) ∧
    ∀ text : String, text.toList ∈ board.documents →
      Board.ofDocument text = .ok board ∧
      parseBoard text = (board.toDevices.mapError fun fault => .compile (.invalid fault)) ∧
      ∀ fault, parseBoard text ≠ .error (.malformedBoard fault) := by
  refine ⟨board.exists_document, fun text written => ?_⟩
  have described := Board.ofDocument_of_written written
  have parsed : parseBoard text =
      board.toDevices.mapError fun fault => .compile (.invalid fault) := by
    rw [parseBoard, described]
    cases converted : board.toDevices <;> simp [converted, Except.mapError]
  refine ⟨described, parsed, fun fault malformed => ?_⟩
  rw [parsed] at malformed
  cases converted : board.toDevices <;> simp [converted, Except.mapError] at malformed

/-- A board of one device, whose name is one character that has two code units. -/
def faceBoard : Board := { devices := [{ name := "😀", kind := .tag 6 }] }

/-- A text that writes the device: the name follows the type and is a surrogate pair, and the region
is null. -/
def faceDeviceText : List Char :=
  "\x7b\"type\":6,\"name\":\"\\ud83d\\uDE00\",\"mem\":null\x7d".toList

/-- A text that writes the board. -/
def faceText : String :=
  String.ofList (" \x7b\"devices\" : [".toList ++ faceDeviceText ++ "]\x7d\n".toList)

/-- The text writes the board, and is parsed as its device. -/
theorem parseBoard_of_written_faceText :
    faceText.toList ∈ faceBoard.documents ∧
      parseBoard faceText = .ok [{ kind := .rtc, name := "😀" }] := by
  have face : "\"\\ud83d\\uDE00\"".toList ∈ quoted "😀" := by
    have pair : "\\ud83d\\uDE00".toList ∈ spellings '😀' := by
      refine .pair '😀' ['d', '8', '3', 'd'] ['D', 'E', '0', '0'] (by decide) ?_ ?_ <;>
      · simp only [IsHexUnit, IsHexDigit, List.forall₂_cons, List.forall₂_nil_left_iff]
        decide
    have quote : ['"'] ∈ ({['"']} : Language Char) := rfl
    have only := Language.append_mem_mul pair ((Language.mem_one []).mpr rfl)
    exact Language.append_mem_mul (Language.append_mem_mul quote only) quote
  have device : faceDeviceText ∈ BoardDevice.written { name := "😀", kind := .tag 6 } := by
    refine ⟨[⟨"type", number 6, False⟩, ⟨"name", quoted "😀", False⟩,
      ⟨"mem", orNull Region.written none, none = none⟩], _,
      (List.Perm.swap _ _ _).trans (.cons _ (.cons _ (.swap _ _ _))), ?omitted, ?given⟩
    case omitted => simp [BoardDevice.slotMember, Slots.replicate, Slots.get]
    case given =>
      have kind : "\"type\":6".toList ∈ member "type" (number 6) := mem_member (by decide) rfl
      have name : "\"name\":\"\\ud83d\\uDE00\"".toList ∈ member "name" (quoted "😀") :=
        mem_member (by decide) face
      have region : "\"mem\":null".toList ∈ member "mem" (orNull Region.written none) :=
        mem_member (by decide) rfl
      have later := Language.append_mem_mul (Language.append_mem_mul (mem_mark ',') name)
        (Language.append_mem_mul (Language.append_mem_mul (mem_mark ',') region)
          ((Language.mem_one []).mpr rfl))
      exact Language.append_mem_mul (Language.append_mem_mul (mem_mark _)
        (Language.append_mem_mul kind later)) (mem_mark _)
  have written : faceText.toList ∈ faceBoard.documents := by
    have space : [' '] ∈ blank := by
      intro character listed
      simp_all
    have newline : ['\n'] ∈ blank := by
      intro character listed
      simp_all
    have alone : [':'] ∈ ({[':']} : Language Char) := rfl
    have colon : " : ".toList ∈ mark ':' :=
      Language.append_mem_mul (Language.append_mem_mul space alone) space
    have key : "\"devices\"".toList ∈ quoted "devices" := mem_quoted_of_plain (by decide)
    have devices := Language.append_mem_mul (Language.append_mem_mul (mem_mark '[')
      (Language.append_mem_mul device ((Language.mem_one []).mpr rfl))) (mem_mark ']')
    have only := Language.append_mem_mul (Language.append_mem_mul key colon) devices
    have object := Language.append_mem_mul (Language.append_mem_mul (mem_mark '\x7b')
      (Language.append_mem_mul only ((Language.mem_one []).mpr rfl))) (mem_mark '\x7d')
    have board : _ ∈ faceBoard.written :=
      ⟨faceBoard.members, [], by simp, by simp, object⟩
    exact Language.append_mem_mul (Language.append_mem_mul space board) newline
  refine ⟨written, ?_⟩
  rw [((parseBoard_of_written faceBoard).2 faceText written).2.1]
  decide +kernel

end BoardBlob
