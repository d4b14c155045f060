import BoardBlob.Json.Reader
import BoardBlob.Proofs.ScannedJson

/-!
# Reading written values

A reader is faithful to a value when it reads every written form of the value as the value
(`Reads`). Items and members are read by loops of one shape, which take one turn for each form
between commas (`Turns`, `TurnsAll`); one induction over the turns serves lists and objects
(`TurnsAll.bracketed`). A record is read into drafts that depend only on which members were given,
so their order does not matter, and an omitted member has its default (`reads_record`).
-/
namespace BoardBlob.Json

open Written (RecordMember listOf mark objectOf orNull quoted recordOf separated)

variable {α β σ : Type}

/-- Every written form of a value is read as the value, whatever stands after it. -/
def Reads (read : List Token → Except Fault (α × List Token)) (written : Language Char)
    (value : α) : Prop :=
  ∀ text ∈ written, ∃ head tail, Scans text (head :: tail) ∧ head ≠ .closeList ∧
    ∀ rest, read (head :: tail ++ rest) = .ok (value, rest)

/-- A reader that takes the token of a text reads every written form of the text. -/
theorem reads_quoted {read : List Token → Except Fault (α × List Token)} {content : String}
    {value : α} (takes : ∀ rest, read (.text content :: rest) = .ok (value, rest)) :
    Reads read (quoted content) value := by
  intro text written
  exact ⟨_, [], scans_quoted written, by simp, takes⟩

/-- A reader that takes the token of a number reads the number. -/
theorem reads_number {read : List Token → Except Fault (α × List Token)} {number : UInt64}
    {value : α} (takes : ∀ rest, read (.number (.whole number) :: rest) = .ok (value, rest)) :
    Reads read (Written.number number) value := by
  intro text written
  obtain rfl : text = _ := written
  exact ⟨_, [], scans_number number, by simp, takes⟩

/-- A written text is read as the text. -/
theorem reads_text (opened : Nat) (content : String) :
    Reads (Json.text opened) (quoted content) content :=
  reads_quoted fun _ => rfl

/-- A reader that refuses null reads the written forms of an optional value. -/
theorem reads_nullable {reader : Reader α} {opened : Nat} {written : α → Language Char}
    (refuses : ∀ rest, ∃ fault, reader opened (.null :: rest) = .error fault)
    (reads : ∀ value, Reads (reader opened) (written value) value) (value : Option α) :
    Reads (nullable reader opened) (orNull written value) value := by
  intro text form
  cases value with
  | none =>
    obtain rfl : text = _ := form
    exact ⟨_, [], scans_null, by simp, fun _ => rfl⟩
  | some value =>
    obtain ⟨head, tail, scans, opens, read⟩ := reads value text form
    have notNull : head ≠ .null := by
      rintro rfl
      obtain ⟨fault, refused⟩ := refuses (tail ++ [])
      rw [← List.cons_append, read] at refused
      contradiction
    refine ⟨head, tail, scans, opens, fun rest => ?_⟩
    rw [nullable, read]
    · rfl
    · intro more begins
      exact notNull (List.head_eq_of_cons_eq begins)

/-- A value that is kept is read as what is kept of it. -/
theorem Reads.map {read : List Token → Except Fault (α × List Token)} {written : Language Char}
    {value : α} (reads : Reads read written value) (keep : α → β) :
    Reads (fun tokens => (read tokens).map fun (value, rest) => (keep value, rest)) written
      (keep value) := by
  intro text form
  obtain ⟨head, tail, scans, opens, found⟩ := reads text form
  exact ⟨head, tail, scans, opens, fun rest => by simp only [found, Except.map]⟩

/-! ## Loops -/

section Loops

variable {loop : List Token → Bool → σ → List Token → Except Fault (β × List Token)}
  {form : Language Char} {forms : List (Language Char)} {state next last : σ} {text : List Char}

/-- One turn of a loop reads a written form: at the start what is written there, and later a comma
before it. -/
def Turns (loop : List Token → Bool → σ → List Token → Except Fault (β × List Token))
    (form : Language Char) (state next : σ) : Prop :=
  ∀ text ∈ form, ∃ found, found ≠ [] ∧ Scans text found ∧ ∀ bound limit rest,
    loop (bound :: limit) true state (found ++ rest) = loop limit false next rest ∧
    loop (bound :: limit) false state (.comma :: found ++ rest) = loop limit false next rest

/-- The turns of a loop read written forms one after the other. -/
inductive TurnsAll (loop : List Token → Bool → σ → List Token → Except Fault (β × List Token)) :
    List (Language Char) → σ → σ → Prop
  /-- Without a form there is no turn. -/
  | nil (state : σ) : TurnsAll loop [] state state
  /-- One turn, and then those for the other forms. -/
  | cons {form : Language Char} {forms : List (Language Char)} {state next last : σ} :
    Turns loop form state next → TurnsAll loop forms next last →
    TurnsAll loop (form :: forms) state last

/-- Forms that each follow a comma are read in turns. -/
theorem TurnsAll.afterCommas (turns : TurnsAll loop forms state last)
    (written : text ∈ (forms.map fun form => mark ',' * form).prod) :
    ∃ found, Scans text found ∧ Delimits text ∧ forms.length ≤ found.length ∧
      ∀ limit rest, forms.length < limit.length → ∃ bound left,
        loop limit false state (found ++ rest) = loop (bound :: left) false last rest := by
  induction turns generalizing text with
  | nil state =>
    obtain rfl := (Language.mem_one text).mp written
    refine ⟨[], fun _ _ _ scanned => scanned, fun _ delimited => delimited, Nat.le_refl _, ?_⟩
    intro limit rest enough
    cases limit with
    | nil => simp at enough
    | cons bound left => exact ⟨bound, left, rfl⟩
  | cons turn turns ih =>
    rw [List.map_cons, List.prod_cons] at written
    obtain ⟨_, first, later, more, rfl⟩ := Language.mem_mul.mp written
    obtain ⟨comma, marked, here, form, rfl⟩ := Language.mem_mul.mp first
    obtain ⟨found, filled, scans, step⟩ := turn here form
    obtain ⟨others, scansLater, delimitsLater, count, steps⟩ := ih more
    have isMark : ScansMark comma .comma := scansMark_of_mem (by decide) marked
    refine ⟨.comma :: found ++ others, ?_, ?_, ?_, ?_⟩
    · exact (isMark.append scans).append delimitsLater scansLater
    · rw [List.append_assoc]
      exact isMark.delimits
    · simp only [List.length_cons, List.length_append]
      omega
    · intro limit rest enough
      cases limit with
      | nil => simp at enough
      | cons bound limit =>
        rw [List.append_assoc, (step bound limit (others ++ rest)).2]
        exact steps limit rest (Nat.lt_of_succ_lt_succ enough)

/-- Forms with commas between them are read in turns, and after the last the loop is at its end. -/
theorem TurnsAll.separated (turns : TurnsAll loop forms state last)
    (written : text ∈ separated forms) :
    ∃ found, Scans text found ∧ forms.length ≤ found.length ∧
      ∀ limit rest, forms.length < limit.length → ∃ bound left first,
        loop limit true state (found ++ rest) = loop (bound :: left) first last rest := by
  cases turns with
  | nil =>
    obtain rfl := (Language.mem_one text).mp written
    refine ⟨[], fun _ _ _ scanned => scanned, Nat.le_refl _, ?_⟩
    intro limit rest enough
    cases limit with
    | nil => simp at enough
    | cons bound left => exact ⟨bound, left, true, rfl⟩
  | cons turn turns =>
    obtain ⟨here, form, later, more, rfl⟩ := Language.mem_mul.mp written
    obtain ⟨found, filled, scans, step⟩ := turn here form
    obtain ⟨others, scansLater, delimitsLater, count, steps⟩ := turns.afterCommas more
    have some := List.length_pos_iff.mpr filled
    refine ⟨found ++ others, scans.append delimitsLater scansLater, ?_, ?_⟩
    · simp only [List.length_cons, List.length_append]
      omega
    · intro limit rest enough
      cases limit with
      | nil => simp at enough
      | cons bound limit =>
        rw [List.append_assoc, (step bound limit (others ++ rest)).1]
        obtain ⟨bound, left, ends⟩ := steps limit rest (Nat.lt_of_succ_lt_succ enough)
        exact ⟨bound, left, false, ends⟩

/-- Forms between brackets are read in turns up to the closing bracket. -/
theorem TurnsAll.bracketed {opening closing : Char} {openToken closeToken : Token}
    (turns : TurnsAll loop forms state last) (opens : (opening, openToken) ∈ marks)
    (closes : (closing, closeToken) ∈ marks)
    (written : text ∈ mark opening * Written.separated forms * mark closing) :
    ∃ found, Scans text (openToken :: found) ∧ ∀ rest, ∃ bound left first,
      loop (found ++ rest) true state (found ++ rest) =
        loop (bound :: left) first last (closeToken :: rest) := by
  obtain ⟨_, begins, back, closed, rfl⟩ := Language.mem_mul.mp written
  obtain ⟨front, opened, middle, between, rfl⟩ := Language.mem_mul.mp begins
  obtain ⟨found, scans, count, steps⟩ := turns.separated between
  have opener := scansMark_of_mem opens opened
  have closer := scansMark_of_mem closes closed
  have delimits : Delimits back := by simpa using (closer.delimits : Delimits (back ++ []))
  refine ⟨found ++ [closeToken], ?_, ?_⟩
  · exact (opener.append scans).append delimits closer.scans
  · intro rest
    rw [List.append_assoc]
    refine steps _ _ ?_
    simp only [List.length_append, List.length_cons]
    omega

end Loops

/-! ## Lists -/

/-- The first item of a list begins at once. -/
theorem nextItem?_first {head : Token} (opens : head ≠ .closeList) (rest : List Token) :
    nextItem? true (head :: rest) = .ok (some (head :: rest)) := by
  cases head <;> first | contradiction | rfl

/-- A later item of a list begins after its comma. -/
theorem nextItem?_comma {head : Token} (opens : head ≠ .closeList) (rest : List Token) :
    nextItem? false (.comma :: head :: rest) = .ok (some (head :: rest)) := by
  cases head <;> first | contradiction | rfl

/-- An item of a list is read in one turn. -/
theorem turns_item {item : List Token → Except Fault (α × List Token)} {form : Language Char}
    {value : α} (reads : Reads item form value) (read : List α) :
    Turns (itemsWithin item) form read (value :: read) := by
  intro text written
  obtain ⟨head, tail, scans, opens, found⟩ := reads text written
  refine ⟨head :: tail, by simp, scans, fun bound limit rest => ?_⟩
  have here := found rest
  simp only [List.cons_append] at here ⊢
  exact ⟨by simp only [itemsWithin, nextItem?_first opens, here],
    by simp only [itemsWithin, nextItem?_comma opens, here]⟩

/-- The items of a list are read in turns. -/
theorem turnsAll_items {item : List Token → Except Fault (α × List Token)}
    {forms : List (Language Char)} {values : List α}
    (each : List.Forall₂ (Reads item) forms values) (read : List α) :
    TurnsAll (itemsWithin item) forms read (values.reverse ++ read) := by
  induction each generalizing read with
  | nil => exact .nil read
  | cons reads each ih =>
    refine .cons (turns_item reads read) ?_
    simpa using ih _

/-- A list is read as the list of its items. -/
theorem reads_list {item : Reader α} {opened : Nat} {forms : List (Language Char)}
    {values : List α} (room : opened < depthLimit)
    (each : List.Forall₂ (Reads (item (opened + 1))) forms values) :
    Reads (list item opened) (listOf forms) values := by
  intro text written
  have opens : ('[', Token.openList) ∈ marks := by decide
  have closes : (']', Token.closeList) ∈ marks := by decide
  obtain ⟨found, scans, ends⟩ := (turnsAll_items each []).bracketed opens closes written
  refine ⟨.openList, found, scans, by simp, fun rest => ?_⟩
  obtain ⟨bound, left, first, same⟩ := ends rest
  simp only [list, enter, if_pos room, List.cons_append, same]
  simp [itemsWithin, nextItem?, endList, Except.map]

/-! ## Objects -/

/-- The first member of an object begins with its key. -/
theorem nextKey?_first (name : String) (rest : List Token) :
    nextKey? true (.text name :: rest) = .ok (some (name, rest)) := rfl

/-- A later member of an object begins with its key, after its comma. -/
theorem nextKey?_comma (name : String) (rest : List Token) :
    nextKey? false (.comma :: .text name :: rest) = .ok (some (name, rest)) := rfl

/-- The colon after a key is read. -/
theorem colon_cons (rest : List Token) : colon (.colon :: rest) = .ok rest := rfl

/-- A member of an object is read in one turn, as its key decides. -/
theorem turns_member
    {choose : String → σ → Except Fault (List Token → Except Fault (σ × List Token))}
    {read : List Token → Except Fault (σ × List Token)} {key : String} {form : Language Char}
    {state next : σ} (chosen : choose key state = .ok read) (reads : Reads read form next) :
    Turns (membersWithin choose) (Written.member key form) state next := by
  intro text written
  obtain ⟨_, begins, value, valued, rfl⟩ := Language.mem_mul.mp written
  obtain ⟨name, named, between, marked, rfl⟩ := Language.mem_mul.mp begins
  obtain ⟨head, tail, scans, _, found⟩ := reads value valued
  have isColon : ScansMark between .colon := scansMark_of_mem (by decide) marked
  refine ⟨[.text key] ++ .colon :: head :: tail, by simp, ?_, fun bound limit rest => ?_⟩
  · rw [List.append_assoc]
    exact (scans_quoted named).append isColon.delimits (isColon.append scans)
  · have here := found rest
    simp only [List.cons_append, List.nil_append] at here ⊢
    exact ⟨by simp only [membersWithin, nextKey?_first, chosen, colon_cons, here],
      by simp only [membersWithin, nextKey?_comma, chosen, colon_cons, here]⟩

/-- A loop over members ends at the end of the object. -/
theorem membersWithin_end
    {choose : String → σ → Except Fault (List Token → Except Fault (σ × List Token))}
    (bound : Token) (limit rest : List Token) (first : Bool) (state : σ) :
    membersWithin choose (bound :: limit) first state (.closeObject :: rest) =
      .ok (state, rest) := rfl

/-- The members of an object are read in turns up to its end. -/
theorem TurnsAll.object
    {choose : String → σ → Except Fault (List Token → Except Fault (σ × List Token))}
    {members : List (String × Language Char)} {state last : σ} {text : List Char}
    (turns : TurnsAll (membersWithin choose)
      (members.map fun given => Written.member given.1 given.2) state last)
    (written : text ∈ objectOf members) :
    ∃ found, Scans text (.openObject :: found) ∧ ∀ rest,
      membersWithin choose (found ++ rest) true state (found ++ rest) = .ok (last, rest) := by
  have opens : ('\x7b', Token.openObject) ∈ marks := by decide
  have closes : ('\x7d', Token.closeObject) ∈ marks := by decide
  obtain ⟨found, scans, ends⟩ := turns.bracketed opens closes written
  refine ⟨found, scans, fun rest => ?_⟩
  obtain ⟨bound, left, first, same⟩ := ends rest
  rw [same, membersWithin_end]

/-- The members of an object with keys of any name are read in turns. -/
theorem turnsAll_entries {value : List Token → Except Fault (α × List Token)}
    {written : α → Language Char} (reads : ∀ found, Reads value (written found) found)
    (add : σ → String → α → σ) (entries : List (String × α)) (state : σ) :
    TurnsAll
      (membersWithin fun name state => .ok fun tokens =>
        (value tokens).map fun (found, rest) => (add state name found, rest))
      ((entries.map fun entry => (entry.1, written entry.2)).map fun given =>
        Written.member given.1 given.2)
      state (entries.foldl (fun state entry => add state entry.1 entry.2) state) := by
  induction entries generalizing state with
  | nil => exact .nil state
  | cons entry entries ih =>
    exact .cons (turns_member rfl ((reads entry.2).map (add state entry.1))) (ih _)

/-- An object with keys of any name is read entry by entry. -/
theorem reads_object {value : Reader α} {opened : Nat} {written : α → Language Char}
    (room : opened < depthLimit) (reads : ∀ found, Reads (value (opened + 1)) (written found) found)
    (start : σ) (add : σ → String → α → σ) (entries : List (String × α)) :
    Reads (object value start add opened)
      (objectOf (entries.map fun entry => (entry.1, written entry.2)))
      (entries.foldl (fun state entry => add state entry.1 entry.2) start) := by
  intro text form
  obtain ⟨found, scans, ends⟩ := (turnsAll_entries reads add entries start).object form
  refine ⟨.openObject, found, scans, by simp, fun rest => ?_⟩
  simp only [object, enter, if_pos room, List.cons_append, ends]

/-! ## Records -/

/-- A value that was given under a name, if the name was given. -/
def whenGiven (given : List String) (name : String) (value : α) : Option α :=
  if name ∈ given then some value else none

/-- A value whose name was given was given. -/
theorem whenGiven_of_mem {given : List String} {name : String} {value : α}
    (present : name ∈ given) : whenGiven given name value = some value := if_pos present

/-- A value that was given, or that is the one taken where it is missing, is taken. -/
theorem getD_whenGiven {given : List String} {name : String} {value missing : α}
    (left : name ∉ given → value = missing) :
    (whenGiven given name value).getD missing = value := by
  by_cases present : name ∈ given
  · simp [whenGiven, present]
  · simp [whenGiven, present, left present]

/-- What a record is read into depends only on which of the members of a value were given, and is
the value when no other members were left out than may be. -/
structure Drafts (record : Record σ α) (opened : Nat) (members : List RecordMember)
    (draft : List String → σ) (value : α) : Prop where
  /-- No two members have one name. -/
  distinct : (members.map RecordMember.name).Nodup
  /-- Before any member is given, nothing is. -/
  start : draft [] = record.start
  /-- A member that was not given yet is read, and then it was given. -/
  step : ∀ member ∈ members, ∀ given, member.name ∉ given → ∃ read,
    record.choose opened member.name (draft given) = .ok read ∧
      Reads read member.written (draft (member.name :: given))
  /-- The value is read when only members that may be left out were. -/
  finish : ∀ given, (∀ member ∈ members, member.name ∉ given → member.omissible) →
    record.finish (draft given) = .ok value

namespace Drafts

variable {record : Record σ α} {opened : Nat} {members : List RecordMember}
  {draft : List String → σ} {value : α}

/-- Members of a record are read in turns, in whatever order they come. -/
theorem turnsAll (drafts : Drafts record opened members draft value) {given : List RecordMember}
    (known : ∀ member ∈ given, member ∈ members) {done : List String}
    (distinct : (given.map RecordMember.name ++ done).Nodup) :
    TurnsAll (membersWithin (record.choose opened))
      ((given.map fun member => (member.name, member.written)).map fun given =>
        Written.member given.1 given.2)
      (draft done) (draft ((given.map RecordMember.name).reverse ++ done)) := by
  induction given generalizing done with
  | nil => exact .nil _
  | cons member given ih =>
    rw [List.map_cons, List.cons_append, List.nodup_cons] at distinct
    obtain ⟨fresh, distinct⟩ := distinct
    obtain ⟨read, chosen, reads⟩ := drafts.step member (known member List.mem_cons_self) done
      fun before => fresh (List.mem_append_right _ before)
    have stillDistinct : (given.map RecordMember.name ++ member.name :: done).Nodup :=
      List.nodup_middle.mpr (List.nodup_cons.mpr ⟨fresh, distinct⟩)
    have later := ih (fun other listed => known other (List.mem_cons_of_mem _ listed)) stillDistinct
    refine .cons (turns_member chosen reads) ?_
    simpa using later

end Drafts

/-- A record is read as its value, in whatever order its members come and whichever of those that
may be left out are. -/
theorem reads_record {record : Record σ α} {opened : Nat} {members : List RecordMember}
    {draft : List String → σ} {value : α} (room : opened < depthLimit)
    (drafts : Drafts record (opened + 1) members draft value) :
    Reads (record.read opened) (recordOf members) value := by
  rintro text ⟨given, omitted, permuted, omissible, written⟩
  have known : ∀ member ∈ given, member ∈ members := fun member listed =>
    permuted.subset (List.mem_append_left _ listed)
  have distinct : (given.map RecordMember.name ++ []).Nodup := by
    have all := (permuted.map RecordMember.name).nodup_iff.mpr drafts.distinct
    rw [List.map_append] at all
    simpa using all.of_append_left
  obtain ⟨found, scans, ends⟩ := (drafts.turnsAll known distinct).object written
  refine ⟨.openObject, found, scans, by simp, fun rest => ?_⟩
  have finished : record.finish (draft ((given.map RecordMember.name).reverse ++ [])) =
      .ok value := by
    refine drafts.finish _ fun member listed absent => ?_
    cases List.mem_append.mp (permuted.mem_iff.mpr listed) with
    | inl present => simp [List.mem_map_of_mem present] at absent
    | inr left => exact omissible member left
  rw [drafts.start] at ends
  simp only [Record.read, Record.readState, enter, if_pos room, List.cons_append, ends, finished,
    Except.map]

/-- A member that is kept in an optional part of the draft is read when the part is empty. -/
theorem exists_choose {record : Record σ α} {opened : Nat} {name : String} {required : Bool}
    {part : σ → Option β} {store : σ → β → σ} {reader : Reader β} {written : Language Char}
    {state next : σ} {value : β}
    (found : record.members.find? (fun member => member.name == name) =
      some (.of name required part store reader))
    (fresh : part state = none) (stored : store state value = next)
    (reads : Reads (reader opened) written value) :
    ∃ read, record.choose opened name state = .ok read ∧ Reads read written next := by
  refine ⟨fun tokens => (reader opened tokens).map fun (value, rest) => (store state value, rest),
    ?_, ?_⟩
  · simp [Record.choose, found, Member.of, fresh]
  · rw [← stored]
    exact reads.map (store state)

/-- A whole document is read as the value that is written in it. -/
theorem document_of_reads {reader : Reader α} {written : Language Char} {value : α}
    (reads : Reads (reader 0) written value) {text : String}
    (form : text.toList ∈ Written.document written) :
    document reader (tokens text) = .ok value := by
  obtain ⟨_, begins, after, blankAfter, same⟩ := Language.mem_mul.mp form
  obtain ⟨before, blankBefore, middle, valued, rfl⟩ := Language.mem_mul.mp begins
  obtain ⟨head, tail, scans, _, found⟩ := reads middle valued
  have ended : Scanned after [] := by simpa using Scanned.nil.blank blankAfter
  have delimited : Delimited after := by
    simpa using delimits_blank blankAfter [] (by simp [Delimited])
  have scanned : Scanned text.toList (head :: tail) := by
    rw [← same, List.append_assoc]
    simpa using (scans after [] delimited ended).blank blankBefore
  have read := found []
  rw [List.append_nil] at read
  rw [document, scanned.tokens_eq, read]

end BoardBlob.Json
