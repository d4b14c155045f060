import BoardBlob.Proofs.AcceptedTokens
import BoardBlob.Proofs.ReadJson

/-!
# Readers and gaps for a number

A document with gaps for a number is a template (`Template`), and its tokens are those of the
template with a word in its gaps. A reader does nothing with the word but to keep it: when it reads
a template with one word in the gaps, it reads the template with every word, and what it reads is a
family over the words that the template describes (`Steady`). Every way to build a reader from
others keeps this. The parts of the draft of a record are described one by one, each by the member
that is kept in it (`Kept`).
-/
namespace BoardBlob.Json

variable {α β σ : Type}

/-! ## Templates -/

/-- A value in a document, with gaps for a number. -/
inductive Template where
  | gap
  | null
  | boolean (value : Bool)
  | number (value : Number)
  | text (content : String)
  | list (items : List Template)
  | object (members : List (String × Template))

namespace Template

/-- What separates an item or a member from the one before it. -/
def separator (first : Bool) : List Token := if first then [] else [.comma]

mutual

/-- The tokens of a value with a word in its gaps. -/
def filled (word : UInt64) : Template → List Token
  | gap => [.number (.whole word)]
  | null => [.null]
  | boolean value => [.boolean value]
  | number value => [.number value]
  | text content => [.text content]
  | list items => .openList :: filledItems word true items
  | object members => .openObject :: filledMembers word true members

/-- The tokens of the items of a list and of its end. -/
def filledItems (word : UInt64) (first : Bool) : List Template → List Token
  | [] => [.closeList]
  | item :: more => separator first ++ filled word item ++ filledItems word false more

/-- The tokens of the members of an object and of its end. -/
def filledMembers (word : UInt64) (first : Bool) : List (String × Template) → List Token
  | [] => [.closeObject]
  | (name, value) :: more =>
    separator first ++ .text name :: .colon :: filled word value ++ filledMembers word false more

end

/-- The members of a record in either of its forms, the last one first. The items of a list are the
members in the order of their names. -/
def given (names : List String) : Template → List (String × Template)
  | list items => (names.zip items).reverse
  | object members => members.reverse
  | _ => []

/-- The member of a record that counts: of several under one name, the last. -/
def member? (names : List String) (name : String) (template : Template) : Option Template :=
  (template.given names).lookup name

variable {word : UInt64} {first : Bool} {item : Template} {more : List Template} {rest : List Token}

/-- A value begins with a token that neither ends nor separates. -/
theorem exists_filled_eq_cons (template : Template) (word : UInt64) :
    ∃ head tail, template.filled word = head :: tail ∧ head ≠ .closeList ∧ head ≠ .comma := by
  cases template <;> exact ⟨_, _, by rw [filled], by rintro ⟨⟩, by rintro ⟨⟩⟩

/-- There is no item before the end of a list. -/
theorem nextItem?_nil : nextItem? first (filledItems word first [] ++ rest) = .ok none := by
  rw [filledItems]
  rfl

/-- Moving to an item takes the comma before it. -/
theorem nextItem?_cons : nextItem? first (filledItems word first (item :: more) ++ rest) =
    .ok (some (item.filled word ++ (filledItems word false more ++ rest))) := by
  obtain ⟨head, tail, begins, opens, -⟩ := item.exists_filled_eq_cons word
  rw [filledItems, List.append_assoc, List.append_assoc, begins]
  cases first with
  | true => exact nextItem?_first opens _
  | false => exact nextItem?_comma opens _

/-- A list ends after its last item. -/
theorem endList_nil : endList (filledItems word first [] ++ rest) = .ok rest := by
  rw [filledItems]
  rfl

/-- A list does not end before an item. -/
theorem endList_cons : ∃ fault,
    endList (filledItems word first (item :: more) ++ rest) = .error fault := by
  obtain ⟨head, tail, begins, opens, solid⟩ := item.exists_filled_eq_cons word
  rw [filledItems, List.append_assoc, List.append_assoc, begins]
  cases first with
  | true => cases head <;> first | contradiction | exact ⟨_, rfl⟩
  | false => cases head <;> first | contradiction | exact ⟨_, rfl⟩

/-- Moving past a key takes the comma before it. -/
theorem nextKey?_cons {name : String} {value : Template} {more : List (String × Template)} :
    nextKey? first (filledMembers word first ((name, value) :: more) ++ rest) =
      .ok (some (name,
        .colon :: (value.filled word ++ (filledMembers word false more ++ rest)))) := by
  rw [filledMembers, List.append_assoc, List.append_assoc]
  cases first with
  | true => exact nextKey?_first name _
  | false => exact nextKey?_comma name _

/-- A list has more tokens than items. -/
theorem length_lt_filledItems (items : List Template) (word : UInt64) (first : Bool) :
    items.length < (filledItems word first items).length := by
  induction items generalizing first with
  | nil => simp [filledItems]
  | cons item more ih =>
    obtain ⟨head, tail, begins, -⟩ := item.exists_filled_eq_cons word
    have later := ih false
    simp only [filledItems, begins, List.length_append, List.length_cons]
    omega

/-- An object has more tokens than members. -/
theorem length_lt_filledMembers (members : List (String × Template)) (word : UInt64)
    (first : Bool) : members.length < (filledMembers word first members).length := by
  induction members generalizing first with
  | nil => simp [filledMembers]
  | cons member more ih =>
    have later := ih false
    simp only [filledMembers, List.length_append, List.length_cons]
    omega

end Template

open BoardBlob.Json.Template (filledItems filledMembers)

/-! ## Steady readers -/

/-- What is read does not depend on the word in the gaps. -/
def Constant (family : UInt64 → α) : Prop := ∃ value, family = fun _ => value

/-- What does not depend on the word is the same with any two. -/
theorem Constant.eq {family : UInt64 → α} (constant : Constant family) (word other : UInt64) :
    family word = family other := by
  obtain ⟨value, rfl⟩ := constant
  rfl

/-- A family of readings, one for each word, that does nothing with the word but to keep it: when
one of them reads a template with its own word in the gaps, each of them does, whatever stands
behind, and what they read is a family that the template describes. -/
def Steady (describes : Template → (UInt64 → α) → Prop)
    (read : UInt64 → List Token → Except Fault (α × List Token)) : Prop :=
  ∀ template known rest value left, read known (template.filled known ++ rest) = .ok (value, left) →
    ∃ family, describes template family ∧
      ∀ word rest, read word (template.filled word ++ rest) = .ok (family word, rest)

section Steady

variable {describes : Template → (UInt64 → α) → Prop} {other : Template → (UInt64 → β) → Prop}

/-- What is kept of what is read is described when it is kept as described. -/
theorem Steady.map {read : UInt64 → List Token → Except Fault (α × List Token)}
    (steady : Steady describes read) {keep : UInt64 → α → β}
    (kept : ∀ template family, describes template family →
      other template fun word => keep word (family word)) :
    Steady other fun word tokens =>
      (read word tokens).map fun (value, rest) => (keep word value, rest) := by
  intro template known rest value left reads
  obtain ⟨found, took, -⟩ := map_eq_ok_iff.mp reads
  obtain ⟨family, described, always⟩ := steady _ _ _ _ _ took
  exact ⟨_, kept template family described, fun word rest => by simp only [always, Except.map]⟩

/-- A text is the same with every word. -/
theorem steady_text (opened : Nat) : Steady (fun _ => Constant) fun _ => text opened := by
  intro template known rest value left reads
  cases template with
  | text content => exact ⟨_, ⟨content, rfl⟩, fun word rest => rfl⟩
  | _ => cases reads

/-- A value or null, as the template has it. -/
inductive OrNull (describes : Template → (UInt64 → α) → Prop) :
    Template → (UInt64 → Option α) → Prop
  | null : OrNull describes .null fun _ => none
  | value {template : Template} {family : UInt64 → α} (described : describes template family) :
      OrNull describes template fun word => some (family word)

/-- A value or null is read steadily when the value is. -/
theorem Steady.nullable {reader : Reader α} {opened : Nat}
    (steady : Steady describes fun _ => reader opened) :
    Steady (OrNull describes) fun _ => nullable reader opened := by
  intro template known rest value left reads
  by_cases null : template = .null
  case pos =>
    subst null
    exact ⟨_, .null, fun word rest => rfl⟩
  case neg =>
    have given : ∀ word rest, Json.nullable reader opened (template.filled word ++ rest) =
        (reader opened (template.filled word ++ rest)).map fun (value, rest) =>
          (some value, rest) := by
      intro word rest
      rw [Json.nullable]
      intro more begins
      cases template with
      | null => exact null rfl
      | _ => cases begins
    have kept : Steady (OrNull describes) fun _ tokens =>
        (reader opened tokens).map fun (value, rest) => (some value, rest) :=
      steady.map fun template family described => .value described
    obtain ⟨family, described, always⟩ := kept _ _ _ _ _ ((given known rest).symm.trans reads)
    exact ⟨family, described, fun word rest => (given word rest).trans (always word rest)⟩

/-- The values of a list, one for each item of the template. -/
def Listed (describes : Template → (UInt64 → α) → Prop) (template : Template)
    (family : UInt64 → List α) : Prop :=
  ∃ items families, template = .list items ∧ List.Forall₂ describes items families ∧
    family = fun word => families.map fun member => member word

/-- The items of a list are read steadily when each of them is. -/
theorem Steady.itemsWithin {item : List Token → Except Fault (α × List Token)}
    (steady : Steady describes fun _ => item) {items : List Template} {limit : List Token}
    {first : Bool} {read : UInt64 → List α} {known : UInt64} {rest left : List Token}
    {values : List α}
    (reads : itemsWithin item limit first (read known) (filledItems known first items ++ rest) =
      .ok (values, left)) :
    ∃ families, List.Forall₂ describes items families ∧
      ∀ word (limit rest : List Token), items.length < limit.length →
        Json.itemsWithin item limit first (read word) (filledItems word first items ++ rest) =
          .ok ((read word).reverse ++ families.map fun member => member word, rest) := by
  induction items generalizing limit first read with
  | nil =>
    refine ⟨[], .nil, fun word limit rest enough => ?_⟩
    cases limit with
    | nil => cases enough
    | cons bound limit =>
      simp [Json.itemsWithin, Template.nextItem?_nil, Template.endList_nil, Except.map]
  | cons item more ih =>
    cases limit with
    | nil => cases reads
    | cons bound limit =>
      simp only [Json.itemsWithin, Template.nextItem?_cons] at reads
      split at reads
      case h_1 => cases reads
      case h_2 value after took =>
        obtain ⟨family, described, always⟩ := steady _ _ _ _ _ took
        obtain ⟨rfl, rfl⟩ := Prod.mk.inj (Except.ok.inj ((always known _).symm.trans took))
        obtain ⟨families, each, later⟩ :=
          @ih limit false (fun word => family word :: read word) reads
        refine ⟨family :: families, .cons described each, fun word limit rest enough => ?_⟩
        cases limit with
        | nil => cases enough
        | cons bound limit =>
          simp only [Json.itemsWithin, Template.nextItem?_cons, always]
          rw [later word limit rest (Nat.lt_of_succ_lt_succ enough)]
          simp

/-- A list is read steadily when each of its items is. -/
theorem steady_list {item : Reader α} (steady : ∀ opened, Steady describes fun _ => item opened)
    (opened : Nat) : Steady (Listed describes) fun _ => list item opened := by
  intro template known rest value left reads
  cases template with
  | list items =>
    simp only [Template.filled, list, List.cons_append] at reads ⊢
    cases room : enter opened with
    | error fault => simp [room] at reads
    | ok inner =>
      simp only [room] at reads
      obtain ⟨families, each, always⟩ :=
        @Steady.itemsWithin _ _ _ (steady inner) _ _ _ (fun _ => []) _ _ _ _ reads
      refine ⟨_, ⟨items, families, rfl, each, rfl⟩, fun word rest => ?_⟩
      have enough := Template.length_lt_filledItems items word true
      exact always word _ rest (by rw [List.length_append]; omega)
  | _ => cases reads

/-- Values that do not depend on the word are a list that does not. -/
theorem Listed.constant {template : Template} {family : UInt64 → List α}
    (listed : Listed (fun _ => Constant) template family) : Constant family := by
  obtain ⟨items, families, -, each, rfl⟩ := listed
  induction each with
  | nil => exact ⟨[], rfl⟩
  | cons head _ ih =>
    obtain ⟨value, rfl⟩ := head
    obtain ⟨values, same⟩ := ih
    exact ⟨value :: values, funext fun word => congrArg _ (congrFun same word)⟩

/-- A list of texts is the same with every word. -/
theorem steady_texts (opened : Nat) : Steady (fun _ => Constant) fun _ => list text opened := by
  intro template known rest value left reads
  obtain ⟨family, listed, always⟩ :=
    steady_list steady_text opened template known rest value left reads
  exact ⟨family, listed.constant, always⟩

/-- The members of an object are read steadily when, whatever was given before, a key is taken with
every word or with none, and its member is read steadily. -/
theorem steady_membersWithin {states : List (String × Template) → (UInt64 → σ) → Prop}
    {choose : String → σ → Except Fault (List Token → Except Fault (σ × List Token))}
    (chosen : ∀ given name state known read, states given state →
      choose name (state known) = .ok read →
      ∃ reads, (∀ word, choose name (state word) = .ok (reads word)) ∧
        Steady (fun template => states ((name, template) :: given)) reads)
    {members given : List (String × Template)} {limit : List Token} {first : Bool}
    {state : UInt64 → σ} {known : UInt64} {rest left : List Token} {value : σ}
    (held : states given state)
    (reads : membersWithin choose limit first (state known)
      (filledMembers known first members ++ rest) = .ok (value, left)) :
    ∃ family, states (members.reverse ++ given) family ∧
      ∀ word (limit rest : List Token), members.length < limit.length →
        membersWithin choose limit first (state word)
          (filledMembers word first members ++ rest) = .ok (family word, rest) := by
  induction members generalizing limit first given state with
  | nil =>
    refine ⟨state, held, fun word limit rest enough => ?_⟩
    cases limit with
    | nil => cases enough
    | cons bound limit => simpa [filledMembers] using membersWithin_end bound limit rest first _
  | cons member more ih =>
    obtain ⟨name, template⟩ := member
    cases limit with
    | nil => cases reads
    | cons bound limit =>
      simp only [membersWithin, Template.nextKey?_cons] at reads
      split at reads
      case h_1 => cases reads
      case h_2 read decided =>
        obtain ⟨each, decides, steady⟩ := chosen given name state known read held decided
        obtain rfl := Except.ok.inj ((decides known).symm.trans decided)
        simp only [colon_cons] at reads
        split at reads
        case h_1 => cases reads
        case h_2 next after took =>
          obtain ⟨family, described, always⟩ := steady _ _ _ _ _ took
          obtain ⟨rfl, rfl⟩ := Prod.mk.inj (Except.ok.inj ((always known _).symm.trans took))
          obtain ⟨last, ended, later⟩ := ih described reads
          refine ⟨last, by simpa using ended, fun word limit rest enough => ?_⟩
          cases limit with
          | nil => cases enough
          | cons bound limit =>
            simp only [membersWithin, Template.nextKey?_cons, decides, colon_cons, always]
            exact later word limit rest (Nat.lt_of_succ_lt_succ enough)

/-- A state that the members of an object describe, whatever their names. -/
def Keyed (states : List (String × Template) → (UInt64 → σ) → Prop) (template : Template)
    (family : UInt64 → σ) : Prop :=
  states (template.given []) family

/-- An object with keys of any name is read steadily when its values are. -/
theorem steady_object {states : List (String × Template) → (UInt64 → σ) → Prop} {value : Reader α}
    (steady : ∀ opened, Steady describes fun _ => value opened) {start : σ}
    (starts : states [] fun _ => start) {add : σ → String → α → σ}
    (added : ∀ given state name template family, states given state → describes template family →
      states ((name, template) :: given) fun word => add (state word) name (family word))
    (opened : Nat) : Steady (Keyed states) fun _ => object value start add opened := by
  intro template known rest found left reads
  cases template with
  | object members =>
    simp only [Template.filled, object, List.cons_append] at reads ⊢
    cases room : enter opened with
    | error fault => simp [room] at reads
    | ok inner =>
      simp only [room] at reads
      obtain ⟨family, described, always⟩ := @steady_membersWithin _ states _
        (fun given name state known read held chosen => ⟨_, fun word => rfl,
          (steady inner).map fun template family kept =>
            added given state name template family held kept⟩)
        members [] _ _ (fun _ => start) known rest _ _ starts reads
      rw [List.append_nil] at described
      refine ⟨family, described, fun word rest => ?_⟩
      have enough := Template.length_lt_filledMembers members word true
      exact always word _ rest (by rw [List.length_append]; omega)
  | _ => cases reads

/-! ## Records -/

/-- A part of the draft of a record that one member is kept in, with what a template says of it. -/
structure Kept (σ : Type) where
  name : String
  Value : Type
  get : σ → Option Value
  describes : Template → (UInt64 → Value) → Prop

/-- A part of a draft is empty when its member was not given, and else it is as the member says. -/
inductive Part (describes : Template → (UInt64 → α) → Prop) :
    Option Template → (UInt64 → Option α) → Prop
  | absent : Part describes none fun _ => none
  | given {template : Template} {family : UInt64 → α} (described : describes template family) :
      Part describes (some template) fun word => some (family word)

/-- Every part of a draft is as the members that were given say. -/
def Kept.All (parts : List (Kept σ)) (given : List (String × Template)) (state : UInt64 → σ) :
    Prop :=
  ∀ part ∈ parts, Part part.describes (given.lookup part.name) fun word => part.get (state word)

/-- A part that is there is there with every word. -/
theorem Part.isSome_eq {part : Option Template} {family : UInt64 → Option α}
    (kept : Part describes part family) (word : UInt64) : (family word).isSome = part.isSome := by
  cases kept <;> rfl

/-- A part that is there with one word is there with every word, as its member says. -/
theorem Part.exists_eq_some {part : Option Template} {family : UInt64 → Option α}
    (kept : Part describes part family) {known : UInt64} {value : α}
    (found : family known = some value) :
    ∃ template values, part = some template ∧ describes template values ∧
      ∀ word, family word = some (values word) := by
  cases kept with
  | absent => cases found
  | given described => exact ⟨_, _, rfl, described, fun word => rfl⟩

/-- What does not depend on the word does not either when it may be missing and has a default. -/
theorem constant_of_part {part : Option Template} {family : UInt64 → Option α}
    (kept : Part (fun _ => Constant) part family) (default : α) :
    Constant fun word => (family word).getD default := by
  cases kept with
  | absent => exact ⟨default, rfl⟩
  | given described => exact described

/-- A member of a record is given when it was read, and is read into the parts of the draft. -/
structure Member.Steady (parts : List (Kept σ)) (member : Member σ) : Prop where
  given : ∀ given state, Kept.All parts given state → ∀ word,
    member.isGiven (state word) = (given.lookup member.name).isSome
  reads : ∀ given state, Kept.All parts given state → ∀ opened,
    Json.Steady (fun template => Kept.All parts ((member.name, template) :: given))
      fun word => member.read (state word) opened

/-- A member that is kept in one part of a draft is read steadily when its value is, and when it
leaves every other part as it was. -/
theorem Member.steady_of {parts : List (Kept σ)} (distinct : (parts.map Kept.name).Nodup)
    (part : Kept σ) (listed : part ∈ parts) {required : Bool} {store : σ → part.Value → σ}
    {reader : Reader part.Value}
    (steady : ∀ opened, Json.Steady part.describes fun _ => reader opened)
    (own : ∀ state value, part.get (store state value) = some value)
    (others : ∀ other ∈ parts, other.name ≠ part.name → ∀ state value,
      other.get (store state value) = other.get state) :
    (Member.of part.name required part.get store reader).Steady parts where
  given given state all word := (all part listed).isSome_eq word
  reads given state all opened := by
    refine (steady opened).map fun template family described other member => ?_
    by_cases same : other.name = part.name
    case pos =>
      obtain rfl := List.inj_on_of_nodup_map distinct member listed same
      simp only [Member.of, List.lookup_cons_self, own]
      exact .given described
    case neg =>
      have differ : (other.name == part.name) = false := beq_false_of_ne same
      simp only [Member.of, List.lookup_cons, differ, others other member same]
      exact all other member

/-- The names of the members of a record. -/
def Record.names (record : Record σ α) : List String := record.members.map Member.name

/-- A record is read steadily when each member is, and when what is made of a draft is as the
members that were given say. -/
structure Record.Steady (parts : List (Kept σ))
    (describes : List (String × Template) → (UInt64 → α) → Prop) (record : Record σ α) : Prop where
  members : ∀ member ∈ record.members, member.Steady parts
  start : Kept.All parts [] fun _ => record.start
  finish : ∀ given state, Kept.All parts given state → ∀ known value,
    record.finish (state known) = .ok value →
      ∃ family, describes given family ∧ ∀ word, record.finish (state word) = .ok (family word)

/-- The list form of a record is read steadily when each of its members is. -/
theorem steady_positional {parts : List (Kept σ)} {record : Record σ α} {opened : Nat}
    {members : List (Member σ)} (steady : ∀ member ∈ members, member.Steady parts) {index : Nat}
    {first : Bool} {given : List (String × Template)} {state : UInt64 → σ} {items : List Template}
    {known : UInt64} {rest left : List Token} {value : σ} (held : Kept.All parts given state)
    (reads : record.positional opened index members first (state known)
      (filledItems known first items ++ rest) = .ok (value, left)) :
    ∃ family, Kept.All parts (((members.map Member.name).zip items).reverse ++ given) family ∧
      ∀ word rest, record.positional opened index members first (state word)
        (filledItems word first items ++ rest) = .ok (family word, rest) := by
  induction members generalizing index first given state items with
  | nil =>
    cases items with
    | nil =>
      refine ⟨state, held, fun word rest => ?_⟩
      rw [Record.positional, Template.endList_nil]
      rfl
    | cons item more =>
      obtain ⟨fault, refused⟩ := @Template.endList_cons known first item more rest
      rw [Record.positional, refused] at reads
      cases reads
  | cons member members ih =>
    have later := @ih fun other listed => steady other (List.mem_cons_of_mem _ listed)
    cases items with
    | nil =>
      simp only [Record.positional, Template.nextItem?_nil] at reads ⊢
      split at reads
      case isTrue => cases reads
      case isFalse optional =>
        obtain ⟨family, ended, always⟩ := later held reads
        refine ⟨family, by simpa using ended, fun word rest => ?_⟩
        rw [if_neg optional]
        exact always word rest
    | cons item more =>
      simp only [Record.positional, Template.nextItem?_cons] at reads ⊢
      split at reads
      case h_1 => cases reads
      case h_2 next after took =>
        obtain ⟨next, described, takes⟩ :=
          (steady member List.mem_cons_self).reads given state held opened _ _ _ _ _ took
        obtain ⟨rfl, rfl⟩ := Prod.mk.inj (Except.ok.inj ((takes known _).symm.trans took))
        obtain ⟨family, ended, always⟩ := later described reads
        refine ⟨family, by simpa using ended, fun word rest => ?_⟩
        simp only [takes]
        exact always word rest

namespace Record.Steady

variable {record : Record σ α} {parts : List (Kept σ)}
  {value : List (String × Template) → (UInt64 → α) → Prop}

/-- A key is taken with every word or with none, and its member is read steadily. -/
theorem choose (steady : record.Steady parts value) {opened : Nat} {name : String}
    {given : List (String × Template)} {state : UInt64 → σ} {known : UInt64}
    {read : List Token → Except Fault (σ × List Token)} (held : Kept.All parts given state)
    (chosen : record.choose opened name (state known) = .ok read) :
    ∃ reads, (∀ word, record.choose opened name (state word) = .ok (reads word)) ∧
      Json.Steady (fun template => Kept.All parts ((name, template) :: given)) reads := by
  unfold Record.choose at chosen ⊢
  split at chosen
  case h_1 => cases chosen
  case h_2 member listed =>
    have own := steady.members member (List.mem_of_find?_eq_some listed)
    obtain rfl : member.name = name := by simpa using List.find?_some listed
    split at chosen
    case isTrue => cases chosen
    case isFalse fresh =>
      refine ⟨_, fun word => ?_, own.reads given state held opened⟩
      rw [own.given given state held known, ← own.given given state held word] at fresh
      simp only [if_neg fresh]

/-- The members of a record are read steadily in either of its forms. -/
theorem readState (steady : record.Steady parts value) (opened : Nat) :
    Json.Steady (fun template => Kept.All parts (template.given record.names))
      fun _ => record.readState opened := by
  intro template known rest found left reads
  cases template with
  | list items =>
    simp only [Template.filled, Record.readState, List.cons_append] at reads ⊢
    cases room : enter opened with
    | error fault => simp [room] at reads
    | ok inner =>
      simp only [room] at reads
      obtain ⟨family, described, always⟩ := @steady_positional _ _ _ _ _ _ steady.members _ _ []
        (fun _ => record.start) _ _ _ _ _ steady.start reads
      rw [List.append_nil] at described
      exact ⟨family, described, always⟩
  | object members =>
    simp only [Template.filled, Record.readState, List.cons_append] at reads ⊢
    cases room : enter opened with
    | error fault => simp [room] at reads
    | ok inner =>
      simp only [room] at reads
      obtain ⟨family, described, always⟩ := @steady_membersWithin _ (Kept.All parts) _
        (fun given name state known read held chosen => steady.choose held chosen) members [] _ _
        (fun _ => record.start) known rest _ _ steady.start reads
      rw [List.append_nil] at described
      refine ⟨family, described, fun word rest => ?_⟩
      have enough := Template.length_lt_filledMembers members word true
      exact always word _ rest (by rw [List.length_append]; omega)
  | _ => cases reads

/-- A record is read steadily, as the members of the template say. -/
theorem read (steady : record.Steady parts value) (opened : Nat) :
    Json.Steady (fun template => value (template.given record.names))
      fun _ => record.read opened := by
  intro template known rest found left reads
  simp only [Record.read] at reads
  split at reads
  case h_1 => cases reads
  case h_2 state after took =>
    obtain ⟨family, described, always⟩ := steady.readState opened _ _ _ _ _ took
    obtain ⟨rfl, rfl⟩ := Prod.mk.inj (Except.ok.inj ((always known _).symm.trans took))
    obtain ⟨done, finished, -⟩ := map_eq_ok_iff.mp reads
    obtain ⟨values, made, finishes⟩ := steady.finish _ family described known done finished
    exact ⟨values, made, fun word rest => by
      simp only [Record.read, always, finishes, Except.map]⟩

end Record.Steady

/-- A document that is read with one word in the gaps of its template is read with every word. -/
theorem Steady.document {reader : Reader α} (steady : Steady describes fun _ => reader 0)
    {template : Template} {known : UInt64} {value : α}
    (reads : document reader (template.filled known) = .ok value) :
    ∃ family, describes template family ∧
      ∀ word, Json.document reader (template.filled word) = .ok (family word) := by
  cases took : reader 0 (template.filled known) with
  | error fault => simp [Json.document, took] at reads
  | ok pair =>
    obtain ⟨family, described, always⟩ :=
      steady template known [] pair.1 pair.2 (by simpa using took)
    refine ⟨family, described, fun word => ?_⟩
    have whole := always word []
    rw [List.append_nil] at whole
    simp only [Json.document, whole]

end Steady

/-! ## Texts around a gap -/

/-- A text around a gap is that of a template: with a word in the gap, its tokens are those of the
template with the word in its gaps. -/
structure Around (front back : List Char) (template : Template) : Prop where
  gap : Gap front back
  shape : ∀ word : UInt64,
    tokens (inserted front back word.toNat.repr.toList) = template.filled word

/-- With a plain literal of a word in the gap, the tokens are those of the template with the word.
-/
theorem Around.tokens_eq {front back text : List Char} {template : Template}
    (around : Around front back template) (written : text ∈ Written.literal)
    (plain : Written.Plain text) {value : UInt64}
    (worth : Nat.ofDigitChars 10 text 0 = value.toNat) :
    tokens (inserted front back text) = template.filled value := by
  obtain ⟨before, after, same⟩ := around.gap.exists_tokens
  obtain ⟨writtenToo, plainToo, worthToo⟩ := repr_mem_literal value
  rw [same text written plain value worth, ← around.shape value,
    same _ writtenToo plainToo value worthToo]

/-- Pieces around a gap are the text of a template that has their tokens around the word. -/
theorem around_pieces {front back : List Piece} {template : Template}
    (delimited : Delimited (back.flatMap Piece.written))
    (shape : ∀ word, template.filled word =
      front.map Piece.token ++ .number (.whole word) :: back.map Piece.token) :
    Around (front.flatMap Piece.written) (back.flatMap Piece.written) template where
  gap := ⟨⟨_, Piece.leads_all front⟩, delimited⟩
  shape word := by
    have behind : Scanned (back.flatMap Piece.written) (back.map Piece.token) := by
      simpa using Piece.scanned_all back Scanned.nil
    have scanned : tokens (String.ofList (word.toNat.repr.toList ++ back.flatMap Piece.written)) =
        .number (.whole word) :: back.map Piece.token := by
      refine Scanned.tokens_eq ?_
      rw [String.toList_ofList]
      exact scans_number word _ _ delimited behind
    rw [shape, inserted, List.append_assoc, Piece.leads_all front, scanned]

end BoardBlob.Json
