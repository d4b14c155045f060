import BoardBlob.Json.Reader
import BoardBlob.Proofs.NumberLiterals

/-!
# Readers and refused tokens

A reader takes tokens off the front and never one that is refused (`Accepting`). Every way to build
a reader from others keeps this, so no document with a refused token is read (`Accepting.document`).
-/
namespace BoardBlob.Json

variable {α β σ : Type}

/-! ## Tokens that are taken -/

/-- Some tokens, none of them refused, were taken off the front. -/
def Takes (tokens rest : List Token) : Prop :=
  ∃ taken, tokens = taken ++ rest ∧ ∀ token ∈ taken, ¬token.Refused

namespace Takes

variable {tokens middle rest : List Token} {token : Token}

/-- No token was taken. -/
theorem refl (tokens : List Token) : Takes tokens tokens := ⟨[], rfl, by simp⟩

/-- Some tokens were taken, and then others. -/
theorem trans (first : Takes tokens middle) (second : Takes middle rest) : Takes tokens rest := by
  obtain ⟨taken, rfl, sound⟩ := first
  obtain ⟨more, rfl, soundToo⟩ := second
  refine ⟨taken ++ more, (List.append_assoc ..).symm, fun token member => ?_⟩
  rcases List.mem_append.mp member with before | after
  · exact sound token before
  · exact soundToo token after

/-- One token was taken. -/
theorem one (sound : ¬token.Refused) (rest : List Token) : Takes (token :: rest) rest :=
  ⟨[token], rfl, by simpa using sound⟩

/-- When all tokens were taken, none is refused. -/
theorem not_refused (all : Takes tokens []) : ∀ token ∈ tokens, ¬token.Refused := by
  obtain ⟨taken, rfl, sound⟩ := all
  rwa [List.append_nil]

end Takes

/-- A reader takes tokens off the front, and none that is refused. -/
def Accepting (read : List Token → Except Fault (α × List Token)) : Prop :=
  ∀ tokens value rest, read tokens = .ok (value, rest) → Takes tokens rest

/-- A text is accepted. -/
theorem accepting_text (opened : Nat) : Accepting (text opened) := by
  intro tokens value rest reads
  unfold text at reads
  split at reads
  case h_1 =>
    obtain ⟨rfl, rfl⟩ := Prod.mk.inj (Except.ok.inj reads)
    exact .one (by rintro ⟨⟩) _
  case h_2 => cases reads

/-- What is kept of an accepted value is accepted. -/
theorem Accepting.map {read : List Token → Except Fault (α × List Token)}
    (accepting : Accepting read) (keep : α → β) :
    Accepting fun tokens => (read tokens).map fun (value, rest) => (keep value, rest) := by
  intro tokens value rest reads
  obtain ⟨found, took, same⟩ := map_eq_ok_iff.mp reads
  obtain ⟨-, rfl⟩ := Prod.mk.inj same
  exact accepting _ _ _ took

/-- A null is accepted in place of a value. -/
theorem Accepting.nullable {reader : Reader α} {opened : Nat}
    (accepting : Accepting (reader opened)) : Accepting (nullable reader opened) := by
  intro tokens value rest reads
  unfold Json.nullable at reads
  split at reads
  case h_1 =>
    obtain ⟨rfl, rfl⟩ := Prod.mk.inj (Except.ok.inj reads)
    exact .one (by rintro ⟨⟩) _
  case h_2 => exact accepting.map some _ _ _ reads

/-- Moving to the next item takes at most a comma. -/
theorem takes_of_nextItem? {first : Bool} {tokens rest : List Token}
    (moves : nextItem? first tokens = .ok (some rest)) : Takes tokens rest := by
  unfold nextItem? at moves
  split at moves
  case h_3 =>
    split at moves
    · obtain rfl := Option.some.inj (Except.ok.inj moves)
      exact .refl _
    · split at moves
      case h_3 =>
        obtain rfl := Option.some.inj (Except.ok.inj moves)
        exact .one (by rintro ⟨⟩) _
      all_goals cases moves
  all_goals cases moves

/-- The end of a list is one token. -/
theorem takes_of_endList {tokens rest : List Token} (ends : endList tokens = .ok rest) :
    Takes tokens rest := by
  unfold endList at ends
  split at ends
  case h_2 =>
    obtain rfl := Except.ok.inj ends
    exact .one (by rintro ⟨⟩) _
  all_goals cases ends

/-- The items of a list are accepted. -/
theorem Accepting.itemsWithin {item : List Token → Except Fault (α × List Token)}
    (accepting : Accepting item) (limit : List Token) (first : Bool) (read : List α) :
    Accepting (itemsWithin item limit first read) := by
  induction limit generalizing first read with
  | nil =>
    intro tokens value rest reads
    cases reads
  | cons bound limit ih =>
    intro tokens value rest reads
    rw [Json.itemsWithin] at reads
    split at reads
    case h_1 => cases reads
    case h_2 =>
      obtain ⟨left, ends, same⟩ := map_eq_ok_iff.mp reads
      obtain ⟨-, rfl⟩ := Prod.mk.inj same
      exact takes_of_endList ends
    case h_3 middle moves =>
      split at reads
      case h_1 => cases reads
      case h_2 found =>
        exact (takes_of_nextItem? moves).trans
          ((accepting _ _ _ found).trans (ih _ _ _ _ _ reads))

/-- A list is accepted. -/
theorem accepting_list {item : Reader α} (accepting : ∀ opened, Accepting (item opened))
    (opened : Nat) : Accepting (list item opened) := by
  intro tokens value rest reads
  unfold list at reads
  split at reads
  case h_1 =>
    split at reads
    case h_1 => cases reads
    case h_2 =>
      exact (Takes.one (by rintro ⟨⟩) _).trans ((accepting _).itemsWithin _ _ _ _ _ _ reads)
  case h_2 => cases reads

/-- Moving past the next key takes the key and at most a comma; the end of an object is one token.
-/
theorem takes_of_nextKey? {first : Bool} {tokens : List Token}
    {found : Option (String × List Token)} (moves : nextKey? first tokens = .ok found) :
    Takes tokens (found.elim (tokens.drop 1) Prod.snd) := by
  simp only [nextKey?] at moves
  split at moves
  case h_1 => cases moves
  case h_2 =>
    obtain rfl := Except.ok.inj moves
    exact .one (by rintro ⟨⟩) _
  case h_3 =>
    split at moves
    case isTrue =>
      -- A key.
      split at moves
      case h_1 =>
        obtain rfl := Except.ok.inj moves
        exact .one (by rintro ⟨⟩) _
      all_goals cases moves
    case isFalse =>
      split at moves
      case h_3 =>
        -- A key behind a comma.
        split at moves
        case h_1 =>
          obtain rfl := Except.ok.inj moves
          exact (Takes.one (by rintro ⟨⟩) _).trans (.one (by rintro ⟨⟩) _)
        all_goals cases moves
      all_goals cases moves

/-- A colon is one token. -/
theorem takes_of_colon {tokens rest : List Token} (reads : colon tokens = .ok rest) :
    Takes tokens rest := by
  unfold colon at reads
  split at reads
  case h_2 =>
    obtain rfl := Except.ok.inj reads
    exact .one (by rintro ⟨⟩) _
  all_goals cases reads

/-- The members of an object are accepted when each of them is. -/
theorem accepting_membersWithin
    {choose : String → σ → Except Fault (List Token → Except Fault (σ × List Token))}
    (accepting : ∀ name state read, choose name state = .ok read → Accepting read)
    (limit : List Token) (first : Bool) (state : σ) :
    Accepting (membersWithin choose limit first state) := by
  induction limit generalizing first state with
  | nil =>
    intro tokens value rest reads
    cases reads
  | cons bound limit ih =>
    intro tokens value rest reads
    rw [membersWithin] at reads
    split at reads
    case h_1 => cases reads
    case h_2 ends =>
      obtain ⟨-, rfl⟩ := Prod.mk.inj (Except.ok.inj reads)
      exact takes_of_nextKey? ends
    case h_3 moves =>
      split at reads
      case h_1 => cases reads
      case h_2 chosen =>
        split at reads
        case h_1 => cases reads
        case h_2 separated =>
          split at reads
          case h_1 => cases reads
          case h_2 found =>
            exact (takes_of_nextKey? moves).trans ((takes_of_colon separated).trans
              ((accepting _ _ _ chosen _ _ _ found).trans (ih _ _ _ _ _ reads)))

/-- An object with keys of any name is accepted. -/
theorem accepting_object {value : Reader α} (accepting : ∀ opened, Accepting (value opened))
    (start : σ) (add : σ → String → α → σ) (opened : Nat) :
    Accepting (object value start add opened) := by
  intro tokens found rest reads
  unfold object at reads
  split at reads
  case h_1 =>
    split at reads
    case h_1 => cases reads
    case h_2 =>
      refine (Takes.one (by rintro ⟨⟩) _).trans (accepting_membersWithin ?_ _ _ _ _ _ _ reads)
      intro name state read chosen
      obtain rfl := Except.ok.inj chosen
      exact (accepting _).map _
  case h_2 => cases reads

/-- The list form of a record is accepted when each of its members is. -/
theorem accepting_positional {record : Record σ α} {opened : Nat} {members : List (Member σ)}
    (accepting : ∀ member ∈ members, ∀ state, Accepting (member.read state opened))
    (index : Nat) (first : Bool) (state : σ) :
    Accepting (record.positional opened index members first state) := by
  induction members generalizing index first state with
  | nil =>
    intro tokens value rest reads
    obtain ⟨left, ends, same⟩ := map_eq_ok_iff.mp reads
    obtain ⟨-, rfl⟩ := Prod.mk.inj same
    exact takes_of_endList ends
  | cons member members ih =>
    intro tokens value rest reads
    have later := ih fun other listed => accepting other (List.mem_cons_of_mem _ listed)
    rw [Record.positional] at reads
    split at reads
    case h_1 => cases reads
    case h_2 =>
      split at reads
      · cases reads
      · exact later _ _ _ _ _ _ reads
    case h_3 moves =>
      split at reads
      case h_1 => cases reads
      case h_2 found =>
        exact (takes_of_nextItem? moves).trans
          ((accepting member List.mem_cons_self _ _ _ _ found).trans (later _ _ _ _ _ _ reads))

/-- A record is accepted when each of its members is. -/
theorem accepting_record {record : Record σ α}
    (accepting : ∀ member ∈ record.members, ∀ state opened, Accepting (member.read state opened))
    (opened : Nat) : Accepting (record.read opened) := by
  intro tokens value rest reads
  unfold Record.read at reads
  split at reads
  case h_1 => cases reads
  case h_2 state left found =>
    obtain ⟨done, finished, same⟩ := map_eq_ok_iff.mp reads
    obtain ⟨-, rfl⟩ := Prod.mk.inj same
    unfold Record.readState at found
    split at found
    case h_1 =>
      split at found
      case h_1 => cases found
      case h_2 =>
        refine (Takes.one (by rintro ⟨⟩) _).trans
          (accepting_positional (fun member listed state => ?_) _ _ _ _ _ _ found)
        exact accepting member listed state _
    case h_2 =>
      split at found
      case h_1 => cases found
      case h_2 =>
        refine (Takes.one (by rintro ⟨⟩) _).trans (accepting_membersWithin ?_ _ _ _ _ _ _ found)
        intro name state read chosen
        unfold Record.choose at chosen
        split at chosen
        case h_1 => cases chosen
        case h_2 member listed =>
          split at chosen
          · cases chosen
          · obtain rfl := Except.ok.inj chosen
            exact accepting member (List.mem_of_find?_eq_some listed) _ _
    case h_3 => cases found

/-- A whole document that is accepted has no refused token. -/
theorem Accepting.document {reader : Reader α} (accepting : Accepting (reader 0))
    {tokens : List Token} {value : α} (reads : document reader tokens = .ok value) :
    ∀ token ∈ tokens, ¬token.Refused := by
  unfold Json.document at reads
  split at reads
  case h_2 found => exact (accepting _ _ _ found).not_refused
  all_goals cases reads

end BoardBlob.Json
