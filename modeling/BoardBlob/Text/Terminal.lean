/-!
# Text without terminal controls

What a person wrote on a command line is shown back in messages, and it may hold characters that a
terminal acts on instead of showing them. `visible` keeps what a terminal shows: it leaves out
control characters other than line breaks and tabs, and it leaves out control sequences, which begin
with an escape character and end as their kind says. A text that ends inside a sequence shows
nothing of it. A text without control characters is kept as it is (`visible_of_plain`).
-/

namespace BoardBlob.Terminal

/-- A control sequence, by what has been read of it. -/
inductive Sequence where
  /-- The escape character that begins every sequence. -/
  | escape
  /-- An escape and characters that only announce more. -/
  | announced
  /-- An escape, an opening bracket and parameters; a letter ends it. -/
  | parameters
  /-- The beginning of a string for a device. -/
  | deviceStart
  /-- The beginning of a string for a device, with parameters. -/
  | deviceParameters
  /-- The beginning of a string for a device, with characters that announce more. -/
  | deviceAnnounced
  /-- A string that is ended by the byte 0x9c, wherever in a character it stands. -/
  | string
  /-- A string for the system, such as a window title, that is ended by a bell. -/
  | systemString
  deriving DecidableEq, Repr

/-- Where the reading of a text stands. -/
inductive Place where
  /-- In shown text. -/
  | shown
  /-- In a control sequence. -/
  | inside (sequence : Sequence)
  /-- In shown text that began at a break inside a control sequence. Another control character leads
  back into the sequence. -/
  | interrupted (sequence : Sequence)
  deriving DecidableEq, Repr

/-- The character that begins a control sequence. -/
def escapeCharacter : Char := '\x1b'

/-- The two characters that end any control sequence at once. -/
def cancels (character : Char) : Bool := character == '\x18' || character == '\x1a'

/-- A line break or a tab, which a terminal shows by moving on. -/
def isBreak (character : Char) : Bool :=
  character == '\t' || character == '\n' || character == '\x0c' || character == '\r'

/-- A character that is shown outside control sequences. -/
def isShown (character : Char) : Bool :=
  isBreak character || (' ' ≤ character && character != '\x7f')

/-- Breaks are shown in the middle of the short sequences, and belong to the strings. -/
def Sequence.showsBreaks : Sequence → Bool
  | escape | announced | parameters => true
  | deviceStart | deviceParameters | deviceAnnounced | string | systemString => false

/-- The byte 0x9c is one of the bytes of a character. -/
def holdsStringEnd (character : Char) : Bool := (String.utf8EncodeChar character).contains 0x9c

/-- Where a sequence leads by a character that neither cancels it nor begins another. -/
def Sequence.next (sequence : Sequence) (character : Char) : Place :=
  let within (low high : Char) : Bool := low ≤ character && character ≤ high
  match sequence with
  | escape =>
    if within ' ' '/' then .inside announced
    else if character = '[' then .inside parameters
    else if character = ']' then .inside systemString
    else if character = 'P' then .inside deviceStart
    else if character = 'X' ∨ character = '^' ∨ character = '_' then .inside string
    else if within '0' '~' then .shown
    else .inside escape
  | announced => if within '0' '~' then .shown else .inside announced
  | parameters => if within '@' '~' then .shown else .inside parameters
  | deviceStart =>
    if within ' ' '/' then .inside deviceAnnounced
    else if within '0' '?' then .inside deviceParameters
    else if within '@' '~' then .inside string
    else .inside deviceStart
  | deviceParameters =>
    if within ' ' '/' then .inside deviceAnnounced
    else if within '<' '~' then .inside string
    else .inside deviceParameters
  | deviceAnnounced => if within '0' '~' then .inside string else .inside deviceAnnounced
  | string => if holdsStringEnd character then .shown else .inside string
  | systemString => if character = '\x07' then .shown else .inside systemString

/-- Reads one character: where the reading stands after it, and whether it is shown. -/
def Place.step (place : Place) (character : Char) : Place × Bool :=
  if character = escapeCharacter then (.inside .escape, false)
  else if cancels character then (.shown, false)
  else
    match place with
    | shown => (.shown, isShown character)
    | inside sequence =>
      if sequence.showsBreaks && isBreak character then (.interrupted sequence, true)
      else (sequence.next character, false)
    | interrupted sequence =>
      if '\x80' ≤ character then (.shown, true)
      else if isShown character then (.interrupted sequence, true)
      else (.inside sequence, false)

/-- The characters that are shown of a text, read from a place on. -/
def Place.visible : Place → List Char → List Char
  | _, [] => []
  | place, character :: rest =>
    let (after, isShown) := place.step character
    if isShown then character :: visible after rest else visible after rest

/-- What is shown of a text. -/
def visible (text : String) : String := String.ofList (Place.shown.visible text.toList)

/-- A text in which every character is shown is kept as it is. -/
theorem visible_of_plain {text : String} (plain : ∀ character ∈ text.toList, isShown character) :
    visible text = text := by
  have kept : ∀ characters : List Char, (∀ character ∈ characters, isShown character) →
      Place.shown.visible characters = characters := by
    intro characters shown
    induction characters with
    | nil => rfl
    | cons character rest ih =>
      have here := shown character List.mem_cons_self
      have later := ih fun other member => shown other (List.mem_cons_of_mem _ member)
      have notEscape : character ≠ escapeCharacter := by
        rintro rfl
        contradiction
      have notCancel : cancels character = false := by
        by_cases first : character = '\x18'
        · subst first
          contradiction
        · by_cases second : character = '\x1a'
          · subst second
            contradiction
          · simp [cancels, first, second]
      simp [Place.visible, Place.step, notEscape, notCancel, here, later]
  simp [visible, kept _ plain]

end BoardBlob.Terminal
