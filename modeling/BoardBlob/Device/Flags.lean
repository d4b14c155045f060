import BoardBlob.Text.AsciiCase
import BoardBlob.Text.Hexadecimal

/-!
# Flag words

A flag word is a 32-bit number of which a family names some bits. The other bits are undefined:
they are kept by every reader, refused by validation, and shown last, as one hexadecimal number.
-/

namespace BoardBlob

/-- The named bits of one kind of flag word. -/
structure FlagFamily where
  /-- Name of the family, written before its bits. -/
  label : String
  /-- The named bits, in the order in which they are shown. -/
  members : List (String × UInt32)

namespace FlagFamily

/-- All named bits together. -/
def defined (family : FlagFamily) : UInt32 :=
  family.members.foldl (fun bits member => bits ||| member.2) 0

/-- The bits of a word that have no name. -/
def undefinedBits (family : FlagFamily) (word : UInt32) : UInt32 := word &&& ~~~family.defined

/-- The bits that a written name stands for, in any ASCII letter case. -/
def ofName? (family : FlagFamily) (written : String) : Option UInt32 :=
  (family.members.find? fun member => AsciiCase.same member.1 written).map Prod.snd

/-- The names and numbers shown for a word: each named bit that is set, then what remains. -/
def parts (family : FlagFamily) (word : UInt32) : List String :=
  let named := family.members.filter fun member => word &&& member.2 == member.2
  let rest := family.undefinedBits word
  named.map Prod.fst ++ if rest = 0 then [] else [Hexadecimal.text rest.toNat]

/-- A word as shown in a listing. -/
def text (family : FlagFamily) (word : UInt32) : String :=
  let shown := if word = 0 then Hexadecimal.text 0 else " | ".intercalate (family.parts word)
  family.label ++ "(" ++ shown ++ ")"

end FlagFamily

/-- The bit that marks a device's region as memory-mapped. -/
def mmioBit : UInt32 := 1

/-- The flags of a device. -/
def deviceFlagFamily : FlagFamily := ⟨"EntryFlags", [("MMIO", mmioBit)]⟩

/-- The bit that marks an interrupt as triggered by an edge and not by a level. -/
def edgeTriggerBit : UInt32 := 1

/-- The flags of a device's interrupt. -/
def irqFlagFamily : FlagFamily := ⟨"IrqFlags", [("EDGE_TRIGGER", edgeTriggerBit)]⟩

end BoardBlob
