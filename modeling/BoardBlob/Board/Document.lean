import BoardBlob.Board.Source
import BoardBlob.Json.Reader

/-!
# Reading a board document

The shape of a board in JSON. A member that may be left out has a default; a region, an interrupt
and an auxiliary value may also be null, which is the same as leaving it out. A number may be
written as a literal or as a text, and nothing else.
-/

namespace BoardBlob

open Json (Fault Member Reader Record Token)

namespace Quantity

/-- Reads a number. Any other value is read to its end before it is refused. -/
def reader : Reader Quantity := fun opened tokens =>
  match tokens with
  | .number (.whole value) :: rest => .ok (.whole value, rest)
  | .text written :: rest => .ok (.text written, rest)
  | _ => .error (Json.Nesting.faultOf (.shape (.noAlternative "Number")) opened {} tokens)

end Quantity

namespace KindTag

/-- Reads a device type. Any other value is read to its end before it is refused. -/
def reader : Reader KindTag := fun opened tokens =>
  match tokens with
  | .number (.whole value) :: rest => .ok (.tag value, rest)
  | .text written :: rest => .ok (.name written, rest)
  | _ => .error (Json.Nesting.faultOf (.shape (.noAlternative "TypeTag")) opened {} tokens)

end KindTag

/-- Reads numbers under keys. Of a key that is given twice the later number counts. -/
def KeyedQuantities.reader : Reader KeyedQuantities :=
  Json.object Quantity.reader .empty fun quantities key value => quantities.insert key value

namespace Region

/-- The members of a region that were read. -/
structure Draft where
  base : Option Quantity := none
  size : Option Quantity := none

/-- The shape of a region. -/
def record : Record Draft Region where
  label := "struct Region"
  members := [
    .of "base" false Draft.base (fun draft value => { draft with base := value }) Quantity.reader,
    .of "size" false Draft.size (fun draft value => { draft with size := value }) Quantity.reader]
  start := {}
  finish draft := .ok { base := draft.base.getD (.whole 0), size := draft.size.getD (.whole 0) }

end Region

namespace Interrupt

/-- The members of an interrupt that were read. -/
structure Draft where
  lane : Option Quantity := none
  flags : Option (List String) := none
  priority : Option Quantity := none

/-- The shape of an interrupt. -/
def record : Record Draft Interrupt where
  label := "struct Irq"
  members := [
    .of "lane" false Draft.lane (fun draft value => { draft with lane := value }) Quantity.reader,
    .of "flags" false Draft.flags (fun draft value => { draft with flags := value })
      (Json.list Json.text),
    .of "priority" false Draft.priority (fun draft value => { draft with priority := value })
      Quantity.reader]
  start := {}
  finish draft := .ok {
    lane := draft.lane.getD (.whole 0)
    flags := draft.flags.getD []
    priority := draft.priority.getD (.whole 0) }

end Interrupt

namespace BoardDevice

/-- The members of a device that were read. -/
structure Draft where
  name : Option String := none
  kind : Option KindTag := none
  flags : Option (List String) := none
  region : Option (Option Region) := none
  interrupt : Option (Option Interrupt) := none
  keyedAux : Option KeyedQuantities := none
  directAux : Slots (Option (Option Quantity)) := .replicate none

/-- The member that gives one auxiliary slot by position. -/
def auxMember (name : String) (slot : Fin 4) : Member Draft :=
  .of name false (fun draft => draft.directAux.get slot)
    (fun draft value => { draft with directAux := draft.directAux.set slot (some value) })
    (Json.nullable Quantity.reader)

/-- The shape of a device. -/
def record : Record Draft BoardDevice where
  label := "struct BoardDevice"
  members := [
    .of "name" true Draft.name (fun draft value => { draft with name := value }) Json.text,
    .of "type" true Draft.kind (fun draft value => { draft with kind := value }) KindTag.reader,
    .of "flags" false Draft.flags (fun draft value => { draft with flags := value })
      (Json.list Json.text),
    .of "mem" false Draft.region (fun draft value => { draft with region := some value })
      (Json.nullable Region.record.read),
    .of "irq" false Draft.interrupt (fun draft value => { draft with interrupt := some value })
      (Json.nullable Interrupt.record.read),
    .of "aux" false Draft.keyedAux (fun draft value => { draft with keyedAux := value })
      KeyedQuantities.reader] ++
    List.zipWith auxMember ["aux1", "aux2", "aux3", "aux4"] (List.finRange 4)
  start := {}
  finish draft :=
    match draft.name, draft.kind with
    | none, _ => .error (.shape (.missingMember "name"))
    | _, none => .error (.shape (.missingMember "type"))
    | some name, some kind => .ok {
        name := name
        kind := kind
        flags := draft.flags.getD []
        region := draft.region.getD none
        interrupt := draft.interrupt.getD none
        directAux := draft.directAux.map fun given => given.getD none
        keyedAux := draft.keyedAux.getD .empty }

end BoardDevice

namespace Board

/-- The members of a board that were read. -/
structure Draft where
  devices : Option (List BoardDevice) := none

/-- The shape of a board. -/
def record : Record Draft Board where
  label := "struct BoardFile"
  members := [
    .of "devices" true Draft.devices (fun draft value => { draft with devices := value })
      (Json.list BoardDevice.record.read)]
  start := {}
  finish draft :=
    match draft.devices with
    | none => .error (.shape (.missingMember "devices"))
    | some devices => .ok { devices := devices }

/-- The board that a document describes. -/
def ofDocument (document : String) : Except Fault Board :=
  Json.document record.read (Json.tokens document)

end Board

end BoardBlob
