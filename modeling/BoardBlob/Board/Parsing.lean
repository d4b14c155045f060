import BoardBlob.Board.Conversion
import BoardBlob.Board.Document
import BoardBlob.Failure

/-!
# From board texts to devices

A board text is read to its end before any device in it is converted, so a fault of the document is
reported before one of a device.
-/

namespace BoardBlob

/-- The devices that a board text describes. -/
def parseBoard (text : String) : Except Failure (List Device) :=
  match Board.ofDocument text with
  | .error fault => .error (.malformedBoard fault)
  | .ok board =>
    match board.toDevices with
    | .error fault => .error (.compile (.invalid fault))
    | .ok devices => .ok devices

end BoardBlob
