import ScriptBridge.Numeric.Bounded
import ScriptBridge.Numeric.Numeral
import ScriptBridge.Text.Lines
import ScriptBridge.Value

/-! Coordinates written as text: three integers between commas, with white space around each. -/

namespace ScriptBridge.Coord

/-- One component: an integer numeral in the range of the grid. -/
def axisOfText? (piece : List Char) : Option Int32 :=
  (Numeral.readInt? (Text.trim piece)).bind int32Of?

def ofText? (text : String) : Option Coord :=
  match Text.pieces ',' text.toList with
  | [x, y, z] =>
    match axisOfText? x, axisOfText? y, axisOfText? z with
    | some x, some y, some z => some ⟨x, y, z⟩
    | _, _, _ => none
  | _ => none

end ScriptBridge.Coord
