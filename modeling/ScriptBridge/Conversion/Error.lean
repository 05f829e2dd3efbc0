import ScriptBridge.Numeric.Bounded
import ScriptBridge.Value

/-! Why a guest value could not become a host value. -/

namespace ScriptBridge

inductive ConversionError where
  /-- The value has no reading as the kind asked for; `found` says what it is instead. -/
  | unsupportedShape (expected : Kind) (found : String)
  /-- A number lies outside the range of its kind. -/
  | outOfRange (expected : Kind) (value : Float)
  | missingArgument (name : String)

def ConversionError.message : ConversionError → String
  | unsupportedShape expected found =>
    "expected " ++ expected.display ++ ", got unsupported shape " ++ found
  | outOfRange expected value => Decimal.text value ++ " does not fit in " ++ expected.display
  | missingArgument name => "missing required argument '" ++ name ++ "'"

/-- The 64-bit integer nearest to a double, a half going away from zero. -/
def roundToInt64 (x : Float) : Except ConversionError Int64 :=
  match (Binary64.ofFloat x).nearestInt?.bind int64Of? with
  | some i => .ok i
  | none => .error (.outOfRange .int x)

/-- The 32-bit integer equal to a wider one. -/
def narrowToInt32 (i : Int64) : Except ConversionError Int32 :=
  match int32Of? i.toInt with
  | some i => .ok i
  | none => .error (.outOfRange .coord (Binary64.nearestOfInt i.toInt))

end ScriptBridge
