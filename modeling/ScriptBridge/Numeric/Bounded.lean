/-! Integers of a fixed width as the integers of their range. -/

namespace ScriptBridge

/-- The 64-bit integer of a value, if it is in range. -/
def int64Of? (i : Int) : Option Int64 :=
  if Int64.minValue.toInt ≤ i ∧ i ≤ Int64.maxValue.toInt then some (Int64.ofInt i) else none

/-- The 32-bit integer of a value, if it is in range. -/
def int32Of? (i : Int) : Option Int32 :=
  if Int32.minValue.toInt ≤ i ∧ i ≤ Int32.maxValue.toInt then some (Int32.ofInt i) else none

end ScriptBridge
