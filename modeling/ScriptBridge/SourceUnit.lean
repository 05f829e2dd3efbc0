/-! Named pieces of guest source. -/

namespace ScriptBridge

structure SourceUnit where
  name : String
  content : String
deriving DecidableEq, Repr

/-- The contents of units as one block, each on lines of its own; the names play no part. -/
def SourceUnit.concat (units : List SourceUnit) : String :=
  "\n".intercalate (units.map SourceUnit.content)

end ScriptBridge
