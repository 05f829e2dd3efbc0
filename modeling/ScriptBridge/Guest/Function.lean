/-! Functions of the guest as first-class values. A function is identified by what it refers to, so
two function values are the same exactly when they name the same thing. -/

namespace ScriptBridge.Guest

/-- Functions that come with the guest language. Those the bridge has no use for are present under
their names but do nothing. -/
inductive Library where
  | type
  | tostring
  | pcall
  | error
  | assert
  | select
  | ipairs
  | ipairsStep
  | pairs
  | setmetatable
  | floor
  | next
  /-- Always raises. -/
  | refuse
  | other (name : String)
deriving DecidableEq, Repr

namespace Library

/-- The name a library function is bound to. -/
def name : Library → String
  | type => "type"
  | tostring => "tostring"
  | pcall => "pcall"
  | error => "error"
  | assert => "assert"
  | select => "select"
  | ipairs => "ipairs"
  | ipairsStep => "for iterator"
  | pairs => "pairs"
  | setmetatable => "setmetatable"
  | floor => "floor"
  | next => "next"
  | refuse => "refuse"
  | other name => name

/-- The function behind a qualified name. -/
def named (qualified : String) : Library :=
  if qualified = "math.floor" then floor else if qualified = "next" then next else other qualified

end Library

/-- What a function value refers to. -/
inductive Function where
  /-- A guest function, by the address of its code and captured variables. -/
  | closure (address : Nat)
  /-- A published host operation, by the number of its registration. -/
  | published (index : Nat)
  /-- A recording native function, by its address. -/
  | probe (address : Nat)
  /-- A traversal in progress, by its address. -/
  | cursor (address : Nat)
  | library (function : Library)
deriving DecidableEq, Repr

end ScriptBridge.Guest
