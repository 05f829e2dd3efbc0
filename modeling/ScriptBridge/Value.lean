import ScriptBridge.Guest.Function
import ScriptBridge.Numeric.Shortest

/-! Host values and the kinds that describe them. A value is what an operation receives and returns;
a kind is what a parameter declares. Records keep their fields in key order, one field per key. -/

namespace ScriptBridge

/-- Kind tag of parameters and return values. -/
inductive Kind where
  /-- Whatever the guest passes, converted by its own shape. -/
  | any
  | nil
  | bool
  | int
  | number
  | string
  | coord
  | target
  /-- A reference to a host object, of a given kind or of any. -/
  | handle (kind : Option String)
  | callback
  | list
  | record
deriving DecidableEq, Repr

def Kind.display : Kind → String
  | any => "Any"
  | nil => "Void"
  | bool => "Boolean"
  | int => "Int32"
  | number => "Number"
  | string => "String"
  | coord => "Coord"
  | target => "Target"
  | handle kind => kind.getD "Handle"
  | callback => "Function"
  | list => "List"
  | record => "Table"

/-- A cell of the integer grid. -/
structure Coord where
  x : Int32
  y : Int32
  z : Int32
deriving DecidableEq, Repr

namespace Coord

/-- The mark for "no position". -/
def invalid : Coord := ⟨-1000, -1000, -1000⟩

def isValid (c : Coord) : Bool := c ≠ invalid

def display (c : Coord) : String :=
  "(" ++ toString c.x.toInt ++ ", " ++ toString c.y.toInt ++ ", " ++ toString c.z.toInt ++ ")"

end Coord

/-- An opaque reference to a host object. -/
structure Handle where
  kind : String
  id : UInt64
deriving DecidableEq, Repr

def Handle.display (h : Handle) : String := h.kind ++ "#" ++ toString h.id.toNat

/-- Where an action is aimed. -/
inductive Target where
  | cell (coord : Coord)
  | entity (handle : Handle)
  | invalid
deriving DecidableEq, Repr

namespace Target

def isValid : Target → Bool
  | cell coord => coord.isValid
  | entity _ => true
  | invalid => false

def display : Target → String
  | cell coord => "Target" ++ coord.display
  | entity handle => "Target(" ++ handle.display ++ ")"
  | invalid => "Target(invalid)"

end Target

/-- A value on the host side of the bridge. -/
inductive Value where
  | nil
  | bool (b : Bool)
  | int (i : Int64)
  | number (x : Float)
  | str (s : String)
  | coord (c : Coord)
  | target (t : Target)
  | handle (h : Handle)
  | callback (f : Guest.Function)
  | list (items : List Value)
  | record (fields : List (String × Value))

instance : Inhabited Value := ⟨.nil⟩

namespace Value

/-- Bytes that a value takes among others. -/
def width : Nat := 40

/-- Short label of a value's type in messages. -/
def typeName : Value → String
  | nil => "nil"
  | bool _ => "Boolean"
  | int _ => "Int64"
  | number _ => "Double"
  | str _ => "String"
  | coord _ => "Coord"
  | target _ => "Target"
  | handle h => h.kind
  | callback _ => "Function"
  | list _ => "List"
  | record _ => "Table"

def isNil : Value → Bool
  | nil => true
  | _ => false

/-- Nil and the marks for "no position" and "no target" are not valid. -/
def isValid : Value → Bool
  | nil => false
  | coord c => c.isValid
  | target t => t.isValid
  | _ => true

def asNumber? : Value → Option Float
  | int i => some (Binary64.nearestOfInt i.toInt)
  | number x => some x
  | _ => none

def asString? : Value → Option String
  | str s => some s
  | _ => none

/-- Puts a field into a record at the place of its key, replacing one of the same key. -/
def insertField (key : String) (value : Value) : List (String × Value) → List (String × Value)
  | [] => [(key, value)]
  | (k, v) :: rest =>
    if key < k then (key, value) :: (k, v) :: rest
    else if key = k then (key, value) :: rest
    else (k, v) :: insertField key value rest

/-- The fields of a record in key order; of two with one key the later counts. -/
def fieldsOf (pairs : List (String × Value)) : List (String × Value) :=
  pairs.foldl (fun fields p => insertField p.1 p.2 fields) []

/-- The value of a field. -/
def field? (key : String) : List (String × Value) → Option Value
  | [] => none
  | (k, v) :: rest => if k = key then some v else field? key rest

/-- The sentinel a parameter of a kind gets when its argument could not be converted. -/
def sentinel : Kind → Value
  | .coord => .coord .invalid
  | .target => .target .invalid
  | _ => .nil

mutual

/-- The value as people read it. -/
def display : Value → String
  | nil => "nil"
  | bool b => if b then "true" else "false"
  | int i => toString i.toInt
  | number x => Decimal.text x
  | str s => s
  | coord c => c.display
  | target t => t.display
  | handle h => h.display
  | callback _ => "<function>"
  | list items => "[" ++ ", ".intercalate (displayItems items) ++ "]"
  | record fields => "\x7b" ++ ", ".intercalate (displayFields fields) ++ "\x7d"

def displayItems : List Value → List String
  | [] => []
  | item :: rest => item.display :: displayItems rest

def displayFields : List (String × Value) → List String
  | [] => []
  | (key, value) :: rest => (key ++ " = " ++ value.display) :: displayFields rest

end

end Value
end ScriptBridge
