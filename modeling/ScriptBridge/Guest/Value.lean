import ScriptBridge.Numeric.Bounded
import ScriptBridge.Value
import ScriptBridge.Text.Utf8

/-! Guest values. Tables and closures live in the guest's memory and are known by address; host objects are
opaque and each carries an identity of its own. -/

namespace ScriptBridge.Guest

inductive Value where
  | nil
  | bool (b : Bool)
  | int (i : Int64)
  | float (x : Float)
  | str (bytes : ByteArray)
  | table (address : Nat)
  | function (f : Function)
  /-- A reference to a host object. -/
  | handle (h : Handle) (identity : Nat)
  /-- A host object the bridge knows nothing about. -/
  | alien (identity : Nat)
  | light
  | thread (identity : Nat)
  /-- A failure of native code, caught as a value. -/
  | error (message : String)
deriving DecidableEq

instance : Inhabited Value := ⟨.nil⟩

namespace Value

def text (s : String) : Value := .str s.toUTF8

theorem text_inj {a b : String} (h : text a = text b) : a = b := String.toByteArray_inj.mp (str.inj h)

/-- The type of a value as the guest language names it. -/
def typeName : Value → String
  | nil => "nil"
  | bool _ => "boolean"
  | int _ | float _ => "number"
  | str _ => "string"
  | table _ => "table"
  | function _ => "function"
  | handle _ _ | alien _ | light | error _ => "userdata"
  | thread _ => "thread"

/-- The type of a value as the bridge names it: integers are told from other numbers. -/
def shapeName : Value → String
  | nil => "nil"
  | bool _ => "boolean"
  | int _ => "integer"
  | float _ => "number"
  | str _ => "string"
  | table _ => "table"
  | function _ => "function"
  | handle _ _ | alien _ => "userdata"
  | light => "lightuserdata"
  | thread _ => "thread"
  | error _ => "error"

/-- Everything but nil and false counts as true. -/
def truthy : Value → Bool
  | nil | bool false => false
  | _ => true

def isNil : Value → Bool
  | nil => true
  | _ => false

/-- The integer equal to a double, if there is one in range. -/
def exactInt? (x : Float) : Option Int64 := (Binary64.ofFloat x).toInt?.bind int64Of?

/-- The form in which a value serves as a key: a double equal to an integer becomes that integer. -/
def asKey : Value → Value
  | float x => match exactInt? x with
    | some i => int i
    | none => float x
  | v => v

/-- Equality of values without asking the objects themselves; numbers compare by value. -/
def rawEqual : Value → Value → Bool
  | int i, int j => i = j
  | float x, float y => x == y
  | int i, float x => Binary64.compareInt i.toInt (Binary64.ofFloat x) = some .eq
  | float x, int i => Binary64.compareInt i.toInt (Binary64.ofFloat x) = some .eq
  | v, w => v = w

/-- Equality as the guest sees it: references to the same host object are equal. -/
def equal : Value → Value → Bool
  | handle h _, handle k _ => h = k
  | v, w => rawEqual v w

end Value

end ScriptBridge.Guest
