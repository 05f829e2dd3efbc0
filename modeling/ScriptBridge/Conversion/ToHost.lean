import ScriptBridge.Conversion.CoordText
import ScriptBridge.Conversion.Error
import ScriptBridge.Guest.State
import ScriptBridge.Log
import ScriptBridge.Machine

/-! Guest values as host values of a kind. A conversion has two halves. `Access.evidence` asks for what
is not in the value itself: the components of tables that may stand for coordinates and targets, and
the object a name stands for. Asking may run guest code. `convert` then decides from the value, that
evidence and the guest's memory alone. -/

namespace ScriptBridge

/-- Toggles of guest-to-host conversion. -/
structure ConversionOptions where
  /-- Accept texts of numbers for numbers and `x,y,z` texts for coordinates. -/
  autoConvert : Bool
  logConversions : Bool
  /-- Warn of a reference of another kind than the one declared. -/
  warnOnKindMismatch : Bool
deriving DecidableEq, Repr

/-- How a conversion asks for what is not in a value itself. -/
structure Access (m : Type → Type) where
  /-- The machine that gives room for what is converted. -/
  machine : Machine
  /-- Looks a key up in a table, what stands in for missing keys included; a failure counts as nil. -/
  lookup : Nat → Guest.Value → m Guest.Value
  /-- The object the host makes for a type name. -/
  entity : String → m (Option Handle)

/-- What was found by asking for a value's components or object. -/
inductive Evidence where
  /-- Nothing was asked for, or nothing usable was found. -/
  | none
  /-- The complete components of a cell. -/
  | axes (x y z : Guest.Value)
  | entity (h : Handle)

namespace Access

variable {m : Type → Type} [Monad m]

/-- The first complete shape among named axes, three positions, two positions and the named axes of
the plane; the vertical axis of the last two is zero. -/
def axes (access : Access m) (address : Nat) : m Evidence := do
  let x ← access.lookup address (.text "x")
  let y ← access.lookup address (.text "y")
  let z ← access.lookup address (.text "z")
  if !x.isNil && !y.isNil && !z.isNil then return .axes x y z
  let a ← access.lookup address (.int 1)
  let b ← access.lookup address (.int 2)
  let c ← access.lookup address (.int 3)
  if !a.isNil && !b.isNil && !c.isNil then return .axes a b c
  if !a.isNil && !b.isNil then return .axes a (.int 0) b
  if !x.isNil && !z.isNil then return .axes x (.int 0) z
  return .none

/-- What makes a table a target: a shape of its own, else the object it names, else the cell it names. -/
def targetOfTable (access : Access m) (address : Nat) : m Evidence := do
  match ← access.axes address with
  | .none =>
    match ← access.lookup address (.text "Entity") with
    | .handle h _ => return .entity h
    | _ =>
      match ← access.lookup address (.text "Cell") with
      | .table cell => access.axes cell
      | _ => return .none
  | found => return found

/-- Asks for what a conversion to a kind needs beside the value. -/
def evidence (access : Access m) (kind : Kind) (value : Guest.Value) : m Evidence :=
  match kind, value with
  | .coord, .table address => access.axes address
  | .target, .table address => access.targetOfTable address
  | .target, .str name => do
    return match ← access.entity (Text.ofBytes name) with
      | some h => .entity h
      | none => .none
  | _, _ => pure .none

end Access

/-- A guest's memory as a conversion reads it: its tables and the length each one is said to have, which is
some border. -/
structure Reading where
  table : Nat → Guest.Table
  length : Nat → Nat
  isBorder : ∀ address, (table address).IsBorder (length address)

def Reading.of (s : Guest.State) : Reading where
  table := s.table
  length address := (s.table address).border
  isBorder address := (s.table address).isBorder_border

/-- A conversion's result with what it puts into the journal. -/
structure Conversion where
  result : Except ConversionError Value
  log : Log

namespace Conversion

/-- Tables nested deeper than this are refused, so tables that hold themselves are too. -/
def maxNesting : Nat := 32

def unsupported {α : Type} (kind : Kind) (value : Guest.Value) : Except ConversionError α :=
  .error (.unsupportedShape kind value.shapeName)

def tooDeep {α : Type} (kind : Kind) : Except ConversionError α :=
  .error (.unsupportedShape kind ("table nested deeper than " ++ toString maxNesting))

/-- A table counts as a sequence when it has as many entries as its length says. -/
def isSequence (reading : Reading) (address : Nat) : Bool :=
  (reading.table address).entries.length = reading.length address

/-- The text of a key in a record. -/
def keyText : Guest.Value → Except ConversionError String
  | .str b => .ok (Text.ofBytes b)
  | .int i => .ok (toString i.toInt)
  | .float x => .ok (Decimal.text x)
  | .bool b => .ok (if b then "true" else "false")
  | key => unsupported .record key

/-- The items of a sequence, each converted. -/
def listOf (item : Guest.Value → Except ConversionError Value) (t : Guest.Table) :
    Except ConversionError Value :=
  (t.sequence.mapM item).map .list

/-- The entries of a table as fields, each value converted. -/
def recordOf (item : Guest.Value → Except ConversionError Value) (t : Guest.Table) :
    Except ConversionError Value := do
  let fields ← t.entries.foldlM (fun fields entry => do
    let key ← keyText entry.1
    return Value.insertField key (← item entry.2) fields) []
  return .record fields

/-- A value by its own shape, its tables opened at most `levels` deep. -/
def structural (reading : Reading) : Nat → Guest.Value → Except ConversionError Value
  | _, .nil => .ok .nil
  | _, .bool b => .ok (.bool b)
  | _, .int i => .ok (.int i)
  | _, .float x => .ok (.number x)
  | _, .str b => .ok (.str (Text.ofBytes b))
  | _, .function f => .ok (.callback f)
  | _, .handle h _ => .ok (.handle h)
  | 0, .table address =>
    tooDeep (if isSequence reading address then .list else .record)
  | levels + 1, .table address =>
    let t := reading.table address
    if isSequence reading address then listOf (structural reading levels) t
    else recordOf (structural reading levels) t
  | _, value => unsupported .any value

/-- The number a text denotes, white space around it ignored. -/
def numberOfText? (bytes : ByteArray) : Option Float :=
  Numeral.readFloat? (Text.trim (Text.ofBytes bytes).toList)

def toBool (options : ConversionOptions) : Guest.Value → Except ConversionError Bool
  | .bool b => .ok b
  | .nil => if options.autoConvert then .ok false else unsupported .bool .nil
  | value => unsupported .bool value

def toInt (options : ConversionOptions) : Guest.Value → Except ConversionError Int64
  | .int i => .ok i
  | .float x => roundToInt64 x
  | .str b =>
    match options.autoConvert, numberOfText? b with
    | true, some x => roundToInt64 x
    | _, _ => unsupported .int (.str b)
  | value => unsupported .int value

def toNumber (options : ConversionOptions) : Guest.Value → Except ConversionError Float
  | .int i => .ok (Binary64.nearestOfInt i.toInt)
  | .float x => .ok x
  | .str b =>
    match options.autoConvert, numberOfText? b with
    | true, some x => .ok x
    | _, _ => unsupported .number (.str b)
  | value => unsupported .number value

def toText (options : ConversionOptions) (value : Guest.Value) : Except ConversionError String :=
  match value with
  | .str b => .ok (Text.ofBytes b)
  | .int i => if options.autoConvert then .ok (toString i.toInt) else unsupported .string value
  | .float x => if options.autoConvert then .ok (Decimal.text x) else unsupported .string value
  | .bool b =>
    if options.autoConvert then .ok (if b then "true" else "false") else unsupported .string value
  | value => unsupported .string value

/-- One component of a coordinate. -/
def toAxis (options : ConversionOptions) (value : Guest.Value) : Except ConversionError Int32 :=
  toInt options value >>= narrowToInt32

/-- The cell with given components. -/
def toCell (options : ConversionOptions) (x y z : Guest.Value) : Except ConversionError Coord := do
  return ⟨← toAxis options x, ← toAxis options y, ← toAxis options z⟩

def toCoord (options : ConversionOptions) (evidence : Evidence) (value : Guest.Value) :
    Except ConversionError Coord :=
  match value, evidence with
  | .nil, _ => .ok .invalid
  | .table _, .axes x y z => toCell options x y z
  | .str b, _ =>
    match options.autoConvert, Coord.ofText? (Text.ofBytes b) with
    | true, some c => .ok c
    | _, _ => unsupported .coord value
  | _, _ => unsupported .coord value

def toTarget (options : ConversionOptions) (evidence : Evidence) (value : Guest.Value) :
    Except ConversionError Target :=
  match value, evidence with
  | .nil, _ => .ok .invalid
  | .handle h _, _ => .ok (.entity h)
  | .table _, .axes x y z => (toCell options x y z).map .cell
  | .table _, .entity h => .ok (.entity h)
  | .str _, .entity h => .ok (.entity h)
  | .str b, _ => .error (.unsupportedShape .target
      ("string '" ++ Text.ofBytes b ++ "' (no constructible entity type)"))
  | _, _ => unsupported .target value

def toReference (expected : Option String) : Guest.Value → Except ConversionError Value
  | .nil => .ok .nil
  | .handle h _ => .ok (.handle h)
  | value => unsupported (.handle expected) value

/-- The host value of a kind that a guest value stands for. -/
def decide (options : ConversionOptions) (reading : Reading) (kind : Kind) (evidence : Evidence)
    (value : Guest.Value) : Except ConversionError Value :=
  match kind with
  | .any => structural reading maxNesting value
  | .nil => .ok .nil
  | .bool => (toBool options value).map .bool
  | .int => (toInt options value).map .int
  | .number => (toNumber options value).map .number
  | .string => (toText options value).map .str
  | .coord => (toCoord options evidence value).map .coord
  | .target => (toTarget options evidence value).map .target
  | .handle expected => toReference expected value
  | .callback =>
    match value with
    | .function f => .ok (.callback f)
    | value => unsupported .callback value
  | .list =>
    match value with
    | .table address => listOf (structural reading (maxNesting - 1)) (reading.table address)
    | value => unsupported .list value
  | .record =>
    match value with
    | .table address => recordOf (structural reading (maxNesting - 1)) (reading.table address)
    | value => unsupported .record value

/-- What the journal says of values that were taken but look like mistakes. -/
def warnings (options : ConversionOptions) (kind : Kind) (value : Guest.Value) : Log :=
  match kind, value with
  | .coord, .nil => [.warn "Received nil where a coordinate was expected"]
  | .target, .nil => [.warn "Received nil where a target was expected"]
  | .handle (some expected), .handle h _ =>
    if h.kind ≠ expected ∧ options.warnOnKindMismatch then
      [.warn ("Expected a " ++ expected ++ " handle but received " ++ h.display)]
    else []
  | _, _ => []

/-- What the journal says of a conversion that succeeded. -/
def remarks (options : ConversionOptions) (kind : Kind) (value : Guest.Value) :
    Except ConversionError Value → Log
  | .ok converted =>
    if options.logConversions then
      [.debug ("Converted guest " ++ value.shapeName ++ " to " ++ converted.typeName ++ " as " ++
        kind.display)]
    else []
  | .error _ => []

/-- Converts a guest value to a kind by the evidence found for it. -/
def convert (options : ConversionOptions) (reading : Reading) (kind : Kind) (evidence : Evidence)
    (value : Guest.Value) : Conversion :=
  let result := decide options reading kind evidence value
  ⟨result, warnings options kind value ++ remarks options kind value result⟩

/-- What comes of asking for room for a list, for as many items as its table's length says. The length may be a
border with next to nothing below it. Lists inside others are sequences, and those have as many items. -/
def reserve (machine : Machine) (reading : Reading) (kind : Kind) (value : Guest.Value) : Option Collapse :=
  match kind, value with
  | .list, .table address => machine.reserve Value.width (reading.length address)
  | _, _ => none

/-- Converts a guest value to a kind if there is room for it. -/
def attempt (machine : Machine) (options : ConversionOptions) (reading : Reading) (kind : Kind)
    (evidence : Evidence) (value : Guest.Value) : Except Collapse Conversion :=
  match reserve machine reading kind value with
  | some collapse => .error collapse
  | none => .ok (convert options reading kind evidence value)

end Conversion
end ScriptBridge
