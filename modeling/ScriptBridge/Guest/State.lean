import ScriptBridge.Guest.Syntax
import ScriptBridge.Guest.Table
import ScriptBridge.Machine
import ScriptBridge.Text.Lines

/-! The guest's memory: tables, variables, closures and the record of what native functions did.
Addresses are never reused, and address zero holds the globals. -/

namespace ScriptBridge.Guest

/-- What a recording native function does when it is called, one step after another. -/
inductive Step (recipe : Type) where
  | call (path : String) (args : List recipe)
  | set (name : String) (value : recipe)
  | fail (message : String)

/-- A guest value described by how it is made; every use makes fresh tables and objects. -/
inductive Recipe where
  | nil
  | bool (b : Bool)
  | int (i : Int64)
  | float (x : Float)
  | bytes (b : ByteArray)
  | handle (h : Handle)
  | alien
  | light
  | thread
  | error (message : String)
  | table (entries : List (Recipe × Recipe))
  /-- A table whose missing keys are looked up in another. -/
  | fallback (entries index : List (Recipe × Recipe))
  /-- A table whose missing keys raise. -/
  | refusing (entries : List (Recipe × Recipe))
  /-- Tables in tables, each holding the next under one key. -/
  | nest (depth : Nat) (key leaf : Recipe)
  /-- A table that holds itself. -/
  | cycle (key : Recipe)
  /-- A native function that records its calls and carries out steps. -/
  | probe (name : String) (steps : List (Step Recipe))

instance : Inhabited Recipe := ⟨.nil⟩

/-- A guest value as seen from outside, tables opened. -/
inductive View where
  | nil
  | bool (b : Bool)
  | int (i : Int64)
  | float (x : Float)
  | text (s : String)
  | bytes (b : ByteArray)
  | handle (h : Handle)
  | alien
  | function
  | table (entries : List (View × View))
  | other (shape : String)

instance : Inhabited View := ⟨.nil⟩

/-- How a call from outside ended. -/
inductive CallResult where
  | returned (values : List View)
  | notFunction
  | raised (message : String)

/-- What a recording native function leaves behind. -/
inductive Event where
  | ran (name : String) (arguments : Nat)
  | called (path : String) (result : CallResult)

/-- Variables in scope, innermost first, each with the address of its cell. -/
abbrev Scope := List (String × Nat)

/-- The code of a function with the variables it captured. -/
structure Closure where
  code : FunctionBody
  captured : Scope

structure Probe where
  name : String
  steps : List (Step Recipe)

structure State where
  tables : Array Table
  cells : Array Value
  closures : Array Closure
  probes : Array Probe
  /-- Keys that each traversal in progress has yet to visit. -/
  cursors : Array (List Value)
  /-- Number of object identities given out. -/
  objects : Nat
  events : Array Event
  /-- The host is collapsing, with guest code on the way out. -/
  collapse : Option Collapse

namespace State

def globals : Nat := 0

/-- The table strings look their methods up in. -/
def stringMethods : Nat := 1

def table (s : State) (address : Nat) : Table := s.tables[address]?.getD .empty

def setTable (s : State) (address : Nat) (t : Table) : State :=
  { s with tables := s.tables.setIfInBounds address t }

def newTable (s : State) (t : Table) : Nat × State :=
  (s.tables.size, { s with tables := s.tables.push t })

def newObject (s : State) : Nat × State := (s.objects, { s with objects := s.objects + 1 })

def cell (s : State) (address : Nat) : Value := s.cells[address]?.getD .nil

def setCell (s : State) (address : Nat) (v : Value) : State :=
  { s with cells := s.cells.setIfInBounds address v }

def newCell (s : State) (v : Value) : Nat × State :=
  (s.cells.size, { s with cells := s.cells.push v })

def newClosure (s : State) (c : Closure) : Nat × State :=
  (s.closures.size, { s with closures := s.closures.push c })

def newProbe (s : State) (p : Probe) : Nat × State :=
  (s.probes.size, { s with probes := s.probes.push p })

def newCursor (s : State) (keys : List Value) : Nat × State :=
  (s.cursors.size, { s with cursors := s.cursors.push keys })

def record (s : State) (e : Event) : State := { s with events := s.events.push e }

def collapseWith (s : State) (collapse : Collapse) : State := { s with collapse := some collapse }

/-- Raw access to a table by address. -/
def rawGet (s : State) (address : Nat) (key : Value) : Value := (s.table address).get key

def rawSet (s : State) (address : Nat) (key value : Value) : State :=
  s.setTable address ((s.table address).set key value)

/-- What stands in for a table's missing keys, nil when nothing does. -/
def fallbackOf (s : State) (address : Nat) : Value :=
  match (s.table address).metatable with
  | some metatable => s.rawGet metatable (.text "__index")
  | none => .nil

def setGlobal (s : State) (name : String) (value : Value) : State :=
  s.rawSet globals (.text name) value

/-- Where the search for a key ends. -/
inductive Lookup where
  | found (value : Value)
  /-- A function has to be asked about a table. -/
  | ask (f : Function) (object : Value)
  | notIndexable (v : Value)
  /-- The stand-ins led on and on. -/
  | endless

/-- Looks up a key in a value and in what stands in for its missing keys, so many times over. -/
def lookup (s : State) (key : Value) : Nat → Value → Lookup
  | 0, _ => .endless
  | hops + 1, .table address =>
    let value := s.rawGet address key
    if !value.isNil then .found value
    else match s.fallbackOf address with
      | .nil => .found .nil
      | .function f => .ask f (.table address)
      | next => s.lookup key hops next
  | _, .str _ => .found (s.rawGet stringMethods key)
  | _, v => .notIndexable v

/-- How often one table may stand in for another in a single lookup. -/
def lookupLimit : Nat := 2000

/-- The value at the end of a path of names, by raw lookups. -/
def follow (s : State) : Value → List String → Value
  | v, [] => v
  | .table address, name :: rest => s.follow (s.rawGet address (.text name)) rest
  | _, _ :: _ => .nil

/-- The value a dotted path leads to from the globals. -/
def atPath (s : State) (path : String) : Value :=
  s.follow (.table globals) (Text.splitAt '.' path)

/-- The table at the end of a path of names below a table; what is not a table on the way is replaced
by a new one. -/
def tableAlong (s : State) (address : Nat) : List String → Nat × State
  | [] => (address, s)
  | name :: rest =>
    match s.rawGet address (.text name) with
    | .table next => s.tableAlong next rest
    | _ =>
      let (fresh, s) := s.newTable .empty
      (s.rawSet address (.text name) (.table fresh)).tableAlong fresh rest

/-- Library functions by the table they are found in; the first list holds the globals. -/
def libraryNames : List (String × List String) := [
  ("_G", ["collectgarbage", "dofile", "getmetatable", "load", "loadfile", "next", "print", "rawequal",
    "rawget", "rawlen", "rawset", "require", "tonumber", "warn", "xpcall"]),
  ("string", ["byte", "char", "dump", "find", "format", "gmatch", "gsub", "len", "lower", "match",
    "pack", "packsize", "rep", "reverse", "sub", "unpack", "upper"]),
  ("table", ["concat", "insert", "move", "pack", "remove", "sort", "unpack"]),
  ("math", ["abs", "acos", "asin", "atan", "ceil", "cos", "deg", "exp", "floor", "fmod", "log", "max",
    "min", "modf", "rad", "random", "randomseed", "sin", "sqrt", "tan", "tointeger", "type", "ult"]),
  ("coroutine", ["close", "create", "isyieldable", "resume", "running", "status", "wrap", "yield"]),
  ("io", ["close", "flush", "input", "lines", "open", "output", "popen", "read", "tmpfile", "type",
    "write"]),
  ("os", ["clock", "date", "difftime", "execute", "exit", "getenv", "remove", "rename", "setlocale",
    "time", "tmpname"]),
  ("utf8", ["char", "codepoint", "codes", "len", "offset"]),
  ("package", ["loadlib", "searchpath"])]

/-- The library functions that do their work. -/
def workingLibrary : List Library :=
  [.type, .tostring, .pcall, .error, .assert, .select, .ipairs, .pairs, .setmetatable]

def bindLibrary (qualifier : String) (address : Nat) (s : State) (names : List String) : State :=
  names.foldl (fun s name =>
    s.rawSet address (.text name) (.function (.library (.named (qualifier ++ name))))) s

/-- A memory with nothing in it but the library. -/
def initial : State :=
  let empty : State := ⟨#[.empty, .empty], #[], #[], #[], #[], 0, #[], none⟩
  let s := empty.setGlobal "_G" (.table globals)
  let s := s.setGlobal "_VERSION" (.text "Lua 5.4")
  let s := s.setGlobal "string" (.table stringMethods)
  let s := workingLibrary.foldl (fun s f => s.setGlobal f.name (.function (.library f))) s
  libraryNames.foldl (fun s (owner, names) =>
    let (address, s) := s.tableAlong globals [owner]
    bindLibrary (if owner = "_G" then "" else owner ++ ".") address s names) s

end State

namespace Recipe

/-- A table with the given entries, set one after another. -/
def tableOf (entries : List (Value × Value)) (metatable : Option Nat) : Table :=
  entries.foldl (fun t e => t.set e.1 e.2) { Table.empty with metatable }

/-- Tables around a value, each holding the next one under a key. -/
def wrap (key : Value) : Nat → Value → State → Value × State
  | 0, v, s => (v, s)
  | depth + 1, v, s =>
    let (address, s) := s.newTable (tableOf [(key, v)] none)
    wrap key depth (.table address) s

/-- A metatable that sends missing keys somewhere. -/
def indexing (index : Value) (s : State) : Nat × State :=
  s.newTable (tableOf [(.text "__index", index)] none)

mutual

def build : Recipe → State → Value × State
  | nil, s => (.nil, s)
  | bool b, s => (.bool b, s)
  | int i, s => (.int i, s)
  | float x, s => (.float x, s)
  | bytes b, s => (.str b, s)
  | handle h, s => let (identity, s) := s.newObject; (.handle h identity, s)
  | alien, s => let (identity, s) := s.newObject; (.alien identity, s)
  | light, s => (.light, s)
  | thread, s => let (identity, s) := s.newObject; (.thread identity, s)
  | error message, s => (.error message, s)
  | table entries, s =>
    let (entries, s) := buildEntries entries s
    let (address, s) := s.newTable (tableOf entries none)
    (.table address, s)
  | fallback entries index, s =>
    let (entries, s) := buildEntries entries s
    let (index, s) := buildEntries index s
    let (target, s) := s.newTable (tableOf index none)
    let (metatable, s) := indexing (.table target) s
    let (address, s) := s.newTable (tableOf entries (some metatable))
    (.table address, s)
  | refusing entries, s =>
    let (entries, s) := buildEntries entries s
    let (metatable, s) := indexing (.function (.library .refuse)) s
    let (address, s) := s.newTable (tableOf entries (some metatable))
    (.table address, s)
  | nest depth key leaf, s =>
    let (key, s) := key.build s
    let (leaf, s) := leaf.build s
    wrap key depth leaf s
  | cycle key, s =>
    let (key, s) := key.build s
    let (address, s) := s.newTable .empty
    (.table address, s.rawSet address key (.table address))
  | probe name steps, s =>
    let (address, s) := s.newProbe ⟨name, steps⟩
    (.function (.probe address), s)

def buildEntries : List (Recipe × Recipe) → State → List (Value × Value) × State
  | [], s => ([], s)
  | (key, value) :: rest, s =>
    let (key, s) := key.build s
    let (value, s) := value.build s
    let (rest, s) := buildEntries rest s
    ((key, value) :: rest, s)

end

def buildAll : List Recipe → State → List Value × State
  | [], s => ([], s)
  | recipe :: rest, s =>
    let (value, s) := recipe.build s
    let (rest, s) := buildAll rest s
    (value :: rest, s)

end Recipe

namespace View

/-- Opens a value, tables to a given depth. -/
def ofValue (s : State) : Nat → Value → View
  | _, .nil => nil
  | _, .bool b => bool b
  | _, .int i => int i
  | _, .float x => float x
  | _, .str b => match String.fromUTF8? b with
    | some t => text t
    | none => bytes b
  | _, .handle h _ => handle h
  | _, .alien _ => alien
  | _, .function _ => function
  | 0, .table _ => other "table"
  | depth + 1, .table address =>
    table ((s.table address).entries.map fun e => (ofValue s depth e.1, ofValue s depth e.2))
  | _, v => other v.shapeName

/-- Depth to which tables are opened; no table without a cycle goes deeper than there are tables. -/
def of (s : State) (v : Value) : View := ofValue s (s.tables.size + 1) v

end View
end ScriptBridge.Guest
