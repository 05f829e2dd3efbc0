import ScriptBridge.Guest.Parser
import ScriptBridge.Guest.Run

/-! The meaning of guest programs. Evaluation takes an allowance of steps, so it is total; running out
is a fault of its own that guest code cannot catch. Every failure carries the line it happened on, and
a message names the variable or field at fault where the program text shows one. -/

namespace ScriptBridge.Guest

/-- Lines that the functions in progress have reached, the innermost first; native functions have
none. -/
abbrev CallStack := List (Option Nat)

/-- One activation of a guest function. -/
structure Frame where
  locals : Scope
  captured : Scope
  varargs : List Value
  callers : CallStack
  depth : Nat

/-- How a statement ends. -/
inductive Flow where
  | next
  | leaveLoop
  | leave (values : List Value)

/-- Where a name leads. -/
inductive Variable where
  | local (cell : Nat)
  | captured (cell : Nat)
  | global

/-- Where an assignment stores. -/
inductive Place where
  | cell (address : Nat)
  | global (name : String)
  | slot (object key : Value) (about : String)

def findName (name : String) : Scope → Option Nat
  | [] => none
  | (n, cell) :: rest => if n = name then some cell else findName name rest

/-- A name means the innermost variable of that name, or a global. -/
def Frame.resolve (frame : Frame) (name : String) : Variable :=
  match findName name frame.locals with
  | some cell => .local cell
  | none =>
    match findName name frame.captured with
    | some cell => .captured cell
    | none => .global

namespace Interpreter

/-- Guest functions nested deeper than this raise. -/
def depthLimit : Nat := 100000

/-- Guest functions that a call made by native code counts as. -/
def nativeDepth : Nat := 500

/-- The innermost line of a stack. -/
def innermost (stack : CallStack) : Option Nat := stack.findSome? id

/-- Raises a message with the line of a level of the stack in front, if that level has one. -/
def raiseAtLevel {α : Type} (stack : CallStack) (level : Nat) (message : String) : Eval α :=
  let text := match stack[level - 1]? with
    | some (some line) => if level = 0 then message else Token.located line message
    | _ => message
  .stop (.raised (.text text) (innermost stack))

/-- Raises a message about the running line. -/
def raiseAt {α : Type} (line : Nat) (message : String) : Eval α :=
  .stop (.raised (.text (Token.located line message)) (some line))

/-- Guest code is left because the host collapses. -/
def raiseCollapse {α : Type} (stack : CallStack) (collapse : Collapse) : Eval α :=
  .stop (.raised (.error collapse.message) (innermost stack))

/-- Goes on with the value of a call to the host, unless the host collapses. -/
def goOn (stack : CallStack) (value : Value) : Eval (List Value) := do
  match ← Eval.read State.collapse with
  | none => return [value]
  | some collapse => raiseCollapse stack collapse

/-- The type of an operand in a complaint about it. -/
def operandType : Value → String
  | .handle _ _ => "Handle"
  | v => v.typeName

/-- Name and sort of the variable or field an expression reads. -/
def nameOf? (frame : Frame) : Expr → Option (String × String)
  | .name n => match frame.resolve n with
    | .local _ => some ("local", n)
    | .captured _ => some ("upvalue", n)
    | .global => some ("global", n)
  | .index _ (.str key) _ => some ("field", Text.ofBytes key)
  | .index _ (.int i) _ => some ("field", if 0 ≤ i ∧ i ≤ 255 then "integer index" else "?")
  | .index _ _ _ => some ("field", "?")
  | .str text => some ("constant", Text.ofBytes text)
  | .single e => nameOf? frame e
  | _ => none

/-- What a complaint adds about an operand. -/
def about (named : Option (String × String)) : String :=
  match named with
  | some (sort, name) => " (" ++ sort ++ " '" ++ name ++ "')"
  | none => ""

def aboutExpr (frame : Frame) (e : Expr) : String := about (nameOf? frame e)

/-- The bytes a value contributes to a concatenation. -/
def concatBytes? : Value → Option ByteArray
  | .str b => some b
  | .int i => some (Number.intText i).toUTF8
  | .float x => some (Number.floatText x).toUTF8
  | _ => none

def isNumber : Value → Bool
  | .int _ | .float _ => true
  | _ => false

def isText : Value → Bool
  | .str _ => true
  | _ => false

/-- What an arithmetic operation is called in complaints about texts. -/
def operationName : BinaryOp → String
  | .add => "add"
  | .sub => "sub"
  | .mul => "mul"
  | .div => "div"
  | .floorDiv => "idiv"
  | .mod => "mod"
  | .pow => "pow"
  | _ => "op"

/-- Raises the failure of a numeric operation, or gives its result. -/
def numeric (line : Nat) : Except Number.Failure Value → Eval Value
  | .ok v => pure v
  | .error failure => raiseAt line failure.message

/-- Complaint about an operand that is no number. -/
def raiseOperand (line : Nat) (verb : String) (v w : Value) (aboutV aboutW : String) : Eval Value :=
  let (culprit, about) := if isNumber v then (w, aboutW) else (v, aboutV)
  raiseAt line ("attempt to " ++ verb ++ " a " ++ operandType culprit ++ " value" ++ about)

/-- Arithmetic on any two values; texts that denote numbers take part. -/
def arith (op : BinaryOp) (name : String) (v w : Value) (line : Nat) (aboutV aboutW : String) :
    Eval Value :=
  match Number.arith? op v w with
  | some result => numeric line result
  | none =>
    let converted := match Number.ofValue? v, Number.ofValue? w with
      | some a, some b => Number.arith? op a b
      | _, _ => none
    match converted with
    | some result => numeric line result
    | none =>
      if Number.isBitwise op then raiseOperand line "perform bitwise operation on" v w aboutV aboutW
      else if isText v || isText w then
        raiseAt line ("attempt to " ++ name ++ " a '" ++ v.typeName ++ "' with a '" ++ w.typeName ++ "'")
      else raiseOperand line "perform arithmetic on" v w aboutV aboutW

def concat (v w : Value) (line : Nat) (aboutV aboutW : String) : Eval Value :=
  match concatBytes? v, concatBytes? w with
  | some a, some b => pure (.str (a ++ b))
  | some _, none => raiseAt line ("attempt to concatenate a " ++ operandType w ++ " value" ++ aboutW)
  | none, _ => raiseAt line ("attempt to concatenate a " ++ operandType v ++ " value" ++ aboutV)

/-- Order of two texts by their bytes. -/
def compareBytes : List UInt8 → List UInt8 → Ordering
  | [], [] => .eq
  | [], _ :: _ => .lt
  | _ :: _, [] => .gt
  | a :: as, b :: bs => if a < b then .lt else if b < a then .gt else compareBytes as bs

/-- Whether two values are in one of the given orders; only numbers and texts have one. -/
def inOrder (orders : List Ordering) (v w : Value) (line : Nat) : Eval Value :=
  if isNumber v && isNumber w then
    pure (.bool ((Number.compare? v w).any orders.contains))
  else match v, w with
    | .str a, .str b => pure (.bool (orders.contains (compareBytes a.toList b.toList)))
    | v, w =>
      let (left, right) := (operandType v, operandType w)
      if left = right then raiseAt line ("attempt to compare two " ++ left ++ " values")
      else raiseAt line ("attempt to compare " ++ left ++ " with " ++ right)

def length (v : Value) (line : Nat) (aboutV : String) : Eval Value :=
  match v with
  | .str b => pure (.int (Int64.ofNat b.size))
  | .table address => .read fun s => .int (Int64.ofNat (s.table address).border)
  | v => raiseAt line ("attempt to get length of a " ++ operandType v ++ " value" ++ aboutV)

def unary (op : UnaryOp) (v : Value) (line : Nat) (aboutV : String) : Eval Value :=
  match op with
  | .not => pure (.bool !v.truthy)
  | .len => length v line aboutV
  | .neg =>
    match v with
    | .float x => pure (.float (-x))
    | .int i => pure (.int (-i))
    | v => match Number.ofValue? v with
      | some (.float x) => pure (.float (-x))
      | some (.int i) => pure (.int (-i))
      | _ => arith .sub "unm" v v line aboutV aboutV
  | .bitNot => arith .bitXor "bnot" v (.int (-1)) line aboutV ""

def binary (op : BinaryOp) (v w : Value) (line : Nat) (aboutV aboutW : String) : Eval Value :=
  match op with
  | .eq => pure (.bool (v.equal w))
  | .ne => pure (.bool !(v.equal w))
  | .lt => inOrder [.lt] v w line
  | .le => inOrder [.lt, .eq] v w line
  | .gt => inOrder [.lt] w v line
  | .ge => inOrder [.lt, .eq] w v line
  | .concat => concat v w line aboutV aboutW
  | op => arith op (operationName op) v w line aboutV aboutW

/-- Stores into a table under a key that may serve as one. -/
def storeAt (address : Nat) (key value : Value) (line : Nat) : Eval Unit :=
  match key with
  | .nil => raiseAt line "table index is nil"
  | .float x => if x == x then .change fun s => s.rawSet address key value
    else raiseAt line "table index is NaN"
  | key => .change fun s => s.rawSet address key value

/-- Stores values at places, one after another. -/
def storeAll : List (Place × Value) → Nat → Eval Unit
  | [], _ => pure ()
  | (place, value) :: rest, line => do
    match place with
    | .cell address => Eval.change fun s => s.setCell address value
    | .global name => Eval.change fun s => s.setGlobal name value
    | .slot (.table address) key _ => storeAt address key value line
    | .slot object _ aboutObject =>
      raiseAt line ("attempt to index a " ++ operandType object ++ " value" ++ aboutObject)
    storeAll rest line

/-- Binds names to values in fresh cells, the missing ones to nil. -/
def bindNames : List String → List Value → Scope → Eval Scope
  | [], _, scope => pure scope
  | name :: names, values, scope => do
    let cell ← Eval.update fun s => s.newCell (values.headD .nil)
    bindNames names values.tail ((name, cell) :: scope)

/-- Complaint about an argument of a library function. -/
def raiseArgument {α : Type} (stack : CallStack) (called : String) (position : Nat)
    (detail : String) : Eval α :=
  raiseAtLevel stack 1
    ("bad argument #" ++ toString position ++ " to '" ++ called ++ "' (" ++ detail ++ ")")

/-- The type of an argument that may be missing. -/
def argumentType (args : List Value) (position : Nat) : String :=
  match args[position - 1]? with
  | some v => operandType v
  | none => "no value"

def expectTable (stack : CallStack) (called : String) (args : List Value) : Eval Nat :=
  match args with
  | .table address :: _ => pure address
  | args => raiseArgument stack called 1 ("table expected, got " ++ argumentType args 1)

/-- The integer an argument denotes. -/
def integerArgument? (args : List Value) (position : Nat) : Option Int64 :=
  (args[position - 1]?).bind fun v => (Number.ofValue? v).bind Number.toInteger?

/-- The rest of the arguments from a position on, counted from the end when negative. -/
def selectFrom (stack : CallStack) (called : String) (position : Int) (rest : List Value) :
    Eval (List Value) :=
  if position > 0 then pure (rest.drop (position.toNat - 1))
  else if position < 0 ∧ position.natAbs ≤ rest.length then
    pure (rest.drop (rest.length - position.natAbs))
  else raiseArgument stack called 1 "index out of range"

/-- Raises a value as an error; a text gets the place of a level of the stack in front. -/
def raiseValue {α : Type} (stack : CallStack) (value : Value) (level : Nat) : Eval α :=
  match value with
  | .str message =>
    match stack[level - 1]? with
    | some (some line) =>
      if level = 0 then .stop (.raised value (innermost stack))
      else .stop (.raised (.str ((Token.located line "").toUTF8 ++ message)) (innermost stack))
    | _ => .stop (.raised value (innermost stack))
  | value => .stop (.raised value (innermost stack))

/-- Library functions that neither call back nor look anything up. -/
def library (f : Library) (args : List Value) (stack : CallStack) (called : String) :
    Eval (List Value) :=
  match f with
  | .type =>
    match args with
    | v :: _ => pure [.text v.typeName]
    | [] => raiseArgument stack called 1 "value expected"
  | .tostring =>
    match args with
    | .str b :: _ => pure [.str b]
    | v :: _ => pure [.text v.describe]
    | [] => raiseArgument stack called 1 "value expected"
  | .error =>
    match (args[1]? : Option Value) with
    | none | some .nil => raiseValue stack (args.headD .nil) 1
    | some v =>
      match integerArgument? args 2 with
      | some level => raiseValue stack (args.headD .nil) level.toInt.toNat
      | none =>
        raiseArgument stack called 2
          (if (Number.ofValue? v).isSome then "number has no integer representation"
          else "number expected, got " ++ operandType v)
  | .assert =>
    match args with
    | [] => raiseArgument stack called 1 "value expected"
    | v :: rest =>
      if v.truthy then pure args
      else raiseValue stack (rest.headD (.text "assertion failed!")) 1
  | .select =>
    match args with
    | .str mark :: rest =>
      if mark = "#".toUTF8 then pure [.int (Int64.ofNat rest.length)]
      else match integerArgument? args 1 with
        | some i => selectFrom stack called i.toInt rest
        | none => raiseArgument stack called 1 "number expected, got string"
    | _ :: rest =>
      match integerArgument? args 1 with
      | some i => selectFrom stack called i.toInt rest
      | none => raiseArgument stack called 1 ("number expected, got " ++ argumentType args 1)
    | [] => raiseArgument stack called 1 "number expected, got no value"
  | .ipairs =>
    match args with
    | v :: _ => pure [.function (.library .ipairsStep), v, .int 0]
    | [] => raiseArgument stack called 1 "value expected"
  | .pairs =>
    match args with
    | [] => raiseArgument stack called 1 "value expected"
    | .table address :: _ => do
      let keys ← Eval.read fun s => (s.table address).entries.map Prod.fst
      let cursor ← Eval.update fun s => s.newCursor keys
      return [.function (.cursor cursor), .table address, .nil]
    | v :: _ => pure [.function (.library .next), v, .nil]
  | .next => do
    discard (expectTable stack called args)
    return []
  | .setmetatable => do
    let address ← expectTable stack called args
    match (args[1]? : Option Value) with
    | some .nil => Eval.change fun s => s.setTable address { s.table address with metatable := none }
    | some (.table metatable) =>
      Eval.change fun s => s.setTable address { s.table address with metatable := some metatable }
    | _ => raiseArgument stack called 2 ("nil or table expected, got " ++ argumentType args 2)
    return [.table address]
  | .floor =>
    match (args.head?).bind Number.ofValue? with
    | some v => pure [Number.floor v]
    | none => raiseArgument stack called 1 ("number expected, got " ++ argumentType args 1)
  | .refuse => raiseAtLevel stack 0 "refused"
  | .pcall | .ipairsStep | .other _ => pure []

/-- The next entry of a traversal whose key still has a value. -/
def advanceCursor (s : State) (address : Nat) : List Value → List Value × List Value
  | [] => ([.nil], [])
  | key :: rest =>
    let value := s.rawGet address key
    if value.isNil then advanceCursor s address rest else ([key, value], rest)

def stepCursor (cursor : Nat) (args : List Value) : Eval (List Value) :=
  Eval.update fun s =>
    match args with
    | .table address :: _ =>
      let (found, rest) := advanceCursor s address (s.cursors[cursor]?.getD [])
      (found, { s with cursors := s.cursors.setIfInBounds cursor rest })
    | _ => ([.nil], s)

/-- Number of rounds of a counting loop over integers; none when it does not run. -/
def rounds (first last step : Int) : Nat :=
  if step > 0 then (if first > last then 0 else ((last - first) / step).toNat + 1)
  else (if first < last then 0 else ((first - last) / -step).toNat + 1)

/-- The last integer a counting loop over integers may reach, its bound being any number. -/
def integerBound (last : Value) (ascending : Bool) : Option Int :=
  match last with
  | .int i => some i.toInt
  | .float x =>
    match Binary64.ofFloat x with
    | .nan => none
    | .infinite negative => some (if negative then Int64.minValue.toInt else Int64.maxValue.toInt)
    | .finite negative mantissa exponent =>
      let (num, den) := Binary64.magnitude mantissa exponent
      let signed : Int := if negative then -num else num
      some (if ascending then signed / (den : Int) else -(-signed / (den : Int)))
  | _ => none

/-- The control values of a counting loop. -/
inductive Counting where
  | ints (first step : Int64) (rounds : Nat)
  | floats (first last step : Float)

def countingOf (first last step : Value) (line : Nat) : Eval Counting :=
  let bad {α : Type} (what : String) (v : Value) : Eval α :=
    raiseAt line ("bad 'for' " ++ what ++ " (number expected, got " ++ operandType v ++ ")")
  match first, step with
  | .int i, .int d =>
    if d = 0 then raiseAt line "'for' step is zero"
    else if !isNumber last then bad "limit" last
    else
      match integerBound last (d > 0) with
      | some bound => pure (.ints i d (rounds i.toInt bound d.toInt))
      | none => pure (.ints i d 0)
  | _, _ =>
    match Number.toFloat? last, Number.toFloat? step, Number.toFloat? first with
    | none, _, _ => bad "limit" last
    | _, none, _ => bad "step" step
    | _, _, none => bad "initial value" first
    | some b, some d, some a =>
      if d == 0 then raiseAt line "'for' step is zero" else pure (.floats a b d)

mutual

/-- Calls a value. `named` describes the callee in a complaint that it cannot be called. -/
def callValue : Nat → Value → List Value → CallStack → Nat → Option (String × String) →
    Eval (List Value)
  | 0, _, _, _, _, _ => .stop .exhausted
  | fuel + 1, callee, args, stack, depth, named =>
    match callee with
    | .function (.closure address) => do
      let closure ← Eval.read fun s => s.closures[address]?.getD ⟨default, []⟩
      if depth ≥ depthLimit then raiseAtLevel stack 1 "stack overflow"
      else
        let params := closure.code.params
        let locals ← bindNames params args []
        let varargs := if closure.code.variadic then args.drop params.length else []
        let frame : Frame := ⟨locals, closure.captured, varargs, stack, depth + 1⟩
        match (← runBlock fuel frame closure.code.body).1 with
        | .leave values => return values
        | _ => return []
    | .function (.published index) => do
      goOn stack (← Eval.operation index args (stack.headD none))
    | .function (.probe address) => do
      match ← Eval.read fun s => s.probes[address]? with
      | some probe =>
        Eval.change fun s => s.record (.ran probe.name args.length)
        runSteps fuel probe.steps stack depth
        return []
      | none => return []
    | .function (.cursor address) => stepCursor address args
    | .function (.library .pcall) =>
      match args with
      | [] => raiseAtLevel stack 0 "not enough arguments to pcall"
      | f :: rest => do
        match ← (callValue fuel f rest (none :: stack) (depth + nativeDepth) none).caught with
        | .ok values => return .bool true :: values
        | .error (.raised value line) => do
          -- a panic can be caught like anything that is raised, the end of the program cannot
          if (← Eval.read State.collapse) = some .abort then .stop (.raised value line)
          else
            Eval.change fun s => { s with collapse := none }
            return [.bool false, value]
        | .error fault => .stop fault
    | .function (.library .ipairsStep) =>
      match args with
      | object :: .int i :: _ => do
        let value ← lookup fuel object (.int (i + 1)) (none :: stack) depth ""
        return if value.isNil then [.nil] else [.int (i + 1), value]
      | _ => return [.nil]
    | .function (.library f) =>
      library f args stack (named.elim f.name Prod.snd)
    | v => raiseAtLevel stack 1 ("attempt to call a " ++ operandType v ++ " value" ++ about named)
termination_by structural fuel => fuel

/-- Carries out the steps of a recording native function. -/
def runSteps : Nat → List (Step Recipe) → CallStack → Nat → Eval Unit
  | 0, _, _, _ => .stop .exhausted
  | _, [], _, _ => pure ()
  | fuel + 1, step :: rest, stack, depth => do
    match step with
    | .call path args =>
      let args ← Eval.update (Recipe.buildAll args)
      let result ← callPath fuel path args (none :: stack) (depth + nativeDepth)
      Eval.change fun s => s.record (.called path result)
    | .set name value =>
      let value ← Eval.update value.build
      Eval.change fun s => s.setGlobal name value
    | .fail message => .stop (.raised (.error message) (innermost stack))
    runSteps fuel rest stack depth
termination_by structural fuel => fuel

/-- Calls what a path from the globals leads to, and notes how that ended. -/
def callPath : Nat → String → List Value → CallStack → Nat → Eval CallResult
  | 0, _, _, _, _ => .stop .exhausted
  | fuel + 1, path, args, stack, depth => do
    match ← Eval.read fun s => s.atPath path with
    | .function f =>
      match ← (callValue fuel (.function f) args stack depth none).caught with
      | .ok values =>
        Eval.read fun s => .returned (values.map (View.of s))
      | .error .exhausted => .stop .exhausted
      | .error fault => do
        if (← Eval.read State.collapse).isSome then .stop fault else return .raised fault.message
    | _ => return .notFunction
termination_by structural fuel => fuel

/-- Looks up a key in a value, with the help of what stands in for missing keys. -/
def lookup : Nat → Value → Value → CallStack → Nat → String → Eval Value
  | 0, _, _, _, _, _ => .stop .exhausted
  | fuel + 1, object, key, stack, depth, aboutObject => do
    match ← Eval.read fun s => s.lookup key State.lookupLimit object with
    | .found value => return value
    | .ask f asked =>
      return (← callValue fuel (.function f) [asked, key] stack (depth + nativeDepth) none).headD .nil
    | .notIndexable v =>
      let about := match object with
        | .table _ => ""
        | _ => aboutObject
      raiseAtLevel stack 1 ("attempt to index a " ++ operandType v ++ " value" ++ about)
    | .endless => raiseAtLevel stack 1 "'__index' chain too long; possibly a loop"
termination_by structural fuel => fuel

/-- The single value of an expression. -/
def eval : Nat → Frame → Expr → Eval Value
  | 0, _, _ => .stop .exhausted
  | fuel + 1, frame, e =>
    match e with
    | .nil => pure .nil
    | .bool b => pure (.bool b)
    | .int i => pure (.int i)
    | .float x => pure (.float x)
    | .str b => pure (.str b)
    | .varargs => pure (frame.varargs.headD .nil)
    | .name n =>
      match frame.resolve n with
      | .local cell | .captured cell => .read fun s => s.cell cell
      | .global => lookup fuel (.table State.globals) (.text n) frame.callers frame.depth ""
    | .index object key line => do
      let o ← eval fuel frame object
      let k ← eval fuel frame key
      lookup fuel o k (some line :: frame.callers) frame.depth (aboutExpr frame object)
    | .call _ _ _ | .method _ _ _ _ _ => do return (← call fuel frame e false).headD .nil
    | .function f => do
      let address ← Eval.update fun s => s.newClosure ⟨f, frame.locals ++ frame.captured⟩
      return .function (.closure address)
    | .binary op left right line => do
      let v ← eval fuel frame left
      let w ← eval fuel frame right
      binary op v w line (aboutExpr frame left) (aboutExpr frame right)
    | .and left right => do
      let v ← eval fuel frame left
      if v.truthy then eval fuel frame right else return v
    | .or left right => do
      let v ← eval fuel frame left
      if v.truthy then return v else eval fuel frame right
    | .unary op operand line => do
      let v ← eval fuel frame operand
      unary op v line (aboutExpr frame operand)
    | .single e => eval fuel frame e
    | .table fields => do
      let address ← Eval.update fun s => s.newTable .empty
      let items ← evalFields fuel frame address fields
      Eval.change fun s => s.setTable address
        ((items.zipIdx 1).foldl (fun t (v, i) => t.set (.int (Int64.ofNat i)) v) (s.table address))
      return .table address
termination_by structural fuel => fuel

/-- Fills the keyed fields of a new table and gives the values of the others in order. -/
def evalFields : Nat → Frame → Nat → List Field → Eval (List Value)
  | 0, _, _, _ => .stop .exhausted
  | _, _, _, [] => pure []
  | fuel + 1, frame, address, field :: rest => do
    match field with
    | .item e =>
      if rest.isEmpty then evalMany fuel frame e
      else
        let v ← eval fuel frame e
        return v :: (← evalFields fuel frame address rest)
    | .keyed key value line =>
      let k ← eval fuel frame key
      let v ← eval fuel frame value
      storeAt address k v line
      evalFields fuel frame address rest
termination_by structural fuel => fuel

/-- All values of an expression. -/
def evalMany : Nat → Frame → Expr → Eval (List Value)
  | 0, _, _ => .stop .exhausted
  | fuel + 1, frame, e =>
    match e with
    | .call _ _ _ | .method _ _ _ _ _ => call fuel frame e false
    | .varargs => pure frame.varargs
    | e => do return [← eval fuel frame e]
termination_by structural fuel => fuel

/-- The values of a list of expressions; only the last may yield more or fewer than one. -/
def evalAll : Nat → Frame → List Expr → Eval (List Value)
  | 0, _, _ => .stop .exhausted
  | _, _, [] => pure []
  | fuel + 1, frame, e :: rest => do
    if rest.isEmpty then evalMany fuel frame e
    else
      let v ← eval fuel frame e
      return v :: (← evalAll fuel frame rest)
termination_by structural fuel => fuel

/-- Evaluates a call. A call in tail position takes the place of its function on the stack. -/
def call : Nat → Frame → Expr → Bool → Eval (List Value)
  | 0, _, _, _ => .stop .exhausted
  | fuel + 1, frame, e, tail =>
    match e with
    | .call callee args line => do
      let f ← eval fuel frame callee
      let args ← evalAll fuel frame args
      dispatch fuel frame f args line tail (nameOf? frame callee)
    | .method object name args lookupLine line => do
      let o ← eval fuel frame object
      let callers := some lookupLine :: frame.callers
      let f ← lookup fuel o (.text name) callers frame.depth (aboutExpr frame object)
      let args ← evalAll fuel frame args
      dispatch fuel frame f (o :: args) line tail (some ("method", name))
    | e => do return [← eval fuel frame e]
termination_by structural fuel => fuel

def dispatch : Nat → Frame → Value → List Value → Nat → Bool → Option (String × String) →
    Eval (List Value)
  | 0, _, _, _, _, _, _ => .stop .exhausted
  | fuel + 1, frame, f, args, line, tail, named =>
    match tail, f with
    | true, .function (.closure _) => callValue fuel f args frame.callers (frame.depth - 1) named
    | _, _ => callValue fuel f args (some line :: frame.callers) frame.depth named
termination_by structural fuel => fuel

/-- The places a list of targets denotes. -/
def places : Nat → Frame → List Expr → Eval (List Place)
  | 0, _, _ => .stop .exhausted
  | _, _, [] => pure []
  | fuel + 1, frame, target :: rest => do
    let place : Place ← match target with
      | .name n => match frame.resolve n with
        | .local cell | .captured cell => pure (.cell cell)
        | .global => pure (.global n)
      | .index object key _ => do
        let o ← eval fuel frame object
        let k ← eval fuel frame key
        pure (.slot o k (aboutExpr frame object))
      | _ => pure (.global "")
    return place :: (← places fuel frame rest)
termination_by structural fuel => fuel

/-- Runs the statements of a block; names they declare are in the resulting frame. -/
def runBlock : Nat → Frame → List Stat → Eval (Flow × Frame)
  | 0, _, _ => .stop .exhausted
  | _, frame, [] => pure (.next, frame)
  | fuel + 1, frame, stat :: rest => do
    let (flow, after) ← run fuel frame stat
    match flow with
    | .next => runBlock fuel after rest
    | flow => return (flow, after)
termination_by structural fuel => fuel

/-- Runs one statement. -/
def run : Nat → Frame → Stat → Eval (Flow × Frame)
  | 0, _, _ => .stop .exhausted
  | fuel + 1, frame, stat =>
    match stat with
    | .declare names values => do
      let values ← evalAll fuel frame values
      return (.next, { frame with locals := ← bindNames names values frame.locals })
    | .assign targets values line => do
      let targets ← places fuel frame targets
      let values ← evalAll fuel frame values
      storeAll (targets.zip (values ++ List.replicate targets.length .nil)).reverse line
      return (.next, frame)
    | .call e => do
      discard (call fuel frame e false)
      return (.next, frame)
    | .block body => do return ((← runBlock fuel frame body).1, frame)
    | .while condition body => do return (← whileLoop fuel frame condition body, frame)
    | .repeat body condition => do return (← repeatLoop fuel frame body condition, frame)
    | .ifElse condition whenTrue whenFalse => do
      let chosen := if (← eval fuel frame condition).truthy then whenTrue else whenFalse
      return ((← runBlock fuel frame chosen).1, frame)
    | .count name first last step body line => do
      let first ← eval fuel frame first
      let last ← eval fuel frame last
      let step ← match step with
        | some e => eval fuel frame e
        | none => pure (.int 1)
      match ← countingOf first last step line with
      | .ints i d rounds => return (← countInts fuel frame name body i d rounds, frame)
      | .floats a b d => return (← countFloats fuel frame name body a b d, frame)
    | .each names source body line => do
      let values ← evalAll fuel frame source
      let object := values[1]?.getD .nil
      let control := values[2]?.getD .nil
      return (← eachLoop fuel frame names body (values.headD .nil) object control line, frame)
    | .declareFunction name f => do
      let cell ← Eval.update fun s => s.newCell .nil
      let frame := { frame with locals := (name, cell) :: frame.locals }
      let v ← eval fuel frame (.function f)
      Eval.change fun s => s.setCell cell v
      return (.next, frame)
    | .returns [e] =>
      match e with
      | .call _ _ _ | .method _ _ _ _ _ => do return (.leave (← call fuel frame e true), frame)
      | e => do return (.leave (← evalMany fuel frame e), frame)
    | .returns values => do return (.leave (← evalAll fuel frame values), frame)
    | .breaks => pure (.leaveLoop, frame)
termination_by structural fuel => fuel

def whileLoop : Nat → Frame → Expr → List Stat → Eval Flow
  | 0, _, _, _ => .stop .exhausted
  | fuel + 1, frame, condition, body => do
    if (← eval fuel frame condition).truthy then
      match (← runBlock fuel frame body).1 with
      | .next => whileLoop fuel frame condition body
      | .leaveLoop => return .next
      | flow => return flow
    else return .next
termination_by structural fuel => fuel

/-- The condition of a repetition sees the names its body declares. -/
def repeatLoop : Nat → Frame → List Stat → Expr → Eval Flow
  | 0, _, _, _ => .stop .exhausted
  | fuel + 1, frame, body, condition => do
    let (flow, inner) ← runBlock fuel frame body
    match flow with
    | .next =>
      if (← eval fuel inner condition).truthy then return .next
      else repeatLoop fuel frame body condition
    | .leaveLoop => return .next
    | flow => return flow
termination_by structural fuel => fuel

def countInts : Nat → Frame → String → List Stat → Int64 → Int64 → Nat → Eval Flow
  | 0, _, _, _, _, _, _ => .stop .exhausted
  | _, _, _, _, _, _, 0 => pure .next
  | fuel + 1, frame, name, body, i, step, rounds + 1 => do
    let locals ← bindNames [name] [.int i] frame.locals
    match (← runBlock fuel { frame with locals } body).1 with
    | .next => countInts fuel frame name body (i + step) step rounds
    | .leaveLoop => return .next
    | flow => return flow
termination_by structural fuel => fuel

def countFloats : Nat → Frame → String → List Stat → Float → Float → Float → Eval Flow
  | 0, _, _, _, _, _, _ => .stop .exhausted
  | fuel + 1, frame, name, body, x, last, step => do
    if (step > 0 && x ≤ last) || (step < 0 && last ≤ x) then
      let locals ← bindNames [name] [.float x] frame.locals
      match (← runBlock fuel { frame with locals } body).1 with
      | .next => countFloats fuel frame name body (x + step) last step
      | .leaveLoop => return .next
      | flow => return flow
    else return .next
termination_by structural fuel => fuel

def eachLoop : Nat → Frame → List String → List Stat → Value → Value → Value → Nat → Eval Flow
  | 0, _, _, _, _, _, _, _ => .stop .exhausted
  | fuel + 1, frame, names, body, step, object, control, line => do
    let values ← callValue fuel step [object, control] (some line :: frame.callers) frame.depth
      (some ("for iterator", "for iterator"))
    let first := values.headD .nil
    if first.isNil then return .next
    else
      let locals ← bindNames names values frame.locals
      match (← runBlock fuel { frame with locals } body).1 with
      | .next => eachLoop fuel frame names body step object first line
      | .leaveLoop => return .next
      | flow => return flow
termination_by structural fuel => fuel

end

/-- Steps allowed to one entry into guest code. -/
def allowance : Nat := 1000000000

/-- Loads a source and runs it. -/
def execute (source : String) (s : State) : Run (List Value) :=
  match Parser.parse source with
  | .error message => .finished (.error (.malformed message)) s
  | .ok body =>
    let (address, s) := s.newClosure ⟨body, []⟩
    callValue allowance (.function (.closure address)) [] [] 0 none s

/-- Calls a function from the host. A published operation is called as it is, with no guest code around it that a
collapse would have to leave. -/
def apply (f : Function) (args : List Value) : State → Run (List Value) :=
  match f with
  | .published index => (do return [← Eval.operation index args none] : Eval (List Value))
  | f => callValue allowance (.function f) args [] 0 none

/-- Looks up a key from the host. -/
def index (address : Nat) (key : Value) (s : State) : Run Value :=
  lookup allowance (.table address) key [none] 0 "" s

end Interpreter

/-- The guest language as the bridge uses it. -/
def Engine.standard : Engine := ⟨Interpreter.execute, Interpreter.apply, Interpreter.index⟩

end ScriptBridge.Guest
