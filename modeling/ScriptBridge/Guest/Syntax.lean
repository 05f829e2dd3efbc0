/-! The guest language's programs as trees. Expressions and statements that can fail carry the line a
failure is reported at. Names are resolved when a program runs. -/

namespace ScriptBridge.Guest

inductive BinaryOp where
  | add | sub | mul | div | floorDiv | mod | pow
  | bitAnd | bitOr | bitXor | shiftLeft | shiftRight
  | concat
  | eq | ne | lt | le | gt | ge
deriving DecidableEq, Repr

inductive UnaryOp where
  | neg | not | len | bitNot
deriving DecidableEq, Repr

mutual

inductive Expr where
  | nil
  | bool (b : Bool)
  | int (i : Int64)
  | float (x : Float)
  | str (bytes : ByteArray)
  | varargs
  | name (n : String)
  | index (object key : Expr) (line : Nat)
  | call (callee : Expr) (args : List Expr) (line : Nat)
  | method (object : Expr) (name : String) (args : List Expr) (lookupLine line : Nat)
  | function (f : FunctionBody)
  | binary (op : BinaryOp) (left right : Expr) (line : Nat)
  | and (left right : Expr)
  | or (left right : Expr)
  | unary (op : UnaryOp) (operand : Expr) (line : Nat)
  /-- An expression in parentheses: one value, whatever it yields. -/
  | single (e : Expr)
  | table (fields : List Field)

inductive Field where
  | item (e : Expr)
  | keyed (key value : Expr) (line : Nat)

inductive FunctionBody where
  | mk (params : List String) (variadic : Bool) (body : List Stat)

inductive Stat where
  | declare (names : List String) (values : List Expr)
  | assign (targets values : List Expr) (line : Nat)
  | call (e : Expr)
  | block (body : List Stat)
  | while (condition : Expr) (body : List Stat)
  | repeat (body : List Stat) (condition : Expr)
  | ifElse (condition : Expr) (whenTrue whenFalse : List Stat)
  | count (name : String) (first last : Expr) (step : Option Expr) (body : List Stat) (line : Nat)
  | each (names : List String) (source : List Expr) (body : List Stat) (line : Nat)
  | declareFunction (name : String) (f : FunctionBody)
  | returns (values : List Expr)
  | breaks

end

instance : Inhabited Expr := ⟨.nil⟩
instance : Inhabited FunctionBody := ⟨.mk [] false []⟩

namespace FunctionBody

def params : FunctionBody → List String
  | mk params _ _ => params

def variadic : FunctionBody → Bool
  | mk _ variadic _ => variadic

def body : FunctionBody → List Stat
  | mk _ _ body => body

end FunctionBody
end ScriptBridge.Guest
