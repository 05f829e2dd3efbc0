import ScriptBridge.Conversion.Error
import ScriptBridge.Operation

/-! What an operation sees of a call: one value per parameter, read by name and checked against the
kind the operation wants. -/

namespace ScriptBridge

/-- Why an operation failed. -/
inductive OperationError where
  | invalidArgument (name : String) (expected : Kind) (found : String)
  | conversion (error : ConversionError)
  | panicked
  /-- Nothing to wait for: of a subject, or of the host as a whole. -/
  | nothingPending (subject : Option Handle)
  /-- The operation's own reason. -/
  | refused (reason : String)

def OperationError.message : OperationError → String
  | invalidArgument name expected found =>
    "argument '" ++ name ++ "' expected " ++ expected.display ++ ", got " ++ found
  | conversion error => error.message
  | panicked => "operation panicked"
  | nothingPending (some subject) => subject.display ++ " has no completion to wait for"
  | nothingPending none => "the host has no pending work to wait for"
  | refused reason => reason

structure Arguments where
  params : List Parameter
  values : List Value

namespace Arguments

/-- The value at the position of a named parameter; nil for an unknown name. -/
def get (args : Arguments) (name : String) : Value :=
  match args.params.findIdx? (·.name = name) with
  | some position => args.values[position]?.getD .nil
  | none => .nil

def mismatch {α : Type} (args : Arguments) (name : String) (expected : Kind) : Except OperationError α :=
  .error (.invalidArgument name expected (args.get name).typeName)

def bool (args : Arguments) (name : String) : Except OperationError Bool :=
  match args.get name with
  | .bool b => .ok b
  | _ => args.mismatch name .bool

/-- An integer; a double counts as the nearest one. -/
def int (args : Arguments) (name : String) : Except OperationError Int64 :=
  match args.get name with
  | .int i => .ok i
  | .number x => (roundToInt64 x).mapError .conversion
  | _ => args.mismatch name .int

def number (args : Arguments) (name : String) : Except OperationError Float :=
  match (args.get name).asNumber? with
  | some x => .ok x
  | none => args.mismatch name .number

def string (args : Arguments) (name : String) : Except OperationError String :=
  match (args.get name).asString? with
  | some text => .ok text
  | none => args.mismatch name .string

def coord (args : Arguments) (name : String) : Except OperationError Coord :=
  match args.get name with
  | .coord c => .ok c
  | .target (.cell c) => .ok c
  | _ => args.mismatch name .coord

/-- A target; cells, references and nil count as targets. -/
def target (args : Arguments) (name : String) : Except OperationError Target :=
  match args.get name with
  | .target t => .ok t
  | .coord c => .ok (.cell c)
  | .handle h => .ok (.entity h)
  | .nil => .ok .invalid
  | _ => args.mismatch name .target

/-- A reference, or none for nil. -/
def handle (args : Arguments) (name : String) : Except OperationError (Option Handle) :=
  match args.get name with
  | .handle h => .ok (some h)
  | .nil => .ok none
  | _ => args.mismatch name (.handle none)

def callback (args : Arguments) (name : String) : Except OperationError Guest.Function :=
  match args.get name with
  | .callback f => .ok f
  | _ => args.mismatch name .callback

end Arguments
end ScriptBridge
