import ScriptBridge.Text.Lines
import ScriptBridge.Value

/-! Signatures of host operations: what a host declares before guest code may call an operation. A
signature is accepted when its name is a dotted path of identifiers, its parameters have different
names, only optional ones carry defaults, and the required ones come first. -/

namespace ScriptBridge

structure Parameter where
  name : String
  kind : Kind
  isOptional : Bool
  /-- Value of an omitted argument; nil when there is none. -/
  default : Option Value

namespace Parameter

def required (name : String) (kind : Kind) : Parameter := ⟨name, kind, false, none⟩

def optional (name : String) (kind : Kind) : Parameter := ⟨name, kind, true, none⟩

def withDefault (name : String) (kind : Kind) (default : Value) : Parameter :=
  ⟨name, kind, true, some default⟩

def defaultText (p : Parameter) : String := p.default.elim "nil" Value.display

/-- The value of an omitted argument. -/
def omitted (p : Parameter) : Value := p.default.getD .nil

/-- A parameter as a listing shows it. -/
def display (p : Parameter) : String :=
  p.name ++ ": " ++ p.kind.display ++ (if p.isOptional then " = " ++ p.defaultText else "")

end Parameter

structure Signature where
  /-- Dotted path from the guest's globals. -/
  name : String
  params : List Parameter
  returns : Kind
  /-- Calls leave no trace in the call history. -/
  isExcluded : Bool

namespace Signature

/-- The segments of the name. -/
def path (s : Signature) : List String := Text.splitAt '.' s.name

/-- The last segment of the name. -/
def baseName (s : Signature) : String := s.path.getLast?.getD s.name

def display (s : Signature) : String :=
  s.name ++ "(" ++ ", ".intercalate (s.params.map Parameter.display) ++ ") -> " ++ s.returns.display

end Signature

/-- Why a signature was rejected. -/
inductive RegistrationError where
  | missingCallable (name : String)
  | invalidName (name : String)
  | duplicateParameter (name param : String)
  | requiredAfterOptional (name param : String)
  | defaultOnRequired (name param : String)
deriving DecidableEq, Repr

def RegistrationError.message : RegistrationError → String
  | missingCallable name => "operation '" ++ name ++ "' has no callable attached"
  | invalidName name => "'" ++ name ++ "' is not a valid qualified operation name"
  | duplicateParameter name param =>
    "operation '" ++ name ++ "' declares parameter '" ++ param ++ "' more than once"
  | requiredAfterOptional name param =>
    "operation '" ++ name ++ "': required parameter '" ++ param ++ "' follows an optional one"
  | defaultOnRequired name param =>
    "operation '" ++ name ++ "': parameter '" ++ param ++ "' has a default but is not optional"

/-- A signature with what carries out its calls, if anything was attached. -/
structure Operation (α : Type) where
  signature : Signature
  handler : Option α

namespace Operation

def isIdentifierStart (c : Char) : Bool := c.isAlpha || c = '_'

/-- A letter or underscore followed by letters, digits and underscores, all ASCII. -/
def isIdentifier : List Char → Bool
  | [] => false
  | first :: rest => isIdentifierStart first && rest.all fun c => isIdentifierStart c || c.isDigit

def isQualifiedName (name : String) : Bool := (Text.pieces '.' name.toList).all isIdentifier

/-- The first rule broken by the parameters from some position on, given the names before it and
whether an optional one was among them. -/
def findParameterFault (name : String) : List String → Bool → List Parameter → Option RegistrationError
  | _, _, [] => none
  | earlier, optionalSeen, p :: rest =>
    if earlier.contains p.name then some (.duplicateParameter name p.name)
    else if p.default.isSome && !p.isOptional then some (.defaultOnRequired name p.name)
    else if optionalSeen && !p.isOptional then some (.requiredAfterOptional name p.name)
    else findParameterFault name (p.name :: earlier) (optionalSeen || p.isOptional) rest

/-- Checks the name, then each parameter in order, then that something is attached. -/
def validate {α : Type} (operation : Operation α) : Except RegistrationError (Signature × α) :=
  let signature := operation.signature
  if !isQualifiedName signature.name then .error (.invalidName signature.name)
  else match findParameterFault signature.name [] false signature.params with
    | some fault => .error fault
    | none =>
      match operation.handler with
      | some handler => .ok (signature, handler)
      | none => .error (.missingCallable signature.name)

end Operation
end ScriptBridge
