import ScriptBridge.Builtin
import ScriptBridge.Config
import ScriptBridge.Conversion.ToGuest
import ScriptBridge.Host

/-! What is published to guest code. Every accepted registration gets a number; the function bound to
its name carries that number, so a function keeps its meaning when its name is registered again. The
listing holds one signature per name, the latest, in order of first acceptance. -/

namespace ScriptBridge

/-- What carries out an operation: the bridge itself or the application. -/
inductive Handler (σ : Type) where
  | builtin (b : Builtin)
  | host (run : HostHandler σ)

structure Registry (σ : Type) where
  /-- Path of the bridge's own table. -/
  root : String
  typeChecking : Bool
  options : ConversionOptions
  signatures : List Signature
  /-- Accepted registrations by number. -/
  published : Array (Signature × Handler σ)

namespace Registry

variable {σ : Type}

def new (config : Config) : Registry σ :=
  ⟨config.root, config.typeChecking, config.conversionOptions, [], #[]⟩

/-- Puts a signature into a listing, in place of one of the same name. -/
def enlist (signature : Signature) : List Signature → List Signature
  | [] => [signature]
  | s :: rest => if s.name = signature.name then signature :: rest else s :: enlist signature rest

/-- Binds a function to a path from the globals; tables on the way are made as needed. -/
def bindAt (path : List String) (value : Guest.Value) (memory : Guest.State) : Guest.State :=
  let (address, memory) := memory.tableAlong Guest.State.globals path.dropLast
  memory.rawSet address (.text (path.getLast?.getD "")) value

/-- Publishes an operation whose signature is accepted. -/
def register? (r : Registry σ) (operation : Operation (Handler σ)) (memory : Guest.State) :
    Except RegistrationError (Registry σ × Guest.State) := do
  let (signature, handler) ← operation.validate
  let function : Guest.Value := .function (.published r.published.size)
  return (
    { r with
      signatures := enlist signature r.signatures
      published := r.published.push (signature, handler) },
    bindAt signature.path function memory)

/-- What the journal says of an accepted operation. -/
def acceptRemarks (r : Registry σ) (signature : Signature) : Log :=
  if r.signatures.any (·.name = signature.name) then
    [.debug ("Re-registered operation: " ++ signature.name)]
  else [.debug ("Registered operation: " ++ signature.display)]

/-- Publishes an operation, or leaves it out when its signature is rejected. -/
def register (r : Registry σ) (operation : Operation (Handler σ)) (memory : Guest.State) :
    Bool × Registry σ × Guest.State :=
  match r.register? operation memory with
  | .ok (r, memory) => (true, r, memory)
  | .error _ => (false, r, memory)

/-- What the journal says of an operation that is offered. -/
def registerRemarks (r : Registry σ) (operation : Operation (Handler σ)) : Log :=
  match operation.validate with
  | .ok (signature, _) => r.acceptRemarks signature
  | .error fault => [.error ("Skipping operation: " ++ fault.message)]

/-! ### Introspection -/

/-- A name without the root in front of it. -/
def introspectionKey (root name : String) : String :=
  if root.isEmpty then name
  else match Text.dropStart? (root ++ ".").toList name.toList with
    | some rest => String.ofList rest
    | none => name

/-- What guest code can read of a parameter. -/
def parameterEntry (p : Parameter) : List (String × Value) := [
  ("ArgName", .str p.name), ("ArgType", .str p.kind.display), ("DefaultValue", .str p.defaultText),
  ("IsOptional", .bool p.isOptional)]

/-- What guest code can read of an operation. -/
def signatureEntry (root : String) (s : Signature) : List (String × Value) := [
  ("Arguments", .list (s.params.map fun p => .record (parameterEntry p))),
  ("Name", .str (introspectionKey root s.name)), ("ReturnType", .str s.returns.display)]

/-- The listing as guest code reads it, by name. -/
def infoTable (r : Registry σ) : Value :=
  .record (Value.fieldsOf (r.signatures.map fun s =>
    (introspectionKey r.root s.name, .record (signatureEntry r.root s))))

/-- The listing as text, a line per operation. -/
def infoText (r : Registry σ) : String := "\n".intercalate (r.signatures.map Signature.display)

/-- Publishes the listing under the root, as a table and as text. -/
def publishIntrospection (r : Registry σ) (memory : Guest.State) : Guest.State :=
  let (info, memory) := r.infoTable.toGuest memory
  let (address, memory) := memory.tableAlong Guest.State.globals (Text.splitAt '.' r.root)
  (memory.rawSet address (.text "MethodsInfoTable") info).rawSet address
    (.text "MethodsInfoString") (.text r.infoText)

end Registry
end ScriptBridge
