import ScriptBridge.Bridge
import ScriptBridge.Conversion.ToHost
import ScriptBridge.Registry
import ScriptBridge.Text.Quoted

/-! A call of a published operation. Arguments that cannot be converted give way to sentinels, and when the
operation fails its caller gets the sentinel of the return kind while the failure goes to the journal and the
error surface. Only when the host collapses over an argument there is neither: what the call was to do is not
done, and the collapse goes on through the guest code that made it. -/

namespace ScriptBridge.Invocation

variable {σ : Type}

open Session (note)

/-- The type of an argument in the call history. -/
def argumentType : Guest.Value → String
  | .handle h _ => h.kind
  | v => v.shapeName

def argumentTypes (args : List Guest.Value) : String :=
  if args.isEmpty then "No arguments" else ", ".intercalate (args.map argumentType)

/-- An argument as the journal shows it. -/
def argumentText : Guest.Value → String
  | .nil => "nil"
  | .bool b => if b then "true" else "false"
  | .int i => toString i.toInt
  | .float x => Decimal.text x
  | .str b => Text.quote (Text.ofBytes b)
  | .handle h _ => h.display
  | v => "<" ++ v.shapeName ++ ">"

def argumentTexts (args : List Guest.Value) : String := ", ".intercalate (args.map argumentText)

/-- The kind an argument is converted to. -/
def targetKind (registry : Registry σ) (p : Parameter) : Kind :=
  if registry.typeChecking then p.kind else .any

/-- Converts a guest value to a kind, asking for what is needed beside it. -/
def convert (access : Access (SessionM σ)) (options : ConversionOptions) (kind : Kind)
    (value : Guest.Value) : SessionM σ (Except ConversionError Value) := do
  let evidence ← access.evidence kind value
  let conversion := Conversion.convert options (Reading.of (← get).memory) kind evidence value
  note conversion.log
  return conversion.result

/-- Looks things up only for as long as nothing has changed about a collapse. -/
def heeding (access : Access (SessionM σ)) (before : Option Collapse) : Access (SessionM σ) where
  machine := access.machine
  lookup address key := do
    if (← get).memory.collapse = before then access.lookup address key else return .nil
  entity := access.entity

/-- Ends a conversion with what was asked for, if the host has not collapsed since and there is room. -/
def settle (machine : Machine) (options : ConversionOptions) (before : Option Collapse) (kind : Kind)
    (value : Guest.Value) (evidence : Evidence) : SessionM σ (Option (Except ConversionError Value)) := do
  let memory := (← get).memory
  if memory.collapse ≠ before then return none
  match Conversion.attempt machine options (Reading.of memory) kind evidence value with
  | .error collapse => Session.onMemory fun s => (none, s.collapseWith collapse)
  | .ok conversion =>
    note conversion.log
    return some conversion.result

/-- Converts a guest value to a kind, none when the host collapses over it: guest code that was asked may have made
a call in which it did, or there is no room. -/
def attempt (access : Access (SessionM σ)) (options : ConversionOptions) (kind : Kind) (value : Guest.Value) :
    SessionM σ (Option (Except ConversionError Value)) := do
  let before := (← get).memory.collapse
  let evidence ← (heeding access before).evidence kind value
  settle access.machine options before kind value evidence

/-- Converts a value that was passed. -/
def convertArgument (access : Access (SessionM σ)) (registry : Registry σ) (signature : Signature)
    (p : Parameter) (value : Guest.Value) : SessionM σ (Option Value) := do
  match ← attempt access registry.options (targetKind registry p) value with
  | none => return none
  | some (.ok converted) => return some converted
  | some (.error fault) =>
    note [.warn (signature.name ++ ": argument '" ++ p.name ++ "' not converted: " ++ fault.message)]
    return some (.sentinel p.kind)

/-- The value of a parameter: the argument converted, the default of an omitted optional one, or the
sentinel of its kind. -/
def argument (access : Access (SessionM σ)) (registry : Registry σ) (signature : Signature)
    (p : Parameter) : Option Guest.Value → SessionM σ (Option Value)
  | none => do
    if p.isOptional then return some p.omitted
    note [.warn (signature.name ++ ": " ++ (ConversionError.missingArgument p.name).message)]
    return some (.sentinel p.kind)
  | some value =>
    if value.isNil && p.isOptional then return some p.omitted
    else convertArgument access registry signature p value

/-- One value per parameter, by position, and none at all once the host has collapsed; surplus arguments are not
looked at. -/
def arguments (access : Access (SessionM σ)) (registry : Registry σ) (signature : Signature) :
    List Parameter → List Guest.Value → SessionM σ (Option (List Value))
  | [], _ => return some []
  | p :: params, args => do
    match ← argument access registry signature p args.head? with
    | none => return none
    | some value => return (← arguments access registry signature params args.tail).map (value :: ·)

/-! ### Built-in operations -/

def describeRecord (r : CallRecord) : Value :=
  .record [("ArgumentTypes", .str r.argumentTypes), ("Operation", .str r.operation)]

def waitForTicks (args : Arguments) : SessionM σ (Except OperationError Value) := do
  match args.int "ticks", args.callback "callback" with
  | .error fault, _ => return .error fault
  | _, .error fault => return .error fault
  | .ok ticks, .ok callback =>
    let due ← Session.onContext fun c =>
      (c.delays.dueAfter ticks.toInt, c.scheduleDelay ticks.toInt callback)
    note [.debug ("Delay of " ++ toString ticks.toInt ++ " tick(s) due at " ++ toString due)]
    return .ok .nil

def waitForCompletion (host : Host σ) (args : Arguments) : SessionM σ (Except OperationError Value) := do
  match args.callback "callback", args.handle "subject" with
  | .error fault, _ => return .error fault
  | _, .error fault => return .error fault
  | .ok callback, .ok subject =>
    let bridge := (← get).bridge
    match host.watchCompletion subject bridge.application with
    | none => return .error (.nothingPending subject)
    | some flag =>
      note bridge.context.completion.startRemarks
      Session.changeContext fun c => c.startCompletion bridge.now flag callback
      return .ok .nil

def callHistory (args : Arguments) : SessionM σ (Except OperationError Value) := do
  match args.bool "log_as_error" with
  | .error fault => return .error fault
  | .ok asError =>
    let history := (← get).bridge.context.history
    note (history.report asError)
    return .ok (.list (history.records.map describeRecord))

def performBuiltin (host : Host σ) (args : Arguments) : Builtin → SessionM σ (Except OperationError Value)
  | .log level => do
    note [⟨level, .guest, (args.get "message").display⟩]
    return .ok .nil
  | .getType => return .ok (.str (args.get "value").typeName)
  | .createCoord => return (args.coord "input").map .coord
  | .toTarget => return (args.target "target").map .target
  | .isValid => return .ok (.bool (Builtin.guestValid (args.get "value")))
  | .waitForTicks => waitForTicks args
  | .waitForCompletion => waitForCompletion host args
  | .callHistory => callHistory args

def perform (host : Host σ) (args : Arguments) : Handler σ → SessionM σ (Except OperationError Value)
  | .builtin b => performBuiltin host args b
  | .host run => Session.askHost (run args)

/-! ### The call as a whole -/

/-- Puts the call into the history, unless it is to leave no trace. -/
def record (signature : Signature) (args : List Guest.Value) : SessionM σ Unit := do
  if !signature.isExcluded then
    Session.changeContext fun c => c.recordCall ⟨signature.baseName, argumentTypes args⟩
    note [.debug (signature.baseName ++ "(" ++ argumentTexts args ++ ")")]

/-- Brings a failure to the journal and the surface. -/
def reportFailure (signature : Signature) (args : List Guest.Value) (line : Option Nat)
    (fault : OperationError) : SessionM σ Unit := do
  if !signature.isExcluded then
    note [.debug (signature.baseName ++ " failed with arguments (" ++ argumentTexts args ++ ")")]
  let message := "Error in " ++ signature.name ++ ": " ++ fault.message
  let line : Option Int := (line.filter (· > 0)).map Int.ofNat
  note [.error message]
  note ((← get).bridge.context.captureRemarks .hostOperation message line)
  Session.changeContext fun c => c.reportHostError message line

/-- Performs the operation and converts what it gives back. -/
def carryOut (host : Host σ) (signature : Signature) (handler : Handler σ) (args : List Guest.Value)
    (line : Option Nat) (values : List Value) : SessionM σ Guest.Value := do
  match ← perform host ⟨signature.params, values⟩ handler with
  | .ok value => Session.onMemory value.toGuest
  | .error fault =>
    reportFailure signature args line fault
    Session.onMemory (Value.sentinel signature.returns).toGuest

/-- A call: it is recorded, its arguments are converted, and it is carried out. When the host collapses over the
arguments nobody is there to take the value. -/
def invoke (host : Host σ) (access : Access (SessionM σ)) (registry : Registry σ) (signature : Signature)
    (handler : Handler σ) (args : List Guest.Value) (line : Option Nat) : SessionM σ Guest.Value := do
  record signature args
  match ← arguments access registry signature signature.params args with
  | none => return .nil
  | some values => carryOut host signature handler args line values

end ScriptBridge.Invocation
