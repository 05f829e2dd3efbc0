import ScriptBridge.Invocation

/-! A guest environment: a memory with everything published into it, and the answers to the calls its
code makes. Looking something up in a table may run guest code in the middle of a call; such code is
answered too, to a fixed number of calls inside one another, beyond which a lookup finds nothing. -/

namespace ScriptBridge

/-- What stays the same however often an environment is rebuilt. -/
structure Embedding (σ : Type) where
  engine : Guest.Engine
  host : Host σ
  /-- Completion waits are looked at by checkers rather than by the owner's polls. -/
  hasCheckers : Bool

structure Environment (σ : Type) where
  registry : Registry σ
  session : Session σ

namespace Environment

variable {σ : Type}

/-- Calls inside one another that are answered. -/
def nestingLimit : Nat := 200

/-- Looks things up through guest code and asks the application for objects. -/
def access (e : Embedding σ) (answer : Answer σ) : Access (SessionM σ) where
  machine := e.host.machine
  lookup address key := do
    match ← Session.runGuest answer (e.engine.index address key) with
    | .ok value => return value
    | .error _ => return .nil
  entity name := Session.askHost (e.host.constructEntity name)

/-- Finds nothing and runs nothing. -/
def blindAccess (e : Embedding σ) : Access (SessionM σ) where
  machine := e.host.machine
  lookup _ _ := return .nil
  entity name := Session.askHost (e.host.constructEntity name)

/-- Answers a call of a published operation with a way to look things up inside it. -/
def answerThrough (e : Embedding σ) (registry : Registry σ) (inside : Access (SessionM σ)) : Answer σ :=
  fun operation args line =>
    match registry.published[operation]? with
    | none => return .nil
    | some (signature, handler) => Invocation.invoke e.host inside registry signature handler args line

/-- Answers a call; so many more calls may be made inside it, one inside another. -/
def answerWithin (e : Embedding σ) (registry : Registry σ) : Nat → Answer σ
  | 0 => answerThrough e registry (blindAccess e)
  | depth + 1 => answerThrough e registry (access e (answerWithin e registry depth))

def answer (e : Embedding σ) (registry : Registry σ) : Answer σ := answerWithin e registry nestingLimit

/-! ### Building -/

/-- Everything published: the built-in operations, then the application's. -/
def operations (host : Host σ) (root : String) : List (Operation (Handler σ)) :=
  (Builtin.all.map fun b => ⟨b.signature root, some (.builtin b)⟩) ++
    host.operations.map fun o => ⟨o.signature, o.handler.map .host⟩

/-- Publishes operations one after another; counts those accepted. -/
def publish : List (Operation (Handler σ)) → Registry σ → Guest.State →
    Log × Nat × Registry σ × Guest.State
  | [], registry, memory => ([], 0, registry, memory)
  | operation :: rest, registry, memory =>
    let remarks := registry.registerRemarks operation
    let (accepted, registry, memory) := registry.register operation memory
    let (log, count, registry, memory) := publish rest registry memory
    (remarks ++ log, (if accepted then 1 else 0) + count, registry, memory)

/-- Publishes the settings and the mark for "no position". -/
def publishValues (config : Config) (memory : Guest.State) : Guest.State :=
  let memory := memory.setGlobal "_TypeChecking" (.bool config.typeChecking)
  let memory := memory.setGlobal "_AutoConvert" (.bool config.autoConvert)
  let memory := memory.setGlobal "_LogConversions" (.bool config.logConversions)
  let memory := memory.setGlobal "_WarnOnKindMismatch" (.bool config.warnOnKindMismatch)
  let (invalid, memory) := (Value.coord .invalid).toGuest memory
  Registry.bindAt (Text.splitAt '.' (qualify config.root "InvalidCoord")) invalid memory

/-- A fresh environment around an application's state and a journal, if there is room for its call history. -/
def build (e : Embedding σ) (config : Config) (application : HostState σ) (now : Nat)
    (journal : Array LogEntry) : Environment σ :=
  let (log, count, registry, memory) :=
    publish (operations e.host config.root) (Registry.new config) Guest.State.initial
  let memory := registry.publishIntrospection (publishValues config memory)
  let bridge : Bridge σ := ⟨.new config e.hasCheckers, application, now, journal⟩
  let summary :=
    "Environment built with " ++ toString count ++ " operation(s) under '" ++ config.root ++ "'"
  ⟨registry, memory, bridge.note (Context.newRemarks config ++ log ++ [.debug summary])⟩

/-- What comes of asking for the room a fresh environment needs. -/
def reserve (e : Embedding σ) (config : Config) : Option Collapse :=
  CallHistory.reserve e.host.machine config.historyCapacity.toNat

/-! ### Calls from outside -/

/-- Calls what a path from the globals leads to. -/
def callPath (e : Embedding σ) (registry : Registry σ) (path : String) (args : List Guest.Value) :
    SessionM σ Guest.CallResult := do
  match (← get).memory.atPath path with
  | .function f =>
    match ← Session.runGuest (answer e registry) (e.engine.apply f args) with
    | .ok values =>
      let memory := (← get).memory
      return .returned (values.map (Guest.View.of memory))
    | .error fault => return .raised fault.message
  | _ => return .notFunction

end Environment
end ScriptBridge
