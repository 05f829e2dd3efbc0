import ScriptBridge.Environment
import ScriptBridge.SourceUnit

/-! The scheduler runs blocks of guest source against the steps of a host's update loop: at once, on the
next tick, or again and again. Guest code runs only inside these functions. A new submission drops
everything that is still armed or waiting; a guest fault drops it too. -/

namespace ScriptBridge

inductive SchedulerState where
  | idle
  /-- Something is armed or waiting. -/
  | running
  /-- The last attempt failed. -/
  | errorReported
deriving DecidableEq, Repr

def SchedulerState.display : SchedulerState → String
  | idle => "Idle"
  | running => "Running"
  | errorReported => "ErrorReported"

/-- A block to be run again and again. -/
structure Repeating where
  source : String
  /-- Idle ticks from one run to the next, at least one. -/
  every : Nat
  /-- Idle ticks since the last run. -/
  elapsed : Nat
deriving DecidableEq, Repr

structure Scheduler (σ : Type) where
  config : Config
  registry : Registry σ
  session : Session σ
  errorReported : Bool
  /-- Block to run on the next tick. -/
  deferred : Option String
  repeating : Option Repeating

abbrev SchedulerM (σ : Type) := StateM (Scheduler σ)

namespace Scheduler

variable {σ : Type}

def new (e : Embedding σ) (config : Config) (application : HostState σ) : Scheduler σ :=
  let environment := Environment.build e config application 0 #[]
  ⟨config, environment.registry, environment.session, false, none, none⟩

def context (s : Scheduler σ) : Context := s.session.bridge.context

def journal (s : Scheduler σ) : Log := s.session.bridge.journal.toList

def state (s : Scheduler σ) : SchedulerState :=
  if s.errorReported then .errorReported
  else if s.deferred.isSome || s.repeating.isSome || s.context.hasPendingWork then .running
  else .idle

/-! ### Parts -/

def onSession {α : Type} (f : Registry σ → SessionM σ α) : SchedulerM σ α :=
  modifyGet fun ⟨config, registry, session, errorReported, deferred, repeating⟩ =>
    let (a, session) := f registry session
    (a, ⟨config, registry, session, errorReported, deferred, repeating⟩)

def note (entries : Log) : SchedulerM σ Unit := onSession fun _ => Session.note entries

def changeContext (f : Context → Context) : SchedulerM σ Unit :=
  onSession fun _ => Session.changeContext f

/-- The diagnostic of a guest fault and its line, where the diagnostic does not show one itself. -/
def diagnose (fault : Guest.Fault) : String × Option Int :=
  let message := fault.message
  (message, if LineMarker.occursIn message then none else fault.line.map Int.ofNat)

/-- A guest fault ends the run: what is armed or waiting is dropped. -/
def fail (fault : Guest.Fault) : SchedulerM σ Report := do
  let (message, line) := diagnose fault
  note ((← get).context.captureRemarks .guest message line)
  let report ← onSession fun _ => Session.onContext fun c =>
    let (report, c) := c.reportGuestError message line
    (report, c.abortPending)
  if (← get).repeating.isSome then note [.warn "Repeating execution disarmed after error"]
  modify fun s => { s with deferred := none, repeating := none, errorReported := true }
  return report

/-- A block's result on the host's side; what cannot be converted becomes nil. -/
def convertResult (e : Embedding σ) (registry : Registry σ) (value : Guest.Value) : SessionM σ Value := do
  match ← Invocation.convert (Environment.blindAccess e) registry.options .any value with
  | .ok converted => return converted
  | .error fault =>
    Session.note [.warn ("Block result not converted: " ++ fault.message)]
    return .nil

/-- Runs a block as an attempt of its own. -/
def runBlock (e : Embedding σ) (source : String) : SchedulerM σ (Except Report (List Value)) := do
  modify fun s => { s with errorReported := false }
  changeContext fun c => c.beginAttempt source
  note [.info ("Executing block (" ++ toString (Text.lines source).length ++ " line(s))")]
  match ← onSession fun registry =>
      Session.runGuest (Environment.answer e registry) (e.engine.execute source) with
  | .ok values =>
    let converted ← onSession fun registry => values.mapM (convertResult e registry)
    note [.debug ("Block completed (" ++ (← get).state.display ++ ")")]
    return .ok converted
  | .error fault => return .error (← fail fault)

/-- Resumes a continuation. -/
def resume (e : Embedding σ) (label : String) (callback : Guest.Function) : SchedulerM σ Unit := do
  note [.debug ("Resuming guest code from " ++ label)]
  match ← onSession fun registry =>
      Session.runGuest (Environment.answer e registry) (e.engine.apply callback []) with
  | .ok _ => return ()
  | .error fault => discard (fail fault)

/-! ### Submissions -/

/-- Drops everything and builds the environment anew. -/
def stop (e : Embedding σ) : SchedulerM σ Unit := do
  modify fun s =>
    let bridge := s.session.bridge
    let environment := Environment.build e s.config bridge.application bridge.now bridge.journal
    ⟨s.config, environment.registry, environment.session, false, none, none⟩
  note [.info "Execution stopped; environment rebuilt"]

/-- What is said of a submission while a run is active. -/
def misuseMessage (state : String) : String :=
  "execution requested while a run is active (" ++ state ++ "); force-stopping the previous run"

def stopIfRunning (e : Embedding σ) : SchedulerM σ Unit := do
  let state := (← get).state
  if state = .running then
    note [.warn (misuseMessage state.display)]
    stop e

/-- Runs a block now. The environment is kept, so later blocks see what earlier ones defined. -/
def executeBlock (e : Embedding σ) (source : String) : SchedulerM σ (Except Report (List Value)) := do
  stopIfRunning e
  runBlock e source

/-- Runs a block on the next tick. -/
def executeOnce (e : Embedding σ) (source : String) : SchedulerM σ Unit := do
  stopIfRunning e
  modify fun s => { s with deferred := some source }

/-- Runs the contents of units as one block on the next tick. -/
def executeUnits (e : Embedding σ) (units : List SourceUnit) : SchedulerM σ Unit :=
  executeOnce e (SourceUnit.concat units)

/-- Runs a block on the next idle tick and then on every so many of them. -/
def executeRepeating (e : Embedding σ) (source : String) (every : Nat) : SchedulerM σ Unit := do
  stopIfRunning e
  let every := max every 1
  modify fun s => { s with repeating := some ⟨source, every, every - 1⟩ }

/-! ### Ticks -/

/-- Runs the deferred block, if there is one. -/
def runDeferred (e : Embedding σ) : SchedulerM σ Unit := do
  match (← get).deferred with
  | some source =>
    modify fun s => { s with deferred := none }
    discard (runBlock e source)
  | none => return ()

/-- Counts an idle tick and runs the repeated block when its turn has come. -/
def tickRepeating (e : Embedding σ) : SchedulerM σ Unit := do
  let s ← get
  if s.context.hasPendingWork || s.deferred.isSome then return ()
  match s.repeating with
  | none => return ()
  | some r =>
    let elapsed := r.elapsed + 1
    if elapsed < r.every then
      modify fun s => { s with repeating := some { r with elapsed } }
    else
      modify fun s => { s with repeating := some { r with elapsed := 0 } }
      discard (runBlock e r.source)

/-- One step of the delays; a continuation that is due is resumed. -/
def tickDelays (e : Embedding σ) : SchedulerM σ Unit := do
  note (← get).context.advanceRemarks
  match ← onSession fun _ => Session.onContext Context.advanceDelays with
  | some callback => resume e "tick delay" callback
  | none => return ()

/-- One poll of the completion wait. -/
def tickCompletion (e : Embedding σ) (now : Nat) : SchedulerM σ Unit := do
  let board := (← get).session.bridge.application.board
  match ← onSession fun _ => Session.onContext fun c => c.pollCompletion now board.isRaised with
  | some callback => resume e "completion wait" callback
  | none => return ()

/-- One update step of the host at an instant. -/
def tick (e : Embedding σ) (now : Nat) : SchedulerM σ Unit := do
  modify fun s => { s with errorReported := false }
  tickDelays e
  tickCompletion e now
  runDeferred e
  tickRepeating e

/-! ### Collapse -/

/-- A fresh scheduler, if there is room for its environment. -/
def create (e : Embedding σ) (config : Config) (application : HostState σ) : Except Collapse (Scheduler σ) :=
  match Environment.reserve e config with
  | some collapse => .error collapse
  | none => .ok (new e config application)

/-- Takes a step if the program survives it: there has to be room for the environment if it is built anew, and no
collapse may come out of guest code. -/
def attempt {α : Type} (e : Embedding σ) (rebuilds : Bool) (step : SchedulerM σ α) (s : Scheduler σ) :
    Except Collapse (α × Scheduler σ) :=
  match if rebuilds then Environment.reserve e s.config else none with
  | some collapse => .error collapse
  | none =>
    let (a, s) := step s
    match s.session.memory.collapse with
    | some collapse => .error collapse
    | none => .ok (a, s)

/-! ### The rest -/

def lastError (s : Scheduler σ) : Option Report := s.context.surface

def dismissError : SchedulerM σ Unit := changeContext Context.dismissError

/-- Changes the configuration from the next rebuild on. -/
def updateConfig (update : Config → Config) : SchedulerM σ Unit := do
  modify fun s => { s with config := update s.config }
  note [.debug "Configuration updated; applies on next environment rebuild"]

/-- Lets time pass for the checker of a completion wait. -/
def elapse (span : Nat) : SchedulerM σ Unit := do
  let board := (← get).session.bridge.application.board
  changeContext fun c => c.elapse span board.isRaised

/-- Lets the application change its state. -/
def askHost {α : Type} (question : HostM σ α) : SchedulerM σ α :=
  onSession fun _ => Session.askHost question

def pendingDelays (s : Scheduler σ) : Nat := s.context.delays.size

def counter (s : Scheduler σ) : Int := s.context.delays.counter

def completionPending (s : Scheduler σ) : Bool := s.context.completion.isActive

def callHistory (s : Scheduler σ) : List CallRecord := s.context.history.records

end Scheduler
end ScriptBridge
