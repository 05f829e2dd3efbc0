import ScriptBridge.Context
import ScriptBridge.Guest.Run
import ScriptBridge.Host

/-! The two sides of a running session: the guest's memory, and the bridge with all the host keeps. A
guest run is followed call by call; each call is answered on the host's side and the run goes on with
the answer. -/

namespace ScriptBridge

/-- The host's side. -/
structure Bridge (σ : Type) where
  context : Context
  application : HostState σ
  /-- The present instant, from which a completion wait is due. -/
  now : Nat
  journal : Array LogEntry

structure Session (σ : Type) where
  memory : Guest.State
  bridge : Bridge σ

/-- Computations over a session. -/
abbrev SessionM (σ : Type) := StateM (Session σ)

/-- Answers one call of a published operation, from its number, arguments and calling line. -/
abbrev Answer (σ : Type) := Nat → List Guest.Value → Option Nat → SessionM σ Guest.Value

namespace Bridge

variable {σ : Type}

def note (b : Bridge σ) (entries : Log) : Bridge σ := { b with journal := b.journal ++ entries.toArray }

def withContext (b : Bridge σ) (context : Context) : Bridge σ := { b with context }

end Bridge

namespace Guest.Run

/-- Carries a run to its end, answering each of its calls. -/
def follow {σ α : Type} (answer : Answer σ) : Run α → Bridge σ → Except Fault α × Session σ
  | finished result memory, bridge => (result, ⟨memory, bridge⟩)
  | call operation args line memory resume, bridge =>
    let (value, ⟨memory, bridge⟩) := answer operation args line ⟨memory, bridge⟩
    (resume value memory).follow answer bridge

end Guest.Run

namespace Session

variable {σ : Type}

def note (entries : Log) : SessionM σ Unit :=
  modify fun ⟨memory, bridge⟩ => ⟨memory, bridge.note entries⟩

/-- Changes the context and reads something off it. -/
def onContext {α : Type} (f : Context → α × Context) : SessionM σ α :=
  modifyGet fun ⟨memory, bridge⟩ =>
    let (a, context) := f bridge.context
    (a, ⟨memory, bridge.withContext context⟩)

def changeContext (f : Context → Context) : SessionM σ Unit := onContext fun c => ((), f c)

/-- Changes the guest's memory and reads something off it. -/
def onMemory {α : Type} (f : Guest.State → α × Guest.State) : SessionM σ α :=
  modifyGet fun ⟨memory, bridge⟩ =>
    let (a, memory) := f memory
    (a, ⟨memory, bridge⟩)

/-- Asks the application. -/
def askHost {α : Type} (question : HostM σ α) : SessionM σ α :=
  modifyGet fun ⟨memory, bridge⟩ =>
    let (a, application) := question bridge.application
    (a, ⟨memory, { bridge with application }⟩)

/-- Runs guest code to its end. -/
def runGuest {α : Type} (answer : Answer σ) (start : Guest.State → Guest.Run α) :
    SessionM σ (Except Guest.Fault α) :=
  fun ⟨memory, bridge⟩ => (start memory).follow answer bridge

end Session
end ScriptBridge
