import ScriptBridge.Guest.Number
import ScriptBridge.Guest.State

/-! Guest code as seen from the host. A run is a finite series of calls of published operations, each
with the guest's memory at that moment and a continuation for the answer, and it ends in a result or
a fault. Nothing else can pass between guest code and the host, so what holds of every run holds of
whatever guest code does. -/

namespace ScriptBridge.Guest

/-- Why guest code stopped without a result. -/
inductive Fault where
  /-- A value was raised; `line` is the innermost line running at that moment. -/
  | raised (value : Value) (line : Option Nat)
  /-- The source is not a program. -/
  | malformed (message : String)
  /-- The step allowance was used up. -/
  | exhausted

/-- Text of a value, as the guest language prints it. -/
def Value.describe : Value → String
  | nil => "nil"
  | bool b => if b then "true" else "false"
  | int i => Number.intText i
  | float x => Number.floatText x
  | str b => Text.ofBytes b
  | table address => "table: " ++ toString address
  | function (.library f) => "builtin: " ++ f.name
  | function _ => "function"
  | handle h _ => h.display
  | alien _ => "userdata"
  | light => "lightuserdata"
  | thread _ => "thread"
  | error message => "runtime error: " ++ message

/-- The diagnostic a host gets for a fault. -/
def Fault.message : Fault → String
  | raised (.error message) _ => "runtime error: " ++ message
  | raised value _ => "runtime error: " ++ value.describe
  | malformed message => "syntax error: " ++ message
  | exhausted => "runtime error: step allowance used up"

/-- The line a fault was running at, if it is known other than from its message. -/
def Fault.line : Fault → Option Nat
  | raised _ line => line
  | _ => none

/-- A series of operation calls that ends in a result. -/
inductive Run (α : Type) where
  | finished (result : Except Fault α) (memory : State)
  | call (operation : Nat) (args : List Value) (line : Option Nat) (memory : State)
      (resume : Value → State → Run α)

namespace Run

/-- One run after another; a fault ends the whole. -/
def bind {α β : Type} : Run α → (α → State → Run β) → Run β
  | finished (.ok a) s, next => next a s
  | finished (.error fault) s, _ => finished (.error fault) s
  | call operation args line s resume, next =>
    call operation args line s fun v s => (resume v s).bind next

/-- A run that always ends in a result, the fault as a value if there was one. -/
def caught {α : Type} : Run α → Run (Except Fault α)
  | finished result s => finished (.ok result) s
  | call operation args line s resume =>
    call operation args line s fun v s => (resume v s).caught

end Run

/-- Computations of the guest: from its memory to a run. -/
def Eval (α : Type) := State → Run α

namespace Eval

def pure {α : Type} (a : α) : Eval α := fun s => .finished (.ok a) s

def bind {α β : Type} (e : Eval α) (next : α → Eval β) : Eval β := fun s => (e s).bind next

instance : Monad Eval where
  pure := pure
  bind := bind

def stop {α : Type} (fault : Fault) : Eval α := fun s => .finished (.error fault) s

def caught {α : Type} (e : Eval α) : Eval (Except Fault α) := fun s => (e s).caught

/-- Reads something off the memory. -/
def read {α : Type} (f : State → α) : Eval α := fun s => .finished (.ok (f s)) s

/-- Changes the memory and reads something off it. -/
def update {α : Type} (f : State → α × State) : Eval α := fun s =>
  let (a, s) := f s
  .finished (.ok a) s

def change (f : State → State) : Eval Unit := fun s => .finished (.ok ()) (f s)

/-- Calls a published operation. -/
def operation (index : Nat) (args : List Value) (line : Option Nat) : Eval Value := fun s =>
  .call index args line s fun v s => .finished (.ok v) s

end Eval

/-- What the bridge asks of a guest language. -/
structure Engine where
  /-- Loads a source text and runs it to its results. -/
  execute : String → State → Run (List Value)
  /-- Calls a function value from the host. -/
  apply : Function → List Value → State → Run (List Value)
  /-- Looks up a key in a table from the host, its metatable included. -/
  index : Nat → Value → State → Run Value

end ScriptBridge.Guest
