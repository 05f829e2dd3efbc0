import ScriptBridge.Arguments
import ScriptBridge.Machine
import ScriptBridge.Signal

/-! The embedding application as the bridge sees it: the operations it offers, the objects it makes for
names, and the flags it raises when its work is done. Its own state is a parameter. -/

namespace ScriptBridge

/-- An application's own state beside the flags it may raise. -/
structure HostState (σ : Type) where
  own : σ
  board : Board

/-- What an application does when it is asked: an answer and its state afterwards. -/
abbrev HostM (σ : Type) := StateM (HostState σ)

/-- Carries out a call, or says why it failed. -/
abbrev HostHandler (σ : Type) := Arguments → HostM σ (Except OperationError Value)

structure Host (σ : Type) where
  /-- Everything offered to guest code, the same each time an environment is built. -/
  operations : List (Operation (HostHandler σ))
  /-- The object meant by a name where a target is wanted. -/
  constructEntity : String → HostM σ (Option Handle)
  /-- The flag of the work a subject does, or of the work the application does now. -/
  watchCompletion : Option Handle → HostState σ → Option Flag
  /-- The machine the application runs on. -/
  machine : Machine

/-- An application with nothing to offer. -/
def Host.bare (σ : Type) : Host σ := ⟨[], fun _ => pure none, fun _ _ => none, .ample⟩

end ScriptBridge
