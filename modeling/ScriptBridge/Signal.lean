/-! Completion flags. A flag is raised once and stays raised; the board knows which flags there are. -/

namespace ScriptBridge

structure Flag where
  id : Nat
deriving DecidableEq, Repr

/-- The flags made so far, each with whether it has been raised. -/
structure Board where
  raised : Array Bool

namespace Board

def empty : Board := ⟨#[]⟩

/-- A flag no one has seen before, still down. -/
def newFlag (b : Board) : Flag × Board := (⟨b.raised.size⟩, ⟨b.raised.push false⟩)

def raise (b : Board) (flag : Flag) : Board := ⟨b.raised.setIfInBounds flag.id true⟩

def isRaised (b : Board) (flag : Flag) : Bool := b.raised[flag.id]?.getD false

end Board
end ScriptBridge
