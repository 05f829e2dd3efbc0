import ScriptBridge.Log
import ScriptBridge.Machine

/-! The last calls of published operations, oldest first, up to a fixed number. -/

namespace ScriptBridge

structure CallRecord where
  /-- Last segment of the operation's name. -/
  operation : String
  /-- Types of the arguments, or a note that there were none. -/
  argumentTypes : String
deriving DecidableEq, Repr

def CallRecord.display (r : CallRecord) : String := r.operation ++ "(" ++ r.argumentTypes ++ ")"

/-- Bytes that a record takes among others. -/
def CallRecord.width : Nat := 48

structure CallHistory where
  records : List CallRecord
  capacity : Nat

namespace CallHistory

def defaultCapacity : Nat := 10

/-- What comes of asking for room for a history, which is asked for all at once before there is any record. -/
def reserve (machine : Machine) (capacity : Nat) : Option Collapse := machine.reserve CallRecord.width capacity

/-- A history for which there is room. -/
def new (capacity : Nat) : CallHistory := ⟨[], capacity⟩

/-- Adds a record and gives up the oldest ones beyond the capacity. -/
def push (h : CallHistory) (r : CallRecord) : CallHistory :=
  let all := h.records ++ [r]
  { h with records := all.drop (all.length - h.capacity) }

def clear (h : CallHistory) : CallHistory := { h with records := [] }

def size (h : CallHistory) : Nat := h.records.length

def isEmpty (h : CallHistory) : Bool := h.records.isEmpty

/-- The records as journal entries, the most recent last. -/
def report (h : CallHistory) (asError : Bool) : Log :=
  let entry (message : String) : LogEntry := if asError then .error message else .info message
  if h.isEmpty then [entry "Method call history is empty"]
  else (h.records.zipIdx 1).map fun (r, i) => entry ("  [" ++ toString i ++ "] " ++ r.display)

end CallHistory
end ScriptBridge
