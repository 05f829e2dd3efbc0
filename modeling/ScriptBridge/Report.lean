import ScriptBridge.CallHistory
import ScriptBridge.LineMarker

/-! Error reports: what went wrong, where in the executed source, and the calls that led to it. A report
without a usable line is still a report. -/

namespace ScriptBridge

/-- An operation failed and the run went on, or the guest's code itself is broken. -/
inductive Origin where
  | guest
  | hostOperation
deriving DecidableEq, Repr

def Origin.display : Origin → String
  | guest => "guest"
  | hostOperation => "host operation"

structure Report where
  origin : Origin
  /-- Line in the executed source, counted from one; -1 when unknown. -/
  lineNumber : Int
  /-- Text of that line, empty when unknown. -/
  lineText : String
  message : String
  isDisplaying : Bool
  /-- Calls up to the failure, the most recent last. -/
  history : List CallRecord
deriving DecidableEq, Repr

namespace Report

def display (r : Report) : String :=
  r.origin.display ++ " error at line " ++ toString r.lineNumber ++ ": " ++ r.message

def hasLine (r : Report) : Bool := 1 ≤ r.lineNumber

/-- The text of a line of a source, counted from one, if there is such a line and its number is in the
range of 32 bits. -/
def lineOf? (source : String) (line : Int) : Option String :=
  if 1 ≤ line ∧ line ≤ Int32.maxValue.toInt then (Text.lines source)[line.toNat - 1]? else none

/-- The line a failure is reported at: the one given, else the one its message points to. -/
def statedLine? (message : String) (line : Option Int) : Option Int :=
  line.or (LineMarker.line? message)

/-- The number and text of a stated line. -/
def locate (source : String) (stated : Option Int) : Int × String :=
  match stated.bind fun line => (lineOf? source line).map fun text => (line, text) with
  | some found => found
  | none => (-1, "")

def capture (origin : Origin) (message : String) (line : Option Int) (source : String)
    (history : CallHistory) : Report :=
  let (number, text) := locate source (statedLine? message line)
  ⟨origin, number, text, message, true, history.records⟩

/-- What the journal says when a report is made. -/
def remarks (r : Report) (line : Option Int) (history : CallHistory) : Log :=
  let misplaced := match statedLine? r.message line with
    | some stated =>
      if r.hasLine then []
      else [.warn ("Line number " ++ toString stated ++ " is out of range for the executed source")]
    | none => []
  let place := if r.hasLine then
      [.error (r.origin.display ++ " error at line " ++ toString r.lineNumber ++ ": " ++ r.lineText)]
    else []
  misplaced ++ place ++ [.error r.message] ++ history.report true

end Report
end ScriptBridge
