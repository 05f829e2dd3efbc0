import ScriptBridge.Completion
import ScriptBridge.Config
import ScriptBridge.DelayQueue
import ScriptBridge.Guest.Function
import ScriptBridge.Report

/-! What an environment remembers between guest calls: the calls of the current attempt, the
continuations that wait, and the one error on the surface. -/

namespace ScriptBridge

structure Context where
  history : CallHistory
  delays : DelayQueue Guest.Function
  completion : Completion Guest.Function
  surface : Option Report
  /-- Source of the block whose code is live. -/
  source : String

namespace Context

def new (config : Config) (hasCheckers : Bool) : Context where
  history := .new config.historyCapacity.toNat
  delays := .new config.rebaseThreshold.toInt
  completion := .new config.pollInterval.toNat hasCheckers
  surface := none
  source := ""

/-- What the journal says when a context is made. -/
def newRemarks (config : Config) : Log := Completion.remarks config.pollInterval.toNat

/-- Forgets the last attempt before a new block starts. -/
def beginAttempt (c : Context) (source : String) : Context :=
  { c with history := c.history.clear, surface := none, source }

def recordCall (c : Context) (r : CallRecord) : Context := { c with history := c.history.push r }

/-! ### Continuations -/

def scheduleDelay (c : Context) (ticks : Int) (callback : Guest.Function) : Context :=
  { c with delays := c.delays.schedule ticks callback }

/-- What the journal says of one step of the delays. -/
def advanceRemarks (c : Context) : Log :=
  if c.delays.rebasesNext then
    [.debug ("Rebased tick counter by " ++ toString c.delays.stepped.counter)]
  else []

/-- One step of the delays, with the callback that is due. -/
def advanceDelays (c : Context) : Option Guest.Function × Context :=
  let (due, delays) := c.delays.advance
  (due, { c with delays })

def startCompletion (c : Context) (now : Nat) (flag : Flag) (callback : Guest.Function) : Context :=
  { c with completion := c.completion.start now flag callback }

def pollCompletion (c : Context) (now : Nat) (isRaised : Flag → Bool) : Option Guest.Function × Context :=
  let (due, completion) := c.completion.poll now isRaised
  (due, { c with completion })

/-- Lets time pass for the checker of a completion wait. -/
def elapse (c : Context) (span : Nat) (isRaised : Flag → Bool) : Context :=
  { c with completion := c.completion.elapse span isRaised }

def hasPendingWork (c : Context) : Bool := !c.delays.isEmpty || c.completion.isActive

/-- Drops every continuation. -/
def abortPending (c : Context) : Context :=
  { c with delays := c.delays.clear, completion := c.completion.cancel }

/-! ### The surface -/

def capture (c : Context) (origin : Origin) (message : String) (line : Option Int) : Report :=
  Report.capture origin message line c.source c.history

/-- What the journal says of a failure. -/
def captureRemarks (c : Context) (origin : Origin) (message : String) (line : Option Int) : Log :=
  (c.capture origin message line).remarks line c.history

/-- An operation failed; only the first failure of an attempt comes to the surface. -/
def reportHostError (c : Context) (message : String) (line : Option Int) : Context :=
  { c with surface := c.surface.or (some (c.capture .hostOperation message line)) }

/-- The guest's code failed; that takes the place of a failed operation on the surface. -/
def reportGuestError (c : Context) (message : String) (line : Option Int) : Report × Context :=
  let report := c.capture .guest message line
  match c.surface with
  | some { origin := .guest, .. } => (report, c)
  | _ => (report, { c with surface := some report })

/-- Hides the error on the surface without taking it away. -/
def dismissError (c : Context) : Context :=
  { c with surface := c.surface.map fun r => { r with isDisplaying := false } }

/-- Drops all that a hard stop drops. -/
def teardown (c : Context) : Context :=
  { c.abortPending with history := c.history.clear, surface := none, source := "" }

end Context
end ScriptBridge
