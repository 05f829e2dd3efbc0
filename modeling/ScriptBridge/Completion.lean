import ScriptBridge.Log
import ScriptBridge.Signal

/-! Waits for a flag. At most one wait is active. Its flag is looked at with a fixed interval between
looks: either by the owner's own polls, or by a checker of its own that reports the number of its wait
over a channel. Numbers are never used twice, so a late report of a wait that was given up means
nothing. Instants and spans are in milliseconds. -/

namespace ScriptBridge

structure Wait (α : Type) where
  id : Nat
  flag : Flag
  callback : α
  /-- When the owner's polls look at the flag next; a wait with a checker has none. -/
  nextLook : Option Nat

/-- Looks at the flag of one wait by itself. -/
structure Checker where
  id : Nat
  flag : Flag
  /-- Span until the next look. -/
  delay : Nat
deriving DecidableEq, Repr

/-- Whether a poll looks at the flag of a wait. -/
def Wait.looksAt {α : Type} (wait : Wait α) (now : Nat) : Bool := wait.nextLook.any (· ≤ now)

/-- What a checker does while a span passes: it looks after its delay and then once an interval, as long
as the span is not over. It either sees its flag raised, or waits for its next look. -/
def Checker.elapse (interval span : Nat) (isRaised : Flag → Bool) (checker : Checker) :
    Option Checker :=
  if span ≤ checker.delay then some { checker with delay := checker.delay - span }
  else if isRaised checker.flag then none
  else
    let sinceLook := (span - checker.delay) % interval
    some { checker with delay := (interval - sinceLook) % interval }

structure Completion (α : Type) where
  interval : Nat
  hasCheckers : Bool
  nextId : Nat
  active : Option (Wait α)
  /-- Numbers of waits whose checkers have seen their flag, oldest first. -/
  reports : List Nat
  checkers : List Checker

namespace Completion

variable {α : Type}

def defaultInterval : Nat := 200

/-- Shorter intervals are raised to this. -/
def shortestInterval : Nat := 1

def new (interval : Nat) (hasCheckers : Bool) : Completion α :=
  ⟨max interval shortestInterval, hasCheckers, 0, none, [], []⟩

/-- What the journal says of an interval when it is set. -/
def remarks (interval : Nat) : Log :=
  if interval < shortestInterval then
    [.warn "Completion poll interval 0ns is too short; using 1ms"]
  else []

def isActive (c : Completion α) : Bool := c.active.isSome

/-- Gives up the active wait together with its checker. -/
def cancel (c : Completion α) : Completion α :=
  match c.active with
  | some wait => { c with active := none, checkers := c.checkers.filter (·.id ≠ wait.id) }
  | none => c

/-- Begins to wait at an instant; a wait that was active is given up. -/
def start (c : Completion α) (now : Nat) (flag : Flag) (callback : α) : Completion α :=
  let c := c.cancel
  { c with
    nextId := c.nextId + 1
    active := some ⟨c.nextId, flag, callback, if c.hasCheckers then none else some now⟩
    checkers := if c.hasCheckers then c.checkers ++ [⟨c.nextId, flag, 0⟩] else c.checkers }

/-- What the journal says of a wait that begins. -/
def startRemarks (c : Completion α) : Log :=
  if c.isActive then [.debug "Replaced an active completion wait"] else []

/-- A checker's report arrives. -/
def deliver (c : Completion α) (id : Nat) : Completion α := { c with reports := c.reports ++ [id] }

/-- Hands back the callback of the active wait once its flag has been seen raised, and only then. -/
def poll (c : Completion α) (now : Nat) (isRaised : Flag → Bool) : Option α × Completion α :=
  match c.active with
  | none => (none, { c with reports := [] })
  | some wait =>
    if c.reports.contains wait.id || (wait.looksAt now && isRaised wait.flag) then
      (some wait.callback, { c.cancel with reports := [] })
    else
      let wait := if wait.looksAt now then { wait with nextLook := some (now + c.interval) } else wait
      (none, { c with active := some wait, reports := [] })

/-- Lets a span pass for the checkers; those that have seen their flags report and are done. -/
def elapse (c : Completion α) (span : Nat) (isRaised : Flag → Bool) : Completion α :=
  let done := c.checkers.filter fun checker => (checker.elapse c.interval span isRaised).isNone
  let waiting := c.checkers.filterMap (Checker.elapse c.interval span isRaised)
  (done.map Checker.id).foldl deliver { c with checkers := waiting }

end Completion
end ScriptBridge
