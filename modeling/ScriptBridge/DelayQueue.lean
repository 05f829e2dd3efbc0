/-! Delays measured in steps of a counter. A delay comes due when the counter reaches its target, and
each step hands back at most one that is due. Before the counter can grow out of range it is taken
back to zero and every target with it, which no delay notices. -/

namespace ScriptBridge

structure Delay (α : Type) where
  /-- Counter value at which the delay is due. -/
  target : Int
  /-- Number of delays scheduled before it. -/
  seq : Nat
  payload : α

structure DelayQueue (α : Type) where
  /-- In firing order: by target, and by age among equal targets. -/
  pending : List (Delay α)
  counter : Int
  nextSeq : Nat
  rebaseThreshold : Int

namespace DelayQueue

variable {α : Type}

/-- Largest value of the counter and of a target. -/
def greatest : Int := Int64.maxValue.toInt

/-- Threshold used where none is configured. -/
def defaultThreshold : Int := Int32.maxValue.toInt - 10000

def addUpTo (i j : Int) : Int := min (i + j) greatest

/-- An empty queue that goes back to zero when its counter reaches a threshold of at least one. -/
def new (threshold : Int) : DelayQueue α := ⟨[], 0, 0, max threshold 1⟩

/-- Puts a delay behind all that are due no later. -/
def insert (delay : Delay α) : List (Delay α) → List (Delay α)
  | [] => [delay]
  | d :: rest => if d.target ≤ delay.target then d :: insert delay rest else delay :: d :: rest

/-- Counter value at which a delay of some steps, made now, is due; a negative delay counts as none. -/
def dueAfter (q : DelayQueue α) (ticks : Int) : Int := addUpTo q.counter (max ticks 0)

def schedule (q : DelayQueue α) (ticks : Int) (payload : α) : DelayQueue α :=
  { q with pending := insert ⟨q.dueAfter ticks, q.nextSeq, payload⟩ q.pending, nextSeq := q.nextSeq + 1 }

/-- Takes the counter back to zero and every target back by as much. -/
def rebase (q : DelayQueue α) : DelayQueue α :=
  { q with
    pending := q.pending.map fun d => { d with target := d.target - q.counter }
    counter := 0 }

/-- The counter one step on, before any rebasing. -/
def stepped (q : DelayQueue α) : DelayQueue α := { q with counter := addUpTo q.counter 1 }

/-- Whether the next step goes back to zero. -/
def rebasesNext (q : DelayQueue α) : Bool := q.rebaseThreshold ≤ q.stepped.counter

/-- The first delay's payload, if it is due. -/
def popDue (q : DelayQueue α) : Option α × DelayQueue α :=
  match q.pending with
  | [] => (none, q)
  | d :: rest => if d.target ≤ q.counter then (some d.payload, { q with pending := rest }) else (none, q)

/-- One step: the counter moves on and at most one delay that is due comes back. -/
def advance (q : DelayQueue α) : Option α × DelayQueue α :=
  (if q.rebasesNext then q.stepped.rebase else q.stepped).popDue

def size (q : DelayQueue α) : Nat := q.pending.length

def isEmpty (q : DelayQueue α) : Bool := q.pending.isEmpty

/-- Drops every delay; the counter keeps its value. -/
def clear (q : DelayQueue α) : DelayQueue α := { q with pending := [] }

/-- Steps left until each delay is due, in firing order. -/
def ticksRemaining (q : DelayQueue α) : List Int := q.pending.map fun d => d.target - q.counter

end DelayQueue
end ScriptBridge
