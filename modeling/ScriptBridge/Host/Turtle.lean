import ScriptBridge.Host

/-! A turtle on an integer grid. A call sends it to a cell some ticks away; every step of the world
brings each journey one tick on, and on its last tick the turtle stands on its cell and the journey's
flag goes up. -/

namespace ScriptBridge

/-- A journey under way. -/
structure Job where
  handle : Handle
  destination : Coord
  /-- Steps left. -/
  remaining : Nat
  done : Flag
deriving DecidableEq, Repr

structure Turtle where
  position : Coord
  jobs : List Job
  /-- Number of ids given out. -/
  issued : Nat
deriving DecidableEq, Repr

namespace Turtle

def initial : HostState Turtle := ⟨⟨⟨0, 0, 0⟩, [], 0⟩, .empty⟩

/-- Ids count up from one. -/
def issueId : HostM Turtle UInt64 := modifyGet fun s =>
  let id := s.own.issued + 1
  (UInt64.ofNat id, { s with own := { s.own with issued := id } })

/-- Brings one journey a step on. -/
def stepJob (s : HostState Turtle) (job : Job) : HostState Turtle :=
  let remaining := job.remaining - 1
  if remaining = 0 then ⟨{ s.own with position := job.destination }, s.board.raise job.done⟩
  else { s with own := { s.own with jobs := s.own.jobs ++ [{ job with remaining }] } }

/-- One step of the world: journeys that end are taken off the list, in the order they were begun. -/
def advance (s : HostState Turtle) : HostState Turtle :=
  s.own.jobs.foldl stepJob { s with own := { s.own with jobs := [] } }

/-- The cell a journey may go to. -/
def destination : Target → Except OperationError Coord
  | .cell c => if c.isValid then .ok c else .error (.refused "destination is not a valid cell")
  | .entity h => .error (.refused ("cannot walk to entity " ++ h.display))
  | .invalid => .error (.refused "destination is not a valid cell")

/-- Begins a journey. -/
def moveTo (args : Arguments) : HostM Turtle (Except OperationError Value) := do
  match args.target "destination" >>= destination with
  | .error fault => return .error fault
  | .ok cell =>
    let handle : Handle := ⟨"Job", ← issueId⟩
    match args.int "ticks" with
    | .error fault => return .error fault
    | .ok ticks => modifyGet fun s =>
      let (done, board) := s.board.newFlag
      let job : Job := ⟨handle, cell, (max ticks.toInt 1).toNat, done⟩
      (.ok (.handle handle), ⟨{ s.own with jobs := s.own.jobs ++ [job] }, board⟩)

def operations : List (Operation (HostHandler Turtle)) := [
  ⟨⟨"Add", [.required "a" .number, .required "b" .number], .number, false⟩,
    some fun args => return do return .number ((← args.number "a") + (← args.number "b"))⟩,
  ⟨⟨"Turtle.GetPosition", [], .coord, false⟩,
    some fun _ => return .ok (.coord (← get).own.position)⟩,
  ⟨⟨"Turtle.MoveTo", [.required "destination" .target, .withDefault "ticks" .int (.int 3)],
      .handle (some "Job"), false⟩,
    some moveTo⟩]

/-- The journey of a subject, or the one begun last. -/
def watch (subject : Option Handle) (s : HostState Turtle) : Option Flag :=
  let job : Option Job := match subject with
    | some h => s.own.jobs.find? fun job => job.handle = h
    | none => s.own.jobs.getLast?
  job.map Job.done

def host : Host Turtle where
  operations := operations
  constructEntity name := do
    if name = "Marker" then return some ⟨"Marker", ← issueId⟩ else return none
  watchCompletion := watch
  machine := .ample

end Turtle
end ScriptBridge
