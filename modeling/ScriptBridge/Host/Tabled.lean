import ScriptBridge.Host

/-! An application described by tables: what each operation replies, the object behind each name, and
the flag behind each subject. Its flags go by name. -/

namespace ScriptBridge

/-- A typed reading of one argument. -/
inductive Accessor where
  | bool
  | int
  | number
  | string
  | coord
  | target
  | handle
  | callback
  | get
deriving DecidableEq, Repr

namespace Arguments

/-- Reads an argument and gives it back as a value. -/
def read (args : Arguments) (accessor : Accessor) (name : String) : Except OperationError Value :=
  match accessor with
  | .bool => (args.bool name).map .bool
  | .int => (args.int name).map .int
  | .number => (args.number name).map .number
  | .string => (args.string name).map .str
  | .coord => (args.coord name).map .coord
  | .target => (args.target name).map .target
  | .handle => (args.handle name).map fun h => h.elim .nil .handle
  | .callback => (args.callback name).map .callback
  | .get => .ok (args.get name)

/-- The sum of some arguments, from zero on. -/
def sum (args : Arguments) (names : List String) : Except OperationError Float :=
  names.foldlM (fun total name => (args.number name).map (total + ·)) 0.0

end Arguments

/-- What an operation of a described application does. -/
inductive Reply where
  | give (value : Value)
  | refuse (reason : String)
  | panic
  /-- Gives an argument back as it was received. -/
  | echo (name : String)
  | display (name : String)
  | typeName (name : String)
  /-- The number of arguments. -/
  | count
  | sum (names : List String)
  | read (accessor : Accessor) (name : String)

def Reply.run (args : Arguments) : Reply → Except OperationError Value
  | give value => .ok value
  | refuse reason => .error (.refused reason)
  | panic => .error .panicked
  | echo name => .ok (args.get name)
  | display name => .ok (.str (args.get name).display)
  | typeName name => .ok (.str (args.get name).typeName)
  | count => .ok (.int (Int64.ofNat args.values.length))
  | sum names => (args.sum names).map .number
  | read accessor name => args.read accessor name

/-- Flags by name. -/
abbrev FlagNames := List (String × Flag)

namespace FlagNames

def flag? (name : String) (names : FlagNames) : Option Flag := (names.find? (·.1 = name)).map Prod.snd

/-- The flag of a name, made when there is none yet. -/
def intern (name : String) (s : HostState FlagNames) : Flag × HostState FlagNames :=
  match s.own.flag? name with
  | some flag => (flag, s)
  | none =>
    let (flag, board) := s.board.newFlag
    (flag, ⟨(name, flag) :: s.own, board⟩)

/-- Gives a name to a new flag. -/
def renew (name : String) (s : HostState FlagNames) : Flag × HostState FlagNames :=
  let (flag, board) := s.board.newFlag
  (flag, ⟨(name, flag) :: s.own, board⟩)

/-- Raises the flag of a name. -/
def raise (name : String) (s : HostState FlagNames) : HostState FlagNames :=
  let (flag, s) := intern name s
  { s with board := s.board.raise flag }

end FlagNames

structure TabledHost where
  operations : List (Operation Reply)
  entities : List (String × Handle)
  /-- Flag names by the text of their subject, the empty text for none. -/
  watch : List (String × String)

namespace TabledHost

/-- All flags of a description, down. -/
def initial (t : TabledHost) : HostState FlagNames :=
  t.watch.foldl (fun s (_, name) => (FlagNames.intern name s).2) ⟨[], .empty⟩

def host (t : TabledHost) : Host FlagNames where
  operations := t.operations.map fun o =>
    ⟨o.signature, o.handler.map fun reply args => return reply.run args⟩
  constructEntity name := return (t.entities.find? (·.1 = name)).map Prod.snd
  watchCompletion subject s :=
    (t.watch.find? (·.1 = subject.elim "" Handle.display)).bind fun entry => s.own.flag? entry.2
  machine := .ample

end TabledHost
end ScriptBridge
