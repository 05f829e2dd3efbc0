import ScriptBridge.Arguments
import ScriptBridge.Log

/-! Operations that every environment publishes under its root: journal entries from guest code, checks
and constructors of coordinates and targets, the two ways to wait, and the call history. -/

namespace ScriptBridge

/-- A name under a root; an empty root is the globals. -/
def qualify (root name : String) : String := if root.isEmpty then name else root ++ "." ++ name

inductive Builtin where
  | log (level : Level)
  | getType
  | createCoord
  | toTarget
  | isValid
  | waitForTicks
  | waitForCompletion
  | callHistory
deriving DecidableEq, Repr

namespace Builtin

/-- A built-in operation's signature under a root. -/
def signature (root : String) : Builtin → Signature
  | log level => ⟨qualify root (logName level), [.required "message" .any], .nil, true⟩
  | getType => ⟨qualify root "GetType", [.required "value" .any], .string, true⟩
  | createCoord => ⟨qualify root "CreateCoord", [.required "input" .coord], .coord, false⟩
  | toTarget => ⟨qualify root "ToTarget", [.required "target" .target], .target, false⟩
  | isValid => ⟨qualify root "IsValid", [.required "value" .any], .bool, false⟩
  | waitForTicks => ⟨qualify root "WaitForTicks",
      [.required "ticks" .int, .required "callback" .callback], .nil, false⟩
  | waitForCompletion => ⟨qualify root "WaitForCompletion",
      [.required "callback" .callback, .optional "subject" (.handle none)], .nil, false⟩
  | callHistory => ⟨qualify root "MethodCallHistory",
      [.withDefault "log_as_error" .bool (.bool false)], .list, false⟩
where
  logName : Level → String
    | .info => "Log"
    | .warn => "LogWarning"
    | .error => "LogError"
    | .debug => "LogDebug"

/-- All of them, in the order they are published. -/
def all : List Builtin :=
  [.log .info, .log .warn, .log .error, .getType, .createCoord, .toTarget, .isValid, .waitForTicks,
    .waitForCompletion, .callHistory]

/-- Whether three fields spell out the mark for "no position". -/
def isInvalidCell (fields : List (String × Value)) : Bool :=
  match Value.field? "x" fields, Value.field? "y" fields, Value.field? "z" fields with
  | some (.int x), some (.int y), some (.int z) =>
    x.toInt = Coord.invalid.x.toInt && y.toInt = Coord.invalid.y.toInt && z.toInt = Coord.invalid.z.toInt
  | _, _, _ => false

/-- Validity as guest code sees it, where coordinates are tables. -/
def guestValid : Value → Bool
  | .record fields => !isInvalidCell fields
  | value => value.isValid

end Builtin
end ScriptBridge
