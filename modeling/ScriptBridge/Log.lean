/-! The journal of a bridge. Entries are kept with their level; what a reader sees is the part of the
journal up to the level captured. -/

namespace ScriptBridge

inductive Level where
  | error
  | warn
  | info
  | debug
deriving DecidableEq, Repr

namespace Level

/-- Detail of a level: the higher, the more is shown. -/
def detail : Level → Nat
  | error => 0
  | warn => 1
  | info => 2
  | debug => 3

def label : Level → String
  | error => "ERROR"
  | warn => "WARN"
  | info => "INFO"
  | debug => "DEBUG"

end Level

/-- Who speaks: the bridge itself, or guest code through a logging operation. -/
inductive Speaker where
  | bridge
  | guest
deriving DecidableEq, Repr

def Speaker.label : Speaker → String
  | bridge => "scripting"
  | guest => "script"

structure LogEntry where
  level : Level
  speaker : Speaker
  message : String
deriving DecidableEq, Repr

namespace LogEntry

def error (message : String) : LogEntry := ⟨.error, .bridge, message⟩
def warn (message : String) : LogEntry := ⟨.warn, .bridge, message⟩
def info (message : String) : LogEntry := ⟨.info, .bridge, message⟩
def debug (message : String) : LogEntry := ⟨.debug, .bridge, message⟩

/-- The entry on one line: level, speaker, message. -/
def text (entry : LogEntry) : String :=
  entry.level.label ++ " " ++ entry.speaker.label ++ ": " ++ entry.message

end LogEntry

/-- Entries in the order they were made. -/
abbrev Log := List LogEntry

/-- The lines of a journal up to a level of detail. -/
def Log.captured (upTo : Level) (log : Log) : List String :=
  (log.filter fun entry => entry.level.detail ≤ upTo.detail).map LogEntry.text

end ScriptBridge
