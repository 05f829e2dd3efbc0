import ScriptBridge.Config
import ScriptBridge.Text.Utf8
import ScriptBridge.Toml.Library

/-! Configuration files. A file gives any of the settings, each of its own type; the others keep their
standard values and unknown keys are passed over. What a document is, and what can be written in one, is
for the library to say that reads and writes documents. -/

namespace ScriptBridge

/-- Why a configuration file could not be loaded. -/
inductive ConfigLoadError where
  | notFound
  /-- The file is no document, or a setting is of the wrong type. -/
  | malformed
  /-- The file cannot be read as text. -/
  | unreadable
deriving DecidableEq, Repr

/-- What is found at the place of a configuration file. -/
inductive ConfigFile where
  | missing
  | directory
  | file (bytes : ByteArray)

namespace Config

open Toml (Entry Library Scalar)

def textOf? : Entry → Option String
  | .text s => some s
  | _ => none

def boolOf? : Entry → Option Bool
  | .bool b => some b
  | _ => none

def integerOf? : Entry → Option Int64
  | .integer i => some i
  | _ => none

/-- An integer that must not be negative. -/
def naturalOf? : Entry → Option UInt64
  | .integer i => if 0 ≤ i.toInt then some (UInt64.ofNat i.toInt.toNat) else none
  | _ => none

/-- What the entry under a key stands for; the standard value if there is none. -/
def field? {α : Type} (valueOf? : Entry → Option α) (key : String) (standard : α)
    (entries : String → Option Entry) : Option α :=
  match entries key with
  | none => some standard
  | some entry => valueOf? entry

/-- The settings a document gives, with standard values for the rest. -/
def ofEntries? (entries : String → Option Entry) : Option Config := do
  return {
    root := ← field? textOf? "namespace" standard.root entries
    historyCapacity := ← field? naturalOf? "history_capacity" standard.historyCapacity entries
    rebaseThreshold := ← field? integerOf? "rebase_threshold" standard.rebaseThreshold entries
    pollInterval := ← field? naturalOf? "completion_poll_interval_ms" standard.pollInterval entries
    typeChecking := ← field? boolOf? "type_checking" standard.typeChecking entries
    autoConvert := ← field? boolOf? "auto_convert" standard.autoConvert entries
    logConversions := ← field? boolOf? "log_conversions" standard.logConversions entries
    warnOnKindMismatch := ← field? boolOf? "warn_on_kind_mismatch" standard.warnOnKindMismatch entries }

/-- The configuration a document's text gives. -/
def ofText (library : Library) (text : String) : Except ConfigLoadError Config :=
  match (library.read? text).bind ofEntries? with
  | some config => .ok config
  | none => .error .malformed

def load (library : Library) : ConfigFile → Except ConfigLoadError Config
  | .missing => .error .notFound
  | .directory => .error .unreadable
  | .file bytes =>
    match String.fromUTF8? bytes with
    | some text => ofText library text
    | none => .error .unreadable

/-- The configuration of a file, or the standard one when it cannot be loaded. -/
def loadOrDefault (library : Library) (file : ConfigFile) : Config :=
  match load library file with
  | .ok config => config
  | .error _ => standard

/-- The settings under their keys. -/
def fields (c : Config) : List (String × Scalar) := [
  ("namespace", .text c.root),
  ("history_capacity", .integer c.historyCapacity.toNat),
  ("rebase_threshold", .integer c.rebaseThreshold.toInt),
  ("completion_poll_interval_ms", .integer c.pollInterval.toNat),
  ("type_checking", .bool c.typeChecking),
  ("auto_convert", .bool c.autoConvert),
  ("log_conversions", .bool c.logConversions),
  ("warn_on_kind_mismatch", .bool c.warnOnKindMismatch)]

/-- Why nothing is written over a directory. -/
def directoryErrorMessage : String := "Is a directory (os error 21)"

/-- Writes a configuration to a file; on failure what was there stays. -/
def save (library : Library) (c : Config) (present : ConfigFile) : Except String Unit × ConfigFile :=
  match library.write c.fields, present with
  | .error complaint, present => (.error complaint, present)
  | .ok _, .directory => (.error directoryErrorMessage, .directory)
  | .ok text, _ => (.ok (), .file text.toUTF8)

end Config
end ScriptBridge
