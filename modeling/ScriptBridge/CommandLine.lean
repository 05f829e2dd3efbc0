import ScriptBridge.ConfigFile
import ScriptBridge.Guest.Interpreter
import ScriptBridge.Host.Turtle
import ScriptBridge.Scheduler

/-! The command line: runs guest files against the turtle's world, tick after tick, and reports how that
ended. Everything it needs from its surroundings is handed to it, and everything it leaves behind is in
its outcome. -/

namespace ScriptBridge.CommandLine

structure Options where
  /-- Guest files, run as one block in the order given. -/
  files : List String
  config : Option String
  /-- Milliseconds between ticks. -/
  tickMs : Nat
  /-- Most ticks to drive. -/
  ticks : Nat
  /-- Run the block again every so many ticks instead of once. -/
  every : Option Nat
  logFile : Bool
  /-- Only list the published operations. -/
  list : Bool
deriving DecidableEq, Repr

/-! ### Arguments -/

/-- An option that takes a value. -/
inductive Setting where
  | config
  | tickMs
  | ticks
  | every
deriving DecidableEq, Repr

/-- An argument that has been understood. -/
inductive Argument where
  | file (path : String)
  | setting (setting : Setting) (value : String)
  | logFile
  | list
deriving DecidableEq, Repr

def Setting.named? (name : String) : Option Setting :=
  match name with
  | "config" => some .config
  | "tick-ms" => some .tickMs
  | "ticks" => some .ticks
  | "repeat" => some .every
  | _ => none

/-- Whether a word can be a value: it does not look like an option. -/
def isValueWord (word : String) : Bool := word = "-" || !word.startsWith "-"

/-- Splits a long option at its first equals sign. -/
def splitEquals (text : List Char) : String × Option String :=
  match text.span (· ≠ '=') with
  | (name, '=' :: value) => (String.ofList name, some (String.ofList value))
  | (name, _) => (String.ofList name, none)

/-- A setting with the value attached to it or the word after it. -/
def settingWith (setting : Setting) (attached : Option String) (rest : List String) :
    Option (Argument × List String) :=
  match attached, rest with
  | some value, rest => some (.setting setting value, rest)
  | none, word :: rest => if isValueWord word then some (.setting setting word, rest) else none
  | none, [] => none

/-- One option, its two hyphens taken off, with the words after it. -/
def longOption (text : List Char) (rest : List String) : Option (Argument × List String) :=
  let (name, attached) := splitEquals text
  match Setting.named? name with
  | some setting => settingWith setting attached rest
  | none =>
    if attached.isSome then none
    else if name = "log-file" then some (.logFile, rest)
    else if name = "list" then some (.list, rest)
    else none

/-- The arguments of a command line; at most `fuel` words. -/
def readArguments : Nat → List String → Option (List Argument)
  | _, [] => some []
  | 0, _ :: _ => none
  | fuel + 1, word :: rest =>
    match word.toList with
    | ['-', '-'] => some (rest.map .file)
    | '-' :: '-' :: name => do
      let (argument, rest) ← longOption name rest
      return argument :: (← readArguments fuel rest)
    | '-' :: 'c' :: attached => do
      let value := match attached with
        | [] => none
        | '=' :: value => some (String.ofList value)
        | value => some (String.ofList value)
      let (argument, rest) ← settingWith .config value rest
      return argument :: (← readArguments fuel rest)
    | '-' :: _ :: _ => none
    | _ => (readArguments fuel rest).map (.file word :: ·)

/-- The values given for a setting. -/
def valuesOf (setting : Setting) (arguments : List Argument) : List String :=
  arguments.filterMap fun
    | .setting s value => if s = setting then some value else none
    | _ => none

/-- At most one value. -/
def single? (values : List String) : Option (Option String) :=
  match values with
  | [] => some none
  | [value] => some (some value)
  | _ => none

/-- A whole number of 64 bits. -/
def natural? (text : String) : Option Nat :=
  match text.toList with
  | '-' :: _ => none
  | text => (Numeral.readIntIn? 0 0xffffffffffffffff text).map Int.toNat

/-- The number given for a setting, if one is given. -/
def number? (setting : Setting) (arguments : List Argument) : Option (Option Nat) := do
  match ← single? (valuesOf setting arguments) with
  | none => return none
  | some text => return some (← natural? text)

def filesOf (arguments : List Argument) : List String :=
  arguments.filterMap fun
    | .file path => some path
    | _ => none

/-- The options that arguments spell out: none is given twice, paths are not empty, and there is a file
unless only the listing is wanted. -/
def Options.ofArguments? (arguments : List Argument) : Option Options := do
  let files := filesOf arguments
  let config ← single? (valuesOf .config arguments)
  let tickMs ← number? .tickMs arguments
  let ticks ← number? .ticks arguments
  let every ← number? .every arguments
  let logFile := arguments.count .logFile
  let list := arguments.count .list
  if logFile > 1 || list > 1 || files.contains "" || config = some "" then none
  else if files.isEmpty && list = 0 then none
  else return {
    files, config, every
    tickMs := tickMs.getD 50
    ticks := ticks.getD 200
    logFile := logFile = 1
    list := list = 1 }

def Options.read? (words : List String) : Option Options :=
  (readArguments words.length words).bind Options.ofArguments?

/-! ### Surroundings -/

/-- A base directory: the configured one if it is an absolute path, otherwise one below the home
directory. -/
def baseDirectory (configured home : Option String) (fallback : String) : Option String :=
  match configured.filter (·.startsWith "/") with
  | some path => some path
  | none => (home.filter (· ≠ "")).map (· ++ "/" ++ fallback)

/-- Place of the user's configuration below the base directory for configurations. -/
def configPath : String := "scriptbridge/config.toml"

/-- Place of the log below the base directory for data. -/
def logDirectory : String := "scriptbridge/logs"

/-- The most detailed level of the journal a run shows, by its name; nothing is shown when it is off. -/
def shownLevel (setting : Option String) : Option Level :=
  match setting with
  | some "off" => none
  | some "error" => some .error
  | some "warn" => some .warn
  | some "debug" => some .debug
  | _ => some .info

/-- The journal as shown. -/
def journalLines (setting : Option String) (journal : List LogEntry) : List String :=
  match shownLevel setting with
  | some level => Log.captured level journal
  | none => []

/-! ### The log file -/

/-- A log longer than this is moved aside. -/
def logLimit : Nat := 1024 * 1024

def logName : String := "cli.log"

/-- The log files after logging was set up, with their sizes; `present` is the size of a log that was
there before. -/
def logFiles (toFile : Bool) (present : Option Nat) : List (String × Nat) :=
  match toFile, present with
  | false, none => []
  | false, some size => [(logName, size)]
  | true, none => [(logName, 0)]
  | true, some size =>
    if size ≤ logLimit then [(logName, size)] else [(logName, 0), (logName ++ ".1", size)]

/-! ### The run -/

/-- What a path leads to. -/
inductive Content where
  | file (bytes : ByteArray)
  | missing
  | directory
  /-- A step on the way is no directory. -/
  | notDirectory
  | failed (reason : String)

namespace Content

/-- The text of a file, or why there is none. -/
def text : Content → Except String String
  | file bytes =>
    match String.fromUTF8? bytes with
    | some text => .ok text
    | none => .error "stream did not contain valid UTF-8"
  | missing => .error "No such file or directory (os error 2)"
  | directory => .error "Is a directory (os error 21)"
  | notDirectory => .error "Not a directory (os error 20)"
  | failed reason => .error reason

def asConfigFile : Content → ConfigFile
  | file bytes => .file bytes
  | missing | notDirectory => .missing
  | directory | failed _ => .directory

end Content

structure Surroundings where
  read : String → Content
  /-- The configuration used when none is named. -/
  userConfig : ConfigFile

structure Outcome where
  code : Nat
  stdout : String
  stderr : String
  journal : List LogEntry

/-- The turtle's world for a guest language, on a machine. -/
def embedding (engine : Guest.Engine) (machine : Machine) : Embedding Turtle :=
  ⟨engine, { Turtle.host with machine }, true⟩

/-- The source units of files, or the first one that cannot be read with the reason. -/
def readUnits (read : String → Content) : List String → Except (String × String) (List SourceUnit)
  | [] => .ok []
  | path :: rest =>
    match (read path).text with
    | .error reason => .error (path, reason)
    | .ok content => (readUnits read rest).map (⟨path, content⟩ :: ·)

/-- Drives ticks, at most so many; a block that runs once ends the run when nothing is left to do. -/
def drive (e : Embedding Turtle) (tickMs : Nat) (repeats : Bool) : Nat → SchedulerM Turtle Unit
  | 0 => return ()
  | ticks + 1 => do
    Scheduler.elapse tickMs
    Scheduler.askHost (modify Turtle.advance)
    Scheduler.tick e 0
    if !repeats && (← get).state ≠ .running then return ()
    drive e tickMs repeats ticks

/-- Arms the units' block and drives the ticks. -/
def runUnits (e : Embedding Turtle) (o : Options) (units : List SourceUnit) : SchedulerM Turtle Unit := do
  match o.every with
  | some every => Scheduler.executeRepeating e (SourceUnit.concat units) every
  | none => Scheduler.executeUnits e units
  drive e (max o.tickMs 1) o.every.isSome o.ticks

/-- A report as lines of text. -/
def reportLines (r : Report) : List String :=
  [r.origin.display ++ " error"] ++
  (if r.hasLine then ["  line " ++ toString r.lineNumber ++ ": " ++ r.lineText] else []) ++
  ["  " ++ r.message] ++
  r.history.map fun record => "  called " ++ record.display

def joinLines (lines : List String) : String := String.join (lines.map (· ++ "\n"))

/-- Only a fault of the guest's code makes a run fail. -/
def isFailure (r : Report) : Bool := r.origin = .guest

/-- Exit code of a run that failed. -/
def failureCode : Nat := 1

/-- How a run ended, from the error on the surface. -/
def conclude (surface : Option Report) : Nat × String :=
  match surface with
  | none => (0, "")
  | some r =>
    let text := joinLines (reportLines r)
    if isFailure r then (failureCode, text ++ "Error: script failed\n") else (0, text)

def configFor (library : Toml.Library) (o : Options) (s : Surroundings) : Config :=
  Config.loadOrDefault library (match o.config with
    | some path => (s.read path).asConfigFile
    | none => s.userConfig)

/-- What is said of a file that cannot be read. -/
def unreadableMessage (path reason : String) : String :=
  "Error: Failed to read " ++ path ++ "\n\nCaused by:\n    " ++ reason ++ "\n"

/-- How a run ends on a scheduler. No operation of the turtle's world takes a list, so the host does not collapse
over an argument. -/
def runOn (e : Embedding Turtle) (o : Options) (s : Surroundings) (scheduler : Scheduler Turtle) : Outcome :=
  if o.list then
    let names := scheduler.registry.signatures.map Signature.display
    ⟨0, joinLines names, "", scheduler.journal⟩
  else match readUnits s.read o.files with
    | .error (path, reason) => ⟨failureCode, "", unreadableMessage path reason, scheduler.journal⟩
    | .ok units =>
      let scheduler := (runUnits e o units scheduler).2
      let (code, stderr) := conclude scheduler.lastError
      ⟨code, "", stderr, scheduler.journal⟩

/-- How a run ends. The scheduler is made first, whatever is asked for. -/
def run (library : Toml.Library) (e : Embedding Turtle) (o : Options) (s : Surroundings) :
    Except Collapse Outcome :=
  (Scheduler.create e (configFor library o s) Turtle.initial).map (runOn e o s)

/-- The code a run exits with. -/
def exitCode : Except Collapse Outcome → Nat
  | .ok outcome => outcome.code
  | .error .panic => 101
  | .error .abort => 134

/-- Exit code of a command line that cannot be understood. -/
def usageCode : Nat := 2

def usageMessage : String :=
  "usage: [--config FILE] [--tick-ms N] [--ticks N] [--repeat N] [--log-file] [--list] FILE...\n"

/-- What is said when there is no place for a log. -/
def noLogMessage : String :=
  "Error: Failed to initialize logging\n\nCaused by:\n    Failed to find home directory\n"

end ScriptBridge.CommandLine
