import ScriptBridge.CommandLine
import ScriptBridge.Toml.Standard

/-! The program. It gathers the surroundings of a command line (arguments, files, base directories),
hands them over, and writes down the outcome. Time in a run is counted and not waited for, so a run ends
as soon as its ticks are done. -/

namespace ScriptBridge.CommandLine

/-- What a path leads to. -/
def readPath (path : String) : IO Content := do
  match ← (IO.FS.readBinFile path).toBaseIO with
  | .ok bytes => return .file bytes
  | .error (.noFileOrDirectory _ _ _) => return .missing
  | .error (.inappropriateType _ code _) => return if code = 21 then .directory else .notDirectory
  | .error failure => return .failed (toString failure)

/-- The paths of a command line with what they lead to. -/
def readPaths (paths : List String) : IO (List (String × Content)) :=
  paths.mapM fun path => do return (path, ← readPath path)

/-- A base directory: the one an environment variable names, or one below the home directory. -/
def findDirectory (name fallback : String) : IO (Option String) := do
  return baseDirectory (← IO.getEnv name) (← IO.getEnv "HOME") fallback

def readUserConfig : IO ConfigFile := do
  match ← findDirectory "XDG_CONFIG_HOME" ".config" with
  | some base => return (← readPath (base ++ "/" ++ configPath)).asConfigFile
  | none => return .missing

/-- Makes room for a log below a base directory and gives its path; one that has grown too long is
moved aside. -/
def prepareLog (base : String) : IO String := do
  let directory := base ++ "/" ++ logDirectory
  IO.FS.createDirAll directory
  let path := directory ++ "/" ++ logName
  if let .file bytes ← readPath path then
    if bytes.size > logLimit then IO.FS.rename path (path ++ ".1")
  return path

/-- Adds lines to the end of a file. -/
def appendLines (path : String) (lines : List String) : IO Unit := do
  let file ← IO.FS.Handle.mk path .append
  file.putStr (joinLines lines)

/-- Runs the options of a command line and gives the exit code. -/
def perform (o : Options) : IO UInt32 := do
  let log? ← if o.logFile then
      match ← findDirectory "XDG_DATA_HOME" ".local/share" with
      | some base => some <$> prepareLog base
      | none =>
        IO.eprint noLogMessage
        return failureCode.toUInt32
    else pure none
  let contents ← readPaths (o.config.toList ++ o.files)
  let surroundings : Surroundings := ⟨fun path => (contents.lookup path).getD .missing, ← readUserConfig⟩
  let result := run Toml.standard (embedding .standard .ample) o surroundings
  match result with
  | .error collapse => IO.eprint (joinLines [collapse.message])
  | .ok outcome =>
    let lines := journalLines (← IO.getEnv "SCRIPTBRIDGE_LOG") outcome.journal
    match log? with
    | some path =>
      IO.eprint (joinLines lines)
      appendLines path lines
    | none => IO.print (joinLines lines)
    IO.print outcome.stdout
    IO.eprint outcome.stderr
  return (exitCode result).toUInt32

end ScriptBridge.CommandLine

open ScriptBridge.CommandLine in
def main (words : List String) : IO UInt32 := do
  match Options.read? words with
  | some o => perform o
  | none =>
    IO.eprint usageMessage
    return usageCode.toUInt32
