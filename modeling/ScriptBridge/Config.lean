import ScriptBridge.CallHistory
import ScriptBridge.Completion
import ScriptBridge.Conversion.ToHost
import ScriptBridge.DelayQueue

/-! Settings consumed when a guest environment is built. -/

namespace ScriptBridge

structure Config where
  /-- Path of the table that holds the built-in operations; empty for the globals. -/
  root : String
  /-- Number of calls kept for error reports. -/
  historyCapacity : UInt64
  /-- Counter value at which delays go back to zero. -/
  rebaseThreshold : Int64
  /-- Milliseconds between looks at a completion flag. -/
  pollInterval : UInt64
  /-- Convert arguments to their declared kinds, rather than by their own shapes. -/
  typeChecking : Bool
  autoConvert : Bool
  logConversions : Bool
  warnOnKindMismatch : Bool
deriving DecidableEq, Repr

namespace Config

def standard : Config where
  root := "Bridge"
  historyCapacity := UInt64.ofNat CallHistory.defaultCapacity
  rebaseThreshold := Int64.ofInt DelayQueue.defaultThreshold
  pollInterval := UInt64.ofNat Completion.defaultInterval
  typeChecking := true
  autoConvert := true
  logConversions := false
  warnOnKindMismatch := true

def conversionOptions (c : Config) : ConversionOptions :=
  ⟨c.autoConvert, c.logConversions, c.warnOnKindMismatch⟩

end Config
end ScriptBridge
