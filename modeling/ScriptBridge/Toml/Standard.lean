import ScriptBridge.Toml.Library
import ScriptBridge.Toml.Reader

/-! A library for TOML documents. Any document is read; written are documents of one line for each key. -/

namespace ScriptBridge.Toml

def Item.entry : Item → Entry
  | text s => .text s
  | integer i => .integer i
  | bool b => .bool b
  | float _ | moment _ | array _ | table _ _ | tables _ => .other

namespace Scalar

def written : Scalar → String
  | text s => writeText s
  | integer i => toString i
  | bool b => if b then "true" else "false"

end Scalar

/-- Why a number cannot be written. -/
def rangeMessage : String := "out-of-range value for u64 type"

/-- The text of some lines. -/
def document (lines : List (String × Scalar)) : String :=
  String.join (lines.map fun line => line.1 ++ " = " ++ line.2.written ++ "\n")

def standard : Library where
  read? text := (Toml.read? text).map fun fields key => (fields.find? key).map Item.entry
  write lines := if ∀ line ∈ lines, line.2.InRange then .ok (document lines) else .error rangeMessage

end ScriptBridge.Toml
