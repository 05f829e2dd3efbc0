import ScriptBridge.Text.CharClass

/-! Quoted texts for diagnostics: quotes and backslashes are escaped, common controls have short
escapes, and whatever would not show on its own is written by its code point. -/

namespace ScriptBridge.Text

/-- Lower-case hexadecimal digits of a number. -/
def hex (n : Nat) : String := String.ofList (Nat.toDigits 16 n)

def escapeChar (c : Char) : String :=
  if c = '\x00' then "\\0"
  else if c = '\t' then "\\t"
  else if c = '\r' then "\\r"
  else if c = '\n' then "\\n"
  else if c = '"' then "\\\""
  else if c = '\\' then "\\\\"
  else if CharClass.isPlain c && !CharClass.isExtender c then c.toString
  else "\\u\x7b" ++ hex c.toNat ++ "\x7d"

def quote (text : String) : String :=
  "\"" ++ String.join (text.toList.map escapeChar) ++ "\""

end ScriptBridge.Text
