import ScriptBridge.Numeric.Numeral
import ScriptBridge.Text.Lines

/-! Line markers in diagnostics. A marker names the chunk, as `[string "chunk"]` or as the word `chunk`,
and then has a colon, white space if any, a line number and a colon. The first marker of a message
counts; when its number cannot be used there is no line, whatever comes later. -/

namespace ScriptBridge.LineMarker

/-- The two names of the chunk. -/
def quotedName : List Char := "[string \"chunk\"]".toList

def plainName : List Char := "chunk".toList

/-- The digits of a marker whose name has been read. -/
def digitsAfterName? (text : List Char) : Option (List Char) :=
  match text with
  | ':' :: rest =>
    let digits := (rest.dropWhile CharClass.isBlank).takeWhile CharClass.isDigit
    let after := (rest.dropWhile CharClass.isBlank).dropWhile CharClass.isDigit
    if digits.isEmpty || after.head? ≠ some ':' then none else some digits
  | _ => none

/-- The digits of a marker at the beginning of a text; `inWord` says that a word character stands just
before it. -/
def digitsHere? (inWord : Bool) (text : List Char) : Option (List Char) :=
  match (Text.dropStart? quotedName text).bind digitsAfterName? with
  | some digits => some digits
  | none => if inWord then none else (Text.dropStart? plainName text).bind digitsAfterName?

/-- The digits of the first marker. -/
def firstDigits? (inWord : Bool) : List Char → Option (List Char)
  | [] => none
  | c :: rest =>
    match digitsHere? inWord (c :: rest) with
    | some digits => some digits
    | none => firstDigits? (CharClass.isWord c) rest

/-- The line a message points to, if its first marker has ASCII digits in the range of 64 bits. -/
def line? (message : String) : Option Int :=
  (firstDigits? false message.toList).bind (Numeral.readIntIn? 0 Int64.maxValue.toInt)

/-- Whether a message has a marker, usable or not. -/
def occursIn (message : String) : Bool := (firstDigits? false message.toList).isSome

end ScriptBridge.LineMarker
