import ScriptBridge.Numeric.Numeral

/-! TOML texts in quotes. Basic texts, in double quotes, have escapes; literal ones, in single quotes,
have none. Either may be written over several lines between triple quotes, where up to two quotes may
stand anywhere and a line break directly after the opening does not count. -/

namespace ScriptBridge.Toml

/-- A reader takes something off the front of a text. -/
abbrev Reader (α : Type) := List Char → Option (α × List Char)

/-- A tab, or any character but the controls. -/
def isPrintable (c : Char) : Bool := c = '\t' || (32 ≤ c.toNat && c.toNat ≠ 127)

/-- The character of an escape of one letter. -/
def letterEscape? : Char → Option Char
  | 'b' => some '\x08'
  | 't' => some '\t'
  | 'n' => some '\n'
  | 'f' => some '\x0c'
  | 'r' => some '\r'
  | '"' => some '"'
  | '\\' => some '\\'
  | _ => none

/-- The character of a code point in hexadecimal digits. -/
def pointEscape? (digits : List Char) : Option Char :=
  let point := Numeral.natOfDigits 16 digits
  if digits.all Numeral.isHexDigit && point.isValidChar then some (Char.ofNat point) else none

/-- Puts a character that was read in front of what is read after it. -/
def prepend (c : Option Char) (rest : Option (List Char × List Char)) : Option (List Char × List Char) :=
  match c, rest with
  | some c, some (read, after) => some (c :: read, after)
  | _, _ => none

/-- A basic text after its opening quote. -/
def readBasic : Reader (List Char)
  | [] => none
  | '"' :: rest => some ([], rest)
  | '\\' :: 'u' :: a :: b :: c :: d :: rest => prepend (pointEscape? [a, b, c, d]) (readBasic rest)
  | '\\' :: 'U' :: a :: b :: c :: d :: e :: f :: g :: h :: rest =>
    prepend (pointEscape? [a, b, c, d, e, f, g, h]) (readBasic rest)
  | '\\' :: letter :: rest => prepend (letterEscape? letter) (readBasic rest)
  | c :: rest => if isPrintable c && c ≠ '\\' then prepend (some c) (readBasic rest) else none

/-- Whether a text goes on with a line break. -/
def atBreak : List Char → Bool
  | '\n' :: _ => true
  | '\r' :: '\n' :: _ => true
  | _ => false

def isSpace (c : Char) : Bool := c = ' ' || c = '\t'

/-- A basic text over several lines after its opening; `skipping` says that white space is passed over
since a backslash ended a line. -/
def readBasicLines (skipping : Bool) : Reader (List Char)
  | [] => none
  | '\r' :: '\n' :: rest =>
    if skipping then readBasicLines true rest else prepend (some '\n') (readBasicLines false rest)
  | '"' :: '"' :: '"' :: '"' :: '"' :: rest => some (['"', '"'], rest)
  | '"' :: '"' :: '"' :: '"' :: rest => some (['"'], rest)
  | '"' :: '"' :: '"' :: rest => some ([], rest)
  | '\\' :: 'u' :: a :: b :: c :: d :: rest =>
    prepend (pointEscape? [a, b, c, d]) (readBasicLines false rest)
  | '\\' :: 'U' :: a :: b :: c :: d :: e :: f :: g :: h :: rest =>
    prepend (pointEscape? [a, b, c, d, e, f, g, h]) (readBasicLines false rest)
  | '\\' :: letter :: rest =>
    if atBreak ((letter :: rest).dropWhile isSpace) then
      if letter = '\r' then readBasicLines true (rest.drop 1) else readBasicLines true rest
    else prepend (letterEscape? letter) (readBasicLines false rest)
  | c :: rest =>
    if skipping && (isSpace c || c = '\n') then readBasicLines true rest
    else if c = '\n' || (isPrintable c && c ≠ '\\') then prepend (some c) (readBasicLines false rest)
    else none
termination_by text => text.length
decreasing_by all_goals simp only [List.length_cons, List.length_drop]; omega

/-- A literal text after its opening quote. -/
def readLiteral : Reader (List Char)
  | [] => none
  | '\'' :: rest => some ([], rest)
  | c :: rest => if isPrintable c then prepend (some c) (readLiteral rest) else none

/-- A literal text over several lines after its opening. -/
def readLiteralLines : Reader (List Char)
  | [] => none
  | '\r' :: '\n' :: rest => prepend (some '\n') (readLiteralLines rest)
  | '\'' :: '\'' :: '\'' :: '\'' :: '\'' :: rest => some (['\'', '\''], rest)
  | '\'' :: '\'' :: '\'' :: '\'' :: rest => some (['\''], rest)
  | '\'' :: '\'' :: '\'' :: rest => some ([], rest)
  | c :: rest =>
    if c = '\n' || isPrintable c then prepend (some c) (readLiteralLines rest) else none

/-- Drops a line break at the front. -/
def dropBreak : List Char → List Char
  | '\n' :: rest => rest
  | '\r' :: '\n' :: rest => rest
  | text => text

/-- A text on one line in either kind of quotes. -/
def readLineText : Reader String
  | '"' :: rest => (readBasic rest).map fun (read, after) => (String.ofList read, after)
  | '\'' :: rest => (readLiteral rest).map fun (read, after) => (String.ofList read, after)
  | _ => none

/-- A text in quotes of any kind. -/
def readText : Reader String
  | '"' :: '"' :: '"' :: rest =>
    (readBasicLines false (dropBreak rest)).map fun (read, after) => (String.ofList read, after)
  | '\'' :: '\'' :: '\'' :: rest =>
    (readLiteralLines (dropBreak rest)).map fun (read, after) => (String.ofList read, after)
  | text => readLineText text

/-! ### Writing -/

/-- How a text can be written. -/
inductive Style where
  | basic
  | literal
  | basicLines
  | literalLines
deriving DecidableEq, Repr

/-- Length of the longest run of a character. -/
def longestRun (mark : Char) (text : List Char) : Nat :=
  (text.foldl (fun (longest, current) c =>
    if c = mark then (max longest (current + 1), current + 1) else (longest, 0)) (0, 0)).1

/-- A control character that is neither a tab nor a line feed. -/
def isControl (c : Char) : Bool := (c.toNat < 32 && c ≠ '\t' && c ≠ '\n') || c.toNat = 127

/-- The plainest style that shows a text without escapes, or else the plainest that shows it at all. -/
def styleFor (text : List Char) : Style :=
  let controls := text.any isControl
  let backslash := text.contains '\\'
  let newline := text.contains '\n'
  let doubles := longestRun '"' text
  let singles := longestRun '\'' text
  if !controls && !backslash && doubles = 0 && !newline then .basic
  else if !controls && singles = 0 && !newline then .literal
  else if !controls && !backslash && doubles ≤ 2 then .basicLines
  else if !controls && singles ≤ 2 then .literalLines
  else if newline then .basicLines
  else .basic

def hexDigit (n : Nat) : Char := (Nat.digitChar n).toUpper

/-- Four hexadecimal digits. -/
def hexPoint (n : Nat) : List Char :=
  [hexDigit (n / 4096 % 16), hexDigit (n / 256 % 16), hexDigit (n / 16 % 16), hexDigit (n % 16)]

/-- The escape of a character, if it needs one; a line feed may stand as it is over several lines. -/
def escapeOf? (overLines : Bool) (c : Char) : Option (List Char) :=
  if c = '\\' then some ['\\', '\\']
  else if c = '\x08' then some ['\\', 'b']
  else if c = '\x0c' then some ['\\', 'f']
  else if c = '\r' then some ['\\', 'r']
  else if c = '\t' then some ['\\', 't']
  else if c = '\n' then (if overLines then none else some ['\\', 'n'])
  else if isControl c then some ('\\' :: 'u' :: hexPoint c.toNat)
  else none

/-- The inside of a basic text; of quotes in a row at most `allowed` stay as they are. -/
def escape (overLines : Bool) (allowed : Nat) : Nat → List Char → List Char
  | _, [] => []
  | run, c :: rest =>
    if c = '"' then
      if run < allowed then '"' :: escape overLines allowed (run + 1) rest
      else '\\' :: '"' :: escape overLines allowed 0 rest
    else match escapeOf? overLines c with
      | some escaped => escaped ++ escape overLines allowed 0 rest
      | none => c :: escape overLines allowed 0 rest

/-- Opens a text over several lines on a line of its own when it has line breaks. -/
def openLines (text : List Char) : List Char := if text.contains '\n' then ['\n'] else []

def writeText (s : String) : String :=
  let text := s.toList
  let tripleDouble := ['"', '"', '"']
  let tripleSingle := ['\'', '\'', '\'']
  String.ofList <| match styleFor text with
    | .basic => '"' :: escape false 0 0 text ++ ['"']
    | .literal => '\'' :: text ++ ['\'']
    | .basicLines => tripleDouble ++ openLines text ++ escape true 2 0 text ++ tripleDouble
    | .literalLines => tripleSingle ++ openLines text ++ text ++ tripleSingle

end ScriptBridge.Toml
