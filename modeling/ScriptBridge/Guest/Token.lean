import ScriptBridge.Guest.Number
import ScriptBridge.Text.Lines

/-! The guest language's tokens and their reading from bytes. Reading never fails as a whole: a
malformed token becomes a token that carries its complaint, and takes effect when a parser comes to
it. -/

namespace ScriptBridge.Guest

inductive Lexeme where
  | name (n : String)
  /-- Reserved words, operators and punctuation. -/
  | symbol (text : String)
  | int (i : Int64)
  | float (x : Float)
  | str (bytes : ByteArray)
  | eof
  | malformed (message : String)
deriving DecidableEq

instance : Inhabited Lexeme := ⟨.eof⟩

structure Token where
  lexeme : Lexeme
  /-- The line reached when the token had been read. -/
  line : Nat
  /-- How the token is quoted in a complaint. -/
  shown : String

instance : Inhabited Token := ⟨⟨.eof, 1, "<eof>"⟩⟩

namespace Token

/-- The name sources are reported under. -/
def chunkLabel : String := "[string \"chunk\"]"

/-- A message with the place it is about. -/
def located (line : Nat) (message : String) : String :=
  chunkLabel ++ ":" ++ toString line ++ ": " ++ message

def reserved : List String :=
  ["and", "break", "do", "else", "elseif", "end", "false", "for", "function", "goto", "if", "in",
    "local", "nil", "not", "or", "repeat", "return", "then", "true", "until", "while"]

/-- Operators and punctuation of more than one character, longest first. -/
def longSymbols : List String :=
  ["...", "..", "==", "~=", "<=", ">=", "//", "::", "<<", ">>"]

abbrev Bytes := List UInt8

def chars (bytes : Bytes) : List Char := bytes.map fun b => Char.ofNat b.toNat

def textOf (bytes : Bytes) : String := Text.ofBytes ⟨bytes.toArray⟩

def isNewline (b : UInt8) : Bool := b = 10 || b = 13

def isNameByte (b : UInt8) : Bool :=
  let c := Char.ofNat b.toNat
  b < 128 && (c.isAlphanum || c = '_')

def isDigitByte (b : UInt8) : Bool := 48 ≤ b && b ≤ 57

/-- Drops a line break, two characters of different kinds counting as one. -/
def dropNewline : Bytes → Bytes
  | a :: b :: rest => if isNewline b && a ≠ b then rest else b :: rest
  | _ => []

/-- Result of reading one token: the token and what follows it, with the line reached. -/
structure Reading where
  token : Token
  rest : Bytes
  line : Nat

def Reading.fail (line : Nat) (message : String) : Reading :=
  ⟨⟨.malformed (located line message), line, ""⟩, [], line⟩

/-- Complaint about a token whose text so far is quoted. -/
def Reading.failNear (line : Nat) (message : String) (text : Bytes) : Reading :=
  .fail line (message ++ " near '" ++ textOf text ++ "'")

def Reading.failAtEnd (line : Nat) (message : String) : Reading :=
  .fail line (message ++ " near <eof>")

/-- Number of `=` between two brackets, if that is what follows an opening bracket. -/
def bracketLevel? (bracket : UInt8) (bytes : Bytes) : Option (Nat × Bytes) :=
  let level := (bytes.takeWhile (· = 61)).length
  match bytes.drop level with
  | b :: rest => if b = bracket then some (level, rest) else none
  | [] => none

/-- Reads a long text up to its closing brackets; `none` when the source ends first. Line breaks in
it count as one line feed each. -/
def readLong (level : Nat) : Nat → Bytes → Bytes → Nat → Option (Bytes × Bytes × Nat)
  | 0, _, _, _ => none
  | fuel + 1, bytes, read, line =>
    match bytes with
    | [] => none
    | b :: rest =>
      let closing := if b = 93 then bracketLevel? 93 rest else none
      match closing with
      | some (found, after) =>
        if found = level then some (read.reverse, after, line)
        else readLong level fuel rest (b :: read) line
      | none =>
        if isNewline b then readLong level fuel (dropNewline bytes) (10 :: read) (line + 1)
        else readLong level fuel rest (b :: read) line

/-- The body of a long text starts after a line break that directly follows its opening. -/
def readLongBody (level : Nat) (bytes : Bytes) (line : Nat) : Option (Bytes × Bytes × Nat) :=
  match bytes with
  | b :: _ =>
    if isNewline b then readLong level (bytes.length + 1) (dropNewline bytes) [] (line + 1)
    else readLong level (bytes.length + 1) bytes [] line
  | [] => none

/-- Bytes of a code point, also beyond the range of text. -/
def encodePoint (point : Nat) : Bytes :=
  let tail (n k : Nat) : UInt8 := UInt8.ofNat (128 + n / Nat.pow 64 k % 64)
  if point < 0x80 then [UInt8.ofNat point]
  else if point < 0x800 then [UInt8.ofNat (0xC0 + point / 64), tail point 0]
  else if point < 0x10000 then [UInt8.ofNat (0xE0 + point / Nat.pow 64 2), tail point 1, tail point 0]
  else if point < 0x200000 then
    [UInt8.ofNat (0xF0 + point / Nat.pow 64 3), tail point 2, tail point 1, tail point 0]
  else if point < 0x4000000 then
    [UInt8.ofNat (0xF8 + point / Nat.pow 64 4), tail point 3, tail point 2, tail point 1, tail point 0]
  else
    [UInt8.ofNat (0xFC + point / Nat.pow 64 5), tail point 4, tail point 3, tail point 2, tail point 1,
      tail point 0]

/-- What an escape stands for: the bytes it gives, what follows, and the line reached. -/
inductive Escape where
  | gives (bytes rest : Bytes) (line : Nat)
  | wrong (message : String) (text : Bytes)

/-- Text of an escape up to and with the byte that makes it wrong. -/
def throughNext (text rest : Bytes) : Bytes := text ++ rest.take 1

/-- Escape by code point, after its opening brace. -/
def readPoint (opened rest : Bytes) (line : Nat) : Escape :=
  let digits := rest.takeWhile fun b => Numeral.isHexDigit (Char.ofNat b.toNat)
  let after := rest.drop digits.length
  let text := opened ++ digits
  let fits (n : Nat) : Bool := Numeral.natOfDigits 16 (chars (digits.take n)) < 0x80000000
  if digits.isEmpty then .wrong "hexadecimal digit expected" (throughNext text after)
  else match (List.range (digits.length + 1)).find? fun n => !fits n with
    | some n => .wrong "UTF-8 value too large" (opened ++ digits.take n)
    | none =>
      match after with
      | 125 :: after => .gives (encodePoint (Numeral.natOfDigits 16 (chars digits))) after line
      | after => .wrong "missing '\x7d'" (throughNext text after)

/-- Reads an escape after its backslash. -/
def readEscape (bytes : Bytes) (line : Nat) : Escape :=
  let one (b : UInt8) (rest : Bytes) : Escape := .gives [b] rest line
  match bytes with
  | [] => .gives [] [] line
  | b :: rest =>
    match Char.ofNat b.toNat with
    | 'a' => one 7 rest
    | 'b' => one 8 rest
    | 'f' => one 12 rest
    | 'n' => one 10 rest
    | 'r' => one 13 rest
    | 't' => one 9 rest
    | 'v' => one 11 rest
    | '\\' => one 92 rest
    | '"' => one 34 rest
    | '\'' => one 39 rest
    | '\n' | '\r' => .gives [10] (dropNewline bytes) (line + 1)
    | 'x' =>
      let digits := (rest.take 2).takeWhile fun b => Numeral.isHexDigit (Char.ofNat b.toNat)
      if digits.length = 2 then
        .gives [UInt8.ofNat (Numeral.natOfDigits 16 (chars digits))] (rest.drop 2) line
      else .wrong "hexadecimal digit expected" (throughNext (92 :: b :: digits) (rest.drop digits.length))
    | 'z' =>
      let blanks := rest.takeWhile fun b => Number.isSpace (Char.ofNat b.toNat)
      .gives [] (rest.drop blanks.length) (line + (Text.pieces '\n' (chars blanks)).length - 1)
    | 'u' =>
      match rest with
      | 123 :: rest => readPoint [92, b, 123] rest line
      | rest => .wrong "missing '\x7b'" (throughNext [92, b] rest)
    | _ =>
      let digits := (bytes.take 3).takeWhile isDigitByte
      if digits.isEmpty then .wrong "invalid escape sequence" [92, b]
      else
        let value := Numeral.natOfDigits 10 (chars digits)
        let after := bytes.drop digits.length
        if value > 255 then .wrong "decimal escape too large" (throughNext (92 :: digits) after)
        else .gives [UInt8.ofNat value] after line

/-- Reads a quoted text after its opening quote; `read` holds what it contains so far, last first. -/
def readQuoted (delimiter : UInt8) : Nat → Bytes → Bytes → Nat → Reading
  | 0, _, _, line => .failAtEnd line "unfinished string"
  | fuel + 1, bytes, read, line =>
    let soFar := delimiter :: read.reverse
    match bytes with
    | [] => .failAtEnd line "unfinished string"
    | b :: rest =>
      if b = delimiter then
        ⟨⟨.str ⟨read.reverse.toArray⟩, line, "'" ++ textOf (soFar ++ [b]) ++ "'"⟩, rest, line⟩
      else if isNewline b then .failNear line "unfinished string" soFar
      else if b = 92 then
        match readEscape rest line with
        | .gives bytes rest line => readQuoted delimiter fuel rest (bytes.reverse ++ read) line
        | .wrong message text => .failNear line message (soFar ++ text)
      else readQuoted delimiter fuel rest (b :: read) line

/-- Length of a numeral's text: digits, points and letters up to `f`, a sign after an exponent mark. -/
def numeralLength (isMark : Char → Bool) : Bytes → Nat
  | [] => 0
  | [a] => if belongs (Char.ofNat a.toNat) then 1 else 0
  | a :: b :: rest =>
    let c := Char.ofNat a.toNat
    if isMark c && (b = 43 || b = 45) then numeralLength isMark rest + 2
    else if belongs c then numeralLength isMark (b :: rest) + 1
    else 0
where
  belongs (c : Char) : Bool := isMark c || Numeral.isHexDigit c || c = '.'

def readNumeral (bytes : Bytes) (line : Nat) : Reading :=
  let hexadecimal := (Number.afterHexMark? (chars (bytes.take 2))).isSome
  let start := if hexadecimal then 2 else 1
  let isMark (c : Char) : Bool := if hexadecimal then c = 'p' || c = 'P' else c = 'e' || c = 'E'
  let length := start + numeralLength isMark (bytes.drop start)
  let touching := match bytes.drop length with
    | b :: _ => isNameByte b && !isDigitByte b
    | [] => false
  let length := if touching then length + 1 else length
  let text := bytes.take length
  match Number.read? (chars text) with
  | some (.int i) => ⟨⟨.int i, line, "'" ++ textOf text ++ "'"⟩, bytes.drop length, line⟩
  | some (.float x) => ⟨⟨.float x, line, "'" ++ textOf text ++ "'"⟩, bytes.drop length, line⟩
  | _ => .failNear line "malformed number" text

def symbol (text : String) (rest : Bytes) (line : Nat) : Reading :=
  ⟨⟨.symbol text, line, "'" ++ text ++ "'"⟩, rest, line⟩

/-- A single byte that starts no other token. -/
def readByte (b : UInt8) (rest : Bytes) (line : Nat) : Reading :=
  let text :=
    if 32 ≤ b ∧ b < 127 then (Char.ofNat b.toNat).toString else "<\\" ++ toString b.toNat ++ ">"
  symbol text rest line

def readName (bytes : Bytes) (line : Nat) : Reading :=
  let text := String.ofList (chars (bytes.takeWhile isNameByte))
  let rest := bytes.dropWhile isNameByte
  if reserved.contains text then symbol text rest line
  else ⟨⟨.name text, line, "'" ++ text ++ "'"⟩, rest, line⟩

/-- A long text after its first bracket, or the bracket itself. -/
def readBracket (rest : Bytes) (line : Nat) : Reading :=
  match bracketLevel? 91 rest with
  | some (level, body) =>
    match readLongBody level body line with
    | some (bytes, after, reached) =>
      let marks := List.replicate level 61
      let shown := [91] ++ marks ++ [91] ++ bytes ++ [93] ++ marks ++ [93]
      ⟨⟨.str ⟨bytes.toArray⟩, reached, "'" ++ textOf shown ++ "'"⟩, after, reached⟩
    | none =>
      let last := line + (body.filter (· = 10)).length
      .failAtEnd last ("unfinished long string (starting at line " ++ toString line ++ ")")
  | none =>
    let marks := rest.takeWhile (· = 61)
    if marks.isEmpty then symbol "[" rest line
    else .failNear line "invalid long string delimiter" (91 :: marks)

/-- What a comment leaves: the bytes after it and the line reached, or a complaint. -/
def dropComment (bytes : Bytes) (line : Nat) : Except Reading (Bytes × Nat) :=
  let long := match bytes with
    | 91 :: rest => bracketLevel? 91 rest
    | _ => none
  match long with
  | some (level, body) =>
    match readLongBody level body line with
    | some (_, after, reached) => .ok (after, reached)
    | none =>
      let last := line + (body.filter (· = 10)).length
      .error (.failAtEnd last ("unfinished long comment (starting at line " ++ toString line ++ ")"))
  | none => .ok (bytes.dropWhile fun b => !isNewline b, line)

/-- Reads the next token, blanks and comments before it skipped. -/
def readToken : Nat → Bytes → Nat → Reading
  | 0, _, line => ⟨⟨.eof, line, "<eof>"⟩, [], line⟩
  | fuel + 1, bytes, line =>
    match bytes with
    | [] => ⟨⟨.eof, line, "<eof>"⟩, [], line⟩
    | b :: rest =>
      let c := Char.ofNat b.toNat
      if isNewline b then readToken fuel (dropNewline bytes) (line + 1)
      else if Number.isSpace c then readToken fuel rest line
      else if isDigitByte b then readNumeral bytes line
      else if isNameByte b then readName bytes line
      else match c, rest with
        | '-', 45 :: rest =>
          match dropComment rest line with
          | .ok (rest, line) => readToken fuel rest line
          | .error reading => reading
        | '[', rest => readBracket rest line
        | '"', rest => readQuoted b (rest.length + 1) rest [] line
        | '\'', rest => readQuoted b (rest.length + 1) rest [] line
        | '.', d :: _ =>
          if isDigitByte d then readNumeral bytes line
          else readSymbol bytes b rest line
        | _, rest => readSymbol bytes b rest line
where
  readSymbol (bytes : Bytes) (b : UInt8) (rest : Bytes) (line : Nat) : Reading :=
    match longSymbols.find? fun s => bytes.take s.length = s.toUTF8.toList with
    | some s => symbol s (bytes.drop s.length) line
    | none => readByte b rest line

/-- All tokens of a source; the last one is the end of the source or malformed. -/
def readAll : Nat → Bytes → Nat → List Token
  | 0, _, line => [⟨.eof, line, "<eof>"⟩]
  | fuel + 1, bytes, line =>
    let reading := readToken (bytes.length + 1) bytes line
    match reading.token.lexeme with
    | .eof => [reading.token]
    | .malformed _ => [reading.token]
    | _ => reading.token :: readAll fuel reading.rest reading.line

def ofSource (source : String) : List Token :=
  let bytes := source.toUTF8.toList
  readAll (bytes.length + 1) bytes 1

end Token
end ScriptBridge.Guest
