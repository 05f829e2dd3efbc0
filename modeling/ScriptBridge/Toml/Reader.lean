import ScriptBridge.Toml.Library
import ScriptBridge.Toml.Quoted
import ScriptBridge.Toml.Scalar

/-! Reading of TOML documents. A document is a series of lines, each blank, a comment, a header that opens
a table, or a key with an item; arrays may run over several lines. There is one answer to every
malformed document: it is none. -/

namespace ScriptBridge.Toml

/-- Nesting of arrays and braces, and steps of a dotted key, stay below this. -/
def depthLimit : Nat := 80

def skipSpace (text : List Char) : List Char := text.dropWhile isSpace

/-- Passes over a comment, up to the end of its line. -/
def skipComment? : List Char → Option (List Char)
  | '#' :: rest =>
    let after := rest.dropWhile isPrintable
    if after.isEmpty || atBreak after then some after else none
  | text => some text

/-- Passes over the rest of a line with nothing but white space and a comment on it. -/
def endLine? (text : List Char) : Option (List Char) := do
  match ← skipComment? (skipSpace text) with
  | [] => return []
  | '\n' :: rest => return rest
  | '\r' :: '\n' :: rest => return rest
  | _ => none

/-- Passes over white space, comments and line breaks; at most `fuel` lines. -/
def skipLines? : Nat → List Char → Option (List Char)
  | 0, _ => none
  | fuel + 1, text => do
    match ← skipComment? (skipSpace text) with
    | '\n' :: rest => skipLines? fuel rest
    | '\r' :: '\n' :: rest => skipLines? fuel rest
    | rest => return rest

/-! ### Keys -/

/-- One step of a key: bare, or in quotes on one line. -/
def readKeyStep : Reader String
  | '"' :: rest => readLineText ('"' :: rest)
  | '\'' :: rest => readLineText ('\'' :: rest)
  | text =>
    let bare := text.takeWhile isBareKeyChar
    if bare.isEmpty then none else some (String.ofList bare, text.dropWhile isBareKeyChar)

/-- A dotted key of at most so many steps, white space around each. -/
def readKey : Nat → Reader (List String)
  | 0, _ => none
  | limit + 1, text => do
    let (step, rest) ← readKeyStep (skipSpace text)
    match skipSpace rest with
    | '.' :: rest =>
      let (more, rest) ← readKey limit rest
      return (step :: more, rest)
    | rest => return ([step], rest)

def readPath : Reader (List String) := readKey (depthLimit - 1)

/-! ### Items -/

/-- Characters that end a scalar. -/
def endsScalar (c : Char) : Bool := c ∈ [' ', '\t', '\n', '\r', '#', ',', ']', '}', '=', '[', '{']

/-- The time of day that follows a date after a space. -/
def takeClock? : List Char → Option (List Char × List Char)
  | ' ' :: rest =>
    let clock := rest.takeWhile (!endsScalar ·)
    if isClock clock then some (' ' :: clock, rest.drop clock.length) else none
  | _ => none

def readPlain (text : List Char) : Option (Item × List Char) :=
  let word := text.takeWhile (!endsScalar ·)
  let rest := text.drop word.length
  match (if isDate word then takeClock? rest else none) with
  | some (clock, rest) => some (.moment (String.ofList (word ++ clock)), rest)
  | none => (readScalar? word).map (·, rest)

mutual

/-- An item; `levels` bounds the nesting still allowed, `fuel` the steps. -/
def readItem : Nat → Nat → Reader Item
  | 0, _, _ => none
  | fuel + 1, levels, text =>
    match text with
    | '[' :: rest =>
      match levels with
      | 0 => none
      | levels + 1 => (readItems fuel levels rest).map fun (items, rest) => (.array items, rest)
    | '{' :: rest =>
      match levels with
      | 0 => none
      | levels + 1 => do
        match skipSpace rest with
        | '}' :: rest => return (.table .braces [], rest)
        | rest =>
          let (fields, rest) ← readPairs fuel levels [] rest
          return (.table .braces fields, rest)
    | '"' :: _ | '\'' :: _ => (readText text).map fun (s, rest) => (.text s, rest)
    | text => readPlain text

/-- The items of an array after its opening or a comma. -/
def readItems : Nat → Nat → Reader (List Item)
  | 0, _, _ => none
  | fuel + 1, levels, text => do
    match ← skipLines? (text.length + 1) text with
    | ']' :: rest => return ([], rest)
    | text =>
      let (item, rest) ← readItem fuel levels text
      match ← skipLines? (rest.length + 1) rest with
      | ',' :: rest =>
        let (items, rest) ← readItems fuel levels rest
        return (item :: items, rest)
      | ']' :: rest => return ([item], rest)
      | _ => none

/-- The keys and items in braces, at least one, added to those before them. -/
def readPairs : Nat → Nat → Fields → Reader Fields
  | 0, _, _, _ => none
  | fuel + 1, levels, fields, text => do
    let (path, rest) ← readPath text
    match rest with
    | '=' :: rest =>
      let (item, rest) ← readItem fuel levels (skipSpace rest)
      let fields ← Fields.addDotted (path.getLast?.getD "") item path.dropLast fields
      match skipSpace rest with
      | ',' :: rest => readPairs fuel levels fields rest
      | '}' :: rest => return (fields, rest)
      | _ => none
    | _ => none

end

/-! ### Lines -/

/-- A document in the making: its fields and the table that keys go to. -/
structure Draft where
  fields : Fields
  current : List String

/-- What follows a header's path: its closing and nothing else on the line. -/
def closeHeader? (closing : List Char) (text : List Char) : Option (List Char) :=
  if text.take closing.length = closing then endLine? (text.drop closing.length) else none

/-- Takes one line of a document. -/
def readLine (draft : Draft) (text : List Char) : Option (Draft × List Char) :=
  match text with
  | '[' :: '[' :: rest => do
    let (path, rest) ← readPath rest
    let rest ← closeHeader? [']', ']'] rest
    let fields ← Fields.descend path.dropLast (Fields.openNext (path.getLast?.getD "")) draft.fields
    return (⟨fields, path⟩, rest)
  | '[' :: rest => do
    let (path, rest) ← readPath rest
    let rest ← closeHeader? [']'] rest
    let fields ← Fields.descend path.dropLast (Fields.openTable (path.getLast?.getD "")) draft.fields
    return (⟨fields, path⟩, rest)
  | text => do
    let (path, rest) ← readPath text
    match rest with
    | '=' :: rest =>
      let start := skipSpace rest
      let (item, rest) ← readItem (start.length + 1) (depthLimit - 1) start
      let rest ← endLine? rest
      let add := Fields.addDotted (path.getLast?.getD "") item path.dropLast
      let fields ← Fields.descend draft.current add draft.fields
      return (⟨fields, draft.current⟩, rest)
    | _ => none

/-- Takes the lines of a document one by one; at most `fuel` of them. -/
def readLines : Nat → Draft → List Char → Option Fields
  | 0, _, _ => none
  | fuel + 1, draft, text =>
    match skipSpace text with
    | [] => some draft.fields
    | '#' :: _ => (endLine? text).bind (readLines fuel draft)
    | '\n' :: rest => readLines fuel draft rest
    | '\r' :: '\n' :: rest => readLines fuel draft rest
    | text => (readLine draft text).bind fun (draft, rest) => readLines fuel draft rest

/-- The fields of a document; a byte order mark in front is passed over. -/
def read? (text : String) : Option Fields :=
  let body := match text.toList with
    | '\uFEFF' :: rest => rest
    | text => text
  readLines (body.length + 1) ⟨[], []⟩ body

end ScriptBridge.Toml
