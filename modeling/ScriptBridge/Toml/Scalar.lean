import ScriptBridge.Numeric.Bounded
import ScriptBridge.Numeric.Numeral
import ScriptBridge.Toml.Document

/-! TOML scalars that are not texts: integers in four bases, floats, truth values, and moments in time.
Digits may be grouped by single underscores. -/

namespace ScriptBridge.Toml

/-- Takes out underscores; each must stand between two digits. -/
def ungroup? (isDigit : Char → Bool) : List Char → Option (List Char)
  | [] => none
  | [c] => if isDigit c then some [c] else none
  | c :: '_' :: rest => if isDigit c then (ungroup? isDigit rest).map (c :: ·) else none
  | c :: rest => if isDigit c then (ungroup? isDigit rest).map (c :: ·) else none

/-- Digits of a decimal integer, which has no needless zeros in front. -/
def wholeDigits? (text : List Char) : Option (List Char) :=
  (ungroup? Char.isDigit text).filter fun digits => digits.head? ≠ some '0' || digits.length = 1

/-- An integer in base 2, 8 or 16, after its mark. -/
def readBased? (base : Nat) (isDigit : Char → Bool) (text : List Char) : Option Int64 :=
  (ungroup? isDigit text).bind fun digits => int64Of? (Numeral.natOfDigits base digits)

def readDecimal? (text : List Char) : Option Int64 :=
  let (negative, body) := Numeral.takeSign text
  (wholeDigits? body).bind fun digits =>
    let value : Int := Numeral.natOfDigits 10 digits
    int64Of? (if negative then -value else value)

def readInteger? : List Char → Option Int64
  | '0' :: 'x' :: rest => readBased? 16 Numeral.isHexDigit rest
  | '0' :: 'o' :: rest => readBased? 8 (fun c => '0' ≤ c && c ≤ '7') rest
  | '0' :: 'b' :: rest => readBased? 2 (fun c => c = '0' || c = '1') rest
  | text => readDecimal? text

/-- A fraction after its point: digits, zeros in front allowed; an exponent may follow. -/
def readFraction? (text : List Char) : Option (List Char × List Char) :=
  let (fraction, rest) := text.span fun c => c ≠ 'e' && c ≠ 'E'
  (ungroup? Char.isDigit fraction).map (·, rest)

def readExponent? : List Char → Option Int
  | [] => some 0
  | _ :: text =>
    let (negative, body) := Numeral.takeSign text
    (ungroup? Char.isDigit body).map fun digits =>
      let value : Int := Numeral.natOfDigits 10 digits
      if negative then -value else value

/-- A float needs a fraction, an exponent or both. -/
def readFloat? (text : List Char) : Option Float :=
  let (negative, body) := Numeral.takeSign text
  if body = "inf".toList then some (Numeral.infinity negative)
  else if body = "nan".toList then some Numeral.nan
  else
    let (whole, rest) := body.span fun c => c ≠ '.' && c ≠ 'e' && c ≠ 'E'
    let value? : Option Float := do
      let digits ← wholeDigits? whole
      let (fraction, rest) ← match rest with
        | [] => none
        | '.' :: rest => readFraction? rest
        | rest => some ([], rest)
      let power ← readExponent? rest
      return Binary64.nearestOfDecimal negative (Numeral.natOfDigits 10 (digits ++ fraction))
        (power - fraction.length)
    value?.filter fun x => x != Numeral.infinity false

/-! ### Moments -/

/-- The number written in exactly so many digits, and what follows. -/
def takeNumber? (width : Nat) (text : List Char) : Option (Nat × List Char) :=
  let digits := text.take width
  if digits.length = width && digits.all Char.isDigit then
    some (Numeral.natOfDigits 10 digits, text.drop width)
  else none

/-- A number of two digits in a range. -/
def takeField? (low high : Nat) (text : List Char) : Option (Nat × List Char) :=
  (takeNumber? 2 text).filter fun (value, _) => low ≤ value && value ≤ high

def takeChar? (c : Char) : List Char → Option (List Char)
  | d :: rest => if d = c then some rest else none
  | [] => none

def isLeapYear (year : Nat) : Bool := year % 4 = 0 && (year % 100 ≠ 0 || year % 400 = 0)

def daysIn (year month : Nat) : Nat :=
  if month = 2 then (if isLeapYear year then 29 else 28)
  else if month = 4 ∨ month = 6 ∨ month = 9 ∨ month = 11 then 30
  else 31

/-- Takes a date off a text. -/
def takeDate? (text : List Char) : Option (List Char) := do
  let (year, rest) ← takeNumber? 4 text
  let rest ← takeChar? '-' rest
  let (month, rest) ← takeField? 1 12 rest
  let rest ← takeChar? '-' rest
  let (_, rest) ← takeField? 1 (daysIn year month) rest
  return rest

/-- Takes a time of day off a text, with a fraction of a second if there is one. -/
def takeTime? (text : List Char) : Option (List Char) := do
  let (_, rest) ← takeField? 0 23 text
  let rest ← takeChar? ':' rest
  let (_, rest) ← takeField? 0 59 rest
  let rest ← takeChar? ':' rest
  let (_, rest) ← takeField? 0 60 rest
  match rest with
  | '.' :: fraction =>
    if (fraction.takeWhile Char.isDigit).isEmpty then none
    else return fraction.dropWhile Char.isDigit
  | rest => return rest

/-- Whether a text is nothing or a distance from universal time. -/
def isOffset (text : List Char) : Bool :=
  match text with
  | [] => true
  | [c] => c = 'Z' || c = 'z'
  | sign :: rest =>
    (sign = '+' || sign = '-') && ((do
      let (_, rest) ← takeField? 0 23 rest
      let rest ← takeChar? ':' rest
      let (_, rest) ← takeField? 0 59 rest
      return rest.isEmpty).getD false)

/-- Whether a text is a time of day with or without an offset. -/
def isClock (text : List Char) : Bool := (takeTime? text).any isOffset

def isDate (text : List Char) : Bool := (takeDate? text).any List.isEmpty

/-- Whether a text is a moment: a date, a time of day, or both joined by a letter. -/
def isMoment (text : List Char) : Bool :=
  (takeTime? text).any List.isEmpty ||
    match takeDate? text with
    | some [] => true
    | some (joint :: clock) => (joint = 'T' || joint = 't') && isClock clock
    | none => false

/-- The scalar a whole text denotes. -/
def readScalar? (text : List Char) : Option Item :=
  if text = "true".toList then some (.bool true)
  else if text = "false".toList then some (.bool false)
  else if isMoment text then some (.moment (String.ofList text))
  else match readFloat? text with
    | some x => some (.float x)
    | none => (readInteger? text).map .integer

end ScriptBridge.Toml
