import ScriptBridge.Numeric.Binary64

/-! Reading of decimal numerals. An integer numeral is an optional sign and ASCII digits; a float
numeral may have a fraction and an exponent, and spells infinity and NaN in letters of either case. -/

namespace ScriptBridge.Numeral

/-- Value of one digit, in any base up to sixteen. -/
def digitValue (c : Char) : Nat :=
  if '0' ≤ c ∧ c ≤ '9' then c.toNat - '0'.toNat
  else if 'a' ≤ c ∧ c ≤ 'f' then c.toNat - 'a'.toNat + 10
  else if 'A' ≤ c ∧ c ≤ 'F' then c.toNat - 'A'.toNat + 10
  else 0

/-- A digit in base sixteen, in either case. -/
def isHexDigit (c : Char) : Bool := c.isDigit || ('a' ≤ c && c ≤ 'f') || ('A' ≤ c && c ≤ 'F')

/-- Value of a run of digits in a base, most significant first. -/
def natOfDigits (base : Nat) (digits : List Char) : Nat :=
  digits.foldl (fun value c => base * value + digitValue c) 0

/-- An optional sign, read as "negative", and what follows it. -/
def takeSign : List Char → Bool × List Char
  | '-' :: rest => (true, rest)
  | '+' :: rest => (false, rest)
  | text => (false, text)

/-- The integer a whole text denotes: an optional sign and at least one ASCII digit. -/
def readInt? (text : List Char) : Option Int :=
  let (negative, digits) := takeSign text
  if digits.isEmpty || !digits.all Char.isDigit then none
  else
    let value : Int := natOfDigits 10 digits
    some (if negative then -value else value)

/-- The integer a text denotes, if it lies between two bounds. -/
def readIntIn? (low high : Int) (text : List Char) : Option Int :=
  (readInt? text).filter fun value => low ≤ value ∧ value ≤ high

/-- An optional exponent part that must take up the whole text. -/
def readExponent? : List Char → Option Int
  | [] => some 0
  | mark :: rest => if mark = 'e' ∨ mark = 'E' then readInt? rest else none

/-- The digits after a point, if there is one, and what follows them. -/
def takeFraction : List Char → List Char × List Char
  | '.' :: rest => rest.span Char.isDigit
  | text => ([], text)

def infinity (negative : Bool) : Float :=
  .ofBits (if negative then 0xFFF0000000000000 else 0x7FF0000000000000)

def nan : Float := .ofBits 0x7FF8000000000000

/-- The double nearest to what a whole text denotes. -/
def readFloat? (text : List Char) : Option Float :=
  let (negative, body) := takeSign text
  let letters := String.ofList (body.map Char.toLower)
  if letters = "inf" ∨ letters = "infinity" then some (infinity negative)
  else if letters = "nan" then some nan
  else
    let (whole, rest) := body.span Char.isDigit
    let (fraction, rest) := takeFraction rest
    if whole.isEmpty && fraction.isEmpty then none
    else (readExponent? rest).map fun power =>
      Binary64.nearestOfDecimal negative (natOfDigits 10 (whole ++ fraction)) (power - fraction.length)

end ScriptBridge.Numeral
