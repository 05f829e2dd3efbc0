import ScriptBridge.Guest.Syntax
import ScriptBridge.Guest.Value
import ScriptBridge.Numeric.Numeral

/-! Guest numbers: their text, their reading from text, and arithmetic on 64-bit integers that wrap
around and on doubles. -/

namespace ScriptBridge.Guest.Number

/-- Text of an exponent: a sign and at least two digits. -/
def exponentText (e : Int) : String :=
  let digits := toString e.natAbs
  (if e < 0 then "-" else "+") ++ (if digits.length < 2 then "0" ++ digits else digits)

/-- A positive double to fourteen significant digits: with an exponent when it is below a ten-thousandth
or has more than fourteen digits before the point. -/
def significantText (mantissa : Nat) (exponent : Int) : String :=
  let (num, den) := Binary64.magnitude mantissa exponent
  let d := Decimal.significant 14 num den
  if d.point - 1 < -4 ∨ d.point - 1 ≥ 14 then
    match d.digits with
    | [] => "0"
    | first :: rest =>
      String.ofList (first :: if rest.isEmpty then [] else '.' :: rest) ++ "e" ++ exponentText (d.point - 1)
  else d.positional

/-- Text of a double; one that looks like an integer gets a fraction of zero. -/
def floatText (x : Float) : String :=
  match Binary64.ofFloat x with
  | .nan => "-nan"
  | .infinite negative => if negative then "-inf" else "inf"
  | .finite negative mantissa exponent =>
    let plain := if mantissa = 0 then "0" else significantText mantissa exponent
    (if negative then "-" else "") ++ plain ++ (if plain.all Char.isDigit then ".0" else "")

def intText (i : Int64) : String := toString i.toInt

def isSpace (c : Char) : Bool := c = ' ' || (9 ≤ c.toNat && c.toNat ≤ 13)

def trimSpace (text : List Char) : List Char :=
  ((text.dropWhile isSpace).reverse.dropWhile isSpace).reverse

/-- What follows a hexadecimal mark. -/
def afterHexMark? : List Char → Option (List Char)
  | '0' :: mark :: rest => if mark = 'x' ∨ mark = 'X' then some rest else none
  | _ => none

/-- An integer numeral: hexadecimal ones wrap around, decimal ones must be in range. -/
def readInteger? (text : List Char) : Option Int64 :=
  let (negative, body) := Numeral.takeSign text
  match afterHexMark? body with
  | some digits =>
    if digits.isEmpty || !digits.all Numeral.isHexDigit then none
    else
      let value := Int64.ofNat (Numeral.natOfDigits 16 digits)
      some (if negative then -value else value)
  | none => (Numeral.readInt? text).bind int64Of?

/-- A hexadecimal numeral with an optional fraction and binary exponent, after its mark. -/
def readHexFloat? (negative : Bool) (text : List Char) : Option Float :=
  let (whole, rest) := text.span Numeral.isHexDigit
  let (fraction, rest) := match rest with
    | '.' :: rest => rest.span Numeral.isHexDigit
    | rest => ([], rest)
  if whole.isEmpty && fraction.isEmpty then none
  else
    let power? : Option Int := match rest with
      | [] => some 0
      | mark :: rest => if mark = 'p' ∨ mark = 'P' then Numeral.readInt? rest else none
    power?.map fun power =>
      let value := Numeral.natOfDigits 16 (whole ++ fraction)
      let power : Int := max (-5000) (min 5000 (power - 4 * (fraction.length : Int)))
      let (num, den) := Binary64.magnitude value power
      Binary64.nearest negative num den

def readFloat? (text : List Char) : Option Float :=
  if text.any fun c => c = 'n' || c = 'N' then none
  else
    let (negative, body) := Numeral.takeSign text
    match afterHexMark? body with
    | some digits => readHexFloat? negative digits
    | none => Numeral.readFloat? text

/-- The number a text denotes, white space around it ignored. -/
def read? (text : List Char) : Option Value :=
  let text := trimSpace text
  match readInteger? text with
  | some i => some (.int i)
  | none => (readFloat? text).map .float

/-- Bytes as characters of the same codes. -/
def latin (bytes : ByteArray) : List Char := bytes.toList.map fun b => Char.ofNat b.toNat

/-- A number, or the number a string denotes. -/
def ofValue? : Value → Option Value
  | .int i => some (.int i)
  | .float x => some (.float x)
  | .str b => read? (latin b)
  | _ => none

def toFloat? : Value → Option Float
  | .int i => some (Binary64.nearestOfInt i.toInt)
  | .float x => some x
  | _ => none

/-- The integer equal to a number. -/
def toInteger? : Value → Option Int64
  | .int i => some i
  | .float x => Value.exactInt? x
  | _ => none

/-- The greatest integer not above a number, as an integer when it is in range. -/
def floor : Value → Value
  | .float x => ((Value.exactInt? x.floor).map Value.int).getD (.float x.floor)
  | v => v

/-- Remainder of the exact quotient, with the sign of the dividend. -/
def remainder (a b : Float) : Float :=
  match Binary64.ofFloat a, Binary64.ofFloat b with
  | .finite negative m e, .finite _ n f =>
    if n = 0 then Numeral.nan
    else
      let low := min e f
      let rest := m * Nat.pow 2 (e - low).toNat % (n * Nat.pow 2 (f - low).toNat)
      let (num, den) := Binary64.magnitude rest low
      Binary64.nearest negative num den
  | .finite _ _ _, .infinite _ => a
  | _, _ => Numeral.nan

/-- Remainder with the sign of the divisor. -/
def floatMod (a b : Float) : Float :=
  let r := remainder a b
  if (r > 0 && b < 0) || (r < 0 && b > 0) then r + b else r

/-- Why an arithmetic operation has no result. -/
inductive Failure where
  | divisionByZero
  | moduloByZero
  | noInteger
deriving DecidableEq, Repr

def Failure.message : Failure → String
  | divisionByZero => "attempt to divide by zero"
  | moduloByZero => "attempt to perform 'n%%0'"
  | noInteger => "number has no integer representation"

/-- Logical shift to the left, to the right for a negative amount. -/
def shift (i amount : Int64) : Int64 :=
  let word := i.toUInt64.toNat
  let moved := if amount ≥ 64 ∨ amount ≤ -64 then 0
    else if amount ≥ 0 then word <<< amount.toInt.toNat else word >>> amount.toInt.natAbs
  Int64.ofNat moved

def intArith (op : BinaryOp) (i j : Int64) : Except Failure Value :=
  match op with
  | .add => .ok (.int (i + j))
  | .sub => .ok (.int (i - j))
  | .mul => .ok (.int (i * j))
  | .floorDiv => if j = 0 then .error .divisionByZero else .ok (.int (Int64.ofInt (i.toInt.fdiv j.toInt)))
  | .mod => if j = 0 then .error .moduloByZero else .ok (.int (Int64.ofInt (i.toInt.fmod j.toInt)))
  | .bitAnd => .ok (.int (i &&& j))
  | .bitOr => .ok (.int (i ||| j))
  | .bitXor => .ok (.int (i ^^^ j))
  | .shiftLeft => .ok (.int (shift i j))
  | .shiftRight => .ok (.int (if j ≤ -64 then 0 else shift i (-j)))
  | _ => .ok .nil

def floatArith (op : BinaryOp) (a b : Float) : Value :=
  match op with
  | .add => .float (a + b)
  | .sub => .float (a - b)
  | .mul => .float (a * b)
  | .div => .float (a / b)
  | .pow => .float (if b == 2.0 then a * a else Float.pow a b)
  | .floorDiv => .float (a / b).floor
  | .mod => .float (floatMod a b)
  | _ => .nil

/-- Whether an operation works on integers only. -/
def isBitwise : BinaryOp → Bool
  | .bitAnd | .bitOr | .bitXor | .shiftLeft | .shiftRight => true
  | _ => false

/-- The result of an operation on two numbers; `none` when an operand is not a number. -/
def arith? (op : BinaryOp) (v w : Value) : Option (Except Failure Value) :=
  match v, w with
  | .int i, .int j =>
    match op with
    | .div | .pow =>
      some (.ok (floatArith op (Binary64.nearestOfInt i.toInt) (Binary64.nearestOfInt j.toInt)))
    | _ => some (intArith op i j)
  | v, w =>
    match toFloat? v, toFloat? w with
    | some a, some b =>
      if isBitwise op then
        match toInteger? v, toInteger? w with
        | some i, some j => some (intArith op i j)
        | _, _ => some (.error .noInteger)
      else some (.ok (floatArith op a b))
    | _, _ => none

/-- Order of two numbers; `none` when one is not a number or neither order holds. -/
def compare? (v w : Value) : Option Ordering :=
  match v, w with
  | .int i, .int j => some (compare i.toInt j.toInt)
  | .int i, .float x => Binary64.compareInt i.toInt (Binary64.ofFloat x)
  | .float x, .int i => (Binary64.compareInt i.toInt (Binary64.ofFloat x)).map Ordering.swap
  | .float x, .float y =>
    if x < y then some .lt else if x == y then some .eq else if y < x then some .gt else none
  | _, _ => none

end ScriptBridge.Guest.Number
