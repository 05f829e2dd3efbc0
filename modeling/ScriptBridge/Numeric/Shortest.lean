import ScriptBridge.Numeric.Binary64

/-! Decimal text of doubles: the fewest digits that read back as the same number, and a fixed count
of significant digits. Both are found in exact arithmetic on the grid of decimal fractions. -/

namespace ScriptBridge.Decimal

/-- Decimal digits with the place of the point: the number is `0.d₁d₂… · 10 ^ point`. -/
structure Digits where
  digits : List Char
  point : Int
deriving DecidableEq, Repr

/-- The least `p` with `num / den < 10 ^ p`, for a positive quotient. -/
def pointOf (num den : Nat) : Int :=
  let estimate : Int := (Nat.toDigits 10 num).length - (Nat.toDigits 10 den).length
  let atLeast (p : Int) : Bool :=
    if p < 0 then num * Nat.pow 10 p.natAbs ≥ den else num ≥ den * Nat.pow 10 p.toNat
  if atLeast estimate then estimate + 1 else estimate

/-- The quotient `num / den` measured in units of `10 ^ unit`, as a fraction. -/
def inUnits (num den : Nat) (unit : Int) : Nat × Nat :=
  if unit < 0 then (num * Nat.pow 10 unit.natAbs, den) else (num, den * Nat.pow 10 unit.toNat)

/-- The reals that round to a given double: four times its value and of the two ends of the
interval over one denominator, and whether the ends belong to it. -/
structure Interval where
  low : Nat
  value : Nat
  high : Nat
  den : Nat
  closed : Bool

def intervalOf (mantissa : Nat) (exponent : Int) : Interval :=
  let below := if mantissa = Nat.pow 2 52 ∧ exponent > Binary64.minExponent then 1 else 2
  let (scale, den) := Binary64.magnitude 1 exponent
  { low := (4 * mantissa - below) * scale, value := 4 * mantissa * scale
    high := (4 * mantissa + 2) * scale, den := 4 * den, closed := mantissa % 2 = 0 }

/-- Whether the decimal `count · 10 ^ unit` lies in the interval. -/
def Interval.contains (i : Interval) (count : Nat) (unit : Int) : Bool :=
  let (num, den) := if unit < 0 then (count * i.den, Nat.pow 10 unit.natAbs)
    else (count * i.den * Nat.pow 10 unit.toNat, 1)
  if i.closed then i.low * den ≤ num && num ≤ i.high * den
  else i.low * den < num && num < i.high * den

/-- The decimal with unit `10 ^ unit` in the interval that is nearest to its value, the larger one
on a tie. Only the two neighbours of the value need to be looked at. -/
def Interval.onGrid? (i : Interval) (unit : Int) : Option Nat :=
  let (num, den) := inUnits i.value i.den unit
  let lower := num / den
  let upper := if num % den = 0 then lower else lower + 1
  match i.contains lower unit, i.contains upper unit with
  | false, false => none
  | true, false => some lower
  | false, true => some upper
  | true, true => some (if 2 * (num % den) < den then lower else upper)

/-- Digits of `count · 10 ^ unit` without trailing zeros. -/
def Digits.ofCount (count : Nat) (unit : Int) : Digits :=
  let all := Nat.toDigits 10 count
  { digits := (all.reverse.dropWhile (· == '0')).reverse, point := all.length + unit }

/-- The coarsest grid from `count` digits on that has a point in the interval. -/
def Interval.search (i : Interval) (point : Int) (count : Nat) : Nat → Digits
  | 0 => Digits.ofCount (i.value / i.den) 0
  | more + 1 =>
    match i.onGrid? (point - count) with
    | some hit => Digits.ofCount hit (point - count)
    | none => i.search point (count + 1) more

/-- The fewest digits that read back as the positive double `mantissa · 2 ^ exponent`; among those
the nearest to it. Seventeen digits always suffice. -/
def shortest (mantissa : Nat) (exponent : Int) : Digits :=
  let i := intervalOf mantissa exponent
  i.search (pointOf i.value i.den) 1 17

/-- The positive value `num / den` to `count` significant digits, a half going to the even digit.
Trailing zeros are dropped. -/
def significant (count : Nat) (num den : Nat) : Digits :=
  let point := pointOf num den
  let (scaled, unit) := inUnits num den (point - count)
  Digits.ofCount (roundHalfEven scaled unit) (point - count)

/-- Positional text of the digits: no exponent, a leading zero before the point, no bare point. -/
def Digits.positional (d : Digits) : String :=
  if d.digits.isEmpty then "0"
  else if d.point ≤ 0 then
    "0." ++ String.ofList (List.replicate d.point.natAbs '0' ++ d.digits)
  else
    let whole := d.point.toNat
    let padded := d.digits ++ List.replicate (whole - d.digits.length) '0'
    let rest := padded.drop whole
    String.ofList (padded.take whole) ++ (if rest.isEmpty then "" else "." ++ String.ofList rest)

/-- Shortest positional text of a double, with a minus sign also before a negative zero. -/
def text (x : Float) : String :=
  match Binary64.ofFloat x with
  | .nan => "NaN"
  | .infinite negative => if negative then "-inf" else "inf"
  | .finite negative mantissa exponent =>
    (if negative then "-" else "") ++
      (if mantissa = 0 then "0" else (shortest mantissa exponent).positional)

end ScriptBridge.Decimal
