/-! Double-precision numbers as exact dyadic rationals. `Binary64.ofFloat` reads a bit pattern as
`± mantissa · 2 ^ exponent`, `Binary64.nearest` finds the double closest to a quotient of natural
numbers, and rounding to integers is done on the exact value, never on another float. -/

namespace ScriptBridge

/-- The value a double-precision bit pattern stands for. -/
inductive Binary64 where
  | nan
  | infinite (negative : Bool)
  | finite (negative : Bool) (mantissa : Nat) (exponent : Int)
deriving DecidableEq, Repr

/-- The quotient `num / den` rounded to the nearest natural number, a half going to the even one. -/
def roundHalfEven (num den : Nat) : Nat :=
  let quotient := num / den
  let twice := 2 * (num % den)
  if twice > den ∨ (twice = den ∧ quotient % 2 = 1) then quotient + 1 else quotient

/-- The quotient `num / 2 ^ shift` rounded to the nearest natural number, a half going up. -/
def roundHalfUp (num shift : Nat) : Nat :=
  match shift with
  | 0 => num
  | lower + 1 => (num + Nat.pow 2 lower) / Nat.pow 2 (lower + 1)

namespace Binary64

/-- Least exponent of a finite double. -/
def minExponent : Int := -1074

/-- The pattern of a double as sign, biased exponent and fraction. -/
def ofBits (bits : UInt64) : Binary64 :=
  let word := bits.toNat
  let negative := word / Nat.pow 2 63 % 2 == 1
  let biased := word / Nat.pow 2 52 % Nat.pow 2 11
  let fraction := word % Nat.pow 2 52
  if biased = 2047 then
    if fraction = 0 then .infinite negative else .nan
  else if biased = 0 then .finite negative fraction minExponent
  else .finite negative (Nat.pow 2 52 + fraction) (minExponent + (biased - 1 : Nat))

def ofFloat (x : Float) : Binary64 := ofBits x.toBits

/-- The exact value of a finite double as a fraction `num / den`, without its sign. -/
def magnitude (mantissa : Nat) (exponent : Int) : Nat × Nat :=
  if exponent < 0 then (mantissa, Nat.pow 2 exponent.natAbs) else (mantissa * Nat.pow 2 exponent.toNat, 1)

/-- The integer nearest to a finite value, a half going away from zero. -/
def nearestInt? : Binary64 → Option Int
  | .finite negative mantissa exponent =>
    let whole := if exponent < 0 then roundHalfUp mantissa exponent.natAbs
      else mantissa * Nat.pow 2 exponent.toNat
    some (if negative then -(whole : Int) else whole)
  | _ => none

/-- The value itself when it is an integer. -/
def toInt? : Binary64 → Option Int
  | .finite negative mantissa exponent =>
    let (num, den) := magnitude mantissa exponent
    if num % den = 0 then some (if negative then -(num / den : Nat) else (num / den : Nat)) else none
  | _ => none

/-- Pattern of the infinity; every pattern above it is a NaN. -/
def infinityBits : Nat := 2047 * Nat.pow 2 52

/-- Exponent of the leading binary digit of `num / den`, both positive. -/
def leadingExponent (num den : Nat) : Int :=
  let estimate : Int := (num.log2 : Int) - den.log2
  let below :=
    if estimate < 0 then num * Nat.pow 2 estimate.natAbs < den else num < den * Nat.pow 2 estimate.toNat
  if below then estimate - 1 else estimate

/-- Unsigned pattern of the double nearest to `num / den`, a half going to the even pattern. -/
def nearestBits (num den : Nat) : Nat :=
  if num = 0 then 0
  else
    let exponent := max (leadingExponent num den - 52) minExponent
    let scaled := if exponent < 0 then roundHalfEven (num * Nat.pow 2 exponent.natAbs) den
      else roundHalfEven num (den * Nat.pow 2 exponent.toNat)
    min ((exponent - minExponent).toNat * Nat.pow 2 52 + scaled) infinityBits

/-- The double nearest to `± num / den`. -/
def nearest (negative : Bool) (num den : Nat) : Float :=
  Float.ofBits (UInt64.ofNat ((if negative then Nat.pow 2 63 else 0) + nearestBits num den))

/-- The double nearest to an integer. -/
def nearestOfInt (i : Int) : Float := nearest (i < 0) i.natAbs 1

/-- The double nearest to `± digits · 10 ^ power`. Powers beyond the range of doubles are cut short
before they are computed. -/
def nearestOfDecimal (negative : Bool) (digits : Nat) (power : Int) : Float :=
  let places : Int := (Nat.toDigits 10 digits).length
  if digits = 0 ∨ places + power < -400 then nearest negative 0 1
  else if places + power > 400 then nearest negative (Nat.pow 2 1100) 1
  else if power < 0 then nearest negative digits (Nat.pow 10 power.natAbs)
  else nearest negative (digits * Nat.pow 10 power.toNat) 1

/-- Order of an integer and a double, `none` for a NaN. -/
def compareInt (i : Int) : Binary64 → Option Ordering
  | .nan => none
  | .infinite negative => some (if negative then .gt else .lt)
  | .finite negative mantissa exponent =>
    let (num, den) := magnitude mantissa exponent
    let signed : Int := if negative then -num else num
    some (compare (i * den) signed)

end Binary64
end ScriptBridge
