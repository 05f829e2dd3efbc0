import Mathlib
import ScriptBridge.Proofs.DoubleValues

/-! Rounding to a 64-bit integer with nothing but doubles. A double is rounded to a whole one, compared with the
doubles next to the ends of the range, and cut off. No step loses anything: the nearest integer is a double itself,
and the double next to the upper end is the first integer out of range, so that comparing with it refuses what is
out of range and nothing else. Every pattern of 64 bits is rounded to the integer nearest to its number or
refused. -/

namespace ScriptBridge
namespace Binary64

/-! ### Steps on doubles -/

/-- A double rounded to a whole one, a half going away from zero. Without digits below the point it is whole. -/
def roundWhole (x : Float) : Float :=
  match ofFloat x with
  | .finite negative mantissa exponent =>
    if exponent < 0 then nearest negative (roundHalfUp mantissa exponent.natAbs) 1 else x
  | _ => x

/-- A double cut off at the point and held to the range of 64-bit integers; a NaN is zero. -/
def cutToInt64 (x : Float) : Int64 :=
  match ofFloat x with
  | .nan => 0
  | .infinite negative => if negative then Int64.minValue else Int64.maxValue
  | .finite negative mantissa exponent =>
    let (num, den) := magnitude mantissa exponent
    Int64.ofIntClamp (if negative then -(num / den : Nat) else (num / den : Nat))

/-- A double with digits below the point has at most 52 before it, and rounding may carry into one more. -/
theorem roundHalfUp_le {mantissa : Nat} (hlt : mantissa < 2 ^ 53) (lower : Nat) :
    roundHalfUp mantissa (lower + 1) ≤ 2 ^ 52 := by
  have hpos : 0 < 2 ^ lower := Nat.two_pow_pos lower
  have hwide : 2 ^ 53 ≤ 2 ^ 53 * 2 ^ lower := Nat.le_mul_of_pos_right _ hpos
  have hbelow : mantissa + 2 ^ lower < 2 ^ (lower + 1) * (2 ^ 52 + 1) := by
    rw [Nat.pow_succ 2 lower]
    omega
  rw [roundHalfUp, Nat.pow_eq, Nat.pow_eq]
  exact Nat.le_of_lt_succ (Nat.div_lt_of_lt_mul hbelow)

/-- The whole double is the nearest integer itself, not only a double next to it. -/
theorem toInt?_roundWhole (x : Float) : (ofFloat (roundWhole x)).toInt? = (ofFloat x).nearestInt? := by
  cases hx : ofFloat x with
  | nan | infinite => simp only [roundWhole, hx, toInt?, nearestInt?]
  | finite negative mantissa exponent =>
      by_cases hneg : exponent < 0
      · obtain ⟨lower, hlower⟩ : ∃ lower, exponent.natAbs = lower + 1 := ⟨exponent.natAbs - 1, by omega⟩
        have hle : roundHalfUp mantissa exponent.natAbs ≤ 2 ^ 52 :=
          hlower ▸ roundHalfUp_le (mantissa_lt hx) lower
        have hlog := log2_lt_of_le (Nat.le_trans hle (by decide))
        have hfits : roundNat (roundHalfUp mantissa exponent.natAbs) = roundHalfUp mantissa exponent.natAbs :=
          (roundNat_eq_iff _).mpr (fitsDouble_of_le (Nat.le_trans hle (by decide)))
        simp only [roundWhole, hx, if_pos hneg, toInt?_nearest negative hlog, hfits, nearestInt?]
      · have hexponent : exponent = (exponent.toNat : Int) := by omega
        simp only [roundWhole, hx, if_neg hneg, toInt?_of_nonneg negative mantissa exponent.toNat hexponent,
          nearestInt?, Nat.pow_eq]

theorem isFinite_roundWhole (x : Float) : (roundWhole x).isFinite = (ofFloat x).nearestInt?.isSome := by
  rw [isFinite_eq]
  cases hnearest : (ofFloat x).nearestInt? with
  | some n => rw [value?_of_toInt? ((toInt?_roundWhole x).trans hnearest)]; rfl
  | none =>
      cases hx : ofFloat x with
      | nan | infinite => simp only [roundWhole, hx, value?, Option.isSome_none]
      | finite => simp only [hx, nearestInt?, reduceCtorEq] at hnearest

theorem cutToInt64_of_toInt? {x : Float} {i : Int} (h : (ofFloat x).toInt? = some i) :
    cutToInt64 x = Int64.ofIntClamp i := by
  cases hx : ofFloat x with
  | nan | infinite => simp only [hx, toInt?, reduceCtorEq] at h
  | finite negative mantissa exponent =>
      simp only [hx, toInt?, Option.ite_none_right_eq_some, Option.some.injEq] at h
      simp only [cutToInt64, hx, h.2]

/-- The lower end of the range is a double. -/
theorem value?_minValue : (ofFloat (nearestOfInt Int64.minValue.toInt)).value? = some ((-2 ^ 63 : Int) : ℚ) := by
  have hround : roundInt Int64.minValue.toInt = -2 ^ 63 := by decide
  rw [value?_of_toInt? (toInt?_nearestOfInt (by decide)), hround]

/-- The upper end is none; the double next to it is the first integer out of range. -/
theorem value?_maxValue : (ofFloat (nearestOfInt Int64.maxValue.toInt)).value? = some ((2 ^ 63 : Int) : ℚ) := by
  have hround : roundInt Int64.maxValue.toInt = 2 ^ 63 := by decide
  rw [value?_of_toInt? (toInt?_nearestOfInt (by decide)), hround]

end Binary64

/-- Rounds, tests the range and cuts off, all on doubles. -/
def roundOnDoubles (x : Float) : Except ConversionError Int64 :=
  let rounded := Binary64.roundWhole x
  if rounded.isFinite = false ∨ rounded < Binary64.nearestOfInt Int64.minValue.toInt ∨
      Binary64.nearestOfInt Int64.maxValue.toInt ≤ rounded then .error (.outOfRange .int x)
  else .ok (Binary64.cutToInt64 rounded)

/-- In range, cutting off at the ends does nothing. -/
theorem int64Of?_eq_ofIntClamp {n : Int} (h : -2 ^ 63 ≤ n ∧ n < 2 ^ 63) :
    int64Of? n = some (Int64.ofIntClamp n) := by
  have hlow : Int64.minValue.toInt ≤ n := h.1
  have hhigh : n ≤ Int64.maxValue.toInt := Int.le_sub_one_of_lt h.2
  rw [int64Of?, if_pos ⟨hlow, hhigh⟩, Int64.ofIntClamp, dif_pos hlow, dif_pos hhigh, Int64.ofIntLE_eq_ofInt]

theorem roundOnDoubles_eq (x : Float) : roundOnDoubles x = roundToInt64 x := by
  have hfinite := Binary64.isFinite_roundWhole x
  have hwhole := Binary64.toInt?_roundWhole x
  rw [roundOnDoubles, roundToInt64]
  cases hnearest : (Binary64.ofFloat x).nearestInt? with
  | none =>
      rw [hnearest] at hfinite
      rw [if_pos (.inl hfinite)]
      rfl
  | some n =>
      rw [hnearest] at hfinite hwhole
      have hvalue := Binary64.value?_of_toInt? hwhole
      have hlow : Binary64.roundWhole x < Binary64.nearestOfInt Int64.minValue.toInt ↔ n < -2 ^ 63 := by
        rw [Binary64.lt_iff_value hvalue Binary64.value?_minValue, Int.cast_lt]
      have hhigh : Binary64.nearestOfInt Int64.maxValue.toInt ≤ Binary64.roundWhole x ↔ 2 ^ 63 ≤ n := by
        rw [Binary64.le_iff_value Binary64.value?_maxValue hvalue, Int.cast_le]
      rw [Binary64.cutToInt64_of_toInt? hwhole, Option.bind_some]
      simp only [hfinite, hlow, hhigh, Option.isSome_some, Bool.true_eq_false, false_or]
      by_cases hrange : -2 ^ 63 ≤ n ∧ n < 2 ^ 63
      · rw [if_neg (by omega), int64Of?_eq_ofIntClamp hrange]
      · have hnone : int64Of? n = none := if_neg fun h => hrange ⟨h.1, Int.lt_of_le_sub_one h.2⟩
        rw [if_pos (by omega), hnone]

/-! ### Rounding of patterns -/

/-- A pattern stands for a number that an integer is nearest to. -/
def RoundsTo (bits : UInt64) (n : Int) : Prop := ∃ q, patternValue? bits = some q ∧ IsNearest q n

theorem roundsTo_iff {bits : UInt64} {n : Int} :
    RoundsTo bits n ↔ (Binary64.ofFloat (.ofBits bits)).nearestInt? = some n := by
  rw [Binary64.nearestInt?_eq_some_iff, Binary64.ofFloat_ofBits, value?_ofBits, RoundsTo]

/-- A pattern that stands for a number rounds to one integer, any other to none. -/
theorem existsUnique_roundsTo_iff (bits : UInt64) : (∃! n, RoundsTo bits n) ↔ (patternValue? bits).isSome := by
  simp only [roundsTo_iff]
  rw [← value?_ofBits, ← Binary64.ofFloat_ofBits, ← Binary64.isSome_nearestInt?]
  cases (Binary64.ofFloat (.ofBits bits)).nearestInt? <;> simp

theorem roundToInt64_ok_iff_roundsTo {bits : UInt64} {i : Int64} :
    roundToInt64 (.ofBits bits) = .ok i ↔ RoundsTo bits i.toInt := by
  rw [roundToInt64_ok_iff, Binary64.ofFloat_ofBits, value?_ofBits, RoundsTo]

theorem exists_roundToInt64_iff {bits : UInt64} :
    (∃ i, roundToInt64 (.ofBits bits) = .ok i) ↔ ∃ n ∈ Set.Icc (-2 ^ 63) (2 ^ 63 - 1), RoundsTo bits n := by
  simp only [roundToInt64_ok_iff_roundsTo]
  constructor
  · rintro ⟨i, hi⟩
    exact ⟨i.toInt, ⟨i.le_toInt, Int.le_sub_one_of_lt i.toInt_lt⟩, hi⟩
  · rintro ⟨n, ⟨hlow, hhigh⟩, hn⟩
    have hvalue : (Int64.ofInt n).toInt = n := Int64.toInt_ofInt_of_le hlow (Int.lt_of_le_sub_one hhigh)
    exact ⟨.ofInt n, hvalue.symm ▸ hn⟩

/-- What is not rounded is refused, and the refusal tells the number. -/
theorem roundToInt64_error_iff {x : Float} :
    roundToInt64 x = .error (.outOfRange .int x) ↔ ¬ ∃ i, roundToInt64 x = .ok i := by
  rw [roundToInt64]
  cases (Binary64.ofFloat x).nearestInt?.bind int64Of? <;> simp

/-- **Rounding to a 64-bit integer is exact.** Whatever the pattern, the steps on doubles give what rounding the
number it stands for gives: the nearest integer if that is in range, and otherwise a refusal. -/
theorem rounding_exact (bits : UInt64) :
    roundOnDoubles (.ofBits bits) = roundToInt64 (.ofBits bits) ∧
      ((∃! n, RoundsTo bits n) ↔ (patternValue? bits).isSome) ∧
      (∀ i : Int64, roundToInt64 (.ofBits bits) = .ok i ↔ RoundsTo bits i.toInt) ∧
      ((∃ i, roundToInt64 (.ofBits bits) = .ok i) ↔
        ∃ n ∈ Set.Icc (-2 ^ 63) (2 ^ 63 - 1), RoundsTo bits n) ∧
      (roundToInt64 (.ofBits bits) = .error (.outOfRange .int (.ofBits bits)) ↔
        ¬ ∃ n ∈ Set.Icc (-2 ^ 63) (2 ^ 63 - 1), RoundsTo bits n) :=
  ⟨roundOnDoubles_eq _, existsUnique_roundsTo_iff bits, fun _ => roundToInt64_ok_iff_roundsTo,
    exists_roundToInt64_iff, roundToInt64_error_iff.trans (not_congr exists_roundToInt64_iff)⟩

/-- The last double below `2 ^ 63` is kept, the next is refused. -/
example : roundOnDoubles (.ofBits 0x43DFFFFFFFFFFFFF) = .ok 9223372036854774784 ∧
    roundOnDoubles (.ofBits 0x43E0000000000000) = .error (.outOfRange .int (.ofBits 0x43E0000000000000)) :=
  ⟨rfl, rfl⟩

end ScriptBridge
