import Mathlib
import ScriptBridge.Conversion.Error

/-! The integer nearest to a double. A finite double is a rational number, and the integer it is rounded to is
the one next to that number, a half going away from zero; a result of fixed width is that integer itself, so
nothing wraps and nothing is cut off at the ends of the range. -/

namespace ScriptBridge

/-- An integer is nearest to a number, and of two that are equally near the one further from zero. -/
def IsNearest (q : ℚ) (n : Int) : Prop := |q - n| ≤ 1 / 2 ∧ (|q - n| = 1 / 2 → |q| < |(n : ℚ)|)

namespace IsNearest

variable {q : ℚ} {n m : Int}

theorem neg (h : IsNearest q n) : IsNearest (-q) (-n) := by
  have hdistance : |-q - ((-n : Int) : ℚ)| = |q - n| := by
    rw [← abs_neg (q - n)]
    congr 1
    push_cast
    ring
  refine ⟨hdistance ▸ h.1, fun hhalf => ?_⟩
  rw [abs_neg, Int.cast_neg, abs_neg]
  exact h.2 (hdistance ▸ hhalf)

/-- Half-way between two integers only the upper one is nearest to a number that is not negative. -/
theorem le_of_nonneg (hq : 0 ≤ q) (hn : IsNearest q n) (hm : IsNearest q m) : n ≤ m := by
  by_contra hlt
  have hstep : (m : ℚ) + 1 ≤ n := by exact_mod_cast not_le.mp hlt
  obtain ⟨hlow, -⟩ := abs_le.mp hn.1
  obtain ⟨-, hhigh⟩ := abs_le.mp hm.1
  have htie : q - m = 1 / 2 := by linarith
  have hfar := hm.2 (by rw [htie]; norm_num)
  rw [abs_of_nonneg hq] at hfar
  rcases abs_cases (m : ℚ) with ⟨habs, -⟩ | ⟨habs, hneg⟩
  · linarith
  · have hlast : (m : ℚ) ≤ -1 := by exact_mod_cast Int.le_sub_one_of_lt (by exact_mod_cast hneg : m < 0)
    linarith

theorem unique (hn : IsNearest q n) (hm : IsNearest q m) : n = m := by
  rcases le_total 0 q with hq | hq
  · exact le_antisymm (hn.le_of_nonneg hq hm) (hm.le_of_nonneg hq hn)
  · have hnonneg : 0 ≤ -q := neg_nonneg.mpr hq
    exact neg_injective (le_antisymm (hn.neg.le_of_nonneg hnonneg hm.neg) (hm.neg.le_of_nonneg hnonneg hn.neg))

theorem of_int (n : Int) : IsNearest n n := by
  refine ⟨by simp, fun hhalf => ?_⟩
  rw [sub_self, abs_zero] at hhalf
  norm_num at hhalf

end IsNearest

/-- A quotient by a power of two, rounded. -/
theorem isNearest_roundHalfUp (num shift : Nat) : IsNearest (num / 2 ^ shift : ℚ) (roundHalfUp num shift) := by
  cases shift with
  | zero =>
      simp only [pow_zero, div_one, roundHalfUp]
      exact_mod_cast IsNearest.of_int num
  | succ lower =>
      let half : Nat := 2 ^ lower
      let rounded := (num + half) / (2 * half)
      have hpower : 2 ^ (lower + 1) = 2 * half := by rw [pow_succ, mul_comm]
      have hrounded : roundHalfUp num (lower + 1) = rounded := by
        simp only [roundHalfUp, Nat.pow_eq, hpower, rounded, half]
      have hpos : 0 < half := Nat.two_pow_pos lower
      have hlow : rounded * (2 * half) ≤ num + half := Nat.div_mul_le_self _ _
      have hhigh : num + half < (rounded + 1) * (2 * half) :=
        Nat.lt_mul_of_div_lt (Nat.lt_succ_self _) (by omega)
      have hposQ : (0 : ℚ) < 2 * half := by exact_mod_cast (by omega : 0 < 2 * half)
      have hlowQ : (rounded : ℚ) * (2 * half) ≤ num + half := by exact_mod_cast hlow
      have hhighQ : (num : ℚ) + half < (rounded + 1) * (2 * half) := by exact_mod_cast hhigh
      have hbelow : (rounded : ℚ) - 1 / 2 ≤ num / (2 * half) := by
        rw [le_div_iff₀ hposQ]
        linarith
      have habove : (num : ℚ) / (2 * half) < rounded + 1 / 2 := by
        rw [div_lt_iff₀ hposQ]
        linarith
      rw [hrounded, show ((2 : ℚ) ^ (lower + 1)) = 2 * half by exact_mod_cast hpower]
      have hnonneg : (0 : ℚ) ≤ num / (2 * half) := by positivity
      simp only [Int.cast_natCast, IsNearest]
      refine ⟨abs_le.mpr ⟨by linarith, by linarith⟩, fun hhalf => ?_⟩
      -- the number lies below the integer, so the integer is further from zero
      have hunder : (num : ℚ) / (2 * half) - rounded = -(1 / 2) := by
        rcases abs_eq (by norm_num) |>.mp hhalf with hover | hunder
        · linarith
        · exact hunder
      rw [abs_of_nonneg hnonneg, Nat.abs_cast]
      linarith

namespace Binary64

/-- The number a finite double stands for. -/
def value? : Binary64 → Option ℚ
  | .finite negative mantissa exponent => some ((if negative then -1 else 1) * (mantissa * 2 ^ exponent))
  | _ => none

/-- **The integer found for a double is the one nearest to its value.** -/
theorem nearestInt?_eq_some_iff {x : Binary64} {n : Int} :
    x.nearestInt? = some n ↔ ∃ q, x.value? = some q ∧ IsNearest q n := by
  cases x with
  | nan | infinite => simp [nearestInt?, value?]
  | finite negative mantissa exponent =>
      obtain ⟨whole, hwhole, hnearest⟩ : ∃ whole : Nat,
          nearestInt? (.finite negative mantissa exponent) = some (if negative then -(whole : Int) else whole) ∧
            IsNearest (mantissa * 2 ^ exponent) whole := by
        rw [nearestInt?]
        refine ⟨_, rfl, ?_⟩
        split
        · rename_i hneg
          have hexponent : exponent = -(exponent.natAbs : Int) := by omega
          have hvalue : ((mantissa : ℚ) * 2 ^ exponent) = mantissa / 2 ^ exponent.natAbs := by
            rw [hexponent, zpow_neg, zpow_natCast, Int.natAbs_neg, Int.natAbs_natCast, div_eq_mul_inv]
          rw [hvalue]
          exact isNearest_roundHalfUp mantissa exponent.natAbs
        · rename_i hneg
          have hexponent : exponent = (exponent.toNat : Int) := by omega
          have hvalue : ((mantissa : ℚ) * 2 ^ exponent) = ((mantissa * Nat.pow 2 exponent.toNat : Nat) : Int) := by
            rw [hexponent, zpow_natCast, Int.toNat_natCast]
            push_cast [Nat.pow_eq]
            rfl
          rw [hvalue]
          exact IsNearest.of_int _
      have hsigned : IsNearest ((if negative then -1 else 1) * (mantissa * 2 ^ exponent))
          (if negative then -(whole : Int) else whole) := by
        cases negative with
        | true => simpa using hnearest.neg
        | false => simpa using hnearest
      rw [hwhole, value?]
      simp only [Option.some.injEq, exists_eq_left']
      exact ⟨fun heq => heq ▸ hsigned, fun hn => hsigned.unique hn⟩

end Binary64

theorem int64Of?_eq_some_iff {n : Int} {i : Int64} : int64Of? n = some i ↔ i.toInt = n := by
  have hlow : Int64.minValue.toInt = -2 ^ 63 := by decide
  have hhigh : Int64.maxValue.toInt = 2 ^ 63 - 1 := by decide
  have hi := i.le_toInt
  have hi' := i.toInt_lt
  rw [int64Of?]
  split
  · rename_i hrange
    rw [Option.some.injEq]
    have hvalue : (Int64.ofInt n).toInt = n := Int64.toInt_ofInt_of_le (by omega) (by omega)
    exact ⟨fun heq => heq ▸ hvalue, fun heq => Int64.toInt_inj.mp (hvalue.trans heq.symm)⟩
  · exact iff_of_false (by simp) (by omega)

theorem int32Of?_eq_some_iff {n : Int} {i : Int32} : int32Of? n = some i ↔ i.toInt = n := by
  have hlow : Int32.minValue.toInt = -2 ^ 31 := by decide
  have hhigh : Int32.maxValue.toInt = 2 ^ 31 - 1 := by decide
  have hi := i.le_toInt
  have hi' := i.toInt_lt
  rw [int32Of?]
  split
  · rename_i hrange
    rw [Option.some.injEq]
    have hvalue : (Int32.ofInt n).toInt = n := Int32.toInt_ofInt_of_le (by omega) (by omega)
    exact ⟨fun heq => heq ▸ hvalue, fun heq => Int32.toInt_inj.mp (hvalue.trans heq.symm)⟩
  · exact iff_of_false (by simp) (by omega)

/-- A double is rounded to the integer nearest to its value, or refused when that is out of range. -/
theorem roundToInt64_ok_iff {x : Float} {i : Int64} :
    roundToInt64 x = .ok i ↔ ∃ q, (Binary64.ofFloat x).value? = some q ∧ IsNearest q i.toInt := by
  rw [← Binary64.nearestInt?_eq_some_iff, roundToInt64]
  have hbind : (Binary64.ofFloat x).nearestInt?.bind int64Of? = some i ↔
      (Binary64.ofFloat x).nearestInt? = some i.toInt := by
    simp only [Option.bind_eq_some_iff, int64Of?_eq_some_iff]
    exact ⟨fun ⟨n, hn, hi⟩ => hi ▸ hn, fun h => ⟨_, h, rfl⟩⟩
  rw [← hbind]
  cases (Binary64.ofFloat x).nearestInt?.bind int64Of? <;> simp

theorem narrowToInt32_ok_iff {wide : Int64} {i : Int32} : narrowToInt32 wide = .ok i ↔ i.toInt = wide.toInt := by
  rw [← int32Of?_eq_some_iff, narrowToInt32]
  cases int32Of? wide.toInt <;> simp

end ScriptBridge
