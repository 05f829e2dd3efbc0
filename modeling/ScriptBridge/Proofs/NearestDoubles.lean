import Mathlib
import ScriptBridge.Numeric.Binary64

/-! The double nearest to a natural number, as a natural number. A double has 53 binary digits, so it holds
a number that needs no more, and of a longer one the number rounded at the last of them. -/

namespace ScriptBridge

/-! ### Rounding to a multiple -/

section Rounding

variable {den : Nat}

theorem roundHalfEven_mul (hden : 0 < den) (k : Nat) : roundHalfEven (k * den) den = k := by
  have hnot : ¬ (0 > den ∨ (0 = den ∧ k % 2 = 1)) := by omega
  simp only [roundHalfEven, Nat.mul_div_cancel k hden, Nat.mul_mod_left, Nat.mul_zero, if_neg hnot]

/-- The rounded number is no further off than half a unit. -/
theorem roundHalfEven_near (hden : 0 < den) (num : Nat) :
    2 * num ≤ 2 * (roundHalfEven num den * den) + den ∧ 2 * (roundHalfEven num den * den) ≤ 2 * num + den := by
  have hdiv : num / den * den + num % den = num := Nat.div_add_mod' num den
  have hlt : num % den < den := Nat.mod_lt num hden
  rw [roundHalfEven]
  split
  · rename_i hup
    rw [Nat.add_mul, Nat.one_mul]
    omega
  · omega

theorem le_roundHalfEven (hden : 0 < den) {k num : Nat} (h : k * den ≤ num) : k ≤ roundHalfEven num den := by
  have hle : k ≤ num / den := (Nat.le_div_iff_mul_le hden).mpr h
  rw [roundHalfEven]
  split <;> omega

theorem roundHalfEven_le (hden : 0 < den) {k num : Nat} (h : num ≤ k * den) : roundHalfEven num den ≤ k := by
  rcases Nat.lt_or_eq_of_le h with hlt | rfl
  · have hdiv : num / den < k := (Nat.div_lt_iff_lt_mul hden).mpr hlt
    rw [roundHalfEven]
    split <;> omega
  · exact Nat.le_of_eq (roundHalfEven_mul hden k)

theorem roundHalfEven_exact_iff (hden : 0 < den) (num : Nat) :
    roundHalfEven num den * den = num ↔ den ∣ num := by
  constructor
  · intro h
    exact ⟨roundHalfEven num den, by rw [Nat.mul_comm, h]⟩
  · rintro ⟨k, rfl⟩
    rw [Nat.mul_comm den k, roundHalfEven_mul hden]

/-- No multiple is nearer than the rounded number. -/
theorem roundHalfEven_nearest (hden : 0 < den) (num k : Nat) :
    ((roundHalfEven num den * den : Nat) - (num : Int)).natAbs ≤ ((k * den : Nat) - (num : Int)).natAbs := by
  obtain ⟨hup, hdown⟩ := roundHalfEven_near hden num
  rcases Nat.lt_trichotomy k (roundHalfEven num den) with hlt | rfl | hgt
  · have hstep : (k + 1) * den ≤ roundHalfEven num den * den := Nat.mul_le_mul_right den hlt
    rw [Nat.succ_mul] at hstep
    omega
  · exact Nat.le_refl _
  · have hstep : (roundHalfEven num den + 1) * den ≤ k * den := Nat.mul_le_mul_right den hgt
    rw [Nat.succ_mul] at hstep
    omega

end Rounding

namespace Binary64

/-! ### Patterns of finite doubles -/

/-- A pattern that stands for no NaN is kept as it is. -/
theorem toBits_ofBits {bits : UInt64}
    (h : bits.toNat / 2 ^ 52 % 2 ^ 11 = 2047 → bits.toNat % 2 ^ 52 = 0) : (Float.ofBits bits).toBits = bits := by
  have hvalid : Float.Model.Format.binary64.Valid bits.toBitVec := by
    refine ⟨fun hexponent hmantissa => absurd ?_ hmantissa⟩
    have hones : bits.toNat / 2 ^ 52 % 2 ^ 11 = 2047 := by
      have hnat := congrArg BitVec.toNat hexponent
      simpa [Float.Model.UnpackedFloat.unpackExponent_def, Nat.shiftRight_eq_div_pow] using hnat
    refine BitVec.eq_of_toNat_eq ?_
    simpa [Float.Model.UnpackedFloat.unpackMantissa_def] using h hones
  exact congrArg UInt64.ofBitVec (Float.Model.UnpackedFloat.pack_unpack_of_valid hvalid)

/-- A pattern with a sign, a biased exponent and a fraction. -/
def patternOf (negative : Bool) (biased fraction : Nat) : UInt64 :=
  UInt64.ofNat ((if negative then 2 ^ 63 else 0) + (biased * 2 ^ 52 + fraction))

theorem ofFloat_patternOf (negative : Bool) {biased fraction : Nat} (hbiased : biased < 2047)
    (hfraction : fraction < 2 ^ 52) : ofFloat (.ofBits (patternOf negative biased fraction)) =
      if biased = 0 then .finite negative fraction minExponent
      else .finite negative (2 ^ 52 + fraction) (minExponent + (biased - 1 : Nat)) := by
  have hword : (patternOf negative biased fraction).toNat =
      (if negative then 2 ^ 63 else 0) + (biased * 2 ^ 52 + fraction) := by
    rw [patternOf, UInt64.toNat_ofNat']
    refine Nat.mod_eq_of_lt ?_
    split <;> omega
  have hexponent : (patternOf negative biased fraction).toNat / 2 ^ 52 % 2 ^ 11 = biased := by
    rw [hword]
    split <;> omega
  have hrest : (patternOf negative biased fraction).toNat % 2 ^ 52 = fraction := by
    rw [hword]
    split <;> omega
  have hsign : ((patternOf negative biased fraction).toNat / 2 ^ 63 % 2 == 1) = negative := by
    rw [hword]
    cases negative <;> simp <;> omega
  have hkept : (Float.ofBits (patternOf negative biased fraction)).toBits = patternOf negative biased fraction :=
    toBits_ofBits fun hmax => absurd (hexponent.symm.trans hmax) (Nat.ne_of_lt hbiased)
  rw [ofFloat, hkept, ofBits]
  simp only [Nat.pow_eq, hexponent, hrest, hsign, if_neg (Nat.ne_of_lt hbiased)]

theorem ofFloat_patternOf_normal (negative : Bool) {biased fraction : Nat} (hpos : 0 < biased)
    (hbiased : biased < 2047) (hfraction : fraction < 2 ^ 52) :
    ofFloat (.ofBits (patternOf negative biased fraction)) =
      .finite negative (2 ^ 52 + fraction) (biased - 1075) := by
  have hexponent : minExponent + (biased - 1 : Nat) = (biased : Int) - 1075 := by
    rw [minExponent]
    omega
  rw [ofFloat_patternOf negative hbiased hfraction, if_neg (Nat.ne_of_gt hpos), hexponent]

/-! ### The nearest double -/

/-- Weight of the last binary digit that a double has for a natural number. -/
def spacing (n : Nat) : Nat := 2 ^ (n.log2 - 52)

/-- A natural number rounded to the digits of a double. -/
def roundNat (n : Nat) : Nat := roundHalfEven n (spacing n) * spacing n

/-- The digits of a double nearest to a natural number, with the first of them at place 52. -/
def significand (n : Nat) : Nat :=
  if n.log2 < 52 then n * 2 ^ (52 - n.log2) else roundHalfEven n (spacing n)

theorem spacing_pos (n : Nat) : 0 < spacing n := Nat.two_pow_pos _

theorem spacing_of_log2_lt {n : Nat} (h : n.log2 < 52) : spacing n = 1 := by
  rw [spacing, Nat.sub_eq_zero_of_le (Nat.le_of_lt h), Nat.pow_zero]

theorem roundNat_of_log2_lt {n : Nat} (h : n.log2 < 52) : roundNat n = n := by
  rw [roundNat, roundHalfEven_exact_iff (spacing_pos n), spacing_of_log2_lt h]
  exact Nat.one_dvd n

/-- A natural number lies between two powers of two, both of which are multiples of its spacing. -/
theorem log2_bounds {n : Nat} (hlog : 52 ≤ n.log2) : 2 ^ 52 * spacing n ≤ n ∧ n < 2 ^ 53 * spacing n := by
  have hn : n ≠ 0 := by
    rintro rfl
    exact absurd hlog (by decide)
  have hlow : 2 ^ n.log2 ≤ n := Nat.log2_self_le hn
  have hhigh : n < 2 ^ (n.log2 + 1) := Nat.lt_log2_self
  have hpower : 2 ^ 52 * spacing n = 2 ^ n.log2 := by
    rw [spacing, ← Nat.pow_add, Nat.add_sub_cancel' hlog]
  have hnext : 2 ^ 53 * spacing n = 2 ^ (n.log2 + 1) := by
    rw [Nat.pow_succ 2 n.log2, ← hpower]
    omega
  omega

/-- A shorter number, moved up to the first digit of a double. -/
theorem scaled_bounds {n : Nat} (hn : n ≠ 0) (hlog : n.log2 < 52) :
    2 ^ 52 ≤ n * 2 ^ (52 - n.log2) ∧ n * 2 ^ (52 - n.log2) < 2 ^ 53 := by
  have hlow : 2 ^ n.log2 ≤ n := Nat.log2_self_le hn
  have hhigh : n < 2 ^ (n.log2 + 1) := Nat.lt_log2_self
  have hlast : 2 ^ n.log2 * 2 ^ (52 - n.log2) = 2 ^ 52 := by
    rw [← Nat.pow_add, Nat.add_sub_cancel' (Nat.le_of_lt hlog)]
  have hfirst : 2 ^ (n.log2 + 1) * 2 ^ (52 - n.log2) = 2 ^ 53 := by
    rw [Nat.pow_succ, Nat.mul_right_comm, hlast]
    rfl
  constructor
  · exact hlast ▸ Nat.mul_le_mul_right _ hlow
  · exact hfirst ▸ Nat.mul_lt_mul_of_pos_right hhigh (Nat.two_pow_pos _)

theorem significand_bounds {n : Nat} (hn : n ≠ 0) : 2 ^ 52 ≤ significand n ∧ significand n ≤ 2 ^ 53 := by
  rw [significand]
  split
  · rename_i hlog
    obtain ⟨hlow, hhigh⟩ := scaled_bounds hn hlog
    exact ⟨hlow, Nat.le_of_lt hhigh⟩
  · rename_i hlog
    obtain ⟨hlow, hhigh⟩ := log2_bounds (Nat.not_lt.mp hlog)
    exact ⟨le_roundHalfEven (spacing_pos n) hlow, roundHalfEven_le (spacing_pos n) (Nat.le_of_lt hhigh)⟩

theorem leadingExponent_one {n : Nat} (hn : n ≠ 0) : leadingExponent n 1 = n.log2 := by
  have hone : Nat.log2 1 = 0 := by decide
  have hestimate : (n.log2 : Int) - (0 : Nat) = n.log2 := Int.sub_zero _
  have hnonneg : ¬ (n.log2 : Int) < 0 := by omega
  have hlow : ¬ n < 2 ^ n.log2 := Nat.not_lt.mpr (Nat.log2_self_le hn)
  simp only [leadingExponent, hone, hestimate, Int.toNat_natCast, Nat.pow_eq, Nat.one_mul, if_neg hnonneg,
    if_neg hlow]

theorem nearestBits_eq {n : Nat} (hn : n ≠ 0) (hlog : n.log2 < 1023) :
    nearestBits n 1 = (n.log2 + 1022) * 2 ^ 52 + significand n := by
  have hbounds := significand_bounds hn
  have hexponent : max (leadingExponent n 1 - 52) minExponent = (n.log2 : Int) - 52 := by
    rw [leadingExponent_one hn, minExponent]
    omega
  have hscaled : (if (n.log2 : Int) - 52 < 0 then
      roundHalfEven (n * Nat.pow 2 ((n.log2 : Int) - 52).natAbs) 1
      else roundHalfEven n (1 * Nat.pow 2 ((n.log2 : Int) - 52).toNat)) = significand n := by
    rw [significand]
    by_cases hsmall : n.log2 < 52
    · have habs : ((n.log2 : Int) - 52).natAbs = 52 - n.log2 := by omega
      rw [if_pos (by omega), if_pos hsmall, habs, Nat.pow_eq]
      simpa using roundHalfEven_mul Nat.one_pos (n * 2 ^ (52 - n.log2))
    · have habs : ((n.log2 : Int) - 52).toNat = n.log2 - 52 := by omega
      rw [if_neg (by omega), if_neg hsmall, habs, Nat.pow_eq, Nat.one_mul, spacing]
  have hplace : ((n.log2 : Int) - 52 - minExponent).toNat = n.log2 + 1022 := by
    rw [minExponent]
    omega
  rw [nearestBits, if_neg hn]
  dsimp only
  rw [hexponent, hscaled, hplace, infinityBits]
  simp only [Nat.pow_eq]
  omega

theorem nearest_eq_ofBits (negative : Bool) {num den biased fraction : Nat}
    (h : nearestBits num den = biased * 2 ^ 52 + fraction) :
    nearest negative num den = .ofBits (patternOf negative biased fraction) := by
  rw [nearest, h]
  rfl

/-- The double nearest to a natural number has the number's significand, at the number's exponent; one that
rounds up to a power of two goes on to the next exponent. -/
theorem ofFloat_nearest (negative : Bool) {n : Nat} (hn : n ≠ 0) (hlog : n.log2 < 1023) :
    ofFloat (nearest negative n 1) = if significand n = 2 ^ 53 then .finite negative (2 ^ 52) (n.log2 - 51)
      else .finite negative (significand n) (n.log2 - 52) := by
  obtain ⟨hlow, hhigh⟩ := significand_bounds hn
  have hbits := nearestBits_eq hn hlog
  by_cases hcarry : significand n = 2 ^ 53
  · have hnext : nearestBits n 1 = (n.log2 + 1024) * 2 ^ 52 + 0 := by
      rw [hbits, hcarry]
      omega
    have hbiased : n.log2 + 1024 < 2047 := by omega
    have hexponent : ((n.log2 + 1024 : Nat) : Int) - 1075 = n.log2 - 51 := by omega
    rw [nearest_eq_ofBits negative hnext,
      ofFloat_patternOf_normal negative (Nat.succ_pos _) hbiased (Nat.two_pow_pos 52), if_pos hcarry, hexponent,
      Nat.add_zero]
  · have hsame : nearestBits n 1 = (n.log2 + 1023) * 2 ^ 52 + (significand n - 2 ^ 52) := by
      rw [hbits]
      omega
    have hbiased : n.log2 + 1023 < 2047 := by omega
    have hfraction : significand n - 2 ^ 52 < 2 ^ 52 := by omega
    have hexponent : ((n.log2 + 1023 : Nat) : Int) - 1075 = n.log2 - 52 := by omega
    rw [nearest_eq_ofBits negative hsame, ofFloat_patternOf_normal negative (Nat.succ_pos _) hbiased hfraction,
      if_neg hcarry, hexponent, Nat.add_sub_cancel' hlow]

/-- Rounding a number with places below the point that are all zero. -/
theorem roundHalfUp_mul (n shift : Nat) : roundHalfUp (n * 2 ^ shift) shift = n := by
  cases shift with
  | zero => simp [roundHalfUp]
  | succ lower =>
      have hpos : 0 < 2 ^ (lower + 1) := Nat.two_pow_pos _
      have hlt : 2 ^ lower < 2 ^ (lower + 1) := Nat.pow_lt_pow_succ (by omega)
      simp only [roundHalfUp, Nat.pow_eq]
      rw [Nat.add_comm, Nat.add_mul_div_right _ _ hpos, Nat.div_eq_of_lt hlt, Nat.zero_add]

/-- A value that is an integer is the integer nearest to itself. -/
theorem nearestInt?_of_toInt? {x : Binary64} {i : Int} (h : x.toInt? = some i) : x.nearestInt? = some i := by
  cases x with
  | nan => cases h
  | infinite negative => cases h
  | finite negative mantissa exponent =>
      rw [← h]
      by_cases hneg : exponent < 0
      · simp only [toInt?, magnitude, if_pos hneg, Nat.pow_eq] at h ⊢
        by_cases hwhole : mantissa % 2 ^ exponent.natAbs = 0
        · obtain ⟨whole, rfl⟩ := Nat.dvd_of_mod_eq_zero hwhole
          have hvalue : roundHalfUp (2 ^ exponent.natAbs * whole) exponent.natAbs = whole := by
            rw [Nat.mul_comm, roundHalfUp_mul]
          rw [if_pos hwhole, Nat.mul_div_cancel_left whole (Nat.two_pow_pos _)]
          simp only [nearestInt?, if_pos hneg, hvalue]
        · rw [if_neg hwhole] at h
          cases h
      · simp only [toInt?, magnitude, nearestInt?, if_neg hneg, Nat.mod_one, Nat.div_one, if_true]

theorem toInt?_of_nonneg (negative : Bool) (mantissa shift : Nat) {exponent : Int} (h : exponent = shift) :
    (Binary64.finite negative mantissa exponent).toInt? =
      some (if negative then -((mantissa * 2 ^ shift : Nat) : Int) else (mantissa * 2 ^ shift : Nat)) := by
  have hnonneg : ¬ exponent < 0 := by omega
  have hshift : exponent.toNat = shift := by omega
  simp only [toInt?, magnitude, if_neg hnonneg, hshift, Nat.pow_eq, Nat.mod_one, Nat.div_one, if_true]

theorem toInt?_of_neg (negative : Bool) (whole shift : Nat) {exponent : Int} (h : exponent = -(shift + 1 : Nat)) :
    (Binary64.finite negative (whole * 2 ^ (shift + 1)) exponent).toInt? =
      some (if negative then -(whole : Int) else whole) := by
  have hneg : exponent < 0 := by omega
  have hshift : exponent.natAbs = shift + 1 := by omega
  simp only [toInt?, magnitude, if_pos hneg, hshift, Nat.pow_eq, Nat.mul_mod_left, if_true,
    Nat.mul_div_cancel _ (Nat.two_pow_pos _)]

/-- **The double nearest to a natural number.** Its value is the number rounded to the digits of a double. -/
theorem toInt?_nearest (negative : Bool) {n : Nat} (hlog : n.log2 < 1023) :
    (ofFloat (nearest negative n 1)).toInt? = some (if negative then -(roundNat n : Int) else roundNat n) := by
  by_cases hn : n = 0
  · subst hn
    have hzero : nearestBits 0 1 = 0 * 2 ^ 52 + 0 := rfl
    have hvalue := toInt?_of_neg negative 0 1073 (show minExponent = -(1073 + 1 : Nat) from rfl)
    rw [Nat.zero_mul] at hvalue
    rw [nearest_eq_ofBits negative hzero, ofFloat_patternOf negative (by decide) (by decide), if_pos rfl, hvalue]
    rfl
  rw [ofFloat_nearest negative hn hlog]
  by_cases hsmall : n.log2 < 52
  · obtain ⟨shift, hshift⟩ : ∃ shift, 52 - n.log2 = shift + 1 := ⟨51 - n.log2, by omega⟩
    have hvalue : significand n = n * 2 ^ (shift + 1) := hshift ▸ if_pos hsmall
    have hlt : n * 2 ^ (shift + 1) < 2 ^ 53 := hshift ▸ (scaled_bounds hn hsmall).2
    rw [hvalue, if_neg (Nat.ne_of_lt hlt), roundNat_of_log2_lt hsmall, toInt?_of_neg negative n shift (by omega)]
  · have hvalue : significand n = roundHalfEven n (spacing n) := if_neg hsmall
    rw [roundNat, ← hvalue, spacing]
    by_cases hcarry : significand n = 2 ^ 53
    · have hpower : 2 ^ 52 * 2 ^ (n.log2 - 51) = 2 ^ 53 * 2 ^ (n.log2 - 52) := by
        rw [← Nat.pow_add, ← Nat.pow_add]
        congr 1
        omega
      rw [if_pos hcarry, toInt?_of_nonneg negative _ (n.log2 - 51) (by omega), hpower, hcarry]
    · rw [if_neg hcarry, toInt?_of_nonneg negative _ (n.log2 - 52) (by omega)]

/-! ### Numbers that doubles hold -/

/-- A natural number of at most 53 binary digits before its last zeros. -/
def FitsDouble (n : Nat) : Prop := ∃ mantissa shift, mantissa < 2 ^ 53 ∧ n = mantissa * 2 ^ shift

theorem spacing_dvd_iff (n : Nat) : spacing n ∣ n ↔ FitsDouble n := by
  by_cases hn : n = 0
  · subst hn
    exact ⟨fun _ => ⟨0, 0, by decide, rfl⟩, fun _ => Nat.dvd_zero _⟩
  constructor
  · rintro ⟨k, hk⟩
    refine ⟨k, n.log2 - 52, ?_, by rw [Nat.mul_comm]; exact hk⟩
    by_cases hsmall : n.log2 < 52
    · rw [spacing_of_log2_lt hsmall, Nat.one_mul] at hk
      have hpower : 2 ^ (n.log2 + 1) ≤ 2 ^ 53 := Nat.pow_le_pow_right (by decide) (by omega)
      exact hk ▸ Nat.lt_of_lt_of_le Nat.lt_log2_self hpower
    · obtain ⟨-, hhigh⟩ := log2_bounds (Nat.not_lt.mp hsmall)
      rw [Nat.mul_comm _ (spacing n)] at hhigh
      exact Nat.lt_of_mul_lt_mul_left (a := spacing n) (hk ▸ hhigh)
  · rintro ⟨mantissa, shift, hmantissa, hvalue⟩
    have hlt : 2 ^ n.log2 < 2 ^ (53 + shift) := by
      calc 2 ^ n.log2 ≤ n := Nat.log2_self_le hn
        _ = mantissa * 2 ^ shift := hvalue
        _ < 2 ^ 53 * 2 ^ shift := Nat.mul_lt_mul_of_pos_right hmantissa (Nat.two_pow_pos _)
        _ = 2 ^ (53 + shift) := (Nat.pow_add 2 53 shift).symm
    have hle : n.log2 - 52 ≤ shift := by
      have hexponent : n.log2 < 53 + shift := (Nat.pow_lt_pow_iff_right (by decide)).mp hlt
      omega
    rw [hvalue]
    exact Nat.dvd_mul_left_of_dvd (hvalue ▸ Nat.pow_dvd_pow 2 hle) mantissa

instance (n : Nat) : Decidable (FitsDouble n) := decidable_of_iff _ (spacing_dvd_iff n)

/-- The numbers that rounding leaves as they are. -/
theorem roundNat_eq_iff (n : Nat) : roundNat n = n ↔ FitsDouble n :=
  (roundHalfEven_exact_iff (spacing_pos n) n).trans (spacing_dvd_iff n)

example : ¬ FitsDouble (2 ^ 53 + 1) ∧ roundNat (2 ^ 53 + 1) = 2 ^ 53 := by decide

theorem fitsDouble_two_pow (k : Nat) : FitsDouble (2 ^ k) := ⟨1, k, by decide, (Nat.one_mul _).symm⟩

theorem fitsDouble_of_le {n : Nat} (h : n ≤ 2 ^ 53) : FitsDouble n := by
  rcases Nat.lt_or_eq_of_le h with hlt | rfl
  · exact ⟨n, 0, hlt, (Nat.mul_one n).symm⟩
  · exact fitsDouble_two_pow 53

theorem fitsDouble_roundNat (n : Nat) : FitsDouble (roundNat n) := by
  by_cases hsmall : n.log2 < 52
  · rw [roundNat_of_log2_lt hsmall, ← spacing_dvd_iff, spacing_of_log2_lt hsmall]
    exact Nat.one_dvd n
  · have hhigh := (log2_bounds (Nat.not_lt.mp hsmall)).2
    have hle := roundHalfEven_le (spacing_pos n) (Nat.le_of_lt hhigh)
    obtain ⟨mantissa, shift, hmantissa, hvalue⟩ := fitsDouble_of_le hle
    refine ⟨mantissa, shift + (n.log2 - 52), hmantissa, ?_⟩
    rw [roundNat, hvalue, Nat.pow_add, Nat.mul_assoc]
    rfl

/-- **No number that a double holds is nearer.** -/
theorem roundNat_nearest (n : Nat) {m : Nat} (hm : FitsDouble m) :
    ((roundNat n : Int) - n).natAbs ≤ ((m : Int) - n).natAbs := by
  by_cases hsmall : n.log2 < 52
  · rw [roundNat_of_log2_lt hsmall]
    omega
  have hlog := Nat.not_lt.mp hsmall
  obtain ⟨mantissa, shift, hmantissa, hvalue⟩ := hm
  by_cases hshift : n.log2 - 52 ≤ shift
  · obtain ⟨k, hk⟩ : spacing n ∣ m := by
      rw [hvalue]
      exact Nat.dvd_mul_left_of_dvd (Nat.pow_dvd_pow 2 hshift) mantissa
    rw [hk, Nat.mul_comm]
    exact roundHalfEven_nearest (spacing_pos n) n k
  · -- a number with finer digits is below the power of two that is the last below `n`
    have hbelow : m < 2 ^ 52 * spacing n := by
      calc m = mantissa * 2 ^ shift := hvalue
        _ < 2 ^ 53 * 2 ^ shift := Nat.mul_lt_mul_of_pos_right hmantissa (Nat.two_pow_pos _)
        _ = 2 ^ 52 * 2 ^ (shift + 1) := by rw [Nat.pow_succ 2 shift]; omega
        _ ≤ 2 ^ 52 * spacing n := Nat.mul_le_mul_left _ (Nat.pow_le_pow_right (by decide) (by omega))
    have hnear := roundHalfEven_nearest (spacing_pos n) n (2 ^ 52)
    have hlow := (log2_bounds hlog).1
    rw [roundNat]
    omega

/-- The range of 64-bit integers is left by numbers that are nearer to `2 ^ 63` than to the double below. -/
theorem roundNat_lt_iff {n : Nat} (h : n ≤ 2 ^ 63) : roundNat n < 2 ^ 63 ↔ n < 2 ^ 63 - 512 := by
  constructor
  · intro hround
    by_contra hlarge
    rcases Nat.lt_or_eq_of_le h with hlt | rfl
    · have hlog : n.log2 = 62 := (Nat.log2_eq_iff (by omega)).mpr (by omega)
      have hquotient : n / 2 ^ 10 = 2 ^ 53 - 1 := by omega
      have hup : 2 * (n % 2 ^ 10) > 2 ^ 10 ∨ (2 * (n % 2 ^ 10) = 2 ^ 10 ∧ (2 ^ 53 - 1) % 2 = 1) := by omega
      have hnext : roundHalfEven n (2 ^ 10) = 2 ^ 53 := by
        simp only [roundHalfEven, hquotient, if_pos hup, Nat.sub_add_cancel (Nat.one_le_two_pow)]
      rw [roundNat, spacing, hlog, hnext] at hround
      omega
    · rw [(roundNat_eq_iff _).mpr (fitsDouble_two_pow 63)] at hround
      exact Nat.lt_irrefl _ hround
  · intro hsmall
    have hnear := roundNat_nearest n (m := 2 ^ 63 - 2 ^ 10) ⟨2 ^ 53 - 1, 10, by decide, rfl⟩
    omega

theorem roundNat_le {n : Nat} (h : n ≤ 2 ^ 63) : roundNat n ≤ 2 ^ 63 := by
  have hnear := roundNat_nearest n (fitsDouble_two_pow 63)
  omega

/-! ### Integers -/

/-- An integer rounded to the digits of a double. -/
def roundInt (i : Int) : Int := if i < 0 then -(roundNat i.natAbs : Int) else roundNat i.natAbs

theorem natAbs_roundInt (i : Int) : (roundInt i).natAbs = roundNat i.natAbs := by
  rw [roundInt]
  split
  · rw [Int.natAbs_neg, Int.natAbs_natCast]
  · exact Int.natAbs_natCast _

/-- Only at the upper end of the range of 64-bit integers does rounding lead out of it. -/
theorem roundInt_bounds {i : Int} (h : i.natAbs ≤ 2 ^ 63) :
    -2 ^ 63 ≤ roundInt i ∧ (roundInt i < 2 ^ 63 ↔ i < 2 ^ 63 - 512) := by
  have hlt := roundNat_lt_iff h
  have hle := roundNat_le h
  rw [roundInt]
  split <;> omega

/-- The integers that rounding leaves as they are. -/
theorem roundInt_eq_iff (i : Int) : roundInt i = i ↔ FitsDouble i.natAbs := by
  rw [← roundNat_eq_iff, roundInt]
  split <;> omega

/-- No integer that a double holds is nearer. -/
theorem roundInt_nearest (i : Int) {j : Int} (hj : FitsDouble j.natAbs) :
    (roundInt i - i).natAbs ≤ (j - i).natAbs := by
  have hnear := roundNat_nearest i.natAbs hj
  rw [roundInt]
  split <;> omega

/-- Numbers of the range of 64-bit integers are far below the largest double. -/
theorem log2_lt_of_le {n : Nat} (h : n ≤ 2 ^ 63) : n.log2 < 1023 := by
  calc n.log2 = Nat.log 2 n := Nat.log2_eq_log_two
    _ ≤ Nat.log 2 (2 ^ 63) := Nat.log_mono_right h
    _ = 63 := Nat.log_pow (by decide) 63
    _ < 1023 := by decide

/-- **The double nearest to an integer.** Its value is the integer rounded to the digits of a double. -/
theorem toInt?_nearestOfInt {i : Int} (h : i.natAbs ≤ 2 ^ 63) :
    (ofFloat (nearestOfInt i)).toInt? = some (roundInt i) := by
  rw [nearestOfInt, toInt?_nearest _ (log2_lt_of_le h), roundInt]
  simp only [decide_eq_true_eq]

theorem mantissa_lt {x : Float} {negative : Bool} {mantissa : Nat} {exponent : Int}
    (h : ofFloat x = .finite negative mantissa exponent) : mantissa < 2 ^ 53 := by
  have hfraction : x.toBits.toNat % 2 ^ 52 < 2 ^ 52 := Nat.mod_lt _ (Nat.two_pow_pos 52)
  simp only [ofFloat, ofBits, Nat.pow_eq] at h
  split at h
  · split at h <;> cases h
  · split at h <;> cases h <;> omega

theorem fitsDouble_of_toInt? {x : Float} {i : Int} (h : (ofFloat x).toInt? = some i) : FitsDouble i.natAbs := by
  cases hx : ofFloat x with
  | nan => simp only [hx, toInt?, reduceCtorEq] at h
  | infinite negative => simp only [hx, toInt?, reduceCtorEq] at h
  | finite negative mantissa exponent =>
      have hlt := mantissa_lt hx
      have hsign : ∀ n : Nat, (if negative then -(n : Int) else n).natAbs = n := by
        intro n
        cases negative <;> simp
      by_cases hneg : exponent < 0
      · simp only [hx, toInt?, magnitude, if_pos hneg, Option.ite_none_right_eq_some, Option.some.injEq] at h
        rw [← h.2, hsign]
        exact fitsDouble_of_le (Nat.le_of_lt (Nat.lt_of_le_of_lt (Nat.div_le_self _ _) hlt))
      · have hexponent : exponent = exponent.toNat := by omega
        rw [hx, toInt?_of_nonneg negative mantissa exponent.toNat hexponent, Option.some.injEq] at h
        rw [← h, hsign]
        exact ⟨mantissa, exponent.toNat, hlt, rfl⟩

/-- The integers that fit are those that are the value of a double. -/
theorem fitsDouble_iff_float {i : Int} (h : i.natAbs ≤ 2 ^ 63) :
    FitsDouble i.natAbs ↔ ∃ x : Float, (ofFloat x).toInt? = some i := by
  constructor
  · intro hfits
    exact ⟨nearestOfInt i, by rw [toInt?_nearestOfInt h, (roundInt_eq_iff i).mpr hfits]⟩
  · rintro ⟨x, hvalue⟩
    exact fitsDouble_of_toInt? hvalue

end Binary64
end ScriptBridge
