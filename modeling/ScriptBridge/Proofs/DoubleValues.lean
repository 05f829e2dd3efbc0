import Mathlib
import ScriptBridge.Proofs.NearestDoubles
import ScriptBridge.Proofs.NearestIntegers

/-! Doubles as numbers. A pattern of sign, exponent and fraction stands for a rational number, unless its
exponent is all ones; a double made from the pattern has that number as its value, and finite doubles are
compared as their values are. -/

namespace ScriptBridge
namespace Binary64
open Float.Model (UnpackedFloat Format)
open Float.Model.UnpackedFloat (Sign unpack unpackSign unpackExponent unpackMantissa)

/-! ### Patterns taken apart -/

/-- What a double taken apart stands for. -/
def ofUnpacked : UnpackedFloat → Binary64
  | .notANumber => .nan
  | .infinity sign => .infinite (sign == .negative)
  | .zero sign => .finite (sign == .negative) 0 minExponent
  | .finite sign mantissa exponent _ => .finite (sign == .negative) mantissa exponent

section Fields

variable (bits : UInt64)

theorem toNat_unpackExponent :
    (@unpackExponent .binary64 bits.toBitVec).toNat = bits.toNat / 2 ^ 52 % 2 ^ 11 := by
  simp [Float.Model.UnpackedFloat.unpackExponent_def, Nat.shiftRight_eq_div_pow]

theorem toNat_unpackMantissa :
    (@unpackMantissa .binary64 bits.toBitVec).toNat = bits.toNat % 2 ^ 52 := by
  simp [Float.Model.UnpackedFloat.unpackMantissa_def]

theorem negative_unpackSign :
    (Sign.ofBitVec (@unpackSign .binary64 bits.toBitVec) == .negative) =
      (bits.toNat / 2 ^ 63 % 2 == 1) := by
  have hbit : (@unpackSign .binary64 bits.toBitVec).toNat = bits.toNat / 2 ^ 63 % 2 := by
    simp [Float.Model.UnpackedFloat.unpackSign_def, Nat.shiftRight_eq_div_pow]
  have hsign : ∀ sign : BitVec 1, (Sign.ofBitVec sign == .negative) = (sign.toNat == 1) := by decide
  rw [hsign, hbit]

theorem ofUnpacked_unpack : ofUnpacked (unpack .binary64 bits.toBitVec) = ofBits bits := by
  have hones : @unpackExponent .binary64 bits.toBitVec = -1#11 ↔
      bits.toNat / 2 ^ 52 % 2 ^ 11 = 2047 := by
    rw [← toNat_unpackExponent, ← BitVec.toNat_inj]
    rfl
  have hleast : @unpackExponent .binary64 bits.toBitVec = 0#11 ↔
      bits.toNat / 2 ^ 52 % 2 ^ 11 = 0 := by
    rw [← toNat_unpackExponent, ← BitVec.toNat_inj]
    rfl
  have hnone : @unpackMantissa .binary64 bits.toBitVec = 0#52 ↔ bits.toNat % 2 ^ 52 = 0 := by
    rw [← toNat_unpackMantissa, ← BitVec.toNat_inj]
    rfl
  have hbias : ((Format.binary64.exponentBias : Nat) : Int) = 1023 := rfl
  rw [unpack, ofBits]
  simp only [Nat.pow_eq, ← negative_unpackSign, hones, hleast, hnone, toNat_unpackExponent, hbias, minExponent]
  split
  · split <;> rfl
  split
  · rename_i hexponent
    split
    · rename_i hfraction
      simp only [ofUnpacked, hfraction, minExponent]
    · simp only [ofUnpacked, toNat_unpackMantissa, hexponent]
      rfl
  · have hlead : (1#1 ++ @unpackMantissa .binary64 bits.toBitVec).toNat =
        2 ^ 52 + bits.toNat % 2 ^ 52 := by
      rw [BitVec.toNat_append, ← Nat.shiftLeft_add_eq_or_of_lt (BitVec.isLt _), toNat_unpackMantissa]
      rfl
    simp only [ofUnpacked, hlead]
    congr 1
    omega

end Fields

theorem ofFloat_eq_ofUnpacked (x : Float) : ofFloat x = ofUnpacked x.toModel.unpack :=
  (ofUnpacked_unpack x.toBits).symm

/-- A double made from a pattern stands for what the pattern does, though a NaN does not keep its pattern. -/
theorem ofFloat_ofBits (bits : UInt64) : ofFloat (.ofBits bits) = ofBits bits := by
  by_cases hnan : bits.toNat / 2 ^ 52 % 2 ^ 11 = 2047 ∧ bits.toNat % 2 ^ 52 ≠ 0
  · have hvalue : ofBits bits = .nan := by
      simp only [ofBits, Nat.pow_eq, if_pos hnan.1, if_neg hnan.2]
    have hunpacked : unpack .binary64 bits.toBitVec = .notANumber := by
      have hread := ofUnpacked_unpack bits
      rw [hvalue] at hread
      cases hcase : unpack .binary64 bits.toBitVec with
      | notANumber => rfl
      | infinity sign | zero sign | finite sign => simp only [hcase, ofUnpacked, reduceCtorEq] at hread
    have hbits : (Float.ofBits bits).toBits =
        .ofBitVec (Float.Model.UnpackedFloat.packedNaN .binary64) := by
      show UInt64.ofBitVec (Float.Model.UnpackedFloat.pack .binary64 (unpack .binary64 bits.toBitVec)) = _
      rw [hunpacked]
      rfl
    rw [hvalue, ofFloat, hbits]
    decide
  · have hkept : bits.toNat / 2 ^ 52 % 2 ^ 11 = 2047 → bits.toNat % 2 ^ 52 = 0 := by
      intro hones
      by_contra hfraction
      exact hnan ⟨hones, hfraction⟩
    rw [ofFloat, toBits_ofBits hkept]

/-! ### Order -/

/-- Digits and exponent as a finite double has them: 53 binary digits, or fewer at the least exponent. -/
structure Canonical (mantissa : Nat) (exponent : Int) : Prop where
  mantissa_lt : mantissa < 2 ^ 53
  minExponent_le : minExponent ≤ exponent
  leading : 2 ^ 52 ≤ mantissa ∨ exponent = minExponent

theorem canonical_of_finite {x : Float} {negative : Bool} {mantissa : Nat} {exponent : Int}
    (h : ofFloat x = .finite negative mantissa exponent) : Canonical mantissa exponent := by
  have hlt := mantissa_lt h
  simp only [ofFloat, ofBits, Nat.pow_eq] at h
  split at h
  · split at h <;> cases h
  split at h <;> cases h
  · exact ⟨hlt, le_rfl, .inr rfl⟩
  · exact ⟨hlt, by omega, .inl (Nat.le_add_right _ _)⟩

namespace Canonical

variable {m n : Nat} {e f : Int}

theorem scaled_lt (hm : Canonical m e) (hn : Canonical n f) (hef : e < f) : (m : ℚ) * 2 ^ e < n * 2 ^ f := by
  have hlt : (m : ℚ) < 2 ^ 53 := by exact_mod_cast hm.mantissa_lt
  have hle : (2 : ℚ) ^ 52 ≤ n := by
    have hleast := hm.minExponent_le
    exact_mod_cast hn.leading.resolve_right (by omega)
  calc (m : ℚ) * 2 ^ e < 2 ^ 53 * 2 ^ e := by gcongr
    _ = 2 ^ 52 * 2 ^ (e + 1) := by rw [zpow_add_one₀ two_ne_zero]; ring
    _ ≤ n * 2 ^ f := by
        gcongr
        · exact one_le_two
        · omega

/-- The exponents decide first, then the digits. -/
theorem compare_scaled (hm : Canonical m e) (hn : Canonical n f) :
    (compare e f).then (compare m n) = compare ((m : ℚ) * 2 ^ e) (n * 2 ^ f) := by
  rcases lt_trichotomy e f with hlt | rfl | hgt
  · rw [compare_lt_iff_lt.mpr hlt, compare_lt_iff_lt.mpr (hm.scaled_lt hn hlt)]
    rfl
  · have hmono : StrictMono fun k : Nat => (k : ℚ) * 2 ^ e := by
      intro k l hkl
      dsimp only
      gcongr
    rw [compare_eq_iff_eq.mpr rfl, Ordering.eq_then, ← cmp_eq_compare, ← cmp_eq_compare]
    exact (hmono.cmp_map_eq m n).symm
  · rw [compare_gt_iff_gt.mpr hgt, compare_gt_iff_gt.mpr (hn.scaled_lt hm hgt)]
    rfl

end Canonical

theorem compare_neg_neg (p q : ℚ) : compare (-p) (-q) = (compare p q).swap := by
  rw [← cmp_eq_compare, ← cmp_eq_compare, cmp_swap]
  exact strictMono_id.neg.cmp_map_eq p q

/-- A finite double taken apart, and its number. -/
inductive StandsFor : UnpackedFloat → ℚ → Prop
  | zero (sign : Sign) : StandsFor (.zero sign) 0
  | positive {m : Nat} {e : Int} (hpos : 0 < m) (hm : Canonical m e) :
      StandsFor (.finite .positive m e hpos) (m * 2 ^ e)
  | negative {m : Nat} {e : Int} (hpos : 0 < m) (hm : Canonical m e) :
      StandsFor (.finite .negative m e hpos) (-(m * 2 ^ e))

theorem standsFor_of_value? {x : Float} {p : ℚ} (h : (ofFloat x).value? = some p) :
    StandsFor x.toModel.unpack p := by
  have hcanonical := @canonical_of_finite x
  rw [ofFloat_eq_ofUnpacked] at h hcanonical
  generalize x.toModel.unpack = unpacked at h hcanonical
  cases unpacked with
  | notANumber => cases h
  | infinity sign => cases h
  | zero sign =>
      simp only [ofUnpacked, value?, Nat.cast_zero, zero_mul, mul_zero, Option.some.injEq] at h
      exact h ▸ .zero sign
  | finite sign m e hpos =>
      have hm : Canonical m e := hcanonical rfl
      simp only [ofUnpacked, value?, Option.some.injEq] at h
      subst h
      cases sign with
      | positive => simpa using StandsFor.positive hpos hm
      | negative => simpa using StandsFor.negative hpos hm

theorem StandsFor.compare_eq {u v : UnpackedFloat} {p q : ℚ} (hu : StandsFor u p) (hv : StandsFor v q) :
    u.compare v = some (compare p q) := by
  have habove : ∀ {m : Nat} {e : Int}, 0 < m → (0 : ℚ) < m * 2 ^ e := by
    intro m e hpos
    positivity
  have hbelow : ∀ {m : Nat} {e : Int}, 0 < m → -((m : ℚ) * 2 ^ e) < 0 := fun hpos =>
    neg_lt_zero.mpr (habove hpos)
  cases hu with
  | zero =>
      cases hv with
      | zero => rw [compare_eq_iff_eq.mpr rfl]; rfl
      | positive hpos' => rw [compare_lt_iff_lt.mpr (habove hpos')]; rfl
      | negative hpos' => rw [compare_gt_iff_gt.mpr (hbelow hpos')]; rfl
  | positive hpos hm =>
      cases hv with
      | zero => rw [compare_gt_iff_gt.mpr (habove hpos)]; rfl
      | positive _ hn => rw [← hm.compare_scaled hn]; rfl
      | negative hpos' => rw [compare_gt_iff_gt.mpr ((hbelow hpos').trans (habove hpos))]; rfl
  | negative hpos hm =>
      cases hv with
      | zero => rw [compare_lt_iff_lt.mpr (hbelow hpos)]; rfl
      | positive hpos' => rw [compare_lt_iff_lt.mpr ((hbelow hpos).trans (habove hpos'))]; rfl
      | negative _ hn => rw [compare_neg_neg, ← hm.compare_scaled hn]; rfl

section Comparison

variable {x y : Float} {p q : ℚ}

theorem lt_iff_value (hx : (ofFloat x).value? = some p) (hy : (ofFloat y).value? = some q) :
    x < y ↔ p < q := by
  have hcompare := (standsFor_of_value? hx).compare_eq (standsFor_of_value? hy)
  rw [← compare_lt_iff_lt]
  show decide (Float.Model.UnpackedFloat.lt x.toModel.unpack y.toModel.unpack = true) = true ↔ _
  rw [decide_eq_true_iff, Float.Model.UnpackedFloat.lt, hcompare]
  cases compare p q <;> decide

theorem le_iff_value (hx : (ofFloat x).value? = some p) (hy : (ofFloat y).value? = some q) :
    x ≤ y ↔ p ≤ q := by
  have hcompare := (standsFor_of_value? hx).compare_eq (standsFor_of_value? hy)
  rw [← compare_le_iff_le]
  show decide (Float.Model.UnpackedFloat.le x.toModel.unpack y.toModel.unpack = true) = true ↔ _
  rw [decide_eq_true_iff, Float.Model.UnpackedFloat.le, hcompare]
  cases compare p q <;> decide

end Comparison

theorem isFinite_eq (x : Float) : x.isFinite = (ofFloat x).value?.isSome := by
  rw [ofFloat_eq_ofUnpacked]
  show x.toModel.unpack.isFinite = _
  cases x.toModel.unpack <;> rfl

end Binary64

/-! ### Values -/

namespace Binary64

theorem value?_of_toInt? {x : Binary64} {i : Int} (h : x.toInt? = some i) : x.value? = some (i : ℚ) := by
  cases x with
  | nan => cases h
  | infinite negative => cases h
  | finite negative mantissa exponent =>
      obtain ⟨whole, hvalue, hi⟩ : ∃ whole : Nat, ((mantissa : ℚ) * 2 ^ exponent) = whole ∧
          i = if negative then -(whole : Int) else whole := by
        by_cases hneg : exponent < 0
        · simp only [toInt?, magnitude, if_pos hneg, Nat.pow_eq, Option.ite_none_right_eq_some,
            Option.some.injEq] at h
          obtain ⟨whole, rfl⟩ := Nat.dvd_of_mod_eq_zero h.1
          rw [Nat.mul_div_cancel_left whole (Nat.two_pow_pos _)] at h
          have hexponent : exponent = -(exponent.natAbs : Int) := by omega
          refine ⟨whole, ?_, h.2.symm⟩
          rw [hexponent, zpow_neg, zpow_natCast, Int.natAbs_neg, Int.natAbs_natCast]
          push_cast
          field_simp
        · have hexponent : exponent = (exponent.toNat : Int) := by omega
          rw [toInt?_of_nonneg negative mantissa exponent.toNat hexponent, Option.some.injEq] at h
          refine ⟨mantissa * 2 ^ exponent.toNat, ?_, h.symm⟩
          rw [hexponent, zpow_natCast, Int.toNat_natCast]
          push_cast
          rfl
      rw [value?, hvalue, hi]
      cases negative <;> simp

/-- Every number has an integer next to it. -/
theorem isSome_nearestInt? (x : Binary64) : x.nearestInt?.isSome = x.value?.isSome := by
  cases x <;> rfl

end Binary64

/-- The number a pattern stands for: a sign, an exponent of bias 1023 and a fraction behind a leading one, or
behind a zero at the least exponent. Infinities and NaNs have an exponent of ones and no number. -/
def patternValue? (bits : UInt64) : Option ℚ :=
  let sign : ℚ := if bits.toNat < 2 ^ 63 then 1 else -1
  let biased : Nat := bits.toNat / 2 ^ 52 % 2 ^ 11
  let fraction : ℚ := (bits.toNat % 2 ^ 52 : Nat) / 2 ^ 52
  if biased = 2047 then none
  else if biased = 0 then some (sign * (fraction * 2 ^ (-1022 : Int)))
  else some (sign * ((1 + fraction) * 2 ^ ((biased : Int) - 1023)))

theorem value?_ofBits (bits : UInt64) : (Binary64.ofBits bits).value? = patternValue? bits := by
  have hsign : (if (bits.toNat / 2 ^ 63 % 2 == 1) = true then (-1 : ℚ) else 1) =
      if bits.toNat < 2 ^ 63 then 1 else -1 := by
    have hlt := bits.toNat_lt
    by_cases hpositive : bits.toNat < 2 ^ 63
    · rw [if_pos hpositive, if_neg (by simp only [beq_iff_eq]; omega)]
    · rw [if_neg hpositive, if_pos (by simp only [beq_iff_eq]; omega)]
  simp only [Binary64.ofBits, patternValue?, Nat.pow_eq]
  split
  · split <;> rfl
  split
  · have hplace : (2 : ℚ) ^ Binary64.minExponent = 2 ^ (-1022 : Int) / 2 ^ 52 := by
      rw [Binary64.minExponent, ← zpow_natCast, ← zpow_sub₀ two_ne_zero]
      rfl
    rw [Binary64.value?, hsign, hplace]
    congr 2
    ring
  · have hplace : (2 : ℚ) ^ (Binary64.minExponent + ((bits.toNat / 2 ^ 52 % 2 ^ 11 - 1 : Nat) : Int)) =
        2 ^ (((bits.toNat / 2 ^ 52 % 2 ^ 11 : Nat) : Int) - 1023) / 2 ^ 52 := by
      rw [← zpow_natCast, ← zpow_sub₀ two_ne_zero]
      congr 1
      rw [Binary64.minExponent]
      omega
    rw [Binary64.value?, hsign, hplace]
    congr 2
    push_cast
    ring

end ScriptBridge
