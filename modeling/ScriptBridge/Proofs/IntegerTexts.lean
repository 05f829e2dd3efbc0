import ScriptBridge.Conversion.ToHost
import ScriptBridge.Proofs.NearestDoubles

/-! Texts of integers where an integer is asked for. Such a text is read as the double nearest to its
integer, so the conversion gives the integer itself when a double holds it, a near one when none does, and
nothing at the upper end of the range, where the nearest double lies beyond it. -/

namespace ScriptBridge

open Binary64

theorem Text.trim_of_no_blank {text : List Char} (h : ∀ c ∈ text, CharClass.isBlank c = false) :
    trim text = text := by
  have hkept : ∀ {rest : List Char}, (∀ c ∈ rest, c ∈ text) → rest.dropWhile CharClass.isBlank = rest := by
    intro rest hrest
    refine List.dropWhile_eq_self_iff.mpr fun hpos => ?_
    rw [h _ (hrest _ (List.getElem_mem hpos))]
    exact Bool.false_ne_true
  rw [trim, hkept fun c hc => hc, hkept fun c hc => List.mem_reverse.mp hc, List.reverse_reverse]

/-! ### Digits as a numeral -/

namespace Numeral

variable {digits : List Char}

theorem digitValue_of_isDigit {c : Char} (h : c.isDigit) : digitValue c = c.toNat - '0'.toNat := by
  have hrange : '0' ≤ c ∧ c ≤ '9' := by simpa [Char.isDigit, Char.le_def] using h
  rw [digitValue, if_pos hrange]

theorem natOfDigits_eq_ofDigitChars (h : ∀ c ∈ digits, c.isDigit) :
    natOfDigits 10 digits = Nat.ofDigitChars 10 digits 0 := by
  refine List.foldl_ext _ _ 0 fun value c hc => ?_
  rw [digitValue_of_isDigit (h c hc)]

theorem natOfDigits_toDigits (n : Nat) : natOfDigits 10 (Nat.toDigits 10 n) = n := by
  rw [natOfDigits_eq_ofDigitChars fun c hc => Nat.isDigit_of_mem_toDigits (by decide) (by decide) hc]
  exact Nat.ofDigitChars_ten_toDigits

theorem isBlank_of_isDigit {c : Char} (h : c.isDigit) : CharClass.isBlank c = false := by
  have hrange : 48 ≤ c.toNat ∧ c.toNat ≤ 57 := Char.isDigit_iff_toNat.mp h
  simp only [CharClass.isBlank, Bool.or_eq_false_iff, Bool.and_eq_false_iff, decide_eq_false_iff_not]
  omega

theorem toLower_of_isDigit {c : Char} (h : c.isDigit) : c.toLower = c := by
  have hrange : 48 ≤ c.toNat ∧ c.toNat ≤ 57 := Char.isDigit_iff_toNat.mp h
  have hupper : ¬ (c.val ≥ 'A'.val ∧ c.val ≤ 'Z'.val) := by
    rintro ⟨hlow, -⟩
    have hle : 65 ≤ c.toNat := hlow
    omega
  rw [Char.toLower, dif_neg hupper]

/-- Digits with a minus sign before them, or none. -/
def signed (negative : Bool) (digits : List Char) : List Char :=
  if negative then '-' :: digits else digits

theorem takeSign_signed (negative : Bool) (h : ∀ c ∈ digits, c.isDigit) :
    takeSign (signed negative digits) = (negative, digits) := by
  cases negative with
  | true => rfl
  | false =>
      rw [signed, if_neg Bool.false_ne_true, takeSign]
      · rintro rest rfl
        exact absurd (h '-' List.mem_cons_self) (by decide)
      · rintro rest rfl
        exact absurd (h '+' List.mem_cons_self) (by decide)

/-- A word of letters is no text of digits. -/
theorem letters_ne (h : ∀ c ∈ digits, c.isDigit) (word : String) (letter : Char) (hword : letter ∈ word.toList)
    (hletter : letter.isDigit = false) : String.ofList (digits.map Char.toLower) ≠ word := by
  intro heq
  have hsame : digits.map Char.toLower = digits :=
    (List.map_congr_left fun c hc => toLower_of_isDigit (h c hc)).trans (List.map_id digits)
  rw [← heq, hsame, String.toList_ofList] at hword
  exact absurd (h letter hword) (by simp [hletter])

/-- Digits are read as the double nearest to their number. -/
theorem readFloat?_signed (negative : Bool) (hne : digits ≠ []) (h : ∀ c ∈ digits, c.isDigit) :
    readFloat? (signed negative digits) = some (nearestOfDecimal negative (natOfDigits 10 digits) 0) := by
  have hwhole : digits.span Char.isDigit = (digits, []) := by
    rw [List.span_eq_takeWhile_dropWhile, List.takeWhile_eq_self_iff.mpr h, List.dropWhile_eq_nil_iff.mpr h]
  have hinf := letters_ne h "inf" 'i' (by decide) (by decide)
  have hinfinity := letters_ne h "infinity" 'i' (by decide) (by decide)
  have hnan := letters_ne h "nan" 'n' (by decide) (by decide)
  have hnonempty : (digits.isEmpty && ([] : List Char).isEmpty) = false := by simpa using hne
  rw [readFloat?, takeSign_signed negative h]
  simp only [hinf, hinfinity, or_self, if_false, hnan, hwhole, takeFraction, hnonempty, readExponent?,
    List.append_nil, Option.map_some, List.length_nil]
  rfl

/-- The value of digits with no places after the point. -/
theorem nearestOfDecimal_zero (negative : Bool) {n : Nat} (h : n < 10 ^ 20) :
    nearestOfDecimal negative n 0 = nearest negative n 1 := by
  have hplaces : (Nat.toDigits 10 n).length ≤ 20 := (Nat.length_toDigits_le_iff (by decide) (by decide)).mpr h
  rw [nearestOfDecimal]
  by_cases hn : n = 0
  · rw [if_pos (.inl hn), hn]
  · rw [if_neg (by omega), if_neg (by omega), if_neg (by omega)]
    simp

theorem toList_toString (i : Int) : (toString i).toList = signed (i < 0) (Nat.toDigits 10 i.natAbs) := by
  rw [Int.toString_eq_repr, Int.repr_eq_if, signed]
  by_cases hneg : i < 0
  · have habs : (-i).toNat = i.natAbs := by omega
    rw [if_neg (by omega), if_pos (decide_eq_true hneg), String.toList_append, Nat.toList_repr, habs]
    rfl
  · have habs : i.toNat = i.natAbs := by omega
    rw [if_pos (by omega), if_neg (by simpa using hneg), Nat.toList_repr, habs]

theorem not_isBlank_of_mem_signed {negative : Bool} (h : ∀ c ∈ digits, c.isDigit) {c : Char}
    (hc : c ∈ signed negative digits) : CharClass.isBlank c = false := by
  cases negative with
  | true =>
      rcases List.mem_cons.mp hc with rfl | hdigit
      · decide
      · exact isBlank_of_isDigit (h c hdigit)
  | false => exact isBlank_of_isDigit (h c hc)

end Numeral

namespace Conversion

open Numeral

/-- The text of an integer is read as the double nearest to it. -/
theorem numberOfText?_toString {i : Int} (h : i.natAbs ≤ 2 ^ 63) :
    numberOfText? (toString i).toUTF8 = some (nearestOfInt i) := by
  have hdigits : ∀ c ∈ Nat.toDigits 10 i.natAbs, c.isDigit :=
    fun c hc => Nat.isDigit_of_mem_toDigits (by decide) (by decide) hc
  have htrim : Text.trim (toString i).toList = signed (i < 0) (Nat.toDigits 10 i.natAbs) := by
    rw [toList_toString]
    exact Text.trim_of_no_blank fun c hc => not_isBlank_of_mem_signed hdigits hc
  rw [numberOfText?, Text.ofBytes_toUTF8, htrim, readFloat?_signed _ Nat.toDigits_ne_nil hdigits,
    natOfDigits_toDigits, nearestOfDecimal_zero _ (by omega), nearestOfInt]

theorem roundToInt64_nearestOfInt {i : Int} (h : i.natAbs ≤ 2 ^ 63) :
    roundToInt64 (nearestOfInt i) =
      if i < 2 ^ 63 - 512 then .ok (Int64.ofInt (roundInt i)) else .error (.outOfRange .int (nearestOfInt i)) := by
  have hmin : Int64.minValue.toInt = -2 ^ 63 := by decide
  have hmax : Int64.maxValue.toInt = 2 ^ 63 - 1 := by decide
  obtain ⟨hlow, hhigh⟩ := roundInt_bounds h
  have hrange : (Int64.minValue.toInt ≤ roundInt i ∧ roundInt i ≤ Int64.maxValue.toInt) ↔ i < 2 ^ 63 - 512 := by
    omega
  rw [roundToInt64, nearestInt?_of_toInt? (toInt?_nearestOfInt h), Option.bind_some, int64Of?]
  by_cases hsmall : i < 2 ^ 63 - 512
  · rw [if_pos (hrange.mpr hsmall), if_pos hsmall]
  · rw [if_neg (mt hrange.mp hsmall), if_neg hsmall]

theorem natAbs_toInt_le (i : Int64) : i.toInt.natAbs ≤ 2 ^ 63 := by
  have hlow := i.le_toInt
  have hhigh := i.toInt_lt
  omega

/-- The rounded integers below the upper end of the range are 64-bit integers. -/
theorem toInt_ofInt_roundInt {i : Int64} (h : i.toInt < 2 ^ 63 - 512) :
    (Int64.ofInt (roundInt i.toInt)).toInt = roundInt i.toInt := by
  obtain ⟨hlow, hhigh⟩ := roundInt_bounds (natAbs_toInt_le i)
  exact Int64.toInt_ofInt_of_le hlow (hhigh.mpr h)

theorem ofInt_roundInt_eq_iff {i : Int64} (h : i.toInt < 2 ^ 63 - 512) :
    Int64.ofInt (roundInt i.toInt) = i ↔ FitsDouble i.toInt.natAbs := by
  rw [← Int64.toInt_inj, toInt_ofInt_roundInt h, roundInt_eq_iff]

/-- The last 512 integers of the range need more digits than a double has. -/
theorem lt_of_fitsDouble {i : Int64} (h : FitsDouble i.toInt.natAbs) : i.toInt < 2 ^ 63 - 512 := by
  by_contra hlarge
  have hround := (roundNat_lt_iff (natAbs_toInt_le i)).not.mpr (by omega)
  rw [(roundNat_eq_iff _).mpr h] at hround
  have hhigh := i.toInt_lt
  omega

/-- What a value gives as an integer where texts of numbers are accepted. -/
def intOf (options : ConversionOptions) (reading : Reading) (evidence : Evidence) (value : Guest.Value) :
    Except ConversionError Value :=
  (convert { options with autoConvert := true } reading .int evidence value).result

section

variable (options : ConversionOptions) (reading : Reading) (evidence : Evidence)

theorem intOf_eq (value : Guest.Value) :
    intOf options reading evidence value = (toInt { options with autoConvert := true } value).map .int := rfl

theorem intOf_toString (i : Int64) : intOf options reading evidence (.text (toString i.toInt)) =
    if i.toInt < 2 ^ 63 - 512 then .ok (.int (Int64.ofInt (roundInt i.toInt)))
    else .error (.outOfRange .int (nearestOfInt i.toInt)) := by
  have htext : toInt { options with autoConvert := true } (.text (toString i.toInt)) =
      roundToInt64 (nearestOfInt i.toInt) := by
    simp only [toInt, Guest.Value.text, numberOfText?_toString (natAbs_toInt_le i)]
  rw [intOf_eq, htext, roundToInt64_nearestOfInt (natAbs_toInt_le i)]
  split <;> rfl

/-- **The text of an integer as an integer.** An integer is given as it is, and its own text as the double
nearest to it: the text gives the integer back exactly when it is the value of a double, else the nearest integer
that is one, and the texts of the last 512 integers of the range are refused. -/
theorem own_text_to_int (i : Int64) :
    (convert { options with autoConvert := true } reading .string evidence (.int i)).result =
        .ok (.str (toString i.toInt)) ∧
      intOf options reading evidence (.int i) = .ok (.int i) ∧
      (intOf options reading evidence (.text (toString i.toInt)) = .ok (.int i) ↔
        FitsDouble i.toInt.natAbs) ∧
      (FitsDouble i.toInt.natAbs ↔ ∃ x : Float, (ofFloat x).toInt? = some i.toInt) ∧
      (i.toInt < 2 ^ 63 - 512 → ∃ near : Int64,
        intOf options reading evidence (.text (toString i.toInt)) = .ok (.int near) ∧
        near.toInt = roundInt i.toInt ∧ FitsDouble near.toInt.natAbs ∧
        ∀ j : Int64, FitsDouble j.toInt.natAbs →
          (near.toInt - i.toInt).natAbs ≤ (j.toInt - i.toInt).natAbs) ∧
      (2 ^ 63 - 512 ≤ i.toInt → intOf options reading evidence (.text (toString i.toInt)) =
        .error (.outOfRange .int (nearestOfInt i.toInt))) := by
  have hgiven := intOf_toString options reading evidence i
  refine ⟨rfl, rfl, ⟨fun hsame => ?_, fun hfits => ?_⟩, fitsDouble_iff_float (natAbs_toInt_le i),
    fun hsmall => ?_, fun hlarge => ?_⟩
  · by_cases hsmall : i.toInt < 2 ^ 63 - 512
    · rw [hgiven, if_pos hsmall] at hsame
      exact (ofInt_roundInt_eq_iff hsmall).mp (Value.int.inj (Except.ok.inj hsame))
    · rw [hgiven, if_neg hsmall] at hsame
      cases hsame
  · have hsmall := lt_of_fitsDouble hfits
    rw [hgiven, if_pos hsmall, (ofInt_roundInt_eq_iff hsmall).mpr hfits]
  · have hvalue := toInt_ofInt_roundInt hsmall
    refine ⟨Int64.ofInt (roundInt i.toInt), hgiven.trans (if_pos hsmall), hvalue, ?_, fun j hj => ?_⟩
    · rw [hvalue, natAbs_roundInt]
      exact fitsDouble_roundNat _
    · rw [hvalue]
      exact roundInt_nearest i.toInt hj
  · rw [hgiven, if_neg (by omega)]

end

/-- A memory in which nothing was put. -/
def noTables : Reading where
  table _ := .empty
  length _ := 0
  isBorder _ := Guest.Table.isBorder_border .empty

/-- Digits beyond the 53rd binary one are lost, and the greatest integer is refused. -/
theorem digits_lost :
    (convert ⟨true, false, true⟩ noTables .string .none (.int 9007199254740993)).result =
        .ok (.str "9007199254740993") ∧
      intOf ⟨true, false, true⟩ noTables .none (.text "9007199254740993") = .ok (.int 9007199254740992) ∧
      (convert ⟨true, false, true⟩ noTables .string .none (.int 9223372036854775807)).result =
        .ok (.str "9223372036854775807") ∧
      intOf ⟨true, false, true⟩ noTables .none (.text "9223372036854775807") =
        .error (.outOfRange .int (nearestOfInt (2 ^ 63 - 1))) := by
  have htext : toString (9007199254740993 : Int64).toInt = "9007199254740993" := by decide
  have hlast : toString (9223372036854775807 : Int64).toInt = "9223372036854775807" := by decide
  have hnear : Int64.ofInt (roundInt (9007199254740993 : Int64).toInt) = 9007199254740992 := by decide
  have hgreatest : (9223372036854775807 : Int64).toInt = 2 ^ 63 - 1 := by decide
  have hshort := intOf_toString ⟨true, false, true⟩ noTables .none 9007199254740993
  have hrefused := intOf_toString ⟨true, false, true⟩ noTables .none 9223372036854775807
  rw [htext, hnear, if_pos (by decide)] at hshort
  rw [hlast, if_neg (by decide), hgreatest] at hrefused
  exact ⟨congrArg (Except.ok <| Value.str ·) htext, hshort, congrArg (Except.ok <| Value.str ·) hlast, hrefused⟩

end Conversion
end ScriptBridge
