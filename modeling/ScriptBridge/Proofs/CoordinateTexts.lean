import ScriptBridge.Conversion.CoordText
import ScriptBridge.Proofs.IntegerTexts
import ScriptBridge.Proofs.NearestIntegers
import ScriptBridge.Proofs.UnitLines
import ScriptBridge.Proofs.SignatureRules

/-! Texts of coordinates. A text gives a coordinate just when its commas cut it into three pieces, each an
integer of the range of the grid with white space around it or none. The grammar is stated by what is put
together, a reader takes it apart: it cuts at every comma, drops white space from both ends of a piece, takes a
sign off and wants digits only in what is left. -/

namespace ScriptBridge

/-! ### Pieces and margins -/

namespace Text

variable {separator : Char} {text : List Char}

theorem not_mem_of_mem_pieces {piece : List Char} (h : piece ∈ pieces separator text) : separator ∉ piece := by
  induction text generalizing piece with
  | nil =>
      rw [List.mem_singleton.mp h]
      exact List.not_mem_nil
  | cons c rest ih =>
      obtain ⟨first, more, hpieces⟩ := List.exists_cons_of_ne_nil (pieces_ne_nil separator rest)
      rw [hpieces] at ih
      rw [pieces, hpieces] at h
      split at h
      · rcases List.mem_cons.mp h with rfl | hmem
        · exact List.not_mem_nil
        · exact ih hmem
      · rename_i hne
        rcases List.mem_cons.mp h with rfl | hmem
        · rw [List.mem_cons, not_or]
          exact ⟨Ne.symm hne, ih List.mem_cons_self⟩
        · exact ih (List.mem_cons_of_mem first hmem)

/-- A text has one cut into pieces without the separator. -/
theorem pieces_eq_iff {cut : List (List Char)} (hne : cut ≠ []) : pieces separator text = cut ↔
    text = [separator].intercalate cut ∧ ∀ piece ∈ cut, separator ∉ piece := by
  constructor
  · rintro rfl
    exact ⟨(intercalate_pieces separator text).symm, fun _ => not_mem_of_mem_pieces⟩
  · rintro ⟨rfl, hcut⟩
    exact pieces_intercalate hne hcut

/-- White space and nothing else. -/
def Blank (text : List Char) : Prop := ∀ c ∈ text, CharClass.isBlank c

instance (text : List Char) : Decidable (Blank text) := List.decidableBAll (fun c => CharClass.isBlank c) text

theorem dropWhile_blank {margin : List Char} (h : Blank margin) (text : List Char) :
    (margin ++ text).dropWhile CharClass.isBlank = text.dropWhile CharClass.isBlank :=
  List.dropWhile_append_of_pos h

/-- Trimming takes the margins off a text that has no white space in it. -/
theorem trim_margins {before core after : List Char} (hbefore : Blank before) (hafter : Blank after)
    (hcore : ∀ c ∈ core, CharClass.isBlank c = false) : trim (before ++ core ++ after) = core := by
  have hfront : ((before ++ core ++ after).dropWhile CharClass.isBlank) =
      (core ++ after).dropWhile CharClass.isBlank := by
    rw [List.append_assoc, dropWhile_blank hbefore]
  cases core with
  | nil => rw [trim, hfront, List.nil_append, List.dropWhile_eq_nil_iff.mpr hafter]; rfl
  | cons c rest =>
      have hhead : (c :: rest ++ after).dropWhile CharClass.isBlank = c :: rest ++ after :=
        List.dropWhile_cons_of_neg (by simp [hcore c List.mem_cons_self])
      have hback : Blank after.reverse := fun d hd => hafter d (List.mem_reverse.mp hd)
      have hkept := trim_of_no_blank hcore
      rw [trim, List.dropWhile_cons_of_neg (by simp [hcore c List.mem_cons_self])] at hkept
      rw [trim, hfront, hhead, List.reverse_append, dropWhile_blank hback]
      exact hkept

theorem exists_margins (text : List Char) :
    ∃ before after, text = before ++ trim text ++ after ∧ Blank before ∧ Blank after := by
  let inner := text.dropWhile CharClass.isBlank
  refine ⟨text.takeWhile CharClass.isBlank, (inner.reverse.takeWhile CharClass.isBlank).reverse, ?_,
    fun c hc => List.mem_takeWhile_imp hc, fun c hc => List.mem_takeWhile_imp (List.mem_reverse.mp hc)⟩
  have hinner : trim text ++ (inner.reverse.takeWhile CharClass.isBlank).reverse = inner := by
    rw [trim, ← List.reverse_append, List.takeWhile_append_dropWhile, List.reverse_reverse]
  rw [List.append_assoc, hinner, List.takeWhile_append_dropWhile]

end Text

/-! ### Numerals -/

namespace Numeral

variable {text digits : List Char} {negative : Bool} {n : Int}

/-- One or more ASCII digits. -/
structure IsDigits (digits : List Char) : Prop where
  ne_nil : digits ≠ []
  ascii : ∀ c ∈ digits, '0' ≤ c ∧ c ≤ '9'

/-- How an integer is written: digits, zeros in front included, and before them a sign or none. -/
inductive Spells : List Char → Int → Prop
  | unsigned {digits : List Char} (h : IsDigits digits) : Spells digits (Nat.ofDigitChars 10 digits 0)
  | plus {digits : List Char} (h : IsDigits digits) : Spells ('+' :: digits) (Nat.ofDigitChars 10 digits 0)
  | minus {digits : List Char} (h : IsDigits digits) :
      Spells ('-' :: digits) (-Nat.ofDigitChars 10 digits 0)

theorem IsDigits.isDigit (h : IsDigits digits) : ∀ c ∈ digits, c.isDigit :=
  fun c hc => Operation.isDigit_iff.mpr (h.ascii c hc)

theorem takeSign_cases (h : takeSign text = (negative, digits)) :
    negative = true ∧ text = '-' :: digits ∨ negative = false ∧ (text = '+' :: digits ∨ text = digits) := by
  unfold takeSign at h
  split at h <;> simp_all

theorem readInt?_of_takeSign (h : takeSign text = (negative, digits)) : readInt? text = some n ↔ IsDigits digits ∧
    n = if negative then -(Nat.ofDigitChars 10 digits 0 : Int) else Nat.ofDigitChars 10 digits 0 := by
  rw [readInt?, h]
  dsimp only
  by_cases hdigits : IsDigits digits
  · have hread : (digits.isEmpty || !digits.all Char.isDigit) = false := by
      simpa [hdigits.ne_nil] using hdigits.isDigit
    rw [hread, natOfDigits_eq_ofDigitChars hdigits.isDigit, and_iff_right hdigits]
    simp [eq_comm]
  · have hrefused : (digits.isEmpty || !digits.all Char.isDigit) = true := by
      by_contra hread
      simp only [Bool.or_eq_true, List.isEmpty_iff, Bool.not_eq_true', not_or, Bool.not_eq_false,
        List.all_eq_true] at hread
      exact hdigits ⟨hread.1, fun c hc => Operation.isDigit_iff.mp (hread.2 c hc)⟩
    rw [hrefused]
    exact iff_of_false nofun fun hn => hdigits hn.1

/-- An integer is read just from the texts that spell it. -/
theorem readInt?_eq_some_iff : readInt? text = some n ↔ Spells text n := by
  constructor
  · intro hread
    obtain ⟨negative, digits, htake⟩ : ∃ negative digits, takeSign text = (negative, digits) := ⟨_, _, rfl⟩
    obtain ⟨hdigits, rfl⟩ := (readInt?_of_takeSign htake).mp hread
    rcases takeSign_cases htake with ⟨rfl, rfl⟩ | ⟨rfl, rfl | rfl⟩
    · exact .minus hdigits
    · exact .plus hdigits
    · exact .unsigned hdigits
  · rintro (h | h | h)
    · exact (readInt?_of_takeSign (takeSign_signed false h.isDigit)).mpr ⟨h, rfl⟩
    · exact (readInt?_of_takeSign rfl).mpr ⟨h, rfl⟩
    · exact (readInt?_of_takeSign rfl).mpr ⟨h, rfl⟩

/-- What spells an integer is neither empty nor has anything in it but digits and a sign. -/
theorem Spells.chars (h : Spells text n) : text ≠ [] ∧ ∀ c ∈ text, c = '+' ∨ c = '-' ∨ c.isDigit := by
  cases h with
  | unsigned h => exact ⟨h.ne_nil, fun c hc => .inr (.inr (h.isDigit c hc))⟩
  | plus h =>
      refine ⟨List.cons_ne_nil _ _, fun c hc => ?_⟩
      rcases List.mem_cons.mp hc with rfl | hmem
      · exact .inl rfl
      · exact .inr (.inr (h.isDigit c hmem))
  | minus h =>
      refine ⟨List.cons_ne_nil _ _, fun c hc => ?_⟩
      rcases List.mem_cons.mp hc with rfl | hmem
      · exact .inr (.inl rfl)
      · exact .inr (.inr (h.isDigit c hmem))

theorem Spells.not_blank (h : Spells text n) : ∀ c ∈ text, CharClass.isBlank c = false := by
  intro c hc
  rcases h.chars.2 c hc with rfl | rfl | hdigit
  · decide
  · decide
  · exact isBlank_of_isDigit hdigit

theorem spells_toString (n : Int) : Spells (toString n).toList n := by
  have hascii : ∀ c ∈ Nat.toDigits 10 n.natAbs, c.isDigit :=
    fun c hc => Nat.isDigit_of_mem_toDigits (by decide) (by decide) hc
  have hdigits : IsDigits (Nat.toDigits 10 n.natAbs) :=
    ⟨Nat.toDigits_ne_nil, fun c hc => Operation.isDigit_iff.mp (hascii c hc)⟩
  rw [← readInt?_eq_some_iff, toList_toString, readInt?_of_takeSign (takeSign_signed _ hascii),
    and_iff_right hdigits, Nat.ofDigitChars_ten_toDigits]
  simp only [decide_eq_true_eq]
  split <;> omega

end Numeral

/-! ### Coordinates -/

namespace Coord

variable {piece : List Char} {n : Int}

/-- A component as text: an integer numeral, with white space around it or none. -/
def Denotes (piece : List Char) (n : Int) : Prop :=
  ∃ before numeral after, piece = before ++ numeral ++ after ∧ Text.Blank before ∧ Text.Blank after ∧
    Numeral.Spells numeral n

theorem denotes_iff : Denotes piece n ↔ Numeral.readInt? (Text.trim piece) = some n := by
  rw [Numeral.readInt?_eq_some_iff]
  constructor
  · rintro ⟨before, numeral, after, rfl, hbefore, hafter, hspells⟩
    rwa [Text.trim_margins hbefore hafter hspells.not_blank]
  · intro hspells
    obtain ⟨before, after, hpiece, hbefore, hafter⟩ := Text.exists_margins piece
    exact ⟨before, _, after, hpiece, hbefore, hafter, hspells⟩

theorem axisOfText?_eq_some_iff {axis : Int32} : axisOfText? piece = some axis ↔ Denotes piece axis.toInt := by
  rw [denotes_iff, axisOfText?, Option.bind_eq_some_iff]
  constructor
  · rintro ⟨n, hread, hrange⟩
    rwa [int32Of?_eq_some_iff.mp hrange]
  · exact fun hread => ⟨_, hread, int32Of?_eq_some_iff.mpr rfl⟩

/-- A coordinate is read just from three pieces that denote its components. -/
theorem ofText?_eq_some_iff {text : String} {c : Coord} : ofText? text = some c ↔
    ∃ x y z, Text.pieces ',' text.toList = [x, y, z] ∧
      Denotes x c.x.toInt ∧ Denotes y c.y.toInt ∧ Denotes z c.z.toInt := by
  rw [ofText?]
  constructor
  · intro hread
    split at hread
    · rename_i x y z hpieces
      split at hread
      · rename_i a b d hx hy hz
        obtain rfl := Option.some.inj hread
        exact ⟨x, y, z, hpieces, axisOfText?_eq_some_iff.mp hx, axisOfText?_eq_some_iff.mp hy,
          axisOfText?_eq_some_iff.mp hz⟩
      · cases hread
    · cases hread
  · rintro ⟨x, y, z, hpieces, hx, hy, hz⟩
    simp only [hpieces, axisOfText?_eq_some_iff.mpr hx, axisOfText?_eq_some_iff.mpr hy,
      axisOfText?_eq_some_iff.mpr hz]

theorem Denotes.unique {m : Int} (h : Denotes piece n) (h' : Denotes piece m) : n = m :=
  Option.some.inj ((denotes_iff.mp h).symm.trans (denotes_iff.mp h'))

/-- A component has more in it than white space, and neither a comma nor a point. -/
theorem Denotes.chars (h : Denotes piece n) : ¬ Text.Blank piece ∧ ',' ∉ piece ∧ '.' ∉ piece := by
  obtain ⟨before, numeral, after, rfl, hbefore, hafter, hspells⟩ := h
  obtain ⟨hne, hchars⟩ := hspells.chars
  have hmem : ∀ c ∈ before ++ numeral ++ after, CharClass.isBlank c ∨ c = '+' ∨ c = '-' ∨ c.isDigit := by
    intro c hc
    simp only [List.mem_append] at hc
    rcases hc with (hc | hc) | hc
    · exact .inl (hbefore c hc)
    · exact .inr (hchars c hc)
    · exact .inl (hafter c hc)
  refine ⟨fun hblank => ?_, fun hcomma => absurd (hmem _ hcomma) (by decide),
    fun hpoint => absurd (hmem _ hpoint) (by decide)⟩
  obtain ⟨c, rest, rfl⟩ := List.exists_cons_of_ne_nil hne
  have hc := hspells.not_blank c List.mem_cons_self
  rw [hblank c (by simp)] at hc
  cases hc

/-- Whether something about a text keeps it from being read: the number of its commas, or a piece that is empty,
has a point in it or is out of range. -/
def Refused (text : List Char) : Prop :=
  text.count ',' ≠ 2 ∨ ∃ piece ∈ Text.pieces ',' text, Text.Blank piece ∨ '.' ∈ piece ∨
    ∃ n, Denotes piece n ∧ (n < -2 ^ 31 ∨ 2 ^ 31 - 1 < n)

theorem ofText?_of_refused {text : String} (h : Refused text.toList) : ofText? text = none := by
  rw [Option.eq_none_iff_forall_ne_some]
  intro c hread
  obtain ⟨x, y, z, hpieces, hx, hy, hz⟩ := ofText?_eq_some_iff.mp hread
  rcases h with hcount | ⟨piece, hpiece, hfault⟩
  · have hlength := Text.length_pieces ',' text.toList
    rw [hpieces] at hlength
    exact hcount (Nat.succ.inj hlength).symm
  · obtain ⟨axis, haxis⟩ : ∃ axis : Int32, Denotes piece axis.toInt := by
      rw [hpieces] at hpiece
      simp only [List.mem_cons, List.not_mem_nil, or_false] at hpiece
      rcases hpiece with rfl | rfl | rfl
      · exact ⟨_, hx⟩
      · exact ⟨_, hy⟩
      · exact ⟨_, hz⟩
    obtain ⟨hblank, -, hpoint⟩ := haxis.chars
    rcases hfault with hfault | hfault | ⟨n, hn, hrange⟩
    · exact hblank hfault
    · exact hpoint hfault
    · have hlow := axis.le_toInt
      have hhigh := axis.toInt_lt
      rw [hn.unique haxis] at hrange
      omega

/-- The text of a component with white space around it. -/
theorem denotes_padded {before after : List Char} (hbefore : Text.Blank before) (hafter : Text.Blank after)
    (n : Int) : Denotes (before ++ (toString n).toList ++ after) n :=
  ⟨before, _, after, rfl, hbefore, hafter, Numeral.spells_toString n⟩

/-- **The grammar of coordinate texts.** A text gives a coordinate just when its commas cut it into three pieces,
each a sign or none and ASCII digits, in range, with white space around it or none, and the components are in
the order of the pieces. So the components of any coordinate, written with any white space around them, give it
back; and a text with another number of pieces, or with one that is empty, broken by a point or out of range,
gives none. -/
theorem coordinate_texts :
    (∀ (text : String) (c : Coord), ofText? text = some c ↔
      ∃ x y z : List Char, text.toList = [','].intercalate [x, y, z] ∧
        (∀ piece ∈ [x, y, z], ',' ∉ piece) ∧
        Denotes x c.x.toInt ∧ Denotes y c.y.toInt ∧ Denotes z c.z.toInt) ∧
      (∀ (c : Coord) (before after : Fin 3 → List Char),
        (∀ i, Text.Blank (before i)) → (∀ i, Text.Blank (after i)) →
        let piece (i : Fin 3) (axis : Int32) := before i ++ (toString axis.toInt).toList ++ after i
        ofText? (String.ofList ([','].intercalate [piece 0 c.x, piece 1 c.y, piece 2 c.z])) = some c) ∧
      ∀ text : String, Refused text.toList → ofText? text = none := by
  have hgrammar : ∀ (text : String) (c : Coord), ofText? text = some c ↔
      ∃ x y z : List Char, text.toList = [','].intercalate [x, y, z] ∧
        (∀ piece ∈ [x, y, z], ',' ∉ piece) ∧
        Denotes x c.x.toInt ∧ Denotes y c.y.toInt ∧ Denotes z c.z.toInt := by
    intro text c
    rw [ofText?_eq_some_iff]
    simp only [Text.pieces_eq_iff (List.cons_ne_nil _ _), and_assoc]
  refine ⟨hgrammar, ?_, fun text => ofText?_of_refused⟩
  intro c before after hbefore hafter piece
  have hdenotes : ∀ i axis, Denotes (piece i axis) axis.toInt := fun i axis =>
    denotes_padded (hbefore i) (hafter i) axis.toInt
  refine (hgrammar _ c).mpr ⟨_, _, _, String.toList_ofList, ?_, hdenotes 0 c.x, hdenotes 1 c.y, hdenotes 2 c.z⟩
  simp only [List.forall_mem_cons]
  exact ⟨(hdenotes 0 c.x).chars.2.1, (hdenotes 1 c.y).chars.2.1, (hdenotes 2 c.z).chars.2.1, by simp⟩

/-- Both ends of the range with white space of several sorts; one beyond the lower end, and a fourth piece. -/
theorem few_coordinate_texts :
    Text.Blank [' ', '\t'] ∧ Text.Blank ['\n', '\u3000'] ∧
      ofText? " \t-2147483648\n\u3000, \t2147483647\n\u3000, \t-1000\n\u3000" =
        some ⟨-2147483648, 2147483647, -1000⟩ ∧
      Refused "0,-2147483649,0".toList ∧ ofText? "0,-2147483649,0" = none ∧
      Refused "1,2,3,4".toList ∧ ofText? "1,2,3,4" = none := by
  have hbefore : Text.Blank [' ', '\t'] := by decide
  have hafter : Text.Blank ['\n', '\u3000'] := by decide
  have hbelow : Denotes "-2147483649".toList (-2147483649) := denotes_iff.mpr (by decide)
  have hrange : Refused "0,-2147483649,0".toList := .inr ⟨_, by decide, .inr (.inr ⟨_, hbelow, by decide⟩)⟩
  have hfourth : Refused "1,2,3,4".toList := .inl (by decide)
  obtain ⟨-, hpadded, hrefused⟩ := coordinate_texts
  have hread := hpadded ⟨-2147483648, 2147483647, -1000⟩ _ _ (fun _ => hbefore) (fun _ => hafter)
  refine ⟨hbefore, hafter, ?_, hrange, hrefused _ hrange, hfourth, hrefused _ hfourth⟩
  rw [← hread]
  exact congrArg ofText? (by decide)

end Coord
end ScriptBridge
