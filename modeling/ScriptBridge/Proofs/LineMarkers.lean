import Mathlib.Data.List.TakeWhile
import ScriptBridge.LineMarker
import ScriptBridge.Proofs.IntegerTexts
import ScriptBridge.Proofs.PublishedListing

/-! The marker that counts. A marker is a text of its own form, and the scan finds the one that begins first in a
message, whatever markers or halves of markers there are beside it. Its digits are a line number just when they
are ASCII and their number is one of 64 bits; no later marker stands in for it. No marker has the beginning of a
quoted one anywhere inside it, so nothing before a quoted marker can take it over. -/

namespace ScriptBridge

namespace CharClass

theorem isDigit_of_ascii {c : Char} (h : c.isDigit) : isDigit c := by
  have hrange : 48 ≤ c.toNat ∧ c.toNat ≤ 57 := Char.isDigit_iff_toNat.mp h
  rw [isDigit, if_pos (by omega)]
  exact h

/-- White space beyond ASCII. -/
def wideBlanks : List Nat := [0x85, 0xA0, 0x1680, 0x2028, 0x2029, 0x202F, 0x205F, 0x3000] ++ List.range' 0x2000 11

theorem within_wideBlanks : ∀ point ∈ wideBlanks, within digitBounds point = false := by decide +kernel

theorem isDigit_of_isBlank {c : Char} (h : isBlank c) : isDigit c = false := by
  simp only [isBlank, Bool.or_eq_true, Bool.and_eq_true, decide_eq_true_eq] at h
  rw [isDigit]
  split
  · have hrange : ¬ (48 ≤ c.toNat ∧ c.toNat ≤ 57) := by omega
    exact Bool.eq_false_iff.mpr (mt Char.isDigit_iff_toNat.mp hrange)
  · refine within_wideBlanks c.toNat ?_
    simp only [wideBlanks, List.mem_append, List.mem_range'_1, List.mem_cons, List.not_mem_nil, or_false]
    omega

end CharClass

namespace LineMarker

/-! ### Markers -/

/-- A name of the chunk, a colon, white space if any, digits of any script, and a colon. -/
structure Marker where
  name : List Char
  blanks : List Char
  digits : List Char
  named : name = quotedName ∨ name = plainName
  blank : ∀ c ∈ blanks, CharClass.isBlank c
  digit : ∀ c ∈ digits, CharClass.isDigit c
  counted : digits ≠ []

/-- Whether the last character of a text is one of a word. -/
def endsInWord (text : List Char) : Bool := text.getLast?.any CharClass.isWord

namespace Marker

def text (m : Marker) : List Char := m.name ++ ':' :: (m.blanks ++ (m.digits ++ [':']))

/-- A marker stands in a message behind a part of it; a plain name must be the beginning of a word. -/
structure StandsIn (m : Marker) (message before : List Char) : Prop where
  placed : ∃ after, message = before ++ (m.text ++ after)
  bounded : m.name = plainName → endsInWord before = false

/-- No marker of the message begins before this one. -/
structure IsFirstIn (m : Marker) (message before : List Char) : Prop extends m.StandsIn message before where
  first : ∀ {m' : Marker} {before'}, m'.StandsIn message before' → before.length ≤ before'.length

/-- The digits are ASCII and their number is one of 64 bits. -/
structure Denotes (m : Marker) (n : Int) : Prop where
  ascii : ∀ c ∈ m.digits, c.isDigit
  value : n = Nat.ofDigitChars 10 m.digits 0
  le_max : n ≤ Int64.maxValue.toInt

end Marker

variable {message before text digits : List Char} {inWord : Bool} {m m' : Marker} {c : Char}

/-! ### A marker at the beginning of a text -/

/-- A run of one sort of character ends where another sort begins. -/
theorem run_append {p : Char → Bool} {run rest : List Char} (hrun : ∀ c ∈ run, p c)
    (hrest : ∀ c ∈ rest.head?, p c = false) :
    (run ++ rest).takeWhile p = run ∧ (run ++ rest).dropWhile p = rest := by
  rw [List.takeWhile_append_of_pos hrun, List.dropWhile_append_of_pos hrun]
  cases rest with
  | nil => simp
  | cons c rest =>
      have hc : ¬ p c = true := Bool.eq_false_iff.mp (hrest c rfl)
      rw [List.takeWhile_cons_of_neg hc, List.dropWhile_cons_of_neg hc, List.append_nil]
      exact ⟨rfl, rfl⟩

/-- The white space and the digits of a marker end where the next sort of character begins. -/
theorem digitsAfterName?_eq_some_iff : digitsAfterName? text = some digits ↔
    ∃ blanks after, text = ':' :: (blanks ++ (digits ++ ':' :: after)) ∧
      (∀ c ∈ blanks, CharClass.isBlank c) ∧ (∀ c ∈ digits, CharClass.isDigit c) ∧ digits ≠ [] := by
  constructor
  · intro h
    unfold digitsAfterName? at h
    split at h
    · rename_i rest
      dsimp only at h
      split at h
      · cases h
      · rename_i hcounted
        obtain rfl := Option.some.inj h
        simp only [Bool.or_eq_true, decide_eq_true_eq, not_or, not_not] at hcounted
        obtain ⟨hne, hcolon⟩ := hcounted
        obtain ⟨after, hafter⟩ := List.head?_eq_some_iff.mp hcolon
        refine ⟨rest.takeWhile CharClass.isBlank, after, ?_, fun _ => List.mem_takeWhile_imp,
          fun _ => List.mem_takeWhile_imp, by simpa using hne⟩
        rw [← hafter, List.takeWhile_append_dropWhile, List.takeWhile_append_dropWhile]
    · cases h
  · rintro ⟨blanks, after, rfl, hblank, hdigit, hne⟩
    have hother : ∀ c ∈ (digits ++ ':' :: after).head?, CharClass.isBlank c = false := by
      intro c hc
      rw [List.head?_append_of_ne_nil _ hne] at hc
      refine Bool.eq_false_iff.mpr fun hblank => ?_
      cases (hdigit c (List.mem_of_mem_head? hc)).symm.trans (CharClass.isDigit_of_isBlank hblank)
    have hcolon : ∀ c ∈ (':' :: after).head?, CharClass.isDigit c = false := by
      intro c hc
      obtain rfl := Option.some.inj hc
      decide
    obtain ⟨-, hskip⟩ := run_append hblank hother
    obtain ⟨htake, hdrop⟩ := run_append hdigit hcolon
    simp only [digitsAfterName?, hskip, htake, hdrop]
    simp [hne]

/-- What comes behind a name of the chunk are a marker's digits just when the two make a marker. -/
theorem digitsAfter_iff {name : List Char} (hname : name = quotedName ∨ name = plainName) :
    (Text.dropStart? name text).bind digitsAfterName? = some digits ↔
      ∃ m : Marker, ∃ after, text = m.text ++ after ∧ m.name = name ∧ m.digits = digits := by
  simp only [Option.bind_eq_some_iff, Text.dropStart?_eq_some_iff, digitsAfterName?_eq_some_iff]
  constructor
  · rintro ⟨_, rfl, blanks, after, rfl, hblank, hdigit, hne⟩
    refine ⟨⟨name, blanks, digits, hname, hblank, hdigit, hne⟩, after, ?_, rfl, rfl⟩
    simp [Marker.text]
  · rintro ⟨m, after, rfl, rfl, rfl⟩
    refine ⟨_, ?_, m.blanks, after, rfl, m.blank, m.digit, m.counted⟩
    simp [Marker.text]

theorem head?_text (m : Marker) (after : List Char) : (m.text ++ after).head? = m.name.head? := by
  rcases m.named with hname | hname <;> rw [Marker.text, hname] <;> rfl

theorem head?_name_ne : quotedName.head? ≠ plainName.head? := by decide

/-- The two names begin differently, so a text begins with a marker of one sort at most. -/
theorem quoted_ne_plain {after after' : List Char} (hquoted : m.name = quotedName) (hplain : m'.name = plainName) :
    m.text ++ after ≠ m'.text ++ after' := by
  intro h
  have hhead := congrArg List.head? h
  rw [head?_text, head?_text, hquoted, hplain] at hhead
  exact head?_name_ne hhead

theorem digitsHere?_eq_some_iff : digitsHere? inWord text = some digits ↔
    ∃ m : Marker, ∃ after, text = m.text ++ after ∧ (m.name = plainName → inWord = false) ∧ m.digits = digits := by
  rw [digitsHere?]
  cases hquoted : (Text.dropStart? quotedName text).bind digitsAfterName? with
  | some found =>
      obtain ⟨m, after, rfl, hname, rfl⟩ := (digitsAfter_iff (.inl rfl)).mp hquoted
      dsimp only
      constructor
      · rintro h
        refine ⟨m, after, rfl, fun hplain => ?_, Option.some.inj h⟩
        exact absurd (congrArg List.head? (hname.symm.trans hplain)) head?_name_ne
      · rintro ⟨m', after', htext, -, rfl⟩
        rcases m'.named with hname' | hname'
        · rw [← hquoted]
          exact (digitsAfter_iff (.inl rfl)).mpr ⟨m', after', htext, hname', rfl⟩
        · exact absurd htext (quoted_ne_plain hname hname')
  | none =>
      dsimp only
      constructor
      · intro h
        split at h
        · cases h
        · rename_i hfree
          obtain ⟨m, after, htext, -, hdigits⟩ := (digitsAfter_iff (.inr rfl)).mp h
          exact ⟨m, after, htext, fun _ => Bool.eq_false_iff.mpr hfree, hdigits⟩
      · rintro ⟨m, after, htext, hfree, hdigits⟩
        rcases m.named with hname | hname
        · have hsome := (digitsAfter_iff (.inl rfl)).mpr ⟨m, after, htext, hname, hdigits⟩
          cases hquoted.symm.trans hsome
        · rw [hfree hname, if_neg Bool.false_ne_true]
          exact (digitsAfter_iff (.inr rfl)).mpr ⟨m, after, htext, hname, hdigits⟩

/-! ### The first marker -/

theorem standsIn_iff : m.StandsIn (before ++ text) before ↔
    ∃ after, text = m.text ++ after ∧ (m.name = plainName → endsInWord before = false) := by
  constructor
  · rintro ⟨⟨after, hplaced⟩, hbounded⟩
    exact ⟨after, List.append_cancel_left hplaced, hbounded⟩
  · rintro ⟨after, rfl, hbounded⟩
    exact ⟨⟨after, rfl⟩, hbounded⟩

theorem digitsHere?_iff_standsIn : digitsHere? (endsInWord before) text = some digits ↔
    ∃ m : Marker, m.StandsIn (before ++ text) before ∧ m.digits = digits := by
  simp only [digitsHere?_eq_some_iff, standsIn_iff, exists_and_right, and_assoc]

/-- Behind a part of the message, a marker that is the first one there. -/
structure IsNext (before text : List Char) (m : Marker) (skipped : List Char) : Prop where
  stands : m.StandsIn (before ++ text) (before ++ skipped)
  next : ∀ {m' : Marker} {skipped'}, m'.StandsIn (before ++ text) (before ++ skipped') →
    skipped.length ≤ skipped'.length

theorem isNext_nil_iff : IsNext before text m [] ↔ m.StandsIn (before ++ text) before := by
  constructor
  · intro h
    simpa only [List.append_nil] using h.stands
  · intro h
    exact ⟨by rwa [List.append_nil], fun _ => Nat.zero_le _⟩

theorem IsNext.eq_nil {skipped : List Char} (h : IsNext before text m skipped)
    (hstands : m'.StandsIn (before ++ text) before) : skipped = [] := by
  rw [← isNext_nil_iff] at hstands
  exact List.eq_nil_of_length_eq_zero (Nat.le_zero.mp (h.next hstands.stands))

/-- A marker behind a place is there or behind the next character. -/
theorem skipped_eq {rest skipped : List Char} (h : m.StandsIn (before ++ c :: rest) (before ++ skipped)) :
    skipped = [] ∨ ∃ more, skipped = c :: more := by
  obtain ⟨after, hplaced⟩ := h.placed
  rw [List.append_assoc, List.append_right_inj] at hplaced
  cases skipped with
  | nil => exact .inl rfl
  | cons first more =>
      obtain ⟨rfl, -⟩ := List.cons.inj hplaced
      exact .inr ⟨more, rfl⟩

/-- Where no marker stands the next one is that behind the next character. -/
theorem isNext_cons_iff {rest skipped : List Char} (hnone : ∀ m : Marker, ¬ m.StandsIn (before ++ c :: rest) before) :
    IsNext before (c :: rest) m skipped ↔ ∃ more, skipped = c :: more ∧ IsNext (before ++ [c]) rest m more := by
  have hskip : ∀ {m : Marker} more, m.StandsIn (before ++ [c] ++ rest) (before ++ [c] ++ more) ↔
      m.StandsIn (before ++ c :: rest) (before ++ c :: more) := by
    simp only [List.append_assoc, List.singleton_append, implies_true]
  constructor
  · intro h
    rcases skipped_eq h.stands with rfl | ⟨more, rfl⟩
    · exact absurd (isNext_nil_iff.mp h) (hnone m)
    · refine ⟨more, rfl, (hskip more).mpr h.stands, fun {m' skipped'} hstands => ?_⟩
      exact Nat.le_of_succ_le_succ (h.next ((hskip skipped').mp hstands))
  · rintro ⟨more, rfl, h⟩
    refine ⟨(hskip more).mp h.stands, fun {m' skipped'} hstands => ?_⟩
    rcases skipped_eq hstands with rfl | ⟨more', rfl⟩
    · rw [List.append_nil] at hstands
      exact absurd hstands (hnone m')
    · exact Nat.succ_le_succ (h.next ((hskip more').mpr hstands))

/-- The scan finds the digits of the next marker. -/
theorem firstDigits?_eq_some_iff : firstDigits? (endsInWord before) text = some digits ↔
    ∃ m skipped, IsNext before text m skipped ∧ m.digits = digits := by
  induction text generalizing before with
  | nil =>
      refine iff_of_false nofun ?_
      rintro ⟨m, skipped, hnext, -⟩
      obtain ⟨after, hplaced⟩ := hnext.stands.placed
      simp [Marker.text] at hplaced
  | cons c rest ih =>
      rw [firstDigits?]
      cases hhere : digitsHere? (endsInWord before) (c :: rest) with
      | some found =>
          obtain ⟨m, hstands, rfl⟩ := digitsHere?_iff_standsIn.mp hhere
          dsimp only
          constructor
          · intro h
            exact ⟨m, [], isNext_nil_iff.mpr hstands, Option.some.inj h⟩
          · rintro ⟨m', skipped, hnext, rfl⟩
            obtain rfl := hnext.eq_nil hstands
            exact hhere.symm.trans (digitsHere?_iff_standsIn.mpr ⟨m', isNext_nil_iff.mp hnext, rfl⟩)
      | none =>
          have hnone : ∀ m : Marker, ¬ m.StandsIn (before ++ c :: rest) before := by
            intro m hstands
            cases hhere.symm.trans (digitsHere?_iff_standsIn.mpr ⟨m, hstands, rfl⟩)
          have hinside : endsInWord (before ++ [c]) = CharClass.isWord c := by simp [endsInWord]
          dsimp only
          rw [← hinside, ih]
          constructor
          · rintro ⟨m, more, hnext, rfl⟩
            exact ⟨m, c :: more, (isNext_cons_iff hnone).mpr ⟨more, rfl, hnext⟩, rfl⟩
          · rintro ⟨m, skipped, hnext, rfl⟩
            obtain ⟨more, -, hmore⟩ := (isNext_cons_iff hnone).mp hnext
            exact ⟨m, more, hmore, rfl⟩

/-- The scan of a whole message finds the digits of its first marker. -/
theorem firstDigits?_iff_isFirstIn {message : List Char} : firstDigits? false message = some digits ↔
    ∃ (m : Marker) (before : List Char), m.IsFirstIn message before ∧ m.digits = digits := by
  have hscan : firstDigits? (endsInWord []) message = some digits ↔
      ∃ m before, IsNext [] message m before ∧ m.digits = digits := firstDigits?_eq_some_iff
  refine hscan.trans (exists_congr fun m => exists_congr fun before => and_congr_left fun _ => ?_)
  exact ⟨fun h => ⟨h.stands, h.next⟩, fun h => ⟨h.toStandsIn, h.first⟩⟩

theorem Marker.StandsIn.exists_first {message : List Char} (h : m.StandsIn message before) :
    ∃ (m' : Marker) (before' : List Char), m'.IsFirstIn message before' := by
  induction hlength : before.length using Nat.strongRecOn generalizing m before with
  | ind length ih =>
      by_cases hfirst : ∀ (m' : Marker) (before' : List Char), m'.StandsIn message before' →
          before.length ≤ before'.length
      · exact ⟨m, before, h, fun {m' before'} h' => hfirst m' before' h'⟩
      · simp only [not_forall, Nat.not_le] at hfirst
        obtain ⟨m', before', h', hlt⟩ := hfirst
        exact ih before'.length (hlength ▸ hlt) h' rfl

theorem occursIn_iff {message : String} : occursIn message = true ↔
    ∃ (m : Marker) (before : List Char), m.StandsIn message.toList before := by
  rw [occursIn, Option.isSome_iff_exists]
  simp only [firstDigits?_iff_isFirstIn]
  constructor
  · rintro ⟨_, m, before, hfirst, -⟩
    exact ⟨m, before, hfirst.toStandsIn⟩
  · rintro ⟨m, before, h⟩
    obtain ⟨m', before', hfirst⟩ := h.exists_first
    exact ⟨_, m', before', hfirst, rfl⟩

/-! ### Its number -/

theorem takeSign_digits (h : ∀ c ∈ digits, CharClass.isDigit c) : Numeral.takeSign digits = (false, digits) := by
  unfold Numeral.takeSign
  split
  · exact absurd (h '-' List.mem_cons_self) (by decide)
  · exact absurd (h '+' List.mem_cons_self) (by decide)
  · rfl

theorem readInt?_digits {n : Int} (hdigit : ∀ c ∈ digits, CharClass.isDigit c) (hne : digits ≠ []) :
    Numeral.readInt? digits = some n ↔ (∀ c ∈ digits, c.isDigit) ∧ n = Nat.ofDigitChars 10 digits 0 := by
  have hread : Numeral.readInt? digits =
      if digits.all Char.isDigit then some (Numeral.natOfDigits 10 digits : Int) else none := by
    have hempty : digits.isEmpty = false := by simpa using hne
    rw [Numeral.readInt?, takeSign_digits hdigit]
    dsimp only
    rw [hempty]
    cases digits.all Char.isDigit <;> rfl
  rw [hread, ← List.all_eq_true]
  split
  · rename_i hascii
    rw [Option.some.injEq, Numeral.natOfDigits_eq_ofDigitChars (List.all_eq_true.mp hascii), eq_comm,
      and_iff_right hascii]
  · rename_i hother
    exact iff_of_false nofun fun h => hother h.1

theorem denotes_iff {n : Int} : m.Denotes n ↔ Numeral.readIntIn? 0 Int64.maxValue.toInt m.digits = some n := by
  rw [Numeral.readIntIn?, Option.filter_eq_some_iff, readInt?_digits m.digit m.counted]
  constructor
  · rintro ⟨hascii, hvalue, hmax⟩
    refine ⟨⟨hascii, hvalue⟩, decide_eq_true ⟨?_, hmax⟩⟩
    rw [hvalue]
    exact Int.natCast_nonneg _
  · rintro ⟨⟨hascii, hvalue⟩, hrange⟩
    exact ⟨hascii, hvalue, (of_decide_eq_true hrange).2⟩

theorem line?_eq_some_iff {message : String} {n : Int} : line? message = some n ↔
    ∃ (m : Marker) (before : List Char), m.IsFirstIn message.toList before ∧ m.Denotes n := by
  rw [line?, Option.bind_eq_some_iff]
  simp only [firstDigits?_iff_isFirstIn, denotes_iff]
  constructor
  · rintro ⟨_, ⟨m, before, hfirst, rfl⟩, hnumber⟩
    exact ⟨m, before, hfirst, hnumber⟩
  · rintro ⟨m, before, hfirst, hnumber⟩
    exact ⟨_, ⟨m, before, hfirst, rfl⟩, hnumber⟩

/-! ### Markers behind other text -/

theorem tail_text (m : Marker) : m.text.tail = m.name.tail ++ ':' :: (m.blanks ++ (m.digits ++ [':'])) := by
  rcases m.named with hname | hname <;> rw [Marker.text, hname] <;> rfl

theorem bracket_not_mem_tail (m : Marker) : '[' ∉ m.text.tail := by
  have hname : '[' ∉ m.name.tail := by
    rcases m.named with hname | hname <;> rw [hname] <;> decide
  have hblank : '[' ∉ m.blanks := fun h => absurd (m.blank '[' h) (by decide)
  have hdigit : '[' ∉ m.digits := fun h => absurd (m.digit '[' h) (by decide)
  rw [tail_text]
  simp [hname, hblank, hdigit]

/-- A marker that begins before a bracket ends before it. -/
theorem ends_before_bracket {p rest after : List Char} (h : p ++ '[' :: rest = before ++ (m.text ++ after))
    (hlt : before.length < p.length) : ∃ after', p = before ++ (m.text ++ after') := by
  obtain ⟨s, rfl, hs⟩ | ⟨s, rfl, hs⟩ := List.append_eq_append_iff.mp h
  · rw [List.length_append] at hlt
    omega
  · obtain ⟨t, rfl, -⟩ | ⟨t, ht, hafter⟩ := List.append_eq_append_iff.mp hs
    · exact ⟨t, rfl⟩
    · -- what is left of the marker would begin with the bracket
      cases t with
      | nil => exact ⟨[], by rw [ht, List.append_nil, List.append_nil]⟩
      | cons c t =>
          obtain ⟨rfl, -⟩ := List.cons.inj hafter
          refine absurd ?_ (bracket_not_mem_tail m)
          cases s with
          | nil => simp at hlt
          | cons first s =>
              rw [ht, List.cons_append, List.tail_cons]
              simp

/-- A quoted marker behind text without one is the first of the message. -/
theorem isFirstIn_of_quoted {p after : List Char} (hquoted : m.name = quotedName)
    (hfree : ∀ (m' : Marker) (before : List Char), ¬ m'.StandsIn p before) :
    m.IsFirstIn (p ++ (m.text ++ after)) p := by
  have hstands : m.StandsIn (p ++ (m.text ++ after)) p :=
    ⟨⟨after, rfl⟩, fun hplain => absurd (congrArg List.head? (hquoted.symm.trans hplain)) head?_name_ne⟩
  refine ⟨hstands, fun {m' before} h => Nat.not_lt.mp fun hlt => ?_⟩
  obtain ⟨after', hplaced⟩ := h.placed
  obtain ⟨rest, hrest⟩ : ∃ rest, m.text ++ after = '[' :: rest := by
    rw [Marker.text, hquoted]
    exact ⟨_, rfl⟩
  rw [hrest] at hplaced
  obtain ⟨inside, hinside⟩ := ends_before_bracket hplaced hlt
  exact hfree m' before ⟨⟨inside, hinside⟩, h.bounded⟩

/-- The marker with the digits of a number. -/
def Marker.quoted (blanks : List Char) (h : ∀ c ∈ blanks, CharClass.isBlank c) (n : Nat) : Marker where
  name := quotedName
  blanks
  digits := Nat.toDigits 10 n
  named := .inl rfl
  blank := h
  digit _ hc := CharClass.isDigit_of_ascii (Nat.isDigit_of_mem_toDigits (by decide) (by decide) hc)
  counted := Nat.toDigits_ne_nil

theorem denotes_quoted {blanks : List Char} (h : ∀ c ∈ blanks, CharClass.isBlank c) {n : Nat}
    (hn : n ≤ Int64.maxValue.toInt) : (Marker.quoted blanks h n).Denotes n where
  ascii _ hc := Nat.isDigit_of_mem_toDigits (by decide) (by decide) hc
  value := congrArg Int.ofNat Nat.ofDigitChars_ten_toDigits.symm
  le_max := hn

/-- **The first marker gives the line.** A message points to a line just when the digits of its first marker
denote the line's number, and to none when they denote no number, be there other markers or not. Behind text that
has no marker a quoted marker is the first one and points to the line it was written for, whatever the text ends
with and whatever comes after the marker. -/
theorem first_marker_gives_line :
    (∀ (message : String) (n : Int), line? message = some n ↔
      ∃ (m : Marker) (before : List Char), m.IsFirstIn message.toList before ∧ m.Denotes n) ∧
    (∀ (message : String) (m : Marker) (before : List Char), m.IsFirstIn message.toList before →
      (∀ n, ¬ m.Denotes n) → line? message = none) ∧
    (∀ (p w q : String) (n : Nat), (∀ (m : Marker) (before : List Char), ¬ m.StandsIn p.toList before) →
      (∀ c ∈ w.toList, CharClass.isBlank c) → n ≤ Int64.maxValue.toInt →
      line? (p ++ "[string \"chunk\"]:" ++ w ++ toString n ++ ":" ++ q) = some ↑n) := by
  refine ⟨fun _ _ => line?_eq_some_iff, fun message m before hfirst hnone => ?_, fun p w q n hfree hblank hn => ?_⟩
  · have hdigits : firstDigits? false message.toList = some m.digits :=
      firstDigits?_iff_isFirstIn.mpr ⟨m, before, hfirst, rfl⟩
    rw [line?, hdigits, Option.bind_some]
    exact Option.eq_none_iff_forall_ne_some.mpr fun n hn => hnone n (denotes_iff.mpr hn)
  · refine line?_eq_some_iff.mpr ⟨Marker.quoted w.toList hblank n, p.toList, ?_, denotes_quoted hblank hn⟩
    have hname : "[string \"chunk\"]:".toList = quotedName ++ [':'] := by decide
    have hdigits : (toString n).toList = Nat.toDigits 10 n := Nat.toList_repr
    have htext : (p ++ "[string \"chunk\"]:" ++ w ++ toString n ++ ":" ++ q).toList =
        p.toList ++ ((Marker.quoted w.toList hblank n).text ++ q.toList) := by
      simp only [String.toList_append, hname, hdigits, Marker.text, Marker.quoted, List.append_assoc,
        List.cons_append, List.nil_append]
      rfl
    rw [htext]
    exact isFirstIn_of_quoted rfl hfree

/-- A marker whose digit is the Arabic three. -/
def arabicThree : Marker where
  name := plainName
  blanks := []
  digits := ['\u0663']
  named := .inr rfl
  blank := nofun
  digit := by
    intro c hc
    rw [List.mem_singleton.mp hc]
    decide +kernel
  counted := List.cons_ne_nil _ _

/-- Halves of markers before a marker do not count, and a digit that is not ASCII gives no line. -/
theorem first_markers_of_two :
    line? ("see [string \"chunk\"]: and chunk:3" ++ "[string \"chunk\"]:" ++ " \t" ++ toString 12 ++ ":" ++ " boom") =
        some ↑(12 : Nat) ∧
      line? "chunk:\u0663: then chunk:7:" = none := by
  obtain ⟨-, hnone, hquoted⟩ := first_marker_gives_line
  constructor
  · have hfree : occursIn "see [string \"chunk\"]: and chunk:3" = false := by decide +kernel
    refine hquoted "see [string \"chunk\"]: and chunk:3" " \t" " boom" 12 (fun m before h => ?_)
      (by simp [CharClass.isBlank]) (by decide)
    cases hfree.symm.trans (occursIn_iff.mpr ⟨m, before, h⟩)
  · refine hnone _ arabicThree [] ⟨⟨⟨" then chunk:7:".toList, ?_⟩, fun _ => rfl⟩, fun _ => Nat.zero_le _⟩ ?_
    · decide +kernel
    · rintro n ⟨hascii, -, -⟩
      exact absurd (hascii '\u0663' List.mem_cons_self) (by decide)

end LineMarker
end ScriptBridge
