import ScriptBridge.Proofs.IntegerTexts
import ScriptBridge.Proofs.NearestIntegers
import ScriptBridge.Proofs.TomlTexts
import ScriptBridge.Toml.Standard

/-! Documents of one line for each field are read back as they were written, so the library is faithful. The value
of a line is a text in quotes or a word; a word of digits denotes its integer and cannot be taken for a moment or a
float, and each line ends where the next begins, so the fields come out in their order. -/

namespace ScriptBridge

/-! ### Digits -/

theorem Numeral.head?_toDigits_ne {n : Nat} (h : n ≠ 0) : (Nat.toDigits 10 n).head? ≠ some '0' := by
  induction n using Nat.strongRecOn with
  | ind n ih =>
      rw [Nat.toDigits_eq_if (by decide)]
      split
      · exact fun heq => h (Nat.digitChar_eq_zero.mp (Option.some.inj heq))
      · rename_i hlarge
        have hhead := ih (n / 10) (Nat.div_lt_self (Nat.pos_of_ne_zero h) (by decide)) (by omega)
        rwa [List.head?_append_of_ne_nil _ Nat.toDigits_ne_nil]

namespace Toml

open Numeral

variable {digits text : List Char} {c : Char}

theorem ne_of_class {p : Char → Bool} {mark : Char} (h : p c = true) (hmark : p mark = false) : c ≠ mark :=
  fun heq => Bool.false_ne_true (hmark.symm.trans (heq ▸ h))

theorem ungroup?_digits (hne : digits ≠ []) (h : ∀ c ∈ digits, c.isDigit) :
    ungroup? Char.isDigit digits = some digits := by
  induction digits with
  | nil => exact absurd rfl hne
  | cons c rest ih =>
      have hc : c.isDigit = true := h c List.mem_cons_self
      cases rest with
      | nil => rw [ungroup?, if_pos hc]
      | cons next rest =>
          have hnext : next ≠ '_' := ne_of_class (h next (.tail _ List.mem_cons_self)) (by decide)
          rw [ungroup?, if_pos hc, ih (List.cons_ne_nil _ _) fun c' hc' => h c' (.tail _ hc')]
          · rfl
          · nofun
          · intro rest' heq
            exact hnext (List.cons.inj heq).1

theorem isDigit_toDigits (n : Nat) : ∀ c ∈ Nat.toDigits 10 n, c.isDigit :=
  fun _ hc => Nat.isDigit_of_mem_toDigits (by decide) (by decide) hc

theorem wholeDigits?_toDigits (n : Nat) : wholeDigits? (Nat.toDigits 10 n) = some (Nat.toDigits 10 n) := by
  rw [wholeDigits?, ungroup?_digits Nat.toDigits_ne_nil (isDigit_toDigits n), Option.filter_some, if_pos]
  by_cases hn : n = 0
  · rw [hn]
    rfl
  · simp [head?_toDigits_ne hn]

theorem readDecimal?_toString (i : Int64) : readDecimal? (toString i.toInt).toList = some i := by
  rw [toList_toString, readDecimal?, takeSign_signed _ (isDigit_toDigits _)]
  simp only [wholeDigits?_toDigits, Option.bind_some, natOfDigits_toDigits]
  refine int64Of?_eq_some_iff.mpr ?_
  split
  · rename_i hneg
    have hlt : i.toInt < 0 := of_decide_eq_true hneg
    omega
  · rename_i hneg
    have hge : ¬ i.toInt < 0 := fun hlt => hneg (decide_eq_true hlt)
    omega

/-! ### Integers are nothing else -/

theorem mem_of_takeChar? {rest : List Char} (h : takeChar? c text = some rest) : c ∈ text := by
  cases text with
  | nil => cases h
  | cons d tail =>
      rw [takeChar?] at h
      split at h
      · rename_i heq
        exact heq ▸ List.mem_cons_self
      · cases h

theorem rest_of_takeNumber? {width value : Nat} {rest : List Char}
    (h : takeNumber? width text = some (value, rest)) : rest = text.drop width := by
  rw [takeNumber?] at h
  split at h
  · exact (Prod.mk.inj (Option.some.inj h)).2.symm
  · cases h

theorem rest_of_takeField? {low high value : Nat} {rest : List Char}
    (h : takeField? low high text = some (value, rest)) : rest = text.drop 2 :=
  rest_of_takeNumber? (Option.filter_eq_some_iff.mp h).1

theorem takeTime?_eq_none (h : ':' ∉ text) : takeTime? text = none := by
  rw [takeTime?]
  cases hhour : takeField? 0 23 text with
  | none => rfl
  | some hour =>
      cases hcolon : takeChar? ':' hour.2 with
      | none => exact congrArg (Option.bind · _) hcolon
      | some rest =>
          refine absurd (mem_of_takeChar? hcolon) fun hmem => h ?_
          rw [rest_of_takeField? hhour] at hmem
          exact List.mem_of_mem_drop hmem

theorem takeDate?_eq_none (h : '-' ∉ text.drop 4) : takeDate? text = none := by
  rw [takeDate?]
  cases hyear : takeNumber? 4 text with
  | none => rfl
  | some year =>
      cases hdash : takeChar? '-' year.2 with
      | none => exact congrArg (Option.bind · _) hdash
      | some rest =>
          refine absurd (mem_of_takeChar? hdash) fun hmem => h ?_
          rwa [rest_of_takeNumber? hyear] at hmem

theorem mem_signed {negative : Bool} (hc : c ∈ signed negative digits) : c = '-' ∨ c ∈ digits := by
  cases negative with
  | true => exact List.mem_cons.mp hc
  | false => exact .inr hc

theorem isMoment_signed {negative : Bool} (h : ∀ c ∈ digits, c.isDigit) :
    isMoment (signed negative digits) = false := by
  have hcolon : ':' ∉ signed negative digits := by
    intro hmem
    rcases mem_signed hmem with heq | hdigit
    · cases heq
    · exact absurd (h _ hdigit) (by decide)
  have hdash : '-' ∉ (signed negative digits).drop 4 := by
    intro hmem
    have hdigit : '-' ∈ digits := by
      cases negative with
      | true => exact List.mem_of_mem_drop hmem
      | false => exact List.mem_of_mem_drop hmem
    exact absurd (h _ hdigit) (by decide)
  rw [isMoment, takeTime?_eq_none hcolon, takeDate?_eq_none hdash]
  rfl

theorem readFloat?_integer {negative : Bool} (h : ∀ c ∈ digits, c.isDigit) :
    readFloat? (signed negative digits) = none := by
  have hword (word : String) (letter : Char) (hletter : letter ∈ word.toList) (hno : letter.isDigit = false) :
      digits ≠ word.toList := by
    rintro rfl
    exact Bool.false_ne_true (hno.symm.trans (h letter hletter))
  have hwhole : digits.span (fun c => c ≠ '.' && c ≠ 'e' && c ≠ 'E') = (digits, []) := by
    have hall : ∀ c ∈ digits, (c ≠ '.' && c ≠ 'e' && c ≠ 'E') = true := by
      intro c hc
      have hne {mark : Char} (hmark : mark.isDigit = false) : c ≠ mark := ne_of_class (h c hc) hmark
      rw [decide_eq_true (hne (by decide)), decide_eq_true (hne (by decide)), decide_eq_true (hne (by decide))]
      rfl
    rw [List.span_eq_takeWhile_dropWhile, List.takeWhile_eq_self_iff.mpr hall, List.dropWhile_eq_nil_iff.mpr hall]
  rw [readFloat?, takeSign_signed negative h]
  simp only [hword "inf" 'i' (by decide) (by decide), hword "nan" 'n' (by decide) (by decide), if_false, hwhole]
  cases wholeDigits? digits <;> rfl

theorem readInteger?_signed {negative : Bool} (h : ∀ c ∈ digits, c.isDigit) :
    readInteger? (signed negative digits) = readDecimal? (signed negative digits) := by
  have hmark {rest : List Char} {mark : Char} (hmark : mark.isDigit = false) :
      signed negative digits ≠ '0' :: mark :: rest := by
    intro heq
    cases negative with
    | true => cases heq
    | false =>
        obtain rfl : digits = '0' :: mark :: rest := heq
        exact Bool.false_ne_true (hmark.symm.trans (h mark (.tail _ List.mem_cons_self)))
  rw [readInteger?]
  · exact fun rest heq => hmark (by decide) heq
  · exact fun rest heq => hmark (by decide) heq
  · exact fun rest heq => hmark (by decide) heq

theorem readScalar?_toString (i : Int64) : readScalar? (toString i.toInt).toList = some (.integer i) := by
  have hword (word : String) (letter : Char) (hletter : letter ∈ word.toList)
      (hno : letter ≠ '-' ∧ letter.isDigit = false) : (toString i.toInt).toList ≠ word.toList := by
    intro heq
    rw [← heq, toList_toString] at hletter
    rcases mem_signed hletter with rfl | hdigit
    · exact hno.1 rfl
    · exact Bool.false_ne_true (hno.2.symm.trans (isDigit_toDigits _ letter hdigit))
  have hinteger : readInteger? (toString i.toInt).toList = some i := by
    rw [toList_toString, readInteger?_signed (isDigit_toDigits _), ← toList_toString, readDecimal?_toString]
  rw [readScalar?, if_neg (hword "true" 't' (by decide) (by decide)),
    if_neg (hword "false" 'f' (by decide) (by decide)), hinteger]
  rw [toList_toString, isMoment_signed (isDigit_toDigits _), readFloat?_integer (isDigit_toDigits _)]
  rfl

/-! ### Items -/

/-- What a scalar in range is read back as. -/
def Scalar.item : Scalar → Item
  | .text s => .text s
  | .integer i => .integer (Int64.ofInt i)
  | .bool b => .bool b

theorem Scalar.entry_item (scalar : Scalar) : scalar.item.entry = scalar.entry := by
  cases scalar <;> rfl

/-- A character that neither ends a word nor opens a quoted text. -/
def isWordChar (c : Char) : Bool := !endsScalar c && c ≠ '"' && c ≠ '\''

theorem isWordChar_of_isDigit (h : c.isDigit = true) : isWordChar c = true := by
  have hne {mark : Char} (hmark : mark.isDigit = false) : c ≠ mark := ne_of_class h hmark
  have hends : endsScalar c = false := by
    rw [endsScalar, decide_eq_false_iff_not]
    simp only [List.mem_cons, List.not_mem_nil, or_false, not_or]
    refine ⟨?_, ?_, ?_, ?_, ?_, ?_, ?_, ?_, ?_, ?_, ?_⟩
    all_goals exact hne (by decide)
  rw [isWordChar, hends, decide_eq_true (hne (by decide)), decide_eq_true (hne (by decide))]
  rfl

theorem word_toString (i : Int) : (toString i).toList ≠ [] ∧ ∀ c ∈ (toString i).toList, isWordChar c = true := by
  rw [toList_toString]
  constructor
  · rw [signed]
    split
    · exact List.cons_ne_nil _ _
    · exact Nat.toDigits_ne_nil
  · intro c hc
    rcases mem_signed hc with rfl | hdigit
    · decide
    · exact isWordChar_of_isDigit (isDigit_toDigits _ c hdigit)

theorem readPlain_word {item : Item} (h : ∀ c ∈ text, endsScalar c = false) (hread : readScalar? text = some item)
    (rest : List Char) : readPlain (text ++ '\n' :: rest) = some (item, '\n' :: rest) := by
  have hword : (text ++ '\n' :: rest).takeWhile (!endsScalar ·) = text := by
    rw [List.takeWhile_append_of_pos fun c hc => by rw [h c hc]; rfl]
    exact List.append_nil text
  have hclock : (if isDate text then takeClock? ('\n' :: rest) else none) = none := by
    split <;> rfl
  rw [readPlain, hword, List.drop_left, hclock, hread]
  rfl

/-- A word is read as the scalar it denotes. -/
theorem readItem_word {item : Item} (hne : text ≠ []) (h : ∀ c ∈ text, isWordChar c = true)
    (hread : readScalar? text = some item) (fuel levels : Nat) (rest : List Char) :
    readItem (fuel + 1) levels (text ++ '\n' :: rest) = some (item, '\n' :: rest) := by
  have hends : ∀ c ∈ text, endsScalar c = false := by
    intro c hc
    have hword := h c hc
    simp only [isWordChar, Bool.and_eq_true, Bool.not_eq_true'] at hword
    exact hword.1.1
  have hplain := readPlain_word hends hread rest
  obtain ⟨c, tail, rfl⟩ := List.exists_cons_of_ne_nil hne
  have hmark {mark : Char} (hmark : isWordChar mark = false) :
      ∀ rest', c :: (tail ++ '\n' :: rest) ≠ mark :: rest' := by
    intro rest' heq
    exact ne_of_class (h c List.mem_cons_self) hmark (List.cons.inj heq).1
  rw [List.cons_append] at hplain ⊢
  rw [readItem, hplain]
  · exact hmark (by decide)
  · exact hmark (by decide)
  · exact hmark (by decide)
  · exact hmark (by decide)

theorem writeText_opens (s : String) :
    ∃ quote tail, (quote = '"' ∨ quote = '\'') ∧ (writeText s).toList = quote :: tail := by
  rw [writeText, String.toList_ofList]
  cases styleFor s.toList with
  | basic => exact ⟨_, _, .inl rfl, rfl⟩
  | literal => exact ⟨_, _, .inr rfl, rfl⟩
  | basicLines => exact ⟨_, _, .inl rfl, rfl⟩
  | literalLines => exact ⟨_, _, .inr rfl, rfl⟩

theorem readItem_quoted {quote : Char} (h : quote = '"' ∨ quote = '\'') (fuel levels : Nat) (tail : List Char) :
    readItem (fuel + 1) levels (quote :: tail) =
      (readText (quote :: tail)).map fun (s, rest) => (.text s, rest) := by
  rcases h with rfl | rfl
  · rw [readItem]
  · rw [readItem]

/-- A scalar that was written is read back from its place in a line. -/
theorem readItem_written {scalar : Scalar} (h : scalar.InRange) (fuel levels : Nat) (rest : List Char) :
    readItem (fuel + 1) levels (scalar.written.toList ++ '\n' :: rest) = some (scalar.item, '\n' :: rest) := by
  cases scalar with
  | text s =>
      have hread : readText ((writeText s).toList ++ '\n' :: rest) = some (s, '\n' :: rest) :=
        readText_writeText (by simp) (by simp) s
      obtain ⟨quote, tail, hquote, heq⟩ := writeText_opens s
      rw [Scalar.written]
      rw [heq] at hread ⊢
      rw [List.cons_append, readItem_quoted hquote, ← List.cons_append, hread]
      rfl
  | integer i =>
      obtain ⟨hne, hword⟩ := word_toString i
      have hsame : (Int64.ofInt i).toInt = i := Int64.toInt_ofInt_of_le h.1 (Int.lt_add_one_of_le h.2)
      have hread : readScalar? (toString i).toList = some (.integer (Int64.ofInt i)) := by
        rw [← readScalar?_toString, hsame]
      exact readItem_word hne hword hread fuel levels rest
  | bool b =>
      have htrue : readScalar? "true".toList = some (.bool true) := if_pos rfl
      have hfalse : readScalar? "false".toList = some (.bool false) := by
        rw [readScalar?, if_neg (by decide), if_pos rfl]
      cases b with
      | true => exact readItem_word (by decide) (List.all_eq_true.mp (by decide)) htrue fuel levels rest
      | false => exact readItem_word (by decide) (List.all_eq_true.mp (by decide)) hfalse fuel levels rest

/-! ### Lines -/

/-- The fields that some lines give, in their order. -/
def itemsOf (lines : List (String × Scalar)) : Fields := lines.map fun line => (line.1, line.2.item)

/-- A line as it is read: the key, an equals sign with a blank on either side, and the item. -/
def lineText (line : String × Scalar) (rest : List Char) : List Char :=
  line.1.toList ++ ' ' :: '=' :: ' ' :: (line.2.written.toList ++ '\n' :: rest)

theorem toList_document_cons (line : String × Scalar) (lines : List (String × Scalar)) :
    (document (line :: lines)).toList = lineText line (document lines).toList := by
  simp [document, lineText, String.join_cons]

variable {key : String}

theorem isBareKeyChar_of_mem (h : isBareKey key = true) : ∀ c ∈ key.toList, isBareKeyChar c = true :=
  List.all_eq_true.mp (Bool.and_eq_true_iff.mp h).2

theorem exists_of_isBareKey (h : isBareKey key = true) :
    ∃ c tail, key.toList = c :: tail ∧ isBareKeyChar c = true := by
  have hne : key.toList ≠ [] := by
    intro hnil
    have hempty : key = "" := String.toList_eq_nil_iff.mp hnil
    exact absurd hempty (of_decide_eq_true (Bool.and_eq_true_iff.mp h).1)
  obtain ⟨c, tail, heq⟩ := List.exists_cons_of_ne_nil hne
  exact ⟨c, tail, heq, isBareKeyChar_of_mem h c (heq ▸ List.mem_cons_self)⟩

theorem isSpace_of_class {p : Char → Bool} (h : p c = true) (hblank : p ' ' = false) (htab : p '\t' = false) :
    isSpace c = false := by
  rw [isSpace, decide_eq_false (ne_of_class h hblank), decide_eq_false (ne_of_class h htab)]
  rfl

/-- A line that starts with a key starts with nothing that has a meaning of its own. -/
theorem key_append_ne (h : isBareKey key = true) {mark : Char} (hmark : isBareKeyChar mark = false)
    (rest rest' : List Char) : key.toList ++ rest ≠ mark :: rest' := by
  obtain ⟨c, tail, heq, hc⟩ := exists_of_isBareKey h
  intro heq'
  rw [heq, List.cons_append, List.cons.injEq] at heq'
  exact ne_of_class hc hmark heq'.1

theorem skipSpace_cons (h : isSpace c = false) (rest : List Char) : skipSpace (c :: rest) = c :: rest :=
  List.dropWhile_cons_of_neg (by rw [h]; exact Bool.false_ne_true)

theorem readKeyStep_bare (h : isBareKey key = true) (rest : List Char) :
    readKeyStep (key.toList ++ ' ' :: rest) = some (key, ' ' :: rest) := by
  obtain ⟨c, tail, heq, hc⟩ := exists_of_isBareKey h
  have hchars := isBareKeyChar_of_mem h
  have htake : (key.toList ++ ' ' :: rest).takeWhile isBareKeyChar = key.toList := by
    rw [List.takeWhile_append_of_pos hchars]
    exact List.append_nil _
  have hdrop : (key.toList ++ ' ' :: rest).dropWhile isBareKeyChar = ' ' :: rest := by
    rw [List.dropWhile_append_of_pos hchars]
    rfl
  have hnonempty : key.toList.isEmpty = false := by
    rw [heq]
    rfl
  rw [readKeyStep]
  · simp only [htake, hdrop, hnonempty, Bool.false_eq_true, if_false, String.ofList_toList]
  · exact key_append_ne h (by decide) _
  · exact key_append_ne h (by decide) _

theorem skipSpace_bare (h : isBareKey key = true) (rest : List Char) :
    skipSpace (key.toList ++ rest) = key.toList ++ rest := by
  obtain ⟨c, tail, heq, hc⟩ := exists_of_isBareKey h
  rw [heq, List.cons_append]
  exact skipSpace_cons (isSpace_of_class hc (by decide) (by decide)) _

theorem readPath_bare (h : isBareKey key = true) (rest : List Char) :
    readPath (key.toList ++ ' ' :: '=' :: rest) = some ([key], '=' :: rest) := by
  rw [readPath, show depthLimit - 1 = 78 + 1 from rfl, readKey, skipSpace_bare h, readKeyStep_bare h]
  rfl

theorem add_free {fields : Fields} (h : ∀ field ∈ fields, field.1 ≠ key) (item : Item) :
    Fields.add key item fields = some (fields ++ [(key, item)]) := by
  rw [Fields.add]
  induction fields with
  | nil => rfl
  | cons field rest ih =>
      rw [Fields.alter, if_neg (h field List.mem_cons_self), ih fun field' hfield => h field' (.tail _ hfield)]
      rfl

/-- What was written starts with no white space. -/
theorem skipSpace_written (scalar : Scalar) (rest : List Char) :
    skipSpace (scalar.written.toList ++ rest) = scalar.written.toList ++ rest := by
  have hfirst : ∃ c tail, scalar.written.toList = c :: tail ∧ isSpace c = false := by
    cases scalar with
    | text s =>
        obtain ⟨quote, tail, rfl | rfl, heq⟩ := writeText_opens s
        · exact ⟨_, tail, heq, by decide⟩
        · exact ⟨_, tail, heq, by decide⟩
    | integer i =>
        obtain ⟨hne, hword⟩ := word_toString i
        obtain ⟨c, tail, heq⟩ := List.exists_cons_of_ne_nil hne
        have hc := hword c (heq ▸ List.mem_cons_self)
        exact ⟨c, tail, heq, isSpace_of_class hc (by decide) (by decide)⟩
    | bool b => cases b <;> exact ⟨_, _, rfl, by decide⟩
  obtain ⟨c, tail, heq, hspace⟩ := hfirst
  rw [heq, List.cons_append, skipSpace_cons hspace]

theorem lineText_ne {line : String × Scalar} (h : isBareKey line.1 = true) {mark : Char}
    (hmark : isBareKeyChar mark = false) (rest rest' : List Char) : lineText line rest ≠ mark :: rest' :=
  key_append_ne h hmark _ rest'

theorem lineText_ne_nil (line : String × Scalar) (rest : List Char) : lineText line rest ≠ [] := by
  intro heq
  rw [lineText, List.append_eq_nil_iff] at heq
  cases heq.2

theorem readLine_written (hkey : isBareKey key = true) {scalar : Scalar} (hscalar : scalar.InRange) {fields : Fields}
    (hfree : ∀ field ∈ fields, field.1 ≠ key) (rest : List Char) :
    readLine ⟨fields, []⟩ (lineText (key, scalar) rest) = some (⟨fields ++ [(key, scalar.item)], []⟩, rest) := by
  have hpath := readPath_bare hkey (' ' :: (scalar.written.toList ++ '\n' :: rest))
  have hskip : skipSpace (' ' :: (scalar.written.toList ++ '\n' :: rest)) =
      scalar.written.toList ++ '\n' :: rest := skipSpace_written scalar _
  have hend : endLine? ('\n' :: rest) = some rest := rfl
  have hadd : Fields.descend [] (Fields.addDotted ([key].getLast?.getD "") scalar.item [key].dropLast) fields =
      some (fields ++ [(key, scalar.item)]) := add_free hfree scalar.item
  rw [readLine]
  · simp only [lineText, hpath, hskip, readItem_written hscalar, hend, hadd, Option.bind_eq_bind, Option.bind_some]
    rfl
  · exact fun rest' => lineText_ne hkey (by decide) _ _
  · exact fun rest' => lineText_ne hkey (by decide) _ _

theorem readLines_written {lines : List (String × Scalar)}
    (hlines : ∀ line ∈ lines, isBareKey line.1 = true ∧ line.2.InRange) {fields : Fields}
    (hdistinct : (fields.map Prod.fst ++ lines.map Prod.fst).Nodup) {fuel : Nat}
    (hfuel : lines.length < fuel) :
    readLines fuel ⟨fields, []⟩ (document lines).toList = some (fields ++ itemsOf lines) := by
  induction lines generalizing fields fuel with
  | nil =>
      obtain ⟨fuel, rfl⟩ := Nat.exists_eq_succ_of_ne_zero (Nat.ne_of_gt hfuel)
      exact congrArg some (List.append_nil fields).symm
  | cons line lines ih =>
      obtain ⟨fuel, rfl⟩ := Nat.exists_eq_succ_of_ne_zero (Nat.ne_of_gt (Nat.lt_of_le_of_lt (Nat.zero_le _) hfuel))
      obtain ⟨hkey, hscalar⟩ := hlines line List.mem_cons_self
      have hfree : ∀ field ∈ fields, field.1 ≠ line.1 := by
        intro field hfield heq
        refine (List.nodup_append.mp hdistinct).2.2 field.1 (List.mem_map_of_mem hfield) line.1 ?_ heq
        exact List.mem_cons_self
      have hnodup : ((fields ++ [(line.1, line.2.item)]).map Prod.fst ++ lines.map Prod.fst).Nodup := by
        simpa using hdistinct
      have hrest := ih (fun line' hline => hlines line' (.tail _ hline)) hnodup (Nat.lt_of_succ_lt_succ hfuel)
      have hskip : ∀ rest, skipSpace (lineText line rest) = lineText line rest := fun _ => skipSpace_bare hkey _
      rw [toList_document_cons, readLines, hskip]
      -- a key is neither a comment nor a line break, so the line is taken as one with a key
      split
      · rename_i heq
        exact absurd heq (lineText_ne_nil line _)
      · rename_i heq
        exact absurd heq (lineText_ne hkey (by decide) _ _)
      · rename_i heq
        exact absurd heq (lineText_ne hkey (by decide) _ _)
      · rename_i heq
        exact absurd heq (lineText_ne hkey (by decide) _ _)
      · rw [readLine_written hkey hscalar hfree, Option.bind_some]
        refine hrest.trans ?_
        rw [List.append_assoc]
        rfl

theorem length_le_document (lines : List (String × Scalar)) :
    lines.length ≤ (document lines).toList.length := by
  induction lines with
  | nil => exact Nat.zero_le _
  | cons line lines ih =>
      rw [toList_document_cons, lineText]
      simp only [List.length_append, List.length_cons]
      omega

/-- A document that was written is read back, field by field. -/
theorem read?_document {lines : List (String × Scalar)}
    (hlines : ∀ line ∈ lines, isBareKey line.1 = true ∧ line.2.InRange) (hdistinct : (lines.map Prod.fst).Nodup) :
    read? (document lines) = some (itemsOf lines) := by
  have hmark : ∀ rest, (document lines).toList ≠ '\uFEFF' :: rest := by
    intro rest heq
    match lines with
    | [] => cases heq
    | line :: lines =>
        rw [toList_document_cons] at heq
        exact lineText_ne (hlines line List.mem_cons_self).1 (by decide) _ _ heq
  have hnodup : (([] : Fields).map Prod.fst ++ lines.map Prod.fst).Nodup := hdistinct
  have hread := readLines_written hlines hnodup (Nat.lt_succ_of_le (length_le_document lines))
  rw [read?]
  split
  · rename_i heq
    exact absurd heq (hmark _)
  · exact hread

theorem find?_itemsOf (lines : List (String × Scalar)) (key : String) :
    ((itemsOf lines).find? key).map Item.entry = (lines.lookup key).map Scalar.entry := by
  induction lines with
  | nil => rfl
  | cons line lines ih =>
      obtain ⟨name, scalar⟩ := line
      show (if name = key then some scalar.item else (itemsOf lines).find? key).map Item.entry = _
      rw [List.lookup_cons]
      by_cases hname : name = key
      · rw [if_pos hname, beq_iff_eq.mpr hname.symm]
        exact congrArg some scalar.entry_item
      · rw [if_neg hname, beq_eq_false_iff_ne.mpr (Ne.symm hname)]
        exact ih

theorem read?_standard (lines : List (String × Scalar))
    (hlines : ∀ line ∈ lines, isBareKey line.1 = true ∧ line.2.InRange) (hdistinct : (lines.map Prod.fst).Nodup) :
    standard.read? (document lines) = some fun key => (lines.lookup key).map Scalar.entry := by
  refine (congrArg (Option.map _) (read?_document hlines hdistinct)).trans ?_
  exact congrArg some (funext (find?_itemsOf lines))

/-- What is relied on is true of the library. -/
theorem standard_faithful : standard.Faithful where
  reads_back lines hlines hdistinct := by
    have hwrite : standard.write lines = .ok (document lines) := if_pos fun line hline => (hlines line hline).2
    exact ⟨_, _, hwrite, read?_standard lines hlines hdistinct, fun _ => rfl⟩
  refuses lines := by
    rintro ⟨key, i, hmem, hlarge⟩
    exact ⟨rangeMessage, if_neg fun hall => Int.not_le.mpr hlarge (hall _ hmem).2⟩

end Toml
end ScriptBridge
