import ScriptBridge.Proofs.NearestIntegers
import ScriptBridge.Proofs.PublishedListing
import ScriptBridge.Report

/-! Where reports point. A text breaks into lines in one way only, and a report names one of the lines of the
executed source, with its text, or no line at all. Which line it is depends on the line that is stated with the
failure or by its message, and on nothing else of it; a stated line is used just when the source has it and its
number is one of 32 bits. -/

namespace ScriptBridge

/-! ### Lines of a text -/

namespace Text

/-- A text and the lines it breaks into. A line ends at a line feed, to which a carriage return just before it
belongs, or at the end of the text if something stands there. -/
inductive BreaksInto : List Char → List (List Char) → Prop where
  | done : BreaksInto [] []
  | last {line : List Char} (hfeed : '\n' ∉ line) (hne : line ≠ []) : BreaksInto line [line]
  | feed {line rest : List Char} {lines : List (List Char)} (hfeed : '\n' ∉ line)
      (hreturn : line.getLast? ≠ some '\r') (h : BreaksInto rest lines) :
      BreaksInto (line ++ '\n' :: rest) (line :: lines)
  | returnFeed {line rest : List Char} {lines : List (List Char)} (hfeed : '\n' ∉ line)
      (h : BreaksInto rest lines) : BreaksInto (line ++ '\r' :: '\n' :: rest) (line :: lines)

/-- The lines of a text, as characters. -/
def charLines (text : List Char) : List (List Char) :=
  (pieces '\n' text).dropLast.map dropReturn ++ (pieces '\n' text).getLast?.toList.filter (!·.isEmpty)

theorem map_toList_lines (text : String) : (lines text).map String.toList = charLines text.toList := by
  show ((charLines text.toList).map String.ofList).map String.toList = _
  rw [List.map_map]
  simp [Function.comp_def]

variable {line rest : List Char}

theorem charLines_of_not_mem (h : '\n' ∉ line) (hne : line ≠ []) : charLines line = [line] := by
  simp [charLines, pieces_of_not_mem h, hne]

theorem charLines_append (h : '\n' ∉ line) (rest : List Char) :
    charLines (line ++ '\n' :: rest) = dropReturn line :: charLines rest := by
  have hne := pieces_ne_nil '\n' rest
  rw [charLines, pieces_append, pieces_of_not_mem h, List.singleton_append, List.dropLast_cons_of_ne_nil hne,
    List.getLast?_cons_of_ne_nil hne]
  rfl

theorem dropReturn_of_ne (h : line.getLast? ≠ some '\r') : dropReturn line = line := if_neg h

theorem dropReturn_snoc (line : List Char) : dropReturn (line ++ ['\r']) = line := by
  simp [dropReturn]

theorem breaksInto_charLines (text : List Char) : BreaksInto text (charLines text) := by
  induction hlength : text.length using Nat.strongRecOn generalizing text with
  | ind length ih =>
      by_cases hfeed : '\n' ∈ text
      · obtain ⟨line, rest, rfl, hline⟩ := List.eq_append_cons_of_mem hfeed
        have hshorter : rest.length < length := by
          rw [← hlength, List.length_append, List.length_cons]
          omega
        have hrest := ih rest.length hshorter rest rfl
        rw [charLines_append hline]
        by_cases hreturn : line.getLast? = some '\r'
        · obtain ⟨line, rfl⟩ := List.getLast?_eq_some_iff.mp hreturn
          rw [dropReturn_snoc, List.append_assoc]
          exact .returnFeed (fun hmem => hline (List.mem_append_left _ hmem)) hrest
        · rw [dropReturn_of_ne hreturn]
          exact .feed hline hreturn hrest
      · by_cases hne : text = []
        · subst hne
          exact .done
        · rw [charLines_of_not_mem hfeed hne]
          exact .last hfeed hne

theorem BreaksInto.eq_charLines {text : List Char} {broken : List (List Char)} (h : BreaksInto text broken) :
    broken = charLines text := by
  induction h with
  | done => rfl
  | last hfeed hne => rw [charLines_of_not_mem hfeed hne]
  | feed hfeed hreturn _ ih => rw [charLines_append hfeed, dropReturn_of_ne hreturn, ih]
  | @returnFeed line rest lines hfeed _ ih =>
      have hline : '\n' ∉ line ++ ['\r'] := by simpa using hfeed
      rw [show line ++ '\r' :: '\n' :: rest = (line ++ ['\r']) ++ '\n' :: rest by simp, charLines_append hline,
        dropReturn_snoc, ih]

/-- A text breaks into its lines and into nothing else. -/
theorem breaksInto_iff {text : String} {broken : List (List Char)} :
    BreaksInto text.toList broken ↔ broken = (lines text).map String.toList := by
  rw [map_toList_lines]
  exact ⟨BreaksInto.eq_charLines, fun h => h ▸ breaksInto_charLines _⟩

end Text

/-! ### Lines of reports -/

namespace Report

/-- A source has a line of a number, and the number is one of 32 bits. -/
def IsUsable (source : String) (number : Int) : Prop :=
  1 ≤ number ∧ number ≤ (Text.lines source).length ∧ number ≤ Int32.maxValue.toInt

variable {source text : String} {number : Int}

theorem lineOf?_eq_some_iff :
    lineOf? source number = some text ↔
      IsUsable source number ∧ (Text.lines source)[number.toNat - 1]? = some text := by
  rw [lineOf?]
  split
  · rename_i hrange
    refine ⟨fun h => ⟨?_, h⟩, And.right⟩
    obtain ⟨hlt, -⟩ := List.getElem?_eq_some_iff.mp h
    exact ⟨hrange.1, by omega, hrange.2⟩
  · rename_i hrange
    exact iff_of_false (by simp) fun ⟨husable, _⟩ => hrange ⟨husable.1, husable.2.2⟩

theorem exists_lineOf? (h : IsUsable source number) : ∃ text, lineOf? source number = some text := by
  have hlt : number.toNat - 1 < (Text.lines source).length := by
    have hlow := h.1
    have hlast := h.2.1
    omega
  exact ⟨_, lineOf?_eq_some_iff.mpr ⟨h, List.getElem?_eq_getElem hlt⟩⟩

theorem locate_of_usable (h : IsUsable source number) : ∃ text,
    locate source (some number) = (number, text) ∧ (Text.lines source)[number.toNat - 1]? = some text := by
  obtain ⟨text, htext⟩ := exists_lineOf? h
  refine ⟨text, ?_, (lineOf?_eq_some_iff.mp htext).2⟩
  rw [locate, Option.bind_some, htext]
  rfl

theorem locate_of_not_usable {stated : Option Int} (h : ∀ number, stated = some number → ¬ IsUsable source number) :
    locate source stated = (-1, "") := by
  rw [locate]
  cases stated with
  | none => rfl
  | some number =>
      have hnone : lineOf? source number = none := by
        refine Option.eq_none_iff_forall_ne_some.mpr fun text htext => ?_
        exact h number rfl (lineOf?_eq_some_iff.mp htext).1
      rw [Option.bind_some, hnone]
      rfl

/-! ### Numbers of 64 bits -/

/-- The number and text of a stated line of 64 bits, by two conversions: to a position, which must not be
negative and counts from one, and to a number of 32 bits. -/
def locateWide (source : String) (wide : Int64) : Int32 × String :=
  let position : Option Nat := if 0 ≤ wide.toInt then some wide.toInt.toNat else none
  let text := (position.filter (1 ≤ ·)).bind fun number => (Text.lines source)[number - 1]?
  match text, int32Of? wide.toInt with
  | some text, some number => (number, text)
  | _, _ => (-1, "")

theorem text_at_position (source : String) (number : Int) :
    (((if 0 ≤ number then some number.toNat else none : Option Nat).filter (1 ≤ ·)).bind fun number =>
        (Text.lines source)[number - 1]?) =
      if 1 ≤ number then (Text.lines source)[number.toNat - 1]? else none := by
  by_cases hlow : 1 ≤ number
  · have hnonneg : 0 ≤ number := by omega
    have hposition : 1 ≤ number.toNat := by omega
    rw [if_pos hnonneg, if_pos hlow, Option.filter_some, if_pos (by simpa using hposition), Option.bind_some]
  · by_cases hnonneg : 0 ≤ number
    · have hzero : number = 0 := by omega
      simp [hzero]
    · simp [hlow, hnonneg]

theorem exists_int32 (hlow : 1 ≤ number) (hhigh : number ≤ Int32.maxValue.toInt) :
    ∃ narrow : Int32, narrow.toInt = number := by
  have hmax : Int32.maxValue.toInt = 2 ^ 31 - 1 := by decide
  exact ⟨Int32.ofInt number, Int32.toInt_ofInt_of_le (by omega) (by omega)⟩

/-- The conversions together refuse a number just when its place does not exist. -/
theorem locateWide_eq (source : String) (wide : Int64) :
    ((locateWide source wide).1.toInt, (locateWide source wide).2) = locate source (some wide.toInt) := by
  rw [locateWide, locate, Option.bind_some, lineOf?, text_at_position]
  by_cases hlow : 1 ≤ wide.toInt
  · rw [if_pos hlow]
    by_cases hhigh : wide.toInt ≤ Int32.maxValue.toInt
    · obtain ⟨narrow, hnarrow⟩ := exists_int32 hlow hhigh
      rw [if_pos ⟨hlow, hhigh⟩, int32Of?_eq_some_iff.mpr hnarrow]
      cases (Text.lines source)[wide.toInt.toNat - 1]? with
      | none => rfl
      | some text => exact congrArg (·, text) hnarrow
    · have hnone : int32Of? wide.toInt = none := if_neg fun h => hhigh h.2
      rw [if_neg fun h => hhigh h.2, hnone]
      cases (Text.lines source)[wide.toInt.toNat - 1]? <;> rfl
  · rw [if_neg hlow, if_neg fun h => hlow h.1]
    rfl

/-- **A report points into the source or nowhere.** For any failure and any source the report carries on the
origin, the message and the calls. Its line is the one stated with the failure, however useless, else the one
the message has a marker of: with the text the source has there if the source has such a line and its number is
one of 32 bits, and otherwise, or when no line is stated, none. For a number of 64 bits the two conversions come
to that. -/
theorem capture_points (origin : Origin) (message : String) (line : Option Int) (source : String)
    (history : CallHistory) :
    let report := capture origin message line source history
    let stated := match line with
      | some given => some given
      | none => LineMarker.line? message
    (∀ broken, Text.BreaksInto source.toList broken ↔ broken = (Text.lines source).map String.toList) ∧
      ((∃ number, stated = some number ∧ IsUsable source number ∧ report.lineNumber = number ∧
          (Text.lines source)[number.toNat - 1]? = some report.lineText) ∨
        report.lineNumber = -1 ∧ report.lineText = "") ∧
      (report.lineNumber = -1 ∧ report.lineText = "" ↔
        ∀ number, stated = some number → ¬ IsUsable source number) ∧
      (∀ wide : Int64, stated = some wide.toInt →
        ((locateWide source wide).1.toInt, (locateWide source wide).2) = (report.lineNumber, report.lineText)) ∧
      report.origin = origin ∧ report.message = message ∧ report.history = history.records ∧
      report.isDisplaying = true := by
  intro report stated
  have hstated : statedLine? message line = stated := by cases line <;> rfl
  have hplace : (report.lineNumber, report.lineText) = locate source stated := by
    rw [← hstated]
    rfl
  have hwide : ∀ wide : Int64, stated = some wide.toInt →
      ((locateWide source wide).1.toInt, (locateWide source wide).2) = (report.lineNumber, report.lineText) := by
    intro wide hnumber
    rw [hplace, hnumber, locateWide_eq]
  by_cases hfound : ∃ number, stated = some number ∧ IsUsable source number
  · obtain ⟨number, hnumber, husable⟩ := hfound
    obtain ⟨text, hlocated, htext⟩ := locate_of_usable husable
    rw [hnumber, hlocated] at hplace
    obtain ⟨hline, rfl⟩ := Prod.mk.inj hplace
    have hpositive : 1 ≤ report.lineNumber := hline ▸ husable.1
    refine ⟨fun _ => Text.breaksInto_iff, .inl ⟨number, hnumber, husable, hline, htext⟩, ?_,
      hwide, rfl, rfl, rfl, rfl⟩
    exact iff_of_false (fun hnone => by omega) fun hnone => hnone number hnumber husable
  · have hnone : ∀ number, stated = some number → ¬ IsUsable source number :=
      fun number hnumber husable => hfound ⟨number, hnumber, husable⟩
    rw [locate_of_not_usable hnone] at hplace
    obtain ⟨hline, htext⟩ := Prod.mk.inj hplace
    exact ⟨fun _ => Text.breaksInto_iff, .inr ⟨hline, htext⟩, iff_of_true ⟨hline, htext⟩ hnone, hwide,
      rfl, rfl, rfl, rfl⟩

/-- What stands after the last line feed is a line if it is anything, so this source has two. -/
example :
    let source := "print(1)\r\nDig()\n"
    locate source (some 2) = (2, "Dig()") ∧ locate source (some 3) = (-1, "") ∧ locate source (some 0) = (-1, "") := by
  decide +kernel

end Report
end ScriptBridge
