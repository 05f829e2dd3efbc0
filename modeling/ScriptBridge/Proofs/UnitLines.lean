import ScriptBridge.Proofs.SourceLines
import ScriptBridge.SourceUnit

/-! Lines of concatenated units. Contents are joined by a line feed each, so a unit whose content ends in a line
feed has an empty line after it, and one without content is a line of its own. Every line of every unit is a line
of the block, at a place that is counted by the line feeds before it; a carriage return is lost from it only if
it ends a unit without a line feed and another unit comes next. -/

namespace ScriptBridge

/-! ### Lines before a line feed -/

namespace Text

variable {line : List Char} {text : List Char} {k : Nat}

theorem length_pieces (separator : Char) (text : List Char) :
    (pieces separator text).length = text.count separator + 1 := by
  induction text with
  | nil => rfl
  | cons c rest ih =>
      obtain ⟨piece, more, hpieces⟩ := List.exists_cons_of_ne_nil (pieces_ne_nil separator rest)
      rw [pieces, List.count_cons]
      split
      · rename_i heq
        rw [List.length_cons, ih, heq, if_pos (beq_self_eq_true separator)]
      · rename_i hne
        rw [hpieces, List.length_cons] at ih
        rw [hpieces, List.length_cons, ih, if_neg (by simpa using hne), Nat.add_zero]

/-- A text that is followed by a line feed has a line for each of its pieces. -/
theorem charLines_append_feed (text rest : List Char) :
    charLines (text ++ '\n' :: rest) = (pieces '\n' text).map dropReturn ++ charLines rest := by
  have hne := pieces_ne_nil '\n' rest
  rw [charLines, pieces_append, List.dropLast_append_of_ne_nil hne, List.getLast?_append_of_ne_nil _ hne,
    List.map_append, List.append_assoc, charLines]

/-- All pieces are broken off but the last one, which is a line if it is anything. -/
theorem exists_broken (text : List Char) : ∃ broken last, pieces '\n' text = broken ++ [last] ∧
    charLines text = broken.map dropReturn ++ [last].filter (!·.isEmpty) := by
  have hpieces := (List.dropLast_concat_getLast (pieces_ne_nil '\n' text)).symm
  refine ⟨_, _, hpieces, ?_⟩
  rw [charLines, List.getLast?_eq_some_getLast (pieces_ne_nil '\n' text), Option.toList_some]

theorem length_charLines_le (text : List Char) : (charLines text).length ≤ text.count '\n' + 1 := by
  obtain ⟨broken, last, hpieces, hlines⟩ := exists_broken text
  have hlast : ([last].filter (!·.isEmpty)).length ≤ 1 := List.length_filter_le _ _
  rw [← length_pieces, hpieces, hlines, List.length_append, List.length_append, List.length_map]
  exact Nat.add_le_add_left hlast _

theorem dropReturn_or (line : List Char) : dropReturn line = line ∨ line = dropReturn line ++ ['\r'] := by
  by_cases hreturn : line.getLast? = some '\r'
  · obtain ⟨line, rfl⟩ := List.getLast?_eq_some_iff.mp hreturn
    exact .inr (by rw [dropReturn_snoc])
  · exact .inl (dropReturn_of_ne hreturn)

/-- A line stays where it is when the text goes on after a line feed; the last one may lose a carriage return. -/
theorem getElem?_append_feed (h : (charLines text)[k]? = some line) (rest : List Char) :
    ∃ kept, (charLines (text ++ '\n' :: rest))[k]? = some kept ∧
      (kept = line ∨ line = kept ++ ['\r'] ∧ k + 1 = (charLines text).length) := by
  obtain ⟨broken, last, hpieces, hlines⟩ := exists_broken text
  rw [charLines_append_feed, hpieces, List.map_append, List.append_assoc]
  rw [hlines] at h ⊢
  by_cases hbroken : k < (broken.map dropReturn).length
  · rw [List.getElem?_append_left hbroken] at h ⊢
    exact ⟨line, h, .inl rfl⟩
  · rw [List.getElem?_append_right (Nat.not_lt.mp hbroken)] at h
    have hlast : [last].filter (!·.isEmpty) = [last] := by
      cases hempty : last.isEmpty with
      | false => simp [hempty]
      | true => simp [hempty] at h
    rw [hlast] at h ⊢
    have hk : k - (broken.map dropReturn).length = 0 := by
      obtain ⟨hlt, -⟩ := List.getElem?_eq_some_iff.mp h
      exact Nat.lt_one_iff.mp hlt
    rw [hk, List.getElem?_cons_zero, Option.some.injEq] at h
    refine ⟨dropReturn line, ?_, (dropReturn_or line).imp id fun hreturn => ⟨hreturn, ?_⟩⟩
    · rw [List.getElem?_append_right (Nat.not_lt.mp hbroken), hk, h]
      rfl
    · rw [List.length_append, List.length_singleton]
      omega

end Text

/-! ### Units in their block -/

namespace SourceUnit

open Text (charLines)

variable {units rest : List SourceUnit} {unit : SourceUnit} {line : List Char} {i j k l : Nat}

/-- The lines a unit takes up when another one follows. -/
def height (unit : SourceUnit) : Nat := 1 + unit.content.toList.count '\n'

/-- The lines that come before a unit. -/
def offset (units : List SourceUnit) (i : Nat) : Nat := ((units.take i).map height).sum

theorem concat_cons (unit : SourceUnit) (h : rest ≠ []) :
    (concat (unit :: rest)).toList = unit.content.toList ++ '\n' :: (concat rest).toList := by
  have hmap : rest.map content ≠ [] := mt List.map_eq_nil_iff.mp h
  rw [concat, List.map_cons, String.intercalate_cons_of_ne_nil hmap, String.toList_append, String.toList_append,
    List.append_assoc]
  rfl

theorem offset_cons (unit : SourceUnit) (rest : List SourceUnit) (i : Nat) :
    offset (unit :: rest) (i + 1) = unit.height + offset rest i := by
  rw [offset, List.take_succ_cons, List.map_cons, List.sum_cons, offset]

theorem offset_succ (h : units[i]? = some unit) : offset units (i + 1) = offset units i + unit.height := by
  rw [offset, List.take_add_one, h, Option.toList_some, List.map_append, List.sum_append, offset]
  rfl

theorem offset_mono (units : List SourceUnit) (h : i ≤ j) : offset units i ≤ offset units j := by
  have hsub : ((units.take i).map height).Sublist ((units.take j).map height) :=
    (List.take_prefix_take_left h).sublist.map height
  exact hsub.sum_le_sum fun _ _ => Nat.zero_le _

/-- The lines of a unit come before those of the next one. -/
theorem lt_offset_succ (h : units[i]? = some unit) (hk : k < (charLines unit.content.toList).length) :
    offset units i + k < offset units (i + 1) := by
  have hheight := Text.length_charLines_le unit.content.toList
  rw [offset_succ h, height]
  omega

/-- Lines of units have places of their own. -/
theorem place_inj {other : SourceUnit} (h : units[i]? = some unit) (hk : k < (charLines unit.content.toList).length)
    (h' : units[j]? = some other) (hl : l < (charLines other.content.toList).length)
    (hsame : offset units i + k = offset units j + l) : i = j ∧ k = l := by
  have hbefore := lt_offset_succ h hk
  have hbefore' := lt_offset_succ h' hl
  rcases Nat.lt_trichotomy i j with hlt | rfl | hlt
  · have hmono : offset units (i + 1) ≤ offset units j := offset_mono units hlt
    omega
  · exact ⟨rfl, Nat.add_left_cancel hsame⟩
  · have hmono : offset units (j + 1) ≤ offset units i := offset_mono units hlt
    omega

/-- A line of a unit is found in the block behind the lines before the unit. -/
theorem getElem?_concat (h : units[i]? = some unit) (hline : (charLines unit.content.toList)[k]? = some line) :
    ∃ kept, (charLines (concat units).toList)[offset units i + k]? = some kept ∧
      (kept = line ∨
        line = kept ++ ['\r'] ∧ k + 1 = (charLines unit.content.toList).length ∧ i + 1 < units.length) := by
  induction units generalizing i with
  | nil => cases h
  | cons first rest ih =>
      by_cases hrest : rest = []
      · subst hrest
        cases i with
        | zero =>
            obtain rfl := Option.some.inj h
            refine ⟨line, ?_, .inl rfl⟩
            have hconcat : concat [first] = first.content := String.intercalate_singleton
            rw [hconcat]
            simpa [offset] using hline
        | succ i => cases h
      · rw [concat_cons first hrest]
        cases i with
        | zero =>
            obtain rfl := Option.some.inj h
            obtain ⟨kept, hkept, hsame⟩ := Text.getElem?_append_feed hline (concat rest).toList
            have hmore : 0 + 1 < (first :: rest).length :=
              Nat.succ_lt_succ (List.length_pos_iff.mpr hrest)
            refine ⟨kept, ?_, hsame.imp_right fun ⟨hreturn, hlast⟩ => ⟨hreturn, hlast, hmore⟩⟩
            rwa [offset, List.take_zero, List.map_nil, List.sum_nil, Nat.zero_add]
        | succ i =>
            obtain ⟨kept, hkept, hsame⟩ := ih h
            refine ⟨kept, ?_, hsame.imp_right fun ⟨hreturn, hlast, hmore⟩ => ⟨hreturn, hlast, Nat.succ_lt_succ hmore⟩⟩
            have hheight : ((Text.pieces '\n' first.content.toList).map Text.dropReturn).length = first.height := by
              rw [List.length_map, Text.length_pieces, height, Nat.add_comm]
            rw [Text.charLines_append_feed, offset_cons, Nat.add_assoc, ← hheight,
              List.getElem?_append_right (Nat.le_add_right _ _), Nat.add_sub_cancel_left]
            exact hkept

end SourceUnit

/-! ### Reports -/

namespace Report

open SourceUnit (offset)

theorem length_charLines (text : String) : (Text.charLines text.toList).length = (Text.lines text).length := by
  rw [← Text.map_toList_lines, List.length_map]

theorem charLines_getElem? {source line : String} {k : Nat} (h : (Text.lines source)[k]? = some line) :
    (Text.charLines source.toList)[k]? = some line.toList := by
  rw [← Text.map_toList_lines, List.getElem?_map, h, Option.map_some]

/-- **Lines of units are found again.** A report of a place in the block of some units that is a line of one of
them names that place and shows the line. The most that can be missing is a carriage return, at the very end of a
unit that another one follows. No two lines of units have one place, so none hides another. -/
theorem unit_lines_found (units : List SourceUnit)
    (hsize : (Text.lines (SourceUnit.concat units)).length ≤ Int32.maxValue.toInt) {i : Nat} {unit : SourceUnit}
    (hunit : units[i]? = some unit) {k : Nat} (hlow : 1 ≤ k) (hhigh : k ≤ (Text.lines unit.content).length)
    {message : String} {line : Option Int} (hstated : statedLine? message line = some ↑(offset units i + k))
    (origin : Origin) (history : CallHistory) :
    let report := capture origin message line (SourceUnit.concat units) history
    report.lineNumber = ↑(offset units i + k) ∧
      (∃ own, (Text.lines unit.content)[k - 1]? = some own ∧
        (report.lineText = own ∨
          own = report.lineText ++ "\r" ∧ k = (Text.lines unit.content).length ∧ i + 1 < units.length)) ∧
      ∀ j other l, units[j]? = some other → 1 ≤ l → l ≤ (Text.lines other.content).length →
        offset units j + l = offset units i + k → j = i ∧ l = k := by
  intro report
  obtain ⟨k, rfl⟩ := Nat.exists_eq_add_of_le' hlow
  have hplace : (report.lineNumber, report.lineText) =
      locate (SourceUnit.concat units) (some ↑(offset units i + (k + 1))) := by
    rw [← hstated]
    rfl
  obtain ⟨own, hown⟩ : ∃ own, (Text.lines unit.content)[k]? = some own :=
    ⟨_, List.getElem?_eq_getElem hhigh⟩
  obtain ⟨kept, hkept, hsame⟩ := SourceUnit.getElem?_concat hunit (charLines_getElem? hown)
  have hbelow : offset units i + k < (Text.lines (SourceUnit.concat units)).length := by
    obtain ⟨hlt, -⟩ := List.getElem?_eq_some_iff.mp hkept
    rwa [length_charLines] at hlt
  have husable : IsUsable (SourceUnit.concat units) ↑(offset units i + (k + 1)) :=
    ⟨by omega, by omega, by omega⟩
  obtain ⟨text, hlocated, htext⟩ := locate_of_usable husable
  obtain ⟨hnumber, hshown⟩ := Prod.mk.inj (hplace.trans hlocated)
  have hchars : report.lineText.toList = kept := by
    have hindex : ((offset units i + (k + 1) : Nat) : Int).toNat - 1 = offset units i + k := by omega
    rw [hindex] at htext
    rw [hshown, ← Option.some.injEq, ← charLines_getElem? htext, hkept]
  refine ⟨hnumber, ⟨own, hown, hsame.imp ?_ ?_⟩, ?_⟩
  · rintro rfl
    exact String.toList_inj.mp hchars
  · rintro ⟨hreturn, hlast, hmore⟩
    refine ⟨String.toList_inj.mp ?_, by rw [hlast, length_charLines], hmore⟩
    rw [hreturn, String.toList_append, hchars]
    rfl
  · intro j other l hother hlow' hhigh' heq
    obtain ⟨l, rfl⟩ := Nat.exists_eq_add_of_le' hlow'
    rw [← length_charLines] at hhigh hhigh'
    obtain ⟨rfl, rfl⟩ := SourceUnit.place_inj hother hhigh' hunit hhigh (Nat.succ.inj heq)
    exact ⟨rfl, rfl⟩

/-- A unit that ends in a carriage return, one without content, one that ends in a line feed and one that begins
with one. -/
def raggedUnits : List SourceUnit := [⟨"main", "a\r"⟩, ⟨"empty", ""⟩, ⟨"helpers", "b\n"⟩, ⟨"rest", "\nc"⟩]

theorem ragged_unit_lines_found :
    let report (line : Int) := capture .guest "boom" (some line) (SourceUnit.concat raggedUnits) ⟨[], 10⟩
    (report 1).lineNumber = 1 ∧ ((report 1).lineText = "a\r" ∨ "a\r" = (report 1).lineText ++ "\r") ∧
      (report 6).lineNumber = 6 ∧ (report 6).lineText = "c" := by
  intro report
  have hsize : ((Text.lines (SourceUnit.concat raggedUnits)).length : Int) ≤ Int32.maxValue.toInt := by decide +kernel
  have hstated₁ : statedLine? "boom" (some 1) = some ↑(offset raggedUnits 0 + 1) := rfl
  have hstated₆ : statedLine? "boom" (some 6) = some ↑(offset raggedUnits 3 + 2) := rfl
  obtain ⟨hfirst, ⟨own, hown, htext⟩, -⟩ :=
    unit_lines_found raggedUnits hsize rfl (by decide) (by decide +kernel) hstated₁ .guest ⟨[], 10⟩
  obtain ⟨hlast, ⟨own', hown', htext'⟩, -⟩ :=
    unit_lines_found raggedUnits hsize rfl (by decide) (by decide +kernel) hstated₆ .guest ⟨[], 10⟩
  obtain rfl := Option.some.inj ((show (Text.lines "a\r")[0]? = some "a\r" by decide +kernel).symm.trans hown)
  obtain rfl := Option.some.inj ((show (Text.lines "\nc")[1]? = some "c" by decide +kernel).symm.trans hown')
  refine ⟨hfirst, htext.imp id And.left, hlast, htext'.resolve_right ?_⟩
  rintro ⟨-, -, hmore⟩
  exact absurd hmore (by decide)

end Report
end ScriptBridge
