import Mathlib.Logic.Relation
import ScriptBridge.Proofs.GuestImages

/-! How deep conversion goes into tables that hold one another. A table is opened as a list or as a record,
and conversion goes on to what it meets there; tables that are met in one another are nested, and a table that
is met in itself is nested without end. Conversion succeeds just when no more than `maxNesting` tables are
nested and everything it meets has a reading, so it never gives a part of a value for the whole. Before it opens
a table as a list on request it asks for room for as many items as the table's length says, which may be far more
than it holds, and when there is no such room it comes to nothing at all. -/

namespace ScriptBridge

open Guest (Table)

namespace Value

mutual

/-- How deep lists and records are nested in a value. -/
def nesting : Value → Nat
  | list items => nestingItems items + 1
  | record fields => nestingFields fields + 1
  | _ => 0

def nestingItems : List Value → Nat
  | [] => 0
  | item :: rest => max item.nesting (nestingItems rest)

def nestingFields : List (String × Value) → Nat
  | [] => 0
  | (_, field) :: rest => max field.nesting (nestingFields rest)

end

theorem nestingItems_le_iff {items : List Value} {n : Nat} :
    nestingItems items ≤ n ↔ ∀ item ∈ items, item.nesting ≤ n := by
  induction items with
  | nil => simp [nestingItems]
  | cons item rest ih => rw [nestingItems, Nat.max_le, ih, List.forall_mem_cons]

theorem nestingFields_le_iff {fields : List (String × Value)} {n : Nat} :
    nestingFields fields ≤ n ↔ ∀ field ∈ fields, field.2.nesting ≤ n := by
  induction fields with
  | nil => simp [nestingFields]
  | cons field rest ih => rw [nestingFields, Nat.max_le, ih, List.forall_mem_cons]

end Value

namespace Conversion

variable {reading : Reading} {levels n : Nat} {g : Guest.Value} {v : Value}

/-- Lists and records in plain values are nested no deeper than their levels. -/
theorem Plain.nesting_le (h : Plain levels v) : v.nesting ≤ levels := by
  induction levels generalizing v with
  | zero => cases v <;> first | exact h.elim | simp [Value.nesting]
  | succ levels ih =>
      cases v with
      | list items =>
          rw [Value.nesting, Nat.add_le_add_iff_right, Value.nestingItems_le_iff]
          exact fun item hitem => ih (h.2 item hitem)
      | record fields =>
          rw [Value.nesting, Nat.add_le_add_iff_right, Value.nestingFields_le_iff]
          exact fun field hfield => ih (h.2.2 field hfield)
      | _ => simp [Value.nesting]

theorem structural_nesting_le (h : structural reading levels g = .ok v) : v.nesting ≤ levels := by
  by_cases hg : g.isNil = true
  · cases g <;> cases hg
    cases levels <;> cases h <;> simp [Value.nesting]
  · exact (structural_plain h (Bool.eq_false_iff.mpr hg)).nesting_le

/-! ### Tables as they are opened -/

/-- The two ways a table is taken apart. -/
inductive Layout where
  | list
  | record

/-- A table, and the way it is taken apart. -/
structure Opening where
  layout : Layout
  address : Nat

/-- A table taken apart by its own shape. -/
def ownOpening (reading : Reading) (address : Nat) : Opening :=
  ⟨if isSequence reading address then .list else .record, address⟩

/-- The table a conversion to a kind opens first, when the kind is one that opens tables. -/
def firstOpening (reading : Reading) (address : Nat) : Kind → Option Opening
  | .any => some (ownOpening reading address)
  | .list => some ⟨.list, address⟩
  | .record => some ⟨.record, address⟩
  | _ => none

namespace Opening

variable {o inner : Opening}

/-- What conversion goes on to. -/
def parts (reading : Reading) (o : Opening) : List Guest.Value :=
  match o.layout with
  | .list => (reading.table o.address).sequence
  | .record => (reading.table o.address).entries.map Prod.snd

/-- Conversion of a table whose parts are opened at most `levels` deep. -/
def contents (reading : Reading) (levels : Nat) (o : Opening) : Except ConversionError Value :=
  match o.layout with
  | .list => listOf (structural reading levels) (reading.table o.address)
  | .record => recordOf (structural reading levels) (reading.table o.address)

/-- A table is met in another one, and is opened by its own shape. -/
def Meets (reading : Reading) (o inner : Opening) : Prop :=
  .table inner.address ∈ o.parts reading ∧ inner = ownOpening reading inner.address

/-- So many tables are nested, each met in the one before. -/
inductive Nests (reading : Reading) : Nat → Opening → Prop where
  | one (o : Opening) : Nests reading 1 o
  | more {n : Nat} {o inner : Opening} (hmeets : o.Meets reading inner) (h : Nests reading n inner) :
      Nests reading (n + 1) o

/-- A value that has a reading, if it is a table one that depends on what is in it. -/
def Readable : Guest.Value → Prop
  | .alien _ | .light | .thread _ | .error _ => False
  | _ => True

/-- Everything in one table has a reading: the keys, if they are to name fields, and the parts. -/
def Legible (reading : Reading) (o : Opening) : Prop :=
  (∀ part ∈ o.parts reading, Readable part) ∧
    (o.layout = .record → ∀ entry ∈ (reading.table o.address).entries, HasKeyText entry.1)

/-- Everything in all the tables that are met has a reading. -/
def Clear (reading : Reading) (o : Opening) : Prop :=
  ∀ inner, Relation.ReflTransGen (Meets reading) o inner → inner.Legible reading

/-! ### Nested tables -/

theorem nests_succ_iff :
    Nests reading (n + 2) o ↔ ∃ inner, o.Meets reading inner ∧ Nests reading (n + 1) inner := by
  constructor
  · rintro (_ | ⟨hmeets, h⟩)
    exact ⟨_, hmeets, h⟩
  · rintro ⟨inner, hmeets, h⟩
    exact .more hmeets h

theorem Nests.pred (h : Nests reading (n + 2) o) : Nests reading (n + 1) o := by
  induction n generalizing o with
  | zero => exact .one o
  | succ n ih =>
      obtain ⟨inner, hmeets, hinner⟩ := nests_succ_iff.mp h
      exact .more hmeets (ih hinner)

/-- A table in which others are met on the way to some nested ones nests one more. -/
theorem Nests.of_transGen (h : Nests reading (n + 1) inner) (hmeets : Relation.TransGen (Meets reading) o inner) :
    Nests reading (n + 2) o := by
  induction hmeets using Relation.TransGen.head_induction_on with
  | single hlast => exact .more hlast h
  | head hfirst _ ih => exact (Nests.more hfirst ih).pred

/-- Tables on a cycle are nested without end. -/
theorem nests_of_cycle (h : Relation.TransGen (Meets reading) o o) (n : Nat) : Nests reading (n + 1) o := by
  induction n with
  | zero => exact .one o
  | succ n ih => exact ih.of_transGen h

theorem nests_of_cycle_within (hmeets : Relation.ReflTransGen (Meets reading) o inner)
    (h : Relation.TransGen (Meets reading) inner inner) (n : Nat) : Nests reading (n + 1) o := by
  rcases Relation.reflTransGen_iff_eq_or_transGen.mp hmeets with rfl | hmeets
  · exact nests_of_cycle h n
  · exact ((nests_of_cycle h n).of_transGen hmeets).pred

/-! ### When conversion succeeds -/

theorem clear_iff :
    o.Clear reading ↔ o.Legible reading ∧ ∀ inner, o.Meets reading inner → inner.Clear reading := by
  constructor
  · intro h
    exact ⟨h o .refl, fun inner hmeets deeper hdeeper => h deeper (.head hmeets hdeeper)⟩
  · rintro ⟨hhere, hinside⟩ deeper hdeeper
    rcases Relation.ReflTransGen.cases_head hdeeper with rfl | ⟨inner, hmeets, hrest⟩
    · exact hhere
    · exact hinside inner hmeets deeper hrest

theorem structural_own (reading : Reading) (levels address : Nat) :
    structural reading (levels + 1) (.table address) = (ownOpening reading address).contents reading levels := by
  rw [structural_table, contents, ownOpening]
  by_cases h : isSequence reading address = true <;> simp [h]

theorem exists_forall₂_iff {α β : Type} {R : α → β → Prop} {xs : List α} :
    (∃ ys, List.Forall₂ R xs ys) ↔ ∀ x ∈ xs, ∃ y, R x y := by
  refine ⟨?_, exists_forall₂⟩
  rintro ⟨ys, h⟩ x hx
  obtain ⟨y, -, hy⟩ := exists_of_mem_right (List.Forall₂.flip (R := flip R) h) hx
  exact ⟨y, hy⟩

theorem keyText_ok_iff {key : Guest.Value} : (∃ text, keyText key = .ok text) ↔ HasKeyText key := by
  refine ⟨?_, keyText_ok⟩
  rintro ⟨text, htext⟩
  cases key with
  | str | int | float | bool => trivial
  | _ => cases htext

theorem isFieldOf_iff {item : Guest.Value → Except ConversionError Value} {entry : Guest.Value × Guest.Value} :
    (∃ field, IsFieldOf item entry field) ↔ HasKeyText entry.1 ∧ ∃ v, item entry.2 = .ok v := by
  rw [← keyText_ok_iff]
  constructor
  · rintro ⟨⟨text, v⟩, htext, hv⟩
    exact ⟨⟨text, htext⟩, v, hv⟩
  · rintro ⟨⟨text, htext⟩, v, hv⟩
    exact ⟨(text, v), htext, hv⟩

/-- A table is converted just when its keys are fit for its fields and its parts are converted. -/
theorem contents_ok_iff_parts : (∃ v, o.contents reading levels = .ok v) ↔
    (o.layout = .record → ∀ entry ∈ (reading.table o.address).entries, HasKeyText entry.1) ∧
      ∀ part ∈ o.parts reading, ∃ v, structural reading levels part = .ok v := by
  obtain ⟨layout, address⟩ := o
  cases layout with
  | list =>
      calc (∃ v, listOf (structural reading levels) (reading.table address) = .ok v)
        _ ↔ ∃ items, List.Forall₂ (fun part v => structural reading levels part = .ok v)
              (reading.table address).sequence items := by simp [listOf_ok_iff]
        _ ↔ _ := by simp [exists_forall₂_iff, parts]
  | record =>
      calc (∃ v, recordOf (structural reading levels) (reading.table address) = .ok v)
        _ ↔ ∃ pairs, List.Forall₂ (IsFieldOf (structural reading levels))
              (reading.table address).entries pairs := by simp [recordOf_ok_iff]
        _ ↔ ∀ entry ∈ (reading.table address).entries,
              HasKeyText entry.1 ∧ ∃ v, structural reading levels entry.2 = .ok v := by
            simp only [exists_forall₂_iff, isFieldOf_iff]
        _ ↔ _ := by simp only [parts, forall_and, List.forall_mem_map, forall_const]

/-- A part is converted just when it has a reading and, if it is a table, that table is converted to one level
less. -/
theorem structural_ok_iff : (∃ v, structural reading levels g = .ok v) ↔
    Readable g ∧ ∀ address, g = .table address →
      ∃ fewer, levels = fewer + 1 ∧ ∃ v, (ownOpening reading address).contents reading fewer = .ok v := by
  cases g with
  | table address =>
      cases levels with
      | zero => simp [structural, tooDeep, Readable]
      | succ levels => simp [structural_own, Readable]
  | alien | light | thread | error => simp [structural, unsupported, Readable]
  | _ => simp [structural, Readable]

/-- A table is converted just when everything in it has a reading and the tables met in it are converted to one
level less. -/
theorem contents_ok_iff_meets : (∃ v, o.contents reading levels = .ok v) ↔ o.Legible reading ∧
    ∀ inner, o.Meets reading inner →
      ∃ fewer, levels = fewer + 1 ∧ ∃ v, inner.contents reading fewer = .ok v := by
  rw [contents_ok_iff_parts, Legible, and_comm (a := ∀ part ∈ _, _), and_assoc, and_congr_right_iff]
  intro _
  simp only [structural_ok_iff, forall_and, and_congr_right_iff]
  intro _
  constructor
  · rintro h inner ⟨hpart, hown⟩
    rw [hown]
    exact h _ hpart _ rfl
  · rintro h _ hpart address rfl
    exact h (ownOpening reading address) ⟨hpart, rfl⟩

/-- **Conversion succeeds just when it can be complete.** Everything that is met has a reading, and with the
table that is opened first no more are nested than levels are allowed. -/
theorem contents_ok_iff : (∃ v, o.contents reading levels = .ok v) ↔
    ¬ Nests reading (levels + 2) o ∧ o.Clear reading := by
  rw [contents_ok_iff_meets, nests_succ_iff, clear_iff]
  induction levels generalizing o with
  | zero =>
      have hone : ∀ inner, Nests reading 1 inner := .one
      simp only [hone]
      grind
  | succ levels ih =>
      have hinner : ∀ inner, (∃ v, inner.contents reading levels = .ok v) ↔
          ¬ Nests reading (levels + 2) inner ∧ inner.Clear reading := by
        intro inner
        rw [contents_ok_iff_meets, ih, ← nests_succ_iff, ← clear_iff]
      simp only [Nat.add_right_cancel_iff, exists_eq_left', hinner]
      grind

/-- Where no table is met, none are nested, and only what is there needs a reading. -/
theorem flat_of_no_table (h : ∀ address, .table address ∉ o.parts reading) (n : Nat) :
    ¬ Nests reading (n + 2) o ∧ (o.Clear reading ↔ o.Legible reading) := by
  have hnone : ∀ inner, ¬ o.Meets reading inner := fun inner hmeets => h inner.address hmeets.1
  constructor
  · rw [nests_succ_iff]
    rintro ⟨inner, hmeets, -⟩
    exact hnone inner hmeets
  · rw [clear_iff]
    exact and_iff_left fun inner hmeets => absurd hmeets (hnone inner)

theorem contents_nesting_le (h : o.contents reading levels = .ok v) : v.nesting ≤ levels + 1 := by
  obtain ⟨layout, address⟩ := o
  cases layout with
  | list =>
      obtain ⟨items, rfl, -, hitems⟩ := listOf_plain h structural_plain
      simp only [Value.nesting, Nat.add_le_add_iff_right, Value.nestingItems_le_iff]
      exact fun item hitem => (hitems item hitem).nesting_le
  | record =>
      obtain ⟨fields, rfl, -, -, hfields⟩ := recordOf_plain h structural_plain
      simp only [Value.nesting, Nat.add_le_add_iff_right, Value.nestingFields_le_iff]
      exact fun field hfield => (hfields field hfield).nesting_le

/-- A conversion that opens a table first comes to what is in that table. -/
theorem convert_result {kind : Kind} {address : Nat} (h : firstOpening reading address kind = some o)
    (options : ConversionOptions) (evidence : Evidence) :
    (convert options reading kind evidence (.table address)).result = o.contents reading (maxNesting - 1) := by
  cases kind with
  | any =>
      cases h
      exact structural_own reading (maxNesting - 1) address
  | list => cases h; rfl
  | record => cases h; rfl
  | _ => cases h

end Opening

open Opening (Meets Nests Clear)

/-! ### Attempts -/

section

variable {machine : Machine} {options : ConversionOptions} {kind : Kind} {evidence : Evidence} {address : Nat}

/-- Only for a list that is asked for is there ever no room. -/
theorem attempt_error_iff {collapse : Collapse} :
    attempt machine options reading kind evidence (.table address) = .error collapse ↔
      kind = .list ∧ machine.reserve Value.width (reading.length address) = some collapse := by
  cases kind with
  | list =>
      rw [attempt, reserve]
      cases machine.reserve Value.width (reading.length address) <;> simp
  | _ => simp [attempt, reserve]

theorem attempt_ok {conversion : Conversion}
    (h : attempt machine options reading kind evidence g = .ok conversion) :
    reserve machine reading kind g = none ∧ conversion = convert options reading kind evidence g := by
  rw [attempt] at h
  split at h
  · cases h
  · rename_i hroom
    cases h
    exact ⟨hroom, rfl⟩

end

theorem exists_error_iff {ε α : Type} {result : Except ε α} :
    (∃ fault, result = .error fault) ↔ ¬ ∃ v, result = .ok v := by
  cases result <;> simp

/-- A table that holds one other table. -/
def holder (address : Nat) : Table := Table.empty.set (.int 1) (.table address)

theorem holder_border (address : Nat) : (holder address).IsBorder 1 := ⟨by decide, .inr rfl, .inr rfl⟩

/-- So many tables, each holding the next one, the last holding nothing. -/
def tower (height : Nat) : Reading where
  table address := if address + 1 < height then holder (address + 1) else .empty
  length address := if address + 1 < height then 1 else 0
  isBorder address := by
    split
    · exact holder_border (address + 1)
    · exact ⟨by decide, .inl rfl, .inr rfl⟩

namespace Opening

variable {height : Nat} {o : Opening}

theorem parts_tower (height : Nat) (o : Opening) :
    o.parts (tower height) = if o.address + 1 < height then [.table (o.address + 1)] else [] := by
  obtain ⟨layout, address⟩ := o
  by_cases h : address + 1 < height <;> cases layout <;> simp only [parts, tower, h] <;> rfl

theorem meets_tower_iff {inner : Opening} : o.Meets (tower height) inner ↔
    o.address + 1 < height ∧ inner = ownOpening (tower height) (o.address + 1) := by
  rw [Meets, parts_tower]
  by_cases h : o.address + 1 < height
  · rw [if_pos h, List.mem_singleton, Guest.Value.table.injEq, and_iff_right h]
    constructor
    · rintro ⟨haddress, hown⟩
      rwa [haddress] at hown
    · rintro rfl
      exact ⟨rfl, rfl⟩
  · simp [h]

theorem nests_tower_iff {n : Nat} : Nests (tower height) (n + 1) o ↔ n = 0 ∨ o.address + n < height := by
  induction n generalizing o with
  | zero => simp [Nests.one]
  | succ n ih =>
      rw [nests_succ_iff]
      simp only [meets_tower_iff, ih, and_assoc, exists_and_left, exists_eq_left, ownOpening]
      omega

theorem clear_tower (height : Nat) (o : Opening) : o.Clear (tower height) := by
  intro inner _
  constructor
  · intro part hpart
    rw [parts_tower] at hpart
    split at hpart
    · rw [List.mem_singleton.mp hpart]
      trivial
    · cases hpart
  · intro _ entry hentry
    by_cases h : inner.address + 1 < height
    · simp only [tower, if_pos h] at hentry
      rw [List.mem_singleton.mp hentry]
      trivial
    · simp only [tower, if_neg h] at hentry
      cases hentry

end Opening

/-- A table that holds something at the powers of two only, put there from the greatest one on. -/
def sparse : Table :=
  (List.range 63).reverse.foldl (fun t i => t.set (.int (Int64.ofNat (Nat.pow 2 i))) (.int 1)) .empty

theorem sparse_spec : sparse.border = Nat.pow 2 62 ∧ sparse.sequence = [.int 1, .int 1] := by decide +kernel

theorem flat_sparse (s : Guest.State) :
    let reading := Reading.of (Value.allocate sparse s).2
    ¬ Nests reading (maxNesting + 1) ⟨.list, s.tables.size⟩ ∧ Clear reading ⟨.list, s.tables.size⟩ := by
  intro reading
  have hparts : Opening.parts reading ⟨.list, s.tables.size⟩ = [.int 1, .int 1] := by
    rw [Opening.parts, Value.covers_allocate (t := sparse) fun _ _ => rfl]
    exact sparse_spec.2
  have hnone : ∀ address, .table address ∉ Opening.parts reading ⟨.list, s.tables.size⟩ := by simp [hparts]
  obtain ⟨hnested, hclear⟩ := Opening.flat_of_no_table hnone (maxNesting - 1)
  exact ⟨hnested, hclear.mpr ⟨by simp [hparts, Opening.Readable], nofun⟩⟩

theorem length_sparse (s : Guest.State) :
    (Reading.of (Value.allocate sparse s).2).length s.tables.size = Nat.pow 2 62 := by
  show ((Value.allocate sparse s).2.table s.tables.size).border = _
  rw [Value.table_allocate]
  exact sparse_spec.1

end Conversion
end ScriptBridge
