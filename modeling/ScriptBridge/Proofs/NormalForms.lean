import Mathlib.Data.List.TakeWhile
import ScriptBridge.Proofs.TableNesting

/-! What becomes of a host value on its way through the guest. Coordinates come back as records of their axes,
fields without an image are gone, and a record with none left is an empty list. This normal form has the very
image that the value has, so that reading one is reading the other. A list with a gap is another matter: where
a list is asked for, reading stops at the gap, whatever comes after it. -/

namespace ScriptBridge

open Guest (State Table)

namespace Value

variable {v : Value} {items : List Value} {fields : List (String × Value)} {s : State} {t : Table}

/-- Whether guest code gets anything for a value: nil and the mark for "no target" become nil. -/
def hasImage : Value → Bool
  | nil | target .invalid => false
  | _ => true

/-- The record that a coordinate's table is. -/
def ofAxes (c : Coord) : Value :=
  let axis (i : Int32) : Value := .int (Int64.ofInt i.toInt)
  .record [("x", axis c.x), ("y", axis c.y), ("z", axis c.z)]

mutual

/-- The value that guest code makes of a value. -/
def normalForm : Value → Value
  | nil => .nil
  | bool b => .bool b
  | int i => .int i
  | number x => .number x
  | str text => .str text
  | handle h => .handle h
  | callback f => .callback f
  | coord c => ofAxes c
  | target (.cell c) => ofAxes c
  | target (.entity h) => .handle h
  | target .invalid => .nil
  | list items => .list (normalItems items)
  | record fields =>
    match normalFields fields with
    | [] => .list []
    | kept => .record kept

def normalItems : List Value → List Value
  | [] => []
  | item :: rest => item.normalForm :: normalItems rest

/-- The fields with an image, each in its normal form. -/
def normalFields : List (String × Value) → List (String × Value)
  | [] => []
  | (key, field) :: rest =>
    if field.hasImage then (key, field.normalForm) :: normalFields rest else normalFields rest

end

theorem normalItems_eq_map (items : List Value) : normalItems items = items.map normalForm := by
  induction items with
  | nil => rfl
  | cons item rest ih => rw [normalItems, ih, List.map_cons]

theorem normalFields_eq_map (fields : List (String × Value)) :
    normalFields fields = (fields.filter (·.2.hasImage)).map fun field => (field.1, field.2.normalForm) := by
  induction fields with
  | nil => rfl
  | cons field rest ih =>
      obtain ⟨key, value⟩ := field
      cases h : value.hasImage <;> simp [normalFields, ih, h]

/-! ### Values in values -/

/-- The values a value is put together from. -/
def components : Value → List Value
  | list items => items
  | record fields => fields.map Prod.snd
  | _ => []

/-- What passes from the parts of a value to the value holds of all values. -/
theorem components_induction {P : Value → Prop} (step : ∀ v, (∀ part ∈ v.components, P part) → P v) (v : Value) :
    P v := by
  refine step v fun part hpart => ?_
  exact components_induction step part
termination_by v
decreasing_by
  cases v with
  | list items =>
      have hsmaller : sizeOf part < sizeOf items := List.sizeOf_lt_of_mem hpart
      simp only [list.sizeOf_spec]
      omega
  | record fields =>
      obtain ⟨⟨key, field⟩, hfield, rfl⟩ := List.mem_map.mp hpart
      have hsmaller := List.sizeOf_lt_of_mem hfield
      simp only [record.sizeOf_spec, Prod.mk.sizeOf_spec] at hsmaller ⊢
      omega
  | _ => cases hpart

/-- Something holds of a value and of all that it is put together from. -/
inductive Throughout (P : Value → Prop) : Value → Prop where
  | intro {v : Value} (here : P v) (inside : ∀ part ∈ v.components, Throughout P part) : Throughout P v

/-- Lists are no longer than a table can be, and records have their fields in key order. -/
def IsSound : Value → Prop
  | list items => items.length ≤ Table.greatestIndex
  | record fields => InKeyOrder fields
  | _ => True

/-- Everything in a list has an image. -/
def HasNoGap : Value → Prop
  | list items => ∀ item ∈ items, item.hasImage = true
  | _ => True

/-- A value as the host puts it together, without a gap in any of its lists. -/
structure Gapless (v : Value) : Prop where
  sound : v.Throughout IsSound
  whole : v.Throughout HasNoGap

theorem gapless_of_components (hsound : v.IsSound) (hwhole : v.HasNoGap)
    (hparts : ∀ part ∈ v.components, part.Gapless) : v.Gapless :=
  ⟨.intro hsound fun part hpart => (hparts part hpart).sound,
    .intro hwhole fun part hpart => (hparts part hpart).whole⟩

/-! ### Images added to a memory -/

theorem extends_itemsToGuest (h : ∀ item ∈ items, ∀ s : State, s.Extends (item.toGuest s).2) (start : Nat)
    (t : Table) (s : State) : s.Extends (itemsToGuest items start t s).2 := by
  induction items generalizing start t s with
  | nil => exact .refl s
  | cons item rest ih =>
      obtain ⟨hitem, hrest⟩ := List.forall_mem_cons.mp h
      exact (hitem s).trans (ih hrest _ _ _)

theorem extends_fieldsToGuest (h : ∀ field ∈ fields, ∀ s : State, s.Extends (field.2.toGuest s).2) (t : Table)
    (s : State) : s.Extends (fieldsToGuest fields t s).2 := by
  induction fields generalizing t s with
  | nil => exact .refl s
  | cons field rest ih =>
      obtain ⟨hfield, hrest⟩ := List.forall_mem_cons.mp h
      exact (hfield s).trans (ih hrest _ _)

/-- Making an image only adds to the memory. -/
theorem extends_toGuest (v : Value) (s : State) : s.Extends (v.toGuest s).2 := by
  induction v using components_induction generalizing s with
  | step v ih =>
      cases v with
      | coord c => exact extends_allocate _ s
      | target t =>
          cases t with
          | cell c => exact extends_allocate _ s
          | entity h => exact extends_wrapHandle h s
          | invalid => exact .refl s
      | handle h => exact extends_wrapHandle h s
      | list items =>
          rw [toGuest]
          exact (extends_itemsToGuest ih 1 .empty s).trans (extends_allocate _ _)
      | record fields =>
          rw [toGuest]
          exact (extends_fieldsToGuest (fun field hfield => ih _ (List.mem_map_of_mem hfield)) .empty s).trans
            (extends_allocate _ _)
      | _ => exact .refl s

/-! ### The image of a normal form -/

theorem toGuest_ofAxes (c : Coord) (s : State) : (ofAxes c).toGuest s = allocate c.toTable s := by
  simp only [ofAxes, toGuest, fieldsToGuest]
  rfl

theorem eq_of_not_hasImage (h : v.hasImage = false) : v = .nil ∨ v = .target .invalid := by
  cases v with
  | nil => exact .inl rfl
  | target t =>
      cases t with
      | invalid => exact .inr rfl
      | cell | entity => cases h
  | _ => cases h

theorem toGuest_of_not_hasImage (h : v.hasImage = false) (s : State) : v.toGuest s = (.nil, s) := by
  rcases eq_of_not_hasImage h with rfl | rfl <;> rw [toGuest]

theorem normalForm_of_not_hasImage (h : v.hasImage = false) : v.normalForm = .nil := by
  rcases eq_of_not_hasImage h with rfl | rfl <;> rw [normalForm]

theorem normalForm_record (fields : List (String × Value)) : (record fields).normalForm =
    if normalFields fields = [] then .list [] else .record (normalFields fields) := by
  rw [normalForm]
  split
  · rename_i hnone
    rw [if_pos hnone]
  · rename_i hsome
    rw [if_neg hsome]

theorem itemsToGuest_normalItems (h : ∀ item ∈ items, ∀ s, item.normalForm.toGuest s = item.toGuest s)
    (index : Nat) (t : Table) (s : State) :
    itemsToGuest (normalItems items) index t s = itemsToGuest items index t s := by
  induction items generalizing index t s with
  | nil => rfl
  | cons item rest ih =>
      obtain ⟨hitem, hrest⟩ := List.forall_mem_cons.mp h
      rw [normalItems, itemsToGuest, itemsToGuest, hitem]
      exact ih hrest _ _ _

/-- Fields without an image leave no trace, as none of them has the key of another. -/
theorem fieldsToGuest_normalFields (h : ∀ field ∈ fields, ∀ s, field.2.normalForm.toGuest s = field.2.toGuest s)
    (hkeys : (fields.map Prod.fst).Nodup)
    (hnew : ∀ field ∈ fields, Guest.Value.text field.1 ∉ t.entries.map Prod.fst) (s : State) :
    fieldsToGuest (normalFields fields) t s = fieldsToGuest fields t s := by
  induction fields generalizing t s with
  | nil => rfl
  | cons field rest ih =>
      obtain ⟨key, value⟩ := field
      obtain ⟨hvalue, hrest⟩ := List.forall_mem_cons.mp h
      obtain ⟨hkey, hkeys⟩ := List.nodup_cons.mp hkeys
      obtain ⟨hfirst, hnew⟩ := List.forall_mem_cons.mp hnew
      by_cases himage : value.hasImage = true
      · rw [normalFields, if_pos himage, fieldsToGuest, fieldsToGuest, hvalue]
        refine ih hrest hkeys (fun field hfield hmem => ?_) _
        rcases Table.mem_keys_set hmem with hold | heq
        · exact hnew field hfield hold
        · have hsame : field.1 = key := Guest.Value.text_inj heq
          exact hkey (List.mem_map.mpr ⟨field, hfield, hsame⟩)
      · have hnil := toGuest_of_not_hasImage (Bool.eq_false_iff.mpr himage) s
        rw [normalFields, if_neg himage, fieldsToGuest, hnil]
        dsimp only
        rw [Table.set_nil hfirst]
        exact ih hrest hkeys hnew s

/-- **A value and its normal form have the same image.** -/
theorem toGuest_normalForm (h : v.Throughout IsSound) (s : State) : v.normalForm.toGuest s = v.toGuest s := by
  induction h generalizing s with
  | @intro v here inside ih =>
      cases v with
      | coord c => rw [normalForm, toGuest_ofAxes, toGuest]
      | target t =>
          cases t with
          | cell c => rw [normalForm, toGuest_ofAxes, toGuest]
          | entity handle => rw [normalForm, toGuest, toGuest]
          | invalid => rw [normalForm, toGuest, toGuest]
      | list items =>
          have hsame : itemsToGuest (normalItems items) 1 .empty s = itemsToGuest items 1 .empty s :=
            itemsToGuest_normalItems ih 1 .empty s
          rw [normalForm, toGuest, toGuest, hsame]
      | record fields =>
          have hsame : fieldsToGuest (normalFields fields) .empty s = fieldsToGuest fields .empty s :=
            fieldsToGuest_normalFields (fun field hfield => ih _ (List.mem_map_of_mem hfield))
              (InKeyOrder.keys_nodup here) (fun _ _ => List.not_mem_nil) s
          rw [normalForm_record, toGuest, ← hsame]
          split
          · rename_i hnone
            rw [hnone]
            rfl
          · rw [toGuest]
      | _ => rw [normalForm]

/-! ### Normal forms are plain -/

theorem inKeyOrder_iff_keys : InKeyOrder fields ↔ (fields.map Prod.fst).Pairwise (· < ·) :=
  List.pairwise_map.symm

theorem InKeyOrder.normalFields (h : InKeyOrder fields) : InKeyOrder (normalFields fields) := by
  rw [normalFields_eq_map]
  exact List.pairwise_map.mpr (List.Pairwise.filter _ h)

end Value

namespace Conversion

variable {levels n : Nat} {v : Value} {reading : Reading} {g : Guest.Value}

theorem Plain.of_nesting_le (h : Plain levels v) (hn : v.nesting ≤ n) : Plain n v := by
  induction levels generalizing v n with
  | zero => cases v <;> first | exact h.elim | (cases n <;> exact trivial)
  | succ levels ih =>
      cases v with
      | nil | coord | target => exact h.elim
      | list items =>
          rw [Value.nesting] at hn
          obtain ⟨n, rfl⟩ := Nat.exists_eq_add_of_le' (Nat.le_trans (Nat.le_add_left 1 _) hn)
          rw [Nat.add_le_add_iff_right, Value.nestingItems_le_iff] at hn
          exact ⟨h.1, fun item hitem => ih (h.2 item hitem) (hn item hitem)⟩
      | record fields =>
          rw [Value.nesting] at hn
          obtain ⟨n, rfl⟩ := Nat.exists_eq_add_of_le' (Nat.le_trans (Nat.le_add_left 1 _) hn)
          rw [Nat.add_le_add_iff_right, Value.nestingFields_le_iff] at hn
          exact ⟨h.1, h.2.1, fun field hfield => ih (h.2.2 field hfield) (hn field hfield)⟩
      | _ => cases n <;> exact trivial

theorem plain_ofAxes (c : Coord) : Plain 1 (Value.ofAxes c) := by
  refine ⟨List.cons_ne_nil _ _, Value.inKeyOrder_iff_keys.mpr ?_, ?_⟩
  · change List.Pairwise (· < ·) ["x", "y", "z"]
    decide
  · simp [Plain]

/-- Without a gap in a list, a normal form has a shape of its own. -/
theorem plain_normalForm (h : v.Gapless) (himage : v.hasImage = true) :
    Plain v.normalForm.nesting v.normalForm := by
  obtain ⟨hsound, hwhole⟩ := h
  induction hsound with
  | @intro v here inside ih =>
      obtain ⟨hgap, hwhole⟩ := hwhole
      cases v with
      | nil => cases himage
      | coord c => exact plain_ofAxes c
      | target t =>
          cases t with
          | cell c => exact plain_ofAxes c
          | entity => exact trivial
          | invalid => cases himage
      | list items =>
          rw [Value.normalForm, Value.nesting]
          refine ⟨?_, fun item hitem => ?_⟩
          · rw [Value.normalItems_eq_map, List.length_map]
            exact here
          · have hnesting := Value.nestingItems_le_iff.mp (Nat.le_refl _) item hitem
            rw [Value.normalItems_eq_map] at hitem
            obtain ⟨value, hvalue, rfl⟩ := List.mem_map.mp hitem
            exact (ih value hvalue (hgap value hvalue) (hwhole value hvalue)).of_nesting_le hnesting
      | record fields =>
          rw [Value.normalForm_record]
          split
          · exact ⟨Nat.zero_le _, fun _ h => absurd h List.not_mem_nil⟩
          · rename_i hsome
            rw [Value.nesting]
            refine ⟨hsome, Value.InKeyOrder.normalFields here, fun field hfield => ?_⟩
            have hnesting := Value.nestingFields_le_iff.mp (Nat.le_refl _) field hfield
            rw [Value.normalFields_eq_map] at hfield
            obtain ⟨⟨key, value⟩, hkept, rfl⟩ := List.mem_map.mp hfield
            obtain ⟨hfield, himage⟩ := List.mem_filter.mp hkept
            have hpart : value ∈ (Value.record fields).components := List.mem_map_of_mem hfield
            exact (ih value hpart himage (hwhole value hpart)).of_nesting_le hnesting
      | _ => exact trivial

/-- Only tables need levels. -/
theorem structural_eq_of_not_table (h : ∀ address, g ≠ .table address) (levels n : Nat) :
    structural reading levels g = structural reading n g := by
  cases g with
  | table address => exact absurd rfl (h address)
  | _ => simp only [structural]

/-- A value that is read with some levels is read alike with more. -/
theorem structural_mono (h : structural reading levels g = .ok v) (hle : levels ≤ n) :
    structural reading n g = .ok v := by
  induction levels generalizing g v n with
  | zero =>
      refine (structural_eq_of_not_table ?_ n 0).trans h
      rintro address rfl
      cases h
  | succ levels ih =>
      by_cases htable : ∃ address, g = .table address
      · obtain ⟨address, rfl⟩ := htable
        obtain ⟨n, rfl⟩ := Nat.exists_eq_add_of_le' (Nat.le_trans (Nat.le_add_left 1 _) hle)
        have hdeeper := Nat.le_of_succ_le_succ hle
        rw [structural_table] at h ⊢
        by_cases hcount : isSequence reading address = true
        · rw [if_pos hcount] at h ⊢
          obtain ⟨items, hitems, rfl⟩ := listOf_ok_iff.mp h
          exact listOf_ok_iff.mpr ⟨items, hitems.imp fun _ _ hitem => ih hitem hdeeper, rfl⟩
        · rw [if_neg hcount] at h ⊢
          obtain ⟨pairs, hpairs, rfl⟩ := recordOf_ok_iff.mp h
          have hfields : List.Forall₂ (IsFieldOf (structural reading n)) _ pairs :=
            hpairs.imp fun _ _ hfield => ⟨hfield.1, ih hfield.2 hdeeper⟩
          exact recordOf_ok_iff.mpr ⟨pairs, hfields, rfl⟩
      · have hother : ∀ address, g ≠ .table address := fun address heq => htable ⟨address, heq⟩
        exact (structural_eq_of_not_table hother n (levels + 1)).trans h

/-! ### There and back -/

section

variable {s : State}

/-- The image of a value is read as its normal form, just when there are levels enough. -/
theorem structural_image_iff (h : v.Gapless) (hcovers : reading.Covers (v.toGuest s).2) {w : Value} :
    structural reading levels (v.toGuest s).1 = .ok w ↔ v.normalForm.nesting ≤ levels ∧ w = v.normalForm := by
  have hread : ∀ {n}, v.normalForm.nesting ≤ n → structural reading n (v.toGuest s).1 = .ok v.normalForm := by
    intro n hn
    by_cases himage : v.hasImage = true
    · rw [← Value.toGuest_normalForm h.sound] at hcovers ⊢
      have hplain := plain_normalForm h himage
      exact ((hplain.of_nesting_le hn).hasImages s).2.reads reading hcovers
    · have hnone := Bool.eq_false_iff.mpr himage
      rw [Value.toGuest_of_not_hasImage hnone, Value.normalForm_of_not_hasImage hnone, structural]
  constructor
  · intro hw
    have hlevels := Nat.le_max_left levels v.normalForm.nesting
    have hsame := (structural_mono hw hlevels).symm.trans (hread (Nat.le_max_right _ _))
    obtain rfl := Except.ok.inj hsame
    exact ⟨structural_nesting_le hw, rfl⟩
  · rintro ⟨hn, rfl⟩
    exact hread hn

/-- So many tables are nested in a guest value, itself among them. -/
def Stacks (reading : Reading) (n : Nat) (g : Guest.Value) : Prop :=
  ∃ address, g = .table address ∧ Opening.Nests reading n (ownOpening reading address)

/-- What can be read at all is read with just as many levels as there are tables nested in it. -/
theorem structural_ok_iff_stacks {most : Nat} (h : ∃ w, structural reading most g = .ok w) :
    (∃ w, structural reading levels g = .ok w) ↔ ¬ Stacks reading (levels + 1) g := by
  by_cases htable : ∃ address, g = .table address
  · obtain ⟨address, rfl⟩ := htable
    have hstacks : ∀ n, Stacks reading n (.table address) ↔
        Opening.Nests reading n (ownOpening reading address) := by
      simp [Stacks]
    obtain ⟨most, rfl⟩ : ∃ fewer, most = fewer + 1 := by
      cases most with
      | zero => exact nomatch h
      | succ most => exact ⟨most, rfl⟩
    rw [Opening.structural_own, Opening.contents_ok_iff] at h
    cases levels with
    | zero => simp [hstacks, Opening.Nests.one, structural, tooDeep]
    | succ levels => rw [Opening.structural_own, Opening.contents_ok_iff, hstacks, and_iff_left h.2]
  · have hother : ∀ address, g ≠ .table address := fun address heq => htable ⟨address, heq⟩
    rw [structural_eq_of_not_table hother levels most]
    refine iff_of_true h ?_
    rintro ⟨address, heq, -⟩
    exact hother address heq

/-- The lists and records nested in a normal form are the tables nested in the image. -/
theorem stacks_image_iff (h : v.Gapless) (hcovers : reading.Covers (v.toGuest s).2) :
    Stacks reading (n + 1) (v.toGuest s).1 ↔ n < v.normalForm.nesting := by
  have hok : ∀ levels, (∃ w, structural reading levels (v.toGuest s).1 = .ok w) ↔
      v.normalForm.nesting ≤ levels := by
    simp [structural_image_iff h hcovers]
  have hstacks : (∃ w, structural reading n (v.toGuest s).1 = .ok w) ↔ ¬ Stacks reading (n + 1) (v.toGuest s).1 :=
    structural_ok_iff_stacks ((hok _).mpr (Nat.le_refl _))
  rw [← not_iff_not, ← hstacks, hok, Nat.not_lt]

end

end Conversion

/-! ### Lists with gaps -/

namespace Value

variable {items kept later : List Value} {item : Value} {s : State} {t : Table} {start i : Nat}

theorem itemsToGuest_append (items later : List Value) (start : Nat) (t : Table) (s : State) :
    let made := itemsToGuest items start t s
    itemsToGuest (items ++ later) start t s = itemsToGuest later (start + items.length) made.1 made.2 := by
  induction items generalizing start t s with
  | nil => rfl
  | cons item rest ih =>
      rw [List.cons_append, itemsToGuest, itemsToGuest, List.length_cons, Nat.add_comm rest.length,
        ← Nat.add_assoc]
      exact ih _ _ _

/-- Items go to their own indices only. -/
theorem item_itemsToGuest (hi : i < start) (hend : start + items.length ≤ Table.greatestIndex + 1) :
    (itemsToGuest items start t s).1.item i = t.item i := by
  induction items generalizing start t s with
  | nil => rfl
  | cons item rest ih =>
      rw [List.length_cons] at hend
      have hother : Table.index start ≠ Table.index i := fun heq =>
        absurd (Table.index_inj (by omega) (by omega) heq) (Nat.ne_of_gt hi)
      calc (itemsToGuest (item :: rest) start t s).1.item i
        _ = (t.set (.int (Int64.ofNat start)) (item.toGuest s).1).item i := ih (by omega) (by omega)
        _ = t.item i := Table.find_store_of_ne hother

/-- A list is read up to its first gap, whatever comes after. -/
theorem sequence_itemsToGuest (hitem : item.hasImage = false)
    (hlength : (kept ++ item :: later).length ≤ Table.greatestIndex)
    (hkept : (itemsToGuest kept 1 .empty s).1.IsSequence kept.length) :
    (itemsToGuest (kept ++ item :: later) 1 .empty s).1.sequence = (itemsToGuest kept 1 .empty s).1.sequence := by
  rw [List.length_append, List.length_cons] at hlength
  generalize hmade : itemsToGuest kept 1 .empty s = made at hkept ⊢
  have hnext : (made.1.item (1 + kept.length)).isNil = true := by
    refine (Bool.eq_false_or_eq_true _).resolve_right fun hfound => ?_
    have := (hkept.item_isNil_iff (by omega)).mp hfound
    omega
  have hnew : Table.index (1 + kept.length) ∉ made.1.entries.map Prod.fst := by
    rw [← Table.find_isNil_iff]
    exact Bool.not_eq_false _ ▸ hnext
  have hsplit : itemsToGuest (kept ++ item :: later) 1 .empty s =
      itemsToGuest later (1 + kept.length + 1) made.1 made.2 := by
    rw [itemsToGuest_append, hmade, itemsToGuest, toGuest_of_not_hasImage hitem]
    exact congrArg (itemsToGuest later _ · _) (Table.set_nil hnew)
  have hsame : ∀ i ≤ kept.length + 1, (itemsToGuest later (1 + kept.length + 1) made.1 made.2).1.item i =
      made.1.item i := fun i hi => item_itemsToGuest (by omega) (by omega)
  rw [hsplit, hkept.sequence_eq, Table.sequence_of_gap (n := kept.length)]
  · refine List.map_congr_left fun i hi => hsame i ?_
    have := List.mem_range'_1.mp hi
    omega
  · omega
  · intro i hlow hhigh
    rw [hsame i (by omega), hkept.item_isNil_iff (by omega)]
    exact ⟨hlow, hhigh⟩
  · rwa [hsame _ (by omega), Nat.add_comm]

end Value

namespace Conversion

variable {levels n : Nat} {reading : Reading} {s : State} {items kept : List Value}

/-- Items with images make a sequence, which is read as their normal forms. -/
theorem listOf_itemsToGuest (h : ∀ item ∈ kept, item.Gapless ∧ item.normalForm.nesting ≤ levels)
    (himages : ∀ item ∈ kept, item.hasImage = true) (hlength : kept.length ≤ Table.greatestIndex) (s : State) :
    let made := Value.itemsToGuest kept 1 .empty s
    made.1.IsSequence kept.length ∧ ∀ reading : Reading, reading.Covers made.2 →
      listOf (structural reading levels) made.1 = .ok (.list (kept.map Value.normalForm)) := by
  intro made
  have hsame : made = Value.itemsToGuest (Value.normalItems kept) 1 .empty s :=
    (Value.itemsToGuest_normalItems (fun item hitem => Value.toGuest_normalForm (h item hitem).1.sound) 1 _ s).symm
  have hmakes : ∀ v ∈ Value.normalItems kept, Makes (fun s => IsImage s levels) s v := by
    intro v hv
    rw [Value.normalItems_eq_map] at hv
    obtain ⟨item, hitem, rfl⟩ := List.mem_map.mp hv
    obtain ⟨hgapless, hnesting⟩ := h item hitem
    exact ((plain_normalForm hgapless (himages item hitem)).of_nesting_le hnesting).hasImages.makes s
  have hcount : (Value.normalItems kept).length = kept.length := by rw [Value.normalItems_eq_map, List.length_map]
  have hlength' : (Value.normalItems kept).length ≤ Table.greatestIndex := hcount ▸ hlength
  have hnone : Filled (IsImage s levels) .empty (indexed []) := .nil
  obtain ⟨-, hfilled⟩ := itemsToGuest_filled (isImage_lasts levels) hmakes hnone hlength'
  have hholds : Holds made.2 levels made.1 (indexed (Value.normalItems kept)) := hsame ▸ hfilled
  refine ⟨Table.isSequence_of_range hlength ?_, fun reading hcovers => ?_⟩
  · rw [hholds.keys, keys_indexed, hcount]
  · rw [hholds.reads_list hlength' hcovers, Value.normalItems_eq_map]

/-- The image of a list is read as a list of what comes before its first gap. -/
theorem listOf_image (h : ∀ item ∈ items, item.Gapless ∧ item.normalForm.nesting ≤ levels)
    (hlength : items.length ≤ Table.greatestIndex)
    (hcovers : reading.Covers (Value.itemsToGuest items 1 .empty s).2) :
    listOf (structural reading levels) (Value.itemsToGuest items 1 .empty s).1 =
      .ok (.list ((items.takeWhile Value.hasImage).map Value.normalForm)) := by
  have hsplit := List.takeWhile_append_dropWhile (p := Value.hasImage) (l := items)
  have hgap := List.head?_dropWhile_not Value.hasImage items
  have himages : ∀ item ∈ items.takeWhile Value.hasImage, item.hasImage = true := fun _ => List.mem_takeWhile_imp
  generalize items.takeWhile Value.hasImage = kept at hsplit himages ⊢
  generalize items.dropWhile Value.hasImage = rest at hsplit hgap
  subst hsplit
  obtain ⟨hkept, -⟩ := List.forall_mem_append.mp h
  have hshorter : kept.length ≤ (kept ++ rest).length := by simp
  obtain ⟨hsequence, hreads⟩ := listOf_itemsToGuest hkept himages (Nat.le_trans hshorter hlength) s
  cases rest with
  | nil =>
      rw [List.append_nil] at hcovers ⊢
      exact hreads reading hcovers
  | cons item later =>
      rw [listOf, Value.sequence_itemsToGuest hgap hlength hsequence]
      rw [Value.itemsToGuest_append] at hcovers
      refine hreads reading (hcovers.of_extends ?_)
      exact Value.extends_itemsToGuest (fun item _ => item.extends_toGuest) _ _ _

/-- **What a value becomes on its way through the guest.** Without a gap in a list it becomes its normal form,
provided its image has no more tables in one another than conversion opens, and is refused otherwise. Where a
list is asked for it may have gaps itself, and what comes before the first one is given. -/
theorem normal_forms (options : ConversionOptions) (reading : Reading) (evidence : Evidence) (s : State) :
    (∀ v : Value, v.Gapless → reading.Covers (v.toGuest s).2 →
      let image := (v.toGuest s).1
      let result := (convert options reading .any evidence image).result
      (∀ n, Stacks reading (n + 1) image ↔ n < v.normalForm.nesting) ∧
      (v.normalForm.nesting ≤ maxNesting → result = .ok v.normalForm) ∧
      (maxNesting < v.normalForm.nesting → ∃ fault, result = .error fault)) ∧
    (∀ items : List Value, items.length ≤ Table.greatestIndex →
      (∀ item ∈ items, item.Gapless ∧ item.normalForm.nesting ≤ maxNesting - 1) →
      reading.Covers ((Value.list items).toGuest s).2 →
      (convert options reading .list evidence ((Value.list items).toGuest s).1).result =
        .ok (.list ((items.takeWhile Value.hasImage).map Value.normalForm))) := by
  refine ⟨fun v h hcovers => ?_, fun items hlength h hcovers => ?_⟩
  · refine ⟨fun n => stacks_image_iff h hcovers, fun hfits => ?_, fun hdeep => ?_⟩
    · exact (structural_image_iff h hcovers).mpr ⟨hfits, rfl⟩
    · rw [exists_error_iff]
      rintro ⟨w, hw⟩
      exact Nat.not_le.mpr hdeep ((structural_image_iff h hcovers).mp hw).1
  · rw [Value.toGuest] at hcovers ⊢
    have hmade := hcovers.of_extends (Value.extends_allocate _ _)
    have htable := Value.covers_allocate hcovers
    change listOf _ (reading.table (Value.itemsToGuest items 1 .empty s).2.tables.size) = _
    rw [htable]
    exact listOf_image h hlength hmade

theorem covers_of (s : State) : (Reading.of s).Covers s := fun _ _ => rfl

/-- A place, and nothing to aim at there. -/
def sighting : Value := .record [("aim", .target .invalid), ("at", .coord ⟨1, 2, 3⟩)]

theorem gapless_sighting : sighting.Gapless := by
  have hsound : sighting.IsSound := Value.inKeyOrder_iff_keys.mpr (by decide)
  refine Value.gapless_of_components hsound trivial fun part hpart => ?_
  obtain rfl | rfl : part = .target .invalid ∨ part = .coord ⟨1, 2, 3⟩ := by
    simpa [sighting, Value.components] using hpart
  · exact Value.gapless_of_components trivial trivial nofun
  · exact Value.gapless_of_components trivial trivial nofun

theorem sighting_normal_form :
    (convert ⟨true, true, true⟩ (Reading.of (sighting.toGuest .initial).2) .any .none
      (sighting.toGuest .initial).1).result =
        .ok (.record [("at", .record [("x", .int 1), ("y", .int 2), ("z", .int 3)])]) ∧
    (convert ⟨true, true, true⟩ (Reading.of ((Value.list [.int 1, .nil, .int 2]).toGuest .initial).2) .list .none
      ((Value.list [.int 1, .nil, .int 2]).toGuest .initial).1).result = .ok (.list [.int 1]) := by
  constructor
  · obtain ⟨hvalues, -⟩ :=
      normal_forms ⟨true, true, true⟩ (Reading.of (sighting.toGuest .initial).2) .none .initial
    obtain ⟨-, hfits, -⟩ := hvalues sighting gapless_sighting (covers_of _)
    exact hfits (by decide)
  · obtain ⟨-, hlists⟩ := normal_forms ⟨true, true, true⟩
      (Reading.of ((Value.list [.int 1, .nil, .int 2]).toGuest .initial).2) .none .initial
    refine hlists [.int 1, .nil, .int 2] (by decide) (fun item hitem => ?_) (covers_of _)
    obtain rfl | rfl | rfl : item = .int 1 ∨ item = .nil ∨ item = .int 2 := by simpa using hitem
    all_goals exact ⟨Value.gapless_of_components trivial trivial nofun, by decide⟩

end Conversion
end ScriptBridge
