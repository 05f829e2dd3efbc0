import ScriptBridge.Conversion.ToGuest
import ScriptBridge.Proofs.StructuralConversion

/-! The images of host values in the guest's memory, read back. Making an image only adds tables to the
memory, so the images made before stay as they are. What conversion by shape gives for a guest value has an
image of the same shape: a list's is a sequence, and a record's has text keys only, so neither is taken for
the other. -/

namespace ScriptBridge

open Guest (State Table)

/-! ### Memories that grow -/

/-- A later memory, with the tables of an earlier one as they were. -/
structure Guest.State.Extends (s s' : State) : Prop where
  size_le : s.tables.size ≤ s'.tables.size
  table_eq : ∀ address < s.tables.size, s'.table address = s.table address

namespace Guest.State.Extends

theorem refl (s : State) : s.Extends s := ⟨Nat.le_refl _, fun _ _ => rfl⟩

theorem trans {s s' s'' : State} (h : s.Extends s') (h' : s'.Extends s'') : s.Extends s'' where
  size_le := Nat.le_trans h.size_le h'.size_le
  table_eq address hold :=
    (h'.table_eq address (Nat.lt_of_lt_of_le hold h.size_le)).trans (h.table_eq address hold)

end Guest.State.Extends

/-- A reading of a memory or of a later one. -/
def Reading.Covers (reading : Reading) (s : State) : Prop :=
  ∀ address < s.tables.size, reading.table address = s.table address

theorem Reading.Covers.of_extends {reading : Reading} {s s' : State} (h : reading.Covers s')
    (hext : s.Extends s') : reading.Covers s := fun address hold =>
  (h address (Nat.lt_of_lt_of_le hold hext.size_le)).trans (hext.table_eq address hold)

namespace Value

variable {s : State} {t : Table}

theorem size_allocate (t : Table) (s : State) : (allocate t s).2.tables.size = s.tables.size + 1 :=
  Array.size_push _

theorem extends_allocate (t : Table) (s : State) : s.Extends (allocate t s).2 where
  size_le := by
    rw [size_allocate]
    exact Nat.le_succ _
  table_eq address hold := by
    change (s.tables.push t)[address]?.getD .empty = s.tables[address]?.getD .empty
    rw [Array.getElem?_push_lt hold, Array.getElem?_eq_getElem hold]

theorem table_allocate (t : Table) (s : State) : (allocate t s).2.table s.tables.size = t := by
  change (s.tables.push t)[s.tables.size]?.getD .empty = t
  rw [Array.getElem?_push_size]
  rfl

/-- The new table as a reading of the memory, or of a later one, has it. -/
theorem covers_allocate {reading : Reading} (h : reading.Covers (allocate t s).2) :
    reading.table s.tables.size = t := by
  rw [h s.tables.size, table_allocate]
  rw [size_allocate]
  exact Nat.lt_succ_self _

/-- A memory with one more table has what was in it before. -/
theorem covers_reading (t : Table) (s : State) : (Reading.of (allocate t s).2).Covers s :=
  Reading.Covers.of_extends (fun _ _ => rfl) (extends_allocate t s)

theorem extends_wrapHandle (h : Handle) (s : State) : s.Extends (wrapHandle h s).2 :=
  ⟨Nat.le_refl _, fun _ _ => rfl⟩

end Value

namespace Conversion

open Value (allocate)

variable {levels : Nat} {s s' : State} {t : Table} {v : Value} {image key : Guest.Value} {reading : Reading}

/-! ### What conversion by shape gives -/

/-- A value with a shape of its own: nothing in it is a coordinate, a target or nil, its lists are no longer
than a table can be, its records are in key order, those inside others are not empty, and lists and records
are nested at most `levels` deep. -/
def Plain : Nat → Value → Prop
  | _, .nil | _, .coord _ | _, .target _ => False
  | 0, .list _ | 0, .record _ => False
  | levels + 1, .list items => items.length ≤ Table.greatestIndex ∧ ∀ item ∈ items, Plain levels item
  | levels + 1, .record fields =>
    fields ≠ [] ∧ Value.InKeyOrder fields ∧ ∀ field ∈ fields, Plain levels field.2
  | _, _ => True

theorem exists_of_mem_right {α β : Type} {R : α → β → Prop} {xs : List α} {ys : List β}
    (h : List.Forall₂ R xs ys) {y : β} (hy : y ∈ ys) : ∃ x ∈ xs, R x y := by
  induction h with
  | nil => cases hy
  | cons hxy _ ih =>
      rcases List.mem_cons.mp hy with rfl | hrest
      · exact ⟨_, List.mem_cons_self, hxy⟩
      · obtain ⟨x, hx, hR⟩ := ih hrest
        exact ⟨x, List.mem_cons_of_mem _ hx, hR⟩

theorem listOf_plain (h : listOf (structural reading levels) t = .ok v)
    (hparts : ∀ {g v}, structural reading levels g = .ok v → g.isNil = false → Plain levels v) :
    ∃ items, v = .list items ∧ items.length ≤ Table.greatestIndex ∧ ∀ item ∈ items, Plain levels item := by
  obtain ⟨items, hitems, rfl⟩ := listOf_ok_iff.mp h
  refine ⟨items, rfl, hitems.length_eq ▸ t.length_sequence_le, fun item hitem => ?_⟩
  obtain ⟨value, hvalue, hitem⟩ := exists_of_mem_right hitems hitem
  exact hparts hitem (Table.mem_sequence hvalue).1

theorem recordOf_plain (h : recordOf (structural reading levels) t = .ok v)
    (hparts : ∀ {g v}, structural reading levels g = .ok v → g.isNil = false → Plain levels v) :
    ∃ fields, v = .record fields ∧ (t.entries ≠ [] → fields ≠ []) ∧ Value.InKeyOrder fields ∧
      ∀ field ∈ fields, Plain levels field.2 := by
  obtain ⟨pairs, hpairs, rfl⟩ := recordOf_ok_iff.mp h
  refine ⟨_, rfl, fun hsome => Value.fieldsOf_ne_nil fun hnone => hsome ?_, Value.inKeyOrder_fieldsOf pairs,
    fun field hfield => ?_⟩
  · rw [hnone] at hpairs
    exact List.forall₂_nil_right_iff.mp hpairs
  · obtain ⟨entry, hentry, -, hvalue⟩ := exists_of_mem_right hpairs (Value.mem_fieldsOf.mp hfield).mem
    exact hparts hvalue (t.not_nil entry hentry)

theorem structural_plain {g : Guest.Value} (h : structural reading levels g = .ok v) (hg : g.isNil = false) :
    Plain levels v := by
  induction levels generalizing g v with
  | zero =>
      cases g with
      | nil => cases hg
      | table address => cases h
      | alien identity => cases h
      | light => cases h
      | thread identity => cases h
      | error message => cases h
      | _ => cases h; trivial
  | succ levels ih =>
      cases g with
      | nil => cases hg
      | table address =>
          rw [structural_table] at h
          split at h
          · obtain ⟨items, rfl, hlength, hitems⟩ := listOf_plain h ih
            exact ⟨hlength, hitems⟩
          · rename_i hcount
            obtain ⟨fields, rfl, hsome, horder, hfields⟩ := recordOf_plain h ih
            refine ⟨hsome fun hnone => hcount (isSequence_iff.mpr ?_), horder, hfields⟩
            -- an empty table has no length but zero, so it would have become a list
            have hzero : reading.length address = 0 := (reading.isBorder address).eq_zero fun i => by
              rw [hnone]
              exact List.not_mem_nil
            rw [hzero, hnone, List.length_nil]
      | alien identity => cases h
      | light => cases h
      | thread identity => cases h
      | error message => cases h
      | _ => cases h; trivial

/-! ### Images under construction -/

/-- A guest value that every reading of the memory, now or later, takes for a value. -/
structure IsImage (s : State) (levels : Nat) (image : Guest.Value) (v : Value) : Prop where
  not_nil : image.isNil = false
  reads : ∀ reading : Reading, reading.Covers s → structural reading levels image = .ok v

theorem IsImage.of_extends (h : IsImage s levels image v) (hext : s.Extends s') : IsImage s' levels image v :=
  ⟨h.not_nil, fun reading hcovers => h.reads reading (hcovers.of_extends hext)⟩

/-- A table that holds something for each of the given values, under the given keys, in order, and nothing
else. -/
def Filled (R : Guest.Value → Value → Prop) (t : Table) (pairs : List (Guest.Value × Value)) : Prop :=
  List.Forall₂ (fun entry pair => entry.1 = pair.1 ∧ R entry.2 pair.2) t.entries pairs

/-- A table that holds the images of values under given keys, in order, and nothing else. -/
def Holds (s : State) (levels : Nat) (t : Table) (pairs : List (Guest.Value × Value)) : Prop :=
  List.Forall₂ (fun entry pair => entry.1 = pair.1 ∧ IsImage s levels entry.2 pair.2) t.entries pairs

/-- A list's items under their indices. -/
def indexed (items : List Value) : List (Guest.Value × Value) :=
  (items.zipIdx 1).map fun p => (Table.index p.2, p.1)

/-- A record's fields under their texts. -/
def keyed (fields : List (String × Value)) : List (Guest.Value × Value) :=
  fields.map fun field => (.text field.1, field.2)

theorem indexed_concat (items : List Value) (item : Value) :
    indexed (items ++ [item]) = indexed items ++ [(Table.index (items.length + 1), item)] := by
  simp [indexed, List.zipIdx_append, Nat.add_comm]

theorem keys_indexed (items : List Value) :
    (indexed items).map Prod.fst = (List.range' 1 items.length).map Table.index := by
  rw [indexed, List.map_map, ← List.zipIdx_map_snd 1 items, List.map_map]
  rfl

theorem keys_keyed (fields : List (String × Value)) :
    (keyed fields).map Prod.fst = (fields.map Prod.fst).map Guest.Value.text := by
  rw [keyed, List.map_map, List.map_map]
  rfl

/-- A relation between values and what stands for them in a memory, which lasts as the memory grows. -/
structure Lasts (R : State → Guest.Value → Value → Prop) : Prop where
  not_nil : ∀ {s image v}, R s image v → image.isNil = false
  of_extends : ∀ {s s' image v}, R s image v → s.Extends s' → R s' image v

/-- In a memory, or in a later one, a value gets an image that stands for it. -/
def Makes (R : State → Guest.Value → Value → Prop) (s : State) (v : Value) : Prop :=
  ∀ made, s.Extends made → made.Extends (v.toGuest made).2 ∧ R (v.toGuest made).2 (v.toGuest made).1 v

section Filling

variable {R : State → Guest.Value → Value → Prop} {pairs : List (Guest.Value × Value)}

theorem Makes.of_extends (h : Makes R s v) (hext : s.Extends s') : Makes R s' v :=
  fun made hmade => h made (hext.trans hmade)

theorem Filled.keys (h : Filled (R s) t pairs) : t.entries.map Prod.fst = pairs.map Prod.fst := by
  rw [← List.forall₂_eq_eq_eq, List.forall₂_map_left_iff, List.forall₂_map_right_iff]
  exact h.imp fun _ _ hentry => hentry.1

theorem Filled.set (hR : Lasts R) (h : Filled (R s) t pairs) (hext : s.Extends s') (himage : R s' image v)
    (hkey : key.asKey = key) (hnew : key ∉ pairs.map Prod.fst) :
    Filled (R s') (t.set key image) (pairs ++ [(key, v)]) := by
  have hentries : (t.set key image).entries = t.entries ++ [(key, image)] := by
    change Table.store key.asKey image t.entries = _
    rw [hkey, Table.store_of_not_mem (h.keys ▸ hnew) (hR.not_nil himage)]
  rw [Filled, hentries]
  exact List.rel_append (h.imp fun _ _ hentry => ⟨hentry.1, hR.of_extends hentry.2 hext⟩)
    (.cons ⟨rfl, himage⟩ .nil)

theorem itemsToGuest_filled (hR : Lasts R) {items done : List Value} (hmakes : ∀ item ∈ items, Makes R s item)
    (h : Filled (R s) t (indexed done)) (hlength : (done ++ items).length ≤ Table.greatestIndex) :
    let made := Value.itemsToGuest items (done.length + 1) t s
    s.Extends made.2 ∧ Filled (R made.2) made.1 (indexed (done ++ items)) := by
  induction items generalizing t s done with
  | nil => exact ⟨.refl s, by rwa [List.append_nil]⟩
  | cons item rest ih =>
      obtain ⟨hext, himage⟩ := hmakes item List.mem_cons_self s (.refl s)
      have hnew : Table.index (done.length + 1) ∉ (indexed done).map Prod.fst := by
        rw [keys_indexed]
        rintro hmem
        obtain ⟨i, hi, heq⟩ := List.mem_map.mp hmem
        rw [List.mem_range'_1] at hi
        rw [List.length_append, List.length_cons] at hlength
        have := Table.index_inj (by omega) (by omega) heq
        omega
      have hset := h.set hR hext himage rfl hnew
      rw [← indexed_concat] at hset
      have hsplit : done ++ item :: rest = done ++ [item] ++ rest := by simp
      rw [hsplit] at hlength ⊢
      have hrest := ih (fun v hv => (hmakes v (List.mem_cons_of_mem _ hv)).of_extends hext) hset hlength
      rw [List.length_append] at hrest
      exact ⟨hext.trans hrest.1, hrest.2⟩

theorem fieldsToGuest_filled (hR : Lasts R) {fields done : List (String × Value)}
    (hmakes : ∀ field ∈ fields, Makes R s field.2) (h : Filled (R s) t (keyed done))
    (hkeys : ((done ++ fields).map Prod.fst).Nodup) :
    let made := Value.fieldsToGuest fields t s
    s.Extends made.2 ∧ Filled (R made.2) made.1 (keyed (done ++ fields)) := by
  induction fields generalizing t s done with
  | nil => exact ⟨.refl s, by rwa [List.append_nil]⟩
  | cons field rest ih =>
      obtain ⟨hext, himage⟩ := hmakes field List.mem_cons_self s (.refl s)
      have hsplit : done ++ field :: rest = done ++ [field] ++ rest := by simp
      have hnew : Guest.Value.text field.1 ∉ (keyed done).map Prod.fst := by
        rw [keys_keyed]
        intro hmem
        obtain ⟨name, hname, heq⟩ := List.mem_map.mp hmem
        rw [List.map_append, List.map_cons] at hkeys
        exact (List.nodup_append.mp hkeys).2.2 name hname field.1 List.mem_cons_self (Guest.Value.text_inj heq)
      have hset := h.set hR hext himage rfl hnew
      rw [show keyed done ++ [(Guest.Value.text field.1, field.2)] = keyed (done ++ [field]) by
        simp [keyed]] at hset
      rw [hsplit] at hkeys ⊢
      have hrest := ih (fun v hv => (hmakes v (List.mem_cons_of_mem _ hv)).of_extends hext) hset hkeys
      exact ⟨hext.trans hrest.1, hrest.2⟩

/-- A list's image is one more table, filled with its items. -/
theorem toGuest_list_filled (hR : Lasts R) {items : List Value} (hmakes : ∀ item ∈ items, Makes R s item)
    (hlength : items.length ≤ Table.greatestIndex) :
    ∃ t made, (Value.list items).toGuest s = allocate t made ∧ s.Extends made ∧
      Filled (R made) t (indexed items) := by
  have hnone : Filled (R s) .empty (indexed []) := .nil
  obtain ⟨hext, hfilled⟩ := itemsToGuest_filled hR hmakes hnone hlength
  exact ⟨_, _, by rw [Value.toGuest]; rfl, hext, hfilled⟩

/-- A record's image is one more table, filled with its fields. -/
theorem toGuest_record_filled (hR : Lasts R) {fields : List (String × Value)}
    (hmakes : ∀ field ∈ fields, Makes R s field.2) (horder : Value.InKeyOrder fields) :
    ∃ t made, (Value.record fields).toGuest s = allocate t made ∧ s.Extends made ∧
      Filled (R made) t (keyed fields) := by
  have hnone : Filled (R s) .empty (keyed []) := .nil
  obtain ⟨hext, hfilled⟩ := fieldsToGuest_filled hR hmakes hnone horder.keys_nodup
  exact ⟨_, _, by rw [Value.toGuest], hext, hfilled⟩

end Filling

theorem Holds.keys {pairs : List (Guest.Value × Value)} (h : Holds s levels t pairs) :
    t.entries.map Prod.fst = pairs.map Prod.fst :=
  Filled.keys (R := fun s => IsImage s levels) h

theorem isImage_lasts (levels : Nat) : Lasts fun s => IsImage s levels :=
  ⟨fun h => h.not_nil, fun h hext => h.of_extends hext⟩

/-- A value gets an image in whatever memory it is made. -/
def HasImages (levels : Nat) (v : Value) : Prop :=
  ∀ s, s.Extends (v.toGuest s).2 ∧ IsImage (v.toGuest s).2 levels (v.toGuest s).1 v

theorem HasImages.makes (h : HasImages levels v) (s : State) : Makes (fun s => IsImage s levels) s v :=
  fun made _ => h made

/-! ### Images read back -/

theorem Holds.reads_list {items : List Value} (h : Holds s levels t (indexed items))
    (hlength : items.length ≤ Table.greatestIndex) (hcovers : reading.Covers s) :
    listOf (structural reading levels) t = .ok (.list items) := by
  refine listOf_ok_iff.mpr ⟨items, ?_, rfl⟩
  rw [Table.sequence_of_range hlength (h.keys.trans (keys_indexed items)), List.forall₂_map_left_iff]
  have hitems : items = (indexed items).map Prod.snd := by
    rw [indexed, List.map_map]
    exact (List.zipIdx_map_fst 1 items).symm
  rw [hitems, List.forall₂_map_right_iff]
  exact List.Forall₂.imp (fun _ _ hentry => hentry.2.reads reading hcovers) h

theorem Holds.reads_record {fields : List (String × Value)} (h : Holds s levels t (keyed fields))
    (horder : Value.InKeyOrder fields) (hcovers : reading.Covers s) :
    recordOf (structural reading levels) t = .ok (.record fields) := by
  refine recordOf_ok_iff.mpr ⟨fields, ?_, by rw [horder.fieldsOf_eq]⟩
  refine (List.forall₂_map_right_iff.mp h).imp fun entry field hentry => ⟨?_, hentry.2.reads reading hcovers⟩
  rw [hentry.1]
  exact keyText_text field.1

/-- A table with text keys, unless it is empty, does not count as a sequence. -/
theorem Holds.not_isSequence {fields : List (String × Value)} {address : Nat}
    (h : Holds s levels (reading.table address) (keyed fields)) (hsome : fields ≠ []) :
    ¬ isSequence reading address = true := by
  intro hcount
  have hzero : reading.length address = 0 := by
    refine (reading.isBorder address).eq_zero fun i hi => ?_
    rw [h.keys, keys_keyed] at hi
    obtain ⟨name, -, heq⟩ := List.mem_map.mp hi
    cases heq
  rw [isSequence_iff, hzero, h.length_eq, keyed, List.length_map] at hcount
  exact hsome (List.eq_nil_of_length_eq_zero hcount)

theorem toGuest_list {items : List Value} (himages : ∀ item ∈ items, HasImages levels item)
    (hlength : items.length ≤ Table.greatestIndex) (s : State) :
    ∃ t made, (Value.list items).toGuest s = allocate t made ∧ s.Extends made ∧
      Holds made levels t (indexed items) :=
  toGuest_list_filled (isImage_lasts levels) (fun item hitem => (himages item hitem).makes s) hlength

theorem toGuest_record {fields : List (String × Value)} (himages : ∀ field ∈ fields, HasImages levels field.2)
    (horder : Value.InKeyOrder fields) (s : State) :
    ∃ t made, (Value.record fields).toGuest s = allocate t made ∧ s.Extends made ∧
      Holds made levels t (keyed fields) :=
  toGuest_record_filled (isImage_lasts levels) (fun field hfield => (himages field hfield).makes s) horder

/-- A plain value without parts has an image that needs no table. -/
theorem Plain.hasImages_of_leaf (h : Plain 0 v) (levels : Nat) : HasImages levels v := by
  intro s
  cases v with
  | nil => exact h.elim
  | coord c => exact h.elim
  | target t => exact h.elim
  | list items => exact h.elim
  | record fields => exact h.elim
  | handle handle =>
      refine ⟨Value.extends_wrapHandle handle s, rfl, fun _ _ => ?_⟩
      rw [Value.toGuest, Value.wrapHandle, structural]
  | str text =>
      refine ⟨.refl s, rfl, fun _ _ => ?_⟩
      rw [Value.toGuest, Guest.Value.text, structural, Text.ofBytes_toUTF8]
  | _ => exact ⟨.refl s, rfl, fun _ _ => by rw [Value.toGuest, structural]⟩

/-- The image of a plain value is read as that value. -/
theorem Plain.hasImages (h : Plain levels v) : HasImages levels v := by
  induction levels generalizing v with
  | zero => exact h.hasImages_of_leaf 0
  | succ levels ih =>
      intro s
      cases v with
      | nil => exact h.elim
      | coord c => exact h.elim
      | target t => exact h.elim
      | list items =>
          obtain ⟨hlength, hitems⟩ := h
          obtain ⟨t, made, himage, hext, hholds⟩ := toGuest_list (fun v hv => ih (hitems v hv)) hlength s
          rw [himage]
          refine ⟨hext.trans (Value.extends_allocate t made), rfl, fun reading hcovers => ?_⟩
          have htable : reading.table made.tables.size = t := Value.covers_allocate hcovers
          have hkeys : (reading.table made.tables.size).IsSequence items.length :=
            htable ▸ Table.isSequence_of_range hlength (hholds.keys.trans (keys_indexed items))
          change structural reading (levels + 1) (.table made.tables.size) = _
          rw [structural_table, if_pos (isSequence_of_keys hkeys), htable]
          exact hholds.reads_list hlength (hcovers.of_extends (Value.extends_allocate t made))
      | record fields =>
          obtain ⟨hsome, horder, hfields⟩ := h
          obtain ⟨t, made, himage, hext, hholds⟩ :=
            toGuest_record (fun field hfield => ih (hfields field hfield)) horder s
          rw [himage]
          refine ⟨hext.trans (Value.extends_allocate t made), rfl, fun reading hcovers => ?_⟩
          have htable : reading.table made.tables.size = t := Value.covers_allocate hcovers
          change structural reading (levels + 1) (.table made.tables.size) = _
          rw [structural_table, if_neg ((htable ▸ hholds).not_isSequence hsome), htable]
          exact hholds.reads_record horder (hcovers.of_extends (Value.extends_allocate t made))
      | _ =>
          refine Plain.hasImages_of_leaf ?_ (levels + 1) s
          exact trivial

end Conversion
end ScriptBridge
