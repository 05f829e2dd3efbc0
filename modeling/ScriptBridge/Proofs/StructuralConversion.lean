import Mathlib.Data.List.Forall2
import ScriptBridge.Conversion.ToHost
import ScriptBridge.Proofs.RecordFields
import ScriptBridge.Proofs.SequenceTables

/-! What becomes of a table that is converted by its own shape. A table whose keys are just the indices from
one on becomes the list of its items, whatever border its length is; a table with another number of entries
than its length becomes a record. Every entry is converted either way, but a record has one field per text
of a key, and keys of different types can have one text. -/

namespace ScriptBridge.Conversion

open Guest (Table)

variable {reading : Reading} {levels address : Nat} {item : Guest.Value → Except ConversionError Value}
  {t : Table} {v : Value}

/-! ### Conversion part by part -/

theorem bind_ok_iff {ε α β : Type} {x : Except ε α} {f : α → Except ε β} {b : β} :
    x >>= f = .ok b ↔ ∃ a, x = .ok a ∧ f a = .ok b := by
  cases x with
  | error fault => exact ⟨nofun, fun ⟨_, h, _⟩ => nomatch h⟩
  | ok a => exact ⟨fun h => ⟨a, rfl, h⟩, fun ⟨_, h, hf⟩ => Except.ok.inj h ▸ hf⟩

theorem map_ok_iff {ε α β : Type} {x : Except ε α} {f : α → β} {b : β} :
    x.map f = .ok b ↔ ∃ a, x = .ok a ∧ b = f a := by
  cases x with
  | error fault => exact ⟨nofun, fun ⟨_, h, _⟩ => nomatch h⟩
  | ok a => exact ⟨fun h => ⟨a, rfl, (Except.ok.inj h).symm⟩, fun ⟨_, h, hb⟩ => by rw [h, hb]; rfl⟩

theorem mapM_ok_iff {ε α β : Type} {f : α → Except ε β} {xs : List α} {ys : List β} :
    xs.mapM f = .ok ys ↔ List.Forall₂ (fun x y => f x = .ok y) xs ys := by
  induction xs generalizing ys with
  | nil => simp [pure, Except.pure, eq_comm]
  | cons x xs ih =>
      rw [List.mapM_cons, List.forall₂_cons_left_iff, bind_ok_iff]
      refine exists_congr fun y => ?_
      rw [bind_ok_iff]
      constructor
      · rintro ⟨hy, rest, hrest, hys⟩
        exact ⟨rest, hy, ih.mp hrest, (Except.ok.inj hys).symm⟩
      · rintro ⟨rest, hy, hrest, rfl⟩
        exact ⟨hy, rest, ih.mpr hrest, rfl⟩

/-- The field an entry becomes. -/
def IsFieldOf (item : Guest.Value → Except ConversionError Value) (entry : Guest.Value × Guest.Value)
    (field : String × Value) : Prop :=
  keyText entry.1 = .ok field.1 ∧ item entry.2 = .ok field.2

theorem listOf_ok_iff : listOf item t = .ok v ↔
    ∃ items, List.Forall₂ (fun value converted => item value = .ok converted) t.sequence items ∧
      v = .list items := by
  rw [listOf, map_ok_iff]
  exact exists_congr fun items => and_congr_left fun _ => mapM_ok_iff

theorem recordOf_ok_iff : recordOf item t = .ok v ↔
    ∃ pairs, List.Forall₂ (IsFieldOf item) t.entries pairs ∧ v = .record (Value.fieldsOf pairs) := by
  -- folding on from some fields puts in one field per entry, in order
  suffices h : ∀ entries fields result,
      entries.foldlM (fun fields (entry : Guest.Value × Guest.Value) => do
        let key ← keyText entry.1
        return Value.insertField key (← item entry.2) fields) fields = .ok result ↔
      ∃ pairs, List.Forall₂ (IsFieldOf item) entries pairs ∧
        result = pairs.foldl (fun fields p => Value.insertField p.1 p.2 fields) fields by
    rw [recordOf, bind_ok_iff]
    constructor
    · rintro ⟨fields, hfields, hv⟩
      obtain ⟨pairs, hpairs, rfl⟩ := (h _ _ _).mp hfields
      exact ⟨pairs, hpairs, (Except.ok.inj hv).symm⟩
    · rintro ⟨pairs, hpairs, rfl⟩
      exact ⟨_, (h _ _ _).mpr ⟨pairs, hpairs, rfl⟩, rfl⟩
  intro entries
  induction entries with
  | nil =>
      intro fields result
      simp [pure, Except.pure, eq_comm]
  | cons entry rest ih =>
      intro fields result
      rw [List.foldlM_cons, bind_ok_iff]
      constructor
      · rintro ⟨next, hnext, hrest⟩
        obtain ⟨key, hkey, hvalue⟩ := bind_ok_iff.mp hnext
        obtain ⟨value, hvalue, hput⟩ := bind_ok_iff.mp hvalue
        obtain ⟨pairs, hpairs, rfl⟩ := (ih next result).mp hrest
        exact ⟨(key, value) :: pairs, .cons ⟨hkey, hvalue⟩ hpairs, by rw [← Except.ok.inj hput]; rfl⟩
      · rintro ⟨pairs, hpairs, rfl⟩
        obtain ⟨⟨key, value⟩, pairs, ⟨hkey, hvalue⟩, hrest, rfl⟩ := List.forall₂_cons_left_iff.mp hpairs
        refine ⟨Value.insertField key value fields, ?_, (ih _ _).mpr ⟨pairs, hrest, rfl⟩⟩
        exact bind_ok_iff.mpr ⟨key, hkey, bind_ok_iff.mpr ⟨value, hvalue, rfl⟩⟩

theorem structural_table (reading : Reading) (levels address : Nat) :
    structural reading (levels + 1) (.table address) =
      if isSequence reading address then listOf (structural reading levels) (reading.table address)
      else recordOf (structural reading levels) (reading.table address) := rfl

theorem isSequence_iff :
    isSequence reading address = true ↔ (reading.table address).entries.length = reading.length address :=
  decide_eq_true_iff

theorem isSequence_of_keys {n : Nat} (h : (reading.table address).IsSequence n) :
    isSequence reading address = true :=
  isSequence_iff.mpr (h.length_entries.trans (h.border_eq (reading.isBorder address)).symm)

/-! ### Values that conversion takes -/

/-- The keys a record can have: texts, numbers and truth values. -/
def HasKeyText : Guest.Value → Prop
  | .str _ | .int _ | .float _ | .bool _ => True
  | _ => False

/-- A value all of whose reachable parts are of types that conversion takes, its tables nested at most
`levels` deep. -/
def Convertible (reading : Reading) : Nat → Guest.Value → Prop
  | _, .alien _ | _, .light | _, .thread _ | _, .error _ => False
  | 0, .table _ => False
  | levels + 1, .table address => ∀ entry ∈ (reading.table address).entries,
      HasKeyText entry.1 ∧ Convertible reading levels entry.2
  | _, _ => True

theorem keyText_ok {key : Guest.Value} (h : HasKeyText key) : ∃ text, keyText key = .ok text := by
  cases key with
  | str b => exact ⟨_, rfl⟩
  | int i => exact ⟨_, rfl⟩
  | float x => exact ⟨_, rfl⟩
  | bool b => exact ⟨_, rfl⟩
  | _ => exact h.elim

theorem keyText_text (name : String) : keyText (.text name) = .ok name :=
  congrArg Except.ok (Text.ofBytes_toUTF8 name)

theorem exists_forall₂ {α β : Type} {R : α → β → Prop} {xs : List α} (h : ∀ x ∈ xs, ∃ y, R x y) :
    ∃ ys, List.Forall₂ R xs ys := by
  induction xs with
  | nil => exact ⟨[], .nil⟩
  | cons x xs ih =>
      obtain ⟨y, hy⟩ := h x List.mem_cons_self
      obtain ⟨ys, hys⟩ := ih fun x hx => h x (List.mem_cons_of_mem _ hx)
      exact ⟨y :: ys, .cons hy hys⟩

/-- Conversion by shape gives a value for everything it takes. -/
theorem Convertible.structural_ok {value : Guest.Value} (h : Convertible reading levels value) :
    ∃ v, structural reading levels value = .ok v := by
  induction levels generalizing value with
  | zero => cases value <;> first | exact ⟨_, rfl⟩ | exact h.elim
  | succ levels ih =>
      cases value with
      | table address =>
          rw [structural_table]
          split
          · have hitems : ∀ value ∈ (reading.table address).sequence,
                ∃ v, structural reading levels value = .ok v := by
              intro value hvalue
              obtain ⟨key, hentry⟩ := (Table.mem_sequence hvalue).2
              exact ih (h _ hentry).2
            obtain ⟨items, hitems⟩ := exists_forall₂ hitems
            exact ⟨_, listOf_ok_iff.mpr ⟨items, hitems, rfl⟩⟩
          · have hfields : ∀ entry ∈ (reading.table address).entries,
                ∃ field, IsFieldOf (structural reading levels) entry field := by
              intro entry hentry
              obtain ⟨text, htext⟩ := keyText_ok (h entry hentry).1
              obtain ⟨v, hv⟩ := ih (h entry hentry).2
              exact ⟨(text, v), htext, hv⟩
            obtain ⟨pairs, hpairs⟩ := exists_forall₂ hfields
            exact ⟨_, recordOf_ok_iff.mpr ⟨pairs, hpairs, rfl⟩⟩
      | _ => first | exact ⟨_, rfl⟩ | exact h.elim

/-! ### Lists -/

/-- A sequence becomes the list of its items, in order. -/
theorem structural_sequence {n : Nat} (h : Convertible reading (levels + 1) (.table address))
    (hkeys : (reading.table address).IsSequence n) :
    ∃ items, structural reading (levels + 1) (.table address) = .ok (.list items) ∧ items.length = n ∧
      ∀ i (hi : i < items.length),
        structural reading levels ((reading.table address).item (i + 1)) = .ok items[i] := by
  obtain ⟨v, hv⟩ := h.structural_ok
  have hlist := hv
  rw [structural_table, if_pos (isSequence_of_keys hkeys)] at hlist
  obtain ⟨items, hitems, rfl⟩ := listOf_ok_iff.mp hlist
  rw [hkeys.sequence_eq, List.forall₂_map_left_iff] at hitems
  have hlength : items.length = n := by rw [← hitems.length_eq, List.length_range']
  refine ⟨items, hv, hlength, fun i hi => ?_⟩
  have hitem := hitems.get (i := i) (by rw [List.length_range']; omega) hi
  rw [List.get_eq_getElem, List.getElem_range', Nat.one_mul, Nat.add_comm 1 i] at hitem
  exact hitem

/-- Unless a gap comes before its end, a table that counts as a sequence is one. -/
theorem isSequence_iff_keys (h : ∀ i, 1 ≤ i → i ≤ reading.length address →
    ((reading.table address).item i).isNil = false) :
    isSequence reading address = true ↔ ∃ n, (reading.table address).IsSequence n := by
  refine ⟨fun hcount => ⟨reading.length address, ?_⟩, fun ⟨_, hkeys⟩ => isSequence_of_keys hkeys⟩
  exact Table.isSequence_of_no_gap (reading.isBorder address).le_greatest (isSequence_iff.mp hcount) h

/-! ### Records -/

/-- A table with another number of entries than its length becomes a record of the last entry with each key
text; just when all key texts differ no entry is missing. -/
theorem structural_record (h : Convertible reading (levels + 1) (.table address))
    (hcount : (reading.table address).entries.length ≠ reading.length address) :
    ∃ pairs fields, structural reading (levels + 1) (.table address) = .ok (.record fields) ∧
      List.Forall₂ (IsFieldOf (structural reading levels)) (reading.table address).entries pairs ∧
      Value.InKeyOrder fields ∧ (∀ field, field ∈ fields ↔ Value.LastOfKey field pairs) ∧
      (fields.Perm pairs ↔ (pairs.map Prod.fst).Nodup) := by
  obtain ⟨v, hv⟩ := h.structural_ok
  have hrecord := hv
  rw [structural_table, if_neg (mt isSequence_iff.mp hcount)] at hrecord
  obtain ⟨pairs, hpairs, rfl⟩ := recordOf_ok_iff.mp hrecord
  have horder := Value.inKeyOrder_fieldsOf pairs
  refine ⟨pairs, _, hv, hpairs, horder, fun field => Value.mem_fieldsOf, fun hperm => ?_, Value.fieldsOf_perm⟩
  exact (hperm.map Prod.fst).nodup_iff.mp horder.keys_nodup

/-! ### Tables by their keys -/

/-- What a table becomes is decided by its keys: a list of all entries when they are the indices from one
on, and a record of all key texts otherwise. Only a length beyond the first gap can be mistaken for the end
of a sequence. -/
theorem table_by_keys (options : ConversionOptions) (reading : Reading) (evidence : Evidence) (address : Nat)
    (h : Convertible reading maxNesting (.table address)) :
    let t := reading.table address
    let result := (convert options reading .any evidence (.table address)).result
    (∀ n, t.IsSequence n → reading.length address = n ∧
      ∃ items, result = .ok (.list items) ∧ items.length = n ∧
        ∀ i (hi : i < items.length),
          structural reading (maxNesting - 1) (t.item (i + 1)) = .ok items[i]) ∧
    (t.entries.length ≠ reading.length address →
      ∃ pairs fields, result = .ok (.record fields) ∧
        List.Forall₂ (IsFieldOf (structural reading (maxNesting - 1))) t.entries pairs ∧
        Value.InKeyOrder fields ∧ (∀ field, field ∈ fields ↔ Value.LastOfKey field pairs) ∧
        (fields.Perm pairs ↔ (pairs.map Prod.fst).Nodup)) ∧
    ((∀ i, 1 ≤ i → i ≤ reading.length address → (t.item i).isNil = false) →
      ((∃ items, result = .ok (.list items)) ↔ ∃ n, t.IsSequence n)) := by
  refine ⟨fun n hkeys => ⟨?_, structural_sequence h hkeys⟩, structural_record h, fun hitems => ?_⟩
  · exact (hkeys.border_eq (reading.isBorder address))
  · rw [← isSequence_iff_keys hitems]
    refine ⟨fun ⟨items, hlist⟩ => Decidable.byContradiction fun hcount => ?_, fun hcount => ?_⟩
    · obtain ⟨_, fields, hrecord, -⟩ := structural_record h (mt isSequence_iff.mpr hcount)
      cases Except.ok.inj (hlist.symm.trans hrecord)
    · obtain ⟨n, hkeys⟩ := (isSequence_iff_keys hitems).mp hcount
      obtain ⟨items, hlist, -⟩ := structural_sequence h hkeys
      exact ⟨items, hlist⟩

/-- A memory with one table, said to have some border as its length. -/
def onlyTable (t : Table) (length : Nat) (h : t.IsBorder length) : Reading :=
  ⟨fun _ => t, fun _ => length, fun _ => h⟩

/-- Two entries, at one and two, the second made first. -/
def couple : Table := (Table.empty.set (.int 2) (.bool true)).set (.int 1) (.int 5)

theorem couple_border : couple.IsBorder 2 := ⟨by decide, .inr (by decide), .inr (by decide)⟩

theorem couple_isSequence : couple.IsSequence 2 := by
  refine Table.isSequence_of_no_gap (by decide) (by decide) fun i hlow hhigh => ?_
  obtain rfl | rfl : i = 1 ∨ i = 2 := by omega
  · decide
  · decide

theorem couple_convertible : Convertible (onlyTable couple 2 couple_border) maxNesting (.table 0) := by
  change ∀ entry ∈ [(Guest.Value.int 2, Guest.Value.bool true), (.int 1, .int 5)], _
  simp [HasKeyText, Convertible]

theorem couple_by_keys :
    ∃ items, (convert ⟨true, true, true⟩ (onlyTable couple 2 couple_border) .any .none (.table 0)).result =
      .ok (.list items) ∧ items.length = 2 := by
  obtain ⟨hlist, -, -⟩ := table_by_keys ⟨true, true, true⟩ _ .none 0 couple_convertible
  obtain ⟨-, items, hitems, hlength, -⟩ := hlist 2 couple_isSequence
  exact ⟨items, hitems, hlength⟩

/-- The index one and its text as keys. -/
def oneTwice : Table := (Table.empty.set (.int 1) (.int 5)).set (.text "1") (.int 6)

/-- Four entries and a length of four, with nothing at three. -/
def gapped : Table :=
  (((Table.empty.set (.int 1) (.int 5)).set (.int 2) (.int 6)).set (.int 4) (.int 7)).set (.bool true) (.int 8)

theorem oneTwice_border : oneTwice.IsBorder 1 := ⟨by decide, .inr (by decide), .inr (by decide)⟩

theorem gapped_border : gapped.IsBorder 4 := ⟨by decide, .inr (by decide), .inr (by decide)⟩

theorem oneTwice_convertible : Convertible (onlyTable oneTwice 1 oneTwice_border) maxNesting (.table 0) := by
  change ∀ entry ∈ [(Guest.Value.int 1, Guest.Value.int 5), (.text "1", .int 6)], _
  simp [HasKeyText, Convertible, Guest.Value.text]

theorem gapped_convertible : Convertible (onlyTable gapped 4 gapped_border) maxNesting (.table 0) := by
  change ∀ entry ∈ [(Guest.Value.int 1, Guest.Value.int 5), (.int 2, .int 6), (.int 4, .int 7),
    (.bool true, .int 8)], _
  simp [HasKeyText, Convertible]

/-- Entries can be lost: two keys with one text leave one field, and a length beyond a gap that happens to
be the number of entries makes a list of what comes before the gap. -/
theorem entries_lost :
    (Convertible (onlyTable oneTwice 1 oneTwice_border) maxNesting (.table 0) ∧
      (∀ n, ¬ oneTwice.IsSequence n) ∧ oneTwice.entries.length = 2 ∧
      (convert ⟨true, true, true⟩ (onlyTable oneTwice 1 oneTwice_border) .any .none (.table 0)).result =
        .ok (.record [("1", .int 6)])) ∧
    (Convertible (onlyTable gapped 4 gapped_border) maxNesting (.table 0) ∧
      (∀ n, ¬ gapped.IsSequence n) ∧ gapped.entries.length = 4 ∧
      (convert ⟨true, true, true⟩ (onlyTable gapped 4 gapped_border) .any .none (.table 0)).result =
        .ok (.list [.int 5, .int 6])) := by
  refine ⟨⟨oneTwice_convertible, fun n h => ?_, rfl, rfl⟩, ⟨gapped_convertible, fun n h => ?_, rfl, rfl⟩⟩
  · obtain ⟨_, -, -, hkey⟩ := (h.keys (.text "1")).mp (by decide)
    cases hkey
  · obtain ⟨_, -, -, hkey⟩ := (h.keys (.bool true)).mp (by decide)
    cases hkey

end ScriptBridge.Conversion
