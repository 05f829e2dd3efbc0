import ScriptBridge.Guest.Table

/-! Tables whose keys are just the indices from one to some number. Their length can only be that number,
whichever border it is said to be, and reading them by position meets every entry once. A table with as many
entries as its length is one of these, unless its length lies beyond its first gap. -/

namespace ScriptBridge.Guest.Table

variable {t : Table} {n : Nat} {key key' value : Value} {entries : List (Value × Value)}

/-- The keys are the indices from one to `n`, in any order. -/
structure IsSequence (t : Table) (n : Nat) : Prop where
  le_greatest : n ≤ greatestIndex
  keys : ∀ key, key ∈ t.entries.map Prod.fst ↔ ∃ i, 1 ≤ i ∧ i ≤ n ∧ key = index i

/-! ### Entries and what is found under their keys -/

theorem find_of_mem (hkeys : (entries.map Prod.fst).Nodup) (h : (key, value) ∈ entries) :
    find key entries = value := by
  induction entries with
  | nil => cases h
  | cons first rest ih =>
      obtain ⟨hfirst, hrest⟩ := List.nodup_cons.mp hkeys
      rw [find]
      rcases List.mem_cons.mp h with heq | hmem
      · rw [← heq, if_pos rfl]
      · have hne : first.1 ≠ key := fun heq => hfirst (heq ▸ List.mem_map_of_mem (f := Prod.fst) hmem)
        rw [if_neg hne, ih hrest hmem]

theorem entry_of_find (h : (find key entries).isNil = false) : (key, find key entries) ∈ entries := by
  induction entries with
  | nil => cases h
  | cons first rest ih =>
      rw [find] at h ⊢
      split at h
      · rename_i heq
        rw [if_pos heq, ← heq]
        exact List.mem_cons_self
      · rename_i hne
        rw [if_neg hne]
        exact List.mem_cons_of_mem _ (ih h)

/-- Something is found under just the keys of entries. -/
theorem find_isNil_iff (t : Table) (key : Value) :
    (find key t.entries).isNil = false ↔ key ∈ t.entries.map Prod.fst := by
  refine ⟨mem_of_find, fun h => ?_⟩
  obtain ⟨⟨k, v⟩, hentry, rfl⟩ := List.mem_map.mp h
  rw [find_of_mem t.keys_nodup hentry]
  exact t.not_nil _ hentry

/-- A new key goes to the end. -/
theorem store_of_not_mem (hkey : key ∉ entries.map Prod.fst) (hvalue : value.isNil = false) :
    store key value entries = entries ++ [(key, value)] := by
  induction entries with
  | nil => rw [store, if_neg (Bool.eq_false_iff.mp hvalue), List.nil_append]
  | cons first rest ih =>
      obtain ⟨hfirst, hrest⟩ := not_or.mp (mt List.mem_cons.mpr hkey)
      rw [store, if_neg (Ne.symm hfirst), ih hrest, List.cons_append]

theorem store_nil (h : key ∉ entries.map Prod.fst) : store key .nil entries = entries := by
  induction entries with
  | nil => rfl
  | cons first rest ih =>
      obtain ⟨hfirst, hrest⟩ := not_or.mp (mt List.mem_cons.mpr h)
      rw [store, if_neg (Ne.symm hfirst), ih hrest]

/-- Nil put where there is nothing leaves a table as it is. -/
theorem set_nil (h : key.asKey ∉ t.entries.map Prod.fst) : t.set key .nil = t := by
  obtain ⟨entries, metatable, hnodup, hvalues⟩ := t
  simp only [set, mk.injEq, and_true]
  exact store_nil h

theorem mem_keys_set (h : key ∈ (t.set key' value).entries.map Prod.fst) :
    key ∈ t.entries.map Prod.fst ∨ key = key'.asKey := by
  obtain ⟨entry, hentry, rfl⟩ := List.mem_map.mp h
  exact (mem_store hentry).imp (List.mem_map_of_mem (f := Prod.fst)) And.left

/-- What is put under another key, be it nil, is not found under this one. -/
theorem find_store_of_ne (h : key' ≠ key) : find key (store key' value entries) = find key entries := by
  induction entries with
  | nil =>
      rw [store]
      by_cases hvalue : value.isNil = true
      · rw [if_pos hvalue]
      · rw [if_neg hvalue]
        exact if_neg h
  | cons first rest ih =>
      rw [store]
      by_cases hfirst : first.1 = key'
      · have hother : first.1 ≠ key := fun heq => h (hfirst.symm.trans heq)
        rw [if_pos hfirst, find, if_neg hother]
        by_cases hvalue : value.isNil = true
        · rw [if_pos hvalue]
        · rw [if_neg hvalue, find, if_neg hother]
      · rw [if_neg hfirst, find, find, ih]

/-! ### Reading by position -/

theorem mem_sequenceFrom {start limit : Nat} (h : value ∈ t.sequenceFrom start limit) :
    value.isNil = false ∧ ∃ i, value = t.item i := by
  induction limit generalizing start with
  | zero => cases h
  | succ limit ih =>
      rw [sequenceFrom] at h
      split at h
      · cases h
      · rename_i hitem
        rcases List.mem_cons.mp h with rfl | hrest
        · exact ⟨Bool.eq_false_iff.mpr hitem, start, rfl⟩
        · exact ih hrest

theorem length_sequenceFrom (t : Table) (start limit : Nat) : (t.sequenceFrom start limit).length ≤ limit := by
  induction limit generalizing start with
  | zero => exact Nat.le_refl _
  | succ limit ih =>
      rw [sequenceFrom]
      split
      · exact Nat.zero_le _
      · exact Nat.succ_le_succ (ih _)

/-- Reading goes on to its limit, or to the gap before it. -/
theorem sequenceFrom_eq {start limit : Nat} (hn : n ≤ limit)
    (hitems : ∀ i, start ≤ i → i < start + n → (t.item i).isNil = false)
    (hend : n = limit ∨ (t.item (start + n)).isNil = true) :
    t.sequenceFrom start limit = (List.range' start n).map t.item := by
  induction limit generalizing start n with
  | zero =>
      obtain rfl := Nat.le_zero.mp hn
      rfl
  | succ limit ih =>
      cases n with
      | zero =>
          have hgap : (t.item start).isNil = true := hend.resolve_left (Nat.succ_ne_zero limit).symm
          rw [sequenceFrom, if_pos hgap]
          rfl
      | succ n =>
          have hfirst : ¬ (t.item start).isNil = true :=
            Bool.eq_false_iff.mp (hitems start (Nat.le_refl _) (by omega))
          have hrest : t.sequenceFrom (start + 1) limit = (List.range' (start + 1) n).map t.item := by
            refine ih (Nat.le_of_succ_le_succ hn) (fun i hlow hhigh => hitems i (by omega) (by omega)) ?_
            exact hend.imp Nat.succ.inj fun hgap => by rwa [Nat.add_right_comm]
          rw [sequenceFrom, if_neg hfirst, hrest, List.range'_succ, List.map_cons]

/-- Items without a gap have their indices among the keys. -/
theorem indices_subset (h : ∀ i, 1 ≤ i → i ≤ n → (t.item i).isNil = false) :
    (List.range' 1 n).map index ⊆ t.entries.map Prod.fst := by
  intro key hkey
  obtain ⟨i, hi, rfl⟩ := List.mem_map.mp hkey
  obtain ⟨hlow, hhigh⟩ := List.mem_range'_1.mp hi
  exact mem_of_find (h i hlow (by omega))

/-- Reading by position stops at the first gap, whatever lies beyond it. -/
theorem sequence_of_gap (hn : n ≤ greatestIndex) (hitems : ∀ i, 1 ≤ i → i ≤ n → (t.item i).isNil = false)
    (hgap : (t.item (n + 1)).isNil = true) : t.sequence = (List.range' 1 n).map t.item := by
  have hcount := (indices_nodup hn).length_le_of_subset (indices_subset hitems)
  rw [List.length_map, List.length_map, List.length_range'] at hcount
  rw [Nat.add_comm] at hgap
  exact sequenceFrom_eq (Nat.le_min.mpr ⟨hcount, hn⟩) (fun i hlow hhigh => hitems i hlow (by omega)) (.inr hgap)

theorem mem_sequence (h : value ∈ t.sequence) : value.isNil = false ∧ ∃ key, (key, value) ∈ t.entries := by
  obtain ⟨hvalue, i, rfl⟩ := mem_sequenceFrom h
  exact ⟨hvalue, index i, entry_of_find hvalue⟩

theorem length_sequence_le (t : Table) : t.sequence.length ≤ greatestIndex :=
  Nat.le_trans (t.length_sequenceFrom 1 _) (Nat.min_le_right _ _)

/-! ### Sequences -/

namespace IsSequence

theorem entries_perm (h : t.IsSequence n) :
    (t.entries.map Prod.fst).Perm ((List.range' 1 n).map index) := by
  refine (List.perm_ext_iff_of_nodup t.keys_nodup (indices_nodup h.le_greatest)).mpr fun key => ?_
  rw [h.keys, List.mem_map]
  constructor
  · rintro ⟨i, hlow, hhigh, rfl⟩
    exact ⟨i, List.mem_range'_1.mpr ⟨hlow, by omega⟩, rfl⟩
  · rintro ⟨i, hi, rfl⟩
    obtain ⟨hlow, hhigh⟩ := List.mem_range'_1.mp hi
    exact ⟨i, hlow, by omega, rfl⟩

theorem length_entries (h : t.IsSequence n) : t.entries.length = n := by
  simpa using h.entries_perm.length_eq

theorem item_isNil_iff (h : t.IsSequence n) {i : Nat} (hi : i ≤ greatestIndex) :
    (t.item i).isNil = false ↔ 1 ≤ i ∧ i ≤ n := by
  rw [item, find_isNil_iff, h.keys]
  constructor
  · rintro ⟨j, hlow, hhigh, heq⟩
    rw [index_inj hi (Nat.le_trans hhigh h.le_greatest) heq]
    exact ⟨hlow, hhigh⟩
  · rintro ⟨hlow, hhigh⟩
    exact ⟨i, hlow, hhigh, rfl⟩

/-- A sequence has one border only. -/
theorem border_eq (h : t.IsSequence n) {m : Nat} (hm : t.IsBorder m) : m = n := by
  have hn := h.le_greatest
  have hle : m ≤ n := by
    rcases hm.last with rfl | hlast
    · exact Nat.zero_le n
    · exact ((h.item_isNil_iff hm.le_greatest).mp hlast).2
  rcases hm.next with rfl | hgap
  · exact Nat.le_antisymm hle hn
  · refine Nat.le_antisymm hle (Nat.not_lt.mp fun hlt => ?_)
    have hitem := (h.item_isNil_iff (i := m + 1) (by omega)).mpr ⟨by omega, hlt⟩
    rw [hgap] at hitem
    cases hitem

theorem sequence_eq (h : t.IsSequence n) : t.sequence = (List.range' 1 n).map t.item := by
  have hlimit : min t.entries.length greatestIndex = n := by
    rw [h.length_entries]
    exact Nat.min_eq_left h.le_greatest
  have hn := h.le_greatest
  rw [sequence, hlimit]
  refine sequenceFrom_eq (Nat.le_refl n) (fun i hlow hhigh => ?_) (.inl rfl)
  exact (h.item_isNil_iff (by omega)).mpr ⟨hlow, by omega⟩

end IsSequence

/-- Enough items without a gap for all entries leave no entry elsewhere. -/
theorem isSequence_of_no_gap (hn : n ≤ greatestIndex) (hcount : t.entries.length = n)
    (hitems : ∀ i, 1 ≤ i → i ≤ n → (t.item i).isNil = false) : t.IsSequence n := by
  have hsubset := indices_subset hitems
  refine ⟨hn, fun key => ⟨fun hkey => ?_, ?_⟩⟩
  · suffices hmem : key ∈ (List.range' 1 n).map index by
      obtain ⟨i, hi, rfl⟩ := List.mem_map.mp hmem
      obtain ⟨hlow, hhigh⟩ := List.mem_range'_1.mp hi
      exact ⟨i, hlow, by omega, rfl⟩
    refine Decidable.byContradiction fun hother => ?_
    have hmore : key :: (List.range' 1 n).map index ⊆ t.entries.map Prod.fst :=
      List.cons_subset.mpr ⟨hkey, hsubset⟩
    have hlength := (List.nodup_cons.mpr ⟨hother, indices_nodup hn⟩).length_le_of_subset hmore
    simp only [List.length_cons, List.length_map, List.length_range'] at hlength
    omega
  · rintro ⟨i, hlow, hhigh, rfl⟩
    exact (find_isNil_iff t _).mp (hitems i hlow hhigh)

/-- A table whose entries stand in order is read as they stand. -/
theorem isSequence_of_range (hn : n ≤ greatestIndex)
    (h : t.entries.map Prod.fst = (List.range' 1 n).map index) : t.IsSequence n := by
  refine ⟨hn, fun key => ?_⟩
  rw [h, List.mem_map]
  constructor
  · rintro ⟨i, hi, rfl⟩
    obtain ⟨hlow, hhigh⟩ := List.mem_range'_1.mp hi
    exact ⟨i, hlow, by omega, rfl⟩
  · rintro ⟨i, hlow, hhigh, rfl⟩
    exact ⟨i, List.mem_range'_1.mpr ⟨hlow, by omega⟩, rfl⟩

theorem sequence_of_range (hn : n ≤ greatestIndex)
    (h : t.entries.map Prod.fst = (List.range' 1 n).map index) : t.sequence = t.entries.map Prod.snd := by
  calc t.sequence
      = (List.range' 1 n).map t.item := (isSequence_of_range hn h).sequence_eq
    _ = ((List.range' 1 n).map index).map fun key => find key t.entries := by rw [List.map_map]; rfl
    _ = t.entries.map fun entry => find entry.1 t.entries := by rw [← h, List.map_map]; rfl
    _ = t.entries.map Prod.snd := List.map_congr_left fun _ hentry => find_of_mem t.keys_nodup hentry

/-- Without indices among its keys a table has no length but zero. -/
theorem IsBorder.eq_zero (h : t.IsBorder n) (hkeys : ∀ i, index i ∉ t.entries.map Prod.fst) : n = 0 :=
  h.last.resolve_right fun hlast => hkeys n (mem_of_find hlast)

end ScriptBridge.Guest.Table
