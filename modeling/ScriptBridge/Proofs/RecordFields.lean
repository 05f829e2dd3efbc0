import Mathlib.Data.List.Perm.Subperm
import ScriptBridge.Value

/-! Records as finite maps. The fields of a record stand in key order, so what a record says of each key
determines it. Of the pairs a record is made from, the last with each key becomes its field; when all keys
differ, no pair is lost. -/

namespace ScriptBridge.Value

variable {key : String} {value : Value} {p : String × Value} {fields pairs : List (String × Value)}

/-- Fields in strict key order, as records keep them. -/
def InKeyOrder (fields : List (String × Value)) : Prop := fields.Pairwise (·.1 < ·.1)

/-- The last of the pairs with its key. -/
def LastOfKey (p : String × Value) (pairs : List (String × Value)) : Prop :=
  ∃ before after, pairs = before ++ p :: after ∧ ∀ q ∈ after, q.1 ≠ p.1

theorem lastOfKey_cons {first : String × Value} :
    LastOfKey p (first :: pairs) ↔ LastOfKey p pairs ∨ p = first ∧ ∀ q ∈ pairs, q.1 ≠ p.1 := by
  constructor
  · rintro ⟨before, after, hsplit, hafter⟩
    cases before with
    | nil =>
        obtain ⟨rfl, rfl⟩ := List.cons.inj hsplit
        exact .inr ⟨rfl, hafter⟩
    | cons q before =>
        obtain ⟨-, hrest⟩ := List.cons.inj hsplit
        exact .inl ⟨before, after, hrest, hafter⟩
  · rintro (⟨before, after, hsplit, hafter⟩ | ⟨rfl, hlast⟩)
    · exact ⟨first :: before, after, by rw [hsplit, List.cons_append], hafter⟩
    · exact ⟨[], pairs, rfl, hlast⟩

theorem LastOfKey.mem (h : LastOfKey p pairs) : p ∈ pairs := by
  obtain ⟨before, after, rfl, -⟩ := h
  exact List.mem_append_right _ List.mem_cons_self

/-- Some pair is the last with its key. -/
theorem exists_lastOfKey (h : pairs ≠ []) : ∃ p, LastOfKey p pairs := by
  rcases List.eq_nil_or_concat pairs with rfl | ⟨before, p, rfl⟩
  · exact absurd rfl h
  · exact ⟨p, before, [], List.concat_eq_append, fun _ hq => absurd hq List.not_mem_nil⟩

theorem lt_of_not_lt_of_ne {a b : String} (hlt : ¬ a < b) (hne : a ≠ b) : b < a :=
  Decidable.byContradiction fun h => hne (String.le_antisymm (String.not_lt.mp h) (String.not_lt.mp hlt))

theorem InKeyOrder.keys_nodup (h : InKeyOrder fields) : (fields.map Prod.fst).Nodup := by
  refine List.pairwise_map.mpr (h.imp ?_)
  intro p q hlt heq
  exact String.lt_irrefl q.1 (heq ▸ hlt)

/-! ### One field put in -/

theorem mem_of_mem_insertField (h : p ∈ insertField key value fields) : p = (key, value) ∨ p ∈ fields := by
  induction fields with
  | nil => exact .inl (List.mem_singleton.mp h)
  | cons first rest ih =>
      rw [insertField] at h
      split at h
      · exact List.mem_cons.mp h
      · split at h
        · exact (List.mem_cons.mp h).imp_right (List.mem_cons_of_mem _)
        · rcases List.mem_cons.mp h with rfl | hrest
          · exact .inr List.mem_cons_self
          · exact (ih hrest).imp_right (List.mem_cons_of_mem _)

theorem InKeyOrder.insertField (h : InKeyOrder fields) : InKeyOrder (insertField key value fields) := by
  induction fields with
  | nil => exact List.pairwise_singleton _ _
  | cons first rest ih =>
      obtain ⟨hfirst, hrest⟩ := List.pairwise_cons.mp h
      rw [Value.insertField]
      split
      · rename_i hlt
        refine List.pairwise_cons.mpr ⟨fun q hq => ?_, h⟩
        rcases List.mem_cons.mp hq with rfl | hq
        · exact hlt
        · exact String.lt_trans hlt (hfirst q hq)
      · split
        · rename_i heq
          exact List.pairwise_cons.mpr ⟨fun q hq => heq ▸ hfirst q hq, hrest⟩
        · rename_i hlt hne
          refine List.pairwise_cons.mpr ⟨fun q hq => ?_, ih hrest⟩
          rcases mem_of_mem_insertField hq with rfl | hq
          · exact lt_of_not_lt_of_ne hlt hne
          · exact hfirst q hq

theorem mem_insertField (h : InKeyOrder fields) :
    p ∈ insertField key value fields ↔ p = (key, value) ∨ p ∈ fields ∧ p.1 ≠ key := by
  induction fields with
  | nil => simp [insertField]
  | cons first rest ih =>
      obtain ⟨hfirst, hrest⟩ := List.pairwise_cons.mp h
      rw [insertField]
      split
      · rename_i hlt
        -- every field stands after the key, so none is replaced
        have hkept : ∀ q ∈ first :: rest, q.1 ≠ key := by
          intro q hq heq
          rcases List.mem_cons.mp hq with rfl | hq
          · exact String.lt_irrefl _ (heq ▸ hlt)
          · exact String.lt_irrefl _ (String.lt_trans hlt (heq ▸ hfirst q hq))
        rw [List.mem_cons]
        exact or_congr_right ⟨fun hp => ⟨hp, hkept p hp⟩, And.left⟩
      · split
        · rename_i heq
          have hkept : ∀ q ∈ rest, q.1 ≠ key :=
            fun q hq hqkey => String.lt_irrefl _ (heq ▸ hqkey ▸ hfirst q hq)
          rw [List.mem_cons, List.mem_cons]
          refine or_congr_right ⟨fun hp => ⟨.inr hp, hkept p hp⟩, fun ⟨hp, hne⟩ => ?_⟩
          exact hp.resolve_left fun hpfirst => hne (hpfirst ▸ heq.symm)
        · rename_i hlt hne
          rw [List.mem_cons, List.mem_cons, ih hrest]
          constructor
          · rintro (rfl | rfl | ⟨hp, hpkey⟩)
            · exact .inr ⟨.inl rfl, fun heq => hne heq.symm⟩
            · exact .inl rfl
            · exact .inr ⟨.inr hp, hpkey⟩
          · rintro (rfl | ⟨rfl | hp, hpkey⟩)
            · exact .inr (.inl rfl)
            · exact .inl rfl
            · exact .inr (.inr ⟨hp, hpkey⟩)

theorem insertField_perm (h : key ∉ fields.map Prod.fst) :
    (insertField key value fields).Perm ((key, value) :: fields) := by
  induction fields with
  | nil => exact List.Perm.refl _
  | cons first rest ih =>
      obtain ⟨hfirst, hrest⟩ := not_or.mp (mt List.mem_cons.mpr h)
      rw [insertField]
      split
      · exact List.Perm.refl _
      · exact ((ih hrest).cons first).trans (List.Perm.swap _ _ _)

/-! ### A record made from pairs -/

theorem inKeyOrder_fieldsOf (pairs : List (String × Value)) : InKeyOrder (fieldsOf pairs) := by
  suffices h : ∀ fields, InKeyOrder fields →
      InKeyOrder (pairs.foldl (fun fields p => insertField p.1 p.2 fields) fields) from
    h [] List.Pairwise.nil
  induction pairs with
  | nil => exact fun _ h => h
  | cons first rest ih => exact fun fields h => ih _ h.insertField

theorem mem_fieldsOf : p ∈ fieldsOf pairs ↔ LastOfKey p pairs := by
  -- folding on from some fields keeps those whose keys do not come again
  suffices h : ∀ fields, InKeyOrder fields →
      (p ∈ pairs.foldl (fun fields p => insertField p.1 p.2 fields) fields ↔
        LastOfKey p pairs ∨ p ∈ fields ∧ ∀ q ∈ pairs, q.1 ≠ p.1) by
    exact (h [] List.Pairwise.nil).trans (or_iff_left fun hp => List.not_mem_nil hp.1)
  induction pairs with
  | nil => simp [LastOfKey]
  | cons first rest ih =>
      intro fields h
      rw [List.foldl_cons, ih _ h.insertField, mem_insertField h, lastOfKey_cons, List.forall_mem_cons]
      constructor
      · rintro (hrest | ⟨rfl | ⟨hp, hne⟩, hlast⟩)
        · exact .inl (.inl hrest)
        · exact .inl (.inr ⟨rfl, hlast⟩)
        · exact .inr ⟨hp, hne.symm, hlast⟩
      · rintro ((hrest | ⟨rfl, hlast⟩) | ⟨hp, hne, hlast⟩)
        · exact .inl hrest
        · exact .inr ⟨.inl rfl, hlast⟩
        · exact .inr ⟨.inr ⟨hp, hne.symm⟩, hlast⟩

/-- Every key of the pairs has a field. -/
theorem mem_keys_fieldsOf : key ∈ (fieldsOf pairs).map Prod.fst ↔ key ∈ pairs.map Prod.fst := by
  constructor
  · intro h
    obtain ⟨p, hp, rfl⟩ := List.mem_map.mp h
    exact List.mem_map_of_mem (mem_fieldsOf.mp hp).mem
  · intro h
    suffices hlast : ∃ p, LastOfKey p pairs ∧ p.1 = key by
      obtain ⟨p, hp, rfl⟩ := hlast
      exact List.mem_map_of_mem (mem_fieldsOf.mpr hp)
    induction pairs with
    | nil => cases h
    | cons first rest ih =>
        by_cases hrest : key ∈ rest.map Prod.fst
        · obtain ⟨p, hp, hkey⟩ := ih hrest
          exact ⟨p, lastOfKey_cons.mpr (.inl hp), hkey⟩
        · have hfirst : key = first.1 := (List.mem_cons.mp h).resolve_right hrest
          refine ⟨first, lastOfKey_cons.mpr (.inr ⟨rfl, fun q hq heq => hrest ?_⟩), hfirst.symm⟩
          rw [hfirst, ← heq]
          exact List.mem_map_of_mem hq

theorem fieldsOf_ne_nil (h : pairs ≠ []) : fieldsOf pairs ≠ [] := by
  obtain ⟨p, hp⟩ := exists_lastOfKey h
  exact List.ne_nil_of_mem (mem_fieldsOf.mpr hp)

theorem fieldsOf_perm (h : (pairs.map Prod.fst).Nodup) : (fieldsOf pairs).Perm pairs := by
  suffices hfold : ∀ fields, ((pairs ++ fields).map Prod.fst).Nodup →
      (pairs.foldl (fun fields p => insertField p.1 p.2 fields) fields).Perm (pairs ++ fields) by
    simpa [fieldsOf] using hfold [] (by simpa using h)
  clear h
  induction pairs with
  | nil => exact fun _ _ => List.Perm.refl _
  | cons first rest ih =>
      intro fields h
      have hperm : (rest ++ first :: fields).Perm (first :: rest ++ fields) := List.perm_middle
      have hkeys := ((hperm.map Prod.fst).nodup_iff).mpr h
      have hfirst : first.1 ∉ fields.map Prod.fst := by
        rw [List.map_append, List.map_cons] at hkeys
        exact (List.nodup_cons.mp (List.nodup_append.mp hkeys).2.1).1
      have hinsert : (rest ++ insertField first.1 first.2 fields).Perm (rest ++ first :: fields) :=
        (insertField_perm hfirst).append_left rest
      exact (ih _ (((hinsert.map Prod.fst).nodup_iff).mpr hkeys)).trans (hinsert.trans hperm)

/-- A record has as many fields as there were pairs just when all their keys differ. -/
theorem length_fieldsOf_iff : (fieldsOf pairs).length = pairs.length ↔ (pairs.map Prod.fst).Nodup := by
  refine ⟨fun h => ?_, fun h => (fieldsOf_perm h).length_eq⟩
  have hkeys : ((fieldsOf pairs).map Prod.fst).Nodup := (inKeyOrder_fieldsOf pairs).keys_nodup
  have hsubperm := List.subperm_of_subset hkeys fun key hkey => mem_keys_fieldsOf.mp hkey
  have hlength : (pairs.map Prod.fst).length = ((fieldsOf pairs).map Prod.fst).length := by
    rw [List.length_map, List.length_map, h]
  exact (hsubperm.perm_of_length_le (Nat.le_of_eq hlength)).nodup_iff.mp hkeys

/-- Fields in key order are those of the record made from them. -/
theorem InKeyOrder.fieldsOf_eq (h : InKeyOrder fields) : fieldsOf fields = fields := by
  refine (fieldsOf_perm h.keys_nodup).eq_of_pairwise (fun p q _ _ hpq hqp => ?_) (inKeyOrder_fieldsOf fields) h
  exact absurd (String.lt_trans hpq hqp) (String.lt_irrefl _)

end ScriptBridge.Value
