import Mathlib.Data.List.Perm.Basic
import ScriptBridge.Proofs.TableNesting

/-! Conversion and the order of a table's entries. The guest language leaves open in which order the entries of a
table are met. What is found under a key, the length, the shape and the tables that are met do not depend on it,
so whether conversion succeeds does not either. A record puts its fields into key order, so the order of the
entries could show only where two keys of one table have one text: then the later one counts. -/

namespace ScriptBridge

open Guest (Table)

/-! ### One table in two orders -/

namespace Guest.Table

variable {t t' : Table} {key : Value}

theorem find_eq_nil (h : key ∉ t.entries.map Prod.fst) : find key t.entries = .nil := by
  rw [← find_isNil_iff] at h
  cases hfound : find key t.entries with
  | nil => rfl
  | _ => exact absurd (by rw [hfound]; rfl) h

theorem find_of_perm (h : t.entries.Perm t'.entries) (key : Value) :
    find key t.entries = find key t'.entries := by
  have hkeys : key ∈ t.entries.map Prod.fst ↔ key ∈ t'.entries.map Prod.fst := (h.map Prod.fst).mem_iff
  by_cases hkey : key ∈ t.entries.map Prod.fst
  · have hentry := entry_of_find ((find_isNil_iff t key).mpr hkey)
    exact (find_of_mem t'.keys_nodup (h.mem_iff.mp hentry)).symm
  · rw [find_eq_nil hkey, find_eq_nil (mt hkeys.mpr hkey)]

theorem sequenceFrom_of_perm (h : t.entries.Perm t'.entries) (start limit : Nat) :
    t.sequenceFrom start limit = t'.sequenceFrom start limit := by
  induction limit generalizing start with
  | zero => rfl
  | succ limit ih => rw [sequenceFrom, sequenceFrom, item, find_of_perm h, ← item, ih]

theorem sequence_of_perm (h : t.entries.Perm t'.entries) : t.sequence = t'.sequence := by
  rw [sequence, sequence, h.length_eq, sequenceFrom_of_perm h]

end Guest.Table

/-- Two readings of one memory: every table has the same entries, met in another order, and the same length. -/
structure Reading.Reordered (reading other : Reading) : Prop where
  entries : ∀ address, (reading.table address).entries.Perm (other.table address).entries
  length : ∀ address, reading.length address = other.length address

theorem Reading.Reordered.symm {reading other : Reading} (h : reading.Reordered other) : other.Reordered reading :=
  ⟨fun address => (h.entries address).symm, fun address => (h.length address).symm⟩

namespace Value

variable {pairs pairs' : List (String × Value)}

/-- A record is made from pairs of different keys in any order. -/
theorem fieldsOf_eq_of_perm (h : pairs.Perm pairs') (hkeys : (pairs.map Prod.fst).Nodup) :
    fieldsOf pairs = fieldsOf pairs' := by
  have hkeys' : (pairs'.map Prod.fst).Nodup := (h.map Prod.fst).nodup_iff.mp hkeys
  have hperm : (fieldsOf pairs).Perm (fieldsOf pairs') :=
    ((fieldsOf_perm hkeys).trans h).trans (fieldsOf_perm hkeys').symm
  refine hperm.eq_of_pairwise (fun p q _ _ hpq hqp => ?_) (inKeyOrder_fieldsOf pairs) (inKeyOrder_fieldsOf pairs')
  exact absurd (String.lt_trans hpq hqp) (String.lt_irrefl _)

end Value

namespace Conversion

/-- No two keys of a table have one text. -/
def DistinctTexts (t : Table) : Prop :=
  t.entries.Pairwise fun entry entry' => ∀ text, keyText entry.1 = .ok text → keyText entry'.1 ≠ .ok text

variable {reading other : Reading} {levels address : Nat} {g : Guest.Value} {v : Value}

theorem DistinctTexts.keys_nodup {t : Table} (h : DistinctTexts t)
    {item : Guest.Value → Except ConversionError Value} {pairs : List (String × Value)}
    (hpairs : List.Forall₂ (IsFieldOf item) t.entries pairs) : (pairs.map Prod.fst).Nodup := by
  rw [DistinctTexts] at h
  generalize t.entries = entries at h hpairs
  induction hpairs with
  | nil => exact List.nodup_nil
  | cons hfield hrest ih =>
      obtain ⟨hfirst, hothers⟩ := List.pairwise_cons.mp h
      refine List.nodup_cons.mpr ⟨fun hmem => ?_, ih hothers⟩
      obtain ⟨field, hfield', hsame⟩ := List.mem_map.mp hmem
      obtain ⟨entry, hentry, htext, -⟩ := exists_of_mem_right hrest hfield'
      exact hfirst entry hentry _ hfield.1 (hsame ▸ htext)

theorem isSequence_reordered (h : reading.Reordered other) (address : Nat) :
    isSequence reading address = isSequence other address := by
  rw [Bool.eq_iff_iff, isSequence_iff, isSequence_iff, (h.entries address).length_eq, h.length address]

/-! ### What is met -/

namespace Opening

variable {o inner : Opening} {n : Nat}

theorem ownOpening_reordered (h : reading.Reordered other) (address : Nat) :
    ownOpening reading address = ownOpening other address := by
  rw [ownOpening, ownOpening, isSequence_reordered h]

theorem parts_perm (h : reading.Reordered other) (o : Opening) : (o.parts reading).Perm (o.parts other) := by
  obtain ⟨layout, address⟩ := o
  cases layout with
  | list => exact .of_eq (Table.sequence_of_perm (h.entries address))
  | record => exact (h.entries address).map Prod.snd

theorem Meets.reordered (h : reading.Reordered other) (hmeets : o.Meets reading inner) : o.Meets other inner := by
  obtain ⟨hpart, hown⟩ := hmeets
  exact ⟨(parts_perm h o).mem_iff.mp hpart, hown.trans (ownOpening_reordered h _)⟩

theorem Nests.reordered (h : reading.Reordered other) (hnests : Nests reading n o) : Nests other n o := by
  induction hnests with
  | one o => exact .one o
  | more hmeets _ ih => exact .more (hmeets.reordered h) ih

theorem Legible.reordered (h : reading.Reordered other) (hlegible : o.Legible reading) : o.Legible other := by
  obtain ⟨hparts, hkeys⟩ := hlegible
  refine ⟨fun part hpart => hparts part ((parts_perm h o).mem_iff.mpr hpart), fun hrecord entry hentry => ?_⟩
  exact hkeys hrecord entry ((h.entries o.address).mem_iff.mpr hentry)

theorem Clear.reordered (h : reading.Reordered other) (hclear : o.Clear reading) : o.Clear other := by
  intro inner hmet
  have hmet' := Relation.ReflTransGen.mono (fun _ _ hmeets => Meets.reordered h.symm hmeets) _ _ hmet
  exact (hclear inner hmet').reordered h

/-- Whether a table is converted does not depend on the order of entries. -/
theorem contents_ok_reordered (h : reading.Reordered other) (hok : ∃ v, o.contents reading levels = .ok v) :
    ∃ v, o.contents other levels = .ok v := by
  obtain ⟨hbound, hclear⟩ := contents_ok_iff.mp hok
  exact contents_ok_iff.mpr ⟨fun hnests => hbound (hnests.reordered h.symm), hclear.reordered h⟩

/-! ### What comes out -/

/-- In every table that is met and taken apart as a record the keys have different texts. -/
def Distinct (reading : Reading) (o : Opening) : Prop :=
  ∀ inner, Relation.ReflTransGen (Meets reading) o inner → inner.layout = .record →
    DistinctTexts (reading.table inner.address)

/-- A table is converted alike if its parts are. -/
theorem contents_of_parts (h : reading.Reordered other)
    (hdistinct : o.layout = .record → DistinctTexts (reading.table o.address))
    (hparts : ∀ part ∈ o.parts reading, ∀ {v}, structural reading levels part = .ok v →
      structural other levels part = .ok v)
    (hv : o.contents reading levels = .ok v) : o.contents other levels = .ok v := by
  obtain ⟨layout, address⟩ := o
  cases layout with
  | list =>
      obtain ⟨items, hitems, rfl⟩ := listOf_ok_iff.mp hv
      refine listOf_ok_iff.mpr ⟨items, ?_, rfl⟩
      rw [← Table.sequence_of_perm (h.entries address)]
      exact ((List.forall₂_and_left _ _).mpr ⟨hparts, hitems⟩).imp fun _ _ hitem => hitem.1 hitem.2
  | record =>
      obtain ⟨pairs, hpairs, rfl⟩ := recordOf_ok_iff.mp hv
      have hfields : List.Forall₂ (IsFieldOf (structural other levels)) (reading.table address).entries pairs := by
        have hvalues : ∀ entry ∈ (reading.table address).entries, ∀ {v},
            structural reading levels entry.2 = .ok v → structural other levels entry.2 = .ok v :=
          fun entry hentry => hparts entry.2 (List.mem_map_of_mem hentry)
        exact ((List.forall₂_and_left _ _).mpr ⟨hvalues, hpairs⟩).imp
          fun _ _ hfield => ⟨hfield.2.1, hfield.1 hfield.2.2⟩
      -- the entries in the other order make the same pairs in that order
      obtain ⟨pairs', hpairs', hperm⟩ := List.perm_comp_forall₂ (h.entries address).symm hfields
      have hsame := Value.fieldsOf_eq_of_perm hperm.symm ((hdistinct rfl).keys_nodup hpairs)
      exact recordOf_ok_iff.mpr ⟨pairs', hpairs', by rw [hsame]⟩

/-- What a table is converted to does not depend on the order of entries, unless keys have one text. -/
theorem contents_reordered (h : reading.Reordered other) (hdistinct : o.Distinct reading)
    (hv : o.contents reading levels = .ok v) : o.contents other levels = .ok v := by
  induction levels generalizing o v with
  | zero =>
      refine contents_of_parts h (hdistinct o .refl) (fun part _ v hpart => ?_) hv
      cases part with
      | table address => cases hpart
      | _ => simpa only [structural] using hpart
  | succ levels ih =>
      refine contents_of_parts h (hdistinct o .refl) (fun part hmem v hpart => ?_) hv
      cases part with
      | table address =>
          rw [structural_own] at hpart ⊢
          rw [← ownOpening_reordered h]
          exact ih (fun inner hmet => hdistinct inner (.head ⟨hmem, rfl⟩ hmet)) hpart
      | _ => simpa only [structural] using hpart

end Opening

/-! ### Conversion to a kind -/

/-- A table that a conversion of a value to a kind takes apart. -/
def Opens (reading : Reading) (kind : Kind) (g : Guest.Value) (inner : Opening) : Prop :=
  ∃ address o, g = .table address ∧ firstOpening reading address kind = some o ∧
    Relation.ReflTransGen (Opening.Meets reading) o inner

theorem firstOpening_reordered (h : reading.Reordered other) (address : Nat) (kind : Kind) :
    firstOpening reading address kind = firstOpening other address kind := by
  cases kind with
  | any => exact congrArg some (Opening.ownOpening_reordered h address)
  | _ => rfl

/-- Only conversions that open a table look at the guest's memory. -/
theorem decide_eq_of_not_opens {kind : Kind} (hopens : ∀ inner, ¬ Opens reading kind g inner)
    (options : ConversionOptions) (other : Reading) (evidence : Evidence) :
    decide options reading kind evidence g = decide options other kind evidence g := by
  have hclosed : ∀ address, g = .table address → firstOpening reading address kind = none := by
    intro address hg
    cases hfirst : firstOpening reading address kind with
    | none => rfl
    | some o => exact absurd ⟨address, o, hg, hfirst, .refl⟩ (hopens o)
  cases g with
  | table address =>
      have hnone := hclosed address rfl
      cases kind with
      | any | list | record => cases hnone
      | _ => rfl
  | _ => cases kind <;> rfl

/-- **Conversion does not depend on the order of entries.** Whatever order the entries of each table are met in, a
conversion to a kind succeeds or fails alike. Where in every table taken apart as a record the keys have different
texts, it also gives the same value. -/
theorem order_of_entries_free (options : ConversionOptions) (evidence : Evidence) (kind : Kind) (g : Guest.Value)
    (h : reading.Reordered other) :
    let result (r : Reading) := (convert options r kind evidence g).result
    ((∃ v, result reading = .ok v) ↔ ∃ v, result other = .ok v) ∧
    ((∀ inner, Opens reading kind g inner → inner.layout = .record → DistinctTexts (reading.table inner.address)) →
      ∀ v, result reading = .ok v ↔ result other = .ok v) := by
  intro result
  by_cases hopens : ∃ inner, Opens reading kind g inner
  · obtain ⟨-, address, o, rfl, hfirst, -⟩ := hopens
    have hresult : result reading = o.contents reading (maxNesting - 1) :=
      Opening.convert_result hfirst options evidence
    have hresult' : result other = o.contents other (maxNesting - 1) :=
      Opening.convert_result (firstOpening_reordered h address kind ▸ hfirst) options evidence
    rw [hresult, hresult']
    refine ⟨⟨Opening.contents_ok_reordered h, Opening.contents_ok_reordered h.symm⟩, fun hdistinct v => ?_⟩
    have hthere : ∀ {v}, o.contents reading (maxNesting - 1) = .ok v → o.contents other (maxNesting - 1) = .ok v :=
      Opening.contents_reordered h fun inner hmet => hdistinct inner ⟨address, o, rfl, hfirst, hmet⟩
    refine ⟨hthere, fun hv => ?_⟩
    obtain ⟨w, hw⟩ := Opening.contents_ok_reordered h.symm ⟨v, hv⟩
    rwa [Except.ok.inj (hv.symm.trans (hthere hw))]
  · have hsame : result reading = result other :=
      decide_eq_of_not_opens (fun inner hinner => hopens ⟨inner, hinner⟩) options other evidence
    rw [hsame]
    exact ⟨Iff.rfl, fun _ _ => Iff.rfl⟩

/-! ### Two orders of a few entries -/

/-- A memory of two tables, without lengths. -/
def twoTables (first second : Table) (hfirst : (first.item 1).isNil = true) (hsecond : (second.item 1).isNil = true) :
    Reading where
  table address := if address = 0 then first else second
  length _ := 0
  isBorder address := by
    split
    · exact ⟨by decide, .inl rfl, .inr hfirst⟩
    · exact ⟨by decide, .inl rfl, .inr hsecond⟩

/-- Keys of three types, one of them of another table. -/
def mixed : Table :=
  ((Table.empty.set (.text "at") (.table 1)).set (.int 3) (.bool true)).set (.text "on") (.int 5)

def mixedTurned : Table :=
  ((Table.empty.set (.int 3) (.bool true)).set (.text "on") (.int 5)).set (.text "at") (.table 1)

def place : Table := (Table.empty.set (.text "b") (.int 1)).set (.text "a") (.int 2)

def placeTurned : Table := (Table.empty.set (.text "a") (.int 2)).set (.text "b") (.int 1)

/-- The index one and its text as keys, in the other order. -/
def oneTwiceTurned : Table := (Table.empty.set (.text "1") (.int 6)).set (.int 1) (.int 5)

theorem oneTwiceTurned_border : oneTwiceTurned.IsBorder 1 := ⟨by decide, .inr (by decide), .inr (by decide)⟩

theorem mixed_reordered :
    (twoTables mixed place rfl rfl).Reordered (twoTables mixedTurned placeTurned rfl rfl) where
  entries address := by
    by_cases h : address = 0
    · simp only [twoTables, if_pos h]
      exact (List.Perm.swap _ _ _).trans ((List.Perm.swap _ _ _).cons _)
    · simp only [twoTables, if_neg h]
      exact .swap _ _ _
  length _ := rfl

theorem mixed_distinct (address : Nat) : DistinctTexts ((twoTables mixed place rfl rfl).table address) := by
  by_cases h : address = 0
  · simp only [twoTables, if_pos h]
    change List.Pairwise _ [(Guest.Value.text "at", Guest.Value.table 1), (.int 3, .bool true), (.text "on", .int 5)]
    have hindex : keyText (.int 3) = .ok "3" := rfl
    simp [keyText_text, hindex]
  · simp only [twoTables, if_neg h]
    change List.Pairwise _ [(Guest.Value.text "b", Guest.Value.int 1), (.text "a", .int 2)]
    simp [keyText_text]

/-- Turned round, a record of a record stays the same, and a table of two keys with one text does not. -/
theorem mixed_order_free :
    (∃ v, (convert ⟨true, true, true⟩ (twoTables mixed place rfl rfl) .any .none (.table 0)).result = .ok v ∧
      (convert ⟨true, true, true⟩ (twoTables mixedTurned placeTurned rfl rfl) .any .none (.table 0)).result = .ok v) ∧
    (convert ⟨true, true, true⟩ (onlyTable oneTwice 1 oneTwice_border) .record .none (.table 0)).result =
      .ok (.record [("1", .int 6)]) ∧
    (convert ⟨true, true, true⟩ (onlyTable oneTwiceTurned 1 oneTwiceTurned_border) .record .none (.table 0)).result =
      .ok (.record [("1", .int 5)]) := by
  obtain ⟨-, hsame⟩ := order_of_entries_free ⟨true, true, true⟩ .none .any (.table 0) mixed_reordered
  have hv : (convert ⟨true, true, true⟩ (twoTables mixed place rfl rfl) .any .none (.table 0)).result = .ok (.record
      [("3", .bool true), ("at", .record [("a", .int 2), ("b", .int 1)]), ("on", .int 5)]) := rfl
  exact ⟨⟨_, hv, (hsame (fun inner _ _ => mixed_distinct inner.address) _).mp hv⟩, rfl, rfl⟩

end Conversion
end ScriptBridge
