import ScriptBridge.Guest.Value

/-! Guest tables. A table keeps its entries in the order they were first made; no two entries have one key
and no entry holds nil. Its length is a border: an index that holds something, or zero, with nothing at the
next index. -/

namespace ScriptBridge.Guest

namespace Table

/-- The value under a key among entries, nil when there is none. -/
def find (key : Value) : List (Value × Value) → Value
  | [] => .nil
  | (k, v) :: rest => if k = key then v else find key rest

/-- Puts a value under a key; a key keeps its place, and nil takes the entry away. -/
def store (key value : Value) : List (Value × Value) → List (Value × Value)
  | [] => if value.isNil then [] else [(key, value)]
  | (k, v) :: rest =>
    if k = key then (if value.isNil then rest else (k, value) :: rest)
    else (k, v) :: store key value rest

theorem mem_of_find {key : Value} {entries : List (Value × Value)} (h : (find key entries).isNil = false) :
    key ∈ entries.map Prod.fst := by
  induction entries with
  | nil => cases h
  | cons entry rest ih =>
      rw [find] at h
      split at h
      · rename_i hkey
        exact hkey ▸ List.mem_cons_self
      · exact List.mem_cons_of_mem _ (ih h)

theorem mem_store {key value : Value} {entries : List (Value × Value)} {entry : Value × Value}
    (h : entry ∈ store key value entries) :
    entry ∈ entries ∨ entry.1 = key ∧ entry.2 = value ∧ value.isNil = false := by
  induction entries with
  | nil =>
      rw [store] at h
      split at h
      · cases h
      · rename_i hvalue
        rw [List.mem_singleton.mp h]
        exact .inr ⟨rfl, rfl, Bool.eq_false_iff.mpr hvalue⟩
  | cons first rest ih =>
      rw [store] at h
      split at h
      · rename_i hkey
        split at h
        · exact .inl (List.mem_cons_of_mem _ h)
        · rename_i hvalue
          rcases List.mem_cons.mp h with rfl | hrest
          · exact .inr ⟨hkey, rfl, Bool.eq_false_iff.mpr hvalue⟩
          · exact .inl (List.mem_cons_of_mem _ hrest)
      · rcases List.mem_cons.mp h with rfl | hrest
        · exact .inl List.mem_cons_self
        · exact (ih hrest).imp_left (List.mem_cons_of_mem _)

theorem store_keys_nodup {key value : Value} {entries : List (Value × Value)}
    (h : (entries.map Prod.fst).Nodup) : ((store key value entries).map Prod.fst).Nodup := by
  induction entries with
  | nil =>
      rw [store]
      split <;> simp
  | cons first rest ih =>
      obtain ⟨hfirst, hrest⟩ := List.nodup_cons.mp h
      rw [store]
      split
      · split
        · exact hrest
        · exact h
      · rename_i hkey
        refine List.nodup_cons.mpr ⟨fun hmem => ?_, ih hrest⟩
        obtain ⟨entry, hentry, hsame⟩ := List.mem_map.mp hmem
        rcases mem_store hentry with hold | ⟨hnew, -, -⟩
        · exact hfirst (hsame ▸ List.mem_map_of_mem hold)
        · exact hkey (hsame.symm.trans hnew)

end Table

structure Table where
  entries : List (Value × Value)
  /-- Address of the table consulted for missing behaviour. -/
  metatable : Option Nat
  keys_nodup : (entries.map Prod.fst).Nodup
  not_nil : ∀ entry ∈ entries, entry.2.isNil = false

namespace Table

def empty : Table := ⟨[], none, List.nodup_nil, fun _ h => absurd h List.not_mem_nil⟩

def get (t : Table) (key : Value) : Value := find key.asKey t.entries

def set (t : Table) (key value : Value) : Table where
  entries := store key.asKey value t.entries
  metatable := t.metatable
  keys_nodup := store_keys_nodup t.keys_nodup
  not_nil entry h := by
    rcases mem_store h with hold | ⟨-, hnew, hvalue⟩
    · exact t.not_nil entry hold
    · rwa [hnew]

/-! ### Indices -/

/-- The key of a positive index. -/
def index (i : Nat) : Value := .int (Int64.ofNat i)

/-- The greatest integer that serves as an index. -/
def greatestIndex : Nat := Nat.pow 2 63 - 1

/-- The value at a positive index. -/
def item (t : Table) (i : Nat) : Value := find (index i) t.entries

/-- An index that holds something and a later one that does not, or the greatest there is. The index is doubled, at
most so many times, until its double holds nothing. -/
def gapAfter (t : Table) (i : Nat) : Nat → Nat × Nat
  | 0 => (i, greatestIndex)
  | doublings + 1 => if (t.item (2 * i)).isNil then (i, 2 * i) else t.gapAfter (2 * i) doublings

/-- Halves the way from an index that holds something to one that does not, so many times over. -/
def bisect (t : Table) : Nat → Nat → Nat → Nat
  | 0, low, _ => low
  | halvings + 1, low, high =>
    if high - low ≤ 1 then low
    else
      let middle := (low + high) / 2
      if (t.item middle).isNil then t.bisect halvings low middle else t.bisect halvings middle high

/-- The length of a table: an index with a gap after it, found without a look at all the others. -/
def border (t : Table) : Nat :=
  if (t.item 1).isNil then 0
  else
    let (low, high) := t.gapAfter 1 62
    if (t.item high).isNil then t.bisect 63 low high else high

/-- The values at the indices from `start` on, up to the first gap, at most `limit` of them. -/
def sequenceFrom (t : Table) (start : Nat) : Nat → List Value
  | 0 => []
  | limit + 1 =>
    let value := t.item start
    if value.isNil then [] else value :: t.sequenceFrom (start + 1) limit

/-- The values at 1, 2, … up to the first gap. -/
def sequence (t : Table) : List Value := t.sequenceFrom 1 (min t.entries.length greatestIndex)

/-- What the guest language promises of a table's length: a gap follows it, and none comes right before. A
table with gaps has several such indices. -/
structure IsBorder (t : Table) (n : Nat) : Prop where
  le_greatest : n ≤ greatestIndex
  last : n = 0 ∨ (t.item n).isNil = false
  next : n = greatestIndex ∨ (t.item (n + 1)).isNil = true

theorem index_inj {i j : Nat} (hi : i ≤ greatestIndex) (hj : j ≤ greatestIndex) (h : index i = index j) :
    i = j := by
  have hgreatest : greatestIndex = 2 ^ 63 - 1 := rfl
  have hint : (Int64.ofNat i).toInt = (Int64.ofNat j).toInt := congrArg Int64.toInt (Value.int.inj h)
  rw [Int64.toInt_ofNat_of_lt (by omega), Int64.toInt_ofNat_of_lt (by omega)] at hint
  exact Int.ofNat.inj hint

theorem indices_nodup {n : Nat} (h : n ≤ greatestIndex) : ((List.range' 1 n).map index).Nodup := by
  refine List.pairwise_map.mpr (List.Pairwise.imp_of_mem ?_ List.nodup_range')
  intro i j hi hj hne heq
  rw [List.mem_range'_1] at hi hj
  exact hne (index_inj (by omega) (by omega) heq)

theorem gapAfter_spec (t : Table) (i doublings : Nat) (hpos : 0 < i)
    (hroom : i * Nat.pow 2 doublings < greatestIndex) (hitem : (t.item i).isNil = false) :
    (t.item (t.gapAfter i doublings).1).isNil = false ∧ (t.gapAfter i doublings).1 < (t.gapAfter i doublings).2 ∧
      (t.gapAfter i doublings).2 ≤ greatestIndex ∧
      ((t.item (t.gapAfter i doublings).2).isNil = true ∨ (t.gapAfter i doublings).2 = greatestIndex) := by
  induction doublings generalizing i with
  | zero => exact ⟨hitem, show i < greatestIndex from Nat.mul_one i ▸ hroom, Nat.le_refl _, .inr rfl⟩
  | succ doublings ih =>
      have hdouble : 2 * i * Nat.pow 2 doublings < greatestIndex := by
        change i * (Nat.pow 2 doublings * 2) < _ at hroom
        rwa [Nat.mul_comm (Nat.pow 2 doublings), ← Nat.mul_assoc, Nat.mul_comm i] at hroom
      rw [gapAfter]
      split
      · rename_i hgap
        have hle : 2 * i ≤ 2 * i * Nat.pow 2 doublings := Nat.le_mul_of_pos_right _ (Nat.two_pow_pos _)
        exact ⟨hitem, show i < 2 * i by omega, show 2 * i ≤ greatestIndex by omega, .inl hgap⟩
      · rename_i hmore
        exact ih (2 * i) (by omega) hdouble (Bool.eq_false_iff.mpr hmore)

theorem bisect_spec (t : Table) (halvings low high : Nat) (hlt : low < high)
    (hnear : high - low ≤ Nat.pow 2 halvings) (hlow : (t.item low).isNil = false) (hhigh : (t.item high).isNil = true) :
    t.bisect halvings low high < high ∧ (t.item (t.bisect halvings low high)).isNil = false ∧
      (t.item (t.bisect halvings low high + 1)).isNil = true := by
  induction halvings generalizing low high with
  | zero =>
      change high - low ≤ 1 at hnear
      obtain rfl : high = low + 1 := by omega
      exact ⟨hlt, hlow, hhigh⟩
  | succ halvings ih =>
      change high - low ≤ Nat.pow 2 halvings * 2 at hnear
      rw [bisect]
      split
      · obtain rfl : high = low + 1 := by omega
        exact ⟨hlt, hlow, hhigh⟩
      · dsimp only
        split
        · rename_i hgap
          obtain ⟨hend, hspec⟩ := ih low ((low + high) / 2) (by omega) (by omega) hlow hgap
          exact ⟨by omega, hspec⟩
        · rename_i hitem
          exact ih ((low + high) / 2) high (by omega) (by omega) (Bool.eq_false_iff.mpr hitem) hhigh

theorem isBorder_border (t : Table) : t.IsBorder t.border := by
  have hgreatest : greatestIndex = Nat.pow 2 63 - 1 := rfl
  rw [border]
  split
  · rename_i hgap
    exact ⟨Nat.zero_le _, .inl rfl, .inr hgap⟩
  · rename_i hitem
    obtain ⟨hlow, hlt, hle, hhigh⟩ :=
      t.gapAfter_spec 1 62 Nat.one_pos (by decide) (Bool.eq_false_iff.mpr hitem)
    dsimp only
    split
    · rename_i hgap
      obtain ⟨hend, hlast, hnext⟩ := t.bisect_spec 63 _ _ hlt (by omega) hlow hgap
      exact ⟨by omega, .inr hlast, .inr hnext⟩
    · rename_i hfull
      exact ⟨hle, .inr (Bool.eq_false_iff.mpr hfull), .inl (hhigh.resolve_left hfull)⟩

end Table
end ScriptBridge.Guest
