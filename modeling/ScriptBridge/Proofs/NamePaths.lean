import ScriptBridge.Registry

/-! Paths of names in the guest's memory. A path leads from a table through the tables bound to its names to
a last place: the place of its last name, or the first on the way that holds no table. Binding a function to
a path writes that one place of the memory as it was; everything else it writes lies in new tables. So a
binding changes where another path leads exactly when the place it writes lies on that path. -/

namespace ScriptBridge.Guest

theorem Value.table_or_not (v : Value) : (∃ inner, v = .table inner) ∨ ∀ inner, v ≠ .table inner := by
  cases v with
  | table inner => exact .inl ⟨inner, rfl⟩
  | _ => exact .inr fun _ h => nomatch h

namespace Table

theorem find_store {key key' value : Value} {entries : List (Value × Value)} (hvalue : value.isNil = false) :
    find key (store key' value entries) = if key' = key then value else find key entries := by
  induction entries with
  | nil => rw [store, if_neg (Bool.eq_false_iff.mp hvalue), find, find, find]
  | cons first rest ih =>
      rw [store]
      split
      · rename_i hfirst
        rw [if_neg (Bool.eq_false_iff.mp hvalue), find, find, hfirst]
        split <;> rfl
      · rename_i hfirst
        rw [find, ih, find]
        split
        · rename_i hkey
          rw [if_neg fun h => hfirst (hkey.trans h.symm)]
        · rfl

theorem get_set_text {t : Table} {name other : String} {value : Value} (hvalue : value.isNil = false) :
    (t.set (.text name) value).get (.text other) = if name = other then value else t.get (.text other) := by
  refine (find_store hvalue).trans ?_
  split
  · rename_i heq
    rw [if_pos (Value.text_inj heq)]
  · rename_i hne
    rw [if_neg fun h => hne (congrArg Value.text h)]
    rfl

end Table

namespace State

/-- What a table holds under a name. -/
def named (s : State) (address : Nat) (name : String) : Value := s.rawGet address (.text name)

/-- A name in a table. -/
abbrev Place := Nat × String

/-- The places a path leads through, up to the first that holds no table. -/
def places (s : State) (address : Nat) : List String → List Place
  | [] => []
  | name :: rest => (address, name) :: match s.named address name with
    | .table inner => s.places inner rest
    | _ => []

/-- The last place a path leads to. -/
def lastPlace (s : State) (address : Nat) : List String → Place
  | [] => (address, "")
  | [name] => (address, name)
  | name :: next :: rest => match s.named address name with
    | .table inner => s.lastPlace inner (next :: rest)
    | _ => (address, name)

/-- A path comes to its last place once. -/
def Lands (s : State) (path : List String) : Prop :=
  s.lastPlace globals path ∉ (s.places globals path).dropLast

/-- A new table under a name. -/
def nest (s : State) (address : Nat) (name : String) : State :=
  (s.newTable .empty).2.rawSet address (.text name) (.table s.tables.size)

/-- A function bound to a path below a table. -/
def bindBelow (s : State) (address : Nat) (f : Function) : List String → State
  | [] => s
  | [name] => s.rawSet address (.text name) (.function f)
  | name :: next :: rest => match s.named address name with
    | .table inner => s.bindBelow inner f (next :: rest)
    | _ => (s.nest address name).bindBelow s.tables.size f (next :: rest)

/-- No name leads to a table that is yet to be made. -/
structure Closed (s : State) : Prop where
  globals_lt : globals < s.tables.size
  named_lt : ∀ {address name inner}, s.named address name = .table inner → inner < s.tables.size

variable {s s' s'' : State} {address inner bound first : Nat} {name : String} {path : List String} {v : Value}
  {f : Function} {place : Place}

/-! ### Writing one place -/

theorem table_setTable {t : Table} {other : Nat} (h : address < s.tables.size) :
    (s.setTable address t).table other = if other = address then t else s.table other := by
  change (s.tables.setIfInBounds address t)[other]?.getD .empty = _
  rw [Array.getElem?_setIfInBounds]
  split
  · rename_i heq
    subst heq
    rw [if_pos rfl]
    rfl
  · rename_i hne
    rw [if_neg (Ne.symm hne)]
    rfl

theorem named_rawSet (name : String) (h : address < s.tables.size) (hv : v.isNil = false) (other : Place) :
    (s.rawSet address (.text name) v).named other.1 other.2 =
      if other = (address, name) then v else s.named other.1 other.2 := by
  obtain ⟨otherAddress, otherName⟩ := other
  change ((s.setTable address _).table otherAddress).get _ = _
  rw [table_setTable h]
  split
  · rename_i heq
    subst heq
    rw [Table.get_set_text hv]
    simp only [Prod.mk.injEq, true_and, eq_comm]
    rfl
  · rename_i hne
    rw [if_neg fun heq => hne (Prod.mk.inj heq).1]
    rfl

theorem size_rawSet (s : State) (address : Nat) (key v : Value) :
    (s.rawSet address key v).tables.size = s.tables.size := Array.size_setIfInBounds ..

theorem named_newTable (s : State) (address : Nat) (name : String) :
    (s.newTable .empty).2.named address name = s.named address name := by
  change ((s.tables.push .empty)[address]?.getD .empty).get _ = (s.tables[address]?.getD .empty).get _
  rw [Array.getElem?_push]
  split
  · rename_i heq
    rw [heq, Array.getElem?_eq_none (Nat.le_refl _)]
    rfl
  · rfl

theorem named_of_size_le (h : s.tables.size ≤ address) (name : String) : s.named address name = .nil := by
  change (s.tables[address]?.getD .empty).get _ = _
  rw [Array.getElem?_eq_none h]
  rfl

theorem lt_of_named (h : s.named address name = .table inner) : address < s.tables.size := by
  refine Nat.not_le.mp fun hge => ?_
  rw [named_of_size_le hge] at h
  cases h

theorem size_nest (s : State) (address : Nat) (name : String) :
    (s.nest address name).tables.size = s.tables.size + 1 := by
  rw [nest, size_rawSet]
  exact Array.size_push _

theorem lt_size_nest (s : State) (address : Nat) (name : String) :
    s.tables.size < (s.nest address name).tables.size := by
  rw [size_nest]
  exact Nat.lt_succ_self _

theorem named_nest (h : address < s.tables.size) (other : Place) :
    (s.nest address name).named other.1 other.2 =
      if other = (address, name) then .table s.tables.size else s.named other.1 other.2 := by
  have hsize : address < (s.newTable .empty).2.tables.size := by
    change address < (s.tables.push .empty).size
    rw [Array.size_push]
    exact Nat.lt_succ_of_lt h
  rw [nest, named_rawSet name hsize rfl, named_newTable]

theorem Closed.nest (hs : s.Closed) (name : String) (h : address < s.tables.size) : (s.nest address name).Closed where
  globals_lt := by
    rw [size_nest]
    exact Nat.lt_succ_of_lt hs.globals_lt
  named_lt {otherAddress otherName inner} hinner := by
    rw [size_nest]
    rw [named_nest h (otherAddress, otherName)] at hinner
    split at hinner
    · obtain rfl := Value.table.inj hinner
      exact Nat.lt_succ_self _
    · exact Nat.lt_succ_of_lt (hs.named_lt hinner)

theorem Closed.rawSet (hs : s.Closed) (h : address < s.tables.size) (hv : v.isNil = false)
    (hinner : ∀ inner, v = .table inner → inner < s.tables.size) :
    (s.rawSet address (.text name) v).Closed where
  globals_lt := by
    rw [size_rawSet]
    exact hs.globals_lt
  named_lt {otherAddress otherName inner} hnamed := by
    rw [size_rawSet]
    rw [named_rawSet name h hv (otherAddress, otherName)] at hnamed
    split at hnamed
    · exact hinner inner hnamed
    · exact hs.named_lt hnamed

/-! ### Binding a function -/

theorem tableAlong_rawSet (s : State) (address : Nat) (f : Function) (name : String) (rest : List String) :
    let (inner, s') := s.tableAlong address (name :: rest).dropLast
    s'.rawSet inner (.text ((name :: rest).getLast?.getD "")) (.function f) =
      s.bindBelow address f (name :: rest) := by
  induction rest generalizing s address name with
  | nil => rfl
  | cons next rest ih =>
      have hnamed : s.rawGet address (.text name) = s.named address name := rfl
      rw [bindBelow, List.dropLast_cons_cons, tableAlong, List.getLast?_cons_cons, hnamed]
      cases s.named address name with
      | table inner => exact ih s inner next
      | _ => exact ih (s.nest address name) s.tables.size next

theorem bindAt_eq (n : Nat) (h : path ≠ []) (s : State) :
    Registry.bindAt path (.function (.published n)) s = s.bindBelow globals (.published n) path := by
  obtain ⟨name, rest, rfl⟩ := List.exists_cons_of_ne_nil h
  exact tableAlong_rawSet s globals (.published n) name rest

theorem bindBelow_of_table (h : s.named address name = .table inner) {next : String} {rest : List String} :
    s.bindBelow address f (name :: next :: rest) = s.bindBelow inner f (next :: rest) := by
  rw [bindBelow, h]

theorem bindBelow_of_not_table (h : ∀ inner, s.named address name ≠ .table inner) {next : String}
    {rest : List String} :
    s.bindBelow address f (name :: next :: rest) =
      (s.nest address name).bindBelow s.tables.size f (next :: rest) := by
  rw [bindBelow]
  split
  · rename_i inner hinner
    exact absurd hinner (h inner)
  · rfl

/-- What bindings numbered from `first` on can leave behind in a memory that had `bound` tables before. -/
inductive IsNew (first bound : Nat) : Value → Prop where
  | nil : IsNew first bound .nil
  | function {n : Nat} (h : first ≤ n) : IsNew first bound (.function (.published n))
  | table {inner : Nat} (h : bound ≤ inner) : IsNew first bound (.table inner)

theorem IsNew.mono {first' bound' : Nat} (h : IsNew first bound v) (hfirst : first' ≤ first)
    (hbound : bound' ≤ bound) : IsNew first' bound' v := by
  cases h with
  | nil => exact .nil
  | function h => exact .function (Nat.le_trans hfirst h)
  | table h => exact .table (Nat.le_trans hbound h)

/-- One memory after another with a function bound to a path that ends in a place. -/
structure Wrote (s s' : State) (n : Nat) (place : Place) : Prop where
  size_le : s.tables.size ≤ s'.tables.size
  kept : ∀ other : Place, other.1 < s.tables.size → other ≠ place →
    s'.named other.1 other.2 = s.named other.1 other.2
  fresh : ∀ other : Place, s.tables.size ≤ other.1 → IsNew n s.tables.size (s'.named other.1 other.2)
  /-- A table is only replaced at the end of the path. -/
  written : s'.named place.1 place.2 = .function (.published n) ∨
    (∀ inner, s.named place.1 place.2 ≠ .table inner) ∧
      ∃ inner, s.tables.size ≤ inner ∧ s'.named place.1 place.2 = .table inner

theorem Wrote.isNew {n : Nat} (h : Wrote s s' n place) : IsNew n s.tables.size (s'.named place.1 place.2) := by
  rcases h.written with hwritten | ⟨-, inner, hinner, hwritten⟩
  · rw [hwritten]
    exact .function (Nat.le_refl n)
  · rw [hwritten]
    exact .table hinner

theorem named_nest_new (ha : address < s.tables.size) (other : String) :
    (s.nest address name).named s.tables.size other = .nil := by
  rw [named_nest ha (s.tables.size, other), named_of_size_le (Nat.le_refl _) other, if_neg]
  intro heq
  exact Nat.ne_of_gt ha (Prod.mk.inj heq).1

theorem lastPlace_nest (ha : address < s.tables.size) (next : String) (rest : List String) :
    (s.nest address name).lastPlace s.tables.size (next :: rest) = (s.tables.size, next) := by
  cases rest with
  | nil => rfl
  | cons next' rest => rw [lastPlace, named_nest_new ha next]

theorem lastPlace_of_table (h : s.named address name = .table inner) (next : String) (rest : List String) :
    s.lastPlace address (name :: next :: rest) = s.lastPlace inner (next :: rest) := by
  rw [lastPlace, h]

theorem lastPlace_of_not_table (h : ∀ inner, s.named address name ≠ .table inner) (rest : List String) :
    s.lastPlace address (name :: rest) = (address, name) := by
  cases rest with
  | nil => rfl
  | cons next rest =>
      rw [lastPlace]
      split
      · rename_i inner hinner
        exact absurd hinner (h inner)
      · rfl

/-- Making a table on the way and binding in it writes the place of the table. -/
theorem Wrote.of_nest {n : Nat} {next : String} (ha : address < s.tables.size)
    (hplace : ∀ inner, s.named address name ≠ .table inner)
    (h : Wrote (s.nest address name) s' n (s.tables.size, next)) : Wrote s s' n (address, name) := by
  have hsize := size_nest s address name
  have hkept : ∀ other : Place, other.1 < s.tables.size →
      s'.named other.1 other.2 = (s.nest address name).named other.1 other.2 := by
    intro other hother
    refine h.kept other (by omega) fun heq => ?_
    rw [heq] at hother
    exact Nat.lt_irrefl _ hother
  refine ⟨by have := h.size_le; omega, fun other hother hne => ?_, fun other hother => ?_, ?_⟩
  · rw [hkept other hother, named_nest ha, if_neg hne]
  · by_cases hnext : other = (s.tables.size, next)
    · rw [hnext]
      exact h.isNew.mono (Nat.le_refl n) (by omega)
    · rcases Nat.eq_or_lt_of_le hother with heq | hlt
      · rw [h.kept other (by omega) hnext, ← heq, named_nest_new ha]
        exact .nil
      · exact (h.fresh other (by omega)).mono (Nat.le_refl n) (by omega)
  · refine .inr ⟨hplace, s.tables.size, Nat.le_refl _, ?_⟩
    rw [hkept (address, name) ha, named_nest ha, if_pos rfl]

theorem wrote_bindBelow (hs : s.Closed) (ha : address < s.tables.size) (n : Nat) (name : String)
    (rest : List String) :
    Wrote s (s.bindBelow address (.published n) (name :: rest)) n (s.lastPlace address (name :: rest)) := by
  induction rest generalizing s address name with
  | nil =>
      have hnamed := named_rawSet name (v := .function (.published n)) ha rfl
      refine ⟨Nat.le_of_eq (size_rawSet ..).symm, fun other _ hne => ?_, fun other hother => ?_, .inl ?_⟩
      · exact (hnamed other).trans (if_neg hne)
      · have hne : other ≠ (address, name) := fun heq => by rw [heq] at hother; omega
        rw [bindBelow, hnamed other, if_neg hne, named_of_size_le hother]
        exact .nil
      · exact (hnamed (address, name)).trans (if_pos rfl)
  | cons next rest ih =>
      rcases (s.named address name).table_or_not with ⟨inner, hinner⟩ | hplace
      · rw [bindBelow_of_table hinner, lastPlace_of_table hinner]
        exact ih hs (hs.named_lt hinner) next
      · rw [bindBelow_of_not_table hplace, lastPlace_of_not_table hplace]
        have hwrote := ih (hs.nest name ha) (lt_size_nest s address name) next
        rw [lastPlace_nest ha] at hwrote
        exact hwrote.of_nest ha hplace

theorem Closed.bindBelow (hs : s.Closed) (ha : address < s.tables.size) (n : Nat) (name : String)
    (rest : List String) : (s.bindBelow address (.published n) (name :: rest)).Closed := by
  induction rest generalizing s address name with
  | nil => exact hs.rawSet ha rfl fun _ h => nomatch h
  | cons next rest ih =>
      rcases (s.named address name).table_or_not with ⟨inner, hinner⟩ | hplace
      · rw [bindBelow_of_table hinner]
        exact ih hs (hs.named_lt hinner) next
      · rw [bindBelow_of_not_table hplace]
        exact ih (hs.nest name ha) (lt_size_nest s address name) next

/-! ### Where paths lead -/

theorem follow_cons (s : State) (address : Nat) (name : String) (rest : List String) :
    s.follow (.table address) (name :: rest) = s.follow (s.named address name) rest := rfl

theorem follow_of_not_table (h : ∀ inner, v ≠ .table inner) (s : State) (name : String) (rest : List String) :
    s.follow v (name :: rest) = .nil := by
  cases v with
  | table inner => exact absurd rfl (h inner)
  | _ => rfl

theorem places_of_not_table (h : ∀ inner, s.named address name ≠ .table inner) (rest : List String) :
    s.places address (name :: rest) = [(address, name)] := by
  rw [places]
  split
  · rename_i inner hinner
    exact absurd hinner (h inner)
  · rfl

theorem places_of_table (h : s.named address name = .table inner) (rest : List String) :
    s.places address (name :: rest) = (address, name) :: s.places inner rest := by
  rw [places, h]

theorem dropLast_places (h : s.named address name = .table inner) (next : String) (rest : List String) :
    (s.places address (name :: next :: rest)).dropLast =
      (address, name) :: (s.places inner (next :: rest)).dropLast := by
  rw [places_of_table h, places, List.dropLast_cons_cons]

theorem follow_eq_of_not_table (h : ∀ inner, v ≠ .table inner) (s s' : State) (path : List String) :
    s'.follow v path = s.follow v path := by
  cases path with
  | nil => rfl
  | cons name rest => rw [follow_of_not_table h, follow_of_not_table h]

/-- From what is new a path leads to nothing else. -/
theorem IsNew.follow (h : IsNew first bound v)
    (hfresh : ∀ other : Place, bound ≤ other.1 → IsNew first bound (s.named other.1 other.2))
    (path : List String) : IsNew first bound (s.follow v path) := by
  induction path generalizing v with
  | nil => exact h
  | cons name rest ih =>
      cases h with
      | nil => exact .nil
      | function => exact .nil
      | table hinner => exact ih (hfresh (_, name) hinner)

/-- A binding changes where a path leads just when the path goes through the place it writes. -/
theorem Wrote.follow {n : Nat} (h : Wrote s s' n place) (hs : s.Closed) (ha : address < s.tables.size)
    (path : List String) :
    place ∉ s.places address path ∧ s'.follow (.table address) path = s.follow (.table address) path ∨
      place ∈ s.places address path ∧ IsNew n s.tables.size (s'.follow (.table address) path) := by
  induction path generalizing address with
  | nil => exact .inl ⟨List.not_mem_nil, rfl⟩
  | cons name rest ih =>
      rw [follow_cons, follow_cons]
      by_cases hplace : place = (address, name)
      · refine .inr ⟨by rw [hplace, places]; exact List.mem_cons_self, ?_⟩
        have hnew := h.isNew
        rw [hplace] at hnew
        exact hnew.follow h.fresh rest
      · rw [h.kept (address, name) ha (Ne.symm hplace)]
        rcases (s.named address name).table_or_not with ⟨inner, hinner⟩ | hnot
        · rw [hinner, places_of_table hinner, List.mem_cons, or_iff_right hplace]
          exact ih (hs.named_lt hinner)
        · rw [places_of_not_table hnot, List.mem_singleton]
          exact .inl ⟨hplace, follow_eq_of_not_table hnot s s' rest⟩

/-- Whether a function is reached by the path it is bound to: unless the path comes through the place of its
last name before. -/
theorem follow_bindBelow_iff (hs : s.Closed) (ha : address < s.tables.size) (n : Nat) (name : String)
    (rest : List String) :
    (s.bindBelow address (.published n) (name :: rest)).follow (.table address) (name :: rest) =
        .function (.published n) ↔
      s.lastPlace address (name :: rest) ∉ (s.places address (name :: rest)).dropLast := by
  induction rest generalizing s address name with
  | nil =>
      have hnamed := named_rawSet name (v := .function (.published n)) ha rfl (address, name)
      have hplaces : (s.places address [name]).dropLast = [] := by
        rw [places]
        split <;> rfl
      rw [hplaces]
      exact iff_of_true (hnamed.trans (if_pos rfl)) List.not_mem_nil
  | cons next rest ih =>
      have hwrote := wrote_bindBelow hs ha n name (next :: rest)
      rw [follow_cons]
      rcases (s.named address name).table_or_not with ⟨inner, hinner⟩ | hnot
      · have hlast := lastPlace_of_table hinner next rest
        rw [dropLast_places hinner, List.mem_cons, not_or]
        by_cases hself : s.lastPlace address (name :: next :: rest) = (address, name)
        · -- the function takes the place of a table that the path needs
          have hwritten := hwrote.written
          rw [hself] at hwritten
          have hfunction := hwritten.resolve_right fun h => h.1 inner hinner
          have hend : ∀ inner, Value.function (.published n) ≠ .table inner := fun _ h => nomatch h
          rw [hfunction, follow_of_not_table hend]
          exact iff_of_false (fun h => nomatch h) fun h => h.1 hself
        · rw [hwrote.kept (address, name) ha (Ne.symm hself), hinner, bindBelow_of_table hinner, hlast,
            ih hs (hs.named_lt hinner) next]
          exact ⟨fun h => ⟨hlast ▸ hself, h⟩, And.right⟩
      · have hsize := lt_size_nest s address name
        have hinside := wrote_bindBelow (hs.nest name ha) hsize n next rest
        rw [lastPlace_nest ha] at hinside
        have hlink : ((s.nest address name).bindBelow s.tables.size (.published n) (next :: rest)).named address
            name = .table s.tables.size := by
          rw [hinside.kept (address, name) (Nat.lt_trans ha hsize) (fun h => Nat.ne_of_lt ha (Prod.mk.inj h).1),
            named_nest ha, if_pos rfl]
        have hempty : ∀ inner, (s.nest address name).named s.tables.size next ≠ .table inner := fun inner h => by
          rw [named_nest_new ha] at h
          cases h
        rw [bindBelow_of_not_table hnot, hlink, ih (hs.nest name ha) hsize next, places_of_not_table hempty,
          places_of_not_table hnot]
        exact iff_of_true List.not_mem_nil List.not_mem_nil

/-! ### Many bindings -/

/-- A later memory, in which bindings numbered from `first` on were made. -/
structure Grown (first : Nat) (s s' : State) : Prop where
  size_le : s.tables.size ≤ s'.tables.size
  kept_or_new : ∀ other : Place,
    other.1 < s.tables.size ∧ s'.named other.1 other.2 = s.named other.1 other.2 ∨
      IsNew first s.tables.size (s'.named other.1 other.2)

theorem Grown.refl (first : Nat) (s : State) : Grown first s s := by
  refine ⟨Nat.le_refl _, fun other => ?_⟩
  rcases Nat.lt_or_ge other.1 s.tables.size with hlt | hge
  · exact .inl ⟨hlt, rfl⟩
  · rw [named_of_size_le hge]
    exact .inr .nil

theorem Grown.wrote {n : Nat} (h : Grown first s s') (hwrote : Wrote s' s'' n place) (hn : first ≤ n) :
    Grown first s s'' := by
  refine ⟨Nat.le_trans h.size_le hwrote.size_le, fun other => ?_⟩
  rcases Nat.lt_or_ge other.1 s'.tables.size with hlt | hge
  · by_cases hplace : other = place
    · rw [hplace]
      exact .inr (hwrote.isNew.mono hn h.size_le)
    · rw [hwrote.kept other hlt hplace]
      exact h.kept_or_new other
  · exact .inr ((hwrote.fresh other hge).mono hn h.size_le)

/-- Later bindings leave what a path led to or put something new in its stead: what is lost stays lost. -/
theorem Grown.follow (h : Grown first s s') (hs : s.Closed) (ha : address < s.tables.size) (path : List String) :
    s'.follow (.table address) path = s.follow (.table address) path ∨
      IsNew first s.tables.size (s'.follow (.table address) path) := by
  have hfresh : ∀ other : Place, s.tables.size ≤ other.1 →
      IsNew first s.tables.size (s'.named other.1 other.2) := fun other hother =>
    (h.kept_or_new other).resolve_left fun hkept => Nat.not_lt.mpr hother hkept.1
  induction path generalizing address with
  | nil => exact .inl rfl
  | cons name rest ih =>
      rw [follow_cons, follow_cons]
      rcases h.kept_or_new (address, name) with ⟨-, hkept⟩ | hnew
      · rw [hkept]
        rcases (s.named address name).table_or_not with ⟨inner, hinner⟩ | hnot
        · rw [hinner]
          exact ih (hs.named_lt hinner)
        · exact .inl (follow_eq_of_not_table hnot s s' rest)
      · exact .inr (hnew.follow hfresh rest)

/-! ### Overlapping paths -/

/-- Two paths of which one begins with the other. -/
def Overlap (p q : List String) : Prop := p <+: q ∨ q <+: p

/-- A path to a function goes through the last place of every path it overlaps with. -/
theorem lastPlace_mem_places {q : List String} (h : Overlap path q) (hpath : path ≠ [])
    (hq : s.follow (.table address) q = .function f) : s.lastPlace address path ∈ s.places address q := by
  induction q generalizing address path with
  | nil => cases hq
  | cons name rest ih =>
      obtain ⟨first, more, rfl⟩ := List.exists_cons_of_ne_nil hpath
      have hname : first = name := by
        rcases h with h | h
        · exact (List.cons_prefix_cons.mp h).1
        · exact (List.cons_prefix_cons.mp h).1.symm
      have hmore : Overlap more rest := by
        rcases h with h | h
        · exact .inl (List.cons_prefix_cons.mp h).2
        · exact .inr (List.cons_prefix_cons.mp h).2
      subst hname
      rcases (s.named address first).table_or_not with ⟨inner, hinner⟩ | hnot
      · rw [places_of_table hinner]
        cases more with
        | nil => exact List.mem_cons_self
        | cons next more =>
            rw [lastPlace_of_table hinner]
            rw [follow_cons, hinner] at hq
            exact List.mem_cons_of_mem _ (ih hmore (List.cons_ne_nil _ _) hq)
      · rw [lastPlace_of_not_table hnot, places_of_not_table hnot]
        exact List.mem_singleton.mpr rfl

end State
end ScriptBridge.Guest
