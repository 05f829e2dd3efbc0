import ScriptBridge.Proofs.NamePaths

/-! Tables made by bindings form trees. Each of them is bound to one name in one table, so below names that
led to no table before the bindings a place is reached by one path only. Bindings to such paths disturb one
another only when one path begins with the other. -/

namespace ScriptBridge.Guest.State

/-- A path leads through tables to the place of its last name. -/
inductive Leads (s : State) : Nat → List String → Place → Prop where
  | here (address : Nat) (name : String) : Leads s address [name] (address, name)
  | through {address inner : Nat} {name : String} {path : List String} {place : Place}
      (hinner : s.named address name = .table inner) (hpath : Leads s inner path place) :
      Leads s address (name :: path) place

/-- A place that held no table before the bindings: a name among the globals, or one in a table made since. -/
def Own (base : State) (place : Place) : Prop :=
  base.tables.size ≤ place.1 ∨ place.1 = globals ∧ ∀ inner, base.named globals place.2 ≠ .table inner

/-- A path below the globals whose first name led to no table. -/
def Free (base : State) (path : List String) : Prop :=
  ∀ name ∈ path.head?, ∀ inner, base.named globals name ≠ .table inner

/-- Tables made since labelled with the paths they were made for: every link from a place of one's own agrees
with the labels. -/
structure Chart (base s : State) (label : Nat → List String) : Prop where
  size_le : base.tables.size ≤ s.tables.size
  root : label globals = []
  link : ∀ {place : Place} {inner}, Own base place → s.named place.1 place.2 = .table inner →
    base.tables.size ≤ inner ∧ label inner = label place.1 ++ [place.2]

variable {base s : State} {address n : Nat} {name : String} {path q : List String} {place : Place} {f : Function}
  {label : Nat → List String}

/-! ### Places as ends of paths -/

theorem Leads.follow (h : Leads s address path place) (rest : List String) :
    s.follow (.table address) (path ++ rest) = s.follow (s.named place.1 place.2) rest := by
  induction h with
  | here => rfl
  | through hinner _ ih => rw [List.cons_append, follow_cons, hinner, ih]

theorem leads_of_mem_places (h : place ∈ s.places address path) :
    ∃ r rest, path = r ++ rest ∧ Leads s address r place := by
  induction path generalizing address with
  | nil => cases h
  | cons name rest ih =>
      rw [places] at h
      rcases List.mem_cons.mp h with rfl | hrest
      · exact ⟨[name], rest, rfl, .here address name⟩
      · split at hrest
        · rename_i inner hinner
          obtain ⟨r, more, rfl, hleads⟩ := ih hrest
          exact ⟨name :: r, more, rfl, .through hinner hleads⟩
        · cases hrest

/-- A place before the last one holds the table the path goes on in. -/
theorem leads_of_mem_dropLast (h : place ∈ (s.places address path).dropLast) :
    ∃ r rest inner, path = r ++ rest ∧ rest ≠ [] ∧ Leads s address r place ∧
      s.named place.1 place.2 = .table inner := by
  induction path generalizing address with
  | nil => cases h
  | cons name rest ih =>
      rcases (s.named address name).table_or_not with ⟨inner, hinner⟩ | hnot
      · cases rest with
        | nil =>
            rw [places_of_table hinner] at h
            cases h
        | cons next rest =>
            rw [dropLast_places hinner] at h
            rcases List.mem_cons.mp h with rfl | hrest
            · exact ⟨[name], next :: rest, inner, rfl, List.cons_ne_nil _ _, .here address name, hinner⟩
            · obtain ⟨r, more, inner', hpath, hmore, hleads, hplace⟩ := ih hrest
              exact ⟨name :: r, more, inner', by rw [hpath]; rfl, hmore, .through hinner hleads, hplace⟩
      · rw [places_of_not_table hnot] at h
        cases h

/-- The last place is that of the last name, or holds no table. -/
theorem leads_lastPlace (s : State) (address : Nat) (hpath : path ≠ []) :
    ∃ r rest, path = r ++ rest ∧ Leads s address r (s.lastPlace address path) ∧
      (rest = [] ∨ ∀ inner, s.named (s.lastPlace address path).1 (s.lastPlace address path).2 ≠ .table inner) := by
  induction path generalizing address with
  | nil => exact absurd rfl hpath
  | cons name rest ih =>
      cases rest with
      | nil => exact ⟨[name], [], rfl, .here address name, .inl rfl⟩
      | cons next rest =>
          rcases (s.named address name).table_or_not with ⟨inner, hinner⟩ | hnot
          · obtain ⟨r, more, heq, hleads, hend⟩ := ih inner (List.cons_ne_nil _ _)
            rw [lastPlace_of_table hinner]
            exact ⟨name :: r, more, by rw [heq]; rfl, .through hinner hleads, hend⟩
          · rw [lastPlace_of_not_table hnot]
            exact ⟨[name], next :: rest, rfl, .here address name, .inr hnot⟩

/-! ### Labels -/

namespace Chart

theorem start (base : State) : Chart base base fun _ => [] := by
  refine ⟨Nat.le_refl _, rfl, fun {place inner} hown hinner => ?_⟩
  rcases hown with hlate | ⟨hglobals, hnot⟩
  · rw [named_of_size_le hlate] at hinner
    cases hinner
  · rw [hglobals] at hinner
    exact absurd hinner (hnot inner)

theorem rawSet (h : Chart base s label) (ha : address < s.tables.size) :
    Chart base (s.rawSet address (.text name) (.function f)) label := by
  refine ⟨by rw [size_rawSet]; exact h.size_le, h.root, fun {place inner} hown hinner => ?_⟩
  rw [named_rawSet name ha rfl] at hinner
  split at hinner
  · cases hinner
  · exact h.link hown hinner

theorem nest (h : Chart base s label) (hs : s.Closed) (name : String) (ha : address < s.tables.size) :
    ∃ label, Chart base (s.nest address name) label := by
  refine ⟨fun b => if b = s.tables.size then label address ++ [name] else label b, ?_, ?_, ?_⟩
  · rw [size_nest]
    exact Nat.le_succ_of_le h.size_le
  · rw [if_neg (Nat.ne_of_lt hs.globals_lt)]
    exact h.root
  · intro place inner hown hinner
    rw [named_nest ha] at hinner
    split at hinner
    · rename_i hplace
      obtain rfl := Value.table.inj hinner
      rw [hplace, if_pos rfl, if_neg (Nat.ne_of_lt ha)]
      exact ⟨h.size_le, rfl⟩
    · rw [if_neg (Nat.ne_of_lt (hs.named_lt hinner)), if_neg (Nat.ne_of_lt (lt_of_named hinner))]
      exact h.link hown hinner

/-- Bindings keep to labels. -/
theorem bindBelow (h : Chart base s label) (hs : s.Closed) (ha : address < s.tables.size) (n : Nat)
    (name : String) (rest : List String) :
    ∃ label, Chart base (s.bindBelow address (.published n) (name :: rest)) label := by
  induction rest generalizing s address name label with
  | nil => exact ⟨label, h.rawSet ha⟩
  | cons next rest ih =>
      rcases (s.named address name).table_or_not with ⟨inner, hinner⟩ | hplace
      · rw [bindBelow_of_table hinner]
        exact ih h hs (hs.named_lt hinner) next
      · rw [bindBelow_of_not_table hplace]
        obtain ⟨label, hnest⟩ := h.nest hs name ha
        exact ih hnest (hs.nest name ha) (lt_size_nest s address name) next

/-- A path of one's own is spelled by the labels of its place. -/
theorem leads (h : Chart base s label) (hleads : Leads s address path place)
    (hown : ∀ name ∈ path.head?, Own base (address, name)) :
    label place.1 ++ [place.2] = label address ++ path := by
  induction hleads with
  | here => rfl
  | @through address inner name path place hinner hpath ih =>
      obtain ⟨hlate, hlabel⟩ := h.link (hown name rfl) hinner
      rw [ih fun _ _ => .inl hlate, hlabel, List.append_assoc, List.singleton_append]

end Chart

theorem Free.own (h : Free base path) {r rest : List String} (hpath : path = r ++ rest) :
    ∀ name ∈ r.head?, Own base (globals, name) := by
  intro name hname
  refine .inr ⟨rfl, h name ?_⟩
  cases r with
  | nil => cases hname
  | cons first r =>
      rw [hpath]
      exact hname

/-- A free path comes to its last place once. -/
theorem lands_of_free (h : Chart base s label) (hfree : Free base path) (hpath : path ≠ []) : s.Lands path := by
  intro hmem
  obtain ⟨r, rest, inner, heq, hrest, hleads, hinner⟩ := leads_of_mem_dropLast hmem
  obtain ⟨r', rest', heq', hleads', hend⟩ := leads_lastPlace s globals hpath
  have hr : r = r' := List.append_cancel_left
    ((h.leads hleads (hfree.own heq)).symm.trans (h.leads hleads' (hfree.own heq')))
  have hrests : rest = rest' := by
    rw [← hr, heq] at heq'
    exact List.append_cancel_left heq'
  rcases hend with hnil | hnot
  · exact hrest (hrests.trans hnil)
  · exact hnot inner hinner

/-- Of free paths only those that overlap with a path to a function end on it. -/
theorem overlap_of_mem_places (h : Chart base s label) (hfree : Free base path) (hpath : path ≠ [])
    (hfreeq : Free base q) (hq : s.follow (.table globals) q = .function f)
    (hmem : s.lastPlace globals path ∈ s.places globals q) : Overlap path q := by
  obtain ⟨r, rest, heq, hleads⟩ := leads_of_mem_places hmem
  obtain ⟨r', rest', heq', hleads', hend⟩ := leads_lastPlace s globals hpath
  have hr : r = r' := List.append_cancel_left
    ((h.leads hleads (hfreeq.own heq)).symm.trans (h.leads hleads' (hfree.own heq')))
  subst hr
  rcases hend with hnil | hnot
  · exact .inl ⟨rest, by rw [heq', hnil, List.append_nil, heq]⟩
  · -- the place holds no table, so the other path ends there
    cases rest with
    | nil => exact .inr ⟨rest', by rw [heq', heq, List.append_nil]⟩
    | cons next rest =>
        rw [heq, hleads.follow, follow_of_not_table hnot] at hq
        cases hq

end ScriptBridge.Guest.State
