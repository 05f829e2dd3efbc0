import ScriptBridge.Proofs.GuestImages
import ScriptBridge.Proofs.PublishedNames

/-! Tables made along a path. What is missing on a path is made on the way, so that the path leads to the
table it ends in afterwards. Links from names that led to no table in an earlier memory lead to tables made
since, of ever higher rank, so a path that enters such a table does not come back to where it was. Tables that
nothing outside leads into, as an image has them, are met by no path. -/

namespace ScriptBridge.Guest.State

variable {base s s' : State} {address inner : Nat} {name : String} {path : List String} {v : Value}
  {place : Place} {hidden : Nat → Prop} {rank : Nat → Nat}

/-! ### Paths in two memories -/

theorem follow_append (s : State) (v : Value) (path rest : List String) :
    s.follow v (path ++ rest) = s.follow (s.follow v path) rest := by
  induction path generalizing v with
  | nil => rfl
  | cons name more ih =>
      rcases v.table_or_not with ⟨address, rfl⟩ | hnot
      · rw [List.cons_append, follow_cons, follow_cons, ih]
      · rw [List.cons_append, follow_of_not_table hnot, follow_of_not_table hnot]
        cases rest with
        | nil => rfl
        | cons next rest => rfl

/-- A path leads where it did while the places on it are as they were. -/
theorem follow_of_places (h : ∀ place ∈ s.places address path,
    s'.named place.1 place.2 = s.named place.1 place.2) :
    s'.follow (.table address) path = s.follow (.table address) path := by
  induction path generalizing address with
  | nil => rfl
  | cons name rest ih =>
      have hfirst := h (address, name) (by rw [places]; exact List.mem_cons_self)
      rw [follow_cons, follow_cons, hfirst]
      rcases (s.named address name).table_or_not with ⟨inner, hinner⟩ | hnot
      · rw [hinner]
        refine ih fun place hplace => h place ?_
        rw [places_of_table hinner]
        exact List.mem_cons_of_mem _ hplace
      · exact follow_eq_of_not_table hnot s s' rest

/-! ### Making what is missing -/

theorem tableAlong_of_table (h : s.named address name = .table inner) (rest : List String) :
    s.tableAlong address (name :: rest) = s.tableAlong inner rest := by
  change s.rawGet address (.text name) = _ at h
  rw [tableAlong, h]

theorem tableAlong_of_not_table (h : ∀ inner, s.named address name ≠ .table inner) (rest : List String) :
    s.tableAlong address (name :: rest) = (s.nest address name).tableAlong s.tables.size rest := by
  change ∀ inner, s.rawGet address (.text name) ≠ _ at h
  rw [tableAlong]
  split
  · rename_i inner hinner
    exact absurd hinner (h inner)
  · rfl

theorem table_rawSet_of_ne {key : Value} {b : Nat} (h : b ≠ address) :
    (s.rawSet address key v).table b = s.table b := by
  change (s.tables.setIfInBounds address _)[b]?.getD .empty = s.tables[b]?.getD .empty
  rw [Array.getElem?_setIfInBounds_ne (Ne.symm h)]

theorem table_nest {b : Nat} (hb : b < s.tables.size) (hne : b ≠ address) :
    (s.nest address name).table b = s.table b := by
  rw [nest, table_rawSet_of_ne hne]
  change (s.tables.push .empty)[b]?.getD .empty = s.tables[b]?.getD .empty
  rw [Array.getElem?_push_lt hb, Array.getElem?_eq_getElem hb]

/-- A place that holds no table. -/
def Vacant (base : State) (place : Place) : Prop := ∀ inner, base.named place.1 place.2 ≠ .table inner

theorem vacant_of_size_le (h : base.tables.size ≤ address) (name : String) : Vacant base (address, name) :=
  fun inner hinner => by
    rw [named_of_size_le h] at hinner
    cases hinner

/-- Links between the tables in view: from places that were vacant they lead to tables made since, of a
higher rank, and none leads to a hidden table. -/
structure Ranked (base s : State) (hidden : Nat → Prop) (rank : Nat → Nat) : Prop where
  globals_lt : globals < base.tables.size
  size_le : base.tables.size ≤ s.tables.size
  hidden_lt : ∀ {address}, hidden address → address < s.tables.size
  globals_seen : ¬ hidden globals
  link : ∀ {address name inner}, ¬ hidden address → s.named address name = .table inner →
    inner < s.tables.size ∧ ¬ hidden inner ∧
      (Vacant base (address, name) → base.tables.size ≤ inner ∧ rank address < rank inner)

/-- What has become of a memory when a path from a table was walked to its end. -/
structure Walked (s : State) (hidden : Nat → Prop) (address : Nat) (path : List String) (made : Nat × State) :
    Prop where
  size_le : s.tables.size ≤ made.2.tables.size
  lt_size : made.1 < made.2.tables.size
  seen : ¬ hidden made.1
  follow_eq : made.2.follow (.table address) path = .table made.1
  links_kept : ∀ {address name inner}, s.named address name = .table inner →
    made.2.named address name = .table inner
  hidden_kept : ∀ {address}, hidden address → made.2.table address = s.table address

namespace Ranked

theorem start (hs : base.Closed) : Ranked base base (fun _ => False) fun _ => 0 where
  globals_lt := hs.globals_lt
  size_le := Nat.le_refl _
  hidden_lt := False.elim
  globals_seen := id
  link _ hinner := ⟨hs.named_lt hinner, id, fun hvacant => absurd hinner (hvacant _)⟩

theorem rawSet (h : Ranked base s hidden rank) (ha : address < s.tables.size) (hv : v.isNil = false)
    (hnot : ∀ inner, v ≠ .table inner) : Ranked base (s.rawSet address (.text name) v) hidden rank := by
  have hsize := size_rawSet s address (.text name) v
  refine ⟨h.globals_lt, hsize ▸ h.size_le, fun hb => hsize ▸ h.hidden_lt hb, h.globals_seen, ?_⟩
  intro b other inner hseen hinner
  rw [named_rawSet name ha hv (b, other)] at hinner
  rw [hsize]
  split at hinner
  · exact absurd hinner (hnot inner)
  · exact h.link hseen hinner

theorem nest (h : Ranked base s hidden rank) (name : String) (ha : address < s.tables.size) :
    ∃ rank, Ranked base (s.nest address name) hidden rank := by
  refine ⟨fun b => if b = s.tables.size then rank address + 1 else rank b, h.globals_lt, ?_, fun hb => ?_,
    h.globals_seen, ?_⟩
  · exact Nat.le_trans h.size_le (Nat.le_of_lt (lt_size_nest s address name))
  · exact Nat.lt_trans (h.hidden_lt hb) (lt_size_nest s address name)
  · intro b other inner hseen hinner
    rw [named_nest ha (b, other)] at hinner
    split at hinner
    · rename_i hplace
      obtain ⟨rfl, rfl⟩ := Prod.mk.inj hplace
      obtain rfl := Value.table.inj hinner
      refine ⟨lt_size_nest s b other, fun hnew => Nat.lt_irrefl _ (h.hidden_lt hnew), fun _ => ?_⟩
      rw [if_pos rfl, if_neg (Nat.ne_of_lt ha)]
      exact ⟨h.size_le, Nat.lt_succ_self _⟩
    · obtain ⟨hlt, hin, hlink⟩ := h.link hseen hinner
      refine ⟨Nat.lt_trans hlt (lt_size_nest s address name), hin, fun hvacant => ?_⟩
      rw [if_neg (Nat.ne_of_lt hlt), if_neg (Nat.ne_of_lt (lt_of_named hinner))]
      exact hlink hvacant

theorem tableAlong (h : Ranked base s hidden rank) (ha : address < s.tables.size) (hseen : ¬ hidden address)
    (path : List String) :
    (∃ rank, Ranked base (s.tableAlong address path).2 hidden rank) ∧
      Walked s hidden address path (s.tableAlong address path) := by
  induction path generalizing s address rank with
  | nil => exact ⟨⟨rank, h⟩, Nat.le_refl _, ha, hseen, rfl, id, fun _ => rfl⟩
  | cons name rest ih =>
      rcases (s.named address name).table_or_not with ⟨inner, hinner⟩ | hnot
      · rw [tableAlong_of_table hinner]
        obtain ⟨hlt, hin, -⟩ := h.link hseen hinner
        obtain ⟨hranked, hwalked⟩ := ih h hlt hin
        refine ⟨hranked, { hwalked with follow_eq := ?_ }⟩
        rw [follow_cons, hwalked.links_kept hinner, hwalked.follow_eq]
      · rw [tableAlong_of_not_table hnot]
        obtain ⟨rank, hnest⟩ := h.nest name ha
        have hnew : ¬ hidden s.tables.size := fun hin => Nat.lt_irrefl _ (h.hidden_lt hin)
        have hlink : (s.nest address name).named address name = .table s.tables.size :=
          (named_nest ha (address, name)).trans (if_pos rfl)
        obtain ⟨hranked, hwalked⟩ := ih hnest (lt_size_nest s address name) hnew
        refine ⟨hranked, ?_, hwalked.lt_size, hwalked.seen, ?_, fun {b other inner} hinner => ?_, fun {b} hb => ?_⟩
        · exact Nat.le_trans (Nat.le_of_lt (lt_size_nest s address name)) hwalked.size_le
        · rw [follow_cons, hwalked.links_kept hlink, hwalked.follow_eq]
        · refine hwalked.links_kept ?_
          rw [named_nest ha (b, other), if_neg fun hplace => ?_, hinner]
          obtain ⟨rfl, rfl⟩ := Prod.mk.inj hplace
          exact hnot inner hinner
        · have hne : b ≠ address := fun heq => hseen (heq ▸ hb)
          rw [hwalked.hidden_kept hb, table_nest (h.hidden_lt hb) hne]

/-- From a table made since, a path leads to tables made since, and not down in rank. -/
theorem le_of_follow (h : Ranked base s hidden rank) {b : Nat} (hnew : base.tables.size ≤ address)
    (hseen : ¬ hidden address) (hend : s.follow (.table address) path = .table b) :
    base.tables.size ≤ b ∧ rank address ≤ rank b := by
  induction path generalizing address with
  | nil =>
      obtain rfl := Value.table.inj hend
      exact ⟨hnew, Nat.le_refl _⟩
  | cons name rest ih =>
      rw [follow_cons] at hend
      rcases (s.named address name).table_or_not with ⟨inner, hinner⟩ | hnot
      · obtain ⟨-, hin, hlink⟩ := h.link hseen hinner
        obtain ⟨hinnerNew, hless⟩ := hlink (vacant_of_size_le hnew name)
        rw [hinner] at hend
        obtain ⟨hendNew, hle⟩ := ih hinnerNew hin hend
        exact ⟨hendNew, Nat.le_of_lt (Nat.lt_of_lt_of_le hless hle)⟩
      · rw [follow_eq_of_not_table hnot s s] at hend
        cases rest with
        | nil => exact absurd hend (hnot b)
        | cons next rest =>
            rw [follow_of_not_table hnot] at hend
            cases hend

/-- A path does not come through a place that was vacant in the table it ends in. -/
theorem not_mem_places (h : Ranked base s hidden rank) {b : Nat} (hseen : ¬ hidden b)
    (hend : s.follow (.table address) path = .table b) (hvacant : Vacant base (b, name)) :
    (b, name) ∉ s.places address path := by
  intro hmem
  obtain ⟨r, rest, rfl, hleads⟩ := leads_of_mem_places hmem
  rw [hleads.follow rest] at hend
  rcases (s.named b name).table_or_not with ⟨inner, hinner⟩ | hnot
  · obtain ⟨-, hin, hlink⟩ := h.link hseen hinner
    obtain ⟨hnew, hless⟩ := hlink hvacant
    rw [hinner] at hend
    exact Nat.not_lt.mpr (h.le_of_follow hnew hin hend).2 hless
  · cases rest with
    | nil => exact hnot b hend
    | cons next rest =>
        rw [follow_of_not_table hnot] at hend
        cases hend

/-- Tables added at the end are hidden while nothing leads to them. -/
theorem grow (h : Ranked base s (fun _ => False) rank) (hext : s.Extends s') :
    Ranked base s' (fun address => s.tables.size ≤ address ∧ address < s'.tables.size) rank where
  globals_lt := h.globals_lt
  size_le := Nat.le_trans h.size_le hext.size_le
  hidden_lt := And.right
  globals_seen hin := Nat.not_lt.mpr hin.1 (Nat.lt_of_lt_of_le h.globals_lt h.size_le)
  link {address name inner} hseen hinner := by
    have hold : address < s.tables.size := Nat.not_le.mp fun hge => hseen ⟨hge, lt_of_named hinner⟩
    have hsame : s'.named address name = s.named address name :=
      congrArg (fun t => Table.get t (.text name)) (hext.table_eq address hold)
    obtain ⟨hlt, -, hlink⟩ := h.link id (hsame ▸ hinner)
    exact ⟨Nat.lt_of_lt_of_le hlt hext.size_le, fun hin => Nat.not_lt.mpr hin.1 hlt, hlink⟩

/-- The one hidden table, from which nothing leads on, comes into view under a name. -/
theorem reveal (h : Ranked base s hidden rank) {c : Nat} (hhidden : ∀ b, hidden b ↔ b = c)
    (hnew : base.tables.size ≤ c) (hleaf : ∀ name, Vacant s (c, name)) (ha : address < s.tables.size)
    (hseen : ¬ hidden address) :
    ∃ rank, Ranked base (s.rawSet address (.text name) (.table c)) (fun _ => False) rank := by
  have hsize := size_rawSet s address (.text name) (.table c)
  have hc : c < s.tables.size := h.hidden_lt ((hhidden c).mpr rfl)
  have hac : address ≠ c := fun heq => hseen ((hhidden address).mpr heq)
  refine ⟨fun b => if b = c then rank address + 1 else rank b, h.globals_lt, hsize ▸ h.size_le, False.elim, id, ?_⟩
  intro b other inner _ hinner
  rw [named_rawSet name ha rfl (b, other)] at hinner
  rw [hsize]
  split at hinner
  · rename_i hplace
    obtain ⟨rfl, rfl⟩ := Prod.mk.inj hplace
    obtain rfl := Value.table.inj hinner
    rw [if_pos rfl, if_neg hac]
    exact ⟨hc, id, fun _ => ⟨hnew, Nat.lt_succ_self _⟩⟩
  · have hother : b ≠ c := fun heq => hleaf other inner (heq ▸ hinner)
    obtain ⟨hlt, hin, hlink⟩ := h.link (mt (hhidden b).mp hother) hinner
    rw [if_neg hother, if_neg (mt (hhidden inner).mpr hin)]
    exact ⟨hlt, id, hlink⟩

theorem globals_lt_size (h : Ranked base s hidden rank) : globals < s.tables.size :=
  Nat.lt_of_lt_of_le h.globals_lt h.size_le

/-! ### What is published -/

theorem bindAt (h : Ranked base s hidden rank) (hv : v.isNil = false) (hnot : ∀ inner, v ≠ .table inner)
    (path : List String) : ∃ rank, Ranked base (Registry.bindAt path v s) hidden rank := by
  obtain ⟨⟨rank, hmade⟩, hwalked⟩ := h.tableAlong h.globals_lt_size h.globals_seen path.dropLast
  exact ⟨rank, hmade.rawSet hwalked.lt_size hv hnot⟩

theorem bindEach {σ : Type} (h : Ranked base s hidden rank) (first : Nat)
    (registrations : List (Signature × Handler σ)) :
    ∃ rank, Ranked base (Registry.bindEach first registrations s) hidden rank := by
  induction registrations generalizing s first rank with
  | nil => exact ⟨rank, h⟩
  | cons registration rest ih =>
      obtain ⟨rank, hbound⟩ := h.bindAt (v := .function (.published first)) rfl (fun _ heq => nomatch heq)
        registration.1.path
      exact ih hbound (first + 1)

/-- The mark for "no position" is a table of its own, from which nothing leads on. -/
theorem bindAt_coord (h : Ranked base s (fun _ => False) rank) (c : Coord) (path : List String) :
    ∃ rank, Ranked base (Registry.bindAt path ((Value.coord c).toGuest s).1 ((Value.coord c).toGuest s).2)
      (fun _ => False) rank := by
  rw [ScriptBridge.Value.toGuest]
  have hext := ScriptBridge.Value.extends_allocate c.toTable s
  have hgrown := h.grow hext
  have hlast : ∀ b, s.tables.size ≤ b ∧ b < (ScriptBridge.Value.allocate c.toTable s).2.tables.size ↔
      b = s.tables.size := by
    intro b
    rw [ScriptBridge.Value.size_allocate]
    omega
  obtain ⟨⟨rank, hmade⟩, hwalked⟩ := hgrown.tableAlong hgrown.globals_lt_size hgrown.globals_seen path.dropLast
  refine hmade.reveal hlast h.size_le (fun name inner hinner => ?_) hwalked.lt_size hwalked.seen
  change Table.get (State.table _ s.tables.size) (.text name) = _ at hinner
  rw [hwalked.hidden_kept ((hlast _).mpr rfl), ScriptBridge.Value.table_allocate, Coord.toTable,
    Table.get_set_text rfl, Table.get_set_text rfl, Table.get_set_text rfl] at hinner
  split_ifs at hinner
  cases hinner

theorem publishValues (h : Ranked base s (fun _ => False) rank) (config : Config) :
    ∃ rank, Ranked base (Environment.publishValues config s) (fun _ => False) rank := by
  have hsetting : ∀ {s : State}, Ranked base s (fun _ => False) rank → ∀ name b,
      Ranked base (s.setGlobal name (.bool b)) (fun _ => False) rank := fun hs name b =>
    hs.rawSet hs.globals_lt_size rfl fun _ heq => nomatch heq
  exact (hsetting (hsetting (hsetting (hsetting h _ _) _ _) _ _) _ _).bindAt_coord .invalid _

/-- What is put under a vacant name in the table at the end of a path is where the path and the name lead,
also when something is put under another such name. -/
theorem follow_rawSet (h : Ranked base s hidden rank) {b : Nat} {v' : Value} {name' : String}
    (hb : b < s.tables.size) (hseen : ¬ hidden b) (hend : s.follow (.table address) path = .table b)
    (hvacant : Vacant base (b, name)) (hvacant' : Vacant base (b, name')) (hv : v.isNil = false)
    (hv' : v'.isNil = false) (hne : name ≠ name') :
    ((s.rawSet b (.text name) v).rawSet b (.text name') v').follow (.table address) (path ++ [name]) = v := by
  have hsize : b < (s.rawSet b (.text name) v).tables.size := by rwa [size_rawSet]
  have hnamed : ∀ place : Place, ((s.rawSet b (.text name) v).rawSet b (.text name') v').named place.1 place.2 =
      if place = (b, name') then v' else if place = (b, name) then v else s.named place.1 place.2 := by
    intro place
    rw [named_rawSet name' hsize hv', named_rawSet name hb hv]
  rw [follow_append, follow_of_places (s := s) fun place hplace => ?_, hend]
  · refine (hnamed (b, name)).trans ?_
    rw [if_neg fun heq => hne (Prod.mk.inj heq).2, if_pos rfl]
  · rw [hnamed, if_neg fun heq => ?_, if_neg fun heq => ?_]
    · exact h.not_mem_places hseen hend hvacant (heq ▸ hplace)
    · exact h.not_mem_places hseen hend hvacant' (heq ▸ hplace)

end Ranked
end ScriptBridge.Guest.State
