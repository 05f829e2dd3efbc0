import ScriptBridge.Proofs.GuestImages
import ScriptBridge.Proofs.NamePaths

/-! Images that say neither more nor less than a value does. A value of texts, truth values, lists and records
has an image whose tables hold just its parts, under their indices and names, in tables made for it alone: it
stays as it is while these do, whatever becomes of the rest of the memory. The image of a listing is of this
sort, so what is in it about an operation can be looked up in its tables. -/

namespace ScriptBridge

open Guest (State Table)

namespace Conversion

variable {first levels : Nat} {s s' : State} {t : Table} {v : Value} {image key : Guest.Value}
  {R R' : Guest.Value → Value → Prop} {pairs : List (Guest.Value × Value)}

/-- A value of texts and truth values, in lists no longer than a table can be and records in key order, nested
at most `levels` deep. -/
def Textual : Nat → Value → Prop
  | _, .str _ | _, .bool _ => True
  | levels + 1, .list items => items.length ≤ Table.greatestIndex ∧ ∀ item ∈ items, Textual levels item
  | levels + 1, .record fields => Value.InKeyOrder fields ∧ ∀ field ∈ fields, Textual levels field.2
  | _, _ => False

/-- A table from a number on that is filled for the given pairs. -/
def Tabled (s : State) (first : Nat) (R : Guest.Value → Value → Prop) (image : Guest.Value)
    (pairs : List (Guest.Value × Value)) : Prop :=
  ∃ address, image = .table address ∧ first ≤ address ∧ address < s.tables.size ∧
    Filled R (s.table address) pairs

/-- The image of a value in tables from a number on. -/
def Shows (s : State) (first : Nat) : Nat → Guest.Value → Value → Prop
  | _, image, .str text => image = .text text
  | _, image, .bool b => image = .bool b
  | levels + 1, image, .list items => Tabled s first (Shows s first levels) image (indexed items)
  | levels + 1, image, .record fields => Tabled s first (Shows s first levels) image (keyed fields)
  | _, _, _ => False

/-! ### Images in one memory and another -/

theorem Filled.imp (h : Filled R t pairs) (himp : ∀ {image v}, R image v → R' image v) : Filled R' t pairs :=
  List.Forall₂.imp (fun _ _ hentry => ⟨hentry.1, himp hentry.2⟩) h

/-- An image lasts while its own tables do. -/
theorem Shows.of_kept (h : Shows s first levels image v)
    (hkept : ∀ address, first ≤ address → address < s.tables.size → s'.table address = s.table address)
    (hsize : s.tables.size ≤ s'.tables.size) : Shows s' first levels image v := by
  have htabled : ∀ {R R' : Guest.Value → Value → Prop} {image pairs}, Tabled s first R image pairs →
      (∀ {image v}, R image v → R' image v) → Tabled s' first R' image pairs := by
    rintro R R' image pairs ⟨address, himage, hlow, hlt, hfilled⟩ himp
    refine ⟨address, himage, hlow, Nat.lt_of_lt_of_le hlt hsize, ?_⟩
    rw [hkept address hlow hlt]
    exact hfilled.imp himp
  induction levels generalizing image v with
  | zero =>
      cases v with
      | str text => exact h
      | bool b => exact h
      | _ => exact h.elim
  | succ levels ih =>
      cases v with
      | str text => exact h
      | bool b => exact h
      | list items => exact htabled h ih
      | record fields => exact htabled h ih
      | _ => exact h.elim

theorem shows_lasts (first levels : Nat) : Lasts fun s => Shows s first levels := by
  refine ⟨fun {s image v} h => ?_, fun h hext => h.of_kept (fun address _ hlt => hext.table_eq address hlt)
    hext.size_le⟩
  have htabled : ∀ {R : Guest.Value → Value → Prop} {pairs}, Tabled s first R image pairs →
      image.isNil = false := by
    rintro R pairs ⟨address, rfl, -⟩
    rfl
  cases levels with
  | zero =>
      cases v with
      | str text => exact congrArg Guest.Value.isNil h
      | bool b => exact congrArg Guest.Value.isNil h
      | _ => exact h.elim
  | succ levels =>
      cases v with
      | str text => exact congrArg Guest.Value.isNil h
      | bool b => exact congrArg Guest.Value.isNil h
      | list items => exact htabled h
      | record fields => exact htabled h
      | _ => exact h.elim

/-- A filled table is an image once it has a place in the memory. -/
theorem Filled.tabled {made : State} (h : Filled (Shows made first levels) t pairs)
    (hfirst : first ≤ made.tables.size) :
    let allocated := Value.allocate t made
    Tabled allocated.2 first (Shows allocated.2 first levels) allocated.1 pairs := by
  have hext := Value.extends_allocate t made
  refine ⟨made.tables.size, rfl, hfirst, ?_, ?_⟩
  · rw [Value.size_allocate]
    exact Nat.lt_succ_self _
  · rw [Value.table_allocate]
    exact h.imp fun hshows => (shows_lasts first levels).of_extends hshows hext

theorem Textual.makes (h : Textual levels v) (hfirst : first ≤ s.tables.size) :
    Makes (fun s => Shows s first levels) s v := by
  induction levels generalizing s v with
  | zero =>
      cases v with
      | str text => exact fun made _ => ⟨.refl made, rfl⟩
      | bool b => exact fun made _ => ⟨.refl made, rfl⟩
      | _ => exact h.elim
  | succ levels ih =>
      intro made hmade
      have hbase := Nat.le_trans hfirst hmade.size_le
      cases v with
      | str text => exact ⟨.refl made, rfl⟩
      | bool b => exact ⟨.refl made, rfl⟩
      | list items =>
          obtain ⟨hlength, hitems⟩ := h
          obtain ⟨t, inside, himage, hext, hfilled⟩ := toGuest_list_filled (shows_lasts first levels)
            (fun item hitem => ih (hitems item hitem) hbase) hlength
          rw [himage]
          exact ⟨hext.trans (Value.extends_allocate t inside), hfilled.tabled (Nat.le_trans hbase hext.size_le)⟩
      | record fields =>
          obtain ⟨horder, hfields⟩ := h
          obtain ⟨t, inside, himage, hext, hfilled⟩ := toGuest_record_filled (shows_lasts first levels)
            (fun field hfield => ih (hfields field hfield) hbase) horder
          rw [himage]
          exact ⟨hext.trans (Value.extends_allocate t inside), hfilled.tabled (Nat.le_trans hbase hext.size_le)⟩
      | _ => exact h.elim

/-! ### Looking up -/

theorem Filled.get (h : Filled R t pairs) (hmem : (key, v) ∈ pairs) (hkey : key.asKey = key) : R (t.get key) v := by
  obtain ⟨⟨key', image⟩, hentry, heq, hshows⟩ := exists_of_mem_right h hmem
  obtain rfl : key' = key := heq
  have hfind : t.get key' = image := by
    rw [Table.get, hkey]
    exact Table.find_of_mem t.keys_nodup hentry
  rwa [hfind]

theorem Shows.field {address : Nat} {fields : List (String × Value)} {name : String}
    (h : Shows s first (levels + 1) (.table address) (.record fields)) (hmem : (name, v) ∈ fields) :
    Shows s first levels (s.named address name) v := by
  obtain ⟨_, himage, -, -, hfilled⟩ := h
  obtain rfl := Guest.Value.table.inj himage
  have hfield : (Guest.Value.text name, v) ∈ keyed fields := List.mem_map_of_mem hmem
  exact hfilled.get hfield rfl

theorem Shows.item {address i : Nat} {items : List Value}
    (h : Shows s first (levels + 1) (.table address) (.list items)) (hi : items[i]? = some v) :
    Shows s first levels (s.rawGet address (Table.index (i + 1))) v := by
  obtain ⟨_, himage, -, -, hfilled⟩ := h
  obtain rfl := Guest.Value.table.inj himage
  refine hfilled.get (List.mem_map.mpr ⟨(v, i + 1), ?_, rfl⟩) rfl
  rw [List.mk_mem_zipIdx_iff_le_and_getElem?_sub]
  exact ⟨by omega, by simpa using hi⟩

theorem Shows.isSequence {address : Nat} {items : List Value}
    (h : Shows s first (levels + 1) (.table address) (.list items)) (hlength : items.length ≤ Table.greatestIndex) :
    (s.table address).IsSequence items.length := by
  obtain ⟨_, himage, -, -, hfilled⟩ := h
  obtain rfl := Guest.Value.table.inj himage
  exact Table.isSequence_of_range hlength ((Filled.keys (R := fun s => Shows s first levels) hfilled).trans
    (keys_indexed items))

theorem Tabled.exists_table (h : Tabled s first R image pairs) : ∃ address, image = .table address :=
  let ⟨address, himage, _⟩ := h
  ⟨address, himage⟩

end Conversion
end ScriptBridge
