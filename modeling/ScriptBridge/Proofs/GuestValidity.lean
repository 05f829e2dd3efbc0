import ScriptBridge.Proofs.IntegerTexts
import ScriptBridge.Proofs.NormalForms
import ScriptBridge.Proofs.WaitRequests

/-! Validity on the two sides of the bridge. The guest has a table for a coordinate, a reference for an object and
nil for what is not there, and asks for the validity of what such a value is read as. Every image is read as some
value, unless it nests too deep, and what is read is valid just when the host's value is: the tables of lists and
records cannot be taken for the mark for "no position", but for a record that spells it out. -/

namespace ScriptBridge

open Guest (State Table)

/-- A reading has the tables that were made on the way from one memory to a later one. -/
def Reading.Keeps (reading : Reading) (s s' : State) : Prop :=
  ∀ address, s.tables.size ≤ address → address < s'.tables.size → reading.table address = s'.table address

theorem Reading.keeps_of (s s' : State) : (Reading.of s').Keeps s s' := fun _ _ _ => rfl

theorem Reading.Keeps.between {reading : Reading} {s s' before after : State} (h : reading.Keeps s s')
    (hbefore : s.Extends before) (hafter : after.Extends s') : reading.Keeps before after := by
  intro address hlow hhigh
  rw [h address (Nat.le_trans hbefore.size_le hlow) (Nat.lt_of_lt_of_le hhigh hafter.size_le)]
  exact hafter.table_eq address hhigh

namespace Value

variable {v : Value} {items : List Value} {fields : List (String × Value)} {s : State} {t : Table}
  {entry : Guest.Value × Guest.Value} {start : Nat}

/-! ### Where the entries of an image come from -/

/-- What a list's table holds is under indices, and is the image of an item. -/
theorem mem_itemsToGuest (h : entry ∈ (itemsToGuest items start t s).1.entries) :
    entry ∈ t.entries ∨ ∃ item ∈ items, ∃ i before, entry = (.int i, (item.toGuest before).1) ∧
      s.Extends before ∧ (item.toGuest before).2.Extends (itemsToGuest items start t s).2 := by
  induction items generalizing start t s with
  | nil => exact .inl h
  | cons item rest ih =>
      rw [itemsToGuest] at h ⊢
      rcases ih h with hmade | ⟨later, hlater, i, before, hentry, hbefore, hafter⟩
      · rcases Table.mem_store hmade with hold | ⟨hkey, himage, -⟩
        · exact .inl hold
        · refine .inr ⟨item, List.mem_cons_self, _, s, Prod.ext hkey himage, .refl s, ?_⟩
          exact extends_itemsToGuest (fun item _ => item.extends_toGuest) _ _ _
      · exact .inr ⟨later, List.mem_cons_of_mem _ hlater, i, before, hentry,
          (item.extends_toGuest s).trans hbefore, hafter⟩

/-- What a record's table holds is under the texts of keys, and is the image of the field. -/
theorem mem_fieldsToGuest (h : entry ∈ (fieldsToGuest fields t s).1.entries) :
    entry ∈ t.entries ∨ ∃ field ∈ fields, ∃ before, entry = (.text field.1, (field.2.toGuest before).1) ∧
      s.Extends before ∧ (field.2.toGuest before).2.Extends (fieldsToGuest fields t s).2 := by
  induction fields generalizing t s with
  | nil => exact .inl h
  | cons field rest ih =>
      rw [fieldsToGuest] at h ⊢
      rcases ih h with hmade | ⟨later, hlater, before, hentry, hbefore, hafter⟩
      · rcases Table.mem_store hmade with hold | ⟨hkey, himage, -⟩
        · exact .inl hold
        · refine .inr ⟨field, List.mem_cons_self, s, Prod.ext hkey himage, .refl s, ?_⟩
          exact extends_fieldsToGuest (fun field _ => field.2.extends_toGuest) _ _
      · exact .inr ⟨later, List.mem_cons_of_mem _ hlater, before, hentry,
          (field.2.extends_toGuest s).trans hbefore, hafter⟩

theorem table_of_keeps {reading : Reading} {made : State} (h : reading.Keeps s (allocate t made).2)
    (hmade : s.Extends made) : reading.table made.tables.size = t := by
  rw [h _ hmade.size_le, table_allocate]
  rw [size_allocate]
  exact Nat.lt_succ_self _

theorem extends_items (items : List Value) (s : State) : s.Extends (itemsToGuest items 1 .empty s).2 :=
  extends_itemsToGuest (fun item _ => item.extends_toGuest) 1 .empty s

theorem extends_fields (fields : List (String × Value)) (s : State) : s.Extends (fieldsToGuest fields .empty s).2 :=
  extends_fieldsToGuest (fun field _ => field.2.extends_toGuest) .empty s

/-- Three integer fields of a record spell out the mark for "no position". -/
def SpellsMark (v : Value) : Prop :=
  ∃ fields, v = .record fields ∧ ∀ axis ∈ ["x", "y", "z"], (axis, Value.int (-1000)) ∈ fields

theorem not_spellsMark_of_ne (h : ∀ fields, v ≠ .record fields) : ¬ v.SpellsMark := by
  rintro ⟨fields, hrecord, -⟩
  exact h fields hrecord

/-- Only an integer has an integer for its image. -/
theorem eq_int_of_toGuest {i : Int64} (h : (v.toGuest s).1 = .int i) : v = .int i := by
  cases v with
  | int j => exact congrArg Value.int (Guest.Value.int.inj h)
  | target t => cases t <;> cases h
  | _ => cases h

theorem mem_of_field? {key : String} (h : field? key fields = some v) : (key, v) ∈ fields := by
  induction fields with
  | nil => cases h
  | cons first rest ih =>
      obtain ⟨k, w⟩ := first
      rw [field?] at h
      split at h
      · rename_i hkey
        rw [hkey, Option.some.inj h]
        exact List.mem_cons_self
      · exact List.mem_cons_of_mem _ (ih h)

end Value

/-! ### The mark for "no position" -/

namespace Builtin

theorem spells_of_isInvalidCell {fields : List (String × Value)} (h : isInvalidCell fields = true) :
    ∀ axis ∈ ["x", "y", "z"], (axis, Value.int (-1000)) ∈ fields := by
  have hmark : ∀ i : Int64, i.toInt = -1000 → i = -1000 := fun i hi => Int64.toInt_inj.mp hi
  unfold isInvalidCell at h
  split at h
  · rename_i x y z hx hy hz
    simp only [Bool.and_eq_true, decide_eq_true_eq] at h
    obtain ⟨⟨hxmark, hymark⟩, hzmark⟩ := h
    rw [hmark x hxmark] at hx
    rw [hmark y hymark] at hy
    rw [hmark z hzmark] at hz
    simp [Value.mem_of_field? hx, Value.mem_of_field? hy, Value.mem_of_field? hz]
  · cases h

theorem isAxis_eq (i j : Int32) : decide ((Int64.ofInt i.toInt).toInt = j.toInt) = decide (i = j) := by
  have hlow := i.le_toInt
  have hhigh := i.toInt_lt
  rw [Int64.toInt_ofInt_of_le (by omega) (by omega), decide_eq_decide, Int32.toInt_inj]

/-- The axes of a coordinate spell out the mark just when it is the mark. -/
theorem guestValid_ofAxes (c : Coord) : guestValid (.ofAxes c) = c.isValid := by
  have hfields : guestValid (.ofAxes c) = !(decide ((Int64.ofInt c.x.toInt).toInt = Coord.invalid.x.toInt) &&
      decide ((Int64.ofInt c.y.toInt).toInt = Coord.invalid.y.toInt) &&
      decide ((Int64.ofInt c.z.toInt).toInt = Coord.invalid.z.toInt)) := rfl
  obtain ⟨x, y, z⟩ := c
  rw [hfields, isAxis_eq, isAxis_eq, isAxis_eq, Bool.eq_iff_iff, Bool.not_eq_true', Bool.and_eq_false_iff,
    Bool.and_eq_false_iff, decide_eq_false_iff_not, decide_eq_false_iff_not, decide_eq_false_iff_not]
  simp [Coord.isValid, Coord.invalid, or_assoc]

end Builtin

namespace Conversion

variable {reading : Reading} {levels n address : Nat} {s : State} {v w : Value} {g : Guest.Value}

/-! ### Every image is read -/

theorem Convertible.mono (h : Convertible reading levels g) (hle : levels ≤ n) : Convertible reading n g := by
  induction levels generalizing g n with
  | zero => cases g <;> first | exact h.elim | (cases n <;> exact trivial)
  | succ levels ih =>
      cases g with
      | table address =>
          obtain ⟨n, rfl⟩ := Nat.exists_eq_add_of_le' (Nat.le_trans (Nat.le_add_left 1 _) hle)
          exact fun entry hentry => ⟨(h entry hentry).1, ih (h entry hentry).2 (Nat.le_of_succ_le_succ hle)⟩
      | _ => first | exact h.elim | (cases n <;> exact trivial)

theorem convertible_toTable (c : Coord) : ∀ entry ∈ c.toTable.entries,
    HasKeyText entry.1 ∧ Convertible reading 0 entry.2 := by
  let axis (i : Int32) : Guest.Value := .int (Int64.ofInt i.toInt)
  change ∀ entry ∈ [(Guest.Value.text "x", axis c.x), (.text "y", axis c.y), (.text "z", axis c.z)], _
  simp [axis, HasKeyText, Guest.Value.text, Convertible]

/-- An image is read with one level more than there are lists and records nested in its value: a coordinate is a
table too. -/
theorem convertible_image (v : Value) (s : State) (h : reading.Keeps s (v.toGuest s).2) :
    Convertible reading (v.nesting + 1) (v.toGuest s).1 := by
  induction v using Value.components_induction generalizing s with
  | step v ih =>
      cases v with
      | coord c =>
          change ∀ entry ∈ (reading.table s.tables.size).entries, _
          rw [Value.table_of_keeps h (.refl s)]
          exact convertible_toTable c
      | target t =>
          cases t with
          | cell c =>
              change ∀ entry ∈ (reading.table s.tables.size).entries, _
              rw [Value.table_of_keeps h (.refl s)]
              exact convertible_toTable c
          | entity h => exact trivial
          | invalid => exact trivial
      | list items =>
          rw [Value.toGuest] at h ⊢
          change ∀ entry ∈ (reading.table _).entries, _
          rw [Value.table_of_keeps h (Value.extends_items items s)]
          intro entry hentry
          rcases Value.mem_itemsToGuest hentry with hnone | ⟨item, hitem, i, before, rfl, hbefore, hafter⟩
          · cases hnone
          · have himage := ih item hitem before (h.between hbefore (hafter.trans (Value.extends_allocate _ _)))
            have hnesting := Value.nestingItems_le_iff.mp (Nat.le_refl _) item hitem
            exact ⟨trivial, himage.mono (Nat.succ_le_succ hnesting)⟩
      | record fields =>
          rw [Value.toGuest] at h ⊢
          change ∀ entry ∈ (reading.table _).entries, _
          rw [Value.table_of_keeps h (Value.extends_fields fields s)]
          intro entry hentry
          rcases Value.mem_fieldsToGuest hentry with hnone | ⟨field, hfield, before, rfl, hbefore, hafter⟩
          · cases hnone
          · have himage := ih field.2 (List.mem_map_of_mem hfield) before
              (h.between hbefore (hafter.trans (Value.extends_allocate _ _)))
            have hnesting := Value.nestingFields_le_iff.mp (Nat.le_refl _) field hfield
            exact ⟨trivial, himage.mono (Nat.succ_le_succ hnesting)⟩
      | _ => exact trivial

/-- An image is read, unless it nests too deep. -/
theorem structural_image_ok (h : reading.Keeps s (v.toGuest s).2)
    (hdeep : ¬ Stacks reading (levels + 1) (v.toGuest s).1) :
    ∃ w, structural reading levels (v.toGuest s).1 = .ok w :=
  (structural_ok_iff_stacks (convertible_image v s h).structural_ok).mpr hdeep

theorem not_stacks_image (h : reading.Keeps s (v.toGuest s).2) (hnesting : v.nesting < levels) :
    ¬ Stacks reading (levels + 1) (v.toGuest s).1 := by
  have hread := convertible_image v s h
  exact (structural_ok_iff_stacks hread.structural_ok).mp (hread.mono hnesting).structural_ok

/-! ### What is read is valid alike -/

theorem structural_eq_int {i : Int64} (h : structural reading levels g = .ok (.int i)) : g = .int i := by
  cases g with
  | table address =>
      rcases structural_table_cases h with ⟨_, hlist⟩ | ⟨_, hrecord⟩
      · cases hlist
      · cases hrecord
  | int j =>
      simp only [structural] at h
      cases h
      rfl
  | _ =>
      simp only [structural] at h
      cases h

/-- The field that a table's reading has comes from an entry with its key's text. -/
theorem exists_entry_of_int {fields : List (String × Value)} {name : String} {i : Int64}
    (h : structural reading levels (.table address) = .ok (.record fields)) (hfield : (name, .int i) ∈ fields) :
    ∃ key, (key, .int i) ∈ (reading.table address).entries ∧ keyText key = .ok name := by
  cases levels with
  | zero => cases h
  | succ levels =>
      rw [structural_table] at h
      split at h
      · obtain ⟨_, -, hlist⟩ := listOf_ok_iff.mp h
        cases hlist
      · obtain ⟨pairs, hpairs, hrecord⟩ := recordOf_ok_iff.mp h
        obtain rfl := Value.record.inj hrecord
        obtain ⟨⟨key, value⟩, hentry, hkey, hvalue⟩ := exists_of_mem_right hpairs (Value.mem_fieldsOf.mp hfield).mem
        obtain rfl : value = .int i := structural_eq_int hvalue
        exact ⟨key, hentry, hkey⟩

/-- No integer is written like a letter. -/
theorem keyText_int_ne (i : Int64) {name : String} (letter : Char) (hname : letter ∈ name.toList)
    (hletter : letter.isDigit = false) (hsign : letter ≠ '-') : keyText (.int i) ≠ .ok name := by
  intro h
  obtain rfl : toString i.toInt = name := Except.ok.inj h
  rw [Numeral.toList_toString] at hname
  have hdigit : letter ∉ Nat.toDigits 10 i.toInt.natAbs := by
    intro hmem
    rw [Nat.isDigit_of_mem_toDigits (by decide) (by decide) hmem] at hletter
    cases hletter
  unfold Numeral.signed at hname
  split at hname
  · exact hdigit ((List.mem_cons.mp hname).resolve_left hsign)
  · exact hdigit hname

/-- A table is read as something valid, unless its entries spell out the mark. -/
theorem guestValid_table (hw : structural reading levels (.table address) = .ok w)
    (h : ¬ ∀ axis ∈ ["x", "y", "z"], ∃ key, (key, .int (-1000)) ∈ (reading.table address).entries ∧
      keyText key = .ok axis) : Builtin.guestValid w = true := by
  obtain ⟨_, rfl⟩ | ⟨fields, rfl⟩ := structural_table_cases hw
  · rfl
  · rw [Builtin.guestValid, Bool.not_eq_true']
    refine Bool.eq_false_iff.mpr fun hcell => h fun axis haxis => ?_
    exact exists_entry_of_int hw (Builtin.spells_of_isInvalidCell hcell axis haxis)

/-- A coordinate's table is read as the record of its axes. -/
theorem guestValid_axes {c : Coord} (htable : reading.table address = c.toTable)
    (hw : structural reading levels (.table address) = .ok w) : Builtin.guestValid w = c.isValid := by
  cases levels with
  | zero => cases hw
  | succ levels =>
      have hzero : reading.length address = 0 := by
        refine (reading.isBorder address).eq_zero fun i hi => ?_
        rw [htable] at hi
        change Table.index i ∈ [Guest.Value.text "x", .text "y", .text "z"] at hi
        simp [Table.index, Guest.Value.text] at hi
      have hcount : ¬ isSequence reading address = true := by
        rw [isSequence_iff, hzero, htable]
        exact Nat.succ_ne_zero 2
      have hfields : recordOf (structural reading levels) c.toTable = .ok (.ofAxes c) := by cases levels <;> rfl
      rw [structural_table, if_neg hcount, htable, hfields] at hw
      rw [← Except.ok.inj hw]
      exact Builtin.guestValid_ofAxes c

/-- What an image is read as is valid for guest code just when the value is valid for the host. -/
theorem guestValid_image (h : reading.Keeps s (v.toGuest s).2) (hmark : ¬ v.SpellsMark)
    (hw : structural reading levels (v.toGuest s).1 = .ok w) : Builtin.guestValid w = v.isValid := by
  cases v with
  | list items =>
      rw [Value.toGuest] at h hw
      refine guestValid_table hw fun hspells => ?_
      obtain ⟨key, hentry, hkey⟩ := hspells "x" List.mem_cons_self
      rw [Value.table_of_keeps h (Value.extends_items items s)] at hentry
      rcases Value.mem_itemsToGuest hentry with hnone | ⟨_, -, i, _, hentry, -⟩
      · cases hnone
      · obtain rfl := (Prod.mk.inj hentry).1
        exact keyText_int_ne i 'x' (by decide) (by decide) (by decide) hkey
  | record fields =>
      rw [Value.toGuest] at h hw
      refine guestValid_table hw fun hspells => hmark ⟨fields, rfl, fun axis haxis => ?_⟩
      obtain ⟨key, hentry, hkey⟩ := hspells axis haxis
      rw [Value.table_of_keeps h (Value.extends_fields fields s)] at hentry
      rcases Value.mem_fieldsToGuest hentry with hnone | ⟨⟨name, field⟩, hfield, _, hentry, -⟩
      · cases hnone
      · obtain ⟨rfl, himage⟩ := Prod.mk.inj hentry
        obtain rfl : name = axis := Except.ok.inj ((keyText_text name).symm.trans hkey)
        obtain rfl : field = .int (-1000) := Value.eq_int_of_toGuest himage.symm
        exact hfield
  | coord c => exact guestValid_axes (Value.table_of_keeps h (.refl s)) hw
  | target t =>
      cases t with
      | cell c => exact guestValid_axes (Value.table_of_keeps h (.refl s)) hw
      | entity h =>
          rw [Value.toGuest, Value.wrapHandle] at hw
          simp only [structural] at hw
          exact Except.ok.inj hw ▸ rfl
      | invalid =>
          rw [Value.toGuest] at hw
          simp only [structural] at hw
          exact Except.ok.inj hw ▸ rfl
  | handle h =>
      rw [Value.toGuest, Value.wrapHandle] at hw
      simp only [structural] at hw
      exact Except.ok.inj hw ▸ rfl
  | _ =>
      rw [Value.toGuest] at hw
      simp only [Guest.Value.text, structural] at hw
      exact Except.ok.inj hw ▸ rfl

end Conversion

/-! ### The call -/

variable {σ : Type}

namespace Invocation

theorem isValid_isPlain (root : String) : ∀ p ∈ (Builtin.isValid.signature root).params, p.IsPlain := by
  simp [Builtin.signature, Parameter.IsPlain, Parameter.required]

/-- What is passed where any value is asked for is converted by its own shape, whether kinds are checked or not. -/
theorem plainValue_any (registry : Registry σ) (memory : State) (name : String) (g : Guest.Value) :
    plainValue registry memory (.required name .any) (some g) = shapeOf memory g := by
  cases htyped : registry.typeChecking with
  | true => exact plainValue_typed registry memory htyped (Parameter.isLeftOut_of_required rfl _)
  | false => exact plainValue_untyped registry memory htyped (Parameter.isLeftOut_of_required rfl _) rfl

theorem guestValid_shapeOf_image {v : Value} {made memory : State}
    (h : (Reading.of memory).Keeps made (v.toGuest made).2)
    (hdeep : ¬ Conversion.Stacks (.of memory) (Conversion.maxNesting + 1) (v.toGuest made).1)
    (hmark : ¬ v.SpellsMark) : Builtin.guestValid (shapeOf memory (v.toGuest made).1) = v.isValid := by
  obtain ⟨w, hw⟩ := Conversion.structural_image_ok h hdeep
  have hshape : shapeOf memory (v.toGuest made).1 = w := by
    rw [shapeOf, hw]
    rfl
  rw [hshape]
  exact Conversion.guestValid_image h hmark hw

/-- No sentinel is valid. -/
theorem guestValid_shapeOf_sentinel {kind : Kind} {made memory : State}
    (h : (Reading.of memory).Keeps made ((Value.sentinel kind).toGuest made).2) :
    Builtin.guestValid (shapeOf memory ((Value.sentinel kind).toGuest made).1) = false := by
  have hflat : (Value.sentinel kind).nesting < Conversion.maxNesting := by
    have hnone : (Value.sentinel kind).nesting = 0 := by cases kind <;> rfl
    rw [hnone]
    decide
  have hmark : ¬ (Value.sentinel kind).SpellsMark :=
    Value.not_spellsMark_of_ne fun fields => by cases kind <;> simp [Value.sentinel]
  rw [guestValid_shapeOf_image h (Conversion.not_stacks_image h hflat) hmark]
  cases kind <;> rfl

end Invocation

namespace Environment

open Conversion (Stacks maxNesting)
open Invocation (stages shapeOf)

section

variable (e : Embedding σ) (inside : Access (SessionM σ)) {registry : Registry σ} {n : Nat} (line : Option Nat)
  {s : Session σ}

/-- A question for validity is answered from the shape of what is asked about. -/
theorem answerThrough_isValid {root : String}
    (hpublished : registry.published[n]? = some (Builtin.isValid.signature root, .builtin .isValid))
    (g : Guest.Value) : (answerThrough e registry inside n [g] line s).1 =
      .bool (Builtin.guestValid (shapeOf s.memory g)) := by
  have hnames : ((Builtin.isValid.signature root).params.map Parameter.name).Nodup := by simp [Builtin.signature]
  have hvalue := Invocation.get_plain registry s.memory hnames (i := 0) rfl [g]
  obtain ⟨_, -, hcarried⟩ := Invocation.ready_plain inside registry (Invocation.isValid_isPlain root) e.host
    (.builtin .isValid) [g] s
  have houtcome : (stages e.host inside registry (Builtin.isValid.signature root) (.builtin .isValid) [g] s).outcome =
      .ok (.bool (Builtin.guestValid (shapeOf s.memory g))) := by
    rw [← Invocation.plainValue_any registry s.memory "value" g]
    exact (congrArg Prod.fst hcarried).trans
      (congrArg (fun v => Except.ok (Value.bool (Builtin.guestValid v))) hvalue)
  rw [answerThrough, hpublished]
  dsimp only
  rw [Invocation.invoke_of_ok (h := houtcome)]
  rfl

/-- A call that fails is answered with the image of its kind's sentinel. -/
theorem answerThrough_sentinel {signature : Signature} {handler : Handler σ} {args : List Guest.Value}
    {fault : OperationError} (hpublished : registry.published[n]? = some (signature, handler))
    (h : (stages e.host inside registry signature handler args s).outcome = .error fault) :
    let performed := (stages e.host inside registry signature handler args s).performed
    let given := answerThrough e registry inside n args line s
    (given.1, given.2.memory) = (Value.sentinel signature.returns).toGuest performed.memory := by
  obtain ⟨_, hinvoke⟩ := Invocation.invoke_of_error e.host inside registry signature handler args line s h
  rw [answerThrough, hpublished]
  dsimp only
  rw [hinvoke]
  rfl

end

/-- **Validity is the same for guest and host.** Whether kinds are checked or not, guest code that asks for the
validity of a value's image, at any time while the tables of the image are as they were made, is told what the host
says of the value, provided the image does not nest too deep and the value is no record that spells out the mark for
"no position". Of what it was given by a call that failed, whatever the kind of its results, it is told that it is
not valid. -/
theorem validity_agrees (e : Embedding σ) (inside : Access (SessionM σ)) (registry : Registry σ) (root : String)
    (n : Nat) (hpublished : registry.published[n]? = some (Builtin.isValid.signature root, .builtin .isValid)) :
    (∀ (v : Value) (made : Guest.State) (s : Session σ) (line : Option Nat),
      (Reading.of s.memory).Keeps made (v.toGuest made).2 →
      ¬ Stacks (.of s.memory) (maxNesting + 1) (v.toGuest made).1 → ¬ v.SpellsMark →
      (answerThrough e registry inside n [(v.toGuest made).1] line s).1 = .bool v.isValid) ∧
    (∀ (m : Nat) (signature : Signature) (handler : Handler σ) (args : List Guest.Value) (line : Option Nat)
      (s : Session σ) (fault : OperationError), registry.published[m]? = some (signature, handler) →
      let call := stages e.host inside registry signature handler args s
      let given := answerThrough e registry inside m args line s
      call.outcome = .error fault → ∀ (later : Session σ) (line : Option Nat),
        (Reading.of later.memory).Keeps call.performed.memory given.2.memory →
        (answerThrough e registry inside n [given.1] line later).1 = .bool false) := by
  refine ⟨fun v made s line hkept hdeep hmark => ?_, ?_⟩
  · rw [answerThrough_isValid e inside line hpublished, Invocation.guestValid_shapeOf_image hkept hdeep hmark]
  · intro m signature handler args line s fault hsignature call given hfailed later line' hkept
    have hgiven := answerThrough_sentinel e inside line hsignature hfailed
    have himage : given.1 = ((Value.sentinel signature.returns).toGuest call.performed.memory).1 :=
      congrArg Prod.fst hgiven
    have hmemory : given.2.memory = ((Value.sentinel signature.returns).toGuest call.performed.memory).2 :=
      congrArg Prod.snd hgiven
    rw [answerThrough_isValid e inside line' hpublished, himage,
      Invocation.guestValid_shapeOf_sentinel (hmemory ▸ hkept)]

/-- Validity, and an operation that looks for a place and never finds one. -/
def searching (checks : Bool) : Registry Unit :=
  { (Registry.new { Config.standard with typeChecking := checks } : Registry Unit) with
    published := #[(Builtin.isValid.signature "Bridge", .builtin .isValid),
      (⟨"Locate", [], .coord, false⟩, .host fun _ => return .error (.refused "no such place"))] }

/-- What is told of a coordinate, of a target that is the mark, of a list that starts with a gap and of what a call
that failed gave. A record that spells out the mark is taken for it. -/
theorem few_validities :
    let s (memory : State) : Session Unit := ⟨memory, ⟨.new .standard false, ⟨(), .empty⟩, 0, #[]⟩⟩
    let told (checks : Bool) (v : Value) : Guest.Value :=
      (answer twoPlaces (searching checks) 0 [(v.toGuest .initial).1] none (s (v.toGuest .initial).2)).1
    let given := answer twoPlaces (searching false) 1 [] none (s .initial)
    told true (.coord ⟨1, 2, 3⟩) = .bool true ∧ told false (.target (.cell .invalid)) = .bool false ∧
      told true (.list [.nil, .coord .invalid]) = .bool true ∧
      (answer twoPlaces (searching false) 0 [given.1] none given.2).1 = .bool false ∧
      told false (.ofAxes .invalid) = .bool false ∧ (Value.ofAxes .invalid).isValid = true := by
  intro s told given
  have hagrees (checks : Bool) := validity_agrees twoPlaces (lookups twoPlaces (searching checks)) (searching checks)
    "Bridge" 0 rfl
  have htold (checks : Bool) (v : Value) (hflat : v.nesting < 32) (hother : ∀ fields, v ≠ .record fields) :
      told checks v = .bool v.isValid :=
    (hagrees checks).1 v .initial (s (v.toGuest .initial).2) none (Reading.keeps_of _ _)
      (Conversion.not_stacks_image (Reading.keeps_of _ _) hflat) (Value.not_spellsMark_of_ne hother)
  have hsame : (Value.ofAxes .invalid).toGuest .initial = (Value.coord .invalid).toGuest .initial := by
    rw [Value.toGuest_ofAxes, Value.toGuest]
  refine ⟨htold _ _ (by decide) (by simp), htold _ _ (by decide) (by simp), htold _ _ (by decide) (by simp),
    ?_, ?_, rfl⟩
  · exact (hagrees false).2 1 _ _ [] none (s .initial) _ rfl rfl given.2 none (Reading.keeps_of _ _)
  · calc told false (.ofAxes .invalid)
      _ = told false (.coord .invalid) := by simp only [told, hsame]
      _ = .bool false := htold false _ (by decide) (by simp)

end Environment
end ScriptBridge
