import ScriptBridge.Environment
import ScriptBridge.Guest.Interpreter
import ScriptBridge.Proofs.GuestImages

/-! The round trip of host values through the guest. Whatever a conversion to a kind gives is a fixed point:
its image in the guest's memory converts back to it, to the same kind, whatever the options and the
application are then. -/

namespace ScriptBridge

open Guest (State Engine)

/-! ### Lookups in tables without metatables -/

namespace Guest

variable {s : State} {address : Nat}

theorem lookup_raw (key : Value) (hops : Nat) (h : (s.table address).metatable = none) :
    s.lookup key (hops + 1) (.table address) = .found (s.rawGet address key) := by
  rw [State.lookup, State.fallbackOf, h]
  cases s.rawGet address key <;> rfl

theorem lookup_of_found {key value : Value} (fuel : Nat) (stack : CallStack) (depth : Nat) (about : String)
    (hfound : s.lookup key State.lookupLimit (.table address) = .found value) :
    Interpreter.lookup (fuel + 1) (.table address) key stack depth about s = .finished (.ok value) s := by
  rw [Interpreter.lookup]
  simp only [bind, Eval.bind, Eval.read, Run.bind, hfound]
  rfl

theorem index_raw (key : Value) (h : (s.table address).metatable = none) :
    Engine.standard.index address key s = .finished (.ok (s.rawGet address key)) s :=
  lookup_of_found 999999999 [none] 0 "" (lookup_raw key 1999 h)

end Guest

namespace Environment

variable {σ : Type} {s : Session σ} {address : Nat}

theorem lookup_raw (host : Host σ) (hasCheckers : Bool) (answer : Answer σ) (key : Guest.Value)
    (h : (s.memory.table address).metatable = none) :
    (access ⟨.standard, host, hasCheckers⟩ answer).lookup address key s = (s.memory.rawGet address key, s) := by
  have hrun : Session.runGuest answer (Engine.standard.index address key) s =
      (.ok (s.memory.rawGet address key), s) := by
    change (Engine.standard.index address key s.memory).follow answer s.bridge = _
    rw [Guest.index_raw key h]
    rfl
  change (Session.runGuest answer (Engine.standard.index address key) >>= _) s = _
  simp only [bind, StateT.bind, hrun]
  rfl

/-- The axes of a coordinate's table are found in it. -/
theorem axes_toTable (host : Host σ) (hasCheckers : Bool) (answer : Answer σ) {c : Coord}
    (h : s.memory.table address = c.toTable) :
    (access ⟨.standard, host, hasCheckers⟩ answer).axes address s =
      (.axes (.int (Int64.ofInt c.x.toInt)) (.int (Int64.ofInt c.y.toInt)) (.int (Int64.ofInt c.z.toInt)), s) := by
  have hlookup : ∀ {α : Type} (key : Guest.Value) (next : Guest.Value → SessionM σ α),
      ((access ⟨.standard, host, hasCheckers⟩ answer).lookup address key >>= next) s =
        next (c.toTable.get key) s := by
    intro α key next
    have hraw := lookup_raw host hasCheckers answer key
      (show (s.memory.table address).metatable = none by rw [h]; rfl)
    simp only [bind, StateT.bind, hraw, State.rawGet, h]
  have hx : c.toTable.get (.text "x") = .int (Int64.ofInt c.x.toInt) := rfl
  have hy : c.toTable.get (.text "y") = .int (Int64.ofInt c.y.toInt) := rfl
  have hz : c.toTable.get (.text "z") = .int (Int64.ofInt c.z.toInt) := rfl
  rw [Access.axes, hlookup, hx, hlookup, hy, hlookup, hz]
  rfl

end Environment

namespace Conversion

variable {options : ConversionOptions} {reading : Reading} {kind : Kind} {evidence : Evidence} {v : Value}

theorem toAxis_toInt (options : ConversionOptions) (i : Int32) :
    toAxis options (.int (Int64.ofInt i.toInt)) = .ok i := by
  have hlow := i.le_toInt
  have hhigh := i.toInt_lt
  have hwide : (Int64.ofInt i.toInt).toInt = i.toInt := Int64.toInt_ofInt_of_le (by omega) (by omega)
  have hrange : Int32.minValue.toInt ≤ i.toInt ∧ i.toInt ≤ Int32.maxValue.toInt := by
    have hmin : Int32.minValue.toInt = -2 ^ 31 := by decide
    have hmax : Int32.maxValue.toInt = 2 ^ 31 - 1 := by decide
    omega
  change narrowToInt32 (Int64.ofInt i.toInt) = .ok i
  rw [narrowToInt32, hwide, int32Of?, if_pos hrange, Int32.ofInt_toInt]

theorem toCell_axes (options : ConversionOptions) (c : Coord) :
    toCell options (.int (Int64.ofInt c.x.toInt)) (.int (Int64.ofInt c.y.toInt))
      (.int (Int64.ofInt c.z.toInt)) = .ok c := by
  rw [toCell, toAxis_toInt, toAxis_toInt, toAxis_toInt]
  rfl

/-! ### What a conversion can give -/

/-- The values that some conversion to a kind can give. -/
def Fits : Kind → Value → Prop
  | .any, v => v = .nil ∨ Plain maxNesting v
  | .nil, v => v = .nil
  | .bool, v => ∃ b, v = .bool b
  | .int, v => ∃ i, v = .int i
  | .number, v => ∃ x, v = .number x
  | .string, v => ∃ text, v = .str text
  | .coord, v => ∃ c, v = .coord c
  | .target, v => ∃ t, v = .target t
  | .handle _, v => v = .nil ∨ ∃ h, v = .handle h
  | .callback, v => ∃ f, v = .callback f
  | .list, v => ∃ items, v = .list items ∧ items.length ≤ Guest.Table.greatestIndex ∧
      ∀ item ∈ items, Plain (maxNesting - 1) item
  | .record, v => ∃ fields, v = .record fields ∧ Value.InKeyOrder fields ∧
      ∀ field ∈ fields, Plain (maxNesting - 1) field.2

theorem fits_of_map {α : Type} {x : Except ConversionError α} {f : α → Value} (h : x.map f = .ok v) :
    ∃ a, v = f a := by
  obtain ⟨a, -, hv⟩ := map_ok_iff.mp h
  exact ⟨a, hv⟩

theorem convert_fits {g : Guest.Value} (h : (convert options reading kind evidence g).result = .ok v) :
    Fits kind v := by
  change decide options reading kind evidence g = .ok v at h
  cases kind with
  | any =>
      cases hg : g.isNil with
      | true =>
          cases g <;> cases hg
          exact .inl (Except.ok.inj h).symm
      | false => exact .inr (structural_plain h hg)
  | nil => exact (Except.ok.inj h).symm
  | bool => exact fits_of_map h
  | int => exact fits_of_map h
  | number => exact fits_of_map h
  | string => exact fits_of_map h
  | coord => exact fits_of_map h
  | target => exact fits_of_map h
  | handle expected =>
      cases g with
      | nil => exact .inl (Except.ok.inj h).symm
      | handle handle identity => exact .inr ⟨handle, (Except.ok.inj h).symm⟩
      | _ => cases h
  | callback =>
      cases g with
      | function f => exact ⟨f, (Except.ok.inj h).symm⟩
      | _ => cases h
  | list =>
      cases g with
      | table address => exact listOf_plain h structural_plain
      | _ => cases h
  | record =>
      cases g with
      | table address =>
          obtain ⟨fields, hv, -, horder, hfields⟩ := recordOf_plain h structural_plain
          exact ⟨fields, hv, horder, hfields⟩
      | _ => cases h

/-! ### There and back -/

/-- A value's image, made in any session of any application, converts back to the value, whatever the
options are. -/
def Survives (kind : Kind) (v : Value) : Prop :=
  ∀ (σ : Type) (host : Host σ) (hasCheckers : Bool) (answer : Answer σ) (options : ConversionOptions)
    (s : Session σ),
    let access := Environment.access ⟨Engine.standard, host, hasCheckers⟩ answer
    let (image, s) := Session.onMemory v.toGuest s
    (Invocation.convert access options kind image s).1 = .ok v

/-- Evidence that is found without changing the session decides what the image converts to. -/
theorem survives_of_evidence
    (h : ∀ (σ : Type) (host : Host σ) (hasCheckers : Bool) (answer : Answer σ) (bridge : Bridge σ) (s : State),
      let access := Environment.access ⟨Engine.standard, host, hasCheckers⟩ answer
      ∃ evidence, access.evidence kind (v.toGuest s).1 ⟨(v.toGuest s).2, bridge⟩ =
          (evidence, ⟨(v.toGuest s).2, bridge⟩) ∧
        ∀ options, decide options (Reading.of (v.toGuest s).2) kind evidence (v.toGuest s).1 = .ok v) :
    Survives kind v := by
  intro σ host hasCheckers answer options s
  obtain ⟨evidence, hevidence, hresult⟩ := h σ host hasCheckers answer s.bridge s.memory
  change (((Environment.access ⟨Engine.standard, host, hasCheckers⟩ answer).evidence kind
      (v.toGuest s.memory).1 >>= fun evidence => _) (⟨(v.toGuest s.memory).2, s.bridge⟩ : Session σ)).1 = _
  simp only [bind, StateT.bind, hevidence]
  exact hresult options

/-- Where no evidence is asked for, the image and the memory decide. -/
theorem survives_of_decide
    (hkind : ∀ {m : Type → Type} [Monad m] (access : Access m) (s : State),
      access.evidence kind (v.toGuest s).1 = pure .none)
    (h : ∀ options s, decide options (Reading.of (v.toGuest s).2) kind .none (v.toGuest s).1 = .ok v) :
    Survives kind v :=
  survives_of_evidence fun _ _ _ _ _ s => ⟨.none, by rw [hkind]; rfl, fun options => h options s⟩

theorem toGuest_coord (c : Coord) (s : State) : (Value.coord c).toGuest s = Value.allocate c.toTable s := by
  rw [Value.toGuest]

theorem toGuest_cell (c : Coord) (s : State) :
    (Value.target (.cell c)).toGuest s = Value.allocate c.toTable s := by
  rw [Value.toGuest]

theorem survives_coord (c : Coord) : Survives .coord (.coord c) := by
  refine survives_of_evidence fun σ host hasCheckers answer bridge s => ?_
  rw [toGuest_coord]
  have haxes := Environment.axes_toTable host hasCheckers answer (s := ⟨(Value.allocate c.toTable s).2, bridge⟩)
    (Value.table_allocate c.toTable s)
  refine ⟨_, haxes, fun options => ?_⟩
  change (toCell options _ _ _).map Value.coord = _
  rw [toCell_axes]
  rfl

theorem survives_cell (c : Coord) : Survives .target (.target (.cell c)) := by
  refine survives_of_evidence fun σ host hasCheckers answer bridge s => ?_
  rw [toGuest_cell]
  have haxes := Environment.axes_toTable host hasCheckers answer (s := ⟨(Value.allocate c.toTable s).2, bridge⟩)
    (Value.table_allocate c.toTable s)
  refine ⟨.axes (.int (Int64.ofInt c.x.toInt)) (.int (Int64.ofInt c.y.toInt)) (.int (Int64.ofInt c.z.toInt)),
    ?_, fun options => ?_⟩
  · change (Environment.access _ answer).targetOfTable s.tables.size _ = _
    simp only [Access.targetOfTable, bind, StateT.bind, haxes]
    rfl
  · change ((toCell options _ _ _).map Target.cell).map Value.target = _
    rw [toCell_axes]
    rfl

theorem survives_target : ∀ t : Target, Survives .target (.target t)
  | .cell c => survives_cell c
  | .entity h => survives_of_decide (fun _ _ => by rw [Value.toGuest]; rfl) fun _ _ => by rw [Value.toGuest]; rfl
  | .invalid => survives_of_decide (fun _ _ => by rw [Value.toGuest]; rfl) fun _ _ => by rw [Value.toGuest]; rfl

theorem survives_any (h : Plain maxNesting v) : Survives .any v := by
  refine survives_of_decide (fun _ _ => rfl) fun options s => ?_
  exact (h.hasImages s).2.reads _ fun _ _ => rfl

theorem survives_list {items : List Value} (hlength : items.length ≤ Guest.Table.greatestIndex)
    (hitems : ∀ item ∈ items, Plain (maxNesting - 1) item) : Survives .list (.list items) := by
  refine survives_of_decide (fun _ _ => rfl) fun options s => ?_
  obtain ⟨t, made, himage, -, hholds⟩ := toGuest_list (fun item hitem => (hitems item hitem).hasImages) hlength s
  rw [himage]
  change listOf _ ((Value.allocate t made).2.table made.tables.size) = _
  rw [Value.table_allocate]
  exact hholds.reads_list hlength (Value.covers_reading t made)

theorem survives_record {fields : List (String × Value)} (horder : Value.InKeyOrder fields)
    (hfields : ∀ field ∈ fields, Plain (maxNesting - 1) field.2) : Survives .record (.record fields) := by
  refine survives_of_decide (fun _ _ => rfl) fun options s => ?_
  obtain ⟨t, made, himage, -, hholds⟩ :=
    toGuest_record (fun field hfield => (hfields field hfield).hasImages) horder s
  rw [himage]
  change recordOf _ ((Value.allocate t made).2.table made.tables.size) = _
  rw [Value.table_allocate]
  exact hholds.reads_record horder (Value.covers_reading t made)

/-- What a conversion to a kind can give comes back to that kind. -/
theorem survives_of_fits (h : Fits kind v) : Survives kind v := by
  cases kind with
  | any =>
      rcases h with rfl | hplain
      · exact survives_of_decide (fun _ _ => rfl) fun _ _ => by rw [Value.toGuest]; rfl
      · exact survives_any hplain
  | nil =>
      obtain rfl := h
      exact survives_of_decide (fun _ _ => rfl) fun _ _ => rfl
  | bool =>
      obtain ⟨b, rfl⟩ := h
      exact survives_of_decide (fun _ _ => rfl) fun _ _ => by rw [Value.toGuest]; rfl
  | int =>
      obtain ⟨i, rfl⟩ := h
      exact survives_of_decide (fun _ _ => rfl) fun _ _ => by rw [Value.toGuest]; rfl
  | number =>
      obtain ⟨x, rfl⟩ := h
      exact survives_of_decide (fun _ _ => rfl) fun _ _ => by rw [Value.toGuest]; rfl
  | string =>
      obtain ⟨text, rfl⟩ := h
      refine survives_of_decide (fun _ _ => rfl) fun _ _ => ?_
      rw [Value.toGuest]
      exact congrArg (fun text => Except.ok (Value.str text)) (Text.ofBytes_toUTF8 text)
  | coord =>
      obtain ⟨c, rfl⟩ := h
      exact survives_coord c
  | target =>
      obtain ⟨t, rfl⟩ := h
      exact survives_target t
  | handle expected =>
      rcases h with rfl | ⟨handle, rfl⟩
      · exact survives_of_decide (fun _ _ => rfl) fun _ _ => by rw [Value.toGuest]; rfl
      · exact survives_of_decide (fun _ _ => rfl) fun _ _ => by rw [Value.toGuest]; rfl
  | callback =>
      obtain ⟨f, rfl⟩ := h
      exact survives_of_decide (fun _ _ => rfl) fun _ _ => by rw [Value.toGuest]; rfl
  | list =>
      obtain ⟨items, rfl, hlength, hitems⟩ := h
      exact survives_list hlength hitems
  | record =>
      obtain ⟨fields, rfl, horder, hfields⟩ := h
      exact survives_record horder hfields

/-- Converted values are fixed points of the round trip, and so are all coordinates, targets and handles,
which every one of their kinds can be converted to. -/
theorem round_trip :
    (∀ (options : ConversionOptions) (reading : Reading) (kind : Kind) (evidence : Evidence) (g : Guest.Value)
      (v : Value), (convert options reading kind evidence g).result = .ok v → Survives kind v) ∧
    (∀ c, Survives .coord (.coord c)) ∧ (∀ t, Survives .target (.target t)) ∧
    (∀ h expected, Survives (.handle expected) (.handle h)) ∧ (∀ h, Survives .any (.handle h)) :=
  ⟨fun _ _ _ _ _ _ h => survives_of_fits (convert_fits h), survives_coord, survives_target,
    fun h _ => survives_of_fits (.inr ⟨h, rfl⟩), fun h => survives_any (v := .handle h) trivial⟩

theorem couple_survives : Survives .any (.list [.int 5, .bool true]) :=
  round_trip.1 ⟨true, true, true⟩ (onlyTable couple 2 couple_border) .any .none (.table 0) _ rfl

end Conversion
end ScriptBridge
