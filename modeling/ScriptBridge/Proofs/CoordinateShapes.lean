import ScriptBridge.Proofs.ConversionToggles
import ScriptBridge.Proofs.NearestIntegers

/-! The shapes in which a table stands for a cell. Six components may be there in any mixture; the first complete
shape decides, and then each of its components has to be an integer of the width of an axis. A target is
looked for elsewhere in a table only where no shape of it is complete. -/

namespace ScriptBridge

namespace Conversion

/-! ### Components -/

/-- A shape in which a table stands for a cell. -/
inductive Shape where
  /-- The three axes by name. -/
  | named
  /-- Three positions. -/
  | triple
  /-- Two positions, on the ground. -/
  | pair
  /-- The two axes of the plane by name, on the ground. -/
  | plane
deriving DecidableEq

/-- What is found in a table under the keys that shapes are made of. -/
structure Components where
  x : Guest.Value
  y : Guest.Value
  z : Guest.Value
  first : Guest.Value
  second : Guest.Value
  third : Guest.Value

namespace Shape

/-- What a shape takes for the three axes. -/
def axes (c : Components) : Shape → Guest.Value × Guest.Value × Guest.Value
  | named => (c.x, c.y, c.z)
  | triple => (c.first, c.second, c.third)
  | pair => (c.first, .int 0, c.second)
  | plane => (c.x, .int 0, c.z)

/-- Nothing that the shape takes is missing. -/
def isComplete (c : Components) (shape : Shape) : Bool :=
  !(shape.axes c).1.isNil && !(shape.axes c).2.1.isNil && !(shape.axes c).2.2.isNil

/-- All shapes, those that are preferred first. -/
def inOrder : List Shape := [named, triple, pair, plane]

end Shape

/-- The keys in the order in which they are looked up. -/
def componentKeys : List Guest.Value := [.text "x", .text "y", .text "z", .int 1, .int 2, .int 3]

namespace Components

/-- The components of a table that holds something under every key. -/
def of (held : Guest.Value → Guest.Value) : Components :=
  ⟨held (.text "x"), held (.text "y"), held (.text "z"), held (.int 1), held (.int 2), held (.int 3)⟩

/-- The shape that decides. -/
def shape? (c : Components) : Option Shape := Shape.inOrder.find? (Shape.isComplete c)

/-- What the components are evidence of. -/
def evidence (c : Components) : Evidence :=
  match c.shape? with
  | some shape => .axes (shape.axes c).1 (shape.axes c).2.1 (shape.axes c).2.2
  | none => .none

theorem evidence_eq (c : Components) : c.evidence =
    if !c.x.isNil && !c.y.isNil && !c.z.isNil then .axes c.x c.y c.z
    else if !c.first.isNil && !c.second.isNil && !c.third.isNil then .axes c.first c.second c.third
    else if !c.first.isNil && !c.second.isNil then .axes c.first (.int 0) c.second
    else if !c.x.isNil && !c.z.isNil then .axes c.x (.int 0) c.z
    else .none := by
  have hzero : (Guest.Value.int 0).isNil = false := rfl
  simp only [evidence, shape?, Shape.inOrder, List.find?_cons, List.find?_nil, Shape.isComplete, Shape.axes, hzero,
    Bool.not_false, Bool.and_true]
  cases !c.x.isNil && !c.y.isNil && !c.z.isNil <;>
    cases !c.first.isNil && !c.second.isNil && !c.third.isNil <;>
    cases !c.first.isNil && !c.second.isNil <;> cases !c.x.isNil && !c.z.isNil <;> rfl

/-- The components without the positions when the axes are all there by name. -/
def trimmed (c : Components) : Components :=
  if Shape.named.isComplete c then ⟨c.x, c.y, c.z, .nil, .nil, .nil⟩ else c

/-- What is cut off has no say. -/
theorem shape?_trimmed (c : Components) : c.trimmed.shape? = c.shape? ∧
    ∀ shape, c.shape? = some shape → shape.axes c.trimmed = shape.axes c := by
  rw [trimmed]
  split
  · rename_i hnamed
    have hshape : c.shape? = some .named := List.find?_cons_of_pos hnamed
    have hshape' : (⟨c.x, c.y, c.z, .nil, .nil, .nil⟩ : Components).shape? = some .named :=
      List.find?_cons_of_pos hnamed
    refine ⟨hshape'.trans hshape.symm, fun shape h => ?_⟩
    obtain rfl := Option.some.inj (hshape.symm.trans h)
    rfl
  · exact ⟨rfl, fun _ _ => rfl⟩

end Components

/-! ### Axes -/

/-- The integer that a component stands for: its own, that nearest to its value, or that nearest to the double
its text is read as. -/
inductive Denotes (options : ConversionOptions) : Guest.Value → Int → Prop where
  | int (i : Int64) : Denotes options (.int i) i.toInt
  | float {x : Float} {q : ℚ} {n : Int} :
      (Binary64.ofFloat x).value? = some q → IsNearest q n → Denotes options (.float x) n
  | text {bytes : ByteArray} {x : Float} {q : ℚ} {n : Int} :
      options.autoConvert = true → numberOfText? bytes = some x → (Binary64.ofFloat x).value? = some q →
      IsNearest q n → Denotes options (.str bytes) n

section

variable {options : ConversionOptions} {v : Guest.Value} {n m : Int} {c : Coord} {x y z : Guest.Value}

theorem Denotes.unique (hn : Denotes options v n) (hm : Denotes options v m) : n = m := by
  cases hn with
  | int => cases hm; rfl
  | float hq hn =>
      cases hm with
      | float hq' hm =>
          obtain rfl := Option.some.inj (hq.symm.trans hq')
          exact hn.unique hm
  | text _ hx hq hn =>
      cases hm with
      | text _ hx' hq' hm =>
          obtain rfl := Option.some.inj (hx.symm.trans hx')
          obtain rfl := Option.some.inj (hq.symm.trans hq')
          exact hn.unique hm

theorem toInt_ok_iff {i : Int64} : toInt options v = .ok i ↔ Denotes options v i.toInt := by
  cases v with
  | int j =>
      have hvalue : toInt options (.int j) = .ok j := rfl
      rw [hvalue, Except.ok.injEq]
      refine ⟨fun heq => heq ▸ .int j, fun h => ?_⟩
      exact Int64.toInt_inj.mp ((Denotes.int j).unique h)
  | float x =>
      refine (roundToInt64_ok_iff (x := x)).trans ⟨fun ⟨q, hq, hn⟩ => .float hq hn, fun h => ?_⟩
      cases h with
      | float hq hn => exact ⟨_, hq, hn⟩
  | str bytes =>
      rw [toInt]
      split
      · rename_i x hauto hx
        refine roundToInt64_ok_iff.trans ⟨fun ⟨q, hq, hn⟩ => .text hauto hx hq hn, fun h => ?_⟩
        cases h with
        | text _ hx' hq hn =>
            obtain rfl := Option.some.inj (hx.symm.trans hx')
            exact ⟨_, hq, hn⟩
      · rename_i hnot
        refine iff_of_false (fun h => by cases h) fun h => ?_
        cases h with
        | text hauto hx => exact hnot _ hauto hx
  | _ => exact iff_of_false (fun h => by cases h) fun h => by cases h

theorem toAxis_ok_iff {i : Int32} : toAxis options v = .ok i ↔ Denotes options v i.toInt := by
  rw [toAxis, bind_ok_iff]
  constructor
  · rintro ⟨wide, hwide, hnarrow⟩
    rw [narrowToInt32_ok_iff.mp hnarrow]
    exact toInt_ok_iff.mp hwide
  · intro h
    have hlow := i.le_toInt
    have hhigh := i.toInt_lt
    have hwide : (Int64.ofInt i.toInt).toInt = i.toInt := Int64.toInt_ofInt_of_le (by omega) (by omega)
    exact ⟨Int64.ofInt i.toInt, toInt_ok_iff.mpr (hwide.symm ▸ h), narrowToInt32_ok_iff.mpr hwide.symm⟩

/-- A component that serves as an axis. -/
def IsAxis (options : ConversionOptions) (v : Guest.Value) : Prop :=
  ∃ n, Denotes options v n ∧ -2 ^ 31 ≤ n ∧ n < 2 ^ 31

theorem isAxis_iff : IsAxis options v ↔ ∃ i, toAxis options v = .ok i := by
  constructor
  · rintro ⟨n, hn, hlow, hhigh⟩
    have hvalue : (Int32.ofInt n).toInt = n := Int32.toInt_ofInt_of_le (by omega) (by omega)
    exact ⟨Int32.ofInt n, toAxis_ok_iff.mpr (hvalue.symm ▸ hn)⟩
  · rintro ⟨i, hi⟩
    exact ⟨i.toInt, toAxis_ok_iff.mp hi, i.le_toInt, i.toInt_lt⟩

theorem toCell_ok_iff : toCell options x y z = .ok c ↔
    Denotes options x c.x.toInt ∧ Denotes options y c.y.toInt ∧ Denotes options z c.z.toInt := by
  simp only [← toAxis_ok_iff, toCell, bind_ok_iff]
  constructor
  · rintro ⟨i, hi, j, hj, k, hk, heq⟩
    obtain rfl := Except.ok.inj heq
    exact ⟨hi, hj, hk⟩
  · rintro ⟨hi, hj, hk⟩
    exact ⟨_, hi, _, hj, _, hk, rfl⟩

theorem exists_toCell_iff :
    (∃ c, toCell options x y z = .ok c) ↔ IsAxis options x ∧ IsAxis options y ∧ IsAxis options z := by
  simp only [isAxis_iff, toCell_ok_iff, ← toAxis_ok_iff]
  constructor
  · rintro ⟨c, hx, hy, hz⟩
    exact ⟨⟨_, hx⟩, ⟨_, hy⟩, ⟨_, hz⟩⟩
  · rintro ⟨⟨i, hx⟩, ⟨j, hy⟩, k, hz⟩
    exact ⟨⟨i, j, k⟩, hx, hy, hz⟩

end

theorem map_cell (cell : Except ConversionError Coord) :
    (cell.map Target.cell).map Value.target = cell.map fun c => .target (.cell c) := by
  cases cell <;> rfl

end Conversion

open Conversion

/-! ### Looking things up -/

/-- Looks up the components of a table one after another, the positions only if an axis is missing by name. -/
def Access.components {m : Type → Type} [Monad m] (access : Access m) (address : Nat) : m Components := do
  let x ← access.lookup address (.text "x")
  let y ← access.lookup address (.text "y")
  let z ← access.lookup address (.text "z")
  if !x.isNil && !y.isNil && !z.isNil then return ⟨x, y, z, .nil, .nil, .nil⟩
  let first ← access.lookup address (.int 1)
  let second ← access.lookup address (.int 2)
  let third ← access.lookup address (.int 3)
  return ⟨x, y, z, first, second, third⟩

namespace Access

variable {σ : Type} (access : Access (SessionM σ)) (address : Nat) (s : Session σ)

/-- A table is evidence of what its components are evidence of. -/
theorem axes_run : access.axes address s =
    ((access.components address s).1.evidence, (access.components address s).2) := by
  simp only [axes, components, run_bind]
  generalize access.lookup address (.text "x") s = atX
  generalize access.lookup address (.text "y") atX.2 = atY
  generalize access.lookup address (.text "z") atY.2 = atZ
  cases hnamed : !atX.1.isNil && !atY.1.isNil && !atZ.1.isNil with
  | true =>
      show (Evidence.axes atX.1 atY.1 atZ.1, atZ.2) = (Components.evidence ⟨_, _, _, .nil, .nil, .nil⟩, atZ.2)
      rw [Components.evidence_eq, if_pos hnamed]
  | false =>
      simp only [Bool.false_eq_true, if_false, run_bind]
      generalize access.lookup address (.int 1) atZ.2 = atFirst
      generalize access.lookup address (.int 2) atFirst.2 = atSecond
      generalize access.lookup address (.int 3) atSecond.2 = atThird
      show _ = (Components.evidence ⟨_, _, _, atFirst.1, atSecond.1, atThird.1⟩, atThird.2)
      simp only [Components.evidence_eq, hnamed, Bool.false_eq_true, if_false]
      split
      · rfl
      · split
        · rfl
        · split <;> rfl

/-- What is found under the name of an object, after the components. -/
def entityEntry : Guest.Value × Session σ :=
  access.lookup address (.text "Entity") (access.components address s).2

/-- What is found under the name of a cell, after that. -/
def cellEntry : Guest.Value × Session σ :=
  access.lookup address (.text "Cell") (access.entityEntry address s).2

/-- Where looking things up changes nothing, the components are what is held under the six keys. -/
theorem components_run {held : Guest.Value → Guest.Value}
    (h : ∀ key ∈ componentKeys, access.lookup address key s = (held key, s)) :
    access.components address s = ((Components.of held).trimmed, s) := by
  simp only [componentKeys, List.forall_mem_cons] at h
  obtain ⟨hx, hy, hz, h1, h2, h3, -⟩ := h
  simp only [components, run_bind, hx, hy, hz, Components.trimmed]
  change _ =
    (if !(held (.text "x")).isNil && !(held (.text "y")).isNil && !(held (.text "z")).isNil then _ else _, s)
  split
  · rfl
  · simp only [run_bind, h1, h2, h3]
    rfl

/-- What a table is evidence of as a target: of its own components where they are complete. -/
theorem targetOfTable_of_shape {shape : Shape} (h : (access.components address s).1.shape? = some shape) :
    access.targetOfTable address s = access.axes address s := by
  rw [targetOfTable, run_bind, axes_run, Components.evidence, h]
  rfl

section

variable (h : (access.components address s).1.shape? = none)

include h

theorem axes_of_no_shape : access.axes address s = (.none, (access.components address s).2) := by
  rw [axes_run, Components.evidence, h]

/-- Else it is the object under one name, or the cell under another. -/
theorem targetOfTable_of_no_shape : access.targetOfTable address s =
    match (access.entityEntry address s).1 with
    | .handle handle _ => (.entity handle, (access.entityEntry address s).2)
    | _ =>
      match (access.cellEntry address s).1 with
      | .table inner => access.axes inner (access.cellEntry address s).2
      | _ => (.none, (access.cellEntry address s).2) := by
  rw [targetOfTable, run_bind, access.axes_of_no_shape address s h]
  dsimp only
  rw [run_bind, cellEntry, entityEntry]
  generalize access.lookup address (.text "Entity") (access.components address s).2 = entity
  obtain ⟨held, s₁⟩ := entity
  cases held with
  | handle => rfl
  | _ =>
      dsimp only
      rw [run_bind]
      generalize access.lookup address (.text "Cell") s₁ = cell
      obtain ⟨within, s₂⟩ := cell
      cases within <;> rfl

section

variable (hentity : ∀ handle identity, (access.entityEntry address s).1 ≠ .handle handle identity)

include hentity

theorem targetOfTable_of_cell {inner : Nat} (hcell : (access.cellEntry address s).1 = .table inner) :
    access.targetOfTable address s = access.axes inner (access.cellEntry address s).2 := by
  rw [access.targetOfTable_of_no_shape address s h]
  split
  · rename_i hhandle
    exact absurd hhandle (hentity _ _)
  · rw [hcell]

theorem targetOfTable_of_neither (hcell : ∀ inner, (access.cellEntry address s).1 ≠ .table inner) :
    access.targetOfTable address s = (.none, (access.cellEntry address s).2) := by
  rw [access.targetOfTable_of_no_shape address s h]
  split
  · rename_i hhandle
    exact absurd hhandle (hentity _ _)
  · split
    · rename_i htable
      exact absurd htable (hcell _)
    · rfl

end

end

end Access

namespace Invocation

variable {σ : Type}

/-- How the components found in a table decide what it is converted to. -/
structure Resolved (access : Access (SessionM σ)) (options : ConversionOptions) (address : Nat) (s : Session σ) :
    Prop where
  /-- The first complete shape alone decides, of a coordinate and of a target alike: its components are the axes
  of the cell, each an integer of their width. -/
  by_shape : ∀ shape x y z, (access.components address s).1.shape? = some shape →
    shape.axes (access.components address s).1 = (x, y, z) →
    ∃ cell : Except ConversionError Coord,
      (∃ journal, convert access options .coord (.table address) s =
        (cell.map .coord, (access.components address s).2.withJournal journal)) ∧
      (∃ journal, convert access options .target (.table address) s =
        (cell.map fun c => .target (.cell c), (access.components address s).2.withJournal journal)) ∧
      (∀ c, cell = .ok c ↔
        Denotes options x c.x.toInt ∧ Denotes options y c.y.toInt ∧ Denotes options z c.z.toInt) ∧
      ((∃ c, cell = .ok c) ↔ IsAxis options x ∧ IsAxis options y ∧ IsAxis options z)
  /-- Without one a table is no coordinate. -/
  no_shape : (access.components address s).1.shape? = none →
    ∃ journal, convert access options .coord (.table address) s =
      (.error (.unsupportedShape .coord "table"), (access.components address s).2.withJournal journal)
  /-- It may still be a target: the object it names. -/
  by_entity : (access.components address s).1.shape? = none →
    ∀ handle identity, (access.entityEntry address s).1 = .handle handle identity →
      ∃ journal, convert access options .target (.table address) s =
        (.ok (.target (.entity handle)), (access.entityEntry address s).2.withJournal journal)
  /-- If it names none, the cell it names, which is a coordinate by the same rules. -/
  by_cell : (access.components address s).1.shape? = none →
    (∀ handle identity, (access.entityEntry address s).1 ≠ .handle handle identity) →
    ∀ inner, (access.cellEntry address s).1 = .table inner →
      let within := access.components inner (access.cellEntry address s).2
      (∀ shape, within.1.shape? = some shape → ∃ cell : Except ConversionError Coord,
        (convert access options .coord (.table inner) (access.cellEntry address s).2).1 = cell.map .coord ∧
        (convert access options .target (.table address) s).1 = cell.map fun c => .target (.cell c)) ∧
      (within.1.shape? = none →
        (convert access options .target (.table address) s).1 = .error (.unsupportedShape .target "table"))
  /-- If it names neither, it is no target. -/
  neither : (access.components address s).1.shape? = none →
    (∀ handle identity, (access.entityEntry address s).1 ≠ .handle handle identity) →
    (∀ inner, (access.cellEntry address s).1 ≠ .table inner) →
      (convert access options .target (.table address) s).1 = .error (.unsupportedShape .target "table")

section

variable (access : Access (SessionM σ)) (options : ConversionOptions) (address : Nat) (s : Session σ)

theorem convert_coord_run : ∃ journal, convert access options .coord (.table address) s =
    ((toCoord options (access.axes address s).1 (.table address)).map .coord,
      (access.axes address s).2.withJournal journal) :=
  convert_run access options .coord (.table address) s

theorem convert_target_run : ∃ journal, convert access options .target (.table address) s =
    ((toTarget options (access.targetOfTable address s).1 (.table address)).map .target,
      (access.targetOfTable address s).2.withJournal journal) :=
  convert_run access options .target (.table address) s

theorem axes_of_shape {shape : Shape} {x y z : Guest.Value}
    (hshape : (access.components address s).1.shape? = some shape)
    (haxes : shape.axes (access.components address s).1 = (x, y, z)) :
    access.axes address s = (.axes x y z, (access.components address s).2) := by
  rw [access.axes_run, Components.evidence, hshape]
  dsimp only
  rw [haxes]

theorem resolved : Resolved access options address s where
  by_shape shape x y z hshape haxes := by
    obtain ⟨journal, hcoord⟩ := convert_coord_run access options address s
    obtain ⟨journal', htarget⟩ := convert_target_run access options address s
    have hfound := axes_of_shape access address s hshape haxes
    rw [access.targetOfTable_of_shape address s hshape, hfound] at htarget
    rw [hfound] at hcoord
    refine ⟨toCell options x y z, ⟨journal, hcoord⟩, ⟨journal', ?_⟩, fun c => toCell_ok_iff, exists_toCell_iff⟩
    rw [htarget]
    exact congrArg (·, (access.components address s).2.withJournal journal') (map_cell _)
  no_shape hnone := by
    obtain ⟨journal, hcoord⟩ := convert_coord_run access options address s
    rw [access.axes_of_no_shape address s hnone] at hcoord
    exact ⟨journal, hcoord⟩
  by_entity hnone handle identity hentity := by
    obtain ⟨journal, htarget⟩ := convert_target_run access options address s
    rw [access.targetOfTable_of_no_shape address s hnone, hentity] at htarget
    exact ⟨journal, htarget⟩
  by_cell hnone hentity inner hcell := by
    obtain ⟨_, htarget⟩ := convert_target_run access options address s
    obtain ⟨_, hcoord⟩ := convert_coord_run access options inner (access.cellEntry address s).2
    rw [access.targetOfTable_of_cell address s hnone hentity hcell] at htarget
    refine ⟨fun shape hshape => ?_, fun hnone' => ?_⟩
    · rw [axes_of_shape access inner (access.cellEntry address s).2 hshape rfl] at htarget hcoord
      refine ⟨_, congrArg Prod.fst hcoord, (congrArg Prod.fst htarget).trans ?_⟩
      exact map_cell _
    · rw [access.axes_of_no_shape inner (access.cellEntry address s).2 hnone'] at htarget
      exact congrArg Prod.fst htarget
  neither hnone hentity hcell := by
    obtain ⟨_, htarget⟩ := convert_target_run access options address s
    rw [access.targetOfTable_of_neither address s hnone hentity hcell] at htarget
    exact congrArg Prod.fst htarget

end

end Invocation

namespace Environment

variable {σ : Type}

/-- Guest code answers a lookup; where it raises, nothing is found. -/
theorem lookup_run (e : Embedding σ) (answer : Answer σ) (address : Nat) (key : Guest.Value) (s : Session σ) :
    (access e answer).lookup address key s =
      match Session.runGuest answer (e.engine.index address key) s with
      | (.ok value, s') => (value, s')
      | (.error _, s') => (.nil, s') := by
  show (Session.runGuest answer (e.engine.index address key) >>= _) s = _
  rw [run_bind]
  obtain ⟨result, s'⟩ := Session.runGuest answer (e.engine.index address key) s
  cases result <;> rfl

/-- A lookup that ends without asking a function finds what is there, be it in a table that stands in. -/
theorem lookup_found (host : Host σ) (hasCheckers : Bool) (answer : Answer σ) {address : Nat}
    {key value : Guest.Value} {s : Session σ}
    (h : s.memory.lookup key Guest.State.lookupLimit (.table address) = .found value) :
    (access ⟨.standard, host, hasCheckers⟩ answer).lookup address key s = (value, s) := by
  have hindex : Guest.Engine.standard.index address key s.memory = .finished (.ok value) s.memory :=
    Guest.lookup_of_found 999999999 [none] 0 "" h
  have hrun : Session.runGuest answer (Guest.Engine.standard.index address key) s = (.ok value, s) := by
    show (Guest.Engine.standard.index address key s.memory).follow answer s.bridge = _
    rw [hindex]
    rfl
  rw [lookup_run]
  dsimp only
  rw [hrun]

/-- **Tables resolve to one shape.** Whatever a table holds and whatever looking into it does, the first complete
shape decides what coordinate it is, and the components of that shape have to be integers that fit; they are taken
as they are or refused. The same decides what target the table is, and an object or a cell that the table names is
asked for only if no shape is complete. -/
theorem tables_resolve (e : Embedding σ) (answer : Answer σ) (options : ConversionOptions) (address : Nat)
    (s : Session σ) :
    (∀ key s', (access e answer).lookup address key s' =
      match Session.runGuest answer (e.engine.index address key) s' with
      | (.ok value, s'') => (value, s'')
      | (.error _, s'') => (.nil, s'')) ∧
    (e.engine = .standard → ∀ held : Guest.Value → Guest.Value,
      (∀ key ∈ componentKeys,
        s.memory.lookup key Guest.State.lookupLimit (.table address) = .found (held key)) →
      let found := (access e answer).components address s
      found.1.shape? = (Components.of held).shape? ∧
        (∀ shape, (Components.of held).shape? = some shape →
          shape.axes found.1 = shape.axes (Components.of held)) ∧
        found.2 = s) ∧
    Invocation.Resolved (access e answer) options address s := by
  refine ⟨lookup_run e answer address, fun hstandard held hfound => ?_, Invocation.resolved _ options address s⟩
  obtain ⟨engine, host, hasCheckers⟩ := e
  obtain rfl : engine = .standard := hstandard
  have hrun := (access ⟨.standard, host, hasCheckers⟩ answer).components_run address s fun key hkey =>
    lookup_found host hasCheckers answer (hfound key hkey)
  obtain ⟨hshape, haxes⟩ := (Components.of held).shape?_trimmed
  rw [hrun]
  exact ⟨hshape, haxes, rfl⟩

/-- A table with all named axes, one of them no number, and with three good positions. -/
def mixedTable : Guest.Table :=
  ((((((Guest.Table.empty.set (.text "x") (.int 1)).set (.text "y") (.bool true)).set (.text "z") (.int 3)).set
    (.int 1) (.int 4)).set (.int 2) (.int 5)).set (.int 3) (.int 6))

/-- The named axes decide, so the table is neither a coordinate nor a target. -/
theorem mixed_table_refused :
    let e : Embedding Unit := ⟨.standard, Host.bare Unit, false⟩
    let s : Session Unit :=
      ⟨⟨#[mixedTable], #[], #[], #[], #[], 0, #[], none⟩, ⟨.new .standard false, ⟨(), .empty⟩, 0, #[]⟩⟩
    let access := access e fun _ _ _ => return .nil
    (∀ c, (Invocation.convert access ⟨true, false, false⟩ .coord (.table 0) s).1 ≠ .ok (.coord c)) ∧
      ∀ v, (Invocation.convert access ⟨true, false, false⟩ .target (.table 0) s).1 ≠ .ok v := by
  intro e s access
  obtain ⟨-, hquiet, hresolved⟩ := tables_resolve e (fun _ _ _ => return .nil) ⟨true, false, false⟩ 0 s
  have hraw : ∀ key ∈ componentKeys, s.memory.lookup key Guest.State.lookupLimit (.table 0) =
      .found (s.memory.rawGet 0 key) := fun key _ => Guest.lookup_raw key 1999 rfl
  obtain ⟨hshape, haxes, -⟩ := hquiet rfl _ hraw
  have hnamed : (Components.of (s.memory.rawGet 0)).shape? = some .named := by decide +kernel
  have hparts : Shape.named.axes (Components.of (s.memory.rawGet 0)) = (.int 1, .bool true, .int 3) := by
    decide +kernel
  obtain ⟨cell, ⟨_, hcoord⟩, ⟨_, htarget⟩, -, hok⟩ :=
    hresolved.by_shape .named _ _ _ (hshape.trans hnamed) ((haxes _ hnamed).trans hparts)
  have hrefused : ∀ c, cell ≠ .ok c := by
    intro c hc
    obtain ⟨-, ⟨n, hn, -⟩, -⟩ := hok.mp ⟨c, hc⟩
    cases hn
  rw [hcoord, htarget]
  cases cell with
  | ok c => exact absurd rfl (hrefused c)
  | error fault => exact ⟨fun _ h => (nomatch h), fun _ h => (nomatch h)⟩

end Environment

end ScriptBridge
