import ScriptBridge.Guest.State
import ScriptBridge.Value

/-! Host values as guest values. Coordinates become tables of their axes, lists and records become
tables, references become opaque objects, and what stands for "no target" becomes nil. -/

namespace ScriptBridge

open Guest (State)

/-- The table of a coordinate's axes. -/
def Coord.toTable (c : Coord) : Guest.Table :=
  let axis (i : Int32) : Guest.Value := .int (Int64.ofInt i.toInt)
  Guest.Table.empty
    |>.set (.text "x") (axis c.x)
    |>.set (.text "y") (axis c.y)
    |>.set (.text "z") (axis c.z)

namespace Value

def allocate (t : Guest.Table) (s : State) : Guest.Value × State :=
  let (address, s) := s.newTable t
  (.table address, s)

def wrapHandle (h : Handle) (s : State) : Guest.Value × State :=
  let (identity, s) := s.newObject
  (.handle h identity, s)

mutual

/-- The guest's image of a host value, made in the guest's memory. -/
def toGuest : Value → State → Guest.Value × State
  | nil, s => (.nil, s)
  | bool b, s => (.bool b, s)
  | int i, s => (.int i, s)
  | number x, s => (.float x, s)
  | str text, s => (.text text, s)
  | coord c, s => allocate c.toTable s
  | target (.cell c), s => allocate c.toTable s
  | target (.entity h), s => wrapHandle h s
  | target .invalid, s => (.nil, s)
  | handle h, s => wrapHandle h s
  | callback f, s => (.function f, s)
  | list items, s =>
    let (t, s) := itemsToGuest items 1 .empty s
    allocate t s
  | record fields, s =>
    let (t, s) := fieldsToGuest fields .empty s
    allocate t s

/-- Puts the images of a list's items at the indices from `index` on. -/
def itemsToGuest : List Value → Nat → Guest.Table → State → Guest.Table × State
  | [], _, t, s => (t, s)
  | item :: rest, index, t, s =>
    let (image, s) := item.toGuest s
    itemsToGuest rest (index + 1) (t.set (.int (Int64.ofNat index)) image) s

/-- Puts the images of a record's fields under their keys. -/
def fieldsToGuest : List (String × Value) → Guest.Table → State → Guest.Table × State
  | [], t, s => (t, s)
  | (key, field) :: rest, t, s =>
    let (image, s) := field.toGuest s
    fieldsToGuest rest (t.set (.text key) image) s

end

end Value
end ScriptBridge
