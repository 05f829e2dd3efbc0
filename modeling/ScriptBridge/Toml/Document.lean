/-! TOML documents as trees. A table remembers how it came to be, since that decides what may still be
added to it: one that only stands on the way to another may be opened later, one made by a dotted key
may be extended by dotted keys, and one that was opened or written in braces is closed. -/

namespace ScriptBridge.Toml

/-- How a table came to be. -/
inductive Origin where
  /-- Opened by a header of its own. -/
  | header
  /-- On the way of a header to another table. -/
  | implied
  /-- On the way of a dotted key. -/
  | dotted
  /-- Written in braces. -/
  | braces
deriving DecidableEq, Repr

inductive Item where
  | text (s : String)
  | integer (i : Int64)
  | float (x : Float)
  | bool (b : Bool)
  /-- A date, a time or both, as written. -/
  | moment (written : String)
  | array (items : List Item)
  | table (origin : Origin) (fields : List (String × Item))
  /-- Tables opened one after another under one name. -/
  | tables (all : List (List (String × Item)))

instance : Inhabited Item := ⟨.bool false⟩

/-- Keys with their items, in the order of the document. -/
abbrev Fields := List (String × Item)

namespace Fields

def find? (key : String) : Fields → Option Item
  | [] => none
  | (k, item) :: rest => if k = key then some item else find? key rest

/-- Changes what is under a key, or puts something there. -/
def alter (key : String) (f : Option Item → Option Item) : Fields → Option Fields
  | [] => (f none).map fun item => [(key, item)]
  | (k, item) :: rest =>
    if k = key then (f (some item)).map fun new => (k, new) :: rest
    else (alter key f rest).map ((k, item) :: ·)

/-- Puts an item under a key that is still free. -/
def add (key : String) (item : Item) : Fields → Option Fields :=
  alter key fun present => if present.isSome then none else some item

/-- Changes the fields of the table at the end of a path; of several tables under one name the last is
meant, and tables missing on the way are implied. -/
def descend : List String → (Fields → Option Fields) → Fields → Option Fields
  | [], f, fields => f fields
  | key :: path, f, fields =>
    alter key (fun present =>
      match present with
      | none => (descend path f []).map (.table .implied)
      | some (.table .braces _) => none
      | some (.table origin inner) => (descend path f inner).map (.table origin)
      | some (.tables all) =>
        (descend path f (all.getLast?.getD [])).map fun new => .tables (all.dropLast ++ [new])
      | some _ => none) fields

/-- Puts an item under a dotted key: tables on the way are made by the key, and only such tables may
receive it. -/
def addDotted (key : String) (item : Item) : List String → Fields → Option Fields
  | [], fields => add key item fields
  | step :: path, fields =>
    alter step (fun present =>
      match present with
      | none => (addDotted key item path []).map (.table .dotted)
      | some (.table .dotted inner) => (addDotted key item path inner).map (.table .dotted)
      | some (.table .implied inner) =>
        if path.isEmpty then none else (addDotted key item path inner).map (.table .implied)
      | some (.tables all) =>
        if path.isEmpty then none
        else (addDotted key item path (all.getLast?.getD [])).map fun new => .tables (all.dropLast ++ [new])
      | some _ => none) fields

/-- Opens a table by its header; one that was only implied so far becomes its own. -/
def openTable (key : String) : Fields → Option Fields :=
  alter key fun present =>
    match present with
    | none => some (.table .header [])
    | some (.table .implied inner) => some (.table .header inner)
    | some _ => none

/-- Opens one more of the tables under a name. -/
def openNext (key : String) : Fields → Option Fields :=
  alter key fun present =>
    match present with
    | none => some (.tables [[]])
    | some (.tables all) => some (.tables (all ++ [[]]))
    | some _ => none

end Fields
end ScriptBridge.Toml
