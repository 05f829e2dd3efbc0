/-! The library that documents are read and written with, as its user sees it. How a document is spelled is the
library's own affair; its user knows it by what it is asked for and by what is relied on. -/

namespace ScriptBridge.Toml

/-- What is to be written under a key. -/
inductive Scalar where
  | text (s : String)
  | integer (i : Int)
  | bool (b : Bool)

/-- What is found under a key. -/
inductive Entry where
  | text (s : String)
  | integer (i : Int64)
  | bool (b : Bool)
  /-- A float, a moment, an array or a table. -/
  | other

structure Library where
  /-- What a document has under each key; none if the text is no document. -/
  read? : String → Option (String → Option Entry)
  /-- A document with scalars under keys, or why there is none. -/
  write : List (String × Scalar) → Except String String

/-- The entry that a scalar in the range of 64 bits is read back as. -/
def Scalar.entry : Scalar → Entry
  | text s => .text s
  | integer i => .integer (Int64.ofInt i)
  | bool b => .bool b

/-- An integer has 64 bits to be written in. -/
def Scalar.InRange : Scalar → Prop
  | integer i => Int64.minValue.toInt ≤ i ∧ i ≤ Int64.maxValue.toInt
  | text _ | bool _ => True

instance (scalar : Scalar) : Decidable scalar.InRange := by
  cases scalar <;> unfold Scalar.InRange <;> infer_instance

def isBareKeyChar (c : Char) : Bool := c.isAlphanum || c = '-' || c = '_'

/-- A key that needs no quotes. -/
def isBareKey (key : String) : Bool := key ≠ "" && key.toList.all isBareKeyChar

/-- What is relied on: texts, truth values and integers in range are written and read back, and larger integers
are refused. -/
structure Library.Faithful (library : Library) : Prop where
  reads_back : ∀ fields : List (String × Scalar),
    (∀ field ∈ fields, isBareKey field.1 = true ∧ field.2.InRange) → (fields.map Prod.fst).Nodup →
    ∃ text entries, library.write fields = .ok text ∧ library.read? text = some entries ∧
      ∀ key, entries key = (fields.lookup key).map Scalar.entry
  refuses : ∀ fields : List (String × Scalar),
    (∃ key i, (key, .integer i) ∈ fields ∧ Int64.maxValue.toInt < i) →
    ∃ complaint, library.write fields = .error complaint

end ScriptBridge.Toml
