/-! The machine's memory, so far as it can give out. Some lists get room for all they may come to hold before the
first item is there, and so much can be asked for that there is no such room. -/

namespace ScriptBridge

/-- How a program ends that gets no room. -/
inductive Collapse where
  /-- More was asked for than can be asked for. The program unwinds, guest code included. -/
  | panic
  /-- The machine had no more to give. The program is over at once. -/
  | abort
deriving DecidableEq, Repr

def Collapse.message : Collapse → String
  | panic => "capacity overflow"
  | abort => "memory allocation failed"

/-- A machine, known by what it has to give. -/
structure Machine where
  /-- Whether so many bytes are given at once. -/
  grants : Nat → Bool

namespace Machine

/-- The most bytes that can be asked for at once. -/
def greatestRequest : Nat := Nat.pow 2 63 - 1

/-- What comes of asking for room for so many items, each of so many bytes; none if there is room. -/
def reserve (m : Machine) (width count : Nat) : Option Collapse :=
  if greatestRequest < width * count then some .panic
  else if width * count = 0 || m.grants (width * count) then none
  else some .abort

def hasRoom (m : Machine) (width count : Nat) : Bool := (m.reserve width count).isNone

/-- A machine that gives all that can be asked for. -/
def ample : Machine := ⟨fun _ => true⟩

theorem reserve_eq_none_iff (m : Machine) (width count : Nat) :
    m.reserve width count = none ↔ m.hasRoom width count = true := by
  rw [hasRoom, Option.isNone_iff_eq_none]

/-- No machine has room for more than can be asked for. -/
theorem reserve_of_greatest_lt (m : Machine) {width count : Nat} (h : greatestRequest < width * count) :
    m.reserve width count = some .panic := if_pos h

theorem reserve_eq_panic_iff (m : Machine) (width count : Nat) :
    m.reserve width count = some .panic ↔ greatestRequest < width * count := by
  refine ⟨fun h => Nat.lt_of_not_le fun hle => ?_, m.reserve_of_greatest_lt⟩
  rw [reserve, if_neg (Nat.not_lt.mpr hle)] at h
  split at h <;> cases h

/-- What can be asked for and is more than nothing may be refused. -/
theorem reserve_eq_abort_iff (m : Machine) (width count : Nat) :
    m.reserve width count = some .abort ↔
      width * count ≤ greatestRequest ∧ width * count ≠ 0 ∧ m.grants (width * count) = false := by
  rw [reserve, ← Nat.not_lt]
  by_cases hgreat : greatestRequest < width * count
  · simp [hgreat]
  · simp [hgreat]

end Machine
end ScriptBridge
