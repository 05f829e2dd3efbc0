import ScriptBridge.Proofs.RoundTrip
import ScriptBridge.Proofs.SchedulerSteps

/-! What the toggles of conversion can change. Texts that count as numbers and coordinates make conversions
succeed that would fail, and change none that succeeds without them: what is looked up in a table is decided
before its components are converted, so a component that converts only as a text cannot lead to another shape.
The other toggles change the journal alone. -/

namespace ScriptBridge

namespace Conversion

variable {α β : Type} {x y : Except ConversionError α}

/-- A success of one conversion is the same success of another. -/
def Carries (x y : Except ConversionError α) : Prop := ∀ a, x = .ok a → y = .ok a

namespace Carries

theorem refl (x : Except ConversionError α) : Carries x x := fun _ h => h

theorem map (h : Carries x y) (f : α → β) : Carries (x.map f) (y.map f) := by
  intro b hb
  obtain ⟨a, ha, rfl⟩ := map_ok_iff.mp hb
  exact map_ok_iff.mpr ⟨a, h a ha, rfl⟩

theorem bind {f f' : α → Except ConversionError β} (h : Carries x y) (hf : ∀ a, Carries (f a) (f' a)) :
    Carries (x >>= f) (y >>= f') := by
  intro b hb
  obtain ⟨a, ha, hrest⟩ := bind_ok_iff.mp hb
  exact bind_ok_iff.mpr ⟨a, h a ha, hf a b hrest⟩

end Carries

/-! ### With texts and without -/

section

variable (options options' : ConversionOptions) (g : Guest.Value) (hoff : options.autoConvert = false)

include hoff

theorem toBool_carries : Carries (toBool options g) (toBool options' g) := by
  cases g with
  | nil => simp [toBool, hoff, unsupported, Carries]
  | _ => exact .refl _

theorem toInt_carries : Carries (toInt options g) (toInt options' g) := by
  cases g with
  | str b => simp [toInt, hoff, unsupported, Carries]
  | _ => exact .refl _

theorem toNumber_carries : Carries (toNumber options g) (toNumber options' g) := by
  cases g with
  | str b => simp [toNumber, hoff, unsupported, Carries]
  | _ => exact .refl _

theorem toText_carries : Carries (toText options g) (toText options' g) := by
  cases g with
  | int | float | bool => simp [toText, hoff, unsupported, Carries]
  | _ => exact .refl _

theorem toAxis_carries : Carries (toAxis options g) (toAxis options' g) :=
  (toInt_carries options options' g hoff).bind fun _ => .refl _

theorem toCell_carries (x y z : Guest.Value) : Carries (toCell options x y z) (toCell options' x y z) :=
  (toAxis_carries options options' x hoff).bind fun _ => (toAxis_carries options options' y hoff).bind fun _ =>
    (toAxis_carries options options' z hoff).bind fun _ => .refl _

theorem toCoord_carries (evidence : Evidence) :
    Carries (toCoord options evidence g) (toCoord options' evidence g) := by
  cases g with
  | table address =>
      cases evidence with
      | axes x y z => exact toCell_carries options options' hoff x y z
      | none | entity => exact .refl _
  | str b => cases evidence <;> simp [toCoord, hoff, unsupported, Carries]
  | _ => cases evidence <;> exact .refl _

theorem toTarget_carries (evidence : Evidence) :
    Carries (toTarget options evidence g) (toTarget options' evidence g) := by
  cases g with
  | table address =>
      cases evidence with
      | axes x y z => exact (toCell_carries options options' hoff x y z).map Target.cell
      | none | entity => exact .refl _
  | _ => cases evidence <;> exact .refl _

theorem decide_carries (reading : Reading) (kind : Kind) (evidence : Evidence) :
    Carries (decide options reading kind evidence g) (decide options' reading kind evidence g) := by
  cases kind with
  | bool => exact (toBool_carries options options' g hoff).map Value.bool
  | int => exact (toInt_carries options options' g hoff).map Value.int
  | number => exact (toNumber_carries options options' g hoff).map Value.number
  | string => exact (toText_carries options options' g hoff).map Value.str
  | coord => exact (toCoord_carries options options' g hoff evidence).map Value.coord
  | target => exact (toTarget_carries options options' g hoff evidence).map Value.target
  | any | nil | handle | callback | list | record => exact .refl _

end

/-- Nothing but the acceptance of texts has a say in what a conversion comes to. -/
theorem decide_congr {options options' : ConversionOptions} (h : options.autoConvert = options'.autoConvert)
    (reading : Reading) (kind : Kind) (evidence : Evidence) (g : Guest.Value) :
    decide options reading kind evidence g = decide options' reading kind evidence g := by
  obtain ⟨autoConvert, logConversions, warnOnKindMismatch⟩ := options
  obtain ⟨autoConvert', logConversions', warnOnKindMismatch'⟩ := options'
  obtain rfl : autoConvert = autoConvert' := h
  cases kind <;> rfl

end Conversion

/-! ### Conversions in a session -/

namespace Invocation

variable {σ : Type}

/-- A conversion asks for its evidence and decides by it; the rest is the journal's. -/
theorem convert_run (access : Access (SessionM σ)) (options : ConversionOptions) (kind : Kind)
    (value : Guest.Value) (s : Session σ) :
    let asked := access.evidence kind value s
    ∃ journal, convert access options kind value s =
      (Conversion.decide options (Reading.of asked.2.memory) kind asked.1 value, asked.2.withJournal journal) := by
  rw [convert, run_bind, run_bind, run_get]
  exact ⟨_, rfl⟩

/-- **Toggles never change a successful conversion.** Whatever the value, the kind and the application are, a
conversion that succeeds without accepting texts gives the same value when texts are accepted; the other two
toggles make no difference to the result, be it a value or an error, and none of the three makes a difference to
anything but the journal. -/
theorem toggles_keep_results (access : Access (SessionM σ)) (kind : Kind) (value : Guest.Value) (s : Session σ)
    (options options' : ConversionOptions) :
    (options.autoConvert = false → ∀ v, (convert access options kind value s).1 = .ok v →
      (convert access options' kind value s).1 = .ok v) ∧
    (options.autoConvert = options'.autoConvert →
      (convert access options kind value s).1 = (convert access options' kind value s).1) ∧
    ∃ journal, (convert access options' kind value s).2 =
      (convert access options kind value s).2.withJournal journal := by
  obtain ⟨journal, hrun⟩ := convert_run access options kind value s
  obtain ⟨journal', hrun'⟩ := convert_run access options' kind value s
  rw [hrun, hrun']
  refine ⟨fun hoff v hv => ?_, fun hsame => ?_, journal', rfl⟩
  · exact Conversion.decide_carries options options' value hoff _ kind _ v hv
  · exact Conversion.decide_congr hsame _ kind _ value

/-- A coordinate's table is the same coordinate with and without accepting texts. -/
theorem coordinate_kept :
    let answer : Answer Unit := fun _ _ _ => return .nil
    let access := Environment.access ⟨.standard, Host.bare Unit, false⟩ answer
    let s : Session Unit := ⟨.initial, ⟨.new .standard false, ⟨(), .empty⟩, 0, #[]⟩⟩
    let made := Session.onMemory (Value.coord ⟨1, 2, 3⟩).toGuest s
    (convert access ⟨false, true, true⟩ .coord made.1 made.2).1 = .ok (.coord ⟨1, 2, 3⟩) ∧
      (convert access ⟨true, false, false⟩ .coord made.1 made.2).1 = .ok (.coord ⟨1, 2, 3⟩) := by
  intro answer access s made
  have hwithout : (convert access ⟨false, true, true⟩ .coord made.1 made.2).1 = .ok (.coord ⟨1, 2, 3⟩) :=
    Conversion.survives_coord ⟨1, 2, 3⟩ Unit (Host.bare Unit) false answer ⟨false, true, true⟩ s
  obtain ⟨hkept, -, -⟩ :=
    toggles_keep_results access .coord made.1 made.2 ⟨false, true, true⟩ ⟨true, false, false⟩
  exact ⟨hwithout, hkept rfl _ hwithout⟩

end Invocation
end ScriptBridge
