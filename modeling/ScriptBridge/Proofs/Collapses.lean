import ScriptBridge.Proofs.SessionRules

/-! When the host collapses over the arguments of a call. It does so over one argument, if there is no room for the
list that is to be made of it, or if guest code that is asked about it comes back in a collapse. The arguments
before that one have been converted, those after it are not looked at. -/

namespace ScriptBridge

variable {σ α β : Type}

/-- A parameter that gets its default: it is optional, and nothing or nil is passed for it. -/
def Parameter.isLeftOut (p : Parameter) (arg : Option Guest.Value) : Bool :=
  p.isOptional && arg.all Guest.Value.isNil

theorem Parameter.isLeftOut_of_required {p : Parameter} (h : p.isOptional = false) (arg : Option Guest.Value) :
    p.isLeftOut arg = false := by
  simp [isLeftOut, h]

namespace Value

open Guest (State)

mutual

/-- Making an image is no occasion to collapse. -/
theorem collapse_toGuest : ∀ (v : Value) (s : State), (v.toGuest s).2.collapse = s.collapse
  | .list items, s => by
      rw [toGuest]
      exact collapse_itemsToGuest items 1 .empty s
  | .record fields, s => by
      rw [toGuest]
      exact collapse_fieldsToGuest fields .empty s
  | .target t, s => by cases t <;> rfl
  | .nil, _ | .bool _, _ | .int _, _ | .number _, _ | .str _, _ | .coord _, _ | .handle _, _ | .callback _, _ => rfl

theorem collapse_itemsToGuest : ∀ (items : List Value) (index : Nat) (t : Guest.Table) (s : State),
    (itemsToGuest items index t s).2.collapse = s.collapse
  | [], _, _, _ => rfl
  | item :: rest, index, _, s => (collapse_itemsToGuest rest (index + 1) _ _).trans (collapse_toGuest item s)

theorem collapse_fieldsToGuest : ∀ (fields : List (String × Value)) (t : Guest.Table) (s : State),
    (fieldsToGuest fields t s).2.collapse = s.collapse
  | [], _, _ => rfl
  | (_, field) :: rest, _, s => (collapse_fieldsToGuest rest _ _).trans (collapse_toGuest field s)

end

end Value

namespace Invocation

/-! ### Asking with an eye on collapses -/

/-- One computation goes as another unless the collapse in memory changes, and a change is there to stay. -/
def GoesAs (before : Option Collapse) (α : Type) (m m' : SessionM σ α) : Prop :=
  ∀ s, (s.memory.collapse = before → (m s).2.memory.collapse = before → m s = m' s) ∧
    (s.memory.collapse ≠ before → (m s).2.memory.collapse ≠ before)

theorem composes_goesAs (before : Option Collapse) : Composes (SessionM σ) (SessionM σ) (GoesAs before) where
  pure _ := fun _ => ⟨fun _ _ => rfl, id⟩
  bind {α β m m' f g} hm hf := by
    intro s
    obtain ⟨hsame, hstays⟩ := hm s
    obtain ⟨hsame', hstays'⟩ := hf (m s).1 (m s).2
    refine ⟨fun hbefore hafter => ?_, fun hbefore => hstays' (hstays hbefore)⟩
    have hbetween : (m s).2.memory.collapse = before :=
      Decidable.byContradiction fun hchanged => hstays' hchanged hafter
    rw [run_bind, run_bind, ← hsame hbefore hbetween]
    exact hsame' hbetween hafter

section

variable {access : Access (SessionM σ)} (hentity : ∀ name s, (access.entity name s).2.memory = s.memory)

include hentity

theorem evidence_goesAs (before : Option Collapse) (kind : Kind) (value : Guest.Value) :
    GoesAs before _ ((heeding access before).evidence kind value) (access.evidence kind value) := by
  refine (composes_goesAs before).evidence _ _ (fun address key s => ?_) (fun name s => ?_) kind value
  · have hlookup : (heeding access before).lookup address key s =
        (if s.memory.collapse = before then access.lookup address key else return .nil) s := rfl
    rw [hlookup]
    constructor
    · intro hbefore _
      rw [if_pos hbefore]
    · intro hbefore
      rw [if_neg hbefore]
      exact hbefore
  · refine ⟨fun _ _ => rfl, fun hbefore => ?_⟩
    show (access.entity name s).2.memory.collapse ≠ before
    rwa [hentity]

end

/-! ### One value -/

/-- Converting a value to a kind looks things up in it. -/
def looksInto (kind : Kind) : Guest.Value → Bool
  | .table _ => kind = .coord || kind = .target
  | _ => false

/-- Converting a value to a kind asks for room for a list. -/
def asksForRoom (kind : Kind) : Guest.Value → Bool
  | .table _ => kind = .list
  | _ => false

theorem reserve_of_not_asksForRoom (machine : Machine) (reading : Reading) {kind : Kind} {value : Guest.Value}
    (h : asksForRoom kind value = false) : Conversion.reserve machine reading kind value = none := by
  unfold Conversion.reserve
  split
  · simp [asksForRoom] at h
  · rfl

/-- Where nothing is looked up, asking leaves alone what the application leaves alone. -/
theorem evidence_keeps (access : Access (SessionM σ)) (part : Session σ → α)
    (hentity : ∀ name s, part (access.entity name s).2 = part s) {kind : Kind} {value : Guest.Value}
    (hblind : looksInto kind value = false) (s : Session σ) :
    part (access.evidence kind value s).2 = part s := by
  unfold Access.evidence
  split
  · simp [looksInto] at hblind
  · simp [looksInto] at hblind
  · exact hentity _ s
  · rfl

section

variable {machine : Machine} {options : ConversionOptions} {before : Option Collapse} {kind : Kind}
  {value : Guest.Value} {evidence : Evidence} {s : Session σ}

theorem settle_of_changed (h : s.memory.collapse ≠ before) :
    settle machine options before kind value evidence s = (none, s) := by
  rw [settle, run_bind, run_get]
  dsimp only
  rw [if_pos h]
  rfl

theorem settle_of_no_room (hcalm : s.memory.collapse = before) {collapse : Collapse}
    (h : Conversion.reserve machine (Reading.of s.memory) kind value = some collapse) :
    settle machine options before kind value evidence s =
      Session.onMemory (fun memory => (none, memory.collapseWith collapse)) s := by
  rw [settle, run_bind, run_get]
  dsimp only
  rw [if_neg (Decidable.not_not.mpr hcalm), Conversion.attempt, h]

theorem settle_of_room (hcalm : s.memory.collapse = before)
    (h : Conversion.reserve machine (Reading.of s.memory) kind value = none) :
    let conversion := Conversion.convert options (Reading.of s.memory) kind evidence value
    settle machine options before kind value evidence s =
      (some conversion.result, (Session.note conversion.log s).2) := by
  rw [settle, run_bind, run_get]
  dsimp only
  rw [if_neg (Decidable.not_not.mpr hcalm), Conversion.attempt, h]
  rfl

end

/-- The host collapses over a value that is to be converted. -/
def Collapses (access : Access (SessionM σ)) (kind : Kind) (value : Guest.Value) (s : Session σ) : Prop :=
  let asked := ((heeding access s.memory.collapse).evidence kind value s).2.memory
  asked.collapse ≠ s.memory.collapse ∨ Conversion.reserve access.machine (Reading.of asked) kind value ≠ none

section

variable (access : Access (SessionM σ)) (options : ConversionOptions) (kind : Kind) (value : Guest.Value)
  (s : Session σ)

/-- The host does not collapse over a value that is not looked into and needs no room. -/
theorem not_collapses (hentity : ∀ name s, (access.entity name s).2.memory = s.memory)
    (hblind : looksInto kind value = false) (hroom : asksForRoom kind value = false) :
    ¬ Collapses access kind value s := by
  have hmemory : ((heeding access s.memory.collapse).evidence kind value s).2.memory = s.memory :=
    evidence_keeps (heeding access s.memory.collapse) Session.memory hentity hblind s
  rintro (hchanged | hreserve)
  · exact hchanged (congrArg Guest.State.collapse hmemory)
  · exact hreserve (reserve_of_not_asksForRoom _ _ hroom)

/-- An attempt asks, and settles with what it was told. -/
theorem attempt_run : attempt access options kind value s =
    let asked := (heeding access s.memory.collapse).evidence kind value s
    settle access.machine options s.memory.collapse kind value asked.1 asked.2 := by
  rw [attempt, run_bind, run_get]
  rfl

theorem attempt_of_collapses (h : Collapses access kind value s) :
    (attempt access options kind value s).1 = none := by
  rw [attempt_run]
  by_cases hcalm : ((heeding access s.memory.collapse).evidence kind value s).2.memory.collapse = s.memory.collapse
  · obtain ⟨collapse, hreserve⟩ := Option.ne_none_iff_exists'.mp (h.resolve_left (not_not_intro hcalm))
    dsimp only
    rw [settle_of_no_room hcalm hreserve]
    rfl
  · dsimp only
    rw [settle_of_changed hcalm]

theorem attempt_of_not_collapses (hentity : ∀ name s, (access.entity name s).2.memory = s.memory)
    (h : ¬ Collapses access kind value s) :
    attempt access options kind value s =
      (some (convert access options kind value s).1, (convert access options kind value s).2) ∧
    (attempt access options kind value s).2.memory.collapse = s.memory.collapse := by
  obtain ⟨hcalm, hroom⟩ := not_or.mp h
  rw [Decidable.not_not] at hcalm hroom
  have hasked := (evidence_goesAs hentity s.memory.collapse kind value s).1 rfl hcalm
  have hattempt : attempt access options kind value s =
      (some (convert access options kind value s).1, (convert access options kind value s).2) := by
    rw [attempt_run]
    dsimp only
    rw [settle_of_room hcalm hroom, convert, run_bind, ← hasked]
    rfl
  refine ⟨hattempt, ?_⟩
  rw [hattempt, convert, run_bind, ← hasked]
  exact hcalm

end

/-! ### The arguments of a call -/

section

variable (access : Access (SessionM σ)) (registry : Registry σ) (signature : Signature)

section

variable {p : Parameter} {arg : Option Guest.Value}

theorem argument_leftOut (h : p.isLeftOut arg = true) (s : Session σ) :
    argument access registry signature p arg s = (some p.omitted, s) := by
  obtain ⟨hoptional, hnil⟩ := (Bool.and_eq_true _ _).mp h
  cases arg with
  | none =>
      rw [argument, if_pos hoptional]
      rfl
  | some g =>
      have hg : g.isNil = true := hnil
      rw [argument, hg, hoptional]
      rfl

theorem argument_missing (h : p.isLeftOut none = false) (s : Session σ) : ∃ journal,
    argument access registry signature p none s = (some (.sentinel p.kind), s.withJournal journal) := by
  have hrequired : p.isOptional = false := by simpa [Parameter.isLeftOut] using h
  rw [argument, hrequired]
  exact ⟨_, rfl⟩

theorem argument_passed {value : Guest.Value} (h : p.isLeftOut (some value) = false) (s : Session σ) :
    argument access registry signature p (some value) s = convertArgument access registry signature p value s := by
  have hpassed : ¬ (value.isNil && p.isOptional) = true := by
    rw [Bool.and_comm]
    exact Bool.eq_false_iff.mp h
  rw [argument, if_neg hpassed]

end

/-- The host collapses over what is passed for a parameter. -/
def CollapsesOver (p : Parameter) (arg : Option Guest.Value) (s : Session σ) : Prop :=
  ∃ value, arg = some value ∧ p.isLeftOut arg = false ∧ Collapses access (targetKind registry p) value s

/-- The host gets through all arguments, each in the session that those before it leave. -/
def Survives (params : List Parameter) (args : List Guest.Value) (s : Session σ) : Prop :=
  ∀ i p, params[i]? = some p →
    ¬ CollapsesOver access registry p args[i]? (arguments access registry signature (params.take i) args s).2

theorem convertArgument_run (p : Parameter) (value : Guest.Value) (s : Session σ) :
    let attempted := attempt access registry.options (targetKind registry p) value s
    ∃ journal, convertArgument access registry signature p value s =
      (attempted.1.map fun result => result.toOption.getD (.sentinel p.kind), attempted.2.withJournal journal) := by
  rw [convertArgument, run_bind]
  dsimp only
  generalize attempt access registry.options (targetKind registry p) value s = attempted
  obtain ⟨result, session⟩ := attempted
  match result with
  | none | some (.ok _) => exact ⟨session.bridge.journal, rfl⟩
  | some (.error _) => exact ⟨_, rfl⟩

variable {access registry} {p : Parameter} {arg : Option Guest.Value} {s : Session σ}

theorem argument_of_collapses (h : CollapsesOver access registry p arg s) :
    (argument access registry signature p arg s).1 = none := by
  obtain ⟨value, rfl, hout, hcollapses⟩ := h
  obtain ⟨journal, hrun⟩ := convertArgument_run access registry signature p value s
  rw [argument_passed access registry signature hout, hrun, attempt_of_collapses _ _ _ _ _ hcollapses]
  rfl

/-- What the host survives leaves a value, and no collapse that was not there before. -/
theorem argument_of_survives (hentity : ∀ name s, (access.entity name s).2.memory = s.memory)
    (h : ¬ CollapsesOver access registry p arg s) :
    ∃ v, (argument access registry signature p arg s).1 = some v ∧
      (argument access registry signature p arg s).2.memory.collapse = s.memory.collapse := by
  by_cases hout : p.isLeftOut arg = true
  · rw [argument_leftOut access registry signature hout]
    exact ⟨_, rfl, rfl⟩
  · have hout := Bool.eq_false_iff.mpr hout
    cases arg with
    | none =>
        obtain ⟨journal, hrun⟩ := argument_missing access registry signature hout s
        rw [hrun]
        exact ⟨_, rfl, rfl⟩
    | some value =>
        have hcalm : ¬ Collapses access (targetKind registry p) value s :=
          fun hcollapses => h ⟨value, rfl, hout, hcollapses⟩
        obtain ⟨hattempt, hkept⟩ := attempt_of_not_collapses access registry.options _ value s hentity hcalm
        obtain ⟨journal, hrun⟩ := convertArgument_run access registry signature p value s
        rw [argument_passed access registry signature hout, hrun, Session.withJournal, hattempt]
        rw [hattempt] at hkept
        exact ⟨_, rfl, hkept⟩

theorem arguments_cons_of_none (params : List Parameter) (args : List Guest.Value)
    (h : (argument access registry signature p args.head? s).1 = none) :
    arguments access registry signature (p :: params) args s =
      (none, (argument access registry signature p args.head? s).2) := by
  rw [arguments, run_bind, h]
  rfl

theorem arguments_cons_of_some (params : List Parameter) (args : List Guest.Value) {v : Value}
    (h : (argument access registry signature p args.head? s).1 = some v) :
    let rest := arguments access registry signature params args.tail
      (argument access registry signature p args.head? s).2
    arguments access registry signature (p :: params) args s = (rest.1.map (v :: ·), rest.2) := by
  rw [arguments, run_bind, h]
  rfl

theorem survives_cons_iff (hentity : ∀ name s, (access.entity name s).2.memory = s.memory)
    (params : List Parameter) (args : List Guest.Value) :
    Survives access registry signature (p :: params) args s ↔
      ¬ CollapsesOver access registry p args.head? s ∧
        Survives access registry signature params args.tail (argument access registry signature p args.head? s).2 := by
  have hfirst : Survives access registry signature (p :: params) args s →
      ¬ CollapsesOver access registry p args.head? s := by
    intro h
    have hzero := h 0 p rfl
    rwa [← List.head?_eq_getElem?] at hzero
  have hturn (hcalm : ¬ CollapsesOver access registry p args.head? s) (i : Nat) :
      (arguments access registry signature ((p :: params).take (i + 1)) args s).2 =
        (arguments access registry signature (params.take i) args.tail
          (argument access registry signature p args.head? s).2).2 := by
    obtain ⟨v, hv, -⟩ := argument_of_survives signature hentity hcalm
    rw [List.take_succ_cons, arguments_cons_of_some signature _ args hv]
  constructor
  · intro h
    refine ⟨hfirst h, fun i q hq => ?_⟩
    have hnext := h (i + 1) q hq
    rwa [hturn (hfirst h), ← List.getElem?_tail] at hnext
  · rintro ⟨hcalm, hrest⟩ i q hq
    cases i with
    | zero =>
        cases hq
        rwa [← List.head?_eq_getElem?]
    | succ i =>
        rw [hturn hcalm, ← List.getElem?_tail]
        exact hrest i q hq

/-- **There are values for an operation just when the host survives all arguments.** -/
theorem arguments_eq_some_iff (hentity : ∀ name s, (access.entity name s).2.memory = s.memory)
    (params : List Parameter) (args : List Guest.Value) (s : Session σ) :
    (∃ values, (arguments access registry signature params args s).1 = some values) ↔
      Survives access registry signature params args s := by
  induction params generalizing args s with
  | nil => exact ⟨fun _ _ _ h => (nomatch h), fun _ => ⟨[], rfl⟩⟩
  | cons p rest ih =>
      rw [survives_cons_iff signature hentity]
      by_cases hover : CollapsesOver access registry p args.head? s
      · rw [arguments_cons_of_none signature rest args (argument_of_collapses signature hover)]
        simp [hover]
      · obtain ⟨v, hv, -⟩ := argument_of_survives signature hentity hover
        rw [arguments_cons_of_some signature rest args hv, ← ih, and_iff_right hover]
        cases (arguments access registry signature rest args.tail
          (argument access registry signature p args.head? s).2).1 <;> simp

/-- Arguments that are not looked into and need no room are survived. -/
theorem survives_of_plain (hentity : ∀ name s, (access.entity name s).2.memory = s.memory)
    {params : List Parameter} {args : List Guest.Value}
    (h : ∀ (i : Nat) (p : Parameter), params[i]? = some p → ∀ g ∈ args[i]?,
      looksInto (targetKind registry p) g = false ∧ asksForRoom (targetKind registry p) g = false)
    (s : Session σ) : Survives access registry signature params args s := by
  rintro i p hp ⟨value, harg, -, hcollapses⟩
  obtain ⟨hblind, hroom⟩ := h i p hp value harg
  exact not_collapses access _ value _ hentity hblind hroom hcollapses

/-- Arguments that are survived leave no collapse that was not there before. -/
theorem collapse_arguments (hentity : ∀ name s, (access.entity name s).2.memory = s.memory)
    {params : List Parameter} {args : List Guest.Value} {s : Session σ}
    (h : Survives access registry signature params args s) :
    (arguments access registry signature params args s).2.memory.collapse = s.memory.collapse := by
  induction params generalizing args s with
  | nil => rfl
  | cons p rest ih =>
      obtain ⟨hfirst, hrest⟩ := (survives_cons_iff signature hentity rest args).mp h
      obtain ⟨v, hv, hkept⟩ := argument_of_survives signature hentity hfirst
      rw [arguments_cons_of_some signature rest args hv]
      exact (ih hrest).trans hkept

end

end Invocation
end ScriptBridge
