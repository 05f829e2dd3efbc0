import ScriptBridge.Proofs.Alike
import ScriptBridge.Proofs.ConversionToggles
import ScriptBridge.Proofs.IsolatedCalls

/-! What an operation sees of the arguments of a call that the host survives. Every parameter gets one value, by its
position: the default of what is left out, the argument converted, or the sentinel of the parameter's kind.
Converting an argument may run guest code or ask the application for an object, so those before it are not without
influence; what they leave behind in the guest's memory and with the host is all of it. -/

namespace ScriptBridge

variable {σ : Type}

/-! ### Names of parameters -/

namespace Operation

theorem names_of_no_fault {name : String} {earlier : List String} {optionalSeen : Bool} {params : List Parameter}
    (h : findParameterFault name earlier optionalSeen params = none) :
    (params.map Parameter.name).Nodup ∧ ∀ p ∈ params, p.name ∉ earlier := by
  induction params generalizing earlier optionalSeen with
  | nil => simp
  | cons p rest ih =>
      rw [findParameterFault] at h
      split at h
      · cases h
      · rename_i hnew
        split at h
        · cases h
        · split at h
          · cases h
          · obtain ⟨hrest, hlater⟩ := ih h
            simp only [List.contains_eq_mem, decide_eq_true_eq] at hnew
            simp only [List.mem_cons, not_or] at hlater
            refine ⟨List.nodup_cons.mpr ⟨fun hmem => ?_, hrest⟩, ?_⟩
            · obtain ⟨q, hq, hsame⟩ := List.mem_map.mp hmem
              exact (hlater q hq).1 hsame
            · exact List.forall_mem_cons.mpr ⟨hnew, fun q hq => (hlater q hq).2⟩

/-- The parameters of an accepted operation have different names. -/
theorem names_nodup {α : Type} {operation : Operation α} {signature : Signature} {handler : α}
    (h : operation.validate = .ok (signature, handler)) : (signature.params.map Parameter.name).Nodup := by
  rw [validate] at h
  split at h
  · cases h
  · split at h
    · cases h
    · rename_i hfault
      split at h
      · cases h
        exact (names_of_no_fault hfault).1
      · cases h

end Operation

namespace Arguments

variable {args : Arguments} {name : String}

theorem coord_of_get {c : Coord} (h : args.get name = .coord c) : args.coord name = .ok c := by
  rw [coord, h]

theorem target_of_get {t : Target} (h : args.get name = .target t) : args.target name = .ok t := by
  rw [target, h]

/-- A value is found under the name of the parameter at its position. -/
theorem get_name {params : List Parameter} {i : Nat} {p : Parameter} (hp : params[i]? = some p)
    (hnames : (params.map Parameter.name).Nodup) (values : List Value) :
    (Arguments.mk params values).get p.name = values[i]?.getD .nil := by
  obtain ⟨hi, rfl⟩ := List.getElem?_eq_some_iff.mp hp
  have hfound : params.findIdx? (fun q => q.name = params[i].name) = some i := by
    rw [List.findIdx?_eq_some_iff_getElem]
    have hdistinct := List.pairwise_iff_getElem.mp (List.pairwise_map.mp hnames)
    refine ⟨hi, by simp, fun j hj => ?_⟩
    simpa using hdistinct j i (Nat.lt_trans hj hi) hi hj
  rw [get, hfound]

end Arguments

namespace Invocation

open Conversion (Fits)

/-! ### One argument -/

section

variable (access : Access (SessionM σ)) (registry : Registry σ) (signature : Signature) {p : Parameter}
  {arg : Option Guest.Value} {g : Guest.Value} {kind : Kind}

/-- What is passed and survived is converted, or gives way to the sentinel. -/
theorem argument_converted (hentity : ∀ name s, (access.entity name s).2.memory = s.memory)
    (h : p.isLeftOut (some g) = false) {s : Session σ} (hcalm : ¬ CollapsesOver access registry p (some g) s) :
    let converted := convert access registry.options (targetKind registry p) g s
    ∃ journal, argument access registry signature p (some g) s =
      (some (converted.1.toOption.getD (.sentinel p.kind)), converted.2.withJournal journal) := by
  intro converted
  obtain ⟨hattempt, -⟩ := attempt_of_not_collapses access registry.options (targetKind registry p) g s hentity
    fun hcollapses => hcalm ⟨g, rfl, h, hcollapses⟩
  obtain ⟨journal, hrun⟩ := convertArgument_run access registry signature p g s
  refine ⟨journal, ?_⟩
  rw [argument_passed access registry signature h, hrun, hattempt]
  rfl

/-- Converting a value to a kind asks for something beside the value: for what a table holds, or for the
object a text names. -/
def asks (kind : Kind) (value : Guest.Value) : Bool :=
  looksInto kind value || match value with
    | .str _ => kind = .target
    | _ => false

theorem evidence_of_not_asks (h : asks kind g = false) : access.evidence kind g = pure .none := by
  unfold Access.evidence
  split <;> simp [asks, looksInto] at h ⊢

theorem argument_quiet (hmemory : ∀ name s, (access.entity name s).2.memory = s.memory) {s : Session σ}
    (hcalm : ¬ CollapsesOver access registry p arg s) (h : ∀ g ∈ arg, asks (targetKind registry p) g = false) :
    ∃ journal, (argument access registry signature p arg s).2 = s.withJournal journal := by
  by_cases hout : p.isLeftOut arg = true
  · exact ⟨s.bridge.journal, by rw [argument_leftOut access registry signature hout]; rfl⟩
  · have hout := Bool.eq_false_iff.mpr hout
    cases arg with
    | none =>
        obtain ⟨journal, hrun⟩ := argument_missing access registry signature hout s
        exact ⟨journal, congrArg Prod.snd hrun⟩
    | some g =>
        obtain ⟨journal, hrun⟩ := argument_converted access registry signature hmemory hout hcalm
        obtain ⟨_, hconvert⟩ := convert_run access registry.options (targetKind registry p) g s
        rw [evidence_of_not_asks access (h g rfl)] at hconvert
        refine ⟨journal, ?_⟩
        rw [hrun, hconvert]
        rfl

/-- A conversion that succeeds gives a value of the kind. -/
theorem convert_fits {options : ConversionOptions} {s : Session σ} {v : Value}
    (h : (convert access options kind g s).1 = .ok v) : Fits kind v := by
  obtain ⟨_, hrun⟩ := convert_run access options kind g s
  rw [hrun] at h
  exact Conversion.convert_fits h

theorem argument_fits (hmemory : ∀ name s, (access.entity name s).2.memory = s.memory)
    (hchecks : registry.typeChecking = true) (h : p.isLeftOut arg = false) {s : Session σ}
    (hcalm : ¬ CollapsesOver access registry p arg s) :
    ∃ v, (argument access registry signature p arg s).1 = some v ∧ (Fits p.kind v ∨ v = .sentinel p.kind) := by
  cases arg with
  | none =>
      obtain ⟨_, hrun⟩ := argument_missing access registry signature h s
      exact ⟨_, congrArg Prod.fst hrun, .inr rfl⟩
  | some g =>
      obtain ⟨_, hrun⟩ := argument_converted access registry signature hmemory h hcalm
      have hkind : targetKind registry p = p.kind := if_pos hchecks
      rw [hkind] at hrun
      refine ⟨_, congrArg Prod.fst hrun, ?_⟩
      cases hconvert : (convert access registry.options p.kind g s).1 with
      | ok v => exact .inl (convert_fits access hconvert)
      | error fault => exact .inr rfl

end

/-! ### All arguments -/

section

variable (access : Access (SessionM σ)) (registry : Registry σ) (signature : Signature)

/-- The session in which the argument at a position is converted: those before it have been. -/
def turn (params : List Parameter) (args : List Guest.Value) (i : Nat) (s : Session σ) : Session σ :=
  (arguments access registry signature (params.take i) args s).2

/-- Nothing is asked for the arguments before a position. -/
def QuietBefore (params : List Parameter) (args : List Guest.Value) (i : Nat) : Prop :=
  ∀ j < i, ∀ p, params[j]? = some p → ∀ g ∈ args[j]?, asks (targetKind registry p) g = false

section

variable {params : List Parameter} {args : List Guest.Value} {s : Session σ} {values : List Value} {i : Nat}
  {p : Parameter}

theorem exists_first (h : (arguments access registry signature (p :: params) args s).1 = some values) :
    ∃ v rest, (argument access registry signature p args.head? s).1 = some v ∧
      (arguments access registry signature params args.tail
        (argument access registry signature p args.head? s).2).1 = some rest ∧ values = v :: rest := by
  cases hv : (argument access registry signature p args.head? s).1 with
  | none =>
      rw [arguments_cons_of_none signature params args hv] at h
      cases h
  | some v =>
      rw [arguments_cons_of_some signature params args hv] at h
      obtain ⟨rest, hrest, rfl⟩ := Option.map_eq_some_iff.mp h
      exact ⟨v, rest, rfl, hrest, rfl⟩

theorem length_values (h : (arguments access registry signature params args s).1 = some values) :
    values.length = params.length := by
  induction params generalizing args s values with
  | nil =>
      cases h
      rfl
  | cons p rest ih =>
      obtain ⟨v, tail, -, htail, rfl⟩ := exists_first access registry signature h
      rw [List.length_cons, List.length_cons, ih htail]

/-- The value at a position is made from the argument at that position, after those before it. -/
theorem getElem?_values (h : (arguments access registry signature params args s).1 = some values)
    (hp : params[i]? = some p) :
    values[i]? =
      (argument access registry signature p args[i]? (turn access registry signature params args i s)).1 := by
  induction params generalizing args s values i with
  | nil => cases hp
  | cons q rest ih =>
      obtain ⟨v, tail, hv, htail, rfl⟩ := exists_first access registry signature h
      cases i with
      | zero =>
          cases hp
          rw [← List.head?_eq_getElem? (l := args)]
          exact hv.symm
      | succ i =>
          have hnext : turn access registry signature (q :: rest) args (i + 1) s =
              turn access registry signature rest args.tail i
                (argument access registry signature q args.head? s).2 := by
            rw [turn, List.take_succ_cons, arguments_cons_of_some signature _ args hv, turn]
          rw [hnext, ← List.getElem?_tail (l := args)]
          exact ih htail hp

theorem turn_quiet (hmemory : ∀ name s, (access.entity name s).2.memory = s.memory)
    (hsurvives : Survives access registry signature params args s) (h : QuietBefore registry params args i) :
    ∃ journal, turn access registry signature params args i s = s.withJournal journal := by
  induction params generalizing args s i with
  | nil =>
      rw [turn, List.take_nil]
      exact ⟨s.bridge.journal, rfl⟩
  | cons p rest ih =>
      cases i with
      | zero => exact ⟨s.bridge.journal, rfl⟩
      | succ i =>
          obtain ⟨hcalm, hrest⟩ := (survives_cons_iff signature hmemory rest args).mp hsurvives
          obtain ⟨v, hv, -⟩ := argument_of_survives signature hmemory hcalm
          have hhead : ∀ g ∈ args.head?, asks (targetKind registry p) g = false :=
            fun g hg => h 0 (Nat.succ_pos i) p rfl g (List.head?_eq_getElem? ▸ hg)
          have htail : QuietBefore registry rest args.tail i :=
            fun j hj q hq g hg => h (j + 1) (Nat.succ_lt_succ hj) q hq g (List.getElem?_tail ▸ hg)
          obtain ⟨_, hfirst⟩ := argument_quiet access registry signature hmemory hcalm hhead
          obtain ⟨journal, hturn⟩ := ih hrest htail
          refine ⟨journal, ?_⟩
          rw [turn, List.take_succ_cons, arguments_cons_of_some signature _ args hv]
          refine Eq.trans hturn ?_
          rw [hfirst]
          rfl

end

theorem arguments_surplus {params : List Parameter} {args : List Guest.Value} (h : params.length ≤ args.length)
    (more : List Guest.Value) : arguments access registry signature params (args ++ more) =
      arguments access registry signature params args := by
  induction params generalizing args with
  | nil => rfl
  | cons p rest ih =>
      cases args with
      | nil => cases h
      | cons arg args =>
          rw [List.length_cons, List.length_cons, Nat.add_le_add_iff_right] at h
          simp only [arguments, List.cons_append, List.head?_cons, List.tail_cons, ih h]

/-- An argument that is converted in sessions with different journals becomes the same value. -/
theorem getElem?_values_congr (hlookup : ∀ address key, SessionM.Blind (access.lookup address key))
    (hentity : ∀ name, SessionM.Blind (access.entity name)) {params : List Parameter}
    {args args' : List Guest.Value} {i : Nat} {s s' : Session σ} {values values' : List Value}
    (h : (arguments access registry signature params args s).1 = some values)
    (h' : (arguments access registry signature params args' s').1 = some values')
    (harg : args'[i]? = args[i]?) {journal : Array LogEntry}
    (hturn : turn access registry signature params args' i s' =
      (turn access registry signature params args i s).withJournal journal) : values'[i]? = values[i]? := by
  cases hp : params[i]? with
  | none =>
      have hend := List.getElem?_eq_none_iff.mp hp
      rw [← length_values access registry signature h] at hend
      have hend' := hend
      rw [length_values access registry signature h, ← length_values access registry signature h'] at hend'
      rw [List.getElem?_eq_none_iff.mpr hend, List.getElem?_eq_none_iff.mpr hend']
  | some p =>
      have hblind := SessionM.Blind.compositional.argument hlookup hentity registry signature p args[i]?
      obtain ⟨_, hsame⟩ := hblind (turn access registry signature params args i s) journal
      rw [getElem?_values access registry signature h hp, getElem?_values access registry signature h' hp, harg,
        hturn, hsame]

/-- How the values an operation sees come from the arguments of its call, made in some session. -/
structure Aligned (args : List Guest.Value) (s : Session σ) (values : List Value) : Prop where
  one_each : values.length = signature.params.length
  /-- The value at a parameter's position is the one found under its name. -/
  by_name : ∀ (i : Nat) (p : Parameter), signature.params[i]? = some p →
    values[i]? = some ((Arguments.mk signature.params values).get p.name)
  /-- What is left out has its default, and the arguments after it keep their places. -/
  omitted : ∀ (i : Nat) (p : Parameter), signature.params[i]? = some p → p.isLeftOut args[i]? = true →
    values[i]? = some p.omitted
  missing : ∀ (i : Nat) (p : Parameter), signature.params[i]? = some p → p.isOptional = false → args[i]? = none →
    values[i]? = some (.sentinel p.kind)
  /-- Anything else is converted in its turn, or gives way to the sentinel. -/
  converted : ∀ (i : Nat) (p : Parameter) (g : Guest.Value), signature.params[i]? = some p → args[i]? = some g →
    p.isLeftOut (some g) = false →
    values[i]? = some ((convert access registry.options (targetKind registry p) g
      (turn access registry signature signature.params args i s)).1.toOption.getD (.sentinel p.kind))
  /-- Beside its own argument a value depends on what there is when its turn comes, the journal aside. -/
  in_turn : ∀ (i : Nat) (args' : List Guest.Value) (s' : Session σ) (values' : List Value)
    (journal : Array LogEntry),
    (arguments access registry signature signature.params args' s').1 = some values' → args'[i]? = args[i]? →
    turn access registry signature signature.params args' i s' =
      (turn access registry signature signature.params args i s).withJournal journal →
    values'[i]? = values[i]?
  /-- It depends on its own argument alone if nothing is asked for those before it. -/
  alone : ∀ (i : Nat) (args' : List Guest.Value) (values' : List Value),
    (arguments access registry signature signature.params args' s).1 = some values' → args'[i]? = args[i]? →
    QuietBefore registry signature.params args i → QuietBefore registry signature.params args' i →
    values'[i]? = values[i]?
  /-- Surplus arguments are not looked at, in whatever session. -/
  surplus : ∀ more : List Guest.Value, signature.params.length ≤ args.length →
    arguments access registry signature signature.params (args ++ more) =
      arguments access registry signature signature.params args
  /-- Under type checking what is not left out has the declared kind or is its sentinel. -/
  shaped : registry.typeChecking = true → ∀ (i : Nat) (p : Parameter), signature.params[i]? = some p →
    p.isLeftOut args[i]? = false → ∃ v, values[i]? = some v ∧ (Fits p.kind v ∨ v = .sentinel p.kind)
  coord : registry.typeChecking = true → ∀ (i : Nat) (p : Parameter), signature.params[i]? = some p →
    p.isOptional = false → p.kind = .coord → ∃ c, values[i]? = some (.coord c)
  target : registry.typeChecking = true → ∀ (i : Nat) (p : Parameter), signature.params[i]? = some p →
    p.isOptional = false → p.kind = .target → ∃ t, values[i]? = some (.target t)

section

variable {access registry} (hmemory : ∀ name s, (access.entity name s).2.memory = s.memory)
  {params : List Parameter} {args : List Guest.Value} {s : Session σ} {values : List Value}
  (hvalues : (arguments access registry signature params args s).1 = some values) {i : Nat} {p : Parameter}
  (hp : params[i]? = some p)

include hmemory hvalues hp

/-- Where there are values in the end, the host survived each argument in its turn. -/
theorem calm_in_turn :
    ¬ CollapsesOver access registry p args[i]? (turn access registry signature params args i s) :=
  (arguments_eq_some_iff signature hmemory params args s).mp ⟨values, hvalues⟩ i p hp

theorem shaped_values (hchecks : registry.typeChecking = true) (h : p.isLeftOut args[i]? = false) :
    ∃ v, values[i]? = some v ∧ (Fits p.kind v ∨ v = .sentinel p.kind) := by
  rw [getElem?_values access registry signature hvalues hp]
  exact argument_fits access registry signature hmemory hchecks h (calm_in_turn signature hmemory hvalues hp)

/-- A required parameter whose sentinel is of its kind always gets a value of its kind. -/
theorem required_values (hchecks : registry.typeChecking = true) (hrequired : p.isOptional = false) {kind : Kind}
    (hkind : p.kind = kind) (hsentinel : Fits kind (.sentinel kind)) : ∃ v, values[i]? = some v ∧ Fits kind v := by
  subst hkind
  obtain ⟨v, hv, hshape⟩ :=
    shaped_values signature hmemory hvalues hp hchecks (Parameter.isLeftOut_of_required hrequired args[i]?)
  rcases hshape with hfits | rfl
  · exact ⟨v, hv, hfits⟩
  · exact ⟨_, hv, hsentinel⟩

end

theorem aligned (hlookup : ∀ address key, SessionM.Blind (access.lookup address key))
    (hentity : ∀ name, SessionM.Blind (access.entity name))
    (hmemory : ∀ name s, (access.entity name s).2.memory = s.memory)
    (hnames : (signature.params.map Parameter.name).Nodup) {args : List Guest.Value} {s : Session σ}
    {values : List Value} (hvalues : (arguments access registry signature signature.params args s).1 = some values) :
    Aligned access registry signature args s values where
  one_each := length_values access registry signature hvalues
  by_name i p hp := by
    obtain ⟨hi, -⟩ := List.getElem?_eq_some_iff.mp hp
    rw [← length_values access registry signature hvalues] at hi
    rw [Arguments.get_name hp hnames, List.getElem?_eq_getElem hi]
    rfl
  omitted i p hp hout := by
    rw [getElem?_values access registry signature hvalues hp, argument_leftOut access registry signature hout]
  missing i p hp hrequired harg := by
    obtain ⟨_, hrun⟩ := argument_missing access registry signature (Parameter.isLeftOut_of_required hrequired none)
      (turn access registry signature signature.params args i s)
    rw [getElem?_values access registry signature hvalues hp, harg, hrun]
  converted i p g hp harg hout := by
    have hcalm := calm_in_turn signature hmemory hvalues hp
    rw [harg] at hcalm
    obtain ⟨_, hrun⟩ := argument_converted access registry signature hmemory hout hcalm
    rw [getElem?_values access registry signature hvalues hp, harg, hrun]
  in_turn i args' s' values' journal h' harg hturn :=
    getElem?_values_congr access registry signature hlookup hentity hvalues h' harg hturn
  alone i args' values' h' harg hquiet hquiet' := by
    have hsurvives := (arguments_eq_some_iff signature hmemory signature.params args s).mp ⟨values, hvalues⟩
    have hsurvives' := (arguments_eq_some_iff signature hmemory signature.params args' s).mp ⟨values', h'⟩
    obtain ⟨journal, hturn⟩ := turn_quiet access registry signature hmemory hsurvives hquiet
    obtain ⟨journal', hturn'⟩ := turn_quiet access registry signature hmemory hsurvives' hquiet'
    have hboth : turn access registry signature signature.params args' i s =
        (turn access registry signature signature.params args i s).withJournal journal' := by
      rw [hturn', hturn]
      rfl
    exact getElem?_values_congr access registry signature hlookup hentity hvalues h' harg hboth
  surplus more h := arguments_surplus access registry signature h more
  shaped hchecks i p hp h := shaped_values signature hmemory hvalues hp hchecks h
  coord hchecks i p hp hrequired hkind := by
    obtain ⟨v, hv, c, rfl⟩ :=
      required_values signature hmemory hvalues hp hchecks hrequired hkind ⟨.invalid, rfl⟩
    exact ⟨c, hv⟩
  target hchecks i p hp hrequired hkind := by
    obtain ⟨v, hv, t, rfl⟩ :=
      required_values signature hmemory hvalues hp hchecks hrequired hkind ⟨.invalid, rfl⟩
    exact ⟨t, hv⟩

end

/-! ### Coordinates and targets made on request -/

/-- An operation with one required parameter finds a value of its kind under the parameter's name. -/
theorem get_required {access : Access (SessionM σ)} {registry : Registry σ}
    (hmemory : ∀ name s, (access.entity name s).2.memory = s.memory) (hchecks : registry.typeChecking = true)
    (signature : Signature) {name : String} {kind : Kind} (hparams : signature.params = [.required name kind])
    (hsentinel : Fits kind (.sentinel kind)) {args : List Guest.Value} {s : Session σ} {values : List Value}
    (hvalues : (arguments access registry signature signature.params args s).1 = some values) :
    Fits kind ((Arguments.mk signature.params values).get name) := by
  have hp : signature.params[0]? = some (.required name kind) := by rw [hparams]; rfl
  have hnames : (signature.params.map Parameter.name).Nodup := by simp [hparams]
  obtain ⟨v, hv, hfits⟩ := required_values signature hmemory hvalues hp hchecks rfl rfl hsentinel
  rw [show name = (Parameter.required name kind).name from rfl, Arguments.get_name hp hnames, hv]
  exact hfits

section

variable (host : Host σ) {access : Access (SessionM σ)} {registry : Registry σ}
  (hmemory : ∀ name s, (access.entity name s).2.memory = s.memory) (hchecks : registry.typeChecking = true)
  (root : String) (args : List Guest.Value) (s : Session σ) (values : List Value)

include hmemory hchecks

theorem coord_made
    (hvalues : (stages host access registry (Builtin.createCoord.signature root) (.builtin .createCoord) args
      s).values = some values) :
    ∃ c, perform host ⟨(Builtin.createCoord.signature root).params, values⟩ (.builtin .createCoord) =
      (return .ok (.coord c)) := by
  obtain ⟨c, hc⟩ := get_required hmemory hchecks (Builtin.createCoord.signature root) rfl ⟨.invalid, rfl⟩ hvalues
  refine ⟨c, ?_⟩
  rw [perform, performBuiltin, Arguments.coord_of_get hc]
  rfl

theorem target_made
    (hvalues : (stages host access registry (Builtin.toTarget.signature root) (.builtin .toTarget) args
      s).values = some values) :
    ∃ t, perform host ⟨(Builtin.toTarget.signature root).params, values⟩ (.builtin .toTarget) =
      (return .ok (.target t)) := by
  obtain ⟨t, ht⟩ := get_required hmemory hchecks (Builtin.toTarget.signature root) rfl ⟨.invalid, rfl⟩ hvalues
  refine ⟨t, ?_⟩
  rw [perform, performBuiltin, Arguments.target_of_get ht]
  rfl

end

end Invocation

namespace Environment

open Invocation (Aligned Survives arguments perform stages)

theorem blind_lookup (e : Embedding σ) (registry : Registry σ) (address : Nat) (key : Guest.Value) :
    SessionM.Blind ((lookups e registry).lookup address key) :=
  SessionM.Blind.compositional.lookup e (SessionM.Blind.compositional.answerWithin e registry _) address key

/-- How an operation answers that makes something of whatever it is given. -/
structure MakesOnRequest (e : Embedding σ) (registry : Registry σ) (n : Nat) (signature : Signature)
    (handler : Handler σ) {α : Type} (made : α → Value) (args : List Guest.Value) (line : Option Nat)
    (s : Session σ) : Prop where
  /-- Once the arguments are converted the bridge stays as it is, so nothing is reported. -/
  nothing_reported : (answer e registry n args line s).2.bridge =
    (stages e.host (lookups e registry) registry signature handler args s).ready.bridge
  /-- What is made is the answer. -/
  answered : Survives (lookups e registry) registry signature signature.params args
      (Invocation.record signature args s).2 →
    ∃ a, answer e registry n args line s = Session.onMemory (made a).toGuest
      (stages e.host (lookups e registry) registry signature handler args s).ready

theorem makes_on_request (e : Embedding σ) {registry : Registry σ} {n : Nat} {signature : Signature}
    {handler : Handler σ} (hpublished : registry.published[n]? = some (signature, handler))
    {args : List Guest.Value} (line : Option Nat) {s : Session σ} {α : Type} (made : α → Value)
    (hmade : ∀ values, (stages e.host (lookups e registry) registry signature handler args s).values = some values →
      ∃ a, perform e.host ⟨signature.params, values⟩ handler = (return .ok (made a))) :
    MakesOnRequest e registry n signature handler made args line s := by
  let call := stages e.host (lookups e registry) registry signature handler args s
  have hanswer : answer e registry n args line s =
      Invocation.invoke e.host (lookups e registry) registry signature handler args line s :=
    congrFun (answer_of_published e hpublished args line) s
  cases hvalues : call.values with
  | none =>
      obtain ⟨houtcome, hsame⟩ := Invocation.stages_of_none (h := hvalues)
      rw [Invocation.invoke_of_ok (h := houtcome), hsame] at hanswer
      refine ⟨congrArg (fun answered => answered.2.bridge) hanswer, fun hsurvives => ?_⟩
      obtain ⟨values, hsome⟩ :=
        (Invocation.arguments_eq_some_iff signature (fun _ _ => rfl) signature.params args _).mpr hsurvives
      cases hsome.symm.trans hvalues
  | some values =>
      obtain ⟨a, ha⟩ := hmade values hvalues
      have hcarried : (call.outcome, call.performed) = (.ok (made a), call.ready) :=
        (Invocation.stages_of_some (h := hvalues)).trans (congrFun ha call.ready)
      obtain ⟨houtcome, hsame⟩ := Prod.mk.inj hcarried
      have hready : answer e registry n args line s = Session.onMemory (made a).toGuest call.ready := by
        rw [hanswer, Invocation.invoke_of_ok (h := houtcome), ← hsame]
      exact ⟨congrArg (fun answered => answered.2.bridge) hready, fun _ => ⟨a, hready⟩⟩

/-- **Arguments are aligned with parameters.** However many arguments a call of an accepted operation is made with
and whatever they are, so long as the host survives them, the operation is performed with one value for each
parameter, which comes from the argument at its position and has the declared kind or is its sentinel. So a
coordinate or a target is made on any request, and nothing is reported once the arguments are converted. -/
theorem arguments_aligned (e : Embedding σ) (registry : Registry σ) (args : List Guest.Value) (s : Session σ) :
    (∀ (operation : Operation (Handler σ)) (signature : Signature) (handler : Handler σ),
      operation.validate = .ok (signature, handler) →
      let call := stages e.host (lookups e registry) registry signature handler args s
      Survives (lookups e registry) registry signature signature.params args call.recorded →
      ∃ values, call.values = some values ∧
        Aligned (lookups e registry) registry signature args call.recorded values ∧
        (call.outcome, call.performed) = perform e.host ⟨signature.params, values⟩ handler call.ready) ∧
    (registry.typeChecking = true → ∀ (n : Nat) (root : String) (line : Option Nat),
      (registry.published[n]? = some (Builtin.createCoord.signature root, .builtin .createCoord) →
        MakesOnRequest e registry n (Builtin.createCoord.signature root) (.builtin .createCoord) Value.coord args
          line s) ∧
      (registry.published[n]? = some (Builtin.toTarget.signature root, .builtin .toTarget) →
        MakesOnRequest e registry n (Builtin.toTarget.signature root) (.builtin .toTarget) Value.target args
          line s)) := by
  have hmemory : ∀ name (s : Session σ), ((lookups e registry).entity name s).2.memory = s.memory := fun _ _ => rfl
  refine ⟨fun operation signature handler hvalid => ?_, fun hchecks n root line => ⟨?_, ?_⟩⟩
  · intro call hsurvives
    obtain ⟨values, hvalues⟩ :=
      (Invocation.arguments_eq_some_iff signature hmemory signature.params args _).mpr hsurvives
    refine ⟨values, hvalues, ?_, Invocation.stages_of_some (h := hvalues)⟩
    exact Invocation.aligned (lookups e registry) registry signature (blind_lookup e registry)
      (fun _ => SessionM.Blind.askHost _) hmemory (Operation.names_nodup hvalid) hvalues
  · intro hpublished
    exact makes_on_request e hpublished line Value.coord (Invocation.coord_made e.host hmemory hchecks root args s)
  · intro hpublished
    exact makes_on_request e hpublished line Value.target (Invocation.target_made e.host hmemory hchecks root args s)

/-- An application with an operation that gives back the second of two places. -/
def twoPlaces : Embedding Unit where
  engine := .standard
  host := { Host.bare Unit with operations := [
    ⟨⟨"Both", [.required "a" .coord, .required "b" .coord], .coord, false⟩,
      some fun args => return .ok (args.get "b")⟩] }
  hasCheckers := false

/-- An operation with a place and a depth that may be left out. -/
def sowing : Operation (Handler Unit) where
  signature := ⟨"Sow", [.required "place" .coord, .withDefault "depth" .int (.int 3)], .nil, false⟩
  handler := some (.host fun _ => return .ok .nil)

/-- What is no place gives way to the mark for none, and the depth that is left out is three. -/
theorem sowing_aligned :
    let registry := { (Registry.new .standard : Registry Unit) with
      published := #[(Builtin.createCoord.signature "Bridge", .builtin .createCoord)] }
    let s : Session Unit := ⟨.initial, ⟨.new .standard false, ⟨(), .empty⟩, 0, #[]⟩⟩
    let call := stages twoPlaces.host (lookups twoPlaces registry) registry sowing.signature
      (.host fun _ => return .ok .nil) [.bool true] s
    ∃ values, call.values = some values ∧ values.length = 2 ∧ values[0]? = some (.coord .invalid) ∧
      values[1]? = some (.int 3) ∧
      ∃ c ready, answer twoPlaces registry 0 [.bool true] none s =
        Session.onMemory (Value.coord c).toGuest ready := by
  intro registry s call
  have hsurvives (signature : Signature) (s : Session Unit) :
      Survives (lookups twoPlaces registry) registry signature signature.params [.bool true] s := by
    refine Invocation.survives_of_plain signature (fun _ _ => rfl) (fun i p _ g hg => ?_) s
    rw [List.mem_singleton.mp (List.mem_of_getElem? hg)]
    exact ⟨rfl, rfl⟩
  obtain ⟨haligned, hmade⟩ := arguments_aligned twoPlaces registry [.bool true] s
  obtain ⟨values, hvalues, h, -⟩ :=
    haligned sowing sowing.signature (.host fun _ => return .ok .nil) rfl (hsurvives _ _)
  refine ⟨values, hvalues, h.one_each, ?_, ?_, ?_⟩
  · exact h.converted 0 (.required "place" .coord) (.bool true) rfl rfl rfl
  · exact h.omitted 1 (.withDefault "depth" .int (.int 3)) rfl rfl
  · obtain ⟨c, hc⟩ := ((hmade rfl 0 "Bridge" none).1 rfl).answered (hsurvives _ _)
    exact ⟨c, _, hc⟩

/-- Looking into one argument can change what another one holds, before it is converted. -/
theorem later_argument_changed :
    let block := "t = \x7bx = 1, y = 2, z = 3\x7d " ++
      "u = setmetatable(\x7b\x7d, \x7b__index = function() t.x = 9 return 0 end\x7d)"
    let s := (Scheduler.executeBlock twoPlaces block (Scheduler.new twoPlaces .standard ⟨(), .empty⟩)).2
    let both : Signature := ⟨"Both", [.required "a" .coord, .required "b" .coord], .coord, false⟩
    let t := s.session.memory.atPath "t"
    let u := s.session.memory.atPath "u"
    let values (args : List Guest.Value) :=
      (arguments (lookups twoPlaces s.registry) s.registry both both.params args
        (Invocation.record both args s.session).2).1
    (Operation.validate ⟨both, some ()⟩).toOption.isSome = true ∧
      (values [.nil, t]).map (List.map Value.display) = some ["(-1000, -1000, -1000)", "(1, 2, 3)"] ∧
      (values [u, t]).map (List.map Value.display) = some ["(0, 0, 0)", "(9, 2, 3)"] := by
  decide +kernel

end Environment

end ScriptBridge
