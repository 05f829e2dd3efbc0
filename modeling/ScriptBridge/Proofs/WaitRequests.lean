import ScriptBridge.Proofs.AlignedArguments
import ScriptBridge.Proofs.CoordinateShapes

/-! Calls of the two operations that wait. Their arguments are converted, read and rounded, and the application
may be asked for a flag, before anything is changed; so a call that fails leaves whatever waits as it is. When
one succeeds is told from the arguments as the guest passes them. -/

namespace ScriptBridge

variable {σ α : Type}

/-! ### What is gained by waiting -/

namespace DelayQueue

/-- One queue is another with one delay more, due some steps on from the counter; a negative number of steps
counts as none. In a queue in firing order it fires after every delay that is due no later. -/
structure Gains (q q' : DelayQueue α) (ticks : Int) (payload : α) : Prop where
  counter : q'.counter = q.counter
  nextSeq : q'.nextSeq = q.nextSeq + 1
  rebaseThreshold : q'.rebaseThreshold = q.rebaseThreshold
  placed : ∃ (added : Delay α) (earlier later : List (Delay α)),
    added = ⟨min (q.counter + max ticks 0) Int64.maxValue.toInt, q.nextSeq, payload⟩ ∧
      q.pending = earlier ++ later ∧ q'.pending = earlier ++ added :: later ∧
      (∀ d ∈ earlier, d.target ≤ added.target) ∧
      (q.pending.Pairwise (fun d d' => d.target ≤ d'.target) → ∀ d ∈ later, added.target < d.target)
  valid : q.Valid → q'.Valid

/-- A new delay parts the queue at the first delay that is due after it. -/
theorem insert_eq (added : Delay α) (pending : List (Delay α)) :
    insert added pending = pending.takeWhile (·.target ≤ added.target) ++
      added :: pending.dropWhile (·.target ≤ added.target) := by
  induction pending with
  | nil => rfl
  | cons first rest ih =>
      by_cases hfirst : first.target ≤ added.target
      · simp [insert, hfirst, ih]
      · simp [insert, hfirst]

theorem lt_of_mem_dropWhile {pending : List (Delay α)}
    (hsorted : pending.Pairwise fun d d' => d.target ≤ d'.target) {target : Int} {d : Delay α}
    (hd : d ∈ pending.dropWhile (·.target ≤ target)) : target < d.target := by
  induction pending with
  | nil => cases hd
  | cons first rest ih =>
      obtain ⟨hfirst, hrest⟩ := List.pairwise_cons.mp hsorted
      by_cases hle : first.target ≤ target
      · exact ih hrest (by simpa [List.dropWhile_cons, hle] using hd)
      · have hmem : d = first ∨ d ∈ rest := by simpa [List.dropWhile_cons, hle] using hd
        rcases hmem with rfl | hlater
        · exact Int.not_le.mp hle
        · exact Int.lt_of_lt_of_le (Int.not_le.mp hle) (hfirst d hlater)

theorem gains_schedule (q : DelayQueue α) (ticks : Int) (payload : α) :
    q.Gains (q.schedule ticks payload) ticks payload where
  counter := rfl
  nextSeq := rfl
  rebaseThreshold := rfl
  placed := by
    let added : Delay α := ⟨q.dueAfter ticks, q.nextSeq, payload⟩
    refine ⟨added, _, _, rfl, List.takeWhile_append_dropWhile.symm, insert_eq added q.pending, fun d hd => ?_, ?_⟩
    · have hdue : decide (d.target ≤ added.target) = true :=
        List.mem_takeWhile_imp (p := fun d : Delay α => decide (d.target ≤ added.target)) hd
      exact of_decide_eq_true hdue
    · exact fun hsorted d hd => lt_of_mem_dropWhile hsorted hd
  valid h := h.schedule ticks payload

end DelayQueue

/-- One state of completion waits is another in which one wait, which began at an instant, has taken the place of
the one that was active, if any, together with its checker. -/
structure Completion.Gains (c c' : Completion α) (now : Nat) (flag : Flag) (callback : α) : Prop where
  interval : c'.interval = c.interval
  hasCheckers : c'.hasCheckers = c.hasCheckers
  reports : c'.reports = c.reports
  nextId : c'.nextId = c.nextId + 1
  active : c'.active = some ⟨c.nextId, flag, callback, if c.hasCheckers then none else some now⟩
  checkers : c'.checkers = c.checkers.filter (fun checker => c.active.all (·.id ≠ checker.id)) ++
    if c.hasCheckers then [⟨c.nextId, flag, 0⟩] else []

theorem Completion.gains_start (c : Completion α) (now : Nat) (flag : Flag) (callback : α) :
    c.Gains (c.start now flag callback) now flag callback := by
  obtain ⟨interval, hasCheckers, nextId, active, reports, checkers⟩ := c
  cases active with
  | none => cases hasCheckers <;> constructor <;> simp [start, cancel]
  | some wait => cases hasCheckers <;> constructor <;> simp [start, cancel, eq_comm]

/-! ### What the arguments are read as -/

/-- The options by which a number is read: texts are accepted only where arguments are converted to their kinds. -/
def Registry.numberOptions (registry : Registry σ) : ConversionOptions :=
  { registry.options with autoConvert := registry.typeChecking && registry.options.autoConvert }

/-- What is passed for a subject is read as a reference, or as none. -/
inductive ReadsAsSubject (registry : Registry σ) (memory : Guest.State) :
    Option Guest.Value → Option Handle → Prop
  | leftOut : ReadsAsSubject registry memory none none
  | nil : ReadsAsSubject registry memory (some .nil) none
  | handle (h : Handle) (identity : Nat) : ReadsAsSubject registry memory (some (.handle h identity)) (some h)
  /-- What is no reference gives way to none where arguments are converted to their kinds. -/
  | mistyped {g : Guest.Value} (htyped : registry.typeChecking = true)
    (hother : ∀ h identity, g ≠ .handle h identity) : ReadsAsSubject registry memory (some g) none
  /-- Elsewhere what cannot be converted by its own shape does. -/
  | unreadable {g : Guest.Value} (huntyped : registry.typeChecking = false)
    (hnone : ∀ v, Conversion.structural (.of memory) Conversion.maxNesting g ≠ .ok v) :
    ReadsAsSubject registry memory (some g) none

/-- The arguments ask for a delay: for the number of ticks the first one denotes, and for a function to call back. -/
structure AsksForDelay (registry : Registry σ) (args : List Guest.Value) (ticks : Int64)
    (callback : Guest.Function) : Prop where
  ticks : ∃ g, args[0]? = some g ∧ Conversion.Denotes registry.numberOptions g ticks.toInt
  callback : args[1]? = some (.function callback)

/-- The arguments ask for a wait, and the application has a flag for what they name. -/
structure AsksForWait (host : Host σ) (registry : Registry σ) (s : Session σ) (args : List Guest.Value)
    (flag : Flag) (callback : Guest.Function) : Prop where
  callback : args[0]? = some (.function callback)
  flag : ∃ subject, ReadsAsSubject registry s.memory args[1]? subject ∧
    host.watchCompletion subject s.bridge.application = some flag

/-! ### How the calls end -/

/-- A call for a delay succeeds: the delay is added, and nothing is reported. -/
structure DelayGranted (outcome : Except OperationError Value) (c c' : Context) (ticks : Int)
    (callback : Guest.Function) : Prop where
  succeeded : outcome = .ok .nil
  delays : c.delays.Gains c'.delays ticks callback
  completion : c'.completion = c.completion
  surface : c'.surface = c.surface

/-- A call for a wait succeeds: the wait is the active one, and nothing is reported. -/
structure WaitGranted (outcome : Except OperationError Value) (c c' : Context) (now : Nat) (flag : Flag)
    (callback : Guest.Function) : Prop where
  succeeded : outcome = .ok .nil
  completion : c.completion.Gains c'.completion now flag callback
  delays : c'.delays = c.delays
  surface : c'.surface = c.surface

/-- A call that waits fails: whatever waits already does so as before, and there is a report. -/
structure WaitRefused (outcome : Except OperationError Value) (c c' : Context) : Prop where
  failed : ∃ fault, outcome = .error fault
  delays : c'.delays = c.delays
  completion : c'.completion = c.completion
  reported : c'.surface.isSome

/-! ### Reading the arguments -/

namespace Conversion

/-- A table is a list or a record, if it is anything. -/
theorem structural_table_cases {reading : Reading} {levels address : Nat} {v : Value}
    (h : structural reading levels (.table address) = .ok v) :
    (∃ items, v = .list items) ∨ ∃ fields, v = .record fields := by
  cases levels with
  | zero => cases h
  | succ levels =>
      rw [structural_table] at h
      split at h
      · obtain ⟨items, -, hv⟩ := listOf_ok_iff.mp h
        exact .inl ⟨items, hv⟩
      · obtain ⟨pairs, -, hv⟩ := recordOf_ok_iff.mp h
        exact .inr ⟨_, hv⟩

end Conversion

namespace Arguments

variable {args : Arguments} {name : String}

theorem int_ok_iff {i : Int64} : args.int name = .ok i ↔ args.get name = .int i ∨
    ∃ x, args.get name = .number x ∧ roundToInt64 x = .ok i := by
  unfold int
  cases args.get name with
  | number x => cases h : roundToInt64 x <;> simp [h, Except.mapError]
  | _ => simp [mismatch]

theorem callback_ok_iff {f : Guest.Function} : args.callback name = .ok f ↔ args.get name = .callback f := by
  unfold callback
  cases args.get name <;> simp [mismatch]

theorem handle_ok_iff {subject : Option Handle} :
    args.handle name = .ok subject ↔ args.get name = subject.elim .nil .handle := by
  unfold handle
  cases args.get name <;> cases subject <;> simp [mismatch]

end Arguments

/-- A parameter that is no coordinate, no target and no list. -/
def Parameter.IsPlain (p : Parameter) : Prop := p.kind ≠ .coord ∧ p.kind ≠ .target ∧ p.kind ≠ .list

namespace Invocation

/-- The value of a parameter for which nothing is asked. -/
def plainValue (registry : Registry σ) (memory : Guest.State) (p : Parameter) (arg : Option Guest.Value) : Value :=
  if p.isLeftOut arg then p.omitted
  else
    let decide := Conversion.decide registry.options (.of memory) (targetKind registry p) .none
    (arg.bind fun g => (decide g).toOption).getD (.sentinel p.kind)

/-- The values of such parameters, by position. -/
def plainValues (registry : Registry σ) (memory : Guest.State) : List Parameter → List Guest.Value → List Value
  | [], _ => []
  | p :: params, args => plainValue registry memory p args.head? :: plainValues registry memory params args.tail

theorem getElem?_plainValues (registry : Registry σ) (memory : Guest.State) {params : List Parameter} {i : Nat}
    {p : Parameter} (hp : params[i]? = some p) (args : List Guest.Value) :
    (plainValues registry memory params args)[i]? = some (plainValue registry memory p args[i]?) := by
  induction params generalizing args i with
  | nil => cases hp
  | cons q rest ih =>
      cases i with
      | zero =>
          cases hp
          rw [← List.head?_eq_getElem? (l := args)]
          rfl
      | succ i =>
          rw [← List.getElem?_tail (l := args)]
          exact ih hp args.tail

section

variable (access : Access (SessionM σ)) (registry : Registry σ) (signature : Signature) {p : Parameter}

theorem asks_of_isPlain (hplain : p.IsPlain) (g : Guest.Value) :
    asks (targetKind registry p) g = false ∧ asksForRoom (targetKind registry p) g = false := by
  obtain ⟨hcoord, htarget, hlist⟩ := hplain
  unfold targetKind
  split <;> cases g <;> simp [asks, looksInto, asksForRoom, hcoord, htarget, hlist]

/-- A value for which nothing is asked is decided on at once. -/
theorem attempt_plain (options : ConversionOptions) {kind : Kind} {g : Guest.Value} (hasks : asks kind g = false)
    (hroom : asksForRoom kind g = false) (s : Session σ) : ∃ journal,
    attempt access options kind g s =
      (some (Conversion.decide options (.of s.memory) kind .none g), s.withJournal journal) := by
  rw [attempt_run, evidence_of_not_asks _ hasks]
  show ∃ journal, settle access.machine options s.memory.collapse kind g .none s = _
  rw [settle_of_room rfl (reserve_of_not_asksForRoom _ _ hroom)]
  exact ⟨_, rfl⟩

theorem argument_plain (hplain : p.IsPlain) (arg : Option Guest.Value) (s : Session σ) :
    ∃ journal, argument access registry signature p arg s =
      (some (plainValue registry s.memory p arg), s.withJournal journal) := by
  unfold plainValue
  split
  · rename_i hout
    exact ⟨s.bridge.journal, argument_leftOut access registry signature hout s⟩
  · rename_i hout
    have hout := Bool.eq_false_iff.mpr hout
    cases arg with
    | none => exact argument_missing access registry signature hout s
    | some g =>
        obtain ⟨hasks, hroom⟩ := asks_of_isPlain registry hplain g
        obtain ⟨_, hattempt⟩ := attempt_plain access registry.options hasks hroom s
        obtain ⟨journal, hrun⟩ := convertArgument_run access registry signature p g s
        refine ⟨journal, ?_⟩
        rw [argument_passed access registry signature hout, hrun, hattempt]
        rfl

theorem arguments_plain {params : List Parameter} (hplain : ∀ p ∈ params, p.IsPlain) (args : List Guest.Value)
    (s : Session σ) : ∃ journal, arguments access registry signature params args s =
      (some (plainValues registry s.memory params args), s.withJournal journal) := by
  induction params generalizing args s with
  | nil => exact ⟨s.bridge.journal, rfl⟩
  | cons p rest ih =>
      obtain ⟨hp, hrest⟩ := List.forall_mem_cons.mp hplain
      obtain ⟨_, hfirst⟩ := argument_plain access registry signature hp args.head? s
      obtain ⟨journal, hothers⟩ := ih hrest args.tail (argument access registry signature p args.head? s).2
      refine ⟨journal, ?_⟩
      rw [arguments_cons_of_some signature rest args (congrArg Prod.fst hfirst), hothers, hfirst]
      rfl

theorem record_run (args : List Guest.Value) (s : Session σ) : ∃ journal,
    (record signature args s).2 = ⟨s.memory, { s.bridge with
      context := { s.bridge.context with history := s.bridge.context.history.pushAll (ownRecords signature args) }
      journal }⟩ := by
  rw [record, ownRecords]
  cases signature.isExcluded <;> exact ⟨_, rfl⟩

variable {signature} (hplain : ∀ p ∈ signature.params, p.IsPlain)

include hplain

/-- Until the operation is performed only its call's record and the journal are written. -/
theorem ready_plain (host : Host σ) (handler : Handler σ) (args : List Guest.Value) (s : Session σ) :
    let call := stages host access registry signature handler args s
    ∃ journal, call.ready = ⟨s.memory, { s.bridge with
        context := { s.bridge.context with history := s.bridge.context.history.pushAll (ownRecords signature args) }
        journal }⟩ ∧
      (call.outcome, call.performed) =
        perform host ⟨signature.params, plainValues registry s.memory signature.params args⟩ handler call.ready := by
  intro call
  obtain ⟨_, hrecord⟩ := record_run signature args s
  obtain ⟨journal, hrun⟩ := arguments_plain access registry signature hplain args (record signature args s).2
  refine ⟨journal, ?_, stages_of_some _ _ _ _ _ _ _ ?_⟩
  · show (arguments access registry signature signature.params args (record signature args s).2).2 = _
    rw [hrun, hrecord]
    rfl
  · show (arguments access registry signature signature.params args (record signature args s).2).1 = _
    rw [hrun, hrecord]

omit hplain in
theorem get_plain (memory : Guest.State) (hnames : (signature.params.map Parameter.name).Nodup) {i : Nat}
    (hp : signature.params[i]? = some p) (args : List Guest.Value) :
    (Arguments.mk signature.params (plainValues registry memory signature.params args)).get p.name =
      plainValue registry memory p args[i]? := by
  rw [Arguments.get_name hp hnames, getElem?_plainValues registry memory hp]
  rfl

end

/-! ### The parameters of the two operations -/

section

variable (registry : Registry σ) (memory : Guest.State)

/-- What a value is where there are no kinds to convert to: what its own shape makes it, or nil. -/
def shapeOf (memory : Guest.State) (g : Guest.Value) : Value :=
  (Conversion.structural (.of memory) Conversion.maxNesting g).toOption.getD .nil

theorem shapeOf_of_error {g : Guest.Value}
    (h : ∀ v, Conversion.structural (.of memory) Conversion.maxNesting g ≠ .ok v) : shapeOf memory g = .nil := by
  unfold shapeOf
  cases hshape : Conversion.structural (.of memory) Conversion.maxNesting g with
  | error fault => rfl
  | ok v => exact absurd hshape (h v)

theorem shapeOf_table (address : Nat) :
    (∀ v, Conversion.structural (.of memory) Conversion.maxNesting (.table address) ≠ .ok v) ∧
        shapeOf memory (.table address) = .nil ∨
      (∃ items, shapeOf memory (.table address) = .list items) ∨
      ∃ fields, shapeOf memory (.table address) = .record fields := by
  cases hshape : Conversion.structural (.of memory) Conversion.maxNesting (.table address) with
  | error fault =>
      have hnil : shapeOf memory (.table address) = .nil := by rw [shapeOf, hshape]; rfl
      exact .inl ⟨nofun, hnil⟩
  | ok v =>
      have hv : shapeOf memory (.table address) = v := by rw [shapeOf, hshape]; rfl
      rw [hv]
      exact .inr (Conversion.structural_table_cases hshape)

theorem plainValue_untyped (huntyped : registry.typeChecking = false) {p : Parameter} {g : Guest.Value}
    (hpassed : p.isLeftOut (some g) = false) (hsentinel : Value.sentinel p.kind = .nil) :
    plainValue registry memory p (some g) = shapeOf memory g := by
  rw [plainValue, hpassed, targetKind, huntyped, hsentinel]
  rfl

theorem plainValue_typed (htyped : registry.typeChecking = true) {p : Parameter} {g : Guest.Value}
    (hpassed : p.isLeftOut (some g) = false) :
    plainValue registry memory p (some g) =
      (Conversion.decide registry.options (.of memory) p.kind .none g).toOption.getD (.sentinel p.kind) := by
  rw [plainValue, hpassed, targetKind, htyped]
  rfl

theorem plainValue_callback {name : String} {arg : Option Guest.Value} {f : Guest.Function} :
    plainValue registry memory (.required name .callback) arg = .callback f ↔ arg = some (.function f) := by
  cases arg with
  | none => simp [plainValue, Parameter.isLeftOut, Parameter.required, Value.sentinel]
  | some g =>
      cases htyped : registry.typeChecking with
      | true =>
          rw [plainValue_typed registry memory htyped rfl]
          cases g <;>
            simp [Parameter.required, Conversion.decide, Conversion.unsupported, Except.toOption, Value.sentinel]
      | false =>
          rw [plainValue_untyped registry memory htyped rfl rfl]
          cases g with
          | table address => rcases shapeOf_table memory address with ⟨-, h⟩ | ⟨_, h⟩ | ⟨_, h⟩ <;> simp [h]
          | _ => simp [shapeOf, Conversion.structural, Conversion.unsupported, Conversion.maxNesting, Except.toOption]

theorem plainValue_ticks {name : String} {arg : Option Guest.Value} {ticks : Int64} :
    (plainValue registry memory (.required name .int) arg = .int ticks ∨
      ∃ x, plainValue registry memory (.required name .int) arg = .number x ∧ roundToInt64 x = .ok ticks) ↔
    ∃ g, arg = some g ∧ Conversion.Denotes registry.numberOptions g ticks.toInt := by
  simp only [← Conversion.toInt_ok_iff]
  cases arg with
  | none => simp [plainValue, Parameter.isLeftOut, Parameter.required, Value.sentinel]
  | some g =>
      simp only [Option.some.injEq, exists_eq_left']
      cases htyped : registry.typeChecking with
      | true =>
          have hoptions : registry.numberOptions = registry.options := by simp [Registry.numberOptions, htyped]
          have hvalue : plainValue registry memory (.required name .int) (some g) =
              ((Conversion.toInt registry.options g).map Value.int).toOption.getD .nil :=
            plainValue_typed registry memory htyped rfl
          rw [hoptions, hvalue]
          cases Conversion.toInt registry.options g <;> simp [Except.map, Except.toOption]
      | false =>
          have hrefused : registry.numberOptions.autoConvert = false := by simp [Registry.numberOptions, htyped]
          rw [plainValue_untyped registry memory htyped rfl rfl]
          cases g with
          | table address =>
              rcases shapeOf_table memory address with ⟨-, h⟩ | ⟨_, h⟩ | ⟨_, h⟩ <;>
                simp [h, Conversion.toInt, Conversion.unsupported]
          | _ =>
              simp [shapeOf, Conversion.structural, Conversion.toInt, Conversion.unsupported, Conversion.maxNesting,
                Except.toOption, hrefused]

/-- Among the values that are no references only nil and what cannot be converted pass for one. -/
theorem shapeOf_eq_subject {g : Guest.Value} (hother : ∀ h identity, g ≠ .handle h identity) {subject : Option Handle}
    (hshape : shapeOf memory g = subject.elim .nil .handle) :
    subject = none ∧ (g = .nil ∨ ∀ v, Conversion.structural (.of memory) Conversion.maxNesting g ≠ .ok v) := by
  cases g with
  | nil => cases subject with
    | none => exact ⟨rfl, .inl rfl⟩
    | some h => cases hshape
  | handle h identity => exact absurd rfl (hother h identity)
  | table address =>
      rcases shapeOf_table memory address with ⟨hnone, hnil⟩ | ⟨_, hlist⟩ | ⟨_, hrecord⟩
      · cases subject with
        | none => exact ⟨rfl, .inr hnone⟩
        | some h => cases hnil.symm.trans hshape
      · cases subject <;> cases hlist.symm.trans hshape
      · cases subject <;> cases hrecord.symm.trans hshape
  | alien | light | thread | error => cases subject with
    | none => exact ⟨rfl, .inr nofun⟩
    | some h => cases hshape
  | _ => cases subject <;> cases hshape

theorem plainValue_reference {name : String} (g : Guest.Value) :
    plainValue registry memory (.optional name (.handle none)) (some g) =
      match g with
      | .handle h _ => .handle h
      | g => if registry.typeChecking then .nil else shapeOf memory g := by
  cases htyped : registry.typeChecking with
  | true =>
      cases g with
      | nil => rfl
      | _ => exact plainValue_typed registry memory htyped rfl
  | false =>
      cases g with
      | nil => rfl
      | _ => exact plainValue_untyped registry memory htyped rfl rfl

theorem plainValue_subject {name : String} {arg : Option Guest.Value} {subject : Option Handle} :
    plainValue registry memory (.optional name (.handle none)) arg = subject.elim .nil .handle ↔
      ReadsAsSubject registry memory arg subject := by
  constructor
  · intro hvalue
    cases arg with
    | none => cases subject with
      | none => exact .leftOut
      | some h => cases hvalue
    | some g =>
        rw [plainValue_reference] at hvalue
        split at hvalue
        · rename_i h identity
          cases subject with
          | none => cases hvalue
          | some h' =>
              cases hvalue
              exact .handle h identity
        · rename_i hother
          split at hvalue
          · rename_i htyped
            cases subject with
            | none => exact .mistyped htyped hother
            | some h => cases hvalue
          · -- the sentinel of a reference is nil, so what has no conversion passes for no subject
            rename_i huntyped
            obtain ⟨rfl, rfl | hnone⟩ := shapeOf_eq_subject memory hother hvalue
            · exact .nil
            · exact .unreadable (Bool.eq_false_iff.mpr huntyped) hnone
  · rintro (_ | _ | ⟨h, identity⟩ | ⟨htyped, hother⟩ | ⟨huntyped, hnone⟩)
    · rfl
    · rfl
    · exact plainValue_reference registry memory _
    · rw [plainValue_reference]
      split
      · rename_i h identity
        exact absurd rfl (hother h identity)
      · exact if_pos htyped
    · rw [plainValue_reference]
      split
      · exact absurd rfl (hnone _)
      · rw [huntyped]
        exact shapeOf_of_error memory hnone

end

/-! ### Performing the two operations -/

section

variable {args : Arguments}

theorem waitForTicks_of_ok {ticks : Int64} {callback : Guest.Function} (hticks : args.int "ticks" = .ok ticks)
    (hcallback : args.callback "callback" = .ok callback) (s : Session σ) : ∃ journal,
    waitForTicks args s = (.ok .nil, ⟨s.memory, { s.bridge with
      context := s.bridge.context.scheduleDelay ticks.toInt callback
      journal }⟩) := by
  rw [waitForTicks, hticks, hcallback]
  exact ⟨_, rfl⟩

theorem waitForTicks_of_error
    (h : ∀ ticks callback, ¬ (args.int "ticks" = .ok ticks ∧ args.callback "callback" = .ok callback))
    (s : Session σ) : ∃ fault, waitForTicks args s = (.error fault, s) := by
  rw [waitForTicks]
  cases hticks : args.int "ticks" with
  | error fault => exact ⟨fault, rfl⟩
  | ok ticks => cases hcallback : args.callback "callback" with
    | error fault => exact ⟨fault, rfl⟩
    | ok callback => exact absurd ⟨hticks, hcallback⟩ (h ticks callback)

theorem waitForCompletion_of_ok {host : Host σ} {callback : Guest.Function} {subject : Option Handle} {flag : Flag}
    {s : Session σ} (hcallback : args.callback "callback" = .ok callback)
    (hsubject : args.handle "subject" = .ok subject)
    (hflag : host.watchCompletion subject s.bridge.application = some flag) : ∃ journal,
    waitForCompletion host args s = (.ok .nil, ⟨s.memory, { s.bridge with
      context := s.bridge.context.startCompletion s.bridge.now flag callback
      journal }⟩) := by
  rw [waitForCompletion, hcallback, hsubject]
  dsimp only
  rw [run_bind, run_get]
  dsimp only
  rw [hflag]
  exact ⟨_, rfl⟩

theorem waitForCompletion_of_error {host : Host σ} {s : Session σ}
    (h : ∀ callback subject flag, ¬ (args.callback "callback" = .ok callback ∧
      args.handle "subject" = .ok subject ∧ host.watchCompletion subject s.bridge.application = some flag)) :
    ∃ fault, waitForCompletion host args s = (.error fault, s) := by
  rw [waitForCompletion]
  cases hcallback : args.callback "callback" with
  | error fault => exact ⟨fault, rfl⟩
  | ok callback => cases hsubject : args.handle "subject" with
    | error fault => exact ⟨fault, rfl⟩
    | ok subject =>
        dsimp only
        rw [run_bind, run_get]
        dsimp only
        cases hflag : host.watchCompletion subject s.bridge.application with
        | none => exact ⟨_, rfl⟩
        | some flag => exact absurd ⟨hcallback, hsubject, hflag⟩ (h callback subject flag)

end

/-! ### What the two operations see of their arguments -/

section

variable (registry : Registry σ) (root : String) (args : List Guest.Value) (s : Session σ)

theorem waitForTicks_isPlain : ∀ p ∈ (Builtin.waitForTicks.signature root).params, p.IsPlain := by
  simp [Builtin.signature, Parameter.IsPlain, Parameter.required]

theorem waitForCompletion_isPlain : ∀ p ∈ (Builtin.waitForCompletion.signature root).params, p.IsPlain := by
  simp [Builtin.signature, Parameter.IsPlain, Parameter.required, Parameter.optional]

/-- The arguments of a call as the operation it is made of sees them. -/
def seen (signature : Signature) : Arguments :=
  ⟨signature.params, plainValues registry s.memory signature.params args⟩

theorem seen_delay {ticks : Int64} {callback : Guest.Function} :
    let values := seen registry args s (Builtin.waitForTicks.signature root)
    (values.int "ticks" = .ok ticks ∧ values.callback "callback" = .ok callback) ↔
      AsksForDelay registry args ticks callback := by
  intro values
  have hnames : ((Builtin.waitForTicks.signature root).params.map Parameter.name).Nodup := by
    simp [Builtin.signature, Parameter.required]
  have hticks : values.get "ticks" = plainValue registry s.memory (.required "ticks" .int) args[0]? :=
    get_plain registry s.memory hnames (i := 0) rfl args
  have hcallback : values.get "callback" = plainValue registry s.memory (.required "callback" .callback) args[1]? :=
    get_plain registry s.memory hnames (i := 1) rfl args
  rw [Arguments.int_ok_iff, Arguments.callback_ok_iff, hticks, hcallback, plainValue_ticks, plainValue_callback]
  exact ⟨fun h => ⟨h.1, h.2⟩, fun h => ⟨h.ticks, h.callback⟩⟩

theorem seen_wait {host : Host σ} {flag : Flag} {callback : Guest.Function} :
    let values := seen registry args s (Builtin.waitForCompletion.signature root)
    (∃ subject, values.callback "callback" = .ok callback ∧ values.handle "subject" = .ok subject ∧
      host.watchCompletion subject s.bridge.application = some flag) ↔
      AsksForWait host registry s args flag callback := by
  intro values
  have hnames : ((Builtin.waitForCompletion.signature root).params.map Parameter.name).Nodup := by
    simp [Builtin.signature, Parameter.required, Parameter.optional]
  have hcallback : values.get "callback" = plainValue registry s.memory (.required "callback" .callback) args[0]? :=
    get_plain registry s.memory hnames (i := 0) rfl args
  have hsubject : values.get "subject" =
      plainValue registry s.memory (.optional "subject" (.handle none)) args[1]? :=
    get_plain registry s.memory hnames (i := 1) rfl args
  simp only [Arguments.callback_ok_iff, Arguments.handle_ok_iff, hcallback, hsubject, plainValue_callback,
    plainValue_subject]
  exact ⟨fun ⟨subject, hcall, hreads, hflag⟩ => ⟨hcall, subject, hreads, hflag⟩,
    fun ⟨hcall, subject, hreads, hflag⟩ => ⟨subject, hcall, hreads, hflag⟩⟩

end

end Invocation

namespace Environment

open Invocation (stages seen)

section

variable (e : Embedding σ) (inside : Access (SessionM σ)) {registry : Registry σ} {n : Nat} {signature : Signature}
  {handler : Handler σ} (hpublished : registry.published[n]? = some (signature, handler))
  {args : List Guest.Value} (line : Option Nat) {s : Session σ}

include hpublished

theorem answerThrough_of_ok {result : Value}
    (h : (stages e.host inside registry signature handler args s).outcome = .ok result) :
    (answerThrough e registry inside n args line s).2.bridge.context =
      (stages e.host inside registry signature handler args s).performed.bridge.context := by
  rw [answerThrough, hpublished]
  dsimp only
  rw [Invocation.invoke_of_ok (h := h)]
  rfl

theorem answerThrough_of_error {fault : OperationError}
    (h : (stages e.host inside registry signature handler args s).outcome = .error fault) :
    (answerThrough e registry inside n args line s).2.bridge.context =
      (stages e.host inside registry signature handler args s).performed.bridge.context.reportHostError
        (Invocation.failureMessage signature fault) ((line.filter (· > 0)).map Int.ofNat) := by
  obtain ⟨_, hinvoke⟩ := Invocation.invoke_of_error e.host inside registry signature handler args line s h
  rw [answerThrough, hpublished]
  dsimp only
  rw [hinvoke]
  rfl

variable (hplain : ∀ p ∈ signature.params, p.IsPlain)

include hplain

/-- What an operation that succeeds makes of the context is made of the one with the call's record. -/
theorem context_of_ok {result : Value} {f : Context → Context}
    (h : let ready := (stages e.host inside registry signature handler args s).ready
      ∃ journal, Invocation.perform e.host (seen registry args s signature) handler ready =
        (.ok result, ⟨ready.memory, { ready.bridge with context := f ready.bridge.context, journal }⟩)) :
    (stages e.host inside registry signature handler args s).outcome = .ok result ∧
      (answerThrough e registry inside n args line s).2.bridge.context =
        f { s.bridge.context with
          history := s.bridge.context.history.pushAll (Invocation.ownRecords signature args) } := by
  obtain ⟨_, hperform⟩ := h
  obtain ⟨_, hready, hcarried⟩ := Invocation.ready_plain inside registry hplain e.host handler args s
  obtain ⟨houtcome, hperformed⟩ := Prod.mk.inj (hcarried.trans hperform)
  refine ⟨houtcome, ?_⟩
  calc (answerThrough e registry inside n args line s).2.bridge.context
    _ = f (stages e.host inside registry signature handler args s).ready.bridge.context :=
        (answerThrough_of_ok e inside hpublished line houtcome).trans
          (congrArg (fun performed => performed.bridge.context) hperformed)
    _ = _ := by rw [hready]

/-- An operation that fails without a change leaves what waits as it was before the call. -/
theorem refused_of_error
    (h : let ready := (stages e.host inside registry signature handler args s).ready
      ∃ fault, Invocation.perform e.host (seen registry args s signature) handler ready =
        (.error fault, ready)) :
    WaitRefused (stages e.host inside registry signature handler args s).outcome s.bridge.context
      (answerThrough e registry inside n args line s).2.bridge.context := by
  obtain ⟨fault, hperform⟩ := h
  obtain ⟨_, hready, hcarried⟩ := Invocation.ready_plain inside registry hplain e.host handler args s
  obtain ⟨houtcome, hsame⟩ := Prod.mk.inj (hcarried.trans hperform)
  have hperformed : (stages e.host inside registry signature handler args s).performed = _ := hsame.trans hready
  rw [answerThrough_of_error e inside hpublished line houtcome, hperformed]
  exact ⟨⟨fault, houtcome⟩, rfl, rfl, by simp [Context.reportHostError]⟩

end

/-- **A call that waits succeeds in full or changes nothing.** Whatever the arguments are, whatever else waits and
whatever lookups come to, a call of either operation that waits gets what its arguments ask for: one delay more,
behind all of the same target, or the one active wait, for the flag the application has for the subject. If they
ask for nothing it can get, the call fails, and the delays, their counter and the active wait are as before. -/
theorem waits_all_or_nothing (e : Embedding σ) (inside : Access (SessionM σ)) (registry : Registry σ) (n : Nat)
    (root : String) (args : List Guest.Value) (line : Option Nat) (s : Session σ) :
    let c := s.bridge.context
    let c' := (answerThrough e registry inside n args line s).2.bridge.context
    (registry.published[n]? = some (Builtin.waitForTicks.signature root, .builtin .waitForTicks) →
      let outcome := (stages e.host inside registry (Builtin.waitForTicks.signature root) (.builtin .waitForTicks)
        args s).outcome
      (∃ ticks callback, AsksForDelay registry args ticks callback ∧
        DelayGranted outcome c c' ticks.toInt callback) ∨
      (∀ ticks callback, ¬ AsksForDelay registry args ticks callback) ∧ WaitRefused outcome c c') ∧
    (registry.published[n]? = some (Builtin.waitForCompletion.signature root, .builtin .waitForCompletion) →
      let outcome := (stages e.host inside registry (Builtin.waitForCompletion.signature root)
        (.builtin .waitForCompletion) args s).outcome
      (∃ flag callback, AsksForWait e.host registry s args flag callback ∧
        WaitGranted outcome c c' s.bridge.now flag callback) ∨
      (∀ flag callback, ¬ AsksForWait e.host registry s args flag callback) ∧ WaitRefused outcome c c') := by
  intro c c'
  refine ⟨fun hpublished => ?_, fun hpublished => ?_⟩
  · have hplain := Invocation.waitForTicks_isPlain root
    by_cases hasks : ∃ ticks callback, AsksForDelay registry args ticks callback
    · obtain ⟨ticks, callback, hasks⟩ := hasks
      obtain ⟨hticks, hcallback⟩ := (Invocation.seen_delay registry root args s).mpr hasks
      obtain ⟨hsucceeded, hcontext⟩ := context_of_ok e inside hpublished line hplain
        (f := fun c => c.scheduleDelay ticks.toInt callback) (Invocation.waitForTicks_of_ok hticks hcallback _)
      refine .inl ⟨ticks, callback, hasks, ?_⟩
      rw [show c' = _ from hcontext]
      exact ⟨hsucceeded, DelayQueue.gains_schedule _ _ _, rfl, rfl⟩
    · have hnone : ∀ ticks callback, ¬ AsksForDelay registry args ticks callback := fun ticks callback h =>
        hasks ⟨ticks, callback, h⟩
      refine .inr ⟨hnone, refused_of_error e inside hpublished line hplain ?_⟩
      exact Invocation.waitForTicks_of_error (fun ticks callback h =>
        hnone ticks callback ((Invocation.seen_delay registry root args s).mp h)) _
  · have hplain := Invocation.waitForCompletion_isPlain root
    obtain ⟨_, hready, -⟩ :=
      Invocation.ready_plain inside registry hplain e.host (.builtin .waitForCompletion) args s
    by_cases hasks : ∃ flag callback, AsksForWait e.host registry s args flag callback
    · obtain ⟨flag, callback, hasks⟩ := hasks
      obtain ⟨subject, hcallback, hsubject, hflag⟩ :=
        (Invocation.seen_wait registry root args s).mpr hasks
      obtain ⟨hsucceeded, hcontext⟩ := context_of_ok e inside hpublished line hplain
        (f := fun c => c.startCompletion s.bridge.now flag callback) (by
          rw [hready]
          exact Invocation.waitForCompletion_of_ok hcallback hsubject hflag)
      refine .inl ⟨flag, callback, hasks, ?_⟩
      rw [show c' = _ from hcontext]
      exact ⟨hsucceeded, Completion.gains_start _ _ _ _, rfl, rfl⟩
    · have hnone : ∀ flag callback, ¬ AsksForWait e.host registry s args flag callback := fun flag callback h =>
        hasks ⟨flag, callback, h⟩
      refine .inr ⟨hnone, refused_of_error e inside hpublished line hplain ?_⟩
      rw [hready]
      exact Invocation.waitForCompletion_of_error (fun callback subject flag h =>
        hnone flag callback ((Invocation.seen_wait registry root args s).mp ⟨subject, h⟩))

/-- In a fresh environment a delay of three ticks is the one that waits; where a wait is active and the application
has nothing pending, a call for another wait leaves it active. -/
theorem delay_added_wait_kept :
    let registry := { (Registry.new .standard : Registry Unit) with
      published := #[(Builtin.waitForTicks.signature "Bridge", .builtin .waitForTicks),
        (Builtin.waitForCompletion.signature "Bridge", .builtin .waitForCompletion)] }
    let fresh := Context.new .standard false
    let waiting := fresh.startCompletion 0 ⟨0⟩ (.published 0)
    let after (c : Context) (n : Nat) (args : List Guest.Value) : Context :=
      (answer twoPlaces registry n args none ⟨.initial, ⟨c, ⟨(), .empty⟩, 0, #[]⟩⟩).2.bridge.context
    (after fresh 0 [.int 3, .function (.published 1)]).delays.pending = [⟨3, 0, .published 1⟩] ∧
      waiting.completion.isActive = true ∧
      (after waiting 1 [.function (.published 1)]).completion = waiting.completion := by
  intro registry fresh waiting after
  have hthrough (c : Context) (n : Nat) (args : List Guest.Value) :
      after c n args = (answerThrough twoPlaces registry (lookups twoPlaces registry) n args none
        ⟨.initial, ⟨c, ⟨(), .empty⟩, 0, #[]⟩⟩).2.bridge.context := rfl
  rw [hthrough, hthrough]
  refine ⟨?_, rfl, ?_⟩
  · obtain ⟨hdelay, -⟩ := waits_all_or_nothing twoPlaces (lookups twoPlaces registry) registry 0 "Bridge"
      [.int 3, .function (.published 1)] none ⟨.initial, ⟨fresh, ⟨(), .empty⟩, 0, #[]⟩⟩
    rcases hdelay rfl with ⟨ticks, callback, hasks, hgranted⟩ | ⟨hnone, -⟩
    · obtain ⟨added, earlier, later, rfl, hbefore, hafter, -⟩ := hgranted.delays.placed
      obtain ⟨rfl, rfl⟩ := List.append_eq_nil_iff.mp (show earlier ++ later = [] from hbefore.symm)
      obtain ⟨⟨_, hfirst, hdenotes⟩, hsecond⟩ := hasks
      cases hfirst
      cases hsecond
      rw [hdenotes.unique (.int 3)] at hafter
      exact hafter
    · exact absurd ⟨⟨_, rfl, .int 3⟩, rfl⟩ (hnone 3 (.published 1))
  · obtain ⟨-, hwait⟩ := waits_all_or_nothing twoPlaces (lookups twoPlaces registry) registry 1 "Bridge"
      [.function (.published 1)] none ⟨.initial, ⟨waiting, ⟨(), .empty⟩, 0, #[]⟩⟩
    rcases hwait rfl with ⟨_, _, ⟨-, _, -, hflag⟩, -⟩ | ⟨-, hrefused⟩
    · cases hflag
    · exact hrefused.completion

end Environment

end ScriptBridge
