import Mathlib.Data.List.DropRight
import ScriptBridge.Proofs.Collapses
import ScriptBridge.Proofs.GuestActs
import ScriptBridge.Proofs.PublishedNames
import ScriptBridge.Proofs.SchedulerSteps

/-! A call of a published operation, stage by stage: it is recorded, its arguments are converted, it is
performed, and its result is made into a guest value. Whatever the arguments are that the host survives and
whatever the operation does, the guest goes on with one value, and a failure is on the surface unless another
report was there first. Only the conversion of arguments may run guest code, and only where a table stands for a
coordinate or a target; the calls such code makes are calls of their own. -/

namespace ScriptBridge

variable {σ : Type}

/-! ### Records of calls -/

namespace CallHistory

def pushAll (h : CallHistory) (rs : List CallRecord) : CallHistory := rs.foldl push h

theorem push_records (h : CallHistory) (r : CallRecord) :
    (h.push r).records = (h.records ++ [r]).rtake h.capacity := rfl

theorem pushAll_append (h : CallHistory) (rs rs' : List CallRecord) :
    h.pushAll (rs ++ rs') = (h.pushAll rs).pushAll rs' := List.foldl_append

/-- Giving up what is beyond the capacity early or late makes no difference. -/
theorem rtake_rtake_append (l l' : List CallRecord) (n : Nat) :
    (l.rtake n ++ l').rtake n = (l ++ l').rtake n := by
  simp only [List.rtake_eq_reverse_take_reverse, List.reverse_append, List.reverse_reverse, List.take_append,
    List.take_take]
  rw [Nat.min_eq_left (Nat.sub_le n _)]

/-- After at least one push the history is the last records of all there were. -/
theorem records_pushAll (h : CallHistory) (r : CallRecord) (rs : List CallRecord) :
    (h.pushAll (r :: rs)).records = (h.records ++ r :: rs).rtake h.capacity := by
  induction rs generalizing h r with
  | nil => rfl
  | cons r' rest ih =>
      show ((h.push r).pushAll (r' :: rest)).records = _
      rw [ih, push_records, show (h.push r).capacity = h.capacity from rfl, rtake_rtake_append,
        List.append_assoc, List.singleton_append]

/-- A record is kept for as long as fewer calls than the capacity have come after it. -/
theorem mem_records_pushAll {h : CallHistory} {r : CallRecord} {later : List CallRecord}
    (hroom : later.length < h.capacity) : r ∈ (h.pushAll (r :: later)).records := by
  have hkept : (h.records ++ r :: later).length - h.capacity ≤ h.records.length := by
    rw [List.length_append, List.length_cons]
    omega
  rw [records_pushAll, List.rtake, List.drop_append_of_le_length hkept]
  exact List.mem_append_right _ List.mem_cons_self

end CallHistory

/-- The records of the calls in a history. -/
def History.records (h : History) : List CallRecord :=
  h.filterMap fun
    | .called record => some record
    | _ => none

/-! ### What acts leave alone -/

theorem Acts.history {c c' : Context} {h : History} (hacts : Acts c h c') :
    c'.history = c.history.pushAll h.records := by
  induction hacts with
  | rest => rfl
  | more hact _ ih =>
      rw [ih]
      cases hact <;> rfl

theorem Acts.source {c c' : Context} {h : History} (hacts : Acts c h c') : c'.source = c.source := by
  induction hacts with
  | rest => rfl
  | more hact _ ih =>
      rw [ih]
      cases hact <;> rfl

theorem Acts.eq_of_nil {c c' : Context} (hacts : Acts c [] c') : c' = c := by
  cases hacts
  rfl

/-- A report on the surface is not replaced by what published operations do. -/
theorem Acts.surface {c c' : Context} {h : History} {report : Report} (hacts : Acts c h c')
    (hreport : c.surface = some report) : c'.surface = some report := by
  induction hacts with
  | rest => exact hreport
  | more hact _ ih =>
      refine ih ?_
      cases hact with
      | failed message line =>
          rw [Context.reportHostError, hreport]
          rfl
      | called | delayed | awaited => exact hreport

/-! ### The stages of a call -/

namespace Invocation

/-- The record a call leaves, if it is to leave one. -/
def ownRecords (signature : Signature) (args : List Guest.Value) : List CallRecord :=
  if signature.isExcluded then []
  else [⟨signature.baseName, if args.isEmpty then "No arguments" else ", ".intercalate (args.map argumentType)⟩]

/-- The journal's line of a failure. -/
def failureMessage (signature : Signature) (fault : OperationError) : String :=
  "Error in " ++ signature.name ++ ": " ++ fault.message

theorem record_context (signature : Signature) (args : List Guest.Value) (s : Session σ) :
    (record signature args s).2.bridge.context =
      { s.bridge.context with history := s.bridge.context.history.pushAll (ownRecords signature args) } := by
  rw [record, ownRecords]
  cases signature.isExcluded <;> rfl

theorem reportFailure_run (signature : Signature) (args : List Guest.Value) (line : Option Nat)
    (fault : OperationError) (s : Session σ) : ∃ journal,
    reportFailure signature args line fault s = ((), ⟨s.memory,
      { s.bridge with
        context := s.bridge.context.reportHostError (failureMessage signature fault)
          ((line.filter (· > 0)).map Int.ofNat)
        journal }⟩) := by
  rw [reportFailure]
  cases signature.isExcluded <;> exact ⟨_, rfl⟩

theorem waitForTicks_leaves (args : Arguments) (s : Session σ) : ∃ delays journal,
    (waitForTicks args s).2 =
      ⟨s.memory, { s.bridge with context := { s.bridge.context with delays }, journal }⟩ := by
  rw [waitForTicks]
  cases args.int "ticks" <;> cases args.callback "callback" <;> exact ⟨_, _, rfl⟩

theorem waitForCompletion_leaves (host : Host σ) (args : Arguments) (s : Session σ) : ∃ completion journal,
    (waitForCompletion host args s).2 =
      ⟨s.memory, { s.bridge with context := { s.bridge.context with completion }, journal }⟩ := by
  rw [waitForCompletion]
  cases args.callback "callback" with
  | error fault => exact ⟨_, _, rfl⟩
  | ok callback =>
      cases args.handle "subject" with
      | error fault => exact ⟨_, _, rfl⟩
      | ok subject =>
          dsimp only
          rw [run_bind, run_get]
          dsimp only
          cases host.watchCompletion subject s.bridge.application <;> exact ⟨_, _, rfl⟩

theorem callHistory_leaves (args : Arguments) (s : Session σ) : ∃ journal,
    (callHistory args s).2 = s.withJournal journal := by
  rw [callHistory]
  cases args.bool "log_as_error" <;> exact ⟨_, rfl⟩

/-- Performing an operation leaves the guest's memory and a context as they are, but for the wait of an operation
that waits. -/
theorem perform_leaves (host : Host σ) (args : Arguments) (handler : Handler σ) (s : Session σ) :
    ∃ delays completion application journal,
      (perform host args handler s).2 =
          ⟨s.memory, ⟨{ s.bridge.context with delays, completion }, application, s.bridge.now, journal⟩⟩ ∧
        (handler ≠ .builtin .waitForTicks → delays = s.bridge.context.delays) ∧
        (handler ≠ .builtin .waitForCompletion → completion = s.bridge.context.completion) := by
  cases handler with
  | host run => exact ⟨_, _, _, _, rfl, fun _ => rfl, fun _ => rfl⟩
  | builtin b =>
      cases b with
      | waitForTicks =>
          obtain ⟨delays, journal, hleaves⟩ := waitForTicks_leaves args s
          exact ⟨delays, _, _, journal, hleaves, fun h => absurd rfl h, fun _ => rfl⟩
      | waitForCompletion =>
          obtain ⟨completion, journal, hleaves⟩ := waitForCompletion_leaves host args s
          exact ⟨_, completion, _, journal, hleaves, fun _ => rfl, fun h => absurd rfl h⟩
      | callHistory =>
          obtain ⟨journal, hleaves⟩ := callHistory_leaves args s
          exact ⟨_, _, _, journal, hleaves, fun _ => rfl, fun _ => rfl⟩
      | log | getType | createCoord | toTarget | isValid => exact ⟨_, _, _, _, rfl, fun _ => rfl, fun _ => rfl⟩

/-! ### Arguments that are not looked into -/

/-- Some argument stands where its parameter makes it be looked into. -/
def looksIntoArguments (registry : Registry σ) (params : List Parameter) (args : List Guest.Value) : Bool :=
  (params.zip args).any fun (p, value) => looksInto (targetKind registry p) value

theorem settle_context (machine : Machine) (options : ConversionOptions) (before : Option Collapse) (kind : Kind)
    (value : Guest.Value) (evidence : Evidence) (s : Session σ) :
    (settle machine options before kind value evidence s).2.bridge.context = s.bridge.context := by
  rw [settle, run_bind, run_get]
  dsimp only
  split
  · rfl
  · cases Conversion.attempt machine options (Reading.of s.memory) kind evidence value <;> rfl

theorem attempt_context {access : Access (SessionM σ)}
    (hentity : ∀ name s, (access.entity name s).2.bridge.context = s.bridge.context)
    (options : ConversionOptions) {kind : Kind} {value : Guest.Value} (hblind : looksInto kind value = false)
    (s : Session σ) : (attempt access options kind value s).2.bridge.context = s.bridge.context := by
  rw [attempt_run]
  dsimp only
  rw [settle_context]
  exact evidence_keeps (heeding access s.memory.collapse) (fun s => s.bridge.context) hentity hblind s

theorem convertArgument_context {access : Access (SessionM σ)}
    (hentity : ∀ name s, (access.entity name s).2.bridge.context = s.bridge.context)
    (registry : Registry σ) (signature : Signature) {p : Parameter} {value : Guest.Value}
    (hblind : looksInto (targetKind registry p) value = false) (s : Session σ) :
    (convertArgument access registry signature p value s).2.bridge.context = s.bridge.context := by
  obtain ⟨journal, hrun⟩ := convertArgument_run access registry signature p value s
  rw [hrun]
  exact attempt_context hentity registry.options hblind s

theorem argument_context {access : Access (SessionM σ)}
    (hentity : ∀ name s, (access.entity name s).2.bridge.context = s.bridge.context)
    (registry : Registry σ) (signature : Signature) {p : Parameter} {value : Option Guest.Value}
    (hblind : ∀ v ∈ value, looksInto (targetKind registry p) v = false) (s : Session σ) :
    (argument access registry signature p value s).2.bridge.context = s.bridge.context := by
  cases value with
  | none =>
      rw [argument]
      cases p.isOptional <;> rfl
  | some value =>
      rw [argument]
      split
      · rfl
      · exact convertArgument_context hentity registry signature (hblind value rfl) s

/-- Without a table to look into, converting the arguments runs no guest code. -/
theorem arguments_context {access : Access (SessionM σ)}
    (hentity : ∀ name s, (access.entity name s).2.bridge.context = s.bridge.context)
    (registry : Registry σ) (signature : Signature) {params : List Parameter} {args : List Guest.Value}
    (hblind : looksIntoArguments registry params args = false) (s : Session σ) :
    (arguments access registry signature params args s).2.bridge.context = s.bridge.context := by
  induction params generalizing args s with
  | nil => rfl
  | cons p rest ih =>
      have hhead : ∀ v ∈ args.head?, looksInto (targetKind registry p) v = false := by
        cases args with
        | nil => simp
        | cons value args => simp_all [looksIntoArguments]
      have htail : looksIntoArguments registry rest args.tail = false := by
        cases args with
        | nil => simp [looksIntoArguments]
        | cons value args => simp_all [looksIntoArguments]
      have hfirst := argument_context hentity registry signature hhead s
      cases hvalue : (argument access registry signature p args.head? s).1 with
      | none => rw [arguments_cons_of_none signature rest args hvalue, hfirst]
      | some v =>
          rw [arguments_cons_of_some signature rest args hvalue]
          exact (ih htail _).trans hfirst

/-! ### The whole call -/

/-- A call up to the moment when its result is known. -/
structure Stages (σ : Type) where
  /-- The call is recorded. -/
  recorded : Session σ
  /-- What there is for the operation to see, none when the host collapses over the arguments. -/
  values : Option (List Value)
  /-- Its arguments are converted. -/
  ready : Session σ
  /-- What the operation came to, nil if it was not performed. -/
  outcome : Except OperationError Value
  performed : Session σ

def stages (host : Host σ) (access : Access (SessionM σ)) (registry : Registry σ) (signature : Signature)
    (handler : Handler σ) (args : List Guest.Value) (s : Session σ) : Stages σ :=
  let recorded := (record signature args s).2
  let converted := arguments access registry signature signature.params args recorded
  let performed : Except OperationError Value × Session σ := match converted.1 with
    | none => (.ok .nil, converted.2)
    | some values => perform host ⟨signature.params, values⟩ handler converted.2
  ⟨recorded, converted.1, converted.2, performed.1, performed.2⟩

section

variable (host : Host σ) (access : Access (SessionM σ)) (registry : Registry σ) (signature : Signature)
  (handler : Handler σ) (args : List Guest.Value) (line : Option Nat) (s : Session σ)

/-- Where the host collapses over the arguments nothing is performed. -/
theorem stages_of_none (h : (stages host access registry signature handler args s).values = none) :
    (stages host access registry signature handler args s).outcome = .ok .nil ∧
      (stages host access registry signature handler args s).performed =
        (stages host access registry signature handler args s).ready := by
  rw [stages] at h ⊢
  dsimp only at h ⊢
  rw [h]
  exact ⟨rfl, rfl⟩

theorem stages_of_some {values : List Value}
    (h : (stages host access registry signature handler args s).values = some values) :
    ((stages host access registry signature handler args s).outcome,
        (stages host access registry signature handler args s).performed) =
      perform host ⟨signature.params, values⟩ handler
        (stages host access registry signature handler args s).ready := by
  rw [stages] at h ⊢
  dsimp only at h ⊢
  rw [h]
  rfl

theorem invoke_run :
    invoke host access registry signature handler args line s =
      (match (stages host access registry signature handler args s).outcome with
        | .ok value => Session.onMemory value.toGuest
        | .error fault => do
          reportFailure signature args line fault
          Session.onMemory (Value.sentinel signature.returns).toGuest : SessionM σ Guest.Value)
      (stages host access registry signature handler args s).performed := by
  rw [invoke, run_bind, run_bind, stages]
  dsimp only
  generalize arguments access registry signature signature.params args (record signature args s).2 = converted
  obtain ⟨values, ready⟩ := converted
  cases values <;> rfl

/-- What comes of a call whose operation succeeds. -/
theorem invoke_of_ok {result : Value}
    (h : (stages host access registry signature handler args s).outcome = .ok result) :
    invoke host access registry signature handler args line s =
      Session.onMemory result.toGuest (stages host access registry signature handler args s).performed := by
  rw [invoke_run, h]

/-- What comes of a call whose operation fails. -/
theorem invoke_of_error {fault : OperationError}
    (h : (stages host access registry signature handler args s).outcome = .error fault) :
    let performed := (stages host access registry signature handler args s).performed
    ∃ journal, invoke host access registry signature handler args line s =
      Session.onMemory (Value.sentinel signature.returns).toGuest ⟨performed.memory,
        { performed.bridge with
          context := performed.bridge.context.reportHostError (failureMessage signature fault)
            ((line.filter (· > 0)).map Int.ofNat)
          journal }⟩ := by
  intro performed
  obtain ⟨journal, hreport⟩ := reportFailure_run signature args line fault performed
  refine ⟨journal, ?_⟩
  rw [invoke_run, h]
  dsimp only
  rw [run_bind, show reportFailure signature args line fault
    (stages host access registry signature handler args s).performed = _ from hreport]

end

end Invocation

namespace Environment

theorem acting_lookups (e : Embedding σ) (registry : Registry σ) : (lookups e registry).Acting :=
  acting_access e (acting_answerWithin e registry (nestingLimit - 1))

end Environment

namespace Scheduler

/-- A call of a published operation, made in the midst of guest code. -/
def called (e : Embedding σ) (n : Nat) (args : List Guest.Value) (line : Option Nat) (s : Scheduler σ) :
    Guest.Value × Scheduler σ :=
  onSession (fun registry => Environment.answer e registry n args line) s

def callStages (e : Embedding σ) (signature : Signature) (handler : Handler σ) (args : List Guest.Value)
    (s : Scheduler σ) : Invocation.Stages σ :=
  Invocation.stages e.host (Environment.lookups e s.registry) s.registry signature handler args s.session

/-- The host survives the arguments of a call, once the call is recorded. -/
def SurvivesCall (e : Embedding σ) (signature : Signature) (args : List Guest.Value) (s : Scheduler σ) : Prop :=
  Invocation.Survives (Environment.lookups e s.registry) s.registry signature signature.params args
    (Invocation.record signature args s.session).2

/-- What a call comes to, with its stages, its value and the scheduler it leaves. `inside` is what was done
by the calls of guest code that ran while the arguments were looked into; each of them is a call of its
own. -/
structure CallIsolated (e : Embedding σ) (n : Nat) (signature : Signature) (handler : Handler σ)
    (args : List Guest.Value) (line : Option Nat) (s : Scheduler σ) (stages : Invocation.Stages σ)
    (value : Guest.Value) (s' : Scheduler σ) (inside : History) : Prop where
  /-- Whatever guest code makes the call, it goes on, and it does so with the value of the call. -/
  goes_on : ∀ {α : Type} (resume : Guest.Value → Guest.State → Guest.Run α),
    (Guest.Run.call n args line s.session.memory resume).follow (Environment.answer e s.registry)
        s.session.bridge =
      (resume value s'.session.memory).follow (Environment.answer e s.registry) s'.session.bridge
  /-- In the standard guest language that value is all the call gives back. -/
  one_value : s.session.memory.collapse = none → ∀ fuel stack depth named, stack.headD none = line →
    (Guest.Interpreter.callValue (fuel + 1) (.function (.published n)) args stack depth named
        s.session.memory).follow (Environment.answer e s.registry) s.session.bridge =
      (.ok [value], s'.session)
  /-- Nothing that is armed is touched, nor the flag of a reported error. -/
  session_only : s' = s.withSession s'.session
  /-- The call is recorded first, by its base name and the types of all its arguments. -/
  recorded : stages.recorded.bridge.context =
    { s.context with history := s.context.history.pushAll (Invocation.ownRecords signature args) }
  /-- Converting the arguments does to the context what the calls inside do. -/
  converted : Acts stages.recorded.bridge.context inside stages.ready.bridge.context
  /-- There are none unless a table stands for a coordinate or a target. -/
  alone : Invocation.looksIntoArguments s.registry signature.params args = false → inside = []
  /-- The operation is performed with what they were converted to. -/
  carried_out : ∃ values, stages.values = some values ∧
    (stages.outcome, stages.performed) = Invocation.perform e.host ⟨signature.params, values⟩ handler stages.ready
  /-- The operation leaves the context as it is, but for the wait of an operation that waits. -/
  performed : ∃ delays completion,
    stages.performed.bridge.context = { stages.ready.bridge.context with delays, completion } ∧
      (handler ≠ .builtin .waitForTicks → delays = stages.ready.bridge.context.delays) ∧
      (handler ≠ .builtin .waitForCompletion → completion = stages.ready.bridge.context.completion)
  /-- On success the value is the image of the result, and that is all. -/
  succeeded : ∀ result, stages.outcome = .ok result →
    (value, s'.session.memory) = result.toGuest stages.performed.memory ∧
      s'.session.bridge = stages.performed.bridge
  /-- On failure it is the image of the sentinel, and the failure is on the surface if nothing was. -/
  failed : ∀ fault, stages.outcome = .error fault →
    (value, s'.session.memory) = (Value.sentinel signature.returns).toGuest stages.performed.memory ∧
      ∃ report : Report, report.origin = .hostOperation ∧ report.isDisplaying = true ∧
        report.message = "Error in " ++ signature.name ++ ": " ++ fault.message ∧
        report.history = s'.callHistory ∧
        s'.context = { stages.performed.bridge.context with
          surface := stages.ready.bridge.context.surface.or (some report) }
  /-- A report that was on the surface before the call stays there. -/
  reported : ∀ report, s.context.surface = some report → s'.context.surface = some report
  /-- All records are there before the operation is performed, those of the calls inside after its own. -/
  history : s'.context.history =
      s.context.history.pushAll (Invocation.ownRecords signature args ++ inside.records) ∧
    stages.ready.bridge.context.history = s'.context.history
  /-- Its own record is still there afterwards if the calls inside leave room for it. -/
  kept : inside.records.length < s.context.history.capacity →
    ∀ record ∈ Invocation.ownRecords signature args, record ∈ s'.callHistory
  source : s'.context.source = s.context.source

/-- The operation itself changes nothing but the waits, and those only if it is there to wait. -/
theorem performed_context (e : Embedding σ) (signature : Signature) (handler : Handler σ)
    (args : List Guest.Value) (s : Scheduler σ) : ∃ delays completion,
    (s.callStages e signature handler args).performed.bridge.context =
        { (s.callStages e signature handler args).ready.bridge.context with delays, completion } ∧
      (handler ≠ .builtin .waitForTicks →
        delays = (s.callStages e signature handler args).ready.bridge.context.delays) ∧
      (handler ≠ .builtin .waitForCompletion →
        completion = (s.callStages e signature handler args).ready.bridge.context.completion) := by
  cases hvalues : (s.callStages e signature handler args).values with
  | none =>
      have hsame : (s.callStages e signature handler args).performed = _ :=
        (Invocation.stages_of_none (h := hvalues)).2
      rw [hsame]
      exact ⟨_, _, rfl, fun _ => rfl, fun _ => rfl⟩
  | some values =>
      have hperform : (s.callStages e signature handler args).performed = _ :=
        congrArg Prod.snd (Invocation.stages_of_some (h := hvalues))
      obtain ⟨delays, completion, application, journal, hleaves, hwaits⟩ := Invocation.perform_leaves e.host
        ⟨signature.params, values⟩ handler (s.callStages e signature handler args).ready
      exact ⟨delays, completion, congrArg (fun left => left.bridge.context) (hperform.trans hleaves), hwaits⟩

theorem carried_out_of_survives (e : Embedding σ) (signature : Signature) (handler : Handler σ)
    (args : List Guest.Value) (s : Scheduler σ) (h : s.SurvivesCall e signature args) :
    ∃ values, (s.callStages e signature handler args).values = some values ∧
      ((s.callStages e signature handler args).outcome, (s.callStages e signature handler args).performed) =
        Invocation.perform e.host ⟨signature.params, values⟩ handler
          (s.callStages e signature handler args).ready := by
  obtain ⟨values, hvalues⟩ :=
    (Invocation.arguments_eq_some_iff signature (fun _ _ => rfl) signature.params args _).mpr h
  exact ⟨values, hvalues, Invocation.stages_of_some (h := hvalues)⟩

/-- What looking into the arguments of a call does, nothing if there is nothing to look into. -/
theorem exists_inside (e : Embedding σ) (signature : Signature) (handler : Handler σ)
    (args : List Guest.Value) (s : Scheduler σ) : ∃ inside,
    Acts (s.callStages e signature handler args).recorded.bridge.context inside
        (s.callStages e signature handler args).ready.bridge.context ∧
      (Invocation.looksIntoArguments s.registry signature.params args = false → inside = []) := by
  let recorded := (s.callStages e signature handler args).recorded
  cases hlooks : Invocation.looksIntoArguments s.registry signature.params args with
  | true =>
      obtain ⟨inside, hacts⟩ := (Environment.acting_lookups e s.registry).arguments s.registry signature
        signature.params args recorded
      exact ⟨inside, hacts, fun h => by cases h⟩
  | false =>
      have hentity : ∀ name (session : Session σ),
          ((Environment.lookups e s.registry).entity name session).2.bridge.context = session.bridge.context :=
        fun _ _ => rfl
      have hsame : (s.callStages e signature handler args).ready.bridge.context = recorded.bridge.context :=
        Invocation.arguments_context hentity s.registry signature hlooks recorded
      refine ⟨[], ?_, fun _ => rfl⟩
      rw [hsame]
      exact .rest _

section

variable (e : Embedding σ) (s : Scheduler σ) {n : Nat} {signature : Signature} {handler : Handler σ}
  (hpublished : s.registry.published[n]? = some (signature, handler)) {args : List Guest.Value}
  (line : Option Nat)

include hpublished

theorem called_of_ok {result : Value} (h : (s.callStages e signature handler args).outcome = .ok result) :
    ((s.called e n args line).1, (s.called e n args line).2.session.memory) =
        result.toGuest (s.callStages e signature handler args).performed.memory ∧
      (s.called e n args line).2.session.bridge = (s.callStages e signature handler args).performed.bridge := by
  have hanswer := congrFun (Environment.answer_of_published e hpublished args line) s.session
  rw [Invocation.invoke_of_ok (h := h)] at hanswer
  exact ⟨congrArg (fun answered => (answered.1, answered.2.memory)) hanswer,
    congrArg (fun answered => answered.2.bridge) hanswer⟩

theorem called_of_error {fault : OperationError}
    (h : (s.callStages e signature handler args).outcome = .error fault) :
    ((s.called e n args line).1, (s.called e n args line).2.session.memory) =
        (Value.sentinel signature.returns).toGuest (s.callStages e signature handler args).performed.memory ∧
      (s.called e n args line).2.context =
        (s.callStages e signature handler args).performed.bridge.context.reportHostError
          (Invocation.failureMessage signature fault) ((line.filter (· > 0)).map Int.ofNat) := by
  have hanswer := congrFun (Environment.answer_of_published e hpublished args line) s.session
  obtain ⟨journal, hinvoke⟩ := Invocation.invoke_of_error e.host (Environment.lookups e s.registry) s.registry
    signature handler args line s.session h
  rw [hinvoke] at hanswer
  exact ⟨congrArg (fun answered => (answered.1, answered.2.memory)) hanswer,
    congrArg (fun answered => answered.2.bridge.context) hanswer⟩

/-- After the operation only the surface may still change. -/
theorem called_context : ∃ surface, (s.called e n args line).2.context =
    { (s.callStages e signature handler args).performed.bridge.context with surface } := by
  cases houtcome : (s.callStages e signature handler args).outcome with
  | ok result => exact ⟨_, congrArg Bridge.context (called_of_ok e s hpublished line houtcome).2⟩
  | error fault => exact ⟨_, (called_of_error e s hpublished line houtcome).2⟩

theorem called_surface {report : Report}
    (hready : (s.callStages e signature handler args).ready.bridge.context.surface = some report) :
    (s.called e n args line).2.context.surface = some report := by
  have hperformed : (s.callStages e signature handler args).performed.bridge.context.surface = some report := by
    obtain ⟨delays, completion, hsame, -⟩ := performed_context e signature handler args s
    exact (congrArg Context.surface hsame).trans hready
  cases houtcome : (s.callStages e signature handler args).outcome with
  | ok result =>
      have hsame := congrArg Bridge.context (called_of_ok e s hpublished line houtcome).2
      exact (congrArg Context.surface hsame).trans hperformed
  | error fault =>
      rw [(called_of_error e s hpublished line houtcome).2, Context.reportHostError, hperformed]
      rfl

/-- A call that the host survives is no occasion to collapse. -/
theorem called_calm (hsurvives : s.SurvivesCall e signature args)
    (hcalm : s.session.memory.collapse = none) :
    (s.called e n args line).2.session.memory.collapse = none := by
  have hrecorded : (Invocation.record signature args s.session).2.memory = s.session.memory := by
    rw [Invocation.record]
    cases signature.isExcluded <;> rfl
  have hready : (s.callStages e signature handler args).ready.memory.collapse = none := by
    rw [← hcalm, ← hrecorded]
    exact Invocation.collapse_arguments signature (fun _ _ => rfl) hsurvives
  have hperformed : (s.callStages e signature handler args).performed.memory.collapse = none := by
    obtain ⟨values, -, hcarried⟩ := carried_out_of_survives e signature handler args s hsurvives
    have hperform : (s.callStages e signature handler args).performed = _ := congrArg Prod.snd hcarried
    obtain ⟨_, _, _, _, hleaves, -⟩ := Invocation.perform_leaves e.host ⟨signature.params, values⟩ handler
      (s.callStages e signature handler args).ready
    rw [← hready, hperform, hleaves]
  have himage (v : Value) (h : ((s.called e n args line).1, (s.called e n args line).2.session.memory) =
      v.toGuest (s.callStages e signature handler args).performed.memory) :
      (s.called e n args line).2.session.memory.collapse = none :=
    (congrArg (fun made => made.2.collapse) h).trans ((v.collapse_toGuest _).trans hperformed)
  cases houtcome : (s.callStages e signature handler args).outcome with
  | ok result => exact himage result (called_of_ok e s hpublished line houtcome).1
  | error fault => exact himage _ (called_of_error e s hpublished line houtcome).1

end

theorem goOn_of_calm {memory : Guest.State} (h : memory.collapse = none) (stack : Guest.CallStack)
    (value : Guest.Value) : Guest.Interpreter.goOn stack value memory = .finished (.ok [value]) memory := by
  cases memory
  cases h
  rfl

/-- Where the host does not collapse, the standard guest language takes a call's answer for the call. -/
theorem callValue_published (e : Embedding σ) (s : Scheduler σ) (n : Nat) (args : List Guest.Value) (fuel : Nat)
    (stack : Guest.CallStack) (depth : Nat) (named : Option (String × String))
    (hcalm : (s.called e n args (stack.headD none)).2.session.memory.collapse = none) :
    (Guest.Interpreter.callValue (fuel + 1) (.function (.published n)) args stack depth named
        s.session.memory).follow (Environment.answer e s.registry) s.session.bridge =
      (.ok [(s.called e n args (stack.headD none)).1], (s.called e n args (stack.headD none)).2.session) := by
  let answered := (s.called e n args (stack.headD none)).2.session
  have hstep : (Guest.Interpreter.callValue (fuel + 1) (.function (.published n)) args stack depth named
        s.session.memory).follow (Environment.answer e s.registry) s.session.bridge =
      (Guest.Interpreter.goOn stack (s.called e n args (stack.headD none)).1 answered.memory).follow
        (Environment.answer e s.registry) answered.bridge := rfl
  rw [hstep, goOn_of_calm hcalm]
  rfl

theorem ready_history (e : Embedding σ) (signature : Signature) (handler : Handler σ)
    (args : List Guest.Value) (s : Scheduler σ) {inside : History}
    (hinside : Acts (s.callStages e signature handler args).recorded.bridge.context inside
      (s.callStages e signature handler args).ready.bridge.context) :
    (s.callStages e signature handler args).ready.bridge.context.history =
        s.context.history.pushAll (Invocation.ownRecords signature args ++ inside.records) ∧
      (s.callStages e signature handler args).ready.bridge.context.source = s.context.source := by
  have hrecorded : (s.callStages e signature handler args).recorded.bridge.context = _ :=
    Invocation.record_context signature args s.session
  rw [hinside.history, hinside.source, hrecorded, CallHistory.pushAll_append]
  exact ⟨rfl, rfl⟩

/-- **A call is isolated.** Whatever its arguments are, so long as the host survives them, whatever its operation
does and whatever state the scheduler is in, a call of a published operation gives its caller one value and no
fault. A failure shows as the sentinel of the declared kind and as a report of the operation by its name, which
does not take the place of another report. Each call leaves its one record before it is performed, and beyond that
and the report it touches nothing but what its operation is there to change. -/
theorem calls_isolated (e : Embedding σ) (s : Scheduler σ) {n : Nat} {signature : Signature}
    {handler : Handler σ} (hpublished : s.registry.published[n]? = some (signature, handler))
    (args : List Guest.Value) (hsurvives : s.SurvivesCall e signature args) (line : Option Nat) :
    ∃ inside, CallIsolated e n signature handler args line s (s.callStages e signature handler args)
      (s.called e n args line).1 (s.called e n args line).2 inside := by
  obtain ⟨inside, hinside, halone⟩ := exists_inside e signature handler args s
  obtain ⟨hready, hsource⟩ := ready_history e signature handler args s hinside
  obtain ⟨delays, completion, hsame, hwaits⟩ := performed_context e signature handler args s
  obtain ⟨surface, hcontext⟩ : ∃ surface, (s.called e n args line).2.context =
      { (s.callStages e signature handler args).performed.bridge.context with surface } :=
    called_context e s hpublished line
  have hhistory : (s.called e n args line).2.context.history =
      (s.callStages e signature handler args).ready.bridge.context.history := by rw [hcontext, hsame]
  exact ⟨inside, {
    goes_on := fun _ => rfl
    one_value := by
      rintro hcalm fuel stack depth named rfl
      exact callValue_published e s n args fuel stack depth named (called_calm e s hpublished _ hsurvives hcalm)
    session_only := rfl
    recorded := Invocation.record_context signature args s.session
    converted := hinside
    alone := halone
    carried_out := carried_out_of_survives e signature handler args s hsurvives
    performed := ⟨delays, completion, hsame, hwaits⟩
    succeeded := fun _ => called_of_ok e s hpublished line
    failed := by
      intro fault hfault
      obtain ⟨hvalue, hreported⟩ := called_of_error e s hpublished line hfault
      refine ⟨hvalue, (s.callStages e signature handler args).performed.bridge.context.capture .hostOperation
        (Invocation.failureMessage signature fault) ((line.filter (· > 0)).map Int.ofNat), rfl, rfl, rfl, ?_, ?_⟩
      · show (s.callStages e signature handler args).performed.bridge.context.history.records =
          (s.called e n args line).2.context.history.records
        rw [hhistory, hsame]
      · rw [hreported, Context.reportHostError, hsame]
    reported := by
      intro report hreport
      refine called_surface e s hpublished line (hinside.surface ?_)
      rw [show (s.callStages e signature handler args).recorded.bridge.context = _ from
        Invocation.record_context signature args s.session]
      exact hreport
    history := ⟨hhistory.trans hready, hhistory.symm⟩
    kept := by
      intro hroom record hrecord
      show record ∈ (s.called e n args line).2.context.history.records
      rw [Invocation.ownRecords] at hrecord hready
      by_cases hexcluded : signature.isExcluded = true
      · rw [if_pos hexcluded] at hrecord
        cases hrecord
      · rw [if_neg hexcluded] at hrecord hready
        rw [List.singleton_append] at hready
        rw [List.mem_singleton.mp hrecord, hhistory, hready]
        exact CallHistory.mem_records_pushAll hroom
    source := by rw [hcontext, hsame, ← hsource] }⟩

/-- An application with an operation that succeeds and one that refuses every place it is given. -/
def refusing : Embedding Unit where
  engine := .standard
  host := { Host.bare Unit with operations := [
    ⟨⟨"Inner", [], .int, false⟩, some fun _ => return .ok (.int 1)⟩,
    ⟨⟨"Outer", [.required "place" .coord], .int, false⟩, some fun _ => return .error (.refused "refused")⟩] }
  hasCheckers := false

/-- A scheduler with one operation, which panics. -/
def panicking : Scheduler Unit where
  config := .standard
  registry := { (Registry.new .standard : Registry Unit) with
    published := #[(⟨"Dig.Down", [.required "depth" .int], .int, false⟩, .host fun _ => return .error .panicked)] }
  session := ⟨.initial, ⟨.new .standard false, ⟨(), .empty⟩, 0, #[]⟩⟩
  errorReported := false
  deferred := none
  repeating := none

/-- A panic is reported by the operation's name, the call among those that led to it. -/
theorem panic_isolated :
    panicking.registry.published[0]? =
        some (⟨"Dig.Down", [.required "depth" .int], .int, false⟩, .host fun _ => return .error .panicked) ∧
      ∃ report, (panicking.called refusing 0 [.nil] none).2.lastError = some report ∧
        report.message = "Error in Dig.Down: operation panicked" ∧
        ⟨"Down", "nil"⟩ ∈ report.history := by
  have hsurvives : panicking.SurvivesCall refusing ⟨"Dig.Down", [.required "depth" .int], .int, false⟩ [.nil] := by
    refine Invocation.survives_of_plain _ (fun _ _ => rfl) (fun i p _ g hg => ?_) _
    have hnil : g ∈ [Guest.Value.nil] := List.mem_of_getElem? hg
    rw [List.mem_singleton.mp hnil]
    exact ⟨rfl, rfl⟩
  obtain ⟨inside, h⟩ := calls_isolated refusing panicking (n := 0) rfl [.nil] hsurvives none
  generalize panicking.callStages refusing _ _ _ = stages at h
  obtain ⟨values, -, hcarried⟩ := h.carried_out
  obtain ⟨houtcome, -⟩ := Prod.mk.inj hcarried
  obtain ⟨-, report, -, -, hmessage, hhistory, hcontext⟩ := h.failed .panicked houtcome
  obtain rfl := h.alone rfl
  have hquiet : stages.ready.bridge.context.surface = none := by rw [h.converted.eq_of_nil, h.recorded]; rfl
  rw [hquiet] at hcontext
  refine ⟨rfl, report, congrArg Context.surface hcontext, hmessage, ?_⟩
  rw [hhistory]
  exact h.kept (by decide) _ (by decide)

/-- A call inside another one pushes the outer call's record out of a history with room for one. -/
theorem own_record_pushed_out :
    let block := "Outer(setmetatable(\x7b\x7d, \x7b__index = function() return Inner() end\x7d))"
    let s := (executeBlock refusing block
      (new refusing { Config.standard with historyCapacity := 1 } ⟨(), .empty⟩)).2
    s.lastError.map (fun report => (report.message, report.history)) =
      some ("Error in Outer: refused", [⟨"Inner", "No arguments"⟩]) := by
  decide +kernel

end Scheduler

end ScriptBridge
