import ScriptBridge.Proofs.IsolatedCalls

/-! Traces of calls. Sessions keep the last few calls only, so what there was to keep is written down beside
them: every call as it is made, also of code that runs in the midst of another call, every list of calls that
is handed to guest code, and every report as it is made. Writing the trace changes nothing: a traced computation
forgets its trace to the computation itself. -/

namespace ScriptBridge

/-- What a call history is about, at the moment it happens. -/
inductive CallEvent where
  /-- An environment is built with room for so many calls. -/
  | built (capacity : Nat)
  | began (source : String)
  /-- A call of a published operation begins. -/
  | called (signature : Signature) (args : List Guest.Value)
  /-- The built-in operation that lists the calls has its result. -/
  | listed (result : Value)
  | reported (report : Report)

abbrev CallTrace := List CallEvent

variable {σ α β : Type}

/-- Computations over a session that write a trace. -/
abbrev TracedM (σ : Type) := StateM (Session σ × CallTrace)

/-- Answers one call, writing a trace. -/
abbrev TracedAnswer (σ : Type) := Nat → List Guest.Value → Option Nat → TracedM σ Guest.Value

namespace TracedM

/-- Writes down what follows from the session before a computation and from its result. -/
def writing (events : Session σ → α → CallTrace) (m : SessionM σ α) : TracedM σ α := fun (s, past) =>
  ((m s).1, (m s).2, past ++ events s (m s).1)

/-- Writes nothing. -/
def silent (m : SessionM σ α) : TracedM σ α := writing (fun _ _ => []) m

/-! ### Guest code -/

def follow (answer : TracedAnswer σ) : Guest.Run α → Bridge σ → CallTrace →
    Except Guest.Fault α × Session σ × CallTrace
  | .finished result memory, bridge, past => (result, ⟨memory, bridge⟩, past)
  | .call operation args line memory resume, bridge, past =>
    let (value, ⟨memory, bridge⟩, past) := answer operation args line (⟨memory, bridge⟩, past)
    follow answer (resume value memory) bridge past

def runGuest (answer : TracedAnswer σ) (code : Guest.State → Guest.Run α) :
    TracedM σ (Except Guest.Fault α) :=
  fun (s, past) => follow answer (code s.memory) s.bridge past

/-! ### One call -/

section

variable (access : Access (TracedM σ)) (registry : Registry σ) (signature : Signature)

/-- The collapse in memory. -/
def collapse : TracedM σ (Option Collapse) := silent do return (← get).memory.collapse

def heeding (before : Option Collapse) : Access (TracedM σ) where
  machine := access.machine
  lookup address key := do
    if (← collapse) = before then access.lookup address key else return .nil
  entity := access.entity

def attempt (options : ConversionOptions) (kind : Kind) (value : Guest.Value) :
    TracedM σ (Option (Except ConversionError Value)) := do
  let before ← collapse
  let evidence ← (heeding access before).evidence kind value
  silent (Invocation.settle access.machine options before kind value evidence)

def convertArgument (p : Parameter) (value : Guest.Value) : TracedM σ (Option Value) := do
  match ← attempt access registry.options (Invocation.targetKind registry p) value with
  | none => return none
  | some (.ok converted) => return some converted
  | some (.error fault) => silent do
    Session.note
      [.warn (signature.name ++ ": argument '" ++ p.name ++ "' not converted: " ++ fault.message)]
    return some (.sentinel p.kind)

def argument (p : Parameter) : Option Guest.Value → TracedM σ (Option Value)
  | none =>
    if p.isOptional then return some p.omitted
    else silent do
      Session.note [.warn (signature.name ++ ": " ++ (ConversionError.missingArgument p.name).message)]
      return some (.sentinel p.kind)
  | some value =>
    if value.isNil && p.isOptional then return some p.omitted
    else convertArgument access registry signature p value

def arguments : List Parameter → List Guest.Value → TracedM σ (Option (List Value))
  | [], _ => return some []
  | p :: params, args => do
    match ← argument access registry signature p args.head? with
    | none => return none
    | some value => return (← arguments params args.tail).map (value :: ·)

/-- The list of calls that an operation gives back, if it is the one that lists them. -/
def listing : Handler σ → Except OperationError Value → CallTrace
  | .builtin .callHistory, .ok result => [.listed result]
  | _, _ => []

/-- The report of a failed operation. -/
def failure (line : Option Nat) (fault : OperationError) (s : Session σ) : CallTrace :=
  [.reported (s.bridge.context.capture .hostOperation (Invocation.failureMessage signature fault)
    ((line.filter (· > 0)).map Int.ofNat))]

def carryOut (host : Host σ) (handler : Handler σ) (args : List Guest.Value) (line : Option Nat)
    (values : List Value) : TracedM σ Guest.Value := do
  let outcome ← writing (fun _ => listing handler) (Invocation.perform host ⟨signature.params, values⟩ handler)
  match outcome with
  | .ok value => silent (Session.onMemory value.toGuest)
  | .error fault =>
    writing (fun s _ => failure signature line fault s) (Invocation.reportFailure signature args line fault)
    silent (Session.onMemory (Value.sentinel signature.returns).toGuest)

def invoke (host : Host σ) (handler : Handler σ) (args : List Guest.Value) (line : Option Nat) :
    TracedM σ Guest.Value := do
  writing (fun _ _ => [.called signature args]) (Invocation.record signature args)
  match ← arguments access registry signature signature.params args with
  | none => return .nil
  | some values => carryOut signature host handler args line values

end

/-! ### Answers -/

def access (e : Embedding σ) (answer : TracedAnswer σ) : Access (TracedM σ) where
  machine := e.host.machine
  lookup address key := do
    match ← runGuest answer (e.engine.index address key) with
    | .ok value => return value
    | .error _ => return .nil
  entity name := silent (Session.askHost (e.host.constructEntity name))

def blindAccess (e : Embedding σ) : Access (TracedM σ) where
  machine := e.host.machine
  lookup _ _ := return .nil
  entity name := silent (Session.askHost (e.host.constructEntity name))

def answerThrough (e : Embedding σ) (registry : Registry σ) (inside : Access (TracedM σ)) : TracedAnswer σ :=
  fun operation args line =>
    match registry.published[operation]? with
    | none => return .nil
    | some (signature, handler) => invoke inside registry signature e.host handler args line

def answerWithin (e : Embedding σ) (registry : Registry σ) : Nat → TracedAnswer σ
  | 0 => answerThrough e registry (blindAccess e)
  | depth + 1 => answerThrough e registry (access e (answerWithin e registry depth))

def answer (e : Embedding σ) (registry : Registry σ) : TracedAnswer σ :=
  answerWithin e registry Environment.nestingLimit

end TracedM

/-! ### Relations between a trace and a context -/

/-- A relation between a trace and a context that every stage of a call keeps. -/
structure CallTrace.Kept (P : CallTrace → Context → Prop) : Prop where
  /-- Only the history and the surface matter. -/
  still : ∀ {past c c'}, P past c → c'.history = c.history → c'.surface = c.surface → P past c'
  called : ∀ {past c} signature args, P past c →
    P (past ++ [.called signature args])
      { c with history := c.history.pushAll (Invocation.ownRecords signature args) }
  listed : ∀ {past c}, P past c →
    P (past ++ [.listed (.list (c.history.records.map fun r =>
      .record [("ArgumentTypes", .str r.argumentTypes), ("Operation", .str r.operation)]))]) c
  failed : ∀ {past c} message line, P past c →
    P (past ++ [.reported (c.capture .hostOperation message line)]) (c.reportHostError message line)

/-- A traced computation does what the computation itself does, and keeps a relation between trace and
context. -/
structure TracedM.Follows (P : CallTrace → Context → Prop) (w : TracedM σ α) (m : SessionM σ α) : Prop where
  erases : ∀ s past, (w (s, past)).1 = (m s).1 ∧ (w (s, past)).2.1 = (m s).2
  keeps : ∀ s past, P past s.bridge.context → P (w (s, past)).2.2 (m s).2.bridge.context

namespace TracedM.Follows

variable {P : CallTrace → Context → Prop}

/-- A traced computation together with its trace. -/
theorem run {w : TracedM σ α} {m : SessionM σ α} (h : Follows P w m) (s : Session σ) (past : CallTrace) :
    w (s, past) = ((m s).1, (m s).2, (w (s, past)).2.2) :=
  Prod.ext (h.erases s past).1 (Prod.ext (h.erases s past).2 rfl)

theorem pure (a : α) : Follows P (Pure.pure a : TracedM σ α) (Pure.pure a) :=
  ⟨fun _ _ => ⟨rfl, rfl⟩, fun _ _ h => h⟩

theorem bind {w : TracedM σ α} {m : SessionM σ α} {f : α → TracedM σ β} {g : α → SessionM σ β}
    (hw : Follows P w m) (hf : ∀ a, Follows P (f a) (g a)) : Follows P (w >>= f) (m >>= g) := by
  constructor
  · intro s past
    rw [run_bind, run_bind, hw.run s past]
    exact (hf _).erases _ _
  · intro s past hpast
    have hfirst := hw.keeps s past hpast
    rw [run_bind, run_bind, hw.run s past]
    exact (hf _).keeps _ _ hfirst

theorem writing {events : Session σ → α → CallTrace} {m : SessionM σ α}
    (h : ∀ s past, P past s.bridge.context → P (past ++ events s (m s).1) (m s).2.bridge.context) :
    Follows P (TracedM.writing events m) m :=
  ⟨fun _ _ => ⟨rfl, rfl⟩, h⟩

section

variable (hP : CallTrace.Kept P)

include hP

theorem silent {m : SessionM σ α} (h : ∀ s, (m s).2.bridge.context.history = s.bridge.context.history ∧
    (m s).2.bridge.context.surface = s.bridge.context.surface) : Follows P (TracedM.silent m) m := by
  refine writing fun s past hpast => ?_
  rw [List.append_nil]
  exact hP.still hpast (h s).1 (h s).2

omit hP in
theorem follow {answer : TracedAnswer σ} {answer' : Answer σ}
    (hanswer : ∀ operation args line, Follows P (answer operation args line) (answer' operation args line))
    (run : Guest.Run α) (b : Bridge σ) (past : CallTrace) :
    ((TracedM.follow answer run b past).1 = (run.follow answer' b).1 ∧
        (TracedM.follow answer run b past).2.1 = (run.follow answer' b).2) ∧
      (P past b.context → P (TracedM.follow answer run b past).2.2 (run.follow answer' b).2.bridge.context) := by
  induction run generalizing b past with
  | finished result memory => exact ⟨⟨rfl, rfl⟩, id⟩
  | call operation args line memory resume ih =>
      have hcall := (hanswer operation args line).run ⟨memory, b⟩ past
      obtain ⟨herases, hkeeps⟩ := ih (answer' operation args line ⟨memory, b⟩).1
        (answer' operation args line ⟨memory, b⟩).2.memory (answer' operation args line ⟨memory, b⟩).2.bridge
        (answer operation args line (⟨memory, b⟩, past)).2.2
      rw [TracedM.follow, Guest.Run.follow, hcall]
      exact ⟨herases, fun hpast => hkeeps ((hanswer operation args line).keeps ⟨memory, b⟩ past hpast)⟩

omit hP in
theorem runGuest {answer : TracedAnswer σ} {answer' : Answer σ}
    (hanswer : ∀ operation args line, Follows P (answer operation args line) (answer' operation args line))
    (code : Guest.State → Guest.Run α) :
    Follows P (TracedM.runGuest answer code) (Session.runGuest answer' code) :=
  ⟨fun s past => (follow hanswer (code s.memory) s.bridge past).1,
    fun s past => (follow hanswer (code s.memory) s.bridge past).2⟩

/-! ### One call -/

theorem collapse {f : Option Collapse → TracedM σ α} {g : Option Collapse → SessionM σ α}
    (hf : ∀ now, Follows P (f now) (g now)) :
    Follows P (TracedM.collapse >>= f) (get >>= fun s => g s.memory.collapse) := by
  have hread : Follows P TracedM.collapse (do return (← get).memory.collapse : SessionM σ (Option Collapse)) :=
    silent hP fun _ => ⟨rfl, rfl⟩
  exact bind hread hf

section

variable {access : Access (TracedM σ)} {access' : Access (SessionM σ)} (hmachine : access.machine = access'.machine)
  (hlookup : ∀ address key, Follows P (access.lookup address key) (access'.lookup address key))
  (hentity : ∀ name, Follows P (access.entity name) (access'.entity name))

include hlookup in
theorem heeding_lookup (before : Option Collapse) (address : Nat) (key : Guest.Value) :
    Follows P ((TracedM.heeding access before).lookup address key)
      ((Invocation.heeding access' before).lookup address key) := by
  refine collapse hP (g := fun now => if now = before then access'.lookup address key else return .nil) fun now => ?_
  split
  · exact hlookup address key
  · exact pure _

include hmachine hlookup hentity

theorem attempt (options : ConversionOptions) (kind : Kind) (value : Guest.Value) :
    Follows P (TracedM.attempt access options kind value) (Invocation.attempt access' options kind value) := by
  have hcomposes : Composes (TracedM σ) (SessionM σ) fun _ => Follows P := ⟨pure, bind⟩
  refine collapse hP (g := fun before => do
    let evidence ← (Invocation.heeding access' before).evidence kind value
    Invocation.settle access'.machine options before kind value evidence) fun before => ?_
  refine bind (hcomposes.evidence (TracedM.heeding access before) (Invocation.heeding access' before)
    (heeding_lookup hP hlookup before) hentity kind value) fun evidence => ?_
  rw [hmachine]
  refine silent hP fun s => ?_
  rw [Invocation.settle_context]
  exact ⟨rfl, rfl⟩

theorem convertArgument (registry : Registry σ) (signature : Signature) (p : Parameter) (value : Guest.Value) :
    Follows P (TracedM.convertArgument access registry signature p value)
      (Invocation.convertArgument access' registry signature p value) := by
  refine bind (attempt hP hmachine hlookup hentity _ _ _) fun result => ?_
  match result with
  | none | some (.ok _) => exact pure _
  | some (.error _) => exact silent hP fun _ => ⟨rfl, rfl⟩

theorem argument (registry : Registry σ) (signature : Signature) (p : Parameter) (value : Option Guest.Value) :
    Follows P (TracedM.argument access registry signature p value)
      (Invocation.argument access' registry signature p value) := by
  cases value with
  | none =>
      rw [TracedM.argument, Invocation.argument]
      split
      · exact pure _
      · exact silent hP fun _ => ⟨rfl, rfl⟩
  | some value =>
      rw [TracedM.argument, Invocation.argument]
      split
      · exact pure _
      · exact convertArgument hP hmachine hlookup hentity _ _ _ _

theorem arguments (registry : Registry σ) (signature : Signature) (params : List Parameter)
    (args : List Guest.Value) :
    Follows P (TracedM.arguments access registry signature params args)
      (Invocation.arguments access' registry signature params args) := by
  induction params generalizing args with
  | nil => exact pure _
  | cons p rest ih =>
      refine bind (argument hP hmachine hlookup hentity _ _ _ _) fun value => ?_
      cases value with
      | none => exact pure _
      | some value => exact bind (ih _) fun _ => pure _

omit hmachine hlookup hentity

theorem perform (host : Host σ) (args : Arguments) (handler : Handler σ) :
    Follows P (TracedM.writing (fun _ => listing handler) (Invocation.perform host args handler))
      (Invocation.perform host args handler) := by
  refine writing fun s past hpast => ?_
  obtain ⟨delays, completion, application, journal, hleaves, -⟩ := Invocation.perform_leaves host args handler s
  rw [hleaves]
  have hstill : ∀ {past}, P past s.bridge.context → P past { s.bridge.context with delays, completion } :=
    fun h => hP.still h rfl rfl
  unfold listing
  split
  · rename_i result hresult
    -- the list of calls is of the history as it stands
    have hlist : result = .list (s.bridge.context.history.records.map fun r =>
        .record [("ArgumentTypes", .str r.argumentTypes), ("Operation", .str r.operation)]) := by
      replace hresult : (Invocation.callHistory args s).1 = .ok result := hresult
      rw [Invocation.callHistory] at hresult
      cases hbool : args.bool "log_as_error" with
      | error fault =>
          rw [hbool] at hresult
          cases hresult
      | ok asError =>
          rw [hbool] at hresult
          exact (Except.ok.inj hresult).symm
    rw [hlist]
    exact hstill (hP.listed hpast)
  · rw [List.append_nil]
    exact hstill hpast

theorem record (signature : Signature) (args : List Guest.Value) :
    Follows P (TracedM.writing (fun _ _ => [.called signature args])
      (Invocation.record signature args : SessionM σ Unit)) (Invocation.record signature args) := by
  refine writing fun s past hpast => ?_
  rw [Invocation.record_context]
  exact hP.called signature args hpast

theorem reportFailure (signature : Signature) (args : List Guest.Value) (line : Option Nat)
    (fault : OperationError) :
    Follows P (TracedM.writing (fun s _ => failure signature line fault s)
      (Invocation.reportFailure signature args line fault : SessionM σ Unit))
      (Invocation.reportFailure signature args line fault) := by
  refine writing fun s past hpast => ?_
  obtain ⟨journal, hrun⟩ := Invocation.reportFailure_run signature args line fault s
  rw [hrun]
  exact hP.failed _ _ hpast

theorem carryOut (host : Host σ) (signature : Signature) (handler : Handler σ) (args : List Guest.Value)
    (line : Option Nat) (values : List Value) :
    Follows P (TracedM.carryOut signature host handler args line values)
      (Invocation.carryOut host signature handler args line values) := by
  refine bind (perform hP host _ handler) fun outcome => ?_
  cases outcome with
  | ok value => exact silent hP fun _ => ⟨rfl, rfl⟩
  | error fault => exact bind (reportFailure hP signature args line fault) fun _ => silent hP fun _ => ⟨rfl, rfl⟩

include hmachine hlookup hentity

theorem invoke (host : Host σ) (registry : Registry σ) (signature : Signature) (handler : Handler σ)
    (args : List Guest.Value) (line : Option Nat) :
    Follows P (TracedM.invoke access registry signature host handler args line)
      (Invocation.invoke host access' registry signature handler args line) := by
  refine bind (record hP signature args) fun _ =>
    bind (arguments hP hmachine hlookup hentity _ _ _ _) fun values => ?_
  cases values with
  | none => exact pure _
  | some values => exact carryOut hP host signature handler args line values

/-! ### Answers -/

theorem answerThrough (e : Embedding σ) (registry : Registry σ) (operation : Nat) (args : List Guest.Value)
    (line : Option Nat) :
    Follows P (TracedM.answerThrough e registry access operation args line)
      (Environment.answerThrough e registry access' operation args line) := by
  unfold TracedM.answerThrough Environment.answerThrough
  cases registry.published[operation]? with
  | none => exact pure _
  | some published => exact invoke hP hmachine hlookup hentity _ _ _ _ _ _

end

omit hP in
theorem lookup {answer : TracedAnswer σ} {answer' : Answer σ}
    (hanswer : ∀ operation args line, Follows P (answer operation args line) (answer' operation args line))
    (e : Embedding σ) (address : Nat) (key : Guest.Value) :
    Follows P ((TracedM.access e answer).lookup address key) ((Environment.access e answer').lookup address key) := by
  refine bind (runGuest hanswer (e.engine.index address key)) fun result => ?_
  cases result <;> exact pure _

theorem answerWithin (e : Embedding σ) (registry : Registry σ) (depth operation : Nat)
    (args : List Guest.Value) (line : Option Nat) :
    Follows P (TracedM.answerWithin e registry depth operation args line)
      (Environment.answerWithin e registry depth operation args line) := by
  have hentity : ∀ name, Follows P (TracedM.silent (Session.askHost (e.host.constructEntity name)))
      (Session.askHost (e.host.constructEntity name)) := fun _ => silent hP fun _ => ⟨rfl, rfl⟩
  induction depth generalizing operation args line with
  | zero => exact answerThrough hP rfl (fun _ _ => pure _) hentity e registry operation args line
  | succ depth ih =>
      exact answerThrough hP rfl (lookup ih e) hentity e registry operation args line

theorem answer (e : Embedding σ) (registry : Registry σ) (operation : Nat) (args : List Guest.Value)
    (line : Option Nat) :
    Follows P (TracedM.answer e registry operation args line)
      (Environment.answer e registry operation args line) :=
  answerWithin hP e registry Environment.nestingLimit operation args line

end

end TracedM.Follows

namespace TracedM

/-! ### The operation that lists the calls -/

/-- What it gives back is a list that has just been written down. -/
theorem carryOut_callHistory (host : Host σ) (signature : Signature) (args : List Guest.Value) (line : Option Nat)
    (values : List Value) (session : Session σ) (past : CallTrace) :
    let done := carryOut signature host (.builtin .callHistory) args line values (session, past)
    (∃ result memory, done.2.2 = past ++ [.listed result] ∧
        (done.1, done.2.1.memory) = result.toGuest memory) ∨
      ∃ report, done.2.2 = past ++ [.reported report] := by
  intro done
  let handler : Handler σ := .builtin .callHistory
  let performed := Invocation.perform host ⟨signature.params, values⟩ handler session
  let traced := writing (fun _ => listing handler) (Invocation.perform host ⟨signature.params, values⟩ handler)
    (session, past)
  cases houtcome : performed.1 with
  | ok result =>
      have htraced : traced = (.ok result, performed.2, past ++ [.listed result]) := by
        show (performed.1, performed.2, past ++ listing handler performed.1) = _
        rw [houtcome]
        rfl
      have hdone : done = silent (Session.onMemory result.toGuest) (performed.2, past ++ [.listed result]) := by
        show carryOut signature host handler args line values (session, past) = _
        rw [carryOut, run_bind, show writing _ _ _ = _ from htraced]
      rw [hdone]
      exact .inl ⟨result, performed.2.memory, List.append_nil _, rfl⟩
  | error fault =>
      have htraced : traced = (.error fault, performed.2, past) := by
        show (performed.1, performed.2, past ++ listing handler performed.1) = _
        rw [houtcome]
        exact congrArg (fun trace => (_, _, trace)) (List.append_nil _)
      have hdone : done.2.2 = past ++ failure signature line fault performed.2 ++ [] := by
        show (carryOut signature host handler args line values (session, past)).2.2 = _
        rw [carryOut, run_bind, show writing _ _ _ = _ from htraced]
        rfl
      rw [hdone, List.append_nil]
      exact .inr ⟨_, rfl⟩

theorem answer_of_published (e : Embedding σ) {registry : Registry σ} {n : Nat} {signature : Signature}
    {handler : Handler σ} (hpublished : registry.published[n]? = some (signature, handler))
    (args : List Guest.Value) (line : Option Nat) :
    answer e registry n args line =
      invoke (access e (answerWithin e registry (Environment.nestingLimit - 1))) registry signature e.host handler args
        line := by
  show answerThrough e registry _ n args line = _
  rw [answerThrough, hpublished]
  rfl

/-- Writing a trace makes no difference to what the arguments are converted to. -/
theorem erases_arguments (e : Embedding σ) (registry : Registry σ) (signature : Signature)
    (args : List Guest.Value) (s : Session σ) (past : CallTrace) :
    (arguments (access e (answerWithin e registry (Environment.nestingLimit - 1))) registry signature
        signature.params args (s, past)).1 =
      (Invocation.arguments (Environment.lookups e registry) registry signature signature.params args s).1 := by
  have hkept : CallTrace.Kept fun _ _ => True :=
    ⟨fun _ _ _ => trivial, fun _ _ _ => trivial, fun _ => trivial, fun _ _ _ => trivial⟩
  have hlookup (address : Nat) (key : Guest.Value) : Follows (fun _ _ => True)
      ((access e (answerWithin e registry (Environment.nestingLimit - 1))).lookup address key)
      ((Environment.lookups e registry).lookup address key) :=
    Follows.lookup (Follows.answerWithin hkept e registry _) e address key
  have hfollows := Follows.arguments hkept rfl hlookup (fun name => Follows.silent hkept fun _ => ⟨rfl, rfl⟩)
    registry signature signature.params args
  exact (hfollows.erases s past).1

/-- So what guest code is given is a list that has been written down, unless the call fails. -/
theorem answer_callHistory (e : Embedding σ) (registry : Registry σ) {n : Nat} {signature : Signature}
    (hpublished : registry.published[n]? = some (signature, .builtin .callHistory)) (args : List Guest.Value)
    (line : Option Nat) (session : Session σ) (past : CallTrace)
    (hsurvives : Invocation.Survives (Environment.lookups e registry) registry signature signature.params args
      (Invocation.record signature args session).2) :
    let answered := answer e registry n args line (session, past)
    (∃ before result memory, answered.2.2 = before ++ [.listed result] ∧
        (answered.1, answered.2.1.memory) = result.toGuest memory) ∨
      ∃ before report, answered.2.2 = before ++ [.reported report] := by
  intro answered
  obtain ⟨values, hvalues⟩ :=
    (Invocation.arguments_eq_some_iff signature (fun _ _ => rfl) signature.params args _).mpr hsurvives
  let inside := access e (answerWithin e registry (Environment.nestingLimit - 1))
  let recorded := (Invocation.record signature args session).2
  let converted :=
    arguments inside registry signature signature.params args (recorded, past ++ [.called signature args])
  have hconverted : converted.1 = some values := (erases_arguments e registry signature args _ _).trans hvalues
  have hanswered : answered =
      carryOut signature e.host (.builtin .callHistory) args line values (converted.2.1, converted.2.2) := by
    show answer e registry n args line (session, past) = _
    rw [answer_of_published e hpublished, invoke, run_bind]
    show (arguments inside registry signature signature.params args >>= _)
      (recorded, past ++ [.called signature args]) = _
    rw [run_bind, show (arguments _ _ _ _ _ _).1 = _ from hconverted]
  rw [hanswered]
  rcases carryOut_callHistory e.host signature args line values converted.2.1 converted.2.2 with
    ⟨result, memory, htrace, himage⟩ | ⟨report, htrace⟩
  · exact .inl ⟨_, result, memory, htrace, himage⟩
  · exact .inr ⟨_, report, htrace⟩
end TracedM
end ScriptBridge
