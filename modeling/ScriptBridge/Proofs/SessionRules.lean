import ScriptBridge.Proofs.SchedulerSteps

/-! Answering a call of guest code, whatever the code and the application are, is put together from a few
computations over a session. A property that holds of these and passes on to what is put together from
them holds of every answer, however many calls its lookups make inside one another. -/

namespace ScriptBridge

variable {σ α β : Type}

/-! ### Asking for what is not in a value itself -/

/-- A relation between computations of two sorts that passes on to what is put together from them. -/
structure Composes (m m' : Type → Type) [Monad m] [Monad m'] (R : (α : Type) → m α → m' α → Prop) : Prop where
  pure : ∀ {α : Type} (a : α), R α (Pure.pure a) (Pure.pure a)
  bind : ∀ {α β : Type} {x : m α} {y : m' α} {f : α → m β} {g : α → m' β},
    R α x y → (∀ a, R β (f a) (g a)) → R β (x >>= f) (y >>= g)

namespace Composes

variable {m m' : Type → Type} [Monad m] [Monad m'] {R : (α : Type) → m α → m' α → Prop} (h : Composes m m' R)
  (access : Access m) (access' : Access m')
  (hlookup : ∀ address key, R _ (access.lookup address key) (access'.lookup address key))

include h hlookup

theorem axes (address : Nat) : R _ (access.axes address) (access'.axes address) := by
  unfold Access.axes
  refine h.bind (hlookup _ _) fun x => h.bind (hlookup _ _) fun y => h.bind (hlookup _ _) fun z => ?_
  split
  · exact h.pure _
  · refine h.bind (hlookup _ _) fun a => h.bind (hlookup _ _) fun b => h.bind (hlookup _ _) fun c => ?_
    split
    · exact h.pure _
    · split
      · exact h.pure _
      · split <;> exact h.pure _

theorem targetOfTable (address : Nat) : R _ (access.targetOfTable address) (access'.targetOfTable address) := by
  unfold Access.targetOfTable
  refine h.bind (h.axes _ _ hlookup _) fun found => ?_
  cases found with
  | axes | entity => exact h.pure _
  | none =>
      refine h.bind (hlookup _ _) fun value => ?_
      cases value with
      | handle => exact h.pure _
      | _ =>
          refine h.bind (hlookup _ _) fun cell => ?_
          cases cell with
          | table => exact h.axes _ _ hlookup _
          | _ => exact h.pure _

theorem evidence (hentity : ∀ name, R _ (access.entity name) (access'.entity name)) (kind : Kind)
    (value : Guest.Value) : R _ (access.evidence kind value) (access'.evidence kind value) := by
  cases kind <;> cases value
  case coord.table => exact h.axes _ _ hlookup _
  case target.table => exact h.targetOfTable _ _ hlookup _
  case target.str => exact h.bind (hentity _) fun _ => h.pure _
  all_goals exact h.pure _

end Composes

/-- A property of computations over a session that holds of all that calls are put together from. What
reads the session may not read the journal. -/
structure SessionM.Compositional (P : ∀ {α : Type}, SessionM σ α → Prop) : Prop where
  pure : ∀ {α : Type} (a : α), P (Pure.pure a : SessionM σ α)
  bind : ∀ {α β : Type} {m : SessionM σ α} {f : α → SessionM σ β}, P m → (∀ a, P (f a)) → P (m >>= f)
  read : ∀ {α : Type} {f : Session σ → SessionM σ α},
    (∀ s journal, f (s.withJournal journal) = f s) → (∀ s, P (f s)) → P (get >>= f)
  note : ∀ entries, P (Session.note entries)
  askHost : ∀ {α : Type} (question : HostM σ α), P (Session.askHost question)
  onMemory : ∀ {α : Type} (f : Guest.State → α × Guest.State), P (Session.onMemory f)
  recordCall : ∀ record, P (Session.changeContext fun c => c.recordCall record)
  reportHostError : ∀ message line, P (Session.changeContext fun c => c.reportHostError message line)
  scheduleDelay : ∀ ticks callback,
    P (Session.onContext fun c => (c.delays.dueAfter ticks, c.scheduleDelay ticks callback))
  startCompletion : ∀ now flag callback,
    P (Session.changeContext fun c => c.startCompletion now flag callback)
  runGuest : ∀ {α : Type} {answer : Answer σ}, (∀ operation args line, P (answer operation args line)) →
    ∀ code : Guest.State → Guest.Run α, P (Session.runGuest answer code)

namespace SessionM.Compositional

variable {P : ∀ {α : Type}, SessionM σ α → Prop} (h : Compositional P)

include h

/-! ### The arguments of a call -/

section

variable {access : Access (SessionM σ)} (hlookup : ∀ address key, P (access.lookup address key))

include hlookup

theorem evidence (hentity : ∀ name, P (access.entity name)) (kind : Kind) (value : Guest.Value) :
    P (access.evidence kind value) := by
  have hcomposes : Composes (SessionM σ) (SessionM σ) fun _ x _ => P x := ⟨h.pure, h.bind⟩
  exact hcomposes.evidence access access hlookup hentity kind value

theorem heeding_lookup (before : Option Collapse) (address : Nat) (key : Guest.Value) :
    P ((Invocation.heeding access before).lookup address key) := by
  refine h.read (fun _ _ => rfl) fun s => ?_
  split
  · exact hlookup address key
  · exact h.pure _

omit hlookup in
theorem settle (machine : Machine) (options : ConversionOptions) (before : Option Collapse) (kind : Kind)
    (value : Guest.Value) (evidence : Evidence) :
    P (Invocation.settle machine options before kind value evidence) := by
  refine h.read (fun _ _ => rfl) fun s => ?_
  dsimp only
  split
  · exact h.pure _
  · split
    · exact h.onMemory _
    · exact h.bind (h.note _) fun _ => h.pure _

variable (hentity : ∀ name, P (access.entity name))

include hentity

theorem convert (options : ConversionOptions) (kind : Kind) (value : Guest.Value) :
    P (Invocation.convert access options kind value) :=
  h.bind (h.evidence hlookup hentity _ _) fun _ =>
    h.read (fun _ _ => rfl) fun _ => h.bind (h.note _) fun _ => h.pure _

theorem attempt (options : ConversionOptions) (kind : Kind) (value : Guest.Value) :
    P (Invocation.attempt access options kind value) :=
  h.read (fun _ _ => rfl) fun _ =>
    h.bind (h.evidence (h.heeding_lookup hlookup _) hentity _ _) fun _ => h.settle _ _ _ _ _ _

theorem convertArgument (registry : Registry σ) (signature : Signature) (p : Parameter)
    (value : Guest.Value) : P (Invocation.convertArgument access registry signature p value) := by
  refine h.bind (h.attempt hlookup hentity _ _ _) fun result => ?_
  match result with
  | none => exact h.pure _
  | some (.ok converted) => exact h.pure _
  | some (.error fault) => exact h.bind (h.note _) fun _ => h.pure _

theorem argument (registry : Registry σ) (signature : Signature) (p : Parameter)
    (value : Option Guest.Value) : P (Invocation.argument access registry signature p value) := by
  cases value with
  | none =>
      simp only [Invocation.argument]
      split
      · exact h.pure _
      · exact h.bind (h.note _) fun _ => h.pure _
  | some value =>
      simp only [Invocation.argument]
      split
      · exact h.pure _
      · exact h.convertArgument hlookup hentity _ _ _ _

theorem arguments (registry : Registry σ) (signature : Signature) (params : List Parameter)
    (args : List Guest.Value) : P (Invocation.arguments access registry signature params args) := by
  induction params generalizing args with
  | nil => exact h.pure _
  | cons p rest ih =>
      refine h.bind (h.argument hlookup hentity _ _ _ _) fun value => ?_
      cases value with
      | none => exact h.pure _
      | some value => exact h.bind (ih _) fun _ => h.pure _

end

/-! ### A call -/

theorem waitForTicks (args : Arguments) : P (Invocation.waitForTicks args) := by
  unfold Invocation.waitForTicks
  split
  · exact h.pure _
  · exact h.pure _
  · exact h.bind (h.scheduleDelay _ _) fun _ => h.bind (h.note _) fun _ => h.pure _

theorem waitForCompletion (host : Host σ) (args : Arguments) : P (Invocation.waitForCompletion host args) := by
  unfold Invocation.waitForCompletion
  split
  · exact h.pure _
  · exact h.pure _
  · refine h.read (fun _ _ => rfl) fun session => ?_
    dsimp only
    split
    · exact h.pure _
    · exact h.bind (h.note _) fun _ => h.bind (h.startCompletion _ _ _) fun _ => h.pure _

theorem callHistory (args : Arguments) : P (Invocation.callHistory args) := by
  unfold Invocation.callHistory
  split
  · exact h.pure _
  · exact h.read (fun _ _ => rfl) fun _ => h.bind (h.note _) fun _ => h.pure _

theorem perform (host : Host σ) (args : Arguments) (handler : Handler σ) :
    P (Invocation.perform host args handler) := by
  cases handler with
  | host run => exact h.askHost _
  | builtin b =>
      cases b with
      | log level => exact h.bind (h.note _) fun _ => h.pure _
      | waitForTicks => exact h.waitForTicks args
      | waitForCompletion => exact h.waitForCompletion host args
      | callHistory => exact h.callHistory args
      | getType | createCoord | toTarget | isValid => exact h.pure _

theorem record (signature : Signature) (args : List Guest.Value) : P (Invocation.record signature args) := by
  unfold Invocation.record
  split
  · exact h.bind (h.recordCall _) fun _ => h.note _
  · exact h.pure _

theorem reportFailure (signature : Signature) (args : List Guest.Value) (line : Option Nat)
    (fault : OperationError) : P (Invocation.reportFailure signature args line fault) := by
  have hreport : P (do
      let message := "Error in " ++ signature.name ++ ": " ++ fault.message
      let line : Option Int := (line.filter (· > 0)).map Int.ofNat
      Session.note [.error message]
      Session.note ((← get).bridge.context.captureRemarks .hostOperation message line)
      Session.changeContext fun c => c.reportHostError message line : SessionM σ Unit) :=
    h.bind (h.note _) fun _ => h.read (fun _ _ => rfl) fun _ => h.bind (h.note _) fun _ =>
      h.reportHostError _ _
  unfold Invocation.reportFailure
  split
  · exact h.bind (h.note _) fun _ => hreport
  · exact hreport

theorem carryOut (host : Host σ) (signature : Signature) (handler : Handler σ) (args : List Guest.Value)
    (line : Option Nat) (values : List Value) :
    P (Invocation.carryOut host signature handler args line values) := by
  refine h.bind (h.perform _ _ _) fun result => ?_
  cases result with
  | ok value => exact h.onMemory _
  | error fault => exact h.bind (h.reportFailure _ _ _ _) fun _ => h.onMemory _

theorem invoke (host : Host σ) {access : Access (SessionM σ)}
    (hlookup : ∀ address key, P (access.lookup address key)) (hentity : ∀ name, P (access.entity name))
    (registry : Registry σ) (signature : Signature) (handler : Handler σ) (args : List Guest.Value)
    (line : Option Nat) : P (Invocation.invoke host access registry signature handler args line) := by
  refine h.bind (h.record _ _) fun _ => h.bind (h.arguments hlookup hentity _ _ _ _) fun values => ?_
  cases values with
  | none => exact h.pure _
  | some values => exact h.carryOut _ _ _ _ _ _

/-! ### Answers -/

theorem lookup (e : Embedding σ) {answer : Answer σ}
    (hanswer : ∀ operation args line, P (answer operation args line)) (address : Nat) (key : Guest.Value) :
    P ((Environment.access e answer).lookup address key) := by
  refine h.bind (h.runGuest hanswer _) fun result => ?_
  cases result <;> exact h.pure _

theorem answerThrough (e : Embedding σ) (registry : Registry σ) {inside : Access (SessionM σ)}
    (hlookup : ∀ address key, P (inside.lookup address key)) (hentity : ∀ name, P (inside.entity name))
    (operation : Nat) (args : List Guest.Value) (line : Option Nat) :
    P (Environment.answerThrough e registry inside operation args line) := by
  unfold Environment.answerThrough
  split
  · exact h.pure _
  · exact h.invoke _ hlookup hentity _ _ _ _ _

/-- The lookups inside a call are guest runs whose own calls are answered to one less depth. -/
theorem answerWithin (e : Embedding σ) (registry : Registry σ) (depth operation : Nat)
    (args : List Guest.Value) (line : Option Nat) :
    P (Environment.answerWithin e registry depth operation args line) := by
  induction depth generalizing operation args line with
  | zero =>
      exact h.answerThrough e registry (fun _ _ => h.pure _) (fun _ => h.askHost _) operation args line
  | succ depth ih =>
      exact h.answerThrough e registry (h.lookup e ih) (fun _ => h.askHost _) operation args line

theorem answer (e : Embedding σ) (registry : Registry σ) (operation : Nat) (args : List Guest.Value)
    (line : Option Nat) : P (Environment.answer e registry operation args line) :=
  h.answerWithin e registry Environment.nestingLimit operation args line

end SessionM.Compositional
end ScriptBridge
