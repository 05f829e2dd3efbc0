import ScriptBridge.Proofs.CompletionSteps
import ScriptBridge.Proofs.DelayOrder
import ScriptBridge.Scheduler

/-! What each part of the scheduler does to it. Guest code is run in one way only: a scheduler that is
ready for it hands over its session, takes the session back, and drops what is armed or waiting if the
code failed. The journal is left open in these statements; nothing the scheduler decides reads it. -/

namespace ScriptBridge

variable {σ : Type}

theorem run_bind {S α β : Type} (m : StateM S α) (f : α → StateM S β) (s : S) :
    (m >>= f) s = f (m s).1 (m s).2 := rfl

theorem run_get {S : Type} (s : S) : (get : StateM S S) s = (s, s) := rfl

theorem run_modify {S : Type} (f : S → S) (s : S) : (modify f : StateM S Unit) s = ((), f s) := rfl

namespace Session

def withJournal (s : Session σ) (journal : Array LogEntry) : Session σ :=
  ⟨s.memory, { s.bridge with journal }⟩

end Session

namespace Scheduler

/-- The flags as the application has them. -/
def board (s : Scheduler σ) : Board := s.session.bridge.application.board

def withSession (s : Scheduler σ) (session : Session σ) : Scheduler σ := { s with session }

def withContext (s : Scheduler σ) (context : Context) : Scheduler σ :=
  s.withSession ⟨s.session.memory, s.session.bridge.withContext context⟩

def withJournal (s : Scheduler σ) (journal : Array LogEntry) : Scheduler σ :=
  s.withSession (s.session.withJournal journal)

@[simp] theorem repeating_withJournal (s : Scheduler σ) (journal : Array LogEntry) :
    (s.withJournal journal).repeating = s.repeating := rfl

/-! ### Guest code -/

/-- What guest code comes to when a scheduler runs it, and the session it leaves. -/
def guestRun (e : Embedding σ) (code : Guest.State → Guest.Run (List Guest.Value)) (s : Scheduler σ) :
    Except Guest.Fault (List Guest.Value) × Session σ :=
  Session.runGuest (Environment.answer e s.registry) code s.session

/-- After a guest fault: the fault is reported and nothing is armed or waiting any more. -/
def failed (s : Scheduler σ) (fault : Guest.Fault) : Scheduler σ :=
  let (message, line) := diagnose fault
  { s.withContext (s.context.reportGuestError message line).2.abortPending with
    errorReported := true, deferred := none, repeating := none }

/-- After guest code has ended. -/
def settled (s : Scheduler σ) : Except Guest.Fault (List Guest.Value) × Session σ → Scheduler σ
  | (.ok _, session) => s.withSession session
  | (.error fault, session) => (s.withSession session).failed fault

/-- Ready to run a block. -/
def begun (source : String) (s : Scheduler σ) : Scheduler σ :=
  { s.withSession ⟨s.session.memory,
      (s.session.bridge.withContext (s.context.beginAttempt source)).note
        [.info ("Executing block (" ++ toString (Text.lines source).length ++ " line(s))")]⟩ with
    errorReported := false }

/-- Ready to resume a continuation. -/
def resuming (label : String) (s : Scheduler σ) : Scheduler σ :=
  s.withSession ⟨s.session.memory, s.session.bridge.note [.debug ("Resuming guest code from " ++ label)]⟩

theorem fail_run (fault : Guest.Fault) (s : Scheduler σ) : ∃ journal,
    fail fault s = (s.context.capture .guest (diagnose fault).1 (diagnose fault).2,
      (s.failed fault).withJournal journal) := by
  obtain ⟨config, registry, ⟨memory, ⟨⟨history, delays, completion, surface, source⟩, application, now,
    journal⟩⟩, errorReported, deferred, repeating⟩ := s
  cases repeating <;> rcases surface with _ | ⟨_ | _, _⟩ <;> exact ⟨_, rfl⟩

/-- Converting a block's result asks for nothing and changes the journal alone. -/
theorem convertResult_run (e : Embedding σ) (registry : Registry σ) (value : Guest.Value)
    (session : Session σ) :
    ∃ journal, (convertResult e registry value session).2 = session.withJournal journal := by
  let conversion := Conversion.convert registry.options (Reading.of session.memory) .any .none value
  have hconvert : Invocation.convert (Environment.blindAccess e) registry.options .any value session =
      (conversion.result, ⟨session.memory, session.bridge.note conversion.log⟩) := rfl
  rw [convertResult, run_bind, hconvert]
  dsimp only
  cases conversion.result <;> exact ⟨_, rfl⟩

theorem convertResults_run (e : Embedding σ) (registry : Registry σ) (values : List Guest.Value)
    (session : Session σ) :
    ∃ journal, (values.mapM (convertResult e registry) session).2 = session.withJournal journal := by
  induction values generalizing session with
  | nil => exact ⟨session.bridge.journal, rfl⟩
  | cons value rest ih =>
      obtain ⟨_, hfirst⟩ := convertResult_run e registry value session
      obtain ⟨journal, hrest⟩ := ih (convertResult e registry value session).2
      refine ⟨journal, ?_⟩
      rw [List.mapM_cons]
      show (rest.mapM (convertResult e registry) (convertResult e registry value session).2).2 = _
      rw [hrest, hfirst]
      rfl

/-- A block is its guest run and what follows from the result. -/
theorem runBlock_eq (e : Embedding σ) (source : String) (s : Scheduler σ) :
    runBlock e source s =
      (match ((s.begun source).guestRun e (e.engine.execute source)).1 with
        | .ok values => do
            let converted ← onSession fun registry => values.mapM (convertResult e registry)
            note [.debug ("Block completed (" ++ (← get).state.display ++ ")")]
            return .ok converted
        | .error fault => return .error (← fail fault) : SchedulerM σ (Except Report (List Value)))
      ((s.begun source).withSession ((s.begun source).guestRun e (e.engine.execute source)).2) := by
  rfl

theorem runBlock_run (e : Embedding σ) (source : String) (s : Scheduler σ) : ∃ journal,
    (runBlock e source s).2 =
      ((s.begun source).settled ((s.begun source).guestRun e (e.engine.execute source))).withJournal journal := by
  rw [runBlock_eq]
  obtain ⟨result, session⟩ := (s.begun source).guestRun e (e.engine.execute source)
  cases result with
  | ok values =>
      obtain ⟨_, hvalues⟩ := convertResults_run e s.registry values session
      let converted := (s.begun source).withSession (values.mapM (convertResult e s.registry) session).2
      show ∃ journal, (note [.debug ("Block completed (" ++ converted.state.display ++ ")")] converted).2 =
        ((s.begun source).settled (.ok values, session)).withJournal journal
      simp only [converted, hvalues]
      exact ⟨_, rfl⟩
  | error fault =>
      obtain ⟨journal, hfail⟩ := fail_run fault ((s.begun source).withSession session)
      refine ⟨journal, ?_⟩
      show (fail fault ((s.begun source).withSession session)).2 = _
      rw [hfail]
      rfl

/-- A block gives back values, or the report of its fault. -/
theorem runBlock_result (e : Embedding σ) (source : String) (s : Scheduler σ) :
    match (s.begun source).guestRun e (e.engine.execute source) with
    | (.ok _, _) => ∃ values, (runBlock e source s).1 = .ok values
    | (.error fault, session) => (runBlock e source s).1 =
        .error (session.bridge.context.capture .guest (diagnose fault).1 (diagnose fault).2) := by
  rw [runBlock_eq]
  obtain ⟨result, session⟩ := (s.begun source).guestRun e (e.engine.execute source)
  cases result with
  | ok values => exact ⟨_, rfl⟩
  | error fault =>
      obtain ⟨journal, hfail⟩ := fail_run fault ((s.begun source).withSession session)
      show Except.error (fail fault ((s.begun source).withSession session)).1 = _
      rw [hfail]
      rfl

theorem resume_run (e : Embedding σ) (label : String) (callback : Guest.Function) (s : Scheduler σ) :
    ∃ journal, (resume e label callback s).2 =
      ((s.resuming label).settled ((s.resuming label).guestRun e (e.engine.apply callback []))).withJournal
        journal := by
  have hrun : resume e label callback s =
      (match ((s.resuming label).guestRun e (e.engine.apply callback [])).1 with
        | .ok _ => pure ()
        | .error fault => discard (fail fault) : SchedulerM σ Unit)
      ((s.resuming label).withSession ((s.resuming label).guestRun e (e.engine.apply callback [])).2) := rfl
  rw [hrun]
  obtain ⟨result, session⟩ := (s.resuming label).guestRun e (e.engine.apply callback [])
  cases result with
  | ok values => exact ⟨_, rfl⟩
  | error fault =>
      obtain ⟨journal, hfail⟩ := fail_run fault ((s.resuming label).withSession session)
      refine ⟨journal, ?_⟩
      show (fail fault ((s.resuming label).withSession session)).2 = _
      rw [hfail]
      rfl

/-! ### Ticks -/

/-- The delays have moved on, and the one that was due is out of the queue. -/
def advanced (s : Scheduler σ) : Scheduler σ :=
  s.withSession ⟨s.session.memory,
    (s.session.bridge.note s.context.advanceRemarks).withContext s.context.advanceDelays.2⟩

/-- The completion wait has been polled, and the wait is over if its flag was seen. -/
def polled (now : Nat) (s : Scheduler σ) : Scheduler σ :=
  s.withContext (s.context.pollCompletion now s.board.isRaised).2

/-- The delay that is resumed when the delays move on. -/
def dueDelay? (s : Scheduler σ) : Option (Delay Guest.Function) := s.context.delays.due?

/-- The wait that a poll resumes. -/
def dueWait? (now : Nat) (s : Scheduler σ) : Option (Wait Guest.Function) :=
  s.context.completion.due? now s.board.isRaised

/-- The repeated block whose turn has come. -/
def turn? (s : Scheduler σ) : Option Repeating :=
  if s.context.hasPendingWork || s.deferred.isSome then none
  else s.repeating.filter fun r => decide (r.every ≤ r.elapsed + 1)

/-- A repeated block starts to count anew. -/
def recounting (r : Repeating) (s : Scheduler σ) : Scheduler σ :=
  { s with repeating := some { r with elapsed := 0 } }

theorem tickDelays_run (e : Embedding σ) (s : Scheduler σ) :
    (tickDelays e s).2 = match s.dueDelay? with
      | some d => (resume e "tick delay" d.payload s.advanced).2
      | none => s.advanced := by
  have hadvance : onSession (fun _ => Session.onContext Context.advanceDelays)
      (note s.context.advanceRemarks s).2 = (s.dueDelay?.map Delay.payload, s.advanced) := by
    rw [dueDelay?, ← DelayQueue.advance_fst]
    rfl
  rw [tickDelays, run_bind, run_get, run_bind, run_bind, hadvance]
  cases s.dueDelay? <;> rfl

theorem tickCompletion_run (e : Embedding σ) (now : Nat) (s : Scheduler σ) :
    (tickCompletion e now s).2 = match s.dueWait? now with
      | some wait => (resume e "completion wait" wait.callback (s.polled now)).2
      | none => s.polled now := by
  have hpoll : onSession (fun _ => Session.onContext fun c => c.pollCompletion now s.board.isRaised) s =
      ((s.dueWait? now).map Wait.callback, s.polled now) := by
    rw [dueWait?, ← Completion.poll_fst]
    rfl
  rw [board] at hpoll
  rw [tickCompletion, run_bind, run_get, run_bind, hpoll]
  cases s.dueWait? now <;> rfl

theorem runDeferred_run (e : Embedding σ) (s : Scheduler σ) :
    (runDeferred e s).2 = match s.deferred with
      | some source => (runBlock e source { s with deferred := none }).2
      | none => s := by
  rw [runDeferred, run_bind, run_get]
  dsimp only
  cases s.deferred <;> rfl

theorem tickRepeating_run (e : Embedding σ) (s : Scheduler σ) :
    (tickRepeating e s).2 =
      if s.context.hasPendingWork || s.deferred.isSome then s
      else match s.repeating with
        | none => s
        | some r =>
          if r.elapsed + 1 < r.every then { s with repeating := some { r with elapsed := r.elapsed + 1 } }
          else (runBlock e r.source (s.recounting r)).2 := by
  rw [tickRepeating, run_bind, run_get]
  dsimp only
  split
  · rfl
  · cases s.repeating with
    | none => rfl
    | some r =>
        dsimp only
        split <;> rfl

theorem tickRepeating_of_turn?_some {s : Scheduler σ} {r : Repeating} (e : Embedding σ)
    (h : s.turn? = some r) :
    s.context.hasPendingWork = false ∧ s.deferred = none ∧ s.repeating = some r ∧
      (tickRepeating e s).2 = (runBlock e r.source (s.recounting r)).2 := by
  unfold turn? at h
  split at h
  · cases h
  · rename_i hidle
    obtain ⟨hrepeating, hturn⟩ := Option.filter_eq_some_iff.mp h
    have hlate : ¬ r.elapsed + 1 < r.every := Nat.not_lt.mpr (of_decide_eq_true hturn)
    rw [tickRepeating_run, if_neg hidle, hrepeating]
    simp only [Bool.or_eq_true, not_or, Bool.not_eq_true, Option.isSome_eq_false_iff,
      Option.isNone_iff_eq_none] at hidle
    exact ⟨hidle.1, hidle.2, rfl, if_neg hlate⟩

/-- A repeated block whose turn has not come is passed over or counts the tick. -/
theorem tickRepeating_of_turn?_none {s : Scheduler σ} (e : Embedding σ) (h : s.turn? = none) :
    (tickRepeating e s).2 = s ∨ ∃ r, s.repeating = some r ∧
      (tickRepeating e s).2 = { s with repeating := some { r with elapsed := r.elapsed + 1 } } := by
  rw [tickRepeating_run]
  unfold turn? at h
  split
  · exact .inl rfl
  · rename_i hidle
    rw [if_neg hidle] at h
    cases hrepeating : s.repeating with
    | none => exact .inl rfl
    | some r =>
        rw [hrepeating, Option.filter_eq_none_iff] at h
        have hearly : r.elapsed + 1 < r.every := by simpa using h r rfl
        exact .inr ⟨r, rfl, if_pos hearly⟩

/-- A tick is its four parts in their order. -/
theorem tick_run (e : Embedding σ) (now : Nat) (s : Scheduler σ) :
    (tick e now s).2 =
      (tickRepeating e (runDeferred e (tickCompletion e now
        (tickDelays e { s with errorReported := false }).2).2).2).2 := by
  rw [tick, run_bind, run_bind, run_bind, run_bind]
  rfl

/-! ### Stopping and submitting -/

/-- A fresh environment has a fresh context around the application as it is. -/
theorem build_bridge (e : Embedding σ) (config : Config) (application : HostState σ) (now : Nat)
    (journal : Array LogEntry) : ∃ journal',
    (Environment.build e config application now journal).session.bridge =
      ⟨.new config e.hasCheckers, application, now, journal'⟩ := by
  delta Environment.build
  generalize Environment.publish (Environment.operations e.host config.root) (Registry.new config)
    Guest.State.initial = published
  obtain ⟨log, count, registry, memory⟩ := published
  exact ⟨_, rfl⟩

theorem new_context (e : Embedding σ) (config : Config) (application : HostState σ) :
    (new e config application).context = .new config e.hasCheckers := by
  obtain ⟨journal, hbridge⟩ := build_bridge e config application 0 #[]
  show (Environment.build e config application 0 #[]).session.bridge.context = _
  rw [hbridge]

theorem stop_run (e : Embedding σ) (s : Scheduler σ) : ∃ registry memory journal,
    (stop e s).2 = ⟨s.config, registry, ⟨memory,
      ⟨.new s.config e.hasCheckers, s.session.bridge.application, s.session.bridge.now, journal⟩⟩,
      false, none, none⟩ := by
  obtain ⟨journal, hbridge⟩ :=
    build_bridge e s.config s.session.bridge.application s.session.bridge.now s.session.bridge.journal
  rw [stop, run_bind, run_modify]
  dsimp only
  generalize Environment.build e s.config s.session.bridge.application s.session.bridge.now
    s.session.bridge.journal = environment at hbridge ⊢
  obtain ⟨registry, memory, bridge⟩ := environment
  replace hbridge : bridge = _ := hbridge
  rw [hbridge]
  exact ⟨registry, memory, _, rfl⟩

theorem create_ok_iff {e : Embedding σ} {config : Config} {application : HostState σ} {s : Scheduler σ} :
    create e config application = .ok s ↔
      e.host.machine.hasRoom CallRecord.width config.historyCapacity.toNat = true ∧
        s = new e config application := by
  have hroom : Environment.reserve e config = none ↔ _ :=
    e.host.machine.reserve_eq_none_iff CallRecord.width config.historyCapacity.toNat
  rw [create, ← hroom, eq_comm (a := s)]
  cases Environment.reserve e config <;> simp

/-- No machine has room for a history that takes more than can be asked for. -/
theorem create_of_greatest_lt (e : Embedding σ) {config : Config} (application : HostState σ)
    (h : Machine.greatestRequest < CallRecord.width * config.historyCapacity.toNat) :
    create e config application = .error .panic := by
  have hreserve : Environment.reserve e config = some .panic := e.host.machine.reserve_of_greatest_lt h
  rw [create, hreserve]

/-- The scheduler as a submission finds it, with an active run stopped. -/
def guarded (e : Embedding σ) (s : Scheduler σ) : Scheduler σ := (stopIfRunning e s).2

theorem guarded_of_running {s : Scheduler σ} (e : Embedding σ) (h : s.state = .running) :
    s.guarded e = (stop e (note [.warn (misuseMessage s.state.display)] s).2).2 := by
  rw [guarded, stopIfRunning, run_bind, run_get]
  dsimp only
  rw [if_pos h, run_bind]

theorem guarded_of_not_running {s : Scheduler σ} (e : Embedding σ) (h : s.state ≠ .running) :
    s.guarded e = s := by
  rw [guarded, stopIfRunning, run_bind, run_get]
  dsimp only
  rw [if_neg h]
  rfl

theorem executeBlock_run (e : Embedding σ) (source : String) (s : Scheduler σ) :
    executeBlock e source s = runBlock e source (s.guarded e) := by
  rw [executeBlock, run_bind]
  rfl

theorem executeOnce_run (e : Embedding σ) (source : String) (s : Scheduler σ) :
    (executeOnce e source s).2 = { s.guarded e with deferred := some source } := by
  rw [executeOnce, run_bind]
  rfl

theorem executeRepeating_run (e : Embedding σ) (source : String) (every : Nat) (s : Scheduler σ) :
    (executeRepeating e source every s).2 =
      { s.guarded e with repeating := some ⟨source, max every 1, max every 1 - 1⟩ } := by
  rw [executeRepeating, run_bind]
  rfl

end Scheduler
end ScriptBridge
