import ScriptBridge.Proofs.Alike
import ScriptBridge.Proofs.Chronicle

/-! A stop is a fresh start. After it a scheduler cannot be told from one just made, by whatever is asked of
the two from then on; a change of the configuration shows from the next stop on, and not before. -/

namespace ScriptBridge

variable {σ : Type}

namespace Scheduler

/-! ### What can be told of a scheduler -/

/-- What can be told of a scheduler by looking at it. -/
structure Sight (σ : Type) where
  state : SchedulerState
  counter : Int
  pendingDelays : Nat
  completionPending : Bool
  lastError : Option Report
  history : List CallRecord
  signatures : List Signature
  /-- All that guest code finds, under whatever name. -/
  memory : Guest.State
  /-- All that the application has come to. -/
  application : HostState σ

def sight (s : Scheduler σ) : Sight σ where
  state := s.state
  counter := s.counter
  pendingDelays := s.pendingDelays
  completionPending := s.completionPending
  lastError := s.lastError
  history := s.callHistory
  signatures := s.registry.signatures
  memory := s.session.memory
  application := s.session.bridge.application

end Scheduler

open Scheduler

/-- What a request gives back: the values or the error of a block. -/
def Request.result (e : Embedding σ) (s : Scheduler σ) : Request σ → Option (Except Report (List Value))
  | .block source => some (executeBlock e source s).1
  | _ => none

/-- The continuations that a request resumes. -/
def Request.resumed (e : Embedding σ) (s : Scheduler σ) : Request σ → List Guest.Function
  | .tick now => s.awake.dueDelay?.toList.map Delay.payload ++
      ((s.afterDelays e).dueWait? now).toList.map Wait.callback
  | _ => []

/-- What can be told of a request that was made. -/
structure Observation (σ : Type) where
  result : Option (Except Report (List Value))
  resumed : List Guest.Function
  sight : Sight σ

def Request.observe (e : Embedding σ) (s : Scheduler σ) (request : Request σ) : Observation σ :=
  ⟨request.result e s, request.resumed e s, (request.perform e s).2.sight⟩

/-- What can be told of a series of requests. -/
def observations (e : Embedding σ) : List (Request σ) → Scheduler σ → List (Observation σ)
  | [], _ => []
  | request :: rest, s => request.observe e s :: observations e rest (request.perform e s).2

/-- Two schedulers look the same and go on to do so, whatever is asked of both. -/
def Indistinguishable (e : Embedding σ) (s s' : Scheduler σ) : Prop :=
  s.sight = s'.sight ∧ ∀ requests, observations e requests s = observations e requests s'

/-! ### Stops -/

/-- A request is a submission. -/
def Request.submits : Request σ → Bool
  | .block _ | .once _ | .units _ | .repeating _ _ => true
  | _ => false

/-- A request stops a scheduler, or forces it to stop. -/
def Request.Stops (s : Scheduler σ) : Request σ → Prop
  | .stop => True
  | request => request.submits ∧ s.state = .running

/-- There is a stop during a series of requests. -/
def StopsDuring (e : Embedding σ) : List (Request σ) → Scheduler σ → Prop
  | [], _ => False
  | request :: rest, s => request.Stops s ∨ StopsDuring e rest (request.perform e s).2

/-- A configuration after a request. -/
def Request.reconfigured : Request σ → Config → Config
  | .configure update, config => update config
  | _, config => config

namespace Scheduler

def atInstant (now : Nat) (s : Scheduler σ) : Scheduler σ :=
  s.withSession ⟨s.session.memory, { s.session.bridge with now }⟩

/-- A scheduler just made with the configuration and the application of another one, at the present
instant. -/
def fresh (e : Embedding σ) (s : Scheduler σ) : Scheduler σ :=
  (new e s.config s.session.bridge.application).atInstant s.session.bridge.now

variable {P : Config → Config → Prop}

theorem Alike.sight {s s' : Scheduler σ} (h : Alike P s s') : s'.sight = s.sight := by
  obtain ⟨config, journal, -, rfl⟩ := h
  rfl

theorem Alike.state {s s' : Scheduler σ} (h : Alike P s s') : s'.state = s.state :=
  congrArg Sight.state h.sight

/-- What is built does not depend on the journal. -/
theorem stop_eq (e : Embedding σ) (s : Scheduler σ) :
    ∃ journal, (stop e s).2 = (s.fresh e).restyled s.config journal := by
  rw [stop, run_bind, run_modify, fresh, new]
  delta Environment.build
  generalize Environment.publish (Environment.operations e.host s.config.root) (Registry.new s.config)
    Guest.State.initial = published
  obtain ⟨log, count, registry, memory⟩ := published
  exact ⟨_, rfl⟩

theorem fresh_restyled (e : Embedding σ) (s : Scheduler σ) (journal : Array LogEntry) :
    (s.restyled s.config journal).fresh e = s.fresh e := rfl

theorem stop_alike (hrefl : ∀ config, P config config) (e : Embedding σ) {s s' : Scheduler σ}
    (h : Alike P s s') (hconfig : s.config = s'.config) : Alike P (stop e s).2 (stop e s').2 := by
  obtain ⟨config, journal, -, rfl⟩ := h
  replace hconfig : s.config = config := hconfig
  subst hconfig
  obtain ⟨journal₁, hstop⟩ := stop_eq e s
  obtain ⟨journal₂, hstop'⟩ := stop_eq e (s.restyled s.config journal)
  rw [hstop, hstop', fresh_restyled]
  generalize s.fresh e = made
  exact ⟨s.config, journal₂, hrefl _, rfl⟩

theorem guarded_alike (hrefl : ∀ config, P config config) (e : Embedding σ) {s s' : Scheduler σ}
    (h : Alike P s s') (hconfig : s.state = .running → s.config = s'.config) :
    Alike P (s.guarded e) (s'.guarded e) := by
  by_cases hrunning : s.state = .running
  · rw [guarded_of_running e hrunning, guarded_of_running e (h.state.trans hrunning), h.state]
    obtain ⟨-, hnoted⟩ := SchedulerM.Blind.note (P := P) [.warn (misuseMessage s.state.display)] s s' h
    exact stop_alike hrefl e hnoted (hconfig hrunning)
  · rw [guarded_of_not_running e hrunning, guarded_of_not_running e (h.state.symm ▸ hrunning)]
    exact h

end Scheduler

theorem Request.resumed_alike {P : Config → Config → Prop} (e : Embedding σ) {s s' : Scheduler σ}
    (h : Alike P s s') (request : Request σ) : request.resumed e s' = request.resumed e s := by
  cases request with
  | tick now =>
      have hawake : Alike P s.awake s'.awake := by
        obtain ⟨config, journal, hP, rfl⟩ := h
        exact ⟨config, journal, hP, rfl⟩
      obtain ⟨-, hdelays⟩ := SchedulerM.Blind.tickDelays e s.awake s'.awake hawake
      obtain ⟨_, _, -, hsame⟩ := hawake
      obtain ⟨_, _, -, hsame'⟩ := hdelays
      simp only [Request.resumed, afterDelays]
      rw [hsame', hsame]
      rfl
  | block | once | units | repeating | stop | dismiss | configure | change | pass => rfl

/-- A submission is the same to two schedulers that are alike once an active run has been stopped. -/
theorem Request.submission_alike {P : Config → Config → Prop} (e : Embedding σ) {s s' : Scheduler σ}
    (h : Alike P (s.guarded e) (s'.guarded e)) {request : Request σ} (hsubmits : request.submits) :
    request.result e s' = request.result e s ∧
      Alike P (request.perform e s).2 (request.perform e s').2 := by
  have honce (source : String) : Alike P (executeOnce e source s).2 (executeOnce e source s').2 := by
    rw [executeOnce_run, executeOnce_run]
    obtain ⟨config, journal, hP, hsame⟩ := h
    rw [hsame]
    exact ⟨config, journal, hP, rfl⟩
  cases request with
  | block source =>
      obtain ⟨hresult, hafter⟩ := SchedulerM.Blind.runBlock e source _ _ h
      rw [← executeBlock_run, ← executeBlock_run] at hresult hafter
      exact ⟨congrArg some hresult, hafter⟩
  | once source => exact ⟨rfl, honce source⟩
  | units parts => exact ⟨rfl, honce (SourceUnit.concat parts)⟩
  | repeating source every =>
      refine ⟨rfl, ?_⟩
      show Alike P (executeRepeating e source every s).2 (executeRepeating e source every s').2
      rw [executeRepeating_run, executeRepeating_run]
      obtain ⟨config, journal, hP, hsame⟩ := h
      rw [hsame]
      exact ⟨config, journal, hP, rfl⟩
  | tick | stop | dismiss | configure | change | pass => cases hsubmits

/-! ### Alike schedulers cannot be told apart -/

section

variable {P : Config → Config → Prop} (hrefl : ∀ config, P config config)
  (hupdate : ∀ (update : Config → Config) config config', P config config' → P (update config) (update config'))

include hrefl hupdate

/-- A request is the same to alike schedulers, unless it stops them and their configurations differ. -/
theorem Request.perform_alike (e : Embedding σ) {s s' : Scheduler σ} (h : Alike P s s')
    (request : Request σ) (hconfig : request.Stops s → s.config = s'.config) :
    request.result e s' = request.result e s ∧
      Alike P (request.perform e s).2 (request.perform e s').2 := by
  cases hsubmits : request.submits with
  | true =>
      refine Request.submission_alike e (guarded_alike hrefl e h fun hrunning => hconfig ?_) hsubmits
      cases request with
      | block | once | units | repeating => exact ⟨rfl, hrunning⟩
      | tick | stop | dismiss | configure | change | pass => cases hsubmits
  | false =>
      cases request with
      | block | once | units | repeating => cases hsubmits
      | tick now => exact ⟨rfl, (SchedulerM.Blind.tick e now s s' h).2⟩
      | stop => exact ⟨rfl, stop_alike hrefl e h (hconfig trivial)⟩
      | dismiss => exact ⟨rfl, (SchedulerM.Blind.changeContext Context.dismissError s s' h).2⟩
      | configure update =>
          obtain ⟨config, journal, hP, rfl⟩ := h
          exact ⟨rfl, update config, _, hupdate update _ _ hP, rfl⟩
      | change question =>
          exact ⟨rfl, (SchedulerM.Blind.onSession (fun _ => .askHost question) s s' h).2⟩
      | pass span now =>
          have hpass : SchedulerM.Blind P (Request.perform e (.pass span now : Request σ)) :=
            .bind (.elapse span) fun _ => .onSession fun _ _ journal => ⟨journal, rfl⟩
          exact ⟨rfl, (hpass s s' h).2⟩

theorem observations_alike (e : Embedding σ) (requests : List (Request σ)) {s s' : Scheduler σ}
    (h : Alike P s s')
    (hconfig : (∀ config config', P config config' → config = config') ∨ ¬ StopsDuring e requests s) :
    observations e requests s' = observations e requests s := by
  induction requests generalizing s s' with
  | nil => rfl
  | cons request rest ih =>
      have hstops : request.Stops s → s.config = s'.config := by
        intro hstops
        rcases hconfig with hsame | hnone
        · obtain ⟨config, journal, hP, rfl⟩ := h
          exact hsame _ _ hP
        · exact absurd (.inl hstops) hnone
      obtain ⟨hresult, hafter⟩ := request.perform_alike hrefl hupdate e h hstops
      have hrest := ih hafter (hconfig.imp_right fun hnone hlater => hnone (.inr hlater))
      have hobserve : request.observe e s' = request.observe e s := by
        rw [Request.observe, Request.observe, hresult, request.resumed_alike e h, hafter.sight]
      rw [observations, observations, hobserve, hrest]

end

theorem indistinguishable_of_alike (e : Embedding σ) {s s' : Scheduler σ}
    (h : Alike (fun config config' => config = config') s s') : Indistinguishable e s' s :=
  ⟨h.sight, fun requests => observations_alike (fun _ => rfl) (fun update _ _ => congrArg update) e requests h
    (.inl fun _ _ => id)⟩

namespace Scheduler

/-! ### Stops and configurations -/

theorem stop_alike_fresh (e : Embedding σ) (s : Scheduler σ) :
    Alike (fun config config' => config = config') (s.fresh e) (stop e s).2 := by
  obtain ⟨journal, hstop⟩ := stop_eq e s
  exact ⟨s.config, journal, rfl, hstop⟩

theorem fresh_bridge (e : Embedding σ) (s : Scheduler σ) : ∃ journal, (s.fresh e).session.bridge =
    ⟨.new s.config e.hasCheckers, s.session.bridge.application, s.session.bridge.now, journal⟩ := by
  obtain ⟨journal, hbridge⟩ := build_bridge e s.config s.session.bridge.application 0 #[]
  refine ⟨journal, ?_⟩
  rw [fresh, new]
  generalize Environment.build e s.config s.session.bridge.application 0 #[] = environment at hbridge ⊢
  show ({ environment.session.bridge with now := s.session.bridge.now } : Bridge σ) = _
  rw [hbridge]

theorem fresh_state (e : Embedding σ) (s : Scheduler σ) : (s.fresh e).state = .idle := by
  obtain ⟨journal, hbridge⟩ := fresh_bridge e s
  have hidle : (s.fresh e).context.hasPendingWork = false := by
    rw [context, hbridge]
    rfl
  rw [state, hidle]
  rfl

theorem fresh_of_same (e : Embedding σ) {s s' : Scheduler σ} (hconfig : s'.config = s.config)
    (happlication : s'.session.bridge.application = s.session.bridge.application)
    (hnow : s'.session.bridge.now = s.session.bridge.now) : s'.fresh e = s.fresh e := by
  rw [fresh, fresh, hconfig, happlication, hnow]

theorem fresh_stop (e : Embedding σ) (s : Scheduler σ) : (stop e s).2.fresh e = s.fresh e := by
  obtain ⟨registry, memory, journal, hstop⟩ := stop_run e s
  rw [hstop]
  exact fresh_of_same e rfl rfl rfl

/-- A submission to an active run is one to a scheduler just made. -/
theorem observations_forced (e : Embedding σ) {s : Scheduler σ} (hrunning : s.state = .running)
    {request : Request σ} (hsubmits : request.submits) (rest : List (Request σ)) :
    observations e (request :: rest) s = observations e (request :: rest) (s.fresh e) := by
  have hnoted : (note [.warn (misuseMessage s.state.display)] s).2.fresh e = s.fresh e :=
    fresh_of_same e rfl rfl rfl
  have hguarded : Alike (fun config config' => config = config') ((s.fresh e).guarded e) (s.guarded e) := by
    rw [guarded_of_running e hrunning, guarded_of_not_running e (by rw [fresh_state]; decide), ← hnoted]
    exact stop_alike_fresh e _
  obtain ⟨hresult, hafter⟩ := Request.submission_alike e hguarded hsubmits
  have hresumed : request.resumed e s = request.resumed e (s.fresh e) := by
    cases request with
    | block | once | units | repeating => rfl
    | tick | stop | dismiss | configure | change | pass => cases hsubmits
  rw [observations, observations, Request.observe, Request.observe, hresult, hresumed, hafter.sight,
    (indistinguishable_of_alike e hafter).2 rest]

theorem guarded_config (e : Embedding σ) (s : Scheduler σ) : (s.guarded e).config = s.config := by
  by_cases hrunning : s.state = .running
  · obtain ⟨registry, memory, journal, hstop⟩ := stop_run e (note [.warn (misuseMessage s.state.display)] s).2
    rw [guarded_of_running e hrunning, hstop]
    rfl
  · rw [guarded_of_not_running e hrunning]

/-- Only a change of the configuration changes it. -/
theorem perform_config (e : Embedding σ) (s : Scheduler σ) (request : Request σ) :
    (request.perform e s).2.config = request.reconfigured s.config := by
  have honce (source : String) : (executeOnce e source s).2.config = s.config := by
    rw [executeOnce_run]
    exact guarded_config e s
  cases request with
  | block source =>
      show (executeBlock e source s).2.config = s.config
      rw [executeBlock_run, SchedulerM.Blind.config fun _ => .runBlock e source]
      exact guarded_config e s
  | once source => exact honce source
  | units parts => exact honce (SourceUnit.concat parts)
  | repeating source every =>
      show (executeRepeating e source every s).2.config = s.config
      rw [executeRepeating_run]
      exact guarded_config e s
  | tick now => exact SchedulerM.Blind.config (fun _ => .tick e now) s
  | stop =>
      obtain ⟨registry, memory, journal, hstop⟩ := stop_run e s
      show (stop e s).2.config = s.config
      rw [hstop]
  | dismiss => rfl
  | configure update => rfl
  | change question => rfl
  | pass span now => rfl

theorem run_config (e : Embedding σ) (requests : List (Request σ)) (s : Scheduler σ) :
    (run e requests s).config =
      requests.foldl (fun config request => request.reconfigured config) s.config := by
  induction requests generalizing s with
  | nil => rfl
  | cons request rest ih =>
      rw [run, ih, perform_config]
      rfl

/-- **A stop is a fresh start.** From whatever state, a scheduler that has been stopped cannot be told from
one made in its place, nor one that has been stopped twice from one that has been stopped once, and a
submission to an active run is one to a scheduler made in its place. A change of the configuration is in
the configuration at once, to be used by the next stop, but until there is one it does not show. -/
theorem stop_starts_afresh (e : Embedding σ) (s : Scheduler σ) :
    Indistinguishable e (stop e s).2 (s.fresh e) ∧
      Indistinguishable e (stop e (stop e s).2).2 (stop e s).2 ∧
      (∀ request rest, request.submits → s.state = .running →
        observations e (request :: rest) s = observations e (request :: rest) (s.fresh e)) ∧
      ∀ update,
        (updateConfig update s).2.sight = s.sight ∧
        ∀ requests,
          (run e requests (updateConfig update s).2).config =
            requests.foldl (fun config request => request.reconfigured config) (update s.config) ∧
          (¬ StopsDuring e requests s →
            observations e requests (updateConfig update s).2 = observations e requests s) := by
  refine ⟨indistinguishable_of_alike e (stop_alike_fresh e s), ?_, fun request rest hsubmits hrunning =>
    observations_forced e hrunning hsubmits rest, fun update => ⟨rfl, fun requests => ⟨run_config e requests _,
    fun hnone => ?_⟩⟩⟩
  · obtain ⟨hsight, hlater⟩ := indistinguishable_of_alike e (stop_alike_fresh e (stop e s).2)
    rw [fresh_stop] at hsight hlater
    obtain ⟨hsight', hlater'⟩ := indistinguishable_of_alike e (stop_alike_fresh e s)
    exact ⟨hsight.trans hsight'.symm, fun requests => (hlater requests).trans (hlater' requests).symm⟩
  · have halike : Alike (fun _ _ => True) s (updateConfig update s).2 :=
      ⟨update s.config, (updateConfig update s).2.session.bridge.journal, trivial, rfl⟩
    exact observations_alike (fun _ => trivial) (fun _ _ _ _ => trivial) e requests halike (.inr hnone)

end Scheduler
end ScriptBridge
