import ScriptBridge.Proofs.GuestActs
import ScriptBridge.Proofs.SchedulerSteps

/-! Runs of a scheduler and their chronicles. A run is any series of requests, with the application's own
doings and the passing of time between them; a chronicle lists what happens during it. What the
scheduler itself does is in a chronicle exactly. Of guest code it has acts that lead from the context the
code found to the context it left, and what is proved of chronicles is proved for all such acts. Every
run has a chronicle, and every chronicle is a path of moves. -/

namespace ScriptBridge

variable {σ : Type}

/-- Something asked of a scheduler, or something that goes on around it. -/
inductive Request (σ : Type) where
  | block (source : String)
  | once (source : String)
  | units (parts : List SourceUnit)
  | repeating (source : String) (every : Nat)
  | tick (now : Nat)
  | stop
  | dismiss
  | configure (update : Config → Config)
  /-- The application changes its state, its flags included. -/
  | change (question : HostM σ Unit)
  /-- Time passes until an instant, and the checkers look at their flags. -/
  | pass (span now : Nat)

def Request.perform (e : Embedding σ) : Request σ → SchedulerM σ Unit
  | .block source => discard (Scheduler.executeBlock e source)
  | .once source => Scheduler.executeOnce e source
  | .units parts => Scheduler.executeUnits e parts
  | .repeating source every => Scheduler.executeRepeating e source every
  | .tick now => Scheduler.tick e now
  | .stop => Scheduler.stop e
  | .dismiss => Scheduler.dismissError
  | .configure update => Scheduler.updateConfig update
  | .change question => Scheduler.askHost question
  | .pass span now => do
      Scheduler.elapse span
      Scheduler.onSession fun _ => modify fun ⟨memory, bridge⟩ => ⟨memory, { bridge with now }⟩

namespace Scheduler

/-- The scheduler after a series of requests. -/
def run (e : Embedding σ) : List (Request σ) → Scheduler σ → Scheduler σ
  | [], s => s
  | request :: rest, s => run e rest (request.perform e s).2

/-! ### Histories of the parts -/

def ending {α : Type} : Except Guest.Fault α → History
  | .ok _ => []
  | .error fault => [.faulted fault]

/-- What guest code does when a scheduler runs it, and the fault it ends in if there is one. -/
def GuestHistory (e : Embedding σ) (code : Guest.State → Guest.Run (List Guest.Value)) (s : Scheduler σ)
    (h : History) : Prop :=
  ∃ acts, Acts s.context acts (s.guestRun e code).2.bridge.context ∧
    h = acts ++ ending (s.guestRun e code).1

def BlockHistory (e : Embedding σ) (cause : Cause) (source : String) (s : Scheduler σ) (h : History) :
    Prop :=
  ∃ rest, GuestHistory e (e.engine.execute source) (s.begun source) rest ∧
    h = .began cause source s.context.hasPendingWork :: rest

def ResumeHistory (e : Embedding σ) (label : String) (which : Waiting) (callback : Guest.Function)
    (s : Scheduler σ) (h : History) : Prop :=
  ∃ rest, GuestHistory e (e.engine.apply callback []) (s.resuming label) rest ∧
    h = .resumed which callback :: rest

def DelaysHistory (e : Embedding σ) (s : Scheduler σ) (h : History) : Prop :=
  match s.dueDelay? with
  | some d => ResumeHistory e "tick delay" (.delay d.seq) d.payload s.advanced h
  | none => h = []

def PollHistory (e : Embedding σ) (now : Nat) (s : Scheduler σ) (h : History) : Prop :=
  match s.dueWait? now with
  | some wait => ResumeHistory e "completion wait" (.completion wait.id) wait.callback (s.polled now) h
  | none => h = []

def DeferredHistory (e : Embedding σ) (s : Scheduler σ) (h : History) : Prop :=
  match s.deferred with
  | some source => BlockHistory e .deferred source { s with deferred := none } h
  | none => h = []

def RepeatingHistory (e : Embedding σ) (s : Scheduler σ) (h : History) : Prop :=
  match s.turn? with
  | some r => BlockHistory e .repeated r.source (s.recounting r) h
  | none => h = []

/-! ### Histories of requests -/

/-- A tick at its beginning. -/
def awake (s : Scheduler σ) : Scheduler σ := { s with errorReported := false }

def afterDelays (e : Embedding σ) (s : Scheduler σ) : Scheduler σ := (tickDelays e s.awake).2

def afterPoll (e : Embedding σ) (now : Nat) (s : Scheduler σ) : Scheduler σ :=
  (tickCompletion e now (s.afterDelays e)).2

def afterDeferred (e : Embedding σ) (now : Nat) (s : Scheduler σ) : Scheduler σ :=
  (runDeferred e (s.afterPoll e now)).2

def TickHistory (e : Embedding σ) (now : Nat) (s : Scheduler σ) (h : History) : Prop :=
  ∃ h₁ h₂ h₃ h₄, DelaysHistory e s.awake h₁ ∧ PollHistory e now (s.afterDelays e) h₂ ∧
    DeferredHistory e (s.afterPoll e now) h₃ ∧ RepeatingHistory e (s.afterDeferred e now) h₄ ∧
    h = .ticked :: (h₁ ++ .looked (s.afterDelays e).board :: (h₂ ++ (h₃ ++ h₄)))

/-- The stop that a submission forces. -/
def interruption (s : Scheduler σ) : History := if s.state = .running then [.stopped] else []

def OnceHistory (e : Embedding σ) (source : String) (s : Scheduler σ) (h : History) : Prop :=
  h = s.interruption ++ [.submitted (.once source) ((s.guarded e).outline.beside (.once source))]

end Scheduler

open Scheduler

def Request.HasHistory (e : Embedding σ) (s : Scheduler σ) : Request σ → History → Prop
  | .block source, h =>
      ∃ rest, BlockHistory e .atOnce source (s.guarded e) rest ∧
        h = s.interruption ++
          .submitted (.block source) ((s.guarded e).outline.beside (.block source)) :: rest
  | .once source, h => OnceHistory e source s h
  | .units parts, h => OnceHistory e (SourceUnit.concat parts) s h
  | .repeating source every, h =>
      h = s.interruption ++
        [.submitted (.repeating source every) ((s.guarded e).outline.beside (.repeating source every))]
  | .tick now, h => TickHistory e now s h
  | .stop, h => h = [.stopped]
  | .dismiss, h => h = [.dismissed]
  | .configure _, h => h = []
  | .change _, h => h = []
  | .pass _ _, h => h = [.looked s.board]

/-- What happens during a series of requests. -/
def Chronicle (e : Embedding σ) : List (Request σ) → Scheduler σ → History → Prop
  | [], _, h => h = []
  | request :: rest, s, h =>
      ∃ first later, request.HasHistory e s first ∧ Chronicle e rest (request.perform e s).2 later ∧
        h = first ++ later

/-! ### Every run has a chronicle -/

namespace Scheduler

theorem exists_guestHistory (e : Embedding σ) (code : Guest.State → Guest.Run (List Guest.Value))
    (s : Scheduler σ) : ∃ h, GuestHistory e code s h := by
  obtain ⟨acts, hacts⟩ := SessionM.Acting.runGuest (Environment.acting_answer e s.registry) code s.session
  exact ⟨_, acts, hacts, rfl⟩

theorem exists_blockHistory (e : Embedding σ) (cause : Cause) (source : String) (s : Scheduler σ) :
    ∃ h, BlockHistory e cause source s h := by
  obtain ⟨rest, hrest⟩ := exists_guestHistory e (e.engine.execute source) (s.begun source)
  exact ⟨_, rest, hrest, rfl⟩

theorem exists_resumeHistory (e : Embedding σ) (label : String) (which : Waiting)
    (callback : Guest.Function) (s : Scheduler σ) : ∃ h, ResumeHistory e label which callback s h := by
  obtain ⟨rest, hrest⟩ := exists_guestHistory e (e.engine.apply callback []) (s.resuming label)
  exact ⟨_, rest, hrest, rfl⟩

theorem exists_tickHistory (e : Embedding σ) (now : Nat) (s : Scheduler σ) :
    ∃ h, TickHistory e now s h := by
  have hdelays : ∃ h, DelaysHistory e s.awake h := by
    unfold DelaysHistory
    split
    · exact exists_resumeHistory e _ _ _ _
    · exact ⟨[], rfl⟩
  have hpoll : ∃ h, PollHistory e now (s.afterDelays e) h := by
    unfold PollHistory
    split
    · exact exists_resumeHistory e _ _ _ _
    · exact ⟨[], rfl⟩
  have hdeferred : ∃ h, DeferredHistory e (s.afterPoll e now) h := by
    unfold DeferredHistory
    split
    · exact exists_blockHistory e _ _ _
    · exact ⟨[], rfl⟩
  have hrepeating : ∃ h, RepeatingHistory e (s.afterDeferred e now) h := by
    unfold RepeatingHistory
    split
    · exact exists_blockHistory e _ _ _
    · exact ⟨[], rfl⟩
  obtain ⟨h₁, hdelays⟩ := hdelays
  obtain ⟨h₂, hpoll⟩ := hpoll
  obtain ⟨h₃, hdeferred⟩ := hdeferred
  obtain ⟨h₄, hrepeating⟩ := hrepeating
  exact ⟨_, h₁, h₂, h₃, h₄, hdelays, hpoll, hdeferred, hrepeating, rfl⟩

end Scheduler

theorem Request.exists_history (e : Embedding σ) (s : Scheduler σ) (request : Request σ) :
    ∃ h, request.HasHistory e s h := by
  cases request with
  | block source =>
      obtain ⟨rest, hrest⟩ := exists_blockHistory e .atOnce source (s.guarded e)
      exact ⟨_, rest, hrest, rfl⟩
  | tick now => exact exists_tickHistory e now s
  | once | units | repeating | stop | dismiss | configure | change | pass => exact ⟨_, rfl⟩

theorem exists_chronicle (e : Embedding σ) (requests : List (Request σ)) (s : Scheduler σ) :
    ∃ h, Chronicle e requests s h := by
  induction requests generalizing s with
  | nil => exact ⟨[], rfl⟩
  | cons request rest ih =>
      obtain ⟨first, hfirst⟩ := request.exists_history e s
      obtain ⟨later, hlater⟩ := ih (request.perform e s).2
      exact ⟨first ++ later, first, later, hfirst, hlater, rfl⟩

/-! ### Every chronicle is a path -/

namespace Scheduler

@[simp] theorem outline_withJournal (s : Scheduler σ) (journal : Array LogEntry) :
    (s.withJournal journal).outline = s.outline := rfl

/-- An outline with guest code running. -/
def guestOutline (s : Scheduler σ) : Outline := { s.outline with inGuest := true }

theorem GuestHistory.path {e : Embedding σ} {code : Guest.State → Guest.Run (List Guest.Value)}
    {s : Scheduler σ} {h : History} (hguest : GuestHistory e code s h) :
    Path s.guestOutline h (s.settled (s.guestRun e code)).outline := by
  obtain ⟨acts, hacts, rfl⟩ := hguest
  have hpath : Path s.guestOutline acts (s.withSession (s.guestRun e code).2).guestOutline :=
    Path.of_acts (o := s.guestOutline) rfl hacts
  refine hpath.append ?_
  obtain ⟨result, session⟩ := s.guestRun e code
  cases result with
  | ok values => exact .of_move (.finish _)
  | error fault => exact .of_move (.fault fault rfl)

theorem BlockHistory.path {e : Embedding σ} {cause : Cause} {source : String} {s : Scheduler σ} {h : History}
    (hblock : BlockHistory e cause source s h) :
    ∃ rest, h = .began cause source s.context.hasPendingWork :: rest ∧
      Path (s.outline.begun source) rest (runBlock e source s).2.outline := by
  obtain ⟨rest, hguest, rfl⟩ := hblock
  obtain ⟨journal, hrun⟩ := runBlock_run e source s
  refine ⟨rest, rfl, ?_⟩
  rw [hrun, outline_withJournal]
  exact hguest.path

theorem ResumeHistory.path {e : Embedding σ} {label : String} {which : Waiting} {callback : Guest.Function}
    {s : Scheduler σ} {h : History} (hresume : ResumeHistory e label which callback s h) :
    ∃ rest, h = .resumed which callback :: rest ∧
      Path s.guestOutline rest (resume e label callback s).2.outline := by
  obtain ⟨rest, hguest, rfl⟩ := hresume
  obtain ⟨journal, hrun⟩ := resume_run e label callback s
  refine ⟨rest, rfl, ?_⟩
  rw [hrun, outline_withJournal]
  exact hguest.path

/-- The beginning of a tick and its delays. -/
theorem DelaysHistory.path {e : Embedding σ} {s : Scheduler σ} {h : History}
    (hdelays : DelaysHistory e s.awake h) : Path s.outline (.ticked :: h) (s.afterDelays e).outline := by
  have hmove := Path.of_move (.tick s.outline)
  have hrun := tickDelays_run e s.awake
  unfold DelaysHistory at hdelays
  rw [afterDelays, hrun]
  cases hdue : s.awake.dueDelay? with
  | none =>
      rw [hdue] at hdelays
      rw [Outline.dueDelay, show s.outline.context.delays.due? = none from hdue] at hmove
      rw [hdelays]
      exact hmove
  | some d =>
      rw [hdue] at hdelays
      obtain ⟨rest, rfl, hrest⟩ := hdelays.path
      rw [Outline.dueDelay, show s.outline.context.delays.due? = some d from hdue] at hmove
      exact hmove.append hrest

theorem PollHistory.path {e : Embedding σ} {now : Nat} {s : Scheduler σ} {h : History}
    (hpoll : PollHistory e now s h) :
    Path s.outline (.looked s.board :: h) (tickCompletion e now s).2.outline := by
  have hmove := Path.of_move (.poll s.outline now s.board)
  have hrun := tickCompletion_run e now s
  unfold PollHistory at hpoll
  rw [hrun]
  cases hdue : s.dueWait? now with
  | none =>
      rw [hdue] at hpoll
      rw [Outline.dueWait, show s.outline.context.completion.due? now s.board.isRaised = none from hdue] at hmove
      rw [hpoll]
      exact hmove
  | some wait =>
      rw [hdue] at hpoll
      obtain ⟨rest, rfl, hrest⟩ := hpoll.path
      rw [Outline.dueWait,
        show s.outline.context.completion.due? now s.board.isRaised = some wait from hdue] at hmove
      exact hmove.append hrest

theorem DeferredHistory.path {e : Embedding σ} {s : Scheduler σ} {h : History}
    (hdeferred : DeferredHistory e s h) : Path s.outline h (runDeferred e s).2.outline := by
  have hrun := runDeferred_run e s
  unfold DeferredHistory at hdeferred
  rw [hrun]
  cases harmed : s.deferred with
  | none =>
      rw [harmed] at hdeferred
      rw [hdeferred]
      exact .nil _
  | some source =>
      rw [harmed] at hdeferred
      obtain ⟨rest, rfl, hrest⟩ := hdeferred.path
      exact (Path.of_move (.deferred harmed)).append hrest

theorem RepeatingHistory.path {e : Embedding σ} {s : Scheduler σ} {h : History}
    (hrepeating : RepeatingHistory e s h) : Path s.outline h (tickRepeating e s).2.outline := by
  unfold RepeatingHistory at hrepeating
  cases hturn : s.turn? with
  | none =>
      rw [hturn] at hrepeating
      rw [hrepeating]
      rcases tickRepeating_of_turn?_none e hturn with hsame | ⟨r, harmed, hcounted⟩
      · rw [hsame]
        exact .nil _
      · rw [hcounted]
        exact .of_move (.count harmed)
  | some r =>
      rw [hturn] at hrepeating
      obtain ⟨hidle, hdeferred, harmed, hrun⟩ := tickRepeating_of_turn?_some e hturn
      obtain ⟨rest, rfl, hrest⟩ := hrepeating.path
      rw [hrun, show (s.recounting r).context.hasPendingWork = false from hidle]
      exact (Path.of_move (.repeated harmed hdeferred hidle)).append hrest

theorem TickHistory.path {e : Embedding σ} {now : Nat} {s : Scheduler σ} {h : History}
    (htick : TickHistory e now s h) : Path s.outline h (tick e now s).2.outline := by
  obtain ⟨h₁, h₂, h₃, h₄, hdelays, hpoll, hdeferred, hrepeating, rfl⟩ := htick
  rw [tick_run]
  exact hdelays.path.append (hpoll.path.append (hdeferred.path.append hrepeating.path))

theorem new_outline (e : Embedding σ) (config : Config) (application : HostState σ) :
    (new e config application).outline = ⟨.new config e.hasCheckers, false, none, none, false⟩ := by
  rw [outline, new_context]
  rfl

theorem stop_outline (e : Embedding σ) (s : Scheduler σ) :
    (stop e s).2.outline = ⟨.new s.config e.hasCheckers, false, none, none, false⟩ := by
  obtain ⟨registry, memory, journal, hstop⟩ := stop_run e s
  rw [hstop]
  rfl

theorem state_eq_running_iff (s : Scheduler σ) : s.state = .running ↔ s.outline.isRunning := by
  unfold state
  split
  · simp [Outline.isRunning, outline, *]
  · split
    · simp_all [Outline.isRunning, outline]
    · simp_all [Outline.isRunning, outline]

theorem guarded_path (e : Embedding σ) (s : Scheduler σ) :
    Path s.outline s.interruption (s.guarded e).outline ∧ ¬ (s.guarded e).outline.isRunning := by
  unfold interruption
  split
  · rename_i hrunning
    rw [guarded_of_running e hrunning, stop_outline]
    exact ⟨.of_move (.stop _ _ _), by simp [Outline.isRunning, Context.new, Context.hasPendingWork,
      DelayQueue.new, DelayQueue.isEmpty, Completion.new, Completion.isActive]⟩
  · rename_i hidle
    rw [guarded_of_not_running e hidle]
    exact ⟨.nil _, fun hrunning => hidle ((state_eq_running_iff s).mpr hrunning)⟩

end Scheduler

theorem Request.HasHistory.path {e : Embedding σ} {s : Scheduler σ} {request : Request σ} {h : History}
    (hhistory : request.HasHistory e s h) : Path s.outline h (request.perform e s).2.outline := by
  obtain ⟨hguard, hidle⟩ := guarded_path e s
  cases request with
  | block source =>
      obtain ⟨rest, hblock, rfl⟩ := hhistory
      obtain ⟨rest, rfl, hrest⟩ := hblock.path
      refine hguard.append ((Path.of_move (.block source hidle)).append ?_)
      show Path _ rest (executeBlock e source s).2.outline
      rw [executeBlock_run]
      exact hrest
  | once source =>
      rw [show h = _ from hhistory]
      show Path _ _ (executeOnce e source s).2.outline
      rw [executeOnce_run]
      exact hguard.append (.of_move (.once source hidle))
  | units parts =>
      rw [show h = _ from hhistory]
      show Path _ _ (executeOnce e (SourceUnit.concat parts) s).2.outline
      rw [executeOnce_run]
      exact hguard.append (.of_move (.once (SourceUnit.concat parts) hidle))
  | repeating source every =>
      rw [show h = _ from hhistory]
      show Path _ _ (executeRepeating e source every s).2.outline
      rw [executeRepeating_run]
      exact hguard.append (.of_move (.repeating source every hidle))
  | tick now => exact TickHistory.path hhistory
  | stop =>
      rw [show h = _ from hhistory]
      show Path _ _ (Scheduler.stop e s).2.outline
      rw [stop_outline]
      exact .of_move (.stop _ _ _)
  | dismiss =>
      rw [show h = _ from hhistory]
      exact .of_move (.dismiss _)
  | configure update =>
      rw [show h = _ from hhistory]
      exact .nil _
  | change question =>
      rw [show h = _ from hhistory]
      exact .nil _
  | pass span now =>
      rw [show h = _ from hhistory]
      exact .of_move (.elapse _ span s.board)

/-- What holds along all paths holds of all runs. -/
theorem Chronicle.path {e : Embedding σ} {requests : List (Request σ)} {s : Scheduler σ} {h : History}
    (hchronicle : Chronicle e requests s h) : Path s.outline h (run e requests s).outline := by
  induction requests generalizing s h with
  | nil =>
      rw [show h = [] from hchronicle]
      exact .nil _
  | cons request rest ih =>
      obtain ⟨first, later, hfirst, hlater, rfl⟩ := hchronicle
      exact hfirst.path.append (ih hlater)

end ScriptBridge
