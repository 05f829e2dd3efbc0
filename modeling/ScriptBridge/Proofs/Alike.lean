import ScriptBridge.Proofs.SessionRules

/-! What a scheduler does is the same whatever its journal says, and until an environment is built the
same whatever its configuration is. Two schedulers that differ in nothing else give the same answers and
stay alike. -/

namespace ScriptBridge

variable {σ α β : Type}

/-! ### Sessions -/

/-- A computation that does the same whatever is in the journal. -/
def SessionM.Blind (m : SessionM σ α) : Prop :=
  ∀ s journal, ∃ journal', m (s.withJournal journal) = ((m s).1, (m s).2.withJournal journal')

namespace SessionM.Blind

theorem pure (a : α) : Blind (pure a : SessionM σ α) := fun _ journal => ⟨journal, rfl⟩

theorem bind {m : SessionM σ α} {f : α → SessionM σ β} (hm : Blind m) (hf : ∀ a, Blind (f a)) :
    Blind (m >>= f) := by
  intro s journal
  obtain ⟨between, hfirst⟩ := hm s journal
  rw [run_bind, run_bind, hfirst]
  exact hf (m s).1 (m s).2 between

theorem read {f : Session σ → SessionM σ α} (hf : ∀ s journal, f (s.withJournal journal) = f s)
    (hread : ∀ s, Blind (f s)) : Blind (get >>= f) := by
  intro s journal
  rw [run_bind, run_bind, run_get, run_get]
  dsimp only
  rw [hf]
  exact hread s s journal

theorem note (entries : Log) : Blind (Session.note entries : SessionM σ Unit) := fun _ _ => ⟨_, rfl⟩

theorem onContext (f : Context → α × Context) : Blind (Session.onContext f : SessionM σ α) :=
  fun _ journal => ⟨journal, rfl⟩

theorem askHost (question : HostM σ α) : Blind (Session.askHost question) := fun _ journal => ⟨journal, rfl⟩

/-- A guest run sees nothing of the journal if the answers to its calls do not. -/
theorem follow {answer : Answer σ} (hanswer : ∀ operation args line, Blind (answer operation args line))
    (run : Guest.Run α) (b : Bridge σ) (journal : Array LogEntry) : ∃ journal',
    run.follow answer { b with journal } =
      ((run.follow answer b).1, (run.follow answer b).2.withJournal journal') := by
  induction run generalizing b journal with
  | finished result memory => exact ⟨journal, rfl⟩
  | call operation args line memory resume ih =>
      obtain ⟨between, hcall⟩ := hanswer operation args line ⟨memory, b⟩ journal
      let answered := answer operation args line ⟨memory, b⟩
      obtain ⟨journal', hrest⟩ := ih answered.1 answered.2.memory answered.2.bridge between
      have hstep (b : Bridge σ) : (Guest.Run.call operation args line memory resume).follow answer b =
          (fun answered : Guest.Value × Session σ =>
            (resume answered.1 answered.2.memory).follow answer answered.2.bridge)
          (answer operation args line ⟨memory, b⟩) := rfl
      refine ⟨journal', Eq.trans ?_ hrest⟩
      rw [hstep, show answer operation args line ⟨memory, { b with journal }⟩ = _ from hcall]
      rfl

theorem runGuest {answer : Answer σ} (hanswer : ∀ operation args line, Blind (answer operation args line))
    (code : Guest.State → Guest.Run α) : Blind (Session.runGuest answer code) :=
  fun s journal => follow hanswer (code s.memory) s.bridge journal

theorem compositional : Compositional (σ := σ) Blind where
  pure := pure
  bind := bind
  read := read
  note := note
  askHost := askHost
  onMemory _ := fun _ journal => ⟨journal, rfl⟩
  recordCall _ := onContext _
  reportHostError _ _ := onContext _
  scheduleDelay _ _ := onContext _
  startCompletion _ _ _ := onContext _
  runGuest := runGuest

end SessionM.Blind

theorem Scheduler.blind_convertResult (e : Embedding σ) (registry : Registry σ) (value : Guest.Value) :
    SessionM.Blind (convertResult e registry value) := by
  have hblind := SessionM.Blind.compositional (σ := σ)
  refine hblind.bind (hblind.convert (fun _ _ => hblind.pure _) (fun _ => hblind.askHost _) _ _ _) fun result => ?_
  cases result with
  | ok converted => exact hblind.pure _
  | error fault => exact hblind.bind (hblind.note _) fun _ => hblind.pure _

theorem Scheduler.blind_convertResults (e : Embedding σ) (registry : Registry σ) (values : List Guest.Value) :
    SessionM.Blind (values.mapM (convertResult e registry)) := by
  induction values with
  | nil => exact .pure _
  | cons value rest ih =>
      rw [List.mapM_cons]
      exact .bind (blind_convertResult e registry value) fun _ => .bind ih fun _ => .pure _

/-! ### Schedulers -/

namespace Scheduler

/-- A scheduler with another configuration and another journal. -/
def restyled (s : Scheduler σ) (config : Config) (journal : Array LogEntry) : Scheduler σ :=
  { s.withJournal journal with config }

/-- Two schedulers differ at most in their journals and, as far as `P` allows, in their configurations. -/
def Alike (P : Config → Config → Prop) (s s' : Scheduler σ) : Prop :=
  ∃ config journal, P s.config config ∧ s' = s.restyled config journal

end Scheduler

open Scheduler

/-- A computation that gives alike schedulers the same answer and leaves them alike. -/
def SchedulerM.Blind (P : Config → Config → Prop) (m : SchedulerM σ α) : Prop :=
  ∀ s s', Alike P s s' → (m s').1 = (m s).1 ∧ Alike P (m s).2 (m s').2

namespace SchedulerM.Blind

variable {P : Config → Config → Prop}

theorem pure (a : α) : Blind P (pure a : SchedulerM σ α) := fun _ _ h => ⟨rfl, h⟩

theorem bind {m : SchedulerM σ α} {f : α → SchedulerM σ β} (hm : Blind P m) (hf : ∀ a, Blind P (f a)) :
    Blind P (m >>= f) := by
  intro s s' h
  obtain ⟨hanswer, hafter⟩ := hm s s' h
  rw [run_bind, run_bind, hanswer]
  exact hf (m s).1 (m s).2 (m s').2 hafter

theorem read {f : Scheduler σ → SchedulerM σ α}
    (hf : ∀ s config journal, f (s.restyled config journal) = f s) (hread : ∀ s, Blind P (f s)) :
    Blind P (get >>= f) := by
  intro s s' h
  obtain ⟨config, journal, -, rfl⟩ := id h
  rw [run_bind, run_bind, run_get, run_get]
  dsimp only
  rw [hf]
  exact hread s s _ h

theorem update {f : Scheduler σ → Scheduler σ} (hconfig : ∀ s, (f s).config = s.config)
    (hf : ∀ s config journal, f (s.restyled config journal) = (f s).restyled config journal) :
    Blind P (modify f) := by
  rintro s _ ⟨config, journal, hP, rfl⟩
  refine ⟨rfl, config, journal, ?_, hf s config journal⟩
  show P (f s).config config
  rwa [hconfig]

theorem onSession {f : Registry σ → SessionM σ α} (hf : ∀ registry, SessionM.Blind (f registry)) :
    Blind P (onSession f) := by
  rintro s _ ⟨config, journal, hP, rfl⟩
  obtain ⟨journal', hsession⟩ := hf s.registry s.session journal
  have hrun (s : Scheduler σ) : Scheduler.onSession f s =
      ((f s.registry s.session).1, s.withSession (f s.registry s.session).2) := rfl
  rw [hrun, hrun, show f (s.restyled config journal).registry (s.restyled config journal).session = _ from
    hsession]
  exact ⟨rfl, config, journal', hP, rfl⟩

/-- What is blind to configurations leaves them alone. -/
theorem config {m : SchedulerM σ α} (hm : ∀ P, Blind P m) (s : Scheduler σ) : (m s).2.config = s.config := by
  have hsame : Alike (fun config _ => config = s.config) s s :=
    ⟨s.config, s.session.bridge.journal, rfl, rfl⟩
  obtain ⟨-, -, -, hconfig, -⟩ := hm _ s s hsame
  exact hconfig

theorem note (entries : Log) : Blind P (Scheduler.note entries : SchedulerM σ Unit) :=
  onSession fun _ => .note _

theorem changeContext (f : Context → Context) :
    Blind P (Scheduler.changeContext f : SchedulerM σ Unit) :=
  onSession fun _ => .onContext _

theorem runGuest (e : Embedding σ) (code : Guest.State → Guest.Run (List Guest.Value)) :
    Blind P (Scheduler.onSession fun registry => Session.runGuest (Environment.answer e registry) code) :=
  onSession fun registry => .runGuest (SessionM.Blind.compositional.answer e registry) code

theorem fail (fault : Guest.Fault) : Blind P (Scheduler.fail fault : SchedulerM σ Report) := by
  unfold Scheduler.fail
  refine read (fun _ _ _ => rfl) fun _ => bind (note _) fun _ => bind (onSession fun _ => .onContext _) fun report =>
    read (fun _ _ _ => rfl) fun s => ?_
  have hdrop : Blind P (do
      modify fun s : Scheduler σ => { s with deferred := none, repeating := none, errorReported := true }
      return report) := bind (update (fun _ => rfl) fun _ _ _ => rfl) fun _ => pure _
  split
  · exact bind (note _) fun _ => hdrop
  · exact hdrop

theorem runBlock (e : Embedding σ) (source : String) : Blind P (Scheduler.runBlock e source) := by
  unfold Scheduler.runBlock
  refine bind (update (fun _ => rfl) fun _ _ _ => rfl) fun _ => bind (changeContext _) fun _ =>
    bind (note _) fun _ => bind (runGuest e _) fun result => ?_
  cases result with
  | ok values =>
      exact bind (onSession fun registry => blind_convertResults e registry values) fun _ =>
        read (fun _ _ _ => rfl) fun _ => bind (note _) fun _ => pure _
  | error fault => exact bind (fail fault) fun _ => pure _

theorem resume (e : Embedding σ) (label : String) (callback : Guest.Function) :
    Blind P (Scheduler.resume e label callback) := by
  refine bind (note _) fun _ => bind (runGuest e _) fun result => ?_
  cases result with
  | ok values => exact pure _
  | error fault => exact bind (fail fault) fun _ => pure _

/-! ### Ticks -/

theorem tickDelays (e : Embedding σ) : Blind P (Scheduler.tickDelays e) := by
  refine read (fun _ _ _ => rfl) fun _ => bind (note _) fun _ => bind (onSession fun _ => .onContext _) fun due => ?_
  cases due with
  | none => exact pure _
  | some callback => exact resume e _ callback

theorem tickCompletion (e : Embedding σ) (now : Nat) : Blind P (Scheduler.tickCompletion e now) := by
  refine read (fun _ _ _ => rfl) fun _ => bind (onSession fun _ => .onContext _) fun due => ?_
  cases due with
  | none => exact pure _
  | some callback => exact resume e _ callback

theorem runDeferred (e : Embedding σ) : Blind P (Scheduler.runDeferred e) := by
  refine read (fun _ _ _ => rfl) fun s => ?_
  cases s.deferred with
  | none => exact pure _
  | some source =>
      exact bind (update (fun _ => rfl) fun _ _ _ => rfl) fun _ => bind (runBlock e source) fun _ => pure _

theorem tickRepeating (e : Embedding σ) : Blind P (Scheduler.tickRepeating e) := by
  refine read (fun _ _ _ => rfl) fun s => ?_
  dsimp only
  split
  · exact pure _
  · cases s.repeating with
    | none => exact pure _
    | some r =>
        dsimp only
        split
        · exact update (fun _ => rfl) fun _ _ _ => rfl
        · exact bind (update (fun _ => rfl) fun _ _ _ => rfl) fun _ => bind (runBlock e r.source) fun _ => pure _

theorem tick (e : Embedding σ) (now : Nat) : Blind P (Scheduler.tick e now) :=
  bind (update (fun _ => rfl) fun _ _ _ => rfl) fun _ => bind (tickDelays e) fun _ =>
    bind (tickCompletion e now) fun _ => bind (runDeferred e) fun _ => tickRepeating e

theorem elapse (span : Nat) : Blind P (Scheduler.elapse span : SchedulerM σ Unit) :=
  read (fun _ _ _ => rfl) fun _ => changeContext _

end SchedulerM.Blind
end ScriptBridge
