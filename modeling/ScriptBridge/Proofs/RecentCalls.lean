import ScriptBridge.Proofs.CallTraces
import ScriptBridge.Proofs.Chronicle

/-! What a call history shows. Beside a run goes a trace of all it was told: of the calls since the last block
started or the environment was last built, the history shows the last ones, as many as it has room for. The
same is true of every list of calls that guest code was given, and of every report, when it was made. A program
lives through a run only if the machine has the room that each history is given when it is built, before there is
any call. -/

namespace ScriptBridge

variable {σ : Type}

/-! ### Making room -/

namespace CallHistory

/-- One record is given up, for there is no room for another one. -/
def Evicts (capacity : Nat) (before after : List CallRecord) : Prop :=
  capacity ≤ before.length ∧ after = before.tail

/-- Giving up records comes to an end just when there is room for some; else it would go on for ever with
nothing left to give up. -/
theorem evicts_wellFounded_iff (capacity : Nat) :
    WellFounded (fun after before => Evicts capacity before after) ↔ 0 < capacity := by
  constructor
  · intro h
    refine Nat.pos_of_ne_zero fun hzero => ?_
    have hagain : Evicts capacity [] [] := ⟨Nat.le_of_eq hzero, rfl⟩
    exact h.induction (C := fun records => ¬ Evicts capacity records records) []
      (fun records ih hself => ih records hself hself) hagain
  · intro hroom
    refine Subrelation.wf (r := InvImage (· < ·) List.length) (fun {after before} hevicts => ?_)
      (InvImage.wf List.length Nat.lt_wfRel.wf)
    obtain ⟨hfull, rfl⟩ := hevicts
    show before.tail.length < before.length
    rw [List.length_tail]
    omega

/-- Gives up the oldest records one by one until there is room for another one. -/
def makeRoom (capacity : Nat) (hroom : 0 < capacity) (records : List CallRecord) : List CallRecord :=
  if capacity ≤ records.length then makeRoom capacity hroom records.tail else records
termination_by records.length
decreasing_by
  rw [List.length_tail]
  omega

/-- Records a call step by step; without room for any nothing is done. -/
def pushStepwise (h : CallHistory) (r : CallRecord) : CallHistory :=
  if hroom : 0 < h.capacity then { h with records := makeRoom h.capacity hroom h.records ++ [r] } else h

theorem makeRoom_eq {capacity : Nat} (hroom : 0 < capacity) (records : List CallRecord) :
    makeRoom capacity hroom records = records.rtake (capacity - 1) := by
  induction records with
  | nil =>
      rw [makeRoom, List.length_nil, if_neg (Nat.not_le.mpr hroom), List.rtake_nil]
  | cons first rest ih =>
      rw [makeRoom]
      split
      · rename_i hfull
        rw [List.tail_cons, ih, List.rtake, List.rtake, List.length_cons,
          show rest.length + 1 - (capacity - 1) = rest.length - (capacity - 1) + 1 by
            rw [List.length_cons] at hfull
            omega, List.drop_succ_cons]
      · rename_i hfits
        rw [List.rtake, show (first :: rest).length - (capacity - 1) = 0 by omega, List.drop_zero]

/-- A history that is not beyond its capacity is recorded to step by step. -/
theorem pushStepwise_eq {h : CallHistory} (hfits : h.records.length ≤ h.capacity) (r : CallRecord) :
    h.pushStepwise r = h.push r := by
  obtain ⟨records, capacity⟩ := h
  rw [pushStepwise]
  split
  · rename_i hroom
    show CallHistory.mk _ _ = CallHistory.mk ((records ++ [r]).rtake capacity) capacity
    rw [makeRoom_eq]
    obtain ⟨room, rfl⟩ := Nat.exists_eq_add_of_lt hroom
    rw [Nat.zero_add, List.rtake_concat_succ]
    rfl
  · rename_i hroom
    obtain rfl : capacity = 0 := Nat.eq_zero_of_not_pos hroom
    obtain rfl : records = [] := List.eq_nil_of_length_eq_zero (Nat.le_zero.mp hfits)
    rfl

end CallHistory

/-! ### The last calls -/

namespace CallTrace

/-- The records of calls after one more event. -/
def count (calls : List CallRecord) : CallEvent → List CallRecord
  | .built _ | .began _ => []
  | .called signature args => calls ++ Invocation.ownRecords signature args
  | .listed _ | .reported _ => calls

/-- The records of the calls since a block started or the environment was built, those of operations that are
to leave no trace left out. -/
def calls (t : CallTrace) : List CallRecord := t.foldl count []

/-- The capacity after one more event. -/
def room (capacity : Nat) : CallEvent → Nat
  | .built capacity => capacity
  | _ => capacity

/-- The capacity of the environment that was built last. -/
def capacity (t : CallTrace) : Nat := t.foldl room 0

/-- The records are the last of all there were, as many as there is room for. -/
def Shows (t : CallTrace) (records : List CallRecord) : Prop :=
  records <:+ t.calls ∧ records.length = min t.capacity t.calls.length

theorem calls_snoc (t : CallTrace) (event : CallEvent) : calls (t ++ [event]) = count t.calls event :=
  List.foldl_append

theorem capacity_snoc (t : CallTrace) (event : CallEvent) : capacity (t ++ [event]) = room t.capacity event :=
  List.foldl_append

theorem shows_iff {t : CallTrace} {records : List CallRecord} :
    t.Shows records ↔ records = t.calls.rtake t.capacity := by
  rw [Shows, List.rtake]
  constructor
  · rintro ⟨hsuffix, hlength⟩
    rw [List.suffix_iff_eq_drop.mp hsuffix, hlength]
    congr 1
    omega
  · rintro rfl
    refine ⟨List.drop_suffix _ _, ?_⟩
    rw [List.length_drop]
    omega

theorem Shows.length_le {t : CallTrace} {records : List CallRecord} (h : t.Shows records) :
    records.length ≤ t.capacity := h.2.trans_le (Nat.min_le_left _ _)

/-- A list of calls or a report tells the last calls at its moment. -/
def Truthful (past : CallTrace) : CallEvent → Prop
  | .listed result => ∃ records, past.Shows records ∧ result = .list (records.map fun r =>
      .record [("ArgumentTypes", .str r.argumentTypes), ("Operation", .str r.operation)])
  | .reported report => past.Shows report.history
  | _ => True

/-- A context keeps what the trace says, and everything in the trace was true when it was written. -/
structure Faithful (past : CallTrace) (c : Context) : Prop where
  capacity : c.history.capacity = past.capacity
  history : past.Shows c.history.records
  surface : ∀ r ∈ c.surface, ∃ made, .reported made ∈ past ∧ r = { made with isDisplaying := r.isDisplaying }
  truthful : ∀ (before : CallTrace) event, before ++ [event] <+: past → before.Truthful event

namespace Faithful

variable {past : CallTrace} {c c' : Context}

/-- One more event, and a context that keeps to it. -/
theorem snoc (h : Faithful past c) {event : CallEvent} (htrue : past.Truthful event)
    (hcapacity : c'.history.capacity = (past ++ [event]).capacity)
    (hhistory : CallTrace.Shows (past ++ [event]) c'.history.records)
    (hsurface : ∀ r ∈ c'.surface, c.surface = some r ∨ ∃ report, event = .reported report ∧ report = r) :
    Faithful (past ++ [event]) c' where
  capacity := hcapacity
  history := hhistory
  surface := by
    intro r hr
    rcases hsurface r hr with hold | ⟨report, rfl, rfl⟩
    · obtain ⟨made, hmade, hsame⟩ := h.surface r hold
      exact ⟨made, List.mem_append_left _ hmade, hsame⟩
    · exact ⟨report, List.mem_append_right _ List.mem_cons_self, rfl⟩
  truthful := by
    intro before x hx
    rcases List.prefix_concat_iff.mp hx with heq | hold
    · obtain ⟨rfl, rfl⟩ := List.append_inj' heq rfl |>.imp_right List.singleton_inj.mp
      exact htrue
    · exact h.truthful before x hold

/-- What neither records calls nor makes reports. -/
theorem still (h : Faithful past c) (hhistory : c'.history = c.history)
    (hsurface : ∀ r ∈ c'.surface, ∃ r' ∈ c.surface, r = { r' with isDisplaying := r.isDisplaying }) :
    Faithful past c' where
  capacity := by rw [hhistory, h.capacity]
  history := by
    rw [hhistory]
    exact h.history
  surface := by
    intro r hr
    obtain ⟨r', hr', hsame⟩ := hsurface r hr
    obtain ⟨made, hmade, hold⟩ := h.surface r' hr'
    exact ⟨made, hmade, by rw [hsame, hold]⟩
  truthful := h.truthful

/-- A report is made of the history as it stands. -/
theorem report (h : Faithful past c) {report : Report} (hreport : report.history = c.history.records)
    (hhistory : c'.history = c.history) (hsurface : ∀ r ∈ c'.surface, c.surface = some r ∨ report = r) :
    Faithful (past ++ [.reported report]) c' := by
  refine h.snoc ?_ ?_ ?_ fun r hr => ?_
  · show past.Shows report.history
    rw [hreport]
    exact h.history
  · rw [hhistory, h.capacity, capacity_snoc]
    rfl
  · rw [hhistory, Shows, calls_snoc, capacity_snoc]
    exact h.history
  · exact (hsurface r hr).imp_right fun heq => ⟨report, rfl, heq⟩

theorem call (h : Faithful past c) (signature : Signature) (args : List Guest.Value) :
    Faithful (past ++ [.called signature args])
      { c with history := c.history.pushAll (Invocation.ownRecords signature args) } := by
  have hkept : (c.history.pushAll (Invocation.ownRecords signature args)).capacity = c.history.capacity := by
    unfold Invocation.ownRecords
    split <;> rfl
  have hrecords := shows_iff.mp h.history
  refine h.snoc trivial ?_ (shows_iff.mpr ?_) fun r hr => .inl hr
  · rw [hkept, h.capacity, capacity_snoc]
    rfl
  rw [calls_snoc, capacity_snoc]
  show _ = (past.calls ++ Invocation.ownRecords signature args).rtake past.capacity
  unfold Invocation.ownRecords
  split
  · rw [List.append_nil]
    exact hrecords
  · show (c.history.push _).records = _
    rw [CallHistory.push_records, hrecords, h.capacity, CallHistory.rtake_rtake_append]

theorem list (h : Faithful past c) :
    Faithful (past ++ [.listed (.list (c.history.records.map fun r =>
      .record [("ArgumentTypes", .str r.argumentTypes), ("Operation", .str r.operation)]))]) c := by
  refine h.snoc ⟨_, h.history, rfl⟩ ?_ ?_ fun r hr => .inl hr
  · rw [h.capacity, capacity_snoc]
    rfl
  · rw [Shows, calls_snoc, capacity_snoc]
    exact h.history

theorem begin (h : Faithful past c) (source : String) :
    Faithful (past ++ [.began source]) (c.beginAttempt source) := by
  refine h.snoc trivial ?_ ?_ (by simp [Context.beginAttempt])
  · rw [capacity_snoc]
    exact h.capacity
  · rw [Shows, calls_snoc]
    exact ⟨List.nil_suffix, (Nat.min_zero _).symm⟩

theorem build (h : Faithful past c) (config : Config) (hasCheckers : Bool) :
    Faithful (past ++ [.built config.historyCapacity.toNat]) (.new config hasCheckers) := by
  refine h.snoc trivial ?_ ?_ (by simp [Context.new])
  · rw [capacity_snoc]
    rfl
  · rw [Shows, calls_snoc]
    exact ⟨List.nil_suffix, (Nat.min_zero _).symm⟩

theorem new (config : Config) (hasCheckers : Bool) :
    Faithful [.built config.historyCapacity.toNat] (.new config hasCheckers) where
  capacity := rfl
  history := ⟨List.nil_suffix, (Nat.min_zero _).symm⟩
  surface := by simp [Context.new]
  truthful := by
    intro before event hprefix
    obtain rfl : event = .built _ := by
      cases before with
      | nil => exact (List.cons_prefix_cons.mp hprefix).1
      | cons first rest => simp at hprefix
    trivial

/-- A fault is reported, and comes to the surface unless another fault is there. -/
theorem fault (h : Faithful past c) (message : String) (line : Option Int) :
    Faithful (past ++ [.reported (c.capture .guest message line)]) (c.reportGuestError message line).2 := by
  unfold Context.reportGuestError
  dsimp only
  split
  · exact h.report rfl rfl fun r hr => .inl hr
  · exact h.report rfl rfl fun r hr => .inr (Option.some.inj hr)

/-- All that happens in a call is faithful. -/
theorem kept : Kept Faithful where
  still h hhistory hsurface := h.still hhistory fun r hr => ⟨r, hsurface ▸ hr, rfl⟩
  called signature args h := h.call signature args
  listed h := h.list
  failed {past c} message line h := by
    refine h.report rfl rfl fun r hr => ?_
    cases hsurface : c.surface with
    | some first =>
        rw [Context.reportHostError, hsurface] at hr
        exact .inl hr
    | none =>
        rw [Context.reportHostError, hsurface] at hr
        exact .inr (Option.some.inj hr)

end Faithful
end CallTrace

/-! ### Traces of a scheduler -/

namespace Scheduler

open CallTrace (Faithful)

/-- The trace after guest code that a scheduler runs. -/
def traceGuest (e : Embedding σ) (code : Guest.State → Guest.Run (List Guest.Value)) (s : Scheduler σ)
    (past : CallTrace) : CallTrace :=
  let after := (TracedM.runGuest (TracedM.answer e s.registry) code (s.session, past)).2.2
  match s.guestRun e code with
  | (.ok _, _) => after
  | (.error fault, session) => after ++ [.reported (fail fault (s.withSession session)).1]

def traceBlock (e : Embedding σ) (source : String) (s : Scheduler σ) (past : CallTrace) : CallTrace :=
  traceGuest e (e.engine.execute source) (s.begun source) (past ++ [.began source])

def traceResume (e : Embedding σ) (label : String) (callback : Guest.Function) (s : Scheduler σ)
    (past : CallTrace) : CallTrace :=
  traceGuest e (e.engine.apply callback []) (s.resuming label) past

def traceDelays (e : Embedding σ) (s : Scheduler σ) (past : CallTrace) : CallTrace :=
  match s.dueDelay? with
  | some d => traceResume e "tick delay" d.payload s.advanced past
  | none => past

def traceCompletion (e : Embedding σ) (now : Nat) (s : Scheduler σ) (past : CallTrace) : CallTrace :=
  match s.dueWait? now with
  | some wait => traceResume e "completion wait" wait.callback (s.polled now) past
  | none => past

def traceDeferred (e : Embedding σ) (s : Scheduler σ) (past : CallTrace) : CallTrace :=
  match s.deferred with
  | some source => traceBlock e source { s with deferred := none } past
  | none => past

def traceRepeating (e : Embedding σ) (s : Scheduler σ) (past : CallTrace) : CallTrace :=
  match s.turn? with
  | some r => traceBlock e r.source (s.recounting r) past
  | none => past

def traceTick (e : Embedding σ) (now : Nat) (s : Scheduler σ) (past : CallTrace) : CallTrace :=
  traceRepeating e (s.afterDeferred e now) (traceDeferred e (s.afterPoll e now)
    (traceCompletion e now (s.afterDelays e) (traceDelays e s.awake past)))

/-- A stop builds the environment by the configuration of the moment. -/
def traceStop (s : Scheduler σ) (past : CallTrace) : CallTrace :=
  past ++ [.built s.config.historyCapacity.toNat]

/-- The stop that a submission forces. -/
def traceGuard (s : Scheduler σ) (past : CallTrace) : CallTrace :=
  if s.state = .running then s.traceStop past else past

end Scheduler

open Scheduler

def Request.trace (e : Embedding σ) (s : Scheduler σ) (past : CallTrace) : Request σ → CallTrace
  | .block source => traceBlock e source (s.guarded e) (s.traceGuard past)
  | .once _ | .units _ | .repeating _ _ => s.traceGuard past
  | .tick now => traceTick e now s past
  | .stop => s.traceStop past
  | .dismiss | .configure _ | .change _ | .pass _ _ => past

namespace Scheduler

open CallTrace (Faithful)

/-- The trace of a series of requests. -/
def traceRun (e : Embedding σ) : List (Request σ) → Scheduler σ → CallTrace → CallTrace
  | [], _, past => past
  | request :: rest, s, past => traceRun e rest (request.perform e s).2 (request.trace e s past)

/-- The trace of a scheduler's whole life. -/
def traceOf (e : Embedding σ) (config : Config) (application : HostState σ) (requests : List (Request σ)) :
    CallTrace :=
  traceRun e requests (new e config application) [.built config.historyCapacity.toNat]

section

variable {e : Embedding σ} {s : Scheduler σ} {past : CallTrace}

theorem faithful_guest (h : Faithful past s.context) (code : Guest.State → Guest.Run (List Guest.Value)) :
    Faithful (traceGuest e code s past) (s.settled (s.guestRun e code)).context := by
  have hfollows := TracedM.Follows.runGuest (TracedM.Follows.answer CallTrace.Faithful.kept e s.registry) code
  have hkept := hfollows.keeps s.session past h
  change Faithful _ (s.guestRun e code).2.bridge.context at hkept
  rw [traceGuest]
  generalize (TracedM.runGuest (TracedM.answer e s.registry) code (s.session, past)).2.2 = after at hkept ⊢
  generalize s.guestRun e code = final at hkept ⊢
  obtain ⟨result, session⟩ := final
  cases result with
  | ok values => exact hkept
  | error fault =>
      obtain ⟨journal, hfail⟩ := fail_run fault (s.withSession session)
      show Faithful (after ++ [.reported (fail fault (s.withSession session)).1]) _
      rw [hfail]
      have hreported := hkept.fault (diagnose fault).1 (diagnose fault).2
      exact hreported.still rfl fun r hr => ⟨r, hr, rfl⟩

theorem faithful_block (h : Faithful past s.context) (source : String) :
    Faithful (traceBlock e source s past) (runBlock e source s).2.context := by
  obtain ⟨journal, hrun⟩ := runBlock_run e source s
  rw [hrun]
  exact faithful_guest (s := s.begun source) (h.begin source) (e.engine.execute source)

theorem faithful_resume (h : Faithful past s.context) (label : String) (callback : Guest.Function) :
    Faithful (traceResume e label callback s past) (resume e label callback s).2.context := by
  obtain ⟨journal, hrun⟩ := resume_run e label callback s
  rw [hrun]
  exact faithful_guest (s := s.resuming label) h (e.engine.apply callback [])

theorem faithful_delays (h : Faithful past s.context) :
    Faithful (traceDelays e s past) (tickDelays e s).2.context := by
  have hadvanced : Faithful past s.advanced.context := h.still rfl fun r hr => ⟨r, hr, rfl⟩
  rw [traceDelays, tickDelays_run]
  cases s.dueDelay? with
  | none => exact hadvanced
  | some d => exact faithful_resume hadvanced "tick delay" d.payload

theorem faithful_completion (h : Faithful past s.context) (now : Nat) :
    Faithful (traceCompletion e now s past) (tickCompletion e now s).2.context := by
  have hpolled : Faithful past (s.polled now).context := h.still rfl fun r hr => ⟨r, hr, rfl⟩
  rw [traceCompletion, tickCompletion_run]
  cases s.dueWait? now with
  | none => exact hpolled
  | some wait => exact faithful_resume hpolled "completion wait" wait.callback

theorem faithful_deferred (h : Faithful past s.context) :
    Faithful (traceDeferred e s past) (runDeferred e s).2.context := by
  rw [traceDeferred, runDeferred_run]
  cases s.deferred with
  | none => exact h
  | some source => exact faithful_block (s := { s with deferred := none }) h source

theorem faithful_repeating (h : Faithful past s.context) :
    Faithful (traceRepeating e s past) (tickRepeating e s).2.context := by
  rw [traceRepeating]
  cases hturn : s.turn? with
  | none =>
      rcases tickRepeating_of_turn?_none e hturn with hsame | ⟨r, -, hcounted⟩
      · rw [hsame]
        exact h
      · rw [hcounted]
        exact h
  | some r =>
      obtain ⟨-, -, -, hrun⟩ := tickRepeating_of_turn?_some e hturn
      rw [hrun]
      exact faithful_block (s := s.recounting r) h r.source

theorem faithful_tick (h : Faithful past s.context) (now : Nat) :
    Faithful (traceTick e now s past) (tick e now s).2.context := by
  rw [tick_run]
  exact faithful_repeating (faithful_deferred (faithful_completion (faithful_delays (s := s.awake) h) now))

theorem faithful_stop (h : Faithful past s.context) :
    Faithful (s.traceStop past) (stop e s).2.context := by
  obtain ⟨registry, memory, journal, hstop⟩ := stop_run e s
  rw [hstop]
  exact h.build s.config e.hasCheckers

theorem faithful_guard (h : Faithful past s.context) : Faithful (s.traceGuard past) (s.guarded e).context := by
  rw [traceGuard]
  split
  · rename_i hrunning
    rw [guarded_of_running e hrunning]
    exact faithful_stop (s := (note [.warn (misuseMessage s.state.display)] s).2) h
  · rename_i hidle
    rw [guarded_of_not_running e hidle]
    exact h

end

end Scheduler

theorem Request.faithful {e : Embedding σ} {s : Scheduler σ} {past : CallTrace}
    (h : CallTrace.Faithful past s.context) (request : Request σ) :
    CallTrace.Faithful (request.trace e s past) (request.perform e s).2.context := by
  cases request with
  | block source =>
      show CallTrace.Faithful _ (executeBlock e source s).2.context
      rw [executeBlock_run]
      exact faithful_block (faithful_guard h) source
  | once source =>
      show CallTrace.Faithful _ (executeOnce e source s).2.context
      rw [executeOnce_run]
      exact faithful_guard h
  | units parts =>
      show CallTrace.Faithful _ (executeOnce e (SourceUnit.concat parts) s).2.context
      rw [executeOnce_run]
      exact faithful_guard h
  | repeating source every =>
      show CallTrace.Faithful _ (executeRepeating e source every s).2.context
      rw [executeRepeating_run]
      exact faithful_guard h
  | tick now => exact faithful_tick h now
  | stop => exact faithful_stop h
  | dismiss =>
      refine h.still rfl fun r hr => ?_
      obtain ⟨r', hr', rfl⟩ := Option.map_eq_some_iff.mp hr
      exact ⟨r', hr', rfl⟩
  | configure | change | pass => exact h.still rfl fun r hr => ⟨r, hr, rfl⟩

namespace Scheduler

open CallTrace (Faithful)

theorem faithful_run {e : Embedding σ} (requests : List (Request σ)) {s : Scheduler σ} {past : CallTrace}
    (h : Faithful past s.context) : Faithful (traceRun e requests s past) (run e requests s).context := by
  induction requests generalizing s past with
  | nil => exact h
  | cons request rest ih => exact ih (request.faithful h)

/-- The report that a block gives back is the last thing in its trace. -/
theorem traceBlock_of_error {e : Embedding σ} {source : String} {s : Scheduler σ} {report : Report}
    (h : (runBlock e source s).1 = .error report) (past : CallTrace) :
    ∃ before, traceBlock e source s past = before ++ [.reported report] := by
  have hresult := runBlock_result e source s
  rw [traceBlock, traceGuest]
  generalize (s.begun source).guestRun e (e.engine.execute source) = final at hresult ⊢
  obtain ⟨result, session⟩ := final
  cases result with
  | ok values =>
      obtain ⟨converted, hconverted⟩ := hresult
      rw [h] at hconverted
      cases hconverted
  | error fault =>
      obtain ⟨journal, hfail⟩ := fail_run fault ((s.begun source).withSession session)
      dsimp only at hresult ⊢
      rw [h] at hresult
      rw [hfail, Except.error.inj hresult]
      exact ⟨_, rfl⟩

/-! ### Lives of a program -/

end Scheduler

/-- The environment is built anew when a request is made. -/
def Request.rebuilds (s : Scheduler σ) : Request σ → Bool
  | .stop => true
  | .block _ | .once _ | .units _ | .repeating _ _ => s.state = .running
  | .tick _ | .dismiss | .configure _ | .change _ | .pass _ _ => false

/-- There is room for the environment a request has built, and no collapse comes out of guest code. -/
structure Request.Survived (e : Embedding σ) (s : Scheduler σ) (request : Request σ) : Prop where
  room : request.rebuilds s = true →
    e.host.machine.hasRoom CallRecord.width s.config.historyCapacity.toNat = true
  calm : (request.perform e s).2.session.memory.collapse = none

/-- A request that the program may not survive. -/
def Request.attempt (e : Embedding σ) (s : Scheduler σ) (request : Request σ) :
    Except Collapse (Unit × Scheduler σ) :=
  Scheduler.attempt e (request.rebuilds s) (request.perform e) s

theorem Request.attempt_ok_iff {e : Embedding σ} {s : Scheduler σ} {request : Request σ}
    {after : Unit × Scheduler σ} :
    request.attempt e s = .ok after ↔ request.Survived e s ∧ request.perform e s = after := by
  have hreserve : Environment.reserve e s.config = none ↔ _ :=
    e.host.machine.reserve_eq_none_iff CallRecord.width s.config.historyCapacity.toNat
  have hroom : (if request.rebuilds s then Environment.reserve e s.config else none) = none ↔
      (request.rebuilds s = true →
        e.host.machine.hasRoom CallRecord.width s.config.historyCapacity.toNat = true) := by
    rw [← hreserve]
    cases request.rebuilds s <;> simp
  have hsurvived : request.Survived e s ↔
      (if request.rebuilds s then Environment.reserve e s.config else none) = none ∧
        (request.perform e s).2.session.memory.collapse = none :=
    ⟨fun h => ⟨hroom.mpr h.room, h.calm⟩, fun h => ⟨hroom.mp h.1, h.2⟩⟩
  rw [hsurvived, attempt, Scheduler.attempt]
  generalize (if request.rebuilds s then Environment.reserve e s.config else none) = reserved
  generalize request.perform e s = performed
  obtain ⟨a, s'⟩ := performed
  cases reserved with
  | some collapse => simp
  | none => cases hcalm : s'.session.memory.collapse <;> simp [hcalm]

namespace Scheduler

/-- A series of requests for as long as the program survives them. -/
def live (e : Embedding σ) : List (Request σ) → Scheduler σ → Except Collapse (Scheduler σ)
  | [], s => .ok s
  | request :: rest, s => do
    let (_, s) ← request.attempt e s
    live e rest s

/-- The whole life of a scheduler, its creation included. -/
def lifeOf (e : Embedding σ) (config : Config) (application : HostState σ) (requests : List (Request σ)) :
    Except Collapse (Scheduler σ) :=
  create e config application >>= live e requests

/-- A program lives through requests just when it survives each one after those before it. -/
theorem live_ok_iff {e : Embedding σ} {requests : List (Request σ)} {s s' : Scheduler σ} :
    live e requests s = .ok s' ↔
      (∀ before request, before ++ [request] <+: requests → request.Survived e (run e before s)) ∧
        s' = run e requests s := by
  induction requests generalizing s with
  | nil =>
      refine ⟨fun h => ⟨fun before request hbefore => ?_, (Except.ok.inj h).symm⟩, fun h => congrArg _ h.2.symm⟩
      simp at hbefore
  | cons request rest ih =>
      have hhere : (∀ before later, before ++ [later] <+: request :: rest → later.Survived e (run e before s)) ↔
          request.Survived e s ∧ ∀ before later, before ++ [later] <+: rest →
            later.Survived e (run e before (request.perform e s).2) := by
        constructor
        · intro h
          exact ⟨h [] request (List.prefix_append [request] rest), fun before later hbefore =>
            h (request :: before) later (List.cons_prefix_cons.mpr ⟨rfl, hbefore⟩)⟩
        · rintro ⟨hfirst, hrest⟩ before later hbefore
          cases before with
          | nil =>
              obtain ⟨rfl, -⟩ := List.cons_prefix_cons.mp hbefore
              exact hfirst
          | cons first before =>
              obtain ⟨rfl, hlater⟩ := List.cons_prefix_cons.mp hbefore
              exact hrest before later hlater
      rw [hhere, run, and_assoc, ← ih, live]
      cases hattempt : request.attempt e s with
      | error collapse =>
          refine ⟨nofun, fun ⟨hsurvived, _⟩ => ?_⟩
          cases (Request.attempt_ok_iff.mpr ⟨hsurvived, rfl⟩).symm.trans hattempt
      | ok after =>
          obtain ⟨hsurvived, rfl⟩ := Request.attempt_ok_iff.mp hattempt
          exact (and_iff_right hsurvived).symm

/-- A program has a life just when there is room for its first history and it survives every request. -/
theorem lifeOf_ok_iff {e : Embedding σ} {config : Config} {application : HostState σ}
    {requests : List (Request σ)} {s : Scheduler σ} :
    lifeOf e config application requests = .ok s ↔
      e.host.machine.hasRoom CallRecord.width config.historyCapacity.toNat = true ∧
        (∀ before request, before ++ [request] <+: requests →
          request.Survived e (run e before (new e config application))) ∧
        s = run e requests (new e config application) := by
  rw [lifeOf]
  cases hcreate : create e config application with
  | error collapse =>
      refine ⟨nofun, fun ⟨hroom, _⟩ => ?_⟩
      cases (create_ok_iff.mpr ⟨hroom, rfl⟩).symm.trans hcreate
  | ok fresh =>
      obtain ⟨hroom, rfl⟩ := create_ok_iff.mp hcreate
      exact live_ok_iff.trans (and_iff_right hroom).symm

open CallTrace (Faithful)

/-- Of three calls a history with room for two shows the last two. -/
example :
    let life := lifeOf refusing { Config.standard with historyCapacity := 2 } ⟨(), .empty⟩
      [.block "Inner() Inner(nil) Inner(nil, true)"]
    life.toOption.map callHistory = some [⟨"Inner", "nil"⟩, ⟨"Inner", "nil, boolean"⟩] := by
  decide +kernel

end Scheduler
end ScriptBridge
