import ScriptBridge.Proofs.ExclusiveRuns

/-! The cadence of a repeated block. Its counter goes on in idle ticks only, and starts one short of the
period; so left to itself the block runs in the first idle tick and then in every so many of them, however
long what it leaves behind keeps other ticks busy. -/

namespace ScriptBridge

variable {σ : Type}

/-- A source is handed over, or what is armed is dropped. -/
def Happening.disturbs : Happening → Bool
  | .submitted .. | .stopped | .faulted _ => true
  | _ => false

theorem no_fault_of_undisturbed {h : History} (hcalm : ∀ x ∈ h, x.disturbs = false) (fault : Guest.Fault) :
    .faulted fault ∉ h :=
  fun hmem => by cases hcalm _ hmem

theorem Acts.calm {c c' : Context} {h : History} (hacts : Acts c h c') : ∀ x ∈ h, x.disturbs = false := by
  induction hacts with
  | rest => simp
  | more hact _ ih => exact List.forall_mem_cons.mpr ⟨by cases hact <;> rfl, ih⟩

/-- The blocks that start in a quiet history are none. -/
theorem begins_of_quiet {h : History} (hquiet : ∀ x ∈ h, x.isQuiet) : h.filter Happening.isBegin = [] := by
  have hzero : blocksIn h = 0 := blocksIn_eq_zero hquiet
  rw [blocksIn, List.countP_eq_length_filter] at hzero
  exact List.eq_nil_of_length_eq_zero hzero

namespace Scheduler

/-! ### What is armed -/

/-- Whether an error is reported, and what is armed. -/
def arms (s : Scheduler σ) : Bool × Option String × Option Repeating :=
  (s.errorReported, s.deferred, s.repeating)

section

variable {e : Embedding σ} {s : Scheduler σ} {h : History}

/-- Guest code that does not fault leaves alone what is armed. -/
theorem GuestHistory.arms {code : Guest.State → Guest.Run (List Guest.Value)} (hguest : GuestHistory e code s h)
    (hno : ∀ fault, .faulted fault ∉ h) : (s.settled (s.guestRun e code)).arms = s.arms := by
  obtain ⟨acts, -, rfl⟩ := hguest
  generalize s.guestRun e code = final at hno ⊢
  obtain ⟨result, session⟩ := final
  cases result with
  | ok values => rfl
  | error fault => exact absurd (List.mem_append_right _ List.mem_cons_self) (hno fault)

theorem ResumeHistory.arms {label : String} {which : Waiting} {callback : Guest.Function}
    (hresume : ResumeHistory e label which callback s h) (hno : ∀ fault, .faulted fault ∉ h) :
    (resume e label callback s).2.arms = s.arms := by
  obtain ⟨rest, hguest, rfl⟩ := hresume
  obtain ⟨journal, hrun⟩ := resume_run e label callback s
  rw [hrun]
  exact hguest.arms fun fault hmem => hno fault (List.mem_cons_of_mem _ hmem)

theorem BlockHistory.arms {cause : Cause} {source : String} (hblock : BlockHistory e cause source s h)
    (hno : ∀ fault, .faulted fault ∉ h) : (runBlock e source s).2.arms = (false, s.deferred, s.repeating) := by
  obtain ⟨rest, hguest, rfl⟩ := hblock
  obtain ⟨journal, hrun⟩ := runBlock_run e source s
  rw [hrun]
  exact hguest.arms fun fault hmem => hno fault (List.mem_cons_of_mem _ hmem)

theorem DelaysHistory.arms (hdelays : DelaysHistory e s h) (hno : ∀ fault, .faulted fault ∉ h) :
    (tickDelays e s).2.arms = s.arms := by
  unfold DelaysHistory at hdelays
  rw [tickDelays_run]
  cases hdue : s.dueDelay? with
  | none => rfl
  | some d =>
      rw [hdue] at hdelays
      exact hdelays.arms hno

theorem PollHistory.arms {now : Nat} (hpoll : PollHistory e now s h) (hno : ∀ fault, .faulted fault ∉ h) :
    (tickCompletion e now s).2.arms = s.arms := by
  unfold PollHistory at hpoll
  rw [tickCompletion_run]
  cases hdue : s.dueWait? now with
  | none => rfl
  | some wait =>
      rw [hdue] at hpoll
      exact hpoll.arms hno

theorem BlockHistory.begins {cause : Cause} {source : String} (hblock : BlockHistory e cause source s h) :
    h.filter Happening.isBegin = [.began cause source s.context.hasPendingWork] := by
  obtain ⟨rest, hguest, rfl⟩ := hblock
  rw [List.filter_cons_of_pos rfl, begins_of_quiet hguest.quiet]

end

/-! ### Idle ticks -/

/-- Nothing waits any more in a tick once its delays and its completion wait have had their turn. -/
def idlesIn (e : Embedding σ) (now : Nat) (s : Scheduler σ) : Bool :=
  !(s.afterPoll e now).context.hasPendingWork

end Scheduler

open Scheduler

/-- A request is an idle tick. -/
def Request.idles (e : Embedding σ) (s : Scheduler σ) : Request σ → Bool
  | .tick now => s.idlesIn e now
  | _ => false

/-- A request that does not disturb what is armed is a tick, or leaves alone what is armed and what waits. -/
theorem Request.HasHistory.calm {e : Embedding σ} {s : Scheduler σ} {request : Request σ} {h : History}
    (hhistory : request.HasHistory e s h) (hcalm : ∀ x ∈ h, x.disturbs = false) :
    (∃ now, request = .tick now) ∨ request.idles e s = false ∧ (request.perform e s).2.arms = s.arms ∧
      (request.perform e s).2.context.hasPendingWork = s.context.hasPendingWork := by
  cases request with
  | tick now => exact .inl ⟨now, rfl⟩
  | dismiss | configure | change => exact .inr ⟨rfl, rfl, rfl⟩
  | pass span now => exact .inr ⟨rfl, rfl, Context.hasPendingWork_elapse _ _ _⟩
  | stop =>
      rw [show h = _ from hhistory] at hcalm
      cases hcalm _ List.mem_cons_self
  | once | units | repeating =>
      rw [show h = _ from hhistory] at hcalm
      cases hcalm _ (List.mem_append_right _ List.mem_cons_self)
  | block source =>
      obtain ⟨more, -, rfl⟩ := hhistory
      cases hcalm _ (List.mem_append_right _ List.mem_cons_self)

namespace Scheduler

/-- The idle ticks of a run. -/
def idleTicks (e : Embedding σ) : List (Request σ) → Scheduler σ → Nat
  | [], _ => 0
  | request :: rest, s => (request.idles e s).toNat + idleTicks e rest (request.perform e s).2

/-- With nothing waiting before it a tick is idle. -/
theorem idlesIn_of_idle (e : Embedding σ) (now : Nat) {s : Scheduler σ} (h : s.context.hasPendingWork = false) :
    s.idlesIn e now = true := by
  obtain ⟨hdelay, hadvanced⟩ := Context.idle_advanceDelays h
  have hdue : s.awake.dueDelay? = none := hdelay
  have hdelays : s.afterDelays e = s.awake.advanced := by rw [afterDelays, tickDelays_run, hdue]
  obtain ⟨hwait, hpolled⟩ := Context.idle_pollCompletion hadvanced now s.awake.advanced.board.isRaised
  have hpoll : s.afterPoll e now = s.awake.advanced.polled now := by
    rw [afterPoll, hdelays, tickCompletion_run, show s.awake.advanced.dueWait? now = none from hwait]
  rw [idlesIn, hpoll, show (s.awake.advanced.polled now).context.hasPendingWork = false from hpolled]
  rfl

/-! ### The counter -/

/-- What the counter of a period shows after so many idle ticks. -/
def elapsedAfter (period idle : Nat) : Nat := (idle + (period - 1)) % period

theorem elapsedAfter_lt {period : Nat} (hperiod : 0 < period) (idle : Nat) : elapsedAfter period idle < period :=
  Nat.mod_lt _ hperiod

/-- It is full just when the idle ticks fill whole periods. -/
theorem elapsedAfter_full_iff {period : Nat} (hperiod : 0 < period) (idle : Nat) :
    ¬ elapsedAfter period idle + 1 < period ↔ period ∣ idle := by
  have hsucc : (elapsedAfter period idle + 1) % period = idle % period := by
    rw [elapsedAfter, Nat.mod_add_mod, show idle + (period - 1) + 1 = idle + period by omega, Nat.add_mod_right]
  have hlt := elapsedAfter_lt hperiod idle
  constructor
  · intro hfull
    rw [show elapsedAfter period idle + 1 = period by omega, Nat.mod_self] at hsucc
    exact Nat.dvd_of_mod_eq_zero hsucc.symm
  · intro hdvd hshort
    rw [Nat.mod_eq_of_lt hshort, Nat.mod_eq_zero_of_dvd hdvd] at hsucc
    cases hsucc

theorem elapsedAfter_succ {period : Nat} (hperiod : 0 < period) (idle : Nat) :
    elapsedAfter period (idle + 1) =
      if elapsedAfter period idle + 1 < period then elapsedAfter period idle + 1 else 0 := by
  have hsucc : elapsedAfter period (idle + 1) = (elapsedAfter period idle + 1) % period := by
    rw [elapsedAfter, elapsedAfter, Nat.mod_add_mod, Nat.add_right_comm]
  have hlt := elapsedAfter_lt hperiod idle
  rw [hsucc]
  split
  · rename_i hshort
    exact Nat.mod_eq_of_lt hshort
  · rw [show elapsedAfter period idle + 1 = period by omega, Nat.mod_self]

/-- A repeated block has been left to itself for so many idle ticks. -/
structure OnBeat (source : String) (period idle : Nat) (s : Scheduler σ) : Prop where
  deferred : s.deferred = none
  repeating : s.repeating = some ⟨source, period, elapsedAfter period idle⟩

theorem OnBeat.of_arms {source : String} {period idle : Nat} {s s' : Scheduler σ}
    (h : s.OnBeat source period idle) (harms : s'.arms = s.arms) : s'.OnBeat source period idle := by
  obtain ⟨-, hdeferred, hrepeating⟩ : s'.errorReported = s.errorReported ∧ s'.deferred = s.deferred ∧
      s'.repeating = s.repeating := by simpa [arms] using harms
  exact ⟨hdeferred.trans h.deferred, hrepeating.trans h.repeating⟩

/-! ### One tick -/

section

variable {e : Embedding σ} {now : Nat} {source : String} {period idle : Nat} {s : Scheduler σ} {h : History}

/-- The turn of the block has come when nothing waits and its counter is full. -/
theorem OnBeat.turn?_eq (hbeat : s.OnBeat source period idle) :
    s.turn? = if !s.context.hasPendingWork && decide (period ≤ elapsedAfter period idle + 1) then
      some ⟨source, period, elapsedAfter period idle⟩ else none := by
  rw [turn?, hbeat.deferred, hbeat.repeating]
  cases s.context.hasPendingWork with
  | true => rfl
  | false =>
      by_cases hfull : period ≤ elapsedAfter period idle + 1
      · simp [hfull]
      · simp [hfull, Option.filter]

/-- While something waits the counter stands still. -/
theorem OnBeat.turn_of_busy (hbeat : s.OnBeat source period idle) (hbusy : s.context.hasPendingWork = true)
    (hrepeating : RepeatingHistory e s h) : (tickRepeating e s).2 = s ∧ h = [] := by
  have hturn : s.turn? = none := by
    rw [hbeat.turn?_eq, hbusy]
    rfl
  rw [RepeatingHistory, hturn] at hrepeating
  rw [tickRepeating_run, hbusy]
  exact ⟨rfl, hrepeating⟩

/-- Until the counter is full it goes on. -/
theorem OnBeat.turn_of_early (hbeat : s.OnBeat source period idle) (hidle : s.context.hasPendingWork = false)
    (hearly : elapsedAfter period idle + 1 < period) (hrepeating : RepeatingHistory e s h) :
    (tickRepeating e s).2 = { s with repeating := some ⟨source, period, elapsedAfter period idle + 1⟩ } ∧
      h = [] := by
  have hturn : s.turn? = none := by
    rw [hbeat.turn?_eq, decide_eq_false (Nat.not_le.mpr hearly), Bool.and_false]
    rfl
  rw [RepeatingHistory, hturn] at hrepeating
  rw [tickRepeating_run, if_neg (by simp [hidle, hbeat.deferred]), hbeat.repeating]
  exact ⟨if_pos hearly, hrepeating⟩

/-- Then the block runs, and the counter starts anew. -/
theorem OnBeat.turn_of_full (hbeat : s.OnBeat source period idle) (hidle : s.context.hasPendingWork = false)
    (hfull : period ≤ elapsedAfter period idle + 1) (hrepeating : RepeatingHistory e s h)
    (hno : ∀ fault, .faulted fault ∉ h) :
    (tickRepeating e s).2.arms = (false, none, some ⟨source, period, 0⟩) ∧
      h.filter Happening.isBegin = [.began .repeated source false] := by
  have hturn : s.turn? = some ⟨source, period, elapsedAfter period idle⟩ := by
    rw [hbeat.turn?_eq, hidle, decide_eq_true hfull]
    rfl
  rw [RepeatingHistory, hturn] at hrepeating
  obtain ⟨-, hdeferred, -, hblock⟩ := tickRepeating_of_turn?_some e hturn
  rw [hblock, hrepeating.arms hno, hrepeating.begins]
  refine ⟨?_, congrArg (fun waiting => [Happening.began .repeated source waiting]) hidle⟩
  show (false, s.deferred, some _) = _
  rw [hdeferred]

/-- What is left of a tick when the delays and the completion wait have had their turn. -/
theorem OnBeat.turn (hbeat : s.OnBeat source period idle) (hperiod : 0 < period)
    (hreported : s.errorReported = false) (hrepeating : RepeatingHistory e s h) (hno : ∀ fault, .faulted fault ∉ h) :
    (tickRepeating e s).2.OnBeat source period (idle + (!s.context.hasPendingWork).toNat) ∧
      (tickRepeating e s).2.errorReported = false ∧
      h.filter Happening.isBegin =
        if !s.context.hasPendingWork && decide (period ∣ idle) then [.began .repeated source false] else [] := by
  cases hwaiting : s.context.hasPendingWork with
  | true =>
      obtain ⟨hrun, rfl⟩ := hbeat.turn_of_busy hwaiting hrepeating
      rw [hrun]
      exact ⟨hbeat, hreported, rfl⟩
  | false =>
      have hnext : elapsedAfter period (idle + (!false).toNat) = _ := elapsedAfter_succ hperiod idle
      have hdvd := elapsedAfter_full_iff hperiod idle
      by_cases hearly : elapsedAfter period idle + 1 < period
      · obtain ⟨hrun, rfl⟩ := hbeat.turn_of_early hwaiting hearly hrepeating
        have hlate : ¬ period ∣ idle := fun h => hdvd.mpr h hearly
        rw [if_pos hearly] at hnext
        rw [hrun]
        exact ⟨⟨hbeat.deferred, by rw [hnext]⟩, hreported, by simp [hlate]⟩
      · obtain ⟨harms, hbegins⟩ := hbeat.turn_of_full hwaiting (Nat.not_lt.mp hearly) hrepeating hno
        have htime : period ∣ idle := hdvd.mp hearly
        rw [if_neg hearly] at hnext
        obtain ⟨herror, hdeferred, harmed⟩ : (tickRepeating e s).2.errorReported = false ∧
            (tickRepeating e s).2.deferred = none ∧
            (tickRepeating e s).2.repeating = some ⟨source, period, 0⟩ := by simpa [arms] using harms
        exact ⟨⟨hdeferred, by rw [hnext, harmed]⟩, herror, by simp [hbegins, htime]⟩

/-- A tick goes one beat on if it is idle, and runs the block just when whole periods of idle ticks lie
behind it. -/
theorem OnBeat.tick (hbeat : s.OnBeat source period idle) (hperiod : 0 < period) (htick : TickHistory e now s h)
    (hno : ∀ fault, .faulted fault ∉ h) :
    (Scheduler.tick e now s).2.OnBeat source period (idle + (s.idlesIn e now).toNat) ∧
      (Scheduler.tick e now s).2.errorReported = false ∧
      (s.afterDeferred e now).OnBeat source period idle ∧
      h.filter Happening.isBegin =
        if s.idlesIn e now && decide (period ∣ idle) then [.began .repeated source false] else [] := by
  obtain ⟨h₁, h₂, h₃, h₄, hdelays, hpoll, hdeferred, hrepeating, rfl⟩ := htick
  have hparts : (∀ fault, .faulted fault ∉ h₁) ∧ (∀ fault, .faulted fault ∉ h₂) ∧
      ∀ fault, .faulted fault ∉ h₄ := by
    refine ⟨fun fault hmem => hno fault ?_, fun fault hmem => hno fault ?_, fun fault hmem => hno fault ?_⟩
    all_goals simp [hmem]
  obtain ⟨hno₁, hno₂, hno₄⟩ := hparts
  have harms : (s.afterPoll e now).arms = s.awake.arms := (hpoll.arms hno₂).trans (hdelays.arms hno₁)
  have hpolled : (s.afterPoll e now).OnBeat source period idle :=
    OnBeat.of_arms (s := s.awake) ⟨hbeat.deferred, hbeat.repeating⟩ harms
  have hreported : (s.afterPoll e now).errorReported = false := congrArg Prod.fst harms
  -- there is no deferred block to run
  have hsame : s.afterDeferred e now = s.afterPoll e now := by
    rw [afterDeferred, runDeferred_run, hpolled.deferred]
  rw [DeferredHistory, hpolled.deferred] at hdeferred
  rw [hsame] at hrepeating ⊢
  obtain ⟨hnext, herror, hbegins⟩ := hpolled.turn hperiod hreported hrepeating hno₄
  have hrun : (Scheduler.tick e now s).2 = (tickRepeating e (s.afterPoll e now)).2 := by
    rw [← hsame, tick_run]
    rfl
  rw [hrun]
  refine ⟨hnext, herror, hpolled, ?_⟩
  rw [hdeferred, List.nil_append, List.filter_cons_of_neg (by simp [Happening.isBegin]), List.filter_append,
    List.filter_cons_of_neg (by simp [Happening.isBegin]), List.filter_append, begins_of_quiet hdelays.quiet,
    begins_of_quiet hpoll.quiet]
  exact hbegins

end

/-! ### Many ticks -/

section

variable {e : Embedding σ} {source : String} {period : Nat}

/-- A repeated block stays on the beat for as long as it is left to itself. -/
theorem OnBeat.run {requests : List (Request σ)} {idle : Nat} {s : Scheduler σ} {h : History}
    (hbeat : s.OnBeat source period idle) (hperiod : 0 < period) (hchronicle : Chronicle e requests s h)
    (hcalm : ∀ x ∈ h, x.disturbs = false) :
    (Scheduler.run e requests s).OnBeat source period (idle + idleTicks e requests s) := by
  induction requests generalizing idle s h with
  | nil => exact hbeat
  | cons request rest ih =>
      obtain ⟨first, later, hfirst, hlater, rfl⟩ := hchronicle
      obtain ⟨hcalm₁, hcalm₂⟩ := List.forall_mem_append.mp hcalm
      rw [idleTicks, ← Nat.add_assoc]
      refine ih ?_ hlater hcalm₂
      rcases hfirst.calm hcalm₁ with ⟨now, rfl⟩ | ⟨hidles, harms, -⟩
      · exact (hbeat.tick hperiod hfirst (no_fault_of_undisturbed hcalm₁)).1
      · rw [hidles]
        exact hbeat.of_arms harms

/-- Without ticks nothing comes to wait. -/
theorem idle_run_of_no_tick {requests : List (Request σ)} {s : Scheduler σ} {h : History}
    (hidle : s.context.hasPendingWork = false) (hchronicle : Chronicle e requests s h)
    (hcalm : ∀ x ∈ h, x.disturbs = false) (hnone : ∀ now, .tick now ∉ requests) :
    (Scheduler.run e requests s).context.hasPendingWork = false := by
  induction requests generalizing s h with
  | nil => exact hidle
  | cons request rest ih =>
      obtain ⟨first, later, hfirst, hlater, rfl⟩ := hchronicle
      obtain ⟨hcalm₁, hcalm₂⟩ := List.forall_mem_append.mp hcalm
      have hrest : ∀ now, .tick now ∉ rest := fun now hmem => hnone now (List.mem_cons_of_mem _ hmem)
      refine ih ?_ hlater hcalm₂ hrest
      rcases hfirst.calm hcalm₁ with ⟨now, rfl⟩ | ⟨-, -, hsame⟩
      · exact absurd List.mem_cons_self (hnone now)
      · exact hsame.trans hidle

end

/-- A source that has just been handed over to be repeated, where no other one is armed. -/
theorem onBeat_executeRepeating (e : Embedding σ) (source : String) (every : Nat) {s : Scheduler σ}
    (hfree : s.deferred = none) : (executeRepeating e source every s).2.OnBeat source (max every 1) 0 := by
  have hguarded : (s.guarded e).deferred = none := by
    by_cases hrunning : s.state = .running
    · obtain ⟨registry, memory, journal, hstop⟩ := stop_run e (note [.warn (misuseMessage s.state.display)] s).2
      rw [guarded_of_running e hrunning, hstop]
    · rw [guarded_of_not_running e hrunning]
      exact hfree
  have helapsed : elapsedAfter (max every 1) 0 = max every 1 - 1 := by
    rw [elapsedAfter, Nat.zero_add]
    exact Nat.mod_eq_of_lt (by omega)
  rw [executeRepeating_run]
  exact ⟨hguarded, by rw [helapsed]⟩

/-- **A repeated block keeps its cadence.** After a source has been handed over to be repeated, with none
deferred beside it, and for as long as nothing else is handed over, stopped, or faults, a tick runs the block
just when it is idle and the idle ticks before it fill whole periods, so in the first idle tick and then once
in every period of them; no tick runs another block. The first tick is idle, the counter never goes beyond the
period, and the scheduler is running after every tick. Delays and completion waits may come and go, time may
pass, and the application and the configuration may change as they like. -/
theorem repetition_cadence (e : Embedding σ) (config : Config) (application : HostState σ)
    (before : List (Request σ)) (source : String) (every : UInt64) :
    let start := run e before (new e config application)
    let armed := (executeRepeating e source every.toNat start).2
    let period := max every.toNat 1
    start.deferred = none → ∀ (past : List (Request σ)) (now : Nat) (h g : History),
      let s := run e past armed
      Chronicle e past armed h → TickHistory e now s g → (∀ x ∈ h ++ g, x.disturbs = false) →
        (g.filter Happening.isBegin =
          if s.idlesIn e now && decide (period ∣ idleTicks e past armed) then [.began .repeated source false]
          else []) ∧
        ((∀ earlier, .tick earlier ∉ past) → s.idlesIn e now = true) ∧
        (∃ elapsed, (s.afterDeferred e now).repeating = some ⟨source, period, elapsed⟩ ∧
          elapsed + 1 ≤ period ∧ period < UInt64.size) ∧
        (tick e now s).2.state = .running := by
  intro start armed period hfree past now h g s hpast htick hcalm
  obtain ⟨hcalm₁, hcalm₂⟩ := List.forall_mem_append.mp hcalm
  have hperiod : 0 < period := Nat.lt_of_lt_of_le Nat.one_pos (Nat.le_max_right _ _)
  have hbeat : s.OnBeat source period (idleTicks e past armed) := by
    have hrun := (onBeat_executeRepeating e source every.toNat hfree).run hperiod hpast hcalm₁
    rwa [Nat.zero_add] at hrun
  obtain ⟨hnext, herror, hturn, hbegins⟩ := hbeat.tick hperiod htick (no_fault_of_undisturbed hcalm₂)
  refine ⟨hbegins, fun hnone => ?_, ⟨_, hturn.repeating, elapsedAfter_lt hperiod _, ?_⟩, ?_⟩
  · have hsound : start.outline.Sound := run_sound e config application before
    have hidle : armed.context.hasPendingWork = false := by
      show (executeRepeating e source every.toNat start).2.context.hasPendingWork = false
      rw [executeRepeating_run]
      exact guarded_idle e hsound
    exact idlesIn_of_idle e now (idle_run_of_no_tick hidle hpast hcalm₁ hnone)
  · exact Nat.max_lt.mpr ⟨every.toNat_lt_size, by decide⟩
  · rw [state, herror, hnext.repeating]
    simp

/-! ### Guest code that never faults -/

/-- No code of the guest language faults. -/
structure Faultless (e : Embedding σ) : Prop where
  execute : ∀ source (s : Scheduler σ), ∃ values, (s.guestRun e (e.engine.execute source)).1 = .ok values
  apply : ∀ callback (s : Scheduler σ), ∃ values, (s.guestRun e (e.engine.apply callback [])).1 = .ok values

section

variable {e : Embedding σ} {s : Scheduler σ} {h : History}

theorem GuestHistory.calm {code : Guest.State → Guest.Run (List Guest.Value)} (hguest : GuestHistory e code s h)
    (hok : ∃ values, (s.guestRun e code).1 = .ok values) : ∀ x ∈ h, x.disturbs = false := by
  obtain ⟨acts, hacts, rfl⟩ := hguest
  obtain ⟨values, hok⟩ := hok
  rw [hok, ending, List.append_nil]
  exact hacts.calm

theorem ResumeHistory.calm {label : String} {which : Waiting} {callback : Guest.Function}
    (hresume : ResumeHistory e label which callback s h) (hfaultless : Faultless e) :
    ∀ x ∈ h, x.disturbs = false := by
  obtain ⟨rest, hguest, rfl⟩ := hresume
  exact List.forall_mem_cons.mpr ⟨rfl, hguest.calm (hfaultless.apply callback _)⟩

theorem BlockHistory.calm {cause : Cause} {source : String} (hblock : BlockHistory e cause source s h)
    (hfaultless : Faultless e) : ∀ x ∈ h, x.disturbs = false := by
  obtain ⟨rest, hguest, rfl⟩ := hblock
  exact List.forall_mem_cons.mpr ⟨rfl, hguest.calm (hfaultless.execute source _)⟩

theorem TickHistory.calm {now : Nat} (htick : TickHistory e now s h) (hfaultless : Faultless e) :
    ∀ x ∈ h, x.disturbs = false := by
  obtain ⟨h₁, h₂, h₃, h₄, hdelays, hpoll, hdeferred, hrepeating, rfl⟩ := htick
  have hcalm₁ : ∀ x ∈ h₁, x.disturbs = false := by
    unfold DelaysHistory at hdelays
    split at hdelays
    · exact hdelays.calm hfaultless
    · simp [hdelays]
  have hcalm₂ : ∀ x ∈ h₂, x.disturbs = false := by
    unfold PollHistory at hpoll
    split at hpoll
    · exact hpoll.calm hfaultless
    · simp [hpoll]
  have hcalm₃ : ∀ x ∈ h₃, x.disturbs = false := by
    unfold DeferredHistory at hdeferred
    split at hdeferred
    · exact hdeferred.calm hfaultless
    · simp [hdeferred]
  have hcalm₄ : ∀ x ∈ h₄, x.disturbs = false := by
    unfold RepeatingHistory at hrepeating
    split at hrepeating
    · exact hrepeating.calm hfaultless
    · simp [hrepeating]
  simp only [List.forall_mem_cons, List.forall_mem_append]
  exact ⟨rfl, hcalm₁, rfl, hcalm₂, hcalm₃, hcalm₄⟩

/-- Ticks alone do not disturb what is armed. -/
theorem calm_of_ticks (nows : List Nat) (hchronicle : Chronicle e (nows.map .tick) s h)
    (hfaultless : Faultless e) : ∀ x ∈ h, x.disturbs = false := by
  induction nows generalizing s h with
  | nil =>
      rw [show h = [] from hchronicle]
      exact fun x hx => by cases hx
  | cons now rest ih =>
      obtain ⟨first, later, hfirst, hlater, rfl⟩ := hchronicle
      exact List.forall_mem_append.mpr ⟨TickHistory.calm hfirst hfaultless, ih hlater⟩

end

/-- An application with nothing to offer and a guest language in which every source waits for two ticks. -/
def pausing : Embedding Unit where
  engine := {
    execute := fun _ memory =>
      .call 7 [.int 2, .function (.published 0)] none memory fun _ memory => .finished (.ok []) memory
    apply := fun _ _ memory => .finished (.ok []) memory
    index := fun _ _ memory => .finished (.ok .nil) memory }
  host := .bare Unit
  hasCheckers := false

theorem faultless_pausing : Faultless pausing where
  execute _ _ := ⟨[], rfl⟩
  apply _ _ := ⟨[], rfl⟩

/-- A block of period two that waits after each run: the second tick is not idle, the third is too early, and in
the fourth, the third idle one, the block runs again. -/
theorem runs_in_fourth_tick :
    let start := new pausing .standard ⟨(), .empty⟩
    let armed := (executeRepeating pausing "beat" (2 : UInt64).toNat start).2
    start.deferred = none ∧
      (run pausing [.tick 0] armed).idlesIn pausing 0 = false ∧
      (∃ h g, Chronicle pausing [.tick 0, .tick 0] armed h ∧
        TickHistory pausing 0 (run pausing [.tick 0, .tick 0] armed) g ∧ (∀ x ∈ h ++ g, x.disturbs = false) ∧
        g.filter Happening.isBegin = []) ∧
      ∃ h g, Chronicle pausing [.tick 0, .tick 0, .tick 0] armed h ∧
        TickHistory pausing 0 (run pausing [.tick 0, .tick 0, .tick 0] armed) g ∧
        (∀ x ∈ h ++ g, x.disturbs = false) ∧ g.filter Happening.isBegin = [.began .repeated "beat" false] := by
  intro start armed
  have hfree : start.deferred = none := rfl
  refine ⟨hfree, by decide +kernel, ?_, ?_⟩
  · obtain ⟨h, hpast⟩ := exists_chronicle pausing [.tick 0, .tick 0] armed
    obtain ⟨g, htick⟩ := exists_tickHistory pausing 0 (run pausing [.tick 0, .tick 0] armed)
    have hcalm : ∀ x ∈ h ++ g, x.disturbs = false := List.forall_mem_append.mpr
      ⟨calm_of_ticks [0, 0] hpast faultless_pausing, htick.calm faultless_pausing⟩
    have hbegins : _ = if (_ && decide (max (2 : UInt64).toNat 1 ∣ idleTicks pausing _ armed)) = true then _ else _ :=
      (repetition_cadence pausing .standard ⟨(), .empty⟩ [] "beat" 2 hfree _ 0 h g hpast htick hcalm).1
    have hidle : idleTicks pausing [.tick 0, .tick 0] armed = 1 := by decide +kernel
    refine ⟨h, g, hpast, htick, hcalm, ?_⟩
    rw [hbegins, hidle]
    simp
  · obtain ⟨h, hpast⟩ := exists_chronicle pausing [.tick 0, .tick 0, .tick 0] armed
    obtain ⟨g, htick⟩ := exists_tickHistory pausing 0 (run pausing [.tick 0, .tick 0, .tick 0] armed)
    have hcalm : ∀ x ∈ h ++ g, x.disturbs = false := List.forall_mem_append.mpr
      ⟨calm_of_ticks [0, 0, 0] hpast faultless_pausing, htick.calm faultless_pausing⟩
    have hbegins : _ = if (Scheduler.idlesIn _ _ (run pausing _ armed) &&
        decide (max (2 : UInt64).toNat 1 ∣ idleTicks pausing _ armed)) = true then _ else _ :=
      (repetition_cadence pausing .standard ⟨(), .empty⟩ [] "beat" 2 hfree _ 0 h g hpast htick hcalm).1
    have hidle : idleTicks pausing [.tick 0, .tick 0, .tick 0] armed = 2 := by decide +kernel
    have hidles : (run pausing [.tick 0, .tick 0, .tick 0] armed).idlesIn pausing 0 = true := by decide +kernel
    refine ⟨h, g, hpast, htick, hcalm, ?_⟩
    rw [hbegins, hidle, hidles]
    rfl

end Scheduler
end ScriptBridge
