import ScriptBridge.Proofs.Chronicle
import ScriptBridge.Proofs.PendingWork

/-! When continuations are resumed. Every continuation that waits has a registration behind it that still
stands: nothing that has happened since has used it up or dropped it, and the ticks since then have been
counted off its delay. A resumption is the end of a registration that stands, so in no run is a
continuation resumed twice for one registration, too early, without its flag, or after a stop. -/

namespace ScriptBridge

variable {σ : Type}

/-! ### Registrations -/

/-- What a continuation that waits does not survive. A number may be given again after a stop, so a
registration with the same number ends the one before it. -/
def Happening.Ends (which : Waiting) : Happening → Prop
  | .submitted _ _ | .stopped | .faulted _ => True
  | .resumed which' _ => which' = which
  | .delayed seq _ _ _ => which = .delay seq
  | .awaited _ _ _ => ∃ id, which = .completion id
  | _ => False

def Happening.isTick : Happening → Bool
  | .ticked => true
  | _ => false

/-- Ticks that have begun. -/
def ticksIn (h : History) : Nat := h.countP Happening.isTick

theorem ticksIn_append (h h' : History) : ticksIn (h ++ h') = ticksIn h + ticksIn h' := List.countP_append

/-- A registration has happened, and nothing since then has ended it. -/
structure Stands (past : History) (registration : Happening) (which : Waiting) (since : History) : Prop where
  registered : ∃ earlier, past = earlier ++ registration :: since
  unended : ∀ x ∈ since, ¬ x.Ends which

namespace Stands

variable {past since : History} {registration : Happening} {which : Waiting}

theorem now (past : History) (registration : Happening) (which : Waiting) :
    Stands (past ++ [registration]) registration which [] where
  registered := ⟨past, rfl⟩
  unended := fun _ hx => absurd hx List.not_mem_nil

theorem append (h : Stands past registration which since) {more : History}
    (hmore : ∀ x ∈ more, ¬ x.Ends which) : Stands (past ++ more) registration which (since ++ more) where
  registered := by
    obtain ⟨earlier, rfl⟩ := h.registered
    exact ⟨earlier, by rw [List.append_assoc, List.cons_append]⟩
  unended := by
    intro x hx
    rcases List.mem_append.mp hx with hold | hnew
    · exact h.unended x hold
    · exact hmore x hnew

end Stands

/-- A continuation has the right to be resumed. A delay has waited for as many ticks as it was asked to
wait, and for one at least, if its target was in range; a completion wait has had its flag seen. -/
def Due (past : History) : Waiting → Guest.Function → Prop
  | .delay seq, callback => ∃ ticks counter since,
      Stands past (.delayed seq ticks counter callback) (.delay seq) since ∧
        (counter + max ticks 0 ≤ DelayQueue.greatest → max ticks 1 ≤ ticksIn since)
  | .completion id, callback => ∃ flag since,
      Stands past (.awaited id flag callback) (.completion id) since ∧
        ∃ board, .looked board ∈ since ∧ board.isRaised flag = true

/-- In a history only continuations that are due are resumed. -/
def Punctual (past : History) : Happening → Prop
  | .resumed which callback => Due past which callback
  | _ => True

/-! ### What waits -/

/-- A delay in the queue, with the steps that are left for it. -/
def DelayStands (past : History) (counter : Int) (d : Delay Guest.Function) : Prop :=
  ∃ ticks counter' since, Stands past (.delayed d.seq ticks counter' d.payload) (.delay d.seq) since ∧
    (counter' + max ticks 0 ≤ DelayQueue.greatest → d.target - counter + ticksIn since = max ticks 0)

/-- A wait for a flag. A report of it has been made only if the flag has been seen. -/
def WaitStands (past : History) (reports : List Nat) (wait : Wait Guest.Function) : Prop :=
  ∃ since, Stands past (.awaited wait.id wait.flag wait.callback) (.completion wait.id) since ∧
    (wait.id ∈ reports → ∃ board, .looked board ∈ since ∧ board.isRaised wait.flag = true)

theorem DelayStands.append {past more : History} {counter counter' : Int} {d d' : Delay Guest.Function}
    (h : DelayStands past counter d) (hmore : ∀ x ∈ more, ¬ x.Ends (.delay d.seq)) (hseq : d'.seq = d.seq)
    (hpayload : d'.payload = d.payload)
    (hleft : d'.target - counter' + ticksIn more = d.target - counter) : DelayStands (past ++ more) counter' d' := by
  obtain ⟨ticks, counter₀, since, hstands, hcount⟩ := h
  refine ⟨ticks, counter₀, since ++ more, ?_, fun hroom => ?_⟩
  · rw [hseq, hpayload]
    exact hstands.append hmore
  · have hbefore := hcount hroom
    rw [ticksIn_append]
    omega

theorem WaitStands.append {past more : History} {reports reports' : List Nat}
    {wait wait' : Wait Guest.Function} (h : WaitStands past reports wait)
    (hmore : ∀ x ∈ more, ¬ x.Ends (.completion wait.id)) (hid : wait'.id = wait.id)
    (hflag : wait'.flag = wait.flag) (hcallback : wait'.callback = wait.callback)
    (hreports : wait.id ∈ reports' → wait.id ∈ reports ∨
      ∃ board, .looked board ∈ more ∧ board.isRaised wait.flag = true) :
    WaitStands (past ++ more) reports' wait' := by
  obtain ⟨since, hstands, hseen⟩ := h
  rw [WaitStands, hid, hflag, hcallback]
  refine ⟨since ++ more, hstands.append hmore, fun hreport => ?_⟩
  rcases hreports hreport with hold | ⟨board, hlooked, hraised⟩
  · obtain ⟨board, hlooked, hraised⟩ := hseen hold
    exact ⟨board, List.mem_append_left _ hlooked, hraised⟩
  · exact ⟨board, List.mem_append_right _ hlooked, hraised⟩

/-- Everything that waits has a registration that stands, and only what was due has been resumed. -/
structure Standing (past : History) (o : Outline) : Prop where
  delays : ∀ d ∈ o.context.delays.pending, DelayStands past o.context.delays.counter d
  wait : ∀ wait, o.context.completion.active = some wait →
    WaitStands past o.context.completion.reports wait
  punctual : Throughout Punctual past

namespace Standing

variable {past more : History} {o o' : Outline}

/-- Where nothing waits, nothing needs to stand. -/
theorem of_idle (hidle : o.context.hasPendingWork = false) (hpunctual : Throughout Punctual past) :
    Standing past o := by
  obtain ⟨hpending, hactive⟩ := Context.hasPendingWork_eq_false.mp hidle
  constructor
  · simp [hpending]
  · simp [hactive]
  · exact hpunctual

/-- A move that leaves the continuations alone, seen by things that end no registration. -/
theorem frame (h : Standing past o) (hdelays : o'.context.delays = o.context.delays)
    (hcompletion : o'.context.completion = o.context.completion) (hmore : ∀ x ∈ more, ∀ which, ¬ x.Ends which)
    (hticks : ticksIn more = 0) (hpunctual : Throughout Punctual (past ++ more)) :
    Standing (past ++ more) o' where
  delays := by
    rw [hdelays]
    exact fun d hd => (h.delays d hd).append (fun x hx => hmore x hx _) rfl rfl (by omega)
  wait := by
    rw [hcompletion]
    exact fun wait hwait => (h.wait wait hwait).append (fun x hx => hmore x hx _) rfl rfl rfl .inl
  punctual := hpunctual

theorem delayed (h : Standing past o) (hsound : o.Sound) (ticks : Int) (callback : Guest.Function) :
    Standing (past ++ [.delayed o.context.delays.nextSeq ticks o.context.delays.counter callback])
      { o with context := o.context.scheduleDelay ticks callback } where
  delays := by
    intro d hd
    rcases DelayQueue.mem_insert.mp hd with rfl | hold
    · refine ⟨ticks, o.context.delays.counter, [], .now _ _ _, fun hroom => ?_⟩
      show DelayQueue.addUpTo o.context.delays.counter (max ticks 0) - o.context.delays.counter + 0 = _
      rw [DelayQueue.addUpTo, Int.min_eq_left hroom]
      omega
    · have hne : d.seq ≠ o.context.delays.nextSeq := Nat.ne_of_lt (hsound.delays.seq_lt d hold)
      exact (h.delays d hold).append (by simpa [Happening.Ends] using hne) rfl rfl (Int.add_zero _)
  wait := by
    intro wait hwait
    exact (h.wait wait hwait).append (by simp [Happening.Ends]) rfl rfl rfl .inl
  punctual := h.punctual.snoc trivial

theorem awaited (h : Standing past o) (hsound : o.Sound) (now : Nat) (flag : Flag) (callback : Guest.Function) :
    Standing (past ++ [.awaited o.context.completion.nextId flag callback])
      { o with context := o.context.startCompletion now flag callback } where
  delays := by
    intro d hd
    exact (h.delays d hd).append (by simp [Happening.Ends]) rfl rfl (Int.add_zero _)
  wait := by
    intro wait hwait
    cases hwait
    rw [WaitStands, Completion.cancel_nextId]
    refine ⟨[], .now _ _ _, fun hreport => ?_⟩
    -- reports carry numbers that were given before
    have hlt := hsound.completion.cancel.reports_lt _ hreport
    rw [Completion.cancel_nextId] at hlt
    exact absurd hlt (Nat.lt_irrefl _)
  punctual := h.punctual.snoc trivial

theorem elapse (h : Standing past o) (hsound : o.Sound) (span : Nat) (board : Board) :
    Standing (past ++ [.looked board]) { o with context := o.context.elapse span board.isRaised } where
  delays := by
    intro d hd
    exact (h.delays d hd).append (by simp [Happening.Ends]) rfl rfl (Int.add_zero _)
  wait := by
    intro wait hwait
    have hactive : o.context.completion.active = some wait := by
      rw [← Completion.elapse_active o.context.completion span board.isRaised]
      exact hwait
    refine (h.wait wait hactive).append (by simp [Happening.Ends]) rfl rfl rfl fun hreport => ?_
    rcases Completion.mem_elapse_reports hreport with hold | ⟨checker, hmem, hid, hraised⟩
    · exact .inl hold
    · rw [hsound.completion.flag_eq checker hmem wait hactive hid] at hraised
      exact .inr ⟨board, List.mem_singleton_self _, hraised⟩
  punctual := h.punctual.snoc trivial

/-! ### Ticks -/

/-- A delay that is left in the queue has come one tick nearer. -/
theorem delay_after_tick (h : Standing past o) (hsound : o.Sound) {d : Delay Guest.Function}
    (hd : d ∈ o.context.delays.moved.pending) {resumed : History}
    (hresumed : ∀ x ∈ resumed, ¬ x.Ends (.delay d.seq)) (hticks : ticksIn resumed = 0) :
    DelayStands (past ++ .ticked :: resumed) o.context.delays.moved.counter d := by
  rw [hsound.delays.moved_pending] at hd
  obtain ⟨d', hd', rfl⟩ := List.mem_map.mp hd
  refine (h.delays d' hd').append (List.forall_mem_cons.mpr ⟨by simp [Happening.Ends], hresumed⟩) rfl rfl ?_
  · have hone : ticksIn (.ticked :: resumed) = 1 := by
      rw [ticksIn, List.countP_cons_of_pos rfl]
      exact congrArg (· + 1) hticks
    rw [hone]
    simp only [Delay.later]
    omega

/-- A delay whose target the counter has reached is due. -/
theorem due_after_tick (h : Standing past o) (hsound : o.Sound) {d : Delay Guest.Function}
    (hd : d ∈ o.context.delays.moved.pending) (htarget : d.target ≤ o.context.delays.moved.counter) :
    Due (past ++ [.ticked]) (.delay d.seq) d.payload := by
  rw [hsound.delays.moved_pending] at hd
  obtain ⟨d', hd', rfl⟩ := List.mem_map.mp hd
  obtain ⟨ticks, counter, since, hstands, hcount⟩ := h.delays d' hd'
  refine ⟨ticks, counter, since ++ [.ticked], hstands.append (by simp [Happening.Ends]), fun hroom => ?_⟩
  have hleft := hcount hroom
  have hone : ticksIn [.ticked] = 1 := rfl
  rw [ticksIn_append, hone]
  simp only [Delay.later] at htarget
  omega

theorem tick (h : Standing past o) (hsound : o.Sound) :
    Standing (past ++ .ticked :: o.dueDelay)
      { o with
        context := o.context.advanceDelays.2
        errorReported := false
        inGuest := o.context.delays.due?.isSome } := by
  have hwait : ∀ resumed : History, (∀ x ∈ resumed, ∀ id, ¬ x.Ends (.completion id)) →
      ∀ wait, o.context.completion.active = some wait →
        WaitStands (past ++ .ticked :: resumed) o.context.completion.reports wait := by
    intro resumed hresumed wait hwait
    exact (h.wait wait hwait).append
      (List.forall_mem_cons.mpr ⟨by simp [Happening.Ends], fun x hx => hresumed x hx _⟩) rfl rfl rfl .inl
  cases hdue : o.context.delays.due? with
  | none =>
      rw [Outline.dueDelay, hdue]
      have hadvance : o.context.advanceDelays.2.delays = o.context.delays.moved := by
        show o.context.delays.advance.2 = _
        rw [DelayQueue.advance_of_due?_none hdue]
      refine ⟨?_, hwait [] (by simp), h.punctual.snoc trivial⟩
      show ∀ d ∈ o.context.advanceDelays.2.delays.pending,
        DelayStands _ o.context.advanceDelays.2.delays.counter d
      rw [hadvance]
      exact fun d hd => h.delay_after_tick hsound hd (by simp) rfl
  | some d =>
      rw [Outline.dueDelay, hdue]
      obtain ⟨rest, hpending, htarget, hadvance⟩ := DelayQueue.advance_of_due?_some hdue
      have hdelays : o.context.advanceDelays.2.delays = { o.context.delays.moved with pending := rest } := by
        show o.context.delays.advance.2 = _
        rw [hadvance]
      have hd : d ∈ o.context.delays.moved.pending := by
        rw [hpending]
        exact List.mem_cons_self
      refine ⟨?_, hwait _ (by simp [Happening.Ends]), ?_⟩
      · show ∀ d ∈ o.context.advanceDelays.2.delays.pending,
          DelayStands _ o.context.advanceDelays.2.delays.counter d
        rw [hdelays]
        intro d' hd'
        have hdistinct := hsound.delays.moved.distinct
        rw [hpending] at hdistinct
        have hne : d.seq ≠ d'.seq := (List.pairwise_cons.mp hdistinct).1 d' hd'
        refine h.delay_after_tick hsound ?_ (by simpa [Happening.Ends] using hne) rfl
        rw [hpending]
        exact List.mem_cons_of_mem _ hd'
      · exact h.punctual.snoc_snoc trivial (h.due_after_tick hsound hd htarget)

/-! ### Polls -/

theorem poll (h : Standing past o) (now : Nat) (board : Board) :
    Standing (past ++ .looked board :: o.dueWait now board)
      { o with
        context := (o.context.pollCompletion now board.isRaised).2
        inGuest := (o.context.completion.due? now board.isRaised).isSome } := by
  have hlooked : Throughout Punctual (past ++ [.looked board]) := h.punctual.snoc trivial
  have hdelays : ∀ resumed : History, (∀ x ∈ resumed, ∀ seq, ¬ x.Ends (.delay seq)) → ticksIn resumed = 0 →
      ∀ d ∈ o.context.delays.pending,
        DelayStands (past ++ .looked board :: resumed) o.context.delays.counter d := by
    intro resumed hresumed hticks d hd
    have hnone : ticksIn (.looked board :: resumed) = 0 := hticks
    refine (h.delays d hd).append
      (List.forall_mem_cons.mpr ⟨by simp [Happening.Ends], fun x hx => hresumed x hx _⟩) rfl rfl ?_
    rw [hnone]
    exact Int.add_zero _
  cases hdue : o.context.completion.due? now board.isRaised with
  | none =>
      rw [Outline.dueWait, hdue]
      obtain ⟨-, nextLook, hpoll⟩ := Completion.poll_of_due?_none hdue
      refine ⟨hdelays [] (by simp) rfl, ?_, hlooked⟩
      show ∀ wait, (o.context.completion.poll now board.isRaised).2.active = some wait →
        WaitStands _ (o.context.completion.poll now board.isRaised).2.reports wait
      rw [hpoll]
      intro wait hwait
      obtain ⟨wait', hactive, rfl⟩ := Option.map_eq_some_iff.mp hwait
      exact (h.wait wait' hactive).append (by simp [Happening.Ends]) rfl rfl rfl
        fun hreport => absurd hreport List.not_mem_nil
  | some wait =>
      rw [Outline.dueWait, hdue]
      obtain ⟨hactive, hseen, hpoll⟩ := Completion.poll_of_due?_some hdue
      refine ⟨hdelays _ (by simp [Happening.Ends]) rfl, ?_, ?_⟩
      · show ∀ wait, (o.context.completion.poll now board.isRaised).2.active = some wait → _
        rw [hpoll, show ({ o.context.completion.cancel with reports := [] } : Completion _).active = none from
          Completion.cancel_active _]
        intro wait hwait
        cases hwait
      · obtain ⟨since, hstands, hreported⟩ := h.wait wait hactive
        have hdue : Due (past ++ [.looked board]) (.completion wait.id) wait.callback := by
          refine ⟨wait.flag, since ++ [.looked board], hstands.append (by simp [Happening.Ends]), ?_⟩
          rcases hseen with hreport | hraised
          · obtain ⟨board', hlooked', hraised⟩ := hreported hreport
            exact ⟨board', List.mem_append_left _ hlooked', hraised⟩
          · exact ⟨board, List.mem_append_right _ (List.mem_singleton_self _), hraised⟩
        exact h.punctual.snoc_snoc trivial hdue

end Standing

theorem Move.standing {past h : History} {o o' : Outline} (hstanding : Standing past o) (hsound : o.Sound)
    (hmove : Move o h o') : Standing (past ++ h) o' := by
  cases hmove with
  | act _ hact =>
      cases hact with
      | called => exact hstanding.frame rfl rfl (by simp [Happening.Ends]) rfl (hstanding.punctual.snoc trivial)
      | failed => exact hstanding.frame rfl rfl (by simp [Happening.Ends]) rfl (hstanding.punctual.snoc trivial)
      | delayed ticks callback => exact hstanding.delayed hsound ticks callback
      | awaited now flag callback => exact hstanding.awaited hsound now flag callback
  | finish => exact hstanding.frame rfl rfl (by simp) rfl (by simpa using hstanding.punctual)
  | fault =>
      exact .of_idle (Context.hasPendingWork_abortPending _) (hstanding.punctual.snoc trivial)
  | stop => exact .of_idle (Context.hasPendingWork_new _ _) (hstanding.punctual.snoc trivial)
  | dismiss => exact hstanding.frame rfl rfl (by simp [Happening.Ends]) rfl (hstanding.punctual.snoc trivial)
  | elapse span board => exact hstanding.elapse hsound span board
  | block source hidle =>
      exact .of_idle (hsound.idle_of_not_running hidle) (hstanding.punctual.snoc_snoc trivial trivial)
  | once source hidle => exact .of_idle (hsound.idle_of_not_running hidle) (hstanding.punctual.snoc trivial)
  | repeating source every hidle =>
      exact .of_idle (hsound.idle_of_not_running hidle) (hstanding.punctual.snoc trivial)
  | tick => exact hstanding.tick hsound
  | poll now board => exact hstanding.poll now board
  | deferred => exact hstanding.frame rfl rfl (by simp [Happening.Ends]) rfl (hstanding.punctual.snoc trivial)
  | count => exact hstanding.frame rfl rfl (by simp) rfl (by simpa using hstanding.punctual)
  | repeated => exact hstanding.frame rfl rfl (by simp [Happening.Ends]) rfl (hstanding.punctual.snoc trivial)

theorem Path.standing {o o' : Outline} {h : History} (hsound : o.Sound)
    (hidle : o.context.hasPendingWork = false) (hpath : Path o h o') : Standing h o' := by
  have hboth : Standing h o' ∧ o'.Sound :=
    hpath.invariant (P := fun past o => Standing past o ∧ o.Sound) ⟨.of_idle hidle (.nil _), hsound⟩
      fun _ _ _ _ hbefore hmove => ⟨hmove.standing hbefore.1 hbefore.2, hmove.sound hbefore.2⟩
  exact hboth.1

/-! ### Runs -/

/-- A continuation starts to wait under a number. -/
def Happening.Registers (which : Waiting) : Happening → Prop
  | .delayed seq _ _ _ => which = .delay seq
  | .awaited id _ _ => which = .completion id
  | _ => False

theorem Due.stands {past : History} {which : Waiting} {callback : Guest.Function}
    (hdue : Due past which callback) :
    ∃ registration since, Stands past registration which since ∧ registration.Registers which := by
  cases which with
  | delay seq =>
      obtain ⟨ticks, counter, since, hstands, -⟩ := hdue
      exact ⟨_, since, hstands, rfl⟩
  | completion id =>
      obtain ⟨flag, since, hstands, -⟩ := hdue
      exact ⟨_, since, hstands, rfl⟩

/-- What is due has been registered after everything that ends it. -/
theorem Due.registered {past between : History} {which : Waiting} {callback : Guest.Function} {x : Happening}
    (hdue : Due (past ++ x :: between) which callback) (hends : x.Ends which)
    (hnot : ¬ x.Registers which) : ∃ y ∈ between, y.Registers which := by
  obtain ⟨registration, since, ⟨⟨earlier, hpast⟩, hunended⟩, hregisters⟩ := hdue.stands
  rcases History.places hpast with ⟨-, rfl, -⟩ | ⟨gap, -, rfl⟩ | ⟨gap, -, rfl⟩
  · exact absurd hregisters hnot
  · exact ⟨registration, List.mem_append_right _ List.mem_cons_self, hregisters⟩
  · exact absurd hends (hunended x (List.mem_append_right _ List.mem_cons_self))

/-- **Continuations are resumed when they are due.** In every run each resumption has a registration that
still stands: since then no stop, no fault, no submission and no resumption of the same continuation has
come, and of completion waits no other one either. A delay has then waited its ticks, counted from the
registration wherever in a tick that was, and the flag of a completion wait has been seen raised. So
between two resumptions under one number there is another registration. -/
theorem continuations_resumed_when_due (e : Embedding σ) (config : Config) (application : HostState σ)
    (requests : List (Request σ)) :
    (∃ h, Chronicle e requests (.new e config application) h) ∧
      ∀ h, Chronicle e requests (.new e config application) h →
        (∀ past which callback later, h = past ++ .resumed which callback :: later →
          Due past which callback) ∧
        ∀ past which callback between callback' later,
          h = past ++ .resumed which callback :: (between ++ .resumed which callback' :: later) →
          ∃ x ∈ between, x.Registers which := by
  refine ⟨exists_chronicle e requests _, fun h hchronicle => ?_⟩
  have hpath := hchronicle.path
  rw [Scheduler.new_outline] at hpath
  have hpunctual : ∀ past which callback later, h = past ++ .resumed which callback :: later →
      Due past which callback := fun past which callback later heq =>
    (hpath.standing (Outline.sound_new _ _) (Context.hasPendingWork_new _ _)).punctual past _ later heq
  refine ⟨hpunctual, ?_⟩
  intro past which callback between callback' later heq
  have hdue := hpunctual (past ++ .resumed which callback :: between) which callback' later
    (by rw [heq, List.append_assoc, List.cons_append])
  exact hdue.registered rfl id

end ScriptBridge
