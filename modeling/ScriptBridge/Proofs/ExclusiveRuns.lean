import ScriptBridge.Proofs.Continuations
import ScriptBridge.Proofs.FaultContainment

/-! One run at a time. A submission stops an active run before it arms or runs its own source. Whether a
run is active is asked of the state, and a reported error hides an armed source there; so a source that
was armed since the error stays armed beside the new one. That is the only way: a submission drops all
that was there before it, unless it is made while an error is reported and a source of the other kind is
armed, and every way in which two runs get mixed up needs such a submission to be the latest. -/

namespace ScriptBridge

variable {σ : Type}

/-! ### What a submission leaves beside it -/

/-- What a happening does to the armed sources that a submission has left beside it. -/
def Happening.leavesBeside (left : Bool) : Happening → Bool
  | .submitted _ beside => beside
  | .stopped | .faulted _ => false
  | _ => left

/-- The latest submission has left an armed source beside it, and neither a stop nor a fault has come. -/
def leftBeside (h : History) : Bool := h.foldl Happening.leavesBeside false

theorem leftBeside_append (h h' : History) :
    leftBeside (h ++ h') = h'.foldl Happening.leavesBeside (leftBeside h) := List.foldl_append

/-- What ends the claim of an armed source of a kind to be run: anything that drops all sources, another
one of its kind, and for a source that runs once its own run. -/
def Happening.Displaces (cause : Cause) : Happening → Prop
  | .submitted submission beside => beside = false ∨ submission.cause = cause
  | .stopped | .faulted _ => True
  | .began cause' _ _ => cause' = cause ∧ cause ≠ .repeated
  | _ => False

/-- A source has been handed over to be run for a cause, and nothing has displaced it since. -/
def Armed (past : History) (cause : Cause) (source : String) : Prop :=
  ∃ earlier submission beside since, past = earlier ++ .submitted submission beside :: since ∧
    submission.cause = cause ∧ submission.source = source ∧ ∀ x ∈ since, ¬ x.Displaces cause

theorem Armed.now (past : History) (submission : Submission) (beside : Bool) :
    Armed (past ++ [.submitted submission beside]) submission.cause submission.source :=
  ⟨past, submission, beside, [], rfl, rfl, rfl, by simp⟩

theorem Armed.append {past more : History} {cause : Cause} {source : String} (h : Armed past cause source)
    (hmore : ∀ x ∈ more, ¬ x.Displaces cause) : Armed (past ++ more) cause source := by
  obtain ⟨earlier, submission, beside, since, rfl, hcause, hsource, hsince⟩ := h
  refine ⟨earlier, submission, beside, since ++ more, by simp, hcause, hsource, fun x hx => ?_⟩
  rcases List.mem_append.mp hx with hold | hnew
  · exact hsince x hold
  · exact hmore x hnew

/-- A block that starts is the one that was handed over for it, and a continuation can be waiting then
only if the latest submission has left something beside it. -/
def Rightful (past : History) : Happening → Prop
  | .began cause source waiting => Armed past cause source ∧ (waiting = true → leftBeside past = true)
  | _ => True

/-! ### Moves -/

/-- Armed sources have been handed over. Two of them, or one of them together with guest code that runs
or waits, are there only beside the latest submission. -/
structure Exclusive (past : History) (o : Outline) : Prop where
  deferred : ∀ source, o.deferred = some source → Armed past .deferred source
  repeating : ∀ r, o.repeating = some r → Armed past .repeated r.source
  both : o.deferred.isSome → o.repeating.isSome → leftBeside past = true
  busy : o.deferred.isSome → o.context.hasPendingWork || o.inGuest → leftBeside past = true
  rightful : Throughout Rightful past

namespace Exclusive

variable {past more : History} {o o' : Outline}

theorem of_none (hdeferred : o.deferred = none) (hrepeating : o.repeating = none)
    (hrightful : Throughout Rightful past) : Exclusive past o where
  deferred := by simp [hdeferred]
  repeating := by simp [hrepeating]
  both := by simp [hdeferred]
  busy := by simp [hdeferred]
  rightful := hrightful

/-- A move that leaves the armed sources alone and starts nothing that was not there. -/
theorem frame (h : Exclusive past o) (hdeferred : o'.deferred = o.deferred)
    (hrepeating : ∀ r, o'.repeating = some r → ∃ r', o.repeating = some r' ∧ r'.source = r.source)
    (hbusy : o'.context.hasPendingWork || o'.inGuest → o.context.hasPendingWork || o.inGuest)
    (hmore : ∀ x ∈ more, ∀ cause, ¬ x.Displaces cause)
    (hleft : leftBeside (past ++ more) = leftBeside past) (hrightful : Throughout Rightful (past ++ more)) :
    Exclusive (past ++ more) o' where
  deferred := by
    rw [hdeferred]
    exact fun source harmed => (h.deferred source harmed).append fun x hx => hmore x hx _
  repeating := by
    intro r harmed
    obtain ⟨r', harmed', hsource⟩ := hrepeating r harmed
    rw [← hsource]
    exact (h.repeating r' harmed').append fun x hx => hmore x hx _
  both := by
    rw [hdeferred, hleft]
    intro hfirst hsecond
    obtain ⟨r, harmed⟩ := Option.isSome_iff_exists.mp hsecond
    obtain ⟨r', harmed', -⟩ := hrepeating r harmed
    exact h.both hfirst (by rw [harmed']; rfl)
  busy := by
    rw [hdeferred, hleft]
    exact fun hfirst hwork => h.busy hfirst (hbusy hwork)
  rightful := hrightful

/-- A block at once. A source that is armed stays so, beside the block. -/
theorem block (h : Exclusive past o) (hidle : o.context.hasPendingWork = false) (source : String) :
    Exclusive (past ++ [.submitted (.block source) (o.beside (.block source)),
      .began .atOnce source o.context.hasPendingWork]) (o.begun source) where
  deferred := by
    intro other harmed
    have hbeside : o.beside (.block source) = true := by
      rw [Outline.beside, show o.deferred = some other from harmed, Option.isSome_some, Bool.true_or]
    exact (h.deferred other harmed).append (by simp [Happening.Displaces, Submission.cause, hbeside])
  repeating := by
    intro r harmed
    have hbeside : o.beside (.block source) = true := by
      rw [Outline.beside, show o.repeating = some r from harmed, Option.isSome_some, Bool.or_true]
    exact (h.repeating r harmed).append (by simp [Happening.Displaces, Submission.cause, hbeside])
  both := by
    intro hfirst _
    rw [leftBeside_append]
    show (o.deferred.isSome || o.repeating.isSome) = true
    rw [show o.deferred.isSome = true from hfirst, Bool.true_or]
  busy := by
    intro hfirst _
    rw [leftBeside_append]
    show (o.deferred.isSome || o.repeating.isSome) = true
    rw [show o.deferred.isSome = true from hfirst, Bool.true_or]
  rightful := by
    exact h.rightful.snoc_snoc trivial ⟨.now past (.block source) _, by simp [hidle]⟩

theorem once (h : Exclusive past o) (hidle : o.context.hasPendingWork = false) (hguest : o.inGuest = false)
    (source : String) : Exclusive (past ++ [.submitted (.once source) (o.beside (.once source))])
      { o with deferred := some source } where
  deferred := by
    intro other harmed
    cases harmed
    exact .now past (.once source) _
  repeating := by
    intro r harmed
    have hbeside : o.beside (.once source) = true := by
      rw [Outline.beside, show o.repeating = some r from harmed, Option.isSome_some]
    exact (h.repeating r harmed).append (by simp [Happening.Displaces, Submission.cause, hbeside])
  both := by
    intro _ hsecond
    rw [leftBeside_append]
    exact hsecond
  busy := by simp [hidle, hguest]
  rightful := h.rightful.snoc trivial

theorem repeatedly (h : Exclusive past o) (hidle : o.context.hasPendingWork = false)
    (hguest : o.inGuest = false) (source : String) (every : Nat) :
    Exclusive (past ++ [.submitted (.repeating source every) (o.beside (.repeating source every))])
      { o with repeating := some ⟨source, max every 1, max every 1 - 1⟩ } where
  deferred := by
    intro other harmed
    have hbeside : o.beside (.repeating source every) = true := by
      rw [Outline.beside, show o.deferred = some other from harmed, Option.isSome_some]
    exact (h.deferred other harmed).append (by simp [Happening.Displaces, Submission.cause, hbeside])
  repeating := by
    intro r harmed
    cases harmed
    exact .now past (.repeating source every) _
  both := by
    intro hfirst _
    rw [leftBeside_append]
    exact hfirst
  busy := by simp [hidle, hguest]
  rightful := h.rightful.snoc trivial

/-- The deferred block runs, and is armed no more. -/
theorem runDeferred (h : Exclusive past o) {source : String} (harmed : o.deferred = some source) :
    Exclusive (past ++ [.began .deferred source o.context.hasPendingWork])
      ({ o with deferred := none }.begun source) where
  deferred := by simp [Outline.begun]
  repeating := fun r hr => (h.repeating r hr).append (by simp [Happening.Displaces])
  both := by simp [Outline.begun]
  busy := by simp [Outline.begun]
  rightful := by
    refine h.rightful.snoc ⟨h.deferred source harmed, fun hwaiting => h.busy (by rw [harmed]; rfl) ?_⟩
    rw [hwaiting, Bool.true_or]

/-- The repeated block runs, and stays armed. -/
theorem runRepeated (h : Exclusive past o) {r : Repeating} (harmed : o.repeating = some r)
    (hdeferred : o.deferred = none) :
    Exclusive (past ++ [.began .repeated r.source false])
      ({ o with repeating := some { r with elapsed := 0 } }.begun r.source) where
  deferred := by simp [Outline.begun, hdeferred]
  repeating := by
    intro r' hr'
    cases hr'
    exact (h.repeating r harmed).append (by simp [Happening.Displaces])
  both := by simp [Outline.begun, hdeferred]
  busy := by simp [Outline.begun, hdeferred]
  rightful := h.rightful.snoc ⟨h.repeating r harmed, by simp⟩

end Exclusive

theorem Outline.of_not_running {o : Outline} (h : ¬ o.isRunning) : o.inGuest = false := by
  simp only [isRunning, Bool.or_eq_true, not_or, Bool.not_eq_true] at h
  exact h.1

theorem Move.exclusive {past h : History} {o o' : Outline} (hexclusive : Exclusive past o)
    (hsound : o.Sound) (hmove : Move o h o') : Exclusive (past ++ h) o' := by
  have hrightful := hexclusive.rightful
  cases hmove with
  | act hguest hact =>
      have hbusy : o.context.hasPendingWork || o.inGuest := by simp [hguest]
      cases hact <;>
        exact hexclusive.frame rfl (fun r hr => ⟨r, hr, rfl⟩) (fun _ => hbusy)
          (by simp [Happening.Displaces]) (leftBeside_append _ _) (hrightful.snoc trivial)
  | finish =>
      exact hexclusive.frame rfl (fun r hr => ⟨r, hr, rfl⟩) (fun hwork => by simp_all)
        (by simp) (leftBeside_append _ _) (by simpa using hrightful)
  | fault => exact .of_none rfl rfl (hrightful.snoc trivial)
  | stop => exact .of_none rfl rfl (hrightful.snoc trivial)
  | dismiss =>
      exact hexclusive.frame rfl (fun r hr => ⟨r, hr, rfl⟩) id (by simp [Happening.Displaces])
        (leftBeside_append _ _) (hrightful.snoc trivial)
  | elapse span board =>
      refine hexclusive.frame rfl (fun r hr => ⟨r, hr, rfl⟩) (fun hwork => ?_)
        (by simp [Happening.Displaces]) (leftBeside_append _ _) (hrightful.snoc trivial)
      rwa [Context.hasPendingWork_elapse] at hwork
  | block source hidle => exact hexclusive.block (hsound.idle_of_not_running hidle) source
  | once source hidle =>
      exact hexclusive.once (hsound.idle_of_not_running hidle) (Outline.of_not_running hidle) source
  | repeating source every hidle =>
      exact hexclusive.repeatedly (hsound.idle_of_not_running hidle) (Outline.of_not_running hidle) source every
  | tick =>
      refine hexclusive.frame rfl (fun r hr => ⟨r, hr, rfl⟩) (fun hwork => ?_) ?_ ?_ ?_
      · cases hpending : o.context.hasPendingWork with
        | true => rfl
        | false =>
            obtain ⟨hdue, hidle⟩ := Context.idle_advanceDelays hpending
            simp [hdue, hidle] at hwork
      all_goals rw [Outline.dueDelay]; cases o.context.delays.due?
      · simp [Happening.Displaces]
      · simp [Happening.Displaces]
      · exact leftBeside_append _ _
      · exact leftBeside_append _ _
      · exact hrightful.snoc trivial
      · exact hrightful.snoc_snoc trivial trivial
  | poll now board =>
      refine hexclusive.frame rfl (fun r hr => ⟨r, hr, rfl⟩) (fun hwork => ?_) ?_ ?_ ?_
      · cases hpending : o.context.hasPendingWork with
        | true => rfl
        | false =>
            obtain ⟨hdue, hidle⟩ := Context.idle_pollCompletion hpending now board.isRaised
            simp [hdue, hidle] at hwork
      all_goals rw [Outline.dueWait]; cases o.context.completion.due? now board.isRaised
      · simp [Happening.Displaces]
      · simp [Happening.Displaces]
      · exact leftBeside_append _ _
      · exact leftBeside_append _ _
      · exact hrightful.snoc trivial
      · exact hrightful.snoc_snoc trivial trivial
  | deferred harmed => exact hexclusive.runDeferred harmed
  | count harmed =>
      refine hexclusive.frame rfl (fun r hr => ⟨_, harmed, ?_⟩) id (by simp) (leftBeside_append _ _)
        (by simpa using hrightful)
      cases hr
      rfl
  | repeated harmed hdeferred _ => exact hexclusive.runRepeated harmed hdeferred

theorem Path.exclusive {o o' : Outline} {past h : History} (hexclusive : Exclusive past o) (hsound : o.Sound)
    (hpath : Path o h o') : Exclusive (past ++ h) o' := by
  have hboth : Exclusive (past ++ h) o' ∧ o'.Sound := by
    refine hpath.invariant (P := fun h o => Exclusive (past ++ h) o ∧ o.Sound)
      ⟨by rwa [List.append_nil], hsound⟩ fun before _ more _ hbefore hmove => ?_
    rw [← List.append_assoc]
    exact ⟨hmove.exclusive hbefore.1 hbefore.2, hmove.sound hbefore.2⟩
  exact hboth.1

/-! ### Blocks of a tick -/

def Happening.isBegin : Happening → Bool
  | .began .. => true
  | _ => false

/-- Blocks that have started. -/
def blocksIn (h : History) : Nat := h.countP Happening.isBegin

/-- Something that neither starts a block nor hands over a source. -/
def Happening.isQuiet : Happening → Bool
  | .began .. | .submitted .. => false
  | _ => true

theorem blocksIn_eq_zero {h : History} (hquiet : ∀ x ∈ h, x.isQuiet) : blocksIn h = 0 := by
  refine List.countP_eq_zero.mpr fun x hx hbegin => ?_
  have := hquiet x hx
  cases x <;> cases hbegin
  cases this

theorem leftBeside_of_quiet {past h : History} (hquiet : ∀ x ∈ h, x.isQuiet)
    (hpast : leftBeside past = false) : leftBeside (past ++ h) = false := by
  induction h generalizing past with
  | nil => rwa [List.append_nil]
  | cons x h ih =>
      obtain ⟨hx, hrest⟩ := List.forall_mem_cons.mp hquiet
      rw [← List.singleton_append, ← List.append_assoc]
      refine ih hrest ?_
      rw [leftBeside_append, hpast]
      cases x with
      | submitted => cases hx
      | _ => rfl

theorem Acts.quiet {c c' : Context} {h : History} (hacts : Acts c h c') : ∀ x ∈ h, x.isQuiet := by
  induction hacts with
  | rest => simp
  | more hact _ ih => exact List.forall_mem_cons.mpr ⟨by cases hact <;> rfl, ih⟩

namespace Scheduler

theorem GuestHistory.quiet {e : Embedding σ} {code : Guest.State → Guest.Run (List Guest.Value)}
    {s : Scheduler σ} {h : History} (hguest : GuestHistory e code s h) : ∀ x ∈ h, x.isQuiet := by
  obtain ⟨acts, hacts, rfl⟩ := hguest
  intro x hx
  rcases List.mem_append.mp hx with hact | hend
  · exact hacts.quiet x hact
  · cases hresult : (s.guestRun e code).1 with
    | ok values => simp [hresult, ending] at hend
    | error fault =>
        rw [hresult, ending, List.mem_singleton] at hend
        rw [hend]
        rfl

theorem DelaysHistory.quiet {e : Embedding σ} {s : Scheduler σ} {h : History}
    (hdelays : DelaysHistory e s h) : ∀ x ∈ h, x.isQuiet := by
  unfold DelaysHistory at hdelays
  split at hdelays
  · obtain ⟨rest, hguest, rfl⟩ := hdelays
    exact List.forall_mem_cons.mpr ⟨rfl, hguest.quiet⟩
  · simp [hdelays]

theorem PollHistory.quiet {e : Embedding σ} {now : Nat} {s : Scheduler σ} {h : History}
    (hpoll : PollHistory e now s h) : ∀ x ∈ h, x.isQuiet := by
  unfold PollHistory at hpoll
  split at hpoll
  · obtain ⟨rest, hguest, rfl⟩ := hpoll
    exact List.forall_mem_cons.mpr ⟨rfl, hguest.quiet⟩
  · simp [hpoll]

theorem BlockHistory.blocksIn {e : Embedding σ} {cause : Cause} {source : String} {s : Scheduler σ}
    {h : History} (hblock : BlockHistory e cause source s h) : blocksIn h = 1 := by
  obtain ⟨rest, hguest, rfl⟩ := hblock
  rw [ScriptBridge.blocksIn, List.countP_cons_of_pos rfl]
  exact congrArg (· + 1) (blocksIn_eq_zero hguest.quiet)

theorem RepeatingHistory.blocksIn_le {e : Embedding σ} {s : Scheduler σ} {h : History}
    (hrepeating : RepeatingHistory e s h) : blocksIn h ≤ 1 := by
  unfold RepeatingHistory at hrepeating
  split at hrepeating
  · exact Nat.le_of_eq hrepeating.blocksIn
  · rw [hrepeating]
    exact Nat.zero_le _

/-- A block that was not repeating before does not repeat after the deferred block. -/
theorem runDeferred_repeating {e : Embedding σ} {s : Scheduler σ} (h : s.repeating = none) :
    (runDeferred e s).2.repeating = none := by
  rw [runDeferred_run]
  cases s.deferred with
  | none => exact h
  | some source =>
      obtain ⟨journal, hrun⟩ := runBlock_run e source { s with deferred := none }
      show (runBlock e source { s with deferred := none }).2.repeating = none
      rw [hrun, repeating_withJournal]
      generalize guestRun e (e.engine.execute source) (begun source { s with deferred := none }) = final
      obtain ⟨result, session⟩ := final
      cases result with
      | ok values => exact h
      | error fault => rfl

/-- A tick runs at most one block, if the latest submission has left nothing beside it. -/
theorem TickHistory.blocksIn_le {e : Embedding σ} {now : Nat} {s : Scheduler σ} {past h : History}
    (hexclusive : Exclusive past s.outline) (hsound : s.outline.Sound) (htick : TickHistory e now s h)
    (hbeside : leftBeside past = false) : blocksIn h ≤ 1 := by
  obtain ⟨h₁, h₂, h₃, h₄, hdelays, hpoll, hdeferred, hrepeating, rfl⟩ := htick
  have hquiet : ∀ x ∈ Happening.ticked :: (h₁ ++ .looked (s.afterDelays e).board :: h₂), x.isQuiet := by
    intro x hx
    rcases List.mem_cons.mp hx with rfl | hx
    · rfl
    · rcases List.mem_append.mp hx with hx | hx
      · exact hdelays.quiet x hx
      · rcases List.mem_cons.mp hx with rfl | hx
        · rfl
        · exact hpoll.quiet x hx
  have hpath : Path s.outline (.ticked :: (h₁ ++ .looked (s.afterDelays e).board :: h₂))
      (s.afterPoll e now).outline := hdelays.path.append hpoll.path
  have hleft := leftBeside_of_quiet hquiet hbeside
  have hcount : blocksIn (.ticked :: (h₁ ++ .looked (s.afterDelays e).board :: (h₂ ++ (h₃ ++ h₄)))) =
      blocksIn h₃ + blocksIn h₄ := by
    have hzero := blocksIn_eq_zero hquiet
    simp only [blocksIn, List.countP_cons, List.countP_append] at hzero ⊢
    omega
  rw [hcount]
  have hlast := hrepeating.blocksIn_le
  cases harmed : (s.afterPoll e now).deferred with
  | none =>
      rw [DeferredHistory, harmed] at hdeferred
      rw [hdeferred]
      simpa [blocksIn] using hlast
  | some source =>
      -- with a deferred block to run there is none to repeat
      have hnone : (s.afterPoll e now).repeating = none := by
        refine Option.not_isSome_iff_eq_none.mp fun hrepeats => ?_
        have hboth := (hpath.exclusive hexclusive hsound).both (by
          show (s.afterPoll e now).deferred.isSome = true
          rw [harmed]
          rfl) hrepeats
        rw [hleft] at hboth
        cases hboth
      have hturn : (s.afterDeferred e now).turn? = none := by
        rw [turn?, afterDeferred, runDeferred_repeating hnone]
        split <;> rfl
      rw [RepeatingHistory, hturn] at hrepeating
      rw [DeferredHistory, harmed] at hdeferred
      rw [hrepeating, hdeferred.blocksIn]
      exact Nat.le_refl 1

end Scheduler

/-! ### Submissions -/

/-- The source that a submission leaves for the next tick. -/
def Submission.deferred? : Submission → Option String
  | once source => some source
  | _ => none

/-- The source that a submission leaves for many ticks. -/
def Submission.repeating? : Submission → Option Repeating
  | repeating source every => some ⟨source, max every 1, max every 1 - 1⟩
  | _ => none

namespace Scheduler

/-- The scheduler when the source of a submission is about to run or has been armed. -/
def accepting (e : Embedding σ) (s : Scheduler σ) : Submission → Scheduler σ
  | .block _ => s.guarded e
  | .once source => (executeOnce e source s).2
  | .repeating source every => (executeRepeating e source every s).2

/-- Nothing waits, and no source is armed but that of a submission. -/
structure HoldsOnly (s : Scheduler σ) (submission : Submission) : Prop where
  pendingDelays : s.pendingDelays = 0
  completionPending : s.completionPending = false
  deferred : s.deferred = submission.deferred?
  repeating : s.repeating = submission.repeating?

theorem guarded_idle (e : Embedding σ) {s : Scheduler σ} (hsound : s.outline.Sound) :
    (s.guarded e).context.hasPendingWork = false := by
  obtain ⟨hpath, hidle⟩ := guarded_path e s
  exact (hpath.sound hsound).idle_of_not_running hidle

theorem holdsOnly_accepting_iff (e : Embedding σ) {s : Scheduler σ} (hsound : s.outline.Sound)
    (submission : Submission) :
    (s.accepting e submission).HoldsOnly submission ↔ (s.guarded e).outline.beside submission = false := by
  obtain ⟨hdelays, hwait⟩ := (idle_iff _).mp (guarded_idle e hsound)
  cases submission with
  | block source =>
      refine ⟨fun h => ?_, fun h => ?_⟩
      · rw [Outline.beside, show (s.guarded e).outline.deferred = none from h.deferred,
          show (s.guarded e).outline.repeating = none from h.repeating]
        rfl
      · simp only [Outline.beside, Bool.or_eq_false_iff, Option.isSome_eq_false_iff,
          Option.isNone_iff_eq_none] at h
        exact ⟨hdelays, hwait, h.1, h.2⟩
  | once source =>
      rw [accepting, executeOnce_run]
      refine ⟨fun h => ?_, fun h => ?_⟩
      · rw [Outline.beside, show (s.guarded e).outline.repeating = none from h.repeating]
        rfl
      · simp only [Outline.beside, Option.isSome_eq_false_iff, Option.isNone_iff_eq_none] at h
        exact ⟨hdelays, hwait, rfl, h⟩
  | repeating source every =>
      rw [accepting, executeRepeating_run]
      refine ⟨fun h => ?_, fun h => ?_⟩
      · rw [Outline.beside, show (s.guarded e).outline.deferred = none from h.deferred]
        rfl
      · simp only [Outline.beside, Option.isSome_eq_false_iff, Option.isNone_iff_eq_none] at h
        exact ⟨hdelays, hwait, h, rfl⟩

/-- A source stays beside a submission only where a reported error hides it. -/
theorem beside_guarded_iff (e : Embedding σ) (s : Scheduler σ) (submission : Submission) :
    (s.guarded e).outline.beside submission = true ↔
      s.state = .errorReported ∧ s.outline.beside submission = true := by
  by_cases hrunning : s.state = .running
  · rw [guarded_of_running e hrunning, stop_outline, hrunning]
    cases submission <;> simp [Outline.beside]
  · rw [guarded_of_not_running e hrunning]
    refine ⟨fun hbeside => ⟨?_, hbeside⟩, And.right⟩
    have harmed : s.deferred.isSome ∨ s.repeating.isSome := by
      cases submission with
      | block source => simpa [Outline.beside, outline] using hbeside
      | once source => exact .inr hbeside
      | repeating source every => exact .inl hbeside
    cases herror : s.errorReported with
    | true =>
        rw [state, herror]
        rfl
    | false =>
        refine absurd ((state_eq_running_iff s).mpr ?_) hrunning
        rcases harmed with harmed | harmed <;> simp [Outline.isRunning, outline, herror, harmed]

/-- **A submission drops what was there before it**, unless an error is reported and a source of another
kind is armed; that is the whole condition. In every run, then, a block that starts is the one last handed
over for it, a continuation that is resumed has been registered since the latest submission, and where
the latest submission has left nothing beside it, no two sources are armed, no block starts while a
continuation waits, and a tick runs one block at most. -/
theorem submissions_exclusive (e : Embedding σ) (config : Config) (application : HostState σ)
    (requests : List (Request σ)) :
    let s := run e requests (new e config application)
    (∀ submission, (s.accepting e submission).HoldsOnly submission ↔
        ¬ (s.state = .errorReported ∧ s.outline.beside submission = true)) ∧
      (∃ h, Chronicle e requests (new e config application) h) ∧
      ∀ h, Chronicle e requests (new e config application) h →
        (∀ past cause source waiting later, h = past ++ .began cause source waiting :: later →
          Armed past cause source ∧ (waiting = true → leftBeside past = true)) ∧
        (∀ past which callback later, h = past ++ .resumed which callback :: later →
          ∃ registration since, Stands past registration which since ∧ registration.Registers which) ∧
        (leftBeside h = false → ¬ (s.deferred.isSome ∧ s.repeating.isSome) ∧
          ∀ now h', TickHistory e now s h' → blocksIn h' ≤ 1) := by
  intro s
  have hsound : s.outline.Sound := run_sound e config application requests
  refine ⟨fun submission => ?_, exists_chronicle e requests _, fun h hchronicle => ?_⟩
  · rw [holdsOnly_accepting_iff e hsound, ← beside_guarded_iff e s submission, Bool.not_eq_true]
  · have hpath := hchronicle.path
    rw [new_outline] at hpath
    have hnew := Outline.sound_new config e.hasCheckers
    have hstart : Exclusive [] ⟨.new config e.hasCheckers, false, none, none, false⟩ :=
      .of_none rfl rfl (.nil _)
    have hexclusive : Exclusive h s.outline := hpath.exclusive hstart hnew
    have hstanding := hpath.standing hnew (Context.hasPendingWork_new _ _)
    refine ⟨fun past cause source waiting later => hexclusive.rightful past _ later,
      fun past which callback later heq => (hstanding.punctual past _ later heq).stands,
      fun hbeside => ⟨fun harmed => ?_, fun now h' htick => htick.blocksIn_le hexclusive hsound hbeside⟩⟩
    have hleft := hexclusive.both harmed.1 harmed.2
    rw [hbeside] at hleft
    cases hleft

/-- An application with nothing to offer and a guest language in which one source crashes. -/
def crashing : Embedding Unit where
  engine := {
    execute := fun source memory => .finished (if source = "crash" then .error .exhausted else .ok []) memory
    apply := fun _ _ memory => .finished (.ok []) memory
    index := fun _ _ memory => .finished (.ok .nil) memory }
  host := .bare Unit
  hasCheckers := false

/-- After a crash a source for the next tick and one for every tick get armed side by side. -/
theorem both_armed_after_crash :
    let s := run crashing [.block "crash", .once "a", .repeating "b" 1] (new crashing .standard ⟨(), .empty⟩)
    s.deferred = some "a" ∧ s.repeating = some ⟨"b", 1, 0⟩ :=
  ⟨rfl, rfl⟩

end Scheduler

end ScriptBridge
