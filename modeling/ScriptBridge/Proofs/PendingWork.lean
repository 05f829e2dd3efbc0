import ScriptBridge.Proofs.Moves

/-! What waits when. Continuations are left by guest code that is running, and a fault drops them all;
so where a fault has been reported and where its report is on the surface, nothing waits. This is kept by
every move, together with the order of the delays and the numbers of the completion waits. -/

namespace ScriptBridge

namespace Context

theorem hasPendingWork_eq_false {c : Context} :
    c.hasPendingWork = false ↔ c.delays.pending = [] ∧ c.completion.active = none := by
  simp [hasPendingWork, DelayQueue.isEmpty, Completion.isActive]

theorem hasPendingWork_abortPending (c : Context) : c.abortPending.hasPendingWork = false :=
  hasPendingWork_eq_false.mpr ⟨rfl, Completion.cancel_active _⟩

theorem hasPendingWork_new (config : Config) (hasCheckers : Bool) :
    (new config hasCheckers).hasPendingWork = false :=
  hasPendingWork_eq_false.mpr ⟨rfl, rfl⟩

/-- The surface shows a fault of guest code. -/
def hasGuestReport (c : Context) : Bool := c.surface.any fun report => report.origin = .guest

theorem hasGuestReport_reportHostError {c : Context} (h : c.hasGuestReport = false) (message : String)
    (line : Option Int) : (c.reportHostError message line).hasGuestReport = false := by
  unfold hasGuestReport at *
  cases hsurface : c.surface with
  | none => simp [reportHostError, hsurface, capture, Report.capture]
  | some report => simpa [reportHostError, hsurface] using h

theorem hasGuestReport_dismissError (c : Context) : c.dismissError.hasGuestReport = c.hasGuestReport := by
  cases hsurface : c.surface <;> simp [hasGuestReport, dismissError, hsurface]

/-- A failed operation or none on the surface makes way for the fault. -/
theorem reportGuestError_of_no_report {c : Context} (h : c.hasGuestReport = false)
    (message : String) (line : Option Int) :
    (c.reportGuestError message line).2 = { c with surface := some (c.capture .guest message line) } := by
  unfold reportGuestError
  dsimp only
  split
  · rename_i hsurface
    simp [hasGuestReport, hsurface] at h
  · rfl

theorem reportGuestError_continuations (c : Context) (message : String) (line : Option Int) :
    (c.reportGuestError message line).2.delays = c.delays ∧
      (c.reportGuestError message line).2.completion = c.completion := by
  unfold reportGuestError
  dsimp only
  split <;> exact ⟨rfl, rfl⟩

/-- With nothing waiting, no delay is due and no poll hands anything back. -/
theorem idle_advanceDelays {c : Context} (h : c.hasPendingWork = false) :
    c.delays.due? = none ∧ c.advanceDelays.2.hasPendingWork = false := by
  obtain ⟨hpending, hactive⟩ := hasPendingWork_eq_false.mp h
  have hdue := DelayQueue.due?_of_pending_nil hpending
  refine ⟨hdue, hasPendingWork_eq_false.mpr ⟨?_, hactive⟩⟩
  show c.delays.advance.2.pending = []
  rw [DelayQueue.advance_of_due?_none hdue]
  exact DelayQueue.moved_pending_nil hpending

theorem idle_pollCompletion {c : Context} (h : c.hasPendingWork = false) (now : Nat)
    (isRaised : Flag → Bool) :
    c.completion.due? now isRaised = none ∧
      (c.pollCompletion now isRaised).2.hasPendingWork = false := by
  obtain ⟨hpending, hactive⟩ := hasPendingWork_eq_false.mp h
  have hdue := Completion.due?_of_active_none hactive now isRaised
  refine ⟨hdue, hasPendingWork_eq_false.mpr ⟨hpending, ?_⟩⟩
  obtain ⟨-, nextLook, hpoll⟩ := Completion.poll_of_due?_none hdue
  show (c.completion.poll now isRaised).2.active = none
  rw [hpoll, hactive, Option.map_none]

theorem hasPendingWork_elapse (c : Context) (span : Nat) (isRaised : Flag → Bool) :
    (c.elapse span isRaised).hasPendingWork = c.hasPendingWork := by
  show (!c.delays.isEmpty || (c.completion.elapse span isRaised).active.isSome) = _
  rw [Completion.elapse_active]
  rfl

end Context

/-! ### Sound outlines -/

structure Outline.Sound (o : Outline) : Prop where
  delays : o.context.delays.Valid
  completion : o.context.completion.Numbered
  contained : o.errorReported || o.context.hasGuestReport →
    o.context.hasPendingWork = false ∧ o.inGuest = false

namespace Outline

/-- A fresh environment. -/
theorem sound_new (config : Config) (hasCheckers : Bool) :
    (⟨.new config hasCheckers, false, none, none, false⟩ : Outline).Sound where
  delays := DelayQueue.valid_new config.rebaseThreshold
  completion := Completion.numbered_new _ _
  contained := fun h => absurd h (by simp [Context.new, Context.hasGuestReport])

namespace Sound

variable {o : Outline}

/-- A block starts with a clean slate, whatever there was to report. -/
theorem begun (hdelays : o.context.delays.Valid) (hcompletion : o.context.completion.Numbered)
    (source : String) : (o.begun source).Sound where
  delays := hdelays
  completion := hcompletion
  contained := fun h => absurd h (by simp [Outline.begun, Context.beginAttempt, Context.hasGuestReport])

theorem failed (h : o.Sound) (fault : Guest.Fault) : (o.failed fault).Sound := by
  have hsame := o.context.reportGuestError_continuations (Scheduler.diagnose fault).1
    (Scheduler.diagnose fault).2
  constructor
  · show (DelayQueue.clear (o.context.reportGuestError (Scheduler.diagnose fault).1
      (Scheduler.diagnose fault).2).2.delays).Valid
    rw [hsame.1]
    exact h.delays.clear
  · show (Completion.cancel (o.context.reportGuestError (Scheduler.diagnose fault).1
      (Scheduler.diagnose fault).2).2.completion).Numbered
    rw [hsame.2]
    exact h.completion.cancel
  · exact fun _ => ⟨Context.hasPendingWork_abortPending _, rfl⟩

/-- Guest code runs only where no fault is reported or shown. -/
theorem clear_of_inGuest (h : o.Sound) (hguest : o.inGuest) :
    o.errorReported = false ∧ o.context.hasGuestReport = false := by
  rw [← Bool.or_eq_false_iff, ← Bool.not_eq_true]
  intro hfault
  rw [(h.contained hfault).2] at hguest
  cases hguest

/-- A call of a published operation, made while guest code is running. -/
theorem act (h : o.Sound) {x : Happening} {c : Context} (hguest : o.inGuest) (hact : Act o.context x c) :
    ({ o with context := c } : Outline).Sound := by
  have hclear := h.clear_of_inGuest hguest
  have hcontained : c.hasGuestReport = false → o.errorReported || c.hasGuestReport →
      c.hasPendingWork = false ∧ o.inGuest = false := by
    intro hsurface hfault
    rw [hclear.1, hsurface] at hfault
    cases hfault
  cases hact with
  | called record => exact ⟨h.delays, h.completion, hcontained hclear.2⟩
  | failed message line =>
      exact ⟨h.delays, h.completion, hcontained (Context.hasGuestReport_reportHostError hclear.2 _ _)⟩
  | delayed ticks callback => exact ⟨h.delays.schedule _ _, h.completion, hcontained hclear.2⟩
  | awaited now flag callback => exact ⟨h.delays, h.completion.start _ _ _, hcontained hclear.2⟩

end Sound

/-- A submission that finds no active run finds nothing waiting. -/
theorem Sound.idle_of_not_running {o : Outline} (h : o.Sound) (hidle : ¬ o.isRunning) :
    o.context.hasPendingWork = false := by
  cases herror : o.errorReported with
  | true => exact (h.contained (by simp [herror])).1
  | false =>
      simp only [isRunning, herror, Bool.not_false, Bool.true_and, Bool.or_eq_true, not_or,
        Bool.not_eq_true] at hidle
      exact hidle.2.2

end Outline

theorem Move.sound {o o' : Outline} {h : History} (hsound : o.Sound) (hmove : Move o h o') : o'.Sound := by
  cases hmove with
  | act hguest hact => exact hsound.act hguest hact
  | finish => exact ⟨hsound.delays, hsound.completion, fun h => ⟨(hsound.contained h).1, rfl⟩⟩
  | fault fault _ => exact hsound.failed fault
  | stop => exact Outline.sound_new _ _
  | dismiss =>
      refine ⟨hsound.delays, hsound.completion, ?_⟩
      rw [Context.hasGuestReport_dismissError]
      exact hsound.contained
  | elapse span board =>
      refine ⟨hsound.delays, hsound.completion.elapse _ _, ?_⟩
      rw [Context.hasPendingWork_elapse]
      exact hsound.contained
  | block source _ => exact .begun hsound.delays hsound.completion source
  | once => exact ⟨hsound.delays, hsound.completion, hsound.contained⟩
  | repeating => exact ⟨hsound.delays, hsound.completion, hsound.contained⟩
  | tick =>
      refine ⟨hsound.delays.advance, hsound.completion, fun hreport => ?_⟩
      have hidle := (hsound.contained (by simpa using .inr hreport)).1
      obtain ⟨hdue, hidle⟩ := Context.idle_advanceDelays hidle
      exact ⟨hidle, by rw [hdue]; rfl⟩
  | poll now board =>
      refine ⟨hsound.delays, hsound.completion.poll _ _, fun hreport => ?_⟩
      obtain ⟨hdue, hidle⟩ := Context.idle_pollCompletion (hsound.contained hreport).1 now board.isRaised
      exact ⟨hidle, by rw [hdue]; rfl⟩
  | deferred =>
      refine .begun ?_ ?_ _
      · exact hsound.delays
      · exact hsound.completion
  | count => exact ⟨hsound.delays, hsound.completion, hsound.contained⟩
  | repeated =>
      refine .begun ?_ ?_ _
      · exact hsound.delays
      · exact hsound.completion

theorem Path.sound {o o' : Outline} {h : History} (hsound : o.Sound) (hpath : Path o h o') : o'.Sound :=
  hpath.invariant (P := fun _ o => o.Sound) hsound fun _ _ _ _ hsound hmove => hmove.sound hsound

end ScriptBridge
