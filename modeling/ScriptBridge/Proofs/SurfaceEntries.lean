import Mathlib.Data.List.DropRight
import ScriptBridge.Proofs.PendingWork

/-! Which report the surface shows. An attempt has one entry on the surface at most: its first report of a
guest fault, or, as long as there is none, its first report of a failed operation. The entry is as it was
made, with the calls up to then; only its being dismissed is written to it. -/

namespace ScriptBridge

/-- What is done to the surface and to what reports are made of. -/
inductive SurfaceAction where
  | start (source : String)
  | record (call : CallRecord)
  | report (origin : Origin) (message : String) (line : Option Int)
  | dismiss
  | teardown
deriving DecidableEq

namespace SurfaceAction

/-- Ends the attempt there was, be it for the next one. -/
def endsAttempt : SurfaceAction → Bool
  | .start _ | .teardown => true
  | _ => false

def isReport : SurfaceAction → Bool
  | .report .. => true
  | _ => false

def isReportOf (origin : Origin) : SurfaceAction → Bool
  | .report origin' .. => origin' = origin
  | _ => false

/-- The actions of the current attempt. -/
def attempt (actions : List SurfaceAction) : List SurfaceAction :=
  actions.rtakeWhile fun action => !action.endsAttempt

/-- A report of an origin, made after some actions and before others, is the entry of its attempt: the first
report of a guest fault, or the first of a failed operation where no guest fault is reported. -/
structure IsEntry (before : List SurfaceAction) (origin : Origin) (later : List SurfaceAction) : Prop where
  current : ∀ action ∈ later, action.endsAttempt = false
  first : ∀ action ∈ attempt before, action.isReportOf origin = false
  prior : origin = .hostOperation → ∀ action ∈ attempt before ++ later, action.isReportOf .guest = false

/-! ### Attempts -/

theorem isReport_iff (action : SurfaceAction) :
    action.isReport = false ↔ action.isReportOf .guest = false ∧ action.isReportOf .hostOperation = false := by
  cases action with
  | report origin message line => cases origin <;> simp [isReport, isReportOf]
  | _ => simp [isReport, isReportOf]

theorem attempt_append {actions more : List SurfaceAction} (h : ∀ action ∈ more, action.endsAttempt = false) :
    attempt (actions ++ more) = attempt actions ++ more := by
  have hall : ∀ action ∈ more.reverse, (!action.endsAttempt) = true := by simpa using h
  simp [attempt, List.rtakeWhile, List.takeWhile_append_of_pos hall]

theorem not_endsAttempt_of_mem {actions : List SurfaceAction} {action : SurfaceAction}
    (h : action ∈ attempt actions) : action.endsAttempt = false := by
  simpa using List.mem_rtakeWhile_imp h

/-- A run is its earlier attempts, the last of which has ended, and the current one. -/
theorem exists_earlier (actions : List SurfaceAction) : ∃ earlier, actions = earlier ++ attempt actions ∧
    (earlier = [] ∨ ∃ before action, earlier = before ++ [action] ∧ action.endsAttempt = true) := by
  refine ⟨actions.rdropWhile fun action => !action.endsAttempt, (List.rdropWhile_append_rtakeWhile).symm, ?_⟩
  by_cases hnil : actions.rdropWhile (fun action => !action.endsAttempt) = []
  · exact .inl hnil
  · have hlast := List.rdropWhile_last_not _ _ hnil
    exact .inr ⟨_, _, (List.dropLast_append_getLast hnil).symm, by simpa using hlast⟩

/-- The first report of an origin in the current attempt. -/
theorem exists_first_report {actions : List SurfaceAction} {origin : Origin} {action : SurfaceAction}
    (hmem : action ∈ attempt actions) (hreport : action.isReportOf origin = true) :
    ∃ before message line later, actions = before ++ .report origin message line :: later ∧
      attempt actions = attempt before ++ .report origin message line :: later ∧
      (∀ action ∈ later, action.endsAttempt = false) ∧
      ∀ action ∈ attempt before, action.isReportOf origin = false := by
  obtain ⟨found, hfind⟩ : ∃ found, (attempt actions).find? (·.isReportOf origin) = some found :=
    Option.isSome_iff_exists.mp (List.find?_isSome.mpr ⟨action, hmem, hreport⟩)
  obtain ⟨hfound, before, later, hsplit, hfirst⟩ := List.find?_eq_some_iff_append.mp hfind
  obtain ⟨message, line, rfl⟩ : ∃ message line, found = .report origin message line := by
    cases found with
    | report origin' message line =>
        simp only [isReportOf, decide_eq_true_eq] at hfound
        exact ⟨message, line, by rw [hfound]⟩
    | _ => cases hfound
  have hcurrent : ∀ action ∈ before ++ .report origin message line :: later, action.endsAttempt = false :=
    fun action haction => not_endsAttempt_of_mem (hsplit ▸ haction)
  obtain ⟨earlier, hactions, hended⟩ := exists_earlier actions
  have hbefore : attempt (earlier ++ before) = before := by
    rw [attempt_append fun action haction => hcurrent action (List.mem_append_left _ haction)]
    rcases hended with rfl | ⟨before', last, rfl, hends⟩
    · rfl
    · rw [attempt, List.rtakeWhile_concat_neg _ _ _ (by simp [hends]), List.nil_append]
  refine ⟨earlier ++ before, message, line, later, ?_, ?_, ?_, ?_⟩
  · rw [List.append_assoc, ← hsplit]
    exact hactions
  · rw [hbefore, hsplit]
  · exact fun action haction => hcurrent action (List.mem_append_right _ (List.mem_cons_of_mem _ haction))
  · rw [hbefore]
    exact fun action haction => by simpa using hfirst action haction

/-- An attempt with a report has an entry. -/
theorem exists_isEntry {actions : List SurfaceAction} {action : SurfaceAction}
    (hmem : action ∈ attempt actions) (hreport : action.isReport = true) :
    ∃ before origin message line later, actions = before ++ .report origin message line :: later ∧
      IsEntry before origin later := by
  by_cases hguest : ∃ action ∈ attempt actions, action.isReportOf .guest = true
  · obtain ⟨fault, hfault, hguest⟩ := hguest
    obtain ⟨before, message, line, later, hactions, -, hcurrent, hfirst⟩ := exists_first_report hfault hguest
    exact ⟨before, .guest, message, line, later, hactions, hcurrent, hfirst, nofun⟩
  · have hnone : ∀ action ∈ attempt actions, action.isReportOf .guest = false := by simpa using hguest
    have hhost : action.isReportOf .hostOperation = true := by
      have hiff := action.isReport_iff
      simpa [hreport, hnone action hmem] using hiff
    obtain ⟨before, message, line, later, hactions, hattempt, hcurrent, hfirst⟩ := exists_first_report hmem hhost
    refine ⟨before, .hostOperation, message, line, later, hactions, hcurrent, hfirst, fun _ other hother => ?_⟩
    refine hnone other ?_
    rw [hattempt]
    rcases List.mem_append.mp hother with hother | hother
    · exact List.mem_append_left _ hother
    · exact List.mem_append_right _ (List.mem_cons_of_mem _ hother)

end SurfaceAction

namespace Context

open SurfaceAction

def perform (c : Context) : SurfaceAction → Context
  | .start source => c.beginAttempt source
  | .record call => c.recordCall call
  | .report .hostOperation message line => c.reportHostError message line
  | .report .guest message line => (c.reportGuestError message line).2
  | .dismiss => c.dismissError
  | .teardown => c.teardown

def performAll (c : Context) (actions : List SurfaceAction) : Context := actions.foldl perform c

theorem performAll_append (c : Context) (actions more : List SurfaceAction) :
    c.performAll (actions ++ more) = (c.performAll actions).performAll more := List.foldl_append

theorem surface_of_endsAttempt (c : Context) {action : SurfaceAction} (h : action.endsAttempt = true) :
    (c.perform action).surface = none := by
  cases action with
  | start source => rfl
  | teardown => rfl
  | _ => cases h

/-! ### What one action does to the surface -/

theorem perform_surface_none {c : Context} (h : c.surface = none) {action : SurfaceAction}
    (hquiet : action.isReport = false) : (c.perform action).surface = none := by
  cases action with
  | report origin message line => cases hquiet
  | record call => exact h
  | dismiss => simp [perform, dismissError, h]
  | start source => rfl
  | teardown => rfl

theorem perform_no_guestReport {c : Context} (h : c.hasGuestReport = false) {action : SurfaceAction}
    (hquiet : action.isReportOf .guest = false) : (c.perform action).hasGuestReport = false := by
  cases action with
  | report origin message line =>
      cases origin with
      | guest => cases hquiet
      | hostOperation => exact hasGuestReport_reportHostError h message line
  | record call => exact h
  | dismiss => exact (hasGuestReport_dismissError c).trans h
  | start source => rfl
  | teardown => rfl

/-- An entry gives way to nothing but a report of a guest fault in the place of a failed operation. -/
theorem perform_surface_some {c : Context} {r : Report} (h : c.surface = some r) {action : SurfaceAction}
    (hcurrent : action.endsAttempt = false)
    (hprior : r.origin = .hostOperation → action.isReportOf .guest = false) :
    (c.perform action).surface =
      some { r with isDisplaying := r.isDisplaying && decide (action ≠ .dismiss) } := by
  cases action with
  | report origin message line =>
      cases origin with
      | hostOperation => simp [perform, reportHostError, h]
      | guest =>
          cases horigin : r.origin with
          | hostOperation => cases hprior horigin
          | guest =>
              obtain ⟨origin, _, _, _, _, _⟩ := r
              obtain rfl : origin = .guest := horigin
              simp [perform, reportGuestError, h]
  | record call => simpa [perform, recordCall] using h
  | dismiss => simp [perform, dismissError, h]
  | start source => cases hcurrent
  | teardown => cases hcurrent

/-! ### What a series of actions does to the surface -/

theorem performAll_surface_none {c : Context} (h : c.surface = none) {actions : List SurfaceAction}
    (hquiet : ∀ action ∈ actions, action.isReport = false) : (c.performAll actions).surface = none := by
  induction actions generalizing c with
  | nil => exact h
  | cons action rest ih =>
      obtain ⟨hfirst, hrest⟩ := List.forall_mem_cons.mp hquiet
      exact ih (perform_surface_none h hfirst) hrest

theorem performAll_no_guestReport {c : Context} (h : c.hasGuestReport = false)
    {actions : List SurfaceAction} (hquiet : ∀ action ∈ actions, action.isReportOf .guest = false) :
    (c.performAll actions).hasGuestReport = false := by
  induction actions generalizing c with
  | nil => exact h
  | cons action rest ih =>
      obtain ⟨hfirst, hrest⟩ := List.forall_mem_cons.mp hquiet
      exact ih (perform_no_guestReport h hfirst) hrest

/-- An entry that keeps its place is hidden just when it has been dismissed. -/
theorem performAll_surface_some {c : Context} {r : Report} (h : c.surface = some r)
    {actions : List SurfaceAction} (hcurrent : ∀ action ∈ actions, action.endsAttempt = false)
    (hprior : r.origin = .hostOperation → ∀ action ∈ actions, action.isReportOf .guest = false) :
    (c.performAll actions).surface =
      some { r with isDisplaying := r.isDisplaying && decide (.dismiss ∉ actions) } := by
  induction actions generalizing c r with
  | nil => simp [performAll, h]
  | cons action rest ih =>
      obtain ⟨hfirst, hrest⟩ := List.forall_mem_cons.mp hcurrent
      have hstep := perform_surface_some h hfirst fun horigin =>
        hprior horigin action List.mem_cons_self
      have hkept := ih hstep hrest fun horigin action' haction' =>
        hprior horigin action' (List.mem_cons_of_mem _ haction')
      refine hkept.trans ?_
      simp [Bool.and_assoc, eq_comm]

/-- Where an attempt begins, the surface is empty. -/
theorem exists_attempt {c : Context} (h : c.surface = none) (actions : List SurfaceAction) :
    ∃ c' : Context, c'.surface = none ∧ c.performAll actions = c'.performAll (attempt actions) := by
  obtain ⟨earlier, hactions, hended⟩ := exists_earlier actions
  refine ⟨c.performAll earlier, ?_, by rw [← performAll_append, ← hactions]⟩
  rcases hended with rfl | ⟨before, action, rfl, hends⟩
  · exact h
  · rw [performAll_append]
    exact surface_of_endsAttempt _ hends

theorem surface_of_quiet_attempt {c : Context} (h : c.surface = none) {actions : List SurfaceAction}
    (hquiet : ∀ action ∈ attempt actions, action.isReport = false) :
    (c.performAll actions).surface = none := by
  obtain ⟨c', hnone, hrun⟩ := exists_attempt h actions
  rw [hrun]
  exact performAll_surface_none hnone hquiet

theorem no_guestReport_of_quiet_attempt {c : Context} (h : c.surface = none)
    {actions : List SurfaceAction} (hquiet : ∀ action ∈ attempt actions, action.isReportOf .guest = false) :
    (c.performAll actions).hasGuestReport = false := by
  obtain ⟨c', hnone, hrun⟩ := exists_attempt h actions
  rw [hrun]
  exact performAll_no_guestReport (by simp [hasGuestReport, hnone]) hquiet

/-! ### The entry -/

/-- The entry of an attempt is what the surface shows. -/
theorem surface_of_isEntry {c : Context} (h : c.surface = none) {before later : List SurfaceAction}
    {origin : Origin} (hentry : IsEntry before origin later) (message : String) (line : Option Int) :
    (c.performAll (before ++ .report origin message line :: later)).surface =
      some { (c.performAll before).capture origin message line with
        isDisplaying := decide (.dismiss ∉ later) } := by
  have hplaced : ((c.performAll before).perform (.report origin message line)).surface =
      some ((c.performAll before).capture origin message line) := by
    cases origin with
    | guest =>
        have hclear := no_guestReport_of_quiet_attempt h hentry.first
        exact congrArg Context.surface (reportGuestError_of_no_report hclear message line)
    | hostOperation =>
        have hclear : (c.performAll before).surface = none := by
          refine surface_of_quiet_attempt h fun action haction => (isReport_iff action).mpr ⟨?_, ?_⟩
          · exact hentry.prior rfl action (List.mem_append_left _ haction)
          · exact hentry.first action haction
        simp [perform, reportHostError, hclear]
  rw [performAll_append]
  refine (performAll_surface_some hplaced hentry.current fun horigin action haction => ?_).trans ?_
  · exact hentry.prior horigin action (List.mem_append_right _ haction)
  · rfl

/-- **The surface shows one report of the attempt.** Whatever is recorded, reported, dismissed, started and
torn down in a new context, the surface is empty as long as the attempt has no report, and else shows its
entry as it was made, with the calls that the history held then, displayed unless it has been dismissed
since. -/
theorem surface_shows_entry (config : Config) (hasCheckers : Bool) (actions : List SurfaceAction) :
    let c := new config hasCheckers
    ((c.performAll actions).surface = none ↔ ∀ action ∈ attempt actions, action.isReport = false) ∧
      ∀ r, (c.performAll actions).surface = some r ↔
        ∃ before origin message line later, actions = before ++ .report origin message line :: later ∧
          IsEntry before origin later ∧ r.history = (c.performAll before).history.records ∧
          r = { (c.performAll before).capture origin message line with
            isDisplaying := decide (.dismiss ∉ later) } := by
  intro c
  have hnew : c.surface = none := rfl
  constructor
  · refine ⟨fun hnone => ?_, surface_of_quiet_attempt hnew⟩
    intro action haction
    by_contra hreport
    obtain ⟨before, origin, message, line, later, rfl, hentry⟩ :=
      exists_isEntry haction (Bool.not_eq_false _ ▸ hreport)
    rw [surface_of_isEntry hnew hentry] at hnone
    cases hnone
  · intro r
    constructor
    · intro hshown
      obtain ⟨action, haction, hreport⟩ : ∃ action ∈ attempt actions, action.isReport = true := by
        by_contra hquiet
        rw [surface_of_quiet_attempt hnew (by simpa using hquiet)] at hshown
        cases hshown
      obtain ⟨before, origin, message, line, later, rfl, hentry⟩ := exists_isEntry haction hreport
      rw [surface_of_isEntry hnew hentry, Option.some.injEq] at hshown
      subst hshown
      exact ⟨before, origin, message, line, later, rfl, hentry, rfl, rfl⟩
    · rintro ⟨before, origin, message, line, later, rfl, hentry, -, rfl⟩
      exact surface_of_isEntry hnew hentry message line

end Context
end ScriptBridge
