import ScriptBridge.Proofs.Chronicle
import ScriptBridge.Proofs.LineMarkers
import ScriptBridge.Proofs.PendingWork
import ScriptBridge.Proofs.SourceLines

/-! A fault of guest code ends all that was armed or waiting, and nothing else happens before the request
is over. What is reported of it are its own words, and its own line where the source of the attempt has it.
A tick may run guest code at four places; once one of them has faulted, the places that come after find
nothing to run, so neither the state nor the report on the surface is touched again. -/

namespace ScriptBridge

variable {σ : Type}

/-! ### What a fault says -/

namespace Guest.Fault

/-- The words of a fault: what was raised, or what is wrong with the source. -/
inductive Says : Fault → String → Prop where
  | error (text : String) (line : Option Nat) : Says (.raised (.error text) line) ("runtime error: " ++ text)
  | text (bytes : ByteArray) (line : Option Nat) :
      Says (.raised (.str bytes) line) ("runtime error: " ++ Text.ofBytes bytes)
  | value {v : Value} (line : Option Nat) (herror : ∀ text, v ≠ .error text) (htext : ∀ bytes, v ≠ .str bytes) :
      Says (.raised v line) ("runtime error: " ++ v.describe)
  | malformed (complaint : String) : Says (.malformed complaint) ("syntax error: " ++ complaint)
  | exhausted : Says .exhausted "runtime error: step allowance used up"

theorem says_message (fault : Fault) : fault.Says fault.message := by
  cases fault with
  | raised v line =>
      cases v with
      | error text => exact .error text line
      | str bytes => exact .text bytes line
      | _ => exact .value line nofun nofun
  | malformed complaint => exact .malformed complaint
  | exhausted => exact .exhausted

/-- The line of a fault: the one that the first marker in its words denotes, or, where they have no marker, the one
that was running when something was raised. -/
inductive IsAt (fault : Fault) (words : String) : Int → Prop where
  | marked {m : LineMarker.Marker} {before : List Char} {number : Int}
      (hfirst : m.IsFirstIn words.toList before) (hnumber : m.Denotes number) : IsAt fault words number
  | running {v : Value} {line : Nat} (hfree : ∀ m before, ¬ LineMarker.Marker.StandsIn m words.toList before)
      (hraised : fault = .raised v (some line)) : IsAt fault words line

theorem isAt_iff_of_marker {fault : Fault} {words : String} (hmarker : LineMarker.occursIn words = true)
    {number : Int} : fault.IsAt words number ↔ LineMarker.line? words = some number := by
  rw [LineMarker.line?_eq_some_iff]
  constructor
  · rintro (⟨hfirst, hnumber⟩ | ⟨hfree, -⟩)
    · exact ⟨_, _, hfirst, hnumber⟩
    · obtain ⟨m, before, hstands⟩ := LineMarker.occursIn_iff.mp hmarker
      exact absurd hstands (hfree m before)
  · rintro ⟨m, before, hfirst, hnumber⟩
    exact .marked hfirst hnumber

theorem isAt_iff_of_no_marker {fault : Fault} {words : String} (hfree : LineMarker.occursIn words = false)
    {number : Int} : fault.IsAt words number ↔ fault.line.map Int.ofNat = some number := by
  have hnone (m : LineMarker.Marker) (before : List Char) : ¬ m.StandsIn words.toList before := fun h => by
    cases hfree.symm.trans (LineMarker.occursIn_iff.mpr ⟨m, before, h⟩)
  constructor
  · rintro (⟨hfirst, -⟩ | ⟨-, rfl⟩)
    · exact absurd hfirst.toStandsIn (hnone _ _)
    · rfl
  · intro h
    obtain ⟨line, hline, rfl⟩ := Option.map_eq_some_iff.mp h
    cases fault with
    | raised v running =>
        replace hline : running = some line := hline
        exact .running hnone (by rw [hline])
    | _ => cases hline

/-- The line a report is made with is the line of its fault. -/
theorem isAt_iff_stated (fault : Fault) (number : Int) :
    fault.IsAt (Scheduler.diagnose fault).1 number ↔
      Report.statedLine? (Scheduler.diagnose fault).1 (Scheduler.diagnose fault).2 = some number := by
  rw [Scheduler.diagnose, Report.statedLine?]
  dsimp only
  cases hmarker : LineMarker.occursIn fault.message with
  | true => exact isAt_iff_of_marker hmarker
  | false =>
      have hunmarked : LineMarker.line? fault.message = none := by
        rw [LineMarker.line?, Option.isNone_iff_eq_none.mp (Option.isSome_eq_false_iff.mp hmarker)]
        rfl
      rw [isAt_iff_of_no_marker hmarker, hunmarked, Option.or_none]
      rfl

end Guest.Fault

/-- A report is of a fault: in the fault's words, and at the fault's line if the source has such a line, with the
text that stands there. -/
structure Report.IsOf (report : Report) (fault : Guest.Fault) (source : String) : Prop where
  origin : report.origin = .guest
  words : fault.Says report.message
  line : (∃ number, fault.IsAt report.message number ∧ Report.IsUsable source number ∧ report.lineNumber = number ∧
      (Text.lines source)[number.toNat - 1]? = some report.lineText) ∨
    (∀ number, fault.IsAt report.message number → ¬ Report.IsUsable source number) ∧ report.lineNumber = -1 ∧
      report.lineText = ""

theorem Context.capture_isOf (c : Context) (fault : Guest.Fault) :
    (c.capture .guest (Scheduler.diagnose fault).1 (Scheduler.diagnose fault).2).IsOf fault c.source where
  origin := rfl
  words := fault.says_message
  line := by
    let report := c.capture .guest (Scheduler.diagnose fault).1 (Scheduler.diagnose fault).2
    let stated := Report.statedLine? (Scheduler.diagnose fault).1 (Scheduler.diagnose fault).2
    have hplace : (report.lineNumber, report.lineText) = Report.locate c.source stated := rfl
    by_cases hfound : ∃ number, stated = some number ∧ Report.IsUsable c.source number
    · obtain ⟨number, hnumber, husable⟩ := hfound
      obtain ⟨text, hlocated, htext⟩ := Report.locate_of_usable husable
      rw [hnumber, hlocated] at hplace
      obtain ⟨hline, rfl⟩ := Prod.mk.inj hplace
      exact .inl ⟨number, (fault.isAt_iff_stated number).mpr hnumber, husable, hline, htext⟩
    · have hnone (number : Int) (hnumber : stated = some number) : ¬ Report.IsUsable c.source number :=
        fun husable => hfound ⟨number, hnumber, husable⟩
      rw [Report.locate_of_not_usable hnone] at hplace
      obtain ⟨hline, htext⟩ := Prod.mk.inj hplace
      exact .inr ⟨fun number hat => hnone number ((fault.isAt_iff_stated number).mp hat), hline, htext⟩

/-! ### After a fault -/

/-- What a fault leaves behind: nothing armed, nothing waiting, and its report on the surface. -/
structure Outline.Struck (o : Outline) (fault : Guest.Fault) : Prop where
  idle : o.context.hasPendingWork = false
  deferred : o.deferred = none
  repeating : o.repeating = none
  errorReported : o.errorReported = true
  surface : o.context.surface =
    some (o.context.capture .guest (Scheduler.diagnose fault).1 (Scheduler.diagnose fault).2)

/-- How a series of guest runs comes out: without a fault, or with one fault after which nothing more was
done than look at the flags. -/
inductive Outcome (h : History) (o : Outline) : Prop where
  | clear : (∀ fault, .faulted fault ∉ h) → o.errorReported = false → Outcome h o
  | struck (before : History) (fault : Guest.Fault) (after : History) :
      h = before ++ .faulted fault :: after → (∀ fault, .faulted fault ∉ before) →
      (∀ x ∈ after, ∃ board, x = .looked board) → o.Struck fault → Outcome h o

theorem Outline.struck_failed {o : Outline} (h : o.context.hasGuestReport = false) (fault : Guest.Fault) :
    (o.failed fault).Struck fault where
  idle := Context.hasPendingWork_abortPending _
  deferred := rfl
  repeating := rfl
  errorReported := rfl
  surface := by
    show (o.context.reportGuestError (Scheduler.diagnose fault).1 (Scheduler.diagnose fault).2).2.surface =
      some ((o.context.reportGuestError (Scheduler.diagnose fault).1
        (Scheduler.diagnose fault).2).2.capture .guest _ _)
    rw [Context.reportGuestError_of_no_report h]
    rfl

/-- A poll with nothing to wait for changes nothing that a fault has left. -/
theorem Outline.Struck.poll {o : Outline} {fault : Guest.Fault} (h : o.Struck fault) (now : Nat)
    (board : Board) :
    ({ o with context := (o.context.pollCompletion now board.isRaised).2 } : Outline).Struck fault where
  idle := (Context.idle_pollCompletion h.idle now board.isRaised).2
  deferred := h.deferred
  repeating := h.repeating
  errorReported := h.errorReported
  surface := h.surface

theorem Acts.no_fault {c c' : Context} {h : History} (hacts : Acts c h c') (fault : Guest.Fault) :
    .faulted fault ∉ h := by
  induction hacts with
  | rest => exact List.not_mem_nil
  | more hact _ ih =>
      intro hmem
      rcases List.mem_cons.mp hmem with rfl | hlater
      · cases hact
      · exact ih hlater

namespace Outcome

variable {g h : History} {o o' : Outline}

/-- What comes before without a fault makes no difference. -/
theorem prepend (hg : ∀ fault, .faulted fault ∉ g) (houtcome : Outcome h o) : Outcome (g ++ h) o := by
  cases houtcome with
  | clear hno herror =>
      refine .clear (fun fault hmem => ?_) herror
      rcases List.mem_append.mp hmem with hfirst | hlater
      · exact hg fault hfirst
      · exact hno fault hlater
  | struck before fault after heq hno hafter hstruck =>
      refine .struck (g ++ before) fault after (by rw [heq, List.append_assoc]) (fun fault' hmem => ?_)
        hafter hstruck
      rcases List.mem_append.mp hmem with hfirst | hlater
      · exact hg fault' hfirst
      · exact hno fault' hlater

/-- One part after another: the second is run only where the first came out clear. -/
theorem append (houtcome : Outcome g o) (hclear : o.errorReported = false → Outcome h o')
    (hstruck : ∀ fault, o.Struck fault → (∀ x ∈ h, ∃ board, x = .looked board) ∧ o'.Struck fault) :
    Outcome (g ++ h) o' := by
  cases houtcome with
  | clear hno herror => exact (hclear herror).prepend hno
  | struck before fault after heq hno hafter hfault =>
      obtain ⟨hquiet, hstill⟩ := hstruck fault hfault
      refine .struck before fault (after ++ h) (by rw [heq, List.append_assoc, List.cons_append]) hno ?_ hstill
      intro x hx
      rcases List.mem_append.mp hx with hold | hnew
      · exact hafter x hold
      · exact hquiet x hnew

end Outcome

namespace Scheduler

/-! ### Guest runs -/

/-- Guest code leaves no fault on the surface before it ends. -/
theorem GuestHistory.clear {e : Embedding σ} {code : Guest.State → Guest.Run (List Guest.Value)}
    {s : Scheduler σ} {h : History} (hsound : s.guestOutline.Sound) (hguest : GuestHistory e code s h) :
    (s.withSession (s.guestRun e code).2).errorReported = false ∧
      (s.withSession (s.guestRun e code).2).context.hasGuestReport = false := by
  obtain ⟨acts, hacts, -⟩ := hguest
  have hended : (s.withSession (s.guestRun e code).2).guestOutline.Sound :=
    (Path.of_acts (o := s.guestOutline) rfl hacts).sound hsound
  exact hended.clear_of_inGuest rfl

/-- So a fault that it ends in gets there. -/
theorem GuestHistory.outcome {e : Embedding σ} {code : Guest.State → Guest.Run (List Guest.Value)}
    {s : Scheduler σ} {h : History} (hsound : s.guestOutline.Sound) (hguest : GuestHistory e code s h) :
    Outcome h (s.settled (s.guestRun e code)).outline := by
  have hclear := hguest.clear hsound
  obtain ⟨acts, hacts, rfl⟩ := hguest
  generalize s.guestRun e code = final at hclear ⊢
  obtain ⟨result, session⟩ := final
  cases result with
  | ok values => exact .clear (by simpa [ending] using hacts.no_fault) hclear.1
  | error fault =>
      exact .struck acts fault [] rfl hacts.no_fault (by simp)
        (Outline.struck_failed (o := (s.withSession session).guestOutline) hclear.2 fault)

theorem BlockHistory.outcome {e : Embedding σ} {cause : Cause} {source : String} {s : Scheduler σ}
    {h : History} (hdelays : s.context.delays.Valid) (hcompletion : s.context.completion.Numbered)
    (hblock : BlockHistory e cause source s h) : Outcome h (runBlock e source s).2.outline := by
  obtain ⟨rest, hguest, rfl⟩ := hblock
  obtain ⟨journal, hrun⟩ := runBlock_run e source s
  have hsound : (s.begun source).guestOutline.Sound := .begun (o := s.outline) hdelays hcompletion source
  rw [hrun, outline_withJournal]
  exact (GuestHistory.outcome hsound hguest).prepend (g := [_]) (by simp)

theorem ResumeHistory.outcome {e : Embedding σ} {label : String} {which : Waiting}
    {callback : Guest.Function} {s : Scheduler σ} {h : History} (hsound : s.guestOutline.Sound)
    (hresume : ResumeHistory e label which callback s h) : Outcome h (resume e label callback s).2.outline := by
  obtain ⟨rest, hguest, rfl⟩ := hresume
  obtain ⟨journal, hrun⟩ := resume_run e label callback s
  rw [hrun, outline_withJournal]
  exact (GuestHistory.outcome (s := s.resuming label) hsound hguest).prepend (g := [_]) (by simp)

/-! ### The parts of a tick -/

theorem DelaysHistory.outcome {e : Embedding σ} {s : Scheduler σ} {h : History} (hsound : s.outline.Sound)
    (hdelays : DelaysHistory e s.awake h) : Outcome (.ticked :: h) (s.afterDelays e).outline := by
  have hmoved := (Move.tick s.outline).sound hsound
  have hrun := tickDelays_run e s.awake
  unfold DelaysHistory at hdelays
  refine Outcome.prepend (g := [.ticked]) (by simp) ?_
  rw [afterDelays, hrun]
  cases hdue : s.awake.dueDelay? with
  | none =>
      rw [hdue] at hdelays
      rw [hdelays]
      exact .clear (by simp) rfl
  | some d =>
      rw [hdue] at hdelays
      rw [show s.outline.context.delays.due?.isSome = true from congrArg Option.isSome hdue] at hmoved
      exact ResumeHistory.outcome (s := s.awake.advanced) hmoved hdelays

theorem PollHistory.outcome {e : Embedding σ} {now : Nat} {s : Scheduler σ} {g h : History}
    (hsound : s.outline.Sound) (hpoll : PollHistory e now s h) (hbefore : Outcome g s.outline) :
    Outcome (g ++ .looked s.board :: h) (tickCompletion e now s).2.outline := by
  have hmoved := (Move.poll s.outline now s.board).sound hsound
  have hrun := tickCompletion_run e now s
  unfold PollHistory at hpoll
  refine hbefore.append (fun hclear => ?_) fun fault hstruck => ?_
  · refine Outcome.prepend (g := [.looked s.board]) (by simp) ?_
    rw [hrun]
    cases hdue : s.dueWait? now with
    | none =>
        rw [hdue] at hpoll
        rw [hpoll]
        exact .clear (by simp) hclear
    | some wait =>
        rw [hdue] at hpoll
        rw [show (s.outline.context.completion.due? now s.board.isRaised).isSome = true from
          congrArg Option.isSome hdue] at hmoved
        exact ResumeHistory.outcome (s := s.polled now) hmoved hpoll
  · have hdue : s.dueWait? now = none :=
      (Context.idle_pollCompletion (c := s.context) hstruck.idle now s.board.isRaised).1
    rw [hdue] at hpoll hrun
    rw [hpoll, hrun]
    exact ⟨by simp, hstruck.poll now s.board⟩

theorem DeferredHistory.outcome {e : Embedding σ} {s : Scheduler σ} {g h : History}
    (hsound : s.outline.Sound) (hdeferred : DeferredHistory e s h) (hbefore : Outcome g s.outline) :
    Outcome (g ++ h) (runDeferred e s).2.outline := by
  have hrun := runDeferred_run e s
  unfold DeferredHistory at hdeferred
  refine hbefore.append (fun hclear => ?_) fun fault hstruck => ?_
  · rw [hrun]
    cases harmed : s.deferred with
    | none =>
        rw [harmed] at hdeferred
        rw [hdeferred]
        exact .clear (by simp) hclear
    | some source =>
        rw [harmed] at hdeferred
        exact BlockHistory.outcome hsound.delays hsound.completion hdeferred
  · have harmed : s.deferred = none := hstruck.deferred
    rw [harmed] at hdeferred hrun
    rw [hdeferred, hrun]
    exact ⟨by simp, hstruck⟩

theorem RepeatingHistory.outcome {e : Embedding σ} {s : Scheduler σ} {g h : History}
    (hsound : s.outline.Sound) (hrepeating : RepeatingHistory e s h) (hbefore : Outcome g s.outline) :
    Outcome (g ++ h) (tickRepeating e s).2.outline := by
  unfold RepeatingHistory at hrepeating
  refine hbefore.append (fun hclear => ?_) fun fault hstruck => ?_
  · cases hturn : s.turn? with
    | none =>
        rw [hturn] at hrepeating
        rw [hrepeating]
        rcases tickRepeating_of_turn?_none e hturn with hsame | ⟨r, -, hcounted⟩
        · rw [hsame]
          exact .clear (by simp) hclear
        · rw [hcounted]
          exact .clear (by simp) hclear
    | some r =>
        rw [hturn] at hrepeating
        rw [(tickRepeating_of_turn?_some e hturn).2.2.2]
        exact BlockHistory.outcome (s := s.recounting r) hsound.delays hsound.completion hrepeating
  · have hnone : s.repeating = none := hstruck.repeating
    have hturn : s.turn? = none := by
      rw [turn?, hnone]
      split <;> rfl
    rw [hturn] at hrepeating
    rw [hrepeating, tickRepeating_run, hnone]
    refine ⟨by simp, ?_⟩
    split <;> exact hstruck

theorem TickHistory.outcome {e : Embedding σ} {now : Nat} {s : Scheduler σ} {h : History}
    (hsound : s.outline.Sound) (htick : TickHistory e now s h) : Outcome h (tick e now s).2.outline := by
  obtain ⟨h₁, h₂, h₃, h₄, hdelays, hpoll, hdeferred, hrepeating, rfl⟩ := htick
  have hsound₁ := hdelays.path.sound hsound
  have hsound₂ := hpoll.path.sound hsound₁
  have hsound₃ := hdeferred.path.sound hsound₂
  have houtcome := hrepeating.outcome hsound₃
    (hdeferred.outcome hsound₂ (hpoll.outcome hsound₁ (hdelays.outcome hsound)))
  rw [tick_run]
  simp only [List.cons_append, List.append_assoc] at houtcome
  exact houtcome

/-! ### Blocks -/

/-- A block gives back an error exactly when its code has faulted, the error that is then on the surface. -/
theorem BlockHistory.result {e : Embedding σ} {cause : Cause} {source : String} {s : Scheduler σ}
    {h : History} (hdelays : s.context.delays.Valid) (hcompletion : s.context.completion.Numbered)
    (hblock : BlockHistory e cause source s h) :
    ((∃ fault, .faulted fault ∈ h) → ∃ report, (runBlock e source s).1 = .error report ∧
        (runBlock e source s).2.lastError = some report) ∧
      ((∀ fault, .faulted fault ∉ h) → ∃ values, (runBlock e source s).1 = .ok values) := by
  obtain ⟨rest, hguest, rfl⟩ := hblock
  obtain ⟨journal, hrun⟩ := runBlock_run e source s
  have hresult := runBlock_result e source s
  have hsound : (s.begun source).guestOutline.Sound := .begun (o := s.outline) hdelays hcompletion source
  have hclear := (hguest.clear hsound).2
  obtain ⟨acts, hacts, rfl⟩ := hguest
  rw [hrun]
  generalize (s.begun source).guestRun e (e.engine.execute source) = final at hclear hresult ⊢
  obtain ⟨result, session⟩ := final
  cases result with
  | ok values =>
      refine ⟨fun ⟨fault, hmem⟩ => ?_, fun _ => hresult⟩
      simp only [ending, List.append_nil, List.mem_cons, reduceCtorEq, false_or] at hmem
      exact absurd hmem (hacts.no_fault fault)
  | error fault =>
      refine ⟨fun _ => ⟨_, hresult, ?_⟩, fun hno => absurd ?_ (hno fault)⟩
      · replace hclear : session.bridge.context.hasGuestReport = false := hclear
        have hstruck := Outline.struck_failed (o := ((s.begun source).withSession session).outline) hclear fault
        show (((s.begun source).withSession session).outline.failed fault).context.surface = _
        rw [hstruck.surface]
        show some ((session.bridge.context.reportGuestError (diagnose fault).1
          (diagnose fault).2).2.abortPending.capture .guest _ _) = _
        rw [Context.reportGuestError_of_no_report hclear]
        rfl
      · simp [ending]

/-! ### Runs -/

/-- A fault as it is seen of a scheduler from outside. -/
structure ShowsFault (s : Scheduler σ) (fault : Guest.Fault) (report : Report) : Prop where
  pendingDelays : s.pendingDelays = 0
  completionPending : s.completionPending = false
  deferred : s.deferred = none
  repeating : s.repeating = none
  state : s.state = .errorReported
  lastError : s.lastError = some report
  /-- The source is that of the attempt the fault belongs to. -/
  isOf : report.IsOf fault s.context.source
  isDisplaying : report.isDisplaying = true
  history : report.history = s.callHistory

/-- Every fault in the history of a request is the last thing guest code did in it, and is what the
scheduler shows afterwards; without a fault the scheduler does not report an error. -/
def KeepsFaults (h : History) (s : Scheduler σ) : Prop :=
  (∀ before fault after, h = before ++ .faulted fault :: after →
      (∀ x ∈ after, ∃ board, x = .looked board) ∧ ∃ report, s.ShowsFault fault report) ∧
    ((∀ fault, .faulted fault ∉ h) → s.state ≠ .errorReported)

theorem idle_iff (s : Scheduler σ) :
    s.context.hasPendingWork = false ↔ s.pendingDelays = 0 ∧ s.completionPending = false := by
  simp [Context.hasPendingWork, DelayQueue.isEmpty, pendingDelays, DelayQueue.size, completionPending]

theorem state_ne_errorReported {s : Scheduler σ} (h : s.errorReported = false) :
    s.state ≠ .errorReported := by
  rw [state, h]
  split
  · simp_all
  · split <;> simp

theorem showsFault_of_struck {s : Scheduler σ} {fault : Guest.Fault} (h : s.outline.Struck fault) :
    s.ShowsFault fault (s.context.capture .guest (diagnose fault).1 (diagnose fault).2) where
  pendingDelays := ((idle_iff s).mp h.idle).1
  completionPending := ((idle_iff s).mp h.idle).2
  deferred := h.deferred
  repeating := h.repeating
  state := by
    rw [state, show s.errorReported = true from h.errorReported]
    rfl
  lastError := h.surface
  isOf := s.context.capture_isOf fault
  isDisplaying := rfl
  history := rfl

/-- The one fault of a history splits it in one way. -/
theorem split_at_fault {before before' after after' : History} {fault fault' : Guest.Fault}
    (h : before ++ .faulted fault :: after = before' ++ .faulted fault' :: after')
    (hbefore : ∀ fault, .faulted fault ∉ before) (hafter : ∀ x ∈ after, ∃ board, x = .looked board) :
    fault = fault' ∧ after = after' := by
  rcases History.places h with ⟨-, hfault, rfl⟩ | ⟨between, -, rfl⟩ | ⟨between, rfl, -⟩
  · cases hfault
    exact ⟨rfl, rfl⟩
  · obtain ⟨board, hlooked⟩ := hafter _ (List.mem_append_right between List.mem_cons_self)
    cases hlooked
  · exact absurd (List.mem_append_right _ List.mem_cons_self) (hbefore fault')

theorem keepsFaults_of_outcome {h : History} {s : Scheduler σ} (houtcome : Outcome h s.outline) :
    KeepsFaults h s := by
  cases houtcome with
  | clear hno herror =>
      refine ⟨?_, fun _ => state_ne_errorReported herror⟩
      rintro before fault after rfl
      exact absurd (List.mem_append_right _ List.mem_cons_self) (hno fault)
  | struck before fault after heq hno hafter hstruck =>
      refine ⟨?_, fun hnone => absurd ?_ (hnone fault)⟩
      · intro before' fault' after' heq'
        obtain ⟨rfl, rfl⟩ := split_at_fault (heq.symm.trans heq') hno hafter
        exact ⟨hafter, _, showsFault_of_struck hstruck⟩
      · rw [heq]
        exact List.mem_append_right _ List.mem_cons_self

theorem run_sound (e : Embedding σ) (config : Config) (application : HostState σ)
    (requests : List (Request σ)) : (run e requests (new e config application)).outline.Sound := by
  obtain ⟨h, hchronicle⟩ := exists_chronicle e requests (new e config application)
  refine hchronicle.path.sound ?_
  rw [new_outline]
  exact Outline.sound_new _ _

/-- **Faults are contained.** In every state that a run leads to, a fault on the surface means that
nothing waits. A tick or a block keeps each fault of the guest code it runs: nothing is armed or waiting
afterwards, no guest code has run after the fault, and a report in its words and at its line is on the
surface, which is also the error that a block gives back. Without a fault there is no error to report, whatever
operations failed. -/
theorem faults_contained (e : Embedding σ) (config : Config) (application : HostState σ)
    (requests : List (Request σ)) :
    let s := run e requests (new e config application)
    ((∃ report, s.lastError = some report ∧ report.origin = .guest) →
        s.pendingDelays = 0 ∧ s.completionPending = false) ∧
      (∀ now, (∃ h, (Request.tick now).HasHistory e s h) ∧
        ∀ h, (Request.tick now).HasHistory e s h → KeepsFaults h (tick e now s).2) ∧
      ∀ source, (∃ h, (Request.block source).HasHistory e s h) ∧
        ∀ h, (Request.block source).HasHistory e s h → KeepsFaults h (executeBlock e source s).2 ∧
          ((∃ fault, .faulted fault ∈ h) → ∃ report, (executeBlock e source s).1 = .error report ∧
            (executeBlock e source s).2.lastError = some report) ∧
          ((∀ fault, .faulted fault ∉ h) → ∃ values, (executeBlock e source s).1 = .ok values) := by
  intro s
  have hsound : s.outline.Sound := run_sound e config application requests
  refine ⟨?_, fun now => ⟨Request.exists_history e s _, fun h htick => ?_⟩,
    fun source => ⟨Request.exists_history e s _, fun h hhistory => ?_⟩⟩
  · rintro ⟨report, hsurface, horigin⟩
    have hreport : s.outline.context.hasGuestReport = true := by
      show s.lastError.any _ = true
      rw [hsurface, Option.any_some, horigin]
      rfl
    exact (idle_iff s).mp (hsound.contained (by simp [hreport])).1
  · exact keepsFaults_of_outcome (TickHistory.outcome hsound htick)
  · obtain ⟨rest, hblock, rfl⟩ := hhistory
    have hguarded := (guarded_path e s).1.sound hsound
    rw [executeBlock_run]
    have hinterruption : ∀ fault, .faulted fault ∉ s.interruption := by
      intro fault
      unfold interruption
      split <;> simp
    have houtcome := hblock.outcome hguarded.delays hguarded.completion
    have hresult := hblock.result hguarded.delays hguarded.completion
    refine ⟨keepsFaults_of_outcome ?_, fun ⟨fault, hmem⟩ => hresult.1 ⟨fault, ?_⟩, fun hno =>
      hresult.2 fun fault hmem => hno fault (List.mem_append_right _ (List.mem_cons_of_mem _ hmem))⟩
    · exact (houtcome.prepend (g := [_]) (by simp)).prepend hinterruption
    · rcases List.mem_append.mp hmem with hstop | hlater
      · exact absurd hstop (hinterruption fault)
      · simpa using hlater

end Scheduler
end ScriptBridge
