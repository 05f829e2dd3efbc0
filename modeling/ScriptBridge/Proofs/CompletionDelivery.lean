import ScriptBridge.Proofs.CompletionSteps

/-! Completion waits under every schedule. The owner starts waits, gives them up and polls; the host raises
flags; and the checker of each wait looks at its flag and reports at moments of its own, even long after its
wait was given up or replaced. Whatever the order, a poll hands back the callback of the wait that was
started last and has not been ended since, once, and only after that wait's own flag was raised: numbers
are given once, so a late report stands for no wait but its own. -/

namespace ScriptBridge

variable {α : Type}

/-- The checker of a wait beside its owner. Giving up the wait may come too late to stop it. -/
structure Watcher where
  id : Nat
  flag : Flag
  /-- It has seen its flag raised and has yet to report. -/
  hasSeen : Bool

/-- A completion, the host's flags, and a checker for every wait that was ever started. -/
structure Waits (α : Type) where
  completion : Completion α
  board : Board
  watchers : List Watcher

inductive WaitAction (α : Type) where
  | start (now : Nat) (flag : Flag) (callback : α)
  | cancel
  | poll (now : Nat)
  | raise (flag : Flag)
  /-- The checker of a wait looks at its flag. -/
  | look (id : Nat)
  /-- The checker of a wait reports, if it has seen its flag raised, and is done. -/
  | report (id : Nat)
  /-- A span passes for the checkers that the owner keeps. -/
  | elapse (span : Nat)

/-- What becomes of waits. -/
inductive WaitEvent (α : Type) where
  | started (id : Nat) (flag : Flag) (callback : α)
  | cancelled
  | raised (flag : Flag)
  /-- A poll hands back a callback while the wait of a number is active. -/
  | answered (id : Nat) (callback : α)

namespace WaitEvent

def startedId? : WaitEvent α → Option Nat
  | started id _ _ => some id
  | _ => none

def answeredId? : WaitEvent α → Option Nat
  | answered id _ => some id
  | _ => none

/-- The wait that is active after an event, by number, flag and callback. -/
def current (before : Option (Nat × Flag × α)) : WaitEvent α → Option (Nat × Flag × α)
  | started id flag callback => some (id, flag, callback)
  | cancelled | answered _ _ => none
  | raised _ => before

end WaitEvent

namespace Watcher

/-- Looks at its flag; what it has seen stays seen. -/
def look (watcher : Watcher) (isRaised : Flag → Bool) : Watcher :=
  { watcher with hasSeen := watcher.hasSeen || isRaised watcher.flag }

/-- It is the checker of a wait and about to report. -/
def isReady (id : Nat) (watcher : Watcher) : Bool := watcher.id = id && watcher.hasSeen

end Watcher

namespace Waits

/-- The numbers of all waits started. -/
def startedIds (past : List (WaitEvent α)) : List Nat := past.filterMap WaitEvent.startedId?

/-- The number of the wait of each callback handed back. -/
def answeredIds (past : List (WaitEvent α)) : List Nat := past.filterMap WaitEvent.answeredId?

/-- The wait started last, unless it was given up or answered since. -/
def current (past : List (WaitEvent α)) : Option (Nat × Flag × α) := past.foldl WaitEvent.current none

/-- What a poll has to tell, from the wait that was active and what it handed back. -/
def answer : Option (Wait α) → Option α → List (WaitEvent α)
  | some wait, some callback => [.answered wait.id callback]
  | _, _ => []

def perform (w : Waits α) : WaitAction α → List (WaitEvent α) × Waits α
  | .start now flag callback =>
      ([.started w.completion.nextId flag callback],
        { w with
          completion := w.completion.start now flag callback
          watchers := if w.completion.hasCheckers then w.watchers ++ [⟨w.completion.nextId, flag, false⟩]
            else w.watchers })
  | .cancel => ([.cancelled], { w with completion := w.completion.cancel })
  | .poll now =>
      let polled := w.completion.poll now w.board.isRaised
      (answer w.completion.active polled.1, { w with completion := polled.2 })
  | .raise flag => ([.raised flag], { w with board := w.board.raise flag })
  | .look id =>
      ([], { w with watchers := w.watchers.map fun watcher =>
        if watcher.id = id then watcher.look w.board.isRaised else watcher })
  | .report id =>
      ([], if w.watchers.any (Watcher.isReady id) then
          { w with
            completion := w.completion.deliver id
            watchers := w.watchers.filter (·.id ≠ id) }
        else w)
  | .elapse span => ([], { w with completion := w.completion.elapse span w.board.isRaised })

/-- Carries out actions one after another and gathers what becomes of waits. -/
def run : List (WaitAction α) → Waits α → List (WaitEvent α) × Waits α
  | [], w => ([], w)
  | action :: rest, w =>
      let (events, w) := w.perform action
      let (more, w) := run rest w
      (events ++ more, w)

/-- No wait has been started yet. -/
def fresh (interval : Nat) (hasCheckers : Bool) (board : Board) : Waits α :=
  ⟨.new interval hasCheckers, board, []⟩

end Waits

namespace Board

variable {board : Board} {flag : Flag}

theorem isRaised_raise {flag' : Flag} (h : (board.raise flag').isRaised flag = true) :
    board.isRaised flag = true ∨ flag = flag' := by
  by_cases heq : flag'.id = flag.id
  · right
    cases flag
    cases flag'
    exact congrArg Flag.mk heq.symm
  · left
    rwa [isRaised, raise, Array.getElem?_setIfInBounds_ne heq] at h

theorem isRaised_raise_of_isRaised (h : board.isRaised flag = true) (flag' : Flag) :
    (board.raise flag').isRaised flag = true := by
  unfold isRaised raise at *
  rw [Array.getElem?_setIfInBounds]
  split
  · rename_i heq
    have hlt : flag'.id < board.raised.size := by
      rw [heq]
      refine Nat.lt_of_not_le fun hle => ?_
      rw [Array.getElem?_eq_none hle] at h
      cases h
    rw [if_pos hlt, Option.getD_some]
  · exact h

end Board

theorem Completion.Numbered.deliver {c : Completion α} (h : c.Numbered) {id : Nat} (hid : id < c.nextId) :
    (c.deliver id).Numbered where
  active_lt := h.active_lt
  reports_lt := by
    intro id' hmem
    rcases List.mem_append.mp hmem with hold | hnew
    · exact h.reports_lt id' hold
    · rwa [List.mem_singleton.mp hnew]
  checkers_lt := h.checkers_lt
  flag_eq := h.flag_eq

namespace Waits

/-! ### What holds after every action -/

/-- A number stands for the flag of the wait it was given to, as far as that wait is still active. -/
def Names (c : Completion α) (id : Nat) (flag : Flag) : Prop :=
  id < c.nextId ∧ ∀ wait, c.active = some wait → id = wait.id → flag = wait.flag

/-- The active wait is the one that events tell of, numbers are used once, and what has been seen or
reported of the active wait is true of its own flag. -/
structure Traced (board : Board) (past : List (WaitEvent α)) (w : Waits α) : Prop where
  numbered : w.completion.Numbered
  active : w.completion.active.map (fun wait => (wait.id, wait.flag, wait.callback)) = current past
  started_lt : ∀ id ∈ startedIds past, id < w.completion.nextId
  started_nodup : (startedIds past).Nodup
  answered_lt : ∀ id ∈ answeredIds past, id < w.completion.nextId
  answered_nodup : (answeredIds past).Nodup
  unanswered : ∀ wait, w.completion.active = some wait → wait.id ∉ answeredIds past
  watchers : ∀ watcher ∈ w.watchers, Names w.completion watcher.id watcher.flag ∧
    (watcher.hasSeen = true → w.board.isRaised watcher.flag = true)
  reported : ∀ wait, w.completion.active = some wait → wait.id ∈ w.completion.reports →
    w.board.isRaised wait.flag = true
  raised : ∀ flag, w.board.isRaised flag = true → board.isRaised flag = true ∨ .raised flag ∈ past

theorem traced_fresh (interval : Nat) (hasCheckers : Bool) (board : Board) :
    Traced board [] (fresh interval hasCheckers board : Waits α) where
  numbered := Completion.numbered_new interval hasCheckers
  active := rfl
  started_lt := by simp [startedIds]
  started_nodup := List.nodup_nil
  answered_lt := by simp [answeredIds]
  answered_nodup := List.nodup_nil
  unanswered := by simp [answeredIds]
  watchers := by simp [fresh]
  reported := by simp [fresh, Completion.new]
  raised := fun _ h => .inl h

namespace Traced

variable {board : Board} {past : List (WaitEvent α)} {w : Waits α} (h : Traced board past w)

include h

theorem start (now : Nat) (flag : Flag) (callback : α) :
    Traced board (past ++ (w.perform (.start now flag callback)).1)
      (w.perform (.start now flag callback)).2 := by
  have hnext : (w.completion.start now flag callback).nextId = w.completion.nextId + 1 := by
    rw [Completion.start, Completion.cancel_nextId]
  have hactive : ∀ wait, (w.completion.start now flag callback).active = some wait →
      wait.id = w.completion.nextId ∧ wait.flag = flag := by
    intro wait hwait
    cases hwait
    exact ⟨Completion.cancel_nextId _, rfl⟩
  have hstarted : startedIds (past ++ [.started w.completion.nextId flag callback]) =
      startedIds past ++ [w.completion.nextId] := List.filterMap_append
  have hanswered : answeredIds (past ++ [.started w.completion.nextId flag callback]) = answeredIds past := by
    simp [answeredIds, WaitEvent.answeredId?]
  constructor
  · exact h.numbered.start now flag callback
  · show some (w.completion.cancel.nextId, flag, callback) = _
    rw [Completion.cancel_nextId, perform, current, List.foldl_append]
    rfl
  · intro id hid
    show id < (w.completion.start now flag callback).nextId
    rw [perform, hstarted, List.mem_append, List.mem_singleton] at hid
    rcases hid with hold | rfl
    · have := h.started_lt id hold
      omega
    · omega
  · rw [perform, hstarted, List.nodup_append]
    refine ⟨h.started_nodup, by simp, fun id hid id' hid' => ?_⟩
    rw [List.mem_singleton.mp hid']
    exact Nat.ne_of_lt (h.started_lt id hid)
  · intro id hid
    show id < (w.completion.start now flag callback).nextId
    rw [perform, hanswered] at hid
    have := h.answered_lt id hid
    omega
  · rw [perform, hanswered]
    exact h.answered_nodup
  · intro wait hwait hid
    rw [perform, hanswered, (hactive wait hwait).1] at hid
    exact absurd (h.answered_lt _ hid) (Nat.lt_irrefl _)
  · intro watcher hmem
    have hcases : watcher ∈ w.watchers ∨ watcher = ⟨w.completion.nextId, flag, false⟩ := by
      simp only [perform] at hmem
      split at hmem
      · simpa using hmem
      · exact .inl hmem
    rcases hcases with hold | rfl
    · obtain ⟨⟨hlt, -⟩, hseen⟩ := h.watchers watcher hold
      refine ⟨⟨?_, fun wait hwait hid => ?_⟩, hseen⟩
      · show watcher.id < (w.completion.start now flag callback).nextId
        omega
      · exact absurd (hid.trans (hactive wait hwait).1) (Nat.ne_of_lt hlt)
    · refine ⟨⟨?_, fun wait hwait _ => (hactive wait hwait).2.symm⟩, Bool.noConfusion⟩
      show w.completion.nextId < (w.completion.start now flag callback).nextId
      omega
  · intro wait hwait hid
    -- no report can be of a number that was not given before
    have hlt : wait.id < w.completion.cancel.nextId := h.numbered.cancel.reports_lt wait.id hid
    rw [(hactive wait hwait).1, Completion.cancel_nextId] at hlt
    exact absurd hlt (Nat.lt_irrefl _)
  · exact fun flag' hraised => (h.raised flag' hraised).imp_right (List.mem_append_left _)

/-- An action that neither starts a wait nor answers one; it may give up the active wait. -/
theorem frame {events : List (WaitEvent α)} {w' : Waits α} (hstarted : startedIds events = [])
    (hanswered : answeredIds events = []) (hnumbered : w'.completion.Numbered)
    (hnext : w'.completion.nextId = w.completion.nextId)
    (hactive : ∀ wait, w'.completion.active = some wait →
      ∃ wait', w.completion.active = some wait' ∧ wait'.id = wait.id ∧ wait'.flag = wait.flag)
    (hcurrent : w'.completion.active.map (fun wait => (wait.id, wait.flag, wait.callback)) =
      current (past ++ events))
    (hwatchers : ∀ watcher ∈ w'.watchers, ∃ watcher' ∈ w.watchers, watcher'.id = watcher.id ∧
      watcher'.flag = watcher.flag ∧
      (watcher.hasSeen = true → watcher'.hasSeen = true ∨ w'.board.isRaised watcher.flag = true))
    (hreported : ∀ wait, w.completion.active = some wait → wait.id ∈ w'.completion.reports →
      wait.id ∈ w.completion.reports ∨ w'.board.isRaised wait.flag = true)
    (hkept : ∀ flag, w.board.isRaised flag = true → w'.board.isRaised flag = true)
    (hraised : ∀ flag, w'.board.isRaised flag = true → w.board.isRaised flag = true ∨ .raised flag ∈ events) :
    Traced board (past ++ events) w' := by
  have hstarted' : startedIds (past ++ events) = startedIds past := by
    rw [startedIds, List.filterMap_append]
    exact (congrArg (_ ++ ·) hstarted).trans (List.append_nil _)
  have hanswered' : answeredIds (past ++ events) = answeredIds past := by
    rw [answeredIds, List.filterMap_append]
    exact (congrArg (_ ++ ·) hanswered).trans (List.append_nil _)
  constructor
  · exact hnumbered
  · exact hcurrent
  · rw [hstarted', hnext]
    exact h.started_lt
  · rw [hstarted']
    exact h.started_nodup
  · rw [hanswered', hnext]
    exact h.answered_lt
  · rw [hanswered']
    exact h.answered_nodup
  · rw [hanswered']
    intro wait hwait
    obtain ⟨wait', hwait', hid, -⟩ := hactive wait hwait
    exact hid ▸ h.unanswered wait' hwait'
  · intro watcher hmem
    obtain ⟨watcher', hmem', hid, hflag, hseen⟩ := hwatchers watcher hmem
    obtain ⟨⟨hlt, hname⟩, hseen'⟩ := h.watchers watcher' hmem'
    rw [← hid, ← hflag]
    refine ⟨⟨hnext ▸ hlt, fun wait hwait hsame => ?_⟩, fun hsaw => ?_⟩
    · obtain ⟨wait', hwait', hid', hflag'⟩ := hactive wait hwait
      rw [← hflag']
      exact hname wait' hwait' (hsame.trans hid'.symm)
    · rcases hseen hsaw with hbefore | hnow
      · exact hkept _ (hseen' hbefore)
      · rwa [hflag]
  · intro wait hwait hmem
    obtain ⟨wait', hwait', hid, hflag⟩ := hactive wait hwait
    rw [← hflag]
    rcases hreported wait' hwait' (hid ▸ hmem) with hbefore | hnow
    · exact hkept _ (h.reported wait' hwait' hbefore)
    · exact hnow
  · intro flag hup
    rcases hraised flag hup with hbefore | hnow
    · exact (h.raised flag hbefore).imp_right (List.mem_append_left _)
    · exact .inr (List.mem_append_right _ hnow)

theorem cancel : Traced board (past ++ (w.perform .cancel).1) (w.perform .cancel).2 := by
  have hnone : w.completion.cancel.active = none := Completion.cancel_active _
  refine h.frame rfl rfl h.numbered.cancel (Completion.cancel_nextId _) ?_ ?_
    (fun watcher hmem => ⟨watcher, hmem, rfl, rfl, .inl⟩) ?_ (fun _ hup => hup) (fun _ hup => .inl hup)
  · intro wait hwait
    exact absurd (hnone.symm.trans hwait) nofun
  · show w.completion.cancel.active.map _ = _
    rw [hnone, perform, current, List.foldl_append]
    rfl
  · intro wait _ hid
    rw [← Completion.cancel_reports]
    exact .inl hid

theorem raise (flag : Flag) :
    Traced board (past ++ (w.perform (.raise flag)).1) (w.perform (.raise flag)).2 := by
  refine h.frame rfl rfl h.numbered rfl (fun wait hwait => ⟨wait, hwait, rfl, rfl⟩) ?_
    (fun watcher hmem => ⟨watcher, hmem, rfl, rfl, .inl⟩) (fun _ _ hid => .inl hid)
    (fun _ hup => Board.isRaised_raise_of_isRaised hup flag) (fun flag' hup => ?_)
  · rw [perform, current, List.foldl_append]
    exact h.active
  · rcases Board.isRaised_raise hup with hbefore | rfl
    · exact .inl hbefore
    · exact .inr (List.mem_singleton_self _)

theorem look (id : Nat) : Traced board (past ++ (w.perform (.look id)).1) (w.perform (.look id)).2 := by
  refine h.frame rfl rfl h.numbered rfl (fun wait hwait => ⟨wait, hwait, rfl, rfl⟩) ?_ (fun watcher hmem => ?_)
    (fun _ _ hid => .inl hid) (fun _ hup => hup) (fun _ hup => .inl hup)
  · rw [perform, List.append_nil]
    exact h.active
  · obtain ⟨watcher', hmem', rfl⟩ := List.mem_map.mp hmem
    refine ⟨watcher', hmem', ?_⟩
    split
    · refine ⟨rfl, rfl, fun hsaw => ?_⟩
      simpa [Watcher.look, perform] using hsaw
    · exact ⟨rfl, rfl, .inl⟩

theorem report (id : Nat) :
    Traced board (past ++ (w.perform (.report id)).1) (w.perform (.report id)).2 := by
  rw [perform]
  split
  · rename_i hready
    obtain ⟨watcher, hmem, hready⟩ := List.any_eq_true.mp hready
    simp only [Watcher.isReady, Bool.and_eq_true, decide_eq_true_eq] at hready
    obtain ⟨rfl, hsaw⟩ := hready
    obtain ⟨⟨hlt, hname⟩, hseen⟩ := h.watchers watcher hmem
    refine h.frame rfl rfl (h.numbered.deliver hlt) rfl (fun wait hwait => ⟨wait, hwait, rfl, rfl⟩) ?_
      (fun watcher hmem => ⟨watcher, (List.mem_filter.mp hmem).1, rfl, rfl, .inl⟩) ?_ (fun _ hup => hup)
      (fun _ hup => .inl hup)
    · rw [List.append_nil]
      exact h.active
    · intro wait hwait hid
      rcases List.mem_append.mp hid with hold | hnew
      · exact .inl hold
      · right
        rw [← hname wait hwait (List.mem_singleton.mp hnew).symm]
        exact hseen hsaw
  · rwa [List.append_nil]

theorem elapse (span : Nat) :
    Traced board (past ++ (w.perform (.elapse span)).1) (w.perform (.elapse span)).2 := by
  have hactive : (w.completion.elapse span w.board.isRaised).active = w.completion.active :=
    Completion.elapse_active ..
  refine h.frame rfl rfl (h.numbered.elapse span w.board.isRaised) (Completion.elapse_nextId ..)
    (fun wait hwait => ⟨wait, hactive ▸ hwait, rfl, rfl⟩) ?_ (fun watcher hmem => ⟨watcher, hmem, rfl, rfl, .inl⟩) ?_
    (fun _ hup => hup) (fun _ hup => .inl hup)
  · show (w.completion.elapse span w.board.isRaised).active.map _ = _
    rw [hactive, perform, List.append_nil]
    exact h.active
  · intro wait hwait hid
    rcases Completion.mem_elapse_reports hid with hold | ⟨checker, hmem, hnumber, hup⟩
    · exact .inl hold
    · right
      rw [← h.numbered.flag_eq checker hmem wait hwait hnumber]
      exact hup

/-- A poll that hands nothing back leaves the active wait as it was, but for its next look. -/
theorem poll_of_due?_none {now : Nat} (hdue : w.completion.due? now w.board.isRaised = none) :
    Traced board (past ++ (w.perform (.poll now)).1) (w.perform (.poll now)).2 := by
  obtain ⟨hresult, nextLook, hpoll⟩ := Completion.poll_of_due?_none hdue
  have hevents : (w.perform (.poll now)).1 = [] := by
    show answer w.completion.active (w.completion.poll now w.board.isRaised).1 = []
    rw [hresult]
    cases w.completion.active <;> rfl
  have hafter : (w.perform (.poll now)).2 = { w with completion := { w.completion with
      active := w.completion.active.map fun wait => { wait with nextLook := nextLook wait }
      reports := [] } } := congrArg (fun completion => { w with completion }) hpoll
  have hnumbered := h.numbered.poll now w.board.isRaised
  rw [hpoll] at hnumbered
  rw [hevents, hafter]
  refine h.frame rfl rfl hnumbered rfl (fun wait hwait => ?_) ?_
    (fun watcher hmem => ⟨watcher, hmem, rfl, rfl, .inl⟩) (fun _ _ hid => absurd hid List.not_mem_nil)
    (fun _ hup => hup) (fun _ hup => .inl hup)
  · obtain ⟨wait', hwait', rfl⟩ := Option.map_eq_some_iff.mp hwait
    exact ⟨wait', hwait', rfl, rfl⟩
  · rw [List.append_nil, ← h.active, Option.map_map]
    rfl

/-- A poll that hands back the callback of the active wait ends that wait. -/
theorem poll_of_due?_some {now : Nat} {wait : Wait α}
    (hdue : w.completion.due? now w.board.isRaised = some wait) :
    Traced board (past ++ (w.perform (.poll now)).1) (w.perform (.poll now)).2 := by
  obtain ⟨hactive, -, hpoll⟩ := Completion.poll_of_due?_some hdue
  have hevents : (w.perform (.poll now)).1 = [.answered wait.id wait.callback] := by
    rw [perform, hpoll, hactive]
    rfl
  have hafter : (w.perform (.poll now)).2 =
      { w with completion := { w.completion.cancel with reports := [] } } := by
    rw [perform, hpoll]
  have hnumbered := h.numbered.poll now w.board.isRaised
  rw [hpoll] at hnumbered
  have hnone : w.completion.cancel.active = none := Completion.cancel_active _
  have hnext : w.completion.cancel.nextId = w.completion.nextId := Completion.cancel_nextId _
  have hstarted : startedIds (past ++ [.answered wait.id wait.callback]) = startedIds past := by
    simp [startedIds, WaitEvent.startedId?]
  have hanswered : answeredIds (past ++ [.answered wait.id wait.callback]) = answeredIds past ++ [wait.id] :=
    List.filterMap_append
  rw [hevents, hafter]
  constructor
  · exact hnumbered
  · show w.completion.cancel.active.map _ = _
    rw [hnone, current, List.foldl_append]
    rfl
  · rw [hstarted]
    exact fun id hid => hnext ▸ h.started_lt id hid
  · rw [hstarted]
    exact h.started_nodup
  · intro id hid
    show id < w.completion.cancel.nextId
    rw [hanswered, List.mem_append, List.mem_singleton] at hid
    rw [hnext]
    rcases hid with hold | rfl
    · exact h.answered_lt id hold
    · exact h.numbered.active_lt wait hactive
  · rw [hanswered, List.nodup_append]
    refine ⟨h.answered_nodup, by simp, fun id hid id' hid' heq => ?_⟩
    rw [List.mem_singleton.mp hid'] at heq
    exact h.unanswered wait hactive (heq ▸ hid)
  · exact fun wait' hwait => absurd (hnone.symm.trans hwait) nofun
  · intro watcher hmem
    obtain ⟨⟨hlt, -⟩, hseen⟩ := h.watchers watcher hmem
    exact ⟨⟨hnext ▸ hlt, fun wait' hwait => absurd (hnone.symm.trans hwait) nofun⟩, hseen⟩
  · exact fun wait' hwait => absurd (hnone.symm.trans hwait) nofun
  · exact fun flag hup => (h.raised flag hup).imp_right (List.mem_append_left _)

theorem perform (action : WaitAction α) :
    Traced board (past ++ (w.perform action).1) (w.perform action).2 := by
  cases action with
  | start now flag callback => exact h.start now flag callback
  | cancel => exact h.cancel
  | poll now =>
      cases hdue : w.completion.due? now w.board.isRaised with
      | none => exact h.poll_of_due?_none hdue
      | some wait => exact h.poll_of_due?_some hdue
  | raise flag => exact h.raise flag
  | look id => exact h.look id
  | report id => exact h.report id
  | elapse span => exact h.elapse span

theorem run (actions : List (WaitAction α)) :
    Traced board (past ++ (Waits.run actions w).1) (Waits.run actions w).2 := by
  induction actions generalizing past w with
  | nil =>
      rw [Waits.run, List.append_nil]
      exact h
  | cons action rest ih =>
      have hrest := ih (h.perform action)
      rwa [List.append_assoc] at hrest

/-- An action that hands back a callback does nothing else: the callback is that of the active wait, and that
wait's flag was raised before. -/
theorem answered (action : WaitAction α) {id : Nat} {callback : α}
    (hmem : .answered id callback ∈ (w.perform action).1) :
    (w.perform action).1 = [.answered id callback] ∧
      ∃ flag, current past = some (id, flag, callback) ∧ (board.isRaised flag = true ∨ .raised flag ∈ past) := by
  cases action with
  | poll now =>
      cases hdue : w.completion.due? now w.board.isRaised with
      | none =>
          rw [Waits.perform, (Completion.poll_of_due?_none hdue).1] at hmem
          cases hactive : w.completion.active <;> rw [hactive] at hmem <;> cases hmem
      | some wait =>
          obtain ⟨hactive, hseen, hpoll⟩ := Completion.poll_of_due?_some hdue
          have hevents : (w.perform (.poll now)).1 = [.answered wait.id wait.callback] := by
            rw [Waits.perform, hpoll, hactive]
            rfl
          rw [hevents, List.mem_singleton] at hmem
          cases hmem
          have hraised : w.board.isRaised wait.flag = true := hseen.elim (h.reported wait hactive) id
          refine ⟨hevents, wait.flag, ?_, h.raised wait.flag hraised⟩
          rw [← h.active, hactive]
          rfl
  | start now flag callback => cases List.mem_singleton.mp hmem
  | cancel => cases List.mem_singleton.mp hmem
  | raise flag => cases List.mem_singleton.mp hmem
  | look id => cases hmem
  | report id => cases hmem
  | elapse span => cases hmem

end Traced

/-! ### What a whole schedule hands back -/

/-- Every callback handed back was that of the wait active at that moment, whose own flag had been raised. -/
def AnswersOwn (board : Board) (past : List (WaitEvent α)) : Prop :=
  ∀ before id callback after, past = before ++ .answered id callback :: after →
    ∃ flag, current before = some (id, flag, callback) ∧ (board.isRaised flag = true ∨ .raised flag ∈ before)

variable {board : Board} {past : List (WaitEvent α)} {w : Waits α}

theorem AnswersOwn.perform (hown : AnswersOwn board past) (h : Traced board past w) (action : WaitAction α) :
    AnswersOwn board (past ++ (w.perform action).1) := by
  intro before id callback after heq
  rcases List.append_eq_append_iff.mp heq with ⟨gap, hbefore, hevents⟩ | ⟨gap, hpast, hevents⟩
  · have hmem : .answered id callback ∈ (w.perform action).1 := by
      rw [hevents]
      exact List.mem_append_right _ List.mem_cons_self
    obtain ⟨hsingle, hanswer⟩ := h.answered action hmem
    rw [hsingle] at hevents
    have hgap : gap = [] := by
      cases gap with
      | nil => rfl
      | cons event gap =>
          obtain ⟨-, hrest⟩ := List.cons.inj hevents
          exact absurd hrest.symm (List.append_ne_nil_of_right_ne_nil gap (List.cons_ne_nil _ _))
    rw [hbefore, hgap, List.append_nil]
    exact hanswer
  · cases gap with
    | nil =>
        have hmem : .answered id callback ∈ (w.perform action).1 := by
          rw [← List.nil_append (w.perform action).1, ← hevents]
          exact List.mem_cons_self
        rw [← List.append_nil before, ← hpast]
        exact (h.answered action hmem).2
    | cons event between =>
        obtain ⟨rfl, -⟩ := List.cons.inj hevents
        exact hown before id callback between hpast

theorem AnswersOwn.run (hown : AnswersOwn board past) (h : Traced board past w) (actions : List (WaitAction α)) :
    AnswersOwn board (past ++ (Waits.run actions w).1) := by
  induction actions generalizing past w with
  | nil =>
      rw [Waits.run, List.append_nil]
      exact hown
  | cons action rest ih =>
      have hrest := ih (hown.perform h action) (h.perform action)
      rwa [List.append_assoc] at hrest

/-- Once the active wait has been reported, the next poll hands its callback back and leaves no wait. -/
theorem perform_poll_of_reported {wait : Wait α} (hactive : w.completion.active = some wait)
    (hreported : wait.id ∈ w.completion.reports) (now : Nat) :
    (w.perform (.poll now)).1 = [.answered wait.id wait.callback] ∧
      (w.perform (.poll now)).2.completion.active = none := by
  have hdue : w.completion.due? now w.board.isRaised = some wait := by
    rw [Completion.due?, hactive, Option.filter_some, if_pos]
    rw [List.contains_iff_mem.mpr hreported, Bool.true_or]
  obtain ⟨-, -, hpoll⟩ := Completion.poll_of_due?_some hdue
  rw [Waits.perform, hpoll, hactive]
  exact ⟨rfl, Completion.cancel_active _⟩

/-- Under every schedule of the owner, the host and the checkers, late ones among them, each wait has a number
of its own and is answered at most once, every answer is the callback of the wait active then, after that
wait's own flag was raised, and a report of the active wait is answered by the next poll. -/
theorem answered_once (interval : Nat) (hasCheckers : Bool) (board : Board) (actions : List (WaitAction α)) :
    let past := (run actions (fresh interval hasCheckers board)).1
    let w := (run actions (fresh interval hasCheckers board)).2
    (startedIds past).Nodup ∧ (answeredIds past).Nodup ∧ AnswersOwn board past ∧
      w.completion.active.map (fun wait => (wait.id, wait.flag, wait.callback)) = current past ∧
      ∀ wait, w.completion.active = some wait → wait.id ∈ w.completion.reports → ∀ now,
        (w.perform (.poll now)).1 = [.answered wait.id wait.callback] ∧
          (w.perform (.poll now)).2.completion.active = none := by
  intro past w
  have hfresh : Traced board [] (fresh interval hasCheckers board : Waits α) :=
    traced_fresh interval hasCheckers board
  have htraced : Traced board past w := hfresh.run actions
  have hnothing : AnswersOwn board ([] : List (WaitEvent α)) := fun before _ _ _ heq => by cases before <;> cases heq
  have hown : AnswersOwn board past := hnothing.run hfresh actions
  exact ⟨htraced.started_nodup, htraced.answered_nodup, hown, htraced.active,
    fun wait hactive hreported now => perform_poll_of_reported hactive hreported now⟩

/-- The first wait is replaced after its checker saw its flag; its late report answers nothing. -/
example : (run [.start 0 ⟨0⟩ "first", .raise ⟨0⟩, .look 0, .start 0 ⟨1⟩ "second", .report 0, .poll 1, .raise ⟨1⟩,
      .look 1, .report 1, .poll 2] (fresh 5 true ⟨#[false, false]⟩)).1 =
    [.started 0 ⟨0⟩ "first", .raised ⟨0⟩, .started 1 ⟨1⟩ "second", .raised ⟨1⟩, .answered 1 "second"] := by
  rfl

/-! ### Numbers in words -/

/-- Each wait that is started takes one number. -/
theorem nextId_perform (w : Waits α) (action : WaitAction α) :
    (w.perform action).2.completion.nextId =
      w.completion.nextId + (startedIds (w.perform action).1).length := by
  cases action with
  | start now flag callback => exact congrArg (· + 1) (Completion.cancel_nextId _)
  | cancel => exact Completion.cancel_nextId _
  | poll now =>
      cases hdue : w.completion.due? now w.board.isRaised with
      | none =>
          obtain ⟨hnothing, nextLook, hpoll⟩ := Completion.poll_of_due?_none hdue
          simp [Waits.perform, hpoll, hnothing, answer, startedIds]
      | some wait =>
          obtain ⟨hactive, -, hpoll⟩ := Completion.poll_of_due?_some hdue
          simp [Waits.perform, hpoll, hactive, answer, startedIds, WaitEvent.startedId?, Completion.cancel_nextId]
  | raise flag => rfl
  | look id => rfl
  | report id =>
      unfold Waits.perform
      dsimp only
      split <;> rfl
  | elapse span => exact Completion.elapse_nextId _ _ _

theorem nextId_run (actions : List (WaitAction α)) (w : Waits α) :
    (run actions w).2.completion.nextId = w.completion.nextId + (startedIds (run actions w).1).length := by
  induction actions generalizing w with
  | nil => rfl
  | cons action rest ih =>
      show (run rest (w.perform action).2).2.completion.nextId =
        _ + (startedIds ((w.perform action).1 ++ (run rest (w.perform action).2).1)).length
      rw [ih, nextId_perform, startedIds, startedIds, startedIds, List.filterMap_append, List.length_append,
        Nat.add_assoc]

/-- Numbers may be counted in words of 64 bits: with fewer waits than that the next number is in its word, and no
two waits have the same one there either. -/
theorem numbers_in_words (interval : Nat) (hasCheckers : Bool) (board : Board) (actions : List (WaitAction α)) :
    let past := (run actions (fresh interval hasCheckers board)).1
    let w := (run actions (fresh interval hasCheckers board)).2
    w.completion.nextId = (startedIds past).length ∧
      ((startedIds past).length < UInt64.size →
        (UInt64.ofNat w.completion.nextId).toNat = w.completion.nextId ∧
          ((startedIds past).map UInt64.ofNat).Nodup) := by
  intro past w
  have htraced : Traced board past w := (traced_fresh interval hasCheckers board).run actions
  have hcount : w.completion.nextId = (startedIds past).length :=
    (nextId_run actions _).trans (Nat.zero_add _)
  refine ⟨hcount, fun hfew => ⟨UInt64.toNat_ofNat_of_lt' (hcount ▸ hfew), ?_⟩⟩
  refine List.pairwise_map.mpr (htraced.started_nodup.imp_of_mem fun {id id'} hid hid' hne heq => hne ?_)
  have hlt := htraced.started_lt id hid
  have hlt' := htraced.started_lt id' hid'
  have htoNat := congrArg UInt64.toNat heq
  rwa [UInt64.toNat_ofNat_of_lt' (by omega), UInt64.toNat_ofNat_of_lt' (by omega)] at htoNat

end Waits
end ScriptBridge
