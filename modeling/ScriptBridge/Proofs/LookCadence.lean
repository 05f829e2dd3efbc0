import ScriptBridge.Proofs.CompletionDelivery

/-! When the owner's polls look at the flag of a wait. Without checkers a wait keeps the instant from which the
next poll looks: the instant it was started at, and after each look an interval more than the instant of that
look. Polls in between do not count, however they are spaced, so the polls that look are those a greedy choice
takes, and the callback comes back with the first of them that finds the flag raised. -/

namespace ScriptBridge

variable {α : Type}

/-! ### The greedy choice -/

/-- The places of the instants that a greedy choice takes: the first one from a start on, then each first one
that is at least an interval after the one taken before it. -/
inductive Chosen (start interval : Nat) (instants : List Nat) : Nat → Prop where
  | first {i now : Nat} (hnow : instants[i]? = some now) (hdue : start ≤ now)
      (hearly : ∀ k < i, ∀ early, instants[k]? = some early → early < start) : Chosen start interval instants i
  | next {i j last now : Nat} (h : Chosen start interval instants i) (hlast : instants[i]? = some last)
      (hlater : i < j) (hnow : instants[j]? = some now) (hdue : last + interval ≤ now)
      (hearly : ∀ k, i < k → k < j → ∀ early, instants[k]? = some early → early < last + interval) :
      Chosen start interval instants j

namespace Chosen

variable {start interval now : Nat} {instants : List Nat} {i j k : Nat}

theorem zero_iff : Chosen start interval (now :: instants) 0 ↔ start ≤ now := by
  constructor
  · intro h
    cases h with
    | first hnow hdue => cases hnow; exact hdue
    | next _ _ hlater => exact absurd hlater (Nat.not_lt_zero _)
  · exact fun hdue => .first rfl hdue fun k hk => absurd hk (Nat.not_lt_zero k)

/-- After an instant that is taken the choice starts an interval later. -/
theorem succ_of_le (hdue : start ≤ now) (h : Chosen (now + interval) interval instants k) :
    Chosen start interval (now :: instants) (k + 1) := by
  induction h with
  | first hnow hlate hearly =>
      refine .next (zero_iff.mpr hdue) rfl (Nat.succ_pos _) hnow hlate fun k hpos hk early hat => ?_
      obtain ⟨k, rfl⟩ := Nat.exists_eq_succ_of_ne_zero (Nat.ne_of_gt hpos)
      exact hearly k (Nat.lt_of_succ_lt_succ hk) early hat
  | next _ hlast hlater hnow hlate hearly ih =>
      refine .next ih hlast (Nat.succ_lt_succ hlater) hnow hlate fun k hpos hk early hat => ?_
      obtain ⟨k, rfl⟩ := Nat.exists_eq_succ_of_ne_zero (Nat.ne_of_gt (Nat.zero_lt_of_lt hpos))
      exact hearly k (Nat.lt_of_succ_lt_succ hpos) (Nat.lt_of_succ_lt_succ hk) early hat

theorem succ_of_lt (hdue : now < start) (h : Chosen start interval instants k) :
    Chosen start interval (now :: instants) (k + 1) := by
  induction h with
  | first hnow hlate hearly =>
      refine .first hnow hlate fun k hk early hat => ?_
      cases k with
      | zero => cases hat; exact hdue
      | succ k => exact hearly k (Nat.lt_of_succ_lt_succ hk) early hat
  | next _ hlast hlater hnow hlate hearly ih =>
      refine .next ih hlast (Nat.succ_lt_succ hlater) hnow hlate fun k hpos hk early hat => ?_
      obtain ⟨k, rfl⟩ := Nat.exists_eq_succ_of_ne_zero (Nat.ne_of_gt (Nat.zero_lt_of_lt hpos))
      exact hearly k (Nat.lt_of_succ_lt_succ hpos) (Nat.lt_of_succ_lt_succ hk) early hat

/-- An instant is taken or left, and the choice goes on from there. -/
theorem succ_iff : Chosen start interval (now :: instants) (k + 1) ↔
    Chosen (if start ≤ now then now + interval else start) interval instants k := by
  constructor
  · intro h
    generalize hplace : k + 1 = place at h
    induction h generalizing k with
    | first hnow hlate hearly =>
        subst hplace
        have hbefore : now < start := hearly 0 (Nat.succ_pos k) now rfl
        rw [if_neg (Nat.not_le.mpr hbefore)]
        exact .first hnow hlate fun k hk => hearly (k + 1) (Nat.succ_lt_succ hk)
    | @next i j last now' h hlast hlater hnow hlate hearly ih =>
        subst hplace
        cases i with
        | zero =>
            cases hlast
            rw [if_pos (zero_iff.mp h)]
            exact .first hnow hlate fun k hk => hearly (k + 1) (Nat.succ_pos k) (Nat.succ_lt_succ hk)
        | succ i =>
            exact .next (ih rfl) hlast (Nat.lt_of_succ_lt_succ hlater) hnow hlate fun k hik hk =>
              hearly (k + 1) (Nat.succ_lt_succ hik) (Nat.succ_lt_succ hk)
  · intro h
    by_cases hdue : start ≤ now
    · rw [if_pos hdue] at h
      exact succ_of_le hdue h
    · rw [if_neg hdue] at h
      exact succ_of_lt (Nat.not_le.mp hdue) h

/-- Something is taken up to the place of an instant that is not before the start. -/
theorem exists_le (hj : instants[j]? = some now) (hdue : start ≤ now) :
    ∃ k ≤ j, Chosen start interval instants k := by
  induction instants generalizing j with
  | nil => cases hj
  | cons head rest ih =>
      by_cases hhead : start ≤ head
      · exact ⟨0, Nat.zero_le j, zero_iff.mpr hhead⟩
      · cases j with
        | zero => cases hj; exact absurd hdue hhead
        | succ j =>
            obtain ⟨k, hk, hchosen⟩ := ih hj
            exact ⟨k + 1, Nat.succ_le_succ hk, succ_of_lt (Nat.not_le.mp hhead) hchosen⟩

/-- Between two instants in order that are an interval apart something is taken. -/
theorem exists_between {early late : Nat} (horder : instants.Pairwise (· ≤ ·)) (hi : instants[i]? = some early)
    (hj : instants[j]? = some late) (hle : i ≤ j) (hdue : max start (early + interval) ≤ late) :
    ∃ k, i ≤ k ∧ k ≤ j ∧ Chosen start interval instants k := by
  induction instants generalizing start i j with
  | nil => cases hj
  | cons head rest ih =>
      cases i with
      | zero =>
          have hstart : start ≤ late := by omega
          obtain ⟨k, hk, hchosen⟩ := exists_le hj hstart
          exact ⟨k, Nat.zero_le k, hk, hchosen⟩
      | succ i =>
          obtain ⟨j, rfl⟩ := Nat.exists_eq_succ_of_ne_zero (Nat.ne_of_gt (Nat.zero_lt_of_lt hle))
          obtain ⟨hhead, hrest⟩ := List.pairwise_cons.mp horder
          have hfirst : head ≤ early := hhead early (List.mem_of_getElem? hi)
          have hgoing : max (if start ≤ head then head + interval else start) (early + interval) ≤ late := by
            split <;> omega
          obtain ⟨k, hik, hkj, hchosen⟩ := ih hrest hi hj (Nat.le_of_succ_le_succ hle) hgoing
          exact ⟨k + 1, Nat.succ_le_succ hik, Nat.succ_le_succ hkj, succ_iff.mpr hchosen⟩

end Chosen

/-! ### Polls of a run -/

/-- A poll in a run: its instant, and the waits as it finds them. -/
structure PollPoint (α : Type) where
  now : Nat
  waits : Waits α

namespace PollPoint

/-- What the poll hands back. -/
def answer (point : PollPoint α) : Option α :=
  (point.waits.completion.poll point.now point.waits.board.isRaised).1

/-- The poll looks at a flag: what it hands back depends on whether that flag is raised. -/
def Looks (flag : Flag) (point : PollPoint α) : Prop :=
  (point.waits.completion.poll point.now (· = flag)).1 ≠ (point.waits.completion.poll point.now fun _ => false).1

/-- The flag is raised when the poll is made. -/
def sees (flag : Flag) (point : PollPoint α) : Bool := point.waits.board.isRaised flag

end PollPoint

namespace WaitAction

/-- An action that neither starts a wait nor gives one up. -/
def keeps : WaitAction α → Bool
  | start .. | cancel => false
  | _ => true

/-- An action that is none of the owner's. -/
def isQuiet : WaitAction α → Bool
  | start .. | cancel | poll _ => false
  | _ => true

end WaitAction

namespace Waits

/-- The polls of a run, in order. -/
def polls : List (WaitAction α) → Waits α → List (PollPoint α)
  | [], _ => []
  | .poll now :: rest, w => ⟨now, w⟩ :: polls rest (w.perform (.poll now)).2
  | action :: rest, w => polls rest (w.perform action).2

/-- No poll before one of a place that is chosen among all finds a flag raised. -/
def Unseen (flag : Flag) (start interval : Nat) (points : List (PollPoint α)) (k : Nat) : Prop :=
  ∀ j < k, Chosen start interval (points.map PollPoint.now) j →
    ∀ earlier, points[j]? = some earlier → earlier.sees flag = false

/-- Waits without checkers, of which nothing was ever reported. -/
structure Inline (interval : Nat) (w : Waits α) : Prop where
  interval_eq : w.completion.interval = interval
  hasCheckers : w.completion.hasCheckers = false
  checkers : w.completion.checkers = []
  reports : w.completion.reports = []
  watchers : w.watchers = []

/-- A wait for a flag is active whose next look is at the first poll from an instant on. -/
structure Pending (interval : Nat) (flag : Flag) (callback : α) (next : Nat) (w : Waits α) : Prop
    extends Inline interval w where
  active : ∃ id, w.completion.active = some ⟨id, flag, callback, some next⟩

variable {interval next now : Nat} {flag : Flag} {callback : α} {w : Waits α}

/-! ### Waits without checkers -/

theorem cancel_of_no_checkers {c : Completion α} (h : c.checkers = []) : c.cancel = { c with active := none } := by
  rw [Completion.cancel]
  split
  · rw [h, List.filter_nil]
  · rename_i hnone
    rw [← hnone]

theorem elapse_of_no_checkers {c : Completion α} (h : c.checkers = []) (span : Nat) (isRaised : Flag → Bool) :
    c.elapse span isRaised = c := by
  rw [Completion.elapse, Completion.foldl_deliver, h]
  simp only [List.filter_nil, List.filterMap_nil, List.map_nil, List.append_nil]
  rw [← h]

theorem inline_start (h : Inline interval w) (now : Nat) (flag : Flag) (callback : α) :
    Pending interval flag callback now (w.perform (.start now flag callback)).2 := by
  have hstart : w.completion.start now flag callback = { w.completion with
      nextId := w.completion.nextId + 1
      active := some ⟨w.completion.nextId, flag, callback, some now⟩ } := by
    rw [Completion.start, cancel_of_no_checkers h.checkers]
    simp [h.hasCheckers]
  have hperform : (w.perform (.start now flag callback)).2 =
      { w with completion := w.completion.start now flag callback } := by
    simp [perform, h.hasCheckers]
  rw [hperform, hstart]
  exact ⟨⟨h.interval_eq, h.hasCheckers, h.checkers, h.reports, h.watchers⟩, _, rfl⟩

theorem inline_poll (h : Inline interval w) (now : Nat) : Inline interval (w.perform (.poll now)).2 := by
  show Inline interval { w with completion := (w.completion.poll now w.board.isRaised).2 }
  cases hdue : w.completion.due? now w.board.isRaised with
  | none =>
      obtain ⟨-, nextLook, hpoll⟩ := Completion.poll_of_due?_none hdue
      rw [hpoll]
      exact ⟨h.interval_eq, h.hasCheckers, h.checkers, rfl, h.watchers⟩
  | some wait =>
      rw [(Completion.poll_of_due?_some hdue).2.2, cancel_of_no_checkers h.checkers]
      exact ⟨h.interval_eq, h.hasCheckers, h.checkers, rfl, h.watchers⟩

/-- Without checkers all that others do is to raise flags. -/
theorem inline_quiet (h : Inline interval w) {action : WaitAction α} (hquiet : action.isQuiet = true) :
    ∃ board, (w.perform action).2 = { w with board } := by
  cases action with
  | start | cancel | poll => cases hquiet
  | raise flag => exact ⟨_, rfl⟩
  | look id =>
      refine ⟨w.board, ?_⟩
      rw [perform, h.watchers, List.map_nil, ← h.watchers]
  | report id =>
      refine ⟨w.board, ?_⟩
      rw [perform, if_neg]
      simp [h.watchers]
  | elapse span =>
      refine ⟨w.board, ?_⟩
      rw [perform, elapse_of_no_checkers h.checkers]

theorem Inline.quiet (h : Inline interval w) {action : WaitAction α} (hquiet : action.isQuiet = true) :
    Inline interval (w.perform action).2 := by
  obtain ⟨board, hsame⟩ := inline_quiet h hquiet
  rw [hsame]
  exact ⟨h.interval_eq, h.hasCheckers, h.checkers, h.reports, h.watchers⟩

theorem Pending.quiet (h : Pending interval flag callback next w) {action : WaitAction α}
    (hquiet : action.isQuiet = true) : Pending interval flag callback next (w.perform action).2 := by
  refine ⟨h.toInline.quiet hquiet, ?_⟩
  obtain ⟨board, hsame⟩ := inline_quiet h.toInline hquiet
  rw [hsame]
  exact h.active

theorem Inline.perform (h : Inline interval w) (action : WaitAction α) : Inline interval (w.perform action).2 := by
  cases action with
  | start now flag callback => exact (inline_start h now flag callback).toInline
  | cancel =>
      show Inline interval { w with completion := w.completion.cancel }
      rw [cancel_of_no_checkers h.checkers]
      exact ⟨h.interval_eq, h.hasCheckers, h.checkers, h.reports, h.watchers⟩
  | poll now => exact inline_poll h now
  | raise | look | report | elapse => exact h.quiet rfl

theorem Inline.run (h : Inline interval w) (actions : List (WaitAction α)) :
    Inline interval (Waits.run actions w).2 := by
  induction actions generalizing w with
  | nil => exact h
  | cons action rest ih => exact ih (h.perform action)

/-! ### One poll -/

section

variable (h : Pending interval flag callback next w)

include h

theorem pending_poll_fst (now : Nat) (isRaised : Flag → Bool) :
    (w.completion.poll now isRaised).1 = if next ≤ now ∧ isRaised flag = true then some callback else none := by
  obtain ⟨id, hactive⟩ := h.active
  rw [Completion.poll_fst, Completion.due?, hactive, h.reports, Option.filter_some]
  simp [Wait.looksAt, apply_ite]

theorem pending_looks (now : Nat) : (PollPoint.mk now w).Looks flag ↔ next ≤ now := by
  rw [PollPoint.Looks, pending_poll_fst h, pending_poll_fst h]
  by_cases hdue : next ≤ now <;> simp [hdue]

theorem pending_answer (now : Nat) (answer : α) :
    (PollPoint.mk now w).answer = some answer ↔
      answer = callback ∧ next ≤ now ∧ w.board.isRaised flag = true := by
  rw [PollPoint.answer, pending_poll_fst h]
  split
  · rename_i hfound
    simp [hfound, eq_comm]
  · rename_i hfound
    simp [hfound]

/-- A poll that finds the flag raised ends the wait. -/
theorem pending_poll_of_found (hdue : next ≤ now) (hraised : w.board.isRaised flag = true) :
    (w.perform (.poll now)).2.completion.active = none := by
  obtain ⟨id, hactive⟩ := h.active
  have hfound : w.completion.due? now w.board.isRaised = some ⟨id, flag, callback, some next⟩ := by
    rw [Completion.due?, hactive, Option.filter_some, if_pos]
    simp [Wait.looksAt, hdue, hraised]
  rw [perform, (Completion.poll_of_due?_some hfound).2.2]
  exact Completion.cancel_active _

/-- Any other poll puts off the next look if it looked itself. -/
theorem pending_poll_of_not_found (hfound : ¬ (next ≤ now ∧ w.board.isRaised flag = true)) :
    Pending interval flag callback (if next ≤ now then now + interval else next) (w.perform (.poll now)).2 := by
  refine ⟨inline_poll h.toInline now, ?_⟩
  obtain ⟨id, hactive⟩ := h.active
  refine ⟨id, ?_⟩
  simp only [perform, Completion.poll, hactive, h.reports, h.interval_eq]
  rw [if_neg (by simpa [Wait.looksAt] using hfound)]
  by_cases hdue : next ≤ now <;> simp [Wait.looksAt, hdue]

end

/-! ### All polls -/

/-- What is raised stays raised. -/
theorem isRaised_perform (hraised : w.board.isRaised flag = true) (action : WaitAction α) :
    (w.perform action).2.board.isRaised flag = true := by
  cases action with
  | raise flag' => exact Board.isRaised_raise_of_isRaised hraised flag'
  | report id =>
      rw [perform]
      split <;> exact hraised
  | start | cancel | poll | look | elapse => exact hraised

theorem sees_of_isRaised (hraised : w.board.isRaised flag = true) (actions : List (WaitAction α)) :
    ∀ point ∈ polls actions w, point.sees flag = true := by
  induction actions generalizing w with
  | nil => simp [polls]
  | cons action rest ih =>
      have hrest := ih (isRaised_perform hraised action)
      cases action with
      | poll now => exact List.forall_mem_cons.mpr ⟨hraised, hrest⟩
      | start | cancel | raise | look | report | elapse => exact hrest

theorem sees_pairwise (actions : List (WaitAction α)) (w : Waits α) :
    (polls actions w).Pairwise fun early late => early.sees flag = true → late.sees flag = true := by
  induction actions generalizing w with
  | nil => exact .nil
  | cons action rest ih =>
      have hrest := ih (w.perform action).2
      cases action with
      | poll now =>
          exact List.pairwise_cons.mpr ⟨fun late hlate hraised =>
            sees_of_isRaised (isRaised_perform hraised (.poll now)) rest late hlate, hrest⟩
      | start | cancel | raise | look | report | elapse => exact hrest

/-- After a wait has ended, polls have nothing to look at. -/
theorem polls_of_ended (h : w.completion.active = none) {actions : List (WaitAction α)}
    (hkeeps : ∀ action ∈ actions, action.keeps = true) :
    ∀ point ∈ polls actions w, point.answer = none ∧ ¬ point.Looks flag := by
  induction actions generalizing w with
  | nil => simp [polls]
  | cons action rest ih =>
      obtain ⟨hfirst, hrest⟩ := List.forall_mem_cons.mp hkeeps
      have hpoll : ∀ now isRaised, w.completion.poll now isRaised = (none, { w.completion with reports := [] }) := by
        intro now isRaised
        simp [Completion.poll, h]
      cases action with
      | start | cancel => cases hfirst
      | poll now =>
          refine List.forall_mem_cons.mpr ⟨⟨?_, ?_⟩, ih ?_ hrest⟩
          · rw [PollPoint.answer, hpoll]
          · rw [PollPoint.Looks, hpoll, hpoll]
            exact fun hne => hne rfl
          · rw [perform, hpoll]
            exact h
      | raise | look => exact ih h hrest
      | report id =>
          refine ih ?_ hrest
          rw [perform]
          split <;> exact h
      | elapse span =>
          refine ih ?_ hrest
          show (w.completion.elapse span w.board.isRaised).active = none
          rw [Completion.elapse_active, h]

variable {start k : Nat} {point : PollPoint α} {points : List (PollPoint α)}

theorem unseen_zero : Unseen flag start interval points 0 := fun j hj => absurd hj (Nat.not_lt_zero j)

theorem unseen_succ_iff : Unseen flag start interval (point :: points) (k + 1) ↔
    (start ≤ point.now → point.sees flag = false) ∧
      Unseen flag (if start ≤ point.now then point.now + interval else start) interval points k := by
  constructor
  · intro h
    refine ⟨fun hdue => h 0 (Nat.succ_pos k) (Chosen.zero_iff.mpr hdue) point rfl, fun j hj hchosen => ?_⟩
    exact h (j + 1) (Nat.succ_lt_succ hj) (Chosen.succ_iff.mpr hchosen)
  · rintro ⟨hfirst, hrest⟩ j hj hchosen earlier hearlier
    cases j with
    | zero =>
        cases hearlier
        exact hfirst (Chosen.zero_iff.mp hchosen)
    | succ j => exact hrest j (Nat.lt_of_succ_lt_succ hj) (Chosen.succ_iff.mp hchosen) earlier hearlier

/-- The polls that look are those of the greedy choice, up to the first that finds the flag raised; that one
hands the callback back. -/
theorem polls_of_pending (h : Pending interval flag callback next w) {actions : List (WaitAction α)}
    (hkeeps : ∀ action ∈ actions, action.keeps = true) (hpoint : (polls actions w)[k]? = some point) :
    (point.Looks flag ↔ Chosen next interval ((polls actions w).map PollPoint.now) k ∧
        Unseen flag next interval (polls actions w) k) ∧
      ∀ answer, point.answer = some answer ↔
        answer = callback ∧ point.Looks flag ∧ point.sees flag = true := by
  induction actions generalizing w next k with
  | nil => cases hpoint
  | cons action rest ih =>
      obtain ⟨hfirst, hrest⟩ := List.forall_mem_cons.mp hkeeps
      cases action with
      | start | cancel => cases hfirst
      | raise | look | report | elapse => exact ih (h.quiet rfl) hrest hpoint
      | poll now =>
          cases k with
          | zero =>
              obtain rfl : ⟨now, w⟩ = point := Option.some.inj hpoint
              refine ⟨?_, fun answer => ?_⟩
              · rw [pending_looks h, polls, List.map_cons, Chosen.zero_iff]
                exact (and_iff_left unseen_zero).symm
              · rw [pending_answer h, pending_looks h]
                rfl
          | succ k =>
              have hpoint : (polls rest (w.perform (.poll now)).2)[k]? = some point := hpoint
              rw [polls, List.map_cons, Chosen.succ_iff, unseen_succ_iff]
              by_cases hfound : next ≤ now ∧ w.board.isRaised flag = true
              · have hended := pending_poll_of_found h hfound.1 hfound.2
                obtain ⟨hnone, hblind⟩ := polls_of_ended hended hrest point (List.mem_of_getElem? hpoint)
                refine ⟨iff_of_false hblind fun hchosen => ?_, fun answer => ?_⟩
                · have hunseen : w.board.isRaised flag = false := hchosen.2.1 hfound.1
                  rw [hfound.2] at hunseen
                  cases hunseen
                · rw [hnone]
                  exact iff_of_false nofun fun hanswer => hblind hanswer.2.1
              · obtain ⟨hlooks, hanswer⟩ := ih (pending_poll_of_not_found h hfound) hrest hpoint
                refine ⟨?_, hanswer⟩
                rw [hlooks]
                have hunseen : next ≤ now → w.board.isRaised flag = false := fun hdue =>
                  Bool.eq_false_iff.mpr fun hraised => hfound ⟨hdue, hraised⟩
                exact and_congr_right fun _ => (and_iff_right hunseen).symm

/-- No wait has been started yet; there are so many instants to a millisecond. -/
def freshIn (fineness configured : Nat) (board : Board) : Waits α :=
  let completion : Completion α := .new configured false
  ⟨{ completion with interval := fineness * completion.interval }, board, []⟩

/-- With one instant to a millisecond these are the waits of a configuration. -/
theorem freshIn_one (configured : Nat) (board : Board) :
    (freshIn 1 configured board : Waits α) = fresh configured false board := by
  rw [freshIn, Nat.one_mul]
  rfl

theorem inline_freshIn (fineness configured : Nat) (board : Board) :
    (freshIn fineness configured board : Waits α).Inline (fineness * max configured 1) :=
  ⟨rfl, rfl, rfl, rfl, rfl⟩

/-- The first chosen poll that finds the flag raised is not after any other that does. -/
theorem exists_answer (h : Pending interval flag callback next w) {actions : List (WaitAction α)}
    (hkeeps : ∀ action ∈ actions, action.keeps = true)
    (hchosen : Chosen next interval ((polls actions w).map PollPoint.now) k)
    (hpoint : (polls actions w)[k]? = some point) (hsees : point.sees flag = true) :
    ∃ j ≤ k, ∃ earlier, (polls actions w)[j]? = some earlier ∧ earlier.answer = some callback := by
  induction k using Nat.strongRecOn generalizing point with
  | ind k ih =>
      by_cases hunseen : Unseen flag next interval (polls actions w) k
      · obtain ⟨hlooks, hanswer⟩ := polls_of_pending h hkeeps hpoint
        exact ⟨k, Nat.le_refl k, point, hpoint,
          (hanswer callback).mpr ⟨rfl, hlooks.mpr ⟨hchosen, hunseen⟩, hsees⟩⟩
      · simp only [Unseen, Classical.not_forall] at hunseen
        obtain ⟨j, hj, hchosen', earlier, hearlier, hseen⟩ := hunseen
        obtain ⟨i, hi, hfirst⟩ := ih j hj hchosen' hearlier (Bool.of_not_eq_false hseen)
        exact ⟨i, Nat.le_trans hi (Nat.le_of_lt hj), hfirst⟩

theorem sees_mono {actions : List (WaitAction α)} {i j : Nat} {early late : PollPoint α} (hle : i ≤ j)
    (hi : (polls actions w)[i]? = some early) (hj : (polls actions w)[j]? = some late)
    (hsees : early.sees flag = true) : late.sees flag = true := by
  rcases Nat.eq_or_lt_of_le hle with rfl | hlt
  · rw [hi] at hj
    cases hj
    exact hsees
  · obtain ⟨hi', rfl⟩ := List.getElem?_eq_some_iff.mp hi
    obtain ⟨hj', rfl⟩ := List.getElem?_eq_some_iff.mp hj
    exact List.pairwise_iff_getElem.mp (sees_pairwise actions w) i j hi' hj' hlt hsees

/-- **Polls look on a cadence.** A wait without checkers, whatever went before it, is looked at by the first
poll from its start on and then by each first poll that is at least an interval after the last look, until a
look finds the flag raised; that poll and no other hands the callback back. So among polls in order a flag that
is raised at one of them has been answered by any that comes an interval later and not before the start. -/
theorem looks_on_cadence (fineness configured : Nat) (board : Board) (before : List (WaitAction α)) (start : Nat)
    (flag : Flag) (callback : α) {later : List (WaitAction α)} (hkeeps : ∀ action ∈ later, action.keeps = true) :
    let interval := fineness * max configured 1
    let points := polls later
      ((run before (freshIn fineness configured board)).2.perform (.start start flag callback)).2
    let instants := points.map PollPoint.now
    (∀ (k : Nat) (point : PollPoint α), points[k]? = some point →
      (point.Looks flag ↔ Chosen start interval instants k ∧ Unseen flag start interval points k) ∧
      ∀ answer, point.answer = some answer ↔
        answer = callback ∧ point.Looks flag ∧ point.sees flag = true) ∧
    (instants.Pairwise (· ≤ ·) → ∀ (i j : Nat) (early late : PollPoint α), points[i]? = some early →
      points[j]? = some late → i ≤ j → early.sees flag = true → max start (early.now + interval) ≤ late.now →
      ∃ k ≤ j, ∃ point : PollPoint α, points[k]? = some point ∧ point.answer = some callback) := by
  intro interval points instants
  have hpending : Pending interval flag callback start
      ((run before (freshIn fineness configured board)).2.perform (.start start flag callback)).2 :=
    inline_start ((inline_freshIn fineness configured board).run before) start flag callback
  refine ⟨fun k point hpoint => polls_of_pending hpending hkeeps hpoint, ?_⟩
  intro horder i j early late hi hj hle hsees hdue
  have hi' : instants[i]? = some early.now := by rw [List.getElem?_map, hi, Option.map_some]
  have hj' : instants[j]? = some late.now := by rw [List.getElem?_map, hj, Option.map_some]
  obtain ⟨k, hik, hkj, hchosen⟩ := Chosen.exists_between horder hi' hj' hle hdue
  have hlength : k < points.length := Nat.lt_of_le_of_lt hkj (List.getElem?_eq_some_iff.mp hj).1
  have hpoint : points[k]? = some points[k] := List.getElem?_eq_getElem hlength
  obtain ⟨first, hfirst, hanswer⟩ := exists_answer hpending hkeeps hchosen hpoint (sees_mono hik hi hpoint hsees)
  exact ⟨first, Nat.le_trans hfirst hkj, hanswer⟩

/-- A wait from 5 on with an interval of 10, its flag raised after the poll at 7: that poll looks too early, the
next one to look is at 17, and the callback has come back by the poll at 40. -/
theorem looks_at_seventeen :
    let later : List (WaitAction Char) := [.poll 3, .poll 7, .raise ⟨0⟩, .poll 9, .poll 16, .poll 17, .poll 40]
    let points := polls later
      ((run [] (fresh 10 false ⟨#[false]⟩)).2.perform (.start 5 ⟨0⟩ 'c')).2
    (∀ action ∈ later, action.keeps = true) ∧
      Chosen 5 10 [3, 7, 9, 16, 17, 40] 4 ∧
      ∃ k ≤ 5, ∃ point : PollPoint Char, points[k]? = some point ∧ point.answer = some 'c' := by
  intro later points
  have hkeeps : ∀ action ∈ later, action.keeps = true := by simp [later, WaitAction.keeps]
  obtain ⟨hlooks, hanswered⟩ := looks_on_cadence 1 10 ⟨#[false]⟩ [] 5 ⟨0⟩ 'c' hkeeps
  rw [freshIn_one] at hlooks hanswered
  refine ⟨hkeeps, ?_, ?_⟩
  · obtain ⟨hcadence, -⟩ := hlooks 4 _ rfl
    exact (hcadence.mp (by unfold PollPoint.Looks; decide)).1
  · exact hanswered (by decide) 2 5 _ _ rfl rfl (by decide) rfl (by decide)

end Waits
end ScriptBridge
