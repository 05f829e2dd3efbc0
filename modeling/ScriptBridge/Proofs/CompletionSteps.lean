import ScriptBridge.Completion

/-! What starting, giving up and polling do to a completion wait. -/

namespace ScriptBridge

/-- A checker is done only when it has seen its flag raised. -/
theorem Checker.raised_of_elapse_none {checker : Checker} {interval span : Nat} {isRaised : Flag → Bool}
    (h : checker.elapse interval span isRaised = none) : isRaised checker.flag = true := by
  unfold elapse at h
  split at h
  · cases h
  · split at h
    · assumption
    · cases h

theorem Checker.same_of_elapse_some {checker checker' : Checker} {interval span : Nat}
    {isRaised : Flag → Bool} (h : checker.elapse interval span isRaised = some checker') :
    checker.id = checker'.id ∧ checker.flag = checker'.flag := by
  unfold elapse at h
  split at h
  · cases h
    exact ⟨rfl, rfl⟩
  · split at h
    · cases h
    · cases h
      exact ⟨rfl, rfl⟩

namespace Completion

variable {α : Type}

/-- The wait that a poll hands back. -/
def due? (c : Completion α) (now : Nat) (isRaised : Flag → Bool) : Option (Wait α) :=
  c.active.filter fun wait => c.reports.contains wait.id || (wait.looksAt now && isRaised wait.flag)

/-- A poll that hands nothing back may put off the next look, and it uses up all reports. -/
theorem poll_of_due?_none {c : Completion α} {now : Nat} {isRaised : Flag → Bool}
    (h : c.due? now isRaised = none) :
    (c.poll now isRaised).1 = none ∧
      ∃ nextLook : Wait α → Option Nat, (c.poll now isRaised).2 =
        { c with active := c.active.map fun wait => { wait with nextLook := nextLook wait }, reports := [] } := by
  unfold poll
  cases hactive : c.active with
  | none => exact ⟨rfl, Wait.nextLook, by simp⟩
  | some wait =>
      simp only [due?, hactive, Option.filter_some, ite_eq_right_iff, reduceCtorEq, imp_false] at h
      simp only [if_neg h, Option.map_some, true_and]
      refine ⟨fun wait => if wait.looksAt now then some (now + c.interval) else wait.nextLook, ?_⟩
      cases hlook : wait.looksAt now <;> simp [hlook]

theorem poll_of_due?_some {c : Completion α} {now : Nat} {isRaised : Flag → Bool} {wait : Wait α}
    (h : c.due? now isRaised = some wait) :
    c.active = some wait ∧ (wait.id ∈ c.reports ∨ isRaised wait.flag = true) ∧
      c.poll now isRaised = (some wait.callback, { c.cancel with reports := [] }) := by
  obtain ⟨hactive, hseen⟩ := Option.filter_eq_some_iff.mp h
  refine ⟨hactive, ?_, ?_⟩
  · simp only [Bool.or_eq_true, List.contains_iff_mem, Bool.and_eq_true] at hseen
    exact hseen.imp id And.right
  · simp only [poll, hactive]
    rw [if_pos hseen]

theorem poll_fst (c : Completion α) (now : Nat) (isRaised : Flag → Bool) :
    (c.poll now isRaised).1 = (c.due? now isRaised).map Wait.callback := by
  cases h : c.due? now isRaised with
  | none => rw [(poll_of_due?_none h).1, Option.map_none]
  | some wait => rw [(poll_of_due?_some h).2.2, Option.map_some]

theorem due?_of_active_none {c : Completion α} (h : c.active = none) (now : Nat) (isRaised : Flag → Bool) :
    c.due? now isRaised = none := by
  rw [due?, h, Option.filter_none]

theorem cancel_active (c : Completion α) : c.cancel.active = none := by
  unfold cancel
  split
  · rfl
  · assumption

theorem cancel_nextId (c : Completion α) : c.cancel.nextId = c.nextId := by
  unfold cancel
  split <;> rfl

theorem cancel_reports (c : Completion α) : c.cancel.reports = c.reports := by
  unfold cancel
  split <;> rfl

theorem mem_cancel_checkers {c : Completion α} {checker : Checker} (h : checker ∈ c.cancel.checkers) :
    checker ∈ c.checkers := by
  unfold cancel at h
  split at h
  · exact (List.mem_filter.mp h).1
  · exact h

theorem foldl_deliver (ids : List Nat) (c : Completion α) :
    ids.foldl deliver c = { c with reports := c.reports ++ ids } := by
  induction ids generalizing c with
  | nil => rw [List.append_nil, List.foldl_nil]
  | cons id rest ih => rw [List.foldl_cons, ih, deliver, List.append_assoc, List.singleton_append]

theorem elapse_active (c : Completion α) (span : Nat) (isRaised : Flag → Bool) :
    (c.elapse span isRaised).active = c.active := by
  rw [elapse, foldl_deliver]

theorem elapse_nextId (c : Completion α) (span : Nat) (isRaised : Flag → Bool) :
    (c.elapse span isRaised).nextId = c.nextId := by
  rw [elapse, foldl_deliver]

/-- A report that arrives while time passes is of a checker whose flag is raised. -/
theorem mem_elapse_reports {c : Completion α} {span : Nat} {isRaised : Flag → Bool} {id : Nat}
    (h : id ∈ (c.elapse span isRaised).reports) :
    id ∈ c.reports ∨ ∃ checker ∈ c.checkers, checker.id = id ∧ isRaised checker.flag = true := by
  rw [elapse, foldl_deliver] at h
  rcases List.mem_append.mp h with hold | hnew
  · exact .inl hold
  · obtain ⟨checker, hdone, rfl⟩ := List.mem_map.mp hnew
    obtain ⟨hmem, hnone⟩ := List.mem_filter.mp hdone
    refine .inr ⟨checker, hmem, rfl, ?_⟩
    exact checker.raised_of_elapse_none (Option.isNone_iff_eq_none.mp hnone)

theorem mem_elapse_checkers {c : Completion α} {span : Nat} {isRaised : Flag → Bool} {checker : Checker}
    (h : checker ∈ (c.elapse span isRaised).checkers) :
    ∃ checker' ∈ c.checkers, checker'.id = checker.id ∧ checker'.flag = checker.flag := by
  rw [elapse, foldl_deliver] at h
  obtain ⟨checker', hmem, hgoes⟩ := List.mem_filterMap.mp h
  exact ⟨checker', hmem, Checker.same_of_elapse_some hgoes⟩

/-! ### Numbers -/

/-- Every wait, report and checker has a number that was given before, and the checker of the active
wait looks at that wait's flag. -/
structure Numbered (c : Completion α) : Prop where
  active_lt : ∀ wait, c.active = some wait → wait.id < c.nextId
  reports_lt : ∀ id ∈ c.reports, id < c.nextId
  checkers_lt : ∀ checker ∈ c.checkers, checker.id < c.nextId
  flag_eq : ∀ checker ∈ c.checkers, ∀ wait, c.active = some wait → checker.id = wait.id →
    checker.flag = wait.flag

theorem numbered_new (interval : Nat) (hasCheckers : Bool) :
    (new interval hasCheckers : Completion α).Numbered := by
  constructor <;> simp [new]

theorem Numbered.cancel {c : Completion α} (h : c.Numbered) : c.cancel.Numbered where
  active_lt := by simp [cancel_active]
  reports_lt := by
    rw [cancel_reports, cancel_nextId]
    exact h.reports_lt
  checkers_lt := by
    rw [cancel_nextId]
    exact fun checker hmem => h.checkers_lt checker (mem_cancel_checkers hmem)
  flag_eq := by simp [cancel_active]

theorem Numbered.start {c : Completion α} (h : c.Numbered) (now : Nat) (flag : Flag) (callback : α) :
    (c.start now flag callback).Numbered := by
  have hcancel := h.cancel
  have hnext : (c.start now flag callback).nextId = c.cancel.nextId + 1 := rfl
  have hchecker : ∀ checker ∈ (c.start now flag callback).checkers,
      checker.id < c.cancel.nextId ∨ checker.id = c.cancel.nextId ∧ checker.flag = flag := by
    intro checker hmem
    simp only [Completion.start] at hmem
    split at hmem
    · rcases List.mem_append.mp hmem with hold | hnew
      · exact .inl (hcancel.checkers_lt checker hold)
      · rw [List.mem_singleton.mp hnew]
        exact .inr ⟨rfl, rfl⟩
    · exact .inl (hcancel.checkers_lt checker hmem)
  constructor
  · intro wait hwait
    cases hwait
    exact Nat.lt_succ_self _
  · intro id hid
    exact Nat.lt_succ_of_lt (hcancel.reports_lt id hid)
  · intro checker hmem
    rcases hchecker checker hmem with hlt | ⟨heq, -⟩ <;> omega
  · intro checker hmem wait hwait hid
    cases hwait
    rcases hchecker checker hmem with hlt | ⟨-, hflag⟩
    · exact absurd hid (Nat.ne_of_lt hlt)
    · exact hflag

theorem Numbered.poll {c : Completion α} (h : c.Numbered) (now : Nat) (isRaised : Flag → Bool) :
    (c.poll now isRaised).2.Numbered := by
  cases hdue : c.due? now isRaised with
  | none =>
      obtain ⟨-, nextLook, hpoll⟩ := poll_of_due?_none hdue
      rw [hpoll]
      constructor
      · intro wait hwait
        obtain ⟨wait', hwait', rfl⟩ := Option.map_eq_some_iff.mp hwait
        exact h.active_lt wait' hwait'
      · exact fun id hid => absurd hid List.not_mem_nil
      · exact h.checkers_lt
      · intro checker hmem wait hwait hid
        obtain ⟨wait', hwait', rfl⟩ := Option.map_eq_some_iff.mp hwait
        exact h.flag_eq checker hmem wait' hwait' hid
  | some wait =>
      rw [(poll_of_due?_some hdue).2.2]
      exact ⟨h.cancel.active_lt, fun id hid => absurd hid List.not_mem_nil, h.cancel.checkers_lt,
        h.cancel.flag_eq⟩

theorem Numbered.elapse {c : Completion α} (h : c.Numbered) (span : Nat) (isRaised : Flag → Bool) :
    (c.elapse span isRaised).Numbered where
  active_lt := by
    rw [elapse_active, elapse_nextId]
    exact h.active_lt
  reports_lt := by
    intro id hid
    rw [elapse_nextId]
    rcases mem_elapse_reports hid with hold | ⟨checker, hmem, rfl, -⟩
    · exact h.reports_lt id hold
    · exact h.checkers_lt checker hmem
  checkers_lt := by
    intro checker hmem
    obtain ⟨checker', hmem', hid, -⟩ := mem_elapse_checkers hmem
    rw [elapse_nextId, ← hid]
    exact h.checkers_lt checker' hmem'
  flag_eq := by
    intro checker hmem wait hwait hid
    obtain ⟨checker', hmem', hid', hflag⟩ := mem_elapse_checkers hmem
    rw [elapse_active] at hwait
    rw [← hflag]
    exact h.flag_eq checker' hmem' wait hwait (hid'.trans hid)

end Completion
end ScriptBridge
