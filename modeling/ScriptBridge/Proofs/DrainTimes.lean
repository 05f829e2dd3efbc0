import Mathlib.Data.List.Nodup
import ScriptBridge.Proofs.DelayTurns

/-! When the delays of a queue fire if only steps follow. As no step hands back more than one, a delay
fires at the step where it is due or one step after the delay before it, whichever is later. These times
are the queue's plan; a step fires what the plan has for it and leaves a queue whose plan is the rest, one
step nearer. -/

namespace ScriptBridge.DelayQueue

variable {α : Type}

/-! ### Times of firing -/

/-- The steps at which delays fire that are due after so many steps, when one fired last before them. -/
def firingTimes (last : Int) : List Int → List Int
  | [] => []
  | left :: rest => max left (last + 1) :: firingTimes (max left (last + 1)) rest

@[simp]
theorem length_firingTimes (last : Int) (remaining : List Int) :
    (firingTimes last remaining).length = remaining.length := by
  induction remaining generalizing last with
  | nil => rfl
  | cons left rest ih => simp [firingTimes, ih]

theorem lt_of_mem_firingTimes {last time : Int} {remaining : List Int}
    (h : time ∈ firingTimes last remaining) : last < time := by
  induction remaining generalizing last with
  | nil => exact absurd h List.not_mem_nil
  | cons left rest ih =>
      rcases List.mem_cons.mp h with rfl | hmem
      · omega
      · have hlt := ih hmem
        omega

theorem firingTimes_pairwise (last : Int) (remaining : List Int) :
    (firingTimes last remaining).Pairwise (· < ·) := by
  induction remaining generalizing last with
  | nil => exact List.Pairwise.nil
  | cons left rest ih => exact List.pairwise_cons.mpr ⟨fun _ => lt_of_mem_firingTimes, ih _⟩

/-- When all delays are due later, all of them fire as much later. -/
theorem firingTimes_add (last more : Int) (remaining : List Int) :
    firingTimes (last + more) (remaining.map (· + more)) = (firingTimes last remaining).map (· + more) := by
  induction remaining generalizing last with
  | nil => rfl
  | cons left rest ih =>
      have hfirst : max (left + more) (last + more + 1) = max left (last + 1) + more := by omega
      simp only [List.map_cons, firingTimes, hfirst, ih]

/-- What fired last does not matter to a delay that is due later still. -/
theorem firingTimes_of_lt {last last' left : Int} (rest : List Int) (h : last < left) (h' : last' < left) :
    firingTimes last (left :: rest) = firingTimes last' (left :: rest) := by
  have hmax : max left (last + 1) = left := by omega
  have hmax' : max left (last' + 1) = left := by omega
  rw [firingTimes, firingTimes, hmax, hmax']

/-- All delays have fired as soon as the last has. -/
theorem firingTimes_le_iff {last bound : Int} (remaining : List Int) (h : last ≤ bound) :
    (∀ time ∈ firingTimes last remaining, time ≤ bound) ↔ (firingTimes last remaining).getLastD last ≤ bound := by
  induction remaining generalizing last with
  | nil => simpa [firingTimes] using h
  | cons left rest ih =>
      rw [firingTimes, List.forall_mem_cons, List.getLastD_cons]
      by_cases hfirst : max left (last + 1) ≤ bound
      · rw [← ih hfirst]
        exact and_iff_right hfirst
      · refine ⟨fun hall => absurd hall.1 hfirst, fun hlast => ?_⟩
        -- no later time is below the first
        have hle : max left (last + 1) ≤
            (firingTimes (max left (last + 1)) rest).getLastD (max left (last + 1)) := by
          rcases List.mem_cons.mp List.getLastD_mem_cons with heq | hmem
          · exact Int.le_of_eq heq.symm
          · exact Int.le_of_lt (lt_of_mem_firingTimes hmem)
        exact absurd (Int.le_trans hle hlast) hfirst

/-! ### Plans -/

/-- An entry of a plan some steps further away. -/
def postpone (steps : Int) (entry : Int × Nat × α) : Int × Nat × α := (entry.1 + steps, entry.2)

/-- The delays with the steps they fire at when only steps follow. -/
def plan (q : DelayQueue α) : List (Int × Nat × α) :=
  (firingTimes 0 q.ticksRemaining).zip (q.pending.map Delay.label)

theorem length_plan (q : DelayQueue α) : q.plan.length = q.pending.length := by
  simp [plan, ticksRemaining]

theorem Valid.moved_labels {q : DelayQueue α} (h : q.Valid) :
    q.moved.pending.map Delay.label = q.pending.map Delay.label := by
  rw [h.moved_pending, List.map_map]
  rfl

/-- A step brings every delay one step nearer. -/
theorem Valid.ticksRemaining_eq_moved {q : DelayQueue α} (h : q.Valid) :
    q.ticksRemaining = q.moved.ticksRemaining.map (· + 1) := by
  rw [ticksRemaining, ticksRemaining, h.moved_pending, List.map_map, List.map_map]
  refine List.map_congr_left fun d _ => ?_
  simp only [Function.comp_apply, Delay.later]
  omega

/-- **A step follows the plan.** What the plan has for the next step fires, and the rest of the plan is
that of the queue one step on. -/
theorem Valid.plan_eq_advance {q : DelayQueue α} (h : q.Valid) :
    q.plan = (q.firesNext?.map fun label => (1, label)).toList ++ q.advance.2.plan.map (postpone 1) := by
  have hplan : q.plan =
      (firingTimes 0 (q.moved.ticksRemaining.map (· + 1))).zip (q.moved.pending.map Delay.label) := by
    rw [plan, h.ticksRemaining_eq_moved, h.moved_labels]
  cases hdue : q.due? with
  | none =>
      rw [firesNext?, hdue, advance_of_due?_none hdue, hplan]
      cases hpending : q.moved.pending with
      | nil => simp [plan, ticksRemaining, hpending, firingTimes]
      | cons d rest =>
          have hlater : 0 < d.target - q.moved.counter := by
            rw [due?, hpending] at hdue
            simp only [ite_eq_right_iff, reduceCtorEq, imp_false] at hdue
            omega
          have hremaining : q.moved.ticksRemaining =
              (d.target - q.moved.counter) :: rest.map fun d => d.target - q.moved.counter := by
            rw [ticksRemaining, hpending, List.map_cons]
          have htimes : firingTimes 0 (q.moved.ticksRemaining.map (· + 1)) =
              (firingTimes 0 q.moved.ticksRemaining).map (· + 1) := by
            rw [← firingTimes_add 0 1, hremaining, List.map_cons]
            exact firingTimes_of_lt _ (by omega) (by omega)
          rw [htimes, List.zip_map_left, ← hpending]
          rfl
  | some d =>
      obtain ⟨rest, hpending, hle, hadvance⟩ := advance_of_due?_some hdue
      have htimes : firingTimes 0 (q.moved.ticksRemaining.map (· + 1)) =
          1 :: (firingTimes 0 (rest.map fun d => d.target - q.moved.counter)).map (· + 1) := by
        have hfirst : max (d.target - q.moved.counter + 1) (0 + 1) = 1 := by omega
        rw [← firingTimes_add 0 1, ticksRemaining, hpending, List.map_cons, List.map_cons, firingTimes, hfirst]
        rfl
      rw [firesNext?, hdue, hadvance, hplan, htimes, hpending, List.map_cons, List.zip_cons_cons,
        List.zip_map_left]
      rfl

/-! ### Draining -/

/-- The queue after so many steps with nothing else done. -/
def drained (q : DelayQueue α) : Nat → DelayQueue α
  | 0 => q
  | n + 1 => (q.drained n).advance.2

theorem Valid.drained {q : DelayQueue α} (h : q.Valid) (n : Nat) : (q.drained n).Valid := by
  induction n with
  | zero => exact h
  | succ n ih => exact ih.advance

/-- What has fired in some steps is the beginning of the plan, and the rest is the plan of what is left. -/
theorem Valid.plan_eq_drained {q : DelayQueue α} (h : q.Valid) (n : Nat) :
    q.plan = (List.range n).filterMap (fun t => (q.drained t).firesNext?.map fun label => ((t : Int) + 1, label)) ++
      (q.drained n).plan.map (postpone n) := by
  induction n with
  | zero =>
      have hsame : (postpone (0 : Nat) : Int × Nat × α → Int × Nat × α) = id :=
        funext fun entry => Prod.ext (Int.add_zero entry.1) rfl
      rw [hsame, List.map_id]
      rfl
  | succ n ih =>
      have hstep : (q.drained n).plan = ((q.drained n).firesNext?.map fun label => (1, label)).toList ++
          (q.drained (n + 1)).plan.map (postpone 1) := (h.drained n).plan_eq_advance
      have hlater : (postpone n : Int × Nat × α → Int × Nat × α) ∘ postpone 1 = postpone (n + 1 : Nat) := by
        funext entry
        exact Prod.ext (show entry.1 + 1 + n = entry.1 + (n + 1 : Nat) by omega) rfl
      rw [ih, hstep, List.map_append, List.map_map, hlater, List.range_succ, List.filterMap_append,
        List.append_assoc]
      cases hfires : (q.drained n).firesNext? with
      | none => simp [hfires]
      | some label => simp [hfires, postpone, Int.add_comm]

theorem pos_of_mem_plan {q : DelayQueue α} {entry : Int × Nat × α} (h : entry ∈ q.plan) : 0 < entry.1 :=
  lt_of_mem_firingTimes (List.of_mem_zip h).1

/-- A step fires what the plan has for it, and nothing else. -/
theorem Valid.fires_iff {q : DelayQueue α} (h : q.Valid) (t : Nat) (label : Nat × α) :
    (q.drained t).firesNext? = some label ↔ ((t : Int) + 1, label) ∈ q.plan := by
  rw [h.plan_eq_drained (t + 1), List.mem_append]
  constructor
  · intro hfires
    refine Or.inl (List.mem_filterMap.mpr ⟨t, List.mem_range.mpr (Nat.lt_succ_self t), ?_⟩)
    rw [hfires]
    rfl
  · rintro (hpast | hfuture)
    · obtain ⟨t', -, hentry⟩ := List.mem_filterMap.mp hpast
      obtain ⟨label', hfires, heq⟩ := Option.map_eq_some_iff.mp hentry
      obtain ⟨htime, rfl⟩ := Prod.mk.inj heq
      obtain rfl : t' = t := by omega
      exact hfires
    · -- what is planned later has a later time
      obtain ⟨entry, hmem, heq⟩ := List.mem_map.mp hfuture
      have hpos := pos_of_mem_plan hmem
      have htime : entry.1 + (t + 1 : Nat) = t + 1 := congrArg Prod.fst heq
      omega

theorem Valid.labels_nodup {q : DelayQueue α} (h : q.Valid) : (q.pending.map Delay.label).Nodup := by
  rw [List.Nodup, List.pairwise_map]
  exact h.distinct.imp fun hne heq => hne (congrArg Prod.fst heq)

theorem plan_times (q : DelayQueue α) : q.plan.map Prod.fst = firingTimes 0 q.ticksRemaining :=
  List.map_fst_zip (by simp [ticksRemaining])

theorem plan_labels (q : DelayQueue α) : q.plan.map Prod.snd = q.pending.map Delay.label :=
  List.map_snd_zip (by simp [ticksRemaining])

theorem isEmpty_iff_plan (q : DelayQueue α) : q.isEmpty = true ↔ q.plan = [] := by
  rw [isEmpty, List.isEmpty_iff, ← List.length_eq_zero_iff, ← List.length_eq_zero_iff, length_plan]

/-- Nothing is left just when every time of the plan has passed. -/
theorem Valid.drained_isEmpty_iff {q : DelayQueue α} (h : q.Valid) (n : Nat) :
    (q.drained n).isEmpty = true ↔ ∀ time ∈ firingTimes 0 q.ticksRemaining, time ≤ n := by
  rw [isEmpty_iff_plan, ← plan_times]
  constructor
  · intro hnil time htime
    obtain ⟨entry, hmem, rfl⟩ := List.mem_map.mp htime
    rw [h.plan_eq_drained n, hnil, List.map_nil, List.append_nil] at hmem
    obtain ⟨t, ht, hentry⟩ := List.mem_filterMap.mp hmem
    obtain ⟨label, -, rfl⟩ := Option.map_eq_some_iff.mp hentry
    have hlt : t < n := List.mem_range.mp ht
    show (t : Int) + 1 ≤ n
    omega
  · intro hpast
    rw [List.eq_nil_iff_forall_not_mem]
    intro entry hmem
    have hplanned : postpone n entry ∈ q.plan := by
      rw [h.plan_eq_drained n]
      exact List.mem_append_right _ (List.mem_map_of_mem hmem)
    have hle : entry.1 + n ≤ n := hpast _ (List.mem_map_of_mem hplanned)
    have hpos := pos_of_mem_plan hmem
    omega

/-- **Delays fire exactly on time.** Let a queue have delays due after `r₁ ≤ … ≤ rₙ` steps, and let only
steps follow. Then the delay at place `i` is handed back by step `max rᵢ (fᵢ₋₁ + 1)`, where `fᵢ₋₁` is the
step of the delay before it and `f₀ = 0`; every other step hands back nothing, nothing is handed back
twice, and the queue is empty from the last of these steps on. -/
theorem drained_on_time {q : DelayQueue α} (hq : q.Reachable) :
    let times := firingTimes 0 q.ticksRemaining
    q.ticksRemaining.Pairwise (· ≤ ·) ∧ times.length = q.pending.length ∧ times.Pairwise (· < ·) ∧
      (∀ (i : Nat) (d : Delay α) (time : Int), q.pending[i]? = some d → times[i]? = some time →
        ∃ t : Nat, time = t + 1 ∧ (q.drained t).firesNext? = some d.label ∧
          (q.drained t).advance.1 = some d.payload) ∧
      (∀ t : Nat, (t : Int) + 1 ∉ times → (q.drained t).advance.1 = none) ∧
      (∀ (t t' : Nat) (label : Nat × α), (q.drained t).firesNext? = some label →
        (q.drained t').firesNext? = some label → t = t') ∧
      ∀ n : Nat, (q.drained n).isEmpty = true ↔ times.getLastD 0 ≤ n := by
  intro times
  have hvalid := hq.valid
  refine ⟨?_, by simp [times, ticksRemaining], firingTimes_pairwise 0 _, ?_, ?_, ?_, ?_⟩
  · refine List.pairwise_map.mpr (hvalid.sorted.imp fun hbefore => ?_)
    simp only [Delay.Before] at hbefore
    omega
  · intro i d time hd htime
    have hentry : (time, d.label) ∈ q.plan := by
      refine List.mem_of_getElem? (i := i) ?_
      rw [plan, List.getElem?_zip_eq_some, List.getElem?_map, hd]
      exact ⟨htime, rfl⟩
    have hpos : 0 < time := pos_of_mem_plan hentry
    obtain ⟨t, rfl⟩ : ∃ t : Nat, time = t + 1 := ⟨(time - 1).toNat, by omega⟩
    have hfires := (hvalid.fires_iff t d.label).mpr hentry
    exact ⟨t, rfl, hfires, by rw [advance_fst_eq, hfires]; rfl⟩
  · intro t hother
    rw [advance_fst_eq]
    cases hfires : (q.drained t).firesNext? with
    | none => rfl
    | some label =>
        have hmem := List.mem_map_of_mem (f := Prod.fst) ((hvalid.fires_iff t label).mp hfires)
        rw [plan_times] at hmem
        exact absurd hmem hother
  · intro t t' label hfires hfires'
    have hnodup : (q.plan.map Prod.snd).Nodup := by
      rw [plan_labels]
      exact hvalid.labels_nodup
    have hentry := (hvalid.fires_iff t label).mp hfires
    have hentry' := (hvalid.fires_iff t' label).mp hfires'
    have htime : (t : Int) + 1 = t' + 1 :=
      congrArg Prod.fst (List.inj_on_of_nodup_map hnodup hentry hentry' rfl)
    omega
  · intro n
    rw [hvalid.drained_isEmpty_iff, firingTimes_le_iff _ (Int.natCast_nonneg n)]

/-- One delay has been due for a step and another is far off; the counter goes back to zero twice before
that one fires. -/
theorem overdue_and_distant_on_time :
    let q := after [.schedule 1 'a', .schedule 1 'b', .schedule 1 'c', .schedule 7 'd', .advance, .advance]
      (new (3 : Int64).toInt)
    q.ticksRemaining = [-1, 5] ∧ (q.drained 4).advance.1 = some 'd' ∧ (q.drained 5).isEmpty = true := by
  intro q
  obtain ⟨-, -, -, hfires, -, -, hempty⟩ := drained_on_time (q := q) ⟨3, _, rfl⟩
  obtain ⟨t, ht, -, hadvance⟩ := hfires 1 ⟨7, 3, 'd'⟩ 5 rfl rfl
  obtain rfl : t = 4 := by omega
  exact ⟨by decide, hadvance, (hempty 5).mpr (by decide)⟩

end ScriptBridge.DelayQueue
