import ScriptBridge.Proofs.DelayTurns
import ScriptBridge.Proofs.NearestIntegers

/-! Delays in words of 64 bits. A queue kept in words, with its delays in a map by target and number, can go
wrong where a queue of integers cannot: a sum or a difference may leave its word, and two delays of one key
would be one after a return to zero. Neither comes about before there were 2 ^ 63 steps or 2 ^ 64 delays,
since no target lies further behind the counter than the number of steps. -/

namespace ScriptBridge

variable {α : Type}

/-! ### Words -/

/-- The difference of two words, if it is one. -/
def difference? (i j : Int64) : Option Int64 := int64Of? (i.toInt - j.toInt)

/-- The number after another, if it fits. -/
def successor? (n : UInt64) : Option UInt64 := if n.toNat + 1 < UInt64.size then some (n + 1) else none

/-- The word nearest to an integer. -/
def saturate (i : Int) : Int64 := Int64.ofInt (max Int64.minValue.toInt (min i Int64.maxValue.toInt))

theorem difference?_eq {i j : Int64} (hlow : -2 ^ 63 ≤ i.toInt - j.toInt) (hhigh : i.toInt - j.toInt < 2 ^ 63) :
    ∃ k, difference? i j = some k ∧ k.toInt = i.toInt - j.toInt :=
  have hvalue := Int64.toInt_ofInt_of_le hlow hhigh
  ⟨_, int64Of?_eq_some_iff.mpr hvalue, hvalue⟩

theorem successor?_eq {n : UInt64} (h : n.toNat + 1 < 2 ^ 64) :
    ∃ m, successor? n = some m ∧ m.toNat = n.toNat + 1 := by
  refine ⟨n + 1, if_pos h, ?_⟩
  rw [UInt64.toNat_add]
  exact Nat.mod_eq_of_lt h

theorem toInt_saturate {i : Int} (h : 0 ≤ i) : (saturate i).toInt = min i DelayQueue.greatest := by
  have hlow : Int64.minValue.toInt = -2 ^ 63 := by decide
  have hhigh : Int64.maxValue.toInt = 2 ^ 63 - 1 := by decide
  rw [saturate, DelayQueue.greatest, hlow, hhigh, Int64.toInt_ofInt_of_le (by omega) (by omega)]
  omega

theorem toInt_max (i j : Int64) : (max i j).toInt = max i.toInt j.toInt := by
  rw [show max i j = if i ≤ j then j else i from rfl]
  split
  · rename_i hle
    exact (Int.max_eq_right (Int64.le_iff_toInt_le.mp hle)).symm
  · rename_i hlt
    have hle := mt Int64.le_iff_toInt_le.mpr hlt
    omega

/-! ### Queues in words -/

/-- A delay with target and number in words. -/
structure WordDelay (α : Type) where
  target : Int64
  seq : UInt64
  payload : α

namespace WordDelay

/-- The delay with its target and number as they are meant. -/
def ideal (d : WordDelay α) : Delay α := ⟨d.target.toInt, d.seq.toNat, d.payload⟩

/-- The order of keys. -/
def Before (d d' : WordDelay α) : Prop := d.target < d'.target ∨ d.target = d'.target ∧ d.seq < d'.seq

instance (d d' : WordDelay α) : Decidable (d.Before d') :=
  inferInstanceAs (Decidable (d.target < d'.target ∨ d.target = d'.target ∧ d.seq < d'.seq))

theorem ideal_before_iff {d d' : WordDelay α} : d.ideal.Before d'.ideal ↔ d.Before d' := by
  simp only [Delay.Before, Before, ideal, Int64.lt_iff_toInt_lt, Int64.toInt_inj, UInt64.lt_iff_toNat_lt]

/-- Puts a delay where its key belongs; one with the same key gives way to it. -/
def put (d : WordDelay α) : List (WordDelay α) → List (WordDelay α)
  | [] => [d]
  | first :: rest =>
    if first.Before d then first :: put d rest
    else if d.Before first then d :: first :: rest
    else d :: rest

/-- The map of some delays. -/
def collect (delays : List (WordDelay α)) : List (WordDelay α) := delays.foldl (fun kept d => put d kept) []

/-- With a new number, a delay goes to its place in the firing order. -/
theorem map_ideal_put {d : WordDelay α} {pending : List (WordDelay α)}
    (hnew : ∀ d' ∈ pending, d'.seq.toNat < d.seq.toNat) :
    (put d pending).map ideal = DelayQueue.insert d.ideal (pending.map ideal) := by
  induction pending with
  | nil => rfl
  | cons first rest ih =>
      have hseq := hnew first List.mem_cons_self
      have hbefore : first.Before d ↔ first.ideal.target ≤ d.ideal.target := by
        rw [← ideal_before_iff]
        simp only [Delay.Before, ideal]
        omega
      rw [List.map_cons, DelayQueue.insert, put]
      by_cases hle : first.ideal.target ≤ d.ideal.target
      · have hrest : ∀ d' ∈ rest, d'.seq.toNat < d.seq.toNat := fun d' hd' => hnew d' (List.mem_cons_of_mem _ hd')
        rw [if_pos (hbefore.mpr hle), if_pos hle, List.map_cons, ih hrest]
      · have hafter : d.Before first := by
          rw [← ideal_before_iff]
          exact Or.inl (Int.not_le.mp hle)
        rw [if_neg (mt hbefore.mp hle), if_neg hle, if_pos hafter]
        rfl

theorem put_of_last {d : WordDelay α} {kept : List (WordDelay α)} (h : ∀ d' ∈ kept, d'.Before d) :
    put d kept = kept ++ [d] := by
  induction kept with
  | nil => rfl
  | cons first rest ih =>
      rw [put, if_pos (h first List.mem_cons_self), ih fun d' hd' => h d' (List.mem_cons_of_mem _ hd')]
      rfl

/-- Delays in firing order are the map of themselves: none takes the place of another. -/
theorem collect_eq {delays : List (WordDelay α)} (h : delays.Pairwise Before) : collect delays = delays := by
  have hfold : ∀ (kept rest : List (WordDelay α)), (kept ++ rest).Pairwise Before →
      rest.foldl (fun kept d => put d kept) kept = kept ++ rest := by
    intro kept rest hsorted
    induction rest generalizing kept with
    | nil => exact (List.append_nil kept).symm
    | cons d rest ih =>
        have hlast : ∀ d' ∈ kept, d'.Before d := fun d' hd' =>
          (List.pairwise_append.mp hsorted).2.2 d' hd' d List.mem_cons_self
        rw [List.append_cons] at hsorted ⊢
        rw [List.foldl_cons, put_of_last hlast, ih _ hsorted]
  exact hfold [] delays h

end WordDelay

structure WordQueue (α : Type) where
  /-- A map, in the order of its keys. -/
  pending : List (WordDelay α)
  counter : Int64
  nextSeq : UInt64
  rebaseThreshold : Int64

/-! The operations have no result where a sum or a difference leaves its word. -/

namespace WordQueue

def new (threshold : Int64) : WordQueue α := ⟨[], 0, 0, max threshold 1⟩

def schedule (w : WordQueue α) (ticks : Int64) (payload : α) : Option (WordQueue α) := do
  let target := saturate (w.counter.toInt + (max ticks 0).toInt)
  let nextSeq ← successor? w.nextSeq
  return { w with pending := WordDelay.put ⟨target, w.nextSeq, payload⟩ w.pending, nextSeq }

/-- Every delay with its target moved back. -/
def shifted? (amount : Int64) : List (WordDelay α) → Option (List (WordDelay α))
  | [] => some []
  | d :: rest => do
    let target ← difference? d.target amount
    return { d with target } :: (← shifted? amount rest)

def rebase (w : WordQueue α) : Option (WordQueue α) :=
  if w.counter = 0 then some w
  else (shifted? w.counter w.pending).map fun shifted =>
    { w with pending := WordDelay.collect shifted, counter := 0 }

def popDue (w : WordQueue α) : Option α × WordQueue α :=
  match w.pending with
  | [] => (none, w)
  | d :: rest => if d.target ≤ w.counter then (some d.payload, { w with pending := rest }) else (none, w)

def advance (w : WordQueue α) : Option (Option α × WordQueue α) :=
  let stepped := { w with counter := saturate (w.counter.toInt + 1) }
  (if stepped.rebaseThreshold ≤ stepped.counter then stepped.rebase else some stepped).map popDue

def clear (w : WordQueue α) : WordQueue α := { w with pending := [] }

def size (w : WordQueue α) : Nat := w.pending.length

def ticksRemaining (w : WordQueue α) : Option (List Int64) :=
  (shifted? w.counter w.pending).map fun shifted => shifted.map WordDelay.target

def perform (w : WordQueue α) : DelayAction α → Option (Option α × WordQueue α)
  | .schedule ticks payload => (w.schedule ticks payload).map (none, ·)
  | .advance => w.advance
  | .rebase => w.rebase.map (none, ·)
  | .clear => some (none, w.clear)

/-- The queue that actions leave. -/
def after : List (DelayAction α) → WordQueue α → Option (WordQueue α)
  | [], w => some w
  | action :: rest, w => (w.perform action).bind fun (_, w) => after rest w

/-- The queue with all its numbers as they are meant. -/
def ideal (w : WordQueue α) : DelayQueue α :=
  ⟨w.pending.map WordDelay.ideal, w.counter.toInt, w.nextSeq.toNat, w.rebaseThreshold.toInt⟩

end WordQueue

/-! ### How far targets lie behind -/

namespace DelayQueue

/-- A valid queue after so many steps. -/
structure Within (steps : Nat) (q : DelayQueue α) : Prop extends q.Valid where
  target_ge : ∀ d ∈ q.pending, q.counter - steps ≤ d.target
  target_le : ∀ d ∈ q.pending, d.target ≤ greatest

/-- How many of the actions make a delay. -/
def makings : List (DelayAction α) → Nat
  | [] => 0
  | .schedule _ _ :: rest => makings rest + 1
  | _ :: rest => makings rest

theorem steps_cons (action : DelayAction α) (rest : List (DelayAction α)) :
    steps (action :: rest) = steps [action] + steps rest := by
  cases action with
  | advance => exact Nat.add_comm _ _
  | _ => exact (Nat.zero_add _).symm

theorem makings_cons (action : DelayAction α) (rest : List (DelayAction α)) :
    makings (action :: rest) = makings [action] + makings rest := by
  cases action with
  | schedule ticks payload => exact Nat.add_comm _ _
  | _ => exact (Nat.zero_add _).symm

namespace Within

variable {steps : Nat} {q : DelayQueue α}

theorem new (threshold : Int64) : Within 0 (new threshold.toInt : DelayQueue α) where
  toValid := valid_new threshold
  target_ge _ hd := absurd hd List.not_mem_nil
  target_le _ hd := absurd hd List.not_mem_nil

theorem schedule (h : q.Within steps) (ticks : Int) (payload : α) : (q.schedule ticks payload).Within steps where
  toValid := h.toValid.schedule ticks payload
  target_ge := by
    intro d hd
    rcases mem_insert.mp hd with rfl | hmem
    · have hle : q.counter ≤ q.dueAfter ticks := h.counter_le_dueAfter ticks
      show q.counter - steps ≤ q.dueAfter ticks
      omega
    · exact h.target_ge d hmem
  target_le := by
    intro d hd
    rcases mem_insert.mp hd with rfl | hmem
    · exact Int.min_le_right _ _
    · exact h.target_le d hmem

theorem rebase (h : q.Within steps) : q.rebase.Within steps where
  toValid := h.toValid.rebase
  target_ge := by
    intro d hd
    obtain ⟨d', hd', rfl⟩ := List.mem_map.mp hd
    have hge := h.target_ge d' hd'
    show (0 : Int) - steps ≤ d'.target - q.counter
    omega
  target_le := by
    intro d hd
    obtain ⟨d', hd', rfl⟩ := List.mem_map.mp hd
    have hle := h.target_le d' hd'
    have hcounter := h.counter_nonneg
    show d'.target - q.counter ≤ greatest
    omega

/-- A step brings counter and targets one nearer, with or without a return to zero. -/
theorem moved (h : q.Within steps) : q.moved.Within (steps + 1) := by
  have hcounter := h.stepped_counter
  have hmoved : q.moved.counter ≤ q.counter + 1 := by
    have hnonneg := h.counter_nonneg
    rw [DelayQueue.moved]
    split
    · show (0 : Int) ≤ q.counter + 1
      omega
    · exact Int.le_of_eq hcounter
  refine ⟨h.toValid.moved, ?_, ?_⟩
  all_goals
    intro d hd
    rw [h.moved_pending] at hd
    obtain ⟨d', hd', rfl⟩ := List.mem_map.mp hd
    have hge := h.target_ge d' hd'
    have hle := h.target_le d' hd'
    simp only [Delay.later]
    omega

theorem popDue (h : q.Within steps) : q.popDue.2.Within steps := by
  have hkept : ∀ d ∈ q.popDue.2.pending, d ∈ q.pending := by
    rw [DelayQueue.popDue]
    split
    · exact fun d hd => hd
    · rename_i first rest hpending
      split
      · exact fun d hd => hpending ▸ List.mem_cons_of_mem first hd
      · exact fun d hd => hd
  have hcounter : q.popDue.2.counter = q.counter := by
    rw [DelayQueue.popDue]
    split
    · rfl
    · split <;> rfl
  exact ⟨h.toValid.popDue, fun d hd => hcounter ▸ h.target_ge d (hkept d hd),
    fun d hd => h.target_le d (hkept d hd)⟩

theorem perform (h : q.Within steps) (action : DelayAction α) :
    (q.perform action).2.Within (steps + DelayQueue.steps [action]) := by
  cases action with
  | schedule ticks payload => exact h.schedule ticks.toInt payload
  | advance => exact h.moved.popDue
  | rebase => exact h.rebase
  | clear =>
      exact ⟨h.toValid.clear, fun _ hd => absurd hd List.not_mem_nil, fun _ hd => absurd hd List.not_mem_nil⟩

theorem after (h : q.Within steps) (actions : List (DelayAction α)) :
    (after actions q).Within (steps + DelayQueue.steps actions) := by
  induction actions generalizing steps q with
  | nil => exact h
  | cons action rest ih =>
      rw [steps_cons, ← Nat.add_assoc]
      exact ih (h.perform action)

end Within

theorem perform_nextSeq (q : DelayQueue α) (action : DelayAction α) :
    (q.perform action).2.nextSeq = q.nextSeq + makings [action] := by
  cases action with
  | advance => exact advance_nextSeq q
  | _ => rfl

end DelayQueue

/-! ### Words are wide enough -/

namespace WordQueue

open DelayQueue (Within steps makings greatest)

variable {w : WordQueue α} {n : Nat}

theorem ideal_new (threshold : Int64) :
    (new threshold : WordQueue α).ideal = DelayQueue.new threshold.toInt := by
  simp only [ideal, new, DelayQueue.new, DelayQueue.mk.injEq, List.map_nil, true_and]
  exact ⟨rfl, rfl, toInt_max _ _⟩

/-- No difference leaves its word while targets lie at most so far behind. -/
theorem shifted?_eq {amount : Int64} {pending : List (WordDelay α)} (h : ∀ d ∈ pending,
    -2 ^ 63 ≤ d.target.toInt - amount.toInt ∧ d.target.toInt - amount.toInt < 2 ^ 63) :
    ∃ shifted, shifted? amount pending = some shifted ∧
      shifted.map WordDelay.ideal = pending.map fun d => d.ideal.later (-amount.toInt) := by
  induction pending with
  | nil => exact ⟨[], rfl, rfl⟩
  | cons d rest ih =>
      obtain ⟨hlow, hhigh⟩ := h d List.mem_cons_self
      obtain ⟨target, htarget, hvalue⟩ := difference?_eq hlow hhigh
      obtain ⟨shifted, hshifted, hideal⟩ := ih fun d' hd' => h d' (List.mem_cons_of_mem d hd')
      refine ⟨{ d with target } :: shifted, by simp only [shifted?, htarget, hshifted]; rfl, ?_⟩
      rw [List.map_cons, List.map_cons, hideal]
      simp only [WordDelay.ideal, Delay.later, hvalue, Int.sub_eq_add_neg]

/-- Targets moved back by no more than the counter and a step are words. -/
theorem bounds (h : w.ideal.Within n) {amount : Int64} (hpos : 0 ≤ amount.toInt)
    (hfar : amount.toInt - w.counter.toInt + n ≤ 2 ^ 63) : ∀ d ∈ w.pending,
    -2 ^ 63 ≤ d.target.toInt - amount.toInt ∧ d.target.toInt - amount.toInt < 2 ^ 63 := by
  intro d hd
  have hge : w.counter.toInt - n ≤ d.target.toInt := h.target_ge d.ideal (List.mem_map_of_mem hd)
  have hlt := d.target.toInt_lt
  omega

theorem schedule_ideal (h : w.ideal.Valid) (hroom : w.nextSeq.toNat + 1 < 2 ^ 64) (ticks : Int64) (payload : α) :
    ∃ w', w.schedule ticks payload = some w' ∧ w'.ideal = w.ideal.schedule ticks.toInt payload := by
  obtain ⟨nextSeq, hnext, hvalue⟩ := successor?_eq hroom
  have hcounter : 0 ≤ w.counter.toInt := h.counter_nonneg
  let target := saturate (w.counter.toInt + (max ticks 0).toInt)
  have htarget : target.toInt = w.ideal.dueAfter ticks.toInt := by
    have hzero : (0 : Int64).toInt = 0 := rfl
    show (saturate (w.counter.toInt + (max ticks 0).toInt)).toInt = _
    rw [toInt_max, toInt_saturate (by omega)]
    rfl
  have hnew : ∀ d ∈ w.pending, d.seq.toNat < w.nextSeq.toNat := fun d hd =>
    h.seq_lt d.ideal (List.mem_map_of_mem hd)
  have hput : (WordDelay.put ⟨target, w.nextSeq, payload⟩ w.pending).map WordDelay.ideal =
      DelayQueue.insert ⟨w.ideal.dueAfter ticks.toInt, w.nextSeq.toNat, payload⟩ w.ideal.pending := by
    rw [WordDelay.map_ideal_put hnew, ← htarget]
    rfl
  refine ⟨{ w with pending := WordDelay.put ⟨target, w.nextSeq, payload⟩ w.pending, nextSeq }, ?_, ?_⟩
  · rw [schedule, hnext]
    rfl
  · rw [ideal, hput, hvalue]
    rfl

/-- Delays with numbers of their own stay apart when all targets move, so the map loses none. -/
theorem rebase_ideal (hsorted : w.ideal.pending.Pairwise Delay.Before) (hbounds : ∀ d ∈ w.pending,
    -2 ^ 63 ≤ d.target.toInt - w.counter.toInt ∧ d.target.toInt - w.counter.toInt < 2 ^ 63) :
    ∃ w', w.rebase = some w' ∧ w'.ideal = w.ideal.rebase := by
  rw [rebase]
  split
  · rename_i hzero
    refine ⟨w, rfl, ?_⟩
    simp [ideal, DelayQueue.rebase, hzero]
  · obtain ⟨shifted, hshifted, hideal⟩ := shifted?_eq hbounds
    have hkept : shifted.map WordDelay.ideal = w.ideal.pending.map (·.later (-w.counter.toInt)) := by
      rw [hideal, ideal, List.map_map]
      rfl
    have hordered : shifted.Pairwise WordDelay.Before := by
      have hlater := hsorted.imp (Delay.later_before_later (-w.counter.toInt)).mpr
      rw [← List.pairwise_map (f := (Delay.later · (-w.counter.toInt))), ← hkept, List.pairwise_map] at hlater
      exact hlater.imp WordDelay.ideal_before_iff.mp
    refine ⟨{ w with pending := WordDelay.collect shifted, counter := 0 }, by rw [hshifted]; rfl, ?_⟩
    rw [WordDelay.collect_eq hordered, ideal, hkept]
    rfl

theorem popDue_ideal (w : WordQueue α) : w.ideal.popDue = (w.popDue.1, w.popDue.2.ideal) := by
  rw [popDue, DelayQueue.popDue]
  cases hpending : w.pending with
  | nil => simp only [ideal, hpending, List.map_nil]
  | cons d rest =>
      simp only [ideal, hpending, List.map_cons, WordDelay.ideal, Int64.le_iff_toInt_le]
      split
      · rfl
      · simp only [hpending, List.map_cons, WordDelay.ideal]

theorem advance_ideal (h : w.ideal.Within n) (hn : n + 1 < 2 ^ 63) :
    ∃ fired w', w.advance = some (fired, w') ∧ w.ideal.advance = (fired, w'.ideal) := by
  have hnonneg : 0 ≤ w.counter.toInt := h.counter_nonneg
  have hadded : (saturate (w.counter.toInt + 1)).toInt = w.ideal.stepped.counter := toInt_saturate (by omega)
  have hcounter : (saturate (w.counter.toInt + 1)).toInt = w.counter.toInt + 1 := hadded.trans h.stepped_counter
  let stepped : WordQueue α := { w with counter := saturate (w.counter.toInt + 1) }
  have hstepped : stepped.ideal = w.ideal.stepped := by
    rw [ideal, hadded]
    rfl
  have hrebases : stepped.rebaseThreshold ≤ stepped.counter ↔ w.ideal.rebasesNext = true := by
    rw [Int64.le_iff_toInt_le, hadded, DelayQueue.rebasesNext, decide_eq_true_eq]
    rfl
  have hmoved : ∃ moved : WordQueue α, moved.ideal = w.ideal.moved ∧
      (if stepped.rebaseThreshold ≤ stepped.counter then stepped.rebase else some stepped) = some moved := by
    rw [DelayQueue.moved, ← hstepped]
    by_cases hback : stepped.rebaseThreshold ≤ stepped.counter
    · obtain ⟨moved, hmoved, hideal⟩ := rebase_ideal (w := stepped) h.sorted
        (bounds h (by rw [hcounter]; omega) (by rw [hcounter]; omega))
      exact ⟨moved, by rw [hideal, if_pos (hrebases.mp hback)], by rw [if_pos hback, hmoved]⟩
    · exact ⟨stepped, by rw [if_neg (mt hrebases.mpr hback)], by rw [if_neg hback]⟩
  obtain ⟨moved, hideal, hmoved⟩ := hmoved
  refine ⟨moved.popDue.1, moved.popDue.2, ?_, ?_⟩
  · rw [advance, hmoved]
    rfl
  · rw [DelayQueue.advance_eq_popDue_moved, ← hideal]
    exact popDue_ideal moved

/-- One action has its result in words. -/
theorem perform_ideal (h : w.ideal.Within n) (action : DelayAction α) (hsteps : n + steps [action] < 2 ^ 63)
    (hmakings : w.nextSeq.toNat + makings [action] < 2 ^ 64) :
    ∃ fired w', w.perform action = some (fired, w') ∧ w.ideal.perform action = (fired, w'.ideal) := by
  cases action with
  | schedule ticks payload =>
      obtain ⟨w', hschedule, hideal⟩ := schedule_ideal h.toValid hmakings ticks payload
      exact ⟨none, w', by rw [perform, hschedule]; rfl, by rw [hideal]; rfl⟩
  | advance => exact advance_ideal h hsteps
  | rebase =>
      have hn : n < 2 ^ 63 := hsteps
      obtain ⟨w', hrebase, hideal⟩ := rebase_ideal h.sorted (bounds h h.counter_nonneg (by omega))
      exact ⟨none, w', by rw [perform, hrebase]; rfl, by rw [hideal]; rfl⟩
  | clear => exact ⟨none, w.clear, rfl, rfl⟩

theorem after_ideal (h : w.ideal.Within n) (actions : List (DelayAction α)) (hsteps : n + steps actions < 2 ^ 63)
    (hmakings : w.nextSeq.toNat + makings actions < 2 ^ 64) :
    ∃ w', after actions w = some w' ∧ w'.ideal = DelayQueue.after actions w.ideal := by
  induction actions generalizing n w with
  | nil => exact ⟨w, rfl, rfl⟩
  | cons action rest ih =>
      rw [DelayQueue.steps_cons] at hsteps
      rw [DelayQueue.makings_cons] at hmakings
      obtain ⟨fired, next, hperform, hideal⟩ := perform_ideal h action (by omega) (by omega)
      have hnext : (w.ideal.perform action).2 = next.ideal := congrArg Prod.snd hideal
      have hwithin : next.ideal.Within (n + steps [action]) := hnext ▸ h.perform action
      have hnumber : next.nextSeq.toNat = w.nextSeq.toNat + makings [action] := by
        rw [show next.nextSeq.toNat = next.ideal.nextSeq from rfl, ← hnext, DelayQueue.perform_nextSeq]
        rfl
      obtain ⟨w', hafter, hlast⟩ := ih hwithin (by omega) (by omega)
      refine ⟨w', by rw [after, hperform]; exact hafter, ?_⟩
      rw [hlast, DelayQueue.after, hnext]

theorem size_ideal (w : WordQueue α) : w.ideal.size = w.size := List.length_map _

theorem ticksRemaining_ideal (h : w.ideal.Within n) (hn : n < 2 ^ 63) :
    ∃ left, w.ticksRemaining = some left ∧ left.map Int64.toInt = w.ideal.ticksRemaining := by
  obtain ⟨shifted, hshifted, hideal⟩ := shifted?_eq (bounds h h.counter_nonneg (by omega))
  refine ⟨shifted.map WordDelay.target, by rw [ticksRemaining, hshifted]; rfl, ?_⟩
  have htargets := congrArg (List.map Delay.target) hideal
  rw [List.map_map, List.map_map] at htargets
  rw [DelayQueue.ticksRemaining, ideal, List.map_map, List.map_map]
  exact htargets

end WordQueue

namespace DelayQueue

/-- **Words of 64 bits are wide enough.** The counter stays from zero on below the threshold, so a step always
moves it by one; delays differ in their numbers, which are those given out, and none is due further back than
the number of steps. So with less than 2 ^ 63 steps and 2 ^ 64 delays no sum and no difference leaves its word,
and a return to zero keeps the number of delays. -/
theorem words_suffice (threshold : Int64) (actions : List (DelayAction α)) :
    let q : DelayQueue α := after actions (new threshold.toInt)
    (0 ≤ q.counter ∧ q.counter < q.rebaseThreshold) ∧
      q.pending.Pairwise (fun d d' => (d.target, d.seq) ≠ (d'.target, d'.seq)) ∧
      (∀ d ∈ q.pending, d.seq < q.nextSeq ∧ -(steps actions : Int) ≤ d.target) ∧
      q.stepped.counter = q.counter + 1 ∧
      q.rebase.size = q.size ∧
      (steps actions < 2 ^ 63 → makings actions < 2 ^ 64 →
        ∃ w, WordQueue.after actions (WordQueue.new threshold) = some w ∧ w.ideal = q ∧
          (∃ rebased, w.rebase = some rebased ∧ rebased.ideal = q.rebase ∧ rebased.size = w.size) ∧
          ∃ left, w.ticksRemaining = some left ∧ left.map Int64.toInt = q.ticksRemaining) := by
  intro q
  have hwithin : q.Within (0 + steps actions) := (Within.new threshold).after actions
  rw [Nat.zero_add] at hwithin
  refine ⟨⟨hwithin.counter_nonneg, hwithin.counter_lt⟩, ?_, ?_, hwithin.stepped_counter, List.length_map _,
    ?_⟩
  · exact hwithin.distinct.imp fun hne heq => hne (congrArg Prod.snd heq)
  · intro d hd
    have hge := hwithin.target_ge d hd
    have hcounter := hwithin.counter_nonneg
    exact ⟨hwithin.seq_lt d hd, by omega⟩
  · intro hsteps hmakings
    have hnew : (WordQueue.new threshold : WordQueue α).ideal.Within 0 := by
      rw [WordQueue.ideal_new]
      exact Within.new threshold
    have hstart : (WordQueue.new threshold : WordQueue α).nextSeq.toNat = 0 := rfl
    obtain ⟨w, hafter, hideal⟩ := WordQueue.after_ideal hnew actions (by omega) (by omega)
    rw [WordQueue.ideal_new] at hideal
    have hw : w.ideal.Within (steps actions) := hideal ▸ hwithin
    obtain ⟨rebased, hrebase, hback⟩ := WordQueue.rebase_ideal hw.sorted
      (WordQueue.bounds hw hw.counter_nonneg (by omega))
    have hsize : rebased.size = w.size := by
      rw [← WordQueue.size_ideal, hback, ← WordQueue.size_ideal]
      exact List.length_map _
    refine ⟨w, hafter, hideal, ⟨rebased, hrebase, by rw [hback, hideal], hsize⟩, ?_⟩
    rw [show q.ticksRemaining = w.ideal.ticksRemaining by rw [hideal]]
    exact WordQueue.ticksRemaining_ideal hw hsteps

/-- A delay that is overdue by two returns to zero and one with the greatest target, both in words. -/
theorem words_suffice_overdue :
    let actions : List (DelayAction Char) :=
      [.schedule 0 'a', .schedule (-3) 'b', .schedule 0 'c', .schedule Int64.maxValue 'd', .advance, .advance]
    let q := after actions (new (1 : Int64).toInt)
    steps actions < 2 ^ 63 ∧ makings actions < 2 ^ 64 ∧ q.ticksRemaining = [-2, 2 ^ 63 - 3] ∧
      ∃ w, WordQueue.after actions (WordQueue.new 1) = some w ∧ w.ideal = q := by
  intro actions q
  obtain ⟨w, hafter, hideal, -⟩ := (words_suffice 1 actions).2.2.2.2.2 (by decide) (by decide)
  exact ⟨by decide, by decide, by decide, w, hafter, hideal⟩

end DelayQueue
end ScriptBridge
