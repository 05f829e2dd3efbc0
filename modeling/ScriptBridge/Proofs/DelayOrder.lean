import ScriptBridge.DelayQueue

/-! The firing order of delays and what holds of every queue. Delays are kept by target and then by
number, so the first of the queue is the next to fire. The counter stays below the threshold, so it
never reaches the greatest value and a step moves it by exactly one. -/

namespace ScriptBridge

variable {α : Type}

namespace Delay

/-- One delay fires before another: it is due earlier, or at the same time and was made earlier. -/
def Before (d d' : Delay α) : Prop := d.target < d'.target ∨ d.target = d'.target ∧ d.seq < d'.seq

instance (d d' : Delay α) : Decidable (d.Before d') := by
  unfold Before
  infer_instance

theorem Before.irrefl (d : Delay α) : ¬ d.Before d := by
  rintro (h | ⟨-, h⟩) <;> omega

theorem Before.trans {d d' d'' : Delay α} (h : d.Before d') (h' : d'.Before d'') : d.Before d'' := by
  simp only [Before] at *
  omega

theorem Before.asymm {d d' : Delay α} (h : d.Before d') : ¬ d'.Before d :=
  fun h' => irrefl d (h.trans h')

/-- In firing order, two delays of which neither fires before the other are one delay. -/
theorem eq_of_not_before {l : List (Delay α)} (hsorted : l.Pairwise Before) {d d' : Delay α}
    (hd : d ∈ l) (hd' : d' ∈ l) (h : ¬ d.Before d') (h' : ¬ d'.Before d) : d = d' := by
  have hall := List.Pairwise.forall_of_forall_of_flip
    (R := fun x y : Delay α => ¬ x.Before y → ¬ y.Before x → x = y)
    (fun _ _ _ _ => rfl) (hsorted.imp fun hb hn _ => absurd hb hn)
    (hsorted.imp fun hb _ hn => absurd hb hn)
  exact hall hd hd' h h'

/-- The same delay with its target moved. -/
def later (d : Delay α) (steps : Int) : Delay α := { d with target := d.target + steps }

theorem later_before_later {d d' : Delay α} (steps : Int) :
    (d.later steps).Before (d'.later steps) ↔ d.Before d' := by
  simp only [Before, later]
  omega

end Delay

namespace DelayQueue

/-! ### Insertion -/

theorem insert_perm (d : Delay α) (pending : List (Delay α)) : (insert d pending).Perm (d :: pending) := by
  induction pending with
  | nil => exact List.Perm.refl _
  | cons first rest ih =>
      rw [insert]
      split
      · exact (ih.cons first).trans (List.Perm.swap d first rest)
      · exact List.Perm.refl _

theorem mem_insert {d d' : Delay α} {pending : List (Delay α)} :
    d' ∈ insert d pending ↔ d' = d ∨ d' ∈ pending := by
  rw [(insert_perm d pending).mem_iff, List.mem_cons]

/-- The newest delay goes to its place in the firing order. -/
theorem insert_pairwise {d : Delay α} {pending : List (Delay α)} (hsorted : pending.Pairwise Delay.Before)
    (hnew : ∀ d' ∈ pending, d'.seq < d.seq) : (insert d pending).Pairwise Delay.Before := by
  induction pending with
  | nil => exact List.pairwise_singleton _ _
  | cons first rest ih =>
      obtain ⟨hfirst, hrest⟩ := List.pairwise_cons.mp hsorted
      have hseq : first.seq < d.seq := hnew first List.mem_cons_self
      rw [insert]
      split
      · rename_i hle
        refine List.pairwise_cons.mpr ⟨?_, ih hrest fun d' hd' => hnew d' (List.mem_cons_of_mem _ hd')⟩
        intro d' hd'
        rcases mem_insert.mp hd' with rfl | hmem
        · simp only [Delay.Before]
          omega
        · exact hfirst d' hmem
      · rename_i hlt
        have hbefore : d.Before first := Or.inl (by omega)
        refine List.pairwise_cons.mpr ⟨?_, hsorted⟩
        intro d' hd'
        rcases List.mem_cons.mp hd' with rfl | hmem
        · exact hbefore
        · exact hbefore.trans (hfirst d' hmem)

/-! ### Valid queues -/

/-- Delays in firing order, each with a number of its own below a bound. -/
structure InOrder (pending : List (Delay α)) (bound : Nat) : Prop where
  sorted : pending.Pairwise Delay.Before
  distinct : pending.Pairwise fun d d' => d.seq ≠ d'.seq
  seq_lt : ∀ d ∈ pending, d.seq < bound

namespace InOrder

variable {pending : List (Delay α)} {bound : Nat}

theorem nil (bound : Nat) : InOrder ([] : List (Delay α)) bound :=
  ⟨.nil, .nil, fun _ hd => absurd hd List.not_mem_nil⟩

theorem tail {d : Delay α} (h : InOrder (d :: pending) bound) : InOrder pending bound :=
  ⟨h.sorted.of_cons, h.distinct.of_cons, fun d' hd' => h.seq_lt d' (List.mem_cons_of_mem _ hd')⟩

theorem insert (h : InOrder pending bound) (target : Int) (payload : α) :
    InOrder (DelayQueue.insert ⟨target, bound, payload⟩ pending) (bound + 1) where
  sorted := insert_pairwise h.sorted h.seq_lt
  distinct := by
    rw [(insert_perm _ _).pairwise_iff fun hne => Ne.symm hne]
    exact List.pairwise_cons.mpr ⟨fun d hd => (Nat.ne_of_lt (h.seq_lt d hd)).symm, h.distinct⟩
  seq_lt := by
    intro d hd
    rcases mem_insert.mp hd with rfl | hmem
    · exact Nat.lt_succ_self _
    · exact Nat.lt_succ_of_lt (h.seq_lt d hmem)

theorem later (h : InOrder pending bound) (steps : Int) : InOrder (pending.map (·.later steps)) bound where
  sorted := List.pairwise_map.mpr (h.sorted.imp fun hd => (Delay.later_before_later steps).mpr hd)
  distinct := List.pairwise_map.mpr h.distinct
  seq_lt := by
    intro d hd
    obtain ⟨d', hd', rfl⟩ := List.mem_map.mp hd
    exact h.seq_lt d' hd'

end InOrder

structure Valid (q : DelayQueue α) : Prop extends InOrder q.pending q.nextSeq where
  counter_nonneg : 0 ≤ q.counter
  counter_lt : q.counter < q.rebaseThreshold
  threshold_le : q.rebaseThreshold ≤ greatest

theorem valid_new (threshold : Int64) : (new threshold.toInt : DelayQueue α).Valid where
  toInOrder := .nil 0
  counter_nonneg := Int.le_refl 0
  counter_lt := by
    show 0 < max threshold.toInt 1
    omega
  threshold_le := by
    have hle := threshold.toInt_le
    have hone : (1 : Int) ≤ greatest := by decide
    simp only [new, greatest] at *
    omega

theorem Valid.schedule {q : DelayQueue α} (h : q.Valid) (ticks : Int) (payload : α) :
    (q.schedule ticks payload).Valid where
  toInOrder := h.toInOrder.insert _ payload
  counter_nonneg := h.counter_nonneg
  counter_lt := h.counter_lt
  threshold_le := h.threshold_le

/-- Going back to zero makes a queue valid again whatever its counter was. -/
theorem rebase_valid {q : DelayQueue α} (horder : InOrder q.pending q.nextSeq) (hpos : 0 < q.rebaseThreshold)
    (hle : q.rebaseThreshold ≤ greatest) : q.rebase.Valid where
  toInOrder := horder.later (-q.counter)
  counter_nonneg := Int.le_refl 0
  counter_lt := hpos
  threshold_le := hle

theorem Valid.threshold_pos {q : DelayQueue α} (h : q.Valid) : 0 < q.rebaseThreshold :=
  Int.lt_of_le_of_lt h.counter_nonneg h.counter_lt

theorem Valid.rebase {q : DelayQueue α} (h : q.Valid) : q.rebase.Valid :=
  rebase_valid h.toInOrder h.threshold_pos h.threshold_le

theorem Valid.clear {q : DelayQueue α} (h : q.Valid) : q.clear.Valid where
  toInOrder := .nil _
  counter_nonneg := h.counter_nonneg
  counter_lt := h.counter_lt
  threshold_le := h.threshold_le

/-! ### Steps -/

/-- The queue one step on, before anything that is due is taken out. -/
def moved (q : DelayQueue α) : DelayQueue α := if q.rebasesNext then q.stepped.rebase else q.stepped

theorem advance_eq_popDue_moved (q : DelayQueue α) : q.advance = q.moved.popDue := rfl

/-- The counter of a valid queue has room for one more step. -/
theorem Valid.stepped_counter {q : DelayQueue α} (h : q.Valid) : q.stepped.counter = q.counter + 1 := by
  have hlt := h.counter_lt
  have hle := h.threshold_le
  simp only [stepped, addUpTo]
  omega

theorem Valid.moved {q : DelayQueue α} (h : q.Valid) : q.moved.Valid := by
  have hcounter := h.stepped_counter
  have hnonneg := h.counter_nonneg
  rw [DelayQueue.moved]
  split
  · -- the stepped queue itself is not valid here: its counter has reached the threshold
    exact rebase_valid h.toInOrder h.threshold_pos h.threshold_le
  · rename_i hrebase
    simp only [rebasesNext, decide_eq_true_eq] at hrebase
    exact ⟨h.toInOrder, by omega, Int.not_le.mp hrebase, h.threshold_le⟩

/-- A step brings every delay one nearer, with or without going back to zero. -/
theorem Valid.moved_pending {q : DelayQueue α} (h : q.Valid) :
    q.moved.pending = q.pending.map (·.later (q.moved.counter - q.counter - 1)) := by
  have hcounter := h.stepped_counter
  rw [DelayQueue.moved]
  split
  · show q.pending.map (·.later (-q.stepped.counter)) =
      q.pending.map (·.later (0 - q.counter - 1))
    rw [hcounter, show -(q.counter + 1) = 0 - q.counter - 1 by omega]
  · rw [hcounter, show q.counter + 1 - q.counter - 1 = 0 by omega]
    show q.pending = q.pending.map (·.later 0)
    simp [Delay.later]

theorem Valid.popDue {q : DelayQueue α} (h : q.Valid) : q.popDue.2.Valid := by
  unfold DelayQueue.popDue
  split
  · exact h
  · rename_i d rest hpending
    split
    · have horder := h.toInOrder
      rw [hpending] at horder
      exact ⟨horder.tail, h.counter_nonneg, h.counter_lt, h.threshold_le⟩
    · exact h

theorem Valid.advance {q : DelayQueue α} (h : q.Valid) : q.advance.2.Valid := h.moved.popDue

/-- The delay that the next step hands back. -/
def due? (q : DelayQueue α) : Option (Delay α) :=
  match q.moved.pending with
  | [] => none
  | d :: _ => if d.target ≤ q.moved.counter then some d else none

theorem advance_of_due?_none {q : DelayQueue α} (h : q.due? = none) : q.advance = (none, q.moved) := by
  rw [due?] at h
  rw [advance_eq_popDue_moved, popDue]
  cases hpending : q.moved.pending with
  | nil => rfl
  | cons d rest =>
      simp only [hpending, ite_eq_right_iff, reduceCtorEq, imp_false] at h
      exact if_neg h

theorem advance_of_due?_some {q : DelayQueue α} {d : Delay α} (h : q.due? = some d) :
    ∃ rest, q.moved.pending = d :: rest ∧ d.target ≤ q.moved.counter ∧
      q.advance = (some d.payload, { q.moved with pending := rest }) := by
  rw [due?] at h
  rw [advance_eq_popDue_moved, popDue]
  cases hpending : q.moved.pending with
  | nil => simp [hpending] at h
  | cons first rest =>
      simp only [hpending, Option.ite_none_right_eq_some, Option.some.injEq] at h
      obtain ⟨hle, rfl⟩ := h
      exact ⟨rest, rfl, hle, if_pos hle⟩

theorem advance_fst (q : DelayQueue α) : q.advance.1 = q.due?.map Delay.payload := by
  cases h : q.due? with
  | none => rw [advance_of_due?_none h, Option.map_none]
  | some d =>
      obtain ⟨_, -, -, hadvance⟩ := advance_of_due?_some h
      rw [hadvance, Option.map_some]

theorem moved_pending_nil {q : DelayQueue α} (h : q.pending = []) : q.moved.pending = [] := by
  rw [moved]
  split
  · rw [rebase, stepped, h, List.map_nil]
  · exact h

theorem due?_of_pending_nil {q : DelayQueue α} (h : q.pending = []) : q.due? = none := by
  rw [due?, moved_pending_nil h]

end DelayQueue
end ScriptBridge
