import ScriptBridge.Proofs.DelayOrder

/-! Delays as an ideal agenda: a clock that is never set back, and entries that are due at a time of that
clock. A queue of delays shows the same as the agenda whatever its threshold, as long as no target is
out of range, so going back to zero is not noticed: nothing is lost, fired twice or fired out of turn. -/

namespace ScriptBridge

variable {α : Type}

/-- Something done to delays. -/
inductive DelayAction (α : Type) where
  | schedule (ticks : Int64) (payload : α)
  | advance
  | rebase
  | clear

def DelayAction.isRebase : DelayAction α → Bool
  | .rebase => true
  | _ => false

/-- What is seen after an action: the payload it fired, the steps left for each delay and their number. -/
structure DelaySight (α : Type) where
  fired : Option α
  remaining : List Int
  size : Nat

namespace DelayQueue

def perform (q : DelayQueue α) : DelayAction α → Option α × DelayQueue α
  | .schedule ticks payload => (none, q.schedule ticks.toInt payload)
  | .advance => q.advance
  | .rebase => (none, q.rebase)
  | .clear => (none, q.clear)

def sights : List (DelayAction α) → DelayQueue α → List (DelaySight α)
  | [], _ => []
  | action :: rest, q =>
      let (fired, q) := q.perform action
      ⟨fired, q.ticksRemaining, q.size⟩ :: sights rest q

/-- What the steps fire, one entry for each. -/
def firings : List (DelayAction α) → DelayQueue α → List (Option α)
  | [], _ => []
  | .advance :: rest, q => q.advance.1 :: firings rest q.advance.2
  | action :: rest, q => firings rest (q.perform action).2

/-- The target of a delay that an action makes is in range. -/
def HasRoom (q : DelayQueue α) : DelayAction α → Prop
  | .schedule ticks _ => q.counter + max ticks.toInt 0 ≤ greatest
  | _ => True

instance (q : DelayQueue α) (action : DelayAction α) : Decidable (q.HasRoom action) :=
  match action with
  | .schedule ticks _ => inferInstanceAs (Decidable (q.counter + max ticks.toInt 0 ≤ greatest))
  | .advance | .rebase | .clear => inferInstanceAs (Decidable True)

/-- No delay that is made has its target out of range. -/
def Fits : List (DelayAction α) → DelayQueue α → Prop
  | [], _ => True
  | action :: rest, q => q.HasRoom action ∧ Fits rest (q.perform action).2

instance decidableFits : (actions : List (DelayAction α)) → (q : DelayQueue α) → Decidable (Fits actions q)
  | [], _ => inferInstanceAs (Decidable True)
  | action :: rest, q =>
      have := decidableFits rest (q.perform action).2
      inferInstanceAs (Decidable (q.HasRoom action ∧ Fits rest (q.perform action).2))

end DelayQueue

/-- Entries keep the time they are due at, and the number of entries made before them. -/
structure Agenda (α : Type) where
  entries : List (Delay α)
  clock : Int
  made : Nat

namespace Agenda

def empty : Agenda α := ⟨[], 0, 0⟩

/-- The entries by the time they are due at, and by age among those due at the same time. -/
def inOrder (a : Agenda α) : List (Delay α) := a.entries.mergeSort fun d d' => !decide (d'.Before d)

def schedule (a : Agenda α) (ticks : Int) (payload : α) : Agenda α :=
  { a with entries := a.entries ++ [⟨a.clock + max ticks 0, a.made, payload⟩], made := a.made + 1 }

/-- The clock moves on, and the least entry is taken out if it is due. -/
def advance (a : Agenda α) : Option α × Agenda α :=
  let clock := a.clock + 1
  match a.inOrder with
  | [] => (none, { a with clock })
  | d :: rest => if d.target ≤ clock then (some d.payload, ⟨rest, clock, a.made⟩) else (none, { a with clock })

def clear (a : Agenda α) : Agenda α := { a with entries := [] }

def ticksRemaining (a : Agenda α) : List Int := a.inOrder.map fun d => d.target - a.clock

def size (a : Agenda α) : Nat := a.entries.length

/-- An agenda has no counter to set back. -/
def perform (a : Agenda α) : DelayAction α → Option α × Agenda α
  | .schedule ticks payload => (none, a.schedule ticks.toInt payload)
  | .advance => a.advance
  | .rebase => (none, a)
  | .clear => (none, a.clear)

def sights : List (DelayAction α) → Agenda α → List (DelaySight α)
  | [], _ => []
  | action :: rest, a =>
      let (fired, a) := a.perform action
      ⟨fired, a.ticksRemaining, a.size⟩ :: sights rest a

def firings : List (DelayAction α) → Agenda α → List (Option α)
  | [], _ => []
  | .advance :: rest, a => a.advance.1 :: firings rest a.advance.2
  | action :: rest, a => firings rest (a.perform action).2

/-! ### Order -/

theorem inOrder_perm (a : Agenda α) : a.inOrder.Perm a.entries := List.mergeSort_perm _ _

/-- Entries in firing order already are the entries in order. -/
theorem inOrder_eq_of_pairwise {a : Agenda α} {l : List (Delay α)} (hsorted : l.Pairwise Delay.Before)
    (hperm : l.Perm a.entries) : a.inOrder = l := by
  have hweak : a.inOrder.Pairwise fun d d' => (!decide (d'.Before d)) = true := by
    apply List.pairwise_mergeSort
    · intro d d' d'' h h'
      simp only [Bool.not_eq_true', decide_eq_false_iff_not] at *
      simp only [Delay.Before] at *
      omega
    · intro d d'
      simp only [Bool.or_eq_true, Bool.not_eq_true', decide_eq_false_iff_not]
      simp only [Delay.Before]
      omega
  have hperm' : a.inOrder.Perm l := a.inOrder_perm.trans hperm.symm
  have hfirst : a.inOrder.Pairwise fun d d' => ¬ d'.Before d := hweak.imp fun h => by simpa using h
  have hsecond : l.Pairwise fun d d' => ¬ d'.Before d := hsorted.imp fun h => h.asymm
  refine hperm'.eq_of_pairwise ?_ hfirst hsecond
  intro d d' hd hd' h h'
  exact Delay.eq_of_not_before hsorted (hperm'.mem_iff.mp hd) hd' h' h

/-! ### The queue and the agenda -/

end Agenda

namespace DelayQueue

/-- A queue shows what an agenda shows: its delays are the agenda's entries in order, with all targets
moved by the difference of the two clocks. -/
structure Shows (q : DelayQueue α) (a : Agenda α) : Prop where
  valid : q.Valid
  made : a.made = q.nextSeq
  entries : a.inOrder = q.pending.map (·.later (a.clock - q.counter))

namespace Shows

variable {q : DelayQueue α} {a : Agenda α}

theorem perm (h : q.Shows a) : (q.pending.map (·.later (a.clock - q.counter))).Perm a.entries :=
  h.entries ▸ a.inOrder_perm

theorem size_eq (h : q.Shows a) : q.size = a.size := by
  have hlength := h.perm.length_eq
  rwa [List.length_map] at hlength

theorem ticksRemaining_eq (h : q.Shows a) : q.ticksRemaining = a.ticksRemaining := by
  rw [Agenda.ticksRemaining, h.entries, List.map_map]
  refine List.map_congr_left fun d _ => ?_
  simp only [Function.comp_apply, Delay.later]
  omega

theorem schedule (h : q.Shows a) (ticks : Int) (payload : α)
    (hfits : q.counter + max ticks 0 ≤ greatest) :
    (q.schedule ticks payload).Shows (a.schedule ticks payload) where
  valid := h.valid.schedule ticks payload
  made := congrArg (· + 1) h.made
  entries := by
    have hdue : q.dueAfter ticks = q.counter + max ticks 0 := Int.min_eq_left hfits
    let d : Delay α := ⟨q.dueAfter ticks, q.nextSeq, payload⟩
    have hentry : d.later (a.clock - q.counter) = ⟨a.clock + max ticks 0, a.made, payload⟩ := by
      simp only [d, Delay.later, Delay.mk.injEq, hdue, h.made, and_self, and_true]
      omega
    show (a.schedule ticks payload).inOrder = (insert d q.pending).map (·.later (a.clock - q.counter))
    refine Agenda.inOrder_eq_of_pairwise ?_ ?_
    · rw [List.pairwise_map]
      exact (insert_pairwise h.valid.sorted h.valid.seq_lt).imp fun hd =>
        (Delay.later_before_later _).mpr hd
    · have hinsert := (insert_perm d q.pending).map (·.later (a.clock - q.counter))
      rw [List.map_cons, hentry] at hinsert
      refine hinsert.trans ?_
      refine (h.perm.cons _).trans ?_
      exact (List.perm_append_singleton _ _).symm

theorem advance (h : q.Shows a) : q.advance.1 = a.advance.1 ∧ q.advance.2.Shows a.advance.2 := by
  have hvalid := h.valid.moved
  have hmade : a.made = q.moved.nextSeq := by
    rw [h.made, DelayQueue.moved]
    split <;> rfl
  have hentries : a.inOrder = q.moved.pending.map (·.later (a.clock + 1 - q.moved.counter)) := by
    rw [h.entries, h.valid.moved_pending, List.map_map]
    refine List.map_congr_left fun d _ => ?_
    simp only [Function.comp_apply, Delay.later, Delay.mk.injEq, and_true]
    omega
  have hpop := hvalid.popDue
  rw [advance_eq_popDue_moved]
  cases hpending : q.moved.pending with
  | nil =>
      rw [hpending, List.map_nil] at hentries
      simp only [popDue, hpending, Agenda.advance, hentries, true_and]
      exact ⟨hvalid, hmade, by rw [hpending]; exact hentries⟩
  | cons d rest =>
      rw [hpending, List.map_cons] at hentries
      have hdue : (d.later (a.clock + 1 - q.moved.counter)).target ≤ a.clock + 1 ↔
          d.target ≤ q.moved.counter := by
        simp only [Delay.later]
        omega
      simp only [popDue, hpending, Agenda.advance, hentries, hdue] at hpop ⊢
      split
      · rename_i hle
        rw [if_pos hle] at hpop
        refine ⟨rfl, hpop, hmade, Agenda.inOrder_eq_of_pairwise ?_ (List.Perm.refl _)⟩
        rw [List.pairwise_map]
        exact hpop.sorted.imp fun hd => (Delay.later_before_later _).mpr hd
      · refine ⟨rfl, hvalid, hmade, ?_⟩
        rw [hpending]
        exact hentries

theorem rebase (h : q.Shows a) : q.rebase.Shows a where
  valid := h.valid.rebase
  made := h.made
  entries := by
    show a.inOrder = (q.pending.map (·.later (-q.counter))).map (·.later (a.clock - 0))
    rw [h.entries, List.map_map]
    refine List.map_congr_left fun d _ => ?_
    simp only [Function.comp_apply, Delay.later, Delay.mk.injEq, and_true]
    omega

theorem clear (h : q.Shows a) : q.clear.Shows a.clear where
  valid := h.valid.clear
  made := h.made
  entries := Agenda.inOrder_eq_of_pairwise List.Pairwise.nil (List.Perm.refl _)

/-- One action keeps queue and agenda together and fires the same. -/
theorem perform (h : q.Shows a) (action : DelayAction α)
    (hroom : q.HasRoom action) :
    (q.perform action).1 = (a.perform action).1 ∧ (q.perform action).2.Shows (a.perform action).2 := by
  cases action with
  | schedule ticks payload => exact ⟨rfl, h.schedule ticks.toInt payload hroom⟩
  | advance => exact h.advance
  | rebase => exact ⟨rfl, h.rebase⟩
  | clear => exact ⟨rfl, h.clear⟩

theorem sights_eq {actions : List (DelayAction α)} (h : q.Shows a) (hfits : Fits actions q) :
    sights actions q = Agenda.sights actions a := by
  induction actions generalizing q a with
  | nil => rfl
  | cons action rest ih =>
      obtain ⟨hfired, hnext⟩ := h.perform action hfits.1
      simp only [sights, Agenda.sights]
      rw [hfired, hnext.ticksRemaining_eq, hnext.size_eq, ih hnext hfits.2]

theorem firings_eq {actions : List (DelayAction α)} (h : q.Shows a) (hfits : Fits actions q) :
    firings actions q = Agenda.firings actions a := by
  induction actions generalizing q a with
  | nil => rfl
  | cons action rest ih =>
      obtain ⟨hfired, hnext⟩ := h.perform action hfits.1
      have hrest := ih hnext hfits.2
      cases action with
      | advance => exact congr (congrArg List.cons hfired) hrest
      | _ => exact hrest

end Shows

theorem new_shows_empty (threshold : Int64) :
    (new threshold.toInt : DelayQueue α).Shows Agenda.empty where
  valid := valid_new threshold
  made := rfl
  entries := Agenda.inOrder_eq_of_pairwise List.Pairwise.nil (List.Perm.refl _)

end DelayQueue

namespace Agenda

/-- An agenda fires the same without the actions that set counters back. -/
theorem firings_filter (actions : List (DelayAction α)) (a : Agenda α) :
    firings (actions.filter (!·.isRebase)) a = firings actions a := by
  induction actions generalizing a with
  | nil => rfl
  | cons action rest ih =>
      cases action with
      | rebase => exact ih a
      | advance => exact congrArg (_ :: ·) (ih _)
      | schedule ticks payload => exact ih _
      | clear => exact ih _

end Agenda

namespace DelayQueue

/-- Going back to zero keeps every delay, its payload, its place and the steps left for it. -/
theorem rebase_keeps (q : DelayQueue α) :
    q.rebase.pending.map (fun d => (d.seq, d.payload)) = q.pending.map (fun d => (d.seq, d.payload)) ∧
      q.rebase.ticksRemaining = q.ticksRemaining := by
  constructor
  · simp [rebase, Function.comp_def]
  · simp [rebase, ticksRemaining, Function.comp_def]

/-- **A queue is an ideal agenda.** Whatever its threshold, a queue shows after every action what the
agenda shows, as long as every target is in range. So two queues fire the same at the same steps when
their actions differ only in explicit returns to zero, and a return to zero keeps all delays in order. -/
theorem sights_new (threshold : Int64) (actions : List (DelayAction α))
    (hfits : Fits actions (new threshold.toInt)) :
    sights actions (new threshold.toInt) = Agenda.sights actions Agenda.empty ∧
      (∀ (threshold' : Int64) (actions' : List (DelayAction α)),
        actions'.filter (!·.isRebase) = actions.filter (!·.isRebase) →
        Fits actions' (new threshold'.toInt) →
        firings actions' (new threshold'.toInt) = firings actions (new threshold.toInt)) ∧
      ∀ q : DelayQueue α,
        q.rebase.pending.map (fun d => (d.seq, d.payload)) = q.pending.map (fun d => (d.seq, d.payload)) ∧
          q.rebase.ticksRemaining = q.ticksRemaining := by
  have hshows : (new threshold.toInt : DelayQueue α).Shows Agenda.empty := new_shows_empty threshold
  refine ⟨hshows.sights_eq hfits, ?_, rebase_keeps⟩
  intro threshold' actions' hsame hfits'
  rw [hshows.firings_eq hfits, (new_shows_empty threshold').firings_eq hfits',
    ← Agenda.firings_filter actions', hsame, Agenda.firings_filter]

/-- The actions below go back to zero at every other step, with delays of one target, an overdue delay
and a delay of negative length on the way; with a threshold that is not reached the same is fired. -/
theorem sights_new_rebasing :
    let actions : List (DelayAction Char) :=
      [.schedule 3 'a', .advance, .schedule 0 'b', .schedule (-4) 'c', .schedule 2 'd', .advance, .rebase,
        .advance, .advance, .schedule 1 'e', .advance, .clear, .advance]
    Fits actions (new (2 : Int64).toInt) ∧
      sights actions (new (2 : Int64).toInt) = Agenda.sights actions Agenda.empty ∧
      firings actions (new (100 : Int64).toInt) = firings actions (new (2 : Int64).toInt) :=
  ⟨by decide, (sights_new 2 _ (by decide)).1, (sights_new 2 _ (by decide)).2.1 100 _ rfl (by decide)⟩

end DelayQueue
end ScriptBridge
