import ScriptBridge.Proofs.DelayAgenda

/-! Turns of delays that are due. A queue's first delays, once due, stay its first delays: what is made
later goes behind them, going back to zero keeps them in place, and each step takes the first of them
out. So a delay that is due waits for those before it and for nothing else. -/

namespace ScriptBridge

variable {α : Type}

/-- What tells a delay from all others of its queue, and what it brings; both stay while it waits. -/
def Delay.label (d : Delay α) : Nat × α := (d.seq, d.payload)

namespace DelayQueue

/-- The queue that actions leave. -/
def after : List (DelayAction α) → DelayQueue α → DelayQueue α
  | [], q => q
  | action :: rest, q => after rest (q.perform action).2

/-- A queue that some actions make of a new one. -/
def Reachable (q : DelayQueue α) : Prop :=
  ∃ (threshold : Int64) (actions : List (DelayAction α)), q = after actions (new threshold.toInt)

/-- How many of the actions are steps. -/
def steps : List (DelayAction α) → Nat
  | [] => 0
  | .advance :: rest => steps rest + 1
  | _ :: rest => steps rest

/-- The label of the delay that the next step hands back. -/
def firesNext? (q : DelayQueue α) : Option (Nat × α) := q.due?.map Delay.label

theorem advance_fst_eq (q : DelayQueue α) : q.advance.1 = q.firesNext?.map Prod.snd := by
  rw [advance_fst, firesNext?, Option.map_map]
  rfl

/-! ### Valid runs -/

theorem Valid.perform {q : DelayQueue α} (h : q.Valid) (action : DelayAction α) :
    (q.perform action).2.Valid := by
  cases action with
  | schedule ticks payload => exact h.schedule ticks.toInt payload
  | advance => exact h.advance
  | rebase => exact h.rebase
  | clear => exact h.clear

theorem Valid.after {q : DelayQueue α} (h : q.Valid) (actions : List (DelayAction α)) :
    (after actions q).Valid := by
  induction actions generalizing q with
  | nil => exact h
  | cons action rest ih => exact ih (h.perform action)

theorem Reachable.valid {q : DelayQueue α} (h : q.Reachable) : q.Valid := by
  obtain ⟨threshold, actions, rfl⟩ := h
  exact (valid_new threshold).after actions

/-- The counter of a valid queue is not beyond the due time of any delay made now. -/
theorem Valid.counter_le_dueAfter {q : DelayQueue α} (h : q.Valid) (ticks : Int) :
    q.counter ≤ q.dueAfter ticks := by
  have hlt := h.counter_lt
  have hle := h.threshold_le
  simp only [dueAfter, addUpTo]
  omega

/-! ### Delays that have fired -/

/-- A number has been given to a delay, and that delay waits no more. -/
structure Gone (q : DelayQueue α) (number : Nat) : Prop where
  made : number < q.nextSeq
  absent : ∀ d ∈ q.pending, d.seq ≠ number

theorem label_of_mem_moved {q : DelayQueue α} {d : Delay α} (hd : d ∈ q.moved.pending) :
    ∃ d' ∈ q.pending, d'.label = d.label := by
  rw [moved] at hd
  split at hd
  · obtain ⟨d', hd', rfl⟩ := List.mem_map.mp hd
    exact ⟨d', hd', rfl⟩
  · exact ⟨d, hd, rfl⟩

@[simp]
theorem moved_nextSeq (q : DelayQueue α) : q.moved.nextSeq = q.nextSeq := by
  rw [moved]
  split <;> rfl

theorem advance_nextSeq (q : DelayQueue α) : q.advance.2.nextSeq = q.nextSeq := by
  cases h : q.due? with
  | none =>
      rw [advance_of_due?_none h]
      exact moved_nextSeq q
  | some d =>
      obtain ⟨rest, -, -, hadvance⟩ := advance_of_due?_some h
      rw [hadvance]
      exact moved_nextSeq q

theorem mem_moved_of_mem_advance {q : DelayQueue α} {d : Delay α} (hd : d ∈ q.advance.2.pending) :
    d ∈ q.moved.pending := by
  cases h : q.due? with
  | none =>
      rw [advance_of_due?_none h] at hd
      exact hd
  | some first =>
      obtain ⟨rest, hpending, -, hadvance⟩ := advance_of_due?_some h
      rw [hadvance] at hd
      rw [hpending]
      exact List.mem_cons_of_mem first hd

namespace Gone

variable {q : DelayQueue α} {number : Nat}

theorem of_moved (h : q.Gone number) {d : Delay α} (hd : d ∈ q.moved.pending) : d.seq ≠ number := by
  obtain ⟨d', hd', hlabel⟩ := label_of_mem_moved hd
  have hseq : d'.seq = d.seq := congrArg Prod.fst hlabel
  exact hseq ▸ h.absent d' hd'

theorem perform (h : q.Gone number) (action : DelayAction α) : (q.perform action).2.Gone number := by
  cases action with
  | schedule ticks payload =>
      refine ⟨Nat.lt_succ_of_lt h.made, fun d hd => ?_⟩
      rcases mem_insert.mp hd with rfl | hmem
      · exact (Nat.ne_of_lt h.made).symm
      · exact h.absent d hmem
  | advance =>
      refine ⟨?_, fun d hd => h.of_moved (mem_moved_of_mem_advance hd)⟩
      change number < q.advance.2.nextSeq
      rw [advance_nextSeq]
      exact h.made
  | rebase =>
      refine ⟨h.made, fun d hd => ?_⟩
      obtain ⟨d', hd', rfl⟩ := List.mem_map.mp hd
      exact h.absent d' hd'
  | clear => exact ⟨h.made, fun d hd => absurd hd List.not_mem_nil⟩

theorem after (h : q.Gone number) (actions : List (DelayAction α)) : (after actions q).Gone number := by
  induction actions generalizing q with
  | nil => exact h
  | cons action rest ih => exact ih (h.perform action)

/-- What has fired does not fire again. -/
theorem not_fires (h : q.Gone number) (payload : α) : q.firesNext? ≠ some (number, payload) := by
  intro hfires
  obtain ⟨d, hdue, hlabel⟩ := Option.map_eq_some_iff.mp hfires
  obtain ⟨rest, hpending, -, -⟩ := advance_of_due?_some hdue
  refine h.of_moved (d := d) ?_ (congrArg Prod.fst hlabel)
  rw [hpending]
  exact List.mem_cons_self

end Gone

/-- A delay that is handed back waits no more. -/
theorem Valid.gone_of_fires {q : DelayQueue α} (h : q.Valid) {label : Nat × α}
    (hfires : q.firesNext? = some label) : q.advance.2.Gone label.1 := by
  obtain ⟨d, hdue, rfl⟩ := Option.map_eq_some_iff.mp hfires
  obtain ⟨rest, hpending, -, hadvance⟩ := advance_of_due?_some hdue
  have horder := h.moved.toInOrder
  rw [hpending] at horder
  rw [hadvance]
  exact ⟨horder.seq_lt d List.mem_cons_self, fun d' hd' heq =>
    List.rel_of_pairwise_cons horder.distinct hd' heq.symm⟩

/-! ### The head of a queue -/

/-- A new delay goes behind all that are due no later. -/
theorem insert_append {d : Delay α} {front : List (Delay α)} (rest : List (Delay α))
    (h : ∀ d' ∈ front, d'.target ≤ d.target) : insert d (front ++ rest) = front ++ insert d rest := by
  induction front with
  | nil => rfl
  | cons first front ih =>
      have hfirst : first.target ≤ d.target := h first List.mem_cons_self
      rw [List.cons_append, insert, if_pos hfirst, ih fun d' hd' => h d' (List.mem_cons_of_mem _ hd')]
      rfl

/-- The first delays of a queue have these labels, and all of them are due. -/
def Leads (q : DelayQueue α) (labels : List (Nat × α)) : Prop :=
  ∃ front rest, q.pending = front ++ rest ∧ front.map Delay.label = labels ∧ ∀ d ∈ front, d.target ≤ q.counter

theorem leads_nil (q : DelayQueue α) : q.Leads [] :=
  ⟨[], q.pending, rfl, rfl, fun _ hd => absurd hd List.not_mem_nil⟩

namespace Leads

variable {q : DelayQueue α} {label : Nat × α} {labels : List (Nat × α)}

theorem schedule (h : q.Leads labels) (hvalid : q.Valid) (ticks : Int) (payload : α) :
    (q.schedule ticks payload).Leads labels := by
  obtain ⟨front, rest, hpending, hlabels, hdue⟩ := h
  refine ⟨front, insert ⟨q.dueAfter ticks, q.nextSeq, payload⟩ rest, ?_, hlabels, hdue⟩
  change insert ⟨q.dueAfter ticks, q.nextSeq, payload⟩ q.pending = _
  rw [hpending]
  exact insert_append rest fun d hd => Int.le_trans (hdue d hd) (hvalid.counter_le_dueAfter ticks)

theorem rebase (h : q.Leads labels) : q.rebase.Leads labels := by
  obtain ⟨front, rest, hpending, hlabels, hdue⟩ := h
  refine ⟨front.map (·.later (-q.counter)), rest.map (·.later (-q.counter)), ?_, ?_, ?_⟩
  · rw [← List.map_append, ← hpending]
    rfl
  · rw [List.map_map]
    exact hlabels
  · intro d hd
    obtain ⟨d', hd', rfl⟩ := List.mem_map.mp hd
    have hle : d'.target ≤ q.counter := hdue d' hd'
    show d'.target + -q.counter ≤ 0
    omega

/-- The first delay of the head fires at the next step, which leaves the others at the head. -/
theorem advance (h : q.Leads (label :: labels)) (hvalid : q.Valid) :
    q.firesNext? = some label ∧ q.advance.2.Leads labels := by
  obtain ⟨front, rest, hpending, hlabels, hdue⟩ := h
  obtain ⟨d, front, rfl, rfl, rfl⟩ := List.map_eq_cons_iff.mp hlabels
  let step := q.moved.counter - q.counter - 1
  have hmoved : q.moved.pending = d.later step :: (front.map (·.later step) ++ rest.map (·.later step)) := by
    rw [hvalid.moved_pending, hpending, List.map_append, List.map_cons, List.cons_append]
  have hle : ∀ d' ∈ d :: front, (d'.later step).target ≤ q.moved.counter := by
    intro d' hd'
    have hd'' := hdue d' hd'
    simp only [Delay.later, step]
    omega
  have hfires : q.due? = some (d.later step) := by
    rw [due?, hmoved]
    exact if_pos (hle d List.mem_cons_self)
  obtain ⟨after, hafter, -, hadvance⟩ := advance_of_due?_some hfires
  rw [hmoved, List.cons.injEq] at hafter
  refine ⟨by rw [firesNext?, hfires]; rfl, front.map (·.later step), rest.map (·.later step), ?_, ?_, ?_⟩
  · rw [hadvance, hafter.2]
  · rw [List.map_map]
    rfl
  · intro d' hd'
    obtain ⟨e, he, rfl⟩ := List.mem_map.mp hd'
    rw [hadvance]
    exact hle e (List.mem_cons_of_mem _ he)

/-- What actions leave of the head, unless they drop everything: each step takes the first delay. -/
theorem after {actions : List (DelayAction α)} (h : q.Leads labels) (hvalid : q.Valid)
    (hkept : .clear ∉ actions) : (after actions q).Leads (labels.drop (steps actions)) := by
  induction actions generalizing q labels with
  | nil => exact h
  | cons action rest ih =>
      have hvalid' := hvalid.perform action
      have hrest : .clear ∉ rest := fun hmem => hkept (List.mem_cons_of_mem _ hmem)
      cases action with
      | schedule ticks payload => exact ih (h.schedule hvalid ticks.toInt payload) hvalid' hrest
      | advance =>
          cases labels with
          | nil =>
              have hnil := ih (leads_nil q.advance.2) hvalid' hrest
              rw [List.drop_nil] at hnil ⊢
              exact hnil
          | cons label labels => exact ih (h.advance hvalid).2 hvalid' hrest
      | rebase => exact ih h.rebase hvalid' hrest
      | clear => exact absurd List.mem_cons_self hkept

/-- The delays that the steps took from the head have fired. -/
theorem gone {actions : List (DelayAction α)} (h : q.Leads labels) (hvalid : q.Valid)
    (hkept : .clear ∉ actions) (hmem : label ∈ labels.take (steps actions)) :
    (DelayQueue.after actions q).Gone label.1 := by
  induction actions generalizing q labels with
  | nil => exact absurd hmem List.not_mem_nil
  | cons action rest ih =>
      have hvalid' := hvalid.perform action
      have hrest : .clear ∉ rest := fun hmem => hkept (List.mem_cons_of_mem _ hmem)
      cases action with
      | schedule ticks payload => exact ih (h.schedule hvalid ticks.toInt payload) hvalid' hrest hmem
      | advance =>
          cases labels with
          | nil => exact absurd hmem List.not_mem_nil
          | cons first labels =>
              obtain ⟨hfires, hlater⟩ := h.advance hvalid
              rcases List.mem_cons.mp hmem with rfl | hmem
              · exact (hvalid.gone_of_fires hfires).after rest
              · exact ih hlater hvalid' hrest hmem
      | rebase => exact ih h.rebase hvalid' hrest hmem
      | clear => exact absurd List.mem_cons_self hkept

/-- The delay of the head whose turn it is fires at the next step. -/
theorem fires {actions : List (DelayAction α)} (h : q.Leads labels) (hvalid : q.Valid)
    (hkept : .clear ∉ actions) (hturn : labels[steps actions]? = some label) :
    (DelayQueue.after actions q).firesNext? = some label := by
  have hleads := h.after hvalid hkept
  obtain ⟨hlt, hget⟩ := List.getElem?_eq_some_iff.mp hturn
  rw [List.drop_eq_getElem_cons hlt, hget] at hleads
  exact (hleads.advance (hvalid.after actions)).1

end Leads

/-! ### Turns -/

/-- In firing order, the delays before one that waits are those that fire before it. -/
theorem exists_split_of_mem {pending : List (Delay α)} (hsorted : pending.Pairwise Delay.Before) {d : Delay α}
    (hd : d ∈ pending) : ∃ before rest, pending = before ++ d :: rest ∧ (∀ e ∈ before, e.Before d) ∧
      pending.countP (fun e => e.Before d) = before.length := by
  obtain ⟨before, rest, rfl⟩ := List.append_of_mem hd
  obtain ⟨-, htail, hcross⟩ := List.pairwise_append.mp hsorted
  have hbefore : ∀ e ∈ before, e.Before d := fun e he => hcross e he d List.mem_cons_self
  have hrest : ∀ e ∈ rest, ¬ e.Before d := fun e he => (List.rel_of_pairwise_cons htail he).asymm
  refine ⟨before, rest, rfl, hbefore, ?_⟩
  have hall : before.countP (fun e => e.Before d) = before.length := by
    rw [List.countP_eq_length]
    simpa using hbefore
  have hnone : (d :: rest).countP (fun e => e.Before d) = 0 := by
    rw [List.countP_eq_zero]
    simpa [Delay.Before.irrefl d] using hrest
  rw [List.countP_append, hall, hnone, Nat.add_zero]

/-- A delay that is due and all before it are at the head of the queue. -/
theorem leads_of_due {q : DelayQueue α} {before rest : List (Delay α)} {d : Delay α}
    (hpending : q.pending = before ++ d :: rest) (hbefore : ∀ e ∈ before, e.Before d)
    (hdue : d.target ≤ q.counter) : q.Leads ((before ++ [d]).map Delay.label) := by
  refine ⟨before ++ [d], rest, by simp [hpending], rfl, fun e he => ?_⟩
  rcases List.mem_append.mp he with he | he
  · have hfirst := hbefore e he
    simp only [Delay.Before] at hfirst
    omega
  · rw [List.mem_singleton.mp he]
    exact hdue

/-- **No delay that is due is overtaken.** A delay that is due with so many before it is handed back by
the step after as many others, whatever is made and however often the counter goes back to zero in the
meantime, and by no other step; the steps until then hand back the delays before it, and none that was
made later. -/
theorem due_delay_fires_in_turn {q : DelayQueue α} (hq : q.Reachable) {d : Delay α} (hd : d ∈ q.pending)
    (hdue : d.target ≤ q.counter) {actions : List (DelayAction α)} (hkept : .clear ∉ actions) :
    let turn := q.pending.countP fun e => e.Before d
    let next := after actions q
    (steps actions = turn → next.firesNext? = some d.label ∧ next.advance.1 = some d.payload) ∧
      (steps actions < turn → ∃ e ∈ q.pending, e.Before d ∧ next.firesNext? = some e.label) ∧
      (∀ number payload, next.firesNext? = some (number, payload) →
        (number = d.seq ↔ steps actions = turn) ∧ (q.nextSeq ≤ number → turn < steps actions)) ∧
      next.advance.1 = next.firesNext?.map Prod.snd := by
  intro turn next
  have hvalid := hq.valid
  obtain ⟨before, rest, hpending, hbefore, hturn⟩ := exists_split_of_mem hvalid.sorted hd
  have horder := hvalid.toInOrder
  rw [hpending] at horder
  have hleads := leads_of_due hpending hbefore hdue
  -- at every step up to the turn, the delay at that place of the head is the one that fires
  have hfires : ∀ e, (before ++ [d])[steps actions]? = some e → next.firesNext? = some e.label := by
    intro e he
    exact hleads.fires hvalid hkept (by rw [List.getElem?_map, he]; rfl)
  have hown : steps actions = turn → next.firesNext? = some d.label := by
    intro hsteps
    have hlength : steps actions = before.length := hsteps.trans hturn
    exact hfires d (by rw [hlength, List.getElem?_concat_length])
  have hearlier : steps actions < turn → ∃ e ∈ before, next.firesNext? = some e.label := by
    intro hsteps
    have hlt : steps actions < before.length := hturn ▸ hsteps
    refine ⟨before[steps actions], List.getElem_mem hlt, hfires _ ?_⟩
    rw [List.getElem?_append_left hlt, List.getElem?_eq_getElem hlt]
  refine ⟨fun hsteps => ⟨hown hsteps, by rw [advance_fst_eq, hown hsteps]; rfl⟩, ?_, ?_, advance_fst_eq next⟩
  · intro hsteps
    obtain ⟨e, he, hlabel⟩ := hearlier hsteps
    exact ⟨e, by rw [hpending]; exact List.mem_append_left _ he, hbefore e he, hlabel⟩
  · intro number payload hnumber
    rcases Nat.lt_trichotomy (steps actions) turn with hlt | heq | hgt
    · obtain ⟨e, he, hlabel⟩ := hearlier hlt
      obtain rfl : e.seq = number := congrArg Prod.fst (Option.some.inj (hlabel.symm.trans hnumber))
      have hne : e.seq ≠ d.seq := (List.pairwise_append.mp horder.distinct).2.2 e he d List.mem_cons_self
      have hold : e.seq < q.nextSeq := horder.seq_lt e (List.mem_append_left _ he)
      exact ⟨⟨fun h => absurd h hne, fun h => absurd h (Nat.ne_of_lt hlt)⟩,
        fun h => absurd hold (Nat.not_lt.mpr h)⟩
    · obtain rfl : d.seq = number := congrArg Prod.fst (Option.some.inj ((hown heq).symm.trans hnumber))
      have hold : d.seq < q.nextSeq := hvalid.seq_lt d hd
      exact ⟨⟨fun _ => heq, fun _ => rfl⟩, fun h => absurd hold (Nat.not_lt.mpr h)⟩
    · have hlength : ((before ++ [d]).map Delay.label).length ≤ steps actions := by
        rw [List.length_map, List.length_append, List.length_singleton, ← hturn]
        exact hgt
      have htaken : d.label ∈ ((before ++ [d]).map Delay.label).take (steps actions) := by
        rw [List.take_of_length_le hlength]
        exact List.mem_map_of_mem (List.mem_append_right _ List.mem_cons_self)
      have hgone : next.Gone d.seq := hleads.gone hvalid hkept htaken
      refine ⟨⟨?_, fun h => absurd h (Nat.ne_of_gt hgt)⟩, fun _ => hgt⟩
      rintro rfl
      exact absurd hnumber (hgone.not_fires payload)

/-- Three delays have one target, and the first of them has fired. The third is due with one before it; two
delays of no length and two returns to zero do not keep it from its turn. -/
theorem last_of_tie_fires_in_turn :
    let q := after [.schedule 1 'a', .schedule 1 'b', .schedule 1 'c', .advance] (new (2 : Int64).toInt)
    let actions := [.schedule 0 'd', .rebase, .advance, .schedule (-5) 'e']
    steps actions = 1 ∧ (after actions q).advance.1 = some 'c' :=
  ⟨rfl, ((due_delay_fires_in_turn (d := ⟨1, 2, 'c'⟩) ⟨2, _, rfl⟩ (.tail _ (.head _)) (by decide) (by simp)).1
    rfl).2⟩

end DelayQueue
end ScriptBridge
