import Mathlib.Data.List.Nodup
import ScriptBridge.Host.Turtle
import ScriptBridge.Proofs.CompletionDelivery

/-! Journeys of the turtle. A diary notes what was asked for: every journey that was begun, with where it goes, in
how many steps, and how many steps there had been. The time of arrival is known from then on, and whatever else
is begun in the meantime, the diary tells which journeys are under way, whose flags are up, and where the turtle
stands. -/

namespace ScriptBridge

/-! ### Flags -/

namespace Board

variable {board : Board} {flag : Flag}

theorem isRaised_raise_eq (h : flag.id < board.raised.size) (flag' : Flag) :
    (board.raise flag').isRaised flag = (board.isRaised flag || decide (flag = flag')) := by
  rw [isRaised, raise, isRaised, Array.getElem?_setIfInBounds]
  by_cases hsame : flag = flag'
  · rw [if_pos (congrArg Flag.id hsame.symm), if_pos (hsame ▸ h), decide_eq_true hsame, Bool.or_true]
    rfl
  · have hid : flag'.id ≠ flag.id := by
      cases flag
      cases flag'
      exact fun hid => hsame (congrArg Flag.mk hid.symm)
    rw [if_neg hid, decide_eq_false hsame, Bool.or_false]

@[simp]
theorem size_raise (board : Board) (flag : Flag) : (board.raise flag).raised.size = board.raised.size := by
  rw [raise, Array.size_setIfInBounds]

/-- The flags that are up after some were raised. -/
theorem isRaised_raiseEach (h : flag.id < board.raised.size) (flags : List Flag) :
    (flags.foldl raise board).isRaised flag = (board.isRaised flag || decide (flag ∈ flags)) := by
  induction flags generalizing board with
  | nil => simp
  | cons first rest ih =>
      rw [List.foldl_cons, ih (by rwa [size_raise]), isRaised_raise_eq h]
      simp [Bool.or_assoc]

theorem size_raiseEach (board : Board) (flags : List Flag) :
    (flags.foldl raise board).raised.size = board.raised.size := by
  induction flags generalizing board with
  | nil => rfl
  | cons first rest ih => rw [List.foldl_cons, ih, size_raise]

theorem isRaised_newFlag (board : Board) (flag : Flag) : board.newFlag.2.isRaised flag = board.isRaised flag := by
  rw [newFlag, isRaised, isRaised, Array.getElem?_push]
  split
  · rename_i hlast
    rw [hlast, Array.getElem?_eq_none (Nat.le_refl _)]
    rfl
  · rfl

end Board

namespace Turtle

/-! ### What happens -/

inductive Event where
  | moveTo (args : Arguments)
  /-- An object is wanted for a name. -/
  | construct (name : String)
  | step

def perform (s : HostState Turtle) : Event → HostState Turtle
  | .moveTo args => (moveTo args s).2
  | .construct name => (host.constructEntity name s).2
  | .step => advance s

/-- The handle that an event gives out. -/
def issues? (s : HostState Turtle) : Event → Option Handle
  | .moveTo args =>
    match (moveTo args s).1 with
    | .ok (.handle h) => some h
    | _ => none
  | .construct name => (host.constructEntity name s).1
  | .step => none

/-- Where a call sends the turtle and in how many ticks, if it can be followed. -/
def order? (args : Arguments) : Option (Coord × Int64) :=
  match args.target "destination", args.int "ticks" with
  | .ok (.cell c), .ok ticks => if c.isValid then some (c, ticks) else none
  | _, _ => none

/-! ### What is noted -/

structure Journey where
  handle : Handle
  destination : Coord
  ticks : Int64
  /-- Number of steps before it was begun. -/
  begun : Nat
  done : Flag

/-- The step that ends a journey: so many after its beginning as there are ticks, but at least one. -/
def Journey.arrival (j : Journey) : Nat := j.begun + (max j.ticks.toInt 1).toNat

/-- The journey as it stands after some steps. -/
def Journey.job (steps : Nat) (j : Journey) : Job := ⟨j.handle, j.destination, j.arrival - steps, j.done⟩

structure Diary where
  steps : Nat
  /-- In the order they were begun. -/
  journeys : List Journey
  /-- All handles given out. -/
  issued : List Handle

namespace Diary

/-- The journey that an event begins. -/
def begins? (d : Diary) (s : HostState Turtle) : Event → Option Journey
  | .moveTo args =>
    match issues? s (.moveTo args), order? args with
    | some handle, some (destination, ticks) => some ⟨handle, destination, ticks, d.steps, s.board.newFlag.1⟩
    | _, _ => none
  | _ => none

def note (d : Diary) (s : HostState Turtle) (event : Event) : Diary where
  steps := match event with
    | .step => d.steps + 1
    | _ => d.steps
  journeys := d.journeys ++ (d.begins? s event).toList
  issued := d.issued ++ (issues? s event).toList

/-- Diary and state after some events. -/
def keep : List Event → Diary × HostState Turtle → Diary × HostState Turtle
  | [], past => past
  | event :: rest, (d, s) => keep rest (d.note s event, perform s event)

def underWay (d : Diary) : List Journey := d.journeys.filter fun j => d.steps < j.arrival

/-- The journey that arrived last; of those that arrived in one step, the one begun last. -/
def IsLastArrived (d : Diary) (j : Journey) : Prop :=
  ∃ before after, d.journeys = before ++ j :: after ∧ j.arrival ≤ d.steps ∧
    (∀ j' ∈ before, j'.arrival ≤ d.steps → j'.arrival ≤ j.arrival) ∧
    ∀ j' ∈ after, j'.arrival ≤ d.steps → j'.arrival < j.arrival

/-- The turtle stands where the journey that arrived last went, or where it was put at first. -/
def PlacesAt (d : Diary) (position : Coord) : Prop :=
  (∃ j, d.IsLastArrived j ∧ position = j.destination) ∨
    (∀ j ∈ d.journeys, d.steps < j.arrival) ∧ position = ⟨0, 0, 0⟩

/-- Everything that the diary tells of a state. -/
structure Tells (d : Diary) (s : HostState Turtle) : Prop where
  jobs : s.own.jobs = d.underWay.map (Journey.job d.steps)
  flags : (d.journeys.map Journey.done).Nodup
  made : ∀ j ∈ d.journeys, j.done.id < s.board.raised.size
  raised : ∀ j ∈ d.journeys, s.board.isRaised j.done = decide (j.arrival ≤ d.steps)
  position : d.PlacesAt s.own.position

end Diary

/-! ### Calls -/

theorem moveTo_run (args : Arguments) (s : HostState Turtle) : moveTo args s =
    match args.target "destination" >>= destination with
    | .error fault => (.error fault, s)
    | .ok cell =>
      let counted : HostState Turtle := { s with own := { s.own with issued := s.own.issued + 1 } }
      match args.int "ticks" with
      | .error fault => (.error fault, counted)
      | .ok ticks =>
        let handle : Handle := ⟨"Job", UInt64.ofNat (s.own.issued + 1)⟩
        let job : Job := ⟨handle, cell, (max ticks.toInt 1).toNat, s.board.newFlag.1⟩
        (.ok (.handle handle), ⟨{ counted.own with jobs := s.own.jobs ++ [job] }, s.board.newFlag.2⟩) := by
  rw [moveTo]
  cases args.target "destination" >>= destination with
  | error fault => rfl
  | ok cell =>
    cases args.int "ticks" <;> rfl

theorem destination_eq_ok_iff {target : Target} {cell : Coord} :
    destination target = .ok cell ↔ target = .cell cell ∧ cell.isValid = true := by
  cases target with
  | cell c =>
      rw [destination]
      split
      · rename_i hvalid
        rw [Except.ok.injEq, Target.cell.injEq]
        exact ⟨fun heq => ⟨heq, heq ▸ hvalid⟩, And.left⟩
      · rename_i hinvalid
        refine iff_of_false nofun ?_
        rintro ⟨heq, hvalid⟩
        exact hinvalid ((Target.cell.inj heq).symm ▸ hvalid)
  | entity handle => exact iff_of_false nofun nofun
  | invalid => exact iff_of_false nofun nofun

theorem order?_eq_some_iff {args : Arguments} {cell : Coord} {ticks : Int64} : order? args = some (cell, ticks) ↔
    (args.target "destination" >>= destination) = .ok cell ∧ args.int "ticks" = .ok ticks := by
  rw [order?]
  cases args.target "destination" with
  | error fault => exact iff_of_false nofun nofun
  | ok target =>
      show _ ↔ destination target = .ok cell ∧ _
      rw [destination_eq_ok_iff]
      cases args.int "ticks" with
      | error fault => cases target <;> exact iff_of_false nofun nofun
      | ok t =>
          cases target with
          | cell c =>
              simp only [Option.ite_none_right_eq_some, Option.some.injEq, Prod.mk.injEq, Target.cell.injEq,
                Except.ok.injEq]
              constructor
              · rintro ⟨hvalid, rfl, rfl⟩
                exact ⟨⟨rfl, hvalid⟩, rfl⟩
              · rintro ⟨⟨rfl, hvalid⟩, rfl⟩
                exact ⟨hvalid, rfl, rfl⟩
          | entity handle => exact iff_of_false nofun nofun
          | invalid => exact iff_of_false nofun nofun

/-- A call that is followed begins a journey at the end of the list. -/
theorem moveTo_of_order {args : Arguments} {cell : Coord} {ticks : Int64} (h : order? args = some (cell, ticks))
    (s : HostState Turtle) :
    let handle : Handle := ⟨"Job", UInt64.ofNat (s.own.issued + 1)⟩
    let job : Job := ⟨handle, cell, (max ticks.toInt 1).toNat, s.board.newFlag.1⟩
    moveTo args s = (.ok (.handle handle),
      ⟨⟨s.own.position, s.own.jobs ++ [job], s.own.issued + 1⟩, s.board.newFlag.2⟩) := by
  obtain ⟨hcell, hticks⟩ := order?_eq_some_iff.mp h
  rw [moveTo_run, hcell, hticks]

/-- A call that is not followed takes a number at most. -/
theorem moveTo_of_no_order {args : Arguments} (h : order? args = none) (s : HostState Turtle) :
    ∃ fault issued, moveTo args s = (.error fault, ⟨⟨s.own.position, s.own.jobs, issued⟩, s.board⟩) ∧
      s.own.issued ≤ issued ∧ issued ≤ s.own.issued + 1 := by
  rw [moveTo_run]
  cases hcell : args.target "destination" >>= destination with
  | error fault => exact ⟨fault, s.own.issued, rfl, Nat.le_refl _, Nat.le_succ _⟩
  | ok cell =>
      cases hticks : args.int "ticks" with
      | error fault => exact ⟨fault, s.own.issued + 1, rfl, Nat.le_succ _, Nat.le_refl _⟩
      | ok ticks =>
          rw [order?_eq_some_iff.mpr ⟨hcell, hticks⟩] at h
          cases h

/-! ### Steps -/

/-- A journey ends in the step that takes its last tick. -/
def ends (job : Job) : Bool := job.remaining - 1 = 0

/-- A step takes a tick off every journey, and of those that end it keeps the last destination. -/
theorem foldl_stepJob (jobs : List Job) (s : HostState Turtle) : jobs.foldl stepJob s =
    ⟨⟨((jobs.filter ends).getLast?.map Job.destination).getD s.own.position,
        s.own.jobs ++ (jobs.filter (!ends ·)).map fun job => { job with remaining := job.remaining - 1 },
        s.own.issued⟩,
      ((jobs.filter ends).map Job.done).foldl Board.raise s.board⟩ := by
  induction jobs generalizing s with
  | nil => simp
  | cons job rest ih =>
      rw [List.foldl_cons, ih]
      by_cases hends : job.remaining - 1 = 0
      · have hstep : stepJob s job = ⟨{ s.own with position := job.destination }, s.board.raise job.done⟩ :=
          if_pos hends
        simp [ends, hstep, hends, List.getLast?_cons]
      · have hstep : stepJob s job =
            { s with own := { s.own with jobs := s.own.jobs ++ [{ job with remaining := job.remaining - 1 }] } } :=
          if_neg hends
        simp [ends, hstep, hends]

namespace Diary

variable {d : Diary} {s : HostState Turtle}

/-- The journeys that end in the next step. -/
def endingNext (d : Diary) : List Journey := d.journeys.filter fun j => j.arrival = d.steps + 1

/-- The diary a step on. -/
def later (d : Diary) : Diary := { d with steps := d.steps + 1 }

theorem note_step (d : Diary) (s : HostState Turtle) : d.note s .step = d.later := by
  simp [note, later, begins?, issues?]

theorem ends_job (steps : Nat) (j : Journey) : ends (j.job steps) = true ↔ j.arrival ≤ steps + 1 := by
  rw [ends, decide_eq_true_eq]
  show j.arrival - steps - 1 = 0 ↔ _
  omega

theorem filter_ends_jobs : (d.underWay.map (Journey.job d.steps)).filter ends =
    d.endingNext.map (Journey.job d.steps) := by
  rw [List.filter_map, underWay, List.filter_filter, endingNext]
  refine congrArg _ (List.filter_congr fun j _ => ?_)
  rw [Bool.eq_iff_iff, Bool.and_eq_true, Function.comp_apply, ends_job, decide_eq_true_eq, decide_eq_true_eq]
  omega

/-- The journeys that go on are a tick nearer to their end. -/
theorem filter_goes_on_jobs : ((d.underWay.map (Journey.job d.steps)).filter (!ends ·)).map
    (fun job => { job with remaining := job.remaining - 1 }) =
      d.later.underWay.map (Journey.job d.later.steps) := by
  have hgo : d.later.underWay = d.underWay.filter ((!ends ·) ∘ Journey.job d.steps) := by
    rw [underWay, underWay, List.filter_filter]
    refine List.filter_congr fun j _ => ?_
    rw [Bool.eq_iff_iff, Bool.and_eq_true, Function.comp_apply, Bool.not_eq_true', ← Bool.not_eq_true, ends_job,
      decide_eq_true_eq, decide_eq_true_eq]
    show d.steps + 1 < _ ↔ _
    omega
  rw [List.filter_map, List.map_map, hgo]
  rfl

/-- Where the turtle stands after a step: at the end of the journey begun last of those that end in it, if any. -/
theorem PlacesAt.later {position : Coord} (h : d.PlacesAt position) :
    d.later.PlacesAt ((d.endingNext.getLast?.map Journey.destination).getD position) := by
  cases hlast : d.endingNext.getLast? with
  | none =>
      have hnone : ∀ j ∈ d.journeys, j.arrival ≤ d.steps + 1 → j.arrival ≤ d.steps := by
        intro j hj hle
        have hne := List.filter_eq_nil_iff.mp (List.getLast?_eq_none_iff.mp hlast) j hj
        rw [decide_eq_true_eq] at hne
        omega
      rcases h with ⟨j, ⟨before, after, heq, hle, hbefore, hafter⟩, hposition⟩ | ⟨hall, hposition⟩
      · refine .inl ⟨j, ⟨before, after, heq, Nat.le_succ_of_le hle, fun j' hj' hle' => ?_, fun j' hj' hle' => ?_⟩,
          hposition⟩
        · exact hbefore j' hj' (hnone j' (heq ▸ List.mem_append_left _ hj') hle')
        · exact hafter j' hj' (hnone j' (heq ▸ List.mem_append_right _ (.tail _ hj')) hle')
      · exact .inr ⟨fun j hj => Nat.lt_of_not_le fun hle => Nat.not_le.mpr (hall j hj) (hnone j hj hle), hposition⟩
  | some j =>
      obtain ⟨earlier, hfilter⟩ := List.getLast?_eq_some_iff.mp hlast
      obtain ⟨front, back, heq, -, hback⟩ := List.filter_eq_append_iff.mp hfilter
      obtain ⟨middle, after, rfl, -, hj, hafter⟩ := List.filter_eq_cons_iff.mp hback
      have harrival : j.arrival = d.steps + 1 := of_decide_eq_true hj
      refine .inl ⟨j, ⟨front ++ middle, after, by rw [List.append_assoc]; exact heq, Nat.le_of_eq harrival,
        fun j' _ hle => harrival ▸ hle, fun j' hj' hle => ?_⟩, rfl⟩
      have hne := List.filter_eq_nil_iff.mp hafter j' hj'
      rw [decide_eq_true_eq] at hne
      exact harrival ▸ Nat.lt_of_le_of_ne hle hne

/-- A journey that has only begun moves nobody. -/
theorem PlacesAt.begin {position : Coord} (h : d.PlacesAt position) {j : Journey} (hj : d.steps < j.arrival)
    (issued : List Handle) : PlacesAt ⟨d.steps, d.journeys ++ [j], issued⟩ position := by
  rcases h with ⟨last, ⟨before, after, heq, hle, hbefore, hafter⟩, hposition⟩ | ⟨hall, hposition⟩
  · refine .inl ⟨last, ⟨before, after ++ [j], by simp [heq], hle, hbefore, fun j' hj' hle' => ?_⟩, hposition⟩
    rcases List.mem_append.mp hj' with hold | hnew
    · exact hafter j' hold hle'
    · rw [List.mem_singleton.mp hnew] at hle'
      exact absurd hj (Nat.not_lt.mpr hle')
  · refine .inr ⟨fun j' hj' => ?_, hposition⟩
    rcases List.mem_append.mp hj' with hold | hnew
    · exact hall j' hold
    · exact List.mem_singleton.mp hnew ▸ hj

/-! ### What the diary tells stays true -/

theorem Tells.step (h : d.Tells s) : d.later.Tells (advance s) := by
  have hadvance : advance s = ⟨⟨(d.endingNext.getLast?.map Journey.destination).getD s.own.position,
      d.later.underWay.map (Journey.job d.later.steps), s.own.issued⟩,
      (d.endingNext.map Journey.done).foldl Board.raise s.board⟩ := by
    rw [advance, foldl_stepJob, h.jobs, filter_goes_on_jobs, filter_ends_jobs, List.getLast?_map, Option.map_map,
      List.map_map]
    rfl
  rw [hadvance]
  refine ⟨rfl, h.flags, fun j hj => ?_, fun j hj => ?_, h.position.later⟩
  · rw [Board.size_raiseEach]
    exact h.made j hj
  · -- no two journeys share a flag, so this one goes up only with its own journey
    have hmem : j.done ∈ d.endingNext.map Journey.done ↔ j.arrival = d.steps + 1 := by
      rw [List.mem_map]
      constructor
      · rintro ⟨j', hj', hdone⟩
        obtain ⟨hin, hends⟩ := List.mem_filter.mp hj'
        rw [← List.inj_on_of_nodup_map h.flags hin hj hdone]
        exact of_decide_eq_true hends
      · exact fun hends => ⟨j, List.mem_filter.mpr ⟨hj, decide_eq_true hends⟩, rfl⟩
    rw [Board.isRaised_raiseEach (h.made j hj), h.raised j hj, ← Bool.decide_or, decide_eq_decide, hmem]
    show _ ↔ j.arrival ≤ d.steps + 1
    omega

theorem begun_lt_arrival (j : Journey) : j.begun < j.arrival := by
  have hle : 1 ≤ max j.ticks.toInt 1 := Int.le_max_right _ _
  rw [Journey.arrival]
  omega

theorem Tells.begin (h : d.Tells s) {j : Journey} (hbegun : j.begun = d.steps) (hdone : j.done = s.board.newFlag.1)
    (n : Nat) (issued : List Handle) : Tells ⟨d.steps, d.journeys ++ [j], issued⟩
      ⟨⟨s.own.position, s.own.jobs ++ [j.job d.steps], n⟩, s.board.newFlag.2⟩ := by
  have harrival : d.steps < j.arrival := hbegun ▸ begun_lt_arrival j
  have hsize : s.board.newFlag.2.raised.size = s.board.raised.size + 1 := Array.size_push _
  have hid : j.done.id = s.board.raised.size := by
    rw [hdone]
    rfl
  refine ⟨?_, ?_, fun j' hj' => ?_, fun j' hj' => ?_, h.position.begin harrival issued⟩
  · simp [h.jobs, underWay, List.filter_append, harrival]
  · rw [List.map_append, List.nodup_append]
    refine ⟨h.flags, List.nodup_singleton _, fun flag hold flag' hnew heq => ?_⟩
    obtain ⟨j', hj', rfl⟩ := List.mem_map.mp hold
    have hlt := h.made j' hj'
    rw [heq, List.mem_singleton.mp hnew, hid] at hlt
    exact Nat.lt_irrefl _ hlt
  · rw [hsize]
    rcases List.mem_append.mp hj' with hold | hnew
    · exact Nat.lt_succ_of_lt (h.made j' hold)
    · rw [List.mem_singleton.mp hnew, hid]
      exact Nat.lt_succ_self _
  · rw [Board.isRaised_newFlag]
    rcases List.mem_append.mp hj' with hold | hnew
    · exact h.raised j' hold
    · rw [List.mem_singleton.mp hnew, decide_eq_false (Nat.not_le.mpr harrival), Board.isRaised, hid,
        Array.getElem?_eq_none (Nat.le_refl _)]
      rfl

/-- No journey is begun or ended, whatever numbers are taken. -/
theorem Tells.stay (h : d.Tells s) (n : Nat) (issued : List Handle) :
    Tells ⟨d.steps, d.journeys, issued⟩ ⟨⟨s.own.position, s.own.jobs, n⟩, s.board⟩ :=
  ⟨h.jobs, h.flags, h.made, h.raised, h.position⟩

/-! ### What an event can do -/

/-- Diary and state after an event. -/
inductive Outcome (d : Diary) (s : HostState Turtle) : Diary → HostState Turtle → Prop where
  | stepped : Outcome d s d.later (advance s)
  /-- Nothing is given out, but a number may be lost. -/
  | refused {issued : Nat} (hle : s.own.issued ≤ issued) (hlost : issued ≤ s.own.issued + 1) :
      Outcome d s d ⟨⟨s.own.position, s.own.jobs, issued⟩, s.board⟩
  | marked (kind : String) :
      Outcome d s ⟨d.steps, d.journeys, d.issued ++ [⟨kind, UInt64.ofNat (s.own.issued + 1)⟩]⟩
        ⟨⟨s.own.position, s.own.jobs, s.own.issued + 1⟩, s.board⟩
  | begun {j : Journey} (hbegun : j.begun = d.steps) (hdone : j.done = s.board.newFlag.1)
      (hhandle : j.handle = ⟨"Job", UInt64.ofNat (s.own.issued + 1)⟩) :
      Outcome d s ⟨d.steps, d.journeys ++ [j], d.issued ++ [j.handle]⟩
        ⟨⟨s.own.position, s.own.jobs ++ [j.job d.steps], s.own.issued + 1⟩, s.board.newFlag.2⟩

theorem construct_run (name : String) (s : HostState Turtle) : host.constructEntity name s =
    if name = "Marker" then
      (some ⟨"Marker", UInt64.ofNat (s.own.issued + 1)⟩,
        { s with own := { s.own with issued := s.own.issued + 1 } })
    else (none, s) := by
  show (if name = "Marker" then _ else _ : HostM Turtle (Option Handle)) s = _
  split <;> rfl

theorem outcome (d : Diary) (s : HostState Turtle) (event : Event) :
    d.Outcome s (d.note s event) (perform s event) := by
  cases event with
  | moveTo args =>
      cases horder : order? args with
      | none =>
          obtain ⟨fault, issued, hrun, hle, hlost⟩ := moveTo_of_no_order horder s
          have hnote : d.note s (.moveTo args) = d := by
            simp only [note, begins?, issues?, hrun, Option.toList_none, List.append_nil]
          rw [hnote, perform, hrun]
          exact .refused hle hlost
      | some order =>
          have hrun := moveTo_of_order horder s
          let j : Journey :=
            ⟨⟨"Job", UInt64.ofNat (s.own.issued + 1)⟩, order.1, order.2, d.steps, s.board.newFlag.1⟩
          have hnote : d.note s (.moveTo args) = ⟨d.steps, d.journeys ++ [j], d.issued ++ [j.handle]⟩ := by
            simp only [note, begins?, issues?, hrun, horder, Option.toList_some, j]
          have hjob : j.job d.steps = ⟨j.handle, order.1, (max order.2.toInt 1).toNat, s.board.newFlag.1⟩ :=
            congrArg (Job.mk j.handle order.1 · s.board.newFlag.1) (Nat.add_sub_cancel_left ..)
          rw [hnote, perform, hrun, ← hjob]
          exact .begun rfl rfl rfl
  | construct name =>
      have hnote : d.note s (.construct name) =
          ⟨d.steps, d.journeys, d.issued ++ (issues? s (.construct name)).toList⟩ := by
        simp [note, begins?]
      rw [hnote, issues?, perform, construct_run]
      split
      · exact .marked "Marker"
      · rw [Option.toList_none, List.append_nil]
        exact .refused (Nat.le_refl _) (Nat.le_succ _)
  | step =>
      rw [note_step]
      exact .stepped

variable {d' : Diary} {s' : HostState Turtle}

theorem Tells.outcome (h : d.Tells s) (ho : d.Outcome s d' s') : d'.Tells s' := by
  cases ho with
  | stepped => exact h.step
  | refused hle hlost => exact h.stay _ d.issued
  | marked kind => exact h.stay _ _
  | begun hbegun hdone hhandle => exact h.begin hbegun hdone _ _

/-! ### Handles -/

/-- Handles carry numbers that count up, and no number is given twice. -/
structure Numbers (d : Diary) (issued : Nat) : Prop where
  ids : ∃ numbers : List Nat, d.issued.map Handle.id = numbers.map UInt64.ofNat ∧ numbers.Pairwise (· < ·) ∧
    ∀ n ∈ numbers, n ≤ issued
  handles : (d.journeys.map Journey.handle).Sublist d.issued

theorem Numbers.mono {issued issued' : Nat} (h : d.Numbers issued) (hle : issued ≤ issued') :
    d.Numbers issued' where
  ids := by
    obtain ⟨numbers, hids, hsorted, hbound⟩ := h.ids
    exact ⟨numbers, hids, hsorted, fun n hn => Nat.le_trans (hbound n hn) hle⟩
  handles := h.handles

theorem Numbers.give {issued : Nat} (h : d.Numbers issued) (kind : String) :
    Numbers ⟨d.steps, d.journeys, d.issued ++ [⟨kind, UInt64.ofNat (issued + 1)⟩]⟩ (issued + 1) where
  ids := by
    obtain ⟨numbers, hids, hsorted, hbound⟩ := h.ids
    refine ⟨numbers ++ [issued + 1], by simp [hids], ?_, fun n hn => ?_⟩
    · refine List.pairwise_append.mpr ⟨hsorted, List.pairwise_singleton _ _, fun n hn n' hn' => ?_⟩
      rw [List.mem_singleton.mp hn']
      exact Nat.lt_succ_of_le (hbound n hn)
    · rcases List.mem_append.mp hn with hold | hnew
      · exact Nat.le_succ_of_le (hbound n hold)
      · exact Nat.le_of_eq (List.mem_singleton.mp hnew)
  handles := h.handles.trans (List.sublist_append_left _ _)

theorem advance_issued (s : HostState Turtle) : (advance s).own.issued = s.own.issued := by
  rw [advance, foldl_stepJob]

theorem Numbers.outcome (h : d.Numbers s.own.issued) (ho : d.Outcome s d' s') : d'.Numbers s'.own.issued := by
  cases ho with
  | stepped =>
      rw [advance_issued]
      exact ⟨h.ids, h.handles⟩
  | refused hle hlost => exact h.mono hle
  | marked kind => exact h.give kind
  | begun hbegun hdone hhandle =>
      refine ⟨?_, ?_⟩
      · rw [hhandle]
        exact (h.give "Job").ids
      · rw [List.map_append]
        exact h.handles.append (List.Sublist.refl _)

/-- As long as the count has not wrapped around, no two handles have one id. -/
theorem Numbers.nodup {issued : Nat} (h : d.Numbers issued) (hissued : issued < UInt64.size) :
    (d.issued.map Handle.id).Nodup := by
  obtain ⟨numbers, hids, hsorted, hbound⟩ := h.ids
  rw [hids]
  refine List.Nodup.map_on (fun n hn n' hn' heq => ?_) (hsorted.imp Nat.ne_of_lt)
  have hn := Nat.lt_of_le_of_lt (hbound n hn) hissued
  have hn' := Nat.lt_of_le_of_lt (hbound n' hn') hissued
  have htoNat := congrArg UInt64.toNat heq
  rwa [UInt64.toNat_ofNat_of_lt' hn, UInt64.toNat_ofNat_of_lt' hn'] at htoNat

/-- Every event takes one number at most. -/
theorem Outcome.issued_le (ho : d.Outcome s d' s') : s'.own.issued ≤ s.own.issued + 1 := by
  cases ho with
  | stepped =>
      rw [advance_issued]
      exact Nat.le_add_right _ 1
  | refused hle hlost => exact hlost
  | marked kind => exact Nat.le_refl _
  | begun hbegun hdone hhandle => exact Nat.le_refl _

/-! ### Every run -/

theorem keep_tells (events : List Event) (h : d.Tells s) :
    (keep events (d, s)).1.Tells (keep events (d, s)).2 := by
  induction events generalizing d s with
  | nil => exact h
  | cons event rest ih => exact ih (h.outcome (d.outcome s event))

theorem keep_numbers (events : List Event) (h : d.Numbers s.own.issued) :
    (keep events (d, s)).1.Numbers (keep events (d, s)).2.own.issued := by
  induction events generalizing d s with
  | nil => exact h
  | cons event rest ih => exact ih (h.outcome (d.outcome s event))

theorem issued_keep_le (events : List Event) :
    (keep events (d, s)).2.own.issued ≤ s.own.issued + events.length := by
  induction events generalizing d s with
  | nil => exact Nat.le_refl _
  | cons event rest ih =>
      have hstep := (d.outcome s event).issued_le
      have hrest : (keep rest (d.note s event, perform s event)).2.own.issued ≤ _ := ih
      rw [keep, List.length_cons]
      omega

def blank : Diary := ⟨0, [], []⟩

theorem blank_tells : blank.Tells initial where
  jobs := rfl
  flags := List.nodup_nil
  made := fun _ hj => absurd hj List.not_mem_nil
  raised := fun _ hj => absurd hj List.not_mem_nil
  position := .inr ⟨fun _ hj => absurd hj List.not_mem_nil, rfl⟩

theorem blank_numbers : blank.Numbers initial.own.issued where
  ids := ⟨[], rfl, .nil, fun _ hn => absurd hn List.not_mem_nil⟩
  handles := .slnil

/-! ### Looking for a journey -/

theorem Tells.watch_subject (h : d.Tells s) (handle : Handle) :
    watch (some handle) s = (d.underWay.find? fun j => j.handle = handle).map Journey.done := by
  rw [watch, h.jobs, List.find?_map, Option.map_map]
  rfl

theorem Tells.watch_last (h : d.Tells s) : watch none s = d.underWay.getLast?.map Journey.done := by
  rw [watch, h.jobs, List.getLast?_map, Option.map_map]
  rfl

/-- A handle finds its own journey, as long as that is under way. -/
theorem find?_underWay (hnodup : (d.journeys.map Journey.handle).Nodup) {j : Journey} (hj : j ∈ d.journeys) :
    (d.underWay.find? fun j' => j'.handle = j.handle) = if j.arrival ≤ d.steps then none else some j := by
  have hsame : ∀ j' ∈ d.underWay, j'.handle = j.handle → j' = j :=
    fun j' hj' heq => List.inj_on_of_nodup_map hnodup (List.mem_of_mem_filter hj') hj heq
  split
  · rename_i harrived
    refine List.find?_eq_none.mpr fun j' hj' heq => ?_
    have hgoing : d.steps < j'.arrival := of_decide_eq_true (List.mem_filter.mp hj').2
    rw [hsame j' hj' (of_decide_eq_true heq)] at hgoing
    exact Nat.not_le.mpr hgoing harrived
  · rename_i hgoing
    have hmem : j ∈ d.underWay := List.mem_filter.mpr ⟨hj, decide_eq_true (Nat.lt_of_not_le hgoing)⟩
    cases hfind : d.underWay.find? fun j' => j'.handle = j.handle with
    | none => exact absurd (decide_eq_true rfl) (List.find?_eq_none.mp hfind j hmem)
    | some found =>
        have heq := List.find?_some hfind
        rw [hsame found (List.mem_of_find?_eq_some hfind) (of_decide_eq_true heq)]

end Diary

/-- After any calls, objects made and steps: the flag of every journey is up exactly from its time of arrival on,
its own flag and no other's; the list holds the journeys that have not arrived; the turtle stands where the journey
that arrived last went; a handle finds its journey until that has arrived, and without one the journey begun last
of those under way is found; handles have ids of their own. A call begins a journey exactly if it names a valid
cell and a number of ticks, and changes neither journeys nor position nor flags if it does not. -/
theorem journeys_arrive (events : List Event) :
    let (d, s) := Diary.keep events (Diary.blank, initial)
    (d.journeys.map Journey.done).Nodup ∧
    (∀ j ∈ d.journeys, s.board.isRaised j.done = decide (j.arrival ≤ d.steps)) ∧
    s.own.jobs = d.underWay.map (Journey.job d.steps) ∧
    d.PlacesAt s.own.position ∧
    (∀ handle, host.watchCompletion (some handle) s =
      (d.underWay.find? fun j => j.handle = handle).map Journey.done) ∧
    host.watchCompletion none s = d.underWay.getLast?.map Journey.done ∧
    s.own.issued ≤ events.length ∧
    (s.own.issued < UInt64.size → (d.issued.map Handle.id).Nodup ∧
      ∀ j ∈ d.journeys, host.watchCompletion (some j.handle) s =
        if j.arrival ≤ d.steps then none else some j.done) ∧
    ∀ args, match order? args with
      | some (cell, ticks) =>
          ∃ handle, (moveTo args s).1 = .ok (.handle handle) ∧
            d.begins? s (.moveTo args) = some ⟨handle, cell, ticks, d.steps, s.board.newFlag.1⟩
      | none =>
          (∃ fault, (moveTo args s).1 = .error fault) ∧ (moveTo args s).2.own.jobs = s.own.jobs ∧
            (moveTo args s).2.own.position = s.own.position ∧ (moveTo args s).2.board = s.board := by
  have htells := Diary.keep_tells events Diary.blank_tells
  have hnumbers := Diary.keep_numbers events Diary.blank_numbers
  have hissued : (Diary.keep events (Diary.blank, initial)).2.own.issued ≤ events.length :=
    Nat.le_trans (Diary.issued_keep_le events) (Nat.le_of_eq (Nat.zero_add _))
  generalize Diary.keep events (Diary.blank, initial) = past at htells hnumbers hissued
  obtain ⟨d, s⟩ := past
  refine ⟨htells.flags, htells.raised, htells.jobs, htells.position, htells.watch_subject, htells.watch_last,
    hissued, fun hbound => ⟨hnumbers.nodup hbound, fun j hj => ?_⟩, fun args => ?_⟩
  · have hnodup : (d.journeys.map Journey.handle).Nodup :=
      hnumbers.handles.nodup (List.Nodup.of_map _ (hnumbers.nodup hbound))
    refine (htells.watch_subject j.handle).trans ?_
    rw [Diary.find?_underWay hnodup hj]
    split <;> rfl
  · cases horder : order? args with
    | none =>
        obtain ⟨fault, issued, hrun, -⟩ := moveTo_of_no_order horder s
        rw [hrun]
        exact ⟨⟨fault, rfl⟩, rfl, rfl, rfl⟩
    | some order =>
        refine ⟨⟨"Job", UInt64.ofNat (s.own.issued + 1)⟩, ?_, ?_⟩
        · rw [moveTo_of_order horder]
        · simp only [Diary.begins?, issues?, moveTo_of_order horder, horder]

/-- Of two journeys that arrive together the one begun last counts; a third is still under way. -/
theorem journeys_arrive_together :
    let args (x : Int32) (ticks : Int64) : Arguments :=
      ⟨[.required "destination" .target, .withDefault "ticks" .int (.int 3)], [.coord ⟨x, 0, 0⟩, .int ticks]⟩
    let events : List Event :=
      [.moveTo (args 1 2), .step, .construct "Marker", .moveTo (args 2 (-5)), .moveTo (args 3 2), .step]
    let (d, s) := Diary.keep events (Diary.blank, initial)
    s.own.issued < UInt64.size ∧ s.own.position = ⟨2, 0, 0⟩ ∧ (d.issued.map Handle.id).Nodup ∧
      d.journeys.map Journey.arrival = [2, 2, 3] ∧
      ∀ j ∈ d.journeys, host.watchCompletion (some j.handle) s = if j.arrival ≤ 2 then none else some j.done := by
  intro args events
  obtain ⟨hids, hwatch⟩ := (journeys_arrive events).2.2.2.2.2.2.2.1 (by decide)
  exact ⟨by decide, by decide, hids, by decide, hwatch⟩

end Turtle
end ScriptBridge
