import Mathlib.Logic.Function.Iterate
import Mathlib.Order.Bounds.Defs
import ScriptBridge.CommandLine
import ScriptBridge.Proofs.ConfigFiles
import ScriptBridge.Proofs.FaultContainment

/-! The verdict of a driven run. What is on the surface when the ticks are over decides it, so a fault
must stay there from its tick to the last one, and nothing but a fault may bring such a report there. A
fault leaves nothing to run, and without guest code no tick touches the surface. -/

namespace ScriptBridge

variable {σ : Type}

/-! ### Without a fault -/

/-- Only a fault brings the report of a fault to the surface; failed operations do not. -/
theorem Move.no_guestReport {o o' : Outline} {h : History} (hmove : Move o h o')
    (hclear : o.context.hasGuestReport = false) (hno : ∀ fault, .faulted fault ∉ h) :
    o'.context.hasGuestReport = false := by
  cases hmove with
  | act _ hact =>
      cases hact with
      | failed message line => exact Context.hasGuestReport_reportHostError hclear message line
      | called | delayed | awaited => exact hclear
  | fault fault _ => exact absurd List.mem_cons_self (hno fault)
  | dismiss => exact (Context.hasGuestReport_dismissError o.context).trans hclear
  | stop | block | deferred | repeated => rfl
  | finish | elapse | once | repeating | tick | poll | count => exact hclear

theorem Path.no_guestReport {o o' : Outline} {h : History} (hpath : Path o h o')
    (hclear : o.context.hasGuestReport = false) (hno : ∀ fault, .faulted fault ∉ h) :
    o'.context.hasGuestReport = false := by
  refine hpath.invariant
    (P := fun h o => (∀ fault, .faulted fault ∉ h) → o.context.hasGuestReport = false)
    (fun _ => hclear) (fun past o h o' hbefore hmove hno => ?_) hno
  refine hmove.no_guestReport (hbefore fun fault hmem => ?_) fun fault hmem => ?_
  · exact hno fault (List.mem_append_left h hmem)
  · exact hno fault (List.mem_append_right past hmem)

/-! ### After a fault -/

/-- Nothing is armed or waiting, and a report is on the surface. -/
structure Outline.Ended (o : Outline) (report : Report) : Prop where
  idle : o.context.hasPendingWork = false
  deferred : o.deferred = none
  repeating : o.repeating = none
  surface : o.context.surface = some report

namespace Scheduler

theorem ShowsFault.ended {s : Scheduler σ} {fault : Guest.Fault} {report : Report}
    (h : s.ShowsFault fault report) : s.outline.Ended report where
  idle := (idle_iff s).mpr ⟨h.pendingDelays, h.completionPending⟩
  deferred := h.deferred
  repeating := h.repeating
  surface := h.lastError

/-- A tick with nothing to run moves the delays on and polls, and that is all. -/
theorem tick_of_ended {s : Scheduler σ} {report : Report} (e : Embedding σ) (now : Nat)
    (h : s.outline.Ended report) : (tick e now s).2 = s.awake.advanced.polled now := by
  obtain ⟨hdelay, hidle⟩ := Context.idle_advanceDelays h.idle
  have hdue : s.awake.dueDelay? = none := hdelay
  have hwait : s.awake.advanced.dueWait? now = none :=
    (Context.idle_pollCompletion hidle now s.awake.advanced.board.isRaised).1
  have hdeferred : (s.awake.advanced.polled now).deferred = none := h.deferred
  have hrepeating : (s.awake.advanced.polled now).repeating = none := h.repeating
  have hdelays : (tickDelays e s.awake).2 = s.awake.advanced := by rw [tickDelays_run, hdue]
  rw [tick_run, show ({ s with errorReported := false } : Scheduler σ) = s.awake from rfl, hdelays]
  rw [tickCompletion_run, hwait]
  dsimp only
  rw [runDeferred_run, hdeferred]
  dsimp only
  rw [tickRepeating_run, hrepeating]
  split <;> rfl

theorem ended_tick {s : Scheduler σ} {report : Report} (e : Embedding σ) (now : Nat)
    (h : s.outline.Ended report) : (tick e now s).2.outline.Ended report := by
  rw [tick_of_ended e now h]
  have hidle := (Context.idle_advanceDelays h.idle).2
  exact {
    idle := (Context.idle_pollCompletion hidle now s.awake.advanced.board.isRaised).2
    deferred := h.deferred
    repeating := h.repeating
    surface := h.surface }

/-- Guest code faults during a tick. -/
def FaultsIn (e : Embedding σ) (now : Nat) (s : Scheduler σ) (fault : Guest.Fault) : Prop :=
  ∃ h, TickHistory e now s h ∧ .faulted fault ∈ h

theorem showsFault_of_faultsIn {e : Embedding σ} {now : Nat} {s : Scheduler σ} {fault : Guest.Fault}
    (hsound : s.outline.Sound) (hfaults : s.FaultsIn e now fault) :
    ∃ report, (tick e now s).2.ShowsFault fault report := by
  obtain ⟨h, htick, hmem⟩ := hfaults
  obtain ⟨before, after, hsplit⟩ := List.append_of_mem hmem
  exact ((keepsFaults_of_outcome (htick.outcome hsound)).1 before fault after hsplit).2

theorem no_guestReport_of_no_fault {e : Embedding σ} {now : Nat} {s : Scheduler σ}
    (hclear : s.context.hasGuestReport = false) (hno : ∀ fault, ¬ s.FaultsIn e now fault) :
    (tick e now s).2.context.hasGuestReport = false := by
  obtain ⟨h, htick⟩ := exists_tickHistory e now s
  exact htick.path.no_guestReport hclear fun fault hmem => hno fault ⟨h, htick, hmem⟩

end Scheduler

namespace CommandLine

open Scheduler

/-! ### Driven ticks -/

/-- A scheduler when a driven tick begins: time has passed and the turtle has moved. -/
def ready (tickMs : Nat) (s : Scheduler Turtle) : Scheduler Turtle :=
  (askHost (modify Turtle.advance) (elapse tickMs s).2).2

/-- One driven tick. -/
def lap (e : Embedding Turtle) (tickMs : Nat) (s : Scheduler Turtle) : Scheduler Turtle :=
  (tick e 0 (ready tickMs s)).2

theorem ready_outline (tickMs : Nat) (s : Scheduler Turtle) :
    (ready tickMs s).outline =
      { s.outline with context := s.context.elapse tickMs s.board.isRaised } := rfl

theorem sound_ready {s : Scheduler Turtle} (tickMs : Nat) (h : s.outline.Sound) :
    (ready tickMs s).outline.Sound := by
  rw [ready_outline]
  exact (Move.elapse s.outline tickMs s.board).sound h

theorem sound_lap {s : Scheduler Turtle} (e : Embedding Turtle) (tickMs : Nat) (h : s.outline.Sound) :
    (lap e tickMs s).outline.Sound := by
  obtain ⟨_, htick⟩ := exists_tickHistory e 0 (ready tickMs s)
  exact htick.path.sound (sound_ready tickMs h)

theorem ended_lap {s : Scheduler Turtle} {report : Report} (e : Embedding Turtle) (tickMs : Nat)
    (h : s.outline.Ended report) : (lap e tickMs s).outline.Ended report := by
  refine ended_tick e 0 ?_
  rw [ready_outline]
  exact {
    idle := (Context.hasPendingWork_elapse _ _ _).trans h.idle
    deferred := h.deferred
    repeating := h.repeating
    surface := h.surface }

theorem drive_succ (e : Embedding Turtle) (tickMs : Nat) (repeats : Bool) (ticks : Nat)
    (s : Scheduler Turtle) :
    drive e tickMs repeats (ticks + 1) s =
      if !repeats && (lap e tickMs s).state ≠ .running then ((), lap e tickMs s)
      else drive e tickMs repeats ticks (lap e tickMs s) := by
  rw [drive, run_bind, run_bind, run_bind, run_bind, run_get]
  show (if !repeats && (lap e tickMs s).state ≠ .running then _ else _ : SchedulerM Turtle Unit)
    (lap e tickMs s) = _
  split <;> rfl

/-- A driven run ends after a tick that leaves nothing to do, if it does not repeat, and otherwise with
the last tick it may drive. -/
theorem drive_run (e : Embedding Turtle) (tickMs : Nat) (repeats : Bool) (limit : Nat)
    (s : Scheduler Turtle) :
    ∃ n ≤ limit, (drive e tickMs repeats limit s).2 = (lap e tickMs)^[n] s ∧
      (∀ k, 0 < k → k < n → repeats ∨ ((lap e tickMs)^[k] s).state = .running) ∧
      (n < limit → 0 < n ∧ repeats = false ∧ ((lap e tickMs)^[n] s).state ≠ .running) := by
  induction limit generalizing s with
  | zero => exact ⟨0, Nat.le_refl 0, rfl, fun k _ h => absurd h (Nat.not_lt_zero k), by simp⟩
  | succ limit ih =>
      rw [drive_succ]
      split
      · rename_i hstop
        simp only [Bool.and_eq_true, Bool.not_eq_true', decide_eq_true_eq] at hstop
        exact ⟨1, Nat.le_add_left 1 limit, rfl, by omega, fun _ => ⟨Nat.one_pos, hstop⟩⟩
      · rename_i hgo
        obtain ⟨n, hn, hrun, hactive, hend⟩ := ih (lap e tickMs s)
        refine ⟨n + 1, Nat.add_le_add_right hn 1, hrun, fun k hpos hk => ?_, fun hlt => ?_⟩
        · obtain ⟨k, rfl⟩ := Nat.exists_eq_add_one.mpr hpos
          rcases Nat.eq_zero_or_pos k with rfl | hk'
          · simp only [Bool.and_eq_true, Bool.not_eq_true', decide_eq_true_eq, not_and, not_not] at hgo
            cases repeats with
            | true => exact .inl rfl
            | false => exact .inr (hgo rfl)
          · exact hactive k hk' (Nat.lt_of_add_lt_add_right hk)
        · exact ⟨Nat.succ_pos n, (hend (Nat.lt_of_add_lt_add_right hlt)).2⟩

/-- No operation of the turtle's world takes a list, so no call asks for room for one. -/
theorem kind_ne_list (engine : Guest.Engine) (machine : Machine) (root : String) :
    ∀ operation ∈ Environment.operations (embedding engine machine).host root,
      ∀ p ∈ operation.signature.params, p.kind ≠ .list := by
  intro operation hmem p hp
  rcases List.mem_append.mp hmem with hbuiltin | hturtle
  · obtain ⟨b, -, rfl⟩ := List.mem_map.mp hbuiltin
    have hall : (b.signature root).params.all (·.kind ≠ .list) = true := by cases b <;> rfl
    exact of_decide_eq_true (List.all_eq_true.mp hall p hp)
  · obtain ⟨o, ho, rfl⟩ := List.mem_map.mp hturtle
    have hall : Turtle.operations.all (fun o => o.signature.params.all (·.kind ≠ .list)) = true := rfl
    exact of_decide_eq_true (List.all_eq_true.mp (List.all_eq_true.mp hall o ho) p hp)

/-! ### The verdict -/

/-- The block of a run's units is armed. -/
def armed (e : Embedding Turtle) (o : Options) (units : List SourceUnit) (s : Scheduler Turtle) :
    Scheduler Turtle :=
  match o.every with
  | some every => (executeRepeating e (SourceUnit.concat units) every s).2
  | none => (executeUnits e units s).2

/-- The scheduler of a run after so many ticks. -/
def after (e : Embedding Turtle) (o : Options) (start : Scheduler Turtle) (n : Nat) : Scheduler Turtle :=
  (lap e (max o.tickMs 1))^[n] start

/-- Guest code faults in the tick that comes after so many others. -/
def FaultsAfter (e : Embedding Turtle) (o : Options) (start : Scheduler Turtle) (k : Nat)
    (fault : Guest.Fault) : Prop :=
  (ready (max o.tickMs 1) (after e o start k)).FaultsIn e 0 fault

/-- A run drives all the ticks it may when it repeats; otherwise it ends with the first tick after which
nothing is armed or waiting, if there is one among them. -/
structure Drives (e : Embedding Turtle) (o : Options) (start : Scheduler Turtle) (n : Nat) : Prop where
  repeated : o.every.isSome → n = o.ticks
  rested : o.every = none → ∀ m, IsLeast {k | 0 < k ∧ (after e o start k).state ≠ .running} m →
    n = min o.ticks m
  unrested : o.every = none → (∀ k, 0 < k → (after e o start k).state = .running) → n = o.ticks

/-- The text of a report: what failed, the line if it is known, the message, and the calls up to the failure. -/
def printed (heading : String) (r : Report) : String :=
  heading ++ " error\n" ++
    (if 1 ≤ r.lineNumber then "  line " ++ toString r.lineNumber ++ ": " ++ r.lineText ++ "\n" else "") ++
    "  " ++ r.message ++ "\n" ++
    String.join (r.history.map fun call => "  called " ++ call.operation ++ "(" ++ call.argumentTypes ++ ")\n")

theorem joinLines_reportLines (r : Report) : joinLines (reportLines r) = printed r.origin.display r := by
  have hcalls : (r.history.map fun call => "  called " ++ call.display).map (· ++ "\n") =
      r.history.map fun call => "  called " ++ call.operation ++ "(" ++ call.argumentTypes ++ ")\n" := by
    simp [CallRecord.display, String.append_assoc]
  have hheading : (" error\n" : String) = " error" ++ "\n" := rfl
  rw [joinLines, reportLines, List.map_append, List.map_append, List.map_append, hcalls, printed, hheading]
  by_cases hline : 1 ≤ r.lineNumber <;>
    simp [Report.hasLine, hline, String.join_cons, String.append_assoc, -String.reduceAppend]

/-- How a run of so many ticks comes out: it fails if guest code has faulted in one of them, with that
fault's report, and operations that failed are at most reported. -/
structure Verdict (e : Embedding Turtle) (o : Options) (start : Scheduler Turtle) (n : Nat)
    (outcome : Outcome) : Prop where
  fails_iff : outcome.code ≠ 0 ↔ ∃ k < n, ∃ fault, FaultsAfter e o start k fault
  fault : ∀ k < n, ∀ fault, FaultsAfter e o start k fault → ∃ report,
    (after e o start (k + 1)).ShowsFault fault report ∧ outcome.code = failureCode ∧
      outcome.stderr = printed "guest" report ++ "Error: script failed\n"
  no_fault : (∀ k < n, ∀ fault, ¬ FaultsAfter e o start k fault) → outcome.code = 0 ∧
    ((after e o start n).lastError = none ∧ outcome.stderr = "" ∨
      ∃ report, (after e o start n).lastError = some report ∧ report.origin = .hostOperation ∧
        outcome.stderr = printed "host operation" report)

section

variable (e : Embedding Turtle) (o : Options) {start : Scheduler Turtle}

theorem after_succ (n : Nat) :
    after e o start (n + 1) = lap e (max o.tickMs 1) (after e o start n) :=
  Function.iterate_succ_apply' _ n start

theorem sound_after (h : start.outline.Sound) (n : Nat) : (after e o start n).outline.Sound := by
  induction n with
  | zero => exact h
  | succ n ih =>
      rw [after_succ]
      exact sound_lap e _ ih

/-- A report that is on the surface with nothing left to run stays there. -/
theorem ended_after {report : Report} {m n : Nat} (h : (after e o start m).outline.Ended report)
    (hle : m ≤ n) : (after e o start n).outline.Ended report := by
  induction hle with
  | refl => exact h
  | step _ ih =>
      rw [after_succ]
      exact ended_lap e _ ih

theorem no_guestReport_after (h : start.context.hasGuestReport = false) {n : Nat}
    (hno : ∀ k < n, ∀ fault, ¬ FaultsAfter e o start k fault) :
    (after e o start n).context.hasGuestReport = false := by
  induction n with
  | zero => exact h
  | succ n ih =>
      have hbefore := ih fun k hk => hno k (Nat.lt_succ_of_lt hk)
      rw [after_succ]
      exact no_guestReport_of_no_fault (s := ready (max o.tickMs 1) (after e o start n)) hbefore
        (hno n (Nat.lt_succ_self n))

theorem drives_of_bounds {n : Nat} (hle : n ≤ o.ticks)
    (hactive : ∀ k, 0 < k → k < n → o.every.isSome ∨ (after e o start k).state = .running)
    (hend : n < o.ticks → 0 < n ∧ o.every.isSome = false ∧ (after e o start n).state ≠ .running) :
    Drives e o start n where
  repeated := fun hrepeats => by
    refine Nat.le_antisymm hle (Nat.not_lt.mp fun hlt => ?_)
    rw [(hend hlt).2.1] at hrepeats
    cases hrepeats
  rested := fun hevery m ⟨⟨hpos, hrest⟩, hleast⟩ => by
    have hnm : n ≤ m := Nat.not_lt.mp fun hlt => by
      rcases hactive m hpos hlt with hrepeats | hrunning
      · rw [hevery] at hrepeats
        cases hrepeats
      · exact hrest hrunning
    rcases Nat.lt_or_eq_of_le hle with hlt | heq
    · obtain ⟨hpos, -, hstate⟩ := hend hlt
      have hmn : m ≤ n := hleast ⟨hpos, hstate⟩
      omega
    · omega
  unrested := fun _ hrunning => by
    refine Nat.le_antisymm hle (Nat.not_lt.mp fun hlt => ?_)
    obtain ⟨hpos, -, hstate⟩ := hend hlt
    exact hstate (hrunning n hpos)

theorem runUnits_run (units : List SourceUnit) (s : Scheduler Turtle) :
    ∃ n, Drives e o (armed e o units s) n ∧
      (runUnits e o units s).2 = after e o (armed e o units s) n := by
  obtain ⟨n, hle, hrun, hactive, hend⟩ :=
    drive_run e (max o.tickMs 1) o.every.isSome o.ticks (armed e o units s)
  refine ⟨n, drives_of_bounds e o hle hactive hend, Eq.trans ?_ hrun⟩
  rw [runUnits, armed]
  cases o.every <;> rfl

/-- The surface after the last tick decides as the faults in the ticks do. -/
theorem verdict_of_surface (hsound : start.outline.Sound) (hclear : start.context.hasGuestReport = false)
    (n : Nat) {outcome : Outcome}
    (houtcome : (outcome.code, outcome.stderr) = conclude (after e o start n).lastError) :
    Verdict e o start n outcome := by
  have hfault : ∀ k < n, ∀ fault, FaultsAfter e o start k fault → ∃ report,
      (after e o start (k + 1)).ShowsFault fault report ∧ outcome.code = failureCode ∧
        outcome.stderr = printed "guest" report ++ "Error: script failed\n" := by
    intro k hk fault hfaults
    obtain ⟨report, hshows⟩ := showsFault_of_faultsIn (sound_ready _ (sound_after e o hsound k)) hfaults
    change (lap e (max o.tickMs 1) (after e o start k)).ShowsFault fault report at hshows
    rw [← after_succ] at hshows
    have hlast : (after e o start n).lastError = some report := (ended_after e o hshows.ended hk).surface
    have hfailure : isFailure report = true := decide_eq_true hshows.isOf.origin
    rw [hlast, conclude, if_pos hfailure, joinLines_reportLines, hshows.isOf.origin] at houtcome
    exact ⟨report, hshows, congrArg Prod.fst houtcome, congrArg Prod.snd houtcome⟩
  have hno_fault : (∀ k < n, ∀ fault, ¬ FaultsAfter e o start k fault) → outcome.code = 0 ∧
      ((after e o start n).lastError = none ∧ outcome.stderr = "" ∨
        ∃ report, (after e o start n).lastError = some report ∧ report.origin = .hostOperation ∧
          outcome.stderr = printed "host operation" report) := by
    intro hno
    have hend : (after e o start n).lastError.any (fun report => report.origin = .guest) = false :=
      no_guestReport_after e o hclear hno
    cases hlast : (after e o start n).lastError with
    | none =>
        rw [hlast, conclude] at houtcome
        exact ⟨congrArg Prod.fst houtcome, .inl ⟨rfl, congrArg Prod.snd houtcome⟩⟩
    | some report =>
        rw [hlast, Option.any_some, decide_eq_false_iff_not] at hend
        have horigin : report.origin = .hostOperation := by
          cases horigin : report.origin with
          | guest => exact absurd horigin hend
          | hostOperation => rfl
        have hfailure : ¬ isFailure report = true := by simp [isFailure, horigin]
        rw [hlast, conclude, if_neg hfailure, joinLines_reportLines, horigin] at houtcome
        exact ⟨congrArg Prod.fst houtcome, .inr ⟨report, rfl, horigin, congrArg Prod.snd houtcome⟩⟩
  refine ⟨⟨fun hcode => ?_, fun ⟨k, hk, fault, hfaults⟩ => ?_⟩, hfault, hno_fault⟩
  · by_contra hnone
    exact hcode (hno_fault fun k hk fault hfaults => hnone ⟨k, hk, fault, hfaults⟩).1
  · obtain ⟨-, -, hcode, -⟩ := hfault k hk fault hfaults
    rw [hcode]
    exact Nat.one_ne_zero

/-- Arming a block leaves the fresh context as it is. -/
theorem armed_outline (units : List SourceUnit) (config : Config) (application : HostState Turtle) :
    ∃ deferred repeating, (armed e o units (new e config application)).outline =
      ⟨.new config e.hasCheckers, false, deferred, repeating, false⟩ := by
  have hidle : (new e config application).guarded e = new e config application := by
    refine guarded_of_not_running e fun hrunning => ?_
    rw [state_eq_running_iff, new_outline, Outline.isRunning, Context.hasPendingWork_new] at hrunning
    cases hrunning
  have hnew := new_outline e config application
  unfold armed
  cases o.every with
  | none =>
      refine ⟨some (SourceUnit.concat units), none, ?_⟩
      rw [executeUnits, executeOnce_run, hidle]
      show ({ (new e config application).outline with deferred := some _ } : Outline) = _
      rw [hnew]
  | some every =>
      refine ⟨none, some ⟨SourceUnit.concat units, max every 1, max every 1 - 1⟩, ?_⟩
      dsimp only
      rw [executeRepeating_run, hidle]
      show ({ (new e config application).outline with repeating := some _ } : Outline) = _
      rw [hnew]

end

/-- **The verdict of a run.** Whatever the files, the configuration and the guest's code are, a run for whose call
history there is room drives as many ticks as its options say, and it fails if and only if guest code has faulted
in one of them. The report it prints then is the one that was captured at the end of the fault's tick. Operations
that failed never make it fail; if one did, its report is all that is printed. -/
theorem verdict_by_faults (library : Toml.Library) (e : Embedding Turtle) (o : Options) (s : Surroundings)
    (units : List SourceUnit) (hlist : o.list = false) (hread : readUnits s.read o.files = .ok units)
    (hroom : e.host.machine.hasRoom CallRecord.width (configFor library o s).historyCapacity.toNat = true) :
    let fresh := Scheduler.new e (configFor library o s) Turtle.initial
    let start := armed e o units fresh
    ∃ outcome n, run library e o s = .ok outcome ∧ Drives e o start n ∧
      (runUnits e o units fresh).2 = after e o start n ∧ Verdict e o start n outcome := by
  intro fresh start
  obtain ⟨n, hdrives, hrun⟩ := runUnits_run e o units fresh
  obtain ⟨deferred, repeating, hstart⟩ := armed_outline e o units (configFor library o s) Turtle.initial
  have hnew := Outline.sound_new (configFor library o s) e.hasCheckers
  refine ⟨runOn e o s fresh, n, ?_, hdrives, hrun, verdict_of_surface e o ?_ ?_ n ?_⟩
  · rw [run, create_ok_iff.mpr ⟨hroom, rfl⟩]
    rfl
  · rw [show start.outline = _ from hstart]
    exact ⟨hnew.delays, hnew.completion, hnew.contained⟩
  · show start.outline.context.hasGuestReport = false
    rw [show start.outline = _ from hstart]
    rfl
  · rw [← show (runUnits e o units fresh).2 = after e o start n from hrun, runOn, hlist, hread]
    rfl

/-- The verdict of a run of one file that calls an operation again and again. -/
theorem verdict_of_repeated_call :
    let e := embedding .standard .ample
    let o : Options := ⟨["add.lua"], none, 50, 200, some 4, false, false⟩
    let s : Surroundings := ⟨fun _ => .file "Add(1)".toUTF8, .missing⟩
    let units : List SourceUnit := [⟨"add.lua", "Add(1)"⟩]
    let fresh := Scheduler.new e (configFor Toml.standard o s) Turtle.initial
    let start := armed e o units fresh
    o.list = false ∧ readUnits s.read o.files = .ok units ∧
      e.host.machine.hasRoom CallRecord.width (configFor Toml.standard o s).historyCapacity.toNat = true ∧
      ∃ outcome n, run Toml.standard e o s = .ok outcome ∧ Drives e o start n ∧
        (runUnits e o units fresh).2 = after e o start n ∧ Verdict e o start n outcome := by
  have hread : readUnits (fun _ => .file "Add(1)".toUTF8) ["add.lua"] = .ok [⟨"add.lua", "Add(1)"⟩] := by
    rfl
  exact ⟨rfl, hread, rfl, verdict_by_faults Toml.standard (embedding .standard .ample)
    ⟨["add.lua"], none, 50, 200, some 4, false, false⟩ ⟨fun _ => .file "Add(1)".toUTF8, .missing⟩ _ rfl hread rfl⟩

/-- A configuration that asks for room for the greatest of all call histories. -/
def greatestHistory : ConfigFile := .file "history_capacity = 9223372036854775807\n".toUTF8

theorem load_greatestHistory :
    Config.load Toml.standard greatestHistory =
      .ok { Config.standard with historyCapacity := 9223372036854775807 } := by
  have htext : Toml.document [("history_capacity", .integer 9223372036854775807)] =
      "history_capacity = 9223372036854775807\n" := by decide
  have hread := Toml.read?_standard [("history_capacity", .integer 9223372036854775807)] (by decide) (by decide)
  rw [htext] at hread
  exact Config.load_file_eq_ok_iff.mpr ⟨_, _, Text.fromUTF8?_toUTF8 _, hread,
    ⟨none, some 9223372036854775807, none, none, none, none, none, none⟩,
    ⟨trivial, ⟨9223372036854775807, rfl, by decide⟩, trivial, trivial, trivial, trivial, trivial, trivial⟩, rfl⟩

/-- No machine has room for the greatest of all histories: a run of no ticks, in which nothing can fault, fails. -/
theorem fails_without_fault :
    let o : Options := ⟨[], none, 50, 0, none, false, false⟩
    let s : Surroundings := ⟨fun _ => .missing, greatestHistory⟩
    readUnits s.read o.files = .ok [] ∧
      ∀ engine machine, run Toml.standard (embedding engine machine) o s = .error .panic ∧
        exitCode (run Toml.standard (embedding engine machine) o s) ≠ 0 := by
  intro o s
  have hconfig : configFor Toml.standard o s = { Config.standard with historyCapacity := 9223372036854775807 } := by
    show Config.loadOrDefault Toml.standard greatestHistory = _
    rw [Config.loadOrDefault, load_greatestHistory]
  have hpanic (engine : Guest.Engine) (machine : Machine) :
      run Toml.standard (embedding engine machine) o s = .error .panic := by
    rw [run, hconfig, create_of_greatest_lt _ _ (by decide)]
    rfl
  refine ⟨rfl, fun engine machine => ⟨hpanic engine machine, ?_⟩⟩
  rw [hpanic]
  decide

end CommandLine
end ScriptBridge
