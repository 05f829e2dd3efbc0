import ScriptBridge.Proofs.CompletionSteps
import ScriptBridge.Proofs.DelayOrder
import ScriptBridge.Scheduler

/-! A scheduler as a system of moves between outlines, each with what can be seen of it. An outline has
what the scheduler decides by and nothing else: the guest's memory, the application and the journal are
left out, so a move says the same whatever guest code and application do. Every run of a scheduler is a
path of moves, and what holds along all paths holds of all runs. -/

namespace ScriptBridge

/-- A source handed to a scheduler, and when it is to run. -/
inductive Submission where
  | block (source : String)
  | once (source : String)
  | repeating (source : String) (every : Nat)

def Submission.source : Submission → String
  | block source | once source | repeating source _ => source

/-- What a block is run for. -/
inductive Cause where
  | atOnce
  | deferred
  | repeated
deriving DecidableEq

def Submission.cause : Submission → Cause
  | block _ => .atOnce
  | once _ => .deferred
  | repeating _ _ => .repeated

/-- A continuation by its number among the delays or among the completion waits of its environment. -/
inductive Waiting where
  | delay (seq : Nat)
  | completion (id : Nat)
deriving DecidableEq

/-- What can be seen of a run. -/
inductive Happening where
  /-- A tick begins. -/
  | ticked
  /-- The flags are looked at as they stand. -/
  | looked (board : Board)
  /-- A source is handed over; `beside` says that an armed source stays beside it. -/
  | submitted (submission : Submission) (beside : Bool)
  | stopped
  | dismissed
  /-- A block starts; `waiting` says that a continuation is waiting. -/
  | began (cause : Cause) (source : String) (waiting : Bool)
  | resumed (which : Waiting) (callback : Guest.Function)
  | called (record : CallRecord)
  | failed (message : String) (line : Option Int)
  /-- Guest code asks for a delay while the counter stands at `counter`. -/
  | delayed (seq : Nat) (ticks counter : Int) (callback : Guest.Function)
  | awaited (id : Nat) (flag : Flag) (callback : Guest.Function)
  | faulted (fault : Guest.Fault)

abbrev History := List Happening

/-- Two places in a history are one, or one of them comes before the other. -/
theorem History.places {past past' later later' : History} {x x' : Happening}
    (h : past ++ x :: later = past' ++ x' :: later') :
    (past = past' ∧ x = x' ∧ later = later') ∨
      (∃ between, past' = past ++ x :: between ∧ later = between ++ x' :: later') ∨
      ∃ between, past = past' ++ x' :: between ∧ later' = between ++ x :: later := by
  rcases List.append_eq_append_iff.mp h with ⟨gap, rfl, hrest⟩ | ⟨gap, rfl, hrest⟩
  · cases gap with
    | nil =>
        cases hrest
        exact .inl ⟨(List.append_nil past).symm, rfl, rfl⟩
    | cons y between =>
        rw [List.cons_append] at hrest
        cases hrest
        exact .inr (.inl ⟨between, rfl, rfl⟩)
  · cases gap with
    | nil =>
        cases hrest
        exact .inl ⟨List.append_nil past', rfl, rfl⟩
    | cons y between =>
        rw [List.cons_append] at hrest
        cases hrest
        exact .inr (.inr ⟨between, rfl, rfl⟩)

/-- Everything in a history is related to what came before it. -/
def Throughout (Q : History → Happening → Prop) (h : History) : Prop :=
  ∀ past x later, h = past ++ x :: later → Q past x

theorem Throughout.nil (Q : History → Happening → Prop) : Throughout Q [] := by
  intro past x later h
  exact absurd h.symm (List.append_ne_nil_of_right_ne_nil past (List.cons_ne_nil x later))

theorem Throughout.snoc {Q : History → Happening → Prop} {h : History} {x : Happening}
    (hbefore : Throughout Q h) (hx : Q h x) : Throughout Q (h ++ [x]) := by
  intro past y later heq
  rcases History.places heq with ⟨rfl, rfl, -⟩ | ⟨between, -, hnil⟩ | ⟨between, hinit, -⟩
  · exact hx
  · exact absurd hnil.symm (List.append_ne_nil_of_right_ne_nil between (List.cons_ne_nil y later))
  · exact hbefore past y between hinit

theorem Throughout.snoc_snoc {Q : History → Happening → Prop} {h : History} {x y : Happening}
    (hbefore : Throughout Q h) (hx : Q h x) (hy : Q (h ++ [x]) y) : Throughout Q (h ++ [x, y]) := by
  rw [show h ++ [x, y] = (h ++ [x]) ++ [y] by rw [List.append_assoc, List.singleton_append]]
  exact (hbefore.snoc hx).snoc hy

/-! ### Guest code -/

/-- What one call of a published operation may do to a context. -/
inductive Act : Context → Happening → Context → Prop where
  | called (c : Context) (record : CallRecord) : Act c (.called record) (c.recordCall record)
  | failed (c : Context) (message : String) (line : Option Int) :
      Act c (.failed message line) (c.reportHostError message line)
  | delayed (c : Context) (ticks : Int) (callback : Guest.Function) :
      Act c (.delayed c.delays.nextSeq ticks c.delays.counter callback) (c.scheduleDelay ticks callback)
  | awaited (c : Context) (now : Nat) (flag : Flag) (callback : Guest.Function) :
      Act c (.awaited c.completion.nextId flag callback) (c.startCompletion now flag callback)

/-- What guest code does to a context before it ends. -/
inductive Acts : Context → History → Context → Prop where
  | rest (c : Context) : Acts c [] c
  | more {c c' c'' : Context} {x : Happening} {h : History} : Act c x c' → Acts c' h c'' → Acts c (x :: h) c''

theorem Act.acts {c c' : Context} {x : Happening} (h : Act c x c') : Acts c [x] c' := .more h (.rest c')

theorem Acts.append {c c' c'' : Context} {h h' : History} (hfirst : Acts c h c') (hnext : Acts c' h' c'') :
    Acts c (h ++ h') c'' := by
  induction hfirst with
  | rest => exact hnext
  | more hact _ ih => exact .more hact (ih hnext)

/-! ### Outlines -/

structure Outline where
  context : Context
  errorReported : Bool
  deferred : Option String
  repeating : Option Repeating
  /-- Guest code is running. -/
  inGuest : Bool

/-- The outline of a scheduler between two of its parts, when no guest code is running. -/
def Scheduler.outline {σ : Type} (s : Scheduler σ) : Outline :=
  ⟨s.context, s.errorReported, s.deferred, s.repeating, false⟩

namespace Outline

def isRunning (o : Outline) : Bool :=
  o.inGuest ||
    !o.errorReported && (o.deferred.isSome || o.repeating.isSome || o.context.hasPendingWork)

/-- An armed source that a submission does not take the place of. -/
def beside (o : Outline) : Submission → Bool
  | .block _ => o.deferred.isSome || o.repeating.isSome
  | .once _ => o.repeating.isSome
  | .repeating _ _ => o.deferred.isSome

/-- A block starts. -/
def begun (o : Outline) (source : String) : Outline :=
  { o with context := o.context.beginAttempt source, errorReported := false, inGuest := true }

/-- Guest code ends in a fault. -/
def failed (o : Outline) (fault : Guest.Fault) : Outline :=
  let (message, line) := Scheduler.diagnose fault
  ⟨(o.context.reportGuestError message line).2.abortPending, true, none, none, false⟩

/-- The delay that the next tick resumes. -/
def dueDelay (o : Outline) : History :=
  o.context.delays.due?.toList.map fun d => .resumed (.delay d.seq) d.payload

/-- The completion wait that a poll resumes. -/
def dueWait (o : Outline) (now : Nat) (board : Board) : History :=
  (o.context.completion.due? now board.isRaised).toList.map fun wait =>
    .resumed (.completion wait.id) wait.callback

end Outline

inductive Move : Outline → History → Outline → Prop where
  | act {o : Outline} {x : Happening} {c : Context} :
      o.inGuest → Act o.context x c → Move o [x] { o with context := c }
  | finish (o : Outline) : Move o [] { o with inGuest := false }
  | fault {o : Outline} (fault : Guest.Fault) : o.inGuest → Move o [.faulted fault] (o.failed fault)
  | stop (o : Outline) (config : Config) (hasCheckers : Bool) :
      Move o [.stopped] ⟨.new config hasCheckers, false, none, none, false⟩
  | dismiss (o : Outline) : Move o [.dismissed] { o with context := o.context.dismissError }
  | elapse (o : Outline) (span : Nat) (board : Board) :
      Move o [.looked board] { o with context := o.context.elapse span board.isRaised }
  | block {o : Outline} (source : String) : ¬ o.isRunning →
      Move o [.submitted (.block source) (o.beside (.block source)),
        .began .atOnce source o.context.hasPendingWork] (o.begun source)
  | once {o : Outline} (source : String) : ¬ o.isRunning →
      Move o [.submitted (.once source) (o.beside (.once source))] { o with deferred := some source }
  | repeating {o : Outline} (source : String) (every : Nat) : ¬ o.isRunning →
      Move o [.submitted (.repeating source every) (o.beside (.repeating source every))]
        { o with repeating := some ⟨source, max every 1, max every 1 - 1⟩ }
  | tick (o : Outline) :
      Move o (.ticked :: o.dueDelay)
        { o with
          context := o.context.advanceDelays.2
          errorReported := false
          inGuest := o.context.delays.due?.isSome }
  | poll (o : Outline) (now : Nat) (board : Board) :
      Move o (.looked board :: o.dueWait now board)
        { o with
          context := (o.context.pollCompletion now board.isRaised).2
          inGuest := (o.context.completion.due? now board.isRaised).isSome }
  | deferred {o : Outline} {source : String} : o.deferred = some source →
      Move o [.began .deferred source o.context.hasPendingWork] ({ o with deferred := none }.begun source)
  | count {o : Outline} {r : Repeating} : o.repeating = some r →
      Move o [] { o with repeating := some { r with elapsed := r.elapsed + 1 } }
  | repeated {o : Outline} {r : Repeating} : o.repeating = some r → o.deferred = none →
      o.context.hasPendingWork = false →
      Move o [.began .repeated r.source false]
        ({ o with repeating := some { r with elapsed := 0 } }.begun r.source)

/-- A series of moves. -/
inductive Path : Outline → History → Outline → Prop where
  | nil (o : Outline) : Path o [] o
  | snoc {o o' o'' : Outline} {h h' : History} : Path o h o' → Move o' h' o'' → Path o (h ++ h') o''

namespace Path

theorem of_move {o o' : Outline} {h : History} (hmove : Move o h o') : Path o h o' :=
  List.nil_append h ▸ .snoc (.nil o) hmove

theorem append {o o' o'' : Outline} {h h' : History} (hfirst : Path o h o') (hnext : Path o' h' o'') :
    Path o (h ++ h') o'' := by
  induction hnext with
  | nil => rwa [List.append_nil]
  | snoc _ hmove ih =>
      rw [← List.append_assoc]
      exact .snoc ih hmove

/-- What guest code does is a path for as long as guest code is running. -/
theorem of_acts {o : Outline} {h : History} {c : Context} (hguest : o.inGuest) (hacts : Acts o.context h c) :
    Path o h { o with context := c } := by
  obtain ⟨context, errorReported, deferred, repeating, inGuest⟩ := o
  replace hacts : Acts context h c := hacts
  induction hacts with
  | rest => exact .nil _
  | more hact _ ih => exact (of_move (.act hguest hact)).append (ih hguest)

/-- What holds at the start and is kept by every move holds wherever a path leads. -/
theorem invariant {P : History → Outline → Prop} {o o' : Outline} {h : History} (hstart : P [] o)
    (hmove : ∀ past o h o', P past o → Move o h o' → P (past ++ h) o') (hpath : Path o h o') : P h o' := by
  induction hpath with
  | nil => exact hstart
  | snoc _ hnext ih => exact hmove _ _ _ _ ih hnext

end Path
end ScriptBridge
