import ScriptBridge.Proofs.Moves
import ScriptBridge.Proofs.SessionRules

/-! Guest code reaches a context through published operations only, and an operation records its call,
brings a failure to the surface, or makes a continuation wait. So whatever a guest run does to a context
is a series of such acts, however many calls its lookups make inside one another. -/

namespace ScriptBridge

variable {σ α β : Type}

/-- What a computation does to the context is a series of acts. -/
def SessionM.Acting (m : SessionM σ α) : Prop :=
  ∀ s, ∃ h, Acts s.bridge.context h (m s).2.bridge.context

open SessionM (Acting Compositional)

namespace SessionM.Acting

theorem of_context_eq {m : SessionM σ α} (h : ∀ s, (m s).2.bridge.context = s.bridge.context) :
    Acting m := by
  intro s
  refine ⟨[], ?_⟩
  rw [h s]
  exact .rest _

theorem of_act {m : SessionM σ α} (h : ∀ s, ∃ x, Act s.bridge.context x (m s).2.bridge.context) :
    Acting m := by
  intro s
  obtain ⟨x, hact⟩ := h s
  exact ⟨[x], hact.acts⟩

theorem bind {m : SessionM σ α} {f : α → SessionM σ β} (hm : Acting m) (hf : ∀ a, Acting (f a)) :
    Acting (m >>= f) := by
  intro s
  obtain ⟨h, hfirst⟩ := hm s
  obtain ⟨h', hnext⟩ := hf (m s).1 (m s).2
  exact ⟨h ++ h', hfirst.append hnext⟩

/-- A guest run acts when every answer to its calls does. -/
theorem follow {answer : Answer σ} (hanswer : ∀ operation args line, Acting (answer operation args line))
    (run : Guest.Run α) (b : Bridge σ) :
    ∃ h, Acts b.context h (run.follow answer b).2.bridge.context := by
  induction run generalizing b with
  | finished result memory => exact ⟨[], .rest _⟩
  | call operation args line memory resume ih =>
      obtain ⟨h, hcall⟩ := hanswer operation args line ⟨memory, b⟩
      let answered := answer operation args line ⟨memory, b⟩
      obtain ⟨h', hrest⟩ := ih answered.1 answered.2.memory answered.2.bridge
      exact ⟨h ++ h', hcall.append hrest⟩

theorem runGuest {answer : Answer σ} (hanswer : ∀ operation args line, Acting (answer operation args line))
    (code : Guest.State → Guest.Run α) : Acting (Session.runGuest answer code) :=
  fun s => follow hanswer (code s.memory) s.bridge

/-- All that a call is put together from acts on the context. -/
theorem compositional : Compositional (σ := σ) Acting where
  pure _ := of_context_eq fun _ => rfl
  bind := bind
  read _ hread := fun s => hread s s
  note _ := of_context_eq fun _ => rfl
  askHost _ := of_context_eq fun _ => rfl
  onMemory _ := of_context_eq fun _ => rfl
  recordCall record := of_act fun s => ⟨_, .called s.bridge.context record⟩
  reportHostError message line := of_act fun s => ⟨_, .failed s.bridge.context message line⟩
  scheduleDelay ticks callback := of_act fun s => ⟨_, .delayed s.bridge.context ticks callback⟩
  startCompletion now flag callback := of_act fun s => ⟨_, .awaited s.bridge.context now flag callback⟩
  runGuest := runGuest

end SessionM.Acting

/-- Looking things up and asking for objects acts on the context. -/
structure Access.Acting (access : Access (SessionM σ)) : Prop where
  lookup : ∀ address key, SessionM.Acting (access.lookup address key)
  entity : ∀ name, SessionM.Acting (access.entity name)

theorem Access.Acting.arguments {access : Access (SessionM σ)} (h : access.Acting) (registry : Registry σ)
    (signature : Signature) (params : List Parameter) (args : List Guest.Value) :
    SessionM.Acting (Invocation.arguments access registry signature params args) :=
  SessionM.Acting.compositional.arguments h.lookup h.entity registry signature params args

namespace Environment

theorem acting_access (e : Embedding σ) {answer : Answer σ}
    (hanswer : ∀ operation args line, Acting (answer operation args line)) : (access e answer).Acting where
  lookup := Acting.compositional.lookup e hanswer
  entity _ := Acting.compositional.askHost _

theorem acting_answerWithin (e : Embedding σ) (registry : Registry σ) (depth operation : Nat)
    (args : List Guest.Value) (line : Option Nat) :
    Acting (answerWithin e registry depth operation args line) :=
  Acting.compositional.answerWithin e registry depth operation args line

theorem acting_answer (e : Embedding σ) (registry : Registry σ) (operation : Nat) (args : List Guest.Value)
    (line : Option Nat) : Acting (answer e registry operation args line) :=
  acting_answerWithin e registry nestingLimit operation args line

end Environment
end ScriptBridge
