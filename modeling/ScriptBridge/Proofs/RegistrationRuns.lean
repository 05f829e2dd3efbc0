import Mathlib.Data.List.Induction
import ScriptBridge.Proofs.PublishedListing

/-! Registrations one after another. An operation is offered to an environment step by step, so what was
written before a rejection would stay; but all that can be rejected is checked before the first write. The
listing keeps one signature for each accepted name, at the place of the first acceptance and with the
contents of the last. -/

namespace ScriptBridge

namespace Environment

variable {σ : Type}

/-! ### Offering one operation -/

/-- Computations over an environment that may be rejected; what was changed before a rejection stays changed. -/
abbrev OfferM (σ : Type) := ExceptT RegistrationError (StateM (Environment σ))

/-- Checks an operation. -/
def check (operation : Operation (Handler σ)) : OfferM σ (Signature × Handler σ) :=
  ExceptT.mk (pure operation.validate)

/-- Keeps what carries out an operation, and gives the number it is kept under. -/
def keep (signature : Signature) (handler : Handler σ) : OfferM σ Nat :=
  modifyGet fun s =>
    (s.registry.published.size,
      { s with registry := { s.registry with published := s.registry.published.push (signature, handler) } })

/-- Binds the function of that number to the operation's name. -/
def bindName (signature : Signature) (number : Nat) : OfferM σ Unit :=
  modify fun s =>
    { s with session.memory := Registry.bindAt signature.path (.function (.published number)) s.session.memory }

/-- Puts the signature into the listing. -/
def list (signature : Signature) : OfferM σ Unit :=
  modify fun s =>
    { registry := { s.registry with signatures := Registry.enlist signature s.registry.signatures }
      session := ⟨s.session.memory, s.session.bridge.note (s.registry.acceptRemarks signature)⟩ }

/-- Offers an operation, one write after another. -/
def offer (operation : Operation (Handler σ)) : OfferM σ Unit := do
  let (signature, handler) ← check operation
  let number ← keep signature handler
  bindName signature number
  list signature

/-- After the check no step can be rejected any more. -/
theorem offer_eq (operation : Operation (Handler σ)) (s : Environment σ) :
    (offer operation).run s =
      match operation.validate with
      | .ok (signature, handler) => (do
          let number ← keep signature handler
          bindName signature number
          list signature : OfferM σ Unit).run s
      | .error fault => (.error fault, s) := by
  unfold offer check
  cases operation.validate <;> rfl

/-- Offering step by step comes to what registering at once does. -/
theorem offer_run (operation : Operation (Handler σ)) (s : Environment σ) :
    (offer operation).run s =
      match s.registry.register? operation s.session.memory with
      | .ok (registry, memory) =>
        (.ok (), ⟨registry, memory, s.session.bridge.note (s.registry.registerRemarks operation)⟩)
      | .error fault => (.error fault, s) := by
  rw [offer_eq, Registry.register?, Registry.registerRemarks]
  cases operation.validate <;> rfl

/-- A rejection is a broken rule of the signature, and it leaves no trace; an acceptance leaves the context
as it was. -/
theorem offer_spec (operation : Operation (Handler σ)) (s : Environment σ) :
    match operation.validate with
    | .error fault => (offer operation).run s = (.error fault, s)
    | .ok (signature, handler) => ∃ after, (offer operation).run s = (.ok (), after) ∧
        after.registry = { s.registry with
          signatures := Registry.enlist signature s.registry.signatures
          published := s.registry.published.push (signature, handler) } ∧
        after.session.memory =
          Registry.bindAt signature.path (.function (.published s.registry.published.size)) s.session.memory ∧
        after.session.bridge.context = s.session.bridge.context := by
  rw [offer_run, Registry.register?]
  cases operation.validate with
  | error fault => rfl
  | ok valid => exact ⟨_, rfl, rfl, rfl, rfl⟩

/-! ### Offering many -/

/-- What happens to an environment. -/
inductive Step (σ : Type) where
  | offered (operation : Operation (Handler σ))
  /-- Something else goes on in the session. -/
  | meanwhile (change : Session σ → Session σ)

def Step.perform : Step σ → Environment σ → Environment σ
  | offered operation, s => ((offer operation).run s).2
  | meanwhile change, s => { s with session := change s.session }

def proceed (steps : List (Step σ)) (s : Environment σ) : Environment σ :=
  steps.foldl (fun s step => step.perform s) s

/-- The operations that are offered, in order. -/
def offers (steps : List (Step σ)) : List (Operation (Handler σ)) :=
  steps.filterMap fun
    | .offered operation => some operation
    | .meanwhile _ => none

/-- A step enlists what it has accepted, and nothing else. -/
theorem perform_signatures (step : Step σ) (s : Environment σ) :
    (step.perform s).registry.signatures =
      Registry.enlistEach (Registry.accepted (offers [step])) s.registry.signatures := by
  cases step with
  | meanwhile change => rfl
  | offered operation =>
      have hspec := offer_spec operation s
      have haccepted : Registry.accepted (offers [.offered operation]) = operation.validate.toOption.toList := by
        show [operation].filterMap (fun operation => operation.validate.toOption) = _
        rw [List.filterMap_cons, List.filterMap_nil]
        cases operation.validate <;> rfl
      rw [haccepted, Step.perform]
      cases hvalid : operation.validate with
      | error fault =>
          rw [hvalid] at hspec
          rw [hspec]
          rfl
      | ok valid =>
          rw [hvalid] at hspec
          obtain ⟨after, hrun, hregistry, -⟩ := hspec
          rw [hrun, hregistry]
          rfl

theorem proceed_signatures (steps : List (Step σ)) (s : Environment σ) :
    (proceed steps s).registry.signatures =
      Registry.enlistEach (Registry.accepted (offers steps)) s.registry.signatures := by
  induction steps generalizing s with
  | nil => rfl
  | cons step rest ih =>
      have hsplit : Registry.accepted (offers (step :: rest)) =
          Registry.accepted (offers [step]) ++ Registry.accepted (offers rest) := by
        simp only [Registry.accepted, offers, ← List.filterMap_append, List.singleton_append]
      rw [hsplit, Registry.enlistEach, List.foldl_append]
      exact (ih (step.perform s)).trans (congrArg _ (perform_signatures step s))

end Environment

/-! ### The order of the listing -/

namespace Registry

variable {σ : Type}

/-- A name that is listed stays where it is, another one comes last. -/
theorem names_enlist (signature : Signature) (signatures : List Signature) :
    (enlist signature signatures).map Signature.name =
      if signature.name ∈ signatures.map Signature.name then signatures.map Signature.name
      else signatures.map Signature.name ++ [signature.name] := by
  induction signatures with
  | nil => rfl
  | cons first rest ih =>
      rw [enlist]
      by_cases hname : first.name = signature.name
      · rw [if_pos hname, List.map_cons, List.map_cons, hname, if_pos List.mem_cons_self]
      · rw [if_neg hname, List.map_cons, List.map_cons, ih]
        simp only [List.mem_cons, Ne.symm hname, false_or]
        split <;> rfl

/-- Of one name more, only a new one is kept. -/
theorem eraseDups_snoc (names : List String) (name : String) :
    (names ++ [name]).eraseDups =
      if name ∈ names.eraseDups then names.eraseDups else names.eraseDups ++ [name] := by
  rw [List.eraseDups_append]
  by_cases hseen : name ∈ names
  · simp [List.removeAll, hseen, List.mem_eraseDups.mpr hseen]
  · simp [List.removeAll, hseen, mt List.mem_eraseDups.mp hseen, List.eraseDups_cons]

/-- The names of a listing come in the order in which each was accepted first. -/
theorem names_enlistEach (registrations : List (Signature × Handler σ)) :
    (enlistEach registrations []).map Signature.name =
      (registrations.map fun registration => registration.1.name).eraseDups := by
  induction registrations using List.reverseRecOn with
  | nil => rfl
  | append_singleton before registration ih =>
      have hlast : enlistEach (before ++ [registration]) [] =
          enlist registration.1 (enlistEach before []) := List.foldl_append
      rw [hlast, names_enlist, ih, List.map_append, List.map_singleton, eraseDups_snoc]

end Registry

namespace Environment

variable {σ : Type}

/-- **The listing follows the acceptances, and a rejection leaves no trace.** However operations are offered
one after another, and whatever else goes on in the session between them, the listing has each accepted name
once, in the order in which the names were accepted first, with the signature that was accepted last under
that name. An operation is rejected for just the rule its signature breaks, wherever it is offered, and then
the registry, the guest's memory with all its tables, and the context with its call history are what they
were. -/
theorem registrations_listed (config : Config) (session : Session σ) (steps : List (Step σ)) :
    let listed := (proceed steps ⟨.new config, session⟩).registry.signatures
    let accepted := Registry.accepted (offers steps)
    listed.map Signature.name = (accepted.map fun registration => registration.1.name).eraseDups ∧
      (listed.map Signature.name).Nodup ∧
      (∀ signature, signature ∈ listed ↔ ∃ before handler after,
        accepted = before ++ (signature, handler) :: after ∧
          ∀ later ∈ after, later.1.name ≠ signature.name) ∧
      ∀ operation (s : Environment σ) fault,
        (((offer operation).run s).1 = .error fault ↔ operation.validate = .error fault) ∧
          (operation.validate = .error fault → ((offer operation).run s).2 = s) := by
  intro listed accepted
  have hlisted : listed = Registry.enlistEach accepted [] := proceed_signatures steps _
  have hnone : (([] : List Signature).map Signature.name).Nodup := List.nodup_nil
  refine ⟨?_, ?_, fun signature => ?_, fun operation s fault => ?_⟩
  · rw [hlisted]
    exact Registry.names_enlistEach accepted
  · rw [hlisted]
    exact Registry.enlistEach_nodup accepted hnone
  · rw [hlisted, Registry.mem_enlistEach accepted hnone]
    simp
  · have hspec := offer_spec operation s
    cases hvalid : operation.validate with
    | error broken =>
        rw [hvalid] at hspec
        rw [hspec]
        exact ⟨by simp, fun _ => rfl⟩
    | ok valid =>
        rw [hvalid] at hspec
        obtain ⟨after, hrun, -⟩ := hspec
        rw [hrun]
        simp

/-- A broken name is passed over, and an operation offered again changes what is listed at its place. -/
example :
    let sown (returns : Kind) : Operation (Handler Unit) :=
      ⟨⟨"Garden.Sow", [], returns, false⟩, some (.builtin .getType)⟩
    let built := proceed [.offered (sown .int), .offered (Registry.returning "Garden..Dig" 2),
      .offered (Registry.returning "Garden.Reap" 3), .offered (sown .string)]
      ⟨.new .standard, ⟨.initial, ⟨.new .standard false, ⟨(), .empty⟩, 0, #[]⟩⟩⟩
    built.registry.signatures.map Signature.display =
      ["Garden.Sow() -> String", "Garden.Reap() -> Int32"] := by
  decide +kernel

end Environment
end ScriptBridge
