import ScriptBridge.Proofs.PublishedListing

/-! Which signatures are accepted. The rules are of the signature as a whole: its name is a dotted path of
identifiers, no two parameters have one name, defaults belong to optional parameters, and these come last. A
check goes through the parameters once and knows of those behind it only their names and whether one was
optional. That is enough to find the first parameter that breaks a rule, and of the rules it breaks the one
that is named. -/

namespace ScriptBridge

/-! ### Names -/

namespace Text

theorem intercalate_pieces (separator : Char) (text : List Char) :
    [separator].intercalate (pieces separator text) = text := by
  induction text with
  | nil => rfl
  | cons c rest ih =>
      obtain ⟨piece, more, hpieces⟩ := List.exists_cons_of_ne_nil (pieces_ne_nil separator rest)
      rw [hpieces] at ih
      rw [pieces, hpieces]
      split
      · rename_i heq
        rw [heq, List.intercalate_cons_cons, ih]
        rfl
      · cases more with
        | nil => simpa using ih
        | cons next more =>
            rw [List.intercalate_cons_cons] at ih ⊢
            rw [← ih]
            rfl

/-- Texts without the separator are found again between the separators. -/
theorem pieces_intercalate {separator : Char} {segments : List (List Char)} (hne : segments ≠ [])
    (h : ∀ segment ∈ segments, separator ∉ segment) :
    pieces separator ([separator].intercalate segments) = segments := by
  induction segments with
  | nil => exact absurd rfl hne
  | cons first rest ih =>
      obtain ⟨hfirst, hrest⟩ := List.forall_mem_cons.mp h
      cases rest with
      | nil => simpa using pieces_of_not_mem hfirst
      | cons next more =>
          rw [List.intercalate_cons_cons, List.append_assoc, List.singleton_append, pieces_append,
            pieces_of_not_mem hfirst, ih (List.cons_ne_nil _ _) hrest]
          rfl

end Text

/-- A letter of the Latin alphabet without marks, or an underscore. -/
def IsLetter (c : Char) : Prop := 'A' ≤ c ∧ c ≤ 'Z' ∨ 'a' ≤ c ∧ c ≤ 'z' ∨ c = '_'

def IsIdentifier (text : List Char) : Prop :=
  ∃ first rest, text = first :: rest ∧ IsLetter first ∧ ∀ c ∈ rest, IsLetter c ∨ '0' ≤ c ∧ c ≤ '9'

/-- One or more identifiers with dots between them. -/
def IsDottedName (name : String) : Prop :=
  ∃ segments : List (List Char), segments ≠ [] ∧ (∀ segment ∈ segments, IsIdentifier segment) ∧
    name.toList = ['.'].intercalate segments

theorem IsIdentifier.dot_not_mem {text : List Char} (h : IsIdentifier text) : '.' ∉ text := by
  obtain ⟨first, rest, rfl, hfirst, hrest⟩ := h
  intro hmem
  rcases List.mem_cons.mp hmem with rfl | hmem
  · revert hfirst
    unfold IsLetter
    decide
  · have hdot := hrest '.' hmem
    revert hdot
    unfold IsLetter
    decide

namespace Operation

theorem isIdentifierStart_iff {c : Char} : isIdentifierStart c = true ↔ IsLetter c := by
  have hupper : c.isUpper = decide ('A' ≤ c ∧ c ≤ 'Z') := rfl
  have hlower : c.isLower = (decide ('a' ≤ c) && decide (c ≤ 'z')) := rfl
  have hletter : isIdentifierStart c = (c.isUpper || c.isLower || decide (c = '_')) := rfl
  rw [hletter, hupper, hlower]
  simp only [Bool.or_eq_true, Bool.and_eq_true, decide_eq_true_eq, IsLetter, or_assoc]

theorem isDigit_iff {c : Char} : c.isDigit = true ↔ '0' ≤ c ∧ c ≤ '9' := by
  simp only [Char.isDigit, Bool.and_eq_true, decide_eq_true_eq, Char.le_def]

theorem isIdentifier_iff {text : List Char} : isIdentifier text = true ↔ IsIdentifier text := by
  cases text with
  | nil => simp [isIdentifier, IsIdentifier]
  | cons first rest =>
      simp [isIdentifier, IsIdentifier, isIdentifierStart_iff, isDigit_iff]

theorem isQualifiedName_iff {name : String} : isQualifiedName name = true ↔ IsDottedName name := by
  rw [isQualifiedName, List.all_eq_true]
  simp only [isIdentifier_iff]
  constructor
  · intro h
    exact ⟨_, Text.pieces_ne_nil _ _, h, (Text.intercalate_pieces _ _).symm⟩
  · rintro ⟨segments, hne, h, hname⟩
    rwa [hname, Text.pieces_intercalate hne fun segment hmem => (h segment hmem).dot_not_mem]

end Operation

/-! ### Parameters -/

/-- Parameters that go together. -/
structure Parameter.Agree (params : List Parameter) : Prop where
  distinct : (params.map Parameter.name).Nodup
  default_optional : ∀ p ∈ params, p.default.isSome = true → p.isOptional = true
  required_first : params.Pairwise fun p q => p.isOptional = true → q.isOptional = true

/-- What a parameter can do wrong. -/
inductive ParameterRule where
  | distinct
  | defaultOptional
  | requiredFirst

namespace ParameterRule

/-- A parameter breaks a rule, the parameters before it being given. -/
def BrokenBy (before : List Parameter) (p : Parameter) : ParameterRule → Prop
  | distinct => ∃ q ∈ before, q.name = p.name
  | defaultOptional => p.default.isSome = true ∧ p.isOptional = false
  | requiredFirst => p.isOptional = false ∧ ∃ q ∈ before, q.isOptional = true

/-- Of two broken rules the one of lower rank is named. -/
def rank : ParameterRule → Nat
  | distinct => 0
  | defaultOptional => 1
  | requiredFirst => 2

def fault (operation param : String) : ParameterRule → RegistrationError
  | distinct => .duplicateParameter operation param
  | defaultOptional => .defaultOnRequired operation param
  | requiredFirst => .requiredAfterOptional operation param

/-- The rule a parameter is rejected for. -/
def FirstBrokenBy (before : List Parameter) (p : Parameter) (rule : ParameterRule) : Prop :=
  rule.BrokenBy before p ∧ ∀ other : ParameterRule, other.rank < rule.rank → ¬ other.BrokenBy before p

/-- The rule a parameter is rejected for, from the names before it and whether an optional one was among
them. -/
def find? (earlier : List String) (optionalSeen : Bool) (p : Parameter) : Option ParameterRule :=
  if earlier.contains p.name then some distinct
  else if p.default.isSome && !p.isOptional then some defaultOptional
  else if optionalSeen && !p.isOptional then some requiredFirst
  else none

end ParameterRule

namespace Parameter

variable {before params : List Parameter} {p : Parameter}

/-- One more parameter goes with those before it when it breaks no rule. -/
theorem agree_snoc : Agree (before ++ [p]) ↔ Agree before ∧ ∀ rule : ParameterRule, ¬ rule.BrokenBy before p := by
  constructor
  · intro h
    obtain ⟨hnames, -, hnew⟩ := List.nodup_append.mp (List.map_append ▸ h.distinct)
    obtain ⟨horder, -, hlast⟩ := List.pairwise_append.mp h.required_first
    refine ⟨⟨hnames, fun q hq => h.default_optional q (List.mem_append_left _ hq), horder⟩, ?_⟩
    rintro (_ | _ | _)
    · rintro ⟨q, hq, hname⟩
      exact hnew q.name (List.mem_map_of_mem hq) p.name (by simp) hname
    · rintro ⟨hdefault, hrequired⟩
      have hoptional := h.default_optional p (by simp) hdefault
      rw [hrequired] at hoptional
      cases hoptional
    · rintro ⟨hrequired, q, hq, hoptional⟩
      have hlate := hlast q hq p (by simp) hoptional
      rw [hrequired] at hlate
      cases hlate
  · rintro ⟨h, hnone⟩
    constructor
    · rw [List.map_append, List.nodup_append]
      refine ⟨h.distinct, by simp, fun name hmem name' hmem' heq => ?_⟩
      obtain ⟨q, hq, rfl⟩ := List.mem_map.mp hmem
      exact hnone .distinct ⟨q, hq, heq.trans (by simpa using hmem')⟩
    · intro q hq hdefault
      rcases List.mem_append.mp hq with hq | hq
      · exact h.default_optional q hq hdefault
      · obtain rfl := List.mem_singleton.mp hq
        exact Bool.of_not_eq_false fun hrequired => hnone .defaultOptional ⟨hdefault, hrequired⟩
    · rw [List.pairwise_append]
      refine ⟨h.required_first, List.pairwise_singleton _ _, fun q hq q' hq' hoptional => ?_⟩
      obtain rfl := List.mem_singleton.mp hq'
      exact Bool.of_not_eq_false fun hrequired => hnone .requiredFirst ⟨hrequired, q, hq, hoptional⟩

theorem Agree.left (h : Agree (before ++ params)) : Agree before where
  distinct := (List.nodup_append.mp (List.map_append ▸ h.distinct)).1
  default_optional q hq := h.default_optional q (List.mem_append_left _ hq)
  required_first := (List.pairwise_append.mp h.required_first).1

end Parameter

namespace Operation

open Parameter (Agree)
open ParameterRule (BrokenBy FirstBrokenBy)

/-- What a check knows of the parameters behind it. -/
structure Recalls (before : List Parameter) (earlier : List String) (optionalSeen : Bool) : Prop where
  names : ∀ name, name ∈ earlier ↔ ∃ q ∈ before, q.name = name
  optional : optionalSeen = true ↔ ∃ q ∈ before, q.isOptional = true

variable {before mid after params : List Parameter} {earlier : List String} {optionalSeen : Bool}
  {name : String} {p : Parameter} {rule : ParameterRule}

theorem recalls_nil : Recalls [] [] false := ⟨by simp, by simp⟩

theorem Recalls.snoc (h : Recalls before earlier optionalSeen) (p : Parameter) :
    Recalls (before ++ [p]) (p.name :: earlier) (optionalSeen || p.isOptional) where
  names name := by
    rw [List.mem_cons, h.names]
    simp [or_and_right, exists_or, or_comm, eq_comm]
  optional := by
    rw [Bool.or_eq_true, h.optional]
    simp [or_and_right, exists_or]

/-! ### Going through the parameters -/

theorem findParameterFault_cons (name : String) (earlier : List String) (optionalSeen : Bool) (p : Parameter)
    (rest : List Parameter) :
    findParameterFault name earlier optionalSeen (p :: rest) =
      match ParameterRule.find? earlier optionalSeen p with
      | some rule => some (rule.fault name p.name)
      | none => findParameterFault name (p.name :: earlier) (optionalSeen || p.isOptional) rest := by
  rw [findParameterFault, ParameterRule.find?]
  split
  · rfl
  · split
    · rfl
    · split <;> rfl

/-- What is known of the parameters behind it is enough to tell which rule a parameter breaks. -/
theorem Recalls.find?_eq (h : Recalls before earlier optionalSeen) (p : Parameter) :
    match ParameterRule.find? earlier optionalSeen p with
    | some rule => FirstBrokenBy before p rule
    | none => ∀ rule, ¬ BrokenBy before p rule := by
  have hname : earlier.contains p.name = true ↔ BrokenBy before p .distinct := by
    rw [List.contains_iff_mem, h.names]
    rfl
  have hdefault : (p.default.isSome && !p.isOptional) = true ↔ BrokenBy before p .defaultOptional := by
    simp [BrokenBy]
  have horder : (optionalSeen && !p.isOptional) = true ↔ BrokenBy before p .requiredFirst := by
    rw [Bool.and_eq_true, h.optional, and_comm]
    simp [BrokenBy]
  rw [ParameterRule.find?]
  by_cases hrepeated : BrokenBy before p .distinct
  · rw [if_pos (hname.mpr hrepeated)]
    refine ⟨hrepeated, ?_⟩
    rintro (_ | _ | _) hrank <;> simp [ParameterRule.rank] at hrank
  rw [if_neg (mt hname.mp hrepeated)]
  by_cases hstray : BrokenBy before p .defaultOptional
  · rw [if_pos (hdefault.mpr hstray)]
    refine ⟨hstray, ?_⟩
    rintro (_ | _ | _) hrank
    · exact hrepeated
    all_goals simp [ParameterRule.rank] at hrank
  rw [if_neg (mt hdefault.mp hstray)]
  by_cases hlate : BrokenBy before p .requiredFirst
  · rw [if_pos (horder.mpr hlate)]
    refine ⟨hlate, ?_⟩
    rintro (_ | _ | _) hrank
    · exact hrepeated
    · exact hstray
    · simp [ParameterRule.rank] at hrank
  · rw [if_neg (mt horder.mp hlate)]
    rintro (_ | _ | _)
    · exact hrepeated
    · exact hstray
    · exact hlate

/-- The first fault is of the first parameter that breaks a rule. -/
theorem findParameterFault_eq (h : Recalls before earlier optionalSeen) (hagree : Agree before) (name : String)
    (params : List Parameter) :
    match findParameterFault name earlier optionalSeen params with
    | none => Agree (before ++ params)
    | some fault => ∃ mid p after rule, params = mid ++ p :: after ∧ Agree (before ++ mid) ∧
        FirstBrokenBy (before ++ mid) p rule ∧ fault = rule.fault name p.name := by
  induction params generalizing before earlier optionalSeen with
  | nil => rwa [findParameterFault, List.append_nil]
  | cons p rest ih =>
      have hfind := h.find?_eq p
      rw [findParameterFault_cons]
      cases hrule : ParameterRule.find? earlier optionalSeen p with
      | some rule =>
          rw [hrule] at hfind
          exact ⟨[], p, rest, rule, rfl, by rwa [List.append_nil], by rwa [List.append_nil], rfl⟩
      | none =>
          rw [hrule] at hfind
          have hnext := ih (h.snoc p) (Parameter.agree_snoc.mpr ⟨hagree, hfind⟩)
          revert hnext
          dsimp only
          cases findParameterFault name (p.name :: earlier) (optionalSeen || p.isOptional) rest with
          | none => exact fun hnext => by rwa [List.append_assoc] at hnext
          | some fault =>
              rintro ⟨mid, q, after, rule, rfl, hmid, hbroken, hfault⟩
              rw [List.append_assoc] at hmid hbroken
              exact ⟨p :: mid, q, after, rule, rfl, hmid, hbroken, hfault⟩

/-- Parameters that agree with those before them are passed by. -/
theorem findParameterFault_append (h : Recalls before earlier optionalSeen) (hagree : Agree (before ++ mid))
    (name : String) (params : List Parameter) : ∃ earlier' optionalSeen',
    Recalls (before ++ mid) earlier' optionalSeen' ∧
      findParameterFault name earlier optionalSeen (mid ++ params) =
        findParameterFault name earlier' optionalSeen' params := by
  induction mid generalizing before earlier optionalSeen with
  | nil => exact ⟨earlier, optionalSeen, by rwa [List.append_nil], rfl⟩
  | cons p rest ih =>
      rw [List.append_cons] at hagree ⊢
      obtain ⟨-, hnone⟩ := Parameter.agree_snoc.mp hagree.left
      have hfind := h.find?_eq p
      rw [List.cons_append, findParameterFault_cons]
      cases hrule : ParameterRule.find? earlier optionalSeen p with
      | some rule =>
          rw [hrule] at hfind
          exact absurd hfind.1 (hnone rule)
      | none => exact ih (h.snoc p) hagree

theorem findParameterFault_of_agree (hagree : Agree params) (name : String) :
    findParameterFault name [] false params = none := by
  obtain ⟨_, _, -, hsame⟩ := findParameterFault_append recalls_nil hagree name []
  rw [List.append_nil] at hsame
  exact hsame

/-- Two rules that a parameter is rejected for are one. -/
theorem firstBrokenBy_unique {rule rule' : ParameterRule} (h : FirstBrokenBy before p rule)
    (h' : FirstBrokenBy before p rule') : rule = rule' := by
  have hle : ¬ rule.rank < rule'.rank := fun hlt => h'.2 rule hlt h.1
  have hge : ¬ rule'.rank < rule.rank := fun hlt => h.2 rule' hlt h'.1
  cases rule <;> cases rule' <;> simp [ParameterRule.rank] at hle hge ⊢

theorem findParameterFault_of_broken (hagree : Agree mid) (hbroken : FirstBrokenBy mid p rule) (name : String)
    (after : List Parameter) :
    findParameterFault name [] false (mid ++ p :: after) = some (rule.fault name p.name) := by
  obtain ⟨earlier, optionalSeen, hrecalls, hsame⟩ :=
    findParameterFault_append recalls_nil hagree name (p :: after)
  have hfind := hrecalls.find?_eq p
  rw [hsame, findParameterFault_cons]
  cases hrule : ParameterRule.find? earlier optionalSeen p with
  | some rule' =>
      rw [hrule] at hfind
      rw [firstBrokenBy_unique hfind hbroken]
  | none =>
      rw [hrule] at hfind
      exact absurd hbroken.1 (hfind rule)

/-! ### Signatures -/

variable {α : Type}

/-- All rules of a signature are kept and something is attached to it. -/
structure WellFormed (operation : Operation α) : Prop where
  name : IsDottedName operation.signature.name
  params : Agree operation.signature.params
  attached : operation.handler.isSome = true

/-- What an operation is rejected for. -/
inductive Rejected (operation : Operation α) : RegistrationError → Prop where
  | name (hname : ¬ IsDottedName operation.signature.name) :
      Rejected operation (.invalidName operation.signature.name)
  /-- The parameters before the one that is named agree. -/
  | parameter (hname : IsDottedName operation.signature.name) {before after : List Parameter} {p : Parameter}
      {rule : ParameterRule} (hparams : operation.signature.params = before ++ p :: after)
      (hbefore : Agree before) (hbroken : FirstBrokenBy before p rule) :
      Rejected operation (rule.fault operation.signature.name p.name)
  | unattached (hname : IsDottedName operation.signature.name) (hparams : Agree operation.signature.params)
      (hhandler : operation.handler = none) : Rejected operation (.missingCallable operation.signature.name)

theorem validate_of_name {operation : Operation α} (h : ¬ IsDottedName operation.signature.name) :
    operation.validate = .error (.invalidName operation.signature.name) := by
  have hname : isQualifiedName operation.signature.name = false :=
    Bool.eq_false_iff.mpr (mt isQualifiedName_iff.mp h)
  rw [validate, hname]
  rfl

theorem validate_of_fault {operation : Operation α} (hname : IsDottedName operation.signature.name)
    {fault : RegistrationError}
    (h : findParameterFault operation.signature.name [] false operation.signature.params = some fault) :
    operation.validate = .error fault := by
  rw [validate, isQualifiedName_iff.mpr hname, h]
  rfl

theorem validate_of_no_fault {operation : Operation α} (hname : IsDottedName operation.signature.name)
    (h : findParameterFault operation.signature.name [] false operation.signature.params = none) :
    operation.validate = match operation.handler with
      | some handler => .ok (operation.signature, handler)
      | none => .error (.missingCallable operation.signature.name) := by
  rw [validate, isQualifiedName_iff.mpr hname, h]
  rfl

theorem Rejected.validate_eq {operation : Operation α} {fault : RegistrationError}
    (h : Rejected operation fault) : operation.validate = .error fault := by
  cases h with
  | name hname => exact validate_of_name hname
  | parameter hname hparams hbefore hbroken =>
      refine validate_of_fault hname ?_
      rw [hparams]
      exact findParameterFault_of_broken hbefore hbroken _ _
  | unattached hname hparams hhandler =>
      rw [validate_of_no_fault hname (findParameterFault_of_agree hparams _), hhandler]

theorem WellFormed.validate_eq {operation : Operation α} (h : operation.WellFormed) {handler : α}
    (hhandler : operation.handler = some handler) : operation.validate = .ok (operation.signature, handler) := by
  rw [validate_of_no_fault h.name (findParameterFault_of_agree h.params _), hhandler]

theorem rejected_or_wellFormed (operation : Operation α) :
    (∃ fault, Rejected operation fault) ∨ operation.WellFormed := by
  by_cases hname : IsDottedName operation.signature.name
  swap
  · exact .inl ⟨_, .name hname⟩
  have hparams := findParameterFault_eq recalls_nil ⟨.nil, by simp, .nil⟩ operation.signature.name
    operation.signature.params
  cases hfault : findParameterFault operation.signature.name [] false operation.signature.params with
  | some fault =>
      rw [hfault] at hparams
      obtain ⟨before, p, after, rule, hsplit, hbefore, hbroken, rfl⟩ := hparams
      exact .inl ⟨_, .parameter hname hsplit hbefore hbroken⟩
  | none =>
      rw [hfault] at hparams
      cases hhandler : operation.handler with
      | none => exact .inl ⟨_, .unattached hname hparams hhandler⟩
      | some handler => exact .inr ⟨hname, hparams, by rw [hhandler]; rfl⟩

/-- **Just the well-formed signatures are accepted.** An operation is accepted as it is when its name is a dotted
path of identifiers, its parameters have different names, carry defaults only where they are optional and come
with the required ones first, and something is attached. Otherwise it is rejected for its name, else for the
first parameter that breaks a rule and the first of the rules it breaks, else for having nothing attached. -/
theorem validate_iff (operation : Operation α) :
    (∀ signature handler, operation.validate = .ok (signature, handler) ↔
      operation.WellFormed ∧ signature = operation.signature ∧ operation.handler = some handler) ∧
    ∀ fault, operation.validate = .error fault ↔ Rejected operation fault := by
  refine ⟨fun signature handler => ⟨fun h => ?_, ?_⟩, fun fault => ⟨fun h => ?_, Rejected.validate_eq⟩⟩
  · rcases rejected_or_wellFormed operation with ⟨fault, hrejected⟩ | hwell
    · rw [hrejected.validate_eq] at h
      cases h
    · obtain ⟨attached, hattached⟩ := Option.isSome_iff_exists.mp hwell.attached
      rw [hwell.validate_eq hattached] at h
      cases h
      exact ⟨hwell, rfl, hattached⟩
  · rintro ⟨hwell, rfl, hhandler⟩
    exact hwell.validate_eq hhandler
  · rcases rejected_or_wellFormed operation with ⟨broken, hrejected⟩ | hwell
    · rw [hrejected.validate_eq] at h
      cases h
      exact hrejected
    · obtain ⟨attached, hattached⟩ := Option.isSome_iff_exists.mp hwell.attached
      rw [hwell.validate_eq hattached] at h
      cases h

/-- A parameter that breaks all three rules is named for its repeated name. -/
example :
    let depth : Parameter := ⟨"depth", .int, false, some (.int 3)⟩
    validate ⟨⟨"Garden.Dig", [.optional "depth" .int, depth], .nil, false⟩, (none : Option Unit)⟩ =
      .error (.duplicateParameter "Garden.Dig" "depth") := by
  rfl

end Operation
end ScriptBridge
