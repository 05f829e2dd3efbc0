import ScriptBridge.Environment
import ScriptBridge.Guest.Interpreter
import ScriptBridge.Proofs.NameTrees

/-! Which published operations can be called. Every accepted registration binds a function of its own to its
name and takes the place of an earlier one of the same name in the listing. Nothing keeps a later
registration from writing over a name that another one needs, so a listed operation can be out of reach: just
when a later registration ends at a place on the way to it. Among names that led nowhere before, these are
the registrations whose names begin with its name or begin it. -/

namespace ScriptBridge

open Guest (State)

theorem Text.pieces_ne_nil (separator : Char) (text : List Char) : Text.pieces separator text ≠ [] := by
  cases text with
  | nil => exact List.cons_ne_nil _ _
  | cons c rest =>
      rw [Text.pieces]
      split
      · exact List.cons_ne_nil _ _
      · split
        · exact List.cons_ne_nil _ _
        · exact List.cons_ne_nil _ _

theorem Signature.path_ne_nil (signature : Signature) : signature.path ≠ [] :=
  fun h => Text.pieces_ne_nil _ _ (List.map_eq_nil_iff.mp h)

namespace Registry

variable {σ : Type} {s base : State} {first n : Nat} {path : List String} {signature d : Signature}
  {registration : Signature × Handler σ} {registrations before after : List (Signature × Handler σ)}
  {signatures : List Signature} {label : Nat → List String}

/-- The registrations that are accepted, in order. -/
def accepted (operations : List (Operation (Handler σ))) : List (Signature × Handler σ) :=
  operations.filterMap fun operation => operation.validate.toOption

/-- The memory after registrations numbered from `first` on were bound to their names. -/
def bindEach (first : Nat) : List (Signature × Handler σ) → State → State
  | [], memory => memory
  | registration :: rest, memory =>
    bindEach (first + 1) rest (bindAt registration.1.path (.function (.published first)) memory)

/-- A listing after registrations. -/
def enlistEach (registrations : List (Signature × Handler σ)) (signatures : List Signature) : List Signature :=
  registrations.foldl (fun signatures registration => enlist registration.1 signatures) signatures

theorem publish_eq (operations : List (Operation (Handler σ))) (r : Registry σ) (memory : State) :
    (Environment.publish operations r memory).2.2 =
      ({ r with
          signatures := enlistEach (accepted operations) r.signatures
          published := r.published ++ (accepted operations).toArray },
        bindEach r.published.size (accepted operations) memory) := by
  induction operations generalizing r memory with
  | nil => simp [Environment.publish, accepted, enlistEach, bindEach]
  | cons operation rest ih =>
      rw [Environment.publish]
      cases hvalid : operation.validate with
      | error fault =>
          have hregister : r.register operation memory = (false, r, memory) := by
            rw [register, register?, hvalid]
            rfl
          have haccepted : accepted (operation :: rest) = accepted rest := by
            rw [accepted, List.filterMap_cons, hvalid]
            rfl
          rw [hregister, haccepted]
          exact ih r memory
      | ok valid =>
          obtain ⟨signature, handler⟩ := valid
          have hregister : r.register operation memory =
              (true, { r with
                signatures := enlist signature r.signatures
                published := r.published.push (signature, handler) },
              bindAt signature.path (.function (.published r.published.size)) memory) := by
            rw [register, register?, hvalid]
            rfl
          have haccepted : accepted (operation :: rest) = (signature, handler) :: accepted rest := by
            rw [accepted, List.filterMap_cons, hvalid]
            rfl
          rw [hregister, haccepted]
          refine (ih _ _).trans ?_
          simp [enlistEach, bindEach]

/-! ### The listing -/

theorem mem_enlist (h : (signatures.map Signature.name).Nodup) :
    d ∈ enlist signature signatures ↔ d = signature ∨ d ∈ signatures ∧ d.name ≠ signature.name := by
  induction signatures with
  | nil => simp [enlist]
  | cons first rest ih =>
      obtain ⟨hfirst, hrest⟩ := List.nodup_cons.mp h
      rw [enlist]
      split
      · rename_i hname
        have hothers : ∀ other ∈ rest, other.name ≠ signature.name := fun other hother heq =>
          hfirst (hname ▸ heq ▸ List.mem_map_of_mem hother)
        rw [List.mem_cons, List.mem_cons]
        refine or_congr_right ⟨fun hd => ⟨.inr hd, hothers d hd⟩, fun ⟨hd, hne⟩ => ?_⟩
        exact hd.resolve_left fun heq => hne (heq ▸ hname)
      · rename_i hname
        rw [List.mem_cons, List.mem_cons, ih hrest]
        constructor
        · rintro (rfl | rfl | ⟨hd, hne⟩)
          · exact .inr ⟨.inl rfl, hname⟩
          · exact .inl rfl
          · exact .inr ⟨.inr hd, hne⟩
        · rintro (rfl | ⟨rfl | hd, hne⟩)
          · exact .inr (.inl rfl)
          · exact .inl rfl
          · exact .inr (.inr ⟨hd, hne⟩)

theorem enlist_nodup (h : (signatures.map Signature.name).Nodup) :
    ((enlist signature signatures).map Signature.name).Nodup := by
  induction signatures with
  | nil => exact List.pairwise_singleton _ _
  | cons first rest ih =>
      obtain ⟨hfirst, hrest⟩ := List.nodup_cons.mp h
      rw [enlist]
      split
      · rename_i hname
        exact List.nodup_cons.mpr ⟨hname ▸ hfirst, hrest⟩
      · rename_i hname
        refine List.nodup_cons.mpr ⟨fun hmem => ?_, ih hrest⟩
        obtain ⟨other, hother, heq⟩ := List.mem_map.mp hmem
        rcases (mem_enlist hrest).mp hother with rfl | ⟨hother, -⟩
        · exact hname heq.symm
        · exact hfirst (heq ▸ List.mem_map_of_mem hother)

theorem enlistEach_nodup (registrations : List (Signature × Handler σ))
    (h : (signatures.map Signature.name).Nodup) :
    ((enlistEach registrations signatures).map Signature.name).Nodup := by
  induction registrations generalizing signatures with
  | nil => exact h
  | cons registration rest ih => exact ih (enlist_nodup h)

/-- A signature is listed for the last registration of its name. -/
theorem mem_enlistEach (registrations : List (Signature × Handler σ))
    (h : (signatures.map Signature.name).Nodup) :
    d ∈ enlistEach registrations signatures ↔
      (∃ before handler after, registrations = before ++ (d, handler) :: after ∧
        ∀ later ∈ after, later.1.name ≠ d.name) ∨
      d ∈ signatures ∧ ∀ later ∈ registrations, later.1.name ≠ d.name := by
  induction registrations generalizing signatures with
  | nil => simp [enlistEach]
  | cons registration rest ih =>
      refine (ih (enlist_nodup h)).trans ?_
      rw [mem_enlist h, List.forall_mem_cons]
      constructor
      · rintro (⟨before, handler, after, rfl, hafter⟩ | ⟨rfl | ⟨hd, hne⟩, hrest⟩)
        · exact .inl ⟨registration :: before, handler, after, rfl, hafter⟩
        · exact .inl ⟨[], registration.2, rest, rfl, hrest⟩
        · exact .inr ⟨hd, hne.symm, hrest⟩
      · rintro (⟨before, handler, after, hsplit, hafter⟩ | ⟨hd, hne, hrest⟩)
        · cases before with
          | nil =>
              obtain ⟨rfl, rfl⟩ := List.cons.inj hsplit
              exact .inr ⟨.inl rfl, hafter⟩
          | cons other before =>
              obtain ⟨-, rfl⟩ := List.cons.inj hsplit
              exact .inl ⟨before, handler, after, rfl, hafter⟩
        · exact .inr ⟨.inr ⟨hd, hne.symm⟩, hrest⟩

/-! ### Bindings one after another -/

theorem wrote_bindAt (hs : s.Closed) (n : Nat) (hpath : path ≠ []) :
    State.Wrote s (bindAt path (.function (.published n)) s) n (s.lastPlace State.globals path) := by
  rw [State.bindAt_eq n hpath]
  obtain ⟨name, rest, rfl⟩ := List.exists_cons_of_ne_nil hpath
  exact State.wrote_bindBelow hs hs.globals_lt n name rest

theorem follow_bindAt_iff (hs : s.Closed) (n : Nat) (hpath : path ≠ []) :
    (bindAt path (.function (.published n)) s).follow (.table State.globals) path = .function (.published n) ↔
      State.Lands s path := by
  rw [State.bindAt_eq n hpath]
  obtain ⟨name, rest, rfl⟩ := List.exists_cons_of_ne_nil hpath
  exact State.follow_bindBelow_iff hs hs.globals_lt n name rest

theorem closed_bindAt (hs : s.Closed) (n : Nat) (hpath : path ≠ []) :
    (bindAt path (.function (.published n)) s).Closed := by
  rw [State.bindAt_eq n hpath]
  obtain ⟨name, rest, rfl⟩ := List.exists_cons_of_ne_nil hpath
  exact hs.bindBelow hs.globals_lt n name rest

theorem exists_chart_bindAt (h : State.Chart base s label) (hs : s.Closed) (n : Nat) (hpath : path ≠ []) :
    ∃ label, State.Chart base (bindAt path (.function (.published n)) s) label := by
  rw [State.bindAt_eq n hpath]
  obtain ⟨name, rest, rfl⟩ := List.exists_cons_of_ne_nil hpath
  exact h.bindBelow hs hs.globals_lt n name rest

theorem closed_bindEach (hs : s.Closed) (first : Nat) (registrations : List (Signature × Handler σ)) :
    (bindEach first registrations s).Closed := by
  induction registrations generalizing s first with
  | nil => exact hs
  | cons registration rest ih => exact ih (closed_bindAt hs first registration.1.path_ne_nil) (first + 1)

theorem exists_chart_bindEach (h : State.Chart base s label) (hs : s.Closed) (first : Nat)
    (registrations : List (Signature × Handler σ)) :
    ∃ label, State.Chart base (bindEach first registrations s) label := by
  induction registrations generalizing s first label with
  | nil => exact ⟨label, h⟩
  | cons registration rest ih =>
      have hpath := registration.1.path_ne_nil
      obtain ⟨label, hbound⟩ := exists_chart_bindAt h hs first hpath
      exact ih hbound (closed_bindAt hs first hpath) (first + 1)

theorem bindEach_append (first : Nat) (before after : List (Signature × Handler σ)) (s : State) :
    bindEach first (before ++ after) s = bindEach (first + before.length) after (bindEach first before s) := by
  induction before generalizing first s with
  | nil => rfl
  | cons registration rest ih =>
      rw [List.cons_append, bindEach, ih, bindEach, List.length_cons, Nat.add_right_comm, Nat.add_assoc]

theorem grown_bindEach {start : State} {number : Nat} (h : State.Grown number start s) (hs : s.Closed)
    (hfirst : number ≤ first) (registrations : List (Signature × Handler σ)) :
    State.Grown number start (bindEach first registrations s) := by
  induction registrations generalizing s first with
  | nil => exact h
  | cons registration rest ih =>
      have hpath := registration.1.path_ne_nil
      exact ih (h.wrote (wrote_bindAt hs first hpath) hfirst) (closed_bindAt hs first hpath)
        (Nat.le_succ_of_le hfirst)

/-- A function that is not where it was bound does not come back. -/
theorem lost_bindEach (hs : s.Closed) (hn : n < first)
    (hlost : s.follow (.table State.globals) path ≠ .function (.published n))
    (registrations : List (Signature × Handler σ)) :
    (bindEach first registrations s).follow (.table State.globals) path ≠ .function (.published n) := by
  have hgrown := grown_bindEach (.refl first s) hs (Nat.le_refl first) registrations
  rcases hgrown.follow hs hs.globals_lt path with hsame | hnew
  · rwa [hsame]
  · intro heq
    rw [heq] at hnew
    cases hnew with
    | function h => omega

/-- No registration ends at a place on the path as it leads when it is made. -/
def Spares (first : Nat) (s : State) (registrations : List (Signature × Handler σ)) (path : List String) : Prop :=
  ∀ before registration after, registrations = before ++ registration :: after →
    (bindEach first before s).lastPlace State.globals registration.1.path ∉
      (bindEach first before s).places State.globals path

theorem spares_cons : Spares first s (registration :: registrations) path ↔
    s.lastPlace State.globals registration.1.path ∉ s.places State.globals path ∧
      Spares (first + 1) (bindAt registration.1.path (.function (.published first)) s) registrations path := by
  constructor
  · intro h
    refine ⟨h [] registration registrations rfl, fun before other after hsplit => ?_⟩
    exact h (registration :: before) other after (by rw [hsplit]; rfl)
  · rintro ⟨hfirst, hrest⟩ before other after hsplit
    cases before with
    | nil =>
        obtain ⟨rfl, rfl⟩ := List.cons.inj hsplit
        exact hfirst
    | cons _ before =>
        obtain ⟨rfl, rfl⟩ := List.cons.inj hsplit
        exact hrest before other after rfl

/-- A function stays where it is bound just when every registration spares its path. -/
theorem follow_bindEach_iff (hs : s.Closed) (hn : n < first)
    (hbound : s.follow (.table State.globals) path = .function (.published n))
    (registrations : List (Signature × Handler σ)) :
    (bindEach first registrations s).follow (.table State.globals) path = .function (.published n) ↔
      Spares first s registrations path := by
  induction registrations generalizing s first with
  | nil => exact iff_of_true hbound fun before _ _ h => by cases before <;> cases h
  | cons registration rest ih =>
      have hpath := registration.1.path_ne_nil
      have hclosed := closed_bindAt hs first hpath
      rw [spares_cons]
      rcases (wrote_bindAt hs first hpath).follow hs hs.globals_lt path with ⟨hspared, hsame⟩ | ⟨hhit, hnew⟩
      · rw [and_iff_right hspared]
        exact ih hclosed (Nat.lt_succ_of_lt hn) (hsame.trans hbound)
      · have hlost : (bindAt registration.1.path (.function (.published first)) s).follow
            (.table State.globals) path ≠ .function (.published n) := by
          intro heq
          rw [heq] at hnew
          cases hnew with
          | function h => omega
        exact iff_of_false (lost_bindEach hclosed (Nat.lt_succ_of_lt hn) hlost rest) fun h => h.1 hhit

/-- A registration under an overlapping name takes a function away from its name. -/
theorem overlapped_bindEach (hs : s.Closed) (hn : n < first) (hmem : registration ∈ registrations)
    (hoverlap : State.Overlap registration.1.path path) :
    (bindEach first registrations s).follow (.table State.globals) path ≠ .function (.published n) := by
  intro hend
  obtain ⟨before, after, rfl⟩ := List.append_of_mem hmem
  rw [bindEach_append] at hend
  have hclosed := closed_bindEach hs first before
  have hnumber : n < first + before.length := Nat.lt_add_right _ hn
  have hbound : (bindEach first before s).follow (.table State.globals) path = .function (.published n) :=
    Decidable.byContradiction fun hlost => lost_bindEach hclosed hnumber hlost (registration :: after) hend
  have hspares := (follow_bindEach_iff hclosed hnumber hbound (registration :: after)).mp hend
  exact (spares_cons.mp hspares).1
    (State.lastPlace_mem_places hoverlap registration.1.path_ne_nil hbound)

/-- Registrations under free names that do not overlap with a free path spare it. -/
theorem spares_of_free (h : State.Chart base s label) (hs : s.Closed) (hfree : State.Free base path)
    (hbound : s.follow (.table State.globals) path = .function (.published n))
    (hothers : ∀ registration ∈ registrations, State.Free base registration.1.path ∧
      ¬ State.Overlap registration.1.path path) : Spares first s registrations path := by
  induction registrations generalizing s first label with
  | nil => exact fun before _ _ h => by cases before <;> cases h
  | cons registration rest ih =>
      have hpath := registration.1.path_ne_nil
      obtain ⟨hother, hapart⟩ := hothers registration List.mem_cons_self
      have hspared : s.lastPlace State.globals registration.1.path ∉ s.places State.globals path :=
        fun hmem => hapart (State.overlap_of_mem_places h hother hpath hfree hbound hmem)
      obtain ⟨label, hchart⟩ := exists_chart_bindAt h hs first hpath
      have hsame := ((wrote_bindAt hs first hpath).follow hs hs.globals_lt path).resolve_right
        fun hhit => hspared hhit.1
      exact spares_cons.mpr ⟨hspared, ih hchart (closed_bindAt hs first hpath) (hsame.2.trans hbound)
        fun registration hmem => hothers registration (List.mem_cons_of_mem _ hmem)⟩

/-- A function is where it was bound at the end just when it came there and was spared since. -/
theorem follow_bindEach_cons_iff (hs : s.Closed) (first : Nat) (registration : Signature × Handler σ)
    (rest : List (Signature × Handler σ)) :
    (bindEach first (registration :: rest) s).follow (.table State.globals) registration.1.path =
        .function (.published first) ↔
      State.Lands s registration.1.path ∧
        Spares (first + 1) (bindEach first [registration] s) rest registration.1.path := by
  have hpath := registration.1.path_ne_nil
  have hclosed := closed_bindAt hs first hpath
  change (bindEach (first + 1) rest (bindAt _ _ s)).follow _ _ = _ ↔ _ ∧ Spares _ (bindAt _ _ s) rest _
  rw [← follow_bindAt_iff hs first hpath]
  constructor
  · intro hend
    have hbound := Decidable.byContradiction fun hlost =>
      lost_bindEach hclosed (Nat.lt_succ_self _) hlost rest hend
    exact ⟨hbound, (follow_bindEach_iff hclosed (Nat.lt_succ_self _) hbound rest).mp hend⟩
  · rintro ⟨hbound, hspares⟩
    exact (follow_bindEach_iff hclosed (Nat.lt_succ_self _) hbound rest).mpr hspares

/-- Among free names that is just when no later one overlaps. -/
theorem follow_bindEach_cons_of_free (h : State.Chart base s label) (hs : s.Closed) (first : Nat)
    (registration : Signature × Handler σ) (rest : List (Signature × Handler σ))
    (hfree : State.Free base registration.1.path) (hothers : ∀ later ∈ rest, State.Free base later.1.path) :
    (bindEach first (registration :: rest) s).follow (.table State.globals) registration.1.path =
        .function (.published first) ↔
      ∀ later ∈ rest, ¬ State.Overlap later.1.path registration.1.path := by
  have hpath := registration.1.path_ne_nil
  have hclosed := closed_bindAt hs first hpath
  refine ⟨fun hend later hlater hoverlap => ?_, fun hapart => ?_⟩
  · exact overlapped_bindEach hclosed (Nat.lt_succ_self first) hlater hoverlap hend
  · have hlands : State.Lands s registration.1.path := State.lands_of_free h hfree hpath
    have hbound := (follow_bindAt_iff hs first hpath).mpr hlands
    obtain ⟨label, hchart⟩ := exists_chart_bindAt h hs first hpath
    exact (follow_bindEach_cons_iff hs first registration rest).mpr
      ⟨hlands, spares_of_free hchart hclosed hfree hbound
        fun later hlater => ⟨hothers later hlater, hapart later hlater⟩⟩

end Registry

/-! ### Calls -/

namespace Guest

theorem apply_published (n : Nat) (args : List Value) (s : State) :
    Engine.standard.apply (.published n) args s =
      .call n args none s fun value s => .finished (.ok [value]) s := rfl

end Guest

namespace Environment

variable {σ : Type}

/-- How the arguments of a call that guest code makes are looked into. -/
def lookups (e : Embedding σ) (registry : Registry σ) : Access (SessionM σ) :=
  access e (answerWithin e registry (nestingLimit - 1))

theorem answer_of_published (e : Embedding σ) {registry : Registry σ} {n : Nat} {signature : Signature}
    {handler : Handler σ} (hpublished : registry.published[n]? = some (signature, handler))
    (args : List Guest.Value) (line : Option Nat) :
    answer e registry n args line =
      Invocation.invoke e.host (lookups e registry) registry signature handler args line := by
  show answerThrough e registry (lookups e registry) n args line = _
  rw [answerThrough, hpublished]

/-- A call by the path to a published function is a call of its operation. -/
theorem callPath_published {s : Session σ} {registry : Registry σ} {path : String} {n : Nat} {d : Signature}
    {handler : Handler σ} (hpath : s.memory.atPath path = .function (.published n))
    (hpublished : registry.published[n]? = some (d, handler)) (host : Host σ) (hasCheckers : Bool)
    (args : List Guest.Value) :
    let e : Embedding σ := ⟨.standard, host, hasCheckers⟩
    let called := Invocation.invoke host (access e (answerWithin e registry (nestingLimit - 1))) registry d handler
      args none s
    callPath e registry path args s = (.returned [Guest.View.of called.2.memory called.1], called.2) := by
  intro e called
  have hrun : Session.runGuest (answer e registry) (e.engine.apply (.published n) args) s =
      (.ok [called.1], called.2) := by
    change (Guest.Engine.standard.apply (.published n) args s.memory).follow (answer e registry) s.bridge = _
    rw [Guest.apply_published, Guest.Run.follow, answer_of_published e hpublished]
    rfl
  simp only [callPath, bind, StateT.bind, get, getThe, MonadStateOf.get, StateT.get, pure, hpath, hrun]
  rfl

end Environment

/-! ### A fresh memory -/

namespace Guest.State

variable {s : State}

theorem Closed.setGlobal (hs : s.Closed) {v : Value} (hv : v.isNil = false) (name : String)
    (hinner : ∀ inner, v = .table inner → inner < s.tables.size) : (s.setGlobal name v).Closed :=
  hs.rawSet hs.globals_lt hv hinner

theorem Closed.tableAlong (hs : s.Closed) (name : String) :
    (s.tableAlong globals [name]).2.Closed ∧
      (s.tableAlong globals [name]).1 < (s.tableAlong globals [name]).2.tables.size := by
  rw [State.tableAlong]
  split
  · rename_i inner hinner
    exact ⟨hs, hs.named_lt hinner⟩
  · exact ⟨hs.nest name hs.globals_lt, lt_size_nest s globals name⟩

theorem Closed.bindLibrary (hs : s.Closed) {address : Nat} (ha : address < s.tables.size) (qualifier : String)
    (names : List String) : (bindLibrary qualifier address s names).Closed := by
  induction names generalizing s with
  | nil => exact hs
  | cons name rest ih =>
      refine ih (hs.rawSet ha rfl fun _ h => nomatch h) ?_
      rw [size_rawSet]
      exact ha

theorem Closed.foldl {α : Type} {step : State → α → State} (hstep : ∀ s, s.Closed → ∀ x, (step s x).Closed)
    (xs : List α) (hs : s.Closed) : (xs.foldl step s).Closed := by
  induction xs generalizing s with
  | nil => exact hs
  | cons x rest ih => exact ih (hstep s hs x)

theorem named_bare (address : Nat) (name : String) :
    (⟨#[.empty, .empty], #[], #[], #[], #[], 0, #[], none⟩ : State).named address name = .nil := by
  match address with
  | 0 | 1 | _ + 2 => rfl

/-- The memory that holds nothing but the library. -/
theorem initial_closed : State.initial.Closed := by
  rw [State.initial]
  refine Closed.foldl (fun s hs owned => ?_) _ (Closed.foldl (fun s hs f => ?_) _ ?_)
  · obtain ⟨hclosed, ha⟩ := hs.tableAlong owned.1
    exact hclosed.bindLibrary ha _ owned.2
  · exact hs.setGlobal rfl f.name fun _ h => nomatch h
  · have hbare : (⟨#[.empty, .empty], #[], #[], #[], #[], 0, #[], none⟩ : State).Closed :=
      ⟨by decide, fun {address name inner} h => by rw [named_bare] at h; cases h⟩
    have hself := hbare.setGlobal (v := .table globals) rfl "_G" fun inner h =>
      Value.table.inj h ▸ hbare.globals_lt
    have hversion := hself.setGlobal (v := .text "Lua 5.4") rfl "_VERSION" fun _ h => nomatch h
    refine hversion.setGlobal rfl "string" fun inner h => ?_
    obtain rfl := Value.table.inj h
    rw [State.setGlobal, State.setGlobal, size_rawSet, size_rawSet]
    decide

end Guest.State

namespace Registry

variable {σ : Type}

/-- Described operations and what has become of them. The listing holds one signature per name, that of the
name's last registration. The function of a registration is at its name in the end just when the path came
to its last place once and no later registration ended at a place on it; then a call by that path carries
out the registration's handler. A later name that overlaps always takes it away, and among names that led
to no table before only such a name does. -/
theorem described_operations (config : Config) (s₀ : State) (hs : s₀.Closed)
    (operations : List (Operation (Handler σ))) :
    let built := (Environment.publish operations (Registry.new config) s₀).2.2
    (built.1.signatures.map Signature.name).Nodup ∧
    (∀ d, d ∈ built.1.signatures ↔ ∃ before handler after,
      accepted operations = before ++ (d, handler) :: after ∧ ∀ later ∈ after, later.1.name ≠ d.name) ∧
    ∀ before d handler after, accepted operations = before ++ (d, handler) :: after →
      let here := bindEach 0 before s₀
      let own : Guest.Value := .function (.published before.length)
      (built.2.atPath d.name = own ↔ State.Lands here d.path ∧
        Spares (before.length + 1) (bindEach before.length [(d, handler)] here) after d.path) ∧
      ((∃ later ∈ after, State.Overlap later.1.path d.path) → built.2.atPath d.name ≠ own) ∧
      (State.Free s₀ d.path → (∀ later ∈ after, State.Free s₀ later.1.path) →
        (built.2.atPath d.name = own ↔ ∀ later ∈ after, ¬ State.Overlap later.1.path d.path)) ∧
      ∀ (host : Host σ) (hasCheckers : Bool) (args : List Guest.Value) (bridge : Bridge σ),
        let e : Embedding σ := ⟨.standard, host, hasCheckers⟩
        let inside := Environment.access e (Environment.answerWithin e built.1 (Environment.nestingLimit - 1))
        let called := Invocation.invoke host inside built.1 d handler args none ⟨built.2, bridge⟩
        built.2.atPath d.name = own → Environment.callPath e built.1 d.name args ⟨built.2, bridge⟩ =
          (.returned [Guest.View.of called.2.memory called.1], called.2) := by
  intro built
  have hbuilt : built = _ := publish_eq operations (Registry.new config) s₀
  have hnone : (([] : List Signature).map Signature.name).Nodup := List.nodup_nil
  refine ⟨?_, fun d => ?_, ?_⟩
  · rw [hbuilt]
    exact enlistEach_nodup _ hnone
  · rw [hbuilt]
    exact (mem_enlistEach _ hnone).trans (or_iff_left fun h => List.not_mem_nil h.1)
  · intro before d handler after hsplit here own
    have hhere : here.Closed := closed_bindEach hs 0 before
    have hmemory : built.2 = bindEach before.length ((d, handler) :: after) here := by
      rw [hbuilt, hsplit]
      exact (bindEach_append 0 before _ s₀).trans (by rw [Nat.zero_add])
    have hpublished : built.1.published[before.length]? = some (d, handler) := by
      rw [hbuilt, hsplit]
      simp [Registry.new]
    refine ⟨?_, fun ⟨later, hlater, hoverlap⟩ => ?_, fun hfree hothers => ?_, fun host hasCheckers args bridge => ?_⟩
    · rw [hmemory]
      exact follow_bindEach_cons_iff hhere before.length (d, handler) after
    · rw [hmemory]
      have hlost := overlapped_bindEach (closed_bindAt hhere before.length d.path_ne_nil)
        (Nat.lt_succ_self before.length) hlater hoverlap
      exact hlost
    · rw [hmemory]
      obtain ⟨label, hchart⟩ := exists_chart_bindEach (.start s₀) hs 0 before
      exact follow_bindEach_cons_of_free hchart hhere before.length (d, handler) after hfree hothers
    · intro e inside called hreached
      exact Environment.callPath_published hreached hpublished host hasCheckers args

/-- An operation without parameters that returns a number. -/
def returning (name : String) (i : Int64) : Operation (Handler Unit) :=
  ⟨⟨name, [], .int, false⟩, some (.host fun _ => pure (.ok (.int i)))⟩

theorem free_initial (rest : List String) : State.Free State.initial ("Garden" :: rest) := by
  have hnil : State.initial.named State.globals "Garden" = .nil := by decide +kernel
  intro name hname inner hinner
  obtain rfl := Option.some.inj hname
  rw [hnil] at hinner
  cases hinner

theorem siblings_reached :
    let siblings := [returning "Garden.Sow" 1, returning "Garden.Reap" 2]
    let built := (Environment.publish siblings (Registry.new .standard) State.initial).2.2
    State.initial.Closed ∧ built.2.atPath "Garden.Sow" = .function (.published 0) := by
  intro siblings built
  obtain ⟨-, -, hreached⟩ := described_operations .standard State.initial State.initial_closed siblings
  obtain ⟨-, -, hfree, -⟩ := hreached [] _ _ [_] rfl
  refine ⟨State.initial_closed, (hfree (free_initial ["Sow"]) fun later hlater => ?_).mpr fun later hlater => ?_⟩
  · rw [List.mem_singleton.mp hlater]
    exact free_initial ["Reap"]
  · rw [List.mem_singleton.mp hlater]
    rintro (h | h)
    · exact absurd h (by decide)
    · exact absurd h (by decide)

/-- Both names are listed, but the first leads nowhere any more. -/
theorem unbound_by_prefix :
    let built := (Environment.publish [returning "Garden.Sow" 1, returning "Garden" 2] (Registry.new .standard)
      State.initial).2.2
    built.1.signatures.map Signature.name = ["Garden.Sow", "Garden"] ∧ built.2.atPath "Garden.Sow" = .nil :=
  ⟨rfl, by decide +kernel⟩

end Registry
end ScriptBridge
