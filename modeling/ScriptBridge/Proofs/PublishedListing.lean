import Mathlib.Data.List.Nodup
import ScriptBridge.Proofs.ExactImages
import ScriptBridge.Proofs.TablePaths

/-! What guest code finds of the listing. It is published in the table that the pieces of the root lead to,
and its entries hold all that signatures say of returned values and parameters. Two things keep it from being
an image of the listed operations: an empty root has one piece, an empty name, so the listing is not where the
operations of such a root are; and an operation whose name is another's under the root has the other's key, of
which only the later one's entry is left. -/

namespace ScriptBridge

open Guest (State Table)

/-! ### Names and keys -/

namespace Text

theorem dropStart?_eq_some_iff {start text rest : List Char} :
    dropStart? start text = some rest ↔ text = start ++ rest := by
  rw [dropStart?]
  constructor
  · intro h
    split at h
    · rename_i hstart
      calc text = text.take start.length ++ text.drop start.length := (List.take_append_drop _ _).symm
        _ = start ++ rest := by rw [hstart, Option.some.inj h]
    · cases h
  · rintro rfl
    rw [if_pos List.take_left, List.drop_left]

theorem pieces_append (separator : Char) (text rest : List Char) :
    pieces separator (text ++ separator :: rest) = pieces separator text ++ pieces separator rest := by
  induction text with
  | nil => simp [pieces]
  | cons c text ih =>
      rw [List.cons_append, pieces, pieces, ih]
      split
      · rfl
      · obtain ⟨piece, more, hpieces⟩ := List.exists_cons_of_ne_nil (pieces_ne_nil separator text)
        rw [hpieces]
        rfl

theorem pieces_of_not_mem {separator : Char} {text : List Char} (h : separator ∉ text) :
    pieces separator text = [text] := by
  induction text with
  | nil => rfl
  | cons c text ih =>
      obtain ⟨hfirst, hrest⟩ := not_or.mp (mt List.mem_cons.mpr h)
      rw [pieces, if_neg (Ne.symm hfirst), ih hrest]

theorem splitAt_of_not_mem {separator : Char} {text : String} (h : separator ∉ text.toList) :
    splitAt separator text = [text] := by
  rw [splitAt, pieces_of_not_mem h, List.map_singleton, String.ofList_toList]

end Text

variable {root name other : String}

theorem qualify_empty (name : String) : qualify "" name = name := rfl

theorem qualify_of_ne (h : root ≠ "") (name : String) : qualify root name = root ++ "." ++ name := by
  rw [qualify, if_neg fun hempty => h (String.isEmpty_iff.mp hempty)]

/-- A name under the root is found through the table of the root. -/
theorem splitAt_qualify (h : root ≠ "") (hname : '.' ∉ name.toList) :
    Text.splitAt '.' (qualify root name) = Text.splitAt '.' root ++ [name] := by
  have htext : (root ++ "." ++ name).toList = root.toList ++ '.' :: name.toList := by simp
  rw [qualify_of_ne h, Text.splitAt, htext, Text.pieces_append, List.map_append, ← Text.splitAt,
    ← Text.splitAt, Text.splitAt_of_not_mem hname]

namespace Registry

theorem introspectionKey_qualify (h : root ≠ "") (name : String) :
    introspectionKey root (qualify root name) = name := by
  have htext : (root ++ "." ++ name).toList = (root ++ ".").toList ++ name.toList := String.toList_append ..
  rw [introspectionKey, if_neg fun hempty => h (String.isEmpty_iff.mp hempty), qualify_of_ne h,
    Text.dropStart?_eq_some_iff.mpr htext]
  exact String.ofList_toList

theorem eq_key_or_eq_qualify (root name : String) :
    name = introspectionKey root name ∨ root ≠ "" ∧ name = qualify root (introspectionKey root name) := by
  rw [introspectionKey]
  split
  · exact .inl rfl
  · rename_i hempty
    have hroot : root ≠ "" := fun h => hempty (String.isEmpty_iff.mpr h)
    split
    · rename_i rest hrest
      refine .inr ⟨hroot, String.toList_injective ((Text.dropStart?_eq_some_iff.mp hrest).trans ?_)⟩
      rw [qualify_of_ne hroot]
      simp
    · exact .inl rfl

/-- One name is the other under the root, and the other is listed as it is. -/
def Covers (root name other : String) : Prop :=
  root ≠ "" ∧ name = qualify root other ∧ introspectionKey root other = other

/-- Two names have one key just when they are one name or one covers the other. -/
theorem introspectionKey_eq_iff : introspectionKey root name = introspectionKey root other ↔
    name = other ∨ Covers root name other ∨ Covers root other name := by
  constructor
  · intro h
    rcases eq_key_or_eq_qualify root name with hname | ⟨hroot, hname⟩
    · rcases eq_key_or_eq_qualify root other with hother | ⟨hroot, hother⟩
      · exact .inl (hname.trans (h.trans hother.symm))
      · exact .inr (.inr ⟨hroot, by rw [hname, h]; exact hother, hname.symm⟩)
    · rcases eq_key_or_eq_qualify root other with hother | ⟨-, hother⟩
      · exact .inr (.inl ⟨hroot, by rw [hother, ← h]; exact hname, hother.symm⟩)
      · exact .inl (by rw [hname, hother, h])
  · rintro (rfl | ⟨hroot, rfl, hkey⟩ | ⟨hroot, rfl, hkey⟩)
    · rfl
    · rw [introspectionKey_qualify hroot, hkey]
    · rw [introspectionKey_qualify hroot, hkey]

/-- A name under the root is not its own key, so no name covers itself. -/
theorem Covers.ne (h : Covers root name other) : name ≠ other := by
  obtain ⟨hroot, hname, hkey⟩ := h
  intro heq
  have hlength := congrArg (fun text => text.toList.length) (heq.symm.trans (hname.trans (qualify_of_ne hroot other)))
  simp only [String.toList_append, List.length_append] at hlength
  have hdot : ".".toList.length = 1 := rfl
  omega

/-! ### What entries say -/

/-- A table that says of a parameter what its declaration does. -/
structure DescribesParameter (s : State) (address : Nat) (p : Parameter) : Prop where
  name : s.named address "ArgName" = .text p.name
  kind : s.named address "ArgType" = .text p.kind.display
  isOptional : s.named address "IsOptional" = .bool p.isOptional
  default : s.named address "DefaultValue" = .text p.defaultText

/-- A table that says of an operation what its signature does, with a table for each parameter, in order. -/
structure Describes (s : State) (root : String) (address : Nat) (d : Signature) : Prop where
  key : s.named address "Name" = .text (introspectionKey root d.name)
  returns : s.named address "ReturnType" = .text d.returns.display
  arguments : ∃ list, s.named address "Arguments" = .table list ∧ (s.table list).IsSequence d.params.length ∧
    ∀ i p, d.params[i]? = some p →
      ∃ argument, s.rawGet list (Table.index (i + 1)) = .table argument ∧ DescribesParameter s argument p

/-- A table that lists signatures: its keys are theirs, and under each key stands what the last signature with
it says. -/
structure Lists (s : State) (root : String) (address : Nat) (signatures : List Signature) : Prop where
  keys : ∀ key, key ∈ (s.table address).entries.map Prod.fst ↔
    ∃ d ∈ signatures, key = .text (introspectionKey root d.name)
  describes : ∀ {before d after}, signatures = before ++ d :: after →
    (∀ later ∈ after, introspectionKey root later.name ≠ introspectionKey root d.name) →
      ∃ entry, s.named address (introspectionKey root d.name) = .table entry ∧ Describes s root entry d
  complete : (s.table address).entries.length = signatures.length ↔
    ∀ d ∈ signatures, ∀ other ∈ signatures, ¬ Covers root d.name other.name

section Entries

open Conversion

variable {σ : Type} {s : State} {first levels address : Nat} {image : Guest.Value} {p : Parameter} {d : Signature}
  {r : Registry σ} {signatures : List Signature}

theorem textual_parameterEntry (p : Parameter) : Textual 1 (.record (parameterEntry p)) := by
  have hkeys : ["ArgName", "ArgType", "DefaultValue", "IsOptional"].Pairwise (· < ·) := by decide
  refine ⟨List.pairwise_map.mp hkeys, fun field hfield => ?_⟩
  simp only [parameterEntry, List.mem_cons, List.not_mem_nil, or_false] at hfield
  rcases hfield with rfl | rfl | rfl | rfl
  all_goals trivial

theorem textual_signatureEntry (root : String) (h : d.params.length ≤ Table.greatestIndex) :
    Textual 3 (.record (signatureEntry root d)) := by
  have hkeys : ["Arguments", "Name", "ReturnType"].Pairwise (· < ·) := by decide
  refine ⟨List.pairwise_map.mp hkeys, fun field hfield => ?_⟩
  simp only [signatureEntry, List.mem_cons, List.not_mem_nil, or_false] at hfield
  rcases hfield with rfl | rfl | rfl
  · refine ⟨by rwa [List.length_map], fun item hitem => ?_⟩
    obtain ⟨p, -, rfl⟩ := List.mem_map.mp hitem
    exact textual_parameterEntry p
  · trivial
  · trivial

theorem textual_infoTable (h : ∀ d ∈ r.signatures, d.params.length ≤ Table.greatestIndex) :
    Textual 4 r.infoTable := by
  refine ⟨Value.inKeyOrder_fieldsOf _, fun field hfield => ?_⟩
  obtain ⟨d, hd, rfl⟩ := List.mem_map.mp (Value.mem_fieldsOf.mp hfield).mem
  exact textual_signatureEntry r.root (h d hd)

theorem describesParameter_of_shows (h : Shows s first 1 (.table address) (.record (parameterEntry p))) :
    DescribesParameter s address p where
  name := h.field (v := .str p.name) (by simp [parameterEntry])
  kind := h.field (v := .str p.kind.display) (by simp [parameterEntry])
  isOptional := h.field (v := .bool p.isOptional) (by simp [parameterEntry])
  default := h.field (v := .str p.defaultText) (by simp [parameterEntry])

theorem describes_of_shows (hlength : d.params.length ≤ Table.greatestIndex)
    (h : Shows s first 3 (.table address) (.record (signatureEntry root d))) : Describes s root address d where
  key := h.field (v := .str (introspectionKey root d.name)) (by simp [signatureEntry])
  returns := h.field (v := .str d.returns.display) (by simp [signatureEntry])
  arguments := by
    have hlist : Shows s first 2 (s.named address "Arguments")
        (.list (d.params.map fun p => .record (parameterEntry p))) := h.field (by simp [signatureEntry])
    obtain ⟨list, himage⟩ := Tabled.exists_table hlist
    rw [himage] at hlist
    refine ⟨list, himage, ?_, fun i p hp => ?_⟩
    · simpa using hlist.isSequence (by rwa [List.length_map])
    · have hitem := hlist.item (i := i) (v := .record (parameterEntry p)) (by rw [List.getElem?_map, hp]; rfl)
      obtain ⟨argument, hargument⟩ := Tabled.exists_table hitem
      rw [hargument] at hitem
      exact ⟨argument, hargument, describesParameter_of_shows hitem⟩

/-- The pairs a listing is made from. -/
def entriesOf (root : String) (signatures : List Signature) : List (String × Value) :=
  signatures.map fun d => (introspectionKey root d.name, .record (signatureEntry root d))

theorem keys_entriesOf (root : String) (signatures : List Signature) :
    (entriesOf root signatures).map Prod.fst = (signatures.map Signature.name).map (introspectionKey root) := by
  rw [entriesOf, List.map_map, List.map_map]
  rfl

/-- Different names have different keys just when none covers another. -/
theorem keys_nodup_iff (hnames : (signatures.map Signature.name).Nodup) :
    ((entriesOf root signatures).map Prod.fst).Nodup ↔
      ∀ d ∈ signatures, ∀ other ∈ signatures, ¬ Covers root d.name other.name := by
  rw [keys_entriesOf, List.nodup_map_iff_inj_on hnames]
  simp only [List.forall_mem_map]
  refine ⟨fun h d hd other hother hcovers => ?_, fun h d hd other hother heq => ?_⟩
  · exact hcovers.ne (h d hd other hother (introspectionKey_eq_iff.mpr (.inr (.inl hcovers))))
  · rcases introspectionKey_eq_iff.mp heq with hname | hcovers | hcovers
    · exact hname
    · exact absurd hcovers (h d hd other hother)
    · exact absurd hcovers (h other hother d hd)

theorem lists_of_shows (hnames : (r.signatures.map Signature.name).Nodup)
    (hlength : ∀ d ∈ r.signatures, d.params.length ≤ Table.greatestIndex)
    (h : Shows s first 4 (.table address) r.infoTable) : Lists s r.root address r.signatures := by
  change Shows s first 4 (.table address) (.record (Value.fieldsOf (entriesOf r.root r.signatures))) at h
  have hentries : (s.table address).entries.map Prod.fst =
      ((Value.fieldsOf (entriesOf r.root r.signatures)).map Prod.fst).map Guest.Value.text := by
    obtain ⟨_, himage, -, -, hfilled⟩ := h
    obtain rfl := Guest.Value.table.inj himage
    rw [← keys_keyed]
    exact Filled.keys (R := fun s => Shows s first 3) hfilled
  refine ⟨fun key => ?_, fun {before d after} hsplit hlast => ?_, ?_⟩
  · rw [hentries, List.mem_map]
    constructor
    · rintro ⟨_, hname, rfl⟩
      obtain ⟨_, hpair, rfl⟩ := List.mem_map.mp (Value.mem_keys_fieldsOf.mp hname)
      obtain ⟨d, hd, rfl⟩ := List.mem_map.mp hpair
      exact ⟨d, hd, rfl⟩
    · rintro ⟨d, hd, rfl⟩
      have hpair : (introspectionKey r.root d.name, .record (signatureEntry r.root d)) ∈
          entriesOf r.root r.signatures := List.mem_map_of_mem hd
      exact ⟨_, Value.mem_keys_fieldsOf.mpr (List.mem_map_of_mem hpair), rfl⟩
  · have hfield : (introspectionKey r.root d.name, .record (signatureEntry r.root d)) ∈
        Value.fieldsOf (entriesOf r.root r.signatures) := by
      refine Value.mem_fieldsOf.mpr ⟨entriesOf r.root before, entriesOf r.root after, ?_, fun q hq => ?_⟩
      · rw [hsplit, entriesOf, List.map_append, List.map_cons]
        rfl
      · obtain ⟨later, hlater, rfl⟩ := List.mem_map.mp hq
        exact hlast later hlater
    have hentry := h.field hfield
    obtain ⟨entry, himage⟩ := Tabled.exists_table hentry
    rw [himage] at hentry
    have hd : d ∈ r.signatures := hsplit ▸ List.mem_append_right _ List.mem_cons_self
    exact ⟨entry, himage, describes_of_shows (hlength d hd) hentry⟩
  · have hcount := congrArg List.length hentries
    simp only [List.length_map] at hcount
    rw [hcount, ← keys_nodup_iff hnames, ← Value.length_fieldsOf_iff, entriesOf, List.length_map]

end Entries

/-! ### Where the listing is -/

section Publication

open Guest.State (Ranked Vacant)

variable {σ : Type} {base memory : State} {rank : Nat → Nat} {r : Registry σ} {d : Signature} {handler : Handler σ}
  {operation : Operation (Handler σ)}

theorem publishIntrospection_spec (hlength : ∀ d ∈ r.signatures, d.params.length ≤ Table.greatestIndex)
    (memory : State) :
    ∃ made address, memory.Extends made ∧ memory.tables.size ≤ address ∧
      Conversion.Shows made memory.tables.size 4 (.table address) r.infoTable ∧
      r.publishIntrospection memory =
        let reached := made.tableAlong State.globals (Text.splitAt '.' r.root)
        (reached.2.rawSet reached.1 (.text "MethodsInfoTable") (.table address)).rawSet reached.1
          (.text "MethodsInfoString") (.text r.infoText) := by
  obtain ⟨hext, hshows⟩ := (textual_infoTable hlength).makes (Nat.le_refl _) memory (.refl memory)
  rw [publishIntrospection]
  generalize r.infoTable.toGuest memory = pair at hext hshows ⊢
  obtain ⟨image, made⟩ := pair
  obtain ⟨address, himage, hlow, -⟩ := id hshows
  obtain rfl : image = .table address := himage
  exact ⟨made, address, hext, hlow, hshows, rfl⟩

theorem listed_below_root (h : Ranked base memory (fun _ => False) rank)
    (htable : ∀ address, Vacant base (address, "MethodsInfoTable"))
    (htext : ∀ address, Vacant base (address, "MethodsInfoString"))
    (hnames : (r.signatures.map Signature.name).Nodup)
    (hlength : ∀ d ∈ r.signatures, d.params.length ≤ Table.greatestIndex) :
    let published := r.publishIntrospection memory
    ∃ address, memory.tables.size ≤ address ∧ Lists published r.root address r.signatures ∧
      published.follow (.table State.globals) (Text.splitAt '.' r.root ++ ["MethodsInfoTable"]) =
        .table address := by
  intro published
  obtain ⟨made, address, hext, hnew, hshows, hpublished⟩ := publishIntrospection_spec hlength memory
  have hgrown := h.grow hext
  obtain ⟨⟨rank, hmade⟩, hwalked⟩ := hgrown.tableAlong hgrown.globals_lt_size hgrown.globals_seen
    (Text.splitAt '.' r.root)
  have hpublished : published = _ := hpublished
  refine ⟨address, hnew, ?_, ?_⟩ <;> rw [hpublished]
  · refine lists_of_shows hnames hlength (hshows.of_kept (fun b hb hlt => ?_) ?_)
    · have hne : b ≠ (made.tableAlong State.globals (Text.splitAt '.' r.root)).1 :=
        fun heq => hwalked.seen ⟨heq ▸ hb, heq ▸ hlt⟩
      rw [State.table_rawSet_of_ne hne, State.table_rawSet_of_ne hne]
      exact hwalked.hidden_kept ⟨hb, hlt⟩
    · rw [State.size_rawSet, State.size_rawSet]
      exact hwalked.size_le
  · exact hmade.follow_rawSet hwalked.lt_size hwalked.seen hwalked.follow_eq (htable _) (htext _) rfl rfl (by decide)

/-- Below an empty root the globals only get a table under the empty name. -/
theorem globals_kept (h : Ranked base memory (fun _ => False) rank) (hroot : r.root = "")
    (hempty : Vacant base (State.globals, ""))
    (hlength : ∀ d ∈ r.signatures, d.params.length ≤ Table.greatestIndex) {name : String} (hname : name ≠ "") :
    (r.publishIntrospection memory).named State.globals name = memory.named State.globals name := by
  obtain ⟨made, address, hext, -, -, hpublished⟩ := publishIntrospection_spec hlength memory
  have hpath : Text.splitAt '.' r.root = [""] := by rw [hroot]; rfl
  rw [hpath] at hpublished
  have hgrown := h.grow hext
  obtain ⟨⟨rank, hmade⟩, hwalked⟩ := hgrown.tableAlong hgrown.globals_lt_size hgrown.globals_seen [""]
  have hne : State.globals ≠ (made.tableAlong State.globals [""]).1 := by
    have hlink := hwalked.follow_eq
    rw [State.follow_cons] at hlink
    obtain ⟨-, -, hnew⟩ := hmade.link hmade.globals_seen hlink
    exact Nat.ne_of_lt (Nat.lt_of_lt_of_le hmade.globals_lt (hnew hempty).1)
  have hold : (r.publishIntrospection memory).table State.globals =
      (made.tableAlong State.globals [""]).2.table State.globals := by
    rw [hpublished]
    exact (State.table_rawSet_of_ne hne).trans (State.table_rawSet_of_ne hne)
  calc (r.publishIntrospection memory).named State.globals name
      = (made.tableAlong State.globals [""]).2.named State.globals name :=
        congrArg (fun t => Table.get t (.text name)) hold
    _ = made.named State.globals name := by
        rcases (made.named State.globals "").table_or_not with ⟨inner, hinner⟩ | hnot
        · rw [State.tableAlong_of_table hinner]
          rfl
        · rw [State.tableAlong_of_not_table hnot]
          refine (State.named_nest hgrown.globals_lt_size (State.globals, name)).trans (if_neg fun heq => ?_)
          exact hname (Prod.mk.inj heq).2
    _ = memory.named State.globals name :=
        congrArg (fun t => Table.get t (.text name)) (hext.table_eq State.globals h.globals_lt_size)

/-! ### Listings of fresh environments -/

theorem signature_of_validate (h : operation.validate = .ok (d, handler)) : operation.signature = d := by
  rw [Operation.validate] at h
  split at h
  · cases h
  · split at h
    · cases h
    · split at h
      · exact (Prod.mk.inj (Except.ok.inj h)).1
      · cases h

/-- What is listed was offered. -/
theorem exists_operation_of_listed {operations : List (Operation (Handler σ))}
    (h : d ∈ enlistEach (accepted operations) []) : ∃ operation ∈ operations, operation.signature = d := by
  have hnames : (([] : List Signature).map Signature.name).Nodup := List.nodup_nil
  rcases (mem_enlistEach _ hnames).mp h with ⟨before, handler, after, hsplit, -⟩ | ⟨hnone, -⟩
  · have hmem : (d, handler) ∈ accepted operations := hsplit ▸ List.mem_append_right _ List.mem_cons_self
    obtain ⟨operation, hoperation, hvalid⟩ := List.mem_filterMap.mp hmem
    cases hresult : operation.validate with
    | error fault =>
        rw [hresult] at hvalid
        cases hvalid
    | ok valid =>
        rw [hresult] at hvalid
        obtain rfl := Option.some.inj hvalid
        exact ⟨operation, hoperation, signature_of_validate hresult⟩
  · cases hnone

/-- Nothing in the library is called so. -/
theorem vacant_initial (h : State.initial.tables.all fun t => (t.get (.text name)).isNil) (address : Nat) :
    Vacant State.initial (address, name) := by
  intro inner hinner
  rcases Nat.lt_or_ge address State.initial.tables.size with hlt | hge
  · have hnil := Array.all_eq_true.mp h address hlt
    change Table.get (State.initial.tables[address]?.getD .empty) (.text name) = _ at hinner
    rw [Array.getElem?_eq_getElem hlt] at hinner
    rw [show State.initial.tables[address].get (.text name) = .table inner from hinner] at hnil
    cases hnil
  · exact State.vacant_of_size_le hge name inner hinner

/-- What is published of the listing in a fresh environment, before or after the settings. The listing is in
the table that the pieces of the root lead to, and says of the listed operations what their signatures do: an
entry is missing just when the name of one operation covers another's. It is where the operations of the
root are just when the root is not empty; else nothing new is found there. -/
theorem listing_published (config : Config) (operations : List (Operation (Handler σ)))
    (hlength : ∀ operation ∈ operations, operation.signature.params.length ≤ Table.greatestIndex) :
    let built := (Environment.publish operations (Registry.new config) State.initial).2.2
    ∀ memory, memory = built.2 ∨ memory = Environment.publishValues config built.2 →
      let published := built.1.publishIntrospection memory
      let place := qualify config.root "MethodsInfoTable"
      ∃ address, Lists published config.root address built.1.signatures ∧
        published.follow (.table State.globals) (Text.splitAt '.' config.root ++ ["MethodsInfoTable"]) =
          .table address ∧
        (published.atPath place = .table address ↔ config.root ≠ "") ∧
        (config.root = "" → published.atPath place = memory.atPath place) := by
  intro built memory hmemory published place
  have hbuilt : built = _ := publish_eq operations (Registry.new config) State.initial
  have hroot : built.1.root = config.root := by rw [hbuilt]; rfl
  have hnames : (built.1.signatures.map Signature.name).Nodup := by
    rw [hbuilt]
    exact enlistEach_nodup _ List.nodup_nil
  have hparams : ∀ d ∈ built.1.signatures, d.params.length ≤ Table.greatestIndex := by
    intro d hd
    rw [hbuilt] at hd
    obtain ⟨operation, hoperation, rfl⟩ := exists_operation_of_listed hd
    exact hlength operation hoperation
  obtain ⟨rank, hranked⟩ : ∃ rank, Ranked State.initial memory (fun _ => False) rank := by
    obtain ⟨rank, hbound⟩ := (Ranked.start State.initial_closed).bindEach 0 (accepted operations)
    have hstart : Ranked State.initial built.2 (fun _ => False) rank := by
      rw [hbuilt]
      exact hbound
    rcases hmemory with rfl | rfl
    · exact ⟨rank, hstart⟩
    · exact hstart.publishValues config
  obtain ⟨address, hnew, hlists, hplace⟩ := listed_below_root hranked (vacant_initial (by decide +kernel))
    (vacant_initial (by decide +kernel)) hnames hparams
  rw [hroot] at hlists hplace
  have hpath : config.root = "" → Text.splitAt '.' place = ["MethodsInfoTable"] := by
    intro hempty
    rw [show place = qualify config.root _ from rfl, hempty, qualify_empty]
    exact Text.splitAt_of_not_mem (by decide)
  have hkept : config.root = "" → published.atPath place = memory.atPath place := by
    intro hempty
    rw [State.atPath, State.atPath, hpath hempty]
    exact globals_kept hranked (hroot.trans hempty) (vacant_initial (by decide +kernel) _) hparams (by decide)
  refine ⟨address, hlists, hplace, ⟨fun hfound hempty => ?_, fun hsome => ?_⟩, hkept⟩
  · -- the listing is newer than anything the memory led to before
    rw [hkept hempty, State.atPath, hpath hempty] at hfound
    exact Nat.not_lt.mpr hnew (hranked.link id hfound).1
  · rw [State.atPath, show place = qualify config.root _ from rfl, splitAt_qualify hsome (by decide)]
    exact hplace

theorem both_siblings_listed :
    let siblings := [returning "Bridge.Sow" 1, returning "Bridge.Reap" 2]
    let built := (Environment.publish siblings (Registry.new .standard) State.initial).2.2
    (∀ operation ∈ siblings, operation.signature.params.length ≤ Table.greatestIndex) ∧
      ∃ address, (built.1.publishIntrospection built.2).atPath "Bridge.MethodsInfoTable" = .table address ∧
        ((built.1.publishIntrospection built.2).table address).entries.length = 2 := by
  intro siblings built
  have hlength : ∀ operation ∈ siblings, operation.signature.params.length ≤ Table.greatestIndex := by
    intro operation hoperation
    simp only [siblings, List.mem_cons, List.not_mem_nil, or_false] at hoperation
    rcases hoperation with rfl | rfl
    · exact Nat.zero_le _
    · exact Nat.zero_le _
  obtain ⟨address, hlists, -, hplace, -⟩ := listing_published .standard siblings hlength built.2 (.inl rfl)
  have hnames : ∀ d ∈ built.1.signatures, ∀ other ∈ built.1.signatures, d.name ≠ qualify "Bridge" other.name := by
    decide
  exact ⟨hlength, address, hplace.mpr (by decide),
    hlists.complete.mpr fun d hd other hother hcovers => hnames d hd other hother hcovers.2.1⟩

/-- With an empty root the listing is not found where the operations are, and of two operations of which one
is called as the other under the root it lists one. -/
theorem operations_missed :
    let plain := (Environment.publish [returning "Sow" 1] (Registry.new { Config.standard with root := "" })
      State.initial).2.2
    let covering := (Environment.publish [returning "Bridge.Sow" 1, returning "Sow" 2] (Registry.new .standard)
      State.initial).2.2
    plain.1.signatures.map Signature.name = ["Sow"] ∧
      (plain.1.publishIntrospection plain.2).atPath (qualify "" "MethodsInfoTable") = .nil ∧
      covering.1.signatures.map Signature.name = ["Bridge.Sow", "Sow"] ∧
      ∃ address, (covering.1.publishIntrospection covering.2).atPath "Bridge.MethodsInfoTable" = .table address ∧
        ((covering.1.publishIntrospection covering.2).table address).entries.map Prod.fst = [.text "Sow"] :=
  ⟨rfl, by decide +kernel, rfl, 12, by decide +kernel, by decide +kernel⟩

end Publication

end Registry
end ScriptBridge
