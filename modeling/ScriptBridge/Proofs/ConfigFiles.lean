import ScriptBridge.ConfigFile
import ScriptBridge.Proofs.TomlDocuments

/-! Configuration files. A configuration whose numbers can be written is found again in the file it was saved to;
any other is not saved, and what was there stays. A file may give any of the settings: it is loaded exactly if each
one it gives is of its own type, and the others keep their standard values. All this is so with any library that
can be relied on to read what it has written. -/

namespace ScriptBridge

open Toml (Entry Library Scalar)

namespace Config

/-! ### What a file gives -/

/-- The settings that a file gives. -/
structure Given where
  root : Option String
  historyCapacity : Option UInt64
  rebaseThreshold : Option Int64
  pollInterval : Option UInt64
  typeChecking : Option Bool
  autoConvert : Option Bool
  logConversions : Option Bool
  warnOnKindMismatch : Option Bool

/-- The settings that are given, and standard values for the others. -/
def Given.config (g : Given) : Config where
  root := g.root.getD standard.root
  historyCapacity := g.historyCapacity.getD standard.historyCapacity
  rebaseThreshold := g.rebaseThreshold.getD standard.rebaseThreshold
  pollInterval := g.pollInterval.getD standard.pollInterval
  typeChecking := g.typeChecking.getD standard.typeChecking
  autoConvert := g.autoConvert.getD standard.autoConvert
  logConversions := g.logConversions.getD standard.logConversions
  warnOnKindMismatch := g.warnOnKindMismatch.getD standard.warnOnKindMismatch

def IsText (s : String) (entry : Entry) : Prop := entry = .text s

def IsBool (b : Bool) (entry : Entry) : Prop := entry = .bool b

def IsInteger (i : Int64) (entry : Entry) : Prop := entry = .integer i

/-- A number that is not negative. -/
def IsNatural (n : UInt64) (entry : Entry) : Prop := ∃ i : Int64, entry = .integer i ∧ i.toInt = n.toNat

/-- Nothing is given, or an entry that stands for a value. -/
def Stands {α : Type} (is : α → Entry → Prop) : Option α → Option Entry → Prop
  | none, none => True
  | some a, some entry => is a entry
  | _, _ => False

/-- The settings are what a document says under their keys; there may be other keys. -/
structure Given.In (g : Given) (entries : String → Option Entry) : Prop where
  root : Stands IsText g.root (entries "namespace")
  historyCapacity : Stands IsNatural g.historyCapacity (entries "history_capacity")
  rebaseThreshold : Stands IsInteger g.rebaseThreshold (entries "rebase_threshold")
  pollInterval : Stands IsNatural g.pollInterval (entries "completion_poll_interval_ms")
  typeChecking : Stands IsBool g.typeChecking (entries "type_checking")
  autoConvert : Stands IsBool g.autoConvert (entries "auto_convert")
  logConversions : Stands IsBool g.logConversions (entries "log_conversions")
  warnOnKindMismatch : Stands IsBool g.warnOnKindMismatch (entries "warn_on_kind_mismatch")

/-! ### Loading -/

theorem textOf?_eq_some_iff (entry : Entry) (s : String) : textOf? entry = some s ↔ IsText s entry := by
  cases entry <;> simp [textOf?, IsText]

theorem boolOf?_eq_some_iff (entry : Entry) (b : Bool) : boolOf? entry = some b ↔ IsBool b entry := by
  cases entry <;> simp [boolOf?, IsBool]

theorem integerOf?_eq_some_iff (entry : Entry) (i : Int64) : integerOf? entry = some i ↔ IsInteger i entry := by
  cases entry <;> simp [integerOf?, IsInteger]

theorem naturalOf?_eq_some_iff (entry : Entry) (n : UInt64) : naturalOf? entry = some n ↔ IsNatural n entry := by
  cases entry with
  | integer i =>
      rw [naturalOf?, Option.ite_none_right_eq_some, Option.some.injEq]
      constructor
      · rintro ⟨hle, rfl⟩
        have hlt : i.toInt.toNat < 18446744073709551616 := by
          have hmax := i.toInt_lt
          omega
        refine ⟨i, rfl, ?_⟩
        rw [UInt64.toNat_ofNat_of_lt' hlt, Int.toNat_of_nonneg hle]
      · rintro ⟨i', heq, hvalue⟩
        obtain rfl := Entry.integer.inj heq
        refine ⟨by omega, ?_⟩
        rw [hvalue, Int.toNat_natCast, UInt64.ofNat_toNat]
  | _ => simp [naturalOf?, IsNatural]

variable {entries : String → Option Entry} {key : String}

/-- A setting is read from its entry, and has its standard value if there is none. -/
theorem field?_eq_some_iff {α : Type} {is : α → Entry → Prop} {valueOf? : Entry → Option α}
    (hvalue : ∀ entry a, valueOf? entry = some a ↔ is a entry) {standard a : α} :
    field? valueOf? key standard entries = some a ↔
      ∃ given, Stands is given (entries key) ∧ given.getD standard = a := by
  rw [field?]
  cases entries key with
  | none =>
      constructor
      · intro h
        exact ⟨none, trivial, Option.some.inj h⟩
      · rintro ⟨given, hstands, rfl⟩
        cases given with
        | none => rfl
        | some value => exact hstands.elim
  | some entry =>
      constructor
      · intro h
        exact ⟨some a, (hvalue entry a).mp h, rfl⟩
      · rintro ⟨given, hstands, rfl⟩
        cases given with
        | none => exact hstands.elim
        | some value => exact (hvalue entry value).mpr hstands

/-- A document gives a configuration exactly if all settings in it are of their types. -/
theorem ofEntries?_eq_some_iff {c : Config} :
    ofEntries? entries = some c ↔ ∃ g : Given, g.In entries ∧ g.config = c := by
  simp only [ofEntries?, Option.bind_eq_bind, Option.bind_eq_some_iff, field?_eq_some_iff textOf?_eq_some_iff,
    field?_eq_some_iff boolOf?_eq_some_iff, field?_eq_some_iff integerOf?_eq_some_iff,
    field?_eq_some_iff naturalOf?_eq_some_iff]
  constructor
  · rintro ⟨root, ⟨g₁, h₁, rfl⟩, capacity, ⟨g₂, h₂, rfl⟩, threshold, ⟨g₃, h₃, rfl⟩, interval, ⟨g₄, h₄, rfl⟩,
      typed, ⟨g₅, h₅, rfl⟩, auto, ⟨g₆, h₆, rfl⟩, logged, ⟨g₇, h₇, rfl⟩, warned, ⟨g₈, h₈, rfl⟩, heq⟩
    exact ⟨⟨g₁, g₂, g₃, g₄, g₅, g₆, g₇, g₈⟩, ⟨h₁, h₂, h₃, h₄, h₅, h₆, h₇, h₈⟩, Option.some.inj heq⟩
  · rintro ⟨g, h, rfl⟩
    exact ⟨_, ⟨_, h.root, rfl⟩, _, ⟨_, h.historyCapacity, rfl⟩, _, ⟨_, h.rebaseThreshold, rfl⟩,
      _, ⟨_, h.pollInterval, rfl⟩, _, ⟨_, h.typeChecking, rfl⟩, _, ⟨_, h.autoConvert, rfl⟩,
      _, ⟨_, h.logConversions, rfl⟩, _, ⟨_, h.warnOnKindMismatch, rfl⟩, rfl⟩

variable {library : Library}

theorem ofText_eq_ok_iff {text : String} {c : Config} : ofText library text = .ok c ↔
    ∃ entries, library.read? text = some entries ∧ ∃ g : Given, g.In entries ∧ g.config = c := by
  have hsome : ofText library text = .ok c ↔ (library.read? text).bind ofEntries? = some c := by
    rw [ofText]
    cases (library.read? text).bind ofEntries? <;> simp
  simp only [hsome, Option.bind_eq_some_iff, ofEntries?_eq_some_iff]

theorem load_file_eq_ok_iff {bytes : ByteArray} {c : Config} : load library (.file bytes) = .ok c ↔
    ∃ text entries, String.fromUTF8? bytes = some text ∧ library.read? text = some entries ∧
      ∃ g : Given, g.In entries ∧ g.config = c := by
  rw [load]
  cases String.fromUTF8? bytes with
  | none => simp
  | some text => simp [ofText_eq_ok_iff]

/-! ### Saving -/

/-- Whole numbers can be written as far as signed integers go. -/
def CanBeSaved (c : Config) : Prop :=
  c.historyCapacity.toNat ≤ Int64.maxValue.toInt ∧ c.pollInterval.toNat ≤ Int64.maxValue.toInt

/-- A configuration gives all settings. -/
def given (c : Config) : Given where
  root := some c.root
  historyCapacity := some c.historyCapacity
  rebaseThreshold := some c.rebaseThreshold
  pollInterval := some c.pollInterval
  typeChecking := some c.typeChecking
  autoConvert := some c.autoConvert
  logConversions := some c.logConversions
  warnOnKindMismatch := some c.warnOnKindMismatch

theorem keys_fields (c : Config) : c.fields.map Prod.fst =
    ["namespace", "history_capacity", "rebase_threshold", "completion_poll_interval_ms", "type_checking",
      "auto_convert", "log_conversions", "warn_on_kind_mismatch"] := rfl

theorem keys_fields_nodup (c : Config) : (c.fields.map Prod.fst).Nodup := by
  rw [keys_fields]
  decide

theorem isBareKey_of_mem_fields (c : Config) : ∀ field ∈ c.fields, Toml.isBareKey field.1 = true := by
  have hall : (c.fields.map Prod.fst).all Toml.isBareKey = true := by
    rw [keys_fields]
    decide
  intro field hfield
  exact List.all_eq_true.mp hall field.1 (List.mem_map_of_mem hfield)

variable {c : Config}

theorem inRange_natural {n : UInt64} (h : n.toNat ≤ Int64.maxValue.toInt) :
    (Scalar.integer n.toNat).InRange := by
  have hmin : Int64.minValue.toInt ≤ 0 := by decide
  exact ⟨hmin.trans (Int.natCast_nonneg _), h⟩

theorem CanBeSaved.inRange (h : c.CanBeSaved) : ∀ field ∈ c.fields, field.2.InRange := by
  simp only [fields, List.forall_mem_cons]
  exact ⟨trivial, inRange_natural h.1, ⟨Int64.minValue_le_toInt _, Int64.toInt_le _⟩, inRange_natural h.2, trivial,
    trivial, trivial, trivial, nofun⟩

/-- What is read back from the fields of a configuration are its settings. -/
theorem CanBeSaved.given_in (h : c.CanBeSaved)
    (hentries : ∀ key, entries key = (c.fields.lookup key).map Scalar.entry) : c.given.In entries := by
  have hnatural {n : UInt64} (hn : n.toNat ≤ Int64.maxValue.toInt) :
      IsNatural n (Scalar.integer n.toNat).entry := by
    have hmax : Int64.maxValue.toInt = 2 ^ 63 - 1 := by decide
    exact ⟨_, rfl, Int64.toInt_ofInt_of_le (by omega) (by omega)⟩
  constructor <;> rw [hentries]
  · rfl
  · exact hnatural h.1
  · exact congrArg Entry.integer (Int64.ofInt_toInt _)
  · exact hnatural h.2
  all_goals rfl

theorem CanBeSaved.save (hlibrary : library.Faithful) (h : c.CanBeSaved) {present : ConfigFile}
    (hpresent : present ≠ .directory) :
    (c.save library present).1 = .ok () ∧ load library (c.save library present).2 = .ok c := by
  obtain ⟨text, entries, hwrite, hread, hentries⟩ := hlibrary.reads_back c.fields
    (fun field hfield => ⟨c.isBareKey_of_mem_fields field hfield, h.inRange field hfield⟩) c.keys_fields_nodup
  have hsave : c.save library present = (.ok (), .file text.toUTF8) := by
    unfold Config.save
    rw [hwrite]
    cases present with
    | directory => exact absurd rfl hpresent
    | missing => rfl
    | file bytes => rfl
  rw [hsave, load_file_eq_ok_iff]
  exact ⟨rfl, text, entries, Text.fromUTF8?_toUTF8 text, hread, c.given, h.given_in hentries, rfl⟩

/-- A number too large is refused before anything is written. -/
theorem save_of_not_canBeSaved (hlibrary : library.Faithful) (h : ¬ c.CanBeSaved) (present : ConfigFile) :
    ∃ complaint, c.save library present = (.error complaint, present) := by
  have hlarge : ∃ key i, (key, .integer i) ∈ c.fields ∧ Int64.maxValue.toInt < i := by
    rw [CanBeSaved, not_and_or, Int.not_le, Int.not_le] at h
    rcases h with hcapacity | hinterval
    · exact ⟨"history_capacity", _, by simp [fields], hcapacity⟩
    · exact ⟨"completion_poll_interval_ms", _, by simp [fields], hinterval⟩
  obtain ⟨complaint, hwrite⟩ := hlibrary.refuses c.fields hlarge
  refine ⟨complaint, ?_⟩
  unfold save
  rw [hwrite]

/-- **Configuration files round-trip or are left alone.** With a library that reads back what it has written and
refuses integers that are too large, what can be saved is saved and loaded again, whatever its texts are; what
cannot be saved leaves the file as it was. Any file that is a document whose settings are of their types, whatever
other keys it has, gives these and standard values for the others, and no other file is loaded; without a loaded
file there are the standard settings. -/
theorem files_round_trip (library : Library) (hlibrary : library.Faithful) :
    (∀ (c : Config) (present : ConfigFile), c.CanBeSaved → present ≠ .directory →
      (c.save library present).1 = .ok () ∧ load library (c.save library present).2 = .ok c) ∧
    (∀ (c : Config) (present : ConfigFile), ¬ c.CanBeSaved →
      (∃ complaint, (c.save library present).1 = .error complaint) ∧ (c.save library present).2 = present) ∧
    (∀ (bytes : ByteArray) (text : String) (entries : String → Option Entry),
      String.fromUTF8? bytes = some text → library.read? text = some entries →
      ∀ g : Given, g.In entries → load library (.file bytes) = .ok g.config) ∧
    (∀ (bytes : ByteArray) (c : Config), load library (.file bytes) = .ok c →
      ∃ text entries, String.fromUTF8? bytes = some text ∧ library.read? text = some entries ∧
        ∃ g : Given, g.In entries ∧ g.config = c) ∧
    ∀ file, (∀ c, load library file = .ok c → loadOrDefault library file = c) ∧
      ∀ error, load library file = .error error → loadOrDefault library file = standard := by
  refine ⟨fun c present h hpresent => h.save hlibrary hpresent, fun c present h => ?_,
    fun bytes text entries htext hread g h => ?_, fun bytes c => load_file_eq_ok_iff.mp,
    fun file => ⟨fun c h => ?_, fun error h => ?_⟩⟩
  · obtain ⟨complaint, hsave⟩ := save_of_not_canBeSaved hlibrary h present
    rw [hsave]
    exact ⟨⟨complaint, rfl⟩, rfl⟩
  · exact load_file_eq_ok_iff.mpr ⟨text, entries, htext, hread, g, h, rfl⟩
  · rw [loadOrDefault, h]
  · rw [loadOrDefault, h]

/-- A file with a key that is no setting, a root of quotes and line breaks, a number too large to be written. -/
theorem few_files :
    Toml.standard.Faithful ∧
    load Toml.standard (.file "log_conversions = true\nplugins = 3\nnamespace = \"Turtle\"\n".toUTF8) =
      .ok { standard with root := "Turtle", logConversions := true } ∧
    load Toml.standard
      (({ standard with root := "\"'''\r\n\"\"\"\"" } : Config).save Toml.standard (.file "typo".toUTF8)).2 =
        .ok { standard with root := "\"'''\r\n\"\"\"\"" } ∧
    (({ standard with pollInterval := 9223372036854775808 } : Config).save Toml.standard .missing).2 = .missing := by
  obtain ⟨hsaved, hkept, hloaded, -, -⟩ := files_round_trip Toml.standard Toml.standard_faithful
  let lines : List (String × Scalar) :=
    [("log_conversions", .bool true), ("plugins", .integer 3), ("namespace", .text "Turtle")]
  have htext : Toml.document lines = "log_conversions = true\nplugins = 3\nnamespace = \"Turtle\"\n" := by decide
  have hread := Toml.read?_standard lines (by decide) (by decide)
  rw [htext] at hread
  refine ⟨Toml.standard_faithful, ?_, (hsaved _ (.file _) ⟨?_, ?_⟩ nofun).2,
    (hkept _ .missing fun h => absurd h.2 ?_).2⟩
  · exact hloaded _ _ _ (Text.fromUTF8?_toUTF8 _) hread ⟨some "Turtle", none, none, none, none, none, some true, none⟩
      ⟨rfl, trivial, trivial, trivial, trivial, trivial, rfl, trivial⟩
  · decide
  · decide
  · decide

end Config
end ScriptBridge
