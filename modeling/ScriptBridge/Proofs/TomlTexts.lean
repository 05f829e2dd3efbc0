import Mathlib.Tactic.SplitIfs
import ScriptBridge.Toml.Quoted

/-! Quoted texts are read back as they were written. An escape gives the character it stands for, and on one line
every other character stands for itself. Over several lines quotes may stand for themselves too: whether one does
depends on the two characters behind it, and two more quotes follow it only where the text is about to end. -/

namespace ScriptBridge.Toml

variable {c : Char} {escaped text after : List Char} {overLines : Bool}

attribute [local simp] readBasic readBasicLines readLiteral readLiteralLines

/-! ### Escapes -/

theorem pointEscape?_hexPoint : ∀ n < 128, pointEscape? (hexPoint n) = some (Char.ofNat n) := by decide

/-- A character as it may stand behind a backslash: a letter for it, or its four digits. -/
inductive Escaped (c : Char) : List Char → Prop where
  | letter {l : Char} (h : letterEscape? l = some c) : Escaped c ['\\', l]
  | point {d₁ d₂ d₃ d₄ : Char} (h : pointEscape? [d₁, d₂, d₃, d₄] = some c) : Escaped c ['\\', 'u', d₁, d₂, d₃, d₄]

theorem mem_letters {l : Char} (h : letterEscape? l = some c) : l ∈ ['b', 't', 'n', 'f', 'r', '"', '\\'] := by
  unfold letterEscape? at h
  split at h
  all_goals first | decide | cases h

theorem toNat_lt_of_isControl (h : isControl c = true) : c.toNat < 128 := by
  simp only [isControl, Bool.or_eq_true, Bool.and_eq_true, decide_eq_true_eq] at h
  omega

theorem escaped_of_escapeOf? (h : escapeOf? overLines c = some escaped) : Escaped c escaped := by
  unfold escapeOf? at h
  split_ifs at h
  all_goals obtain rfl := Option.some.inj h
  any_goals
    subst ‹c = _›
    exact .letter rfl
  rename_i hcontrol
  refine .point ((pointEscape?_hexPoint _ (toNat_lt_of_isControl hcontrol)).trans ?_)
  rw [Char.ofNat_toNat]

theorem plain_of_escapeOf? (h : escapeOf? overLines c = none) :
    c ≠ '\\' ∧ c ≠ '\r' ∧ ((c = '\n' ∧ overLines = true) ∨ isPrintable c = true) := by
  unfold escapeOf? at h
  split_ifs at h with hslash hback hfeed hreturn htab hline hover hcontrol
  · exact ⟨hslash, hreturn, .inl ⟨hline, hover⟩⟩
  · refine ⟨hslash, hreturn, .inr ?_⟩
    simp_all [isControl, isPrintable]

/-! ### Basic texts -/

theorem readBasic_escaped (h : Escaped c escaped) (rest : List Char) :
    readBasic (escaped ++ rest) = prepend (some c) (readBasic rest) := by
  cases h with
  | letter h =>
      have hmem := mem_letters h
      rw [← h]
      simp only [List.mem_cons, List.not_mem_nil, or_false] at hmem
      rcases hmem with rfl | rfl | rfl | rfl | rfl | rfl | rfl
      all_goals simp
  | point h =>
      rw [← h]
      simp

theorem readBasic_plain (hquote : c ≠ '"') (hslash : c ≠ '\\') (hprint : isPrintable c = true) (rest : List Char) :
    readBasic (c :: rest) = prepend (some c) (readBasic rest) := by
  simp [hslash, hprint]

theorem readBasic_escape (run : Nat) (text after : List Char) :
    readBasic (escape false 0 run text ++ '"' :: after) = some (text, after) := by
  induction text generalizing run with
  | nil => simp [escape]
  | cons c rest ih =>
      rw [escape]
      split
      · rename_i hquote
        rw [if_neg (Nat.not_lt_zero _), hquote]
        exact (readBasic_escaped (.letter rfl) _).trans (congrArg (prepend _) (ih 0))
      · rename_i hquote
        cases hescape : escapeOf? false c with
        | some escaped =>
            simp only [List.append_assoc]
            rw [readBasic_escaped (escaped_of_escapeOf? hescape), ih]
            rfl
        | none =>
            obtain ⟨hslash, -, hprint⟩ := plain_of_escapeOf? hescape
            simp only [Bool.false_eq_true, and_false, false_or] at hprint
            rw [List.cons_append, readBasic_plain hquote hslash hprint, ih]
            rfl

/-! ### Literal texts -/

theorem readLiteral_append (h : ∀ c ∈ text, c ≠ '\'' ∧ isPrintable c = true) (after : List Char) :
    readLiteral (text ++ '\'' :: after) = some (text, after) := by
  induction text with
  | nil => simp
  | cons c rest ih =>
      obtain ⟨hquote, hprint⟩ := h c List.mem_cons_self
      rw [List.cons_append, readLiteral, if_pos hprint, ih fun c' hc' => h c' (.tail _ hc')]
      · rfl
      · exact hquote

/-! ### Basic texts over several lines -/

theorem readBasicLines_escaped (h : Escaped c escaped) (rest : List Char) :
    readBasicLines false (escaped ++ rest) = prepend (some c) (readBasicLines false rest) := by
  cases h with
  | letter h =>
      have hmem := mem_letters h
      rw [← h]
      simp only [List.mem_cons, List.not_mem_nil, or_false] at hmem
      rcases hmem with rfl | rfl | rfl | rfl | rfl | rfl | rfl
      all_goals simp [isSpace, atBreak]
  | point h =>
      rw [← h]
      simp

theorem readBasicLines_plain (hquote : c ≠ '"') (hslash : c ≠ '\\') (hreturn : c ≠ '\r')
    (hplain : c = '\n' ∨ isPrintable c = true) (rest : List Char) :
    readBasicLines false (c :: rest) = prepend (some c) (readBasicLines false rest) := by
  simp [hquote, hslash, hreturn, hplain]

/-- Quotes stand for themselves where they cannot be the closing. -/
theorem readBasicLines_quote (h : ∀ rest, text ≠ '"' :: '"' :: rest) :
    readBasicLines false ('"' :: text) = prepend (some '"') (readBasicLines false text) := by
  simp [h, isPrintable]

theorem readBasicLines_close (h : after.head? ≠ some '"') :
    readBasicLines false ('"' :: '"' :: '"' :: after) = some ([], after) := by
  cases after with
  | nil => simp
  | cons c rest =>
      have hc : c ≠ '"' := fun heq => h (congrArg some heq)
      simp [hc]

theorem readBasicLines_close_one (h : after.head? ≠ some '"') :
    readBasicLines false ('"' :: '"' :: '"' :: '"' :: after) = some (['"'], after) := by
  cases after with
  | nil => simp
  | cons c rest =>
      have hc : c ≠ '"' := fun heq => h (congrArg some heq)
      simp [hc]

theorem readBasicLines_close_two (after : List Char) :
    readBasicLines false ('"' :: '"' :: '"' :: '"' :: '"' :: after) = some (['"', '"'], after) := by
  simp

theorem Escaped.head? (h : Escaped c escaped) : escaped.head? = some '\\' := by
  cases h <;> rfl

/-- After as many quotes as may stay as they are, or in front of another character, no quote is written. -/
theorem head?_escape_ne {allowed run : Nat} (h : c = '"' → allowed ≤ run) (rest after : List Char) :
    (escape overLines allowed run (c :: rest) ++ after).head? ≠ some '"' := by
  rw [escape]
  split
  · rename_i hquote
    rw [if_neg (Nat.not_lt.mpr (h hquote))]
    nofun
  · rename_i hquote
    cases hescape : escapeOf? overLines c with
    | some escaped =>
        rw [List.append_assoc, List.head?_append, (escaped_of_escapeOf? hescape).head?]
        nofun
    | none => exact fun heq => hquote (Option.some.inj heq)

/-- A quote that was written is followed by two more only where the text is about to end. -/
theorem escape_ne_two_quotes {run : Nat} {rest : List Char} (h : ¬ (c = '"' ∧ run = 0 ∧ rest = []))
    (after tail : List Char) : escape true 2 (run + 1) (c :: rest) ++ after ≠ '"' :: '"' :: tail := by
  intro heq
  by_cases hquote : c = '"' ∧ run = 0
  · obtain ⟨rfl, rfl⟩ := hquote
    match rest with
    | [] => exact h ⟨rfl, rfl, rfl⟩
    | next :: rest =>
        rw [escape, if_pos rfl, if_pos (by decide), List.cons_append, List.cons.injEq] at heq
        exact head?_escape_ne (fun _ => Nat.le_refl 2) rest after (congrArg List.head? heq.2)
  · have hrun (hc : c = '"') : 2 ≤ run + 1 := by
      have hne := not_and.mp hquote hc
      omega
    exact head?_escape_ne hrun rest after (congrArg List.head? heq)

theorem readBasicLines_escape (hafter : after.head? ≠ some '"') (run : Nat) (text : List Char) :
    readBasicLines false (escape true 2 run text ++ '"' :: '"' :: '"' :: after) = some (text, after) := by
  induction text generalizing run with
  | nil => exact readBasicLines_close hafter
  | cons c rest ih =>
      rw [escape]
      split
      · rename_i hquote
        subst hquote
        split
        · match rest with
          | [] => exact readBasicLines_close_one hafter
          | next :: rest =>
              by_cases hlast : next = '"' ∧ run = 0 ∧ rest = []
              · obtain ⟨rfl, rfl, rfl⟩ := hlast
                exact readBasicLines_close_two after
              · rw [List.cons_append, readBasicLines_quote (escape_ne_two_quotes hlast _), ih]
                rfl
        · exact (readBasicLines_escaped (.letter rfl) _).trans (congrArg (prepend _) (ih 0))
      · rename_i hquote
        cases hescape : escapeOf? true c with
        | some escaped =>
            simp only [List.append_assoc]
            rw [readBasicLines_escaped (escaped_of_escapeOf? hescape), ih]
            rfl
        | none =>
            obtain ⟨hslash, hreturn, hplain⟩ := plain_of_escapeOf? hescape
            rw [and_iff_left rfl] at hplain
            rw [List.cons_append, readBasicLines_plain hquote hslash hreturn hplain, ih]
            rfl

/-! ### Literal texts over several lines -/

/-- A mark stands at most so many times in a row, where so many stand in front already. -/
def RunsWithin (mark : Char) (most : Nat) : Nat → List Char → Prop
  | _, [] => True
  | run, c :: rest => if c = mark then run + 1 ≤ most ∧ RunsWithin mark most (run + 1) rest
    else RunsWithin mark most 0 rest

theorem longestRun_le_iff {mark : Char} {most : Nat} :
    longestRun mark text ≤ most ↔ RunsWithin mark most 0 text := by
  have hfold (longest run : Nat) : (text.foldl (fun seen c =>
      if c = mark then (max seen.1 (seen.2 + 1), seen.2 + 1) else (seen.1, 0)) (longest, run)).1 ≤ most ↔
      longest ≤ most ∧ RunsWithin mark most run text := by
    induction text generalizing longest run with
    | nil => exact (and_iff_left trivial).symm
    | cons c rest ih =>
        by_cases hc : c = mark
        · simp only [List.foldl_cons, RunsWithin, if_pos hc]
          rw [ih, Nat.max_le, and_assoc]
        · simp only [List.foldl_cons, RunsWithin, if_neg hc]
          exact ih longest 0
  exact (hfold 0 0).trans (and_iff_right (Nat.zero_le _))

theorem not_mem_of_longestRun {mark : Char} (h : longestRun mark text = 0) : mark ∉ text := by
  have hwithin := longestRun_le_iff.mp (Nat.le_of_eq h)
  clear h
  induction text with
  | nil => exact List.not_mem_nil
  | cons c rest ih =>
      rw [RunsWithin] at hwithin
      split at hwithin
      · exact absurd hwithin.1 (Nat.not_succ_le_zero _)
      · rename_i hne
        exact List.not_mem_cons_of_ne_of_not_mem (Ne.symm hne) (ih hwithin)

theorem readLiteralLines_plain (hquote : c ≠ '\'') (hreturn : c ≠ '\r') (hplain : c = '\n' ∨ isPrintable c = true)
    (rest : List Char) : readLiteralLines (c :: rest) = prepend (some c) (readLiteralLines rest) := by
  simp [hquote, hreturn, hplain]

theorem readLiteralLines_quote (h : ∀ rest, text ≠ '\'' :: '\'' :: rest) :
    readLiteralLines ('\'' :: text) = prepend (some '\'') (readLiteralLines text) := by
  simp [h, isPrintable]

theorem readLiteralLines_close (h : after.head? ≠ some '\'') :
    readLiteralLines ('\'' :: '\'' :: '\'' :: after) = some ([], after) := by
  cases after with
  | nil => simp
  | cons c rest =>
      have hc : c ≠ '\'' := fun heq => h (congrArg some heq)
      simp [hc]

theorem readLiteralLines_close_one (h : after.head? ≠ some '\'') :
    readLiteralLines ('\'' :: '\'' :: '\'' :: '\'' :: after) = some (['\''], after) := by
  cases after with
  | nil => simp
  | cons c rest =>
      have hc : c ≠ '\'' := fun heq => h (congrArg some heq)
      simp [hc]

theorem readLiteralLines_close_two (after : List Char) :
    readLiteralLines ('\'' :: '\'' :: '\'' :: '\'' :: '\'' :: after) = some (['\'', '\''], after) := by
  simp

theorem readLiteralLines_append {run : Nat} (hafter : after.head? ≠ some '\'')
    (hplain : ∀ c ∈ text, c ≠ '\r' ∧ (c = '\n' ∨ isPrintable c = true)) (hruns : RunsWithin '\'' 2 run text) :
    readLiteralLines (text ++ '\'' :: '\'' :: '\'' :: after) = some (text, after) := by
  induction text generalizing run with
  | nil => exact readLiteralLines_close hafter
  | cons c rest ih =>
      have hrest : ∀ c' ∈ rest, c' ≠ '\r' ∧ (c' = '\n' ∨ isPrintable c' = true) :=
        fun c' hc' => hplain c' (.tail _ hc')
      rw [RunsWithin] at hruns
      split at hruns
      · rename_i hquote
        subst hquote
        match rest with
        | [] => exact readLiteralLines_close_one hafter
        | next :: rest =>
            by_cases hlast : next = '\'' ∧ rest = []
            · obtain ⟨rfl, rfl⟩ := hlast
              exact readLiteralLines_close_two after
            · rw [List.cons_append, readLiteralLines_quote, ih hrest hruns.2]
              · rfl
              · -- a third mark in a row
                intro tail heq
                rw [List.cons_append, List.cons.injEq] at heq
                obtain ⟨rfl, heq⟩ := heq
                match rest with
                | [] => exact hlast ⟨rfl, rfl⟩
                | third :: rest =>
                    rw [List.cons_append, List.cons.injEq] at heq
                    obtain ⟨rfl, -⟩ := heq
                    have hthird := hruns.2
                    rw [RunsWithin, if_pos rfl, RunsWithin, if_pos rfl] at hthird
                    have hle := hthird.2.1
                    omega
      · rename_i hquote
        obtain ⟨hreturn, hline⟩ := hplain c List.mem_cons_self
        rw [List.cons_append, readLiteralLines_plain hquote hreturn hline, ih hrest hruns]
        rfl

/-! ### Every style -/

theorem plain_of_not_isControl (h : isControl c = false) : c ≠ '\r' ∧ (c = '\n' ∨ isPrintable c = true) := by
  have hreturn : c ≠ '\r' := fun heq => absurd (heq ▸ h) (by decide)
  refine ⟨hreturn, ?_⟩
  by_cases hline : c = '\n'
  · exact .inl hline
  · right
    by_cases htab : c = '\t'
    · exact htab ▸ rfl
    · simp [isControl, isPrintable, hline, htab] at h ⊢
      omega

theorem of_styleFor_literal (h : styleFor text = .literal) :
    (∀ c ∈ text, isControl c = false) ∧ '\'' ∉ text ∧ '\n' ∉ text := by
  unfold styleFor at h
  simp only at h
  split_ifs at h with hbasic hliteral
  simp only [Bool.and_eq_true, Bool.not_eq_true', List.any_eq_false, Bool.not_eq_true, decide_eq_true_eq,
    List.contains_eq_mem, decide_eq_false_iff_not] at hliteral
  exact ⟨hliteral.1.1, not_mem_of_longestRun hliteral.1.2, hliteral.2⟩

theorem of_styleFor_literalLines (h : styleFor text = .literalLines) :
    (∀ c ∈ text, isControl c = false) ∧ longestRun '\'' text ≤ 2 := by
  unfold styleFor at h
  simp only at h
  split_ifs at h with hbasic hliteral hbasicLines hliteralLines
  simp only [Bool.and_eq_true, Bool.not_eq_true', List.any_eq_false, Bool.not_eq_true, decide_eq_true_eq]
    at hliteralLines
  exact hliteralLines

theorem dropBreak_of_head? (hline : text.head? ≠ some '\n') (hreturn : text.head? ≠ some '\r') :
    dropBreak text = text := by
  unfold dropBreak
  split
  · exact absurd rfl hline
  · exact absurd rfl hreturn
  · rfl

/-- The line break behind the opening is not part of the text. -/
theorem dropBreak_openLines {rest : List Char}
    (h : '\n' ∉ text → rest.head? ≠ some '\n' ∧ rest.head? ≠ some '\r') :
    dropBreak (openLines text ++ rest) = rest := by
  unfold openLines
  split
  · rfl
  · rename_i hline
    rw [List.contains_iff_mem] at hline
    exact dropBreak_of_head? (h hline).1 (h hline).2

theorem readText_of_not_triple {rest : List Char} (h : ∀ tail, rest ≠ c :: c :: tail) :
    readText (c :: rest) = readLineText (c :: rest) := by
  unfold readText
  split
  · rename_i heq
    cases heq
    exact absurd rfl (h _)
  · rename_i heq
    cases heq
    exact absurd rfl (h _)
  · rfl

theorem readText_basic (hafter : after.head? ≠ some '"') (text : List Char) :
    readText ('"' :: escape false 0 0 text ++ ['"'] ++ after) = some (String.ofList text, after) := by
  have hsingle : ∀ tail, escape false 0 0 text ++ ['"'] ++ after ≠ '"' :: '"' :: tail := by
    intro tail heq
    match text with
    | [] => exact hafter (congrArg List.head? (List.cons.inj heq).2)
    | c :: rest =>
        rw [List.append_assoc] at heq
        exact head?_escape_ne (fun _ => Nat.le_refl 0) rest _ (congrArg List.head? heq)
  rw [List.cons_append, List.cons_append, readText_of_not_triple hsingle, readLineText, List.append_assoc]
  exact congrArg (Option.map _) (readBasic_escape 0 text after)

theorem readText_literal (hafter : after.head? ≠ some '\'') (hstyle : styleFor text = .literal) :
    readText ('\'' :: text ++ ['\''] ++ after) = some (String.ofList text, after) := by
  obtain ⟨hcontrol, hquote, hline⟩ := of_styleFor_literal hstyle
  have hsingle : ∀ tail, text ++ ['\''] ++ after ≠ '\'' :: '\'' :: tail := by
    intro tail heq
    match text with
    | [] => exact hafter (congrArg List.head? (List.cons.inj heq).2)
    | c :: rest => exact hquote ((List.cons.inj heq).1 ▸ List.mem_cons_self)
  have hplain : ∀ c ∈ text, c ≠ '\'' ∧ isPrintable c = true := fun c hc =>
    ⟨fun heq => hquote (heq ▸ hc),
      (plain_of_not_isControl (hcontrol c hc)).2.resolve_left fun heq => hline (heq ▸ hc)⟩
  rw [List.cons_append, List.cons_append, readText_of_not_triple hsingle, readLineText, List.append_assoc]
  exact congrArg (Option.map _) (readLiteral_append hplain after)

theorem readText_basicLines (hafter : after.head? ≠ some '"') (text : List Char) :
    readText (['"', '"', '"'] ++ openLines text ++ escape true 2 0 text ++ ['"', '"', '"'] ++ after) =
      some (String.ofList text, after) := by
  have hopen : '\n' ∉ text →
      (escape true 2 0 text ++ (['"', '"', '"'] ++ after)).head? ≠ some '\n' ∧
        (escape true 2 0 text ++ (['"', '"', '"'] ++ after)).head? ≠ some '\r' := by
    intro hline
    match text with
    | [] => exact ⟨nofun, nofun⟩
    | c :: rest =>
        rw [escape]
        split
        · exact ⟨nofun, nofun⟩
        · cases hescape : escapeOf? true c with
          | some escaped =>
              rw [List.append_assoc, List.head?_append, (escaped_of_escapeOf? hescape).head?]
              exact ⟨nofun, nofun⟩
          | none =>
              have hne : c ≠ '\n' := fun heq => hline (heq ▸ List.mem_cons_self)
              exact ⟨fun heq => hne (Option.some.inj heq),
                fun heq => (plain_of_escapeOf? hescape).2.1 (Option.some.inj heq)⟩
  have hread : readBasicLines false (dropBreak (openLines text ++
      (escape true 2 0 text ++ (['"', '"', '"'] ++ after)))) = some (text, after) := by
    rw [dropBreak_openLines hopen]
    exact readBasicLines_escape hafter 0 text
  simp only [List.append_assoc]
  exact congrArg (Option.map _) hread

theorem readText_literalLines (hafter : after.head? ≠ some '\'') (hstyle : styleFor text = .literalLines) :
    readText (['\'', '\'', '\''] ++ openLines text ++ text ++ ['\'', '\'', '\''] ++ after) =
      some (String.ofList text, after) := by
  obtain ⟨hcontrol, hruns⟩ := of_styleFor_literalLines hstyle
  have hplain : ∀ c ∈ text, c ≠ '\r' ∧ (c = '\n' ∨ isPrintable c = true) :=
    fun c hc => plain_of_not_isControl (hcontrol c hc)
  have hopen : '\n' ∉ text → (text ++ (['\'', '\'', '\''] ++ after)).head? ≠ some '\n' ∧
      (text ++ (['\'', '\'', '\''] ++ after)).head? ≠ some '\r' := by
    intro hline
    match text with
    | [] => exact ⟨nofun, nofun⟩
    | c :: rest =>
        exact ⟨fun heq => hline (Option.some.inj heq ▸ List.mem_cons_self),
          fun heq => (hplain c List.mem_cons_self).1 (Option.some.inj heq)⟩
  have hread : readLiteralLines (dropBreak (openLines text ++ (text ++ (['\'', '\'', '\''] ++ after)))) =
      some (text, after) := by
    rw [dropBreak_openLines hopen]
    exact readLiteralLines_append hafter hplain (longestRun_le_iff.mp hruns)
  simp only [List.append_assoc]
  exact congrArg (Option.map _) hread

/-- A text that was written is read back, whatever style was chosen for it. -/
theorem readText_writeText (hdouble : after.head? ≠ some '"') (hsingle : after.head? ≠ some '\'') (s : String) :
    readText ((writeText s).toList ++ after) = some (s, after) := by
  rw [writeText, String.toList_ofList]
  cases hstyle : styleFor s.toList with
  | basic => rw [readText_basic hdouble, String.ofList_toList]
  | literal => rw [readText_literal hsingle hstyle, String.ofList_toList]
  | basicLines => rw [readText_basicLines hdouble, String.ofList_toList]
  | literalLines => rw [readText_literalLines hsingle hstyle, String.ofList_toList]

end ScriptBridge.Toml
