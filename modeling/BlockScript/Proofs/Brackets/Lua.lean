import BlockScript.Proofs.Brackets.Clause

/-!
# The clauses of Lua

How the lines of a program in Lua are read: each is one clause, whatever follows, as long
as nothing that follows goes on with an expression. A block opens with `then`, `do` or
the parameters of a function, and `end` closes it.

Results:

* `Lua.isClauseText_conditional` and the ones beside it: the lines that programs are
  made of.
-/

namespace BlockScript.Lua

open BlockScript.Reading BlockScript.Text

variable {code name : String} {tokens rest : List Token} {tree : Expr} {clause : Clause}

/-! ## What follows a clause -/

/-- A clause that starts with a keyword. -/
theorem isClause_mark {sign : String} (hsign : Stops grammar.levels [.mark sign])
    (hends : clause.kind.endsBody ≤ endsBody [.mark sign])
    (hreads : ∀ rest, Language.lua.Follows clause.kind rest →
      readClause (.mark sign :: (tokens ++ rest)) = some (clause, rest)) :
    Language.lua.IsClause (.mark sign :: tokens) clause where
  ne_nil := by simp
  reads := hreads
  follows kind rest h := ⟨stops_mark hsign, fun hfinal => hends (h hfinal)⟩

/-- A clause that starts with a name. -/
theorem isClause_name {word : String} (hends : clause.kind.endsBody = false)
    (hreads : ∀ rest, Language.lua.Follows clause.kind rest →
      readClause (.name word :: (tokens ++ rest)) = some (clause, rest)) :
    Language.lua.IsClause (.name word :: tokens) clause where
  ne_nil := by simp
  reads := hreads
  follows kind rest h := ⟨stops_name _ _, fun hfinal => by
    rw [h hfinal] at hends
    cases hends⟩

/-- An expression that goes on up to what follows a clause. -/
theorem readExpression_nil (h : Derives grammar (.within grammar.levels) tokens tree)
    (hrest : Stops grammar.levels rest) :
    readExpression grammar [] (tokens ++ rest) = some (tree, rest) :=
  readExpression_of_derives grammar_proper h hrest

/-! ## Headers -/

/-- An expression between two keywords. -/
theorem isClause_between {sign last : String} {form : Expr → Clause}
    (hread : ∀ tokens, readClause (.mark sign :: tokens) =
      (readExpression grammar [.mark last] tokens).map fun (tree, rest) => (form tree, rest))
    (hsign : Stops grammar.levels [.mark sign]) (hlast : Stops grammar.levels [.mark last])
    (hends : (form tree).kind.endsBody ≤ endsBody [.mark sign])
    (h : Derives grammar (.within grammar.levels) tokens tree) :
    Language.lua.IsClause (.mark sign :: (tokens ++ [.mark last])) (form tree) := by
  refine isClause_mark hsign hends fun rest _ => ?_
  have hexpression : readExpression grammar [.mark last] (tokens ++ ([.mark last] ++ rest)) =
      some (tree, rest) :=
    readExpression_of_derives grammar_proper h (stops_mark hlast)
  rw [hread, List.append_assoc, hexpression]
  rfl

theorem isClauseText_conditional (h : IsExpression grammar code tree) :
    Language.lua.IsClauseText ("if " ++ code ++ " then") (.conditional tree) := by
  obtain ⟨tokens, hspells, hne, hderives⟩ := h
  have hslots : partSlots lexis [.text "if ", .hole 0, .text " then"] =
      some ([Token.mark "if"].map .token ++ .hole 0 :: [Token.mark "then"].map .token) := by decide
  exact ⟨_, Lexis.lex_of_spells (spells_around hslots hspells hne),
    isClause_between (fun _ => rfl) (by decide) (by decide) (Bool.false_le _) hderives⟩

theorem isClauseText_elseIf (h : IsExpression grammar code tree) :
    Language.lua.IsClauseText ("elseif " ++ code ++ " then") (.elseIf tree) := by
  obtain ⟨tokens, hspells, hne, hderives⟩ := h
  have hslots : partSlots lexis [.text "elseif ", .hole 0, .text " then"] =
      some ([Token.mark "elseif"].map .token ++ .hole 0 :: [Token.mark "then"].map .token) := by
    decide
  exact ⟨_, Lexis.lex_of_spells (spells_around hslots hspells hne),
    isClause_between (fun _ => rfl) (by decide) (by decide) (Bool.le_true _) hderives⟩

theorem isClauseText_whileLoop (h : IsExpression grammar code tree) :
    Language.lua.IsClauseText ("while " ++ code ++ " do") (.whileLoop tree) := by
  obtain ⟨tokens, hspells, hne, hderives⟩ := h
  have hslots : partSlots lexis [.text "while ", .hole 0, .text " do"] =
      some ([Token.mark "while"].map .token ++ .hole 0 :: [Token.mark "do"].map .token) := by decide
  exact ⟨_, Lexis.lex_of_spells (spells_around hslots hspells hne),
    isClause_between (fun _ => rfl) (by decide) (by decide) (Bool.false_le _) hderives⟩

theorem isClauseText_otherwise : Language.lua.IsClauseText "else" .otherwise :=
  ⟨[.mark "else"], by decide, isClause_mark (by decide) (Bool.le_true _) fun _ _ => rfl⟩

/-- A name of a program is one token. -/
theorem cut_isName (h : dialect.policy.IsName name) :
    lexis.cut name.toList = some ([.name name], false) := by
  obtain ⟨kind, word, rfl, hfits⟩ := h
  have hsign : dialect.policy.sign kind = "" := by cases kind <;> rfl
  rw [hsign, String.empty_append]
  exact cut_name hfits

theorem isName_ne_nil (h : dialect.policy.IsName name) : name.toList ≠ [] := by
  intro hnil
  have hcut := cut_isName h
  rw [hnil] at hcut
  cases hcut

/-- A loop that counts from one. -/
theorem isClauseText_countedLoop (hname : dialect.policy.IsName name)
    (h : IsExpression grammar code tree) :
    Language.lua.IsClauseText ("for " ++ name ++ " = 1, " ++ code ++ " do")
      (.countedLoop name tree) := by
  obtain ⟨tokens, hspells, hne, hderives⟩ := h
  have hparts := spells_of_parts (fun i => if i = 0 then name else code)
    (fun i => if i = 0 then [.name name] else tokens)
    (show partSlots lexis [.text "for ", .hole 0, .text " = 1, ", .hole 1, .text " do"] =
      some [.token (.mark "for"), .hole 0, .token (.mark "="), .token (.number "1"),
        .token (.mark ","), .hole 1, .token (.mark "do")] by decide)
    (show ("for " ++ name ++ " = 1, " ++ code ++ " do").toList = _ by simp [Part.chars])
    fun i hi => by
      have hcases : i = 0 ∨ i = 1 := by simpa [partHoles] using hi
      rcases hcases with rfl | rfl
      · exact ⟨Lexis.spells_of_cut (cut_isName hname), isName_ne_nil hname⟩
      · exact ⟨hspells, hne⟩
  refine ⟨_, Lexis.lex_of_spells hparts,
    isClause_mark (by decide) (Bool.false_le _) fun rest _ => ?_⟩
  have hexpression : readExpression grammar [.mark "do"] (tokens ++ ([.mark "do"] ++ rest)) =
      some (tree, rest) :=
    readExpression_of_derives grammar_proper hderives (stops_mark (by decide))
  simp only [List.singleton_append] at hexpression
  simp [Phrase.Slot.tokens, readClause, hexpression]

/-- A function. -/
theorem isClauseText_function {params : List String} (hname : dialect.policy.IsName name)
    (hparams : ∀ param ∈ params, dialect.policy.IsName param) :
    Language.lua.IsClauseText ("function " ++ name ++ "(" ++ joinWith ", " params ++ ")")
      (.function name params) := by
  have hspells := spells_function (g := grammar) faithful.readsCalls
    (show partSlots lexis [.text "function ", .hole 0, .text ("(" ++ ")")] =
      some ([Token.mark "function"].map .token ++ .hole 0 ::
        (.mark "(" :: [Token.mark ")"]).map .token) by decide)
    (show partSlots lexis [.text "function ", .hole 0, .text "(", .hole 1, .text ")"] =
      some ([Token.mark "function"].map .token ++ .hole 0 :: .token (.mark "(") :: .hole 1 ::
        [Token.mark ")"].map .token) by decide)
    ⟨cut_isName hname, isName_ne_nil hname⟩
    fun param hparam => ⟨cut_isName (hparams param hparam), isName_ne_nil (hparams param hparam)⟩
  refine ⟨_, Lexis.lex_of_spells hspells,
    isClause_mark (by decide) (Bool.false_le _) fun rest _ => ?_⟩
  have hread : readParams [.mark ")"] (nameTokens params ++ (.mark ")" :: rest)) =
      some (params, rest) := readParams_nameTokens (by decide)
  simp [readClause, hread]

theorem isClauseText_close : Language.lua.IsClauseText "end" .close :=
  ⟨[.mark "end"], by decide, isClause_mark (by decide) (Bool.le_true _) fun _ _ => rfl⟩

/-! ## Statements -/

theorem isClauseText_break : Language.lua.IsClauseText "break" (.jump .break) :=
  ⟨[.mark "break"], by decide, isClause_mark (by decide) (Bool.false_le _) fun _ _ => rfl⟩

theorem isClauseText_continue : Language.lua.IsClauseText "goto continue" (.jump .continue) :=
  ⟨[.mark "goto", .name "continue"], by decide,
    isClause_mark (by decide) (Bool.false_le _) fun _ _ => rfl⟩

theorem isClauseText_label : Language.lua.IsClauseText "::continue::" .label :=
  ⟨[.mark "::", .name "continue", .mark "::"], by decide,
    isClause_mark (by decide) (Bool.false_le _) fun _ _ => rfl⟩

/-- A return stands at the end of a body, so there is no value to it. -/
theorem isClauseText_return : Language.lua.IsClauseText "return" (.giveBack none) := by
  refine ⟨[.mark "return"], by decide,
    isClause_mark (by decide) (Bool.false_le _) fun rest h => ?_⟩
  show readClause (.mark "return" :: rest) = _
  rw [readClause, if_pos (h.2 rfl)]

/-- No body ends ahead of an expression. -/
theorem endsBody_of_derives (h : Derives grammar (.within grammar.levels) tokens tree) :
    endsBody (tokens ++ rest) = false := by
  obtain ⟨token, more, rfl, hstarts⟩ := h.starts grammar_proper
  cases token with
  | mark sign =>
    have hlist : ∀ sign, grammar.emptyList.head? = some (.mark sign) → sign = "\x7b" := by
      rintro sign ⟨⟩
      rfl
    have haheads : ∀ level ∈ grammar.levels, ∀ sign ∈ level.aheadSigns,
        sign = "not" ∨ sign = "-" := by decide
    rcases hstarts sign rfl with rfl | hsign | ⟨level, hlevel, hsign⟩
    · rfl
    · obtain rfl := hlist sign hsign
      rfl
    · rcases haheads level hlevel sign hsign with rfl | rfl <;> rfl
  | _ => rfl

theorem isClauseText_giveBack (h : IsExpression grammar code tree) :
    Language.lua.IsClauseText ("return " ++ code) (.giveBack (some tree)) := by
  obtain ⟨tokens, hspells, hne, hderives⟩ := h
  have hslots : partSlots lexis [.text "return ", .hole 0] =
      some ([Token.mark "return"].map .token ++ [.hole 0]) := by decide
  refine ⟨_, Lexis.lex_of_spells (spells_after hslots hspells hne),
    isClause_mark (by decide) (Bool.false_le _) fun rest h => ?_⟩
  show readClause (.mark "return" :: (tokens ++ rest)) = _
  rw [readClause, endsBody_of_derives hderives, readExpression_nil hderives h.1]
  rfl

theorem isClauseText_value (h : IsExpression grammar code tree) :
    Language.lua.IsClauseText ("local _ = " ++ code) (.value tree) := by
  obtain ⟨tokens, hspells, hne, hderives⟩ := h
  have hslots : partSlots lexis [.text "local _ = ", .hole 0] =
      some ([Token.mark "local", .name "_", .mark "="].map .token ++ [.hole 0]) := by decide
  refine ⟨_, Lexis.lex_of_spells (spells_after hslots hspells hne),
    isClause_mark (by decide) (Bool.false_le _) fun rest h => ?_⟩
  show readClause (.mark "local" :: .name "_" :: .mark "=" :: (tokens ++ rest)) = _
  rw [readClause, readExpression_nil hderives h.1]
  rfl

theorem isClauseText_assign (hname : dialect.policy.IsName name)
    (h : IsExpression grammar code tree) :
    Language.lua.IsClauseText (name ++ " = " ++ code) (.assign name tree) := by
  obtain ⟨tokens, hspells, hne, hderives⟩ := h
  have hparts := spells_of_parts (fun i => if i = 0 then name else code)
    (fun i => if i = 0 then [.name name] else tokens)
    (show partSlots lexis [.hole 0, .text " = ", .hole 1] =
      some [.hole 0, .token (.mark "="), .hole 1] by decide)
    (show (name ++ " = " ++ code).toList = _ by simp [Part.chars]) fun i hi => by
      have hcases : i = 0 ∨ i = 1 := by simpa [partHoles] using hi
      rcases hcases with rfl | rfl
      · exact ⟨Lexis.spells_of_cut (cut_isName hname), isName_ne_nil hname⟩
      · exact ⟨hspells, hne⟩
  refine ⟨_, Lexis.lex_of_spells hparts, isClause_name rfl fun rest h => ?_⟩
  simp [Phrase.Slot.tokens, readClause, readExpression_nil hderives h.1]

/-- A variable with a summand added to it. -/
theorem isExpression_change {summand : String} (hname : dialect.policy.IsName name)
    (h : Fills grammar isFunctionName additive true summand tree) :
    ∃ value, IsExpression grammar (name ++ " + " ++ summand) value := by
  have hentry : entry grammar isFunctionName additive [(.atomic, false), (additive, true)]
      [.hole 0, .text " + ", .hole 1] (.binary "+" (.hole 0) (.hole 1)) = true := by decide
  have hcut := cut_isName hname
  obtain ⟨kind, word, rfl, hfits⟩ := hname
  have hsign : dialect.policy.sign kind = "" := by cases kind <;> rfl
  rw [hsign, String.empty_append] at hcut ⊢
  have hfills : Fills grammar isFunctionName .atomic false word (.name word) :=
    ⟨reads_name (opens_identifier hfits.identifier) hcut rfl, fun hzero => by cases hzero⟩
  have hrenders := renders_of_entry hentry
    (show (word ++ " + " ++ summand).toList = [Part.hole 0, .text " + ", .hole 1].flatMap
      (Part.chars fun i => [word, summand].getD i "") by simp [Part.chars])
    (.cons hfills (.cons h .nil))
  obtain ⟨parsed, -, hparsed⟩ := hrenders.reads.exists_isExpression (fun _ => rfl)
    (List.dropWhile_suffix _)
  exact ⟨parsed, hparsed⟩

/-- A call of a procedure. -/
theorem isClauseText_call {codes : List String} {trees : List Expr}
    (hname : dialect.policy.IsName name) (h : List.Forall₂ (IsExpression grammar) codes trees) :
    Language.lua.IsClauseText (name ++ "(" ++ joinWith ", " codes ++ ")")
      (.value (.call (.name name) trees)) := by
  obtain ⟨args, rfl, hspells, hderives⟩ :=
    exists_spells_call (g := grammar) faithful.readsCalls (cut_isName hname) h
  obtain ⟨more, hargs⟩ : ∃ more, argTokens (args.map Prod.fst) = .mark "(" :: more := by
    cases args with
    | nil => exact ⟨_, rfl⟩
    | cons arg args => exact ⟨_, rfl⟩
  refine ⟨_, Lexis.lex_of_spells hspells, isClause_name rfl fun rest h => ?_⟩
  have hread := readExpression_nil hderives h.1
  rw [hargs] at hread ⊢
  simp only [List.cons_append] at hread ⊢
  rw [readClause, hread]
  rfl

end BlockScript.Lua
