import BlockScript.Proofs.Brackets.Clause

/-!
# The clauses of PHP

How the lines of a program in PHP are read: each is one clause, whatever follows, as a
brace or a semicolon ends it. A brace opens every block and another one closes it, and
what goes on with a conditional starts with the brace that closes the arm ahead of it.

Results:

* `Php.isClauseText_conditional` and the ones beside it: the lines that programs are
  made of.
-/

namespace BlockScript.Php

open BlockScript.Reading BlockScript.Text

variable {code name : String} {tokens first last : List Token} {sign : String} {tree : Expr}
  {clause : Clause} {form : Expr → Clause}

/-! ## Expressions in clauses -/

/-- A clause that is told by its own tokens. -/
theorem isClause_of_reads (hne : tokens ≠ []) (hfirst : tokens.head? ≠ some (.mark "else"))
    (hreads : ∀ rest, readClause (tokens ++ rest) = some (clause, rest)) :
    Language.php.IsClause tokens clause where
  ne_nil := hne
  reads rest _ := hreads rest
  follows _ rest _ := by
    obtain ⟨token, tokens, rfl⟩ := List.exists_cons_of_ne_nil hne
    exact hfirst

/-- No sign of a statement stands in an expression. -/
theorem notMem_of_derives (h : Derives programGrammar (.within programGrammar.levels) tokens tree)
    (hsign : sign ∉ programGrammar.marks) : .mark sign ∉ tokens :=
  fun hmem => hsign (h.mem_marks programGrammar_proper hmem)

/-- An expression ahead of a sign. -/
theorem readExpression_of_stops {rest : List Token}
    (h : Derives programGrammar (.within programGrammar.levels) tokens tree)
    (hsign : Stops programGrammar.levels [.mark sign]) :
    readExpression programGrammar (.mark sign :: last) (tokens ++ (.mark sign :: (last ++ rest))) =
      some (tree, rest) :=
  readExpression_of_derives programGrammar_proper h (stops_mark hsign)

/-- A clause that is one expression with what is around it. -/
theorem isClauseText_around {before after : String} (form : Expr → Clause)
    (h : IsExpression programGrammar code tree)
    (hslots : partSlots programLexis [.text before, .hole 0, .text after] =
      some (first.map .token ++ .hole 0 :: (.mark sign :: last).map .token))
    (hfirst : first.head? ≠ some (.mark "else"))
    (hsign : Stops programGrammar.levels [.mark sign])
    (hread : ∀ tokens rest, Derives programGrammar (.within programGrammar.levels) tokens tree →
      readClause (first ++ (tokens ++ (.mark sign :: rest))) =
        (readExpression programGrammar (.mark sign :: last) (tokens ++ (.mark sign :: rest))).map
          fun (tree, rest) => (form tree, rest)) :
    Language.php.IsClauseText (before ++ code ++ after) (form tree) := by
  obtain ⟨tokens, hspells, hne, hderives⟩ := h
  have hhead : (first ++ tokens ++ .mark sign :: last).head? ≠ some (.mark "else") := by
    obtain ⟨token, more, rfl, -⟩ := hderives.starts programGrammar_proper
    have hno : .mark "else" ∉ token :: more := notMem_of_derives hderives (by decide)
    cases first with
    | nil => exact fun heq => hno (by simp_all)
    | cons => exact hfirst
  refine ⟨_, Lexis.lex_of_spells (spells_around hslots hspells hne),
    isClause_of_reads (by simp) hhead fun rest => ?_⟩
  rw [List.append_assoc, List.append_assoc, List.cons_append, hread _ _ hderives,
    readExpression_of_stops hderives hsign]
  rfl

/-! ## Headers -/

theorem isClauseText_conditional (h : IsExpression programGrammar code tree) :
    Language.php.IsClauseText ("if (" ++ code ++ ") \x7b") (.conditional tree) :=
  isClauseText_around .conditional h
    (show partSlots programLexis [.text "if (", .hole 0, .text ") \x7b"] =
      some ([Token.mark "if", .mark "("].map .token ++ .hole 0 ::
        [Token.mark ")", .mark "\x7b"].map .token) by decide)
    (by decide) (by decide) fun _ _ _ => rfl

theorem isClauseText_elseIf (h : IsExpression programGrammar code tree) :
    Language.php.IsClauseText ("\x7d else if (" ++ code ++ ") \x7b") (.elseIf tree) :=
  isClauseText_around .elseIf h
    (show partSlots programLexis [.text "\x7d else if (", .hole 0, .text ") \x7b"] =
      some ([Token.mark "\x7d", .mark "else", .mark "if", .mark "("].map .token ++ .hole 0 ::
        [Token.mark ")", .mark "\x7b"].map .token) by decide)
    (by decide) (by decide) fun _ _ _ => rfl

theorem isClauseText_whileLoop (h : IsExpression programGrammar code tree) :
    Language.php.IsClauseText ("while (" ++ code ++ ") \x7b") (.whileLoop tree) :=
  isClauseText_around .whileLoop h
    (show partSlots programLexis [.text "while (", .hole 0, .text ") \x7b"] =
      some ([Token.mark "while", .mark "("].map .token ++ .hole 0 ::
        [Token.mark ")", .mark "\x7b"].map .token) by decide)
    (by decide) (by decide) fun _ _ _ => rfl

theorem isClauseText_otherwise : Language.php.IsClauseText "\x7d else \x7b" .otherwise :=
  ⟨[.mark "\x7d", .mark "else", .mark "\x7b"], by decide,
    isClause_of_reads (by simp) (by simp) fun _ => rfl⟩

theorem isName_ne_nil (h : dialect.policy.IsName name) : name.toList ≠ [] := by
  intro hnil
  have hcut := cut_programName h
  rw [hnil] at hcut
  cases hcut

/-- A loop that counts from zero. -/
theorem isClauseText_countedLoop (hname : dialect.policy.IsName name)
    (h : IsExpression programGrammar code tree) :
    Language.php.IsClauseText
      ("for (" ++ name ++ " = 0; " ++ name ++ " < " ++ code ++ "; " ++ name ++ "++) \x7b")
      (.countedLoop name tree) := by
  obtain ⟨tokens, hspells, hne, hderives⟩ := h
  have hparts := spells_of_parts (fun i => if i = 0 then name else code)
    (fun i => if i = 0 then [.name name] else tokens)
    (show partSlots programLexis [.text "for (", .hole 0, .text " = 0; ", .hole 0, .text " < ",
        .hole 1, .text "; ", .hole 0, .text "++) \x7b"] =
      some [.token (.mark "for"), .token (.mark "("), .hole 0, .token (.mark "="),
        .token (.number "0"), .token (.mark ";"), .hole 0, .token (.mark "<"), .hole 1,
        .token (.mark ";"), .hole 0, .token (.mark "++"), .token (.mark ")"),
        .token (.mark "\x7b")] by decide)
    (show ("for (" ++ name ++ " = 0; " ++ name ++ " < " ++ code ++ "; " ++ name ++
      "++) \x7b").toList = _ by simp [Part.chars]) fun i hi => by
      by_cases hzero : i = 0
      · rw [if_pos hzero, if_pos hzero]
        exact ⟨Lexis.spells_of_cut (cut_programName hname), isName_ne_nil hname⟩
      · rw [if_neg hzero, if_neg hzero]
        exact ⟨hspells, hne⟩
  refine ⟨_, Lexis.lex_of_spells hparts, isClause_of_reads (by simp) (by simp) fun rest => ?_⟩
  have hexpression : readExpression programGrammar
      [.mark ";", .name name, .mark "++", .mark ")", .mark "\x7b"]
      (tokens ++ .mark ";" :: .name name :: .mark "++" :: .mark ")" :: .mark "\x7b" :: rest) =
        some (tree, rest) := readExpression_of_stops hderives (by decide)
  simp [readClause, hexpression]

/-- A function. -/
theorem isClauseText_function {params : List String} (hname : dialect.policy.IsName name)
    (hparams : ∀ param ∈ params, dialect.policy.IsName param) :
    Language.php.IsClauseText ("function " ++ name ++ "(" ++ joinWith ", " params ++ ") \x7b")
      (.function name params) := by
  have hspells := spells_function (g := programGrammar) faithful_program.readsCalls
    (show partSlots programLexis [.text "function ", .hole 0, .text ("(" ++ ") \x7b")] =
      some ([Token.mark "function"].map .token ++ .hole 0 ::
        (.mark "(" :: [Token.mark ")", .mark "\x7b"]).map .token) by decide)
    (show partSlots programLexis [.text "function ", .hole 0, .text "(", .hole 1, .text ") \x7b"] =
      some ([Token.mark "function"].map .token ++ .hole 0 :: .token (.mark "(") :: .hole 1 ::
        [Token.mark ")", .mark "\x7b"].map .token) by decide)
    ⟨cut_programName hname, isName_ne_nil hname⟩
    fun param hparam =>
      ⟨cut_programName (hparams param hparam), isName_ne_nil (hparams param hparam)⟩
  refine ⟨_, Lexis.lex_of_spells hspells, isClause_of_reads (by simp) (by simp) fun rest => ?_⟩
  have hread : readParams [.mark ")", .mark "\x7b"]
      (nameTokens params ++ (.mark ")" :: ([.mark "\x7b"] ++ rest))) = some (params, rest) :=
    readParams_nameTokens (by decide)
  simp only [List.singleton_append] at hread
  simp [readClause, hread]

theorem isClauseText_close : Language.php.IsClauseText "\x7d" .close := by
  refine ⟨[.mark "\x7d"], by decide, by simp, fun rest h => ?_, fun _ _ _ => by
    simp [Language.Follows]⟩
  change rest.head? ≠ some (.mark "else") at h
  cases rest with
  | nil => rfl
  | cons token rest =>
    have htoken : token ≠ .mark "else" := by simpa using h
    show readClause (.mark "\x7d" :: token :: rest) = _
    simp [readClause, htoken]

/-! ## Statements -/

theorem isClauseText_break : Language.php.IsClauseText "break;" (.jump .break) :=
  ⟨[.mark "break", .mark ";"], by decide, isClause_of_reads (by simp) (by simp) fun _ => rfl⟩

theorem isClauseText_continue : Language.php.IsClauseText "continue;" (.jump .continue) :=
  ⟨[.mark "continue", .mark ";"], by decide, isClause_of_reads (by simp) (by simp) fun _ => rfl⟩

theorem isClauseText_return : Language.php.IsClauseText "return;" (.giveBack none) :=
  ⟨[.mark "return", .mark ";"], by decide, isClause_of_reads (by simp) (by simp) fun _ => rfl⟩

theorem isClauseText_giveBack (h : IsExpression programGrammar code tree) :
    Language.php.IsClauseText ("return " ++ code ++ ";") (.giveBack (some tree)) := by
  refine isClauseText_around (fun tree => .giveBack (some tree)) h
    (show partSlots programLexis [.text "return ", .hole 0, .text ";"] =
      some ([Token.mark "return"].map .token ++ .hole 0 :: [Token.mark ";"].map .token) by decide)
    (by decide) (by decide) fun tokens rest hderives => ?_
  have hno : .mark ";" ∉ tokens := notMem_of_derives hderives (by decide)
  obtain ⟨token, more, rfl, -⟩ := hderives.starts programGrammar_proper
  have htoken : token ≠ .mark ";" := fun heq => hno (by simp [heq])
  simp [readClause, htoken]

/-- An assignment, or an increase of a variable. -/
theorem isClauseText_assigned {middle : String} (hname : dialect.policy.IsName name)
    (h : IsExpression programGrammar code tree)
    (hslots : partSlots programLexis [.hole 0, .text middle, .hole 1, .text ";"] =
      some [.hole 0, .token (.mark sign), .hole 1, .token (.mark ";")])
    (hread : ∀ tokens, readClause (.name name :: .mark sign :: tokens) =
      (readExpression programGrammar [.mark ";"] tokens).map
        fun (tree, rest) => (form tree, rest)) :
    Language.php.IsClauseText (name ++ middle ++ code ++ ";") (form tree) := by
  obtain ⟨tokens, hspells, hne, hderives⟩ := h
  have hparts := spells_of_parts (fun i => if i = 0 then name else code)
    (fun i => if i = 0 then [.name name] else tokens) hslots
    (show (name ++ middle ++ code ++ ";").toList = _ by simp [Part.chars]) fun i hi => by
      have hcases : i = 0 ∨ i = 1 := by simpa [partHoles] using hi
      rcases hcases with rfl | rfl
      · exact ⟨Lexis.spells_of_cut (cut_programName hname), isName_ne_nil hname⟩
      · exact ⟨hspells, hne⟩
  refine ⟨_, Lexis.lex_of_spells hparts, isClause_of_reads (by simp) (by simp) fun rest => ?_⟩
  have hexpression : readExpression programGrammar [.mark ";"] (tokens ++ .mark ";" :: rest) =
      some (tree, rest) := readExpression_of_stops hderives (by decide)
  simp [hread, hexpression]

theorem isClauseText_assign (hname : dialect.policy.IsName name)
    (h : IsExpression programGrammar code tree) :
    Language.php.IsClauseText (name ++ " = " ++ code ++ ";") (.assign name tree) :=
  isClauseText_assigned hname h
    (show partSlots programLexis [.hole 0, .text " = ", .hole 1, .text ";"] =
      some [.hole 0, .token (.mark "="), .hole 1, .token (.mark ";")] by decide) fun _ => rfl

theorem isClauseText_increase (hname : dialect.policy.IsName name)
    (h : IsExpression programGrammar code tree) :
    Language.php.IsClauseText (name ++ " += " ++ code ++ ";") (.increase name tree) :=
  isClauseText_assigned hname h
    (show partSlots programLexis [.hole 0, .text " += ", .hole 1, .text ";"] =
      some [.hole 0, .token (.mark "+="), .hole 1, .token (.mark ";")] by decide) fun _ => rfl

/-- A declaration of outer variables. -/
theorem isClauseText_outer {names : List String} (hne : names ≠ [])
    (hnames : ∀ name ∈ names, dialect.policy.IsName name) :
    Language.php.IsClauseText ("global " ++ joinWith ", " names ++ ";") (.outer names) := by
  obtain ⟨hspells, hsome⟩ := spells_nameTokens (g := programGrammar) faithful_program.readsCalls hne
    fun name hname => ⟨cut_programName (hnames name hname), isName_ne_nil (hnames name hname)⟩
  have hwhole := spells_around
    (show partSlots programLexis [.text "global ", .hole 0, .text ";"] =
      some ([Token.mark "global"].map .token ++ .hole 0 :: [Token.mark ";"].map .token) by decide)
    hspells hsome
  refine ⟨_, Lexis.lex_of_spells hwhole, isClause_of_reads (by simp) (by simp) fun rest => ?_⟩
  have hread : readNames (nameTokens names ++ (.mark ";" :: rest)) =
      some (names, [.mark ";"] ++ rest) := readNames_nameTokens hne (by simp)
  simp [readClause, hread, readBefore]

/-- An expression on its own. -/
theorem isClauseText_value (h : IsExpression programGrammar code tree) :
    Language.php.IsClauseText (code ++ ";") (.value tree) := by
  rw [← String.empty_append (s := code)]
  refine isClauseText_around .value h
    (show partSlots programLexis [.text "", .hole 0, .text ";"] =
      some (([] : List Token).map .token ++ .hole 0 :: [Token.mark ";"].map .token) by decide)
    (by decide) (by decide) fun tokens rest hderives => ?_
  have hno : ∀ sign ∉ programGrammar.marks, .mark sign ∉ tokens := fun _ hsign =>
    notMem_of_derives hderives hsign
  obtain ⟨token, more, rfl, -⟩ := hderives.starts programGrammar_proper
  show readClause (token :: (more ++ .mark ";" :: rest)) = _
  -- whatever another clause starts with is no part of the expression
  unfold readClause
  split
  case h_15 => rfl
  case h_13 name others heq | h_14 name others heq =>
    cases more with
    | nil => simp at heq
    | cons next more =>
      obtain ⟨rfl, -⟩ := List.cons.inj (List.cons.inj heq).2
      exact absurd (List.mem_cons_of_mem _ List.mem_cons_self) (hno _ (by decide))
  all_goals
    next heq =>
      obtain ⟨rfl, -⟩ := List.cons.inj heq
      exact absurd List.mem_cons_self (hno _ (by decide))

end BlockScript.Php
