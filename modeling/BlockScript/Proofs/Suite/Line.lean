import BlockScript.Proofs.Code.Spelling
import BlockScript.Proofs.Reading.Spelled
import BlockScript.Proofs.Suite.Reader

/-!
# Lines of Python

How Python reads a line that is a statement, or the header of one: by its tokens. The
expressions in it are parsed, and all tokens have to be used up, so no bracket or text
goes on in the next line and there is one statement in a line.

Results:

* `Python.readLine_assign` and the ones beside it: the lines that programs are made of.
* `Python.readLine_lineCode`: blanks at the end of a line make no difference.
-/

namespace BlockScript.Python

open BlockScript.Reading BlockScript.Text

/-! ## Lines -/

/-- A statement with none inside it, or the header of one with others inside it. -/
inductive Line where
  | conditional (condition : Expr)
  | elseIf (condition : Expr)
  | otherwise
  | whileLoop (condition : Expr)
  | forLoop (counter : String) (items : Expr)
  | function (name : String) (params : List String)
  | pass
  | jump (flow : FlowStatement)
  | giveBack (value : Option Expr)
  | outer (names : List String)
  | assign (name : String) (value : Expr)
  | value (value : Expr)

/-- What a line is among statements. -/
def Line.kind : Line → LineKind
  | .conditional _ => .start
  | .elseIf _ => .arm
  | .otherwise => .last
  | .whileLoop _ | .forLoop .. | .function .. => .header
  | _ => .simple

/-- The expression that tokens are up to the given last ones. -/
noncomputable def expressionBefore (last tokens : List Token) : Option Expr :=
  (parseAt grammar grammar.levels tokens).bind fun (tree, rest) =>
    if rest = last then some tree else none

/-- What ends a header. -/
def colon : List Token :=
  [.mark ":"]

/-- The words in a list of expressions that are all words. -/
def paramNames : List Expr → Option (List String)
  | [] => some []
  | .name word :: params => (paramNames params).map (word :: ·)
  | _ :: _ => none

/-- The words between commas. -/
def outerNames : List Token → Option (List String)
  | [.name word] => some [word]
  | .name word :: .mark "," :: tokens => (outerNames tokens).map (word :: ·)
  | _ => none

/-- The line that tokens are. -/
noncomputable def lineOf : List Token → Option Line
  | .mark "if" :: tokens => (expressionBefore colon tokens).map .conditional
  | .mark "elif" :: tokens => (expressionBefore colon tokens).map .elseIf
  | [.mark "else", .mark ":"] => some .otherwise
  | .mark "while" :: tokens => (expressionBefore colon tokens).map .whileLoop
  | .mark "for" :: .name counter :: .mark "in" :: tokens =>
    (expressionBefore colon tokens).map (.forLoop counter)
  | .mark "def" :: tokens =>
    (expressionBefore colon tokens).bind fun
      | .call (.name name) params => (paramNames params).map (.function name)
      | _ => none
  | [.mark "pass"] => some .pass
  | [.mark "break"] => some (.jump .break)
  | [.mark "continue"] => some (.jump .continue)
  | [.mark "return"] => some (.giveBack none)
  | .mark "return" :: tokens => (expressionBefore [] tokens).map fun value => .giveBack (some value)
  | .mark "global" :: tokens => (outerNames tokens).map .outer
  | .name name :: .mark "=" :: tokens => (expressionBefore [] tokens).map (.assign name)
  | tokens => (expressionBefore [] tokens).map .value

/-- Reads a line without the blanks ahead of it. -/
noncomputable def readLine (code : String) : Option Line :=
  (lexis.lex code).bind lineOf

/-- Reads lines, each with its indentation. -/
noncomputable def readLines : List (Nat × String) → Option (List (Nat × Line))
  | [] => some []
  | (width, code) :: lines =>
    (readLine code).bind fun line => (readLines lines).map ((width, line) :: ·)

/-- Reads lines as statements by the indentation rule. -/
noncomputable def readSuite (lines : List (Nat × String)) : Option (Suite Line) :=
  (readLines lines).bind (Suite.read Line.kind)

/-! ## Lines of an outline -/

theorem readLines_append (lines more : List (Nat × String)) :
    readLines (lines ++ more) =
      (readLines lines).bind fun read => (readLines more).map (read ++ ·) := by
  induction lines with
  | nil => cases h : readLines more <;> simp [readLines, h]
  | cons line lines ih =>
    rw [List.cons_append, readLines, ih, readLines]
    cases readLine line.2 with
    | none => rfl
    | some first => cases readLines lines <;> cases readLines more <;> rfl

theorem readLines_shift (width : Nat) (lines : List (Nat × String)) :
    readLines (lines.map (shift width)) = (readLines lines).map (List.map (shift width)) := by
  induction lines with
  | nil => rfl
  | cons line lines ih =>
    rw [List.map_cons, readLines, readLines, shift, ih]
    cases readLine line.2 with
    | none => rfl
    | some first => cases readLines lines <;> rfl

/-- Lines that are laid out by depth. -/
theorem readLines_layout {α : Type} {width : Nat} {code : α → String} {line : α → Line}
    {outline : Outline α} (h : outline.All fun label => readLine (code label) = some (line label)) :
    readLines ((outline.map code).layout width) = some ((outline.map line).layout width) := by
  induction outline with
  | nil => rfl
  | line label inside rest ihInside ihRest =>
    obtain ⟨hlabel, hinside, hrest⟩ := h
    rw [Outline.map_line, Outline.layout, List.cons_append, readLines, hlabel, readLines_append,
      readLines_shift, ihInside hinside, ihRest hrest]
    rfl

/-! ## Expressions -/

/-- Whether a text is an expression with a tree. -/
def IsExpression (code : String) (tree : Expr) : Prop :=
  Reading.IsExpression grammar code tree

theorem isExpression_of_reads {levels : List Level} {code : String} {tree : Expr}
    (hlevels : levels <:+ grammar.levels) (h : Reads grammar isFunctionName levels code tree) :
    ∃ parsed, Regrouped tree parsed ∧ IsExpression code parsed :=
  h.exists_isExpression (fun _ => rfl) hlevels

variable {code : String} {tokens : List Token} {tree : Expr}

theorem expressionBefore_of_derives {last : List Token}
    (h : Derives grammar (.within grammar.levels) tokens tree) (hlast : Stops grammar.levels last) :
    expressionBefore last (tokens ++ last) = some tree := by
  simp [expressionBefore, h.parseAt_eq grammar_proper (List.suffix_refl _) hlast]

theorem expressionBefore_colon (h : Derives grammar (.within grammar.levels) tokens tree) :
    expressionBefore colon (tokens ++ colon) = some tree :=
  expressionBefore_of_derives h ⟨rfl, by decide⟩

theorem expressionBefore_nil (h : Derives grammar (.within grammar.levels) tokens tree) :
    expressionBefore [] tokens = some tree := by
  have hlast := expressionBefore_of_derives h (stops_nil _)
  rwa [List.append_nil] at hlast

attribute [local simp] lineOf

/-- No expression starts with a keyword of a statement. -/
theorem lineOf_of_derives (h : Derives grammar (.within grammar.levels) tokens tree) :
    lineOf tokens = some (.value tree) := by
  have hexpression := expressionBefore_nil h
  obtain ⟨token, rest, rfl, hstarts⟩ := h.starts grammar_proper
  cases token with
  | number digits | text literal => simp [hexpression]
  | mark sign =>
    have haheads : ∀ level ∈ grammar.levels, ∀ sign ∈ level.aheadSigns, sign = "not" ∨ sign = "-" := by
      decide
    rcases hstarts sign rfl with rfl | hlist | ⟨level, hlevel, hsign⟩
    · simp [hexpression]
    · obtain rfl : "[" = sign := by simpa [grammar] using hlist
      simp [hexpression]
    · rcases haheads level hlevel sign hsign with rfl | rfl <;> simp [hexpression]
  | name word =>
    -- a word ahead of the sign of an assignment is no longer expression
    have hno : ∀ more, rest ≠ .mark "=" :: more := by
      rintro more rfl
      have hword : Derives grammar (.within grammar.levels) [.name word] (.name word) :=
        (Derives.owner (.name rfl)).weaken List.nil_suffix
      have hstops : Stops grammar.levels (.mark "=" :: more) :=
        ⟨rfl, by simp [nextSign]; decide⟩
      have hparse := hword.parseAt_eq grammar_proper (List.suffix_refl _) hstops
      simp [expressionBefore, show parseAt grammar grammar.levels (.name word :: .mark "=" :: more) =
        some (.name word, .mark "=" :: more) from hparse] at hexpression
    cases rest with
    | nil => simp [hexpression]
    | cons next more =>
      cases next with
      | mark sign =>
        have hsign : sign ≠ "=" := fun heq => hno more (by rw [heq])
        simp [hexpression, hsign]
      | _ => simp [hexpression]

/-! ## Tokens of lines -/

/-- The tokens of a keyword with what follows it. -/
theorem spells_keyword (keyword lead : String)
    (hslots : partSlots lexis [.text lead, .hole 0] = some [.token (.mark keyword), .hole 0])
    (hspells : lexis.Spells IsCloser code.toList tokens) (hne : code.toList ≠ []) :
    lexis.Spells IsCloser (lead ++ code).toList (.mark keyword :: tokens) :=
  spells_after (show partSlots lexis [.text lead, .hole 0] =
    some ([Token.mark keyword].map .token ++ [.hole 0]) from hslots) hspells hne

/-- The colon at the end of a header. -/
theorem lex_colon (h : lexis.Spells IsCloser code.toList tokens) :
    lexis.lex (code ++ ":") = some (tokens ++ colon) := by
  have hcolon : lexis.Spells (fun _ => False) [':'] colon :=
    ⟨[], .sign [':'], colon, by decide, by decide, rfl, fun _ hno => hno.elim⟩
  have hwhole := h.append hcolon (by decide)
  exact Lexis.lex_of_spells (by simpa using hwhole)

theorem readLine_of_lex (hlex : lexis.lex code = some tokens) : readLine code = lineOf tokens := by
  rw [readLine, hlex, Option.bind_some]

/-- Blanks at the end of a line make no difference. -/
theorem readLine_lineCode {line : Line} (h : readLine code = some line) :
    readLine (lineCode (code ++ "\n")) = some line := by
  obtain ⟨tokens, hlex, hline⟩ := Option.bind_eq_some_iff.mp h
  rw [readLine_of_lex (lexis_plain.lex_lineCode hlex), hline]

/-! ## The lines of programs -/

theorem readLine_value (h : IsExpression code tree) : readLine code = some (.value tree) := by
  obtain ⟨tokens, hspells, -, hderives⟩ := h
  rw [readLine_of_lex (Lexis.lex_of_spells hspells), lineOf_of_derives hderives]

theorem readLine_conditional (h : IsExpression code tree) :
    readLine ("if " ++ code ++ ":") = some (.conditional tree) := by
  obtain ⟨tokens, hspells, hne, hderives⟩ := h
  rw [readLine_of_lex (lex_colon (spells_keyword "if" "if " (by decide) hspells hne))]
  simp [expressionBefore_colon hderives]

theorem readLine_elseIf (h : IsExpression code tree) :
    readLine ("elif " ++ code ++ ":") = some (.elseIf tree) := by
  obtain ⟨tokens, hspells, hne, hderives⟩ := h
  rw [readLine_of_lex (lex_colon (spells_keyword "elif" "elif " (by decide) hspells hne))]
  simp [expressionBefore_colon hderives]

theorem readLine_whileLoop (h : IsExpression code tree) :
    readLine ("while " ++ code ++ ":") = some (.whileLoop tree) := by
  obtain ⟨tokens, hspells, hne, hderives⟩ := h
  rw [readLine_of_lex (lex_colon (spells_keyword "while" "while " (by decide) hspells hne))]
  simp [expressionBefore_colon hderives]

theorem readLine_giveBack (h : IsExpression code tree) :
    readLine ("return " ++ code) = some (.giveBack (some tree)) := by
  obtain ⟨tokens, hspells, hne, hderives⟩ := h
  rw [readLine_of_lex (Lexis.lex_of_spells (spells_keyword "return" "return " (by decide) hspells hne))]
  obtain ⟨token, rest, rfl, -⟩ := hderives.starts grammar_proper
  simp [expressionBefore_nil hderives]

theorem readLine_otherwise : readLine "else:" = some .otherwise := by
  have hlex : lexis.lex "else:" = some [.mark "else", .mark ":"] := by decide
  rw [readLine_of_lex hlex, lineOf]

theorem readLine_pass : readLine "pass" = some .pass := by
  have hlex : lexis.lex "pass" = some [.mark "pass"] := by decide
  rw [readLine_of_lex hlex, lineOf]

theorem readLine_break : readLine "break" = some (.jump .break) := by
  have hlex : lexis.lex "break" = some [.mark "break"] := by decide
  rw [readLine_of_lex hlex, lineOf]

theorem readLine_continue : readLine "continue" = some (.jump .continue) := by
  have hlex : lexis.lex "continue" = some [.mark "continue"] := by decide
  rw [readLine_of_lex hlex, lineOf]

theorem readLine_return : readLine "return" = some (.giveBack none) := by
  have hlex : lexis.lex "return" = some [.mark "return"] := by decide
  rw [readLine_of_lex hlex, lineOf]

/-! ## Names -/

variable {name : String} {names : List String}

theorem cut_isName (h : dialect.policy.IsName name) :
    lexis.cut name.toList = some ([.name name], false) := by
  obtain ⟨kind, word, rfl, hfits⟩ := h
  have hsign : dialect.policy.sign kind = "" := by cases kind <;> rfl
  rw [hsign, String.empty_append]
  exact cut_name hfits

theorem spells_isName (h : dialect.policy.IsName name) :
    lexis.Spells IsCloser name.toList [.name name] :=
  Lexis.spells_of_cut (cut_isName h)

theorem isName_ne_nil (h : dialect.policy.IsName name) : name.toList ≠ [] := by
  intro hnil
  have hcut := cut_isName h
  rw [hnil] at hcut
  cases hcut

theorem reads_isName {levels : List Level} (h : dialect.policy.IsName name) :
    Reads grammar isFunctionName levels name (.name name) := by
  obtain ⟨kind, word, rfl, hfits⟩ := h
  have hsign : dialect.policy.sign kind = "" := by cases kind <;> rfl
  rw [hsign, String.empty_append]
  exact reads_name (opens_identifier hfits.identifier) (cut_name hfits) rfl

theorem readLine_assign (hname : dialect.policy.IsName name) (h : IsExpression code tree) :
    readLine (name ++ " = " ++ code) = some (.assign name tree) := by
  obtain ⟨tokens, hspells, hne, hderives⟩ := h
  have hparts := spells_of_parts (fun i => if i = 0 then name else code)
    (fun i => if i = 0 then [.name name] else tokens)
    (show partSlots lexis [.hole 0, .text " = ", .hole 1] =
      some [.hole 0, .token (.mark "="), .hole 1] by decide)
    (show (name ++ " = " ++ code).toList = _ by simp [Part.chars]) fun i hi => by
      have hcases : i = 0 ∨ i = 1 := by simpa [partHoles] using hi
      rcases hcases with rfl | rfl
      · exact ⟨spells_isName hname, isName_ne_nil hname⟩
      · exact ⟨hspells, hne⟩
  rw [readLine_of_lex (Lexis.lex_of_spells hparts)]
  simp [Phrase.fill, Phrase.Slot.tokens, expressionBefore_nil hderives]

/-- A loop over a range. -/
theorem readLine_forLoop (hname : dialect.policy.IsName name) (h : IsExpression code tree) :
    readLine ("for " ++ name ++ " in " ++ code ++ ":") = some (.forLoop name tree) := by
  obtain ⟨tokens, hspells, hne, hderives⟩ := h
  have hparts := spells_of_parts (fun i => if i = 0 then name else code)
    (fun i => if i = 0 then [.name name] else tokens)
    (show partSlots lexis [.text "for ", .hole 0, .text " in ", .hole 1] =
      some [.token (.mark "for"), .hole 0, .token (.mark "in"), .hole 1] by decide)
    (show ("for " ++ name ++ " in " ++ code).toList = _ by simp [Part.chars]) fun i hi => by
      have hcases : i = 0 ∨ i = 1 := by simpa [partHoles] using hi
      rcases hcases with rfl | rfl
      · exact ⟨spells_isName hname, isName_ne_nil hname⟩
      · exact ⟨hspells, hne⟩
  rw [readLine_of_lex (lex_colon hparts)]
  simp [Phrase.fill, Phrase.Slot.tokens, expressionBefore_colon hderives]

/-! ## Calls -/

/-- A call of a word is an expression if the arguments are. -/
theorem isExpression_call (name : String) {codes : List String} {trees : List Expr}
    (hname : lexis.cut name.toList = some ([.name name], false))
    (h : List.Forall₂ IsExpression codes trees) :
    IsExpression (name ++ "(" ++ joinWith ", " codes ++ ")") (.call (.name name) trees) :=
  Reading.isExpression_call faithful.readsCalls hname h

theorem isExpression_isName (h : dialect.policy.IsName name) : IsExpression name (.name name) :=
  isExpression_name (cut_isName h) rfl (isName_ne_nil h)

theorem paramNames_map (names : List String) : paramNames (names.map .name) = some names := by
  induction names with
  | nil => rfl
  | cons name names ih => simp [paramNames, ih]

theorem readLine_function (hname : dialect.policy.IsName name)
    (hnames : ∀ param ∈ names, dialect.policy.IsName param) :
    readLine ("def " ++ (name ++ "(" ++ joinWith ", " names ++ ")") ++ ":") =
      some (.function name names) := by
  have hparams : List.Forall₂ IsExpression names (names.map .name) := by
    rw [List.forall₂_map_right_iff, List.forall₂_same]
    exact fun param hparam => isExpression_isName (hnames param hparam)
  obtain ⟨tokens, hspells, hne, hderives⟩ := isExpression_call name (cut_isName hname) hparams
  rw [readLine_of_lex (lex_colon (spells_keyword "def" "def " (by decide) hspells hne))]
  simp [expressionBefore_colon hderives, paramNames_map]

/-! ## Declarations of outer variables -/

theorem outerNames_nameTokens (h : names ≠ []) : outerNames (nameTokens names) = some names := by
  induction names with
  | nil => exact absurd rfl h
  | cons name names ih =>
    cases names with
    | nil => rfl
    | cons next rest => simp [nameTokens, outerNames, ih (by simp)]

theorem readLine_outer (h : names ≠ []) (hnames : ∀ name ∈ names, dialect.policy.IsName name) :
    readLine ("global " ++ joinWith ", " names) = some (.outer names) := by
  obtain ⟨hspells, hne⟩ := spells_nameTokens faithful.readsCalls h fun name hname =>
    ⟨cut_isName (hnames name hname), isName_ne_nil (hnames name hname)⟩
  rw [readLine_of_lex
    (Lexis.lex_of_spells (spells_keyword "global" "global " (by decide) hspells hne))]
  simp [outerNames_nameTokens h]

/-! ## Counts and summands -/

/-- An integer. -/
theorem isExpression_toString (n : Int) : ∃ tree, IsExpression (toString n) tree :=
  Reading.isExpression_toString faithful.readsMinus n

/-- The value that a change of a variable assigns. -/
theorem isExpression_change {summand : String} (hname : dialect.policy.IsName name)
    (h : Fills grammar isFunctionName additive true summand tree) :
    ∃ value, IsExpression
      ("(" ++ name ++ " if isinstance(" ++ name ++ ", Number) else 0) + " ++ summand) value := by
  have hentry : entry grammar isFunctionName additive [(.atomic, false), (additive, true)]
      [.text "(", .hole 0, .text " if isinstance(", .hole 0, .text ", Number) else 0) + ", .hole 1]
      (.binary "+" (.group (.conditional (.hole 0)
        (.call "isinstance" [] [.hole 0, .path "Number" []]) (.number "0"))) (.hole 1)) = true := by
    decide
  have hfills : Fills grammar isFunctionName .atomic false name (.name name) :=
    ⟨reads_isName hname, fun hzero => by cases hzero⟩
  have hoperands : AllFill grammar isFunctionName [(.atomic, false), (additive, true)]
      [name, summand] [.name name, tree] := .cons hfills (.cons h .nil)
  have hcode : ("(" ++ name ++ " if isinstance(" ++ name ++ ", Number) else 0) + " ++ summand).toList =
      [Part.text "(", .hole 0, .text " if isinstance(", .hole 0, .text ", Number) else 0) + ",
        .hole 1].flatMap (Part.chars fun i => [name, summand].getD i "") := by
    simp [Part.chars]
  have hrenders := renders_of_entry hentry hcode hoperands
  obtain ⟨parsed, -, hparsed⟩ := isExpression_of_reads (List.dropWhile_suffix _) hrenders.reads
  exact ⟨parsed, hparsed⟩

end BlockScript.Python
