import BlockScript.Proofs.Brackets.Reader
import BlockScript.Proofs.Code.Operand
import BlockScript.Proofs.Expression.PhpProgram
import BlockScript.Proofs.Reading.Spelled

/-!
# Clauses of Lua and PHP

How Lua and PHP tell the statements of a program apart, and what opens and closes its
blocks. Lines do not matter: a clause takes the tokens that belong to it, and what it is
shows from its first few tokens. Expressions are parsed, and a clause ends where the last
of them does, or at a sign that comes after it.

In Lua nothing ends a statement, so the next one has to start with a token that no
expression goes on with, and a return ends the block that it is in. In PHP a brace that
closes a block goes on with the conditional if `else` comes after it.

Results:

* `Language.readBlocks`: the statements of a program.
* `Language.readBlocks_of_gather`: clauses that are known for every line.
-/

namespace BlockScript

open BlockScript.Reading

/-! ## Clauses -/

/-- A statement with none inside it, or what opens or closes a block. -/
inductive Clause where
  | conditional (condition : Expr)
  | elseIf (condition : Expr)
  | otherwise
  | whileLoop (condition : Expr)
  | countedLoop (counter : String) (count : Expr)
  | function (name : String) (params : List String)
  | close
  | jump (flow : FlowStatement)
  | label
  | giveBack (value : Option Expr)
  | outer (names : List String)
  | assign (name : String) (value : Expr)
  | increase (name : String) (amount : Expr)
  | value (value : Expr)

/-- What a clause is among others. -/
def Clause.kind : Clause → ClauseKind
  | .conditional _ => .start
  | .elseIf _ => .arm
  | .otherwise => .last
  | .whileLoop _ | .countedLoop .. | .function .. => .header
  | .close => .closer
  | .giveBack _ => .final
  | _ => .simple

/-! ## Parts of clauses -/

section Parts

variable {α : Type}

/-- What is read from the start of tokens if the given ones follow, with those left after
    these. -/
def readBefore (last : List Token) (read : Option (α × List Token)) : Option (α × List Token) :=
  read.bind fun (result, rest) =>
    if last.isPrefixOf rest then some (result, rest.drop last.length) else none

/-- The names with commas between them at the start of tokens. -/
def readNames : List Token → Option (List String × List Token)
  | .name word :: .mark "," :: tokens =>
    (readNames tokens).map fun (words, rest) => (word :: words, rest)
  | .name word :: rest => some ([word], rest)
  | _ => none

/-- The names at the start of tokens, if there are any, ahead of the given ones. -/
def readParams (last tokens : List Token) : Option (List String × List Token) :=
  if last.isPrefixOf tokens then some ([], tokens.drop last.length)
  else readBefore last (readNames tokens)

/-- The expression at the start of tokens, ahead of the given ones. -/
noncomputable def readExpression (g : Grammar) (last tokens : List Token) :
    Option (Expr × List Token) :=
  readBefore last (parseAt g g.levels tokens)

variable {last rest tokens : List Token} {g : Grammar} {tree : Expr} {names : List String}

theorem readBefore_append (result : α) :
    readBefore last (some (result, last ++ rest)) = some (result, rest) := by
  simp [readBefore]

theorem readExpression_of_derives (hg : g.Proper)
    (h : Derives g (.within g.levels) tokens tree) (hlast : Stops g.levels (last ++ rest)) :
    readExpression g last (tokens ++ (last ++ rest)) = some (tree, rest) := by
  rw [readExpression, h.parseAt_eq hg (List.suffix_refl _) hlast, readBefore_append]

theorem readNames_nameTokens (h : names ≠ []) (hrest : rest.head? ≠ some (.mark ",")) :
    readNames (nameTokens names ++ rest) = some (names, rest) := by
  induction names with
  | nil => exact absurd rfl h
  | cons name names ih =>
    cases names with
    | nil =>
      cases rest with
      | nil => rfl
      | cons token rest =>
        have htoken : token ≠ .mark "," := fun heq => hrest (by rw [heq]; rfl)
        simp [nameTokens, readNames, htoken]
    | cons next more => simp [nameTokens, readNames, ih (by simp)]

theorem readParams_nameTokens {sign : String} (hsign : sign ≠ ",") :
    readParams (.mark sign :: last) (nameTokens names ++ (.mark sign :: last ++ rest)) =
      some (names, rest) := by
  by_cases hnames : names = []
  · subst hnames
    simp [readParams, nameTokens]
  · have hfirst : ¬(Token.mark sign :: last).isPrefixOf
        (nameTokens names ++ (.mark sign :: last ++ rest)) = true := by
      obtain ⟨name, names, rfl⟩ := List.exists_cons_of_ne_nil hnames
      cases names <;> simp [nameTokens]
    have hread : readNames (nameTokens names ++ (.mark sign :: last ++ rest)) =
        some (names, .mark sign :: last ++ rest) :=
      readNames_nameTokens hnames (by simpa using hsign)
    rw [readParams, if_neg hfirst, hread, readBefore_append]

end Parts

/-! ## Lua -/

namespace Lua

/-- Whether a body ends ahead of tokens. -/
def endsBody : List Token → Bool
  | [] => true
  | .mark sign :: _ => ["end", "else", "elseif", "until"].contains sign
  | _ => false

/-- The clause at the start of tokens. -/
noncomputable def readClause : List Token → Option (Clause × List Token)
  | .mark "if" :: tokens =>
    (readExpression grammar [.mark "then"] tokens).map fun (tree, rest) => (.conditional tree, rest)
  | .mark "elseif" :: tokens =>
    (readExpression grammar [.mark "then"] tokens).map fun (tree, rest) => (.elseIf tree, rest)
  | .mark "else" :: tokens => some (.otherwise, tokens)
  | .mark "while" :: tokens =>
    (readExpression grammar [.mark "do"] tokens).map fun (tree, rest) => (.whileLoop tree, rest)
  | .mark "for" :: .name counter :: .mark "=" :: .number "1" :: .mark "," :: tokens =>
    (readExpression grammar [.mark "do"] tokens).map fun (tree, rest) =>
      (.countedLoop counter tree, rest)
  | .mark "function" :: .name name :: .mark "(" :: tokens =>
    (readParams [.mark ")"] tokens).map fun (params, rest) => (.function name params, rest)
  | .mark "end" :: tokens => some (.close, tokens)
  | .mark "break" :: tokens => some (.jump .break, tokens)
  | .mark "goto" :: .name "continue" :: tokens => some (.jump .continue, tokens)
  | .mark "::" :: .name "continue" :: .mark "::" :: tokens => some (.label, tokens)
  | .mark "return" :: tokens =>
    if endsBody tokens then some (.giveBack none, tokens)
    else (readExpression grammar [] tokens).map fun (tree, rest) => (.giveBack (some tree), rest)
  | .mark "local" :: .name _ :: .mark "=" :: tokens =>
    (readExpression grammar [] tokens).map fun (tree, rest) => (.value tree, rest)
  | .name name :: .mark "=" :: tokens =>
    (readExpression grammar [] tokens).map fun (tree, rest) => (.assign name tree, rest)
  | .name name :: .mark "(" :: tokens =>
    (readExpression grammar [] (.name name :: .mark "(" :: tokens)).bind fun
      | (.call owner args, rest) => some (.value (.call owner args), rest)
      | _ => none
  | _ => none

/-- A return in the middle of a body would be read as one with a value. -/
example : readClause [.mark "return", .mark "end"] = some (.giveBack none, [.mark "end"]) := by
  rw [readClause]; rfl

end Lua

/-! ## PHP -/

namespace Php

/-- The clause at the start of tokens. -/
noncomputable def readClause : List Token → Option (Clause × List Token)
  | .mark "if" :: .mark "(" :: tokens =>
    (readExpression programGrammar [.mark ")", .mark "\x7b"] tokens).map fun (tree, rest) =>
      (.conditional tree, rest)
  | .mark "\x7d" :: .mark "else" :: .mark "if" :: .mark "(" :: tokens =>
    (readExpression programGrammar [.mark ")", .mark "\x7b"] tokens).map fun (tree, rest) =>
      (.elseIf tree, rest)
  | .mark "\x7d" :: .mark "else" :: .mark "\x7b" :: tokens => some (.otherwise, tokens)
  | .mark "while" :: .mark "(" :: tokens =>
    (readExpression programGrammar [.mark ")", .mark "\x7b"] tokens).map fun (tree, rest) =>
      (.whileLoop tree, rest)
  | .mark "for" :: .mark "(" :: .name counter :: .mark "=" :: .number "0" :: .mark ";" ::
      .name compared :: .mark "<" :: tokens =>
    if compared = counter then
      (readExpression programGrammar
        [.mark ";", .name counter, .mark "++", .mark ")", .mark "\x7b"] tokens).map
          fun (tree, rest) => (.countedLoop counter tree, rest)
    else none
  | .mark "function" :: .name name :: .mark "(" :: tokens =>
    (readParams [.mark ")", .mark "\x7b"] tokens).map fun (params, rest) =>
      (.function name params, rest)
  | .mark "\x7d" :: tokens => some (.close, tokens)
  | .mark "break" :: .mark ";" :: tokens => some (.jump .break, tokens)
  | .mark "continue" :: .mark ";" :: tokens => some (.jump .continue, tokens)
  | .mark "return" :: .mark ";" :: tokens => some (.giveBack none, tokens)
  | .mark "return" :: tokens =>
    (readExpression programGrammar [.mark ";"] tokens).map fun (tree, rest) =>
      (.giveBack (some tree), rest)
  | .mark "global" :: tokens =>
    (readBefore [.mark ";"] (readNames tokens)).map fun (names, rest) => (.outer names, rest)
  | .name name :: .mark "=" :: tokens =>
    (readExpression programGrammar [.mark ";"] tokens).map fun (tree, rest) =>
      (.assign name tree, rest)
  | .name name :: .mark "+=" :: tokens =>
    (readExpression programGrammar [.mark ";"] tokens).map fun (tree, rest) =>
      (.increase name tree, rest)
  | tokens =>
    (readExpression programGrammar [.mark ";"] tokens).map fun (tree, rest) => (.value tree, rest)

end Php

/-! ## Programs -/

namespace Language

/-- The grammar that the programs of a language are read by. -/
def programGrammar : Language → Grammar
  | .python => Python.grammar
  | .lua => Lua.grammar
  | .php => Php.programGrammar

/-- The clause at the start of tokens, in a language with brackets. -/
noncomputable def readClause : Language → List Token → Option (Clause × List Token)
  | .python => fun _ => none
  | .lua => Lua.readClause
  | .php => Php.readClause

variable (language : Language)

theorem programGrammar_plain : language.programGrammar.lexis.Plain := by
  cases language with
  | python => exact Python.lexis_plain
  | lua => exact Lua.lexis_plain
  | php => exact Php.programLexis_plain

/-- The tokens of lines. The end of a line is no more than a blank, and no token goes on
    in the next one. -/
def lexLines : List String → Option (List Token)
  | [] => some []
  | line :: lines =>
    (language.programGrammar.lexis.lex line).bind fun tokens =>
      (lexLines lines).map (tokens ++ ·)

/-- The statements of the lines of a program. -/
noncomputable def readBlocks (lines : List String) : Option (Suite Clause) :=
  ((language.lexLines lines).bind (readClauses language.readClause)).bind
    (Suite.ofClauses Clause.kind)

/-- Whether tokens can follow a clause of a kind. -/
def Follows : Language → ClauseKind → List Token → Prop
  | .lua, kind, rest =>
    Stops Lua.grammar.levels rest ∧ (kind = .final → Lua.endsBody rest = true)
  | .php, _, rest => rest.head? ≠ some (.mark "else")
  | .python, _, _ => True

/-- Whether tokens are a clause, and can follow others. -/
structure IsClause (tokens : List Token) (clause : Clause) : Prop where
  ne_nil : tokens ≠ []
  reads (rest : List Token) (h : language.Follows clause.kind rest) :
    language.readClause (tokens ++ rest) = some (clause, rest)
  follows (kind : ClauseKind) (rest : List Token)
    (h : kind = .final → clause.kind.endsBody = true) : language.Follows kind (tokens ++ rest)

/-- Whether the text of a line is a clause. -/
def IsClauseText (code : String) (clause : Clause) : Prop :=
  ∃ tokens, language.programGrammar.lexis.lex code = some tokens ∧ language.IsClause tokens clause

variable {language}

theorem follows_nil (kind : ClauseKind) : language.Follows kind [] := by
  cases language with
  | python => trivial
  | lua => exact ⟨stops_nil _, fun _ => rfl⟩
  | php => exact nofun

/-- A text is one clause at most. -/
theorem IsClauseText.unique {code : String} {clause other : Clause}
    (h : language.IsClauseText code clause) (hother : language.IsClauseText code other) :
    clause = other := by
  obtain ⟨tokens, hlex, hclause⟩ := h
  obtain ⟨tokens', hlex', hclause'⟩ := hother
  cases hlex.symm.trans hlex'
  have hread := hclause.reads [] (follows_nil _)
  have hread' := hclause'.reads [] (follows_nil _)
  exact congrArg Prod.fst (Option.some.inj (hread.symm.trans hread'))

section Lines

variable {α : Type} {lines : List α} {text : α → String} {clause : α → Clause}
  {tokens : α → List Token}

theorem lexLines_map
    (h : ∀ line ∈ lines, language.programGrammar.lexis.lex (text line) = some (tokens line)) :
    language.lexLines (lines.map text) = some (lines.flatMap tokens) := by
  induction lines with
  | nil => rfl
  | cons line lines ih =>
    obtain ⟨hline, hlines⟩ := List.forall_mem_cons.mp h
    rw [List.map_cons, lexLines, hline, ih hlines]
    rfl

/-- The clauses of lines are read if only the end of a body comes after a last
    statement. -/
theorem readClauses_of_gather {bodies ends : List (BodyEnd α)}
    (h : ∀ line ∈ lines, language.IsClause (tokens line) (clause line))
    (hgather : gather (fun line => (clause line).kind) bodies lines = some ends) :
    readClauses language.readClause (lines.flatMap tokens) = some (lines.map clause) := by
  refine readClauses_flatMap fun before line after hsplit => ?_
  subst hsplit
  have hline := h line (by simp)
  refine ⟨hline.ne_nil, hline.reads _ ?_⟩
  cases after with
  | nil => exact follows_nil _
  | cons next after =>
    rw [List.flatMap_cons]
    refine (h next (by simp)).follows _ _ fun hfinal => ?_
    obtain ⟨later, hlater⟩ := gather_of_append hgather
    rcases final_followed hlater hfinal with hnone | ⟨other, rest, heq, hends⟩
    · cases hnone
    · cases heq
      exact hends

/-- The statements of lines whose clauses are known. -/
theorem readBlocks_of_gather {suite : Suite α}
    (h : ∀ line ∈ lines, language.IsClauseText (text line) (clause line))
    (hsuite : Suite.ofClauses (fun line => (clause line).kind) lines = some suite) :
    language.readBlocks (lines.map text) = some (suite.map clause) := by
  have htokens : ∀ line ∈ lines, language.programGrammar.lexis.lex (text line) =
      some ((language.programGrammar.lexis.lex (text line)).getD []) := by
    intro line hline
    obtain ⟨tokens, hlex, -⟩ := h line hline
    rw [hlex]
    rfl
  have hclauses : ∀ line ∈ lines, language.IsClause
      ((language.programGrammar.lexis.lex (text line)).getD []) (clause line) := by
    intro line hline
    obtain ⟨tokens, hlex, hclause⟩ := h line hline
    rw [hlex]
    exact hclause
  rw [readBlocks, lexLines_map htokens, Option.bind_some,
    readClauses_of_gather hclauses (Suite.ofClauses_eq_some hsuite), Option.bind_some,
    Suite.ofClauses_map, hsuite]
  rfl

end Lines

end Language

end BlockScript
