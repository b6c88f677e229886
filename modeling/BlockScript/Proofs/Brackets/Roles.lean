import BlockScript.Proofs.Brackets.Lines
import BlockScript.Proofs.Brackets.Lua
import BlockScript.Proofs.Brackets.Php
import BlockScript.Proofs.Code.Spelling

/-!
# The clauses of a Lua or PHP program

What the parts of a program are when Lua or PHP reads them: a conditional or another arm
of one, a loop, a procedure, what closes one of these, or a statement of the kind that the
part is there for.

Results:

* `Scene.Speaks.exists_clausal`: the line that spells a part, with its clause.
-/

namespace BlockScript

open BlockScript.Reading BlockScript.Text

/-! ## Expressions of a program -/

namespace Language

/-- Which words of a language can be called in a program. -/
def isProgramName : Language → String → Bool
  | .python => Python.isFunctionName
  | .lua => Lua.isFunctionName
  | .php => Php.isProgramName

variable {language : Language} {code name : String} {tree : Expr} {clause : Clause}

/-- The tables of a language give the texts of its phrases, whatever the names of
    procedures are. -/
theorem faithful_program (language : Language) :
    language.dialect.Faithful language.programGrammar language.isProgramName language.phrases := by
  cases language with
  | python => exact Python.faithful
  | lua => exact Lua.faithful
  | php => exact Php.faithful_program

/-- Whether a text is an expression in a program. -/
abbrev IsExpression (language : Language) (code : String) (tree : Expr) : Prop :=
  Reading.IsExpression language.programGrammar code tree

/-- Whether a text is a value in a program. -/
abbrev IsProgramOperand (language : Language) (code : String) : Prop :=
  Reading.IsOperand language.programGrammar language.isProgramName code

theorem exists_isExpression (h : language.IsProgramOperand code) :
    ∃ tree, language.IsExpression code tree := by
  obtain ⟨tree, hreads⟩ := h
  have hall : ∀ word, language.isProgramName word = true := by
    cases language <;> exact fun _ => rfl
  obtain ⟨parsed, -, hparsed⟩ := hreads.exists_isExpression hall (List.suffix_refl _)
  exact ⟨parsed, hparsed⟩

/-! ## Lines -/

/-- Whether a text is a line that is a clause. -/
def IsClauseLine (language : Language) (text : String) (clause : Clause) : Prop :=
  ∃ code, text = code ++ "\n" ∧ language.IsClauseText code clause

section Lines

variable (hlanguage : language = .lua ∨ language = .php)
include hlanguage

theorem isClauseLine_ifHeader (h : language.IsExpression code tree) :
    language.IsClauseLine (language.dialect.ifHeader code) (.conditional tree) := by
  rcases hlanguage with rfl | rfl
  · exact ⟨_, by simp [dialect, Lua.dialect, ← String.toList_inj], Lua.isClauseText_conditional h⟩
  · exact ⟨_, by simp [dialect, Php.dialect, ← String.toList_inj], Php.isClauseText_conditional h⟩

theorem isClauseLine_elseIfHeader (h : language.IsExpression code tree) :
    language.IsClauseLine (language.dialect.elseIfHeader code) (.elseIf tree) := by
  rcases hlanguage with rfl | rfl
  · exact ⟨_, by simp [dialect, Lua.dialect, ← String.toList_inj], Lua.isClauseText_elseIf h⟩
  · exact ⟨_, by simp [dialect, Php.dialect, ← String.toList_inj], Php.isClauseText_elseIf h⟩

theorem isClauseLine_elseHeader :
    language.IsClauseLine language.dialect.elseHeader .otherwise := by
  rcases hlanguage with rfl | rfl
  · exact ⟨"else", rfl, Lua.isClauseText_otherwise⟩
  · exact ⟨"\x7d else \x7b", rfl, Php.isClauseText_otherwise⟩

theorem isClauseLine_whileHeader (h : language.IsExpression code tree) :
    language.IsClauseLine (language.dialect.whileHeader code) (.whileLoop tree) := by
  rcases hlanguage with rfl | rfl
  · exact ⟨_, by simp [dialect, Lua.dialect, ← String.toList_inj], Lua.isClauseText_whileLoop h⟩
  · exact ⟨_, by simp [dialect, Php.dialect, ← String.toList_inj], Php.isClauseText_whileLoop h⟩

theorem isClauseLine_repeatHeader (hname : language.dialect.policy.IsName name)
    (h : language.IsExpression code tree) :
    language.IsClauseLine (language.dialect.repeatHeader name code) (.countedLoop name tree) := by
  rcases hlanguage with rfl | rfl
  · exact ⟨_, by simp [dialect, Lua.dialect, ← String.toList_inj],
      Lua.isClauseText_countedLoop hname h⟩
  · exact ⟨_, by simp [dialect, Php.dialect, ← String.toList_inj],
      Php.isClauseText_countedLoop hname h⟩

theorem isClauseLine_procedureHeader {args : List String}
    (hname : language.dialect.policy.IsName name)
    (hargs : ∀ arg ∈ args, language.dialect.policy.IsName arg) :
    language.IsClauseLine (language.dialect.procedureHeader name (joinWith ", " args))
      (.function name args) := by
  rcases hlanguage with rfl | rfl
  · exact ⟨_, by simp [dialect, Lua.dialect, ← String.toList_inj],
      Lua.isClauseText_function hname hargs⟩
  · exact ⟨_, by simp [dialect, Php.dialect, ← String.toList_inj],
      Php.isClauseText_function hname hargs⟩

/-- What closes a block. -/
theorem isClauseLine_closer {text : String}
    (h : text = language.dialect.blockEnd ∨ text = language.dialect.procedureEnd) :
    language.IsClauseLine text .close := by
  rcases hlanguage with rfl | rfl
  · exact ⟨"end", by rcases h with rfl | rfl <;> rfl, Lua.isClauseText_close⟩
  · exact ⟨"\x7d", by rcases h with rfl | rfl <;> rfl, Php.isClauseText_close⟩

theorem isClauseLine_jump (flow : FlowStatement) :
    language.IsClauseLine (language.dialect.statement
      (match flow with
        | .break => "break"
        | .continue => language.dialect.continueStatement)) (.jump flow) := by
  rcases hlanguage with rfl | rfl
  · cases flow with
    | «break» => exact ⟨"break", rfl, Lua.isClauseText_break⟩
    | «continue» => exact ⟨"goto continue", rfl, Lua.isClauseText_continue⟩
  · cases flow with
    | «break» => exact ⟨"break;", rfl, Php.isClauseText_break⟩
    | «continue» => exact ⟨"continue;", rfl, Php.isClauseText_continue⟩

theorem isClauseLine_return :
    language.IsClauseLine (language.dialect.statement "return") (.giveBack none) := by
  rcases hlanguage with rfl | rfl
  · exact ⟨"return", rfl, Lua.isClauseText_return⟩
  · exact ⟨"return;", rfl, Php.isClauseText_return⟩

theorem isClauseLine_giveBack (h : language.IsExpression code tree) :
    language.IsClauseLine (language.dialect.statement ("return " ++ code))
      (.giveBack (some tree)) := by
  rcases hlanguage with rfl | rfl
  · exact ⟨_, rfl, Lua.isClauseText_giveBack h⟩
  · exact ⟨_, by simp [dialect, Dialect.statement, Php.dialect, ← String.toList_inj],
      Php.isClauseText_giveBack h⟩

theorem isClauseLine_nakedValue (h : language.IsExpression code tree) :
    language.IsClauseLine (language.dialect.nakedValue code) (.value tree) := by
  rcases hlanguage with rfl | rfl
  · exact ⟨_, by simp [dialect, Lua.dialect], Lua.isClauseText_value h⟩
  · exact ⟨_, by simp [dialect, Php.dialect, ← String.toList_inj], Php.isClauseText_value h⟩

theorem isClauseLine_assign (hname : language.dialect.policy.IsName name)
    (h : language.IsExpression code tree) :
    language.IsClauseLine (language.dialect.statement (name ++ " = " ++ code))
      (.assign name tree) := by
  rcases hlanguage with rfl | rfl
  · exact ⟨_, rfl, Lua.isClauseText_assign hname h⟩
  · exact ⟨_, by simp [dialect, Dialect.statement, Php.dialect, ← String.toList_inj],
      Php.isClauseText_assign hname h⟩

end Lines

end Language

/-! ## Roles -/

/-- What a part is among clauses. -/
def Role.clauseKind : Role → ClauseKind
  | .giveBack => .final
  | .branch 0 _ => .start
  | .branch (_ + 1) _ => .arm
  | .otherwise => .last
  | .loop | .procedure => .header
  | .closer => .closer
  | _ => .simple

/-- Whether a clause is what a part is there for. -/
def Role.Fits : Role → Clause → Prop
  | .statement, .assign .. | .statement, .increase .. | .statement, .value _ => True
  | .value, .value _ => True
  | .jump flow, .jump read => flow = read
  | .giveBack, .giveBack _ => True
  | .branch 0 _, .conditional _ => True
  | .branch (_ + 1) _, .elseIf _ => True
  | .otherwise, .otherwise => True
  | .loop, .whileLoop _ | .loop, .countedLoop .. => True
  | .bound, .assign .. => True
  | .label, .label => True
  | .procedure, .function .. => True
  | .outer, .outer _ => True
  | .closer, .close => True
  | _, _ => False

theorem Role.clauseKind_of_fits {role : Role} {clause : Clause} (h : role.Fits clause) :
    role.clauseKind = clause.kind := by
  unfold Fits at h
  split at h <;> first | rfl | exact h.elim

/-- Only a label is there for a label. -/
theorem Role.fits_label_iff {role : Role} : role.Fits .label ↔ role = .label := by
  cases role with
  | branch arm socket => cases arm <;> simp [Fits]
  | _ => simp [Fits]

/-- A line of a program: what it is there for, its text, and the clause that is read
    there. -/
structure ClauseLine where
  part : Role × Ref
  text : String
  clause : Clause

/-- The text of a line without the blanks around it. -/
def ClauseLine.code (line : ClauseLine) : String :=
  stripStart (lineCode line.text)

namespace Scene

/-- Whether a line of a program spells its part, and is what the part is there for. -/
structure IsClausal (scene : Scene) (language : Language) (line : ClauseLine) : Prop where
  spells : scene.Spells line.part line.text
  reads : language.IsClauseText line.code line.clause
  fits : line.part.1.Fits line.clause

variable {scene : Scene} {language : Language} {ref : Ref} {block : Block Ref}
  {text code : String} {role : Role}

namespace Speaks

variable (h : scene.Speaks language)
include h

theorem program_phrased :
    scene.Phrased language.programGrammar language.isProgramName language.phrases :=
  ⟨h.dialect ▸ language.faithful_program, h.known⟩

variable (hlanguage : language = .lua ∨ language = .php)
include hlanguage

/-- The clause of a statement with none inside it. -/
theorem exists_clause_isStatement {form : BlockForm}
    (hstatement : scene.IsStatement language.programGrammar language.isProgramName form text) :
    ∃ clause, language.IsClauseLine text clause ∧ Role.statement.Fits clause := by
  cases form with
  | variableAssignment =>
    obtain ⟨name, value, hname, hvalue, rfl⟩ := hstatement
    obtain ⟨tree, hexpression⟩ := Language.exists_isExpression hvalue
    rw [h.dialect] at hname ⊢
    exact ⟨_, Language.isClauseLine_assign hlanguage hname hexpression, trivial⟩
  | change =>
    obtain ⟨name, summand, tree, hname, hfills, rfl⟩ := hstatement
    rw [h.dialect] at hname hfills ⊢
    rcases hlanguage with rfl | rfl
    · obtain ⟨value, hvalue⟩ := Lua.isExpression_change hname hfills
      exact ⟨_, ⟨_, by simp [Language.dialect, Lua.dialect, ← String.toList_inj],
        Lua.isClauseText_assign hname hvalue⟩, trivial⟩
    · obtain ⟨value, hvalue⟩ := Language.exists_isExpression (isOperand_of_fills hfills)
      exact ⟨_, ⟨_, by simp [Language.dialect, Php.dialect, ← String.toList_inj],
        Php.isClauseText_increase hname hvalue⟩, trivial⟩
  | procedureCallStatement =>
    obtain ⟨code, hcode, ⟨name, args, hname, hargs, hcall⟩, rfl⟩ := hstatement
    rw [h.dialect] at hname ⊢
    rcases hlanguage with rfl | rfl
    · obtain ⟨trees, htrees⟩ : ∃ trees, List.Forall₂ (IsExpression Lua.grammar) args trees := by
        clear hcall
        induction args with
        | nil => exact ⟨[], .nil⟩
        | cons arg args ih =>
          obtain ⟨tree, htree⟩ := Language.exists_isExpression (hargs arg (by simp))
          obtain ⟨trees, htrees⟩ := ih fun other hother => hargs other (by simp [hother])
          exact ⟨tree :: trees, .cons htree htrees⟩
      subst hcall
      exact ⟨_, ⟨_, rfl, Lua.isClauseText_call hname htrees⟩, trivial⟩
    · obtain ⟨tree, hexpression⟩ := Language.exists_isExpression hcode
      exact ⟨_, ⟨_, by simp [Language.dialect, Dialect.statement, Php.dialect,
        ← String.toList_inj], Php.isClauseText_value hexpression⟩, trivial⟩
  | _ => exact hstatement.elim

/-- The bound of a loop with a count. -/
theorem exists_isExpression_bound {count bound : String}
    (hcount : language.IsProgramOperand count) (hbound : scene.IsBound count bound) :
    ∃ tree, language.IsExpression bound tree := by
  rw [IsBound, h.dialect] at hbound
  rcases hlanguage with rfl | rfl
  · obtain rfl : bound = Recipe.truncatedCount "" "" count := hbound
    unfold Recipe.truncatedCount
    split
    · exact isExpression_toString Lua.faithful.readsMinus _
    · simpa using Language.exists_isExpression hcount
  · rcases (show bound = count ∨ ∃ word, bound = "$" ++ word ∧
      Php.dialect.policy.Fits .variable word from hbound) with rfl | ⟨word, rfl, hfits⟩
    · exact Language.exists_isExpression hcount
    · exact Language.exists_isExpression
        ⟨_, (Php.reads_programVariable hfits).weaken List.nil_suffix⟩

theorem exists_clause_loop (hheader : scene.IsLoopHeader ref block text) :
    ∃ clause, language.IsClauseLine text clause ∧ Role.loop.Fits clause := by
  have hphrased := h.program_phrased
  rcases hheader with ⟨condition, hcondition, rfl⟩ |
    ⟨counter, count, bound, hcounter, hcount, hbound, rfl⟩
  · obtain ⟨tree, hexpression⟩ :=
      Language.exists_isExpression (hphrased.isOperand_loopCondition hcondition)
    rw [h.dialect]
    exact ⟨_, Language.isClauseLine_whileHeader hlanguage hexpression, trivial⟩
  · obtain ⟨tree, hexpression⟩ :=
      h.exists_isExpression_bound hlanguage (hphrased.isOperand_repeatCount hcount) hbound
    rw [h.dialect] at hcounter ⊢
    exact ⟨_, Language.isClauseLine_repeatHeader hlanguage hcounter hexpression, trivial⟩

/-- The clause that spells a part. -/
theorem exists_clause_of_spellsOf (hrole : role.isFixed = true ∨ role = .closer)
    (hspells : scene.SpellsOf ref block text role) :
    ∃ clause, language.IsClauseLine text clause ∧ role.Fits clause := by
  have hphrased := h.program_phrased
  cases role with
  | comment | opening | closing | trap => simp [Role.isFixed] at hrole
  | closer =>
    rw [SpellsOf, h.dialect] at hspells
    exact ⟨_, Language.isClauseLine_closer hlanguage hspells, trivial⟩
  | statement =>
    obtain ⟨rule, form, -, -, hsimple, hyields⟩ := hspells
    obtain ⟨text', htext, hstatement⟩ :=
      hphrased.isStatement_of_yields h.fallback_changeOperand hsimple hyields
    cases htext
    exact h.exists_clause_isStatement hlanguage hstatement
  | value =>
    obtain ⟨room, code, tier, s, t, hs, hrun, rfl⟩ := hspells
    obtain ⟨tree, hexpression⟩ :=
      Language.exists_isExpression (hphrased.isOperand_render hs hrun).2
    rw [h.dialect]
    exact ⟨_, Language.isClauseLine_nakedValue hlanguage hexpression, trivial⟩
  | jump flow =>
    have hjump := Language.isClauseLine_jump hlanguage flow
    cases flow with
    | «break» | «continue» =>
      obtain rfl : text = _ := hspells
      rw [h.dialect]
      exact ⟨_, hjump, rfl⟩
  | giveBack =>
    rcases hspells with rfl | ⟨value, hreturned, rfl⟩
    · rw [h.dialect]
      exact ⟨_, Language.isClauseLine_return hlanguage, trivial⟩
    · obtain ⟨tree, hexpression⟩ :=
        Language.exists_isExpression (hphrased.isOperand_returned hreturned)
      rw [h.dialect]
      exact ⟨_, Language.isClauseLine_giveBack hlanguage hexpression, trivial⟩
  | branch arm socket =>
    obtain ⟨condition, hyields, rfl⟩ := hspells
    obtain ⟨tree, hexpression⟩ :=
      Language.exists_isExpression (hphrased.isOperand_condition hyields)
    rw [h.dialect]
    cases arm with
    | zero => exact ⟨_, Language.isClauseLine_ifHeader hlanguage hexpression, trivial⟩
    | succ arm => exact ⟨_, Language.isClauseLine_elseIfHeader hlanguage hexpression, trivial⟩
  | otherwise =>
    obtain rfl : text = _ := hspells
    rw [h.dialect]
    exact ⟨_, Language.isClauseLine_elseHeader hlanguage, trivial⟩
  | loop => exact h.exists_clause_loop hlanguage hspells
  | bound =>
    obtain ⟨name, count, hname, hcount, rfl⟩ := hspells
    obtain ⟨tree, hexpression⟩ :=
      Language.exists_isExpression (hphrased.isOperand_repeatCount hcount)
    rw [h.dialect] at hname ⊢
    exact ⟨_, Language.isClauseLine_assign hlanguage hname hexpression, trivial⟩
  | label =>
    obtain ⟨label, hlabel, rfl⟩ := hspells
    rw [h.dialect] at hlabel
    rcases hlanguage with rfl | rfl
    · cases hlabel
      exact ⟨_, ⟨_, rfl, Lua.isClauseText_label⟩, trivial⟩
    · cases hlabel
  | procedure =>
    obtain ⟨name, args, hname, hargs, rfl⟩ := hspells
    rw [h.dialect] at hname hargs ⊢
    exact ⟨_, Language.isClauseLine_procedureHeader hlanguage hname hargs, trivial⟩
  | outer =>
    obtain ⟨declaration, names, hdeclaration, hne, hnames, rfl⟩ := hspells
    rw [h.dialect] at hdeclaration hnames
    rcases hlanguage with rfl | rfl
    · cases hdeclaration
    · cases hdeclaration
      exact ⟨_, ⟨_, by simp [← String.toList_inj], Php.isClauseText_outer hne hnames⟩, trivial⟩
  | filler =>
    obtain ⟨filler, hfiller, -⟩ := hspells
    rw [h.dialect] at hfiller
    rcases hlanguage with rfl | rfl <;> cases hfiller

/-- The line that spells a part, with its clause. -/
theorem exists_clausal {part : Role × Ref} (hrole : part.1.isFixed = true ∨ part.1 = .closer)
    (hspells : scene.Spells part text) :
    ∃ line : ClauseLine, (line.part, line.text) = (part, text) ∧ scene.IsClausal language line ∧
      IsLines line.text ∧ strippedLines line.text.toList = [line.code] := by
  obtain ⟨-, block, -, hpart⟩ := id hspells
  obtain ⟨clause, ⟨code, rfl, tokens, hlex, hclause⟩, hfits⟩ :=
    h.exists_clause_of_spellsOf hlanguage hrole hpart
  have hplain := language.programGrammar_plain
  have hlines := h.isLines_of_spells hspells
  have hfeed : '\n' ∉ code.toList := fun hmem => absurd (hplain.of_lex hlex _ hmem) (by decide)
  have hblank : isBlankText code = false := by
    have hdark := hlines.2
    rw [isBlankText_append] at hdark
    simpa [show isBlankText "\n" = true from by decide] using hdark
  exact ⟨⟨part, code ++ "\n", clause⟩, rfl,
    ⟨hspells, ⟨tokens, hplain.lex_stripStart hlex, hclause⟩, hfits⟩, hlines,
    strippedLines_line hfeed hblank⟩

end Speaks

end Scene

end BlockScript
