import BlockScript.Proofs.Code.Parts
import BlockScript.Proofs.Expression.Php
import BlockScript.Proofs.Reading.Control

/-!
# The tokens of a PHP program

A program has tokens that no expression has: a loop counts with an increment. A call of
a procedure with the name of a compiler constant is no expression either, but it leaves
the blocks of a program as they are. Here such a name is a word like any other, so every
text of a value is an expression.

Results:

* `Php.faithful_program`: the tables of PHP give the texts of the phrases, whatever the
  names of procedures are.
-/

namespace BlockScript.Php

open BlockScript.Reading BlockScript.Text

/-- The tokens of PHP with those that only statements have. -/
def programLexis : Lexis :=
  { lexis with
    refused := [['-', '-'], ['/', '/'], ['/', '*'], ['?', '>'], ['<', '<', '<'], ['#']]
    keywords := languageKeywords }

/-- The expressions of PHP among these tokens. -/
def programGrammar : Grammar :=
  { grammar with lexis := programLexis }

theorem programGrammar_proper : programGrammar.Proper where
  levels := by decide
  closers := by decide
  emptyList := ⟨"array", _, rfl, by decide⟩

theorem programLexis_plain : programLexis.Plain :=
  Lexis.plain_of_all (by decide)

/-- Whether a word can be called in a program: here, always. -/
def isProgramName (_ : String) : Bool :=
  true

/-! ## Words and texts of a program -/

/-- The name of a procedure is no keyword of the language. -/
theorem isKeyword_program {word : String} (h : dialect.policy.Fits .procedure word) :
    programLexis.isKeyword word.toList = false := by
  simpa [Lexis.isKeyword, programLexis, lexis] using lower_notMem h

theorem cut_procedure {word : String} (h : dialect.policy.Fits .procedure word) :
    programLexis.cut word.toList = some ([.name word], false) := by
  rw [cut_word programLexis h.identifier, isKeyword_program h]
  rfl

theorem cut_programVariable {word : String} (h : IsIdentifier word) :
    programLexis.cut ("$" ++ word).toList = some ([.name ("$" ++ word)], false) := by
  have hlist : ("$" ++ word).toList = '$' :: word.toList := by simp
  have htext : String.ofList ('$' :: word.toList) = "$" ++ word := by
    rw [← hlist, String.ofList_toList]
  have hkeyword : programLexis.isKeyword ('$' :: word.toList) = false := by
    have hno : String.ofList ('$' :: word.toList.map Char.toLower) ∉ programLexis.keywords :=
      notMem_of_sign (by decide) _
    simpa [Lexis.isKeyword, programLexis, lexis] using hno
  rw [hlist, ← htext]
  exact cut_variable h rfl (by decide) (by decide) (by decide) hkeyword

theorem reads_programVariable {word : String} (h : dialect.policy.Fits .variable word) :
    Reads programGrammar isProgramName [] ("$" ++ word) (.name ("$" ++ word)) := by
  have hcast : programGrammar.isCast ("$" ++ word) = false := by
    have hno : String.ofList ('$' :: word.toList.map Char.toLower) ∉ programGrammar.casts :=
      notMem_of_sign (by decide) _
    simpa [Grammar.isCast, programGrammar, grammar] using hno
  exact reads_name ⟨'$', word.toList, by simp, by decide⟩ (cut_programVariable h.identifier) hcast

theorem cut_quote_program (content : String) :
    programLexis.cut (quote content).toList = some ([.text (quote content)], true) := by
  obtain ⟨q, cs, hq, hlist, hinside⟩ := exists_inside_quote content
  have htext : quote content = String.ofList (q :: (cs ++ [q])) := by
    rw [← hlist, String.ofList_toList]
  have hsame : inside programLexis q cs = inside lexis q cs := inside_congr (by rfl) (by rfl) q cs
  have hprogram : inside programLexis q cs = true := hsame.trans hinside
  rw [hlist, htext]
  rcases hq with rfl | rfl <;> exact cut_quoted programLexis rfl (by decide) hprogram

/-! ## The tables -/

/-- The tables of PHP give the texts of the phrases, whatever the names of procedures
    are. -/
theorem faithful_program : dialect.Faithful programGrammar isProgramName phrases where
  proper := programGrammar_proper
  tiered := by decide
  groups := by unfold Grammar.Groups; decide +kernel
  readsZero := by decide +kernel
  readsCalls := ⟨by decide +kernel, by decide +kernel, by decide +kernel⟩
  marks := by decide +kernel
  identifier h := reads_programVariable h
  procedure h := ⟨opens_identifier h.identifier, fun _ => cut_procedure h, fun hno => by cases hno⟩
  quote content := reads_atom (opens_quote content) (cut_quote_program content) (.text _) rfl
  truth b := by cases b <;> decide +kernel
  null := by decide +kernel
  emptyList := by decide +kernel
  compare op := by cases op <;> decide +kernel
  logic op := by cases op <;> decide +kernel
  logicNot h := renders_logicNot (by decide) (by decide) (by decide) (by decide) h
  ternary := ⟨[.hole 0, .text " ? ", .hole 1, .text " : ", .hole 2],
    fun c a b => by simp [dialect, Part.chars], by decide +kernel⟩
  condition := rfl
  consequent := rfl
  alternative := rfl
  arithmetic op := by cases op <;> decide +kernel
  modulo := by decide +kernel
  minus := rfl
  negation := rfl
  readsMinus := ⟨by decide, by decide +kernel, by decide +kernel, by decide +kernel, by decide⟩
  negative := rfl
  single op h := by cases op <;> first | exact absurd rfl h | decide +kernel
  constant name := by cases name <;> decide +kernel
  infinity := by decide +kernel
  minusInfinity := by decide +kernel
  notANumber := by decide +kernel
  test property _ _ := by cases property <;> decide +kernel
  prime := rfl
  divisible := by decide +kernel
  onList op := by cases op <;> decide +kernel
  constrain := by decide +kernel
  low := fills_zero (by decide +kernel) _ _
  high := by decide +kernel
  randomInteger := by decide +kernel
  randomFraction := by decide +kernel
  arcTangent := by decide +kernel

/-- The name of a compiler constant is a word like any other. -/
example : programLexis.lex "__LINE__()" = some [.name "__LINE__", .mark "(", .mark ")"] := by
  decide +kernel

/-- A name in a program is one token. -/
theorem cut_programName {name : String} (h : dialect.policy.IsName name) :
    programLexis.cut name.toList = some ([.name name], false) := by
  obtain ⟨kind, word, rfl, hfits⟩ := h
  cases kind with
  | procedure => exact cut_procedure hfits
  | «variable» | developerVariable => exact cut_programVariable hfits.identifier

end BlockScript.Php
