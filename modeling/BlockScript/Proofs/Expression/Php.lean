import BlockScript.Proofs.Expression.Rendering

/-!
# Expressions in PHP

The phrases of PHP, and the result that the text of an expression parses to the
tree that its block denotes, unless it calls a procedure that has the name of a
compiler constant. The names of procedures avoid the other keywords.

Results:

* `Php.faithful`: the tables of PHP give the texts of the phrases.
* `parse_phpExpression_iff`: the text of an expression parses to its tree if and
  only if it calls no compiler constant.
-/

namespace BlockScript.Php

open BlockScript.Reading BlockScript.Text

/-! ## Phrases -/

/-- A call of a function. -/
def callOf (function : String) (args : List Phrase) : Phrase :=
  .call function [] args

/-- The number of degrees in half a turn, in the place of `π`. -/
def inDegrees (angle : Phrase) : Phrase :=
  .binary "*" (.binary "/" angle (callOf "pi" [])) (.number "180")

/-- An angle given in degrees. -/
def inRadians (angle : Phrase) : Phrase :=
  .binary "*" (.binary "/" angle (.number "180")) (callOf "pi" [])

/-- The test whether a remainder is a certain number. -/
def remainderIs (divisor : Phrase) (remainder : String) : Phrase :=
  .binary "==" (.binary "%" (.hole 0) divisor) (.number remainder)

/-- The phrases of PHP. -/
def phrases : PhraseBook where
  truth b := .path (if b then "true" else "false") []
  null := .path "null" []
  compare
    | .eq => .binary "==" (.hole 0) (.hole 1)
    | .neq => .binary "!=" (.hole 0) (.hole 1)
    | .lt => .binary "<" (.hole 0) (.hole 1)
    | .lte => .binary "<=" (.hole 0) (.hole 1)
    | .gt => .binary ">" (.hole 0) (.hole 1)
    | .gte => .binary ">=" (.hole 0) (.hole 1)
  logic
    | .and => .binary "&&" (.hole 0) (.hole 1)
    | .or => .binary "||" (.hole 0) (.hole 1)
  logicNot := .unary "!" (.hole 0)
  ternary := .choice (.hole 0) (.hole 1) (.hole 2)
  arithmetic
    | .add => .binary "+" (.hole 0) (.hole 1)
    | .minus => .binary "-" (.hole 0) (.hole 1)
    | .multiply => .binary "*" (.hole 0) (.hole 1)
    | .divide => .binary "/" (.hole 0) (.hole 1)
    | .power => .binary "**" (.hole 0) (.hole 1)
  modulo := .binary "%" (.hole 0) (.hole 1)
  minus := "-"
  single
    | .root => callOf "sqrt" [.hole 0]
    | .abs => callOf "abs" [.hole 0]
    | .neg => .unary "-" (.hole 0)
    | .ln => callOf "log" [.hole 0]
    | .log10 => .binary "/" (callOf "log" [.hole 0]) (callOf "log" [.number "10"])
    | .exp => callOf "exp" [.hole 0]
    | .pow10 => callOf "pow" [.number "10", .hole 0]
    | .round => callOf "round" [.hole 0]
    | .roundUp => callOf "ceil" [.hole 0]
    | .roundDown => callOf "floor" [.hole 0]
    | .sin => callOf "sin" [inRadians (.hole 0)]
    | .cos => callOf "cos" [inRadians (.hole 0)]
    | .tan => callOf "tan" [inRadians (.hole 0)]
    | .asin => inDegrees (callOf "asin" [.hole 0])
    | .acos => inDegrees (callOf "acos" [.hole 0])
    | .atan => inDegrees (callOf "atan" [.hole 0])
  constant
    | .pi => .path "M_PI" []
    | .e => .path "M_E" []
    | .goldenRatio => .binary "/"
      (.group (.binary "+" (.number "1") (callOf "sqrt" [.number "5"]))) (.number "2")
    | .sqrt2 => .path "M_SQRT2" []
    | .sqrt1over2 => .path "M_SQRT1_2" []
    | .infinity => .path "INF" []
  infinity := .path "INF" []
  minusInfinity := .unary "-" (.path "INF" [])
  notANumber := .path "NAN" []
  test
    | .odd => remainderIs (.number "2") "1"
    | .whole => callOf "is_int" [.hole 0]
    | .positive => .binary ">" (.hole 0) (.number "0")
    | .negative => .binary "<" (.hole 0) (.number "0")
    | .even | .prime | .divisibleBy => remainderIs (.number "2") "0"
  prime := .helper "math_isPrime"
  divisible := remainderIs (.hole 1) "0"
  constrain := callOf "min" [callOf "max" [.hole 0, .hole 1], .hole 2]
  low := .number "0"
  high := .path "INF" []
  onList
    | .sum => .path "array_sum" []
    | .min => .path "min" []
    | .max => .path "max" []
    | .average => .helper "math_mean"
    | .median => .helper "math_median"
    | .mode => .helper "math_modes"
    | .stdDev => .helper "math_standard_deviation"
    | .random => .helper "math_random_list"
  randomInteger := .helper "math_random_int"
  randomFraction := .binary "/" (.cast "float" (callOf "rand" []))
    (.cast "float" (callOf "getrandmax" []))
  arcTangent := inDegrees (callOf "atan2" [.hole 0, .hole 1])

/-! ## Words and texts of a program -/

/-- Whether a word is no compiler constant in any case. -/
def isFunctionName (word : String) : Bool :=
  !compilerConstants.contains (String.ofList (word.toList.map Char.toLower))

/-- The name of a procedure is none of the other keywords, whatever its case. -/
theorem lower_notMem {word : String} (h : dialect.policy.Fits .procedure word) :
    String.ofList (word.toList.map Char.toLower) ∉ languageKeywords := by
  have hreserved : ∀ keyword ∈ languageKeywords, keyword ∈ dialect.policy.reserved := by
    decide +kernel
  have hlower : ∀ keyword ∈ languageKeywords, lower keyword = keyword := by
    decide +kernel
  rw [← lower_eq_map h.identifier.toNat_lt]
  exact fun hmem => h.notFolded (by decide) _ (hreserved _ hmem) (hlower _ hmem)

/-- The name of a procedure is a keyword only if it is a compiler constant. -/
theorem isKeyword_eq {word : String} (h : dialect.policy.Fits .procedure word) :
    lexis.isKeyword word.toList = !isFunctionName word := by
  simp [Lexis.isKeyword, lexis, isFunctionName, lower_notMem h]

theorem callable {word : String} (h : dialect.policy.Fits .procedure word) :
    grammar.Callable isFunctionName word where
  opens := opens_identifier h.identifier
  name hname := by
    show lexis.cut word.toList = _
    rw [cut_word lexis h.identifier, isKeyword_eq h, hname]
    rfl
  mark hname := by
    show lexis.cut word.toList = _
    rw [cut_word lexis h.identifier, isKeyword_eq h, hname]
    rfl

/-- No word with the sign of a variable is one of a list without it. -/
theorem notMem_of_sign {words : List String} (h : ∀ word ∈ words, word.toList.head? ≠ some '$')
    (cs : List Char) : String.ofList ('$' :: cs) ∉ words :=
  fun hmem => h _ hmem (by simp)

theorem reads_variable {word : String} (h : dialect.policy.Fits .variable word) :
    Reads grammar isFunctionName [] ("$" ++ word) (.name ("$" ++ word)) := by
  have hlist : ("$" ++ word).toList = '$' :: word.toList := by simp
  have htext : String.ofList ('$' :: word.toList) = "$" ++ word := by
    rw [← hlist, String.ofList_toList]
  have hkeyword : lexis.isKeyword ('$' :: word.toList) = false := by
    have hno : String.ofList ('$' :: word.toList.map Char.toLower) ∉ lexis.keywords :=
      notMem_of_sign (by decide) _
    simpa [Lexis.isKeyword, lexis] using hno
  have hcast : grammar.isCast ("$" ++ word) = false := by
    have hno : String.ofList ('$' :: word.toList.map Char.toLower) ∉ grammar.casts :=
      notMem_of_sign (by decide) _
    simpa [Grammar.isCast, grammar] using hno
  have hcut : lexis.cut ("$" ++ word).toList = some ([.name ("$" ++ word)], false) := by
    rw [hlist, ← htext]
    exact cut_variable h.identifier rfl (by decide) (by decide) (by decide) hkeyword
  exact reads_name ⟨'$', word.toList, hlist, by decide⟩ hcut hcast

theorem opens_quote (content : String) :
    ∃ c cs, (quote content).toList = c :: cs ∧ isOpening c = true := by
  unfold quote
  split
  · exact ⟨_, _, String.toList_ofList, by decide⟩
  · exact ⟨_, _, String.toList_ofList, by decide⟩

/-- A negated condition, in a grammar where the sign of a negation is one token ahead of
    every value. -/
theorem renders_logicNot {g : Grammar} {allowed : String → Bool}
    (hfits : (Phrase.unary "!" (.hole 0)).fits g (fun _ => g.position logicalNot false)
      (g.upTo logicalNot) = true)
    (hstart : g.lexis.start '!' = some (.sign ['!']))
    (hfinish : g.lexis.finish (.sign ['!']) = some [.mark "!"])
    (hfollowers : (g.lexis.followers '!').all (fun c => !isOpening c) = true)
    {code : String} {tree : Expr} (h : Fills g allowed logicalNot false code tree) :
    Renders g allowed ("!" ++ code) logicalNot (.unary "!" tree) := by
  have hsign : g.lexis.Spells (fun c => c ∉ g.lexis.followers '!') ['!'] [.mark "!"] :=
    spells_sign hstart hfinish (by decide)
  refine ⟨h.reads.unary hfits ⟨'!', [], rfl, by decide⟩ hsign
    fun c _ _ hopens hmem => ?_, fun hzero => by cases hzero⟩
  have hother := List.all_eq_true.mp hfollowers c hmem
  simp [hopens] at hother

/-! ## The tables -/

/-- The tables of PHP give the texts of the phrases. -/
theorem faithful : dialect.Faithful grammar isFunctionName phrases where
  proper := grammar_proper
  tiered := by decide
  groups := by unfold Grammar.Groups; decide +kernel
  readsZero := by decide +kernel
  readsCalls := ⟨by decide +kernel, by decide +kernel, by decide +kernel⟩
  marks := by decide +kernel
  identifier h := reads_variable h
  procedure h := callable h
  quote content := reads_atom (opens_quote content) (cut_quote content) (.text _) rfl
  truth b := by cases b <;> decide +kernel
  null := by decide +kernel
  emptyList := by decide +kernel
  compare op := by cases op <;> decide +kernel
  logic op := by cases op <;> decide +kernel
  logicNot h := renders_logicNot (by decide) (by decide) (by decide) (by decide) h
  ternary := ⟨[.hole 0, .text " ? ", .hole 1, .text " : ", .hole 2],
    fun c a b => by simp [dialect, Part.chars], by decide +kernel⟩
  condition := rfl
  consequent := rfl
  alternative := rfl
  arithmetic op := by cases op <;> decide +kernel
  modulo := by decide +kernel
  minus := rfl
  negation := rfl
  readsMinus := ⟨by decide, by decide +kernel, by decide +kernel, by decide +kernel, by decide⟩
  negative := rfl
  single op h := by cases op <;> first | exact absurd rfl h | decide +kernel
  constant name := by cases name <;> decide +kernel
  infinity := by decide +kernel
  minusInfinity := by decide +kernel
  notANumber := by decide +kernel
  test property _ _ := by cases property <;> decide +kernel
  prime := rfl
  divisible := by decide +kernel
  onList op := by cases op <;> decide +kernel
  constrain := by decide +kernel
  low := fills_zero (by decide +kernel) _ _
  high := by decide +kernel
  randomInteger := by decide +kernel
  randomFraction := by decide +kernel
  arcTangent := by decide +kernel

/-- A conditional as the condition of another needs its brackets. -/
example : entry grammar isFunctionName dialect.ternary.result
    [(dialect.ternary.condition.tier, false),
      (dialect.ternary.consequent.tier, dialect.ternary.consequent.strict),
      (dialect.ternary.alternative.tier, dialect.ternary.alternative.strict)]
    [.hole 0, .text " ? ", .hole 1, .text " : ", .hole 2] phrases.ternary = false := by
  decide +kernel

end BlockScript.Php

namespace BlockScript

open BlockScript.Reading

/-! ## Expressions -/

/-- The text of an expression in PHP parses to the tree that its block denotes, up
    to the grouping of runs of `&&` and `||`, if and only if no procedure that is
    called in it has the name of a compiler constant. Reading it then meets no
    decrement sign. -/
theorem parse_phpExpression_iff {config : Config} {workspace : Workspace} {ref : Ref}
    {code : String} {tier : Tier} {s t : PassState}
    (hs : (Scene.ofLanguage .php config workspace).Reached s)
    (hrun : (Scene.ofLanguage .php config workspace).renderPlace (some ref) s =
      (.ok (.value code tier), t)) :
    ∃ tree,
      (Scene.ofLanguage .php config workspace).operatorTree Php.phrases t ref = some tree ∧
        ((∃ tokens parsed, Php.lexis.lex code = some tokens ∧ .mark "--" ∉ tokens ∧
            Php.grammar.parse code = some parsed ∧ Regrouped tree parsed ∧
            parsed.chainFree = true) ↔
          tree.calls Php.isFunctionName = true) := by
  obtain ⟨tree, htree, hparse, hno⟩ := Scene.parse_of_renderPlace Php.faithful
    (RuleTable.known_ofLanguage _) hs hrun
  refine ⟨tree, htree, fun ⟨tokens, parsed, hlex, _, hparsed, _⟩ => ?_, fun hcalls => ?_⟩
  · cases hcalls : tree.calls Php.isFunctionName with
    | true => rfl
    | false =>
      rw [hno hcalls] at hparsed
      cases hparsed
  · obtain ⟨parsed, hparsed, hregrouped, hchain⟩ := hparse hcalls
    obtain ⟨tokens, hlex, hmarks⟩ := Grammar.marks_of_parse hparsed
    have hdecrement : "--" ∉ Php.grammar.marks := by decide
    exact ⟨tokens, parsed, hlex, fun hmem => hdecrement (hmarks "--" hmem), hparsed, hregrouped,
      hchain⟩

theorem parse_phpExpression_negatedComparison :
    (Scene.ofLanguage .php {} .negatedComparison).Reached {} ∧
      (Scene.ofLanguage .php {} .negatedComparison).renderPlace (some 1) {} =
        (.ok (.value "!(0 == 0)" Php.logicalNot), {}) ∧
      ∃ tree,
        (Scene.ofLanguage .php {} .negatedComparison).operatorTree Php.phrases {} 1 = some tree ∧
          ((∃ tokens parsed, Php.lexis.lex "!(0 == 0)" = some tokens ∧ .mark "--" ∉ tokens ∧
              Php.grammar.parse "!(0 == 0)" = some parsed ∧ Regrouped tree parsed ∧
              parsed.chainFree = true) ↔
            tree.calls Php.isFunctionName = true) :=
  ⟨.start, rfl, parse_phpExpression_iff .start rfl⟩

/-- A call of a procedure with the name of a compiler constant. -/
def Workspace.callOfLine : Workspace where
  tops := [0]
  graph := ⟨#[{ Block.ofType "procedures_callreturn" with fields := [("NAME", .text "__LINE__")] }]⟩

/-- The identifiers once that name is given out. -/
def NameTable.ofLine : NameTable :=
  ⟨[((.procedure, "__line__"), "__LINE__")], ["__LINE__"]⟩

set_option maxRecDepth 4000 in
/-- The call of a procedure with the name of a compiler constant does not parse. -/
theorem phpExpression_of_compilerConstant :
    (Scene.ofLanguage .php {} .callOfLine).renderPlace (some 0) {} =
        (.ok (.value "__LINE__()" Php.functionCall), { names := .ofLine }) ∧
      (Scene.ofLanguage .php {} .callOfLine).operatorTree Php.phrases { names := .ofLine } 0 =
        some (.call (.name "__LINE__") []) ∧
      Php.grammar.parse "__LINE__()" = none := by
  refine ⟨rfl, rfl, ?_⟩
  have hlex : Php.lexis.lex "__LINE__()" = some [.mark "__LINE__", .mark "(", .mark ")"] := by
    decide +kernel
  exact Grammar.parse_eq_none (g := Php.grammar) hlex (List.mem_cons_self) (by decide)

end BlockScript
