import BlockScript.Proofs.Expression.Rendering

/-!
# Expressions in Python

The phrases of Python, and the result that the text of an expression parses to
the tree that its block denotes.

Results:

* `Python.faithful`: the tables of Python give the texts of the phrases.
* `parse_pythonExpression`: the text of an expression parses to its tree.
-/

namespace BlockScript.Python

open BlockScript.Reading

/-! ## Phrases -/

/-- A function of the module of mathematics. -/
def mathCall (function : String) (args : List Phrase) : Phrase :=
  .call "math" [function] args

/-- The number of degrees in half a turn, in the place of `π`. -/
def inDegrees (angle : Phrase) : Phrase :=
  .binary "*" (.binary "/" angle (.path "math" ["pi"])) (.number "180")

/-- An angle given in degrees. -/
def inRadians (angle : Phrase) : Phrase :=
  .binary "*" (.binary "/" angle (.number "180.0")) (.path "math" ["pi"])

/-- A number between quotes as a float. -/
def floatOf (literal : String) : Phrase :=
  .call "float" [] [.text literal]

/-- The test whether a remainder is a certain number. -/
def remainderIs (divisor : Phrase) (remainder : String) : Phrase :=
  .binary "==" (.binary "%" (.hole 0) divisor) (.number remainder)

/-- The phrases of Python. -/
def phrases : PhraseBook where
  truth b := .path (if b then "True" else "False") []
  null := .path "None" []
  compare
    | .eq => .binary "==" (.hole 0) (.hole 1)
    | .neq => .binary "!=" (.hole 0) (.hole 1)
    | .lt => .binary "<" (.hole 0) (.hole 1)
    | .lte => .binary "<=" (.hole 0) (.hole 1)
    | .gt => .binary ">" (.hole 0) (.hole 1)
    | .gte => .binary ">=" (.hole 0) (.hole 1)
  logic
    | .and => .binary "and" (.hole 0) (.hole 1)
    | .or => .binary "or" (.hole 0) (.hole 1)
  logicNot := .unary "not" (.hole 0)
  ternary := .conditional (.hole 1) (.hole 0) (.hole 2)
  arithmetic
    | .add => .binary "+" (.hole 0) (.hole 1)
    | .minus => .binary "-" (.hole 0) (.hole 1)
    | .multiply => .binary "*" (.hole 0) (.hole 1)
    | .divide => .binary "/" (.hole 0) (.hole 1)
    | .power => .binary "**" (.hole 0) (.hole 1)
  modulo := .binary "%" (.hole 0) (.hole 1)
  minus := "-"
  single
    | .root => mathCall "sqrt" [.hole 0]
    | .abs => mathCall "fabs" [.hole 0]
    | .neg => .unary "-" (.hole 0)
    | .ln => mathCall "log" [.hole 0]
    | .log10 => mathCall "log10" [.hole 0]
    | .exp => mathCall "exp" [.hole 0]
    | .pow10 => mathCall "pow" [.number "10", .hole 0]
    | .round => .call "round" [] [.hole 0]
    | .roundUp => mathCall "ceil" [.hole 0]
    | .roundDown => mathCall "floor" [.hole 0]
    | .sin => mathCall "sin" [inRadians (.hole 0)]
    | .cos => mathCall "cos" [inRadians (.hole 0)]
    | .tan => mathCall "tan" [inRadians (.hole 0)]
    | .asin => inDegrees (mathCall "asin" [.hole 0])
    | .acos => inDegrees (mathCall "acos" [.hole 0])
    | .atan => inDegrees (mathCall "atan" [.hole 0])
  constant
    | .pi => .path "math" ["pi"]
    | .e => .path "math" ["e"]
    | .goldenRatio => .binary "/"
      (.group (.binary "+" (.number "1") (mathCall "sqrt" [.number "5"]))) (.number "2")
    | .sqrt2 => mathCall "sqrt" [.number "2"]
    | .sqrt1over2 => mathCall "sqrt" [.binary "/" (.number "1.0") (.number "2")]
    | .infinity => floatOf "'inf'"
  infinity := floatOf "'inf'"
  minusInfinity := .unary "-" (floatOf "'inf'")
  notANumber := floatOf "'nan'"
  test
    | .odd => remainderIs (.number "2") "1"
    | .whole => remainderIs (.number "1") "0"
    | .positive => .binary ">" (.hole 0) (.number "0")
    | .negative => .binary "<" (.hole 0) (.number "0")
    | .even | .prime | .divisibleBy => remainderIs (.number "2") "0"
  prime := .helper "math_isPrime"
  divisible := remainderIs (.hole 1) "0"
  constrain := .call "min" [] [.call "max" [] [.hole 0, .hole 1], .hole 2]
  low := .number "0"
  high := floatOf "'inf'"
  onList
    | .sum => .path "sum" []
    | .min => .path "min" []
    | .max => .path "max" []
    | .average => .helper "math_mean"
    | .median => .helper "math_median"
    | .mode => .helper "math_modes"
    | .stdDev => .helper "math_standard_deviation"
    | .random => .path "random" ["choice"]
  randomInteger := .path "random" ["randint"]
  randomFraction := .call "random" ["random"] []
  arcTangent := inDegrees (mathCall "atan2" [.hole 0, .hole 1])

/-! ## Words and texts of a program -/

/-- Whether a word is no keyword when a program calls it: here, always. -/
def isFunctionName (_ : String) : Bool :=
  true

theorem isKeyword_eq_false {kind : NameKind} {word : String} (h : dialect.policy.Fits kind word) :
    lexis.isKeyword word.toList = false := by
  have hreserved : ∀ keyword ∈ signKeywords, keyword ∈ reservedWords := by decide +kernel
  have hword : word ∉ signKeywords := fun hmem => h.notReserved (hreserved word hmem)
  simpa [Lexis.isKeyword, lexis] using hword

theorem cut_name {kind : NameKind} {word : String} (h : dialect.policy.Fits kind word) :
    lexis.cut word.toList = some ([.name word], false) := by
  rw [cut_word lexis h.identifier, isKeyword_eq_false h]
  rfl

theorem opens_quote (content : String) :
    ∃ c cs, (quote content).toList = c :: cs ∧ isOpening c = true := by
  unfold quote
  dsimp only
  split
  · exact ⟨_, _, String.toList_ofList, by decide⟩
  · split
    · exact ⟨_, _, String.toList_ofList, by decide⟩
    · exact ⟨_, _, String.toList_ofList, by decide⟩

/-- A negated condition. -/
theorem renders_logicNot {code : String} {tree : Expr}
    (h : Fills grammar isFunctionName logicalNot false code tree) :
    Renders grammar isFunctionName ("not " ++ code) logicalNot (.unary "not" tree) := by
  have hentry : entry grammar isFunctionName logicalNot [(logicalNot, false)] [.text "not ", .hole 0]
      (.unary "not" (.hole 0)) = true := by decide
  exact renders_of_entry hentry (by simp [Part.chars]) (.cons h .nil)

/-! ## The tables -/

/-- The tables of Python give the texts of the phrases. -/
theorem faithful : dialect.Faithful grammar isFunctionName phrases where
  proper := grammar_proper
  tiered := by decide
  groups := by unfold Grammar.Groups; decide +kernel
  readsZero := by decide +kernel
  readsCalls := ⟨by decide +kernel, by decide +kernel, by decide +kernel⟩
  marks _ _ := rfl
  identifier h := reads_name (opens_identifier h.identifier) (cut_name h) rfl
  procedure h := ⟨opens_identifier h.identifier, fun _ => cut_name h, fun hno => by cases hno⟩
  quote content := reads_atom (opens_quote content) (cut_quote content) (.text _) rfl
  truth b := by cases b <;> decide +kernel
  null := by decide +kernel
  emptyList := by decide +kernel
  compare op := by cases op <;> decide +kernel
  logic op := by cases op <;> decide +kernel
  logicNot h := renders_logicNot h
  ternary := ⟨[.hole 1, .text " if ", .hole 0, .text " else ", .hole 2],
    fun c a b => by simp [dialect, Part.chars], by decide +kernel⟩
  condition := rfl
  consequent := rfl
  alternative := rfl
  arithmetic op := by cases op <;> decide +kernel
  modulo := by decide +kernel
  minus := rfl
  negation := rfl
  readsMinus := ⟨by decide, by decide +kernel, by decide +kernel, by decide +kernel, by decide⟩
  negative := rfl
  single op h := by cases op <;> first | exact absurd rfl h | decide +kernel
  constant name := by cases name <;> decide +kernel
  infinity := by decide +kernel
  minusInfinity := by decide +kernel
  notANumber := by decide +kernel
  test property _ _ := by cases property <;> decide +kernel
  prime := rfl
  divisible := by decide +kernel
  onList op := by cases op <;> decide +kernel
  constrain := by decide +kernel
  low := fills_zero (by decide +kernel) _ _
  high := by decide +kernel
  randomInteger := by decide +kernel
  randomFraction := by decide +kernel
  arcTangent := by decide +kernel

/-- A comparison on the left of a comparison needs its brackets: without them the two
    would chain. -/
example : entry grammar isFunctionName (dialect.compare .lt).tier
    [((dialect.compare .lt).tier, false), ((dialect.compare .lt).tier, true)]
    (infixParts (dialect.compare .lt).text) (phrases.compare .lt) = false := by
  decide +kernel

end BlockScript.Python

namespace BlockScript

open BlockScript.Reading

/-! ## Expressions -/

/-- The text of an expression in Python parses to the tree that its block denotes,
    up to the grouping of runs of `and` and `or`, and no two comparisons chain. -/
theorem parse_pythonExpression {config : Config} {workspace : Workspace} {ref : Ref} {code : String}
    {tier : Tier} {s t : PassState} (hs : (Scene.ofLanguage .python config workspace).Reached s)
    (hrun : (Scene.ofLanguage .python config workspace).renderPlace (some ref) s =
      (.ok (.value code tier), t)) :
    ∃ tree parsed,
      (Scene.ofLanguage .python config workspace).operatorTree Python.phrases t ref = some tree ∧
        Python.grammar.parse code = some parsed ∧ Regrouped tree parsed ∧
        parsed.chainFree = true := by
  obtain ⟨tree, htree, hparse, -⟩ := Scene.parse_of_renderPlace Python.faithful
    (RuleTable.known_ofLanguage _) hs hrun
  obtain ⟨parsed, hparsed⟩ := hparse (Expr.calls_of_forall (fun _ => rfl) tree)
  exact ⟨tree, parsed, htree, hparsed⟩

theorem parse_pythonExpression_negatedComparison :
    (Scene.ofLanguage .python {} .negatedComparison).Reached {} ∧
      (Scene.ofLanguage .python {} .negatedComparison).renderPlace (some 1) {} =
        (.ok (.value "not 0 == 0" Python.logicalNot), {}) ∧
      ∃ tree parsed,
        (Scene.ofLanguage .python {} .negatedComparison).operatorTree Python.phrases {} 1 =
            some tree ∧
          Python.grammar.parse "not 0 == 0" = some parsed ∧ Regrouped tree parsed ∧
          parsed.chainFree = true :=
  ⟨.start, rfl, parse_pythonExpression .start rfl⟩

end BlockScript
