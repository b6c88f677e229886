import BlockScript.Proofs.Expression.Rendering

/-!
# Expressions in Lua

The phrases of Lua, and the result that the text of an expression parses to the
tree that its block denotes. A choice between values is `(a and b) or c` here.

Results:

* `Lua.faithful`: the tables of Lua give the texts of the phrases.
* `parse_luaExpression`: the text of an expression parses to its tree.
-/

namespace BlockScript.Lua

open BlockScript.Reading

/-! ## Phrases -/

/-- A function of the library of mathematics. -/
def mathCall (function : String) (args : List Phrase) : Phrase :=
  .call "math" [function] args

/-- The test whether a remainder is a certain number. -/
def remainderIs (divisor : Phrase) (remainder : String) : Phrase :=
  .binary "==" (.binary "%" (.hole 0) divisor) (.number remainder)

/-- The phrases of Lua. -/
def phrases : PhraseBook where
  truth b := .path (if b then "true" else "false") []
  null := .path "nil" []
  compare
    | .eq => .binary "==" (.hole 0) (.hole 1)
    | .neq => .binary "~=" (.hole 0) (.hole 1)
    | .lt => .binary "<" (.hole 0) (.hole 1)
    | .lte => .binary "<=" (.hole 0) (.hole 1)
    | .gt => .binary ">" (.hole 0) (.hole 1)
    | .gte => .binary ">=" (.hole 0) (.hole 1)
  logic
    | .and => .binary "and" (.hole 0) (.hole 1)
    | .or => .binary "or" (.hole 0) (.hole 1)
  logicNot := .unary "not" (.hole 0)
  ternary := .binary "or" (.binary "and" (.hole 0) (.hole 1)) (.hole 2)
  arithmetic
    | .add => .binary "+" (.hole 0) (.hole 1)
    | .minus => .binary "-" (.hole 0) (.hole 1)
    | .multiply => .binary "*" (.hole 0) (.hole 1)
    | .divide => .binary "/" (.hole 0) (.hole 1)
    | .power => .binary "^" (.hole 0) (.hole 1)
  modulo := .binary "%" (.hole 0) (.hole 1)
  minus := "-"
  single
    | .root => mathCall "sqrt" [.hole 0]
    | .abs => mathCall "abs" [.hole 0]
    | .neg => .unary "-" (.hole 0)
    | .ln => mathCall "log" [.hole 0]
    | .log10 => mathCall "log" [.hole 0, .number "10"]
    | .exp => mathCall "exp" [.hole 0]
    | .pow10 => .binary "^" (.number "10") (.hole 0)
    | .round => mathCall "floor" [.binary "+" (.hole 0) (.number ".5")]
    | .roundUp => mathCall "ceil" [.hole 0]
    | .roundDown => mathCall "floor" [.hole 0]
    | .sin => mathCall "sin" [mathCall "rad" [.hole 0]]
    | .cos => mathCall "cos" [mathCall "rad" [.hole 0]]
    | .tan => mathCall "tan" [mathCall "rad" [.hole 0]]
    | .asin => mathCall "deg" [mathCall "asin" [.hole 0]]
    | .acos => mathCall "deg" [mathCall "acos" [.hole 0]]
    | .atan => mathCall "deg" [mathCall "atan" [.hole 0]]
  constant
    | .pi => .path "math" ["pi"]
    | .e => mathCall "exp" [.number "1"]
    | .goldenRatio => .binary "/"
      (.group (.binary "+" (.number "1") (mathCall "sqrt" [.number "5"]))) (.number "2")
    | .sqrt2 => mathCall "sqrt" [.number "2"]
    | .sqrt1over2 => mathCall "sqrt" [.binary "/" (.number "1") (.number "2")]
    | .infinity => .path "math" ["huge"]
  infinity := .path "math" ["huge"]
  minusInfinity := .unary "-" (.path "math" ["huge"])
  notANumber := .group (.binary "/" (.number "0") (.number "0"))
  test
    | .odd => remainderIs (.number "2") "1"
    | .whole => remainderIs (.number "1") "0"
    | .positive => .binary ">" (.hole 0) (.number "0")
    | .negative => .binary "<" (.hole 0) (.number "0")
    | .even | .prime | .divisibleBy => remainderIs (.number "2") "0"
  prime := .helper "math_isPrime"
  divisible := remainderIs (.hole 1) "0"
  constrain := mathCall "min" [mathCall "max" [.hole 0, .hole 1], .hole 2]
  low := .unary "-" (.path "math" ["huge"])
  high := .path "math" ["huge"]
  onList
    | .sum => .helper "math_sum"
    | .min => .helper "math_min"
    | .max => .helper "math_max"
    | .average => .helper "math_average"
    | .median => .helper "math_median"
    | .mode => .helper "math_modes"
    | .stdDev => .helper "math_standard_deviation"
    | .random => .helper "math_random_list"
  randomInteger := .path "math" ["random"]
  randomFraction := mathCall "random" []
  arcTangent := mathCall "deg" [mathCall "atan" [.hole 0, .hole 1]]

/-! ## Words and texts of a program -/

/-- Whether a word is no keyword when a program calls it: here, always. -/
def isFunctionName (_ : String) : Bool :=
  true

theorem isKeyword_eq_false {kind : NameKind} {word : String} (h : dialect.policy.Fits kind word) :
    lexis.isKeyword word.toList = false := by
  have hreserved : ∀ keyword ∈ signKeywords, keyword ∈ dialect.policy.reserved := by decide
  have hword : word ∉ signKeywords := fun hmem => h.notReserved (hreserved word hmem)
  simpa [Lexis.isKeyword, lexis] using hword

theorem cut_name {kind : NameKind} {word : String} (h : dialect.policy.Fits kind word) :
    lexis.cut word.toList = some ([.name word], false) := by
  rw [cut_word lexis h.identifier, isKeyword_eq_false h]
  rfl

theorem opens_quote (content : String) :
    ∃ c cs, (quote content).toList = c :: cs ∧ isOpening c = true :=
  ⟨_, _, String.toList_ofList, by decide⟩

/-- A negated condition. -/
theorem renders_logicNot {code : String} {tree : Expr}
    (h : Fills grammar isFunctionName unary false code tree) :
    Renders grammar isFunctionName ("not " ++ code) unary (.unary "not" tree) := by
  have hentry : entry grammar isFunctionName unary [(unary, false)] [.text "not ", .hole 0]
      (.unary "not" (.hole 0)) = true := by decide
  exact renders_of_entry hentry (by simp [Part.chars]) (.cons h .nil)

/-! ## The tables -/

/-- The tables of Lua give the texts of the phrases. -/
theorem faithful : dialect.Faithful grammar isFunctionName phrases where
  proper := grammar_proper
  tiered := by decide
  groups := by unfold Grammar.Groups; decide +kernel
  readsZero := by decide +kernel
  readsCalls := ⟨by decide +kernel, by decide +kernel, by decide +kernel⟩
  marks _ _ := rfl
  identifier h := reads_name (opens_identifier h.identifier) (cut_name h) rfl
  procedure h := ⟨opens_identifier h.identifier, fun _ => cut_name h, fun hno => by cases hno⟩
  quote content := reads_atom (opens_quote content) (cut_quote content) (.text _) rfl
  truth b := by cases b <;> decide +kernel
  null := by decide +kernel
  emptyList := by decide +kernel
  compare op := by cases op <;> decide +kernel
  logic op := by cases op <;> decide +kernel
  logicNot h := renders_logicNot h
  ternary := ⟨[.hole 0, .text " and ", .hole 1, .text " or ", .hole 2],
    fun c a b => by simp [dialect, Part.chars], by decide +kernel⟩
  condition := rfl
  consequent := rfl
  alternative := rfl
  arithmetic op := by cases op <;> decide +kernel
  modulo := by decide +kernel
  minus := rfl
  negation := rfl
  readsMinus := ⟨by decide, by decide +kernel, by decide +kernel, by decide +kernel, by decide⟩
  negative := rfl
  single op h := by cases op <;> first | exact absurd rfl h | decide +kernel
  constant name := by cases name <;> decide +kernel
  infinity := by decide +kernel
  minusInfinity := by decide +kernel
  notANumber := by decide +kernel
  test property _ _ := by cases property <;> decide +kernel
  prime := rfl
  divisible := by decide +kernel
  onList op := by cases op <;> decide +kernel
  constrain := by decide +kernel
  low := Dialect.Faithful.fills_fixed (by decide +kernel)
  high := by decide +kernel
  randomInteger := by decide +kernel
  randomFraction := by decide +kernel
  arcTangent := by decide +kernel

/-- A difference on the right of a difference needs its brackets. -/
example : entry grammar isFunctionName (dialect.arithmetic .minus).tier
    [((dialect.arithmetic .minus).tier, false), ((dialect.arithmetic .minus).tier, false)]
    (infixParts (dialect.arithmetic .minus).text) (phrases.arithmetic .minus) = false := by
  decide +kernel

end BlockScript.Lua

namespace BlockScript

open BlockScript.Reading

/-! ## Expressions -/

/-- The text of an expression in Lua is read without meeting a comment, and parses
    to the tree that its block denotes, up to the grouping of runs of `and` and
    `or`. -/
theorem parse_luaExpression {config : Config} {workspace : Workspace} {ref : Ref} {code : String}
    {tier : Tier} {s t : PassState} (hs : (Scene.ofLanguage .lua config workspace).Reached s)
    (hrun : (Scene.ofLanguage .lua config workspace).renderPlace (some ref) s =
      (.ok (.value code tier), t)) :
    ∃ tree tokens parsed,
      (Scene.ofLanguage .lua config workspace).operatorTree Lua.phrases t ref = some tree ∧
        Lua.lexis.lex code = some tokens ∧ .mark "--" ∉ tokens ∧
        Lua.grammar.parse code = some parsed ∧ Regrouped tree parsed := by
  obtain ⟨tree, htree, hparse, -⟩ := Scene.parse_of_renderPlace Lua.faithful
    (RuleTable.known_ofLanguage _) hs hrun
  obtain ⟨parsed, hparsed, hregrouped, -⟩ := hparse (Expr.calls_of_forall (fun _ => rfl) tree)
  obtain ⟨tokens, hlex, hmarks⟩ := Grammar.marks_of_parse hparsed
  have hcomment : "--" ∉ Lua.grammar.marks := by decide
  exact ⟨tree, tokens, parsed, htree, hlex, fun hmem => hcomment (hmarks "--" hmem), hparsed,
    hregrouped⟩

theorem parse_luaExpression_negatedComparison :
    (Scene.ofLanguage .lua {} .negatedComparison).Reached {} ∧
      (Scene.ofLanguage .lua {} .negatedComparison).renderPlace (some 1) {} =
        (.ok (.value "not (0 == 0)" Lua.unary), {}) ∧
      ∃ tree tokens parsed,
        (Scene.ofLanguage .lua {} .negatedComparison).operatorTree Lua.phrases {} 1 = some tree ∧
          Lua.lexis.lex "not (0 == 0)" = some tokens ∧ .mark "--" ∉ tokens ∧
          Lua.grammar.parse "not (0 == 0)" = some parsed ∧ Regrouped tree parsed :=
  ⟨.start, rfl, parse_luaExpression .start rfl⟩

end BlockScript
