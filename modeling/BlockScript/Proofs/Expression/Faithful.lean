import BlockScript.Proofs.Expression.Meaning
import BlockScript.Proofs.Names.Pass
import BlockScript.Proofs.Reading.Forms
import BlockScript.Proofs.Reading.Marks

/-!
# Faithful dialects

What the tables of a dialect, a phrase book and a grammar have to do with each
other: the text of every table entry is the text of its phrase, at the tier that
the table gives and for operands of the tiers that it asks for. Each part is a
fact about one entry. Where the entry is fixed text it can be computed.

The called words that are no keywords are the `allowed` ones.
-/

namespace BlockScript

open BlockScript.Reading BlockScript.Text

variable (g : Grammar) (allowed : String → Bool)

/-! ## Templates of the tables -/

/-- The template of an infix operator. -/
def infixParts (sign : String) : List Part :=
  [.hole 0, .text (" " ++ sign ++ " "), .hole 1]

/-- The template of an expression around one operand. -/
def aroundParts (before after : String) : List Part :=
  [.text before, .hole 0, .text after]

/-- The template of the arguments of a call and what closes them. -/
def argParts : List Nat → List Part
  | [] => [.text ")"]
  | [i] => [.hole i, .text ")"]
  | i :: rest => .hole i :: .text ", " :: argParts rest

/-- The positions of arguments. -/
def argPositions (count : Nat) : List (Tier × Bool) :=
  List.replicate count (.none, false)

/-- Whether calls of a function of the dialect are calls of a function of the
    phrase book. -/
def Callee.matches (tier : Tier) (count : Nat) : Callee → PhraseFunction → Bool
  | .function name _, .path word fields =>
    entry g allowed tier (argPositions count)
      (.text (name ++ "(") :: argParts (List.range count))
      (.call word fields ((List.range count).map .hole))
  | .helper form, .helper key => form.key = key
  | _, _ => false

/-! ## Whole dialects -/

/-- Whether the texts of a dialect are those of the phrases of a book. -/
structure Dialect.Faithful (d : Dialect) (book : PhraseBook) : Prop where
  proper : g.Proper
  tiered : g.Tiered
  groups : g.Groups allowed
  readsZero : g.ReadsZero
  readsCalls : g.ReadsCalls
  marks (sign : String) (h : sign ∈ g.marks) : allowed sign = true
  identifier {word : String} (h : d.policy.Fits .variable word) :
    Reads g allowed [] (d.policy.sign .variable ++ word) (.name (d.policy.sign .variable ++ word))
  procedure {word : String} (h : d.policy.Fits .procedure word) : g.Callable allowed word
  quote (content : String) : Reads g allowed [] (d.quote content) (.text (d.quote content))
  truth (b : Bool) : entry g allowed .atomic []
    [.text (if b then d.trueLiteral else d.falseLiteral)] (book.truth b) = true
  null : entry g allowed .atomic [] [.text d.nullLiteral] book.null = true
  emptyList : entry g allowed .none [] [.text d.emptyList] .emptyList = true
  compare (op : CompareOp) : entry g allowed (d.compare op).tier
    [((d.compare op).tier, true), ((d.compare op).tier, true)] (infixParts (d.compare op).text)
    (book.compare op) = true
  logic (op : LogicOp) : entry g allowed (d.logic op).tier
    [((d.logic op).tier, false), ((d.logic op).tier, false)] (infixParts (d.logic op).text)
    (book.logic op) = true
  logicNot {code : String} {tree : Expr} (h : Fills g allowed d.logicNot.tier false code tree) :
    Renders g allowed (d.logicNot.text ++ code) d.logicNot.tier (book.logicNot.filled [tree])
  ternary : ∃ parts, (∀ c a b, (d.ternary.layout c a b).toList =
      parts.flatMap (Part.chars fun i => [c, a, b].getD i "")) ∧
    entry g allowed d.ternary.result
      [(d.ternary.condition.tier, d.ternary.condition.strict),
        (d.ternary.consequent.tier, d.ternary.consequent.strict),
        (d.ternary.alternative.tier, d.ternary.alternative.strict)] parts book.ternary = true
  condition : d.ternary.condition.fallback = d.falseLiteral
  consequent : d.ternary.consequent.fallback = d.nullLiteral
  alternative : d.ternary.alternative.fallback = d.nullLiteral
  arithmetic (op : ArithmeticOp) : entry g allowed (d.arithmetic op).tier
    [((d.arithmetic op).tier, (d.arithmetic op).associativity.strictLeft),
      ((d.arithmetic op).tier, (d.arithmetic op).associativity.strictRight)]
    (infixParts (d.arithmetic op).text) (book.arithmetic op) = true
  modulo : entry g allowed d.modulo.tier [(d.modulo.tier, false), (d.modulo.tier, true)]
    (infixParts d.modulo.text) book.modulo = true
  minus : book.minus = "-"
  negation : d.negation.text = "-"
  readsMinus : g.ReadsMinus d.negation.tier
  negative : book.single .neg = .unary "-" (.hole 0)
  single (op : SingleOp) (h : op ≠ .neg) : entry g allowed (d.single op).result
    [((d.single op).operand, false)] (aroundParts (d.single op).before (d.single op).after)
    (book.single op) = true
  constant (name : MathConstant) : entry g allowed (d.constant name).tier []
    [.text (d.constant name).text] (book.constant name) = true
  infinity : entry g allowed d.infinity.tier [] [.text d.infinity.text] book.infinity = true
  minusInfinity : entry g allowed d.minusInfinity.tier [] [.text d.minusInfinity.text]
    book.minusInfinity = true
  notANumber : entry g allowed d.notANumber.tier [] [.text d.notANumber.text]
    book.notANumber = true
  test (property : NumberProperty) (hprime : property ≠ .prime)
    (hdivisible : property ≠ .divisibleBy) :
    entry g allowed (Recipe.plainTest d property).result
      [((Recipe.plainTest d property).operand, (Recipe.plainTest d property).strict)]
      (aroundParts (Recipe.plainTest d property).before (Recipe.plainTest d property).after)
      (book.test property) = true
  prime : book.prime = .helper d.primeHelper.key
  divisible : entry g allowed (d.compare .eq).tier [(d.modulo.tier, false), (d.modulo.tier, true)]
    [.hole 0, .text " % ", .hole 1, .text " == 0"] book.divisible = true
  onList (op : ListOp) : (d.onList op).matches g allowed d.call 1 (book.onList op) = true
  constrain : entry g allowed d.call [(.none, false), (.none, false), (.none, false)]
    [.text (d.minimum ++ "(" ++ d.maximum ++ "("), .hole 0, .text ", ", .hole 1, .text "), ",
      .hole 2, .text ")"] book.constrain = true
  low : Fills g allowed .none false d.lowFallback (book.low.filled [])
  high : entry g allowed .none [] [.text d.highFallback] book.high = true
  randomInteger : d.randomInteger.matches g allowed d.call 2 book.randomInteger = true
  randomFraction : entry g allowed d.randomFraction.tier [] [.text d.randomFraction.text]
    book.randomFraction = true
  arcTangent : entry g allowed d.arcTangent.result
    [(d.arcTangent.operand, false), (d.arcTangent.operand, false)]
    [.text d.arcTangent.before, .hole 0, .text ", ", .hole 1, .text d.arcTangent.after]
    book.arcTangent = true

namespace Dialect.Faithful

variable {g allowed} {d : Dialect} {book : PhraseBook} (h : d.Faithful g allowed book)
include h

/-! ## Fallbacks -/

/-- The number zero as a fallback. -/
theorem fills_zero (tier : Tier) (strict : Bool) : Fills g allowed tier strict "0" .zero :=
  Reading.fills_zero h.readsZero tier strict

/-- A rendered expression as an operand. -/
theorem fills {code : String} {inner : Tier} {tree : Expr}
    (hrenders : Renders g allowed code inner tree) (tier : Tier) (strict : Bool) :
    Fills g allowed tier strict (enclosed inner tier strict code) tree :=
  hrenders.operand h.tiered h.groups tier strict

/-- An atom in a position of any tier. -/
theorem fills_atomic {code : String} {tree : Expr} (hrenders : Renders g allowed code .atomic tree)
    (tier : Tier) (strict : Bool) : Fills g allowed tier strict code tree := by
  simpa [enclosed, Tier.needsParens] using h.fills hrenders tier strict

omit h in
theorem renders_fixed {code : String} {tier : Tier} {phrase : Phrase}
    (hentry : entry g allowed tier [] [.text code] phrase = true) :
    Renders g allowed code tier (phrase.filled []) :=
  renders_of_entry hentry (by simp [Part.chars]) .nil

omit h in
/-- A fixed text as a whole expression. -/
theorem fills_fixed {code : String} {phrase : Phrase}
    (hentry : entry g allowed .none [] [.text code] phrase = true) :
    Fills g allowed .none false code (phrase.filled []) := by
  have hrenders := renders_fixed hentry
  refine ⟨?_, fun hzero => (hrenders.zero hzero).1⟩
  exact hrenders.reads.weaken (List.dropWhile_suffix _)

/-- A truth value. -/
theorem renders_truth (b : Bool) :
    Renders g allowed (if b then d.trueLiteral else d.falseLiteral) .atomic
      ((book.truth b).filled []) :=
  renders_fixed (h.truth b)

theorem renders_null : Renders g allowed d.nullLiteral .atomic (book.null.filled []) :=
  renders_fixed h.null

end Dialect.Faithful

end BlockScript
