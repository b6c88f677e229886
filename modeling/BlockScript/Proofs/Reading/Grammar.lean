import BlockScript.Proofs.Reading.Expr
import BlockScript.Proofs.Reading.Lexis
import BlockScript.Proofs.Reading.Recursion
import BlockScript.Tier

/-!
# Grammars of expressions

A grammar is a list of levels, the loosest operators first, above calls, members
and atoms. Its parser descends through the levels. It covers what expressions
in the three languages have in common, and refuses everything else; what it
accepts, the language itself reads in the same way.

Every level has a tier, so that a tier names a place in the grammar: `upTo` are
the levels that bind at least as tightly, `below` those that bind more tightly.
-/

namespace BlockScript.Reading

/-! ## Levels -/

/-- How the operators of a level group. -/
inductive Shape where
  /-- Infix operators that group to the left. -/
  | leftward (signs : List String)
  /-- Infix operators of which an expression has one at most. -/
  | single (signs : List String)
  /-- Comparisons, of which several in a row make a chain. -/
  | chained (signs : List String)
  /-- Operators ahead of their operand, casts among them if so marked. -/
  | ahead (signs : List String) (casts : Bool)
  /-- An infix operator whose right operand may have the given tier. -/
  | power (sign : String) (right : Tier)
  /-- The choice `a if c else b`, which groups to the right. -/
  | conditional
  /-- The choice `c ? a : b`, none of whose parts may be a choice. -/
  | choice
  deriving DecidableEq, Repr

/-- A level of a grammar. -/
structure Level where
  tier : Tier
  shape : Shape
  deriving DecidableEq, Repr

/-- The expressions of a language. -/
structure Grammar where
  lexis : Lexis
  /-- The levels, the loosest first. -/
  levels : List Level
  /-- Whether members are named after a point. -/
  members : Bool
  /-- The tokens of the empty list. -/
  emptyList : List Token
  /-- The words that make a cast between parentheses, in lower case. -/
  casts : List String

namespace Grammar

variable (g : Grammar)

/-- The levels that bind as tightly as a tier or more so. -/
def upTo (tier : Tier) : List Level :=
  g.levels.dropWhile fun level => tier < level.tier

/-- The levels that bind more tightly than a tier. -/
def below (tier : Tier) : List Level :=
  g.levels.dropWhile fun level => tier ≤ level.tier

/-- Whether a word makes a cast between parentheses. -/
def isCast (word : String) : Bool :=
  g.casts.contains (String.ofList (word.toList.map Char.toLower))

end Grammar

/-! ## Single tokens -/

/-- The sign at the start of the tokens if it is one of the given, with the
    tokens after it. -/
def nextSign (signs : List String) : List Token → Option (String × List Token)
  | .mark sign :: rest => if sign ∈ signs then some (sign, rest) else none
  | _ => none

/-- The cast at the start of the tokens, with the tokens after it. -/
def nextCast (g : Grammar) : List Token → Option (String × List Token)
  | .mark sign :: .name word :: .mark sign' :: rest =>
    if sign = "(" ∧ sign' = ")" ∧ g.isCast word = true then some ("(" ++ word ++ ")", rest)
    else none
  | _ => none

/-- The operator ahead of an operand at the start of the tokens, with the tokens
    after it. -/
def nextAhead (g : Grammar) (signs : List String) (casts : Bool) (tokens : List Token) :
    Option (String × List Token) :=
  (nextSign signs tokens).or (if casts then nextCast g tokens else none)

/-! ## The parser -/

/-- What the parser can be asked for: an expression of some levels, the calls and members
    after an expression, the arguments after the first, and what follows a first operand
    of infix operators or comparisons. -/
inductive Task where
  | level (levels : List Level) (tokens : List Token)
  | suffixes (owner : Expr) (tokens : List Token)
  | args (tokens : List Token)
  | run (signs : List String) (tighter : List Level) (left : Expr) (tokens : List Token)
  | chain (signs : List String) (tighter : List Level) (first : Expr) (tokens : List Token)

/-- What a task gives: an expression or arguments, and the tokens after them. -/
@[reducible] def Task.Result : Task → Type
  | .args _ => List Expr × List Token
  | .level .. | .suffixes .. | .run .. | .chain .. => Expr × List Token

section Steps

variable (g : Grammar) (parseAt : List Level → List Token → Option (Expr × List Token))
  (parseSuffixes : Expr → List Token → Option (Expr × List Token))
  (parseArgs : List Token → Option (List Expr × List Token))
  (parseRun : List String → List Level → Expr → List Token → Option (Expr × List Token))
  (parseChain : List String → List Level → Expr → List Token → Option (Expr × List Token))

/-- Parses an expression of the given levels at the start of the tokens. Gives
    the tokens after it. -/
def stepAt (levels : List Level) (tokens : List Token) : Option (Expr × List Token) :=
  match levels with
  | [] =>
    match tokens with
    | .number digits :: rest => some (.number digits, rest)
    | .text literal :: rest => some (.text literal, rest)
    | .name word :: rest =>
      if g.isCast word = true ∧ nextSign ["("] rest = none then none
      else parseSuffixes (.name word) rest
    | .mark sign :: rest =>
      if g.emptyList.isPrefixOf tokens then some (.emptyList, tokens.drop g.emptyList.length)
      else if sign = "(" then do
        let (inner, rest) ← parseAt g.levels rest
        let (_, rest) ← nextSign [")"] rest
        parseSuffixes inner rest
      else none
    | [] => none
  | level :: tighter =>
    match level.shape with
    | .leftward signs => do
      let (first, rest) ← parseAt tighter tokens
      parseRun signs tighter first rest
    | .single signs => do
      let (left, rest) ← parseAt tighter tokens
      match nextSign signs rest with
      | none => some (left, rest)
      | some (sign, rest) => do
        let (right, rest) ← parseAt tighter rest
        some (.binary sign left right, rest)
    | .chained signs => do
      let (left, rest) ← parseAt tighter tokens
      match nextSign signs rest with
      | none => some (left, rest)
      | some (sign, rest) => do
        let (right, rest) ← parseAt tighter rest
        parseChain signs tighter (.binary sign left right) rest
    | .ahead signs casts =>
      match nextAhead g signs casts tokens with
      | none => parseAt tighter tokens
      | some (sign, rest) => do
        let (operand, rest) ← parseAt (level :: tighter) rest
        some (.unary sign operand, rest)
    | .power sign right => do
      let (base, rest) ← parseAt tighter tokens
      match nextSign [sign] rest with
      | none => some (base, rest)
      | some (sign, rest) => do
        let (exponent, rest) ← parseAt (g.upTo right) rest
        some (.binary sign base exponent, rest)
    | .conditional => do
      let (first, rest) ← parseAt tighter tokens
      match nextSign ["if"] rest with
      | none => some (first, rest)
      | some (_, rest) => do
        let (condition, rest) ← parseAt tighter rest
        let (_, rest) ← nextSign ["else"] rest
        let (last, rest) ← parseAt (level :: tighter) rest
        some (.choice condition first last, rest)
    | .choice => do
      let (condition, rest) ← parseAt tighter tokens
      match nextSign ["?"] rest with
      | none => some (condition, rest)
      | some (_, rest) => do
        let (first, rest) ← parseAt tighter rest
        let (_, rest) ← nextSign [":"] rest
        let (last, rest) ← parseAt tighter rest
        some (.choice condition first last, rest)

/-- Parses the calls and members that follow an expression. -/
def stepSuffixes (owner : Expr) (tokens : List Token) : Option (Expr × List Token) :=
  match nextSign ["(", "."] tokens with
  | none => some (owner, tokens)
  | some (sign, rest) =>
    if sign = "(" then
      match nextSign [")"] rest with
      | some (_, rest) => parseSuffixes (.call owner []) rest
      | none => do
        let (first, rest) ← parseAt g.levels rest
        let (others, rest) ← parseArgs rest
        parseSuffixes (.call owner (first :: others)) rest
    else
      match rest with
      | .name field :: rest =>
        if g.members then parseSuffixes (.member owner field) rest else none
      | _ => none

/-- Parses the arguments after the first, with the parenthesis that closes
    them. -/
def stepArgs (tokens : List Token) : Option (List Expr × List Token) :=
  match nextSign [")", ","] tokens with
  | none => none
  | some (sign, rest) =>
    if sign = ")" then some ([], rest)
    else do
      let (arg, rest) ← parseAt g.levels rest
      let (args, rest) ← parseArgs rest
      some (arg :: args, rest)

/-- Parses the operators of a level that groups to the left, each with its right
    operand, after a first operand. -/
def stepRun (signs : List String) (tighter : List Level) (left : Expr) (tokens : List Token) :
    Option (Expr × List Token) :=
  match nextSign signs tokens with
  | none => some (left, tokens)
  | some (sign, rest) => do
    let (right, rest) ← parseAt tighter rest
    parseRun signs tighter (.binary sign left right) rest

/-- Parses further comparisons after a first one. -/
def stepChain (signs : List String) (tighter : List Level) (first : Expr) (tokens : List Token) :
    Option (Expr × List Token) :=
  match nextSign signs tokens with
  | none => some (first, tokens)
  | some (sign, rest) => do
    let (right, rest) ← parseAt tighter rest
    parseChain signs tighter (.chain first sign right) rest

end Steps

/-- What the parser does for a task, if `solve` answers the tasks inside it. -/
def parseStep (g : Grammar) (solve : PartialFunction Task.Result) :
    PartialFunction Task.Result := fun task =>
  let parseAt := fun levels tokens => solve (.level levels tokens)
  let parseSuffixes := fun owner tokens => solve (.suffixes owner tokens)
  let parseArgs := fun tokens => solve (.args tokens)
  let parseRun := fun signs tighter left tokens => solve (.run signs tighter left tokens)
  let parseChain := fun signs tighter first tokens => solve (.chain signs tighter first tokens)
  match task with
  | .level levels tokens => stepAt g parseAt parseSuffixes parseRun parseChain levels tokens
  | .suffixes owner tokens => stepSuffixes g parseAt parseSuffixes parseArgs owner tokens
  | .args tokens => stepArgs g parseAt parseArgs tokens
  | .run signs tighter left tokens => stepRun parseAt parseRun signs tighter left tokens
  | .chain signs tighter first tokens => stepChain parseAt parseChain signs tighter first tokens

/-! ## Growth of the steps -/

section Growth

variable {g : Grammar} {f f' : PartialFunction Task.Result} (h : Below f f')
include h

theorem grows_primary (tokens : List Token) :
    Grows (parseStep g f (.level [] tokens)) (parseStep g f' (.level [] tokens)) := by
  simp only [parseStep]
  unfold stepAt
  cases tokens with
  | nil => exact .refl _
  | cons token rest =>
    cases token with
    | number | text => exact .refl _
    | name word =>
      dsimp only
      split
      · exact .refl _
      · exact h _
    | mark sign =>
      dsimp only
      split
      · exact .refl _
      · split
        · exact (h _).bind fun _ => Grows.bind (.refl _) fun _ => h _
        · exact .refl _

section Levels

variable {level : Level} {signs : List String} (tighter : List Level) (tokens : List Token)

theorem grows_leftward (hshape : level.shape = .leftward signs) :
    Grows (parseStep g f (.level (level :: tighter) tokens))
      (parseStep g f' (.level (level :: tighter) tokens)) := by
  simp only [parseStep, stepAt, hshape]
  exact (h _).bind fun _ => h _

theorem grows_single (hshape : level.shape = .single signs) :
    Grows (parseStep g f (.level (level :: tighter) tokens))
      (parseStep g f' (.level (level :: tighter) tokens)) := by
  simp only [parseStep, stepAt, hshape]
  refine (h _).bind ?_
  rintro ⟨left, rest⟩
  dsimp only
  cases nextSign signs rest with
  | none => exact .refl _
  | some found => exact (h _).bind fun _ => .refl _

theorem grows_chained (hshape : level.shape = .chained signs) :
    Grows (parseStep g f (.level (level :: tighter) tokens))
      (parseStep g f' (.level (level :: tighter) tokens)) := by
  simp only [parseStep, stepAt, hshape]
  refine (h _).bind ?_
  rintro ⟨left, rest⟩
  dsimp only
  cases nextSign signs rest with
  | none => exact .refl _
  | some found => exact (h _).bind fun _ => h _

theorem grows_ahead {casts : Bool} (hshape : level.shape = .ahead signs casts) :
    Grows (parseStep g f (.level (level :: tighter) tokens))
      (parseStep g f' (.level (level :: tighter) tokens)) := by
  simp only [parseStep, stepAt, hshape]
  cases nextAhead g signs casts tokens with
  | none => exact h _
  | some found => exact (h _).bind fun _ => .refl _

theorem grows_power {sign : String} {right : Tier} (hshape : level.shape = .power sign right) :
    Grows (parseStep g f (.level (level :: tighter) tokens))
      (parseStep g f' (.level (level :: tighter) tokens)) := by
  simp only [parseStep, stepAt, hshape]
  refine (h _).bind ?_
  rintro ⟨base, rest⟩
  dsimp only
  cases nextSign [sign] rest with
  | none => exact .refl _
  | some found => exact (h _).bind fun _ => .refl _

theorem grows_conditional (hshape : level.shape = .conditional) :
    Grows (parseStep g f (.level (level :: tighter) tokens))
      (parseStep g f' (.level (level :: tighter) tokens)) := by
  simp only [parseStep, stepAt, hshape]
  refine (h _).bind ?_
  rintro ⟨first, rest⟩
  dsimp only
  cases nextSign ["if"] rest with
  | none => exact .refl _
  | some found =>
    exact (h _).bind fun _ => Grows.bind (.refl _) fun _ => (h _).bind fun _ => .refl _

theorem grows_choice (hshape : level.shape = .choice) :
    Grows (parseStep g f (.level (level :: tighter) tokens))
      (parseStep g f' (.level (level :: tighter) tokens)) := by
  simp only [parseStep, stepAt, hshape]
  refine (h _).bind ?_
  rintro ⟨condition, rest⟩
  dsimp only
  cases nextSign ["?"] rest with
  | none => exact .refl _
  | some found =>
    exact (h _).bind fun _ => Grows.bind (.refl _) fun _ => (h _).bind fun _ => .refl _

end Levels

theorem grows_level (levels : List Level) (tokens : List Token) :
    Grows (parseStep g f (.level levels tokens)) (parseStep g f' (.level levels tokens)) := by
  cases levels with
  | nil => exact grows_primary h tokens
  | cons level tighter =>
    cases hshape : level.shape with
    | leftward signs => exact grows_leftward h tighter tokens hshape
    | single signs => exact grows_single h tighter tokens hshape
    | chained signs => exact grows_chained h tighter tokens hshape
    | ahead signs casts => exact grows_ahead h tighter tokens hshape
    | power sign right => exact grows_power h tighter tokens hshape
    | conditional => exact grows_conditional h tighter tokens hshape
    | choice => exact grows_choice h tighter tokens hshape

theorem grows_suffixes (owner : Expr) (tokens : List Token) :
    Grows (parseStep g f (.suffixes owner tokens)) (parseStep g f' (.suffixes owner tokens)) := by
  simp only [parseStep]
  unfold stepSuffixes
  cases nextSign ["(", "."] tokens with
  | none => exact .refl _
  | some found =>
    dsimp only
    split
    · cases nextSign [")"] found.2 with
      | none => exact (h _).bind fun _ => (h _).bind fun _ => h _
      | some closed => exact h _
    · split
      · split
        · exact h _
        · exact .refl _
      · exact .refl _

theorem grows_args (tokens : List Token) :
    Grows (parseStep g f (.args tokens)) (parseStep g f' (.args tokens)) := by
  simp only [parseStep]
  unfold stepArgs
  cases nextSign [")", ","] tokens with
  | none => exact .refl _
  | some found =>
    dsimp only
    split
    · exact .refl _
    · exact (h _).bind fun _ => (h _).bind fun _ => .refl _

theorem grows_run (signs : List String) (tighter : List Level) (left : Expr)
    (tokens : List Token) :
    Grows (parseStep g f (.run signs tighter left tokens))
      (parseStep g f' (.run signs tighter left tokens)) := by
  simp only [parseStep]
  unfold stepRun
  cases nextSign signs tokens with
  | none => exact .refl _
  | some found => exact (h _).bind fun _ => h _

theorem grows_chain (signs : List String) (tighter : List Level) (first : Expr)
    (tokens : List Token) :
    Grows (parseStep g f (.chain signs tighter first tokens))
      (parseStep g f' (.chain signs tighter first tokens)) := by
  simp only [parseStep]
  unfold stepChain
  cases nextSign signs tokens with
  | none => exact .refl _
  | some found => exact (h _).bind fun _ => h _

end Growth

/-- More answers to the tasks inside a task give no other result. -/
theorem growing_parseStep (g : Grammar) : Growing (parseStep g) := by
  intro f f' h task
  cases task with
  | level levels tokens => exact grows_level h levels tokens
  | suffixes owner tokens => exact grows_suffixes h owner tokens
  | args tokens => exact grows_args h tokens
  | run signs tighter left tokens => exact grows_run h signs tighter left tokens
  | chain signs tighter first tokens => exact grows_chain h signs tighter first tokens

/-- The parser of a level. -/
noncomputable def parseAt (g : Grammar) (levels : List Level) (tokens : List Token) :
    Option (Expr × List Token) :=
  least (parseStep g) (.level levels tokens)

/-- The parser of calls and members. -/
noncomputable def parseSuffixes (g : Grammar) (owner : Expr) (tokens : List Token) :
    Option (Expr × List Token) :=
  least (parseStep g) (.suffixes owner tokens)

/-- The parser of further arguments. -/
noncomputable def parseArgs (g : Grammar) (tokens : List Token) :
    Option (List Expr × List Token) :=
  least (parseStep g) (.args tokens)

/-- The parser of infix operators. -/
noncomputable def parseRun (g : Grammar) (signs : List String) (tighter : List Level) (left : Expr)
    (tokens : List Token) : Option (Expr × List Token) :=
  least (parseStep g) (.run signs tighter left tokens)

/-- The parser of further comparisons. -/
noncomputable def parseChain (g : Grammar) (signs : List String) (tighter : List Level)
    (first : Expr) (tokens : List Token) : Option (Expr × List Token) :=
  least (parseStep g) (.chain signs tighter first tokens)

section Equations

variable (g : Grammar) (levels : List Level) (tokens : List Token)

theorem parseAt_eq_step : parseAt g levels tokens =
    stepAt g (parseAt g) (parseSuffixes g) (parseRun g) (parseChain g) levels tokens :=
  congrFun (least_eq (growing_parseStep g)) (.level levels tokens)

theorem parseSuffixes_eq_step (owner : Expr) : parseSuffixes g owner tokens =
    stepSuffixes g (parseAt g) (parseSuffixes g) (parseArgs g) owner tokens :=
  congrFun (least_eq (growing_parseStep g)) (.suffixes owner tokens)

theorem parseArgs_eq_step : parseArgs g tokens = stepArgs g (parseAt g) (parseArgs g) tokens :=
  congrFun (least_eq (growing_parseStep g)) (.args tokens)

theorem parseRun_eq_step (signs : List String) (left : Expr) :
    parseRun g signs levels left tokens =
      stepRun (parseAt g) (parseRun g) signs levels left tokens :=
  congrFun (least_eq (growing_parseStep g)) (.run signs levels left tokens)

theorem parseChain_eq_step (signs : List String) (first : Expr) :
    parseChain g signs levels first tokens =
      stepChain (parseAt g) (parseChain g) signs levels first tokens :=
  congrFun (least_eq (growing_parseStep g)) (.chain signs levels first tokens)

end Equations

/-- The tree of a text that is one expression and nothing else. -/
noncomputable def Grammar.parse (g : Grammar) (text : String) : Option Expr := do
  let tokens ← g.lexis.lex text
  let (tree, rest) ← parseAt g g.levels tokens
  if rest = [] then some tree else none

end BlockScript.Reading
