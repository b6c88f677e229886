/-!
# Choices

Blocks with a drop-down field offer a closed set of choices. Each set is a type
of its own, so that the tables of a target language cover it by definition.
-/

namespace BlockScript

/-- `BlockOp`: a closed set of choices: its title, its members in order, and the text
    that a field holds for each. -/
class Choice (α : Type) where
  title : String
  members : List α
  text : α → String

/-- The member with the given text. -/
def Choice.ofText? {α : Type} [Choice α] (text : String) : Option α :=
  (Choice.members (α := α)).find? fun member => Choice.text member = text

/-- The texts of all members. -/
def Choice.texts (α : Type) [Choice α] : List String :=
  (Choice.members (α := α)).map Choice.text

/-! ## The sets -/

/-- `CompareOp`: the comparisons. -/
inductive CompareOp where
  | eq | neq | lt | lte | gt | gte
  deriving DecidableEq, Repr

instance : Choice CompareOp where
  title := "CompareOp"
  members := [.eq, .neq, .lt, .lte, .gt, .gte]
  text
    | .eq => "EQ"
    | .neq => "NEQ"
    | .lt => "LT"
    | .lte => "LTE"
    | .gt => "GT"
    | .gte => "GTE"

/-- `LogicOp`: conjunction and disjunction. -/
inductive LogicOp where
  | and | or
  deriving DecidableEq, Repr

instance : Choice LogicOp where
  title := "LogicOp"
  members := [.and, .or]
  text
    | .and => "AND"
    | .or => "OR"

/-- `ArithmeticOp`: the operations with two numbers. -/
inductive ArithmeticOp where
  | add | minus | multiply | divide | power
  deriving DecidableEq, Repr

instance : Choice ArithmeticOp where
  title := "ArithmeticOp"
  members := [.add, .minus, .multiply, .divide, .power]
  text
    | .add => "ADD"
    | .minus => "MINUS"
    | .multiply => "MULTIPLY"
    | .divide => "DIVIDE"
    | .power => "POWER"

/-- `SingleOp`: the functions of one number. -/
inductive SingleOp where
  | root | abs | neg | ln | log10 | exp | pow10 | round | roundUp | roundDown
  | sin | cos | tan | asin | acos | atan
  deriving DecidableEq, Repr

instance : Choice SingleOp where
  title := "SingleOp"
  members := [.root, .abs, .neg, .ln, .log10, .exp, .pow10, .round, .roundUp, .roundDown,
    .sin, .cos, .tan, .asin, .acos, .atan]
  text
    | .root => "ROOT"
    | .abs => "ABS"
    | .neg => "NEG"
    | .ln => "LN"
    | .log10 => "LOG10"
    | .exp => "EXP"
    | .pow10 => "POW10"
    | .round => "ROUND"
    | .roundUp => "ROUNDUP"
    | .roundDown => "ROUNDDOWN"
    | .sin => "SIN"
    | .cos => "COS"
    | .tan => "TAN"
    | .asin => "ASIN"
    | .acos => "ACOS"
    | .atan => "ATAN"

/-- `MathConstant`: the constants with a name. -/
inductive MathConstant where
  | pi | e | goldenRatio | sqrt2 | sqrt1over2 | infinity
  deriving DecidableEq, Repr

instance : Choice MathConstant where
  title := "MathConstant"
  members := [.pi, .e, .goldenRatio, .sqrt2, .sqrt1over2, .infinity]
  text
    | .pi => "PI"
    | .e => "E"
    | .goldenRatio => "GOLDEN_RATIO"
    | .sqrt2 => "SQRT2"
    | .sqrt1over2 => "SQRT1_2"
    | .infinity => "INFINITY"

/-- `NumberProperty`: the properties that a number can be tested for. -/
inductive NumberProperty where
  | even | odd | prime | whole | positive | negative | divisibleBy
  deriving DecidableEq, Repr

instance : Choice NumberProperty where
  title := "NumberProperty"
  members := [.even, .odd, .prime, .whole, .positive, .negative, .divisibleBy]
  text
    | .even => "EVEN"
    | .odd => "ODD"
    | .prime => "PRIME"
    | .whole => "WHOLE"
    | .positive => "POSITIVE"
    | .negative => "NEGATIVE"
    | .divisibleBy => "DIVISIBLE_BY"

/-- `ListOp`: the functions of a list of numbers. -/
inductive ListOp where
  | sum | min | max | average | median | mode | stdDev | random
  deriving DecidableEq, Repr

instance : Choice ListOp where
  title := "ListOp"
  members := [.sum, .min, .max, .average, .median, .mode, .stdDev, .random]
  text
    | .sum => "SUM"
    | .min => "MIN"
    | .max => "MAX"
    | .average => "AVERAGE"
    | .median => "MEDIAN"
    | .mode => "MODE"
    | .stdDev => "STD_DEV"
    | .random => "RANDOM"

/-- `LoopMode`: how the condition of a loop is meant. -/
inductive LoopMode where
  | while | until
  deriving DecidableEq, Repr

instance : Choice LoopMode where
  title := "LoopMode"
  members := [.while, .until]
  text
    | .while => "WHILE"
    | .until => "UNTIL"

/-- `FlowStatement`: the jumps that a loop body can make. -/
inductive FlowStatement where
  | break | continue
  deriving DecidableEq, Repr

instance : Choice FlowStatement where
  title := "FlowStatement"
  members := [.break, .continue]
  text
    | .break => "BREAK"
    | .continue => "CONTINUE"

/-! ## Coverage -/

/-- What `check_exhaustive` looks for: the choices, of the given texts, that are
    neither in a table nor skipped. -/
def missingChoices (texts table skipped : List String) : List String :=
  texts.filter fun text => !table.contains text && !skipped.contains text

end BlockScript
