import BlockScript.Dialect

/-!
# Lua

Lua 5.3: blocks close with `end` and may be empty. There is no statement for
going on with the next round of a loop, so a loop body that needs one ends in a
label. Functions see outer variables without declaring them.
-/

namespace BlockScript.Lua

/-! ## Tiers -/

def high : Tier := 1
def exponentiation : Tier := 2
def unary : Tier := 3
def multiplicative : Tier := 4
def additive : Tier := 5
def relational : Tier := 7
def logicalAnd : Tier := 8
def logicalOr : Tier := 9

/-- `LuaOrder`: the tiers of the grammar, from the tightest to the loosest. -/
def tiers : List (String × Tier) :=
  [("ATOMIC", .atomic), ("HIGH", high), ("EXPONENTIATION", exponentiation), ("UNARY", unary),
    ("MULTIPLICATIVE", multiplicative), ("ADDITIVE", additive), ("CONCATENATION", 6),
    ("RELATIONAL", relational), ("AND", logicalAnd), ("OR", logicalOr), ("NONE", .none)]

/-! ## Words -/

/-- The keywords among `RESERVED_WORDS`. -/
def keywords : List String :=
  ["and", "break", "do", "else", "elseif", "end", "false", "for", "function", "goto", "if", "in",
    "local", "nil", "not", "or", "repeat", "return", "then", "true", "until", "while"]

/-- The global functions and variables among `RESERVED_WORDS`. -/
def globals : List String :=
  ["_G", "_VERSION", "assert", "collectgarbage", "dofile", "error", "getmetatable", "ipairs",
    "load", "loadfile", "next", "pairs", "pcall", "print", "rawequal", "rawget", "rawlen",
    "rawset", "require", "select", "setmetatable", "tonumber", "tostring", "type", "xpcall"]

/-- The standard libraries among `RESERVED_WORDS`. -/
def libraries : List String :=
  ["coroutine", "debug", "io", "math", "os", "package", "string", "table", "utf8"]

/-- `BaseGenerator.quote`: controls are escaped, and the text stands in single
    quotes. -/
def quote (text : String) : String :=
  let escaped := text.toList.flatMap fun c =>
    if c = '\\' || c = '\'' then ['\\', c] else escapeControl decimalEscape c
  String.ofList ('\'' :: (escaped ++ ['\'']))

/-! ## Helper functions -/

/-- `_IS_PRIME`: whether a number is prime. -/
def primeHelper : Helper where
  key := "math_isPrime"
  template := helperLines [
    "function \x7b\x7bFUNCTION_NAME\x7d\x7d(n)",
    "  -- https://en.wikipedia.org/wiki/Primality_test#Naive_methods",
    "  if n == 2 or n == 3 then",
    "    return true",
    "  end",
    "  -- False if n is NaN, negative, is 1, or not whole.",
    "  -- And false if n is divisible by 2 or 3.",
    "  if not(n > 1) or n % 1 ~= 0 or n % 2 == 0 or n % 3 == 0 then",
    "    return false",
    "  end",
    "  -- Check all the numbers of form 6k +/- 1, up to sqrt(n).",
    "  for x = 6, math.sqrt(n) + 1.5, 6 do",
    "    if n % (x - 1) == 0 or n % (x + 1) == 0 then",
    "      return false",
    "    end",
    "  end",
    "  return true",
    "end"]
  imports := []

/-- `_SUM`: the sum of a list of numbers. -/
def sumHelper : Helper where
  key := "math_sum"
  template := helperLines [
    "function \x7b\x7bFUNCTION_NAME\x7d\x7d(t)",
    "  local result = 0",
    "  for _, v in ipairs(t) do",
    "    result = result + v",
    "  end",
    "  return result",
    "end"]
  imports := []

/-- `_MIN`: the least number of a list. -/
def minimumHelper : Helper where
  key := "math_min"
  template := helperLines [
    "function \x7b\x7bFUNCTION_NAME\x7d\x7d(t)",
    "  if #t == 0 then",
    "    return 0",
    "  end",
    "  local result = math.huge",
    "  for _, v in ipairs(t) do",
    "    if v < result then",
    "      result = v",
    "    end",
    "  end",
    "  return result",
    "end"]
  imports := []

/-- `_MAX`: the greatest number of a list. -/
def maximumHelper : Helper where
  key := "math_max"
  template := helperLines [
    "function \x7b\x7bFUNCTION_NAME\x7d\x7d(t)",
    "  if #t == 0 then",
    "    return 0",
    "  end",
    "  local result = -math.huge",
    "  for _, v in ipairs(t) do",
    "    if v > result then",
    "      result = v",
    "    end",
    "  end",
    "  return result",
    "end"]
  imports := []

/-- `_AVERAGE`: the mean of a list of numbers. -/
def averageHelper : Helper where
  key := "math_average"
  template := helperLines [
    "function \x7b\x7bFUNCTION_NAME\x7d\x7d(t)",
    "  if #t == 0 then",
    "    return 0",
    "  end",
    "  local result = 0",
    "  for _, v in ipairs(t) do",
    "    result = result + v",
    "  end",
    "  return result / #t",
    "end"]
  imports := []

/-- `_MEDIAN`: the median of the numbers in a list. -/
def medianHelper : Helper where
  key := "math_median"
  template := helperLines [
    "function \x7b\x7bFUNCTION_NAME\x7d\x7d(t)",
    "  -- Source: http://lua-users.org/wiki/SimpleStats",
    "  if #t == 0 then",
    "    return 0",
    "  end",
    "  local temp = \x7b\x7d",
    "  for _, v in ipairs(t) do",
    "    if type(v) == 'number' then",
    "      table.insert(temp, v)",
    "    end",
    "  end",
    "  table.sort(temp)",
    "  if #temp % 2 == 0 then",
    "    return (temp[#temp / 2] + temp[(#temp / 2) + 1]) / 2",
    "  else",
    "    return temp[math.ceil(#temp / 2)]",
    "  end",
    "end"]
  imports := []

/-- `_MODES`: the most frequent items of a list. -/
def modesHelper : Helper where
  key := "math_modes"
  template := helperLines [
    "function \x7b\x7bFUNCTION_NAME\x7d\x7d(t)",
    "  -- Source: http://lua-users.org/wiki/SimpleStats",
    "  local counts = \x7b\x7d",
    "  for _, v in ipairs(t) do",
    "    if counts[v] == nil then",
    "      counts[v] = 1",
    "    else",
    "      counts[v] = counts[v] + 1",
    "    end",
    "  end",
    "  local biggestCount = 0",
    "  for _, v in pairs(counts) do",
    "    if v > biggestCount then",
    "      biggestCount = v",
    "    end",
    "  end",
    "  local temp = \x7b\x7d",
    "  for k, v in pairs(counts) do",
    "    if v == biggestCount then",
    "      table.insert(temp, k)",
    "    end",
    "  end",
    "  return temp",
    "end"]
  imports := []

/-- `_STANDARD_DEVIATION`: the standard deviation of a list of numbers. -/
def deviationHelper : Helper where
  key := "math_standard_deviation"
  template := helperLines [
    "function \x7b\x7bFUNCTION_NAME\x7d\x7d(t)",
    "  if #t == 0 then",
    "    return 0",
    "  end",
    "  local mean = 0",
    "  for _, v in ipairs(t) do",
    "    mean = mean + v",
    "  end",
    "  mean = mean / #t",
    "  local variance = 0",
    "  for _, v in ipairs(t) do",
    "    variance = variance + (v - mean) ^ 2",
    "  end",
    "  return math.sqrt(variance / #t)",
    "end"]
  imports := []

/-- `_RANDOM_ITEM`: a random item of a list. -/
def randomItemHelper : Helper where
  key := "math_random_list"
  template := helperLines [
    "function \x7b\x7bFUNCTION_NAME\x7d\x7d(t)",
    "  if #t == 0 then",
    "    return nil",
    "  end",
    "  return t[math.random(#t)]",
    "end"]
  imports := []

/-! ## Tables -/

/-- `COMPARE_OPERATORS`: the comparisons. -/
def compare : CompareOp → Operator
  | .eq => ⟨"==", relational⟩
  | .neq => ⟨"~=", relational⟩
  | .lt => ⟨"<", relational⟩
  | .lte => ⟨"<=", relational⟩
  | .gt => ⟨">", relational⟩
  | .gte => ⟨">=", relational⟩

/-- `LOGIC_OPERATORS`: conjunction and disjunction. -/
def logic : LogicOp → Operator
  | .and => ⟨"and", logicalAnd⟩
  | .or => ⟨"or", logicalOr⟩

/-- `ARITHMETIC_OPERATORS`: the operators, and how they group. -/
def arithmetic : ArithmeticOp → BinaryOperator
  | .add => ⟨"+", additive, .left⟩
  | .minus => ⟨"-", additive, .left⟩
  | .multiply => ⟨"*", multiplicative, .left⟩
  | .divide => ⟨"/", multiplicative, .left⟩
  | .power => ⟨"^", exponentiation, .right⟩

/-- A function of the library of mathematics. -/
def mathFunction (name : String) : Template :=
  ⟨"math." ++ name ++ "(", .none, ")", high, []⟩

/-- A function of an angle, which is given in degrees. -/
def ofDegrees (name : String) : Template :=
  ⟨"math." ++ name ++ "(math.rad(", .none, "))", high, []⟩

/-- A function whose result is an angle, given in degrees. -/
def toDegrees (name : String) : Template :=
  ⟨"math.deg(math." ++ name ++ "(", .none, "))", high, []⟩

/-- `SINGLE_OPERATORS`: the functions of one number other than negation. -/
def single : SingleOp → Template
  | .root => mathFunction "sqrt"
  | .abs => mathFunction "abs"
  | .neg => ⟨"-", unary, "", unary, []⟩
  | .ln => mathFunction "log"
  | .log10 => ⟨"math.log(", .none, ", 10)", high, []⟩
  | .exp => mathFunction "exp"
  | .pow10 => ⟨"10 ^ ", exponentiation, "", exponentiation, []⟩
  | .round => ⟨"math.floor(", additive, " + .5)", high, []⟩
  | .roundUp => mathFunction "ceil"
  | .roundDown => mathFunction "floor"
  | .sin => ofDegrees "sin"
  | .cos => ofDegrees "cos"
  | .tan => ofDegrees "tan"
  | .asin => toDegrees "asin"
  | .acos => toDegrees "acos"
  | .atan => toDegrees "atan"

/-- `CONSTANTS`: the mathematical constants. -/
def constant : MathConstant → Constant
  | .pi => ⟨"math.pi", high, []⟩
  | .e => ⟨"math.exp(1)", high, []⟩
  | .goldenRatio => ⟨"(1 + math.sqrt(5)) / 2", multiplicative, []⟩
  | .sqrt2 => ⟨"math.sqrt(2)", high, []⟩
  | .sqrt1over2 => ⟨"math.sqrt(1 / 2)", high, []⟩
  | .infinity => ⟨"math.huge", high, []⟩

/-- `_LIST_HELPERS`: the functions of lists, and those that are there already. -/
def onList : ListOp → Callee
  | .sum => .helper sumHelper
  | .min => .helper minimumHelper
  | .max => .helper maximumHelper
  | .average => .helper averageHelper
  | .median => .helper medianHelper
  | .mode => .helper modesHelper
  | .stdDev => .helper deviationHelper
  | .random => .helper randomItemHelper

/-- `LuaGenerator`: the Lua dialect. -/
def dialect : Dialect where
  name := "lua"
  tiers := tiers
  emptyBody := none
  commentStart := "-- "
  statementEnd := "\n"
  policy := ⟨keywords ++ globals ++ libraries, "", []⟩
  trueLiteral := "true"
  falseLiteral := "false"
  nullLiteral := "nil"
  emptyList := "\x7b\x7d"
  quote := quote
  controlEscape := decimalEscape
  nakedValue code := "local _ = " ++ code ++ "\n"
  ifHeader condition := "if " ++ condition ++ " then\n"
  elseIfHeader condition := "elseif " ++ condition ++ " then\n"
  elseHeader := "else\n"
  whileHeader condition := "while " ++ condition ++ " do\n"
  repeatHeader name count := "for " ++ name ++ " = 1, " ++ count ++ " do\n"
  repeatCount := .truncated "" ""
  blockEnd := "end\n"
  continueStatement := "goto continue"
  continueLabel := some "::continue::"
  procedureHeader name args := "function " ++ name ++ "(" ++ args ++ ")\n"
  procedureEnd := "end\n"
  globalDeclaration := none
  initialValue := none
  importsFirst := false
  compare := compare
  logic := logic
  arithmetic := arithmetic
  logicNot := ⟨"not ", unary⟩
  negation := ⟨"-", unary⟩
  modulo := ⟨"%", multiplicative⟩
  call := high
  assignment := .none
  ternary := {
    condition := ⟨logicalAnd, false, "false"⟩
    consequent := ⟨logicalAnd, false, "nil"⟩
    alternative := ⟨logicalOr, false, "nil"⟩
    layout := fun condition consequent alternative =>
      condition ++ " and " ++ consequent ++ " or " ++ alternative
    result := logicalOr }
  infinity := ⟨"math.huge", .atomic⟩
  minusInfinity := ⟨"-math.huge", unary⟩
  notANumber := ⟨"(0 / 0)", .atomic⟩
  single := single
  constant := constant
  wholeTest := ⟨"", multiplicative, false, " % 1 == 0", relational⟩
  primeHelper := primeHelper
  changeImports := []
  changeOperand := ⟨additive, true, "0"⟩
  changeStatement name summand := name ++ " = " ++ name ++ " + " ++ summand ++ "\n"
  onList := onList
  helperBeforeList := true
  minimum := "math.min"
  maximum := "math.max"
  lowFallback := "-math.huge"
  highFallback := "math.huge"
  randomInteger := .function "math.random" []
  randomFraction := ⟨"math.random()", high, []⟩
  arcTangent := ⟨"math.deg(math.atan(", .none, "))", high, []⟩

end BlockScript.Lua
