import BlockScript.Dialect

/-!
# PHP

PHP 8, without the opening tag: blocks in braces, variables with a dollar sign.
Function names ignore case, a choice between values must not stand in another
one, and procedures declare the outer variables that they use.
-/

namespace BlockScript.Php

/-! ## Tiers -/

def member : Tier := 2
def functionCall : Tier := 2
def power : Tier := 3
def unary : Tier := 4
def logicalNot : Tier := 6
def multiplicative : Tier := 7
def additive : Tier := 8
def relational : Tier := 11
def equality : Tier := 12
def logicalAnd : Tier := 16
def logicalOr : Tier := 17
def conditional : Tier := 19
def assignment : Tier := 20

/-- `PhpOrder`: the tiers of the grammar, from the tightest to the loosest. -/
def tiers : List (String × Tier) :=
  [("ATOMIC", .atomic), ("CLONE", 1), ("NEW", 1), ("MEMBER", member),
    ("FUNCTION_CALL", functionCall), ("POWER", power), ("INCREMENT", unary), ("DECREMENT", unary),
    ("BITWISE_NOT", unary), ("CAST", unary), ("SUPPRESS_ERROR", unary), ("UNARY_NEGATION", unary),
    ("UNARY_PLUS", unary), ("INSTANCEOF", 5), ("LOGICAL_NOT", logicalNot),
    ("MULTIPLICATION", multiplicative), ("DIVISION", multiplicative), ("MODULUS", multiplicative),
    ("ADDITION", additive), ("SUBTRACTION", additive), ("BITWISE_SHIFT", 9),
    ("STRING_CONCAT", 10), ("RELATIONAL", relational), ("EQUALITY", equality), ("REFERENCE", 13),
    ("BITWISE_AND", 13), ("BITWISE_XOR", 14), ("BITWISE_OR", 15), ("LOGICAL_AND", logicalAnd),
    ("LOGICAL_OR", logicalOr), ("IF_NULL", 18), ("CONDITIONAL", conditional),
    ("ASSIGNMENT", assignment), ("LOGICAL_AND_WEAK", 21), ("LOGICAL_XOR", 22),
    ("LOGICAL_OR_WEAK", 23), ("NONE", .none)]

/-! ## Words -/

/-- The keywords among `RESERVED_WORDS`. -/
def keywords : List String :=
  ["__halt_compiler", "abstract", "and", "array", "as", "break", "callable", "case", "catch",
    "class", "clone", "const", "continue", "declare", "default", "die", "do", "echo", "else",
    "elseif", "empty", "enddeclare", "endfor", "endforeach", "endif", "endswitch", "endwhile",
    "enum", "eval", "exit", "extends", "final", "finally", "fn", "for", "foreach", "function",
    "global", "goto", "if", "implements", "include", "include_once", "instanceof", "insteadof",
    "interface", "isset", "list", "match", "namespace", "new", "or", "print", "private",
    "protected", "public", "readonly", "require", "require_once", "return", "static", "switch",
    "throw", "trait", "try", "unset", "use", "var", "while", "xor", "yield"]

/-- Pseudo-variables, and the functions that templates call, as `RESERVED_WORDS` has
    them. -/
def usedNames : List String :=
  ["this", "GLOBALS", "abs", "sqrt", "log", "exp", "pow", "round", "ceil", "floor", "sin", "cos",
    "tan", "asin", "acos", "atan", "atan2", "pi", "min", "max", "count", "sort", "rand",
    "mt_rand", "mt_getrandmax", "is_int", "is_numeric", "array_sum", "array_count_values",
    "array_keys", "arsort", "current"]

/-- `PhpGenerator.quote`: a text without controls stands in single quotes; one with
    controls needs double quotes, in which the dollar sign is escaped too. -/
def quote (text : String) : String :=
  if text.toList.all fun c => 0x20 ≤ c.toNat then
    let escaped := text.toList.flatMap fun c =>
      if c = '\\' || c = '\'' then ['\\', c] else [c]
    String.ofList ('\'' :: (escaped ++ ['\'']))
  else
    let escaped := text.toList.flatMap fun c =>
      if c = '\\' || c = '"' || c = '$' then ['\\', c] else escapeControl hexEscape c
    String.ofList ('"' :: (escaped ++ ['"']))

/-! ## Helper functions -/

/-- `_IS_PRIME`: whether a number is prime. -/
def primeHelper : Helper where
  key := "math_isPrime"
  template := helperLines [
    "function \x7b\x7bFUNCTION_NAME\x7d\x7d($n) \x7b",
    "  // https://en.wikipedia.org/wiki/Primality_test#Naive_methods",
    "  if ($n == 2 || $n == 3) \x7b",
    "    return true;",
    "  \x7d",
    "  // False if n is NaN, negative, is 1, or not whole.",
    "  // And false if n is divisible by 2 or 3.",
    "  if (!is_numeric($n) || $n <= 1 || $n % 1 != 0 || $n % 2 == 0 || $n % 3 == 0) \x7b",
    "    return false;",
    "  \x7d",
    "  // Check all the numbers of form 6k +/- 1, up to sqrt(n).",
    "  for ($x = 6; $x <= sqrt($n) + 1; $x += 6) \x7b",
    "    if ($n % ($x - 1) == 0 || $n % ($x + 1) == 0) \x7b",
    "      return false;",
    "    \x7d",
    "  \x7d",
    "  return true;",
    "\x7d"]
  imports := []

/-- `_MEAN`: the mean of a list of numbers. -/
def meanHelper : Helper where
  key := "math_mean"
  template := helperLines [
    "function \x7b\x7bFUNCTION_NAME\x7d\x7d($myList) \x7b",
    "  return array_sum($myList) / count($myList);",
    "\x7d"]
  imports := []

/-- `_MEDIAN`: the median of a list of numbers. -/
def medianHelper : Helper where
  key := "math_median"
  template := helperLines [
    "function \x7b\x7bFUNCTION_NAME\x7d\x7d($arr) \x7b",
    "  sort($arr,SORT_NUMERIC);",
    "  return (count($arr) % 2) ? $arr[floor(count($arr) / 2)] :",
    "      ($arr[floor(count($arr) / 2)] + $arr[floor(count($arr) / 2) - 1]) / 2;",
    "\x7d"]
  imports := []

/-- `_MODES`: the most frequent items of a list. -/
def modesHelper : Helper where
  key := "math_modes"
  template := helperLines [
    "function \x7b\x7bFUNCTION_NAME\x7d\x7d($values) \x7b",
    "  if (empty($values)) return array();",
    "  $counts = array_count_values($values);",
    "  arsort($counts); // Sort counts in descending order",
    "  $modes = array_keys($counts, current($counts), true);",
    "  return $modes;",
    "\x7d"]
  imports := []

/-- `_STANDARD_DEVIATION`: the standard deviation of a list of numbers. -/
def deviationHelper : Helper where
  key := "math_standard_deviation"
  template := helperLines [
    "function \x7b\x7bFUNCTION_NAME\x7d\x7d($numbers) \x7b",
    "  $n = count($numbers);",
    "  if (!$n) return null;",
    "  $mean = array_sum($numbers) / count($numbers);",
    "  foreach($numbers as $key => $num) $devs[$key] = pow($num - $mean, 2);",
    "  return sqrt(array_sum($devs) / (count($devs) - 1));",
    "\x7d"]
  imports := []

/-- `_RANDOM_ITEM`: a random item of a list. -/
def randomItemHelper : Helper where
  key := "math_random_list"
  template := helperLines [
    "function \x7b\x7bFUNCTION_NAME\x7d\x7d($list) \x7b",
    "  $x = rand(0, count($list)-1);",
    "  return $list[$x];",
    "\x7d"]
  imports := []

/-- `_RANDOM_INT`: a random integer between two bounds in either order. -/
def randomIntegerHelper : Helper where
  key := "math_random_int"
  template := helperLines [
    "function \x7b\x7bFUNCTION_NAME\x7d\x7d($a, $b) \x7b",
    "  if ($a > $b) \x7b",
    "    return rand($b, $a);",
    "  \x7d",
    "  return rand($a, $b);",
    "\x7d"]
  imports := []

/-! ## Tables -/

/-- `COMPARE_OPERATORS`: the comparisons. -/
def compare : CompareOp → Operator
  | .eq => ⟨"==", equality⟩
  | .neq => ⟨"!=", equality⟩
  | .lt => ⟨"<", relational⟩
  | .lte => ⟨"<=", relational⟩
  | .gt => ⟨">", relational⟩
  | .gte => ⟨">=", relational⟩

/-- `LOGIC_OPERATORS`: conjunction and disjunction. -/
def logic : LogicOp → Operator
  | .and => ⟨"&&", logicalAnd⟩
  | .or => ⟨"||", logicalOr⟩

/-- `ARITHMETIC_OPERATORS`: the operators, and how they group. -/
def arithmetic : ArithmeticOp → BinaryOperator
  | .add => ⟨"+", additive, .left⟩
  | .minus => ⟨"-", additive, .left⟩
  | .multiply => ⟨"*", multiplicative, .left⟩
  | .divide => ⟨"/", multiplicative, .left⟩
  | .power => ⟨"**", power, .right⟩

/-- A built-in function. -/
def builtInFunction (name : String) : Template :=
  ⟨name ++ "(", .none, ")", functionCall, []⟩

/-- A function of an angle, which is given in degrees. -/
def ofDegrees (name : String) : Template :=
  ⟨name ++ "(", multiplicative, " / 180 * pi())", functionCall, []⟩

/-- A function whose result is an angle, given in degrees. -/
def toDegrees (name : String) : Template :=
  ⟨name ++ "(", .none, ") / pi() * 180", multiplicative, []⟩

/-- `SINGLE_OPERATORS`: the functions of one number other than negation. -/
def single : SingleOp → Template
  | .root => builtInFunction "sqrt"
  | .abs => builtInFunction "abs"
  | .neg => ⟨"-", unary, "", unary, []⟩
  | .ln => builtInFunction "log"
  | .log10 => ⟨"log(", .none, ") / log(10)", multiplicative, []⟩
  | .exp => builtInFunction "exp"
  | .pow10 => ⟨"pow(10, ", .none, ")", functionCall, []⟩
  | .round => builtInFunction "round"
  | .roundUp => builtInFunction "ceil"
  | .roundDown => builtInFunction "floor"
  | .sin => ofDegrees "sin"
  | .cos => ofDegrees "cos"
  | .tan => ofDegrees "tan"
  | .asin => toDegrees "asin"
  | .acos => toDegrees "acos"
  | .atan => toDegrees "atan"

/-- `CONSTANTS`: the mathematical constants. -/
def constant : MathConstant → Constant
  | .pi => ⟨"M_PI", .atomic, []⟩
  | .e => ⟨"M_E", .atomic, []⟩
  | .goldenRatio => ⟨"(1 + sqrt(5)) / 2", multiplicative, []⟩
  | .sqrt2 => ⟨"M_SQRT2", .atomic, []⟩
  | .sqrt1over2 => ⟨"M_SQRT1_2", .atomic, []⟩
  | .infinity => ⟨"INF", .atomic, []⟩

/-- `_LIST_HELPERS`: the functions of lists, and those that are there already. -/
def onList : ListOp → Callee
  | .sum => .function "array_sum" []
  | .min => .function "min" []
  | .max => .function "max" []
  | .average => .helper meanHelper
  | .median => .helper medianHelper
  | .mode => .helper modesHelper
  | .stdDev => .helper deviationHelper
  | .random => .helper randomItemHelper

/-- `PhpGenerator`: the PHP dialect. -/
def dialect : Dialect where
  name := "php"
  tiers := tiers
  emptyBody := none
  commentStart := "// "
  statementEnd := ";\n"
  policy := ⟨keywords ++ usedNames, "$", [.procedure]⟩
  trueLiteral := "true"
  falseLiteral := "false"
  nullLiteral := "null"
  emptyList := "array()"
  quote := quote
  controlEscape := hexEscape
  nakedValue code := code ++ ";\n"
  ifHeader condition := "if (" ++ condition ++ ") \x7b\n"
  elseIfHeader condition := "\x7d else if (" ++ condition ++ ") \x7b\n"
  elseHeader := "\x7d else \x7b\n"
  whileHeader condition := "while (" ++ condition ++ ") \x7b\n"
  repeatHeader name count :=
    "for (" ++ name ++ " = 0; " ++ name ++ " < " ++ count ++ "; " ++ name ++ "++) \x7b\n"
  repeatCount := .stored
  blockEnd := "\x7d\n"
  continueStatement := "continue"
  continueLabel := none
  procedureHeader name args := "function " ++ name ++ "(" ++ args ++ ") \x7b\n"
  procedureEnd := "\x7d\n"
  globalDeclaration := some fun names => "global " ++ names ++ ";\n"
  initialValue := none
  importsFirst := false
  compare := compare
  logic := logic
  arithmetic := arithmetic
  logicNot := ⟨"!", logicalNot⟩
  negation := ⟨"-", unary⟩
  modulo := ⟨"%", multiplicative⟩
  call := functionCall
  assignment := assignment
  ternary := {
    condition := ⟨conditional, true, "false"⟩
    consequent := ⟨conditional, true, "null"⟩
    alternative := ⟨conditional, true, "null"⟩
    layout := fun condition consequent alternative =>
      condition ++ " ? " ++ consequent ++ " : " ++ alternative
    result := conditional }
  infinity := ⟨"INF", .atomic⟩
  minusInfinity := ⟨"-INF", unary⟩
  notANumber := ⟨"NAN", .atomic⟩
  single := single
  constant := constant
  wholeTest := ⟨"is_int(", .none, false, ")", functionCall⟩
  primeHelper := primeHelper
  changeImports := []
  changeOperand := ⟨additive, false, "0"⟩
  changeStatement name summand := name ++ " += " ++ summand ++ ";\n"
  onList := onList
  helperBeforeList := false
  minimum := "min"
  maximum := "max"
  lowFallback := "0"
  highFallback := "INF"
  randomInteger := .helper randomIntegerHelper
  randomFraction := ⟨"(float)rand() / (float)getrandmax()", multiplicative, []⟩
  arcTangent := ⟨"atan2(", .none, ") / pi() * 180", multiplicative, []⟩

end BlockScript.Php
