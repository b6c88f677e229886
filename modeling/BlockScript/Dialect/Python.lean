import BlockScript.Dialect

/-!
# Python

Python 3: blocks by indentation, so an empty body needs a statement. Modules
are imported as templates call for them, every variable is initialised at the
start, and procedures declare the outer variables that they use.
-/

namespace BlockScript.Python

/-! ## Tiers -/

def collection : Tier := 1
def member : Tier := 2
def functionCall : Tier := 2
def exponentiation : Tier := 3
def unarySign : Tier := 4
def multiplicative : Tier := 5
def additive : Tier := 6
def relational : Tier := 11
def logicalNot : Tier := 12
def logicalAnd : Tier := 13
def logicalOr : Tier := 14
def conditional : Tier := 15

/-- `PythonOrder`: the tiers of the grammar, from the tightest to the loosest. -/
def tiers : List (String × Tier) :=
  [("ATOMIC", .atomic), ("COLLECTION", collection), ("STRING_CONVERSION", collection),
    ("MEMBER", member), ("FUNCTION_CALL", functionCall), ("EXPONENTIATION", exponentiation),
    ("UNARY_SIGN", unarySign), ("BITWISE_NOT", unarySign), ("MULTIPLICATIVE", multiplicative),
    ("ADDITIVE", additive), ("BITWISE_SHIFT", 7), ("BITWISE_AND", 8), ("BITWISE_XOR", 9),
    ("BITWISE_OR", 10), ("RELATIONAL", relational), ("LOGICAL_NOT", logicalNot),
    ("LOGICAL_AND", logicalAnd), ("LOGICAL_OR", logicalOr), ("CONDITIONAL", conditional),
    ("LAMBDA", 16), ("NONE", .none)]

/-! ## Words -/

/-- `RESERVED_WORDS`: the keywords, the built-in names, and the names that templates
    import. -/
def reservedWords : List String :=
  ["ArithmeticError", "AssertionError", "AttributeError", "BaseException", "BaseExceptionGroup",
    "BlockingIOError", "BrokenPipeError", "BufferError", "BytesWarning", "ChildProcessError",
    "ConnectionAbortedError", "ConnectionError", "ConnectionRefusedError", "ConnectionResetError",
    "DeprecationWarning", "EOFError", "Ellipsis", "EncodingWarning", "EnvironmentError",
    "Exception", "ExceptionGroup", "False", "FileExistsError", "FileNotFoundError",
    "FloatingPointError", "FutureWarning", "GeneratorExit", "IOError", "ImportError",
    "ImportWarning", "IndentationError", "IndexError", "InterruptedError", "IsADirectoryError",
    "KeyError", "KeyboardInterrupt", "LookupError", "MemoryError", "ModuleNotFoundError",
    "NameError", "None", "NotADirectoryError", "NotImplemented", "NotImplementedError", "Number",
    "OSError", "OverflowError", "PendingDeprecationWarning", "PermissionError",
    "ProcessLookupError", "RecursionError", "ReferenceError", "ResourceWarning", "RuntimeError",
    "RuntimeWarning", "StopAsyncIteration", "StopIteration", "SyntaxError", "SyntaxWarning",
    "SystemError", "SystemExit", "TabError", "TimeoutError", "True", "TypeError",
    "UnboundLocalError", "UnicodeDecodeError", "UnicodeEncodeError", "UnicodeError",
    "UnicodeTranslateError", "UnicodeWarning", "UserWarning", "ValueError", "Warning",
    "ZeroDivisionError", "__build_class__", "__debug__", "__doc__", "__import__", "__loader__",
    "__name__", "__package__", "__spec__", "abs", "aiter", "all", "and", "anext", "any", "as",
    "ascii", "assert", "async", "await", "bin", "bool", "break", "breakpoint", "bytearray",
    "bytes", "callable", "chr", "class", "classmethod", "compile", "complex", "continue",
    "copyright", "credits", "def", "del", "delattr", "dict", "dir", "divmod", "elif", "else",
    "enumerate", "eval", "except", "exec", "exit", "filter", "finally", "float", "for", "format",
    "from", "frozenset", "getattr", "global", "globals", "hasattr", "hash", "help", "hex", "id",
    "if", "import", "in", "input", "int", "is", "isinstance", "issubclass", "iter", "lambda",
    "len", "license", "list", "locals", "map", "math", "max", "memoryview", "min", "next",
    "nonlocal", "not", "numbers", "object", "oct", "open", "or", "ord", "pass", "pow", "print",
    "property", "quit", "raise", "random", "range", "repr", "return", "reversed", "round", "set",
    "setattr", "slice", "sorted", "staticmethod", "str", "sum", "super", "try", "tuple", "type",
    "vars", "while", "with", "yield", "zip"]

/-- `PythonGenerator.quote`: controls are escaped; single quotes unless the text has
    some and no double ones. -/
def quote (text : String) : String :=
  let escaped := text.toList.flatMap fun c =>
    if c = '\\' then ['\\', '\\'] else escapeControl hexEscape c
  if !escaped.contains '\'' then String.ofList ('\'' :: (escaped ++ ['\'']))
  else if !escaped.contains '"' then String.ofList ('"' :: (escaped ++ ['"']))
  else
    let escaped := escaped.flatMap fun c => if c = '\'' then ['\\', '\''] else [c]
    String.ofList ('\'' :: (escaped ++ ['\'']))

/-! ## Helper functions -/

/-- `_IS_PRIME`: whether a number is prime. -/
def primeHelper : Helper where
  key := "math_isPrime"
  template := helperLines [
    "def \x7b\x7bFUNCTION_NAME\x7d\x7d(n):",
    "  # https://en.wikipedia.org/wiki/Primality_test#Naive_methods",
    "  # If n is not a number but a string, try parsing it.",
    "  if not isinstance(n, numbers.Number):",
    "    try:",
    "      n = float(n)",
    "    except (TypeError, ValueError):",
    "      return False",
    "  if n == 2 or n == 3:",
    "    return True",
    "  # False if n is negative, is 1, or not whole, or if n is divisible by 2 or 3.",
    "  if n <= 1 or n % 1 != 0 or n % 2 == 0 or n % 3 == 0:",
    "    return False",
    "  # Check all the numbers of form 6k +/- 1, up to sqrt(n).",
    "  for x in range(6, int(math.sqrt(n)) + 2, 6):",
    "    if n % (x - 1) == 0 or n % (x + 1) == 0:",
    "      return False",
    "  return True"]
  imports := ["import math", "import numbers"]

/-- `_MEAN`: the mean of the numbers in a list. -/
def meanHelper : Helper where
  key := "math_mean"
  template := helperLines [
    "def \x7b\x7bFUNCTION_NAME\x7d\x7d(myList):",
    "  localList = [e for e in myList if isinstance(e, numbers.Number)]",
    "  if not localList: return",
    "  return float(sum(localList)) / len(localList)"]
  imports := ["import numbers"]

/-- `_MEDIAN`: the median of the numbers in a list. -/
def medianHelper : Helper where
  key := "math_median"
  template := helperLines [
    "def \x7b\x7bFUNCTION_NAME\x7d\x7d(myList):",
    "  localList = sorted([e for e in myList if isinstance(e, numbers.Number)])",
    "  if not localList: return",
    "  if len(localList) % 2 == 0:",
    "    return (localList[len(localList) // 2 - 1] + localList[len(localList) // 2]) / 2.0",
    "  else:",
    "    return localList[(len(localList) - 1) // 2]"]
  imports := ["import numbers"]

/-- `_MODES`: the most frequent items of a list. -/
def modesHelper : Helper where
  key := "math_modes"
  template := helperLines [
    "def \x7b\x7bFUNCTION_NAME\x7d\x7d(some_list):",
    "  modes = []",
    "  # Counts are kept as [item, count] pairs so unhashable items can be counted.",
    "  counts = []",
    "  maxCount = 1",
    "  for item in some_list:",
    "    found = False",
    "    for count in counts:",
    "      if count[0] == item:",
    "        count[1] += 1",
    "        maxCount = max(maxCount, count[1])",
    "        found = True",
    "    if not found:",
    "      counts.append([item, 1])",
    "  for counted_item, item_count in counts:",
    "    if item_count == maxCount:",
    "      modes.append(counted_item)",
    "  return modes"]
  imports := []

/-- `_STANDARD_DEVIATION`: the standard deviation of a list of numbers. -/
def deviationHelper : Helper where
  key := "math_standard_deviation"
  template := helperLines [
    "def \x7b\x7bFUNCTION_NAME\x7d\x7d(values):",
    "  n = len(values)",
    "  if n == 0: return",
    "  mean = float(sum(values)) / n",
    "  variance = sum((x - mean) ** 2 for x in values) / n",
    "  return math.sqrt(variance)"]
  imports := ["import math"]

/-! ## Tables -/

/-- `COMPARE_OPERATORS`: the comparisons. -/
def compare : CompareOp → Operator
  | .eq => ⟨"==", relational⟩
  | .neq => ⟨"!=", relational⟩
  | .lt => ⟨"<", relational⟩
  | .lte => ⟨"<=", relational⟩
  | .gt => ⟨">", relational⟩
  | .gte => ⟨">=", relational⟩

/-- `LOGIC_OPERATORS`: conjunction and disjunction. -/
def logic : LogicOp → Operator
  | .and => ⟨"and", logicalAnd⟩
  | .or => ⟨"or", logicalOr⟩

/-- `ARITHMETIC_OPERATORS`: the operators, and how they group. -/
def arithmetic : ArithmeticOp → BinaryOperator
  | .add => ⟨"+", additive, .left⟩
  | .minus => ⟨"-", additive, .left⟩
  | .multiply => ⟨"*", multiplicative, .left⟩
  | .divide => ⟨"/", multiplicative, .left⟩
  | .power => ⟨"**", exponentiation, .right⟩

/-- A function of the module of mathematics. -/
def mathFunction (name : String) : Template :=
  ⟨"math." ++ name ++ "(", .none, ")", functionCall, ["import math"]⟩

/-- A function of an angle, which is given in degrees. -/
def ofDegrees (name : String) : Template :=
  ⟨"math." ++ name ++ "(", multiplicative, " / 180.0 * math.pi)", functionCall, ["import math"]⟩

/-- A function whose result is an angle, given in degrees. -/
def toDegrees (name : String) : Template :=
  ⟨"math." ++ name ++ "(", .none, ") / math.pi * 180", multiplicative, ["import math"]⟩

/-- `SINGLE_OPERATORS`: the functions of one number other than negation. -/
def single : SingleOp → Template
  | .root => mathFunction "sqrt"
  | .abs => mathFunction "fabs"
  | .neg => ⟨"-", unarySign, "", unarySign, []⟩
  | .ln => mathFunction "log"
  | .log10 => mathFunction "log10"
  | .exp => mathFunction "exp"
  | .pow10 => ⟨"math.pow(10, ", .none, ")", functionCall, ["import math"]⟩
  | .round => ⟨"round(", .none, ")", functionCall, []⟩
  | .roundUp => mathFunction "ceil"
  | .roundDown => mathFunction "floor"
  | .sin => ofDegrees "sin"
  | .cos => ofDegrees "cos"
  | .tan => ofDegrees "tan"
  | .asin => toDegrees "asin"
  | .acos => toDegrees "acos"
  | .atan => toDegrees "atan"

/-- `CONSTANTS`: the mathematical constants. -/
def constant : MathConstant → Constant
  | .pi => ⟨"math.pi", member, ["import math"]⟩
  | .e => ⟨"math.e", member, ["import math"]⟩
  | .goldenRatio => ⟨"(1 + math.sqrt(5)) / 2", multiplicative, ["import math"]⟩
  | .sqrt2 => ⟨"math.sqrt(2)", member, ["import math"]⟩
  | .sqrt1over2 => ⟨"math.sqrt(1.0 / 2)", member, ["import math"]⟩
  | .infinity => ⟨"float('inf')", functionCall, []⟩

/-- What `_math_on_list` calls: a function that is there, or a helper. -/
def onList : ListOp → Callee
  | .sum => .function "sum" []
  | .min => .function "min" []
  | .max => .function "max" []
  | .average => .helper meanHelper
  | .median => .helper medianHelper
  | .mode => .helper modesHelper
  | .stdDev => .helper deviationHelper
  | .random => .function "random.choice" ["import random"]

/-- `PythonGenerator`: the Python dialect. -/
def dialect : Dialect where
  name := "python"
  tiers := tiers
  emptyBody := some "pass"
  commentStart := "# "
  statementEnd := "\n"
  policy := ⟨reservedWords, "", []⟩
  trueLiteral := "True"
  falseLiteral := "False"
  nullLiteral := "None"
  emptyList := "[]"
  quote := quote
  controlEscape := hexEscape
  nakedValue code := code ++ "\n"
  ifHeader condition := "if " ++ condition ++ ":\n"
  elseIfHeader condition := "elif " ++ condition ++ ":\n"
  elseHeader := "else:\n"
  whileHeader condition := "while " ++ condition ++ ":\n"
  repeatHeader name count := "for " ++ name ++ " in range(" ++ count ++ "):\n"
  repeatCount := .truncated "int(" ")"
  blockEnd := ""
  continueStatement := "continue"
  continueLabel := none
  procedureHeader name args := "def " ++ name ++ "(" ++ args ++ "):\n"
  procedureEnd := ""
  globalDeclaration := some fun names => "global " ++ names ++ "\n"
  initialValue := some "None"
  importsFirst := true
  compare := compare
  logic := logic
  arithmetic := arithmetic
  logicNot := ⟨"not ", logicalNot⟩
  negation := ⟨"-", unarySign⟩
  modulo := ⟨"%", multiplicative⟩
  call := functionCall
  assignment := .none
  ternary := {
    condition := ⟨conditional, true, "False"⟩
    consequent := ⟨conditional, true, "None"⟩
    alternative := ⟨conditional, false, "None"⟩
    layout := fun condition consequent alternative =>
      consequent ++ " if " ++ condition ++ " else " ++ alternative
    result := conditional }
  infinity := ⟨"float('inf')", functionCall⟩
  minusInfinity := ⟨"-float('inf')", unarySign⟩
  notANumber := ⟨"float('nan')", functionCall⟩
  single := single
  constant := constant
  wholeTest := ⟨"", multiplicative, false, " % 1 == 0", relational⟩
  primeHelper := primeHelper
  changeImports := ["from numbers import Number"]
  changeOperand := ⟨additive, true, "0"⟩
  changeStatement name summand :=
    name ++ " = (" ++ name ++ " if isinstance(" ++ name ++ ", Number) else 0) + " ++ summand ++ "\n"
  onList := onList
  helperBeforeList := false
  minimum := "min"
  maximum := "max"
  lowFallback := "0"
  highFallback := "float('inf')"
  randomInteger := .function "random.randint" ["import random"]
  randomFraction := ⟨"random.random()", functionCall, ["import random"]⟩
  arcTangent := ⟨"math.atan2(", .none, ") / math.pi * 180", multiplicative, ["import math"]⟩

end BlockScript.Python
