import BlockScript.Number.Literal
import BlockScript.Recipe.Logic

/-!
# Arithmetic

The recipes for numbers, operators, functions of numbers and lists, and tests of
numbers.
-/

namespace BlockScript.Recipe

open BlockScript.Number

variable (dialect : Dialect) (block : Block Ref)

/-- Whether code starts with a minus sign. -/
def startsNegative (code : String) : Bool :=
  code.toList.head? = some '-'

/-- `_negate`: a negated operand. A blank keeps two signs apart, which would be
    another token or a comment in some languages. -/
def negated (code : String) : Operator :=
  let operator := dialect.negation
  let code := if startsNegative code then " " ++ code else code
  ⟨operator.text ++ code, operator.tier⟩

/-- `_math_number`: a number. A negative one binds like a negation. -/
def number : Recipe Product := do
  let d ← ofExcept (doubleOf (block.field "NUM"))
  match literalOf? d with
  | some code =>
    return .value code (if startsNegative code then dialect.negation.tier else .atomic)
  | none =>
    let form :=
      if d = .nan then dialect.notANumber
      else if d.isPositive then dialect.infinity
      else dialect.minusInfinity
    return .value form.text form.tier

/-- `_math_arithmetic`: an arithmetic operator. -/
def arithmetic : Recipe Product := do
  let op ← ofExcept (chosen ArithmeticOp (block.field "OP"))
  let operator := dialect.arithmetic op
  let a ← valueOr "A" operator.tier operator.associativity.strictLeft "0"
  let b ← valueOr "B" operator.tier operator.associativity.strictRight "0"
  return .value (a ++ " " ++ operator.text ++ " " ++ b) operator.tier

/-- `_math_modulo`: a remainder. -/
def modulo : Recipe Product := do
  let operator := dialect.modulo
  let a ← valueOr "DIVIDEND" operator.tier false "0"
  let b ← valueOr "DIVISOR" operator.tier true "0"
  return .value (a ++ " " ++ operator.text ++ " " ++ b) operator.tier

/-- `_math_single`: a function of one number. -/
def single : Recipe Product := do
  let op ← ofExcept (chosen SingleOp (block.field "OP"))
  if op = .neg then
    let code ← valueOr "NUM" dialect.negation.tier false "0"
    let result := negated dialect code
    return .value result.text result.tier
  else
    let template := dialect.single op
    let code ← valueOr "NUM" template.operand false "0"
    importAll template.imports
    return .value (template.before ++ code ++ template.after) template.result

/-- `_math_constant`: a mathematical constant. -/
def constant : Recipe Product := do
  let name ← ofExcept (chosen MathConstant (block.field "CONSTANT"))
  let form := dialect.constant name
  importAll form.imports
  return .value form.text form.tier

/-- The entry of `PROPERTIES` for a property that needs one operand and no helper. -/
def plainTest (property : NumberProperty) : PropertyTest :=
  let positive := (dialect.compare .gt).tier
  let negative := (dialect.compare .lt).tier
  let equal := (dialect.compare .eq).tier
  match property with
  | .odd => ⟨"", dialect.modulo.tier, false, " % 2 == 1", equal⟩
  | .whole => dialect.wholeTest
  | .positive => ⟨"", positive, true, " > 0", positive⟩
  | .negative => ⟨"", negative, true, " < 0", negative⟩
  | .even | .prime | .divisibleBy => ⟨"", dialect.modulo.tier, false, " % 2 == 0", equal⟩

/-- `_math_number_property`: a test of a number. No number is divisible by a literal
    zero. -/
def property : Recipe Product := do
  let property ← ofExcept (chosen NumberProperty (block.field "PROPERTY"))
  match property with
  | .prime =>
    let number ← valueOr "NUMBER_TO_CHECK" .none false "0"
    importAll dialect.primeHelper.imports
    let name ← helper dialect.primeHelper.key dialect.primeHelper.template
    return .value (name ++ "(" ++ number ++ ")") dialect.call
  | .divisibleBy =>
    let number ← valueOr "NUMBER_TO_CHECK" dialect.modulo.tier false "0"
    let divisor ← valueOr "DIVISOR" dialect.modulo.tier true "0"
    if divisor = "0" then return .value dialect.falseLiteral .atomic
    else return .value (number ++ " % " ++ divisor ++ " == 0") (dialect.compare .eq).tier
  | other =>
    let test := plainTest dialect other
    let number ← valueOr "NUMBER_TO_CHECK" test.operand test.strict "0"
    return .value (test.before ++ number ++ test.after) test.result

/-- `_math_change`: adds to a variable. -/
def change : Recipe Product := do
  importAll dialect.changeImports
  let summand ← operand "DELTA" dialect.changeOperand
  let name ← nameOf .variable (block.field Workspace.variableField)
  return .text (dialect.changeStatement name summand)

/-- The name by which `_math_on_list` and `_math_random_int` call a function, once its
    imports are there. -/
def calleeName : Callee → Recipe String
  | .function name imports => do
    importAll imports
    return name
  | .helper form => do
    importAll form.imports
    helper form.key form.template

/-- `_math_on_list`: a function of a list. -/
def onList : Recipe Product := do
  let op ← ofExcept (chosen ListOp (block.field "OP"))
  let callee := dialect.onList op
  if dialect.helperBeforeList then
    let name ← calleeName callee
    let items ← valueOr "LIST" .none false dialect.emptyList
    return .value (name ++ "(" ++ items ++ ")") dialect.call
  else
    let items ← valueOr "LIST" .none false dialect.emptyList
    let name ← calleeName callee
    return .value (name ++ "(" ++ items ++ ")") dialect.call

/-- `_math_constrain`: a number kept between two bounds. -/
def constrain : Recipe Product := do
  let number ← valueOr "VALUE" .none false "0"
  let low ← valueOr "LOW" .none false dialect.lowFallback
  let high ← valueOr "HIGH" .none false dialect.highFallback
  let atLeast := dialect.maximum ++ "(" ++ number ++ ", " ++ low ++ ")"
  return .value (dialect.minimum ++ "(" ++ atLeast ++ ", " ++ high ++ ")") dialect.call

/-- `_math_random_int`: a random integer between two bounds. Imports come ahead of
    the bounds, a helper after them. -/
def randomInteger : Recipe Product := do
  match dialect.randomInteger with
  | .function _ imports => importAll imports
  | .helper _ => pure ()
  let low ← valueOr "FROM" .none false "0"
  let high ← valueOr "TO" .none false "0"
  let name ←
    match dialect.randomInteger with
    | .function name _ => pure name
    | .helper form => calleeName (.helper form)
  return .value (name ++ "(" ++ low ++ ", " ++ high ++ ")") dialect.call

/-- `_math_random_float`: a random fraction. -/
def randomFraction : Recipe Product := do
  let form := dialect.randomFraction
  importAll form.imports
  return .value form.text form.tier

/-- `_math_atan2`: the angle of a point, in degrees. -/
def arcTangent : Recipe Product := do
  let template := dialect.arcTangent
  importAll template.imports
  let x ← valueOr "X" template.operand false "0"
  let y ← valueOr "Y" template.operand false "0"
  return .value (template.before ++ y ++ ", " ++ x ++ template.after) template.result

end BlockScript.Recipe
