import BlockScript.Recipe.Basic
import BlockScript.Scene

/-!
# Comparisons, logic and plain values

The recipes for comparisons, logical operators, choices between values, texts
and variables.
-/

namespace BlockScript.Recipe

variable (dialect : Dialect) (block : Block Ref)

/-- `_logic_compare`: a comparison. Comparisons do not group, so both sides are
    strict. -/
def compare : Recipe Product := do
  let op ← ofExcept (chosen CompareOp (block.field "OP"))
  let operator := dialect.compare op
  let a ← valueOr "A" operator.tier true "0"
  let b ← valueOr "B" operator.tier true "0"
  return .value (a ++ " " ++ operator.text ++ " " ++ b) operator.tier

/-- `_logic_operation`: a conjunction or disjunction. A missing side is the neutral
    value; without both sides, each is false. -/
def logic : Recipe Product := do
  let op ← ofExcept (chosen LogicOp (block.field "OP"))
  let operator := dialect.logic op
  let a ← value "A" operator.tier false
  let b ← value "B" operator.tier false
  let neutral :=
    match op with
    | .and => dialect.trueLiteral
    | .or => dialect.falseLiteral
  let missing := if a = "" && b = "" then dialect.falseLiteral else neutral
  let a := if a = "" then missing else a
  let b := if b = "" then missing else b
  return .value (a ++ " " ++ operator.text ++ " " ++ b) operator.tier

/-- `_logic_negate`: a negated condition. -/
def logicNot : Recipe Product := do
  let operator := dialect.logicNot
  let condition ← valueOr "BOOL" operator.tier false dialect.trueLiteral
  return .value (operator.text ++ condition) operator.tier

/-- `_logic_boolean`: a truth value. Only the text `TRUE` is true. -/
def truthValue : Recipe Product :=
  let code :=
    if block.textField? "BOOL" = some "TRUE" then dialect.trueLiteral else dialect.falseLiteral
  .done (.value code .atomic)

/-- `_logic_null`: the value for nothing. -/
def nullValue : Recipe Product :=
  .done (.value dialect.nullLiteral .atomic)

/-- The text of a value socket at an operand position. -/
def operand (socket : String) (position : Operand) : Recipe String :=
  valueOr socket position.tier position.strict position.fallback

/-- `_logic_ternary`: a choice between two values. -/
def ternary : Recipe Product := do
  let form := dialect.ternary
  let condition ← operand "IF" form.condition
  let consequent ← operand "THEN" form.consequent
  let alternative ← operand "ELSE" form.alternative
  return .value (form.layout condition consequent alternative) form.result

/-- `_text`: a text as a string literal. A field that counts as not given is the
    empty text. -/
def text : Recipe Product :=
  let content :=
    match block.field? "TEXT" with
    | some scalar => if scalar.isGiven then scalar.toText else ""
    | none => ""
  .done (.value (dialect.quote content) .atomic)

/-- `_variables_get`: a variable. -/
def variableValue : Recipe Product := do
  let name ← nameOf .variable (block.field Workspace.variableField)
  return .value name .atomic

/-- `_variables_set`: an assignment. -/
def variableAssignment : Recipe Product := do
  let value ← valueOr "VALUE" dialect.assignment false "0"
  let name ← nameOf .variable (block.field Workspace.variableField)
  return .text (dialect.statement (name ++ " = " ++ value))

end BlockScript.Recipe
