import BlockScript.Choice
import BlockScript.Names
import BlockScript.Text.Digit
import BlockScript.Text.Lines
import BlockScript.Text.Search
import BlockScript.Tier

/-!
# Dialects

What the target languages do not have in common, as data: spelling, operator
tables with tiers, the words to avoid, and the texts of helper functions. The
rules for blocks are written once over a dialect.
-/

namespace BlockScript

open BlockScript.Text

/-! ## Pieces of syntax -/

/-- Expression text with its tier: a whole expression, or an operator as in
    `COMPARE_OPERATORS`, `LOGIC_OPERATORS` and `NOT_OPERATOR`. -/
structure Operator where
  text : String
  tier : Tier

/-- An entry of `ARITHMETIC_OPERATORS`: an infix operator. -/
structure BinaryOperator where
  text : String
  tier : Tier
  associativity : Associativity

/-- An operand position: the tier it asks for, whether it is strict, and what
    stands there if nothing is plugged in. -/
structure Operand where
  tier : Tier
  strict : Bool
  fallback : String

/-- An entry of `SINGLE_OPERATORS`: an expression around one operand, and the imports it
    needs. -/
structure Template where
  before : String
  operand : Tier
  after : String
  result : Tier
  imports : List String

/-- An entry of `CONSTANTS`: a constant expression, and the imports it needs. -/
structure Constant where
  text : String
  tier : Tier
  imports : List String

/-- A property test around one operand, as `PROPERTIES` has them. -/
structure PropertyTest where
  before : String
  operand : Tier
  strict : Bool
  after : String
  result : Tier

/-- A helper function, as `provide_function` takes it: its key, its text with a
    placeholder for its name, and the imports it needs. -/
structure Helper where
  key : String
  template : String
  imports : List String

/-- A function to call: one that the language has, with the imports it needs, or
    a helper. -/
inductive Callee where
  | function (name : String) (imports : List String)
  | helper (helper : Helper)

/-- A choice between two values, as `_logic_ternary` makes it. -/
structure Ternary where
  condition : Operand
  consequent : Operand
  alternative : Operand
  layout : String → String → String → String
  result : Tier

/-- How `_controls_repeat_ext` settles the count before the loop starts: a literal is
    truncated and any other count is wrapped, or a count that is neither a number nor a
    single word is stored in a variable. -/
inductive CountForm where
  | truncated (before after : String)
  | stored

/-! ## A dialect -/

/-- What a target language has of its own: the class attributes of `BaseGenerator`, and
    what differs between the methods of its subclasses. -/
structure Dialect where
  /-- `LANGUAGE`: the name of the language. -/
  name : String
  /-- `ORDER`: the named tiers. -/
  tiers : List (String × Tier)
  /-- `PASS`: the statement for an empty body, if bodies must not be empty. -/
  emptyBody : Option String
  /-- `COMMENT_PREFIX`: what starts a comment line. -/
  commentStart : String
  /-- `STATEMENT_END`: what ends a statement. -/
  statementEnd : String
  /-- What `create_name_database` is given: how identifiers are treated. -/
  policy : NamePolicy
  trueLiteral : String
  falseLiteral : String
  nullLiteral : String
  emptyList : String
  /-- A text as a string literal. -/
  quote : String → String
  /-- `CONTROL_ESCAPE`: the escape of a control character. -/
  controlEscape : Char → List Char
  /-- `scrub_naked_value`: an expression as a statement of its own. -/
  nakedValue : String → String
  ifHeader : String → String
  elseIfHeader : String → String
  elseHeader : String
  whileHeader : String → String
  /-- The header of a repeat loop, from its variable and its count. -/
  repeatHeader : String → String → String
  repeatCount : CountForm
  /-- `BLOCK_END`: what closes a conditional or a loop. -/
  blockEnd : String
  continueStatement : String
  /-- `CONTINUE_LABEL`: the label at the end of a loop body that a continue jumps to,
      in a language without a statement for it. -/
  continueLabel : Option String
  /-- `PROCEDURE_HEADER`: the header of a procedure, from its name and its parameters. -/
  procedureHeader : String → String → String
  procedureEnd : String
  /-- `GLOBAL_DECLARATION`: the declaration of the outer variables that a procedure
      uses, in a language that needs one. -/
  globalDeclaration : Option (String → String)
  /-- What variables are set to at the start of a program, in a language that
      needs it. -/
  initialValue : Option String
  /-- Whether imports are gathered ahead of all other definitions. -/
  importsFirst : Bool
  compare : CompareOp → Operator
  logic : LogicOp → Operator
  arithmetic : ArithmeticOp → BinaryOperator
  logicNot : Operator
  negation : Operator
  modulo : Operator
  /-- `CALL_ORDER`: the tier of a call. -/
  call : Tier
  /-- `ASSIGNMENT_ORDER`: the tier that the right side of an assignment asks for. -/
  assignment : Tier
  ternary : Ternary
  infinity : Operator
  minusInfinity : Operator
  notANumber : Operator
  /-- `SINGLE_OPERATORS`: the functions of one number other than negation. -/
  single : SingleOp → Template
  constant : MathConstant → Constant
  wholeTest : PropertyTest
  primeHelper : Helper
  changeImports : List String
  changeOperand : Operand
  /-- The statement that adds to a variable, from its name and the summand. -/
  changeStatement : String → String → String
  onList : ListOp → Callee
  /-- Whether the helper of a list function is named before its operand is. -/
  helperBeforeList : Bool
  minimum : String
  maximum : String
  lowFallback : String
  highFallback : String
  randomInteger : Callee
  randomFraction : Constant
  arcTangent : Template

namespace Dialect

/-- `BaseGenerator.statement`: a statement from its code. -/
def statement (dialect : Dialect) (code : String) : String :=
  code ++ dialect.statementEnd

end Dialect

/-! ## String literals -/

/-- The escape of a character in `escape_controls`: line feed, carriage return and tab
    have letters, other controls a number. -/
def escapeControl (escape : Char → List Char) (c : Char) : List Char :=
  if c = '\n' then ['\\', 'n']
  else if c = '\r' then ['\\', 'r']
  else if c = '\t' then ['\\', 't']
  else if c.toNat < 0x20 then escape c
  else [c]

/-- `escape_controls`: a text whose control characters are escaped. -/
def escapeControls (escape : Char → List Char) (text : String) : String :=
  String.ofList (text.toList.flatMap (escapeControl escape))

/-- `CONTROL_ESCAPE` in two hexadecimal digits. -/
def hexEscape (c : Char) : List Char :=
  '\\' :: 'x' :: paddedDigits 16 2 c.toNat

/-- `CONTROL_ESCAPE` in three decimal digits. -/
def decimalEscape (c : Char) : List Char :=
  '\\' :: paddedDigits 10 3 c.toNat

/-- The lines of a helper's text. -/
def helperLines (lines : List String) : String :=
  joinWith "\n" lines

end BlockScript
