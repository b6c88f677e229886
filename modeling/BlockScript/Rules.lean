import BlockScript.Failure
import BlockScript.Tier

/-!
# Rules

A target language has a table of rules, one for every block type that it can
render. A rule is registered once for a type and never replaced; an alias lets
another type share the rule.
-/

namespace BlockScript

/-- What a `RuleHandler` makes of a block: nothing, text of a statement, or a value with
    its tier. -/
inductive Product where
  | nothing
  | text (code : String)
  | value (code : String) (tier : Tier)
  deriving DecidableEq, Repr

/-- The forms of blocks that the library knows to render. -/
inductive BlockForm where
  | conditional
  | whileLoop
  | repeatLoop
  | flow
  | compare
  | logic
  | logicNot
  | truthValue
  | nullValue
  | ternary
  | number
  | arithmetic
  | modulo
  | single
  | constant
  | property
  | change
  | onList
  | constrain
  | randomInteger
  | randomFraction
  | arcTangent
  | text
  | variableValue
  | variableAssignment
  | procedureDefinition
  | procedureCall
  | procedureCallStatement
  | conditionalReturn
  deriving DecidableEq, Repr

/-- `RuleHandler`: how a rule renders, in one of the known forms or always the same. -/
inductive Handler where
  | form (form : BlockForm)
  | always (product : Product)
  deriving DecidableEq, Repr

/-- `RuleKind`: whether a rule renders expressions or statements. -/
inductive RuleKind where
  | value
  | statement
  deriving DecidableEq, Repr

namespace RuleKind

/-- The name of a kind. -/
def name : RuleKind → String
  | .value => "value"
  | .statement => "statement"

/-- The kind with a name. -/
def ofName? (name : String) : Option RuleKind :=
  [value, statement].find? fun kind => kind.name = name

end RuleKind

/-- `Rule`: a rule. The one that places the hooks around a statement itself
    suppresses those of the engine. `origin` is the type that the rule was registered
    for; it tells rules apart. -/
structure Rule where
  kind : RuleKind
  handler : Handler
  suppressHooks : Bool
  origin : String
  deriving DecidableEq, Repr

/-- `Rule.is_value`: whether the rule renders expressions. -/
def Rule.isValue (rule : Rule) : Bool :=
  rule.kind = .value

/-- `RuleTable`: the rules of a language by block type, and which types are aliases. -/
structure RuleTable where
  language : String
  rules : List (String × Rule) := []
  aliases : List (String × String) := []

namespace RuleTable

/-- The rule for a block type, if there is one. -/
def find? (table : RuleTable) (type : String) : Option Rule :=
  Json.find? table.rules type

/-- `RuleTable.lookup`: the rule for a block type. -/
def lookup (table : RuleTable) (type : String) : Except Failure Rule :=
  match table.find? type with
  | some rule => .ok rule
  | none => .error (.unknownBlockType table.language type)

/-- `RuleTable.__contains__`: whether a block type has a rule. -/
def contains (table : RuleTable) (type : String) : Bool :=
  (table.find? type).isSome

/-- `RuleTable.register`: gives a rule to a block type that has none. -/
def register (table : RuleTable) (type : String) (rule : Rule) : Except Failure RuleTable :=
  if table.contains type then .error (.duplicateRule table.language type)
  else .ok { table with rules := table.rules ++ [(type, rule)] }

/-- Registers a new rule, as `RuleTable.value` and `RuleTable.statement` do. -/
def add (table : RuleTable) (kind : RuleKind) (type : String) (handler : Handler)
    (suppressHooks : Bool) : Except Failure RuleTable :=
  table.register type ⟨kind, handler, suppressHooks, type⟩

/-- `RuleTable.alias`: makes a block type share the rule of another one. -/
def share (table : RuleTable) (type target : String) : Except Failure RuleTable := do
  let rule ← table.lookup target
  let table ← table.register type rule
  return { table with aliases := table.aliases ++ [(type, target)] }

/-- `RuleTable.alias_target`: the type whose rule an alias shares. -/
def aliasTarget? (table : RuleTable) (type : String) : Option String :=
  Json.find? table.aliases type

/-- Whether two block types have one rule in common. -/
def same (table : RuleTable) (type other : String) : Except Failure Bool := do
  let first ← table.lookup type
  let second ← table.lookup other
  return first.origin = second.origin

/-- `RuleTable.block_types`: the block types with a rule, in alphabetical order. -/
def types (table : RuleTable) : List String :=
  (table.rules.map Prod.fst).mergeSort fun a b => decide (a ≤ b)

/-! ## The rules of every language -/

/-- A built-in rule whose statements get their hooks from the engine. -/
def plain (kind : RuleKind) (type : String) (form : BlockForm) : String × Rule :=
  (type, ⟨kind, .form form, false, type⟩)

/-- A built-in rule that places the hooks itself. -/
def selfHooking (kind : RuleKind) (type : String) (form : BlockForm) : String × Rule :=
  (type, ⟨kind, .form form, true, type⟩)

/-- `_register_common_rules`, and what each language adds to it: the built-in rules. -/
def builtInRules : List (String × Rule) :=
  [selfHooking .statement "controls_if" .conditional,
    plain .statement "controls_whileUntil" .whileLoop,
    selfHooking .statement "controls_flow_statements" .flow,
    plain .value "logic_compare" .compare,
    plain .value "logic_operation" .logic,
    plain .value "logic_negate" .logicNot,
    plain .value "logic_boolean" .truthValue,
    plain .value "logic_null" .nullValue,
    plain .value "math_arithmetic" .arithmetic,
    plain .value "math_modulo" .modulo,
    plain .value "text" .text,
    plain .value "variables_get" .variableValue,
    plain .statement "variables_set" .variableAssignment,
    plain .statement "procedures_defreturn" .procedureDefinition,
    plain .value "procedures_callreturn" .procedureCall,
    plain .statement "procedures_callnoreturn" .procedureCallStatement,
    plain .statement "procedures_ifreturn" .conditionalReturn,
    plain .value "logic_ternary" .ternary,
    plain .statement "controls_repeat_ext" .repeatLoop,
    plain .value "math_number" .number,
    plain .value "math_single" .single,
    plain .value "math_constant" .constant,
    plain .value "math_number_property" .property,
    plain .statement "math_change" .change,
    plain .value "math_on_list" .onList,
    plain .value "math_constrain" .constrain,
    plain .value "math_random_int" .randomInteger,
    plain .value "math_random_float" .randomFraction,
    plain .value "math_atan2" .arcTangent]

/-- The block types that share a built-in rule, each with the type it shares the
    rule of. -/
def builtInAliases : List (String × String) :=
  [("controls_ifelse", "controls_if"), ("procedures_defnoreturn", "procedures_defreturn"),
    ("controls_repeat", "controls_repeat_ext"), ("math_round", "math_single"),
    ("math_trig", "math_single")]

/-- The built-in rules of a language. -/
def ofLanguage (language : String) : RuleTable :=
  let shared := builtInAliases.filterMap fun (type, target) =>
    (Json.find? builtInRules target).map fun rule => (type, rule)
  ⟨language, builtInRules ++ shared, builtInAliases⟩

end RuleTable

end BlockScript
