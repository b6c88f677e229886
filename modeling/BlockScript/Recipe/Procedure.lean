import BlockScript.Recipe.Control

/-!
# Procedures

The recipes for the definition of a procedure, for calls, and for an early
return. A definition adds no text where its block stands; it is set under a key
of its own and comes ahead of the main part of the program.
-/

namespace BlockScript.Recipe

open BlockScript.Text

variable (scene : Scene) (ref : Ref) (block : Block Ref)

/-! ## Parameters and outer variables -/

/-- `Block.get_vars`: the parameters that a block declares. -/
def params : Except Failure (List Json) :=
  match block.params with
  | .ok params => .ok params
  | .error kind => .error (.paramsNotList kind)

/-- The lower-case forms of parameters, all of which must be texts. -/
def lowerParams : List Json → Except Failure (List String)
  | [] => .ok []
  | .str name :: rest => do
    let names ← lowerParams rest
    return lower name :: names
  | other :: _ => .error (.nameNotText other.kindName)

/-- The first of every group of names that differ in case only, leaving out the
    names whose lower-case form is in `known`. -/
def newNames (known : List String) : List String → List String
  | [] => []
  | name :: names =>
    if known.contains (lower name) then newNames known names
    else name :: newNames (lower name :: known) names

/-- The variables that the blocks inside a procedure name. -/
def namedInside : List String :=
  (scene.graph.descendants ref).filterMap fun nested => do
    let block ← scene.graph.block? nested
    let name ← block.textField? Workspace.variableField
    if name = "" then none else some name

/-- `_procedure_globals`: the declaration of the variables that a procedure shares
    with the rest of the program: those named inside it that are no parameters, and
    all of the developer's. -/
def outerDeclaration : Recipe String :=
  match scene.dialect.globalDeclaration with
  | none => .done ""
  | some declaration => do
    let known ← ofExcept (params block >>= lowerParams)
    let named ← forEach (fun name => nameOf .variable (.str name))
      (newNames known (namedInside scene ref))
    let developer ← forEach (fun name => nameOf .developerVariable (.str name))
      scene.workspace.developerVariables
    match named ++ developer with
    | [] => return ""
    | names => return scene.indent ++ declaration (joinWith ", " names)

/-! ## Definitions -/

/-- `PROCEDURE_DEFINITION_PREFIX` and a name: the key of a procedure's definition. No
    helper has a key that starts like it. -/
def procedureKey (name : String) : String :=
  "%" ++ name

/-- `RETURN_VALUE`: the statement that gives back a value. -/
def returnStatement (value : String) : String :=
  scene.indent ++ scene.dialect.statement ("return " ++ value)

/-- `_procedures_defreturn`: the definition of a procedure. After a body that ran,
    the hooks of the definition stand once more ahead of the return. -/
def procedureDefinition : Recipe Product := do
  let dialect := scene.dialect
  let name ← nameOf .procedure (block.field "NAME")
  let outer ← outerDeclaration scene ref block
  let hooks := scene.indented (scene.startHook block ++ scene.endHook block)
  let trap := scene.injectIndented scene.config.loopTrap block
  let statements ← body "STACK"
  let result ← value "RETURN" .none false
  let revisited := if statements ≠ "" && result ≠ "" then hooks else ""
  let last := if result = "" then "" else returnStatement scene result
  let statements :=
    if result = "" && hooks = "" && trap = "" && outer = "" then scene.filled statements
    else statements
  let params ← ofExcept (params block)
  let args ← forEach (nameOf .variable) params
  let code := dialect.procedureHeader name (joinWith ", " args) ++ outer ++ hooks ++ trap ++
    statements ++ revisited ++ last ++ dialect.procedureEnd
  define (procedureKey name) (scene.commentLines ref ++ code)
  return .nothing

/-! ## Calls and returns -/

/-- The text of a call, which `_procedures_callreturn` and `_procedures_callnoreturn`
    share. There is an argument for every declared parameter. -/
def call : Recipe String := do
  let name ← nameOf .procedure (block.field "NAME")
  let params ← ofExcept (params block)
  let args ← forEach (fun i => valueOr ("ARG" ++ toString i) .none false scene.dialect.nullLiteral)
    (List.range params.length)
  return name ++ "(" ++ joinWith ", " args ++ ")"

/-- `_procedures_callreturn`: a call for its value. -/
def procedureCall : Recipe Product := do
  let code ← call scene block
  return .value code scene.dialect.call

/-- `_procedures_callnoreturn`: a call as a statement. -/
def procedureCallStatement : Recipe Product := do
  let code ← call scene block
  return .text (scene.dialect.statement code)

/-- `_procedures_ifreturn`: a return under a condition. The hook for the end of the
    statement stands ahead of the return. -/
def conditionalReturn : Recipe Product := do
  let dialect := scene.dialect
  let condition ← valueOr "CONDITION" .none false dialect.falseLiteral
  let suffix := scene.injectIndented scene.config.statementEnd block
  let last ←
    if block.hasInput "VALUE" then do
      let result ← valueOr "VALUE" .none false dialect.nullLiteral
      pure (returnStatement scene result)
    else pure (scene.indent ++ dialect.statement "return")
  return .text (dialect.ifHeader condition ++ suffix ++ last ++ dialect.blockEnd)

end BlockScript.Recipe
