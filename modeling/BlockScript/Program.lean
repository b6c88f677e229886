import BlockScript.Pass.Render
import BlockScript.Text.Tidy

/-!
# Programs

A program is made from a workspace in three steps: the names of the workspace
are reserved, the top blocks are rendered in order, and the definitions gathered
on the way are put in front.
-/

namespace BlockScript

open BlockScript.Text

namespace Scene

variable (scene : Scene)

/-! ## Reserving names -/

/-- The block types that define a procedure. -/
def definitionTypes : List String :=
  ["procedures_defreturn", "procedures_defnoreturn"]

/-- The procedure name that a block defines, unless the field counts as not
    given. -/
def definedName? (block : Block Ref) : Option Scalar :=
  if definitionTypes.contains block.type then
    (block.field? "NAME").filter Scalar.isGiven
  else none

/-- The names of the procedures that the workspace defines. -/
def definedNames : List Scalar :=
  scene.workspace.allBlocks.filterMap fun ref => do
    definedName? (← scene.graph.block? ref)

/-- `NameDatabase.populate` within a pass: reserves the names of variables. -/
def reserve (kind : NameKind) : List String → Pass (List String)
  | [] => return []
  | name :: names => do
    let text ← Pass.nameOf scene.dialect.policy kind name
    let texts ← reserve kind names
    return text :: texts

/-- Reserves the names of procedures, all of which must be texts. -/
def reserveDefined : List Scalar → Pass Unit
  | [] => return ()
  | .text name :: names => do
    let _ ← Pass.nameOf scene.dialect.policy .procedure name
    reserveDefined names
  | other :: _ => throw (.nameNotText other.toJson.kindName)

/-- The variables that the workspace uses. -/
def usedVariables : Except Failure (List String) :=
  match scene.workspace.usedVariables with
  | .ok names => .ok names
  | .error kind => .error (.paramsNotList kind)

/-- `VARIABLES_DEFINITION_KEY`: the key of the definition that initialises the
    variables. -/
def variablesKey : String := "variables"

/-- The lines that initialise variables. -/
def initialLines (value : String) (names : List String) : String :=
  joinWith "\n" (names.map fun name => name ++ " = " ++ value) ++ "\n"

/-- `BaseGenerator.init`, and `PythonGenerator.init` where variables are initialised:
    reserves the names of the workspace, before any rule asks for one, and
    initialises the variables where the language needs it. -/
def reserveNames : Pass Unit := do
  let used ← Pass.ofExcept scene.usedVariables
  let names ← scene.reserve .variable used
  let developer ← scene.reserve .developerVariable scene.workspace.developerVariables
  scene.reserveDefined scene.definedNames
  match scene.dialect.initialValue with
  | none => return ()
  | some value =>
    if (developer ++ names).isEmpty then return ()
    else Pass.define variablesKey (initialLines value (developer ++ names))

/-! ## Assembling -/

/-- Whether a key is that of an import. -/
def isImportKey (key : String) : Bool :=
  startsWith Recipe.importKey key

/-- `PythonGenerator.finish`: the definitions, imports first, and the main part of a
    program. -/
def withImportsFirst (entries : List (String × String)) (code : String) : String :=
  let imports := (entries.filter fun entry => isImportKey entry.1).map fun entry => strip entry.2
  let others := (entries.filter fun entry => !isImportKey entry.1 && !isBlankText entry.2).map
    fun entry => trimNewlines entry.2
  let parts := [joinWith "\n" imports, joinWith "\n\n" others].filter (· ≠ "")
  if parts.isEmpty then code else joinWith "\n\n" parts ++ "\n\n\n" ++ code

/-- `BaseGenerator.finish`: the definitions in order and the main part of a program. -/
def withDefinitions (entries : List (String × String)) (code : String) : String :=
  let texts := (entries.filter fun entry => !isBlankText entry.2).map
    fun entry => dropNewlines entry.2
  if texts.isEmpty then code else joinWith "\n\n" texts ++ "\n\n\n" ++ code

/-- The definitions and the main part of a program. -/
def finish (definitions : Definitions) (code : String) : String :=
  if scene.dialect.importsFirst then withImportsFirst definitions.entries code
  else withDefinitions definitions.entries code

/-! ## Rendering a workspace -/

/-- `_naked_value`: a value at the top as a statement, with hooks and comments. -/
def nakedValue (ref : Ref) (code : String) : String :=
  match scene.graph.block? ref with
  | none => ""
  | some block =>
    scene.commentLines ref ++
      (scene.startHook block ++ scene.dialect.nakedValue code ++ scene.endHook block)

/-- The loop of `generate`: the texts of the top blocks that have any. -/
def topTexts : List Ref → Pass (List String)
  | [] => return []
  | ref :: refs => do
    let code ←
      match ← scene.renderPlace (some ref) with
      | .text code => pure code
      | .value code _ => pure (scene.nakedValue ref code)
    let texts ← topTexts refs
    return if code = "" then texts else code :: texts

/-- A finished program, with the number of its lines before the final trimming
    and the number of its definitions. -/
structure Program where
  code : String
  lines : Nat
  definitions : Nat
  deriving DecidableEq, Repr

/-- The pass of `generate`: renders the workspace of the scene as a program. -/
def program : Pass Program := do
  scene.reserveNames
  let texts ← scene.topTexts scene.workspace.tops
  let definitions := (← get).definitions
  let code := scene.finish definitions (joinWith "\n" texts)
  return ⟨tidy code, code.toList.count '\n', definitions.entries.length⟩

end Scene

/-- `BaseGenerator.generate`: renders a workspace as a program in a language, and
    gives the warnings noted on the way. -/
def generate (language : Language) (config : Config) (workspace : Workspace) :
    Except Failure Scene.Program × List Warning :=
  let (result, state) := (Scene.ofLanguage language config workspace).program {}
  (result, state.warnings)

end BlockScript
