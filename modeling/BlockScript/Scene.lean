import BlockScript.Config
import BlockScript.Language
import BlockScript.Rules
import BlockScript.Workspace

/-!
# Scenes

A scene is everything that stays the same during a rendering pass: the dialect,
the configuration, the rules and the workspace. The texts that depend on a
scene alone are found here: comments, and the snippets placed around statements
and inside loops.
-/

namespace BlockScript

open BlockScript.Text

/-- What a `GenerationContext` is given and never changes. -/
structure Scene where
  dialect : Dialect
  config : Config
  rules : RuleTable
  workspace : Workspace

namespace Scene

/-- The scene of a workspace in a language with its built-in rules. -/
def ofLanguage (language : Language) (config : Config) (workspace : Workspace) : Scene :=
  ⟨language.dialect, config, .ofLanguage language.name, workspace⟩

/-- The blocks of the scene. -/
def graph (scene : Scene) : Graph :=
  scene.workspace.graph

/-- One unit of indentation. -/
def indent (scene : Scene) : String :=
  scene.config.indent.getD "  "

/-- `prefix_lines`: a text with every line one unit deeper. -/
def indented (scene : Scene) (text : String) : String :=
  indentLines text scene.indent

/-! ## Snippets -/

/-- `BLOCK_ID_TOKEN`: stands in a snippet where the quoted id of a block belongs. -/
def idMark : String := "%1"

/-- `inject_id`: a snippet for a block. -/
def injectId (scene : Scene) (snippet : String) (block : Block Ref) : String :=
  replaceAll snippet idMark (scene.dialect.quote block.idText)

/-- `inject_statement`: a snippet for a block as a statement. -/
def injectStatement (scene : Scene) (snippet : String) (block : Block Ref) : String :=
  oneTrailingNewline (scene.injectId snippet block)

/-- `indented_injection`: a snippet for a block as a statement inside a body. -/
def injectIndented (scene : Scene) (snippet : String) (block : Block Ref) : String :=
  if snippet = "" then "" else scene.indented (scene.injectStatement snippet block)

/-- The snippet ahead of a statement; nothing if none is configured. -/
def startHook (scene : Scene) (block : Block Ref) : String :=
  if scene.config.statementStart = "" then ""
  else scene.injectStatement scene.config.statementStart block

/-- The snippet after a statement; nothing if none is configured. -/
def endHook (scene : Scene) (block : Block Ref) : String :=
  if scene.config.statementEnd = "" then ""
  else scene.injectStatement scene.config.statementEnd block

/-- A loop body with the loop trap and the hooks of the loop. Each round closes
    the statement of the loop at its start and opens it again at its end, so
    that the test between two rounds counts as part of the loop. -/
def trapped (scene : Scene) (suppressHooks : Bool) (body : String) (block : Block Ref) :
    String :=
  let config := scene.config
  let body := scene.injectIndented config.loopTrap block ++ body
  if suppressHooks then body
  else
    scene.injectIndented config.statementEnd block ++ body ++
      scene.injectIndented config.statementStart block

/-- `add_loop_trap`: a loop body with the loop trap, and with the hooks unless the
    rule for the block suppresses them. -/
def addLoopTrap (scene : Scene) (body : String) (block : Block Ref) : Except Failure String := do
  let rule ← scene.rules.lookup block.type
  return scene.trapped rule.suppressHooks body block

/-! ## Comments -/

/-- `comment_code`: the comment lines above a statement. -/
def commentLines (scene : Scene) (ref : Ref) : String :=
  if !scene.config.emitComments then ""
  else
    match scene.graph.commentsAbove ref with
    | [] => ""
    | comments => indentLines (joinWith "\n" comments ++ "\n") scene.dialect.commentStart

/-! ## Bodies -/

/-- `_body`: the body of a compound statement. Where the language does not allow an
    empty one, a statement that does nothing stands in. -/
def filled (scene : Scene) (body : String) : String :=
  match scene.dialect.emptyBody with
  | none => body
  | some filler => if body = "" then scene.indent ++ scene.dialect.statement filler else body

end Scene

end BlockScript
