import BlockScript.Graph.Traversal
import BlockScript.Text.Lower
import BlockScript.Text.Search

/-!
# Workspaces

A workspace is what one program is made from: top blocks over a graph, the
variables declared, and the variables that belong to the developer.
-/

namespace BlockScript

/-- `Workspace`: top blocks over a graph, with the variable lists. -/
structure Workspace where
  declaredVariables : List String := []
  developerVariables : List String := []
  tops : List Ref := []
  graph : Graph := {}

namespace Workspace

/-- The workspace that a document describes. -/
def ofDocument (document : WorkspaceDocument) : Workspace :=
  let (tops, graph) := Graph.addTrees document.blocks {}
  ⟨document.declaredVariables, document.developerVariables, tops, graph⟩

/-- The workspace of one block and the chain below it. -/
def ofTree (tree : Tree) : Workspace :=
  .ofDocument { blocks := [tree] }

/-- `Workspace.all_blocks`: all blocks, each once. -/
def allBlocks (workspace : Workspace) : List Ref :=
  workspace.graph.collect [] workspace.tops

/-- The block with an id that comes first. -/
def findId? (workspace : Workspace) (id : String) : Option Ref :=
  workspace.allBlocks.find? fun ref =>
    (workspace.graph.block? ref).any fun block => block.id = some id

/-! ## Links -/

/-- A change to a place of the block `source`, both blocks named by their ids. -/
structure Link where
  source : String
  kind : Graph.LinkKind
  socket : String
  target : Option String

/-- Makes links. The ids are looked up before any link is made. A link with an
    unknown source changes nothing; an unknown target unplugs. -/
def makeLinks (workspace : Workspace) (links : List Link) : Workspace :=
  let graph := links.foldl (fun graph link =>
    match workspace.findId? link.source with
    | none => graph
    | some source =>
      graph.link source link.kind link.socket (link.target.bind workspace.findId?))
    workspace.graph
  { workspace with graph }

/-! ## Variables -/

/-- `VARIABLE_FIELD`: the name of the field that names a variable. -/
def variableField : String := "VAR"

/-- The inner `_add` of `all_used_variables`: adds a name unless it is empty or there
    in some case already. -/
def addName (names : List String) (name : String) : List String :=
  if name = "" || names.any (fun other => Text.lower other = Text.lower name) then names
  else names ++ [name]

/-- The types of blocks that define a procedure start with this. -/
def definitionStart : String := "procedures_def"

/-- The texts among JSON values. -/
def textsOf (values : List Json) : List String :=
  values.filterMap fun
    | .str text => some text
    | _ => none

/-- The variables that a block names: in its field, and as parameters if it
    defines a procedure. -/
def variablesOf (block : Block Ref) : Except String (List String) := do
  let named := (block.textField? variableField).toList
  if Text.startsWith definitionStart block.type then
    return named ++ textsOf (← block.params)
  else
    return named

/-- Adds the variables of the given blocks in order. -/
def addVariables (graph : Graph) (names : List String) :
    List Ref → Except String (List String)
  | [] => .ok names
  | ref :: refs =>
    match graph.block? ref with
    | none => addVariables graph names refs
    | some block =>
      match variablesOf block with
      | .error kind => .error kind
      | .ok more => addVariables graph (more.foldl addName names) refs

/-- `Workspace.all_used_variables`: the declared variables, then every variable that
    a block names. Fails with the kind of the first parameter list that is no list. -/
def usedVariables (workspace : Workspace) : Except String (List String) :=
  addVariables workspace.graph (workspace.declaredVariables.foldl addName []) workspace.allBlocks

end Workspace

end BlockScript
