import BlockScript.Failure
import BlockScript.Workspace

/-!
# Loading

From JSON text or a JSON value to a workspace. A document that mentions a type
at its top describes a single block, any other a workspace.
-/

namespace BlockScript

open BlockScript.Text

/-- The key that tells a block from a workspace. -/
def typeKey : String := "type"

/-- Whether the type key is found in a document, as `load_workspace` asks: as a key of
    an object, an item of a list or a part of a text. Other values cannot be searched. -/
def mentionsType : Json → Except Failure Bool
  | .obj members => .ok (Json.find? members typeKey).isSome
  | .arr items => .ok (items.any fun item =>
      match item with
      | .str text => text = typeKey
      | _ => false)
  | .str text => .ok (occursIn typeKey.toList text.toList)
  | other => .error (.notSearchable other.kindName)

/-- A block document. -/
def loadBlock (json : Json) : Except Failure Tree :=
  match (checkBlock json).toExcept with
  | .ok tree => .ok tree
  | .error faults => .error (.invalid .block faults)

namespace Workspace

/-- The workspace that a JSON value describes. -/
def ofJson (json : Json) : Except Failure Workspace := do
  if ← mentionsType json then
    let tree ← loadBlock json
    return .ofTree tree
  else
    match (checkWorkspace json).toExcept with
    | .ok document => .ok (.ofDocument document)
    | .error faults => .error (.invalid .workspace faults)

/-- The workspace that a JSON text describes. -/
def ofText (text : String) : Except Failure Workspace :=
  match Json.read text with
  | .ok json => ofJson json
  | .error error => .error (.unreadable text error)

/-- `load_workspace`: the workspace that a source describes: a text is read as JSON
    text, any other value is a document. -/
def ofSource : Json → Except Failure Workspace
  | .str text => ofText text
  | json => ofJson json

end Workspace

end BlockScript
