import BlockScript.Pass.State
import BlockScript.Recipe.Form

/-!
# Rendering

Rendering answers the requests of recipes. A block is rendered inside the blocks
that ask for it; a block that would be rendered inside itself is refused, and so
is nesting beyond the configured depth. Chains of statements are followed block
by block, however long they are.

Every nested step notes one more block of the graph as being rendered, so one
more level than there are blocks is room enough.
-/

namespace BlockScript

open BlockScript.Text

namespace Scene

variable (scene : Scene)

/-! ## Sockets and chains

The steps below render what is plugged in at a place, where `one` renders a
single block. -/

/-- `value_to_code`: the text of a value socket for a position of a tier. -/
def valueText (one : Ref → Pass Rendered) (block : Block Ref) (socket : String) (tier : Tier)
    (strict : Bool) : Pass String := do
  match block.valueInput socket with
  | none => return ""
  | some target =>
    match ← one target with
    | .text code =>
      if code = "" then return ""
      else
        let type := ((scene.graph.block? target).map (·.type)).getD ""
        throw (.statementInValueSocket socket block.type type)
    | .value code inner =>
      if code = "" then return ""
      else if inner.needsParens tier strict then return "(" ++ code ++ ")"
      else return code

/-- The loop of `_render_chain`: the texts of the blocks of a chain, one after the
    other. -/
def chainText (one : Ref → Pass Rendered) : List Ref → Pass String
  | [] => return ""
  | ref :: refs => do
    match ← one ref with
    | .value .. =>
      let type := ((scene.graph.block? ref).map (·.type)).getD ""
      throw (.valueInChain type)
    | .text code =>
      let rest ← chainText one refs
      return code ++ rest

/-- `_render_chain`: the text of the chain that starts at a block. A chain that
    closes to a cycle is refused once its blocks are rendered. -/
def chainCode (one : Ref → Pass Rendered) (ref : Ref) : Pass String := do
  let (refs, repeated) := scene.graph.chainFrom [] (some ref)
  let code ← scene.chainText one refs
  match repeated with
  | none => return code
  | some ref => throw (.cyclicChain (((scene.graph.block? ref).map (·.idText)).getD ""))

/-- `block_to_code`: what a place renders to: a value, or the text of the chain that
    starts there. -/
def placeCode (one : Ref → Pass Rendered) (place : Option Ref) : Pass Rendered := do
  match place with
  | none => return .text ""
  | some ref =>
    match scene.graph.block? ref with
    | none => return .text ""
    | some block =>
      if block.enabled then
        let rule ← Pass.ofExcept (scene.rules.lookup block.type)
        if rule.isValue then one ref
        else return .text (← scene.chainCode one ref)
      else return .text (← scene.chainCode one ref)

/-- `statement_to_code`: the indented text of a statement socket. -/
def bodyText (one : Ref → Pass Rendered) (block : Block Ref) (socket : String) : Pass String := do
  match ← scene.placeCode one (block.statementInput socket) with
  | .value .. => throw (.valueInStatementSocket socket block.type)
  | .text code => return scene.indented code

/-! ## Answering requests -/

/-- Answers a request of the recipe for a block. -/
def answer (one : Ref → Pass Rendered) (ref : Ref) (block : Block Ref) :
    (request : Request) → Pass request.Answer
  | .value socket tier strict => scene.valueText one block socket tier strict
  | .body socket loop =>
    if loop then Pass.insideLoop ref (scene.bodyText one block socket)
    else scene.bodyText one block socket
  | .name kind name => Pass.nameOf scene.dialect.policy kind name
  | .freshName kind base => Pass.freshName scene.dialect.policy kind base
  | .helper key template => Pass.helper scene.dialect.policy scene.indent key template
  | .define key code => Pass.define key code
  | .enclosingLoop => return (← get).loops.head?
  | .markContinue => Pass.markContinue
  | .loopContinued loop => return (← get).continued.contains loop
  | .warn warning => Pass.warn warning

/-- Follows a recipe for a block. -/
def follow {α : Type} (one : Ref → Pass Rendered) (ref : Ref) (block : Block Ref) :
    Recipe α → Pass α
  | .done result => pure result
  | .fail failure => throw failure
  | .ask request next => do
    let reply ← scene.answer one ref block request
    follow one ref block (next reply)

/-! ## Single blocks -/

/-- The text of a statement from the code of its rule, as `_render_single` ends: with
    the hooks unless the rule suppresses them, and with the comments above it. -/
def statementText (rule : Rule) (ref : Ref) (block : Block Ref) (code : String) : String :=
  let code :=
    if rule.suppressHooks then code
    else scene.startHook block ++ code ++ scene.endHook block
  scene.commentLines ref ++ oneTrailingNewline code

/-- What a block renders to, given what its rule makes of it. A rule has to give
    what its kind promises. -/
def conclude (rule : Rule) (ref : Ref) (block : Block Ref) (product : Product) :
    Except Failure Rendered :=
  if rule.isValue then
    match product with
    | .value code tier => .ok (.value code tier)
    | _ => .error (.valueExpected block.type)
  else
    match product with
    | .nothing => .ok (.text "")
    | .text code => .ok (.text (scene.statementText rule ref block code))
    | .value .. => .error (.statementExpected block.type)

/-- The checks at the start of `_render_single`: whether a block may be rendered now,
    and its rule. -/
def permit (ref : Ref) (block : Block Ref) : Pass Rule := do
  let state ← get
  if state.active.contains ref then throw (.containsItself block.idText)
  else if scene.config.maxDepth ≤ state.depth then throw (.tooDeep scene.config.maxDepth)
  else Pass.ofExcept (scene.rules.lookup block.type)

/-- `_render_single`: renders one block and what is plugged into it, with room for so
    many levels of nesting. A disabled block gives no text. -/
def renderWithin : Nat → Ref → Pass Rendered
  | 0, ref => throw (.containsItself (((scene.graph.block? ref).map (·.idText)).getD ""))
  | room + 1, ref =>
    match scene.graph.block? ref with
    | none => return .text ""
    | some block =>
      if !block.enabled then return .text ""
      else do
        let rule ← scene.permit ref block
        let product ← Pass.entering ref
          (scene.follow (renderWithin room) ref block (rule.handler.recipe scene ref block))
        Pass.ofExcept (scene.conclude rule ref block product)

/-- Renders one block and what is plugged into it: `_render_single` with room enough. -/
def render (ref : Ref) : Pass Rendered :=
  scene.renderWithin (scene.graph.size + 1) ref

/-- Renders what starts at a place, as `block_to_code` does: a value, or a chain of
    statements. -/
def renderPlace (place : Option Ref) : Pass Rendered :=
  scene.placeCode scene.render place

/-- Renders a value socket of a block for a position of a tier, as `value_to_code`
    does. -/
def renderValue (block : Block Ref) (socket : String) (tier : Tier) (strict : Bool) :
    Pass String :=
  scene.valueText scene.render block socket tier strict

/-- Renders a statement socket of a block, indented, as `statement_to_code` does. -/
def renderBody (block : Block Ref) (socket : String) : Pass String :=
  scene.bodyText scene.render block socket

end Scene

end BlockScript
