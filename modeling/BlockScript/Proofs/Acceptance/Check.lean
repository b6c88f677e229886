import BlockScript.Program
import BlockScript.Proofs.Expression.Rendering

/-!
# A check of workspaces

Which workspaces can be rendered at all, told from the blocks alone. The check
knows of no language and of no option but the depth: it reads the fields of every
block, and it looks for each of the block's sockets at what is plugged in.

Definitions:

* `BlockForm.sockets?`: what a block needs of its fields and sockets.
* `Workspace.accepted`: whether a workspace passes the check.
-/

namespace BlockScript

open BlockScript.Recipe

/-! ## Shapes -/

/-- What a block renders to, apart from the words: text that may be empty, as that of
    a disabled block or a procedure's definition always is, the text of a statement,
    or a value. -/
inductive Shape where
  | blank
  | statement
  | value
  deriving DecidableEq, Repr

/-- Whether a value socket can hold a block of a shape. -/
def Shape.fitsValue : Shape → Bool
  | .statement => false
  | .blank | .value => true

/-- Whether a chain of statements can hold a block of a shape. -/
def Shape.fitsChain : Shape → Bool
  | .value => false
  | .blank | .statement => true

/-- The shape of the blocks of a form. -/
def BlockForm.shape (form : BlockForm) : Shape :=
  if form.isValue then .value else if form = .procedureDefinition then .blank else .statement

/-- The form of the blocks of a type. All languages have the same types. -/
def BlockForm.ofType? (type : String) : Option BlockForm :=
  ((RuleTable.ofLanguage "").find? type).bind fun rule =>
    match rule.handler with
    | .form form => some form
    | .always _ => none

/-! ## Fields and sockets -/

/-- Whether a JSON value is a text. -/
def Json.isText : Json → Bool
  | .str _ => true
  | _ => false

/-- The sockets that a block needs rendered. -/
structure Sockets where
  values : List String := []
  bodies : List String := []

/-- The sockets that a block of a form needs rendered, unless its fields or its
    parameters rule it out. -/
def BlockForm.sockets? (block : Block Ref) : BlockForm → Option Sockets
  | .conditional =>
    some ⟨(arms block).map conditionSocket, (arms block).map bodySocket ++ ["ELSE"]⟩
  | .whileLoop => if (loopMode block).isOk then some ⟨["BOOL"], ["DO"]⟩ else none
  | .repeatLoop =>
    match block.field? "TIMES" with
    | some times => if (Number.doubleOf times.toJson).isOk then some ⟨[], ["DO"]⟩ else none
    | none => some ⟨["TIMES"], ["DO"]⟩
  | .flow => if (chosen FlowStatement (block.field "FLOW")).isOk then some {} else none
  | .compare => if (chosen CompareOp (block.field "OP")).isOk then some ⟨["A", "B"], []⟩ else none
  | .logic => if (chosen LogicOp (block.field "OP")).isOk then some ⟨["A", "B"], []⟩ else none
  | .logicNot => some ⟨["BOOL"], []⟩
  | .truthValue | .nullValue | .text | .randomFraction => some {}
  | .ternary => some ⟨["IF", "THEN", "ELSE"], []⟩
  | .number => if (Number.doubleOf (block.field "NUM")).isOk then some {} else none
  | .arithmetic =>
    if (chosen ArithmeticOp (block.field "OP")).isOk then some ⟨["A", "B"], []⟩ else none
  | .modulo => some ⟨["DIVIDEND", "DIVISOR"], []⟩
  | .single => if (chosen SingleOp (block.field "OP")).isOk then some ⟨["NUM"], []⟩ else none
  | .constant => if (chosen MathConstant (block.field "CONSTANT")).isOk then some {} else none
  | .property =>
    match chosen NumberProperty (block.field "PROPERTY") with
    | .ok .divisibleBy => some ⟨["NUMBER_TO_CHECK", "DIVISOR"], []⟩
    | .ok _ => some ⟨["NUMBER_TO_CHECK"], []⟩
    | .error _ => none
  | .change => if (block.field Workspace.variableField).isText then some ⟨["DELTA"], []⟩ else none
  | .onList => if (chosen ListOp (block.field "OP")).isOk then some ⟨["LIST"], []⟩ else none
  | .constrain => some ⟨["VALUE", "LOW", "HIGH"], []⟩
  | .randomInteger => some ⟨["FROM", "TO"], []⟩
  | .arcTangent => some ⟨["X", "Y"], []⟩
  | .variableValue => if (block.field Workspace.variableField).isText then some {} else none
  | .variableAssignment =>
    if (block.field Workspace.variableField).isText then some ⟨["VALUE"], []⟩ else none
  | .procedureDefinition =>
    match params block with
    | .ok names =>
      if (block.field "NAME").isText && names.all Json.isText then some ⟨["RETURN"], ["STACK"]⟩
      else none
    | .error _ => none
  | .procedureCall | .procedureCallStatement =>
    match params block with
    | .ok names =>
      if (block.field "NAME").isText then
        some ⟨(List.range names.length).map fun i => "ARG" ++ toString i, []⟩
      else none
    | .error _ => none
  | .conditionalReturn => some ⟨["CONDITION", "VALUE"], []⟩

namespace Workspace

variable (workspace : Workspace) (maxDepth : Int)

/-! ## Places

What can stand at a place, where `shape` tells the shapes of the blocks that are
accepted. -/

section Places

variable (shape : Ref → Option Shape)

/-- Whether what is plugged into a value socket can stand there. -/
def fillsValue (block : Block Ref) (socket : String) : Bool :=
  (block.valueInput socket).all fun target => (shape target).any Shape.fitsValue

/-- Whether a place holds a chain of statements that ends. -/
def holdsChain (place : Option Ref) : Bool :=
  let (refs, repeated) := workspace.graph.chainFrom [] place
  repeated.isNone && refs.all fun ref => (shape ref).any Shape.fitsChain

/-- A place with nothing in it holds a chain. -/
theorem holdsChain_none : workspace.holdsChain shape none = true := by
  simp [holdsChain, Graph.chainFrom]

/-- Whether a place holds a single value. -/
def holdsValue (place : Option Ref) : Bool :=
  place.bind shape = some .value

/-- Whether a place holds code: a single value or a chain. -/
def holdsCode (place : Option Ref) : Bool :=
  holdsValue shape place || workspace.holdsChain shape place

/-- Whether all sockets that a block needs can be rendered. -/
def fillsSockets (block : Block Ref) (sockets : Sockets) : Bool :=
  (sockets.values.all fun socket => fillsValue shape block socket) &&
    sockets.bodies.all fun socket => workspace.holdsChain shape (block.statementInput socket)

end Places

/-! ## Blocks and workspaces -/

/-- The shape of a block inside a nest of other blocks, with room for so many levels
    of nesting, if it is accepted there. -/
def shapeWithin : Nat → List Ref → Ref → Option Shape
  | 0, _, _ => none
  | room + 1, nest, ref =>
    match workspace.graph.block? ref with
    | none => some .blank
    | some block =>
      if !block.enabled then some .blank
      else if nest.contains ref || decide (maxDepth ≤ nest.length) then none
      else
        ((BlockForm.ofType? block.type).filter fun form => (form.sockets? block).any
          (workspace.fillsSockets (shapeWithin room (ref :: nest)) block)).map BlockForm.shape

/-- The shape of a block that stands on its own, if it is accepted. -/
def shape (ref : Ref) : Option Shape :=
  workspace.shapeWithin maxDepth (workspace.graph.size + 1) [] ref

/-- Whether the names that a workspace declares and defines can be reserved. -/
def namesAccepted : Bool :=
  workspace.usedVariables.isOk &&
    (workspace.allBlocks.filterMap fun ref => do
      Scene.definedName? (← workspace.graph.block? ref)).all fun name => name.toJson.isText

/-- Whether a workspace can be rendered: its names can be reserved, and every top
    block is a single value or starts a chain of statements. -/
def accepted : Bool :=
  workspace.namesAccepted &&
    workspace.tops.all fun ref => workspace.holdsCode (workspace.shape maxDepth) (some ref)

end Workspace

end BlockScript
