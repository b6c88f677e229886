import BlockScript.Json.Basic

/-!
# Blocks

A block is one node of a visual program: a type, fields with scalar values, and
three kinds of places where further blocks are plugged in. A value socket holds
one block, a statement socket holds the first block of a chain, and `next` leads
to the block below. What is plugged in is a parameter, so that blocks can be
nested in each other, as in a document, or refer to each other, as in a graph.
-/

namespace BlockScript

open BlockScript.Number

/-- The value of a field. -/
inductive Scalar where
  | bool (value : Bool)
  | int (value : Int)
  | float (value : Double)
  | text (value : String)
  deriving Repr

namespace Scalar

/-- A scalar as a JSON value. -/
def toJson : Scalar → Json
  | .bool b => .bool b
  | .int n => .int n
  | .float d => .float d
  | .text s => .str s

/-- The plain text of a scalar. -/
def toText : Scalar → String
  | .bool b => Json.truthName b
  | .int n => toString n
  | .float d => d.toText
  | .text s => s

/-- Whether a scalar counts as given: not false, zero or the empty text. -/
def isGiven : Scalar → Bool
  | .bool b => b
  | .int n => n ≠ 0
  | .float d => !d.isZero
  | .text s => s ≠ ""

end Scalar

/-- `Block`: a block with plugged-in blocks of type `σ`. A socket with nothing
    plugged in is present with `none`. A document need not give an id. -/
structure Block (σ : Type) where
  type : String
  id : Option String
  fields : List (String × Scalar)
  values : List (String × Option σ)
  statements : List (String × Option σ)
  next : Option σ
  comment : Option String
  enabled : Bool
  extraState : List (String × Json)

/-- A block nested with everything plugged into it. -/
inductive Tree where
  | node (block : Block Tree)

namespace Block

variable {σ : Type}

/-- A block of the given type with nothing else to it. -/
def ofType (type : String) : Block σ :=
  ⟨type, none, [], [], [], none, none, true, []⟩

/-- `Block.field_value`: the value of a field. -/
def field? (block : Block σ) (name : String) : Option Scalar :=
  Json.find? block.fields name

/-- The value of a field as a JSON value, `null` if the block has no such
    field. -/
def field (block : Block σ) (name : String) : Json :=
  match block.field? name with
  | some value => value.toJson
  | none => .null

/-- The text of a field, if the field holds a text. -/
def textField? (block : Block σ) (name : String) : Option String :=
  match block.field? name with
  | some (.text text) => some text
  | _ => none

/-- The text shown for the block's id. -/
def idText (block : Block σ) : String :=
  block.id.getD ""

/-- `Block.value_input`: what is plugged into a value socket. -/
def valueInput (block : Block σ) (socket : String) : Option σ :=
  (Json.find? block.values socket).join

/-- `Block.statement_input`: the first block of the chain in a statement socket. -/
def statementInput (block : Block σ) (socket : String) : Option σ :=
  (Json.find? block.statements socket).join

/-- `Block.has_input`: whether the block has a socket of that name, of either kind. -/
def hasInput (block : Block σ) (socket : String) : Bool :=
  (Json.find? block.values socket).isSome || (Json.find? block.statements socket).isSome

/-- `Block.children`: what is plugged into the value sockets, then into the statement
    sockets. -/
def children (block : Block σ) : List σ :=
  (block.values.filterMap Prod.snd) ++ (block.statements.filterMap Prod.snd)

/-- Everything plugged into the block: its children, then the block below. -/
def links (block : Block σ) : List σ :=
  block.children ++ block.next.toList

/-- `PROCEDURE_PARAMS_KEY`: the key of the extra state that lists a procedure's
    parameters. -/
def paramsKey : String := "params"

/-- `Block.get_vars`: the parameters that a procedure definition or call declares:
    the items of the list, the characters of a text or the keys of an object. Any
    other value has no parameters to give; then the kind of that value is the result. -/
def params (block : Block σ) : Except String (List Json) :=
  match Json.find? block.extraState paramsKey with
  | none => .ok []
  | some (.arr items) => .ok items
  | some (.str text) => .ok (text.toList.map fun c => .str (String.ofList [c]))
  | some (.obj members) => .ok (members.map fun member => .str member.1)
  | some other => .error other.kindName

end Block

end BlockScript
