import BlockScript.Block

/-!
# Documents

A JSON value describes a block or a workspace of blocks if it follows the
schema: the right kind of value under every known key, recursively. Checking
collects every fault of a document, in a fixed order, each with the path that
leads to it. Unknown keys are ignored.
-/

namespace BlockScript

open BlockScript.Number

/-! ## Faults -/

/-- One step of a path into a document. A field value is tried as four types in
    turn; `branch` names the type tried. -/
inductive Step where
  | key (name : String)
  | index (position : Nat)
  | branch (name : String)
  deriving DecidableEq, Repr

/-- What the schema demands at a place and does not find. -/
inductive Demand where
  | present
  | text
  | list
  | object
  | model
  | truthValue
  | integer
  | double
  | readableTruth
  deriving DecidableEq, Repr

/-- The name of the fault that a demand is not met. -/
def Demand.faultName : Demand → String
  | .present => "missing"
  | .text => "string_type"
  | .list => "list_type"
  | .object => "dict_type"
  | .model => "model_type"
  | .truthValue => "bool_type"
  | .integer => "int_type"
  | .double => "float_type"
  | .readableTruth => "bool_parsing"

/-- A demand that is not met at the end of a path. -/
structure SchemaFault where
  path : List Step
  demand : Demand
  deriving DecidableEq, Repr

/-- The outcome of checking: a value and the faults met on the way. The value is
    meant only if there are no faults. -/
structure Checked (α : Type) where
  value : α
  faults : List SchemaFault

namespace Checked

variable {α β : Type}

/-- A value without faults. -/
def pass (value : α) : Checked α :=
  ⟨value, []⟩

/-- A demand not met here, and a value to go on with. -/
def fault (demand : Demand) (value : α) : Checked α :=
  ⟨value, [⟨[], demand⟩]⟩

/-- Changes the value. -/
def map (f : α → β) (checked : Checked α) : Checked β :=
  ⟨f checked.value, checked.faults⟩

/-- The check of something one step further down. -/
def under (step : Step) (checked : Checked α) : Checked α :=
  ⟨checked.value, checked.faults.map fun fault => ⟨step :: fault.path, fault.demand⟩⟩

/-- The value, if there are no faults. -/
def toExcept (checked : Checked α) : Except (List SchemaFault) α :=
  if checked.faults.isEmpty then .ok checked.value else .error checked.faults

end Checked

/-! ## Scalars -/

/-- A text. -/
def checkText : Json → Checked String
  | .str text => .pass text
  | _ => .fault .text ""

/-- The value of a field. A value that is no scalar fails all four types. -/
def checkScalar : Json → Checked Scalar
  | .bool b => .pass (.bool b)
  | .int n => .pass (.int n)
  | .float d => .pass (.float d)
  | .str s => .pass (.text s)
  | _ =>
    ⟨.bool false, [⟨[.branch "bool"], .truthValue⟩, ⟨[.branch "int"], .integer⟩,
      ⟨[.branch "float"], .double⟩, ⟨[.branch "str"], .text⟩]⟩

/-- A comment: a text or `null`. -/
def checkComment : Json → Checked (Option String)
  | .null => .pass none
  | json => (checkText json).map some

/-- The words that are read as true. -/
def trueWords : List String :=
  ["1", "on", "t", "true", "y", "yes"]

/-- The words that are read as false. -/
def falseWords : List String :=
  ["0", "off", "f", "false", "n", "no"]

/-- Whether an integer fits into 64 bits. -/
def isWord64 (n : Int) : Bool :=
  -0x8000000000000000 ≤ n && n < 0x8000000000000000

/-- An integer read as a truth value: 0 or 1. -/
def checkTruthInt (n : Int) : Checked Bool :=
  if n = 0 then .pass false
  else if n = 1 then .pass true
  else .fault .readableTruth true

/-- A truth value: a boolean, zero or one, or one of the words for them in any
    case. Numbers that are no integers or beyond 64 bits are of the wrong type
    altogether. -/
def checkTruth : Json → Checked Bool
  | .bool b => .pass b
  | .str text =>
    let word := text.map Char.toLower
    if trueWords.contains word then .pass true
    else if falseWords.contains word then .pass false
    else .fault .readableTruth true
  | .int n => if isWord64 n then checkTruthInt n else .fault .truthValue true
  | .float d =>
    match d.toInt? with
    | some n => if isWord64 n then checkTruthInt n else .fault .truthValue true
    | none => .fault .truthValue true
  | _ => .fault .truthValue true

/-- An object of anything. -/
def checkObject : Json → Checked (List (String × Json))
  | .obj members => .pass members
  | _ => .fault .object []

/-- The members of an object, each checked by `check`. -/
def checkMembers {α : Type} (check : Json → Checked α) :
    List (String × Json) → Checked (List (String × α))
  | [] => .pass []
  | (key, json) :: rest =>
    let first := (check json).under (.key key)
    let others := checkMembers check rest
    ⟨(key, first.value) :: others.value, first.faults ++ others.faults⟩

/-- The fields of a block. -/
def checkFields : Json → Checked (List (String × Scalar))
  | .obj members => checkMembers checkScalar members
  | _ => .fault .object []

/-- The items of a list from a position on, each checked by `check`. -/
def checkItems {α : Type} (check : Json → Checked α) (position : Nat) :
    List Json → Checked (List α)
  | [] => .pass []
  | json :: rest =>
    let first := (check json).under (.index position)
    let others := checkItems check (position + 1) rest
    ⟨first.value :: others.value, first.faults ++ others.faults⟩

/-- A list whose items are checked by `check`. -/
def checkList {α : Type} (check : Json → Checked α) : Json → Checked (List α)
  | .arr items => checkItems check 0 items
  | _ => .fault .list []

/-! ## Blocks -/

/-- What a block document gives under each known key, checked. -/
structure Parts where
  type : Option (Checked String) := none
  id : Option (Checked String) := none
  fields : Option (Checked (List (String × Scalar))) := none
  values : Option (Checked (List (String × Option Tree))) := none
  statements : Option (Checked (List (String × Option Tree))) := none
  next : Option (Checked (Option Tree)) := none
  nextBlock : Option (Checked (Option Tree)) := none
  comment : Option (Checked (Option String)) := none
  enabled : Option (Checked Bool) := none
  extraState : Option (Checked (List (String × Json))) := none

/-- The part under a key, or a default if the document has no such key. -/
def part {α : Type} (key : String) (default : α) (given : Option (Checked α)) : Checked α :=
  match given with
  | some checked => checked.under (.key key)
  | none => .pass default

/-- The block below. The short key is looked at first. -/
def nextPart (parts : Parts) : Checked (Option Tree) :=
  match parts.next with
  | some checked => checked.under (.key "next")
  | none => part "next_block" none parts.nextBlock

/-- The type of the block, the one part that must be there. -/
def typePart (parts : Parts) : Checked String :=
  match parts.type with
  | some checked => checked.under (.key "type")
  | none => (Checked.fault .present "").under (.key "type")

/-- Puts a block together. The faults come in the order of the schema, not of
    the document. -/
def assemble (parts : Parts) : Checked Tree :=
  let type := typePart parts
  let id := part "id" none (parts.id.map (·.map some))
  let fields := part "fields" [] parts.fields
  let values := part "values" [] parts.values
  let statements := part "statements" [] parts.statements
  let next := nextPart parts
  let comment := part "comment" none parts.comment
  let enabled := part "enabled" true parts.enabled
  let extraState := part "extra_state" [] parts.extraState
  ⟨.node ⟨type.value, id.value, fields.value, values.value, statements.value, next.value,
      comment.value, enabled.value, extraState.value⟩,
    type.faults ++ id.faults ++ fields.faults ++ values.faults ++ statements.faults ++
      next.faults ++ comment.faults ++ enabled.faults ++ extraState.faults⟩

/-- The tree that stands for a block with faults. -/
def noTree : Tree :=
  .node (.ofType "")

mutual

/-- The schema of `Block`: a block. -/
def checkBlock : Json → Checked Tree
  | .obj members => assemble (checkParts members)
  | _ => .fault .model noTree

/-- The parts of a block, from the members of its document. -/
def checkParts : List (String × Json) → Parts
  | [] => {}
  | (key, json) :: rest =>
    let parts := checkParts rest
    match key with
    | "type" => { parts with type := some (checkText json) }
    | "id" => { parts with id := some (checkText json) }
    | "fields" => { parts with fields := some (checkFields json) }
    | "values" => { parts with values := some (checkSockets json) }
    | "statements" => { parts with statements := some (checkSockets json) }
    | "next" => { parts with next := some (checkPlug json) }
    | "next_block" => { parts with nextBlock := some (checkPlug json) }
    | "comment" => { parts with comment := some (checkComment json) }
    | "enabled" => { parts with enabled := some (checkTruth json) }
    | "extra_state" => { parts with extraState := some (checkObject json) }
    | _ => parts

/-- What is plugged in: a block or nothing. -/
def checkPlug : Json → Checked (Option Tree)
  | .null => .pass none
  | .obj members => (assemble (checkParts members)).map some
  | _ => .fault .model none

/-- The sockets of one kind. -/
def checkSockets : Json → Checked (List (String × Option Tree))
  | .obj members => checkSocketMembers members
  | _ => .fault .object []

/-- The sockets of one kind, from the members of their document. -/
def checkSocketMembers : List (String × Json) → Checked (List (String × Option Tree))
  | [] => .pass []
  | (key, json) :: rest =>
    let first := (checkPlug json).under (.key key)
    let others := checkSocketMembers rest
    ⟨(key, first.value) :: others.value, first.faults ++ others.faults⟩

end

/-! ## Workspaces -/

/-- `Workspace` as its document describes it: the declared variables, the variables of
    the developer, and the top blocks. -/
structure WorkspaceDocument where
  declaredVariables : List String := []
  developerVariables : List String := []
  blocks : List Tree := []

/-- A list under a key of a workspace document. -/
def listPart {α : Type} (check : Json → Checked α) (members : List (String × Json))
    (key : String) : Checked (List α) :=
  part key [] ((Json.find? members key).map (checkList check))

/-- The schema of `Workspace`: a workspace. -/
def checkWorkspace : Json → Checked WorkspaceDocument
  | .obj members =>
    let declaredVariables := listPart checkText members "variables"
    let developerVariables := listPart checkText members "developer_variables"
    let blocks := listPart checkBlock members "blocks"
    ⟨⟨declaredVariables.value, developerVariables.value, blocks.value⟩,
      declaredVariables.faults ++ developerVariables.faults ++ blocks.faults⟩
  | _ => .fault .model {}

end BlockScript
