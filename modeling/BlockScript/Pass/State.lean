import BlockScript.Definitions
import BlockScript.Recipe.Basic

/-!
# The state of a pass

What a rendering pass gathers and what it keeps track of. A step that fails
leaves the state as it was at that moment.
-/

namespace BlockScript

/-- The state of a pass, which is what a `GenerationContext` changes: the identifiers
    given out, the definitions, the nesting depth, the blocks being rendered, the loops
    around the current place, the loops that have a jump to their next round, and the
    warnings so far. -/
structure PassState where
  names : NameTable := {}
  definitions : Definitions := {}
  depth : Nat := 0
  active : List Ref := []
  loops : List Ref := []
  continued : List Ref := []
  warnings : List Warning := []

/-- A step of a pass: it changes the state and gives a result or a failure. -/
abbrev Pass := ExceptT Failure (StateM PassState)

/-- `RenderResult`: what a block renders to, the text of statements or a value with its
    tier. -/
inductive Rendered where
  | text (code : String)
  | value (code : String) (tier : Tier)
  deriving DecidableEq, Repr

namespace Pass

variable {α : Type}

/-- A result or failure that leaves the state alone. -/
def ofExcept : Except Failure α → Pass α
  | .ok result => pure result
  | .error failure => throw failure

/-- Runs a step between a change of the state and its undoing, which takes place
    also if the step fails. -/
def between (enter leave : PassState → PassState) (step : Pass α) : Pass α :=
  fun state =>
    let (result, state) := step (enter state)
    (result, leave state)

/-- Runs a step one level deeper, with a block noted as being rendered. -/
def entering (ref : Ref) (step : Pass α) : Pass α :=
  between
    (fun state => { state with depth := state.depth + 1, active := ref :: state.active })
    (fun state => { state with depth := state.depth - 1, active := state.active.erase ref })
    step

/-- `loop_scope`: runs a step inside a loop. -/
def insideLoop (loop : Ref) (step : Pass α) : Pass α :=
  between
    (fun state => { state with loops := loop :: state.loops })
    (fun state => { state with loops := state.loops.tail })
    step

/-- Makes a block the innermost loop. -/
def enterLoop (loop : Ref) : Pass Unit :=
  modify fun state => { state with loops := loop :: state.loops }

/-- Leaves the innermost loop, if there is one. -/
def leaveLoop : Pass Unit := do
  match (← get).loops with
  | [] => throw .noLoopToLeave
  | _ :: loops => modify fun state => { state with loops }

/-- `GenerationContext.reset`: drops all that was gathered. The warnings were given
    already and stay. -/
def reset : Pass Unit :=
  modify fun state => { warnings := state.warnings }

/-- `variable_name`, `procedure_name` and `developer_variable_name`: the identifier
    of a logical name. -/
def nameOf (policy : NamePolicy) (kind : NameKind) (name : String) : Pass String := do
  let state ← get
  let (text, names) := state.names.get policy name kind
  set { state with names }
  return text

/-- `distinct_name`: an identifier of its own. -/
def freshName (policy : NamePolicy) (kind : NameKind) (base : String) : Pass String := do
  let state ← get
  let (text, names) := state.names.distinct policy base kind
  set { state with names }
  return text

/-- `provide_function`: the function name of a helper, whose text is set at the first
    request. -/
def helper (policy : NamePolicy) (unit key template : String) : Pass String := do
  let state ← get
  let (name, names, definitions) := state.definitions.provide policy state.names key template unit
  set { state with names, definitions }
  return name

/-- `add_definition`: sets a definition. -/
def define (key code : String) : Pass Unit :=
  modify fun state => { state with definitions := state.definitions.add key code }

/-- `mark_continue`: notes that the innermost loop has a jump to its next round. -/
def markContinue : Pass Unit :=
  modify fun state =>
    match state.loops with
    | [] => state
    | loop :: _ => { state with continued := loop :: state.continued }

/-- Notes a warning. -/
def warn (warning : Warning) : Pass Unit :=
  modify fun state => { state with warnings := state.warnings ++ [warning] }

end Pass

end BlockScript
