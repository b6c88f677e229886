import BlockScript.Failure
import BlockScript.Graph.Basic
import BlockScript.Names
import BlockScript.Tier

/-!
# Recipes

A rule for a block says what to ask for and what to write. That is its recipe:
a tree of requests, each of which goes on with its answer, that ends in a result
or in a failure. The recipes know nothing of how requests are answered; laws
about answering hold for every recipe by induction on the tree.
-/

namespace BlockScript

/-- A jump outside any loop, which `_controls_flow_statements` answers but warns of. -/
structure Warning where
  flow : String
  id : String
  deriving DecidableEq, Repr

/-- The text of a warning. -/
def Warning.message (warning : Warning) : String :=
  s!"{warning.flow} block '{warning.id}' is outside any loop"

/-- What a rule can ask for while it renders its block. -/
inductive Request where
  /-- `value_to_code`: the text of a value socket, for a position of the given tier. -/
  | value (socket : String) (tier : Tier) (strict : Bool)
  /-- `statement_to_code`: the indented text of a statement socket, inside the loop that
      the block is if `loop` is set. -/
  | body (socket : String) (loop : Bool)
  /-- `variable_name`, `procedure_name` and `developer_variable_name`: the identifier of
      a logical name. -/
  | name (kind : NameKind) (name : String)
  /-- `distinct_name`: an identifier of its own. -/
  | freshName (kind : NameKind) (base : String)
  /-- `provide_function`: the function name of a helper. -/
  | helper (key template : String)
  /-- `add_definition`: a definition to be set. -/
  | define (key code : String)
  /-- `enclosing_loop`: the innermost loop being rendered. -/
  | enclosingLoop
  /-- `mark_continue`: a note that the innermost loop has a jump to its next round. -/
  | markContinue
  /-- `loop_continued`: whether a loop has a jump to its next round. -/
  | loopContinued (loop : Ref)
  /-- A warning to be noted. -/
  | warn (warning : Warning)

/-- The type of the answer to a request. -/
@[reducible] def Request.Answer : Request → Type
  | .value .. => String
  | .body .. => String
  | .name .. => String
  | .freshName .. => String
  | .helper .. => String
  | .define .. => Unit
  | .enclosingLoop => Option Ref
  | .markContinue => Unit
  | .loopContinued _ => Bool
  | .warn _ => Unit

/-- Requests, each followed by what to do with its answer. -/
inductive Recipe (α : Type) where
  | done (result : α)
  | fail (failure : Failure)
  | ask (request : Request) (next : request.Answer → Recipe α)

namespace Recipe

variable {α β : Type}

/-- Goes on with the result of a recipe. -/
def andThen : Recipe α → (α → Recipe β) → Recipe β
  | .done result, f => f result
  | .fail failure, _ => .fail failure
  | .ask request next, f => .ask request fun answer => andThen (next answer) f

instance : Monad Recipe where
  pure := .done
  bind := andThen

/-- A result or failure that needs no request. -/
def ofExcept : Except Failure α → Recipe α
  | .ok result => .done result
  | .error failure => .fail failure

/-! ## Single requests -/

/-- `value_to_code`: the text of a value socket; no text if nothing is plugged in. -/
def value (socket : String) (tier : Tier) (strict : Bool) : Recipe String :=
  .ask (.value socket tier strict) .done

/-- `value_to_code` with a fallback: the text of a value socket, or the fallback if it
    has none. -/
def valueOr (socket : String) (tier : Tier) (strict : Bool) (fallback : String) :
    Recipe String := do
  let code ← value socket tier strict
  return if code = "" then fallback else code

/-- `statement_to_code`: the indented text of a statement socket. -/
def body (socket : String) : Recipe String :=
  .ask (.body socket false) .done

/-- `statement_to_code` within `loop_scope`: the indented text of a statement socket,
    inside the loop that the block is. -/
def loopBody (socket : String) : Recipe String :=
  .ask (.body socket true) .done

/-- The identifier of a logical name that a field or a list holds. -/
def nameOf (kind : NameKind) (name : Json) : Recipe String :=
  match name with
  | .str name => .ask (.name kind name) .done
  | other => .fail (.nameNotText other.kindName)

/-- `distinct_name`: an identifier of its own. -/
def freshName (kind : NameKind) (base : String) : Recipe String :=
  .ask (.freshName kind base) .done

/-- `provide_function`: the function name of a helper. -/
def helper (key template : String) : Recipe String :=
  .ask (.helper key template) .done

/-- `add_definition`: sets a definition. -/
def define (key code : String) : Recipe Unit :=
  .ask (.define key code) .done

/-- `enclosing_loop`: the innermost loop being rendered. -/
def enclosingLoop : Recipe (Option Ref) :=
  .ask .enclosingLoop .done

/-- `mark_continue`: notes that the innermost loop has a jump to its next round. -/
def markContinue : Recipe Unit :=
  .ask .markContinue .done

/-- `loop_continued`: whether a loop has a jump to its next round. -/
def loopContinued (loop : Ref) : Recipe Bool :=
  .ask (.loopContinued loop) .done

/-- Notes a warning. -/
def warn (warning : Warning) : Recipe Unit :=
  .ask (.warn warning) .done

/-! ## Sequences -/

/-- The results of one recipe for every item, in order. -/
def forEach {ι : Type} (f : ι → Recipe α) : List ι → Recipe (List α)
  | [] => .done []
  | item :: items => do
    let result ← f item
    let results ← forEach f items
    return result :: results

/-- `IMPORT_DEFINITION_PREFIX`: every definition key of an import starts with this. -/
def importKey : String := "import_"

/-- `_import` of several statements: sets the definitions of imports. -/
def importAll : List String → Recipe Unit
  | [] => .done ()
  | statement :: statements => do
    define (importKey ++ statement) statement
    importAll statements

end Recipe

end BlockScript
