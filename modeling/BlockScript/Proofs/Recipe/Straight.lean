import BlockScript.Proofs.Recipe.Modest

/-!
# What is rendered inside loops

Only a loop asks for a body that is rendered inside the loop that the block is. What
any other block holds stands in the loops that the block itself stands in.

Results:

* `BlockForm.recipe_straight`: no recipe of a block other than a loop asks for the body
  of a loop.
-/

namespace BlockScript

/-- Whether blocks of a form are loops. -/
def BlockForm.isLoop : BlockForm → Bool
  | .whileLoop | .repeatLoop => true
  | _ => false

/-- Whether a request is for anything other than the body of a loop. -/
def Request.Straight : Request → Prop
  | .body _ loop => loop = false
  | _ => True

namespace Recipe

variable {α β : Type}

/-- Whether a recipe never asks for the body of a loop. -/
abbrev Straight (recipe : Recipe α) : Prop :=
  recipe.Only Request.Straight fun _ => True

/-- Both of two properties of requests and failures. -/
theorem Only.and {ask ask' : Request → Prop} {fail fail' : Failure → Prop} {recipe : Recipe α}
    (h : recipe.Only ask fail) (h' : recipe.Only ask' fail') :
    recipe.Only (fun request => ask request ∧ ask' request)
      fun failure => fail failure ∧ fail' failure := by
  induction recipe with
  | done result => trivial
  | fail failure => exact ⟨h, h'⟩
  | ask request next ih => exact ⟨⟨h.1, h'.1⟩, fun reply => ih reply (h.2 reply) (h'.2 reply)⟩

/-! ## Parts of recipes -/

theorem only_nameOf {ask : Request → Prop} {kind : NameKind} {name : Json}
    (h : ∀ text, name = .str text → ask (.name kind text)) :
    (nameOf kind name).Only ask fun _ => True := by
  cases name with
  | str text => exact only_ask (h text rfl)
  | _ => trivial

theorem straight_ofExcept (x : Except Failure α) : (ofExcept x).Straight :=
  only_ofExcept fun _ _ => trivial

theorem straight_value (socket : String) (tier : Tier) (strict : Bool) :
    (value socket tier strict).Straight :=
  only_ask trivial

theorem straight_valueOr (socket : String) (tier : Tier) (strict : Bool) (fallback : String) :
    (valueOr socket tier strict fallback).Straight :=
  (straight_value socket tier strict).bind fun _ => trivial

theorem straight_body (socket : String) : (body socket).Straight :=
  only_ask rfl

theorem straight_nameOf (kind : NameKind) (name : Json) : (nameOf kind name).Straight :=
  only_nameOf fun _ _ => trivial

theorem straight_importAll (statements : List String) : (importAll statements).Straight := by
  induction statements with
  | nil => trivial
  | cons statement statements ih =>
    have hdefine : (define (importKey ++ statement) statement).Straight := only_ask trivial
    exact hdefine.bind fun _ => ih

theorem straight_calleeName (callee : Callee) : (calleeName callee).Straight := by
  cases callee with
  | function name imports => exact (straight_importAll imports).bind fun _ => trivial
  | helper form => exact (straight_importAll form.imports).bind fun _ => only_ask trivial

variable (scene : Scene) (ref : Ref) (block : Block Ref)

theorem straight_randomInteger (dialect : Dialect) : (randomInteger dialect).Straight := by
  unfold randomInteger
  cases dialect.randomInteger with
  | function name imports =>
    exact (straight_importAll _).bind fun _ => (straight_valueOr _ _ _ _).bind fun _ =>
      (straight_valueOr _ _ _ _).bind fun _ => trivial
  | helper form =>
    exact (straight_valueOr _ _ _ _).bind fun _ => (straight_valueOr _ _ _ _).bind fun _ =>
      (straight_calleeName _).bind fun _ => trivial

theorem straight_call : (call scene block).Straight :=
  (straight_nameOf _ _).bind fun _ => (straight_ofExcept _).bind fun _ =>
    (only_forEach _ fun _ => straight_valueOr _ _ _ _).bind fun _ => trivial

theorem straight_outerDeclaration : (outerDeclaration scene ref block).Straight := by
  unfold outerDeclaration
  split
  · trivial
  · refine (straight_ofExcept _).bind fun known => ?_
    refine (only_forEach _ fun _ => straight_nameOf _ _).bind fun named => ?_
    refine (only_forEach _ fun _ => straight_nameOf _ _).bind fun developer => ?_
    split <;> trivial

/-! ## Whole recipes -/

theorem straight_conditional : (conditional scene block).Straight := by
  have harm : ∀ number, (arm scene block number).Straight := fun number =>
    (straight_valueOr _ _ _ _).bind fun _ => (straight_body _).bind fun _ => trivial
  have hotherwise : (otherwise scene block).Straight := by
    unfold otherwise
    split
    · exact (straight_body _).bind fun _ => trivial
    · trivial
  exact (only_forEach _ harm).bind fun _ => hotherwise.bind fun _ => trivial

theorem straight_procedureDefinition : (procedureDefinition scene ref block).Straight :=
  (straight_nameOf _ _).bind fun _ => (straight_outerDeclaration scene ref block).bind fun _ =>
    (straight_body _).bind fun _ => (straight_value _ _ _).bind fun _ =>
      (straight_ofExcept _).bind fun _ => (only_forEach _ fun _ => straight_nameOf _ _).bind
        fun _ => ⟨trivial, fun _ => trivial⟩

end Recipe

open Recipe in
/-- No recipe of a block other than a loop asks for the body of a loop. -/
theorem BlockForm.recipe_straight (scene : Scene) (ref : Ref) (block : Block Ref)
    {form : BlockForm} (h : form.isLoop = false) : (form.recipe scene ref block).Straight := by
  cases form with
  | whileLoop | repeatLoop => cases h
  | conditional => exact straight_conditional scene block
  | randomInteger => exact straight_randomInteger scene.dialect
  | procedureDefinition => exact straight_procedureDefinition scene ref block
  | procedureCall => exact (straight_call scene block).bind fun _ => trivial
  | procedureCallStatement => exact (straight_call scene block).bind fun _ => trivial
  | _ =>
    -- The other recipes are made of requests for values, names and definitions.
    repeat' first
      | exact trivial
      | exact straight_ofExcept _
      | exact straight_value _ _ _
      | exact straight_valueOr _ _ _ _
      | exact straight_nameOf _ _
      | exact straight_importAll _
      | exact straight_calleeName _
      | exact ⟨trivial, fun _ => trivial⟩
      | exact only_ask trivial
      | refine Only.bind ?_ fun _ => ?_
      | split

end BlockScript
