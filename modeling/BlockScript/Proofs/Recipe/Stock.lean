import BlockScript.Proofs.Names.Capture
import BlockScript.Proofs.Recipe.Asks

/-!
# What recipes take from their language

The imports and helpers that recipes set come from the tables of the language, each under
the key that belongs to it. The definition of a procedure is set last by its recipe, under
the name that its recipe asks for first.

Results:

* `BlockForm.recipe_stocked`: no other recipe than that of a procedure's definition sets
  anything that the language does not have.
* `Recipe.procedureDefinition_eq`: the parts of the recipe for a definition.
-/

namespace BlockScript

open BlockScript.Text

/-- Whether a language has what a request sets, if it sets something. -/
def Request.Stocked (dialect : Dialect) : Request → Prop
  | .define key code => ∃ statement ∈ dialect.importTexts,
      key = Recipe.importKey ++ statement ∧ code = statement
  | .helper key template => ∃ helper ∈ dialect.helpers,
      key = helper.key ∧ template = helper.template
  | _ => True

namespace Dialect

variable {dialect : Dialect} {statement : String}

theorem mem_importTexts_single {op : SingleOp} (h : statement ∈ (dialect.single op).imports) :
    statement ∈ dialect.importTexts := by
  have hop : op ∈ (Choice.members : List SingleOp) := by cases op <;> decide
  simp only [importTexts, List.mem_append, List.mem_flatMap]
  exact .inl (.inl (.inl (.inr ⟨op, hop, h⟩)))

theorem mem_importTexts_constant {name : MathConstant}
    (h : statement ∈ (dialect.constant name).imports) : statement ∈ dialect.importTexts := by
  have hname : name ∈ (Choice.members : List MathConstant) := by cases name <;> decide
  simp only [importTexts, List.mem_append, List.mem_flatMap]
  exact .inl (.inl (.inr ⟨name, hname, h⟩))

theorem mem_importTexts_helper {helper : Helper} (hhelper : helper ∈ dialect.helpers)
    (h : statement ∈ helper.imports) : statement ∈ dialect.importTexts := by
  simp only [importTexts, List.mem_append, List.mem_flatMap]
  exact .inl (.inr ⟨helper, hhelper, h⟩)

theorem mem_importTexts_function {name : String} {imports : List String}
    (hcallee : .function name imports ∈ dialect.callees) (h : statement ∈ imports) :
    statement ∈ dialect.importTexts := by
  simp only [importTexts, List.mem_append, List.mem_flatMap]
  exact .inr ⟨_, List.mem_filterMap.mpr ⟨_, hcallee, rfl⟩, h⟩

theorem mem_helpers {helper : Helper} (h : .helper helper ∈ dialect.callees) :
    helper ∈ dialect.helpers :=
  List.mem_cons_of_mem _ (List.mem_filterMap.mpr ⟨_, h, rfl⟩)

theorem onList_mem_callees (op : ListOp) : dialect.onList op ∈ dialect.callees := by
  have hop : op ∈ (Choice.members : List ListOp) := by cases op <;> decide
  exact List.mem_append_left _ (List.mem_map_of_mem hop)

theorem randomInteger_mem_callees : dialect.randomInteger ∈ dialect.callees :=
  List.mem_append_right _ (List.mem_singleton_self _)

end Dialect

namespace Recipe

variable {α β : Type}

/-- Whether a language has what a recipe sets. -/
abbrev Stocked (dialect : Dialect) (recipe : Recipe α) : Prop :=
  recipe.Only (Request.Stocked dialect) fun _ => True

variable {scene : Scene} {dialect : Dialect} {ref : Ref} {block : Block Ref}

/-! ## Parts of recipes -/

theorem stocked_ofExcept (x : Except Failure α) : (ofExcept x).Stocked dialect :=
  only_ofExcept fun _ _ => trivial

theorem stocked_valueOr (socket : String) (tier : Tier) (strict : Bool) (fallback : String) :
    (valueOr socket tier strict fallback).Stocked dialect :=
  only_valueOr trivial

theorem stocked_nameOf (kind : NameKind) (name : Json) : (nameOf kind name).Stocked dialect :=
  only_nameOf fun _ _ => trivial

theorem stocked_importAll {statements : List String}
    (h : ∀ statement ∈ statements, statement ∈ dialect.importTexts) :
    (importAll statements).Stocked dialect := by
  induction statements with
  | nil => trivial
  | cons statement statements ih =>
    have hdefine : (define (importKey ++ statement) statement).Stocked dialect :=
      only_ask ⟨statement, h statement List.mem_cons_self, rfl, rfl⟩
    exact hdefine.bind fun _ => ih fun other hother => h other (List.mem_cons_of_mem _ hother)

theorem stocked_helper {form : Helper} (h : form ∈ dialect.helpers) :
    (helper form.key form.template).Stocked dialect :=
  only_ask ⟨form, h, rfl, rfl⟩

theorem stocked_calleeName {callee : Callee} (h : callee ∈ dialect.callees) :
    (calleeName callee).Stocked dialect := by
  cases callee with
  | function name imports =>
    exact (stocked_importAll fun _ => Dialect.mem_importTexts_function h).bind fun _ => trivial
  | helper form =>
    have hform := Dialect.mem_helpers h
    exact (stocked_importAll fun _ => Dialect.mem_importTexts_helper hform).bind
      fun _ => stocked_helper hform

/-! ## Whole recipes -/

theorem stocked_conditional : (conditional scene block).Stocked dialect := by
  have harm : ∀ number, (arm scene block number).Stocked dialect := fun number =>
    (stocked_valueOr _ _ _ _).bind fun _ => (only_ask trivial).bind fun _ => trivial
  have hotherwise : (otherwise scene block).Stocked dialect := by
    unfold otherwise
    split
    · exact (only_ask trivial).bind fun _ => trivial
    · trivial
  exact (only_forEach _ harm).bind fun _ => hotherwise.bind fun _ => trivial

theorem stocked_loopStatements : (loopStatements scene ref block).Stocked dialect := by
  refine (only_ask trivial).bind fun statements => (stocked_ofExcept _).bind fun statements => ?_
  split
  · trivial
  · exact (only_ask trivial).bind fun _ => trivial

theorem stocked_whileLoop : (whileLoop scene ref block).Stocked dialect := by
  refine (stocked_ofExcept _).bind fun mode => ?_
  cases mode with
  | «until» | «while» =>
    exact (stocked_valueOr _ _ _ _).bind fun _ => stocked_loopStatements.bind fun _ => trivial

theorem stocked_repeatLoop : (repeatLoop scene ref block).Stocked dialect := by
  have hcount : (repeatCount block).Stocked dialect := by
    unfold repeatCount
    split
    · exact (stocked_ofExcept _).bind fun _ => trivial
    · exact stocked_valueOr _ _ _ _
  refine hcount.bind fun count => stocked_loopStatements.bind fun statements =>
    (only_ask trivial).bind fun counter => ?_
  split
  · trivial
  · split
    · trivial
    · exact (only_ask trivial).bind fun _ => trivial

theorem stocked_property : (property dialect block).Stocked dialect := by
  refine (stocked_ofExcept _).bind fun property => ?_
  have hprime : dialect.primeHelper ∈ dialect.helpers := List.mem_cons_self
  split
  · exact (stocked_valueOr _ _ _ _).bind fun _ =>
      (stocked_importAll fun _ => Dialect.mem_importTexts_helper hprime).bind fun _ =>
        (stocked_helper hprime).bind fun _ => trivial
  · refine (stocked_valueOr _ _ _ _).bind fun _ => (stocked_valueOr _ _ _ _).bind fun _ => ?_
    split <;> trivial
  · exact (stocked_valueOr _ _ _ _).bind fun _ => trivial

theorem stocked_single : (single dialect block).Stocked dialect := by
  refine (stocked_ofExcept _).bind fun op => ?_
  split
  · exact (stocked_valueOr _ _ _ _).bind fun _ => trivial
  · exact (stocked_valueOr _ _ _ _).bind fun _ =>
      (stocked_importAll fun _ => Dialect.mem_importTexts_single).bind fun _ => trivial

theorem stocked_onList : (onList dialect block).Stocked dialect := by
  refine (stocked_ofExcept _).bind fun op => ?_
  have hcallee : (calleeName (dialect.onList op)).Stocked dialect :=
    stocked_calleeName (Dialect.onList_mem_callees op)
  dsimp only
  split
  · exact hcallee.bind fun _ => (stocked_valueOr _ _ _ _).bind fun _ => trivial
  · exact (stocked_valueOr _ _ _ _).bind fun _ => hcallee.bind fun _ => trivial

theorem stocked_randomInteger : (randomInteger dialect).Stocked dialect := by
  have hcallee : (calleeName dialect.randomInteger).Stocked dialect :=
    stocked_calleeName Dialect.randomInteger_mem_callees
  unfold randomInteger
  cases heq : dialect.randomInteger with
  | function name imports =>
    have himports : (importAll imports).Stocked dialect :=
      stocked_importAll fun _ => Dialect.mem_importTexts_function
        (heq ▸ Dialect.randomInteger_mem_callees)
    exact himports.bind fun _ => (stocked_valueOr _ _ _ _).bind fun _ =>
      (stocked_valueOr _ _ _ _).bind fun _ => trivial
  | helper form =>
    rw [heq] at hcallee
    exact (stocked_valueOr _ _ _ _).bind fun _ => (stocked_valueOr _ _ _ _).bind fun _ =>
      hcallee.bind fun _ => trivial

theorem stocked_change : (change dialect block).Stocked dialect := by
  have himports : (importAll dialect.changeImports).Stocked dialect :=
    stocked_importAll fun statement hstatement => by simp [Dialect.importTexts, hstatement]
  exact himports.bind fun _ => (stocked_valueOr _ _ _ _).bind fun _ =>
    (stocked_nameOf _ _).bind fun _ => trivial

theorem stocked_flow : (flow scene block).Stocked dialect := by
  refine (stocked_ofExcept _).bind fun jump => ?_
  dsimp only
  split
  · refine ⟨trivial, fun _ => ⟨trivial, fun loop => ?_⟩⟩
    cases loop with
    | none => exact ⟨trivial, fun _ => trivial⟩
    | some loop => exact (stocked_ofExcept _).bind fun _ => trivial
  · refine ⟨trivial, fun loop => ?_⟩
    cases loop with
    | none => exact ⟨trivial, fun _ => trivial⟩
    | some loop => exact (stocked_ofExcept _).bind fun _ => trivial

theorem stocked_call : (call scene block).Stocked dialect :=
  (stocked_nameOf _ _).bind fun _ => (stocked_ofExcept _).bind fun _ =>
    (only_forEach _ fun _ => stocked_valueOr _ _ _ _).bind fun _ => trivial

theorem stocked_conditionalReturn : (conditionalReturn scene block).Stocked dialect := by
  refine (stocked_valueOr _ _ _ _).bind fun condition => ?_
  dsimp only
  split
  · exact (stocked_valueOr _ _ _ _).bind fun _ => trivial
  · trivial

/-! ## The definition of a procedure -/

variable (scene ref block)

/-- The text of a procedure under a name. -/
def procedureText (name : String) : Recipe String := do
  let outer ← outerDeclaration scene ref block
  let hooks := scene.indented (scene.startHook block ++ scene.endHook block)
  let trap := scene.injectIndented scene.config.loopTrap block
  let statements ← body "STACK"
  let result ← value "RETURN" .none false
  let revisited := if statements ≠ "" && result ≠ "" then hooks else ""
  let last := if result = "" then "" else returnStatement scene result
  let statements :=
    if result = "" && hooks = "" && trap = "" && outer = "" then scene.filled statements
    else statements
  let params ← ofExcept (params block)
  let args ← forEach (nameOf .variable) params
  return scene.commentLines ref ++ (scene.dialect.procedureHeader name (joinWith ", " args) ++
    outer ++ hooks ++ trap ++ statements ++ revisited ++ last ++ scene.dialect.procedureEnd)

theorem bind_assoc {γ : Type} (recipe : Recipe α) (f : α → Recipe β) (g : β → Recipe γ) :
    recipe >>= f >>= g = recipe >>= fun a => f a >>= g := by
  show andThen (andThen recipe f) g = andThen recipe fun a => andThen (f a) g
  induction recipe with
  | done result => rfl
  | fail failure => rfl
  | ask request next ih => exact congrArg (Recipe.ask request) (funext ih)

/-- A definition asks for its name, then for all that its text is made of, and is set
    last. -/
theorem procedureDefinition_eq : procedureDefinition scene ref block =
    nameOf .procedure (block.field "NAME") >>= fun name =>
      procedureText scene ref block name >>= fun code =>
        define (procedureKey name) code >>= fun _ => pure .nothing := by
  unfold procedureDefinition procedureText
  simp only [bind_assoc]
  rfl

theorem stocked_procedureText (name : String) :
    (procedureText scene ref block name).Stocked dialect := by
  have houter : (outerDeclaration scene ref block).Stocked dialect := by
    unfold outerDeclaration
    split
    · trivial
    · refine (stocked_ofExcept _).bind fun known => ?_
      refine (only_forEach _ fun _ => stocked_nameOf _ _).bind fun named => ?_
      refine (only_forEach _ fun _ => stocked_nameOf _ _).bind fun developer => ?_
      split <;> trivial
  exact houter.bind fun outer => (only_ask trivial).bind fun statements =>
    (only_ask trivial).bind fun result => (stocked_ofExcept _).bind fun params =>
      (only_forEach _ fun _ => stocked_nameOf _ _).bind fun args => trivial

end Recipe

open Recipe in
/-- No other recipe than that of a procedure's definition sets anything that the language
    does not have. -/
theorem BlockForm.recipe_stocked (scene : Scene) (ref : Ref) (block : Block Ref) {form : BlockForm}
    (h : form ≠ .procedureDefinition) : (form.recipe scene ref block).Stocked scene.dialect := by
  cases form with
  | procedureDefinition => exact absurd rfl h
  | conditional => exact stocked_conditional
  | whileLoop => exact stocked_whileLoop
  | repeatLoop => exact stocked_repeatLoop
  | flow => exact stocked_flow
  | single => exact stocked_single
  | property => exact stocked_property
  | change => exact stocked_change
  | onList => exact stocked_onList
  | randomInteger => exact stocked_randomInteger
  | conditionalReturn => exact stocked_conditionalReturn
  | procedureCall => exact stocked_call.bind fun _ => trivial
  | procedureCallStatement => exact stocked_call.bind fun _ => trivial
  | constant =>
    exact (stocked_ofExcept _).bind fun _ =>
      (stocked_importAll fun _ => Dialect.mem_importTexts_constant).bind fun _ => trivial
  | randomFraction =>
    exact (stocked_importAll fun _ hmem => by simp [Dialect.importTexts, hmem]).bind
      fun _ => trivial
  | arcTangent =>
    exact (stocked_importAll fun _ hmem => by simp [Dialect.importTexts, hmem]).bind fun _ =>
      (stocked_valueOr _ _ _ _).bind fun _ => (stocked_valueOr _ _ _ _).bind fun _ => trivial
  | number =>
    refine (stocked_ofExcept _).bind fun d => ?_
    split <;> trivial
  | _ =>
    -- The other recipes are made of requests for values and names.
    repeat' first
      | exact trivial
      | exact only_ask trivial
      | exact stocked_valueOr _ _ _ _
      | exact stocked_nameOf _ _
      | exact stocked_ofExcept _
      | refine Only.bind ?_ fun _ => ?_

end BlockScript
