import BlockScript.Proofs.Acceptance.Check
import BlockScript.Proofs.Pass.Entries
import BlockScript.Proofs.Recipe.Straight

/-!
# What recipes ask for

A recipe asks for the sockets of its block that the check of workspaces looks at, and for
the identifiers of the names that its block has: of the variable in its field, and if it
defines a procedure, of its parameters and of the variables that are named inside it. It
defines imports, helpers of the language and procedures, and notes a jump to the next
round only for a block that is one.

Results:

* `BlockForm.recipe_asks`: all requests of the recipe of a form.
-/

namespace BlockScript

open BlockScript.Text

/-- Whether a block of a form has the name of a variable. -/
inductive Scene.HasVariable (scene : Scene) (ref : Ref) (block : Block Ref) (form : BlockForm)
    (name : String) : Prop where
  | field (h : block.textField? Workspace.variableField = some name)
  | parameter (hform : form = .procedureDefinition) (listed : List Json)
    (hparams : block.params = .ok listed) (h : .str name ∈ listed)
  | inside (hform : form = .procedureDefinition) (h : name ∈ Recipe.namedInside scene ref)

/-- Whether blocks of a form hold statements. -/
def BlockForm.holdsBodies : BlockForm → Bool
  | .conditional | .whileLoop | .repeatLoop | .procedureDefinition => true
  | _ => false

/-- Whether a request is one that the recipe for a block of a form can come to. -/
def Request.AskedFor (scene : Scene) (ref : Ref) (block : Block Ref) (form : BlockForm) :
    Request → Prop
  | .value socket _ _ => ∀ sockets, form.sockets? block = some sockets → socket ∈ sockets.values
  | .body socket loop => (form.holdsBodies = true ∧ (loop = true → socket = "DO")) ∧
      ∀ sockets, form.sockets? block = some sockets → socket ∈ sockets.bodies
  | .name .variable text => scene.HasVariable ref block form text
  | .name .developerVariable text => text ∈ scene.workspace.developerVariables
  | .define key _ => startsWith Recipe.importKey key = true ∨ isProcedureKey key = true
  | .helper key _ => scene.dialect.HasHelper key
  | .markContinue => form = .flow ∧ chosen FlowStatement (block.field "FLOW") = .ok .continue
  | _ => True

namespace Recipe

variable {α β : Type} {ask : Request → Prop} {fail : Failure → Prop}

/-! ## Parts of recipes -/

/-- A result that needs no request, and what is done with it. -/
theorem Only.ofExcept_bind {x : Except Failure α} {next : α → Recipe β}
    (h : ∀ a, x = .ok a → (next a).Only ask fun _ => True) :
    (ofExcept x >>= next).Only ask fun _ => True := by
  cases x with
  | ok a => exact h a rfl
  | error failure => trivial

theorem only_forEach_of_mem {ι : Type} {f : ι → Recipe α} {items : List ι}
    (h : ∀ item ∈ items, (f item).Only ask fail) : (forEach f items).Only ask fail := by
  induction items with
  | nil => trivial
  | cons item items ih =>
    exact (h item List.mem_cons_self).bind fun _ =>
      (ih fun other hother => h other (List.mem_cons_of_mem _ hother)).bind fun _ => trivial

theorem only_valueOr {socket fallback : String} {tier : Tier} {strict : Bool}
    (h : ask (.value socket tier strict)) : (valueOr socket tier strict fallback).Only ask fail :=
  Only.bind (only_ask h) fun _ => trivial

variable {scene : Scene} {ref : Ref} {block : Block Ref} {form : BlockForm}

/-- Whether a recipe asks for no more than a block of a form has. -/
abbrev AsksFor (scene : Scene) (ref : Ref) (block : Block Ref) (form : BlockForm)
    (recipe : Recipe α) : Prop :=
  recipe.Only (Request.AskedFor scene ref block form) fun _ => True

theorem asksFor_importAll (statements : List String) :
    AsksFor scene ref block form (importAll statements) := by
  induction statements with
  | nil => trivial
  | cons statement statements ih =>
    have hdefine : AsksFor scene ref block form (define (importKey ++ statement) statement) :=
      only_ask (.inl (startsWith_importKey statement))
    exact hdefine.bind fun _ => ih

theorem asksFor_calleeName {callee : Callee}
    (h : ∀ helper, callee = .helper helper → scene.dialect.HasHelper helper.key) :
    AsksFor scene ref block form (calleeName callee) := by
  cases callee with
  | function name imports => exact (asksFor_importAll imports).bind fun _ => trivial
  | helper helper =>
    exact (asksFor_importAll helper.imports).bind fun _ => only_ask (h helper rfl)

/-- A value socket that the check looks at. -/
theorem asksFor_valueOr {socket fallback : String} {tier : Tier} {strict : Bool}
    (h : ∀ sockets, form.sockets? block = some sockets → socket ∈ sockets.values) :
    AsksFor scene ref block form (valueOr socket tier strict fallback) :=
  only_valueOr h

/-- The variable in the field of a block. -/
theorem asksFor_variable :
    AsksFor scene ref block form (nameOf .variable (block.field Workspace.variableField)) := by
  refine only_nameOf fun text h => .field ?_
  unfold Block.field at h
  unfold Block.textField?
  cases hfield : block.field? Workspace.variableField with
  | none =>
    rw [hfield] at h
    cases h
  | some value =>
    rw [hfield] at h
    cases value <;> cases h
    rfl

/-- The name of a procedure. -/
theorem asksFor_procedure (name : Json) : AsksFor scene ref block form (nameOf .procedure name) :=
  only_nameOf fun _ _ => trivial

/-! ## Whole recipes -/

variable (scene ref block)

theorem asksFor_conditional : AsksFor scene ref block .conditional (conditional scene block) := by
  have harm : ∀ number ∈ arms block, AsksFor scene ref block .conditional (arm scene block number) := by
    intro number hnumber
    refine (asksFor_valueOr fun sockets h => ?_).bind fun _ =>
      (only_ask ⟨⟨rfl, nofun⟩, fun sockets h => ?_⟩).bind fun _ => trivial
    all_goals
      cases h
      simp [List.mem_map_of_mem hnumber]
  have hotherwise : AsksFor scene ref block .conditional (otherwise scene block) := by
    unfold otherwise
    split
    · refine (only_ask ⟨⟨rfl, nofun⟩, fun sockets h => ?_⟩).bind fun _ => trivial
      cases h
      simp
    · trivial
  exact (only_forEach_of_mem harm).bind fun _ => hotherwise.bind fun _ => trivial

theorem asksFor_loopStatements (hform : form.holdsBodies = true)
    (h : ∀ sockets, form.sockets? block = some sockets → "DO" ∈ sockets.bodies) :
    AsksFor scene ref block form (loopStatements scene ref block) := by
  refine (only_ask ⟨⟨hform, fun _ => rfl⟩, h⟩).bind fun statements => Only.ofExcept_bind fun statements _ => ?_
  split
  · trivial
  · exact (only_ask trivial).bind fun _ => trivial

theorem asksFor_whileLoop : AsksFor scene ref block .whileLoop (whileLoop scene ref block) := by
  have hsockets : ∀ sockets, BlockForm.whileLoop.sockets? block = some sockets →
      sockets = ⟨["BOOL"], ["DO"]⟩ := by
    simp only [BlockForm.sockets?, Option.ite_none_right_eq_some]
    rintro sockets ⟨-, ⟨⟩⟩
    rfl
  have hstatements : AsksFor scene ref block .whileLoop (loopStatements scene ref block) :=
    asksFor_loopStatements scene ref block rfl fun sockets h => by simp [hsockets sockets h]
  refine Only.ofExcept_bind fun mode _ => ?_
  cases mode with
  | «until» | «while» =>
    exact (asksFor_valueOr fun sockets h => by simp [hsockets sockets h]).bind fun _ =>
      hstatements.bind fun _ => trivial

theorem asksFor_repeatLoop : AsksFor scene ref block .repeatLoop (repeatLoop scene ref block) := by
  have hcount : AsksFor scene ref block .repeatLoop (repeatCount block) := by
    unfold repeatCount
    split
    · exact Only.ofExcept_bind fun _ _ => trivial
    · next hnone =>
      refine asksFor_valueOr fun sockets h => ?_
      simp only [BlockForm.sockets?, hnone] at h
      cases h
      simp
  have hbody : ∀ sockets, BlockForm.repeatLoop.sockets? block = some sockets →
      "DO" ∈ sockets.bodies := by
    intro sockets h
    dsimp only [BlockForm.sockets?] at h
    split at h
    · obtain ⟨-, heq⟩ := Option.ite_none_right_eq_some.mp h
      cases heq
      simp
    · cases h
      simp
  refine hcount.bind fun count => (asksFor_loopStatements scene ref block rfl hbody).bind
    fun statements => (only_ask trivial).bind fun counter => ?_
  split
  · trivial
  · split
    · trivial
    · exact (only_ask trivial).bind fun _ => trivial

theorem asksFor_flow : AsksFor scene ref block .flow (flow scene block) := by
  refine Only.ofExcept_bind fun jump hjump => ?_
  dsimp only
  split
  · next hmark =>
    have hcontinue : jump = .continue := by simp_all
    refine ⟨⟨rfl, hcontinue ▸ hjump⟩, fun _ => ⟨trivial, fun loop => ?_⟩⟩
    cases loop with
    | none => exact ⟨trivial, fun _ => trivial⟩
    | some loop => exact Only.ofExcept_bind fun _ _ => trivial
  · refine ⟨trivial, fun loop => ?_⟩
    cases loop with
    | none => exact ⟨trivial, fun _ => trivial⟩
    | some loop => exact Only.ofExcept_bind fun _ _ => trivial

theorem asksFor_property : AsksFor scene ref block .property (property scene.dialect block) := by
  refine Only.ofExcept_bind fun property hproperty => ?_
  have hsockets : ∀ sockets, BlockForm.property.sockets? block = some sockets →
      "NUMBER_TO_CHECK" ∈ sockets.values ∧
        (property = .divisibleBy → "DIVISOR" ∈ sockets.values) := by
    intro sockets h
    simp only [BlockForm.sockets?, hproperty] at h
    split at h
    · cases h
      simp
    · next hother =>
      cases h
      simp_all
    · cases h
  split
  · exact (asksFor_valueOr fun sockets h => (hsockets sockets h).1).bind fun _ =>
      (asksFor_importAll _).bind fun _ => (only_ask (.inl rfl)).bind fun _ => trivial
  · refine (asksFor_valueOr fun sockets h => (hsockets sockets h).1).bind fun _ =>
      (asksFor_valueOr fun sockets h => (hsockets sockets h).2 rfl).bind fun _ => ?_
    split <;> trivial
  · exact (asksFor_valueOr fun sockets h => (hsockets sockets h).1).bind fun _ => trivial

theorem asksFor_randomInteger :
    AsksFor scene ref block .randomInteger (randomInteger scene.dialect) := by
  have hbound : ∀ socket ∈ ["FROM", "TO"], ∀ fallback,
      AsksFor scene ref block .randomInteger (valueOr socket .none false fallback) := by
    intro socket hsocket fallback
    refine asksFor_valueOr fun sockets h => ?_
    cases h
    exact hsocket
  have hlow := hbound "FROM" (by simp) "0"
  have hhigh := hbound "TO" (by simp) "0"
  unfold randomInteger
  cases hcallee : scene.dialect.randomInteger with
  | function name imports =>
    exact (asksFor_importAll imports).bind fun _ => hlow.bind fun _ => hhigh.bind fun _ => trivial
  | helper helper =>
    have hname : AsksFor scene ref block .randomInteger (calleeName (.helper helper)) := by
      refine asksFor_calleeName fun other h => ?_
      cases h
      exact .inr (.inr ⟨helper, hcallee, rfl⟩)
    exact hlow.bind fun _ => hhigh.bind fun _ => hname.bind fun _ => trivial

theorem asksFor_onList : AsksFor scene ref block .onList (onList scene.dialect block) := by
  refine Only.ofExcept_bind fun op _ => ?_
  have hcallee : AsksFor scene ref block .onList (calleeName (scene.dialect.onList op)) :=
    asksFor_calleeName fun helper h => .inr (.inl ⟨op, helper, h, rfl⟩)
  have hlist : AsksFor scene ref block .onList
      (valueOr "LIST" .none false scene.dialect.emptyList) :=
    asksFor_valueOr (by simp [BlockForm.sockets?])
  dsimp only
  split
  · exact hcallee.bind fun _ => hlist.bind fun _ => trivial
  · exact hlist.bind fun _ => hcallee.bind fun _ => trivial

theorem asksFor_call {form : BlockForm}
    (hform : form = .procedureCall ∨ form = .procedureCallStatement) :
    AsksFor scene ref block form (call scene block) := by
  refine (asksFor_procedure _).bind fun name => Only.ofExcept_bind fun listed hlisted => ?_
  refine (only_forEach_of_mem fun i hi => asksFor_valueOr fun sockets h => ?_).bind fun _ => trivial
  have hvalues : sockets.values = (List.range listed.length).map fun i => "ARG" ++ toString i := by
    rcases hform with rfl | rfl
    all_goals
      simp only [BlockForm.sockets?, hlisted, Option.ite_none_right_eq_some] at h
      obtain ⟨-, heq⟩ := h
      cases heq
      rfl
  rw [hvalues]
  exact List.mem_map_of_mem hi

omit scene ref block in
/-- New names are among all names, and none of them is known. -/
theorem of_mem_newNames {known names : List String} {name : String}
    (h : name ∈ newNames known names) : name ∈ names ∧ lower name ∉ known := by
  induction names generalizing known with
  | nil => cases h
  | cons first names ih =>
    rw [newNames] at h
    split at h
    · exact (ih h).imp_left (List.mem_cons_of_mem _)
    · next hnew =>
      rcases List.mem_cons.mp h with rfl | hrest
      · exact ⟨List.mem_cons_self, by simpa using hnew⟩
      · obtain ⟨hmem, hunknown⟩ := ih hrest
        exact ⟨List.mem_cons_of_mem _ hmem, fun hknown => hunknown (List.mem_cons_of_mem _ hknown)⟩

theorem asksFor_outerDeclaration :
    AsksFor scene ref block .procedureDefinition (outerDeclaration scene ref block) := by
  unfold outerDeclaration
  split
  · trivial
  · refine Only.ofExcept_bind fun known _ => ?_
    refine (only_forEach_of_mem fun name hname => only_nameOf fun text htext => ?_).bind
      fun named => ?_
    · cases htext
      exact .inside rfl (of_mem_newNames hname).1
    refine (only_forEach_of_mem fun name hname => only_nameOf fun text htext => ?_).bind
      fun developer => ?_
    · cases htext
      exact hname
    split <;> trivial

theorem asksFor_procedureDefinition :
    AsksFor scene ref block .procedureDefinition (procedureDefinition scene ref block) := by
  refine (asksFor_procedure _).bind fun name =>
    (asksFor_outerDeclaration scene ref block).bind fun outer => ?_
  have hsockets : ∀ sockets, BlockForm.procedureDefinition.sockets? block = some sockets →
      sockets = ⟨["RETURN"], ["STACK"]⟩ := by
    intro sockets h
    dsimp only [BlockForm.sockets?] at h
    split at h
    · obtain ⟨-, heq⟩ := Option.ite_none_right_eq_some.mp h
      cases heq
      rfl
    · cases h
  refine (only_ask ⟨⟨rfl, nofun⟩, fun sockets h => by simp [hsockets sockets h]⟩).bind fun statements =>
    (only_ask fun sockets h => by simp [hsockets sockets h]).bind fun result =>
      Only.ofExcept_bind fun listed hlisted => ?_
  refine (only_forEach_of_mem fun name hname => only_nameOf fun text htext => ?_).bind
    fun args => ⟨.inr (isProcedureKey_procedureKey _), fun _ => trivial⟩
  have hparams : block.params = .ok listed := by
    unfold params at hlisted
    split at hlisted
    · next hfound => cases hlisted; exact hfound
    · cases hlisted
  exact .parameter rfl listed hparams (htext ▸ hname)

end Recipe

open Recipe in
/-- All requests of the recipe of a form. -/
theorem BlockForm.recipe_asks (scene : Scene) (ref : Ref) (block : Block Ref) (form : BlockForm) :
    AsksFor scene ref block form (form.recipe scene ref block) := by
  cases form with
  | conditional => exact asksFor_conditional scene ref block
  | whileLoop => exact asksFor_whileLoop scene ref block
  | repeatLoop => exact asksFor_repeatLoop scene ref block
  | flow => exact asksFor_flow scene ref block
  | property => exact asksFor_property scene ref block
  | onList => exact asksFor_onList scene ref block
  | randomInteger => exact asksFor_randomInteger scene ref block
  | procedureDefinition => exact asksFor_procedureDefinition scene ref block
  | procedureCall => exact (asksFor_call scene ref block (.inl rfl)).bind fun _ => trivial
  | procedureCallStatement => exact (asksFor_call scene ref block (.inr rfl)).bind fun _ => trivial
  | _ =>
    -- The other recipes look at sockets that depend on no more than one field.
    repeat' first
      | exact trivial
      | exact asksFor_valueOr (by simp [BlockForm.sockets?])
      | exact only_ask (by simp [Request.AskedFor, BlockForm.sockets?])
      | exact asksFor_variable
      | exact asksFor_importAll _
      | exact only_ofExcept fun _ _ => trivial
      | refine Only.bind ?_ fun _ => ?_
      | split

end BlockScript
