import BlockScript.Recipe.Form

/-!
# What recipes do of their own

Most of what a recipe asks for is rendered or named by whoever answers it. Of its
own, a recipe sets definitions and fails. It fails for what is wrong with its own
block: a field with no choice in it, a name that is no text, a number that is too
large. It never fails for the way blocks are plugged into each other. It defines
imports and helpers of the language, and only the definition of a procedure
defines anything else.

Results:

* `BlockForm.recipe_modest`: no other recipe than that of a procedure's definition
  defines more than imports and helpers, and none fails for the structure.
* `Handler.recipe_local`: no recipe of a rule fails for the structure.
-/

namespace BlockScript

open BlockScript.Number BlockScript.Text

/-- Whether a failure is about how blocks are plugged into each other. -/
def Failure.isStructural : Failure → Bool
  | .cyclicChain _ | .containsItself _ | .tooDeep _ => true
  | _ => false

/-- Whether a language has a helper with a key. -/
def Dialect.HasHelper (dialect : Dialect) (key : String) : Prop :=
  key = dialect.primeHelper.key ∨
    (∃ op helper, dialect.onList op = .helper helper ∧ key = helper.key) ∨
    ∃ helper, dialect.randomInteger = .helper helper ∧ key = helper.key

/-- Whether a request defines no more than imports and helpers of a language. -/
def Request.Modest (dialect : Dialect) : Request → Prop
  | .define key _ => startsWith Recipe.importKey key = true
  | .helper key _ => dialect.HasHelper key
  | _ => True

/-- A composed result that is a failure has a part that is one. -/
theorem bind_eq_error {α β : Type} {x : Except Failure α} {f : α → Except Failure β}
    {failure : Failure} (h : (x >>= f) = .error failure) :
    x = .error failure ∨ ∃ a, x = .ok a ∧ f a = .error failure := by
  cases x with
  | ok a => exact .inr ⟨a, rfl, h⟩
  | error other =>
    cases h
    exact .inl rfl

namespace Recipe

variable {α β : Type} {ask ask' : Request → Prop} {fail fail' : Failure → Prop}

/-- Whether every request and every failure of a recipe has a property, whatever the
    answers are. -/
def Only (ask : Request → Prop) (fail : Failure → Prop) : Recipe α → Prop
  | .done _ => True
  | .fail failure => fail failure
  | .ask request next => ask request ∧ ∀ reply, Only ask fail (next reply)

theorem only_true (recipe : Recipe α) : recipe.Only (fun _ => True) fun _ => True := by
  induction recipe with
  | done result => trivial
  | fail failure => trivial
  | ask request next ih => exact ⟨trivial, ih⟩

theorem Only.mono {recipe : Recipe α} (h : recipe.Only ask fail)
    (hask : ∀ request, ask request → ask' request) (hfail : ∀ failure, fail failure → fail' failure) :
    recipe.Only ask' fail' := by
  induction recipe with
  | done result => trivial
  | fail failure => exact hfail failure h
  | ask request next ih => exact ⟨hask request h.1, fun reply => ih reply (h.2 reply)⟩

theorem Only.bind {recipe : Recipe α} {next : α → Recipe β} (h : recipe.Only ask fail)
    (hnext : ∀ result, (next result).Only ask fail) : (recipe >>= next).Only ask fail := by
  show (andThen recipe next).Only ask fail
  induction recipe with
  | done result => exact hnext result
  | fail failure => exact h
  | ask request rest ih => exact ⟨h.1, fun reply => ih reply (h.2 reply)⟩

theorem only_ask {request : Request} (h : ask request) : (Recipe.ask request .done).Only ask fail :=
  ⟨h, fun _ => trivial⟩

theorem only_ofExcept {x : Except Failure α} (h : ∀ failure, x = .error failure → fail failure) :
    (ofExcept x).Only ask fail := by
  cases x with
  | ok a => trivial
  | error failure => exact h failure rfl

theorem only_forEach {ι : Type} {f : ι → Recipe α} (items : List ι)
    (h : ∀ item, (f item).Only ask fail) : (forEach f items).Only ask fail := by
  induction items with
  | nil => trivial
  | cons item items ih => exact (h item).bind fun _ => ih.bind fun _ => trivial

/-! ## Failures -/

theorem isStructural_chosen {α : Type} [Choice α] {value : Json} {failure : Failure}
    (h : chosen α value = .error failure) : failure.isStructural = false := by
  unfold chosen at h
  split at h
  · split at h <;> cases h
    rfl
  · cases h
    rfl

theorem isStructural_doubleOf {value : Json} {failure : Failure}
    (h : doubleOf value = .error failure) : failure.isStructural = false := by
  unfold doubleOf at h
  split at h
  · cases h
  · split at h <;> cases h
    rfl
  · cases h
  · split at h <;> cases h
    rfl
  · cases h
    rfl

theorem isStructural_params {block : Block Ref} {failure : Failure}
    (h : params block = .error failure) : failure.isStructural = false := by
  unfold params at h
  split at h <;> cases h
  rfl

theorem isStructural_lookup {table : RuleTable} {type : String} {failure : Failure}
    (h : table.lookup type = .error failure) : failure.isStructural = false := by
  unfold RuleTable.lookup at h
  split at h <;> cases h
  rfl

theorem isStructural_lowerParams {items : List Json} {failure : Failure}
    (h : lowerParams items = .error failure) : failure.isStructural = false := by
  induction items with
  | nil => cases h
  | cons item items ih =>
    cases item with
    | str name =>
      obtain hrest | ⟨names, -, hdone⟩ := bind_eq_error h
      · exact ih hrest
      · cases hdone
    | _ =>
      cases h
      rfl

theorem isStructural_loopMode {block : Block Ref} {failure : Failure}
    (h : loopMode block = .error failure) : failure.isStructural = false := by
  unfold loopMode at h
  split at h
  · split at h
    · exact isStructural_chosen h
    · cases h
  · cases h

theorem isStructural_addLoopTrap {scene : Scene} {block : Block Ref} {body : String}
    {failure : Failure} (h : scene.addLoopTrap body block = .error failure) :
    failure.isStructural = false := by
  obtain hlookup | ⟨rule, -, hdone⟩ := bind_eq_error h
  · exact isStructural_lookup hlookup
  · cases hdone

theorem isStructural_reopened {scene : Scene} {loop : Ref} {failure : Failure}
    (h : reopened scene loop = .error failure) : failure.isStructural = false := by
  unfold reopened at h
  split at h
  · cases h
  · split at h
    · cases h
    · obtain hlookup | ⟨rule, -, hdone⟩ := bind_eq_error h
      · exact isStructural_lookup hlookup
      · cases hdone

/-! ## Modest recipes -/

/-- Whether a recipe defines no more than imports and helpers of a language, and
    never fails for the structure by itself. -/
abbrev Modest (dialect : Dialect) (recipe : Recipe α) : Prop :=
  recipe.Only (Request.Modest dialect) fun failure => failure.isStructural = false

variable (scene : Scene) (dialect : Dialect) (ref : Ref) (block : Block Ref)

theorem modest_chosen (α : Type) [Choice α] (value : Json) :
    (ofExcept (chosen α value)).Modest dialect :=
  only_ofExcept fun _ => isStructural_chosen

theorem modest_value (socket : String) (tier : Tier) (strict : Bool) :
    (value socket tier strict).Modest dialect :=
  only_ask trivial

theorem modest_valueOr (socket : String) (tier : Tier) (strict : Bool) (fallback : String) :
    (valueOr socket tier strict fallback).Modest dialect :=
  (modest_value dialect socket tier strict).bind fun _ => trivial

theorem modest_nameOf (kind : NameKind) (name : Json) : (nameOf kind name).Modest dialect := by
  cases name with
  | str name => exact only_ask trivial
  | _ => rfl

theorem startsWith_importKey (statement : String) :
    startsWith importKey (importKey ++ statement) = true := by
  rw [startsWith, String.toList_append, List.isPrefixOf_iff_prefix]
  exact List.prefix_append _ _

theorem modest_importAll (statements : List String) : (importAll statements).Modest dialect := by
  induction statements with
  | nil => trivial
  | cons statement statements ih =>
    have hdefine : (define (importKey ++ statement) statement).Modest dialect :=
      only_ask (startsWith_importKey statement)
    exact hdefine.bind fun _ => ih

/-! ### Values -/

theorem modest_logic : (logic dialect block).Modest dialect :=
  (modest_chosen dialect _ _).bind fun _ => (modest_value dialect _ _ _).bind fun _ =>
    (modest_value dialect _ _ _).bind fun _ => trivial

theorem modest_number : (number dialect block).Modest dialect := by
  refine (only_ofExcept fun _ => isStructural_doubleOf).bind fun d => ?_
  split <;> trivial

theorem modest_arithmetic : (arithmetic dialect block).Modest dialect :=
  (modest_chosen dialect _ _).bind fun _ => (modest_valueOr dialect _ _ _ _).bind fun _ =>
    (modest_valueOr dialect _ _ _ _).bind fun _ => trivial

theorem modest_single : (single dialect block).Modest dialect := by
  refine (modest_chosen dialect _ _).bind fun op => ?_
  split
  · exact (modest_valueOr dialect _ _ _ _).bind fun _ => trivial
  · exact (modest_valueOr dialect _ _ _ _).bind fun _ =>
      (modest_importAll dialect _).bind fun _ => trivial

theorem modest_property : (property dialect block).Modest dialect := by
  refine (modest_chosen dialect _ _).bind fun property => ?_
  split
  · refine (modest_valueOr dialect _ _ _ _).bind fun number => ?_
    refine (modest_importAll dialect _).bind fun _ => ?_
    have hhelper : (helper dialect.primeHelper.key dialect.primeHelper.template).Modest dialect :=
      only_ask (.inl rfl)
    exact hhelper.bind fun _ => trivial
  · refine (modest_valueOr dialect _ _ _ _).bind fun number => ?_
    refine (modest_valueOr dialect _ _ _ _).bind fun divisor => ?_
    split <;> trivial
  · exact (modest_valueOr dialect _ _ _ _).bind fun _ => trivial

theorem modest_change : (change dialect block).Modest dialect :=
  (modest_importAll dialect _).bind fun _ => (modest_valueOr dialect _ _ _ _).bind fun _ =>
    (modest_nameOf dialect _ _).bind fun _ => trivial

theorem modest_calleeName {callee : Callee}
    (h : ∀ helper, callee = .helper helper → dialect.HasHelper helper.key) :
    (calleeName callee).Modest dialect := by
  cases callee with
  | function name imports => exact (modest_importAll dialect _).bind fun _ => trivial
  | helper form =>
    exact (modest_importAll dialect _).bind fun _ => only_ask (h form rfl)

theorem modest_onList : (onList dialect block).Modest dialect := by
  refine (modest_chosen dialect _ _).bind fun op => ?_
  have hcallee : (calleeName (dialect.onList op)).Modest dialect :=
    modest_calleeName dialect fun helper h => .inr (.inl ⟨op, helper, h, rfl⟩)
  dsimp only
  split
  · exact hcallee.bind fun _ => (modest_valueOr dialect _ _ _ _).bind fun _ => trivial
  · exact (modest_valueOr dialect _ _ _ _).bind fun _ => hcallee.bind fun _ => trivial

theorem modest_randomInteger : (randomInteger dialect).Modest dialect := by
  unfold randomInteger
  cases hcallee : dialect.randomInteger with
  | function name imports =>
    exact (modest_importAll dialect _).bind fun _ => (modest_valueOr dialect _ _ _ _).bind fun _ =>
      (modest_valueOr dialect _ _ _ _).bind fun _ => trivial
  | helper form =>
    have hname : (calleeName (.helper form)).Modest dialect := by
      refine modest_calleeName dialect fun helper h => ?_
      cases h
      exact .inr (.inr ⟨form, hcallee, rfl⟩)
    exact (modest_valueOr dialect _ _ _ _).bind fun _ => (modest_valueOr dialect _ _ _ _).bind
      fun _ => hname.bind fun _ => trivial

/-! ### Statements -/

theorem modest_body (socket : String) (loop : Bool) :
    (Recipe.ask (.body socket loop) .done).Modest dialect :=
  only_ask trivial

theorem modest_arm (number : Nat) : (arm scene block number).Modest dialect :=
  (modest_valueOr dialect _ _ _ _).bind fun _ => (modest_body dialect _ _).bind fun _ => trivial

theorem modest_otherwise : (otherwise scene block).Modest dialect := by
  unfold otherwise
  split
  · exact (modest_body dialect _ _).bind fun _ => trivial
  · trivial

theorem modest_conditional : (conditional scene block).Modest dialect :=
  (only_forEach _ (modest_arm scene dialect block)).bind fun _ =>
    (modest_otherwise scene dialect block).bind fun _ => trivial

theorem modest_loopStatements : (loopStatements scene ref block).Modest dialect := by
  refine (modest_body dialect "DO" true).bind fun statements => ?_
  refine (only_ofExcept fun _ => isStructural_addLoopTrap).bind fun statements => ?_
  split
  · trivial
  · exact (only_ask trivial : (loopContinued ref).Modest dialect).bind fun _ => trivial

theorem modest_whileLoop : (whileLoop scene ref block).Modest dialect := by
  refine (only_ofExcept fun _ => isStructural_loopMode).bind fun mode => ?_
  have hstatements := modest_loopStatements scene dialect ref block
  cases mode with
  | «until» =>
    exact (modest_valueOr dialect _ _ _ _).bind fun _ => hstatements.bind fun _ => trivial
  | «while» =>
    exact (modest_valueOr dialect _ _ _ _).bind fun _ => hstatements.bind fun _ => trivial

theorem modest_repeatCount : (repeatCount block).Modest dialect := by
  unfold repeatCount
  split
  · refine Only.bind (only_ofExcept fun failure h => ?_) fun code => trivial
    obtain hdouble | ⟨d, -, hdone⟩ := bind_eq_error h
    · exact isStructural_doubleOf hdouble
    · cases hdone
  · exact modest_valueOr dialect _ _ _ _

theorem modest_freshName (kind : NameKind) (base : String) :
    (freshName kind base).Modest dialect :=
  only_ask trivial

theorem modest_repeatLoop : (repeatLoop scene ref block).Modest dialect := by
  refine (modest_repeatCount dialect block).bind fun count => ?_
  refine (modest_loopStatements scene dialect ref block).bind fun statements => ?_
  refine (modest_freshName dialect _ _).bind fun counter => ?_
  split
  · trivial
  · split
    · trivial
    · exact (modest_freshName dialect _ _).bind fun _ => trivial

/-- The hook that a jump needs for the loop around it. -/
theorem modest_flow : (flow scene block).Modest dialect := by
  refine (modest_chosen dialect _ _).bind fun jump => ?_
  dsimp only
  split
  · refine ⟨trivial, fun _ => ⟨trivial, fun loop => ?_⟩⟩
    cases loop with
    | none => exact ⟨trivial, fun _ => trivial⟩
    | some loop => exact (only_ofExcept fun _ => isStructural_reopened).bind fun _ => trivial
  · refine ⟨trivial, fun loop => ?_⟩
    cases loop with
    | none => exact ⟨trivial, fun _ => trivial⟩
    | some loop => exact (only_ofExcept fun _ => isStructural_reopened).bind fun _ => trivial

theorem modest_outerDeclaration : (outerDeclaration scene ref block).Modest dialect := by
  unfold outerDeclaration
  split
  · trivial
  · refine Only.bind (only_ofExcept fun failure h => ?_) fun known => ?_
    · obtain hparams | ⟨items, -, hlower⟩ := bind_eq_error h
      · exact isStructural_params hparams
      · exact isStructural_lowerParams hlower
    · refine (only_forEach _ fun name => modest_nameOf dialect _ _).bind fun named => ?_
      refine (only_forEach _ fun name => modest_nameOf dialect _ _).bind fun developer => ?_
      split <;> trivial

theorem modest_call : (call scene block).Modest dialect := by
  refine (modest_nameOf dialect _ _).bind fun name => ?_
  refine (only_ofExcept fun _ => isStructural_params).bind fun params => ?_
  exact (only_forEach _ fun i => modest_valueOr dialect _ _ _ _).bind fun args => trivial

theorem modest_conditionalReturn : (conditionalReturn scene block).Modest dialect := by
  refine (modest_valueOr dialect _ _ _ _).bind fun condition => ?_
  dsimp only
  split
  · exact (modest_valueOr dialect _ _ _ _).bind fun _ => trivial
  · trivial

/-! ### Definitions of procedures -/

/-- Whether a recipe never fails for the structure by itself. -/
abbrev Local (recipe : Recipe α) : Prop :=
  recipe.Only (fun _ => True) fun failure => failure.isStructural = false

theorem Modest.toLocal {dialect : Dialect} {recipe : Recipe α} (h : recipe.Modest dialect) :
    recipe.Local :=
  h.mono (fun _ _ => trivial) fun _ => id

theorem local_procedureDefinition : (procedureDefinition scene ref block).Local := by
  refine (modest_nameOf scene.dialect _ _).toLocal.bind fun name => ?_
  refine (modest_outerDeclaration scene scene.dialect ref block).toLocal.bind fun outer => ?_
  refine (modest_body scene.dialect "STACK" false).toLocal.bind fun statements => ?_
  refine (modest_value scene.dialect "RETURN" _ _).toLocal.bind fun result => ?_
  refine (only_ofExcept fun _ => isStructural_params).bind fun params => ?_
  refine (only_forEach _ fun name => (modest_nameOf scene.dialect _ name).toLocal).bind
    fun args => ?_
  exact ⟨trivial, fun _ => trivial⟩

end Recipe

open Recipe in
/-- No other recipe than that of a procedure's definition defines more than imports
    and helpers, and it never fails for the structure by itself. -/
theorem BlockForm.recipe_modest (scene : Scene) (ref : Ref) (block : Block Ref) {form : BlockForm}
    (h : form ≠ .procedureDefinition) : (form.recipe scene ref block).Modest scene.dialect := by
  have hvalueOr := modest_valueOr scene.dialect
  cases form with
  | conditional => exact modest_conditional scene _ block
  | whileLoop => exact modest_whileLoop scene _ ref block
  | repeatLoop => exact modest_repeatLoop scene _ ref block
  | flow => exact modest_flow scene _ block
  | compare => exact (modest_chosen _ _ _).bind fun _ => (hvalueOr _ _ _ _).bind fun _ =>
      (hvalueOr _ _ _ _).bind fun _ => trivial
  | logic => exact modest_logic _ block
  | logicNot => exact (hvalueOr _ _ _ _).bind fun _ => trivial
  | truthValue => trivial
  | nullValue => trivial
  | ternary => exact (hvalueOr _ _ _ _).bind fun _ => (hvalueOr _ _ _ _).bind fun _ =>
      (hvalueOr _ _ _ _).bind fun _ => trivial
  | number => exact modest_number _ block
  | arithmetic => exact modest_arithmetic _ block
  | modulo => exact (hvalueOr _ _ _ _).bind fun _ => (hvalueOr _ _ _ _).bind fun _ => trivial
  | single => exact modest_single _ block
  | constant => exact (modest_chosen _ _ _).bind fun _ => (modest_importAll _ _).bind fun _ => trivial
  | property => exact modest_property _ block
  | change => exact modest_change _ block
  | onList => exact modest_onList _ block
  | constrain => exact (hvalueOr _ _ _ _).bind fun _ => (hvalueOr _ _ _ _).bind fun _ =>
      (hvalueOr _ _ _ _).bind fun _ => trivial
  | randomInteger => exact modest_randomInteger _
  | randomFraction => exact (modest_importAll _ _).bind fun _ => trivial
  | arcTangent => exact (modest_importAll _ _).bind fun _ => (hvalueOr _ _ _ _).bind fun _ =>
      (hvalueOr _ _ _ _).bind fun _ => trivial
  | text => trivial
  | variableValue => exact (modest_nameOf _ _ _).bind fun _ => trivial
  | variableAssignment => exact (hvalueOr _ _ _ _).bind fun _ =>
      (modest_nameOf _ _ _).bind fun _ => trivial
  | procedureDefinition => exact absurd rfl h
  | procedureCall => exact (modest_call scene _ block).bind fun _ => trivial
  | procedureCallStatement => exact (modest_call scene _ block).bind fun _ => trivial
  | conditionalReturn => exact modest_conditionalReturn scene _ block

/-- No recipe of a rule fails for the structure by itself. -/
theorem Handler.recipe_local (scene : Scene) (ref : Ref) (block : Block Ref) (handler : Handler) :
    (handler.recipe scene ref block).Local := by
  cases handler with
  | always product => trivial
  | form form =>
    by_cases hform : form = .procedureDefinition
    · subst hform
      exact Recipe.local_procedureDefinition scene ref block
    · exact (form.recipe_modest scene ref block hform).toLocal

end BlockScript
