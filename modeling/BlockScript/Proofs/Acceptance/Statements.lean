import BlockScript.Proofs.Acceptance.Values

/-!
# Accepted statements

The recipe of every form of statement decides for its block what the check does,
and the code that it gives is never blank, so that a statement in a value socket
is found out in every language.

Results:

* `BlockForm.recipe_decides`: the recipe of a form decides what the check does.
-/

namespace BlockScript

open BlockScript.Text

namespace Recipe

variable {scene : Scene} {shape : Ref → Option Shape} {ref : Ref} {block : Block Ref}

/-! ## Calls, changes and returns -/

theorem hasShape_statement {form : BlockForm} {code : String} (h : form.shape = .statement)
    (hblank : isBlankText code = false) : Product.HasShape form.shape (.text code) :=
  h ▸ ⟨code, rfl, hblank⟩

theorem decides_procedureCallStatement : DecidesForm scene shape block .procedureCallStatement
    (procedureCallStatement scene block) := by
  refine (decides_call .procedureCallStatement (.inr rfl)).map fun code hcode =>
    hasShape_statement rfl ?_
  simp [Dialect.statement, isBlankText_append, hcode]

theorem decides_change (hvisible : scene.dialect.Visible) :
    DecidesForm scene shape block .change (change scene.dialect block) := by
  refine ((decides_importAll _).after fun _ _ => (decides_valueOr "DELTA" _ _ _).bind
    fun summand _ => (decides_nameOf .variable _).map fun name _ =>
      hasShape_statement rfl (hvisible.changeStatement name summand)).congr ?_
  rw [passes_iff_of_ite rfl]
  simp [and_comm]

theorem decides_variableAssignment : DecidesForm scene shape block .variableAssignment
    (variableAssignment scene.dialect block) := by
  refine ((decides_valueOr "VALUE" _ _ _).bind fun value _ =>
    (decides_nameOf .variable _).map fun name _ => hasShape_statement rfl ?_).congr ?_
  · simp [Dialect.statement, isBlankText_append, show isBlankText " = " = false by decide]
  · rw [passes_iff_of_ite rfl]
    simp [and_comm]

theorem decides_conditionalReturn (hvisible : scene.dialect.Visible) :
    DecidesForm scene shape block .conditionalReturn (conditionalReturn scene block) := by
  have hcode : ∀ condition suffix last : String, Product.HasShape
      BlockForm.conditionalReturn.shape
      (.text (scene.dialect.ifHeader condition ++ suffix ++ last ++ scene.dialect.blockEnd)) :=
    fun condition suffix last => hasShape_statement rfl (by
      simp [isBlankText_append, hvisible.ifHeader])
  refine ((decides_valueOr "CONDITION" _ _ _).bind
    (R := Workspace.fillsValue shape block "VALUE" = true) fun condition _ => ?_).congr ?_
  · dsimp only
    split
    · exact (decides_valueOr "VALUE" _ _ _).map fun result _ => hcode condition _ _
    · next hno =>
      -- Nothing is plugged into a socket that is not there.
      have hempty : block.valueInput "VALUE" = none := by
        simp only [Block.hasInput, Bool.or_eq_true, not_or, Option.not_isSome_iff_eq_none] at hno
        simp [Block.valueInput, hno.1]
      exact (decides_done (hcode condition _ _)).congr (by simp [Workspace.fillsValue, hempty])
  · rw [passes_iff rfl]
    simp

/-! ## Conditionals -/

/-- Nothing is plugged into a socket that is not there. -/
theorem inputs_of_not_hasInput {socket : String} (h : ¬block.hasInput socket = true) :
    block.valueInput socket = none ∧ block.statementInput socket = none := by
  simp only [Block.hasInput, Bool.or_eq_true, not_or, Option.not_isSome_iff_eq_none] at h
  simp [Block.valueInput, Block.statementInput, h]

theorem decides_arm (hvisible : scene.dialect.Visible) (number : Nat) :
    scene.DecidesFor shape block
      (Workspace.fillsValue shape block (conditionSocket number) = true ∧
        scene.workspace.holdsChain shape (block.statementInput (bodySocket number)) = true)
      (fun code => isBlankText code = false) (arm scene block number) := by
  refine (decides_valueOr _ _ _ _).bind fun condition _ =>
    (decides_body (bodySocket number) false).map fun statements _ => ?_
  split
  · simp [isBlankText_append, hvisible.ifHeader]
  · simp [isBlankText_append, hvisible.elseIfHeader]

theorem decides_otherwise : scene.DecidesFor shape block
    (scene.workspace.holdsChain shape (block.statementInput "ELSE") = true) (fun _ => True)
    (otherwise scene block) := by
  unfold otherwise
  split
  · exact (decides_body "ELSE" false).map fun statements _ => trivial
  · next hno =>
    simp only [Bool.or_eq_true, not_or] at hno
    refine (decides_done trivial).congr ?_
    simp [(inputs_of_not_hasInput hno.1).2, Workspace.holdsChain_none]

theorem decides_conditional (hvisible : scene.dialect.Visible) :
    DecidesForm scene shape block .conditional (conditional scene block) := by
  refine ((decides_forEach _ (decides_arm hvisible)).bind fun codes hcodes =>
    decides_otherwise.map fun last _ => hasShape_statement rfl ?_).congr ?_
  · obtain ⟨hlength, hdark⟩ := hcodes
    cases codes with
    | nil => simp [arms] at hlength
    | cons code codes => simp [isBlankText_append, Text.concat, hdark code (by simp)]
  · rw [passes_iff rfl]
    simp [forall_and, or_imp, and_assoc]

/-! ## Loops -/

theorem decides_loopStatements (hrule : ∃ rule, scene.rules.lookup block.type = .ok rule) :
    scene.DecidesFor shape block
      (scene.workspace.holdsChain shape (block.statementInput "DO") = true) (fun _ => True)
      (loopStatements scene ref block) := by
  obtain ⟨rule, hrule⟩ := hrule
  have htrap : ∀ body, scene.addLoopTrap body block =
      .ok (scene.trapped rule.suppressHooks body block) :=
    fun body => by simp only [Scene.addLoopTrap, hrule]; rfl
  refine ((decides_body "DO" true).bind (R := True) fun statements _ => ?_).congr
    (iff_of_eq (and_true _))
  rw [htrap]
  dsimp only [bind, andThen, ofExcept]
  split
  · exact decides_done trivial
  · exact (decides_ask (.loopContinued ref)).map fun _ _ => trivial

theorem decides_whileLoop (hvisible : scene.dialect.Visible)
    (hrule : ∃ rule, scene.rules.lookup block.type = .ok rule) :
    DecidesForm scene shape block .whileLoop (whileLoop scene ref block) := by
  have hbody : ∀ condition, scene.DecidesFor shape block
      (scene.workspace.holdsChain shape (block.statementInput "DO") = true)
      (Product.HasShape BlockForm.whileLoop.shape) (do
        let statements ← loopStatements scene ref block
        return .text
          (scene.dialect.whileHeader condition ++ statements ++ scene.dialect.blockEnd)) :=
    fun condition => (decides_loopStatements hrule).map fun statements _ =>
      hasShape_statement rfl (by simp [isBlankText_append, hvisible.whileHeader])
  refine ((decides_ofExcept _).bind (R := Workspace.fillsValue shape block "BOOL" = true ∧
    scene.workspace.holdsChain shape (block.statementInput "DO") = true) fun mode _ => ?_).congr ?_
  · cases mode with
    | «until» => exact (decides_valueOr "BOOL" _ _ _).bind fun condition _ => hbody _
    | «while» => exact (decides_valueOr "BOOL" _ _ _).bind fun condition _ => hbody condition
  · rw [passes_iff_of_ite rfl]
    simp

/-- What the check makes of the count of a loop: only without a number in the field,
    the socket counts. -/
theorem passes_repeatLoop : Passes scene shape block .repeatLoop ↔
    (match block.field? "TIMES" with
      | some times => (Number.literal? times.toJson).isOk = true
      | none => Workspace.fillsValue shape block "TIMES" = true) ∧
      scene.workspace.holdsChain shape (block.statementInput "DO") = true := by
  cases htimes : block.field? "TIMES" with
  | none =>
    have hsockets : BlockForm.repeatLoop.sockets? block = some ⟨["TIMES"], ["DO"]⟩ := by
      simp only [BlockForm.sockets?, htimes]
    simp [passes_iff hsockets]
  | some times =>
    have hsockets : BlockForm.repeatLoop.sockets? block =
        if (Number.doubleOf times.toJson).isOk then some ⟨[], ["DO"]⟩ else none := by
      simp only [BlockForm.sockets?, htimes]
    have hliteral : (Number.literal? times.toJson).isOk = (Number.doubleOf times.toJson).isOk := by
      unfold Number.literal?
      cases Number.doubleOf times.toJson <;> rfl
    simp [passes_iff_of_ite hsockets, hliteral]

theorem decides_repeatCount : scene.DecidesFor shape block
    (match block.field? "TIMES" with
      | some times => (Number.literal? times.toJson).isOk = true
      | none => Workspace.fillsValue shape block "TIMES" = true)
    (fun _ => True) (repeatCount block) := by
  unfold repeatCount
  cases block.field? "TIMES" with
  | some times => exact (decides_ofExcept _).map fun code _ => trivial
  | none => exact decides_valueOr "TIMES" _ _ _

theorem decides_repeatLoop (hvisible : scene.dialect.Visible)
    (hrule : ∃ rule, scene.rules.lookup block.type = .ok rule) :
    DecidesForm scene shape block .repeatLoop (repeatLoop scene ref block) := by
  refine (decides_repeatCount.bind fun count _ =>
    ((decides_loopStatements hrule).bind (R := True) fun statements _ =>
      (decides_freshName .variable counterBase).after fun counter _ => ?_).congr
        (iff_of_eq (and_true _))).congr passes_repeatLoop.symm
  have hheader : ∀ before name count after : String, Product.HasShape BlockForm.repeatLoop.shape
      (.text (before ++ scene.dialect.repeatHeader name count ++ statements ++ after)) :=
    fun before name count after => hasShape_statement rfl (by
      simp [isBlankText_append, hvisible.repeatHeader])
  have hplain : ∀ name count after : String, Product.HasShape BlockForm.repeatLoop.shape
      (.text (scene.dialect.repeatHeader name count ++ statements ++ after)) :=
    fun name count after => by simpa using hheader "" name count after
  split
  · exact decides_done (hplain _ _ _)
  · split
    · exact decides_done (hplain _ _ _)
    · exact (decides_freshName .variable boundBase).map fun bound _ => hheader _ _ _ _

/-! ## Jumps -/

theorem isOk_reopened {loop : Ref} (h : scene.Ruled loop) : (reopened scene loop).isOk = true := by
  unfold reopened
  split
  · rfl
  · split
    · rfl
    · next loopBlock hblock =>
      obtain ⟨rule, hrule⟩ := h loopBlock hblock
      rw [hrule]
      rfl

/-- The hook and the jump itself, whichever loop is around them. -/
theorem decides_jump (jump : FlowStatement) {code : String} (hblank : isBlankText code = false) :
    scene.DecidesFor shape block True (Product.HasShape BlockForm.flow.shape) (do
      let loop ← enclosingLoop
      let hook ←
        match loop with
        | none => do
          warn ⟨Choice.text jump, block.idText⟩
          pure ""
        | some loop => ofExcept (reopened scene loop)
      return .text (scene.startHook block ++ scene.endHook block ++ hook ++
        scene.dialect.statement code)) := by
  have hcode : ∀ hook : String, Product.HasShape BlockForm.flow.shape
      (.text (scene.startHook block ++ scene.endHook block ++ hook ++
        scene.dialect.statement code)) := fun hook =>
    hasShape_statement rfl (by simp [Dialect.statement, isBlankText_append, hblank])
  refine (decides_ask .enclosingLoop).after fun loop hloop => ?_
  cases loop with
  | none => exact (decides_ask (.warn _)).map fun _ _ => hcode ""
  | some loop =>
    refine ((decides_ofExcept _).map fun hook _ => hcode hook).congr ?_
    simp [isOk_reopened (hloop loop rfl)]

theorem decides_flow (hvisible : scene.dialect.Visible) :
    DecidesForm scene shape block .flow (flow scene block) := by
  refine ((decides_ofExcept _).bind (R := True) fun jump _ => ?_).congr ?_
  · cases jump with
    | «break» => exact decides_jump .break (show isBlankText "break" = false by decide)
    | «continue» =>
      dsimp only
      split
      · exact (decides_ask .markContinue).after fun _ _ =>
          decides_jump .continue hvisible.continueStatement
      · exact decides_jump .continue hvisible.continueStatement
  · rw [passes_iff_of_ite rfl]
    simp

/-! ## Definitions -/

theorem isOk_lowerParams (names : List Json) :
    (lowerParams names).isOk = names.all Json.isText := by
  induction names with
  | nil => rfl
  | cons name names ih =>
    cases name with
    | str name =>
      rw [List.all_cons, ← ih, lowerParams]
      cases lowerParams names <;> rfl
    | _ => rfl

theorem decides_params {kind : NameKind} (names : List Json) :
    scene.DecidesFor shape block (names.all Json.isText = true) (fun _ => True)
      (forEach (nameOf kind) names) :=
  ((decides_forEach names (decides_nameOf kind)).mono fun _ _ => trivial).congr (by simp)

/-- The declaration of outer variables needs the parameters to be texts, in a language
    that has one. -/
theorem decides_outerDeclaration : ∃ P, scene.DecidesFor shape block P (fun _ => True)
    (outerDeclaration scene ref block) ∧
      ∀ names, params block = .ok names → names.all Json.isText = true → P := by
  unfold outerDeclaration
  split
  · exact ⟨True, decides_done trivial, fun _ _ _ => trivial⟩
  · next declaration _ =>
    have hnames : ∀ kind names, scene.DecidesFor shape block True (fun _ => True)
        (forEach (fun name => nameOf kind (.str name)) names) := fun kind names =>
      ((decides_forEach names fun name => decides_nameOf kind (.str name)).mono
        fun _ _ => trivial).congr (by simp [Json.isText])
    refine ⟨_, (decides_ofExcept _).bind (R := True) fun known _ =>
      (hnames _ _).after fun named _ => (hnames _ _).after fun developer _ => ?_, ?_⟩
    · split
      · exact decides_done trivial
      · exact decides_done trivial
    · intro names hparams htexts
      rw [hparams]
      exact ⟨(isOk_lowerParams names).trans htexts, trivial⟩

theorem decides_procedureDefinition : DecidesForm scene shape block .procedureDefinition
    (procedureDefinition scene ref block) := by
  obtain ⟨P, houter, hP⟩ : ∃ P, scene.DecidesFor shape block P (fun _ => True)
      (outerDeclaration scene ref block) ∧
        ∀ names, params block = .ok names → names.all Json.isText = true → P :=
    decides_outerDeclaration
  have hcheck : Passes scene shape block .procedureDefinition ↔
      (block.field "NAME").isText = true ∧ P ∧
        scene.workspace.holdsChain shape (block.statementInput "STACK") = true ∧
        Workspace.fillsValue shape block "RETURN" = true ∧ (params block).isOk = true ∧
        ∀ names, params block = .ok names → names.all Json.isText = true := by
    cases hparams : params block with
    | error failure => simp [Passes, BlockForm.sockets?, hparams, Except.isOk, Except.toBool]
    | ok names =>
      have hsockets : BlockForm.procedureDefinition.sockets? block =
          if (block.field "NAME").isText && names.all Json.isText then some ⟨["RETURN"], ["STACK"]⟩
          else none := by
        simp only [BlockForm.sockets?, hparams]
      have hP := hP names hparams
      rw [passes_iff_of_ite hsockets]
      simp [Except.isOk, Except.toBool] at hP ⊢
      grind
  refine ((decides_nameOf .procedure _).bind fun name _ => houter.bind fun outer _ =>
    (decides_body "STACK" false).bind fun statements _ =>
    (decides_value "RETURN" _ _).bind fun result _ =>
    (decides_ofExcept _).bind fun names hnames => ?_).congr hcheck.symm
  refine ((decides_params names).bind (R := True) fun args _ => ?_).congr (by simp [hnames])
  have hnothing : Product.HasShape BlockForm.procedureDefinition.shape .nothing := rfl
  exact (decides_ask (.define _ _)).map fun _ _ => hnothing

end Recipe

/-! ## All forms -/

open Recipe in
/-- The recipe of a form decides what the check does: it comes to a product of the
    form's shape just if the check lets the block pass. -/
theorem BlockForm.recipe_decides {scene : Scene} {shape : Ref → Option Shape} {ref : Ref}
    {block : Block Ref} (hvisible : scene.dialect.Visible)
    (hrule : ∃ rule, scene.rules.lookup block.type = .ok rule) (form : BlockForm) :
    DecidesForm scene shape block form (form.recipe scene ref block) := by
  cases form with
  | conditional => exact decides_conditional hvisible
  | whileLoop => exact decides_whileLoop hvisible hrule
  | repeatLoop => exact decides_repeatLoop hvisible hrule
  | flow => exact decides_flow hvisible
  | compare => exact decides_compare
  | logic => exact decides_logic
  | logicNot => exact decides_logicNot
  | truthValue => exact decides_plain rfl rfl
  | nullValue => exact decides_plain rfl rfl
  | ternary => exact decides_ternary
  | number => exact decides_number
  | arithmetic => exact decides_arithmetic
  | modulo => exact decides_modulo
  | single => exact decides_single
  | constant => exact decides_constant
  | property => exact decides_property
  | change => exact decides_change hvisible
  | onList => exact decides_onList
  | constrain => exact decides_constrain
  | randomInteger => exact decides_randomInteger
  | randomFraction => exact decides_randomFraction
  | arcTangent => exact decides_arcTangent
  | text => exact decides_plain rfl rfl
  | variableValue => exact decides_variableValue
  | variableAssignment => exact decides_variableAssignment
  | procedureDefinition => exact decides_procedureDefinition
  | procedureCall => exact decides_procedureCall
  | procedureCallStatement => exact decides_procedureCallStatement
  | conditionalReturn => exact decides_conditionalReturn hvisible

end BlockScript
