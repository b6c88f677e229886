import BlockScript.Proofs.Acceptance.Decision

/-!
# Accepted values

The recipe of every form of value decides for its block what the check does. The
languages differ in the imports and helpers that they ask for on the way, which
never fail.

Results:

* `Recipe.decides_compare`, `Recipe.decides_logic`, …: the recipes of the forms.
* `Recipe.decides_call`: a call, which is a statement as well.
-/

namespace BlockScript.Recipe

open BlockScript.Text

variable {scene : Scene} {shape : Ref → Option Shape} {block : Block Ref}

theorem hasShape_value {form : BlockForm} {code : String} {tier : Tier}
    (h : form.isValue = true) : Product.HasShape form.shape (.value code tier) := by
  rw [BlockForm.shape, if_pos h]
  exact ⟨code, tier, rfl⟩

/-- A value that needs nothing. -/
theorem decides_plain {form : BlockForm} {code : String} {tier : Tier}
    (h : form.isValue = true) (hsockets : form.sockets? block = some {}) :
    DecidesForm scene shape block form (.done (.value code tier)) := by
  refine (decides_done (hasShape_value h)).congr ?_
  simp [passes_iff hsockets]

theorem decides_compare : DecidesForm scene shape block .compare
    (compare scene.dialect block) := by
  refine ((decides_ofExcept _).bind fun op _ => (decides_valueOr "A" _ _ _).bind fun a _ =>
    (decides_valueOr "B" _ _ _).map fun b _ => hasShape_value rfl).congr ?_
  rw [passes_iff_of_ite rfl]
  simp

theorem decides_logic : DecidesForm scene shape block .logic (logic scene.dialect block) := by
  refine ((decides_ofExcept _).bind fun op _ => (decides_value "A" _ _).bind fun a _ =>
    (decides_value "B" _ _).map fun b _ => hasShape_value rfl).congr ?_
  rw [passes_iff_of_ite rfl]
  simp

theorem decides_logicNot : DecidesForm scene shape block .logicNot (logicNot scene.dialect) := by
  refine ((decides_valueOr "BOOL" _ _ _).map fun condition _ => hasShape_value rfl).congr ?_
  rw [passes_iff rfl]
  simp

theorem decides_ternary : DecidesForm scene shape block .ternary (ternary scene.dialect) := by
  refine ((decides_valueOr "IF" _ _ _).bind fun condition _ =>
    (decides_valueOr "THEN" _ _ _).bind fun consequent _ =>
    (decides_valueOr "ELSE" _ _ _).map fun alternative _ => hasShape_value rfl).congr ?_
  rw [passes_iff rfl]
  simp

theorem decides_number : DecidesForm scene shape block .number (number scene.dialect block) := by
  refine ((decides_ofExcept _).bind (R := True) fun d _ => ?_).congr ?_
  · split
    · exact decides_done (hasShape_value rfl)
    · exact decides_done (hasShape_value rfl)
  · rw [passes_iff_of_ite rfl]
    simp

theorem decides_arithmetic : DecidesForm scene shape block .arithmetic
    (arithmetic scene.dialect block) := by
  refine ((decides_ofExcept _).bind fun op _ => (decides_valueOr "A" _ _ _).bind fun a _ =>
    (decides_valueOr "B" _ _ _).map fun b _ => hasShape_value rfl).congr ?_
  rw [passes_iff_of_ite rfl]
  simp

theorem decides_modulo : DecidesForm scene shape block .modulo (modulo scene.dialect) := by
  refine ((decides_valueOr "DIVIDEND" _ _ _).bind fun a _ =>
    (decides_valueOr "DIVISOR" _ _ _).map fun b _ => hasShape_value rfl).congr ?_
  rw [passes_iff rfl]
  simp

theorem decides_single : DecidesForm scene shape block .single (single scene.dialect block) := by
  refine ((decides_ofExcept _).bind
    (R := Workspace.fillsValue shape block "NUM" = true) fun op _ => ?_).congr ?_
  · split
    · exact (decides_valueOr "NUM" _ _ _).map fun code _ => hasShape_value rfl
    · refine ((decides_valueOr "NUM" _ _ _).bind fun code _ => (decides_importAll _).map
        fun _ _ => hasShape_value rfl).congr (iff_of_eq (and_true _))
  · rw [passes_iff_of_ite rfl]
    simp

theorem decides_constant : DecidesForm scene shape block .constant
    (constant scene.dialect block) := by
  refine ((decides_ofExcept _).bind fun name _ => (decides_importAll _).map
    fun _ _ => hasShape_value rfl).congr ?_
  rw [passes_iff_of_ite rfl]
  simp

/-- A test for divisibility needs the divisor, too. -/
theorem passes_property : Passes scene shape block .property ↔
    (chosen NumberProperty (block.field "PROPERTY")).isOk = true ∧
      Workspace.fillsValue shape block "NUMBER_TO_CHECK" = true ∧
      (chosen NumberProperty (block.field "PROPERTY") = .ok .divisibleBy →
        Workspace.fillsValue shape block "DIVISOR" = true) := by
  unfold Passes BlockForm.sockets?
  cases chosen NumberProperty (block.field "PROPERTY") with
  | error failure => exact iff_of_false nofun fun h => nomatch h.1
  | ok property => cases property <;> simp [Workspace.fillsSockets, Except.isOk, Except.toBool]

theorem decides_property : DecidesForm scene shape block .property
    (property scene.dialect block) := by
  refine ((decides_ofExcept _).bind fun property hproperty => ?_).congr passes_property.symm
  have hno : property ≠ .divisibleBy → ∀ {P : Prop},
      (P ↔ P ∧ (chosen NumberProperty (block.field "PROPERTY") = .ok .divisibleBy →
        Workspace.fillsValue shape block "DIVISOR" = true)) := by
    intro hother P
    simp [hproperty, hother]
  split
  · exact ((decides_valueOr "NUMBER_TO_CHECK" _ _ _).bind fun number _ =>
      (decides_importAll _).after fun _ _ => (decides_helper _ _).map fun name _ =>
        hasShape_value rfl).congr ((iff_of_eq (and_true _)).trans (hno nofun))
  · refine (decides_valueOr "NUMBER_TO_CHECK" _ _ _).bind fun number _ =>
      ((decides_valueOr "DIVISOR" _ _ _).bind (R := True) fun divisor _ => ?_).congr
        (by simp [hproperty])
    split
    · exact decides_done (hasShape_value rfl)
    · exact decides_done (hasShape_value rfl)
  · next hprime hdivisible =>
    exact ((decides_valueOr "NUMBER_TO_CHECK" _ _ _).map fun number _ => hasShape_value rfl).congr
      (hno hdivisible)

theorem decides_onList : DecidesForm scene shape block .onList (onList scene.dialect block) := by
  refine ((decides_ofExcept _).bind
    (R := Workspace.fillsValue shape block "LIST" = true) fun op _ => ?_).congr ?_
  · dsimp only
    split
    · exact (decides_calleeName _).after fun name _ =>
        (decides_valueOr "LIST" _ _ _).map fun items _ => hasShape_value rfl
    · exact ((decides_valueOr "LIST" _ _ _).bind fun items _ =>
        (decides_calleeName _).map fun name _ => hasShape_value rfl).congr (iff_of_eq (and_true _))
  · rw [passes_iff_of_ite rfl]
    simp

theorem decides_constrain : DecidesForm scene shape block .constrain (constrain scene.dialect) := by
  refine ((decides_valueOr "VALUE" _ _ _).bind fun number _ =>
    (decides_valueOr "LOW" _ _ _).bind fun low _ =>
    (decides_valueOr "HIGH" _ _ _).map fun high _ => hasShape_value rfl).congr ?_
  rw [passes_iff rfl]
  simp

theorem decides_randomInteger : DecidesForm scene shape block .randomInteger
    (randomInteger scene.dialect) := by
  have hbounds : ∀ (rest : Recipe String), scene.DecidesFor shape block True (fun _ => True) rest →
      DecidesForm scene shape block .randomInteger (do
        let low ← valueOr "FROM" .none false "0"
        let high ← valueOr "TO" .none false "0"
        let name ← rest
        return .value (name ++ "(" ++ low ++ ", " ++ high ++ ")") scene.dialect.call) := by
    intro rest hrest
    refine ((decides_valueOr "FROM" _ _ _).bind fun low _ =>
      (decides_valueOr "TO" _ _ _).bind fun high _ =>
      hrest.map fun name _ => hasShape_value rfl).congr ?_
    rw [passes_iff rfl]
    simp
  unfold randomInteger
  cases scene.dialect.randomInteger with
  | function name imports =>
    exact (decides_importAll imports).after fun _ _ => hbounds (pure name) (decides_done trivial)
  | helper form => exact hbounds _ (decides_calleeName (.helper form))

theorem decides_randomFraction : DecidesForm scene shape block .randomFraction
    (randomFraction scene.dialect) := by
  refine ((decides_importAll _).map fun _ _ => hasShape_value rfl).congr ?_
  rw [passes_iff rfl]
  simp

theorem decides_arcTangent : DecidesForm scene shape block .arcTangent
    (arcTangent scene.dialect) := by
  refine ((decides_importAll _).after fun _ _ => (decides_valueOr "X" _ _ _).bind fun x _ =>
    (decides_valueOr "Y" _ _ _).map fun y _ => hasShape_value rfl).congr ?_
  rw [passes_iff rfl]
  simp

theorem decides_variableValue : DecidesForm scene shape block .variableValue
    (variableValue block) := by
  refine ((decides_nameOf _ _).map fun name _ => hasShape_value rfl).congr ?_
  rw [passes_iff_of_ite rfl]
  simp

/-- What the check makes of a call. -/
theorem passes_call {form : BlockForm} {names : List Json} (hparams : params block = .ok names)
    (h : form = .procedureCall ∨ form = .procedureCallStatement) :
    Passes scene shape block form ↔ (block.field "NAME").isText = true ∧
      ∀ i ∈ List.range names.length,
        Workspace.fillsValue shape block ("ARG" ++ toString i) = true := by
  have hsockets : form.sockets? block = if (block.field "NAME").isText then
      some ⟨(List.range names.length).map fun i => "ARG" ++ toString i, []⟩ else none := by
    rcases h with rfl | rfl <;> simp only [BlockForm.sockets?, hparams]
  rw [passes_iff_of_ite hsockets]
  simp

theorem decides_call (form : BlockForm)
    (h : form = .procedureCall ∨ form = .procedureCallStatement) :
    scene.DecidesFor shape block (Passes scene shape block form)
      (fun code => isBlankText code = false) (call scene block) := by
  unfold call
  cases hparams : params block with
  | error failure =>
    have hrefused : ¬Passes scene shape block form := by
      rcases h with rfl | rfl <;> simp [Passes, BlockForm.sockets?, hparams]
    refine ((decides_nameOf .procedure _).bind (R := False) fun name _ => ?_).congr
      ⟨fun hboth => hboth.2.elim, fun hpasses => absurd hpasses hrefused⟩
    exact id
  | ok names =>
    refine ((decides_nameOf .procedure _).bind fun name _ =>
      (decides_forEach _ fun i => decides_valueOr _ _ _ _).map fun args _ => ?_).congr
        (passes_call hparams h).symm
    simp [isBlankText_append, show isBlankText "(" = false by decide]

theorem decides_procedureCall : DecidesForm scene shape block .procedureCall
    (procedureCall scene block) := by
  refine (decides_call .procedureCall (.inl rfl)).map fun code _ => ?_
  exact hasShape_value rfl

end BlockScript.Recipe
