import BlockScript.Proofs.Acceptance.Settling
import BlockScript.Proofs.Acceptance.Statements
import BlockScript.Proofs.Code.Operand

/-!
# Accepted programs

Rendering a workspace succeeds just if the workspace passes the check. The check
knows of no language and of no option but the depth, so all languages accept the
same workspaces under all options.

Results:

* `Scene.Speaks.settles_renderWithin`: a block renders just if the check accepts it,
  and then to what has its shape.
* `generate_isOk_iff`: a workspace is rendered just if it passes the check.
* `generate_all_or_none`: a workspace is rendered in every language and under all
  options of a depth, or in none.
-/

namespace BlockScript

open BlockScript.Text

/-! ## The check of blocks -/

theorem BlockForm.shape_eq_value {form : BlockForm} :
    form.shape = .value ↔ form.isValue = true := by
  unfold shape
  cases hvalue : form.isValue with
  | true => simp
  | false => by_cases hdefinition : form = procedureDefinition <;> simp [hdefinition]

/-- A block type has a rule if it has a form, and the rule is that of the form. -/
theorem Scene.Speaks.lookup_iff {scene : Scene} {language : Language} (h : scene.Speaks language)
    {type : String} {form : BlockForm} :
    BlockForm.ofType? type = some form ↔
      ∃ rule, scene.rules.lookup type = .ok rule ∧ rule.handler = .form form := by
  have hfind : scene.rules.find? type = (RuleTable.ofLanguage "").find? type := by
    rw [h.rules]
    rfl
  unfold BlockForm.ofType? RuleTable.lookup
  rw [hfind]
  cases (RuleTable.ofLanguage "").find? type with
  | none => simp
  | some rule =>
    simp only [Option.bind_some, Except.ok.injEq, exists_eq_left']
    cases rule.handler <;> simp

namespace Scene

variable {scene : Scene} {language : Language} {ref : Ref} {block : Block Ref}

/-- What the check says of an enabled block. -/
theorem shapeWithin_eq {maxDepth : Int} {room : Nat} {nest : List Ref}
    (henabled : block.enabled = true) (hblock : scene.graph.block? ref = some block) :
    scene.workspace.shapeWithin maxDepth (room + 1) nest ref =
      if nest.contains ref || decide (maxDepth ≤ nest.length) then none
      else ((BlockForm.ofType? block.type).filter fun form => (form.sockets? block).any
        (scene.workspace.fillsSockets (scene.workspace.shapeWithin maxDepth room (ref :: nest))
          block)).map BlockForm.shape := by
  have hblock' : scene.workspace.graph.block? ref = some block := hblock
  simp only [Workspace.shapeWithin, hblock', henabled, Bool.not_true, Bool.false_eq_true, if_false]

/-- The shapes that the check tells come from the rules. -/
theorem Speaks.ordered (h : scene.Speaks language) (maxDepth : Int) (room : Nat) (nest : List Ref) :
    scene.Ordered (scene.workspace.shapeWithin maxDepth room nest) := by
  cases room with
  | zero => exact ⟨fun _ _ _ _ _ => nofun, fun _ => nofun⟩
  | succ room =>
    refine ⟨fun ref block known hblock henabled hshape => ?_, fun ref hshape => ?_⟩
    · rw [shapeWithin_eq henabled hblock] at hshape
      split at hshape
      · cases hshape
      · obtain ⟨form, hfound, rfl⟩ := Option.map_eq_some_iff.mp hshape
        obtain ⟨hform, -⟩ := Option.filter_eq_some_iff.mp hfound
        obtain ⟨rule, hrule, hhandler⟩ := h.lookup_iff.mp hform
        obtain ⟨form', hhandler', hvalue⟩ := h.known _ _ hrule
        obtain rfl : form = form' := by simpa [hhandler] using hhandler'
        exact ⟨rule, hrule, by rw [hvalue, BlockForm.shape_eq_value]⟩
    · cases hblock : scene.graph.block? ref with
      | none =>
        have hblock' : scene.workspace.graph.block? ref = none := hblock
        simp [Workspace.shapeWithin, hblock'] at hshape
      | some block =>
        refine ⟨block, rfl, ?_⟩
        have hblock' : scene.workspace.graph.block? ref = some block := hblock
        cases henabled : block.enabled with
        | true => rfl
        | false => simp [Workspace.shapeWithin, hblock', henabled] at hshape

/-- A block may be rendered just if it is not part of the nest, the nest is not too
    deep, and its type has a rule. -/
theorem settles_permit {nest : List Ref} :
    (scene.permit ref block).Settles (scene.Inside nest)
      ((nest.contains ref || decide (scene.config.maxDepth ≤ nest.length)) = false ∧
        (scene.rules.lookup block.type).isOk = true)
      fun rule => scene.rules.lookup block.type = .ok rule := by
  intro s hs
  unfold permit
  rw [Pass.bind_apply, Pass.get_apply]
  dsimp only
  rw [hs.within.1, hs.within.2]
  cases hactive : nest.contains ref with
  | true => simp
  | false =>
    simp only [Bool.false_eq_true, if_false, Bool.false_or]
    by_cases hdeep : scene.config.maxDepth ≤ nest.length
    · simp [hdeep]
    · rw [if_neg hdeep, decide_eq_false hdeep]
      exact (Pass.Settles.ofExcept _).congr (by simp) s hs

/-- A block one level deeper. -/
theorem settles_entering {α : Type} {nest : List Ref} {P : Prop} {Q : α → Prop} {p : Pass α}
    (h : p.Settles (scene.Inside (ref :: nest)) P Q) :
    (Pass.entering ref p).Settles (scene.Inside nest) P Q :=
  h.between (fun _ hs => hs.entered) fun _ hs => hs.left

/-- A block renders to what has the shape of its form. -/
theorem conclude_of_hasShape {rule : Rule} {form : BlockForm} {product : Product}
    (hvalue : rule.isValue = form.isValue) (hproduct : product.HasShape form.shape) :
    ∃ rendered, scene.conclude rule ref block product = .ok rendered ∧
      rendered.shape = form.shape := by
  unfold conclude
  rw [hvalue]
  cases hshape : form.shape with
  | value =>
    rw [hshape] at hproduct
    obtain ⟨code, tier, rfl⟩ := hproduct
    rw [BlockForm.shape_eq_value.mp hshape]
    exact ⟨_, rfl, rfl⟩
  | blank =>
    have hno : form.isValue = false := by
      rw [Bool.eq_false_iff, Ne, ← BlockForm.shape_eq_value, hshape]
      exact nofun
    rw [hshape] at hproduct
    obtain rfl := hproduct
    rw [hno]
    exact ⟨_, rfl, rfl⟩
  | statement =>
    have hno : form.isValue = false := by
      rw [Bool.eq_false_iff, Ne, ← BlockForm.shape_eq_value, hshape]
      exact nofun
    rw [hshape] at hproduct
    obtain ⟨code, rfl, hblank⟩ := hproduct
    rw [hno]
    refine ⟨_, rfl, if_neg fun hempty => ?_⟩
    -- A statement that is not blank has a line of its own, whatever stands around it.
    unfold statementText oneTrailingNewline at hempty
    have hdark : isBlankText (if rule.suppressHooks then code
        else scene.startHook block ++ code ++ scene.endHook block) = false := by
      split
      · exact hblank
      · simp [isBlankText_append, hblank]
    dsimp only at hempty
    rw [hdark] at hempty
    simp at hempty

/-- A block of a form renders just if the nest allows it and the check lets it pass. -/
theorem Speaks.settles_form (h : scene.Speaks language) {nest : List Ref} {form : BlockForm}
    {one : Ref → Pass Rendered} {shape : Ref → Option Shape}
    (hform : BlockForm.ofType? block.type = some form)
    (hblock : scene.graph.block? ref = some block)
    (hone : Shapes (scene.Inside (ref :: nest)) one shape) (hordered : scene.Ordered shape) :
    (do
      let rule ← scene.permit ref block
      let product ← Pass.entering ref
        (scene.follow one ref block (rule.handler.recipe scene ref block))
      Pass.ofExcept (scene.conclude rule ref block product)).Settles (scene.Inside nest)
      ((nest.contains ref || decide (scene.config.maxDepth ≤ nest.length)) = false ∧
        Recipe.Passes scene shape block form)
      fun rendered : Rendered => rendered.shape = form.shape := by
  obtain ⟨rule, hrule, hhandler⟩ := h.lookup_iff.mp hform
  obtain ⟨form', hhandler', hvalue⟩ := h.known _ _ hrule
  obtain rfl : form = form' := by simpa [hhandler] using hhandler'
  have hself : scene.Ruled ref := by
    intro block' hblock'
    rw [hblock] at hblock'
    cases hblock'
    exact ⟨rule, hrule⟩
  have hvisible : scene.dialect.Visible := h.dialect ▸ language.visible
  refine (settles_permit.bind (R := Recipe.Passes scene shape block form)
    fun found hfound => ?_).congr (by simp [hrule, Except.isOk, Except.toBool])
  obtain rfl : rule = found := by simpa [hrule] using hfound
  rw [hhandler]
  have hdecides : Recipe.DecidesForm scene shape block form (form.recipe scene ref block) :=
    form.recipe_decides hvisible ⟨rule, hrule⟩
  have hfollow := settles_entering (settles_follow hone hordered hself hdecides)
  refine (hfollow.bind (R := True) fun product hproduct => ?_).congr (iff_of_eq (and_true _))
  obtain ⟨rendered, hconclude, hshape⟩ := conclude_of_hasShape hvalue hproduct
  rw [hconclude]
  exact .pure hshape

/-- A block renders just if the check accepts it, and then to what has its shape. -/
theorem Speaks.settles_renderWithin (h : scene.Speaks language) (room : Nat) (nest : List Ref)
    (ref : Ref) :
    (scene.renderWithin room ref).Settles (scene.Inside nest)
      ((scene.workspace.shapeWithin scene.config.maxDepth room nest ref).isSome = true)
      fun rendered =>
        scene.workspace.shapeWithin scene.config.maxDepth room nest ref = some rendered.shape := by
  induction room generalizing nest ref with
  | zero => exact (Pass.Settles.throw _).congr (iff_of_false id nofun)
  | succ room ih =>
    unfold renderWithin
    cases hblock : scene.graph.block? ref with
    | none =>
      have hshape : scene.workspace.shapeWithin scene.config.maxDepth (room + 1) nest ref =
          some .blank := by
        have hblock' : scene.workspace.graph.block? ref = none := hblock
        simp only [Workspace.shapeWithin, hblock']
      exact (Pass.Settles.pure hshape).congr (by simp [hshape])
    | some block =>
      dsimp only
      cases henabled : block.enabled with
      | false =>
        have hshape : scene.workspace.shapeWithin scene.config.maxDepth (room + 1) nest ref =
            some .blank := by
          have hblock' : scene.workspace.graph.block? ref = some block := hblock
          simp [Workspace.shapeWithin, hblock', henabled]
        exact (Pass.Settles.pure hshape).congr (by simp [hshape])
      | true =>
        simp only [Bool.not_true, Bool.false_eq_true, if_false]
        cases hform : BlockForm.ofType? block.type with
        | none =>
          have hno : (scene.rules.lookup block.type).isOk = false := by
            cases hlookup : scene.rules.lookup block.type with
            | error failure => rfl
            | ok rule =>
              obtain ⟨form, hhandler, -⟩ := h.known _ _ hlookup
              rw [h.lookup_iff.mpr ⟨rule, hlookup, hhandler⟩] at hform
              cases hform
          refine (settles_permit.bind (R := True) fun rule hrule => ?_).congr ?_
          · rw [hrule] at hno
            cases hno
          · simp [hno, shapeWithin_eq henabled hblock, hform]
        | some form =>
          have hshape : ∀ known,
              scene.workspace.shapeWithin scene.config.maxDepth (room + 1) nest ref = some known ↔
                ((nest.contains ref || decide (scene.config.maxDepth ≤ nest.length)) = false ∧
                  Recipe.Passes scene (scene.workspace.shapeWithin scene.config.maxDepth room
                    (ref :: nest)) block form) ∧
                form.shape = known := by
            intro known
            rw [shapeWithin_eq henabled hblock, hform]
            cases nest.contains ref || decide (scene.config.maxDepth ≤ nest.length) <;>
              simp [Recipe.Passes, Option.filter_eq_some_iff]
          refine ((h.settles_form hform hblock (ih (ref :: nest)) (h.ordered _ _ _)).mono
            fun rendered hpasses hrendered => (hshape _).mpr ⟨hpasses, hrendered.symm⟩).congr ?_
          rw [Option.isSome_iff_exists]
          simp only [hshape, exists_and_left, exists_eq', and_true]

theorem Speaks.settles_render (h : scene.Speaks language) :
    Shapes (scene.Inside []) scene.render (scene.workspace.shape scene.config.maxDepth) :=
  h.settles_renderWithin _ []

/-! ## Whole programs -/

theorem settles_reserve (kind : NameKind) (names : List String) :
    (scene.reserve kind names).Settles (scene.Inside []) True fun _ => True := by
  induction names with
  | nil => exact .pure trivial
  | cons name names ih =>
    have hname : (Pass.nameOf scene.dialect.policy kind name).Settles (scene.Inside []) True
        fun _ => True := .of_ok fun s hs => ⟨_, _, rfl, trivial, hs.within, hs.loops⟩
    exact hname.after fun text _ => ih.map fun texts _ => trivial

theorem settles_reserveDefined (names : List Scalar) :
    (scene.reserveDefined names).Settles (scene.Inside [])
      ((names.all fun name => name.toJson.isText) = true) fun _ => True := by
  induction names with
  | nil => exact (Pass.Settles.pure trivial).congr (by simp)
  | cons name names ih =>
    cases name with
    | text content =>
      have hname : (Pass.nameOf scene.dialect.policy .procedure content).Settles (scene.Inside [])
          True fun _ => True := .of_ok fun s hs => ⟨_, _, rfl, trivial, hs.within, hs.loops⟩
      exact (hname.after fun _ _ => ih).congr (by simp [Scalar.toJson, Json.isText])
    | _ => exact (Pass.Settles.throw _).congr (by simp [Scalar.toJson, Json.isText])

/-- The names of a workspace are reserved just if the check accepts them. -/
theorem settles_reserveNames :
    scene.reserveNames.Settles (scene.Inside []) (scene.workspace.namesAccepted = true)
      fun _ => True := by
  refine ((Pass.Settles.ofExcept _).bind (R := (scene.definedNames.all fun name =>
    name.toJson.isText) = true) fun used _ => (settles_reserve .variable used).after fun names _ =>
      (settles_reserve .developerVariable _).after fun developer _ =>
        ((settles_reserveDefined _).bind (R := True) fun _ _ => ?_).congr
          (iff_of_eq (and_true _))).congr ?_
  · split
    · exact .pure trivial
    · split
      · exact .pure trivial
      · exact .of_ok fun s hs => ⟨_, _, rfl, trivial, hs.within, hs.loops⟩
  · have hused : scene.usedVariables.isOk = scene.workspace.usedVariables.isOk := by
      unfold usedVariables
      cases scene.workspace.usedVariables <;> rfl
    rw [hused, Workspace.namesAccepted, Bool.and_eq_true]
    rfl

/-- The top blocks are rendered just if each of them is a single value or starts a
    chain. -/
theorem Speaks.settles_topTexts (h : scene.Speaks language) (refs : List Ref) :
    (scene.topTexts refs).Settles (scene.Inside [])
      ((refs.all fun ref => scene.workspace.holdsCode
        (scene.workspace.shape scene.config.maxDepth) (some ref)) = true) fun _ => True := by
  induction refs with
  | nil => exact (Pass.Settles.pure trivial).congr (by simp)
  | cons ref refs ih =>
    rw [List.all_cons, Bool.and_eq_true]
    refine (settles_placeCode h.settles_render (h.ordered _ _ _) (some ref)).bind
      fun rendered _ => ?_
    cases rendered with
    | text code => exact ih.map fun texts _ => trivial
    | value code tier => exact ih.map fun texts _ => trivial

/-- A program is rendered just if the workspace passes the check. -/
theorem Speaks.settles_program (h : scene.Speaks language) :
    scene.program.Settles (scene.Inside [])
      (scene.workspace.accepted scene.config.maxDepth = true) fun _ => True := by
  refine (settles_reserveNames.bind fun _ _ => (h.settles_topTexts _).bind (R := True)
    fun texts _ => ?_).congr ?_
  · exact .of_ok fun s hs => ⟨_, _, rfl, trivial, hs⟩
  · simp [Workspace.accepted]

/-- A workspace that passes the check has a program. -/
theorem exists_program (language : Language) {config : Config} {workspace : Workspace}
    (h : workspace.accepted config.maxDepth = true) :
    ∃ program state, (ofLanguage language config workspace).program {} = (.ok program, state) := by
  have hsettles := (speaks_ofLanguage language config workspace).settles_program {}
    ⟨⟨rfl, rfl⟩, fun _ hmem => absurd hmem List.not_mem_nil⟩
  cases hrun : (ofLanguage language config workspace).program {} with
  | mk result state =>
    rw [hrun] at hsettles
    cases result with
    | ok program => exact ⟨program, state, rfl⟩
    | error failure => exact absurd h hsettles

end Scene

/-- A workspace is rendered just if it passes the check, in any language and under any
    options. -/
theorem generate_isOk_iff (language : Language) (config : Config) (workspace : Workspace) :
    (generate language config workspace).1.isOk = true ↔
      workspace.accepted config.maxDepth = true := by
  have hstart : (Scene.ofLanguage language config workspace).Inside [] {} := ⟨⟨rfl, rfl⟩, nofun⟩
  have hrun := (Scene.speaks_ofLanguage language config workspace).settles_program {} hstart
  unfold generate
  cases hprogram : (Scene.ofLanguage language config workspace).program {} with
  | mk result s =>
    rw [hprogram] at hrun
    cases result with
    | ok program => exact iff_of_true rfl hrun.1
    | error failure => exact iff_of_false nofun hrun

/-- All languages accept the same programs. At every depth, a workspace is rendered in
    every language and under all other options, or fails in all of them. -/
theorem generate_all_or_none (workspace : Workspace) (maxDepth : Int) :
    (∀ (language : Language) (config : Config), ∃ program,
        (generate language { config with maxDepth := maxDepth } workspace).1 = .ok program) ∨
      ∀ (language : Language) (config : Config), ∃ failure,
        (generate language { config with maxDepth := maxDepth } workspace).1 = .error failure := by
  have hiff := fun (language : Language) (config : Config) =>
    generate_isOk_iff language { config with maxDepth := maxDepth } workspace
  cases haccepted : workspace.accepted maxDepth with
  | true =>
    refine .inl fun language config => ?_
    have hok := (hiff language config).mpr haccepted
    cases hrun : (generate language { config with maxDepth := maxDepth } workspace).1 with
    | ok program => exact ⟨program, rfl⟩
    | error failure =>
      rw [hrun] at hok
      cases hok
  | false =>
    refine .inr fun language config => ?_
    cases hrun : (generate language { config with maxDepth := maxDepth } workspace).1 with
    | ok program =>
      have hyes := (hiff language config).mp (by rw [hrun]; rfl)
      rw [haccepted] at hyes
      cases hyes
    | error failure => exact ⟨failure, rfl⟩

end BlockScript
