import BlockScript.Proofs.Names.Reserved
import BlockScript.Proofs.Pass.Guard
import BlockScript.Proofs.Recipe.Asks

/-!
# Names that blocks use

Every variable that a rule asks for is mentioned by the workspace: it stands in the field
of a block or among the parameters of a procedure. Only the empty name is not reserved, so
without empty names whatever a rule asks for has been reserved.

Results:

* `Scene.VariablesReserved.of_uses`: the variables that a workspace uses are reserved.
-/

namespace BlockScript

open BlockScript.Text

/-- What is related to an item of the first of two lists. -/
theorem exists_of_forall₂ {α β : Type} {R : α → β → Prop} {items : List α} {others : List β}
    {item : α} (h : List.Forall₂ R items others) (hitem : item ∈ items) :
    ∃ other ∈ others, R item other := by
  induction h with
  | nil => cases hitem
  | cons hfirst _ ih =>
    rcases List.mem_cons.mp hitem with rfl | hrest
    · exact ⟨_, List.mem_cons_self, hfirst⟩
    · obtain ⟨other, hother, hrelated⟩ := ih hrest
      exact ⟨other, List.mem_cons_of_mem _ hother, hrelated⟩

namespace Scene

variable {scene : Scene} {language : Language} {ref : Ref} {block : Block Ref} {name : String}
  {kind : NameKind} {mentions used names developer : List String} {form : BlockForm}

/-- The identifiers of the variables are reserved for some names. -/
theorem VariablesReserved.exists_reserves (h : scene.VariablesReserved used names developer)
    {text : String} (htext : text ∈ developer ++ names) :
    ∃ kind name, scene.Reserves kind name text := by
  rcases List.mem_append.mp htext with hmem | hmem
  · obtain ⟨name, -, hreserves⟩ := exists_of_forall₂ h.developerVariables.flip hmem
    exact ⟨_, name, hreserves⟩
  · obtain ⟨name, -, hreserves⟩ := exists_of_forall₂ h.named.flip hmem
    exact ⟨_, name, hreserves⟩

/-- Whether no field for a variable and no parameter in a workspace is empty. -/
structure NamesGiven (scene : Scene) : Prop where
  field (ref : Ref) (block : Block Ref) (hplaced : scene.Placed ref)
    (hblock : scene.graph.block? ref = some block) :
    block.textField? Workspace.variableField ≠ some ""
  parameter (ref : Ref) (block : Block Ref) (hplaced : scene.Placed ref)
    (hblock : scene.graph.block? ref = some block) (listed : List Json)
    (hparams : block.params = .ok listed) : .str "" ∉ listed

/-- It is enough that no block of the graph has an empty name. -/
theorem NamesGiven.of_blocks (h : ∀ block ∈ scene.graph.blocks.toList,
    block.textField? Workspace.variableField ≠ some "" ∧
      ∀ listed, block.params = .ok listed → .str "" ∉ listed) : scene.NamesGiven where
  field _ block _ hblock := (h block (Array.mem_toList_iff.mpr (Array.mem_of_getElem? hblock))).1
  parameter _ block _ hblock :=
    (h block (Array.mem_toList_iff.mpr (Array.mem_of_getElem? hblock))).2

/-- Whether a block is rendered by a pass that gets through its workspace: it is in the
    chain of a top block, or rendered inside a block of one. -/
def Renders (scene : Scene) (ref : Ref) : Prop :=
  ∃ top ∈ scene.workspace.tops, ∃ first ∈ (scene.graph.chainFrom [] (some top)).1,
    Relation.ReflTransGen scene.RendersInside first ref

/-- The variables that a workspace uses: those of the developer, those it declares, those
    that its blocks name, the parameters of procedures, and whatever the rule for a block
    that is rendered asks for. -/
inductive Uses (scene : Scene) : NameKind → String → Prop where
  | developer {name : String} (h : name ∈ scene.workspace.developerVariables) :
    Uses scene .developerVariable name
  | declared {name : String} (h : name ∈ scene.workspace.declaredVariables) (hne : name ≠ "") :
    Uses scene .variable name
  | field {ref : Ref} {block : Block Ref} {name : String} (hplaced : scene.Placed ref)
    (hblock : scene.graph.block? ref = some block)
    (h : block.textField? Workspace.variableField = some name) : Uses scene .variable name
  | parameter {ref : Ref} {block : Block Ref} {listed : List Json} {name : String}
    (hplaced : scene.Placed ref) (hblock : scene.graph.block? ref = some block)
    (hdefinition : startsWith Workspace.definitionStart block.type = true)
    (hparams : block.params = .ok listed) (h : .str name ∈ listed) : Uses scene .variable name
  | asked {ref : Ref} {block : Block Ref} {form : BlockForm} {kind : NameKind} {name : String}
    (hrenders : scene.Renders ref) (hform : scene.HasForm ref block form)
    (hkind : kind ≠ .procedure)
    (h : (form.recipe scene ref block).Asks (.name kind name)) : Uses scene kind name

/-- A block that is rendered belongs to the workspace. -/
theorem Renders.placed (h : scene.Renders ref) : scene.Placed ref := by
  obtain ⟨top, htop, first, hfirst, hinside⟩ := h
  have hplaced : scene.Placed first :=
    Placed.chain (fun head hhead => ⟨top, htop, by cases hhead; exact .refl⟩) first hfirst
  induction hinside with
  | refl => exact hplaced
  | tail _ hlast ih => exact ih.reaches hlast.encloses.reaches.to_reflTransGen

/-! ## What is mentioned -/

theorem mem_allBlocks (hplaced : scene.Placed ref) (hblock : scene.graph.block? ref = some block) :
    ref ∈ scene.workspace.allBlocks :=
  Workspace.mem_allBlocks_iff.mpr ⟨⟨block, hblock⟩, hplaced⟩

/-- The names of a block are mentioned. -/
theorem variablesOf_subset (hmentions : scene.workspace.mentions = .ok mentions)
    (hplaced : scene.Placed ref) (hblock : scene.graph.block? ref = some block) :
    ∃ own, Workspace.variablesOf block = .ok own ∧ own ⊆ mentions := by
  obtain ⟨names, hnames, rfl⟩ := Workspace.mentions_eq_ok hmentions
  obtain ⟨own, hown, hsubset⟩ :=
    Workspace.mem_namesOf hnames (mem_allBlocks hplaced hblock) hblock
  exact ⟨own, hown, List.Subset.trans hsubset (List.subset_append_right _ _)⟩

/-- The variable in the field of a block is mentioned. -/
theorem field_mentioned (hmentions : scene.workspace.mentions = .ok mentions)
    (hplaced : scene.Placed ref) (hblock : scene.graph.block? ref = some block)
    (h : block.textField? Workspace.variableField = some name) : name ∈ mentions := by
  obtain ⟨own, hown, hsubset⟩ := variablesOf_subset hmentions hplaced hblock
  refine hsubset ?_
  unfold Workspace.variablesOf at hown
  rw [h] at hown
  dsimp only at hown
  split at hown
  · cases hparams : block.params with
    | error kind =>
      rw [hparams] at hown
      cases hown
    | ok listed =>
      rw [hparams] at hown
      cases hown
      exact List.mem_append_left _ (by simp)
  · cases hown
    simp

/-- The parameters of a procedure are mentioned. -/
theorem parameter_mentioned (hmentions : scene.workspace.mentions = .ok mentions)
    (hplaced : scene.Placed ref) (hblock : scene.graph.block? ref = some block)
    (hdefinition : startsWith Workspace.definitionStart block.type = true) {listed : List Json}
    (hparams : block.params = .ok listed) (h : .str name ∈ listed) : name ∈ mentions := by
  obtain ⟨own, hown, hsubset⟩ := variablesOf_subset hmentions hplaced hblock
  refine hsubset ?_
  unfold Workspace.variablesOf at hown
  dsimp only at hown
  rw [if_pos hdefinition, hparams] at hown
  cases hown
  exact List.mem_append_right _ (List.mem_filterMap.mpr ⟨_, h, rfl⟩)

/-- The types of blocks that define procedures start alike. -/
theorem Speaks.startsWith_definition (h : scene.Speaks language)
    (hform : scene.HasForm ref block .procedureDefinition) :
    startsWith Workspace.definitionStart block.type = true := by
  obtain ⟨-, -, rule, hrule, hhandler⟩ := hform
  have hall : ∀ entry ∈ (RuleTable.ofLanguage "").rules,
      entry.2.handler = .form .procedureDefinition →
        startsWith Workspace.definitionStart entry.1 = true := by
    decide
  have hfind := RuleTable.find?_of_lookup hrule
  rw [h.rules] at hfind
  exact hall _ (Json.mem_of_find? hfind) hhandler

/-- Variables that are named inside a block stand in fields of blocks of the workspace. -/
theorem exists_of_namedInside (hplaced : scene.Placed ref)
    (h : name ∈ Recipe.namedInside scene ref) :
    ∃ nested block, nested ∈ scene.graph.descendants ref ∧ scene.Placed nested ∧
      scene.graph.block? nested = some block ∧
      block.textField? Workspace.variableField = some name ∧ name ≠ "" := by
  obtain ⟨nested, hnested, hname⟩ := List.mem_filterMap.mp h
  obtain ⟨block, hblock, hrest⟩ := Option.bind_eq_some_iff.mp hname
  obtain ⟨found, hfield, hgiven⟩ := Option.bind_eq_some_iff.mp hrest
  split at hgiven
  · cases hgiven
  · next hne =>
    cases hgiven
    obtain ⟨-, hreach⟩ := Graph.of_mem_descendants hnested
    exact ⟨nested, block, hnested, hplaced.reaches hreach.to_reflTransGen, hblock, hfield, hne⟩

/-! ## What is reserved -/

/-- Names that are mentioned are reserved. -/
theorem VariablesReserved.of_mentioned (h : scene.VariablesReserved used names developer)
    (hmentions : scene.workspace.mentions = .ok mentions) (hname : name ∈ mentions)
    (hne : name ≠ "") : ∃ text ∈ names, scene.Reserves .variable name text := by
  obtain ⟨all, hall, hspellings⟩ := Workspace.usedVariables_spec h.usedVariables
  obtain rfl : all = mentions := Except.ok.inj (hall.symm.trans hmentions)
  obtain ⟨spelling, hspelling, hlower⟩ := hspellings.covers name hname hne
  obtain ⟨text, htext, hreserves⟩ := exists_of_forall₂ h.named hspelling
  exact ⟨text, htext, hreserves.of_lower hlower.symm⟩

/-- The variable that a block names is reserved. -/
theorem VariablesReserved.of_field (h : scene.VariablesReserved used names developer)
    (hgiven : scene.NamesGiven) (hplaced : scene.Placed ref)
    (hblock : scene.graph.block? ref = some block)
    (hname : block.textField? Workspace.variableField = some name) :
    ∃ text ∈ names, scene.Reserves .variable name text := by
  obtain ⟨mentions, hmentions, -⟩ := Workspace.usedVariables_spec h.usedVariables
  refine h.of_mentioned hmentions (field_mentioned hmentions hplaced hblock hname) ?_
  rintro rfl
  exact hgiven.field ref block hplaced hblock hname

/-- The parameters of a procedure are reserved. -/
theorem VariablesReserved.of_parameter (h : scene.VariablesReserved used names developer)
    (hgiven : scene.NamesGiven) (hplaced : scene.Placed ref)
    (hblock : scene.graph.block? ref = some block)
    (hdefinition : startsWith Workspace.definitionStart block.type = true) {listed : List Json}
    (hparams : block.params = .ok listed) (hname : .str name ∈ listed) :
    ∃ text ∈ names, scene.Reserves .variable name text := by
  obtain ⟨mentions, hmentions, -⟩ := Workspace.usedVariables_spec h.usedVariables
  refine h.of_mentioned hmentions
    (parameter_mentioned hmentions hplaced hblock hdefinition hparams hname) ?_
  rintro rfl
  exact hgiven.parameter ref block hplaced hblock listed hparams hname

/-- The developer's variables are reserved. -/
theorem VariablesReserved.of_developer (h : scene.VariablesReserved used names developer)
    (hname : name ∈ scene.workspace.developerVariables) :
    ∃ text ∈ developer, scene.Reserves .developerVariable name text :=
  exists_of_forall₂ h.developerVariables hname

/-- What a rule asks for is reserved. -/
theorem VariablesReserved.of_asks (h : scene.VariablesReserved used names developer)
    (hspeaks : scene.Speaks language) (hgiven : scene.NamesGiven) {form : BlockForm}
    (hplaced : scene.Placed ref) (hform : scene.HasForm ref block form) (hkind : kind ≠ .procedure)
    (hasks : (form.recipe scene ref block).Asks (.name kind name)) :
    ∃ text ∈ developer ++ names, scene.Reserves kind name text := by
  have hasked := (form.recipe_asks scene ref block).of_asks hasks
  cases kind with
  | procedure => exact absurd rfl hkind
  | developerVariable =>
    obtain ⟨text, htext, hreserves⟩ := h.of_developer hasked
    exact ⟨text, List.mem_append_left _ htext, hreserves⟩
  | «variable» =>
    have hreserved : ∃ text ∈ names, scene.Reserves .variable name text := by
      cases hasked with
      | field hname => exact h.of_field hgiven hplaced hform.1 hname
      | parameter hdefinition listed hparams hname =>
        subst hdefinition
        exact h.of_parameter hgiven hplaced hform.1 (hspeaks.startsWith_definition hform) hparams
          hname
      | inside hdefinition hname =>
        obtain ⟨nested, inner, -, hnested, hinner, hvariable, -⟩ :=
          exists_of_namedInside hplaced hname
        exact h.of_field hgiven hnested hinner hvariable
    obtain ⟨text, htext, hreserves⟩ := hreserved
    exact ⟨text, List.mem_append_right _ htext, hreserves⟩

/-- The variables that a workspace uses are reserved. -/
theorem VariablesReserved.of_uses (h : scene.VariablesReserved used names developer)
    (hspeaks : scene.Speaks language) (hgiven : scene.NamesGiven) (huses : scene.Uses kind name) :
    ∃ text ∈ developer ++ names, scene.Reserves kind name text := by
  have hright {kind : NameKind} {name : String}
      (hnamed : ∃ text ∈ names, scene.Reserves kind name text) :
      ∃ text ∈ developer ++ names, scene.Reserves kind name text := by
    obtain ⟨text, htext, hreserves⟩ := hnamed
    exact ⟨text, List.mem_append_right _ htext, hreserves⟩
  cases huses with
  | developer hname =>
    obtain ⟨text, htext, hreserves⟩ := h.of_developer hname
    exact ⟨text, List.mem_append_left _ htext, hreserves⟩
  | declared hname hne =>
    obtain ⟨mentions, hmentions, -⟩ := Workspace.usedVariables_spec h.usedVariables
    obtain ⟨all, -, rfl⟩ := Workspace.mentions_eq_ok hmentions
    exact hright (h.of_mentioned hmentions (List.mem_append_left _ hname) hne)
  | parameter hplaced hblock hdefinition hparams hname =>
    exact hright (h.of_parameter hgiven hplaced hblock hdefinition hparams hname)
  | field hplaced hblock hname => exact hright (h.of_field hgiven hplaced hblock hname)
  | asked hrenders hform hkind hasks =>
    exact h.of_asks hspeaks hgiven hrenders.placed hform hkind hasks

end Scene

end BlockScript
