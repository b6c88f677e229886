import BlockScript.Proofs.Names.Mentioned
import BlockScript.Proofs.Pass.Underway
import Mathlib.Data.List.Permutation

/-!
# Outer variables of procedures

A language in which procedures have variables of their own makes a procedure declare the
outer variables that it uses. The declaration is found by a walk over everything that is
nested in the definition, while the body comes from rendering. What is rendered inside the
definition is nested in it, so the two agree: each variable in the body is a parameter, or it
is declared, and no variable is both.

Results:

* `Scene.procedures_declareOuter`: the procedures of a program declare their outer variables.
-/

namespace BlockScript

open BlockScript.Text Relation

/-! ## New names -/

namespace Recipe

variable {known names : List String} {name : String}

/-- No two new names differ in case only. -/
theorem nodup_newNames : ((newNames known names).map lower).Nodup := by
  induction names generalizing known with
  | nil => exact .nil
  | cons first names ih =>
    rw [newNames]
    split
    · exact ih
    · refine List.nodup_cons.mpr ⟨fun hmem => ?_, ih⟩
      obtain ⟨name, hname, hlower⟩ := List.mem_map.mp hmem
      exact (of_mem_newNames hname).2 (hlower ▸ List.mem_cons_self)

/-- A name is known, or one of the new names differs from it in case only. -/
theorem newNames_covers (h : name ∈ names) :
    lower name ∈ known ∨ ∃ other ∈ newNames known names, lower other = lower name := by
  induction names generalizing known with
  | nil => cases h
  | cons first names ih =>
    rw [newNames]
    split
    · next hknown =>
      rcases List.mem_cons.mp h with rfl | hrest
      · exact .inl (by simpa using hknown)
      · exact ih hrest
    · rcases List.mem_cons.mp h with rfl | hrest
      · exact .inr ⟨name, List.mem_cons_self, rfl⟩
      · rcases ih hrest with hknown | ⟨other, hother, hlower⟩
        · rcases List.mem_cons.mp hknown with heq | hold
          · exact .inr ⟨first, List.mem_cons_self, heq.symm⟩
          · exact .inl hold
        · exact .inr ⟨other, List.mem_cons_of_mem _ hother, hlower⟩

/-- The lower-case forms of parameters. -/
theorem mem_lowerParams_iff {listed : List Json} {key : String}
    (h : lowerParams listed = .ok known) :
    key ∈ known ↔ ∃ name, .str name ∈ listed ∧ lower name = key := by
  induction listed generalizing known with
  | nil =>
    cases h
    simp
  | cons param listed ih =>
    cases param with
    | str name =>
      rw [lowerParams] at h
      cases hrest : lowerParams listed with
      | error failure =>
        rw [hrest] at h
        cases h
      | ok others =>
        rw [hrest] at h
        cases h
        simp [ih hrest, eq_comm]
    | _ => cases h

end Recipe

namespace Scene

variable {scene : Scene} {language : Language} {ref : Ref} {block : Block Ref} {room : Nat}
  {nest : List Ref} {kind : NameKind} {used names developer : List String} {s t : PassState}
  {declaration : String → String} {one : Ref → Pass Rendered}

theorem mem_namedInside {nested : Ref} {inner : Block Ref} {name : String}
    (hnested : nested ∈ scene.graph.descendants ref) (hinner : scene.graph.block? nested = some inner)
    (hfield : inner.textField? Workspace.variableField = some name) (hne : name ≠ "") :
    name ∈ Recipe.namedInside scene ref :=
  List.mem_filterMap.mpr ⟨nested, hnested, by simp [hinner, hfield, hne]⟩

/-! ## Procedures with outer variables -/

/-- Whether a recipe for a block can have a result once the names are reserved. -/
def YieldsLater {α : Type} (scene : Scene) (ref : Ref) (block : Block Ref) (recipe : Recipe α)
    (result : α) : Prop :=
  ∃ room s t, scene.Leads scene.reserved s ∧
    scene.follow (scene.renderWithin room) ref block recipe s = (.ok result, t)

/-- The line that declares outer variables, if there are any. -/
def outerLine (scene : Scene) (declaration : String → String) (names : List String) : String :=
  if names = [] then "" else scene.indent ++ declaration (joinWith ", " names)

/-- What stands inside a procedure after the declaration of outer variables. -/
def afterOuter (scene : Scene) (block : Block Ref) (outer statements result : String) : String :=
  let hooks := scene.indented (scene.startHook block ++ scene.endHook block)
  let trap := scene.injectIndented scene.config.loopTrap block
  let filled :=
    if result = "" && hooks = "" && trap = "" && outer = "" then scene.filled statements
    else statements
  let revisited := if statements ≠ "" && result ≠ "" then hooks else ""
  let last := if result = "" then "" else Recipe.returnStatement scene result
  hooks ++ trap ++ filled ++ revisited ++ last

/-- Whether a text is a procedure with parameters, in which the declaration of outer
    variables comes right after the header. -/
def IsProcedureText (scene : Scene) (declaration : String → String) (ref : Ref) (block : Block Ref)
    (text : String) (args outer : List String) : Prop :=
  ∃ name statements result,
    scene.YieldsLater ref block (Recipe.nameOf .procedure (block.field "NAME")) name ∧
    scene.YieldsLater ref block (Recipe.body "STACK") statements ∧
    scene.YieldsLater ref block (Recipe.value "RETURN" .none false) result ∧
    text = scene.commentLines ref ++
      (scene.dialect.procedureHeader name (joinWith ", " args) ++
        scene.outerLine declaration outer ++
        scene.afterOuter block (scene.outerLine declaration outer) statements result ++
        scene.dialect.procedureEnd)

/-- Whether the parameters of a procedure and the outer variables that it declares are what
    its body needs. -/
structure DeclaresOuter (scene : Scene) (ref : Ref) (block : Block Ref)
    (args named developer : List String) : Prop where
  /-- The parameters are those of the block. -/
  parameters : ∃ listed, block.params = .ok listed ∧ List.Forall₂
    (fun param identifier => ∃ name, param = .str name ∧ scene.AlwaysGives .variable name identifier)
    listed args
  /-- The variable in the field of each block that is rendered inside the definition is a
      parameter or declared. -/
  covers (nested : Ref) (inner : Block Ref) (name : String)
    (hinside : TransGen scene.RendersInside ref nested)
    (hinner : scene.graph.block? nested = some inner)
    (hfield : inner.textField? Workspace.variableField = some name) :
    ∃ identifier ∈ args ++ named, scene.AlwaysGives .variable name identifier
  /-- No parameter is declared. -/
  apart (identifier : String) (h : identifier ∈ args) : identifier ∉ named ++ developer
  /-- No variable that is named inside the definition is declared twice. -/
  once (identifier : String) (h : identifier ∈ named) : (named ++ developer).count identifier = 1
  /-- All variables of the developer are declared. -/
  developerVariables : List.Forall₂ (scene.AlwaysGives .developerVariable)
    scene.workspace.developerVariables developer

/-- Whether a text is a procedure that declares its outer variables. -/
def DeclaringProcedure (scene : Scene) (declaration : String → String) (text : String) : Prop :=
  ∃ ref block args named developer, scene.Placed ref ∧
    scene.HasForm ref block .procedureDefinition ∧
    scene.IsProcedureText declaration ref block text args (named ++ developer) ∧
    scene.DeclaresOuter ref block args named developer

/-! ## Identifiers in a definition -/

/-- Asking for reserved names gives their identifiers, and changes nothing. -/
theorem forall₂_of_forEach {ι : Type} {g : ι → Json} {items : List ι} {texts : List String}
    (hnames : ∀ item ∈ items, ∀ name, g item = .str name →
      ∃ identifier, scene.Reserves kind name identifier)
    (hs : scene.Leads scene.reserved s)
    (hrun : scene.follow one ref block (Recipe.forEach (fun item => Recipe.nameOf kind (g item)) items)
      s = (.ok texts, t)) :
    t = s ∧ List.Forall₂
      (fun item identifier => ∃ name, g item = .str name ∧ scene.Reserves kind name identifier)
      items texts := by
  induction items generalizing texts with
  | nil =>
    obtain ⟨rfl, rfl⟩ := follow_pure_eq_ok hrun
    exact ⟨rfl, .nil⟩
  | cons item items ih =>
    obtain ⟨text, u, htext, hrest⟩ := follow_bind_eq_ok hrun
    obtain ⟨others, v, hothers, hdone⟩ := follow_bind_eq_ok hrest
    obtain ⟨rfl, rfl⟩ := follow_pure_eq_ok hdone
    dsimp only at htext
    cases hitem : g item with
    | str name =>
      obtain ⟨identifier, hreserves⟩ := hnames item List.mem_cons_self name hitem
      rw [hitem] at htext
      unfold Recipe.nameOf at htext
      rw [follow_ask] at htext
      obtain ⟨hsame, rfl⟩ := Prod.mk.inj ((hreserves.alwaysGives s hs).symm.trans htext)
      obtain rfl : identifier = text := Except.ok.inj hsame
      obtain ⟨rfl, hall⟩ :=
        ih (fun other hother => hnames other (List.mem_cons_of_mem _ hother)) hothers
      exact ⟨rfl, .cons ⟨name, hitem, hreserves⟩ hall⟩
    | _ =>
      rw [hitem] at htext
      cases htext

/-- Identifiers of names that differ not only in case are different. -/
theorem nodup_of_reserves {texts : List String}
    (h : List.Forall₂ (scene.Reserves kind) names texts) (hnames : (names.map lower).Nodup) :
    texts.Nodup := by
  induction h with
  | nil => exact .nil
  | @cons name text names texts hfirst hrest ih =>
    obtain ⟨hnew, hothers⟩ := List.nodup_cons.mp hnames
    refine List.nodup_cons.mpr ⟨fun hmem => hnew ?_, ih hothers⟩
    obtain ⟨other, hother, hreserves⟩ := exists_of_forall₂ hrest.flip hmem
    exact List.mem_map.mpr ⟨other, hother, (Reserves.injective hreserves hfirst rfl).2⟩

/-- The names in a declaration of outer variables. -/
structure OuterNames (scene : Scene) (ref : Ref) (known named developer : List String) : Prop where
  named : List.Forall₂ (scene.Reserves .variable)
    (Recipe.newNames known (Recipe.namedInside scene ref)) named
  developer : List.Forall₂ (scene.Reserves .developerVariable)
    scene.workspace.developerVariables developer

/-- What the declaration of outer variables comes to. -/
theorem outerDeclaration_eq_ok (hdeclares : scene.dialect.globalDeclaration = some declaration)
    (hreserved : scene.VariablesReserved used names developer) (hplaced : scene.Placed ref)
    (hs : scene.Leads scene.reserved s) {outer : String}
    (hrun : scene.follow one ref block (Recipe.outerDeclaration scene ref block) s =
      (.ok outer, t)) :
    t = s ∧ ∃ listed known named developer, block.params = .ok listed ∧
      Recipe.lowerParams listed = .ok known ∧ scene.OuterNames ref known named developer ∧
      outer = scene.outerLine declaration (named ++ developer) := by
  obtain ⟨mentions, hmentions, -⟩ := Workspace.usedVariables_spec hreserved.usedVariables
  unfold Recipe.outerDeclaration at hrun
  rw [hdeclares] at hrun
  obtain ⟨known, u, hfirst, hrest⟩ := follow_bind_eq_ok hrun
  obtain ⟨hlower, rfl⟩ := follow_ofExcept_eq_ok hfirst
  obtain ⟨named, v, hsecond, hrest⟩ := follow_bind_eq_ok hrest
  obtain ⟨developer', w, hthird, hdone⟩ := follow_bind_eq_ok hrest
  obtain ⟨rfl, hnamed⟩ := forall₂_of_forEach (fun name hname text htext => by
    cases htext
    obtain ⟨nested, inner, -, hnested, hinner, hfield, hne⟩ :=
      exists_of_namedInside hplaced (Recipe.of_mem_newNames hname).1
    obtain ⟨identifier, -, hreserves⟩ :=
      hreserved.of_mentioned hmentions (field_mentioned hmentions hnested hinner hfield) hne
    exact ⟨identifier, hreserves⟩) hs hsecond
  obtain ⟨rfl, hdeveloper⟩ := forall₂_of_forEach (fun name hname text htext => by
    cases htext
    obtain ⟨identifier, -, hreserves⟩ := hreserved.of_developer hname
    exact ⟨identifier, hreserves⟩) hs hthird
  obtain ⟨listed, hlisted, hknown⟩ : ∃ listed, block.params = .ok listed ∧
      Recipe.lowerParams listed = .ok known := by
    unfold Recipe.params at hlower
    cases hparams : block.params with
    | error failure =>
      rw [hparams] at hlower
      cases hlower
    | ok listed =>
      rw [hparams] at hlower
      exact ⟨listed, rfl, hlower⟩
  have htext : ∀ {kind name identifier}, (∃ text, Json.str name = .str text ∧
      scene.Reserves kind text identifier) → scene.Reserves kind name identifier := by
    rintro kind name identifier ⟨text, ⟨⟩, hreserves⟩
    exact hreserves
  have hnames : scene.OuterNames ref known named developer' :=
    ⟨hnamed.imp fun _ _ => htext, hdeveloper.imp fun _ _ => htext⟩
  cases hall : named ++ developer' with
  | nil =>
    rw [hall] at hdone
    obtain ⟨rfl, rfl⟩ := follow_pure_eq_ok hdone
    exact ⟨rfl, listed, known, named, developer', hlisted, hknown, hnames, by simp [outerLine, hall]⟩
  | cons first others =>
    rw [hall] at hdone
    obtain ⟨rfl, rfl⟩ := follow_pure_eq_ok hdone
    exact ⟨rfl, listed, known, named, developer', hlisted, hknown, hnames, by simp [outerLine, hall]⟩

/-- What is known of the parameters and outer variables of a procedure is what its body
    needs. -/
theorem declaresOuter (hgiven : scene.NamesGiven) (hplaced : scene.Placed ref)
    {listed : List Json} {known args named developer : List String}
    (hparams : block.params = .ok listed) (hknown : Recipe.lowerParams listed = .ok known)
    (hargs : List.Forall₂ (fun param identifier => ∃ name, param = .str name ∧
      scene.Reserves .variable name identifier) listed args)
    (hnames : scene.OuterNames ref known named developer)
    (hnested : ∀ nested, TransGen scene.RendersInside ref nested → scene.graph.Stored nested →
      nested ∈ scene.graph.descendants ref) :
    scene.DeclaresOuter ref block args named developer where
  parameters := ⟨listed, hparams, hargs.imp fun param identifier h => by
    obtain ⟨name, hname, hreserves⟩ := h
    exact ⟨name, hname, hreserves.alwaysGives⟩⟩
  covers nested inner name hinside hinner hfield := by
    have hdescendant := hnested nested hinside ⟨inner, hinner⟩
    have hbelow : scene.Placed nested :=
      hplaced.reaches (Graph.of_mem_descendants hdescendant).2.to_reflTransGen
    have hne : name ≠ "" := by
      rintro rfl
      exact hgiven.field nested inner hbelow hinner hfield
    have hcovered : lower name ∈ known ∨
        ∃ other ∈ Recipe.newNames known (Recipe.namedInside scene ref), lower other = lower name :=
      Recipe.newNames_covers (mem_namedInside hdescendant hinner hfield hne)
    rcases hcovered with hparam | ⟨other, hother, hlower⟩
    · obtain ⟨param, hparam, hlower⟩ := (Recipe.mem_lowerParams_iff hknown).mp hparam
      obtain ⟨identifier, hidentifier, name', heq, hreserves⟩ := exists_of_forall₂ hargs hparam
      cases heq
      exact ⟨identifier, List.mem_append_left _ hidentifier,
        (hreserves.of_lower hlower.symm).alwaysGives⟩
    · obtain ⟨identifier, hidentifier, hreserves⟩ := exists_of_forall₂ hnames.named hother
      exact ⟨identifier, List.mem_append_right _ hidentifier,
        (hreserves.of_lower hlower.symm).alwaysGives⟩
  apart identifier hidentifier := by
    obtain ⟨param, hparam, name, rfl, hreserves⟩ := exists_of_forall₂ hargs.flip hidentifier
    rw [List.mem_append, not_or]
    refine ⟨fun hnamed => ?_, fun hdeveloper => ?_⟩
    · obtain ⟨other, hother, hreserves'⟩ := exists_of_forall₂ hnames.named.flip hnamed
      have hlower := (Reserves.injective hreserves hreserves' rfl).2
      exact (Recipe.of_mem_newNames hother).2
        ((Recipe.mem_lowerParams_iff hknown).mpr ⟨name, hparam, hlower⟩)
    · obtain ⟨other, -, hreserves'⟩ := exists_of_forall₂ hnames.developer.flip hdeveloper
      cases (Reserves.injective hreserves hreserves' rfl).1
  once identifier hidentifier := by
    have hnodup : named.Nodup := nodup_of_reserves hnames.named Recipe.nodup_newNames
    have hnot : identifier ∉ developer := by
      intro hdeveloper
      obtain ⟨name, -, hreserves⟩ := exists_of_forall₂ hnames.named.flip hidentifier
      obtain ⟨other, -, hreserves'⟩ := exists_of_forall₂ hnames.developer.flip hdeveloper
      cases (Reserves.injective hreserves hreserves' rfl).1
    rw [List.count_append, List.count_eq_one_of_mem hnodup hidentifier, List.count_eq_zero.mpr hnot]
  developerVariables := hnames.developer.imp fun _ _ h => h.alwaysGives

/-! ## Definitions -/

/-- A procedure in the definitions so far declares its outer variables. -/
abbrev SoundOuter (scene : Scene) (declaration : String → String) : PassState → Prop :=
  PassState.Sound scene.dialect.policy fun key text =>
    isProcedureKey key = true → scene.DeclaringProcedure declaration text

/-- What the rule for a definition sets declares its outer variables. -/
theorem Speaks.underway_procedureDefinition (h : scene.Speaks language)
    (hdeclares : scene.dialect.globalDeclaration = some declaration)
    (hreserved : scene.VariablesReserved used names developer) (hgiven : scene.NamesGiven)
    (hplaced : scene.Placed ref) (hform : scene.HasForm ref block .procedureDefinition)
    (hone : scene.AllPreserve (scene.Underway (scene.SoundOuter declaration) (ref :: nest))
      (scene.renderWithin room)) :
    (scene.follow (scene.renderWithin room) ref block
      (Recipe.procedureDefinition scene ref block)).Preserves
        (scene.Underway (scene.SoundOuter declaration) (ref :: nest)) := by
  intro s product t hs hrun
  have hblock := hform.1
  -- Since the definition succeeds, it passes the check, so the walk misses nothing.
  have hpasses : Recipe.Passes scene
      (scene.workspace.shapeWithin scene.config.maxDepth room (ref :: nest)) block
      .procedureDefinition :=
    h.passes_of_follow hform hs.inside hrun
  have hkeeps : ∀ {α : Type} {recipe : Recipe α}, recipe.Modest scene.dialect →
      (scene.follow (scene.renderWithin room) ref block recipe).Preserves
        (scene.Underway (scene.SoundOuter declaration) (ref :: nest)) := fun hmodest =>
    (tolerates_sound h.dialect fun key text hkey hyes => by
      rw [hkey] at hyes
      cases hyes).underway_follow (fun hsound hnames hdefinitions =>
        sound_of_eq hsound hnames hdefinitions) hone hplaced hblock hform.ruled hmodest
  obtain ⟨name, a, hname, hrest⟩ := follow_bind_eq_ok hrun
  obtain ⟨outer, b, houter, hrest⟩ := follow_bind_eq_ok hrest
  obtain ⟨statements, c, hstatements, hrest⟩ := follow_bind_eq_ok hrest
  obtain ⟨result, d, hresult, hrest⟩ := follow_bind_eq_ok hrest
  obtain ⟨listed, _, hlisted, hend⟩ := follow_bind_eq_ok hrest
  obtain ⟨hparams', rfl⟩ := follow_ofExcept_eq_ok hlisted
  obtain ⟨args, e, hparameters, hset⟩ := follow_bind_eq_ok hend
  obtain ⟨_, f, hdefine, hdone⟩ := follow_bind_eq_ok hset
  obtain ⟨rfl, rfl⟩ := follow_pure_eq_ok hdone
  have ha := hkeeps (Recipe.modest_nameOf _ _ _) _ _ _ hs hname
  obtain ⟨rfl, listed', known, named, developer', hparams, hknown, hnames, rfl⟩ :=
    outerDeclaration_eq_ok hdeclares hreserved hplaced ha.leads houter
  have hc := hkeeps (Recipe.modest_body _ "STACK" false) _ _ _ ha hstatements
  have hd := hkeeps (Recipe.modest_value _ "RETURN" _ _) _ _ _ hc hresult
  obtain rfl : listed' = listed := by
    unfold Recipe.params at hparams'
    rw [hparams] at hparams'
    exact Except.ok.inj hparams'
  obtain ⟨rfl, hargs⟩ := forall₂_of_forEach (g := fun param => param) (fun param hparam text htext => by
    subst htext
    obtain ⟨identifier, -, hreserves⟩ := hreserved.of_parameter hgiven hplaced hblock
      (h.startsWith_definition hform) hparams hparam
    exact ⟨identifier, hreserves⟩) hd.leads hparameters
  have hwritten : scene.DeclaringProcedure declaration (scene.commentLines ref ++
      (scene.dialect.procedureHeader name (joinWith ", " args) ++
        scene.outerLine declaration (named ++ developer') ++
        scene.afterOuter block (scene.outerLine declaration (named ++ developer')) statements result ++
        scene.dialect.procedureEnd)) := by
    refine ⟨ref, block, args, named, developer', hplaced, hform,
      ⟨name, statements, result, ⟨room, s, _, hs.leads, hname⟩, ⟨room, _, c, ha.leads, hstatements⟩,
        ⟨room, c, _, hc.leads, hresult⟩, rfl⟩, ?_⟩
    exact declaresOuter hgiven hplaced hparams hknown hargs hnames
      fun nested hinside hstored => h.mem_descendants hform hpasses hinside hstored
  unfold Recipe.define at hdefine
  rw [follow_ask] at hdefine
  refine hd.of_run (p := Pass.define _ _) (fun hkept => hkept.define _ _) hdefine ?_
  cases hdefine
  refine ⟨⟨fun hname => hd.holds.named.assigned hname, fun hname => hd.holds.named.helpers hname⟩,
    hd.holds.holds.add (fun _ => ?_) rfl⟩
  simpa only [afterOuter, String.append_assoc] using hwritten

/-! ## Programs -/

/-- Every procedure of a program in a language with declarations of outer variables declares
    these right after its header, and each variable in its body is one of them or a parameter,
    never both. -/
theorem procedures_declareOuter {language : Language} {declaration : String → String}
    {config : Config} {workspace : Workspace} {program : Program} {state : PassState}
    (hdeclares : language.dialect.globalDeclaration = some declaration)
    (hgiven : (ofLanguage language config workspace).NamesGiven)
    (hrun : (ofLanguage language config workspace).program {} = (.ok program, state)) :
    (∃ texts, program.code =
        tidy ((ofLanguage language config workspace).finish state.definitions (joinWith "\n" texts))) ∧
      ∀ entry ∈ state.definitions.entries, isProcedureKey entry.1 = true →
        (ofLanguage language config workspace).DeclaringProcedure declaration entry.2 := by
  have hspeaks := speaks_ofLanguage language config workspace
  obtain ⟨texts, s, hreserve, htexts, hcode⟩ := program_eq_ok hrun
  refine ⟨⟨texts, hcode⟩, ?_⟩
  have hsound : (ofLanguage language config workspace).SoundOuter declaration s := by
    refine sound_reserveNames (fun key text hkey hyes => ?_) {} () s ⟨?_, ?_⟩ hreserve
    · rw [hkey] at hyes
      cases hyes
    · exact PassState.named_empty
    · exact fun entry hentry => by cases hentry
  have hinside : (ofLanguage language config workspace).Inside [] s :=
    (settles_reserveNames.of_run ⟨⟨rfl, rfl⟩, fun _ hmem => absurd hmem List.not_mem_nil⟩
      hreserve).2.2
  obtain ⟨rfl, used, names, developer, hreserved⟩ := reserveNames_spec hreserve
  have hkeeps := hspeaks.underway_renderWithin
    (tolerates_sound hspeaks.dialect fun key text hkey hyes => by rw [hkey] at hyes; cases hyes)
    (fun hsound hnames hdefinitions => sound_of_eq hsound hnames hdefinitions)
    (fun room nest ref block hplaced hform hone =>
      hspeaks.underway_procedureDefinition hdeclares hreserved hgiven hplaced hform hone)
  have hend := preserves_topTexts (hkeeps _ []) (fun ref hmem => ⟨ref, hmem, .refl⟩) _ _ _
    ⟨hinside, .refl, hsound⟩ htexts
  exact hend.holds.holds

/-! ### A procedure with a parameter -/

/-- A procedure that sets its parameter, which it spells differently, and another variable. -/
def sharing : Workspace where
  developerVariables := ["env"]
  tops := [0]
  graph := ⟨#[{ Block.ofType "procedures_defnoreturn" with
      fields := [("NAME", .text "act")], statements := [("STACK", some 1)],
      extraState := [("params", .arr [.str "Item"])] },
    { Block.ofType "variables_set" with fields := [("VAR", .text "item")], next := some 2 },
    { Block.ofType "variables_set" with fields := [("VAR", .text "total")] }]⟩

theorem accepted_sharing : sharing.accepted ({} : Config).maxDepth = true := by
  have hall : sharing.allBlocks = [0, 1, 2] := by cbv
  have hnames : sharing.namesAccepted = true := by
    unfold Workspace.namesAccepted Workspace.usedVariables
    rw [hall]
    rfl
  rw [Workspace.accepted, hnames]
  decide +kernel

theorem namesGiven_sharing : (ofLanguage .python {} sharing).NamesGiven := by
  refine .of_blocks fun block hblock => ?_
  obtain rfl | rfl | rfl : block = _ ∨ block = _ ∨ block = _ := by
    simpa [ofLanguage, graph, sharing] using hblock
  all_goals
    refine ⟨by decide, fun listed hlisted => ?_⟩
    cases hlisted
    simp

theorem procedures_declareOuter_sharing :
    ∃ declaration, Language.python.dialect.globalDeclaration = some declaration ∧
      (ofLanguage .python {} sharing).NamesGiven ∧
      ∃ program state, (ofLanguage .python {} sharing).program {} = (.ok program, state) ∧
        (∃ texts, program.code =
          tidy ((ofLanguage .python {} sharing).finish state.definitions (joinWith "\n" texts))) ∧
        ∀ entry ∈ state.definitions.entries, isProcedureKey entry.1 = true →
          (ofLanguage .python {} sharing).DeclaringProcedure declaration entry.2 := by
  obtain ⟨program, state, hrun⟩ := exists_program .python accepted_sharing
  exact ⟨_, rfl, namesGiven_sharing, program, state, hrun,
    procedures_declareOuter rfl namesGiven_sharing hrun⟩

end Scene

end BlockScript
