import BlockScript.Proofs.Code.Operand
import BlockScript.Proofs.Graph.Pruned
import BlockScript.Proofs.Pass.Guard

/-!
# Rendering without disabled blocks

A disabled block is rendered as if it were not there. A tree renders as the tree without
its disabled blocks does, in any language: with the same result or the same failure, the
same definitions and the same identifiers. Comments aside, as those of a disabled block in
a value socket are still written, and so are variables that a disabled block inside a
procedure's definition names.

Definitions:

* `Scene.pruned`: a scene without its disabled blocks.
* `Scene.Prunable`: what a scene must be like for its disabled blocks to be left out.

Results:

* `BlockForm.recipe_pruned`: no recipe tells a disabled block from an empty socket.
* `Scene.Prunable.renderOr_pruned`: blocks render alike in the pruned scene.
* `Scene.renderPlace_pruned`: a tree renders as the pruned tree does.
-/

namespace BlockScript

open BlockScript.Text

/-- A workspace without its disabled blocks. -/
def Workspace.pruned (workspace : Workspace) : Workspace :=
  { workspace with
    tops := workspace.tops.filterMap fun top => workspace.graph.skip (some top)
    graph := workspace.graph.pruned }

namespace Scene

/-- A scene without its disabled blocks. -/
def pruned (scene : Scene) : Scene :=
  { scene with workspace := scene.workspace.pruned }

/-- Whether disabled blocks of a scene make no difference: no comments are written, no block
    defines a procedure, chains end, and an enabled block below another one is a
    statement. -/
structure Prunable (scene : Scene) : Prop where
  silent : scene.config.emitComments = false
  undefined {ref : Ref} {block : Block Ref} {rule : Rule}
    (hblock : scene.graph.block? ref = some block) (hrule : scene.rules.lookup block.type = .ok rule) :
    rule.handler ≠ .form .procedureDefinition
  ends (place : Option Ref) : (scene.graph.chainFrom [] place).2 = none
  below {ref next : Ref} {block lower : Block Ref} (hblock : scene.graph.block? ref = some block)
    (hnext : block.next = some next) (hlower : scene.graph.block? next = some lower)
    (henabled : lower.enabled = true) :
    ∃ rule, scene.rules.lookup lower.type = .ok rule ∧ rule.isValue = false

end Scene

variable {scene : Scene} {graph : Graph} {ref : Ref} {block : Block Ref} {socket : String}

/-! ## Recipes -/

theorem Json.find?_map {α β : Type} (f : α → β) (members : List (String × α)) (key : String) :
    Json.find? (members.map fun member => (member.1, f member.2)) key =
      (Json.find? members key).map f := by
  unfold Json.find?
  rw [List.find?_map, Option.map_map, Option.map_map]
  rfl

theorem valueInput_prunedBlock : (graph.prunedBlock block).valueInput socket =
    (block.valueInput socket).filter graph.isEnabled := by
  unfold Block.valueInput Graph.prunedBlock
  rw [Json.find?_map]
  cases Json.find? block.values socket <;> rfl

theorem statementInput_prunedBlock : (graph.prunedBlock block).statementInput socket =
    graph.skip (block.statementInput socket) := by
  unfold Block.statementInput Graph.prunedBlock
  rw [Json.find?_map]
  cases Json.find? block.statements socket with
  | none => exact (Graph.Chain.skip_eq .none).symm
  | some plug => rfl

theorem hasInput_prunedBlock : (graph.prunedBlock block).hasInput socket = block.hasInput socket := by
  unfold Block.hasInput Graph.prunedBlock
  rw [Json.find?_map, Json.find?_map, Option.isSome_map, Option.isSome_map]

theorem arms_prunedBlock : Recipe.arms (graph.prunedBlock block) = Recipe.arms block := by
  unfold Recipe.arms
  simp only [hasInput_prunedBlock]
  simp only [Graph.prunedBlock, List.length_map]

theorem Scene.block?_pruned (ref : Ref) : scene.pruned.graph.block? ref =
    (scene.graph.block? ref).map scene.graph.prunedBlock :=
  Graph.block?_pruned

theorem reopened_pruned (loop : Ref) : Recipe.reopened scene.pruned loop = Recipe.reopened scene loop := by
  unfold Recipe.reopened
  rw [Scene.block?_pruned]
  cases scene.graph.block? loop <;> rfl

/-- No recipe but that of a procedure's definition tells a disabled block from an empty
    socket. -/
theorem BlockForm.recipe_pruned {form : BlockForm} (h : form ≠ .procedureDefinition) :
    form.recipe scene.pruned ref (scene.graph.prunedBlock block) = form.recipe scene ref block := by
  cases form with
  | procedureDefinition => exact absurd rfl h
  | conditional =>
    have harm : Recipe.arm scene.pruned (scene.graph.prunedBlock block) = Recipe.arm scene block :=
      rfl
    have hlast : Recipe.otherwise scene.pruned (scene.graph.prunedBlock block) =
        Recipe.otherwise scene block := by
      unfold Recipe.otherwise
      rw [hasInput_prunedBlock]
      rfl
    show Recipe.conditional _ _ = Recipe.conditional _ _
    unfold Recipe.conditional
    rw [arms_prunedBlock, harm, hlast]
    rfl
  | flow =>
    show Recipe.flow _ _ = Recipe.flow _ _
    unfold Recipe.flow
    simp only [reopened_pruned]
    rfl
  | conditionalReturn =>
    show Recipe.conditionalReturn _ _ = Recipe.conditionalReturn _ _
    unfold Recipe.conditionalReturn
    rw [hasInput_prunedBlock]
    rfl
  | _ => rfl

namespace Scene

variable {one : Ref → Pass Rendered} {α : Type}

/-! ## Sockets and chains

Nothing but what is enabled is rendered to anything. -/

/-- Whether a disabled block and one that is not there give no text. -/
def Mutes (scene : Scene) (one : Ref → Pass Rendered) : Prop :=
  ∀ ref, scene.graph.isEnabled ref = false → one ref = pure (.text "")

theorem type_pruned (ref : Ref) : (scene.pruned.graph.block? ref).map (·.type) =
    (scene.graph.block? ref).map (·.type) := by
  rw [block?_pruned]
  cases scene.graph.block? ref <;> rfl

/-- A value socket with a disabled block in it is an empty one. -/
theorem valueText_pruned (hmutes : scene.Mutes one) (tier : Tier) (strict : Bool) :
    scene.pruned.valueText one (scene.graph.prunedBlock block) socket tier strict =
      scene.valueText one block socket tier strict := by
  unfold valueText
  rw [valueInput_prunedBlock]
  cases hinput : block.valueInput socket with
  | none => rfl
  | some target =>
    cases henabled : scene.graph.isEnabled target with
    | true =>
      rw [Option.filter_some_pos henabled]
      dsimp only
      rw [type_pruned]
      rfl
    | false =>
      rw [Option.filter_some_neg henabled]
      dsimp only
      rw [hmutes target henabled]
      rfl

/-- The disabled blocks of a chain add nothing to it. -/
theorem chainText_pruned (hmutes : scene.Mutes one) (refs : List Ref) :
    scene.pruned.chainText one (refs.filter scene.graph.isEnabled) = scene.chainText one refs := by
  induction refs with
  | nil => rfl
  | cons ref refs ih =>
    cases henabled : scene.graph.isEnabled ref with
    | true =>
      rw [List.filter_cons_of_pos henabled, chainText, chainText, ih, type_pruned]
    | false =>
      have hno : ¬scene.graph.isEnabled ref = true := by rw [henabled]; exact Bool.false_ne_true
      have hempty : (fun rest => pure ("" ++ rest) : String → Pass String) = pure := by
        funext rest
        rw [String.empty_append]
      rw [List.filter_cons_of_neg hno, ih, chainText, hmutes ref henabled, pure_bind]
      dsimp only
      rw [hempty, bind_pure]

namespace Prunable

variable (h : scene.Prunable)
include h

theorem chain (place : Option Ref) :
    scene.graph.Chain place (scene.graph.chainFrom [] place).1 :=
  .of_chainFrom (h.ends place)

/-- The chain of a place without its disabled blocks. -/
theorem chainFrom_skip (place : Option Ref) :
    scene.pruned.graph.chainFrom [] (scene.graph.skip place) =
      ((scene.graph.chainFrom [] place).1.filter scene.graph.isEnabled, none) :=
  (h.chain place).pruned.chainFrom_eq (fun _ _ => List.not_mem_nil)
    fun _ hmem => absurd hmem List.not_mem_nil

/-- The text of the chain that starts at a block. -/
theorem chainCode_eq (ref : Ref) : scene.chainCode one ref =
    scene.chainText one (scene.graph.chainFrom [] (some ref)).1 := by
  have hends := h.ends (some ref)
  unfold chainCode
  cases hchain : scene.graph.chainFrom [] (some ref) with
  | mk refs repeated =>
    rw [hchain] at hends
    obtain rfl := hends
    exact bind_pure _

/-- A chain without its disabled blocks renders to the text that it renders to with them. -/
theorem chainCode_pruned (hmutes : scene.Mutes one) {target : Ref}
    (hskip : scene.graph.skip (some ref) = some target) :
    scene.pruned.chainCode one target = scene.chainCode one ref := by
  have hchain := h.chainFrom_skip (some ref)
  rw [hskip] at hchain
  rw [h.chainCode_eq, ← chainText_pruned hmutes]
  unfold chainCode
  rw [hchain]
  exact bind_pure _

/-- A place renders to what it renders to without its disabled blocks. -/
theorem placeCode_pruned (hmutes : scene.Mutes one) (place : Option Ref) :
    scene.pruned.placeCode one (scene.graph.skip place) = scene.placeCode one place := by
  cases place with
  | none => rw [Graph.Chain.skip_eq .none]; rfl
  | some ref =>
    cases hblock : scene.graph.block? ref with
    | none =>
      rw [Graph.Chain.skip_eq (.absent hblock), placeCode, hblock]
      rfl
    | some block =>
      have hwhole := h.chain (some ref)
      rw [Graph.chainFrom_of_some List.not_mem_nil hblock] at hwhole
      cases henabled : block.enabled with
      | true =>
        have hskip : scene.graph.skip (some ref) = some ref := by
          rw [hwhole.skip_eq]
          exact List.find?_cons_of_pos ((Graph.isEnabled_eq hblock).trans henabled)
        have hpruned : scene.pruned.graph.block? ref = some (scene.graph.prunedBlock block) := by
          rw [block?_pruned, hblock]
          rfl
        rw [hskip]
        unfold placeCode
        dsimp only
        rw [hblock, hpruned]
        dsimp only
        rw [h.chainCode_pruned hmutes hskip]
        rfl
      | false =>
        -- The chain goes on below the disabled block.
        have hdisabled : scene.placeCode one (some ref) =
            (do return .text (← scene.chainCode one ref)) := by
          unfold placeCode
          dsimp only
          rw [hblock]
          dsimp only
          rw [henabled]
          rfl
        rw [hdisabled]
        cases hskip : scene.graph.skip (some ref) with
        | none =>
          have hnone : scene.chainCode one ref = pure "" := by
            rw [h.chainCode_eq, ← chainText_pruned hmutes]
            rw [Graph.skip, List.find?_eq_none] at hskip
            rw [List.filter_eq_nil_iff.mpr hskip]
            rfl
          rw [hnone]
          rfl
        | some target =>
          have htarget : scene.graph.isEnabled target = true := Graph.isEnabled_of_skip hskip
          have hmem : target ∈ (scene.graph.chainFrom [ref] block.next).1 := by
            rw [hwhole.skip_eq] at hskip
            rcases List.mem_cons.mp (List.mem_of_find?_eq_some hskip) with rfl | hmem
            · rw [Graph.isEnabled_eq hblock, henabled] at htarget
              cases htarget
            · exact hmem
          obtain ⟨above, upper, hupper, hnext⟩ := hwhole.exists_above hmem
          obtain ⟨lower, hlower, hlowerEnabled⟩ := (Option.any_eq_true ..).mp htarget
          obtain ⟨rule, hrule, hstatement⟩ := h.below hupper hnext hlower hlowerEnabled
          have hpruned : scene.pruned.graph.block? target =
              some (scene.graph.prunedBlock lower) := by
            rw [block?_pruned, hlower]
            rfl
          unfold placeCode
          dsimp only
          rw [hpruned]
          dsimp only
          rw [show (scene.graph.prunedBlock lower).enabled = true from hlowerEnabled, if_pos rfl,
            show scene.pruned.rules.lookup (scene.graph.prunedBlock lower).type = .ok rule from hrule,
            Pass.ofExcept_bind, hstatement, if_neg Bool.false_ne_true,
            h.chainCode_pruned hmutes hskip]

/-- A statement socket renders to what it renders to without the disabled blocks in it. -/
theorem bodyText_pruned (hmutes : scene.Mutes one) :
    scene.pruned.bodyText one (scene.graph.prunedBlock block) socket =
      scene.bodyText one block socket := by
  unfold bodyText
  rw [statementInput_prunedBlock, h.placeCode_pruned hmutes]
  rfl

/-! ## Blocks -/

/-- A request is answered alike. -/
theorem answer_pruned (hmutes : scene.Mutes one) (request : Request) :
    scene.pruned.answer one ref (scene.graph.prunedBlock block) request =
      scene.answer one ref block request := by
  cases request with
  | value socket tier strict => exact valueText_pruned hmutes tier strict
  | body socket loop =>
    unfold answer
    dsimp only
    rw [h.bodyText_pruned hmutes]
  | _ => rfl

/-- A recipe is followed alike. -/
theorem follow_pruned (hmutes : scene.Mutes one) (recipe : Recipe α) :
    scene.pruned.follow one ref (scene.graph.prunedBlock block) recipe =
      scene.follow one ref block recipe := by
  induction recipe with
  | done result => rfl
  | fail failure => rfl
  | ask request next ih =>
    unfold follow
    rw [h.answer_pruned hmutes]
    simp only [ih]

/-- The recipe of a rule is the same. -/
theorem recipe_pruned (hblock : scene.graph.block? ref = some block) {rule : Rule}
    (hrule : scene.rules.lookup block.type = .ok rule) :
    rule.handler.recipe scene.pruned ref (scene.graph.prunedBlock block) =
      rule.handler.recipe scene ref block := by
  have hundefined := h.undefined hblock hrule
  cases hhandler : rule.handler with
  | always product => rfl
  | form form => exact BlockForm.recipe_pruned fun hform => hundefined (by rw [hhandler, hform])

/-- Without comments, what a rule makes of a block stands for the same. -/
theorem conclude_pruned (rule : Rule) (product : Product) :
    scene.pruned.conclude rule ref (scene.graph.prunedBlock block) product =
      scene.conclude rule ref block product := by
  have hcomments : scene.pruned.commentLines ref = scene.commentLines ref := by
    have hsilent : scene.pruned.config.emitComments = false := h.silent
    unfold commentLines
    rw [h.silent, hsilent]
    rfl
  have htext : ∀ code, scene.pruned.statementText rule ref (scene.graph.prunedBlock block) code =
      scene.statementText rule ref block code := by
    intro code
    unfold statementText
    rw [hcomments]
    rfl
  unfold conclude
  simp only [htext]
  rfl

/-- One block renders alike, if what is plugged into it does. -/
theorem renderOne_pruned (hmutes : scene.Mutes one) (ref : Ref) :
    scene.pruned.renderOne one ref = scene.renderOne one ref := by
  unfold renderOne
  rw [block?_pruned]
  cases hblock : scene.graph.block? ref with
  | none => rfl
  | some block =>
    dsimp only [Option.map_some]
    rw [show (scene.graph.prunedBlock block).enabled = block.enabled from rfl]
    split
    · rfl
    · funext s
      have hpermit : scene.pruned.permit ref (scene.graph.prunedBlock block) =
          scene.permit ref block := rfl
      rw [Pass.bind_apply, Pass.bind_apply, hpermit]
      cases hrun : scene.permit ref block s with
      | mk result t =>
        cases result with
        | error failure => rfl
        | ok rule =>
          obtain ⟨hrule, -⟩ := permit_eq_ok hrun
          dsimp only
          rw [h.recipe_pruned hblock hrule, h.follow_pruned hmutes]
          simp only [h.conclude_pruned]

end Prunable

/-- Rendering without room, where disabled blocks are left out all the same. -/
def stopped (scene : Scene) (ref : Ref) : Pass Rendered :=
  if scene.graph.isEnabled ref then throw .noLoopToLeave else pure (.text "")

theorem mutes_renderOr (room : Nat) : scene.Mutes (scene.renderOr scene.stopped room) := by
  intro ref hdisabled
  cases room with
  | zero =>
    show scene.stopped ref = _
    unfold stopped
    rw [hdisabled]
    rfl
  | succ room =>
    show scene.renderOne _ ref = _
    unfold renderOne
    cases hblock : scene.graph.block? ref with
    | none => rfl
    | some block =>
      dsimp only
      rw [Graph.isEnabled_eq hblock] at hdisabled
      rw [hdisabled]
      rfl

/-- Blocks render alike in the pruned scene, with room for so many levels of nesting. -/
theorem Prunable.renderOr_pruned (h : scene.Prunable) (room : Nat) :
    scene.pruned.renderOr scene.stopped room = scene.renderOr scene.stopped room := by
  induction room with
  | zero => rfl
  | succ room ih =>
    funext ref
    show scene.pruned.renderOne _ ref = scene.renderOne _ ref
    rw [ih]
    exact h.renderOne_pruned (mutes_renderOr room) ref

/-- A place renders in a pruned scene as it does in the whole one. -/
theorem Prunable.renderPlace_eq (h : scene.Prunable) {s : PassState} (hs : scene.Reached s)
    (hpruned : scene.pruned.Reached s) (place : Option Ref) :
    scene.pruned.renderPlace (scene.graph.skip place) s = scene.renderPlace place s := by
  have hends := (hs.guarded.2.1 place).ends scene.stopped _ (Nat.lt_succ_self _)
  have hends' := (hpruned.guarded.2.1 (scene.graph.skip place)).ends scene.stopped _
    (Nat.lt_succ_self _)
  have hsize : scene.pruned.graph.size = scene.graph.size := Graph.size_pruned
  unfold renderPlace
  rw [← hends, ← hends', hsize, h.renderOr_pruned, h.placeCode_pruned (mutes_renderOr _)]

/-! ## Trees -/

/-- A rule for definitions of procedures is one of the types that define them. -/
theorem contains_definitionTypes {language type : String} {rule : Rule}
    (h : (RuleTable.ofLanguage language).lookup type = .ok rule)
    (hform : rule.handler = .form .procedureDefinition) : definitionTypes.contains type = true :=
  List.contains_iff_mem.mpr ((handler_eq_procedureDefinition_iff h).mp hform)

/-- A tree without definitions of procedures, in which every enabled block below another one
    is a statement, renders as the tree without its disabled blocks does, if no comments are
    written: to the same text or value with the same definitions, or to the same failure. -/
theorem renderPlace_pruned (language : Language) {config : Config} {tree : Tree}
    (hcomments : config.emitComments = false)
    (hdefinitions : ∀ ref block, (Workspace.ofTree tree).graph.block? ref = some block →
      definitionTypes.contains block.type = false)
    (hchains : ∀ ref block next lower, (Workspace.ofTree tree).graph.block? ref = some block →
      block.next = some next → (Workspace.ofTree tree).graph.block? next = some lower →
      lower.enabled = true → ∃ rule, (RuleTable.ofLanguage language.name).lookup lower.type =
        .ok rule ∧ rule.isValue = false) (place : Option Ref) :
    (ofLanguage language config (Workspace.ofTree tree).pruned).renderPlace
        ((Workspace.ofTree tree).graph.skip place) {} =
      (ofLanguage language config (Workspace.ofTree tree)).renderPlace place {} := by
  have hprunable : (ofLanguage language config (Workspace.ofTree tree)).Prunable := by
    refine ⟨hcomments, fun hblock hrule hform => ?_, Workspace.chains_end _, fun hblock hnext hlower =>
      hchains _ _ _ _ hblock hnext hlower⟩
    have hdefines := contains_definitionTypes hrule hform
    rw [hdefinitions _ _ hblock] at hdefines
    cases hdefines
  exact hprunable.renderPlace_eq .start .start place

/-! ### A conditional among disabled blocks -/

/-- A jump out of a loop. -/
def leaving : Tree :=
  .node { Block.ofType "controls_flow_statements" with fields := [("FLOW", .text "BREAK")] }

/-- A disabled block with another one below it. -/
def skipped (next : Tree) : Tree :=
  .node { Block.ofType "math_change" with enabled := false, next := some next }

/-- A disabled block above a conditional, with a disabled condition and a disabled block at the
    start of its body, and with a disabled block between it and a loop. -/
def cluttered : Tree :=
  skipped (.node { (Block.ofType "controls_if" : Block Tree) with
    values := [("IF0", some (.node { Block.ofType "logic_null" with enabled := false }))]
    statements := [("DO0", some (skipped leaving))]
    next := some (skipped (.node { (Block.ofType "controls_whileUntil" : Block Tree) with
      statements := [("DO", some leaving)] })) })

/-- Without comments. -/
def unremarked : Config := { emitComments := false }

theorem graph_cluttered : (Workspace.ofTree cluttered).graph =
    ⟨#[{ Block.ofType "logic_null" with enabled := false },
      { Block.ofType "controls_flow_statements" with fields := [("FLOW", .text "BREAK")] },
      { Block.ofType "math_change" with enabled := false, next := some 1 },
      { Block.ofType "controls_flow_statements" with fields := [("FLOW", .text "BREAK")] },
      { Block.ofType "controls_whileUntil" with statements := [("DO", some 3)] },
      { Block.ofType "math_change" with enabled := false, next := some 4 },
      { (Block.ofType "controls_if" : Block Ref) with
        values := [("IF0", some 0)], statements := [("DO0", some 2)], next := some 5 },
      { Block.ofType "math_change" with enabled := false, next := some 6 }]⟩ := by
  rfl

theorem renderPlace_pruned_cluttered :
    unremarked.emitComments = false ∧
      (∀ ref block, (Workspace.ofTree cluttered).graph.block? ref = some block →
        definitionTypes.contains block.type = false) ∧
      (∀ ref block next lower, (Workspace.ofTree cluttered).graph.block? ref = some block →
        block.next = some next → (Workspace.ofTree cluttered).graph.block? next = some lower →
        lower.enabled = true → ∃ rule, (RuleTable.ofLanguage Language.lua.name).lookup lower.type =
          .ok rule ∧ rule.isValue = false) ∧
      (Workspace.ofTree cluttered).graph.skip (some 7) = some 6 ∧
      (ofLanguage .lua unremarked (Workspace.ofTree cluttered).pruned).renderPlace
          ((Workspace.ofTree cluttered).graph.skip (some 7)) {} =
        (ofLanguage .lua unremarked (Workspace.ofTree cluttered)).renderPlace
          (some 7) {} := by
  have hdefinitions : ∀ ref block, (Workspace.ofTree cluttered).graph.block? ref = some block →
      definitionTypes.contains block.type = false := by
    have hall : ((Workspace.ofTree cluttered).graph.blocks.all fun block =>
        !definitionTypes.contains block.type) = true := by rw [graph_cluttered]; decide +kernel
    intro ref block hblock
    simpa using Array.all_eq_true_iff_forall_mem.mp hall block (Array.mem_of_getElem? hblock)
  have hchains : ∀ ref block next lower,
      (Workspace.ofTree cluttered).graph.block? ref = some block → block.next = some next →
      (Workspace.ofTree cluttered).graph.block? next = some lower → lower.enabled = true →
      ∃ rule, (RuleTable.ofLanguage Language.lua.name).lookup lower.type =
        .ok rule ∧ rule.isValue = false := by
    have hall : ((Workspace.ofTree cluttered).graph.blocks.all fun block => block.next.all fun next =>
        ((Workspace.ofTree cluttered).graph.block? next).all fun lower => !lower.enabled ||
          ((RuleTable.ofLanguage Language.lua.name).lookup lower.type).toOption.any
            fun rule => !rule.isValue) = true := by
      rw [graph_cluttered]
      decide +kernel
    intro ref block next lower hblock hnext hlower henabled
    have hthis := Array.all_eq_true_iff_forall_mem.mp hall block (Array.mem_of_getElem? hblock)
    rw [hnext, Option.all_some, hlower, Option.all_some, henabled] at hthis
    cases hlookup : (RuleTable.ofLanguage Language.lua.name).lookup lower.type with
    | error failure =>
      rw [hlookup] at hthis
      cases hthis
    | ok rule =>
      rw [hlookup] at hthis
      exact ⟨rule, rfl, by simpa [Except.toOption] using hthis⟩
  refine ⟨rfl, hdefinitions, hchains, ?_, renderPlace_pruned .lua rfl hdefinitions hchains (some 7)⟩
  rw [graph_cluttered]
  decide +kernel

end Scene

end BlockScript
