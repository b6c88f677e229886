import BlockScript.Proofs.Suite.Roles

/-!
# The nesting of blocks

The statements that blocks stand for, as they are plugged into each other: a conditional
with its arms in the order of the sockets, a loop or a procedure with its body, and a
body with the statements of its chain in order. Disabled blocks stand for nothing where
they are, and neither do the definitions of procedures.

Results:

* `Scene.IsBare.isSuite_partsWithin`: the parts of a block without snippets around them
  are its statements.
-/

namespace BlockScript

open BlockScript.Text

namespace Scene

variable (scene : Scene)

/-! ## Statements of blocks -/

/-- A body, where a statement stands in for none. -/
def filledSuite (ref : Ref) : Suite (Role × Ref) → Suite (Role × Ref)
  | .done => .line (.filler, ref) .done
  | suite => suite

section Blocks

variable (one : Ref → Suite (Role × Ref))

/-- The statements of the blocks of a chain. -/
def chainSuite (start : Option Ref) : Suite (Role × Ref) :=
  .concat ((scene.graph.chainFrom [] start).1.map one)

/-- The statements of the chain in a statement socket. -/
def bodySuite (block : Block Ref) (socket : String) : Suite (Role × Ref) :=
  scene.chainSuite one (block.statementInput socket)

/-- A further arm of a conditional. -/
def armSuite (ref : Ref) (block : Block Ref) (arm : Nat) : Suite (Role × Ref) :=
  .block (.branch arm (Recipe.conditionSocket arm), ref)
    (filledSuite ref (scene.bodySuite one block (Recipe.bodySocket arm))) .done

/-- The arm for the case that no condition holds, if there is one. -/
def otherwiseSuite (ref : Ref) (block : Block Ref) : Suite (Role × Ref) :=
  if block.hasInput "ELSE" then
    .block (.otherwise, ref) (filledSuite ref (scene.bodySuite one block "ELSE")) .done
  else .done

/-- A conditional with all its arms. -/
def conditionalSuite (ref : Ref) (block : Block Ref) : Suite (Role × Ref) :=
  .choice (.branch 0 (Recipe.conditionSocket 0), ref)
    (filledSuite ref (scene.bodySuite one block (Recipe.bodySocket 0)))
    (.concat ((Recipe.arms block).tail.map (scene.armSuite one ref block)) ++
      scene.otherwiseSuite one ref block)
    .done

/-- The statement that a block of a form stands for. -/
def formSuite (ref : Ref) (block : Block Ref) : BlockForm → Suite (Role × Ref)
  | .conditional => scene.conditionalSuite one ref block
  | .whileLoop | .repeatLoop =>
    .block (.loop, ref) (filledSuite ref (scene.bodySuite one block "DO")) .done
  | .flow =>
    match chosen FlowStatement (block.field "FLOW") with
    | .ok jump => .line (.jump jump, ref) .done
    | .error _ => .done
  | .conditionalReturn =>
    .choice (.branch 0 "CONDITION", ref) (.line (.giveBack, ref) .done) .done .done
  | .variableAssignment | .change | .procedureCallStatement => .line (.statement, ref) .done
  | _ => .done

/-- The statement that a block stands for. -/
def blockSuite (ref : Ref) : Suite (Role × Ref) :=
  match scene.graph.block? ref with
  | none => .done
  | some block =>
    if block.enabled then
      match (scene.rules.find? block.type).map Rule.handler with
      | some (.form form) => scene.formSuite one ref block form
      | _ => .done
    else .done

end Blocks

/-- The statement that a block stands for, with so many levels of nesting. -/
def suiteWithin : Nat → Ref → Suite (Role × Ref)
  | 0 => fun _ => .done
  | depth + 1 => scene.blockSuite (suiteWithin depth)

/-- The statement that a block stands for. -/
def suite (ref : Ref) : Suite (Role × Ref) :=
  scene.suiteWithin (scene.graph.size + 1) ref

/-- The statements of what starts at the top: a value on its own, or a chain. -/
def topSuite (ref : Ref) : Suite (Role × Ref) :=
  if scene.holdsValue ref then .line (.value, ref) .done else scene.chainSuite scene.suite (some ref)

/-- The statements of the main part of a program. -/
def mainSuite : Suite (Role × Ref) :=
  .concat (scene.workspace.tops.map scene.topSuite)

/-- Whether a block is an enabled definition of a procedure. -/
def Defines (ref : Ref) (block : Block Ref) : Prop :=
  scene.graph.block? ref = some block ∧ block.enabled = true ∧
    ∃ rule, scene.rules.lookup block.type = .ok rule ∧
      rule.handler = .form .procedureDefinition

/-- A procedure: a declaration of outer variables if it needs one, the statements of its
    chain, and a return if a value is plugged in for it. -/
def procedureSuite (ref : Ref) (block : Block Ref) (declared : Bool) : Suite (Role × Ref) :=
  .block (.procedure, ref)
    (filledSuite ref
      ((if declared then .line (.outer, ref) .done else .done) ++
        scene.bodySuite scene.suite block "STACK" ++
        if (scene.plugged block "RETURN").isSome then .line (.giveBack, ref) .done else .done))
    .done

/-! ## Parts that are statements -/

/-- Whether parts are arms of a conditional further up and statements after them, all
    with a text of the language. -/
structure IsArranged (parts : Layout) (arms suite : Suite (Role × Ref)) : Prop where
  arranged : arrange (fun part : Role × Ref => part.1.kind) parts = some (arms, suite)
  fixed : parts.All fun part => part.1.isFixed = true

variable {scene : Scene} {parts more inside : Layout} {arms suite others body : Suite (Role × Ref)}
  {role : Role} {ref : Ref} {block : Block Ref}

theorem isArranged_nil : IsArranged .nil .done .done :=
  ⟨rfl, trivial⟩

theorem IsArranged.append (h : IsArranged parts arms suite) (hmore : IsArranged more .done others) :
    IsArranged (parts ++ more) arms (suite ++ others) :=
  ⟨arrange_append h.arranged hmore.arranged, Outline.all_append.mpr ⟨h.fixed, hmore.fixed⟩⟩

/-- A line with others inside it, ahead of further ones. -/
theorem IsArranged.line {first last : Suite (Role × Ref)}
    (hinside : IsArranged inside .done body) (hfixed : role.isFixed = true) (hmore : IsArranged more arms suite)
    (hahead : Suite.ahead (role, ref) body arms suite role.kind = some (first, last)) :
    IsArranged (.block (role, ref) inside ++ more) first last :=
  ⟨(arrange_line hinside.arranged hmore.arranged).trans hahead, hfixed, hinside.fixed, hmore.fixed⟩

theorem isArranged_single (hkind : role.kind = .simple) (hfixed : role.isFixed = true) :
    IsArranged (.single (role, ref)) .done (.line (role, ref) .done) := by
  have hline : IsArranged (.block (role, ref) .nil ++ .nil) .done (.line (role, ref) .done) :=
    isArranged_nil.line hfixed isArranged_nil (by rw [hkind]; rfl)
  exact hline

theorem isArranged_block (hkind : role.kind = .header) (hfixed : role.isFixed = true)
    (hinside : IsArranged inside .done body) (hsome : body.isDone = false) :
    IsArranged (.block (role, ref) inside) .done (.block (role, ref) body .done) := by
  have hblock : IsArranged (.block (role, ref) inside ++ .nil) .done
      (.block (role, ref) body .done) :=
    hinside.line hfixed isArranged_nil (by rw [hkind, Suite.ahead, hsome]; rfl)
  exact hblock

theorem isDone_filledSuite (ref : Ref) (suite : Suite (Role × Ref)) :
    (filledSuite ref suite).isDone = false := by
  cases suite <;> rfl

/-- Statements that have no line are none. -/
theorem IsArranged.eq_done_iff (h : IsArranged parts .done suite) :
    suite = .done ↔ parts = .nil := by
  have houtline : suite.outline = parts := outline_of_arrange h.arranged
  subst houtline
  cases suite with
  | done => exact ⟨fun _ => rfl, fun _ => rfl⟩
  | _ => exact iff_of_false (by simp) (by simp [Suite.outline])

/-- A body where a statement stands in for none. -/
theorem IsArranged.fill (h : scene.Speaks .python) (hsuite : IsArranged parts .done suite) :
    IsArranged (scene.fill ref parts) .done (filledSuite ref suite) := by
  cases parts with
  | nil =>
    obtain rfl := hsuite.eq_done_iff.mpr rfl
    have hfill : scene.fill ref .nil = .single (.filler, ref) := by
      rw [Scene.fill, h.dialect]
      rfl
    rw [hfill]
    exact isArranged_single rfl rfl
  | line part inner rest =>
    have hkeep : filledSuite ref suite = suite := by
      cases suite with
      | done => exact absurd (hsuite.eq_done_iff.mp rfl) (by simp)
      | _ => rfl
    rw [hkeep]
    exact hsuite

/-! ## Scenes without snippets -/

/-- Whether a configuration has no snippets and no comments. -/
structure IsBare (scene : Scene) : Prop where
  statementStart : scene.config.statementStart = ""
  statementEnd : scene.config.statementEnd = ""
  loopTrap : scene.config.loopTrap = ""
  emitComments : scene.config.emitComments = false

namespace IsBare

variable (hbare : scene.IsBare)
include hbare

theorem comments_eq (ref : Ref) : scene.comments ref = .nil := by
  simp [comments, commentLines, hbare.emitComments, piece]

theorem opening_eq (ref : Ref) (block : Block Ref) : scene.opening ref block = .nil := by
  simp [opening, startHook, hbare.statementStart, piece]

theorem closing_eq (ref : Ref) (block : Block Ref) : scene.closing ref block = .nil := by
  simp [closing, endHook, hbare.statementEnd, piece]

theorem trapping_eq (ref : Ref) (block : Block Ref) : scene.trapping ref block = .nil := by
  rw [trapping, hbare.loopTrap]
  rfl

theorem reopening_eq (loop : Option Ref) : scene.reopening loop = .nil := by
  unfold reopening
  split
  · rfl
  · split
    · rfl
    · split
      · rfl
      · split
        · rfl
        · exact hbare.opening_eq _ _

theorem revisited_eq (ref : Ref) (block : Block Ref) (body : Layout) :
    scene.revisited ref block body = .nil := by
  simp [revisited, hbare.opening_eq, hbare.closing_eq]

end IsBare

/-! ## Blocks -/

section Blocks

variable {one : Option Ref → Ref → Layout → Prop} {other : Ref → Suite (Role × Ref)}
  {loop : Option Ref} {socket : String}

/-- The statements of the blocks of a chain. -/
theorem isArranged_chain (hone : ∀ loop ref parts, one loop ref parts →
      IsArranged parts .done (other ref))
    {refs : List Ref} (hchain : ChainParts one loop refs parts) :
    IsArranged parts .done (.concat (refs.map other)) := by
  induction refs generalizing parts with
  | nil =>
    obtain rfl : parts = .nil := hchain
    exact isArranged_nil
  | cons ref refs ih =>
    obtain ⟨first, rest, hfirst, hrest, rfl⟩ := hchain
    exact (hone _ _ _ hfirst).append (ih hrest)

variable (h : scene.Speaks .python) (hbare : scene.IsBare)
  (hone : ∀ loop ref parts, one loop ref parts → IsArranged parts .done (other ref))
include h hbare hone

omit hbare in
/-- The chain in a statement socket, where a statement stands in for none. -/
theorem isArranged_body (ref : Ref) (hbody : scene.BodyParts one loop block socket parts) :
    IsArranged (scene.fill ref parts) .done
      (filledSuite ref (scene.bodySuite other block socket)) :=
  (isArranged_chain hone hbody).fill h

/-- The inside of a loop. -/
theorem isArranged_loop (hinside : scene.LoopParts one ref block inside) :
    IsArranged (.block (.loop, ref) inside) .done
      (.block (.loop, ref) (filledSuite ref (scene.bodySuite other block "DO")) .done) := by
  obtain ⟨body, labelled, hbody, hlabel, -, rfl⟩ := hinside
  have hno : labelled = false := by
    rw [Bool.eq_false_iff]
    intro hyes
    have hsome := hlabel hyes
    rw [h.dialect] at hsome
    cases hsome
  subst hno
  rw [hbare.closing_eq, hbare.trapping_eq, hbare.opening_eq]
  refine isArranged_block rfl rfl ?_ (isDone_filledSuite _ _)
  simpa using isArranged_body h hone ref hbody

/-- An arm of a conditional ahead of further ones. -/
theorem isArranged_arm {arm : Nat} (harm : arm ≠ 0)
    (hparts : scene.ArmParts one loop ref block arm parts) (hmore : IsArranged more arms .done) :
    IsArranged (parts ++ more) (scene.armSuite other ref block arm ++ arms) .done := by
  obtain ⟨body, hbody, rfl⟩ := hparts
  obtain ⟨number, rfl⟩ := Nat.exists_eq_succ_of_ne_zero harm
  rw [hbare.closing_eq, Outline.nil_append]
  have hinside := isArranged_body h hone ref hbody
  exact hinside.line rfl hmore (by rw [Role.kind, Suite.ahead, isDone_filledSuite]; rfl)

/-- The arms of a conditional after the first one. -/
theorem isArranged_arms {numbers : List Nat} {layouts : List Layout}
    (hnumbers : ∀ arm ∈ numbers, arm ≠ 0)
    (hlayouts : List.Forall₂ (scene.ArmParts one loop ref block) numbers layouts)
    (hmore : IsArranged more arms .done) :
    IsArranged (.concat layouts ++ more)
      (.concat (numbers.map (scene.armSuite other ref block)) ++ arms) .done := by
  induction hlayouts with
  | nil => exact hmore
  | @cons arm layout numbers layouts hfirst _ ih =>
    have hrest := ih fun later hlater => hnumbers later (by simp [hlater])
    have hwhole := isArranged_arm h hbare hone (hnumbers arm (by simp)) hfirst hrest
    simpa [Outline.concat, Suite.concat, Outline.append_assoc, armSuite] using hwhole

/-- The arm for the case that no condition holds. -/
theorem isArranged_otherwise (hparts : scene.OtherwiseParts one loop ref block parts) :
    IsArranged parts (scene.otherwiseSuite other ref block) .done := by
  unfold OtherwiseParts at hparts
  simp only [hbare.statementEnd, ne_eq, not_true_eq_false, decide_false, Bool.or_false] at hparts
  unfold otherwiseSuite
  split at hparts
  · next hinput =>
    obtain ⟨body, hbody, rfl⟩ := hparts
    have hinside := isArranged_body h hone ref hbody
    have hline : IsArranged
        (.block (.otherwise, ref) (scene.fill ref body) ++ .nil)
        (.block (.otherwise, ref) (filledSuite ref (scene.bodySuite other block "ELSE")) .done)
        .done :=
      hinside.line rfl isArranged_nil (by rw [Role.kind, Suite.ahead, isDone_filledSuite]; rfl)
    rw [if_pos hinput, hbare.closing_eq, Outline.nil_append]
    exact hline
  · next hinput =>
    rw [if_neg hinput, hparts]
    exact isArranged_nil

/-- A conditional with all its arms. -/
theorem isArranged_conditional {layouts : List Layout} {last : Layout}
    (hlayouts : List.Forall₂ (scene.ArmParts one loop ref block) (Recipe.arms block) layouts)
    (hlast : scene.OtherwiseParts one loop ref block last) :
    IsArranged (.concat layouts ++ last) .done (scene.conditionalSuite other ref block) := by
  unfold conditionalSuite
  unfold Recipe.arms at hlayouts ⊢
  cases hlayouts with
  | @cons _ first _ layouts hfirst hothers =>
    obtain ⟨body, hbody, rfl⟩ := hfirst
    have hlater : ∀ arm ∈ (List.range' 1 (block.values.length + block.statements.length)).takeWhile
        (fun arm => block.hasInput (Recipe.conditionSocket arm)), arm ≠ 0 := by
      intro arm harm
      have hrange := List.mem_range'_1.mp ((List.takeWhile_sublist _).subset harm)
      omega
    have harms := isArranged_arms h hbare hone hlater hothers
      (isArranged_otherwise h hbare hone hlast)
    have hinside := isArranged_body h hone ref hbody
    rw [hbare.closing_eq, Outline.nil_append, Outline.concat, Outline.append_assoc]
    exact hinside.line rfl harms (by rw [Role.kind, Suite.ahead, isDone_filledSuite]; rfl)

/-- The parts that the rule for a form makes of a block. -/
theorem isArranged_rule {form : BlockForm} (hparts : scene.RuleParts one loop ref block form parts) :
    IsArranged parts .done (scene.formSuite other ref block form) := by
  have hcloser : scene.closer ref = .nil := by
    rw [closer, h.dialect]
    rfl
  cases hparts with
  | conditional harms hlast =>
    rw [hbare.opening_eq, hcloser, Outline.nil_append, Outline.append_nil]
    exact isArranged_conditional h hbare hone harms hlast
  | whileLoop hinside =>
    rw [hcloser, Outline.append_nil]
    exact isArranged_loop h hbare hone hinside
  | @repeatLoop inside stored hstored hinside =>
    have hno : stored = false := by
      rw [Bool.eq_false_iff]
      intro hyes
      have hform := hstored hyes
      rw [h.dialect] at hform
      cases hform
    subst hno
    rw [hcloser, Outline.append_nil]
    exact isArranged_loop h hbare hone hinside
  | @flow jump hjump =>
    rw [hbare.opening_eq, hbare.closing_eq, hbare.reopening_eq]
    unfold formSuite
    rw [hjump]
    exact isArranged_single rfl rfl
  | conditionalReturn =>
    have hinside : IsArranged (.single (.giveBack, ref)) .done (.line (.giveBack, ref) .done) :=
      isArranged_single rfl rfl
    rw [hbare.closing_eq, hcloser, Outline.nil_append]
    exact hinside.line rfl isArranged_nil rfl
  | simple hform =>
    cases form with
    | variableAssignment | change | procedureCallStatement => exact isArranged_single rfl rfl
    | _ => cases hform

/-- The parts of a block. -/
theorem isArranged_blockParts (hparts : scene.BlockParts one loop ref parts) :
    IsArranged parts .done (scene.blockSuite other ref) := by
  unfold blockSuite
  cases hparts with
  | absent hblock =>
    rw [hblock]
    exact isArranged_nil
  | disabled hblock hdisabled =>
    rw [hblock]
    simp only [hdisabled]
    exact isArranged_nil
  | definition hblock henabled hrule hform =>
    rw [hblock]
    simp only [henabled, RuleTable.find?_of_lookup hrule, hform, Option.map_some, if_true]
    exact isArranged_nil
  | @statement block rule form parts hblock henabled hrule hform hparts =>
    rw [hblock]
    simp only [henabled, RuleTable.find?_of_lookup hrule, hform, Option.map_some, if_true]
    have hrest := isArranged_rule h hbare hone hparts
    rw [hbare.comments_eq, hbare.opening_eq, hbare.closing_eq]
    split <;> simpa using hrest

end Blocks

section Programs

variable {room depth : Nat} {loop : Option Ref}
  (h : scene.Speaks .python) (hbare : scene.IsBare)
include h hbare

/-- The parts of a block are its statement, with any greater depth. -/
theorem isArranged_partsWithin (hdepth : room ≤ depth)
    (hparts : scene.partsWithin room loop ref parts) :
    IsArranged parts .done (scene.suiteWithin depth ref) := by
  induction room generalizing depth loop ref parts with
  | zero => exact hparts.elim
  | succ room ih =>
    obtain ⟨less, rfl⟩ := Nat.exists_eq_add_of_le' hdepth
    exact isArranged_blockParts h hbare
      (fun loop ref parts hone => ih (Nat.le_add_left room less) hone) hparts

/-- The parts of what starts at the top. -/
theorem isArranged_top (hparts : scene.TopParts (scene.graph.size + 1) ref parts) :
    IsArranged parts .done (scene.topSuite ref) := by
  unfold TopParts at hparts
  unfold topSuite
  split at hparts
  · next hvalue =>
    obtain ⟨block, -, rfl⟩ := hparts
    rw [if_pos hvalue, hbare.comments_eq, hbare.opening_eq, hbare.closing_eq]
    exact isArranged_single rfl rfl
  · next hvalue =>
    rw [if_neg hvalue]
    exact isArranged_chain
      (fun loop ref parts hone => isArranged_partsWithin h hbare (Nat.le_refl _) hone) hparts

theorem isArranged_tops {refs : List Ref} {pieces : List (String × Layout)}
    (hpieces : List.Forall₂ (fun ref piece => scene.TopParts (scene.graph.size + 1) ref piece.2)
      refs pieces) :
    IsArranged (.concat (pieces.map Prod.snd)) .done (.concat (refs.map scene.topSuite)) := by
  induction hpieces with
  | nil => exact isArranged_nil
  | cons hfirst _ ih => exact (isArranged_top h hbare hfirst).append ih

/-- The parts of a procedure. -/
theorem isArranged_procedure (hroom : room ≤ scene.graph.size)
    (hbody : scene.ProcedureBody (scene.partsWithin room) loop ref inside) :
    ∃ block, ∃ declared : Bool, scene.Defines ref block ∧
      IsArranged (scene.procedureParts ref inside) .done
        (scene.procedureSuite ref block declared) := by
  obtain ⟨block, rule, body, declared, hblock, henabled, hrule, hform, hbody, rfl⟩ := hbody
  have hstack := isArranged_chain
    (fun loop ref parts hone => isArranged_partsWithin h hbare (Nat.le_succ_of_le hroom) hone) hbody
  have houter : IsArranged (if declared then .single (.outer, ref) else .nil) .done
      (if declared then .line (.outer, ref) .done else .done) := by
    cases declared with
    | true => exact isArranged_single rfl rfl
    | false => exact isArranged_nil
  have hlast : IsArranged (scene.givenBack ref block) .done
      (if (scene.plugged block "RETURN").isSome then .line (.giveBack, ref) .done else .done) := by
    unfold givenBack
    split
    · exact isArranged_single rfl rfl
    · exact isArranged_nil
  have hend : piece .closer ref scene.dialect.procedureEnd = .nil := by
    rw [h.dialect]
    rfl
  refine ⟨block, declared, ⟨hblock, henabled, rule, hrule, hform⟩, ?_⟩
  unfold procedureParts procedureInside procedureSuite
  rw [hbare.comments_eq, hbare.opening_eq, hbare.closing_eq, hbare.trapping_eq, hbare.revisited_eq,
    hend, Outline.append_nil, Outline.nil_append, Outline.append_nil, Outline.append_nil,
    Outline.append_nil, Outline.nil_append]
  exact isArranged_block rfl rfl (((houter.append hstack).append hlast).fill h)
    (isDone_filledSuite _ _)

end Programs

end Scene

end BlockScript
