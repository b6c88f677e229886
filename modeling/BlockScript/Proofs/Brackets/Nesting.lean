import BlockScript.Proofs.Brackets.Roles
import BlockScript.Proofs.Suite.Nesting

/-!
# Blocks between brackets

The statements that the parts of blocks are read as in a language with brackets: those
that the blocks stand for, with a label at the end of some loop bodies and the assignment
of a bound ahead of some loops. A body that has been read closes nothing around it, so
the parts of a block are read in the same way wherever they stand.

Results:

* `Scene.IsBare.isClosed_partsWithin`: the parts of a block without snippets around them
  are read as its statements.
-/

namespace BlockScript

open BlockScript.Text

/-! ## Auxiliary statements -/

namespace Suite

variable {α : Type}

@[simp]
theorem append_done (suite : Suite α) : suite ++ .done = suite := by
  induction suite <;> simp_all

theorem append_assoc (a b c : Suite α) : a ++ b ++ c = a ++ (b ++ c) := by
  induction a <;> simp_all

variable (drop : α → Bool)

/-- Statements without certain ones that have none inside them. -/
def without : Suite α → Suite α
  | .done => .done
  | .line label rest => if drop label then without rest else .line label (without rest)
  | .block header body rest => .block header (without body) (without rest)
  | .choice header body arms rest =>
    .choice header (without body) (without arms) (without rest)

theorem without_append (first more : Suite α) :
    (first ++ more).without drop = first.without drop ++ more.without drop := by
  induction first with
  | done => rfl
  | line label rest ih =>
    rw [line_append, without, without, ih]
    split <;> rfl
  | block header body rest _ ih => simp [without, ih]
  | choice header body arms rest _ _ ih => simp [without, ih]

end Suite

/-- Whether a line comes with a statement or a body, and is none of the statements that
    blocks stand for. -/
def Role.isAuxiliary : Role → Bool
  | .filler | .label | .bound => true
  | _ => false

/-- Whether a part is auxiliary. -/
def isAuxiliaryPart (part : Role × Ref) : Bool :=
  part.1.isAuxiliary

/-- What a part is among clauses. -/
def partKind (part : Role × Ref) : ClauseKind :=
  part.1.clauseKind

namespace Scene

/-- Whether a line can stand ahead of others in the body of a loop: the label of the loop
    at the end, and a bound ahead of the loop that it is for. -/
def Suits (scene : Scene) (around : Option Ref) (ref : Ref) (rest : Suite (Role × Ref)) :
    Role → Prop
  | .filler => False
  | .label => scene.dialect.continueLabel.isSome = true ∧ around = some ref ∧ rest = .done
  | .bound => scene.dialect.repeatCount = .stored ∧
      ∃ body more, rest = .block (.loop, ref) body more
  | _ => True

/-- Whether the auxiliary statements of the body of a loop, if it is one, all stand where
    they can. -/
def IsPlaced (scene : Scene) : Option Ref → Suite (Role × Ref) → Prop
  | _, .done => True
  | around, .line (role, ref) rest => scene.Suits around ref rest role ∧ IsPlaced scene around rest
  | around, .block (role, ref) body rest =>
    IsPlaced scene (if role = .loop then some ref else none) body ∧ IsPlaced scene around rest
  | around, .choice _ body arms rest =>
    IsPlaced scene none body ∧ IsPlaced scene none arms ∧ IsPlaced scene around rest

/-- Whether statements are certain ones and auxiliary ones, each in its place. -/
structure Completes (scene : Scene) (around : Option Ref) (whole suite : Suite (Role × Ref)) :
    Prop where
  same : whole.without isAuxiliaryPart = suite.without isAuxiliaryPart
  placed : scene.IsPlaced around whole

variable {scene : Scene} {around : Option Ref} {role : Role} {ref : Ref}
  {whole suite first more others body arms : Suite (Role × Ref)}

theorem IsPlaced.append (h : scene.IsPlaced none first) (hmore : scene.IsPlaced around more) :
    scene.IsPlaced around (first ++ more) := by
  induction first with
  | done => exact hmore
  | line part rest ih =>
    refine ⟨?_, ih h.2⟩
    obtain ⟨role, ref⟩ := part
    have hsuits := h.1
    cases role with
    | label => cases hsuits.2.1
    | bound =>
      obtain ⟨hstored, body, after, rfl⟩ := hsuits
      exact ⟨hstored, body, after ++ more, rfl⟩
    | filler => exact hsuits
    | _ => trivial
  | block part body rest _ ih => exact ⟨h.1, ih h.2⟩
  | choice part body arms rest _ _ ih => exact ⟨h.1, h.2.1, ih h.2.2⟩

namespace Completes

theorem done : scene.Completes around .done .done :=
  ⟨rfl, trivial⟩

theorem append (h : scene.Completes none whole suite) (hmore : scene.Completes around more others) :
    scene.Completes around (whole ++ more) (suite ++ others) :=
  ⟨by rw [Suite.without_append, Suite.without_append, h.same, hmore.same],
    h.placed.append hmore.placed⟩

/-- Statements that are no body of a loop are those of one too. -/
theorem inside (h : scene.Completes none whole suite) : scene.Completes around whole suite := by
  have hplaced := h.placed.append (show scene.IsPlaced around .done from trivial)
  exact ⟨h.same, by rwa [Suite.append_done] at hplaced⟩

theorem line (hmain : role.isAuxiliary = false) (h : scene.Completes around more suite) :
    scene.Completes around (.line (role, ref) more) (.line (role, ref) suite) := by
  refine ⟨by simp [Suite.without, isAuxiliaryPart, hmain, h.same], ?_, h.placed⟩
  cases role with
  | filler | label | bound => cases hmain
  | _ => trivial

protected theorem block
    (hbody : scene.Completes (if role = .loop then some ref else none) whole body)
    (h : scene.Completes around more suite) :
    scene.Completes around (.block (role, ref) whole more) (.block (role, ref) body suite) :=
  ⟨by simp [Suite.without, hbody.same, h.same], hbody.placed, h.placed⟩

theorem choice {part : Role × Ref} {further : Suite (Role × Ref)}
    (hbody : scene.Completes none whole body) (harms : scene.Completes none further arms)
    (h : scene.Completes around more suite) :
    scene.Completes around (.choice part whole further more) (.choice part body arms suite) :=
  ⟨by simp [Suite.without, hbody.same, harms.same, h.same], hbody.placed, harms.placed, h.placed⟩

/-- A label at the end of the body of a loop. -/
theorem label (h : scene.dialect.continueLabel.isSome = true) :
    scene.Completes (some ref) (.line (.label, ref) .done) .done :=
  ⟨rfl, ⟨h, rfl, rfl⟩, trivial⟩

/-- A bound ahead of a loop. -/
theorem bound (hstored : scene.dialect.repeatCount = .stored)
    (h : scene.Completes around (.block (.loop, ref) whole more) suite) :
    scene.Completes around (.line (.bound, ref) (.block (.loop, ref) whole more)) suite :=
  ⟨h.same, ⟨hstored, _, _, rfl⟩, h.placed⟩

theorem filled (h : scene.Completes around whole suite) :
    scene.Completes around whole (filledSuite ref suite) := by
  refine ⟨h.same.trans ?_, h.placed⟩
  cases suite <;> rfl

end Completes

/-! ## Parts that are statements -/

/-- Whether parts are read as statements, wherever they stand. -/
def IsClosed (scene : Scene) (parts : Layout) (suite : Suite (Role × Ref)) : Prop :=
  ∃ whole, scene.Completes none whole suite ∧ ∀ arms rest bodies,
    gather partKind (⟨arms, rest⟩ :: bodies) parts.lines = some (⟨arms, whole ++ rest⟩ :: bodies)

/-- Whether parts are read as statements up to the end of the body of a loop, if it is
    one. -/
def IsBody (scene : Scene) (around : Option Ref) (parts : Layout) (suite : Suite (Role × Ref)) :
    Prop :=
  ∃ whole, scene.Completes around whole suite ∧ ∀ arms bodies,
    gather partKind (⟨arms, .done⟩ :: bodies) parts.lines = some (⟨arms, whole⟩ :: bodies)

/-- Whether parts are read as the further arms of a conditional. -/
def IsArms (scene : Scene) (parts : Layout) (arms : Suite (Role × Ref)) : Prop :=
  ∃ whole, scene.Completes none whole arms ∧ ∀ bodies,
    gather partKind (⟨.done, .done⟩ :: bodies) parts.lines = some (⟨whole, .done⟩ :: bodies)

variable {parts rest inside : Layout}

theorem isClosed_nil : scene.IsClosed .nil .done :=
  ⟨.done, .done, fun _ _ _ => rfl⟩

theorem IsClosed.append (h : scene.IsClosed parts suite) (hrest : scene.IsClosed rest others) :
    scene.IsClosed (parts ++ rest) (suite ++ others) := by
  obtain ⟨whole, hwhole, hgather⟩ := h
  obtain ⟨more, hmore, hothers⟩ := hrest
  refine ⟨whole ++ more, hwhole.append hmore, fun arms after bodies => ?_⟩
  rw [Outline.lines_append, gather_append, hothers, Option.bind_some, hgather,
    Suite.append_assoc]

theorem IsClosed.append_body (h : scene.IsClosed parts suite)
    (hrest : scene.IsBody around rest others) :
    scene.IsBody around (parts ++ rest) (suite ++ others) := by
  obtain ⟨whole, hwhole, hgather⟩ := h
  obtain ⟨more, hmore, hothers⟩ := hrest
  refine ⟨whole ++ more, hwhole.append hmore, fun arms bodies => ?_⟩
  rw [Outline.lines_append, gather_append, hothers, Option.bind_some, hgather]

theorem isBody_nil : scene.IsBody around .nil .done :=
  ⟨.done, .done, fun _ _ => rfl⟩

theorem IsClosed.isBody (h : scene.IsClosed parts suite) : scene.IsBody around parts suite := by
  have hwhole : scene.IsBody around (parts ++ .nil) (suite ++ .done) := h.append_body isBody_nil
  simpa using hwhole

/-- A statement with none inside it. -/
theorem isClosed_single (hkind : role.clauseKind = .simple) (hmain : role.isAuxiliary = false) :
    scene.IsClosed (.single (role, ref)) (.line (role, ref) .done) :=
  ⟨_, Completes.done.line hmain, fun arms rest bodies => by
    rw [Outline.lines_single, gather_cons, partKind, hkind]
    rfl⟩

/-- A return at the end of a body. -/
theorem isBody_giveBack :
    scene.IsBody around (.single (.giveBack, ref)) (.line (.giveBack, ref) .done) :=
  ⟨_, Completes.done.line rfl, fun _ _ => rfl⟩

/-- A label at the end of a body. -/
theorem isBody_label (h : scene.dialect.continueLabel.isSome = true) :
    scene.IsBody (some ref) (.single (.label, ref)) .done :=
  ⟨_, .label h, fun _ _ => rfl⟩

/-! ## Blocks with others inside them -/

/-- A line with others inside it, ahead of the end of a body. -/
theorem gather_line {part : Role × Ref} {bodies ends : List (BodyEnd (Role × Ref))}
    (hinside : ∀ arms bodies, gather partKind (⟨arms, .done⟩ :: bodies) inside.lines =
      some (⟨arms, whole⟩ :: bodies))
    (hrest : gather partKind bodies rest.lines = some (⟨arms, .done⟩ :: ends)) :
    gather partKind bodies (Outline.block part inside ++ rest).lines =
      BodyEnd.push part (partKind part) (⟨arms, whole⟩ :: ends) := by
  rw [Outline.lines_append, Outline.lines_block, List.cons_append, gather_cons, gather_append,
    hrest, Option.bind_some, hinside, Option.bind_some]

theorem gather_closer (bodies : List (BodyEnd (Role × Ref))) :
    gather partKind bodies (Outline.single (Role.closer, ref)).lines =
      some (⟨.done, .done⟩ :: bodies) := rfl

/-- A loop or a procedure with what closes it. -/
theorem isClosed_block (hkind : role.clauseKind = .header)
    (hinside : scene.IsBody (if role = .loop then some ref else none) inside suite) :
    scene.IsClosed (.block (role, ref) inside ++ .single (.closer, ref))
      (.block (role, ref) (filledSuite ref suite) .done) := by
  obtain ⟨whole, hwhole, hgather⟩ := hinside
  refine ⟨_, hwhole.filled.block .done, fun arms rest bodies => ?_⟩
  rw [gather_line hgather (gather_closer _), partKind, hkind]
  rfl

/-- A loop with its bound ahead of it. -/
theorem isClosed_bound (hstored : scene.dialect.repeatCount = .stored)
    (hinside : scene.IsBody (some ref) inside suite) :
    scene.IsClosed
      (.single (.bound, ref) ++ .block (.loop, ref) inside ++ .single (.closer, ref))
      (.block (.loop, ref) (filledSuite ref suite) .done) := by
  obtain ⟨whole, hwhole, hgather⟩ := hinside
  have hloop : scene.Completes none (.block (.loop, ref) whole .done)
      (.block (.loop, ref) (filledSuite ref suite) .done) :=
    Completes.block (by simpa using hwhole.filled) .done
  refine ⟨_, .bound hstored hloop, fun arms rest bodies => ?_⟩
  rw [Outline.append_assoc, Outline.lines_append, Outline.lines_single, List.singleton_append,
    gather_cons, gather_line hgather (gather_closer _)]
  rfl

/-! ## Conditionals -/

theorem isArms_nil : scene.IsArms .nil .done :=
  ⟨.done, .done, fun _ => rfl⟩

/-- An arm ahead of further ones. -/
theorem isArms_arm (hkind : role.clauseKind = .arm) (hinside : scene.IsBody none inside body)
    (hrest : scene.IsArms rest arms) :
    scene.IsArms (.block (role, ref) inside ++ rest)
      (.block (role, ref) (filledSuite ref body) arms) := by
  obtain ⟨whole, hwhole, hgather⟩ := hinside
  obtain ⟨further, hfurther, harms⟩ := hrest
  have hplain : role ≠ .loop := by
    rintro rfl
    cases hkind
  refine ⟨_, Completes.block (by simpa [hplain] using hwhole.filled) hfurther, fun bodies => ?_⟩
  rw [gather_line hgather (harms bodies), partKind, hkind]
  rfl

/-- The last arm. -/
theorem isArms_otherwise (hinside : scene.IsBody none inside body) :
    scene.IsArms (.block (.otherwise, ref) inside)
      (.block (.otherwise, ref) (filledSuite ref body) .done) := by
  obtain ⟨whole, hwhole, hgather⟩ := hinside
  refine ⟨_, Completes.block (by simpa using hwhole.filled) .done, fun bodies => ?_⟩
  have hnone : gather partKind (⟨.done, .done⟩ :: bodies) (.nil : Layout).lines =
      some (⟨.done, .done⟩ :: bodies) := rfl
  rw [← Outline.append_nil (Outline.block _ inside), gather_line hgather hnone]
  rfl

/-- A conditional with all its arms and what closes it. -/
theorem isClosed_choice {socket : String} (hinside : scene.IsBody none inside body)
    (harms : scene.IsArms rest arms) :
    scene.IsClosed (.block (.branch 0 socket, ref) inside ++ rest ++ .single (.closer, ref))
      (.choice (.branch 0 socket, ref) (filledSuite ref body) arms .done) := by
  obtain ⟨whole, hwhole, hgather⟩ := hinside
  obtain ⟨further, hfurther, hothers⟩ := harms
  refine ⟨_, Completes.choice hwhole.filled hfurther .done, fun arms more bodies => ?_⟩
  have hclose : gather partKind (⟨arms, more⟩ :: bodies)
      (rest ++ .single (.closer, ref)).lines =
        some (⟨further, .done⟩ :: ⟨arms, more⟩ :: bodies) := by
    rw [Outline.lines_append, gather_append, gather_closer, Option.bind_some, hothers]
  rw [Outline.append_assoc, gather_line hgather hclose]
  rfl

/-! ## Blocks -/

section Blocks

variable {language : Language} {one : Option Ref → Ref → Layout → Prop}
  {other : Ref → Suite (Role × Ref)} {loop : Option Ref} {block : Block Ref} {socket : String}

/-- The statements of the blocks of a chain. -/
theorem isClosed_chain (hone : ∀ loop ref parts, one loop ref parts →
      scene.IsClosed parts (other ref))
    {refs : List Ref} (hchain : ChainParts one loop refs parts) :
    scene.IsClosed parts (.concat (refs.map other)) := by
  induction refs generalizing parts with
  | nil =>
    obtain rfl : parts = .nil := hchain
    exact isClosed_nil
  | cons ref refs ih =>
    obtain ⟨first, rest, hfirst, hrest, rfl⟩ := hchain
    exact (hone _ _ _ hfirst).append (ih hrest)

variable (h : scene.Speaks language) (hlanguage : language = .lua ∨ language = .php)
include h hlanguage

/-- A body may be empty. -/
theorem Speaks.fill_eq (ref : Ref) (parts : Layout) : scene.fill ref parts = parts := by
  cases parts with
  | nil =>
    rw [fill, h.dialect]
    rcases hlanguage with rfl | rfl <;> rfl
  | line => rfl

theorem Speaks.closer_eq (ref : Ref) : scene.closer ref = .single (.closer, ref) := by
  rw [closer, h.dialect]
  rcases hlanguage with rfl | rfl <;> rfl

variable (hbare : scene.IsBare)
  (hone : ∀ loop ref parts, one loop ref parts → scene.IsClosed parts (other ref))
include hbare hone

omit h hlanguage hbare in
/-- The chain in a statement socket. -/
theorem isClosed_body (hbody : scene.BodyParts one loop block socket parts) :
    scene.IsClosed parts (scene.bodySuite other block socket) :=
  isClosed_chain hone hbody

/-- The inside of a loop. -/
theorem isBody_loop (hinside : scene.LoopParts one ref block inside) :
    scene.IsBody (some ref) inside (scene.bodySuite other block "DO") := by
  obtain ⟨body, labelled, hbody, hlabel, -, rfl⟩ := hinside
  have hchain := isClosed_body hone hbody
  rw [h.fill_eq hlanguage, hbare.closing_eq, hbare.trapping_eq, hbare.opening_eq]
  cases labelled with
  | false => simpa using hchain.isBody
  | true => simpa using hchain.append_body (isBody_label (hlabel rfl))

/-- The arms of a conditional after the first one. -/
theorem isArms_arms {numbers : List Nat} {layouts : List Layout} {last : Layout}
    (hnumbers : ∀ arm ∈ numbers, arm ≠ 0)
    (hlayouts : List.Forall₂ (scene.ArmParts one loop ref block) numbers layouts)
    (hlast : scene.IsArms last arms) :
    scene.IsArms (.concat layouts ++ last)
      (.concat (numbers.map (scene.armSuite other ref block)) ++ arms) := by
  induction hlayouts with
  | nil => exact hlast
  | @cons arm layout numbers layouts hfirst _ ih =>
    have hrest := ih fun later hlater => hnumbers later (by simp [hlater])
    obtain ⟨body, hbody, rfl⟩ := hfirst
    obtain ⟨number, rfl⟩ := Nat.exists_eq_succ_of_ne_zero (hnumbers arm (by simp))
    rw [h.fill_eq hlanguage, hbare.closing_eq, Outline.nil_append]
    have hwhole : scene.IsArms
        (.block (.branch (number + 1) (Recipe.conditionSocket (number + 1)), ref) body ++
          (.concat layouts ++ last)) _ :=
      isArms_arm rfl (isClosed_body hone hbody).isBody hrest
    simpa [Outline.concat, Suite.concat, Outline.append_assoc, armSuite] using hwhole

/-- The arm for the case that no condition holds. -/
theorem isArms_last (hparts : scene.OtherwiseParts one loop ref block parts) :
    scene.IsArms parts (scene.otherwiseSuite other ref block) := by
  unfold OtherwiseParts at hparts
  simp only [hbare.statementEnd, ne_eq, not_true_eq_false, decide_false, Bool.or_false] at hparts
  unfold otherwiseSuite
  split at hparts
  · next hinput =>
    obtain ⟨body, hbody, rfl⟩ := hparts
    rw [if_pos hinput, h.fill_eq hlanguage, hbare.closing_eq, Outline.nil_append]
    exact isArms_otherwise (isClosed_body hone hbody).isBody
  · next hinput =>
    rw [if_neg hinput, hparts]
    exact isArms_nil

/-- A conditional with all its arms. -/
theorem isClosed_conditional {layouts : List Layout} {last : Layout}
    (hlayouts : List.Forall₂ (scene.ArmParts one loop ref block) (Recipe.arms block) layouts)
    (hlast : scene.OtherwiseParts one loop ref block last) :
    scene.IsClosed (.concat layouts ++ last ++ .single (.closer, ref))
      (scene.conditionalSuite other ref block) := by
  unfold conditionalSuite
  unfold Recipe.arms at hlayouts ⊢
  cases hlayouts with
  | @cons _ first _ layouts hfirst hothers =>
    obtain ⟨body, hbody, rfl⟩ := hfirst
    have hlater : ∀ arm ∈ (List.range' 1 (block.values.length + block.statements.length)).takeWhile
        (fun arm => block.hasInput (Recipe.conditionSocket arm)), arm ≠ 0 := by
      intro arm harm
      have hrange := List.mem_range'_1.mp ((List.takeWhile_sublist _).subset harm)
      omega
    have harms := isArms_arms h hlanguage hbare hone hlater hothers
      (isArms_last h hlanguage hbare hone hlast)
    rw [h.fill_eq hlanguage, hbare.closing_eq, Outline.nil_append, Outline.concat,
      Outline.append_assoc (.block _ body)]
    exact isClosed_choice (isClosed_body hone hbody).isBody harms

/-- The parts that the rule for a form makes of a block. -/
theorem isClosed_rule {form : BlockForm} (hparts : scene.RuleParts one loop ref block form parts) :
    scene.IsClosed parts (scene.formSuite other ref block form) := by
  cases hparts with
  | conditional harms hlast =>
    rw [hbare.opening_eq, h.closer_eq hlanguage, Outline.nil_append]
    exact isClosed_conditional h hlanguage hbare hone harms hlast
  | whileLoop hinside =>
    rw [h.closer_eq hlanguage]
    exact isClosed_block rfl (isBody_loop h hlanguage hbare hone hinside)
  | @repeatLoop inside stored hstored hinside =>
    have hbody := isBody_loop h hlanguage hbare hone hinside
    rw [h.closer_eq hlanguage]
    cases stored with
    | false => exact isClosed_block rfl hbody
    | true => exact isClosed_bound (hstored rfl) hbody
  | @flow jump hjump =>
    rw [hbare.opening_eq, hbare.closing_eq, hbare.reopening_eq]
    unfold formSuite
    rw [hjump]
    exact isClosed_single rfl rfl
  | conditionalReturn =>
    rw [hbare.closing_eq, h.closer_eq hlanguage, Outline.nil_append]
    have hchoice : scene.IsClosed
        (.block (.branch 0 "CONDITION", ref) (.single (.giveBack, ref)) ++ .nil ++
          .single (.closer, ref)) _ := isClosed_choice isBody_giveBack isArms_nil
    simpa [formSuite, filledSuite] using hchoice
  | simple hform =>
    cases form with
    | variableAssignment | change | procedureCallStatement => exact isClosed_single rfl rfl
    | _ => cases hform

/-- The parts of a block. -/
theorem isClosed_blockParts (hparts : scene.BlockParts one loop ref parts) :
    scene.IsClosed parts (scene.blockSuite other ref) := by
  unfold blockSuite
  cases hparts with
  | absent hblock =>
    rw [hblock]
    exact isClosed_nil
  | disabled hblock hdisabled =>
    rw [hblock]
    simp only [hdisabled]
    exact isClosed_nil
  | definition hblock henabled hrule hform =>
    rw [hblock]
    simp only [henabled, RuleTable.find?_of_lookup hrule, hform, Option.map_some, if_true]
    exact isClosed_nil
  | @statement block rule form parts hblock henabled hrule hform hparts =>
    rw [hblock]
    simp only [henabled, RuleTable.find?_of_lookup hrule, hform, Option.map_some, if_true]
    have hrest := isClosed_rule h hlanguage hbare hone hparts
    rw [hbare.comments_eq, hbare.opening_eq, hbare.closing_eq]
    split <;> simpa using hrest

end Blocks

section Programs

variable {language : Language} {room depth : Nat} {loop : Option Ref}
  (h : scene.Speaks language) (hlanguage : language = .lua ∨ language = .php)
  (hbare : scene.IsBare)
include h hlanguage hbare

/-- The parts of a block are read as its statement, with any greater depth. -/
theorem isClosed_partsWithin (hdepth : room ≤ depth)
    (hparts : scene.partsWithin room loop ref parts) :
    scene.IsClosed parts (scene.suiteWithin depth ref) := by
  induction room generalizing depth loop ref parts with
  | zero => exact hparts.elim
  | succ room ih =>
    obtain ⟨less, rfl⟩ := Nat.exists_eq_add_of_le' hdepth
    exact isClosed_blockParts h hlanguage hbare
      (fun loop ref parts hone => ih (Nat.le_add_left room less) hone) hparts

/-- The parts of what starts at the top. -/
theorem isClosed_top (hparts : scene.TopParts (scene.graph.size + 1) ref parts) :
    scene.IsClosed parts (scene.topSuite ref) := by
  unfold TopParts at hparts
  unfold topSuite
  split at hparts
  · next hvalue =>
    obtain ⟨block, -, rfl⟩ := hparts
    rw [if_pos hvalue, hbare.comments_eq, hbare.opening_eq, hbare.closing_eq]
    exact isClosed_single rfl rfl
  · next hvalue =>
    rw [if_neg hvalue]
    exact isClosed_chain (fun loop ref parts hone =>
      isClosed_partsWithin h hlanguage hbare (Nat.le_refl _) hone) hparts

theorem isClosed_tops {refs : List Ref} {pieces : List (String × Layout)}
    (hpieces : List.Forall₂ (fun ref piece => scene.TopParts (scene.graph.size + 1) ref piece.2)
      refs pieces) :
    scene.IsClosed (.concat (pieces.map Prod.snd)) (.concat (refs.map scene.topSuite)) := by
  induction hpieces with
  | nil => exact isClosed_nil
  | cons hfirst _ ih => exact (isClosed_top h hlanguage hbare hfirst).append ih

/-- The parts of a procedure. -/
theorem isClosed_procedure (hroom : room ≤ scene.graph.size)
    (hbody : scene.ProcedureBody (scene.partsWithin room) loop ref inside) :
    ∃ block, ∃ declared : Bool, scene.Defines ref block ∧
      scene.IsClosed (scene.procedureParts ref inside)
        (scene.procedureSuite ref block declared) := by
  obtain ⟨block, rule, body, declared, hblock, henabled, hrule, hform, hbody, rfl⟩ := hbody
  have hstack := isClosed_chain (fun loop ref parts hone =>
    isClosed_partsWithin h hlanguage hbare (Nat.le_succ_of_le hroom) hone) hbody
  have houter : scene.IsClosed (if declared then .single (.outer, ref) else .nil)
      (if declared then .line (.outer, ref) .done else .done) := by
    cases declared with
    | true => exact isClosed_single rfl rfl
    | false => exact isClosed_nil
  have hlast : scene.IsBody none (scene.givenBack ref block)
      (if (scene.plugged block "RETURN").isSome then .line (.giveBack, ref) .done else .done) := by
    unfold givenBack
    split
    · exact isBody_giveBack
    · exact isBody_nil
  have hend : piece .closer ref scene.dialect.procedureEnd = .single (.closer, ref) := by
    rw [h.dialect]
    rcases hlanguage with rfl | rfl <;> rfl
  refine ⟨block, declared, ⟨hblock, henabled, rule, hrule, hform⟩, ?_⟩
  unfold procedureParts procedureInside procedureSuite
  rw [h.fill_eq hlanguage, hbare.comments_eq, hbare.opening_eq, hbare.closing_eq,
    hbare.trapping_eq, hbare.revisited_eq, hend, Outline.nil_append, Outline.append_nil,
    Outline.append_nil, Outline.append_nil, Outline.nil_append]
  exact isClosed_block rfl ((houter.append hstack).append_body hlast)

end Programs

end Scene

end BlockScript
