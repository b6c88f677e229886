import Mathlib.Data.List.Permutation
import BlockScript.Proofs.Code.Rendering
import BlockScript.Proofs.Flow.Machine
import BlockScript.Proofs.Recipe.Straight

/-!
# The snippets around statements

With a snippet ahead of every statement and one after it, whatever way a program
takes, the snippet of a statement is followed by the one that closes it. Every rule
places them so that the parts of a block lead from no open statement to none.

Results:

* `Scene.neat_partsWithin`: the parts of a block.
* `Scene.hooks_paired`: the paths through a program and its procedures.
-/

namespace BlockScript

open BlockScript.Text BlockScript.Flow

/-! ## Snippets that are there -/

/-- A replacement keeps a text from being blank if what it puts in is not. -/
theorem replaceFrom_not_blank {pattern new text : List Char} (hnew : new.all isBlank = false)
    (h : text.all isBlank = false) : (replaceFrom pattern new 0 text).all isBlank = false := by
  induction text with
  | nil => simp at h
  | cons c rest ih =>
    unfold replaceFrom
    split
    · simp [List.all_append, hnew]
    · rw [List.all_cons, Bool.and_eq_false_iff] at h ⊢
      exact h.imp_right ih

namespace Scene

variable {scene : Scene} {language : Language} {ref : Ref} {block : Block Ref}
  {parts parts' : Layout} {loop context before middle after : Option Ref}

/-- Whether there are snippets ahead of the statement of every block and after it. -/
structure Hooked (scene : Scene) : Prop where
  start (block : Block Ref) : scene.startHook block ≠ ""
  stop (block : Block Ref) : scene.endHook block ≠ ""

/-- Snippets that are not blank are there for every block. -/
theorem hooked_of_config (h : scene.Speaks language)
    (hstart : isBlankText scene.config.statementStart = false)
    (hstop : isBlankText scene.config.statementEnd = false) : scene.Hooked := by
  have hinject : ∀ snippet block, isBlankText snippet = false →
      scene.injectStatement snippet block ≠ "" := by
    intro snippet block hsnippet
    have hquote : language.IsOperand (scene.dialect.quote block.idText) :=
      ⟨_, (h.phrased.faithful.quote _).weaken List.nil_suffix⟩
    have hblank : isBlankText (scene.injectId snippet block) = false := by
      simp only [isBlankText, injectId, replaceAll, String.toList_ofList]
      exact replaceFrom_not_blank hquote.isBlankText hsnippet
    unfold injectStatement oneTrailingNewline
    rw [hblank]
    exact fun hno => by simpa using congrArg String.toList hno
  refine ⟨fun block => ?_, fun block => ?_⟩
  · rw [startHook_eq]
    exact hinject _ block hstart
  · rw [endHook_eq]
    exact hinject _ block hstop

namespace Hooked

variable (h : scene.Hooked)
include h

theorem opening (ref : Ref) (block : Block Ref) :
    scene.opening ref block = .single (.opening, ref) :=
  if_neg (h.start block)

theorem closing (ref : Ref) (block : Block Ref) :
    scene.closing ref block = .single (.closing, ref) :=
  if_neg (h.stop block)

theorem statementEnd : scene.config.statementEnd ≠ "" := by
  intro hno
  exact h.stop (.ofType "") (by rw [endHook, if_pos hno])

end Hooked

end Scene

/-! ## Sequences -/

namespace Layout

variable {parts parts' : Layout}

/-- Whether lines do not start with another arm of a conditional. -/
def IsFresh (parts : Layout) : Prop :=
  parts.pastArms = parts

theorem pastArms_append (h : parts'.IsFresh) :
    (parts ++ parts').pastArms = parts.pastArms ++ parts' := by
  induction parts with
  | nil => exact h
  | line part inside rest _ ih =>
    obtain ⟨role, ref⟩ := part
    rw [Outline.line_append]
    cases role with
    | branch arm socket =>
      cases arm with
      | zero => rfl
      | succ arm => exact ih
    | otherwise => exact ih
    | _ => rfl

theorem isFresh_append (h : parts.IsFresh) (h' : parts'.IsFresh) : (parts ++ parts').IsFresh := by
  rw [IsFresh, pastArms_append h', h]

end Layout

namespace Flow

variable {parts parts' : Layout} {loop before middle after : Option Ref}

/-- One sequence after another one. -/
theorem Balanced.append (h : Balanced loop before parts middle)
    (h' : Balanced loop middle parts' after) (hfresh : parts'.IsFresh) :
    Balanced loop before (parts ++ parts') after := by
  induction h with
  | nil => exact h'
  | pass hrole _ ih => exact .pass hrole (ih h')
  | opening _ ih => exact .opening (ih h')
  | closing _ ih => exact .closing (ih h')
  | branch hinside hpast _ _ ihPast ihRest =>
    have hpast := ihPast h'
    rw [← Layout.pastArms_append hfresh] at hpast
    exact .branch hinside hpast (ihRest h')
  | otherwise hinside _ _ ih => exact .otherwise hinside (ih h')
  | loop hinside _ _ ih => exact .loop hinside (ih h')
  | jump => exact .jump
  | giveBack => exact .giveBack

/-- Whether lines can stand anywhere between statements: they lead from no open
    statement to none. -/
structure Neat (loop : Option Ref) (parts : Layout) : Prop where
  balanced : Balanced loop none parts none
  fresh : parts.IsFresh

theorem neat_nil : Neat loop .nil :=
  ⟨.nil, rfl⟩

theorem Neat.append (h : Neat loop parts) (h' : Neat loop parts') : Neat loop (parts ++ parts') :=
  ⟨h.balanced.append h'.balanced h'.fresh, Layout.isFresh_append h.fresh h'.fresh⟩

/-- Lines that are passed, if there are any. -/
structure Passed (parts : Layout) : Prop where
  balanced (loop current : Option Ref) : Balanced loop current parts current
  fresh : parts.IsFresh

theorem passed_nil : Passed .nil :=
  ⟨fun _ _ => .nil, rfl⟩

theorem passed_single {role : Role} (ref : Ref) (hrole : role.isPassed = true) :
    Passed (.single (role, ref)) :=
  ⟨fun _ _ => .pass hrole .nil, by cases role <;> first | rfl | cases hrole⟩

theorem passed_piece {role : Role} (ref : Ref) (text : String) (hrole : role.isPassed = true) :
    Passed (Scene.piece role ref text) := by
  unfold Scene.piece
  split
  · exact passed_nil
  · exact passed_single ref hrole

theorem passed_ite {role : Role} (ref : Ref) (there : Bool) (hrole : role.isPassed = true) :
    Passed (if there then .single (role, ref) else .nil) := by
  split
  · exact passed_single ref hrole
  · exact passed_nil

theorem Passed.neat (h : Passed parts) : Neat loop parts :=
  ⟨h.balanced loop none, h.fresh⟩

end Flow

namespace Scene

variable {scene : Scene} {language : Language} {ref : Ref} {block : Block Ref}
  {parts parts' : Layout} {loop context : Option Ref}

/-! ## Blocks outside loops -/

/-- Whether a block stands in the main part of the program or in the body of a
    procedure, and in no loop there. -/
inductive Outside (scene : Scene) : Ref → Prop
  | top {top ref : Ref} (htop : top ∈ scene.workspace.tops)
    (hchain : ref ∈ (scene.graph.chainFrom [] (some top)).1) : Outside scene ref
  | procedure {definition ref : Ref} {block : Block Ref} {rule : Rule} {socket : String}
    (hplaced : scene.Placed definition) (hblock : scene.graph.block? definition = some block)
    (henabled : block.enabled = true) (hrule : scene.rules.lookup block.type = .ok rule)
    (hform : rule.handler = .form .procedureDefinition)
    (hchain : ref ∈ (scene.graph.chainFrom [] (block.statementInput socket)).1) :
    Outside scene ref
  | inside {outer ref : Ref} {block : Block Ref} {rule : Rule} {form : BlockForm} {socket : String}
    (houter : Outside scene outer) (hblock : scene.graph.block? outer = some block)
    (henabled : block.enabled = true) (hrule : scene.rules.lookup block.type = .ok rule)
    (hform : rule.handler = .form form) (hloop : form.isLoop = false)
    (hchain : ref ∈ (scene.graph.chainFrom [] (block.statementInput socket)).1) :
    Outside scene ref

/-- Whether every enabled jump has a loop around it, inside the same procedure or
    inside the main part of the program. -/
def JumpsInLoops (scene : Scene) : Prop :=
  ∀ ref block rule, scene.Outside ref → scene.graph.block? ref = some block →
    block.enabled = true → scene.rules.lookup block.type = .ok rule →
    rule.handler ≠ .form .flow

/-- Whether a block may stand at a place: outside all loops, or in the innermost loop,
    which a jump opens again. -/
def Fits (scene : Scene) (loop context : Option Ref) (ref : Ref) : Prop :=
  scene.Outside ref ∨ ∃ around, loop = some around ∧ context = some around ∧
    scene.reopening (some around) = .single (.opening, around)

/-! ## Bodies -/

variable {one : Option Ref → Ref → Layout → Prop}

/-- Whether the parts of every block that fits its place are neat. -/
def AllNeat (scene : Scene) (one : Option Ref → Ref → Layout → Prop) : Prop :=
  ∀ loop context ref parts, scene.Fits loop context ref → one loop ref parts → Neat context parts

theorem neat_chain (hone : scene.AllNeat one) {refs : List Ref}
    (hfits : ∀ ref ∈ refs, scene.Fits loop context ref) (h : ChainParts one loop refs parts) :
    Neat context parts := by
  induction refs generalizing parts with
  | nil =>
    obtain rfl : parts = .nil := h
    exact neat_nil
  | cons ref refs ih =>
    obtain ⟨first, rest, hfirst, hrest, rfl⟩ := h
    exact (hone _ _ _ _ (hfits ref (by simp)) hfirst).append
      (ih (fun other hother => hfits other (by simp [hother])) hrest)

/-- The body of a statement other than a loop. -/
theorem neat_body (hone : scene.AllNeat one) (hfits : scene.Fits loop context ref)
    (hblock : scene.graph.block? ref = some block) (henabled : block.enabled = true) {rule : Rule}
    {form : BlockForm} (hrule : scene.rules.lookup block.type = .ok rule)
    (hform : rule.handler = .form form) (hloop : form.isLoop = false) {socket : String}
    (h : scene.BodyParts one loop block socket parts) : Neat context parts :=
  neat_chain hone (fun _ hchain => hfits.imp_left fun houter =>
    .inside houter hblock henabled hrule hform hloop hchain) h

namespace Hooked

variable (hooks : scene.Hooked)
include hooks

/-! ## Conditionals -/

/-- The inside of an arm. -/
theorem balanced_arm (h : Neat context parts) :
    Balanced context (some ref) (scene.fill ref (scene.closing ref block ++ parts)) none := by
  rw [hooks.closing]
  exact .closing h.balanced

/-- The further arms of a conditional, and what follows them. -/
theorem balanced_arms (hone : scene.AllNeat one) (hfits : scene.Fits loop context ref)
    (hblock : scene.graph.block? ref = some block) (henabled : block.enabled = true) {rule : Rule}
    (hrule : scene.rules.lookup block.type = .ok rule)
    (hform : rule.handler = .form .conditional) {tail past : Layout}
    (htail : Balanced context (some ref) tail none) (hpast : tail.pastArms = past)
    (hrest : Balanced context none past none) {arms : List Nat} {layouts : List Layout}
    (harms : List.Forall₂ (scene.ArmParts one loop ref block) arms layouts)
    (hfurther : ∀ arm ∈ arms, arm ≠ 0) :
    Balanced context (some ref) (.concat layouts ++ tail) none ∧
      Layout.pastArms (.concat layouts ++ tail) = past := by
  induction harms with
  | nil => exact ⟨htail, hpast⟩
  | @cons arm layout arms layouts hfirst _ ih =>
    obtain ⟨hbalanced, hpasts⟩ := ih fun other hother => hfurther other (by simp [hother])
    obtain ⟨body, hbody, rfl⟩ := hfirst
    have hneat := neat_body hone hfits hblock henabled hrule hform rfl hbody
    rw [Outline.concat, Outline.append_assoc, Outline.block_append]
    refine ⟨.branch (hooks.balanced_arm hneat) (by rwa [hpasts]) hbalanced, ?_⟩
    obtain ⟨number, rfl⟩ := Nat.exists_eq_succ_of_ne_zero (hfurther arm (by simp))
    exact hpasts

omit hooks in
theorem isPassed_closer : Passed (scene.closer ref) :=
  passed_piece ref _ rfl

/-- A conditional closes its statement at the start of every arm, and there always is
    one for the case that no condition holds. -/
theorem neat_conditional (hone : scene.AllNeat one) (hfits : scene.Fits loop context ref)
    (hblock : scene.graph.block? ref = some block) (henabled : block.enabled = true) {rule : Rule}
    (hrule : scene.rules.lookup block.type = .ok rule)
    (hform : rule.handler = .form .conditional)
    (h : scene.RuleParts one loop ref block .conditional parts) : Neat context parts := by
  cases h with
  | simple hsimple => cases hsimple
  | @conditional arms last harms hlast =>
    have hcloser : Passed (scene.closer ref) := isPassed_closer
    rw [OtherwiseParts, if_pos (by simp [hooks.statementEnd])] at hlast
    obtain ⟨body, hbody, rfl⟩ := hlast
    have hneat := neat_body hone hfits hblock henabled hrule hform rfl hbody
    rw [hooks.opening, Outline.append_assoc, Outline.append_assoc]
    refine ⟨.opening ?_, rfl⟩
    have htail : Balanced context (some ref)
        (.block (.otherwise, ref) (scene.fill ref (scene.closing ref block ++ body)) ++
          scene.closer ref) none :=
      .otherwise (hooks.balanced_arm hneat) (hcloser.balanced _ _)
    have hpast : (.block (.otherwise, ref) (scene.fill ref (scene.closing ref block ++ body)) ++
        scene.closer ref : Layout).pastArms = scene.closer ref := hcloser.fresh
    unfold Recipe.arms at harms
    obtain ⟨first, rest, ⟨inner, hinner, rfl⟩, hrest, rfl⟩ := List.forall₂_cons_left_iff.mp harms
    have hfirst := neat_body hone hfits hblock henabled hrule hform rfl hinner
    have hfurther : ∀ arm ∈ (List.range' 1 (block.values.length + block.statements.length)).takeWhile
        fun arm => block.hasInput (Recipe.conditionSocket arm), arm ≠ 0 := by
      intro arm hmem
      have := List.mem_range'_1.mp (List.takeWhile_sublist _ |>.subset hmem)
      omega
    obtain ⟨hbalanced, hpasts⟩ := hooks.balanced_arms hone hfits hblock henabled hrule hform htail
      hpast (hcloser.balanced _ _) hrest hfurther
    rw [Outline.concat, Outline.append_assoc, Outline.block_append]
    exact .branch (hooks.balanced_arm hfirst) (by rw [hpasts]; exact hcloser.balanced _ _) hbalanced

/-! ## Loops -/

/-- The inside of a loop closes its statement at the start and opens it again at the
    end. -/
theorem balanced_loop (hone : scene.AllNeat one) {rule : Rule}
    (hblock : scene.graph.block? ref = some block)
    (hrule : scene.rules.lookup block.type = .ok rule) (hhooks : rule.suppressHooks = false)
    (h : scene.LoopParts one ref block parts) : Balanced (some ref) (some ref) parts (some ref) := by
  obtain ⟨body, labelled, hbody, -, -, rfl⟩ := h
  have hreopening : scene.reopening (some ref) = .single (.opening, ref) := by
    simp [reopening, hblock, RuleTable.find?_of_lookup hrule, hhooks, hooks.opening]
  have hneat : Neat (some ref) body :=
    neat_chain hone (fun target _ => .inr ⟨ref, rfl, rfl, hreopening⟩) hbody
  have htrap : Passed (scene.trapping ref block) := passed_piece ref _ rfl
  have hlabel : Passed (if labelled then .single (.label, ref) else .nil) :=
    passed_ite ref labelled rfl
  have hlast : Balanced (some ref) none (.single (.opening, ref)) (some ref) := .opening .nil
  have hopened := (hneat.balanced.append hlast rfl).append (hlabel.balanced _ _) hlabel.fresh
  rw [hooks.closing, hooks.opening]
  have hinside := (htrap.balanced (some ref) none).append hopened
    (Layout.isFresh_append (Layout.isFresh_append hneat.fresh rfl) hlabel.fresh)
  have hwhole : Balanced (some ref) (some ref) (.line (.closing, ref) .nil
      (scene.trapping ref block ++ (body ++ .single (.opening, ref) ++
        if labelled then .single (.label, ref) else .nil))) (some ref) := .closing hinside
  simpa [fill, Outline.single, Outline.append_assoc] using hwhole

/-! ## All rules -/

/-- The parts that a rule makes of a block with hooks from the engine. -/
theorem balanced_wrapped (hone : scene.AllNeat one)
    (hblock : scene.graph.block? ref = some block) {rule : Rule} {form : BlockForm}
    (hrule : scene.rules.lookup block.type = .ok rule) (hhooks : rule.suppressHooks = false)
    (hform : form.hooksItself = false) (h : scene.RuleParts one loop ref block form parts) :
    Balanced context (some ref) parts (some ref) ∧ parts.IsFresh := by
  have hcloser : Passed (scene.closer ref) := isPassed_closer
  cases h with
  | conditional | flow => cases hform
  | whileLoop hinside =>
    exact ⟨.loop (hooks.balanced_loop hone hblock hrule hhooks hinside) (hcloser.balanced _ _), rfl⟩
  | @repeatLoop inside stored _ hinside =>
    have hbound : Passed (if stored then .single (.bound, ref) else .nil) :=
      passed_ite ref stored rfl
    have hloop : Balanced context (some ref) (.block (.loop, ref) inside ++ scene.closer ref)
        (some ref) :=
      .loop (hooks.balanced_loop hone hblock hrule hhooks hinside) (hcloser.balanced _ _)
    rw [Outline.append_assoc]
    exact ⟨(hbound.balanced _ _).append hloop rfl, Layout.isFresh_append hbound.fresh rfl⟩
  | conditionalReturn =>
    rw [hooks.closing]
    have hinside : Balanced context (some ref)
        (.single (.closing, ref) ++ .single (.giveBack, ref)) (some ref) := .closing .giveBack
    have hpast : Balanced context (some ref) (scene.closer ref).pastArms (some ref) := by
      rw [hcloser.fresh]
      exact hcloser.balanced _ _
    exact ⟨.branch hinside hpast (hcloser.balanced _ _), rfl⟩
  | simple => exact ⟨.pass rfl .nil, rfl⟩

/-- The parts of a block, if those of the blocks inside it are neat. -/
theorem neat_blockParts (h : scene.Speaks language) (hjumps : scene.JumpsInLoops)
    (hone : scene.AllNeat one) : scene.AllNeat (scene.BlockParts one) := by
  intro loop context ref parts hfits hparts
  cases hparts with
  | absent | disabled | definition => exact neat_nil
  | @statement block rule form parts hblock henabled hrule hform hparts =>
    have hcomments : Passed (scene.comments ref) := passed_piece ref _ rfl
    refine hcomments.neat.append ?_
    have hhooks := h.suppressHooks_eq hrule hform
    cases hitself : form.hooksItself with
    | false =>
      rw [hitself] at hhooks
      rw [if_neg (by simp [hhooks]), hooks.opening, hooks.closing]
      obtain ⟨hbalanced, hfresh⟩ :
          Balanced context (some ref) parts (some ref) ∧ parts.IsFresh :=
        hooks.balanced_wrapped hone hblock hrule hhooks hitself hparts
      have hclosing : Balanced context (some ref) (.single (.closing, ref)) none := .closing .nil
      rw [Outline.append_assoc]
      exact ⟨.opening (hbalanced.append hclosing rfl), rfl⟩
    | true =>
      rw [hitself] at hhooks
      rw [if_pos hhooks]
      cases hparts with
      | conditional harms hlast =>
        exact hooks.neat_conditional hone hfits hblock henabled hrule hform (.conditional harms hlast)
      | @flow jump hjump =>
        rcases hfits with houter | ⟨around, rfl, rfl, hreopening⟩
        · exact absurd hform (hjumps _ _ _ houter hblock henabled hrule)
        · rw [hreopening, hooks.opening, hooks.closing]
          exact ⟨.opening (.closing (.opening .jump)), rfl⟩
      | simple hsimple =>
        revert hsimple hitself
        cases form <;> simp [BlockForm.isSimple, BlockForm.hooksItself]
      | _ => cases hitself

/-- The parts of a block lead from no open statement to none. -/
theorem neat_partsWithin (h : scene.Speaks language) (hjumps : scene.JumpsInLoops) (room : Nat) :
    scene.AllNeat (scene.partsWithin room) := by
  induction room with
  | zero => exact fun _ _ _ _ _ hparts => hparts.elim
  | succ room ih => exact hooks.neat_blockParts h hjumps ih

/-! ## Whole programs -/

/-- The parts of what starts at the top. -/
theorem neat_top (h : scene.Speaks language) (hjumps : scene.JumpsInLoops) {room : Nat} {top : Ref}
    (htop : top ∈ scene.workspace.tops) (hparts : scene.TopParts room top parts) :
    Neat none parts := by
  unfold TopParts at hparts
  split at hparts
  · obtain ⟨block, -, rfl⟩ := hparts
    have hcomments : Passed (scene.comments top) := passed_piece top _ rfl
    rw [hooks.opening, hooks.closing, Outline.append_assoc, Outline.append_assoc]
    exact hcomments.neat.append ⟨.opening (.pass rfl (.closing .nil)), rfl⟩
  · exact neat_chain (hooks.neat_partsWithin h hjumps room)
      (fun ref hchain => .inl (.top htop hchain)) hparts

theorem neat_tops (h : scene.Speaks language) (hjumps : scene.JumpsInLoops) {room : Nat}
    {tops : List Ref} {pieces : List (String × Layout)}
    (htops : ∀ top ∈ tops, top ∈ scene.workspace.tops)
    (hparts : List.Forall₂ (fun ref piece => scene.TopParts room ref piece.2) tops pieces) :
    Neat none (.concat (pieces.map Prod.snd)) := by
  induction hparts with
  | nil => exact neat_nil
  | cons hfirst _ ih =>
    exact (hooks.neat_top h hjumps (htops _ (by simp)) hfirst).append
      (ih fun top htop => htops top (by simp [htop]))

/-- The inside of a procedure: after its body, no statement is open ahead of the
    return. -/
theorem balanced_procedure (h : scene.Speaks language) (hjumps : scene.JumpsInLoops)
    {text : String} {inside : Layout} (hprocedure : scene.IsProcedure text ref inside) :
    Balanced none none inside none := by
  obtain ⟨room, -, loop, block, rule, body, declared, hblock, henabled, hrule, hform, hbody, rfl⟩ :=
    hprocedure.body
  have hneat : Neat none body :=
    neat_chain (hooks.neat_partsWithin h hjumps room) (fun _ hchain =>
      .inl (.procedure hprocedure.placed hblock henabled hrule hform hchain)) hbody
  have houter : Passed (if declared then .single (.outer, ref) else .nil) :=
    passed_ite ref declared rfl
  have htrap : Passed (scene.trapping ref block) := passed_piece ref _ rfl
  have hhooks : Neat none (.single (.opening, ref) ++ .single (.closing, ref)) :=
    ⟨.opening (.closing .nil), rfl⟩
  have hrevisited : Neat none (scene.revisited ref block body) := by
    unfold revisited
    rw [hooks.opening, hooks.closing]
    split
    · exact hhooks
    · exact neat_nil
  have hlast : Neat none (scene.givenBack ref block) := by
    unfold givenBack
    split
    · exact ⟨.giveBack, rfl⟩
    · exact neat_nil
  unfold procedureInside
  rw [hooks.opening, hooks.closing, fill_of_ne_nil (by simp [Outline.single, Outline.block])]
  exact ((((houter.neat.append hhooks).append htrap.neat).append hneat).append
    (hrevisited.append hlast)).balanced

end Hooked

/-- With a snippet ahead of every statement and one after it, every path through the
    main part of a program or through a procedure closes a statement that it opens
    before it opens another one, if every jump is inside a loop. -/
theorem hooks_paired {language : Language} {config : Config} {workspace : Workspace}
    {program : Program} {state : PassState}
    (hstart : isBlankText config.statementStart = false)
    (hstop : isBlankText config.statementEnd = false)
    (hjumps : (ofLanguage language config workspace).JumpsInLoops)
    (hrun : (ofLanguage language config workspace).program {} = (.ok program, state)) :
    (∃ pieces, (ofLanguage language config workspace).IsMainPart program.code state.definitions
        pieces ∧
      ∀ hooks point, Path [.lines (.concat (pieces.map Prod.snd))] hooks point →
        Paired hooks point) ∧
      ∀ entry ∈ state.definitions.entries, isProcedureKey entry.1 = true →
        ∃ ref inside, (ofLanguage language config workspace).IsProcedure entry.2 ref inside ∧
          ∀ hooks point, Path [.lines inside] hooks point → Paired hooks point := by
  have h := speaks_ofLanguage language config workspace
  have hooked : (ofLanguage language config workspace).Hooked := hooked_of_config h hstart hstop
  obtain ⟨⟨pieces, hmain, -⟩, hentries⟩ := h.program_written hrun
  refine ⟨⟨pieces, hmain, fun hooks point hpath => ?_⟩, fun entry hentry hkey => ?_⟩
  · exact (hooked.neat_tops h hjumps (fun _ htop => htop) hmain.tops).balanced.paired hpath
  · obtain ⟨ref, inside, hprocedure, -⟩ := hentries entry hentry hkey
    exact ⟨ref, inside, hprocedure, fun hooks point hpath =>
      (hooked.balanced_procedure h hjumps hprocedure).paired hpath⟩

/-! ### A loop with a jump out of it -/

/-- A loop that is left in its first round. -/
def leftLoop : Workspace where
  tops := [1]
  graph := ⟨#[{ Block.ofType "controls_flow_statements" with
      id := some "b", fields := [("FLOW", .text "BREAK")] },
    { Block.ofType "controls_whileUntil" with id := some "w", statements := [("DO", some 0)] }]⟩

/-- Statements are watched: a call ahead of each tells its id, and one after it. -/
def watched : Config := { statementStart := "enter(%1)", statementEnd := "leave(%1)" }

theorem jumpsInLoops_leftLoop : (ofLanguage .python watched leftLoop).JumpsInLoops := by
  have hblocks : ∀ ref block rule,
      (ofLanguage .python watched leftLoop).graph.block? ref = some block →
      (ofLanguage .python watched leftLoop).rules.lookup block.type = .ok rule →
      ref = 0 ∧ rule.handler = .form .flow ∨ ref = 1 ∧ rule.handler = .form .whileLoop := by
    intro ref block rule hblock hrule
    match ref with
    | 0 =>
      cases hblock
      cases hrule
      exact .inl ⟨rfl, rfl⟩
    | 1 =>
      cases hblock
      cases hrule
      exact .inr ⟨rfl, rfl⟩
    | ref + 2 => cases hblock
  have houtside : ∀ ref, (ofLanguage .python watched leftLoop).Outside ref → ref = 1 := by
    intro ref h
    induction h with
    | top htop hchain =>
      obtain rfl := List.mem_singleton.mp htop
      have hall : ((ofLanguage .python watched leftLoop).graph.chainFrom [] (some 1)).1 = [1] := by
        decide +kernel
      exact List.mem_singleton.mp (hall ▸ hchain)
    | procedure hplaced hblock henabled hrule hform hchain =>
      rcases hblocks _ _ _ hblock hrule with ⟨-, hother⟩ | ⟨-, hother⟩
      · cases hform.symm.trans hother
      · cases hform.symm.trans hother
    | inside houter hblock henabled hrule hform hloop hchain ih =>
      rcases hblocks _ _ _ hblock hrule with ⟨hzero, -⟩ | ⟨-, hother⟩
      · cases ih.symm.trans hzero
      · cases hform.symm.trans hother
        cases hloop
  intro ref block rule hout hblock henabled hrule hform
  rcases hblocks _ _ _ hblock hrule with ⟨hzero, -⟩ | ⟨-, hother⟩
  · cases (houtside ref hout).symm.trans hzero
  · cases hform.symm.trans hother

/-- The text of the loop: both ways out of it close the statement of the loop. -/
theorem program_leftLoop : ((ofLanguage .python watched leftLoop).program {}).1.toOption =
    some ⟨"enter('w')\nwhile False:\n  leave('w')\n  enter('b')\n  leave('b')\n" ++
      "  enter('w')\n  break\n  enter('w')\nleave('w')\n", 9, 0⟩ := by
  have hall : (ofLanguage .python watched leftLoop).workspace.allBlocks = [1, 0] :=
    show leftLoop.allBlocks = [1, 0] by cbv
  have hused : (ofLanguage .python watched leftLoop).usedVariables = .ok [] := by
    unfold usedVariables Workspace.usedVariables
    rw [hall]
    rfl
  have hdefined : (ofLanguage .python watched leftLoop).definedNames = [] := by
    unfold definedNames
    rw [hall]
    rfl
  rw [program, Pass.bind_apply, reserveNames_of_noNames hused rfl hdefined]
  decide +kernel

theorem hooks_paired_leftLoop :
    isBlankText watched.statementStart = false ∧ isBlankText watched.statementEnd = false ∧
      (ofLanguage .python watched leftLoop).JumpsInLoops ∧
      ∃ program state, (ofLanguage .python watched leftLoop).program {} = (.ok program, state) ∧
        (∃ pieces, (ofLanguage .python watched leftLoop).IsMainPart program.code state.definitions
            pieces ∧
          ∀ hooks point, Path [.lines (.concat (pieces.map Prod.snd))] hooks point →
            Paired hooks point) ∧
        ∀ entry ∈ state.definitions.entries, isProcedureKey entry.1 = true →
          ∃ ref inside, (ofLanguage .python watched leftLoop).IsProcedure entry.2 ref inside ∧
            ∀ hooks point, Path [.lines inside] hooks point → Paired hooks point := by
  have hstart : isBlankText watched.statementStart = false := by decide
  have hstop : isBlankText watched.statementEnd = false := by decide
  obtain ⟨program, state, hrun⟩ := Pass.exists_of_toOption program_leftLoop
  exact ⟨hstart, hstop, jumpsInLoops_leftLoop, program, state, hrun,
    hooks_paired hstart hstop jumpsInLoops_leftLoop hrun⟩

end Scene

end BlockScript
