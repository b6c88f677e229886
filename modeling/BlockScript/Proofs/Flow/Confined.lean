import Mathlib.Data.List.Permutation
import BlockScript.Proofs.Flow.Silent

/-!
# Jumps in loops of their own

In a program that comes without a warning, every jump of the main part is in a loop of
the main part. A definition is rendered where it stands, but its text is put ahead of
the main part: if it stands in a loop, a jump may be meant for that loop and be in no
loop of the procedure.

Results:

* `Scene.Speaks.inPlace_renderWithin`: what rendering keeps of the procedures so far.
* `Scene.jumps_held`: the jumps of a whole program.
-/

namespace BlockScript

open BlockScript.Text Relation

namespace Scene

variable {scene : Scene} {language : Language} {ref : Ref} {block : Block Ref} {room : Nat}
  {s t : PassState} {α : Type}

/-! ## Definitions in loops -/

/-- Whether a block stands in a loop of the workspace: it can be reached from a statement
    socket of an enabled loop. -/
def InLoop (scene : Scene) (ref : Ref) : Prop :=
  ∃ loop block rule form socket head, scene.Placed loop ∧ scene.graph.block? loop = some block ∧
    block.enabled = true ∧ scene.rules.lookup block.type = .ok rule ∧
    rule.handler = .form form ∧ form.isLoop = true ∧ block.statementInput socket = some head ∧
    ReflTransGen scene.graph.Links head ref

/-- Whether a definition is the code of a procedure with its jumps held by loops of its
    own, other than those that are meant for a loop around the definition. -/
def JumpEntry (scene : Scene) (key text : String) : Prop :=
  isProcedureKey key = true → ∃ ref inside, scene.IsProcedure text ref inside ∧
    ∀ jump ∈ Layout.jumps none (scene.procedureParts ref inside),
      scene.Held jump ∨ jump.2 = none ∧ scene.InLoop ref

/-- Whether the jumps of the procedures so far are as they should be if there is no
    warning so far. -/
structure Unwarned (scene : Scene) (s : PassState) : Prop where
  named : s.Named scene.dialect.policy
  holds (h : s.warnings = []) : s.Holds scene.JumpEntry

/-- What is kept while a block is rendered: if there are loops around it, it stands in
    one. -/
structure InPlace (scene : Scene) (ref : Ref) (s : PassState) : Prop where
  unwarned : scene.Unwarned s
  loops (h : s.loops ≠ []) : scene.InLoop ref

theorem InLoop.reaches {target : Ref} (h : scene.InLoop ref)
    (hreach : ReflTransGen scene.graph.Links ref target) : scene.InLoop target := by
  obtain ⟨loop, block, rule, form, socket, head, hplaced, hblock, henabled, hrule, hform, hloop,
    hhead, hlinks⟩ := h
  exact ⟨loop, block, rule, form, socket, head, hplaced, hblock, henabled, hrule, hform, hloop,
    hhead, hlinks.trans hreach⟩

theorem Unwarned.of_eq (h : scene.Unwarned s) (hnames : t.names = s.names)
    (hdefinitions : t.definitions = s.definitions) (hwarnings : t.warnings = s.warnings) :
    scene.Unwarned t :=
  ⟨(keepsNames_of_eq (by rw [hnames]) (by rw [hdefinitions])).named h.named,
    fun hnone => (h.holds (hwarnings ▸ hnone)).of_eq (by rw [hdefinitions])⟩

variable {p : Pass α} {target : Ref}

/-- What keeps the jumps of procedures in any case also does while there is no
    warning. -/
theorem preserves_inPlace (hp : p.Preserves (PassState.Sound scene.dialect.policy scene.JumpEntry))
    (hkept : p.Keeps scene.Onward) : p.Preserves (scene.InPlace ref) := by
  intro s a t hs hrun
  obtain ⟨hlater, hwarnings⟩ := Kept.of_run hkept hrun
  refine ⟨⟨hlater.names.named hs.unwarned.named, fun hnone => ?_⟩, by rw [hlater.loops]; exact hs.loops⟩
  have hbefore : s.warnings = [] := List.prefix_nil.mp (hnone ▸ hwarnings)
  exact (hp s a t ⟨hs.unwarned.named, hs.unwarned.holds hbefore⟩ hrun).holds

theorem tolerates_inPlace (h : scene.Speaks language) : scene.Tolerates (scene.InPlace ref) := by
  have hsound : scene.Tolerates (PassState.Sound scene.dialect.policy scene.JumpEntry) :=
    tolerates_sound h.dialect fun key code hkey hyes => by rw [hkey] at hyes; cases hyes
  have hkept := onward_kept scene
  exact {
    nameOf := fun kind name => preserves_inPlace (hsound.nameOf kind name) (hkept.nameOf kind name)
    freshName := fun kind base =>
      preserves_inPlace (hsound.freshName kind base) (hkept.freshName kind base)
    helper := fun key template hkey =>
      preserves_inPlace (hsound.helper key template hkey) (hkept.helper key template)
    define := fun key code hkey =>
      preserves_inPlace (hsound.define key code hkey) (hkept.define key code)
    markContinue := preserves_inPlace hsound.markContinue hkept.markContinue
    warn := fun warning => preserves_inPlace (hsound.warn warning) (hkept.warn warning) }

/-- A block that is rendered inside another one stands in a loop if the other one
    does. -/
theorem InPlace.descend (hone : (scene.renderWithin room target).Preserves (scene.InPlace target))
    (hinto : scene.InLoop ref → scene.InLoop target) :
    (scene.renderWithin room target).Preserves (scene.InPlace ref) := by
  intro s a t hs hrun
  have ht := hone s a t ⟨hs.unwarned, fun hloops => hinto (hs.loops hloops)⟩ hrun
  obtain ⟨hlater, -⟩ := Kept.of_run ((onward_kept scene).renderWithin room target) hrun
  exact ⟨ht.unwarned, by rw [hlater.loops]; exact hs.loops⟩

variable (hone : ∀ target, scene.Placed target →
  (scene.renderWithin room target).Preserves (scene.InPlace target))
include hone

/-- The bodies that a loop asks for. -/
theorem preserves_loopBody (hplaced : scene.Placed ref)
    (hblock : scene.graph.block? ref = some block) (henabled : block.enabled = true) {rule : Rule}
    {form : BlockForm} (hrule : scene.rules.lookup block.type = .ok rule)
    (hform : rule.handler = .form form) (hloop : form.isLoop = true) (socket : String) :
    (Pass.insideLoop ref (scene.bodyText (scene.renderWithin room) block socket)).Preserves
      (scene.InPlace ref) := by
  have hkept := onward_kept scene
  have hbody : (scene.bodyText (scene.renderWithin room) block socket).Preserves scene.Unwarned := by
    refine preserves_bodyText (Q := fun target => scene.Placed target ∧ scene.InLoop target)
      (fun target htarget s a t hs hrun => ?_) fun target htarget => ?_
    · exact (hone target htarget.1 s a t ⟨hs, fun _ => htarget.2⟩ hrun).unwarned
    · obtain ⟨-, head, hhead, hreach⟩ := Graph.of_mem_chainFrom htarget
      exact ⟨hplaced.body hblock target htarget, ref, block, rule, form, socket, head, hplaced,
        hblock, henabled, hrule, hform, hloop, hhead, hreach⟩
  intro s a t hs hrun
  obtain ⟨hlater, -⟩ := Kept.of_run
    (hkept.insideLoop ref (hkept.bodyText (hkept.renderWithin room) block socket)) hrun
  obtain ⟨u, hu, rfl⟩ := Pass.between_eq_ok hrun
  have hentered : scene.Unwarned { s with loops := ref :: s.loops } :=
    hs.unwarned.of_eq rfl rfl rfl
  exact ⟨(hbody _ _ _ hentered hu).of_eq rfl rfl rfl, by rw [hlater.loops]; exact hs.loops⟩

/-- Recipes that define no procedure, and that ask for the bodies of loops only if the
    block is one. -/
theorem preserves_follow_inPlace (h : scene.Speaks language) (hplaced : scene.Placed ref)
    (hblock : scene.graph.block? ref = some block) {recipe : Recipe α}
    (hmodest : recipe.Modest scene.dialect)
    (hloop : recipe.Straight ∨ ∀ socket, (Pass.insideLoop ref
      (scene.bodyText (scene.renderWithin room) block socket)).Preserves (scene.InPlace ref)) :
    (scene.follow (scene.renderWithin room) ref block recipe).Preserves (scene.InPlace ref) := by
  have hbelow : ∀ target, scene.Placed target ∧ ReflTransGen scene.graph.Links ref target →
      (scene.renderWithin room target).Preserves (scene.InPlace ref) := fun target htarget =>
    .descend (hone target htarget.1) fun hinto => hinto.reaches htarget.2
  have hvalue : ∀ socket tier strict, (scene.valueText (scene.renderWithin room) block socket tier
      strict).Preserves (scene.InPlace ref) := fun socket tier strict =>
    preserves_valueText hbelow (fun target hinput => ⟨hplaced.value hblock hinput,
      .single (Graph.links_of_mem_values hblock (Block.mem_values_of_valueInput hinput))⟩) tier strict
  have hbody : ∀ socket, (scene.bodyText (scene.renderWithin room) block socket).Preserves
      (scene.InPlace ref) := fun socket =>
    preserves_bodyText hbelow fun target htarget => by
      obtain ⟨-, head, hhead, hreach⟩ := Graph.of_mem_chainFrom htarget
      exact ⟨hplaced.body hblock target htarget, .head
        (Graph.links_of_mem_statements hblock (Block.mem_statements_of_statementInput hhead)) hreach⟩
  rcases hloop with hstraight | hloop
  · refine preserves_follow_of_only (fun request hrequest => ?_) (hmodest.and hstraight)
    refine (tolerates_inPlace h).answer hvalue hbody (fun socket heq => ?_) hrequest.1
    subst heq
    cases hrequest.2
  · refine preserves_follow_of_only (fun request hrequest => ?_) hmodest
    exact (tolerates_inPlace h).answer hvalue hbody (fun socket _ => hloop socket) hrequest

omit hone

namespace Speaks

/-- Rendering keeps the jumps of procedures as they should be. -/
theorem inPlace_renderWithin (h : scene.Speaks language) {room : Nat}
    (hroom : room ≤ scene.graph.size + 1) :
    ∀ ref, scene.Placed ref → (scene.renderWithin room ref).Preserves (scene.InPlace ref) := by
  induction room with
  | zero =>
    intro ref _ s a t _ hrun
    cases hrun
  | succ room ih =>
    intro ref hplaced
    have hone := ih (Nat.le_of_succ_le hroom)
    refine h.preserves_renderWithin (J := scene.InPlace ref)
      (fun hs => ⟨hs.unwarned.of_eq rfl rfl rfl, hs.loops⟩)
      (fun hs => ⟨hs.unwarned.of_eq rfl rfl rfl, hs.loops⟩)
      fun block rule form hblock henabled hrule hform => ?_
    by_cases hdefinition : form = .procedureDefinition
    · subst hdefinition
      intro s product t hs hrun
      obtain ⟨-, u, name, code, inside, hu, hinside, hcode, -, rfl⟩ :=
        h.procedureDefinition_written (I := scene.InPlace ref) (h.laysOut_renderWithin room)
          (fun _ hstate => hstate.unwarned.named)
          (fun hmodest hstraight =>
            preserves_follow_inPlace hone h hplaced hblock hmodest (.inl hstraight))
          hblock henabled hrule hform hs hrun
      refine ⟨⟨⟨fun hname => hu.unwarned.named.assigned hname,
        fun hname => hu.unwarned.named.helpers hname⟩, fun hnone =>
        (hu.unwarned.holds hnone).add (fun _ => ?_) rfl⟩, hu.loops⟩
      refine ⟨ref, inside, ⟨hplaced, ⟨room, Nat.le_of_succ_le_succ hroom, _, hinside⟩, hcode⟩, ?_⟩
      obtain ⟨other, _, body, declared, hother, -, -, -, hbody, rfl⟩ := hinside
      cases hblock.symm.trans hother
      intro jump hjump
      rw [jumps_procedureParts] at hjump
      by_cases houtside : s.loops = []
      · -- Nothing was warned of from here on, so the body leaves no jump open.
        have hwarnings := (Kept.of_run ((onward_kept scene).follow
          ((onward_kept scene).renderWithin room) ref block _) hrun).2
        have hbefore : s.warnings = [] := List.prefix_nil.mp (hnone ▸ hwarnings)
        rw [houtside] at hbody
        have hclosed := h.closed_procedureDefinition
          ⟨hrun, hs.unwarned.named, houtside, hnone.trans hbefore.symm⟩ hbody
        exact (orderly_procedureInside declared hclosed none jump hjump).imp_right
          fun ⟨hno, _⟩ => absurd hno Bool.false_ne_true
      · have horderly : scene.Orderly true body := (orderly_partsWithin room).body hbody
        exact (orderly_procedureInside declared horderly none jump hjump).imp_right
          fun ⟨_, hnone, _⟩ => ⟨hnone, hs.loops houtside⟩
    · refine preserves_follow_inPlace hone h hplaced hblock
        (form.recipe_modest scene ref block hdefinition) ?_
      cases hloop : form.isLoop with
      | false => exact .inl (form.recipe_straight scene ref block hloop)
      | true =>
        exact .inr (preserves_loopBody hone hplaced hblock henabled hrule hform hloop)

end Speaks

/-- In a program without a warning, every jump of the main part is in a loop of the main
    part, and every jump of a procedure is in a loop of that procedure, with the label
    that it goes to at the end of that loop. Only the definition of a procedure that
    stands in a loop can put a jump outside all loops. -/
theorem jumps_held {language : Language} {config : Config} {workspace : Workspace}
    {program : Program} {state : PassState} (hunwarned : state.warnings = [])
    (hrun : (ofLanguage language config workspace).program {} = (.ok program, state)) :
    (∃ pieces, (ofLanguage language config workspace).IsMainPart program.code state.definitions
        pieces ∧
      ∀ jump ∈ Layout.jumps none (.concat (pieces.map Prod.snd)),
        (ofLanguage language config workspace).Held jump) ∧
      ∀ entry ∈ state.definitions.entries, isProcedureKey entry.1 = true →
        ∃ ref inside, (ofLanguage language config workspace).IsProcedure entry.2 ref inside ∧
          ∀ jump ∈ Layout.jumps none
              ((ofLanguage language config workspace).procedureParts ref inside),
            (ofLanguage language config workspace).Held jump ∨
              jump.2 = none ∧ (ofLanguage language config workspace).InLoop ref := by
  have h := speaks_ofLanguage language config workspace
  generalize hscene : ofLanguage language config workspace = scene at h hrun ⊢
  have hkept := onward_kept scene
  obtain ⟨texts, s, hreserve, htexts, -⟩ := program_eq_ok hrun
  have hempty : PassState.Sound scene.dialect.policy scene.JumpEntry {} :=
    ⟨PassState.named_empty, fun _ hmem => by cases hmem⟩
  have hsound := sound_reserveNames
    (fun key code hkey hyes => by rw [hkey] at hyes; cases hyes) _ _ _ hempty hreserve
  obtain ⟨hlater, hwarnings⟩ := Kept.of_run hkept.reserveNames hreserve
  obtain ⟨-, hmore⟩ := Kept.of_run (hkept.topTexts scene.workspace.tops) htexts
  have hnone : s.warnings = [] := List.prefix_nil.mp (hunwarned ▸ hmore)
  refine ⟨?_, ?_⟩
  · obtain ⟨⟨pieces, hmain, -⟩, -⟩ := h.program_written hrun
    refine ⟨pieces, hmain, fun jump hjump => ?_⟩
    have hclosed := h.closed_topTexts rfl
      ⟨htexts, hsound.named, hlater.loops, hunwarned.trans hnone.symm⟩ hmain.tops
    exact (hclosed none jump hjump).elim id fun ⟨hno, _⟩ => absurd hno Bool.false_ne_true
  · have hone : scene.AllPreserve (fun s => scene.Unwarned s ∧ s.loops = [])
        (scene.renderWithin (scene.graph.size + 1)) := by
      intro ref hplaced s a t hs hrun
      obtain ⟨hlater, -⟩ := Kept.of_run (hkept.renderWithin _ ref) hrun
      exact ⟨(h.inPlace_renderWithin (Nat.le_refl _) ref hplaced s a t
        ⟨hs.1, fun hno => absurd hs.2 hno⟩ hrun).unwarned, hlater.loops.trans hs.2⟩
    exact (preserves_topTexts hone (fun ref hmem => ⟨ref, hmem, .refl⟩) _ _ _
      ⟨⟨hsound.named, fun _ => hsound.holds⟩, hlater.loops⟩ htexts).1.holds hunwarned

/-! ### Loops in procedures and procedures in loops -/

/-- A jump to the next round inside a conditional, and a procedure with a loop that is
    left in its first round. -/
def ownLoops : Workspace where
  tops := [2, 5]
  graph := ⟨#[{ Block.ofType "controls_flow_statements" with
      id := some "c", fields := [("FLOW", .text "CONTINUE")] },
    { Block.ofType "controls_if" with id := some "i", statements := [("DO0", some 0)] },
    { Block.ofType "controls_whileUntil" with id := some "w", statements := [("DO", some 1)] },
    { Block.ofType "controls_flow_statements" with
      id := some "b", fields := [("FLOW", .text "BREAK")] },
    { Block.ofType "controls_whileUntil" with id := some "v", statements := [("DO", some 3)] },
    { Block.ofType "procedures_defreturn" with
      id := some "p", fields := [("NAME", .text "f")], statements := [("STACK", some 4)] }]⟩

/-- The jumps go to the loops that they stand in. -/
theorem program_ownLoops :
    ((ofLanguage .lua {} ownLoops).program {}).1.toOption.map Program.code =
        some ("function f()\n  while false do\n    break\n  end\nend\n\n\n" ++
          "while false do\n  if false then\n    goto continue\n  end\n  ::continue::\nend\n") ∧
      ((ofLanguage .lua {} ownLoops).program {}).2.warnings = [] := by
  have hall : (ofLanguage .lua {} ownLoops).workspace.allBlocks = [2, 1, 0, 5, 4, 3] :=
    show ownLoops.allBlocks = [2, 1, 0, 5, 4, 3] by cbv
  have hused : (ofLanguage .lua {} ownLoops).usedVariables = .ok [] := by
    unfold usedVariables Workspace.usedVariables
    rw [hall]
    rfl
  have hdefined : (ofLanguage .lua {} ownLoops).definedNames = [.text "f"] := by
    unfold definedNames
    rw [hall]
    rfl
  rw [program, Pass.bind_apply, reserveNames_of_noVariables hused rfl, hdefined]
  decide +kernel

theorem jumps_held_ownLoops :
    ((ofLanguage .lua {} ownLoops).program {}).2.warnings = [] ∧
      ∃ program state, (ofLanguage .lua {} ownLoops).program {} = (.ok program, state) ∧
        (∃ pieces, (ofLanguage .lua {} ownLoops).IsMainPart program.code state.definitions pieces ∧
          ∀ jump ∈ Layout.jumps none (.concat (pieces.map Prod.snd)),
            (ofLanguage .lua {} ownLoops).Held jump) ∧
        ∀ entry ∈ state.definitions.entries, isProcedureKey entry.1 = true →
          ∃ ref inside, (ofLanguage .lua {} ownLoops).IsProcedure entry.2 ref inside ∧
            ∀ jump ∈ Layout.jumps none ((ofLanguage .lua {} ownLoops).procedureParts ref inside),
              (ofLanguage .lua {} ownLoops).Held jump ∨
                jump.2 = none ∧ (ofLanguage .lua {} ownLoops).InLoop ref := by
  obtain ⟨hcode, hunwarned⟩ := program_ownLoops
  obtain ⟨program, hprogram, -⟩ := Option.map_eq_some_iff.mp hcode
  obtain ⟨program, state, hrun⟩ := Pass.exists_of_toOption hprogram
  have hstate : state.warnings = [] := by rwa [hrun] at hunwarned
  exact ⟨hunwarned, program, state, hrun, jumps_held hstate hrun⟩

/-- The parts of a chain with an enabled jump have a jump for the loop around them. -/
theorem exists_jump_of_chain {loop : Option Ref} {refs : List Ref} {parts : Layout}
    (hmem : ref ∈ refs) (hblock : scene.graph.block? ref = some block)
    (henabled : block.enabled = true) {rule : Rule}
    (hrule : scene.rules.lookup block.type = .ok rule) (hform : rule.handler = .form .flow)
    (h : ChainParts (scene.partsWithin room) loop refs parts) (around : Option Layout) :
    ∃ flow, (flow, around) ∈ parts.jumps around := by
  induction refs generalizing parts with
  | nil => cases hmem
  | cons first refs ih =>
    obtain ⟨parts, rest, hfirst, hrest, rfl⟩ := h
    rcases List.mem_cons.mp hmem with rfl | hlater
    · cases room with
      | zero => exact hfirst.elim
      | succ room =>
        cases hfirst with
        | absent habsent => cases hblock.symm.trans habsent
        | disabled hother hdisabled =>
          cases hblock.symm.trans hother
          cases henabled.symm.trans hdisabled
        | definition hother _ hotherRule hdefinition =>
          cases hblock.symm.trans hother
          cases hrule.symm.trans hotherRule
          cases hform.symm.trans hdefinition
        | statement hother _ hotherRule hotherForm hparts =>
          cases hblock.symm.trans hother
          cases hrule.symm.trans hotherRule
          cases hform.symm.trans hotherForm
          cases hparts with
          | simple hsimple => cases hsimple
          | @flow jump =>
            refine ⟨jump, ?_⟩
            split <;> simp
    · obtain ⟨flow, hflow⟩ := ih hlater hrest
      exact ⟨flow, by simp [hflow]⟩

/-- A procedure in a loop, with a jump meant for that loop. -/
def hoistedJump : Workspace where
  tops := [2]
  graph := ⟨#[{ Block.ofType "controls_flow_statements" with
      id := some "b", fields := [("FLOW", .text "BREAK")] },
    { Block.ofType "procedures_defreturn" with
      id := some "p", fields := [("NAME", .text "f")], statements := [("STACK", some 0)] },
    { Block.ofType "controls_whileUntil" with id := some "w", statements := [("DO", some 1)] }]⟩

theorem program_hoistedJump :
    ((ofLanguage .lua {} hoistedJump).program {}).1.toOption.map Program.code =
        some "function f()\n  break\nend\n\n\nwhile false do\nend\n" ∧
      ((ofLanguage .lua {} hoistedJump).program {}).2.warnings = [] ∧
      ∃ text, ("%f", text) ∈
        ((ofLanguage .lua {} hoistedJump).program {}).2.definitions.entries := by
  have hall : (ofLanguage .lua {} hoistedJump).workspace.allBlocks = [2, 1, 0] :=
    show hoistedJump.allBlocks = [2, 1, 0] by cbv
  have hused : (ofLanguage .lua {} hoistedJump).usedVariables = .ok [] := by
    unfold usedVariables Workspace.usedVariables
    rw [hall]
    rfl
  have hdefined : (ofLanguage .lua {} hoistedJump).definedNames = [.text "f"] := by
    unfold definedNames
    rw [hall]
    rfl
  rw [program, Pass.bind_apply, reserveNames_of_noVariables hused rfl, hdefined]
  refine ⟨by decide +kernel, by decide +kernel, "function f()\n  break\nend\n", ?_⟩
  decide +kernel

/-- The jump is in no loop of the procedure, and there is no warning. -/
theorem hoistedJump_not_held :
    ∃ program state, (ofLanguage .lua {} hoistedJump).program {} = (.ok program, state) ∧
      state.warnings = [] ∧ ∃ entry ∈ state.definitions.entries, isProcedureKey entry.1 = true ∧
        ¬∃ ref inside, (ofLanguage .lua {} hoistedJump).IsProcedure entry.2 ref inside ∧
          ∀ jump ∈ Layout.jumps none ((ofLanguage .lua {} hoistedJump).procedureParts ref inside),
            (ofLanguage .lua {} hoistedJump).Held jump := by
  obtain ⟨hcode, hunwarned, text, hentry⟩ := program_hoistedJump
  obtain ⟨program, hprogram, -⟩ := Option.map_eq_some_iff.mp hcode
  obtain ⟨program, state, hrun⟩ := Pass.exists_of_toOption hprogram
  rw [hrun] at hunwarned hentry
  have hkey : isProcedureKey "%f" = true := by decide
  refine ⟨program, state, hrun, hunwarned, _, hentry, hkey, ?_⟩
  rintro ⟨ref, inside, hprocedure, hheld⟩
  obtain ⟨room, -, loop, block, rule, body, declared, hblock, -, hrule, hform, hbody, rfl⟩ :=
    hprocedure.body
  match ref with
  | 0 | 2 =>
    cases hblock
    cases hrule
    cases hform
  | ref + 3 => cases hblock
  | 1 =>
    cases hblock
    have hchain : (0 : Ref) ∈ ((ofLanguage .lua {} hoistedJump).graph.chainFrom [] (some 0)).1 := by
      decide +kernel
    obtain ⟨flow, hjump⟩ := exists_jump_of_chain hchain rfl rfl rfl rfl hbody none
    obtain ⟨inside, hnone, -⟩ := hheld (flow, none) (by
      rw [jumps_procedureParts, procedureInside]
      simp [hjump])
    cases hnone

end Scene

end BlockScript
