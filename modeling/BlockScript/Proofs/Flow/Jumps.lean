import BlockScript.Proofs.Code.Procedures

/-!
# Jumps and the loops around them

A jump is meant for the innermost loop around it, and a procedure is a place of its
own: a loop around the procedure is none for a jump inside it. Where the language goes
on with the next round by way of a label, the label has to close the body of that
loop.

Lines leave a jump open if it is meant for a loop around the lines. Every rule for a
loop holds the jumps in its body, so only what stands in no loop stays open.

Results:

* `Scene.orderly_ruleParts`: what a rule does with the jumps of the blocks inside.
* `Scene.orderly_partsWithin`: the jumps in the parts of a block are held by loops, or
  meant for the loop around the block.
-/

namespace BlockScript

/-- Whether lines with a role are a jump. -/
def Role.isJump : Role → Bool
  | .jump _ => true
  | _ => false

/-! ## Jumps among lines -/

namespace Layout

variable {around : Option Layout} {parts parts' : Layout}

/-- The jumps among lines, each with the inside of the innermost loop around it, where
    `around` is that of the loop around the lines. -/
def jumps : Option Layout → Layout → List (FlowStatement × Option Layout)
  | _, .nil => []
  | around, .line (.jump flow, _) inside rest =>
    (flow, around) :: (jumps around inside ++ jumps around rest)
  | around, .line (.loop, _) inside rest => jumps (some inside) inside ++ jumps around rest
  | around, .line (.procedure, _) inside rest => jumps none inside ++ jumps around rest
  | around, .line _ inside rest => jumps around inside ++ jumps around rest

/-- Whether a label closes the lines. -/
def IsLabelled (parts : Layout) : Prop :=
  ∃ front ref, parts = front ++ .single (.label, ref)

@[simp]
theorem jumps_nil : jumps around .nil = [] := rfl

@[simp]
theorem jumps_append :
    jumps around (parts ++ parts') = jumps around parts ++ jumps around parts' := by
  induction parts with
  | nil => rfl
  | line part inside rest _ ih =>
    obtain ⟨role, ref⟩ := part
    rw [Outline.line_append]
    cases role <;> simp [jumps, ih]

@[simp]
theorem jumps_single_jump (flow : FlowStatement) (ref : Ref) :
    jumps around (.single (.jump flow, ref)) = [(flow, around)] := rfl

@[simp]
theorem jumps_block_branch (arm : Nat) (socket : String) (ref : Ref) (inside : Layout) :
    jumps around (.block (.branch arm socket, ref) inside) = jumps around inside :=
  List.append_nil _

@[simp]
theorem jumps_block_otherwise (ref : Ref) (inside : Layout) :
    jumps around (.block (.otherwise, ref) inside) = jumps around inside :=
  List.append_nil _

@[simp]
theorem jumps_block_loop (ref : Ref) (inside : Layout) :
    jumps around (.block (.loop, ref) inside) = jumps (some inside) inside :=
  List.append_nil _

@[simp]
theorem jumps_block_procedure (ref : Ref) (inside : Layout) :
    jumps around (.block (.procedure, ref) inside) = jumps none inside :=
  List.append_nil _

theorem jumps_single {role : Role} (ref : Ref) (h : role.isJump = false) :
    jumps around (.single (role, ref)) = [] := by
  cases role <;> first | rfl | cases h

end Layout

namespace Scene

variable {scene : Scene} {ref : Ref} {block : Block Ref} {parts parts' inside : Layout}
  {loop : Option Ref} {leaving : Bool} {one : Option Ref → Ref → Layout → Prop}

theorem jumps_piece {role : Role} {around : Option Layout} (ref : Ref) (text : String)
    (h : role.isJump = false) : (piece role ref text).jumps around = [] := by
  unfold piece
  split
  · rfl
  · exact Layout.jumps_single ref h

@[simp]
theorem jumps_fill {around : Option Layout} (parts : Layout) :
    (scene.fill ref parts).jumps around = parts.jumps around := by
  cases parts with
  | nil =>
    unfold fill
    cases scene.dialect.emptyBody <;> rfl
  | line part inside rest => rfl

/-- A procedure is a place of its own. -/
theorem jumps_procedureParts {around : Option Layout} (inside : Layout) :
    (scene.procedureParts ref inside).jumps around = inside.jumps none := by
  have hcomments : (scene.comments ref).jumps around = [] := jumps_piece ref _ rfl
  have hcloser : (piece .closer ref scene.dialect.procedureEnd).jumps around = [] :=
    jumps_piece ref _ rfl
  simp [procedureParts, hcomments, hcloser]

/-- Whether a jump with the inside of the innermost loop around it has such a loop, and
    the label that it goes to if there is need for one. -/
def Held (scene : Scene) (jump : FlowStatement × Option Layout) : Prop :=
  ∃ inside, jump.2 = some inside ∧
    (jump.1 = .continue → scene.dialect.continueLabel.isSome = true → inside.IsLabelled)

/-- Whether the jumps among lines are held, other than those that are meant for a loop
    around the lines. There are none of these unless `leaving` is set. -/
def Orderly (scene : Scene) (leaving : Bool) (parts : Layout) : Prop :=
  ∀ around, ∀ jump ∈ parts.jumps around, scene.Held jump ∨
    leaving = true ∧ jump.2 = around ∧ (jump.1 = .continue → parts.continues = true)

namespace Orderly

theorem of_no_jumps (h : ∀ around, parts.jumps around = []) : scene.Orderly leaving parts := by
  intro around jump hjump
  rw [h] at hjump
  cases hjump

theorem nil : scene.Orderly leaving .nil :=
  of_no_jumps fun _ => rfl

theorem single {role : Role} (ref : Ref) (h : role.isJump = false) :
    scene.Orderly leaving (.single (role, ref)) :=
  of_no_jumps fun _ => Layout.jumps_single ref h

theorem piece {role : Role} (ref : Ref) (text : String) (h : role.isJump = false) :
    scene.Orderly leaving (Scene.piece role ref text) :=
  of_no_jumps fun _ => jumps_piece ref text h

theorem ite {role : Role} (ref : Ref) (there : Bool) (h : role.isJump = false) :
    scene.Orderly leaving (if there then .single (role, ref) else .nil) := by
  split
  · exact single ref h
  · exact nil

theorem append (h : scene.Orderly leaving parts) (h' : scene.Orderly leaving parts') :
    scene.Orderly leaving (parts ++ parts') := by
  intro around jump hjump
  rw [Layout.continues_append, Bool.or_eq_true]
  rcases List.mem_append.mp (Layout.jumps_append ▸ hjump) with hmem | hmem
  · exact (h around jump hmem).imp_right fun ⟨hleaving, haround, hcontinues⟩ =>
      ⟨hleaving, haround, fun hjump => .inl (hcontinues hjump)⟩
  · exact (h' around jump hmem).imp_right fun ⟨hleaving, haround, hcontinues⟩ =>
      ⟨hleaving, haround, fun hjump => .inr (hcontinues hjump)⟩

theorem concat {layouts : List Layout} (h : ∀ parts ∈ layouts, scene.Orderly leaving parts) :
    scene.Orderly leaving (.concat layouts) := by
  induction layouts with
  | nil => exact nil
  | cons first rest ih =>
    exact (h first (by simp)).append (ih fun parts hmem => h parts (by simp [hmem]))

theorem branch {arm : Nat} {socket : String} (h : scene.Orderly leaving inside) :
    scene.Orderly leaving (.block (.branch arm socket, ref) inside) := by
  intro around jump hjump
  rw [Layout.jumps_block_branch] at hjump
  rw [Layout.continues_block_branch]
  exact h around jump hjump

theorem otherwise (h : scene.Orderly leaving inside) :
    scene.Orderly leaving (.block (.otherwise, ref) inside) := by
  intro around jump hjump
  rw [Layout.jumps_block_otherwise] at hjump
  rw [Layout.continues_block_otherwise]
  exact h around jump hjump

theorem jump (flow : FlowStatement) : scene.Orderly true (.single (.jump flow, ref)) := by
  intro around jump hjump
  rw [Layout.jumps_single_jump, List.mem_singleton] at hjump
  subst hjump
  exact .inr ⟨rfl, rfl, fun hcontinue => by simpa using hcontinue⟩

/-- A loop holds the jumps inside it if a label closes its body where one is
    needed. -/
theorem loopBlock (h : scene.Orderly true inside)
    (hlabel : inside.continues = true → scene.dialect.continueLabel.isSome = true →
      inside.IsLabelled) : scene.Orderly leaving (.block (.loop, ref) inside) := by
  intro around jump hjump
  rw [Layout.jumps_block_loop] at hjump
  refine .inl ((h _ jump hjump).elim id fun ⟨_, haround, hcontinues⟩ => ?_)
  exact ⟨inside, haround, fun hcontinue => hlabel (hcontinues hcontinue)⟩

theorem fill (h : scene.Orderly leaving parts) :
    scene.Orderly leaving (scene.fill ref parts) := by
  intro around jump hjump
  rw [jumps_fill] at hjump
  rw [continues_fill]
  exact h around jump hjump

theorem comments : scene.Orderly leaving (scene.comments ref) :=
  piece ref _ rfl

theorem opening : scene.Orderly leaving (scene.opening ref block) :=
  piece ref _ rfl

theorem closing : scene.Orderly leaving (scene.closing ref block) :=
  piece ref _ rfl

theorem trapping : scene.Orderly leaving (scene.trapping ref block) :=
  piece ref _ rfl

theorem closer : scene.Orderly leaving (scene.closer ref) :=
  piece ref _ rfl

theorem reopening : scene.Orderly leaving (scene.reopening loop) := by
  unfold Scene.reopening
  split
  · exact nil
  · split
    · exact nil
    · split
      · exact nil
      · split
        · exact nil
        · exact opening

end Orderly

/-! ## Blocks -/

/-- Whether the jumps in the parts of every block are held, or meant for a loop around
    the block. -/
def AllOrderly (scene : Scene) (one : Option Ref → Ref → Layout → Prop) : Prop :=
  ∀ loop ref parts, one loop ref parts → scene.Orderly true parts

theorem orderly_chain {refs : List Ref}
    (hone : ∀ ref ∈ refs, ∀ parts, one loop ref parts → scene.Orderly leaving parts)
    (h : ChainParts one loop refs parts) : scene.Orderly leaving parts := by
  induction refs generalizing parts with
  | nil =>
    obtain rfl : parts = .nil := h
    exact .nil
  | cons ref refs ih =>
    obtain ⟨first, rest, hfirst, hrest, rfl⟩ := h
    exact (hone ref (by simp) first hfirst).append
      (ih (fun other hother => hone other (by simp [hother])) hrest)

theorem AllOrderly.body (hone : scene.AllOrderly one) {socket : String}
    (h : scene.BodyParts one loop block socket parts) : scene.Orderly true parts :=
  orderly_chain (fun ref _ => hone loop ref) h

/-- The inside of a loop with its label. -/
theorem AllOrderly.loopBlock (hone : scene.AllOrderly one) (h : scene.LoopParts one ref block inside) :
    scene.Orderly leaving (.block (.loop, ref) inside) := by
  obtain ⟨body, labelled, hbody, -, hlabelled, rfl⟩ := h
  have hlast : scene.Orderly true (if labelled then .single (.label, ref) else .nil) :=
    .ite ref labelled rfl
  refine .loopBlock (.fill ((((Orderly.closing.append .trapping).append (hone.body hbody)).append
    .opening).append hlast)) fun hcontinues hneeded => ?_
  obtain rfl : labelled = true := by
    refine hlabelled ?_ hneeded
    have hno : (if labelled then .single (.label, ref) else .nil : Layout).continues = false := by
      split <;> rfl
    simpa [hno] using hcontinues
  refine ⟨scene.closing ref block ++ scene.trapping ref block ++ body ++ scene.opening ref block,
    ref, ?_⟩
  exact fill_of_ne_nil (by simp [Outline.single, Outline.block])

/-- What a rule does with the jumps of the blocks inside: a loop holds them, and a
    conditional leaves them as they are. -/
theorem orderly_ruleParts {form : BlockForm} (hone : scene.AllOrderly one)
    (harm : form = .conditional → ∀ arm ∈ Recipe.arms block, ∀ body,
      scene.BodyParts one loop block (Recipe.bodySocket arm) body → scene.Orderly leaving body)
    (hotherwise : form = .conditional →
      (block.hasInput "ELSE" || scene.config.statementEnd ≠ "") = true → ∀ body,
        scene.BodyParts one loop block "ELSE" body → scene.Orderly leaving body)
    (hflow : form = .flow → leaving = true)
    (h : scene.RuleParts one loop ref block form parts) : scene.Orderly leaving parts := by
  cases h with
  | @conditional arms last harms hlast =>
    refine ((Orderly.opening.append (.concat fun layout hlayout => ?_)).append ?_).append .closer
    · obtain ⟨arm, hmem, body, hbody, rfl⟩ : ∃ arm ∈ Recipe.arms block,
          scene.ArmParts one loop ref block arm layout := by
        obtain ⟨i, hi, rfl⟩ := List.mem_iff_getElem.mp hlayout
        have hi' : i < (Recipe.arms block).length := harms.length_eq ▸ hi
        exact ⟨_, List.getElem_mem hi', harms.get hi' hi⟩
      exact .branch (.fill (Orderly.closing.append (harm rfl arm hmem body hbody)))
    · unfold OtherwiseParts at hlast
      split at hlast
      · next hthere =>
        obtain ⟨body, hbody, rfl⟩ := hlast
        exact .otherwise (.fill (Orderly.closing.append (hotherwise rfl hthere body hbody)))
      · rw [hlast]
        exact .nil
  | whileLoop hinside => exact (hone.loopBlock hinside).append .closer
  | @repeatLoop inside stored _ hinside =>
    have hbound : scene.Orderly leaving (if stored then .single (.bound, ref) else .nil) :=
      .ite ref stored rfl
    exact (hbound.append (hone.loopBlock hinside)).append .closer
  | @flow jump =>
    obtain rfl := hflow rfl
    exact ((Orderly.opening.append .closing).append .reopening).append (.jump jump)
  | conditionalReturn =>
    exact (Orderly.branch (Orderly.closing.append (.single ref rfl))).append .closer
  | simple => exact .single ref rfl

/-- The parts of a statement with the comments and hooks that belong to it. -/
theorem Orderly.statement (rule : Rule) (h : scene.Orderly leaving parts) :
    scene.Orderly leaving (scene.comments ref ++
      if rule.suppressHooks then parts
      else scene.opening ref block ++ parts ++ scene.closing ref block) := by
  refine Orderly.comments.append ?_
  split
  · exact h
  · exact (Orderly.opening.append h).append .closing

/-- The jumps in the parts of a block are held by loops, or meant for the loop around
    the block. -/
theorem orderly_partsWithin (room : Nat) : scene.AllOrderly (scene.partsWithin room) := by
  induction room with
  | zero => exact fun _ _ _ h => h.elim
  | succ room ih =>
    intro loop ref parts h
    cases h with
    | absent | disabled | definition => exact .nil
    | statement _ _ _ _ hparts =>
      exact .statement _ (orderly_ruleParts ih (fun _ _ _ _ hbody => ih.body hbody)
        (fun _ _ _ hbody => ih.body hbody) (fun _ => rfl) hparts)

/-- The inside of a procedure, from its body. -/
theorem orderly_procedureInside {body : Layout} (declared : Bool)
    (h : scene.Orderly leaving body) :
    scene.Orderly leaving (scene.procedureInside ref block body
      (if declared then .single (.outer, ref) else .nil)) := by
  have houter : scene.Orderly leaving (if declared then .single (.outer, ref) else .nil) :=
    .ite ref declared rfl
  have hhooks : scene.Orderly leaving (scene.opening ref block ++ scene.closing ref block) :=
    Orderly.opening.append .closing
  have hrevisited : scene.Orderly leaving (scene.revisited ref block body) := by
    unfold revisited
    split
    · exact hhooks
    · exact .nil
  exact .fill ((((houter.append hhooks).append .trapping).append h).append
    (hrevisited.append (.ite ref _ rfl)))

end Scene

end BlockScript
