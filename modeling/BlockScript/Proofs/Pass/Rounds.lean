import BlockScript.Proofs.Counting.Assigned
import BlockScript.Proofs.Recipe.Steady

/-!
# The rounds of loops

A jump to the next round is meant for the loop in whose body it is rendered, if no other
loop is in between: the body of the other loop would be rendered in rounds of its own. Its
condition would not. Nor is the definition of a procedure a place of its own while it is
rendered.

Which blocks these are shows in the workspace. As every recipe reads the same sockets in
every run, each of them is rendered whenever the body of the loop is rendered with
success, and a jump to the next round is noted then.

Definitions:

* `Scene.InRound`: the blocks that are rendered in a round of a loop.
* `Scene.Continues`: whether there is a jump to the next round among them.

Results:

* `Scene.continued_of_loopBody`: rendering the body of a loop notes such a jump.
-/

namespace BlockScript

namespace Scene

variable (scene : Scene)

/-- The blocks that are rendered in a round of a loop, with no body of another loop around
    them: those of the chain in its body, and what is rendered inside these. -/
inductive InRound (loop : Ref) : Ref → Prop where
  | body {block : Block Ref} {ref : Ref} (hblock : scene.graph.block? loop = some block)
    (hmem : ref ∈ (scene.graph.chainFrom [] (block.statementInput "DO")).1) : InRound loop ref
  | inside {outer inner : Ref} {block : Block Ref} {rule : Rule} {request : Request}
    (houter : InRound loop outer) (hblock : scene.graph.block? outer = some block)
    (henabled : block.enabled = true) (hrule : scene.rules.lookup block.type = .ok rule)
    (hasks : (rule.handler.recipe scene outer block).Asks request) (hstraight : request.Straight)
    (htarget : inner ∈ scene.targets block request) : InRound loop inner

/-- Whether a reference leads to an enabled jump to the next round of a loop. -/
def IsContinue (ref : Ref) : Prop :=
  ∃ block, scene.HasForm ref block .flow ∧
    chosen FlowStatement (block.field "FLOW") = .ok .continue

/-- Whether a jump to the next round is rendered in the rounds of a loop. -/
def Continues (loop : Ref) : Prop :=
  ∃ ref, scene.InRound loop ref ∧ scene.IsContinue ref

/-- Whether a block is rendered with success inside a loop, in a state that comes before
    certain loops have been noted. -/
def RenderedIn (loop : Option Ref) (noted : List Ref) (ref : Ref) : Prop :=
  ∃ room s rendered t, s.loops.head? = loop ∧
    scene.renderWithin room ref s = (.ok rendered, t) ∧ t.continued ⊆ noted

variable {scene} {ref target loop : Ref} {block : Block Ref} {room : Nat} {request : Request}
  {around : Option Ref} {noted : List Ref} {s t : PassState}

theorem RenderedIn.later (h : scene.RenderedIn around s.continued ref)
    (hlater : Later scene.dialect.policy s t) : scene.RenderedIn around t.continued ref := by
  obtain ⟨room, u, rendered, v, hloops, hrun, hnoted⟩ := h
  exact ⟨room, u, rendered, v, hloops, hrun, fun _ hmem => hlater.continued (hnoted hmem)⟩

/-! ## What is rendered for a request -/

theorem renderedIn_of_chainText {refs : List Ref} {text : String}
    (hrun : scene.chainText (scene.renderWithin room) refs s = (.ok text, t)) :
    ∀ ref ∈ refs, scene.RenderedIn s.loops.head? t.continued ref := by
  induction refs generalizing s text with
  | nil => simp
  | cons first refs ih =>
    obtain ⟨rendered, u, hfirst, hrest⟩ := Pass.bind_eq_ok hrun
    have hlater : Later scene.dialect.policy s u :=
      Kept.of_run ((later_kept scene).renderWithin room first) hfirst
    cases rendered with
    | value code tier => cases hrest
    | text code =>
      obtain ⟨rest, v, htail, hdone⟩ := Pass.bind_eq_ok hrest
      obtain ⟨-, rfl⟩ := Pass.pure_eq_ok hdone
      have hmore : Later scene.dialect.policy u t :=
        Kept.of_run ((later_kept scene).chainText ((later_kept scene).renderWithin room) refs) htail
      intro ref hmem
      rcases List.mem_cons.mp hmem with rfl | hmem
      · exact RenderedIn.later ⟨room, s, _, u, rfl, hfirst, List.Subset.refl _⟩ hmore
      · exact hlater.loops ▸ ih htail ref hmem

/-- An enabled block is rendered by following its recipe. -/
theorem follow_of_renderWithin {rule : Rule} {rendered : Rendered}
    (hblock : scene.graph.block? ref = some block) (henabled : block.enabled = true)
    (hrule : scene.rules.lookup block.type = .ok rule)
    (hrun : scene.renderWithin room ref s = (.ok rendered, t)) :
    ∃ less product u,
      scene.follow (scene.renderWithin less) ref block (rule.handler.recipe scene ref block)
        { s with depth := s.depth + 1, active := ref :: s.active } = (.ok product, u) ∧
      t = { u with depth := u.depth - 1, active := u.active.erase ref } ∧
      scene.conclude rule ref block product = .ok rendered := by
  obtain ⟨less, -, ⟨hno, -⟩ | ⟨other, rule', product, u, hother, -, hrule', hfollow, ht,
    hconclude⟩⟩ := renderWithin_eq_ok hrun
  · rcases hno with hnone | ⟨other, hother, hdisabled⟩
    · cases hblock.symm.trans hnone
    · cases hblock.symm.trans hother
      exact absurd henabled (by simp [hdisabled])
  · cases hblock.symm.trans hother
    cases hrule.symm.trans hrule'
    exact ⟨less, product, u, hfollow, ht, hconclude⟩

/-- A single block of the value kind renders to no text. -/
theorem not_text_of_isValue {rule : Rule} {text : String}
    (hblock : scene.graph.block? ref = some block) (henabled : block.enabled = true)
    (hrule : scene.rules.lookup block.type = .ok rule) (hvalue : rule.isValue = true) :
    scene.renderWithin room ref s ≠ (.ok (.text text), t) := by
  intro hrun
  obtain ⟨less, product, u, -, -, hconclude⟩ :=
    follow_of_renderWithin hblock henabled hrule hrun
  cases product <;> simp [conclude, hvalue] at hconclude

theorem renderedIn_of_bodyText {socket reply : String}
    (hrun : scene.bodyText (scene.renderWithin room) block socket s = (.ok reply, t)) :
    ∀ target ∈ (scene.graph.chainFrom [] (block.statementInput socket)).1,
      scene.RenderedIn s.loops.head? t.continued target := by
  obtain ⟨rendered, u, hplace, hdone⟩ := Pass.bind_eq_ok hrun
  cases rendered with
  | value code tier => cases hdone
  | text text =>
    obtain ⟨-, rfl⟩ := Pass.pure_eq_ok hdone
    cases hinput : block.statementInput socket with
    | none => simp [Graph.chainFrom]
    | some head =>
      have hchain : ∀ {u : PassState}, (scene.chainCode (scene.renderWithin room) head >>= fun code =>
          (pure (.text code) : Pass Rendered)) s = (.ok (.text text), u) →
          ∀ target ∈ (scene.graph.chainFrom [] (some head)).1,
            scene.RenderedIn s.loops.head? u.continued target := by
        intro u hchain
        obtain ⟨code, v, hcode, hdone⟩ := Pass.bind_eq_ok hchain
        obtain ⟨-, rfl⟩ := Pass.pure_eq_ok hdone
        obtain ⟨code', w, hcode', hrepeated⟩ := Pass.bind_eq_ok hcode
        cases hend : (scene.graph.chainFrom [] (some head)).2 with
        | none =>
          rw [hend] at hrepeated
          obtain ⟨-, rfl⟩ := Pass.pure_eq_ok hrepeated
          exact renderedIn_of_chainText hcode'
        | some repeated =>
          rw [hend] at hrepeated
          cases hrepeated
      rw [hinput] at hplace
      unfold placeCode at hplace
      dsimp only at hplace
      cases hblock : scene.graph.block? head with
      | none => simp [Graph.chainFrom_of_none List.not_mem_nil hblock]
      | some first =>
        rw [hblock] at hplace
        dsimp only at hplace
        split at hplace
        · next henabled =>
          obtain ⟨rule, v, hrule, hrest⟩ := Pass.bind_eq_ok hplace
          obtain ⟨hlookup, rfl⟩ := Pass.ofExcept_eq_ok hrule
          split at hrest
          · next hvalue => exact absurd hrest (not_text_of_isValue hblock henabled hlookup hvalue)
          · exact hchain hrest
        · exact hchain hplace

/-- What has to be rendered for a request is rendered if the request is answered, inside
    the loops that are around. -/
theorem renderedIn_of_answer {reply : request.Answer}
    (hrun : scene.answer (scene.renderWithin room) ref block request s = (.ok reply, t))
    (hstraight : request.Straight) (htarget : target ∈ scene.targets block request) :
    scene.RenderedIn s.loops.head? t.continued target := by
  cases request with
  | value socket tier strict =>
    have hinput : block.valueInput socket = some target := by simpa [targets] using htarget
    rcases valueText_eq_ok hrun with ⟨hnone, -⟩ | ⟨other, hother, hrendered⟩
    · cases hinput.symm.trans hnone
    · cases hinput.symm.trans hother
      rcases hrendered with ⟨hone, -⟩ | ⟨inner, tier, hone, -⟩
      · exact ⟨room, s, _, t, rfl, hone, List.Subset.refl _⟩
      · exact ⟨room, s, _, t, rfl, hone, List.Subset.refl _⟩
  | body socket loop =>
    obtain rfl : loop = false := hstraight
    exact renderedIn_of_bodyText hrun target htarget
  | _ => cases htarget

theorem isReading_of_mem_targets (htarget : target ∈ scene.targets block request) :
    request.isReading = true := by
  cases request with
  | value | body => rfl
  | _ => cases htarget

/-! ## Jumps are noted -/

/-- What a block asks for is rendered if the block is. -/
theorem RenderedIn.inside {rule : Rule} (houter : scene.RenderedIn around noted ref)
    (hblock : scene.graph.block? ref = some block) (henabled : block.enabled = true)
    (hrule : scene.rules.lookup block.type = .ok rule)
    (hasks : (rule.handler.recipe scene ref block).Asks request) (hstraight : request.Straight)
    (htarget : target ∈ scene.targets block request) : scene.RenderedIn around noted target := by
  obtain ⟨room, s, rendered, t, rfl, hrun, hnoted⟩ := houter
  obtain ⟨less, product, u, hfollow, rfl, -⟩ := follow_of_renderWithin hblock henabled hrule hrun
  obtain ⟨v, reply, w, hv, hanswer, hw⟩ :=
    answered_of_asks (rule.handler.recipe_steady scene ref block) hasks
      (isReading_of_mem_targets htarget) hfollow
  obtain ⟨room', s', rendered', t', hloops, hrun', hsubset⟩ :=
    renderedIn_of_answer hanswer hstraight htarget
  exact ⟨room', s', rendered', t', hloops.trans (by rw [hv.loops]), hrun',
    fun _ hmem => hnoted (hw.continued (hsubset hmem))⟩

/-- A jump to the next round is noted for the innermost loop. -/
theorem continued_of_markContinue {around : Ref} {reply : Unit}
    (hrun : scene.follow (scene.renderWithin room) ref block Recipe.markContinue s = (.ok reply, t))
    (haround : s.loops.head? = some around) : around ∈ t.continued := by
  unfold Recipe.markContinue at hrun
  rw [follow_ask] at hrun
  obtain ⟨names, definitions, depth, active, loops, continued, warnings⟩ := s
  cases loops with
  | nil => cases haround
  | cons first others =>
    cases haround
    cases hrun
    exact List.mem_cons_self

/-- A jump to the next round that is rendered inside a loop is noted for it. -/
theorem RenderedIn.mem_of_isContinue (h : scene.RenderedIn (some loop) noted ref)
    (hlabel : scene.dialect.continueLabel.isSome = true) (hcontinue : scene.IsContinue ref) :
    loop ∈ noted := by
  obtain ⟨room, s, rendered, t, hloops, hrun, hnoted⟩ := h
  obtain ⟨block, ⟨hblock, henabled, rule, hrule, hform⟩, hchosen⟩ := hcontinue
  obtain ⟨less, product, u, hfollow, rfl, -⟩ := follow_of_renderWithin hblock henabled hrule hrun
  rw [hform] at hfollow
  obtain ⟨jump, v, hfirst, hrest⟩ := follow_bind_eq_ok hfollow
  obtain ⟨hjump, rfl⟩ := follow_ofExcept_eq_ok hfirst
  cases hchosen.symm.trans hjump
  rw [hlabel] at hrest
  obtain ⟨_, w, hmark, hrest⟩ := follow_bind_eq_ok hrest
  exact hnoted ((later_of_follow hrest).continued (continued_of_markContinue hmark hloops))

/-- If the body of a loop is rendered with success, so is all that is in its rounds. -/
theorem InRound.rendered {reply : String} (h : scene.InRound ref target)
    (hrun : scene.follow (scene.renderWithin room) ref block (Recipe.loopBody "DO") s =
      (.ok reply, t))
    (hblock : scene.graph.block? ref = some block) :
    scene.RenderedIn (some ref) t.continued target := by
  unfold Recipe.loopBody at hrun
  rw [follow_ask] at hrun
  change Pass.insideLoop ref (scene.bodyText (scene.renderWithin room) block "DO") s =
    (.ok reply, t) at hrun
  obtain ⟨u, hinside, rfl⟩ := Pass.between_eq_ok hrun
  induction h with
  | body hother hmem =>
    cases hblock.symm.trans hother
    exact renderedIn_of_bodyText hinside _ hmem
  | inside _ hblock henabled hrule hasks hstraight htarget ih =>
    exact ih.inside hblock henabled hrule hasks hstraight htarget

/-- If the body of a loop is rendered with success and there is a jump to the next round
    in its rounds, the loop is noted. -/
theorem continued_of_loopBody {reply : String}
    (hrun : scene.follow (scene.renderWithin room) ref block (Recipe.loopBody "DO") s =
      (.ok reply, t))
    (hblock : scene.graph.block? ref = some block)
    (hlabel : scene.dialect.continueLabel.isSome = true) (hcontinues : scene.Continues ref) :
    ref ∈ t.continued := by
  obtain ⟨jump, hround, hcontinue⟩ := hcontinues
  exact (hround.rendered hrun hblock).mem_of_isContinue hlabel hcontinue

end Scene

end BlockScript
