import BlockScript.Proofs.Acceptance.Program
import BlockScript.Proofs.Counting.Assigned
import BlockScript.Proofs.Graph.Walk
import BlockScript.Proofs.Recipe.Asks

/-!
# What is rendered inside an accepted block

A block that passes the check has nothing rendered inside it that the check would refuse
there; above all, it is not rendered inside itself. So the blocks that are rendered inside
it are those that a walk from it finds, which does not go through the block again.

Results:

* `Scene.Speaks.mem_descendants`: what is rendered inside an accepted block is nested in it.
-/

namespace BlockScript

open Relation

variable {scene : Scene} {language : Language} {outer inner ref target : Ref} {block : Block Ref}
  {form : BlockForm} {nest : List Ref} {depth : Int} {room : Nat} {shape : Ref → Option Shape}
  {request : Request}

/-- A property that goes on from block to block along a chain. -/
theorem Graph.forall_mem_chainFrom {graph : Graph} {p : Ref → Prop} {seen : List Ref}
    {place : Option Ref}
    (hhead : ∀ head, place = some head → head ∈ (graph.chainFrom seen place).1 → p head)
    (hnext : ∀ ref ∈ (graph.chainFrom seen place).1, p ref →
      ∀ target ∈ (graph.chainFrom seen place).1, graph.Links ref target → p target) :
    ∀ ref ∈ (graph.chainFrom seen place).1, p ref := by
  induction seen, place using chainFrom.induct graph with
  | case1 seen => simp [chainFrom]
  | case2 seen ref hseen => simp [chainFrom_of_seen hseen]
  | case3 seen ref hnew hnone => simp [chainFrom_of_none hnew hnone]
  | case4 seen ref hnew block hblock _ _ _ ih =>
    rw [chainFrom_of_some hnew hblock] at hhead hnext ⊢
    have hfirst : p ref := hhead ref rfl List.mem_cons_self
    refine List.forall_mem_cons.mpr ⟨hfirst, ih (fun next hplace hmem => ?_) ?_⟩
    · exact hnext ref List.mem_cons_self hfirst next (List.mem_cons_of_mem _ hmem)
        (.next hblock hplace)
    · intro other hother hp target htarget hlink
      exact hnext other (List.mem_cons_of_mem _ hother) hp target
        (List.mem_cons_of_mem _ htarget) hlink

namespace Scene

/-! ## What is asked for -/

/-- A property that holds of what is plugged into a block and goes on along chains holds of
    all that has to be rendered for a request. -/
theorem forall_targets {p : Ref → Prop}
    (hchild : ∀ target ∈ block.children, target ∈ scene.targets block request → p target)
    (hnext : ∀ ref ∈ scene.targets block request, p ref →
      ∀ target ∈ scene.targets block request, scene.graph.Links ref target → p target) :
    ∀ target ∈ scene.targets block request, p target := by
  cases request with
  | value socket tier strict =>
    intro target htarget
    have hinput : block.valueInput socket = some target := by simpa [targets] using htarget
    exact hchild target (List.mem_append_left _ (Block.mem_values_of_valueInput hinput)) htarget
  | body socket loop =>
    refine Graph.forall_mem_chainFrom (fun head hhead hmem => ?_) hnext
    exact hchild head (List.mem_append_right _ (Block.mem_statements_of_statementInput hhead)) hmem
  | _ => simp [targets]

/-- What the recipe for a block that passes the check asks for has a shape. -/
theorem isSome_of_asks (hpasses : Recipe.Passes scene shape block form)
    (hasks : (form.recipe scene ref block).Asks request)
    (htarget : target ∈ scene.targets block request) : (shape target).isSome = true := by
  have hasked := (form.recipe_asks scene ref block).of_asks hasks
  obtain ⟨sockets, hsockets, hfills⟩ := (Option.any_eq_true ..).mp hpasses
  simp only [Workspace.fillsSockets, Bool.and_eq_true, List.all_eq_true] at hfills
  have hany : ∀ {fits : Shape → Bool}, (shape target).any fits = true →
      (shape target).isSome = true := by
    intro fits h
    cases hshape : shape target with
    | none => simp [hshape] at h
    | some known => rfl
  cases request with
  | value socket tier strict =>
    have hinput : block.valueInput socket = some target := by simpa [targets] using htarget
    have hsocket := hfills.1 socket (hasked sockets hsockets)
    rw [Workspace.fillsValue, hinput] at hsocket
    exact hany hsocket
  | body socket loop =>
    have hsocket := hfills.2 socket (hasked.2 sockets hsockets)
    simp only [Workspace.holdsChain, Bool.and_eq_true, List.all_eq_true] at hsocket
    exact hany (hsocket.2 target htarget)
  | _ => exact absurd htarget List.not_mem_nil

/-! ## Inside accepted blocks -/

/-- What is rendered inside an accepted block is accepted there. -/
theorem Speaks.isSome_inside (h : scene.Speaks language)
    (houter : (scene.workspace.shapeWithin depth room nest outer).isSome = true)
    (hinside : scene.RendersInside outer inner) :
    ∃ less, (scene.workspace.shapeWithin depth less (outer :: nest) inner).isSome = true := by
  obtain ⟨block, rule, request, hblock, henabled, hrule, hasks, htarget⟩ := hinside
  obtain ⟨form, hhandler, -⟩ := h.known _ _ hrule
  cases room with
  | zero => simp [Workspace.shapeWithin] at houter
  | succ less =>
    rw [shapeWithin_eq henabled hblock, h.lookup_iff.mpr ⟨rule, hrule, hhandler⟩] at houter
    split at houter
    · cases houter
    · rw [Option.isSome_map, Option.isSome_filter] at houter
      rw [hhandler] at hasks
      exact ⟨less, isSome_of_asks houter hasks htarget⟩

/-- No enabled block is accepted inside itself. -/
theorem not_isSome_of_mem (henabled : scene.Enabled ref) (hmem : ref ∈ nest) :
    ¬(scene.workspace.shapeWithin depth room nest ref).isSome = true := by
  obtain ⟨block, hblock, henabled⟩ := henabled
  cases room with
  | zero => simp [Workspace.shapeWithin]
  | succ less => simp [shapeWithin_eq henabled hblock, hmem]

/-- A block of a form has a rule. -/
theorem HasForm.ruled (h : scene.HasForm ref block form) : scene.Ruled ref := by
  obtain ⟨hblock, -, rule, hrule, -⟩ := h
  intro other hother
  obtain rfl : block = other := Option.some.inj (hblock.symm.trans hother)
  exact ⟨rule, hrule⟩

/-- A block whose recipe comes to a result passes the check. -/
theorem Speaks.passes_of_follow (h : scene.Speaks language) (hform : scene.HasForm ref block form)
    {s t : PassState} {product : Product} (hs : scene.Inside (ref :: nest) s)
    (hrun : scene.follow (scene.renderWithin room) ref block (form.recipe scene ref block) s =
      (.ok product, t)) :
    Recipe.Passes scene (scene.workspace.shapeWithin scene.config.maxDepth room (ref :: nest)) block
      form := by
  have hvisible : scene.dialect.Visible := h.dialect ▸ language.visible
  have hdecides : Recipe.DecidesForm scene (scene.workspace.shapeWithin scene.config.maxDepth room
      (ref :: nest)) block form (form.recipe scene ref block) :=
    form.recipe_decides hvisible (hform.ruled block hform.1)
  exact ((settles_follow (h.settles_renderWithin room (ref :: nest)) (h.ordered _ _ _)
    hform.ruled hdecides).of_run hs hrun).1

/-- If what is plugged into a block is nested in another one, so is all that has to be
    rendered for a request, as long as the other one is not met again. -/
theorem mem_descendants_of_targets
    (hchild : ∀ target ∈ block.children, scene.graph.Stored target →
      target = ref ∨ target ∈ scene.graph.descendants ref)
    (hne : ∀ target ∈ scene.targets block request, target ≠ ref) :
    ∀ target ∈ scene.targets block request, scene.graph.Stored target →
      target ∈ scene.graph.descendants ref := by
  refine forall_targets (fun target hmem htarget hstored => ?_)
    fun other _ hother target htarget hlink hstored => ?_
  · exact (hchild target hmem hstored).resolve_left (hne target htarget)
  · exact (Graph.mem_descendants_of_links (hother hlink.stored) hlink hstored).resolve_left
      (hne target htarget)

/-- What is rendered inside a block that passes the check is nested in it. -/
theorem Speaks.mem_descendants (h : scene.Speaks language) (hform : scene.HasForm ref block form)
    (hpasses : Recipe.Passes scene (scene.workspace.shapeWithin depth room (ref :: nest)) block form)
    (hinside : TransGen scene.RendersInside ref inner) (hstored : scene.graph.Stored inner) :
    inner ∈ scene.graph.descendants ref := by
  obtain ⟨hblock, henabled, rule, hrule, hhandler⟩ := hform
  have hself : scene.Enabled ref := ⟨block, hblock, henabled⟩
  -- Every block on the way is accepted with the outermost one around it.
  suffices hway : (∃ less nest', ref ∈ nest' ∧
      (scene.workspace.shapeWithin depth less nest' inner).isSome = true) ∧
        (scene.graph.Stored inner → inner ∈ scene.graph.descendants ref) from hway.2 hstored
  clear hstored
  induction hinside with
  | single hfirst =>
    obtain ⟨block', rule', request, hblock', -, hrule', hasks, htarget⟩ := hfirst
    obtain rfl : block' = block := Option.some.inj (hblock'.symm.trans hblock)
    obtain rfl : rule' = rule := Except.ok.inj (hrule'.symm.trans hrule)
    rw [hhandler] at hasks
    have haccepted : ∀ target ∈ scene.targets block' request,
        (scene.workspace.shapeWithin depth room (ref :: nest) target).isSome = true :=
      fun target htarget => isSome_of_asks hpasses hasks htarget
    have hne : ∀ target ∈ scene.targets block' request, target ≠ ref := by
      rintro target htarget rfl
      exact not_isSome_of_mem hself List.mem_cons_self (haccepted target htarget)
    refine ⟨⟨room, ref :: nest, List.mem_cons_self, haccepted _ htarget⟩, ?_⟩
    exact mem_descendants_of_targets
      (fun target hchild hstored => Graph.mem_descendants_of_children hblock hchild hstored)
      hne _ htarget
  | @tail outer inner _ hlast ih =>
    obtain ⟨⟨less, nest', hmem', houter⟩, hnested⟩ := ih
    have haccepted : ∀ target, scene.RendersInside outer target →
        ∃ less, (scene.workspace.shapeWithin depth less (outer :: nest') target).isSome = true :=
      fun target hinside => h.isSome_inside houter hinside
    obtain ⟨fewer, hinner⟩ := haccepted inner hlast
    refine ⟨⟨fewer, outer :: nest', List.mem_cons_of_mem _ hmem', hinner⟩, ?_⟩
    obtain ⟨block', rule', request, hblock', henabled', hrule', hasks, htarget⟩ := hlast
    have hne : ∀ target ∈ scene.targets block' request, target ≠ ref := by
      rintro target htarget rfl
      obtain ⟨less, hsome⟩ :=
        haccepted target ⟨block', rule', request, hblock', henabled', hrule', hasks, htarget⟩
      exact not_isSome_of_mem hself (List.mem_cons_of_mem _ hmem') hsome
    refine mem_descendants_of_targets (fun target hchild hstored => ?_) hne _ htarget
    exact Graph.mem_descendants_of_links (hnested ⟨block', hblock'⟩)
      (Graph.links_iff.mpr ⟨block', hblock', List.mem_append_left _ hchild⟩) hstored

end Scene

end BlockScript
