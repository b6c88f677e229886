import BlockScript.Proofs.Graph.Links
import BlockScript.Proofs.Names.Reached
import BlockScript.Proofs.Pass.Agree
import BlockScript.Proofs.Recipe.Arms
import Mathlib.Data.List.Perm.Subperm

/-!
# The guards of rendering

Rendering refuses blocks that are nested in themselves, chains that close to a
cycle, and nesting beyond the configured depth. It ends for every graph, and it
refuses nothing else for its structure.

The blocks being rendered are a nest: each of them was asked for by the rule of
the one around it. They are different stored blocks, so a nest ends, and a block
that is asked for while it is part of the nest is linked to itself.

Results:

* `Scene.alike_renderOr`: a block in a nest is rendered alike for any room that is
  left, and fails for the structure only with reason.
* `Scene.Reached.guarded`: what that means for a whole pass.
-/

namespace BlockScript

open Relation

/-! ## Nests -/

/-- Whether a recipe comes to a request with some answers to those before it. -/
def Recipe.Asks {α : Type} (request : Request) : Recipe α → Prop
  | .done _ => False
  | .fail _ => False
  | .ask own next => own = request ∨ ∃ reply, Asks request (next reply)

/-- A property of all requests is one of each that a recipe comes to. -/
theorem Recipe.Only.of_asks {α : Type} {ask : Request → Prop} {fail : Failure → Prop}
    {recipe : Recipe α} {request : Request} (h : recipe.Only ask fail)
    (hasks : recipe.Asks request) : ask request := by
  induction recipe with
  | done result => cases hasks
  | fail failure => cases hasks
  | ask own next ih =>
    rcases hasks with rfl | ⟨reply, hlater⟩
    · exact h.1
    · exact ih reply (h.2 reply) hlater

/-- A recipe comes to no other requests than those that it comes to. -/
theorem Recipe.only_asks {α : Type} (recipe : Recipe α) :
    recipe.Only (fun request => recipe.Asks request) fun _ => True := by
  suffices hall : ∀ {ask : Request → Prop}, (∀ request, recipe.Asks request → ask request) →
      recipe.Only ask fun _ => True from hall fun _ hasks => hasks
  intro ask hask
  induction recipe with
  | done result => trivial
  | fail failure => trivial
  | ask own next ih =>
    exact ⟨hask own (.inl rfl), fun reply =>
      ih reply fun request hlater => hask request (.inr ⟨reply, hlater⟩)⟩

/-- Whether the blocks being rendered are those of a nest. -/
def PassState.Within (state : PassState) (nest : List Ref) : Prop :=
  state.active = nest ∧ state.depth = nest.length

namespace Scene

variable (scene : Scene)

/-- The blocks that have to be rendered for a request: what is plugged into a value
    socket, or the chain in a statement socket. -/
def targets (block : Block Ref) : Request → List Ref
  | .value socket _ _ => (block.valueInput socket).toList
  | .body socket _ => (scene.graph.chainFrom [] (block.statementInput socket)).1
  | _ => []

/-- Whether the rule of an enabled block asks for another block. -/
def RendersInside (outer inner : Ref) : Prop :=
  ∃ block rule request, scene.graph.block? outer = some block ∧ block.enabled = true ∧
    scene.rules.lookup block.type = .ok rule ∧
    (rule.handler.recipe scene outer block).Asks request ∧ inner ∈ scene.targets block request

/-- Whether a reference leads to an enabled block. -/
def Enabled (ref : Ref) : Prop :=
  ∃ block, scene.graph.block? ref = some block ∧ block.enabled = true

/-- Whether enabled blocks are rendered inside each other, the innermost first. -/
structure Nest (nest : List Ref) : Prop where
  enabled : ∀ ref ∈ nest, scene.Enabled ref
  inside : nest.IsChain fun inner outer => scene.RendersInside outer inner

/-- Whether a block is plugged into another one: into a value socket, or in the
    chain in a statement socket. -/
def Encloses (outer inner : Ref) : Prop :=
  ∃ block, scene.graph.block? outer = some block ∧
    (inner ∈ block.values.filterMap Prod.snd ∨
      ∃ head ∈ block.statements.filterMap Prod.snd,
        inner ∈ (scene.graph.chainFrom [] (some head)).1)

/-- Whether enabled blocks are plugged into each other, the innermost first. -/
structure EnabledNest (nest : List Ref) : Prop where
  enabled : ∀ ref ∈ nest, scene.Enabled ref
  inside : nest.IsChain fun inner outer => scene.Encloses outer inner

variable {scene} {outer inner ref : Ref} {nest : List Ref}

theorem RendersInside.encloses (h : scene.RendersInside outer inner) :
    scene.Encloses outer inner := by
  obtain ⟨block, rule, request, hblock, -, -, -, htarget⟩ := h
  refine ⟨block, hblock, ?_⟩
  cases request with
  | value socket tier strict =>
    exact .inl (Block.mem_values_of_valueInput (by simpa [targets] using htarget))
  | body socket loop =>
    change inner ∈ (scene.graph.chainFrom [] (block.statementInput socket)).1 at htarget
    obtain ⟨-, head, hhead, -⟩ := Graph.of_mem_chainFrom htarget
    exact .inr ⟨head, Block.mem_statements_of_statementInput hhead, hhead ▸ htarget⟩
  | _ => exact absurd htarget List.not_mem_nil

theorem Encloses.reaches (h : scene.Encloses outer inner) : scene.graph.Reaches outer inner := by
  obtain ⟨block, hblock, hvalue | ⟨head, hhead, hchain⟩⟩ := h
  · exact .single (Graph.links_of_mem_values hblock hvalue)
  · obtain ⟨-, head', hhead', hreach⟩ := Graph.of_mem_chainFrom hchain
    obtain rfl : head = head' := by simpa using hhead'
    exact .head' (Graph.links_of_mem_statements hblock hhead) hreach

theorem Nest.enabledNest (h : scene.Nest nest) : scene.EnabledNest nest where
  enabled := h.enabled
  inside := h.inside.imp fun _ _ => RendersInside.encloses

/-- Whether a block is asked for by the innermost block of a nest, if there is
    one. -/
def AskedIn (nest : List Ref) (ref : Ref) : Prop :=
  ∀ outer, nest.head? = some outer → scene.RendersInside outer ref

/-- A block that is asked for is reached from everything around it. -/
theorem Nest.reaches (h : scene.Nest nest) (hasked : scene.AskedIn nest ref) :
    ∀ outer ∈ nest, scene.graph.Reaches outer ref := by
  obtain ⟨-, hinside⟩ := h
  induction nest generalizing ref with
  | nil => simp
  | cons first nest ih =>
    have hfirst : scene.graph.Reaches first ref := (hasked first rfl).encloses.reaches
    have hrest : ∀ outer ∈ nest, scene.graph.Reaches outer first := by
      refine ih (fun second hsecond => ?_) ?_
      · cases nest with
        | nil => cases hsecond
        | cons third nest =>
          obtain rfl : third = second := by simpa using hsecond
          exact (List.isChain_cons_cons.mp hinside).1
      · exact hinside.of_cons
    intro outer houter
    rcases List.mem_cons.mp houter with rfl | hmem
    · exact hfirst
    · exact (hrest outer hmem).trans hfirst

theorem Nest.cons (h : scene.Nest nest) (henabled : scene.Enabled ref)
    (hasked : scene.AskedIn nest ref) : scene.Nest (ref :: nest) where
  enabled := by simpa [henabled] using h.enabled
  inside := by
    cases nest with
    | nil => exact .singleton ref
    | cons first nest => exact .cons_cons (hasked first rfl) h.inside

/-- Different blocks of a nest are no more than there are stored blocks. -/
theorem Nest.length_le (h : scene.Nest nest) (hnodup : nest.Nodup) :
    nest.length ≤ scene.graph.size := by
  have hsub : nest ⊆ List.range scene.graph.size := fun ref hmem => by
    obtain ⟨block, hblock, -⟩ := h.enabled ref hmem
    exact List.mem_range.mpr (Graph.lt_size_of_block? hblock)
  simpa using (hnodup.subperm hsub).length_le

/-! ## Steps inside a nest -/

/-- Whether a failure for the structure has its reason: the block named can be
    reached from itself, or a nest is deeper than configured. -/
def Justified (scene : Scene) : Failure → Prop
  | .cyclicChain id | .containsItself id =>
    ∃ ref block, scene.graph.block? ref = some block ∧ block.idText = id ∧
      scene.graph.Reaches ref ref
  | .tooDeep limit => limit = scene.config.maxDepth ∧
      ∃ nest, scene.Nest nest ∧ scene.config.maxDepth < nest.length
  | _ => True

theorem justified_of_local {failure : Failure} (h : failure.isStructural = false) :
    scene.Justified failure := by
  cases failure with
  | cyclicChain id => cases h
  | containsItself id => cases h
  | tooDeep limit => cases h
  | _ => trivial

/-- Whether two steps do the same inside a nest and leave it as it is, and fail for
    the structure only with reason. -/
def Alike (scene : Scene) (nest : List Ref) {α : Type} (p q : Pass α) : Prop :=
  ∀ s, s.Within nest → p s = q s ∧ (p s).2.Within nest ∧
    ∀ failure, (p s).1 = .error failure → scene.Justified failure

namespace Alike

variable {α β : Type} {p q : Pass α} {one one' : Ref → Pass Rendered} {block : Block Ref}

/-- A failure that is not for the structure needs no reason, and a chain that closes to a
    cycle is one. -/
theorem admits_justified (scene : Scene) : scene.Admits scene.Justified where
  ordinary _ h := justified_of_local (isStructural_of_isMisplaced h)
  cyclic ref repeated h := by
    have hreaches := Graph.cyclic_of_chainFrom h
    obtain ⟨block, hblock⟩ := hreaches.stored
    exact ⟨repeated, block, hblock, by simp [hblock], hreaches⟩

theorem pure (a : α) : scene.Alike nest (Pure.pure a) (Pure.pure a) :=
  Pass.Agree.pure a

theorem throw {failure : Failure} (h : scene.Justified failure) :
    scene.Alike nest (MonadExcept.throw failure : Pass α) (MonadExcept.throw failure) :=
  Pass.Agree.throw h

theorem ofExcept {x : Except Failure α}
    (h : ∀ failure, x = .error failure → failure.isStructural = false) :
    scene.Alike nest (Pass.ofExcept x) (Pass.ofExcept x) :=
  Pass.Agree.ofExcept fun failure hfailure => justified_of_local (h failure hfailure)

theorem bind {f g : α → Pass β} (h : scene.Alike nest p q)
    (hnext : ∀ a, scene.Alike nest (f a) (g a)) : scene.Alike nest (p >>= f) (q >>= g) :=
  Pass.Agree.bind h hnext

/-- A step that does not fail and does not touch the nest. -/
theorem of_ok (h : ∀ s, ∃ a t, p s = (.ok a, t) ∧ t.active = s.active ∧ t.depth = s.depth) :
    scene.Alike nest p p := by
  refine Pass.Agree.of_ok fun s hs => ?_
  obtain ⟨a, t, hrun, hactive, hdepth⟩ := h s
  exact ⟨a, t, hrun, hrun, hactive.trans hs.1, hdepth.trans hs.2⟩

/-- A step with one more block in the nest. -/
theorem entering {ref : Ref} (h : scene.Alike (ref :: nest) p q) :
    scene.Alike nest (Pass.entering ref p) (Pass.entering ref q) := by
  refine Pass.Agree.between (fun hs => ⟨by rw [hs.1], by simp [hs.2]⟩) (fun hs => ⟨?_, ?_⟩) h
  · show List.erase _ ref = nest
    rw [hs.1, List.erase_cons_head]
  · show _ - 1 = nest.length
    rw [hs.2, List.length_cons, Nat.add_sub_cancel]

theorem insideLoop {loop : Ref} (h : scene.Alike nest p q) :
    scene.Alike nest (Pass.insideLoop loop p) (Pass.insideLoop loop q) :=
  Pass.Agree.between (fun hs => hs) (fun hs => hs) h

/-! ## Rendering inside a nest -/

theorem placeCode {place : Option Ref} (h : ∀ target ∈ (scene.graph.chainFrom [] place).1,
    scene.Alike nest (one target) (one' target)) :
    scene.Alike nest (scene.placeCode one place) (scene.placeCode one' place) :=
  (admits_justified scene).placeCode h

theorem bodyText {socket : String}
    (h : ∀ target ∈ (scene.graph.chainFrom [] (block.statementInput socket)).1,
      scene.Alike nest (one target) (one' target)) :
    scene.Alike nest (scene.bodyText one block socket) (scene.bodyText one' block socket) :=
  (admits_justified scene).bodyText h

theorem answer {ref : Ref} {request : Request}
    (h : ∀ target ∈ scene.targets block request, scene.Alike nest (one target) (one' target)) :
    scene.Alike nest (scene.answer one ref block request) (scene.answer one' ref block request) := by
  cases request with
  | value socket tier strict =>
    exact (admits_justified scene).valueText fun target htarget =>
      h target (by simp [targets, htarget])
  | body socket loop =>
    cases loop with
    | true => exact .insideLoop (bodyText h)
    | false => exact bodyText h
  | name kind name => exact .of_ok fun s => ⟨_, _, rfl, rfl, rfl⟩
  | freshName kind base => exact .of_ok fun s => ⟨_, _, rfl, rfl, rfl⟩
  | helper key template => exact .of_ok fun s => ⟨_, _, rfl, rfl, rfl⟩
  | define key code => exact .of_ok fun s => ⟨_, _, rfl, rfl, rfl⟩
  | enclosingLoop => exact .of_ok fun s => ⟨_, _, rfl, rfl, rfl⟩
  | markContinue =>
    refine .of_ok fun s => ⟨_, _, rfl, ?_⟩
    dsimp only
    split <;> exact ⟨rfl, rfl⟩
  | loopContinued loop => exact .of_ok fun s => ⟨_, _, rfl, rfl, rfl⟩
  | warn warning => exact .of_ok fun s => ⟨_, _, rfl, rfl, rfl⟩

theorem follow {ref : Ref} {recipe : Recipe α} (hlocal : recipe.Local)
    (h : ∀ request, recipe.Asks request → ∀ target ∈ scene.targets block request,
      scene.Alike nest (one target) (one' target)) :
    scene.Alike nest (scene.follow one ref block recipe) (scene.follow one' ref block recipe) := by
  induction recipe with
  | done result => exact .pure result
  | fail failure => exact .throw (justified_of_local hlocal)
  | ask request next ih =>
    refine (answer (h request (.inl rfl))).bind fun reply => ?_
    exact ih reply (hlocal.2 reply) fun later hlater => h later (.inr ⟨reply, hlater⟩)

end Alike

/-! ## Whole blocks -/

section Rendering

variable (scene : Scene)

/-- Renders one block, where `one` renders what is plugged into it. -/
def renderOne (one : Ref → Pass Rendered) (ref : Ref) : Pass Rendered :=
  match scene.graph.block? ref with
  | none => return .text ""
  | some block =>
    if !block.enabled then return .text ""
    else do
      let rule ← scene.permit ref block
      let product ← Pass.entering ref
        (scene.follow one ref block (rule.handler.recipe scene ref block))
      Pass.ofExcept (scene.conclude rule ref block product)

/-- Renders one block with room for so many levels of nesting, where `stop` is what
    happens without room. -/
def renderOr (stop : Ref → Pass Rendered) : Nat → Ref → Pass Rendered
  | 0 => stop
  | room + 1 => scene.renderOne (renderOr stop room)

/-- Rendering has something of its own to do without room. -/
theorem renderWithin_eq_renderOr (room : Nat) :
    scene.renderWithin room = scene.renderOr (scene.renderWithin 0) room := by
  induction room with
  | zero => rfl
  | succ room ih =>
    show scene.renderOne (scene.renderWithin room) = scene.renderOne _
    rw [ih]

variable {scene}

/-- A block may be rendered inside a nest, unless it is part of the nest or the nest
    is as deep as configured. -/
theorem permit_alike {block : Block Ref} (hnest : scene.Nest nest) (hasked : scene.AskedIn nest ref)
    (hblock : scene.graph.block? ref = some block) (henabled : block.enabled = true)
    {f g : Rule → Pass Rendered}
    (h : ∀ rule, scene.rules.lookup block.type = .ok rule → ref ∉ nest →
      scene.Alike nest (f rule) (g rule)) :
    scene.Alike nest (scene.permit ref block >>= f) (scene.permit ref block >>= g) := by
  intro s hs
  have hrun : scene.permit ref block s =
      (if nest.contains ref then throw (.containsItself block.idText)
      else if scene.config.maxDepth ≤ nest.length then throw (.tooDeep scene.config.maxDepth)
      else Pass.ofExcept (scene.rules.lookup block.type) : Pass Rule) s := by
    unfold permit
    rw [Pass.bind_apply, Pass.get_apply]
    dsimp only
    rw [hs.1, hs.2]
  have hrefused : ∀ failure, scene.permit ref block s = (.error failure, s) →
      scene.Justified failure → (scene.permit ref block >>= f) s = (scene.permit ref block >>= g) s ∧
        ((scene.permit ref block >>= f) s).2.Within nest ∧
        ∀ failure, ((scene.permit ref block >>= f) s).1 = .error failure →
          scene.Justified failure := by
    intro failure hpermit hjustified
    rw [Pass.bind_apply, Pass.bind_apply, hpermit]
    exact ⟨rfl, hs, fun _ heq => by cases heq; exact hjustified⟩
  by_cases hmem : nest.contains ref = true
  · rw [if_pos hmem] at hrun
    exact hrefused _ hrun
      ⟨ref, block, hblock, rfl, hnest.reaches hasked ref (by simpa using hmem)⟩
  rw [if_neg hmem] at hrun
  by_cases hdeep : scene.config.maxDepth ≤ nest.length
  · rw [if_pos hdeep] at hrun
    refine hrefused _ hrun
      ⟨rfl, ref :: nest, hnest.cons ⟨block, hblock, henabled⟩ hasked, ?_⟩
    rw [List.length_cons]
    omega
  rw [if_neg hdeep] at hrun
  cases hlookup : scene.rules.lookup block.type with
  | error failure =>
    rw [hlookup] at hrun
    exact hrefused _ hrun (justified_of_local (Recipe.isStructural_lookup hlookup))
  | ok rule =>
    rw [hlookup] at hrun
    rw [Pass.bind_apply, Pass.bind_apply, hrun]
    exact h rule hlookup (by simpa using hmem) s hs

/-- One more level of nesting. -/
theorem alike_renderOne {one one' : Ref → Pass Rendered} (hnest : scene.Nest nest)
    (hasked : scene.AskedIn nest ref)
    (h : ∀ target, ref ∉ nest → scene.Nest (ref :: nest) → scene.AskedIn (ref :: nest) target →
      scene.Alike (ref :: nest) (one target) (one' target)) :
    scene.Alike nest (scene.renderOne one ref) (scene.renderOne one' ref) := by
  unfold renderOne
  cases hblock : scene.graph.block? ref with
  | none => exact .pure _
  | some block =>
    dsimp only
    split
    · exact .pure _
    · next hdisabled =>
      have henabled : block.enabled = true := by simpa using hdisabled
      refine permit_alike hnest hasked hblock henabled fun rule hrule hnew => ?_
      refine (Alike.entering (Alike.follow (Handler.recipe_local scene ref block rule.handler)
        fun request hrequest target htarget => ?_)).bind fun product => ?_
      · refine h target hnew (hnest.cons ⟨block, hblock, henabled⟩ hasked) fun outer houter => ?_
        obtain rfl : ref = outer := by simpa using houter
        exact ⟨block, rule, request, hblock, henabled, hrule, hrequest, htarget⟩
      · exact .ofExcept fun _ => isStructural_conclude

/-- A block in a nest is rendered alike with any room that is left. There is a
    block to every level, and no level is without room before all blocks are
    part of the nest. -/
theorem alike_renderOr {stop stop' : Ref → Pass Rendered} {room room' : Nat}
    (hnest : scene.Nest nest) (hnodup : nest.Nodup) (hasked : scene.AskedIn nest ref)
    (hroom : scene.graph.size < room + nest.length)
    (hroom' : scene.graph.size < room' + nest.length) :
    scene.Alike nest (scene.renderOr stop room ref) (scene.renderOr stop' room' ref) := by
  induction room generalizing room' nest ref with
  | zero =>
    have := hnest.length_le hnodup
    omega
  | succ room ih =>
    cases room' with
    | zero =>
      have := hnest.length_le hnodup
      omega
    | succ room' =>
      refine alike_renderOne hnest hasked fun target hnew hdeeper hnext => ?_
      refine ih hdeeper (List.nodup_cons.mpr ⟨hnew, hnodup⟩) hnext ?_ ?_
      · rw [List.length_cons]
        omega
      · rw [List.length_cons]
        omega

end Rendering

/-! ## Whole passes -/

/-- What is kept between the steps of a pass: the blocks being rendered. -/
theorem quiet_kept (scene : Scene) :
    scene.Kept fun s t => t.active = s.active ∧ t.depth = s.depth where
  refl _ := ⟨rfl, rfl⟩
  trans h h' := ⟨h'.1.trans h.1, h'.2.trans h.2⟩
  entering ref p h s := by
    obtain ⟨hactive, hdepth⟩ := h { s with depth := s.depth + 1, active := ref :: s.active }
    refine ⟨?_, ?_⟩
    · show (p _).2.active.erase ref = s.active
      rw [hactive, List.erase_cons_head]
    · show (p _).2.depth - 1 = s.depth
      rw [hdepth, Nat.add_sub_cancel]
  insideLoop ref p h s := h { s with loops := ref :: s.loops }
  nameOf _ _ _ := ⟨rfl, rfl⟩
  freshName _ _ _ := ⟨rfl, rfl⟩
  helper _ _ _ := ⟨rfl, rfl⟩
  define _ _ _ := ⟨rfl, rfl⟩
  markContinue s := by
    unfold Pass.markContinue
    rw [Pass.modify_apply]
    dsimp only
    split <;> exact ⟨rfl, rfl⟩
  warn _ _ := ⟨rfl, rfl⟩

/-- Between the steps of a pass no block is being rendered. -/
theorem Reached.within_nil {s : PassState} (h : scene.Reached s) : s.Within [] := by
  have hkept := scene.quiet_kept
  have hkeep : ∀ {s t : PassState}, t.active = s.active ∧ t.depth = s.depth → s.Within [] →
      t.Within [] := fun heq hs => ⟨heq.1.trans hs.1, heq.2.trans hs.2⟩
  induction h with
  | start => exact ⟨rfl, rfl⟩
  | reserved _ ih => exact hkeep (hkept.reserveNames _) ih
  | rendered _ ref ih => exact hkeep (hkept.render ref _) ih
  | place _ place ih => exact hkeep (hkept.renderPlace place _) ih
  | value _ block socket tier strict ih =>
    exact hkeep (hkept.valueText hkept.render block socket tier strict _) ih
  | body _ block socket ih => exact hkeep (hkept.bodyText hkept.render block socket _) ih
  | name _ kind name ih => exact hkeep (hkept.nameOf kind name _) ih
  | freshName _ kind base ih => exact hkeep (hkept.freshName kind base _) ih
  | helper _ key template ih => exact hkeep (hkept.helper key template _) ih
  | defined _ key code ih => exact hkeep (hkept.define key code _) ih
  | enteredLoop _ loop ih => exact ih
  | @leftLoop s _ ih =>
    refine hkeep ?_ ih
    unfold Pass.leaveLoop
    rw [Pass.bind_apply, Pass.get_apply]
    dsimp only
    cases s.loops <;> exact ⟨rfl, rfl⟩
  | continued _ ih => exact hkeep (hkept.markContinue _) ih
  | reset _ _ => exact ⟨rfl, rfl⟩

/-- What the guards give for something to render in a state, where `go one` renders
    it if `one` renders a single block. -/
structure Guarded (scene : Scene) (go : (Ref → Pass Rendered) → Pass Rendered) (s : PassState) :
    Prop where
  /-- With one more level than there are blocks, no level is ever without room. -/
  ends (stop : Ref → Pass Rendered) (room : Nat) (h : scene.graph.size < room) :
    go (scene.renderOr stop room) s = go scene.render s
  /-- A failure for the structure has its reason. -/
  justified (failure : Failure) (h : (go scene.render s).1 = .error failure) :
    scene.Justified failure
  /-- There is no such failure without cycles and with no nest too deep. -/
  silent (hacyclic : scene.graph.Acyclic)
    (hdepth : ∀ nest, scene.EnabledNest nest → nest.length ≤ scene.config.maxDepth)
    (failure : Failure) (h : (go scene.render s).1 = .error failure) :
    failure.isStructural = false

/-- A reason for a failure is a cycle or a nest that is too deep. -/
theorem Justified.isStructural {failure : Failure} (h : scene.Justified failure)
    (hacyclic : scene.graph.Acyclic)
    (hdepth : ∀ nest, scene.EnabledNest nest → nest.length ≤ scene.config.maxDepth) :
    failure.isStructural = false := by
  cases failure with
  | cyclicChain id =>
    obtain ⟨ref, -, -, -, hcycle⟩ := h
    exact absurd hcycle (hacyclic ref)
  | containsItself id =>
    obtain ⟨ref, -, -, -, hcycle⟩ := h
    exact absurd hcycle (hacyclic ref)
  | tooDeep limit =>
    obtain ⟨-, nest, hnest, hlimit⟩ := h
    have := hdepth nest hnest.enabledNest
    omega
  | _ => rfl

theorem guarded_of_alike {go : (Ref → Pass Rendered) → Pass Rendered} {s : PassState}
    (hs : s.Within [])
    (h : ∀ one one', (∀ ref, scene.Alike [] (one ref) (one' ref)) →
      scene.Alike [] (go one) (go one')) : scene.Guarded go s := by
  have hall : ∀ stop stop' room room', scene.graph.size < room → scene.graph.size < room' →
      scene.Alike [] (go (scene.renderOr stop room)) (go (scene.renderOr stop' room')) := by
    intro stop stop' room room' hroom hroom'
    refine h _ _ fun ref => alike_renderOr ⟨by simp, .nil⟩ .nil (fun _ hno => by cases hno) hroom hroom'
  have hrender : scene.render = scene.renderOr (scene.renderWithin 0) (scene.graph.size + 1) :=
    scene.renderWithin_eq_renderOr _
  have hjustified : ∀ failure, (go scene.render s).1 = .error failure → scene.Justified failure := by
    rw [hrender]
    exact (hall _ (scene.renderWithin 0) _ _ (Nat.lt_succ_self _) (Nat.lt_succ_self _) s hs).2.2
  refine ⟨fun stop room hroom => ?_, hjustified, fun hacyclic hdepth failure hfailure =>
    (hjustified failure hfailure).isStructural hacyclic hdepth⟩
  rw [hrender]
  exact (hall _ _ _ _ hroom (Nat.lt_succ_self _) s hs).1

/-- Rendering ends for every graph and every depth, whether of one block alone or of
    a place with its chain, and the guards raise no false alarm: a failure for the
    structure names a block that is reached from itself, or there is a nest of
    rendered blocks deeper than configured. No conditional has arms without end. -/
theorem Reached.guarded {s : PassState} (hs : scene.Reached s) :
    (∀ ref, scene.Guarded (fun one => one ref) s) ∧
      (∀ place, scene.Guarded (fun one => scene.placeCode one place) s) ∧
      ∀ block : Block Ref, ∃ count, Recipe.arms block = List.range (count + 1) ∧
        (∀ arm, 0 < arm → arm ≤ count → block.hasInput (Recipe.conditionSocket arm) = true) ∧
        block.hasInput (Recipe.conditionSocket (count + 1)) = false := by
  refine ⟨fun ref => ?_, fun place => ?_, Recipe.arms_spec⟩
  · exact guarded_of_alike hs.within_nil fun one one' h => h ref
  · exact guarded_of_alike hs.within_nil fun one one' h => .placeCode fun target _ => h target

/-- A negation that is plugged into itself, and one above it. -/
def selfNegation : Workspace where
  tops := [1]
  graph := ⟨#[{ Block.ofType "logic_negate" with id := some "n", values := [("BOOL", some 0)] },
    { Block.ofType "logic_negate" with id := some "m", values := [("BOOL", some 0)] }]⟩

/-- The first negation is refused where it stands in itself, and can be reached from
    itself. -/
theorem guarded_selfNegation :
    (ofLanguage .lua {} selfNegation).Reached {} ∧
      ((ofLanguage .lua {} selfNegation).renderPlace (some 1) {}).1 =
        .error (.containsItself "n") ∧
      (ofLanguage .lua {} selfNegation).Justified (.containsItself "n") := by
  have hstart : (ofLanguage .lua {} selfNegation).Reached {} := .start
  have hrun : ((ofLanguage .lua {} selfNegation).renderPlace (some 1) {}).1 =
      .error (.containsItself "n") := by rfl
  exact ⟨hstart, hrun, (hstart.guarded.2.1 (some 1)).justified _ hrun⟩

end Scene

end BlockScript
