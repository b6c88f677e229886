import BlockScript.Proofs.Acceptance.Inside
import BlockScript.Proofs.Pass.Books

/-!
# Blocks in the wrong place

A value socket is for a block of the value kind, a chain for blocks of the statement kind.
A call that reads a place with an enabled block of the other kind fails, wherever in the
call that place is. There is one exception: the definition of a procedure gives no text at
the place where it stands, so that a value socket that holds one is read like an empty one.

Definitions:

* `Call.Reads`: the places that a call reads.

Results:

* `Scene.valueText_of_definition`: a definition in a value socket.
* `Call.fails_of_misplaced`: a call that reads a misplaced block fails.
* `generate_fails_of_misplaced`: so does a program.
-/

namespace BlockScript

open Relation

/-! ## Places that are read -/

/-- What is read at a place: the block in a value socket, or the chain of statements that
    starts at a place. -/
inductive Slot where
  | value (target : Option Ref)
  | chain (head : Option Ref)

namespace Slot

/-- The blocks at a place. -/
def refs (scene : Scene) : Slot → List Ref
  | .value target => target.toList
  | .chain head => (scene.graph.chainFrom [] head).1

/-- Whether blocks of the value kind are out of place. -/
def refusesValues : Slot → Bool
  | .value _ => false
  | .chain _ => true

end Slot

/-- The place that a request reads, if it reads one. -/
def Request.slot? (block : Block Ref) : Request → Option Slot
  | .value socket _ _ => some (.value (block.valueInput socket))
  | .body socket _ => some (.chain (block.statementInput socket))
  | _ => none

namespace Scene

variable (scene : Scene)

/-- Whether a reference leads to an enabled block whose rule gives a value, or to one whose
    rule does not. -/
def HasKind (ref : Ref) (isValue : Bool) : Prop :=
  ∃ block rule, scene.graph.block? ref = some block ∧ block.enabled = true ∧
    scene.rules.lookup block.type = .ok rule ∧ rule.isValue = isValue

/-- Whether a place is read when a block is rendered: the block, or one rendered inside it
    at any depth, has it for a socket that its rule asks for. -/
def ReadsInside (ref : Ref) (slot : Slot) : Prop :=
  ∃ inner block rule request, ReflTransGen scene.RendersInside ref inner ∧
    scene.graph.block? inner = some block ∧ block.enabled = true ∧
    scene.rules.lookup block.type = .ok rule ∧
    (rule.handler.recipe scene inner block).Asks request ∧ request.slot? block = some slot

end Scene

/-- The places that a call reads. A value is rendered alone, without the chain below it. -/
inductive Call.Reads (scene : Scene) : Call → Slot → Prop where
  | place {head : Option Ref} (h : ∀ ref, head = some ref → ¬scene.HasKind ref true) :
    Reads scene (.place head) (.chain head)
  | single {ref : Ref} {slot : Slot} (hvalue : scene.HasKind ref true)
    (h : scene.ReadsInside ref slot) : Reads scene (.place (some ref)) slot
  | block {ref : Ref} {slot : Slot} (h : scene.ReadsInside ref slot) :
    Reads scene (.block ref) slot
  | value {holder : Block Ref} {socket : String} {tier : Tier} {strict : Bool} :
    Reads scene (.value holder socket tier strict) (.value (holder.valueInput socket))
  | body {holder : Block Ref} {socket : String} :
    Reads scene (.body holder socket) (.chain (holder.statementInput socket))
  | inside {call : Call} {slot inner : Slot} {ref : Ref} (h : Reads scene call slot)
    (hmem : ref ∈ slot.refs scene) (hinside : scene.ReadsInside ref inner) : Reads scene call inner

/-! ## Places that are filled -/

variable {scene : Scene} {language : Language} {slot inner : Slot} {ref : Ref} {block : Block Ref}
  {form : BlockForm} {shape : Ref → Option Shape} {request : Request} {depth : Int} {room : Nat}
  {nest : List Ref} {call : Call} {s t : PassState}

/-- Whether what stands at a place has the shapes for it. -/
def Slot.Filled (scene : Scene) (shape : Ref → Option Shape) : Slot → Prop
  | .value target => (target.all fun ref => (shape ref).any Shape.fitsValue) = true
  | .chain head => scene.workspace.holdsChain shape head = true

/-- What stands at a place that is filled has a shape that fits. -/
theorem Slot.Filled.fits (h : slot.Filled scene shape) (hmem : ref ∈ slot.refs scene) :
    ∃ known, shape ref = some known ∧
      (if slot.refusesValues then known.fitsChain else known.fitsValue) = true := by
  have hany : ∀ {fits : Shape → Bool}, (shape ref).any fits = true →
      ∃ known, shape ref = some known ∧ fits known = true :=
    fun hfits => (Option.any_eq_true ..).mp hfits
  cases slot with
  | value target =>
    obtain rfl : target = some ref := Option.mem_toList.mp hmem
    exact hany h
  | chain head =>
    simp only [Slot.Filled, Workspace.holdsChain, Bool.and_eq_true, List.all_eq_true] at h
    exact hany (h.2 ref hmem)

namespace Scene

/-- The places that the recipe for an accepted block reads are filled. -/
theorem filled_of_asks (hpasses : Recipe.Passes scene shape block form)
    (hasks : (form.recipe scene ref block).Asks request) (hslot : request.slot? block = some slot) :
    slot.Filled scene shape := by
  have hasked := (form.recipe_asks scene ref block).of_asks hasks
  obtain ⟨sockets, hsockets, hfills⟩ := (Option.any_eq_true ..).mp hpasses
  simp only [Workspace.fillsSockets, Bool.and_eq_true, List.all_eq_true] at hfills
  cases request with
  | value socket tier strict =>
    cases hslot
    exact hfills.1 socket (hasked sockets hsockets)
  | body socket loop =>
    cases hslot
    exact hfills.2 socket (hasked.2 sockets hsockets)
  | _ => cases hslot

/-- Every place that is read inside an accepted block is filled. -/
theorem Speaks.filled_inside (h : scene.Speaks language)
    (haccepted : (scene.workspace.shapeWithin depth room nest ref).isSome = true)
    (hreads : scene.ReadsInside ref slot) :
    ∃ less nest', slot.Filled scene (scene.workspace.shapeWithin depth less nest') := by
  obtain ⟨inner, block, rule, request, hway, hblock, henabled, hrule, hasks, hslot⟩ := hreads
  -- Every block on the way is accepted inside those around it.
  have hinner : ∃ less nest', (scene.workspace.shapeWithin depth less nest' inner).isSome = true := by
    clear hblock hasks hslot
    induction hway with
    | refl => exact ⟨room, nest, haccepted⟩
    | tail _ hlast ih =>
      obtain ⟨less, nest', hout⟩ := ih
      obtain ⟨fewer, hinner⟩ := h.isSome_inside hout hlast
      exact ⟨fewer, _, hinner⟩
  obtain ⟨less, nest', hsome⟩ := hinner
  obtain ⟨form, hhandler, -⟩ := h.known _ _ hrule
  cases less with
  | zero => simp [Workspace.shapeWithin] at hsome
  | succ less =>
    rw [shapeWithin_eq henabled hblock, h.lookup_iff.mpr ⟨rule, hrule, hhandler⟩] at hsome
    split at hsome
    · cases hsome
    · rw [Option.isSome_map, Option.isSome_filter] at hsome
      rw [hhandler] at hasks
      exact ⟨less, inner :: nest', filled_of_asks hsome hasks hslot⟩

/-- A block that is accepted has the kind of its shape. -/
theorem Speaks.kind_of_shape (h : scene.Speaks language) {isValue : Bool} {known : Shape}
    (hkind : scene.HasKind ref isValue)
    (hshape : scene.workspace.shapeWithin depth room nest ref = some known) :
    (isValue = true ↔ known = .value) ∧
      (known = .blank → ∃ block, scene.HasForm ref block .procedureDefinition) := by
  obtain ⟨block, rule, hblock, henabled, hrule, hvalue⟩ := hkind
  obtain ⟨rule', hrule', hiff⟩ := (h.ordered depth room nest).rule ref block known hblock henabled hshape
  cases hrule.symm.trans hrule'
  refine ⟨hvalue ▸ hiff, fun hblank => ⟨block, hblock, henabled, rule, hrule, ?_⟩⟩
  obtain ⟨form, hhandler, -⟩ := h.known _ _ hrule
  cases room with
  | zero => cases hshape
  | succ room =>
    rw [shapeWithin_eq henabled hblock, h.lookup_iff.mpr ⟨rule, hrule, hhandler⟩] at hshape
    split at hshape
    · cases hshape
    · obtain ⟨form', hfound, hform⟩ := Option.map_eq_some_iff.mp hshape
      obtain ⟨hsame, -⟩ := Option.filter_eq_some_iff.mp hfound
      cases hsame
      subst hblank
      unfold BlockForm.shape at hform
      split at hform
      · cases hform
      · split at hform
        · next hdefinition => rw [hhandler, hdefinition]
        · cases hform

/-- A place that is filled holds no block of the wrong kind, unless it is a value socket
    with a definition. -/
theorem Speaks.definition_of_filled (h : scene.Speaks language)
    (hfilled : slot.Filled scene (scene.workspace.shapeWithin depth room nest))
    (hmem : ref ∈ slot.refs scene) (hkind : scene.HasKind ref slot.refusesValues) :
    slot = .value (some ref) ∧ ∃ block, scene.HasForm ref block .procedureDefinition := by
  obtain ⟨known, hshape, hfits⟩ := hfilled.fits hmem
  obtain ⟨hvalue, hblank⟩ := h.kind_of_shape hkind hshape
  cases slot with
  | value target =>
    obtain rfl : target = some ref := Option.mem_toList.mp hmem
    refine ⟨rfl, hblank ?_⟩
    cases known with
    | blank => rfl
    | statement => cases hfits
    | value => cases hvalue.mpr rfl
  | chain head =>
    rw [hvalue.mp rfl] at hfits
    cases hfits

end Scene

/-! ## Calls -/

/-- What a call that succeeds has accepted. -/
theorem Scene.Speaks.filled_of_run (h : scene.Speaks language) (hs : scene.Inside [] s)
    {answer : call.Answer} (hrun : call.run scene s = (.ok answer, t))
    (hreads : call.Reads scene slot) :
    ∃ room nest, slot.Filled scene
      (scene.workspace.shapeWithin scene.config.maxDepth room nest) := by
  have hrender := h.settles_render
  have hordered := h.ordered scene.config.maxDepth (scene.workspace.graph.size + 1) []
  induction hreads with
  | @place head hno =>
    obtain ⟨hcode, -⟩ := (Scene.settles_placeCode hrender hordered head).of_run hs hrun
    refine ⟨_, _, ((Bool.or_eq_true ..).mp hcode).resolve_left fun hvalue => ?_⟩
    -- A single value that is accepted there would be an enabled block of the value kind.
    obtain ⟨ref, rfl, hshape⟩ : ∃ ref, head = some ref ∧
        scene.workspace.shape scene.config.maxDepth ref = some .value := by
      simpa [Workspace.holdsValue, Option.bind_eq_some_iff] using hvalue
    obtain ⟨block, hblock, henabled⟩ := hordered.value ref hshape
    obtain ⟨rule, hrule, hiff⟩ := hordered.rule ref block .value hblock henabled hshape
    exact hno ref rfl ⟨block, rule, hblock, henabled, hrule, hiff.mpr rfl⟩
  | @single ref slot hvalue hinside =>
    obtain ⟨hcode, -⟩ := (Scene.settles_placeCode hrender hordered (some ref)).of_run hs hrun
    obtain ⟨block, rule, hblock, -⟩ := hvalue
    have hsome : (scene.workspace.shape scene.config.maxDepth ref).isSome = true := by
      rcases (Bool.or_eq_true ..).mp hcode with hsingle | hchain
      · have hshape : scene.workspace.shape scene.config.maxDepth ref = some .value := by
          simpa [Workspace.holdsValue] using hsingle
        rw [hshape]
        rfl
      · obtain ⟨known, hknown, -⟩ :=
          (Option.any_eq_true ..).mp (Scene.fitsChain_of_holdsChain hblock hchain)
        rw [hknown]
        rfl
    exact h.filled_inside hsome hinside
  | @block ref slot hinside =>
    obtain ⟨hsome, -⟩ := (hrender ref).of_run hs hrun
    exact h.filled_inside hsome hinside
  | @value holder socket tier strict =>
    exact ⟨_, _, ((Scene.settles_valueText hrender socket tier strict).of_run hs hrun).1⟩
  | @body holder socket =>
    exact ⟨_, _, ((Scene.settles_bodyText hrender hordered holder socket).of_run hs hrun).1⟩
  | inside _ hmem hinside ih =>
    obtain ⟨room, nest, hfilled⟩ := ih hrun
    obtain ⟨known, hshape, -⟩ := hfilled.fits hmem
    exact h.filled_inside (by rw [hshape]; rfl) hinside

/-! ## Definitions in value sockets -/

/-- The result of a recipe that gives it, whatever its requests are answered. -/
theorem Scene.of_gives_always {α : Type} {recipe : Recipe α} {P : α → Prop} {result : α}
    {one : Ref → Pass Rendered} (hgives : recipe.Gives (fun _ _ => True) P)
    (hrun : scene.follow one ref block recipe s = (.ok result, t)) : P result := by
  induction recipe generalizing s with
  | done value =>
    cases hrun
    exact hgives
  | fail failure => cases hrun
  | ask request next ih =>
    obtain ⟨reply, u, -, hrest⟩ := Pass.bind_eq_ok hrun
    exact ih reply (hgives reply trivial) hrest

/-- A definition gives nothing at the place where it stands. -/
theorem Recipe.gives_procedureDefinition :
    (procedureDefinition scene ref block).Gives (fun _ _ => True) (· = .nothing) :=
  (gives_any _).bind fun _ _ => (gives_any _).bind fun _ _ => (gives_any _).bind fun _ _ =>
    (gives_any _).bind fun _ _ => (gives_any _).bind fun _ _ => (gives_any _).bind fun _ _ =>
      (gives_any _).bind fun _ _ => rfl

theorem Scene.render_definition {rendered : Rendered}
    (hform : scene.HasForm ref block .procedureDefinition)
    (hrun : scene.renderWithin room ref s = (.ok rendered, t)) : rendered = .text "" := by
  obtain ⟨hblock, henabled, rule, hrule, hhandler⟩ := hform
  obtain ⟨less, rfl, ⟨-, heq, -⟩ | ⟨other, rule', product, v, hother, -, hrule', hfollow, -,
    hconclude⟩⟩ := Scene.renderWithin_eq_ok hrun
  · exact heq
  · cases hblock.symm.trans hother
    cases hrule.symm.trans hrule'
    rw [hhandler] at hfollow
    obtain rfl := of_gives_always Recipe.gives_procedureDefinition hfollow
    unfold conclude at hconclude
    split at hconclude
    · cases hconclude
    · cases hconclude
      rfl

/-- A value socket that holds a definition has the text of an empty one, once the
    definition is rendered. -/
theorem Scene.valueText_of_definition {holder : Block Ref} {socket : String}
    (hform : scene.HasForm ref block .procedureDefinition)
    (hinput : holder.valueInput socket = some ref) (room : Nat) (tier : Tier) (strict : Bool)
    (s : PassState) :
    scene.valueText (scene.renderWithin room) holder socket tier strict s =
      ((scene.renderWithin room ref s).1.map fun _ => "", (scene.renderWithin room ref s).2) := by
  unfold valueText
  rw [hinput]
  dsimp only
  rw [Pass.bind_apply]
  cases hrun : scene.renderWithin room ref s with
  | mk result t =>
    cases result with
    | error failure => rfl
    | ok rendered =>
      obtain rfl := render_definition hform hrun
      rfl

/-! ## Misplaced blocks -/

/-- A call that reads a block of the wrong kind fails: an enabled block of the statement
    kind in a value socket, or an enabled block of the value kind in a chain. Only a
    definition in a value socket is let pass, and then read as an empty socket. -/
theorem Call.fails_of_misplaced (h : scene.Speaks language) (hs : scene.Inside [] s)
    (hreads : call.Reads scene slot) (hmem : ref ∈ slot.refs scene)
    (hkind : scene.HasKind ref slot.refusesValues) :
    (∃ failure, (call.run scene s).1 = .error failure) ∨
      slot = .value (some ref) ∧ ∃ block, scene.HasForm ref block .procedureDefinition ∧
        ∀ holder socket room tier strict u, holder.valueInput socket = some ref →
          scene.valueText (scene.renderWithin room) holder socket tier strict u =
            ((scene.renderWithin room ref u).1.map fun _ => "", (scene.renderWithin room ref u).2) := by
  cases hrun : call.run scene s with
  | mk result t =>
    cases result with
    | error failure => exact .inl ⟨failure, rfl⟩
    | ok answer =>
      obtain ⟨room, nest, hfilled⟩ := h.filled_of_run hs hrun hreads
      obtain ⟨hslot, block, hform⟩ := h.definition_of_filled hfilled hmem hkind
      exact .inr ⟨hslot, block, hform, fun holder socket room tier strict u hinput =>
        Scene.valueText_of_definition hform hinput room tier strict u⟩

/-! ### Statements as values -/

/-- A workspace with an assignment of what a block gives. -/
def assigning (value : Block Ref) : Workspace where
  tops := [1]
  graph := ⟨#[value, { Block.ofType "variables_set" with
    fields := [("VAR", .text "x")], values := [("VALUE", some 0)] }]⟩

/-- The assignment in Lua, without comments. -/
def luaAssigning (value : Block Ref) : Scene :=
  .ofLanguage .lua { emitComments := false } (assigning value)

/-- Rendering the assignment reads the socket for its value. -/
theorem reads_luaAssigning (value : Block Ref) :
    (Call.block 1).Reads (luaAssigning value) (.value (some 0)) :=
  .block ⟨1, _, _, .value "VALUE" _ false, .refl, rfl, rfl, rfl, .inl rfl, rfl⟩

/-- Another assignment. -/
def otherAssignment : Block Ref :=
  { Block.ofType "variables_set" with fields := [("VAR", .text "y")] }

/-- An assignment cannot be assigned. -/
theorem Call.fails_of_misplaced_assignment :
    (luaAssigning otherAssignment).Speaks .lua ∧ (luaAssigning otherAssignment).Inside [] {} ∧
      (Call.block 1).Reads (luaAssigning otherAssignment) (.value (some 0)) ∧
      0 ∈ (Slot.value (some 0)).refs (luaAssigning otherAssignment) ∧
      (luaAssigning otherAssignment).HasKind 0 false ∧
      ∃ failure, ((Call.block 1).run (luaAssigning otherAssignment) {}).1 = .error failure := by
  have hspeaks : (luaAssigning otherAssignment).Speaks .lua := Scene.speaks_ofLanguage _ _ _
  have hstart : (luaAssigning otherAssignment).Inside [] {} := ⟨⟨rfl, rfl⟩, nofun⟩
  have hreads := reads_luaAssigning otherAssignment
  have hmem : 0 ∈ (Slot.value (some 0)).refs (luaAssigning otherAssignment) := List.mem_cons_self
  have hkind : (luaAssigning otherAssignment).HasKind 0 false := ⟨_, _, rfl, rfl, rfl, rfl⟩
  refine ⟨hspeaks, hstart, hreads, hmem, hkind, ?_⟩
  refine (Call.fails_of_misplaced hspeaks hstart hreads hmem hkind).resolve_right ?_
  rintro ⟨-, block, ⟨hblock, -, rule, hrule, hhandler⟩, -⟩
  cases hblock
  cases hrule
  cases hhandler

/-- The definition of a procedure. -/
def definitionOfF : Block Ref :=
  { Block.ofType "procedures_defnoreturn" with fields := [("NAME", .text "f")] }

/-- A definition in the socket for the value is of the statement kind, and is taken for an
    empty socket. -/
theorem misplacedDefinition_passes :
    (Call.block 1).Reads (luaAssigning definitionOfF) (.value (some 0)) ∧
      (luaAssigning definitionOfF).HasKind 0 false ∧
      ((luaAssigning definitionOfF).render 1 {}).1.toOption = some (.text "x = 0\n") :=
  ⟨reads_luaAssigning definitionOfF, ⟨_, _, rfl, rfl, rfl, rfl⟩, by decide +kernel⟩

/-! ## Misplaced blocks in programs -/

/-- A program fails if a block of the wrong kind is read below one of its top blocks. -/
theorem generate_fails_of_misplaced {config : Config} {workspace : Workspace} {top : Ref}
    (htop : top ∈ workspace.tops)
    (hreads : (Call.place (some top)).Reads (.ofLanguage language config workspace) slot)
    (hmem : ref ∈ slot.refs (.ofLanguage language config workspace))
    (hkind : (Scene.ofLanguage language config workspace).HasKind ref slot.refusesValues)
    (hother : ∀ block,
      ¬(Scene.ofLanguage language config workspace).HasForm ref block .procedureDefinition) :
    (generate language config workspace).1.isOk = false := by
  have hspeaks := Scene.speaks_ofLanguage language config workspace
  have hstart : (Scene.ofLanguage language config workspace).Inside [] {} := ⟨⟨rfl, rfl⟩, nofun⟩
  rcases Call.fails_of_misplaced hspeaks hstart hreads hmem hkind with
    ⟨failure, hfailure⟩ | ⟨-, block, hform, -⟩
  · rw [← Bool.not_eq_true, generate_isOk_iff]
    intro haccepted
    rw [Workspace.accepted, Bool.and_eq_true, List.all_eq_true] at haccepted
    have hsettles := Scene.settles_placeCode hspeaks.settles_render (hspeaks.ordered _ _ _)
      (some top) {} hstart
    cases hrun : (Scene.ofLanguage language config workspace).placeCode
        (Scene.ofLanguage language config workspace).render (some top) {} with
    | mk result t =>
      rw [hrun] at hsettles
      have hresult : result = .error failure := (congrArg Prod.fst hrun).symm.trans hfailure
      subst hresult
      exact hsettles (haccepted.2 top htop)
  · exact absurd hform (hother block)

end BlockScript
