import BlockScript.Proofs.Graph.Walk
import BlockScript.Proofs.Pass.Guard

/-!
# The books of a pass

A pass keeps books while it renders: how deep it is, which blocks are being rendered, and
which loops are around. Every call leaves the books as they were, whether it succeeds or
fails, and whatever they were. So between calls there is nothing in them but the loops
that were entered by hand.

What the books say during a call can be told without them: it is what they said before,
and what the blocks around in the same call add. `Scene.renderGiven` is a rendering that
is told this and never looks the books up; a call does the same as it.

Definitions:

* `Books`, `Call`, `Use`: the books, a call, and what is done with a pass.
* `Scene.renderGiven`: rendering without looking the books up.
* `Scene.Comes`: where a call comes to, and what the books say there.

Results:

* `Call.agree_run`: a call does the same without looking the books up, and leaves them as
  they were.
* `Use.books_run`: the books after any uses of a pass.
* `Use.call_after`: a call after any uses of a pass, failed ones among them.
-/

namespace BlockScript

open Relation

/-! ## The books -/

/-- How deep a pass is, which blocks are being rendered, and which loops are around. -/
structure Books where
  depth : Nat := 0
  active : List Ref := []
  loops : List Ref := []
  deriving DecidableEq, Repr

namespace Books

/-- The books inside one more block. -/
def entered (books : Books) (ref : Ref) : Books :=
  { books with depth := books.depth + 1, active := ref :: books.active }

/-- The books inside one more loop. -/
def inLoop (books : Books) (loop : Ref) : Books :=
  { books with loops := loop :: books.loops }

end Books

/-- The books of a pass. -/
def PassState.books (state : PassState) : Books :=
  ⟨state.depth, state.active, state.loops⟩

theorem PassState.books_eq_iff {s : PassState} {books : Books} :
    s.books = books ↔ s.depth = books.depth ∧ s.active = books.active ∧ s.loops = books.loops := by
  cases books
  simp [PassState.books]

/-- The books inside the block of a request: a body of a loop is inside one more loop. -/
def Request.booksInside (ref : Ref) (books : Books) : Request → Books
  | .body _ true => books.inLoop ref
  | _ => books

namespace Scene

variable {scene : Scene}

/-- Every step of rendering leaves the books as they were. -/
theorem books_kept (scene : Scene) : scene.Kept fun s t => t.books = s.books where
  refl _ := rfl
  trans h h' := h'.trans h
  entering ref p h s := by
    obtain ⟨hdepth, hactive, hloops⟩ := PassState.books_eq_iff.mp
      (h { s with depth := s.depth + 1, active := ref :: s.active })
    refine PassState.books_eq_iff.mpr ⟨?_, ?_, hloops⟩
    · show (p _).2.depth - 1 = s.depth
      rw [hdepth]
      rfl
    · show (p _).2.active.erase ref = s.active
      rw [hactive]
      exact List.erase_cons_head ..
  insideLoop ref p h s := by
    obtain ⟨hdepth, hactive, hloops⟩ := PassState.books_eq_iff.mp
      (h { s with loops := ref :: s.loops })
    refine PassState.books_eq_iff.mpr ⟨hdepth, hactive, ?_⟩
    show (p _).2.loops.tail = s.loops
    rw [hloops]
    rfl
  nameOf _ _ _ := rfl
  freshName _ _ _ := rfl
  helper _ _ _ := rfl
  define _ _ _ := rfl
  markContinue s := by
    unfold Pass.markContinue
    rw [Pass.modify_apply]
    dsimp only
    split <;> rfl
  warn _ _ := rfl

/-! ## Rendering without looking the books up -/

section Given

variable (scene : Scene)

/-- Whether a block may be rendered under given books, and its rule. -/
def permitGiven (books : Books) (ref : Ref) (block : Block Ref) : Except Failure Rule :=
  if books.active.contains ref then .error (.containsItself block.idText)
  else if scene.config.maxDepth ≤ books.depth then .error (.tooDeep scene.config.maxDepth)
  else scene.rules.lookup block.type

/-- Answers a request under given books, where `one` renders a single block under given
    books. -/
def answerGiven (one : Books → Ref → Pass Rendered) (books : Books) (ref : Ref)
    (block : Block Ref) : (request : Request) → Pass request.Answer
  | .body socket true => Pass.insideLoop ref (scene.bodyText (one (books.inLoop ref)) block socket)
  | .enclosingLoop => return books.loops.head?
  | .markContinue => modify fun state =>
      match books.loops with
      | [] => state
      | loop :: _ => { state with continued := loop :: state.continued }
  | request => scene.answer (one books) ref block request

/-- Follows a recipe under given books. -/
def followGiven {α : Type} (one : Books → Ref → Pass Rendered) (books : Books) (ref : Ref)
    (block : Block Ref) : Recipe α → Pass α
  | .done result => pure result
  | .fail failure => throw failure
  | .ask request next => do
    let reply ← scene.answerGiven one books ref block request
    followGiven one books ref block (next reply)

/-- Renders one block under given books, with room for so many levels of nesting. -/
def renderGiven : Nat → Books → Ref → Pass Rendered
  | 0, _, ref => throw (.containsItself (((scene.graph.block? ref).map (·.idText)).getD ""))
  | room + 1, books, ref =>
    match scene.graph.block? ref with
    | none => return .text ""
    | some block =>
      if !block.enabled then return .text ""
      else do
        let rule ← Pass.ofExcept (scene.permitGiven books ref block)
        let product ← Pass.entering ref
          (scene.followGiven (renderGiven room) (books.entered ref) ref block
            (rule.handler.recipe scene ref block))
        Pass.ofExcept (scene.conclude rule ref block product)

end Given

/-! ## Where a call comes to -/

/-- The blocks that a call comes to from its first ones, with what the books say where
    it comes to them. -/
inductive Comes (scene : Scene) (roots : List Ref) (start : Books) : Books → Ref → Prop where
  | root {ref : Ref} (h : ref ∈ roots) : Comes scene roots start start ref
  | inside {books : Books} {outer inner : Ref} {block : Block Ref} {rule : Rule} {request : Request}
    (h : Comes scene roots start books outer) (hblock : scene.graph.block? outer = some block)
    (henabled : block.enabled = true) (hpermit : scene.permitGiven books outer block = .ok rule)
    (hasks : (rule.handler.recipe scene outer block).Asks request)
    (htarget : inner ∈ scene.targets block request) :
    Comes scene roots start (request.booksInside outer (books.entered outer)) inner

variable {roots : List Ref} {start books : Books} {ref : Ref} {block : Block Ref} {rule : Rule}

/-- A block that may be rendered is not being rendered, the place is not too deep, and its
    type has the rule. -/
theorem permitGiven_eq_ok (h : scene.permitGiven books ref block = .ok rule) :
    ref ∉ books.active ∧ ¬scene.config.maxDepth ≤ books.depth ∧
      scene.rules.lookup block.type = .ok rule := by
  unfold permitGiven at h
  split at h
  · cases h
  · next hnew =>
    split at h
    · cases h
    · next hroom => exact ⟨by simpa using hnew, hroom, h⟩

theorem active_booksInside (request : Request) :
    (request.booksInside ref books).active = books.active := by
  unfold Request.booksInside
  split <;> rfl

theorem depth_booksInside (request : Request) :
    (request.booksInside ref books).depth = books.depth := by
  unfold Request.booksInside
  split <;> rfl

/-- The books where a call comes to: the blocks around in the call are a nest of different
    blocks that starts at one of its first blocks, and the loops around are some of them.
    The rest was there before. -/
structure Around (scene : Scene) (roots : List Ref) (start books : Books) (ref : Ref)
    (nest opened : List Ref) : Prop where
  active : books.active = nest ++ start.active
  depth : books.depth = nest.length + start.depth
  loops : books.loops = opened ++ start.loops
  opened : opened ⊆ nest
  isNest : scene.Nest nest
  asked : scene.AskedIn nest ref
  nodup : nest.Nodup
  first : ∃ root ∈ roots, (ref :: nest).getLast? = some root

theorem Comes.around (h : scene.Comes roots start books ref) :
    ∃ nest opened, scene.Around roots start books ref nest opened := by
  induction h with
  | @root ref h =>
    exact ⟨[], [], rfl, (Nat.zero_add _).symm, rfl, List.Subset.refl _, ⟨nofun, .nil⟩, nofun, .nil,
      ref, h, rfl⟩
  | @inside books outer inner block rule request _ hblock henabled hpermit hasks htarget ih =>
    obtain ⟨nest, opened, hout⟩ := ih
    obtain ⟨hnew, -, hrule⟩ := permitGiven_eq_ok hpermit
    rw [hout.active, List.mem_append, not_or] at hnew
    have hloops : ∃ more, (request.booksInside outer (books.entered outer)).loops =
        more ++ start.loops ∧ more ⊆ outer :: nest := by
      unfold Request.booksInside
      split
      · exact ⟨outer :: opened, by rw [List.cons_append, ← hout.loops]; rfl,
          List.cons_subset_cons _ hout.opened⟩
      · exact ⟨opened, hout.loops, List.subset_cons_of_subset _ hout.opened⟩
    obtain ⟨more, hmore, hsubset⟩ := hloops
    refine ⟨outer :: nest, more, ?_, ?_, hmore, hsubset,
      hout.isNest.cons ⟨block, hblock, henabled⟩ hout.asked, ?_,
      List.nodup_cons.mpr ⟨hnew.1, hout.nodup⟩, ?_⟩
    · rw [active_booksInside, List.cons_append, ← hout.active]
      rfl
    · rw [depth_booksInside, List.length_cons, Nat.add_right_comm, ← hout.depth]
      rfl
    · rintro other ⟨⟩
      exact ⟨block, rule, request, hblock, henabled, hrule, hasks, htarget⟩
    · obtain ⟨root, hroot, hlast⟩ := hout.first
      exact ⟨root, hroot, by rw [List.getLast?_cons_cons, hlast]⟩

/-- What a failure for the nesting is blamed on: where the call comes to, the block is
    being rendered already, or the depth is that configured. -/
def Blames (scene : Scene) (roots : List Ref) (start : Books) : Failure → Prop
  | .containsItself id => ∃ books ref block, scene.Comes roots start books ref ∧
      scene.graph.block? ref = some block ∧ block.idText = id ∧ ref ∈ books.active
  | .tooDeep limit => limit = scene.config.maxDepth ∧ ∃ books ref, scene.Comes roots start books ref ∧
      scene.Enabled ref ∧ scene.config.maxDepth ≤ books.depth
  | _ => True

theorem blames_of_ordinary {failure : Failure} (h : failure.isStructural = false) :
    scene.Blames roots start failure := by
  cases failure with
  | cyclicChain id => cases h
  | containsItself id => cases h
  | tooDeep limit => cases h
  | _ => trivial

theorem admits_blames (scene : Scene) (roots : List Ref) (start : Books) :
    scene.Admits (scene.Blames roots start) where
  ordinary _ h := blames_of_ordinary (isStructural_of_isMisplaced h)
  cyclic _ _ _ := trivial

/-! ## Rendering agrees -/

/-- Whether two steps do the same where the books are given, and leave them as they are. -/
abbrev AgreeUnder (scene : Scene) (roots : List Ref) (start books : Books) {α : Type}
    (p q : Pass α) : Prop :=
  Pass.Agree (fun s => s.books = books) (scene.Blames roots start) p q

theorem agree_entering {α : Type} {p q : Pass α}
    (h : scene.AgreeUnder roots start (books.entered ref) p q) :
    scene.AgreeUnder roots start books (Pass.entering ref p) (Pass.entering ref q) := by
  refine Pass.Agree.between (fun hs => ?_) (fun hs => ?_) h
  · rw [← hs]
    rfl
  · obtain ⟨hdepth, hactive, hloops⟩ := PassState.books_eq_iff.mp hs
    refine PassState.books_eq_iff.mpr ⟨?_, ?_, hloops⟩
    · show _ - 1 = books.depth
      rw [hdepth]
      rfl
    · show List.erase _ ref = books.active
      rw [hactive]
      exact List.erase_cons_head ..

theorem agree_insideLoop {α : Type} {p q : Pass α}
    (h : scene.AgreeUnder roots start (books.inLoop ref) p q) :
    scene.AgreeUnder roots start books (Pass.insideLoop ref p) (Pass.insideLoop ref q) := by
  refine Pass.Agree.between (fun hs => ?_) (fun hs => ?_) h
  · rw [← hs]
    rfl
  · obtain ⟨hdepth, hactive, hloops⟩ := PassState.books_eq_iff.mp hs
    refine PassState.books_eq_iff.mpr ⟨hdepth, hactive, ?_⟩
    show List.tail _ = books.loops
    rw [hloops]
    rfl

variable {one : Ref → Pass Rendered} {other : Books → Ref → Pass Rendered}

/-- A request is answered without looking the books up. -/
theorem agree_answer {request : Request}
    (hone : ∀ target ∈ scene.targets block request,
      scene.AgreeUnder roots start (request.booksInside ref books) (one target)
        (other (request.booksInside ref books) target)) :
    scene.AgreeUnder roots start books (scene.answer one ref block request)
      (scene.answerGiven other books ref block request) := by
  have hadmits := admits_blames scene roots start
  cases request with
  | value socket tier strict =>
    exact hadmits.valueText fun target htarget => hone target (by simp [targets, htarget])
  | body socket loop =>
    cases loop with
    | true => exact agree_insideLoop (hadmits.bodyText hone)
    | false => exact hadmits.bodyText hone
  | name kind name => exact .of_ok fun s hs => ⟨_, _, rfl, rfl, hs⟩
  | freshName kind base => exact .of_ok fun s hs => ⟨_, _, rfl, rfl, hs⟩
  | helper key template => exact .of_ok fun s hs => ⟨_, _, rfl, rfl, hs⟩
  | define key code => exact .of_ok fun s hs => ⟨_, _, rfl, rfl, hs⟩
  | enclosingLoop =>
    refine .of_ok fun s hs => ⟨_, _, rfl, ?_, hs⟩
    obtain ⟨-, -, hloops⟩ := PassState.books_eq_iff.mp hs
    rw [hloops]
    rfl
  | markContinue =>
    refine .of_ok fun s hs => ⟨_, _, rfl, ?_, ?_⟩
    · obtain rfl := hs
      rfl
    · dsimp only
      split <;> exact hs
  | loopContinued loop => exact .of_ok fun s hs => ⟨_, _, rfl, rfl, hs⟩
  | warn warning => exact .of_ok fun s hs => ⟨_, _, rfl, rfl, hs⟩

/-- A recipe is followed without looking the books up. -/
theorem agree_follow {α : Type} {recipe : Recipe α} (hlocal : recipe.Local)
    (hone : ∀ request, recipe.Asks request → ∀ target ∈ scene.targets block request,
      scene.AgreeUnder roots start (request.booksInside ref books) (one target)
        (other (request.booksInside ref books) target)) :
    scene.AgreeUnder roots start books (scene.follow one ref block recipe)
      (scene.followGiven other books ref block recipe) := by
  induction recipe with
  | done result => exact .pure result
  | fail failure => exact .throw (blames_of_ordinary hlocal)
  | ask request next ih =>
    refine (agree_answer (hone request (.inl rfl))).bind fun reply => ?_
    exact ih reply (hlocal.2 reply) fun later hlater => hone later (.inr ⟨reply, hlater⟩)

/-- A refusal is blamed on where the call comes to. -/
theorem blames_of_permitGiven {failure : Failure} (hcomes : scene.Comes roots start books ref)
    (hblock : scene.graph.block? ref = some block) (henabled : block.enabled = true)
    (h : scene.permitGiven books ref block = .error failure) :
    scene.Blames roots start failure := by
  unfold permitGiven at h
  split at h
  · next hmem =>
    cases h
    exact ⟨books, ref, block, hcomes, hblock, rfl, by simpa using hmem⟩
  · split at h
    · next hdeep =>
      cases h
      exact ⟨rfl, books, ref, hcomes, ⟨block, hblock, henabled⟩, hdeep⟩
    · exact blames_of_ordinary (Recipe.isStructural_lookup h)

/-- A block is permitted without looking the books up. -/
theorem agree_permit (hcomes : scene.Comes roots start books ref)
    (hblock : scene.graph.block? ref = some block) (henabled : block.enabled = true)
    {f g : Rule → Pass Rendered}
    (h : ∀ rule, scene.permitGiven books ref block = .ok rule →
      scene.AgreeUnder roots start books (f rule) (g rule)) :
    scene.AgreeUnder roots start books (scene.permit ref block >>= f)
      (Pass.ofExcept (scene.permitGiven books ref block) >>= g) := by
  intro s hs
  obtain ⟨hdepth, hactive, -⟩ := PassState.books_eq_iff.mp hs
  have hrun : scene.permit ref block s = Pass.ofExcept (scene.permitGiven books ref block) s := by
    unfold permit permitGiven
    rw [Pass.bind_apply, Pass.get_apply]
    dsimp only
    rw [hdepth, hactive]
    split
    · rfl
    · split <;> rfl
  rw [Pass.bind_apply, Pass.bind_apply, hrun]
  cases hgiven : scene.permitGiven books ref block with
  | error failure =>
    refine ⟨rfl, hs, fun _ heq => ?_⟩
    cases heq
    exact blames_of_permitGiven hcomes hblock henabled hgiven
  | ok rule => exact h rule hgiven s hs

/-- A block that a call comes to is rendered without looking the books up. There is a
    block to every level, and no level is without room before all blocks are around. -/
theorem agree_renderWithin {room : Nat} (hcomes : scene.Comes roots start books ref)
    (hroom : scene.graph.size + start.depth < room + books.depth) :
    scene.AgreeUnder roots start books (scene.renderWithin room ref)
      (scene.renderGiven room books ref) := by
  induction room generalizing books ref with
  | zero =>
    obtain ⟨nest, opened, haround⟩ := hcomes.around
    have hlength := haround.isNest.length_le haround.nodup
    have hdepth := haround.depth
    omega
  | succ room ih =>
    unfold renderWithin renderGiven
    cases hblock : scene.graph.block? ref with
    | none => exact .pure _
    | some block =>
      dsimp only
      split
      · exact .pure _
      · next hdisabled =>
        have henabled : block.enabled = true := by simpa using hdisabled
        refine agree_permit hcomes hblock henabled fun rule hpermit => ?_
        refine (agree_entering (agree_follow (Handler.recipe_local scene ref block rule.handler)
          fun request hasks target htarget => ?_)).bind fun product => ?_
        · refine ih (hcomes.inside hblock henabled hpermit hasks htarget) ?_
          rw [depth_booksInside]
          show _ < room + (books.depth + 1)
          omega
        · exact .ofExcept fun _ hfailure => blames_of_ordinary (isStructural_conclude hfailure)

end Scene

/-! ## Calls -/

/-- A call: for what starts at a place, for one block alone, or for a socket of a block. -/
inductive Call where
  | place (head : Option Ref)
  | block (ref : Ref)
  | value (holder : Block Ref) (socket : String) (tier : Tier) (strict : Bool)
  | body (holder : Block Ref) (socket : String)

namespace Call

/-- What a call gives. -/
def Answer : Call → Type
  | .place _ | .block _ => Rendered
  | .value .. | .body .. => String

/-- Does what a call asks for, where `one` renders a single block. -/
def go (scene : Scene) (one : Ref → Pass Rendered) : (call : Call) → Pass call.Answer
  | .place head => scene.placeCode one head
  | .block ref => one ref
  | .value holder socket tier strict => scene.valueText one holder socket tier strict
  | .body holder socket => scene.bodyText one holder socket

/-- Does what a call asks for. -/
def run (scene : Scene) (call : Call) : Pass call.Answer :=
  call.go scene scene.render

/-- Does what a call asks for under given books, without looking the books up. -/
def runGiven (scene : Scene) (books : Books) (call : Call) : Pass call.Answer :=
  call.go scene (scene.renderGiven (scene.graph.size + 1) books)

/-- The blocks that a call renders first. -/
def roots (scene : Scene) : Call → List Ref
  | .place head => (scene.graph.chainFrom [] head).1
  | .block ref => [ref]
  | .value holder socket _ _ => (holder.valueInput socket).toList
  | .body holder socket => (scene.graph.chainFrom [] (holder.statementInput socket)).1

variable {scene : Scene} {call : Call} {s : PassState}

/-- A call does the same without looking the books up, and leaves them as they were,
    whether it succeeds or fails. -/
theorem agree_run (scene : Scene) (call : Call) (books : Books) :
    scene.AgreeUnder (call.roots scene) books books (call.run scene) (call.runGiven scene books) := by
  have hadmits := scene.admits_blames (call.roots scene) books
  have hone : ∀ ref ∈ call.roots scene, scene.AgreeUnder (call.roots scene) books books
      (scene.render ref) (scene.renderGiven (scene.graph.size + 1) books ref) :=
    fun ref hroot => Scene.agree_renderWithin (.root hroot) (by omega)
  cases call with
  | place head => exact hadmits.placeCode hone
  | block ref => exact hone ref List.mem_cons_self
  | value holder socket tier strict =>
    exact hadmits.valueText fun target htarget => hone target (Option.mem_toList.mpr htarget)
  | body holder socket => exact hadmits.bodyText hone

end Call

/-! ## Uses of a pass -/

/-- What is done with a pass. Calls may be about different scenes, as blocks can be
    plugged in differently between two of them. -/
inductive Use where
  | call (scene : Scene) (asked : Call)
  | reserveNames (scene : Scene)
  | nameOf (policy : NamePolicy) (kind : NameKind) (name : String)
  | freshName (policy : NamePolicy) (kind : NameKind) (base : String)
  | helper (policy : NamePolicy) (unit key template : String)
  | define (key code : String)
  | enterLoop (loop : Ref)
  | leaveLoop
  | markContinue
  | reset

namespace Use

/-- The state after one use. A use that fails leaves the state as it was at that moment. -/
def run : Use → PassState → PassState
  | .call scene asked, s => (asked.run scene s).2
  | .reserveNames scene, s => (scene.reserveNames s).2
  | .nameOf policy kind name, s => (Pass.nameOf policy kind name s).2
  | .freshName policy kind base, s => (Pass.freshName policy kind base s).2
  | .helper policy unit key template, s => (Pass.helper policy unit key template s).2
  | .define key code, s => (Pass.define key code s).2
  | .enterLoop loop, s => (Pass.enterLoop loop s).2
  | .leaveLoop, s => (Pass.leaveLoop s).2
  | .markContinue, s => (Pass.markContinue s).2
  | .reset, s => (Pass.reset s).2

/-- The loops entered by hand and not left again, after one more use. -/
def entered (loops : List Ref) : Use → List Ref
  | .enterLoop loop => loop :: loops
  | .leaveLoop => loops.tail
  | .reset => []
  | _ => loops

/-- The state after several uses. -/
def runAll (uses : List Use) : PassState :=
  uses.foldl (fun s use => use.run s) {}

/-- The loops entered by hand and not left again. -/
def enteredLoops (uses : List Use) : List Ref :=
  uses.foldl entered []

theorem leaveLoop_snd (s : PassState) :
    (Pass.leaveLoop s).2 = { s with loops := s.loops.tail } := by
  unfold Pass.leaveLoop
  rw [Pass.bind_apply, Pass.get_apply]
  dsimp only
  cases hloops : s.loops with
  | nil =>
    cases s
    cases hloops
    rfl
  | cons loop loops => rfl

/-- One use of a pass leaves nothing in the books but the loops entered by hand. -/
theorem books_step {s : PassState} {loops : List Ref} (use : Use)
    (hs : s.books = { loops }) : (use.run s).books = { loops := use.entered loops } := by
  cases use with
  | call scene asked =>
    obtain ⟨-, hleft, -⟩ := asked.agree_run scene s.books s rfl
    exact hleft.trans hs
  | reserveNames scene => exact (scene.books_kept.reserveNames s).trans hs
  | nameOf policy kind name => exact hs
  | freshName policy kind base => exact hs
  | helper policy unit key template => exact hs
  | define key code => exact hs
  | enterLoop loop =>
    obtain ⟨hdepth, hactive, hloops⟩ := PassState.books_eq_iff.mp hs
    refine PassState.books_eq_iff.mpr ⟨hdepth, hactive, ?_⟩
    show loop :: s.loops = loop :: loops
    rw [hloops]
  | leaveLoop =>
    obtain ⟨hdepth, hactive, hloops⟩ := PassState.books_eq_iff.mp hs
    show (Pass.leaveLoop s).2.books = _
    rw [leaveLoop_snd]
    exact PassState.books_eq_iff.mpr ⟨hdepth, hactive, congrArg List.tail hloops⟩
  | markContinue =>
    show (Pass.markContinue s).2.books = _
    unfold Pass.markContinue
    rw [Pass.modify_apply]
    dsimp only
    split <;> exact hs
  | reset => rfl

/-- After any uses of a pass nothing is in the books but the loops entered by hand. -/
theorem books_run (uses : List Use) : (runAll uses).books = { loops := enteredLoops uses } := by
  have hall : ∀ (uses : List Use) (s : PassState) (loops : List Ref), s.books = { loops } →
      (uses.foldl (fun s use => use.run s) s).books = { loops := uses.foldl entered loops } := by
    intro uses
    induction uses with
    | nil => exact fun s loops hs => hs
    | cons use uses ih => exact fun s loops hs => ih _ _ (use.books_step hs)
  exact hall uses {} [] rfl

end Use

namespace Scene

variable {scene : Scene} {roots loops : List Ref} {failure : Failure}

/-- Whether a failure for the nesting is due to the blocks below the given ones: there is
    one that is nested in itself, or a nest deeper than configured starts at one of the
    given ones. -/
def OwnFault (scene : Scene) (roots : List Ref) : Failure → Prop
  | .containsItself id => ∃ root ∈ roots, ∃ ref block, scene.graph.block? ref = some block ∧
      block.idText = id ∧ ReflTransGen scene.graph.Links root ref ∧ scene.graph.Reaches ref ref
  | .tooDeep limit => limit = scene.config.maxDepth ∧ ∃ root ∈ roots, ∃ nest, scene.Nest nest ∧
      nest.getLast? = some root ∧ scene.config.maxDepth < nest.length
  | _ => True

/-- The last block of a nest reaches the first. -/
theorem Nest.reaches_of_getLast? {ref root : Ref} {nest : List Ref} (h : scene.Nest nest)
    (hasked : scene.AskedIn nest ref) (hlast : (ref :: nest).getLast? = some root) :
    ReflTransGen scene.graph.Links root ref := by
  cases nest with
  | nil =>
    cases hlast
    exact .refl
  | cons first nest =>
    rw [List.getLast?_cons_cons] at hlast
    exact (h.reaches hasked root (List.mem_of_getLast? hlast)).to_reflTransGen

/-- With nothing in the books but loops, a failure is blamed on the call's own blocks. -/
theorem Blames.ownFault (h : scene.Blames roots { loops } failure) :
    scene.OwnFault roots failure := by
  cases failure with
  | containsItself id =>
    obtain ⟨books, ref, block, hcomes, hblock, hid, hactive⟩ := h
    obtain ⟨nest, opened, haround⟩ := hcomes.around
    obtain ⟨root, hroot, hlast⟩ := haround.first
    rw [haround.active, List.append_nil] at hactive
    exact ⟨root, hroot, ref, block, hblock, hid,
      haround.isNest.reaches_of_getLast? haround.asked hlast,
      haround.isNest.reaches haround.asked ref hactive⟩
  | tooDeep limit =>
    obtain ⟨hlimit, books, ref, hcomes, henabled, hdeep⟩ := h
    obtain ⟨nest, opened, haround⟩ := hcomes.around
    obtain ⟨root, hroot, hlast⟩ := haround.first
    have hdepth : books.depth = nest.length := haround.depth
    refine ⟨hlimit, root, hroot, ref :: nest, haround.isNest.cons henabled haround.asked, hlast, ?_⟩
    rw [List.length_cons]
    omega
  | _ => trivial

end Scene

/-- A failure leaves no trace in the books. After any uses of a pass, failed ones among
    them, a call finds the books as in a new pass, but for the loops entered by hand: it
    does what it does if it is told just these, it fails for the nesting only for its own
    blocks, and the loops around a place that it comes to are blocks of the call around
    that place, and then those entered by hand. Whatever the books, a call leaves them as
    it found them. -/
theorem Use.call_after (uses : List Use) (scene : Scene) (call : Call) :
    (∀ s, (call.run scene s).2.books = s.books) ∧
      (runAll uses).books = { loops := enteredLoops uses } ∧
      call.run scene (runAll uses) =
        call.runGiven scene { loops := enteredLoops uses } (runAll uses) ∧
      (∀ failure, (call.run scene (runAll uses)).1 = .error failure →
        scene.OwnFault (call.roots scene) failure) ∧
      ∀ books ref, scene.Comes (call.roots scene) { loops := enteredLoops uses } books ref →
        ∃ nest opened, scene.Nest nest ∧ scene.AskedIn nest ref ∧
          (∃ root ∈ call.roots scene, (ref :: nest).getLast? = some root) ∧ opened ⊆ nest ∧
          books.loops = opened ++ enteredLoops uses := by
  have hbooks := books_run uses
  obtain ⟨hrun, -, hfail⟩ := call.agree_run scene _ _ hbooks
  refine ⟨fun s => (call.agree_run scene s.books s rfl).2.1, hbooks, hrun, fun failure hfailure =>
    (hfail failure hfailure).ownFault, fun books ref hcomes => ?_⟩
  obtain ⟨nest, opened, haround⟩ := hcomes.around
  exact ⟨nest, opened, haround.isNest, haround.asked, haround.first, haround.opened, haround.loops⟩

example :
    ((Call.place (some 1)).run (.ofLanguage .lua {} Scene.selfNegation) {}).1 =
        .error (.containsItself "n") ∧
      (Use.runAll [.enterLoop 7,
        .call (.ofLanguage .lua {} Scene.selfNegation) (.place (some 1))]).books = { loops := [7] } :=
  ⟨rfl, rfl⟩

end BlockScript
