import BlockScript.Proofs.Graph.Links
import BlockScript.Proofs.Pass.Steps
import BlockScript.Proofs.Recipe.Modest

/-!
# Steps that agree

Two steps of a pass agree in states of a kind if they do the same there, leave a state of
that kind, and fail only in ways of a kind. Sockets, chains and places are rendered in
agreement if the blocks in them are.

Results:

* `Pass.Agree.bind`, `Pass.Agree.between`: composed steps.
* `Scene.Admits.placeCode`, `Scene.Admits.valueText`, `Scene.Admits.bodyText`: what is
  plugged in.
-/

namespace BlockScript

/-- Whether a failure is about a block that cannot stand at its place: one of the wrong
    kind, or one without a rule. -/
def Failure.isMisplaced : Failure → Bool
  | .valueInChain _ | .statementInValueSocket .. | .valueInStatementSocket .. => true
  | .unknownBlockType .. => true
  | _ => false

theorem isStructural_of_isMisplaced {failure : Failure} (h : failure.isMisplaced = true) :
    failure.isStructural = false := by
  cases failure <;> first | rfl | cases h

theorem isMisplaced_lookup {table : RuleTable} {type : String} {failure : Failure}
    (h : table.lookup type = .error failure) : failure.isMisplaced = true := by
  unfold RuleTable.lookup at h
  split at h <;> cases h
  rfl

namespace Pass

variable {α β : Type} {I K : PassState → Prop} {J : Failure → Prop} {p q : Pass α}

/-- Whether two steps do the same in states of a kind and leave such a state, and fail
    only in ways of a kind. -/
def Agree (I : PassState → Prop) (J : Failure → Prop) {α : Type} (p q : Pass α) : Prop :=
  ∀ s, I s → p s = q s ∧ I (p s).2 ∧ ∀ failure, (p s).1 = .error failure → J failure

namespace Agree

theorem pure (a : α) : Agree I J (Pure.pure a) (Pure.pure a) :=
  fun _ hs => ⟨rfl, hs, fun _ h => by cases h⟩

theorem throw {failure : Failure} (h : J failure) :
    Agree I J (MonadExcept.throw failure : Pass α) (MonadExcept.throw failure) :=
  fun _ hs => ⟨rfl, hs, fun _ heq => by cases heq; exact h⟩

theorem ofExcept {x : Except Failure α} (h : ∀ failure, x = .error failure → J failure) :
    Agree I J (Pass.ofExcept x) (Pass.ofExcept x) := by
  cases x with
  | ok a => exact .pure a
  | error failure => exact .throw (h failure rfl)

theorem bind {f g : α → Pass β} (h : Agree I J p q) (hnext : ∀ a, Agree I J (f a) (g a)) :
    Agree I J (p >>= f) (q >>= g) := by
  intro s hs
  obtain ⟨heq, hleft, hfail⟩ := h s hs
  rw [Pass.bind_apply, Pass.bind_apply, ← heq]
  cases hp : p s with
  | mk r t =>
    rw [hp] at hleft hfail
    cases r with
    | ok a => exact hnext a t hleft
    | error failure => exact ⟨rfl, hleft, fun _ heq => by cases heq; exact hfail failure rfl⟩

/-- A step that does not fail. -/
theorem of_ok (h : ∀ s, I s → ∃ a t, p s = (.ok a, t) ∧ q s = (.ok a, t) ∧ I t) :
    Agree I J p q := by
  intro s hs
  obtain ⟨a, t, hp, hq, hleft⟩ := h s hs
  rw [hp, hq]
  exact ⟨rfl, hleft, fun _ heq => by cases heq⟩

/-- Steps between a change of the state and its undoing. -/
theorem between {enter leave : PassState → PassState} (henter : ∀ {s}, I s → K (enter s))
    (hleave : ∀ {s}, K s → I (leave s)) (h : Agree K J p q) :
    Agree I J (Pass.between enter leave p) (Pass.between enter leave q) := by
  intro s hs
  obtain ⟨heq, hleft, hfail⟩ := h (enter s) (henter hs)
  refine ⟨?_, hleave hleft, hfail⟩
  simp only [Pass.between, heq]

end Agree

end Pass

namespace Scene

variable {scene : Scene} {I : PassState → Prop} {J : Failure → Prop}
  {one other : Ref → Pass Rendered} {block : Block Ref}

/-- Whether failures of a kind include those of blocks that cannot stand at their place,
    and those of chains that close to a cycle. -/
structure Admits (scene : Scene) (J : Failure → Prop) : Prop where
  ordinary (failure : Failure) (h : failure.isMisplaced = true) : J failure
  cyclic (ref repeated : Ref) (h : (scene.graph.chainFrom [] (some ref)).2 = some repeated) :
    J (.cyclicChain (((scene.graph.block? repeated).map (·.idText)).getD ""))

namespace Admits

theorem valueText (h : scene.Admits J) {socket : String} {tier : Tier} {strict : Bool}
    (hone : ∀ target, block.valueInput socket = some target →
      Pass.Agree I J (one target) (other target)) :
    Pass.Agree I J (scene.valueText one block socket tier strict)
      (scene.valueText other block socket tier strict) := by
  unfold Scene.valueText
  cases hinput : block.valueInput socket with
  | none => exact .pure ""
  | some target =>
    refine (hone target hinput).bind fun rendered => ?_
    cases rendered with
    | text code =>
      dsimp only
      split
      · exact .pure ""
      · exact .throw (h.ordinary _ rfl)
    | value code inner =>
      dsimp only
      split
      · exact .pure ""
      · split
        · exact .pure _
        · exact .pure _

theorem chainText (h : scene.Admits J) {refs : List Ref}
    (hone : ∀ ref ∈ refs, Pass.Agree I J (one ref) (other ref)) :
    Pass.Agree I J (scene.chainText one refs) (scene.chainText other refs) := by
  induction refs with
  | nil => exact .pure ""
  | cons ref refs ih =>
    refine (hone ref List.mem_cons_self).bind fun rendered => ?_
    cases rendered with
    | text code =>
      exact (ih fun ref hmem => hone ref (List.mem_cons_of_mem _ hmem)).bind fun rest => .pure _
    | value code inner => exact .throw (h.ordinary _ rfl)

theorem chainCode (h : scene.Admits J) {ref : Ref}
    (hone : ∀ target ∈ (scene.graph.chainFrom [] (some ref)).1,
      Pass.Agree I J (one target) (other target)) :
    Pass.Agree I J (scene.chainCode one ref) (scene.chainCode other ref) := by
  refine (h.chainText hone).bind fun code => ?_
  cases hrepeated : (scene.graph.chainFrom [] (some ref)).2 with
  | none => exact .pure code
  | some repeated => exact .throw (h.cyclic ref repeated hrepeated)

theorem placeCode (h : scene.Admits J) {place : Option Ref}
    (hone : ∀ target ∈ (scene.graph.chainFrom [] place).1,
      Pass.Agree I J (one target) (other target)) :
    Pass.Agree I J (scene.placeCode one place) (scene.placeCode other place) := by
  cases place with
  | none => exact .pure _
  | some ref =>
    have hchain : Pass.Agree I J
        (scene.chainCode one ref >>= fun code => Pure.pure (Rendered.text code))
        (scene.chainCode other ref >>= fun code => Pure.pure (Rendered.text code)) :=
      (h.chainCode hone).bind fun code => .pure _
    unfold Scene.placeCode
    dsimp only
    cases hblock : scene.graph.block? ref with
    | none => exact .pure _
    | some block =>
      dsimp only
      split
      · refine (Pass.Agree.ofExcept fun failure hfailure =>
          h.ordinary failure (isMisplaced_lookup hfailure)).bind fun rule => ?_
        split
        · exact hone ref (Graph.mem_chainFrom_self hblock)
        · exact hchain
      · exact hchain

theorem bodyText (h : scene.Admits J) {socket : String}
    (hone : ∀ target ∈ (scene.graph.chainFrom [] (block.statementInput socket)).1,
      Pass.Agree I J (one target) (other target)) :
    Pass.Agree I J (scene.bodyText one block socket) (scene.bodyText other block socket) := by
  refine (h.placeCode hone).bind fun rendered => ?_
  cases rendered with
  | text code => exact .pure _
  | value code inner => exact .throw (h.ordinary _ rfl)

end Admits

theorem isStructural_conclude {rule : Rule} {ref : Ref} {product : Product} {failure : Failure}
    (h : scene.conclude rule ref block product = .error failure) :
    failure.isStructural = false := by
  unfold conclude at h
  split at h <;> split at h <;> cases h <;> rfl

end Scene

end BlockScript
