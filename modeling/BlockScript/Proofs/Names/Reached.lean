import BlockScript.Program
import BlockScript.Proofs.Names.Pass

/-!
# The states of a pass

A pass starts with an empty state and takes any steps in any order: it renders
blocks and sockets, requests identifiers and helpers, sets definitions, and
enters and leaves loops. Steps that fail count as well, as they can change the
state.

Results:

* `Scene.Reached.named`: the identifiers of a pass fit the language.
-/

namespace BlockScript

/-- The states that a pass over a scene can be in. -/
inductive Scene.Reached (scene : Scene) : PassState → Prop where
  | start : Reached scene {}
  | reserved {s : PassState} (h : Reached scene s) : Reached scene (scene.reserveNames s).2
  | rendered {s : PassState} (h : Reached scene s) (ref : Ref) : Reached scene (scene.render ref s).2
  | place {s : PassState} (h : Reached scene s) (place : Option Ref) :
    Reached scene (scene.renderPlace place s).2
  | value {s : PassState} (h : Reached scene s) (block : Block Ref) (socket : String) (tier : Tier)
    (strict : Bool) : Reached scene (scene.renderValue block socket tier strict s).2
  | body {s : PassState} (h : Reached scene s) (block : Block Ref) (socket : String) :
    Reached scene (scene.renderBody block socket s).2
  | name {s : PassState} (h : Reached scene s) (kind : NameKind) (name : String) :
    Reached scene (Pass.nameOf scene.dialect.policy kind name s).2
  | freshName {s : PassState} (h : Reached scene s) (kind : NameKind) (base : String) :
    Reached scene (Pass.freshName scene.dialect.policy kind base s).2
  | helper {s : PassState} (h : Reached scene s) (key template : String) :
    Reached scene (Pass.helper scene.dialect.policy scene.indent key template s).2
  | defined {s : PassState} (h : Reached scene s) (key code : String) :
    Reached scene (Pass.define key code s).2
  | enteredLoop {s : PassState} (h : Reached scene s) (loop : Ref) :
    Reached scene (Pass.enterLoop loop s).2
  | leftLoop {s : PassState} (h : Reached scene s) : Reached scene (Pass.leaveLoop s).2
  | continued {s : PassState} (h : Reached scene s) : Reached scene (Pass.markContinue s).2
  | reset {s : PassState} (h : Reached scene s) : Reached scene (Pass.reset s).2

namespace Scene

variable {scene : Scene} {R : PassState → PassState → Prop}

/-! ## Reserving names -/

theorem Kept.reserve (h : scene.Kept R) (kind : NameKind) (names : List String) :
    (scene.reserve kind names).Keeps R := by
  induction names with
  | nil => exact h.pure _
  | cons name names ih =>
    exact h.bind (h.nameOf kind name) fun text => h.bind ih fun texts => h.pure _

/-- Reserving names goes on from the request for the first. -/
theorem Kept.reserve_first (h : scene.Kept R) (kind : NameKind) (name : String)
    (names : List String) (s : PassState) :
    R (Pass.nameOf scene.dialect.policy kind name s).2 (scene.reserve kind (name :: names) s).2 :=
  h.bind_after _ (fun _ => h.bind (h.reserve kind names) fun _ => h.pure _) s

theorem Kept.reserveDefined (h : scene.Kept R) (names : List Scalar) :
    (scene.reserveDefined names).Keeps R := by
  induction names with
  | nil => exact h.pure _
  | cons name names ih =>
    cases name with
    | text content => exact h.bind (h.nameOf .procedure content) fun _ => ih
    | _ => exact h.throw _

/-- A relation that all changes keep is kept by reserving the names of a
    workspace. -/
theorem Kept.reserveNames (h : scene.Kept R) : scene.reserveNames.Keeps R := by
  refine h.bind (h.ofExcept _) fun used => ?_
  refine h.bind (h.reserve .variable used) fun names => ?_
  refine h.bind (h.reserve .developerVariable _) fun developer => ?_
  refine h.bind (h.reserveDefined _) fun _ => ?_
  split
  · exact h.pure _
  · split
    · exact h.pure _
    · exact h.define _ _

/-! ## Rendering a workspace -/

/-- The text of what starts at the top, from what it renders to. -/
def topText (scene : Scene) (ref : Ref) : Rendered → String
  | .text code => code
  | .value code _ => scene.nakedValue ref code

theorem topTexts_cons (ref : Ref) (refs : List Ref) :
    scene.topTexts (ref :: refs) = (do
      let rendered ← scene.renderPlace (some ref)
      let texts ← scene.topTexts refs
      return if scene.topText ref rendered = "" then texts
        else scene.topText ref rendered :: texts) := by
  funext s
  simp only [topTexts, Pass.bind_apply]
  cases scene.renderPlace (some ref) s with
  | mk result t =>
    cases result with
    | error failure => rfl
    | ok rendered =>
      cases rendered <;> dsimp only <;> simp only [Pass.bind_apply, Pass.pure_apply] <;> rfl

theorem Kept.topTexts (h : scene.Kept R) (refs : List Ref) :
    (scene.topTexts refs).Keeps R := by
  induction refs with
  | nil => exact h.pure _
  | cons ref refs ih =>
    rw [topTexts_cons]
    exact h.bind (h.renderPlace (some ref)) fun _ => h.bind ih fun _ => h.pure _

/-- A relation that all changes keep is kept by a whole program. -/
theorem Kept.program (h : scene.Kept R) : scene.program.Keeps R := by
  refine h.bind h.reserveNames fun _ => ?_
  refine h.bind (h.topTexts _) fun texts => ?_
  exact h.bind (h.get) fun state => h.pure _

/-- A program goes on from where the names of its workspace are reserved. -/
theorem Kept.program_after (h : scene.Kept R) (s : PassState) :
    R (scene.reserveNames s).2 (scene.program s).2 :=
  h.bind_after _ (fun _ => h.bind (h.topTexts _) fun _ => h.bind h.get fun _ => h.pure _) s

/-! ## States -/

/-- The identifiers of a pass fit the language. -/
theorem Reached.named {s : PassState} (h : scene.Reached s) : s.Named scene.dialect.policy := by
  have hkept := scene.named_kept
  induction h with
  | start => exact PassState.named_empty
  | reserved _ ih => exact (hkept.reserveNames _).named ih
  | rendered _ ref ih => exact (hkept.render ref _).named ih
  | place _ place ih => exact (hkept.renderPlace place _).named ih
  | value _ block socket tier strict ih =>
    exact (hkept.valueText hkept.render block socket tier strict _).named ih
  | body _ block socket ih => exact (hkept.bodyText hkept.render block socket _).named ih
  | name _ kind name ih => exact (hkept.nameOf kind name _).named ih
  | freshName _ kind base ih => exact (hkept.freshName kind base _).named ih
  | helper _ key template ih => exact (hkept.helper key template _).named ih
  | defined _ key code ih => exact (hkept.define key code _).named ih
  | enteredLoop _ loop ih => exact ⟨fun hname => ih.assigned hname, fun hname => ih.helpers hname⟩
  | @leftLoop s _ ih =>
    have hleft : KeepsNames scene.dialect.policy s (Pass.leaveLoop s).2 := by
      unfold Pass.leaveLoop
      rw [Pass.bind_apply, Pass.get_apply]
      dsimp only
      cases s.loops <;> exact keepsNames_of_eq rfl rfl
    exact hleft.named ih
  | continued _ ih => exact (hkept.markContinue _).named ih
  | reset _ _ =>
    have hempty : PassState.Named scene.dialect.policy {} := PassState.named_empty
    exact ⟨fun hname => hempty.assigned hname, fun hname => hempty.helpers hname⟩

end Scene

end BlockScript
