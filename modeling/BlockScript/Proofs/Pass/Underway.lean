import BlockScript.Proofs.Acceptance.Inside
import BlockScript.Proofs.Names.Reserved

/-!
# Passes that are underway

What is known of the state of a pass at a place where blocks are being rendered: these
blocks are a nest, the names of the workspace are reserved, and a property of the
identifiers and definitions holds. Every block is rendered inside one more block, so what is
kept is told for all nests at once.

Results:

* `Scene.Speaks.underway_renderWithin`: a property that the definitions of procedures keep
  inside any nest is kept by rendering.
-/

namespace BlockScript

open BlockScript.Text

namespace Scene

variable {scene : Scene} {language : Language} {I : PassState → Prop} {nest : List Ref}
  {ref : Ref} {block : Block Ref} {one : Ref → Pass Rendered} {s t : PassState} {α : Type}

/-- Whether a pass that has reserved its names is at a place inside a nest of blocks, and a
    property holds. -/
structure Underway (scene : Scene) (I : PassState → Prop) (nest : List Ref) (s : PassState) :
    Prop where
  inside : scene.Inside nest s
  leads : scene.Leads scene.reserved s
  holds : I s

/-- A step that leaves the nest and the loops around it as they are. -/
theorem Underway.of_run {p : Pass α} {a : α} (hs : scene.Underway I nest s)
    (hkept : ∀ {R}, scene.Kept R → p.Keeps R) (hrun : p s = (.ok a, t)) (hholds : I t) :
    scene.Underway I nest t := by
  obtain ⟨hactive, hdepth⟩ := Kept.of_run (hkept scene.quiet_kept) hrun
  have hlater : Later scene.dialect.policy s t := Kept.of_run (hkept (later_kept scene)) hrun
  have hleads : scene.Leads s t := Kept.of_run (hkept scene.leads_kept) hrun
  refine ⟨⟨⟨?_, ?_⟩, ?_⟩, hs.leads.trans hleads, hholds⟩
  · rw [hactive, hs.inside.within.1]
  · rw [hdepth, hs.inside.within.2]
  · rw [hlater.loops]
    exact hs.inside.loops

/-- What recipes do of their own keeps a place inside a nest. -/
theorem Tolerates.underway (h : scene.Tolerates I) : scene.Tolerates (scene.Underway I nest) where
  nameOf kind name _ _ _ hs hrun :=
    hs.of_run (fun hkept => hkept.nameOf kind name) hrun (h.nameOf kind name _ _ _ hs.holds hrun)
  freshName kind base _ _ _ hs hrun :=
    hs.of_run (fun hkept => hkept.freshName kind base) hrun
      (h.freshName kind base _ _ _ hs.holds hrun)
  helper key template hhelper _ _ _ hs hrun :=
    hs.of_run (fun hkept => hkept.helper key template) hrun
      (h.helper key template hhelper _ _ _ hs.holds hrun)
  define key code himport _ _ _ hs hrun :=
    hs.of_run (fun hkept => hkept.define key code) hrun
      (h.define key code himport _ _ _ hs.holds hrun)
  markContinue _ _ _ hs hrun :=
    hs.of_run (fun hkept => hkept.markContinue) hrun (h.markContinue _ _ _ hs.holds hrun)
  warn warning _ _ _ hs hrun :=
    hs.of_run (fun hkept => hkept.warn warning) hrun (h.warn warning _ _ _ hs.holds hrun)

/-- Whether a property is about identifiers and definitions only. -/
def Quiet (I : PassState → Prop) : Prop :=
  ∀ {s t : PassState}, I s → t.names = s.names → t.definitions = s.definitions → I t

/-- A step inside the loop that a block is. -/
theorem underway_insideLoop (hquiet : Quiet I) (hself : scene.Ruled ref) {p : Pass α}
    (hp : p.Preserves (scene.Underway I nest)) :
    (Pass.insideLoop ref p).Preserves (scene.Underway I nest) := by
  intro s a t hs hrun
  obtain ⟨u, hu, rfl⟩ := Pass.between_eq_ok hrun
  have hentered : scene.Underway I nest { s with loops := ref :: s.loops } :=
    ⟨⟨hs.inside.within, List.forall_mem_cons.mpr ⟨hself, hs.inside.loops⟩⟩,
      hs.leads.trans (leads_unnamed rfl), hquiet hs.holds rfl rfl⟩
  have hleft := hp _ _ _ hentered hu
  exact ⟨⟨hleft.inside.within, fun loop hloop =>
    hleft.inside.loops loop (List.mem_of_mem_tail hloop)⟩, hleft.leads.trans (leads_unnamed rfl),
    hquiet hleft.holds rfl rfl⟩

/-- A recipe that defines no more than imports and helpers keeps what holds at a place. -/
theorem Tolerates.underway_follow (h : scene.Tolerates I) (hquiet : Quiet I)
    (hone : scene.AllPreserve (scene.Underway I nest) one) (hplaced : scene.Placed ref)
    (hblock : scene.graph.block? ref = some block) (hself : scene.Ruled ref) {recipe : Recipe α}
    (hmodest : recipe.Modest scene.dialect) :
    (scene.follow one ref block recipe).Preserves (scene.Underway I nest) :=
  h.underway.follow hone (fun _ hbody => underway_insideLoop hquiet hself hbody) hplaced hblock
    hmodest

/-- A property that the definitions of procedures keep inside any nest is kept by
    rendering. -/
theorem Speaks.underway_renderWithin (hspeaks : scene.Speaks language) (h : scene.Tolerates I)
    (hquiet : Quiet I)
    (hdefinition : ∀ room nest ref block, scene.Placed ref →
      scene.HasForm ref block .procedureDefinition →
      scene.AllPreserve (scene.Underway I (ref :: nest)) (scene.renderWithin room) →
        (scene.follow (scene.renderWithin room) ref block
          (Recipe.procedureDefinition scene ref block)).Preserves (scene.Underway I (ref :: nest)))
    (room : Nat) (nest : List Ref) :
    scene.AllPreserve (scene.Underway I nest) (scene.renderWithin room) := by
  induction room generalizing nest with
  | zero =>
    intro ref _ s a t _ hrun
    cases hrun
  | succ room ih =>
    intro ref hplaced
    refine hspeaks.preserves_renderWithin (J := scene.Underway I (ref :: nest))
      (fun hs => ⟨hs.inside.entered, hs.leads.trans (leads_unnamed rfl), hquiet hs.holds rfl rfl⟩)
      (fun hs => ⟨hs.inside.left, hs.leads.trans (leads_unnamed rfl), hquiet hs.holds rfl rfl⟩)
      fun block rule form hblock henabled hrule hhandler => ?_
    have hform : scene.HasForm ref block form := ⟨hblock, henabled, rule, hrule, hhandler⟩
    by_cases hdefines : form = .procedureDefinition
    · subst hdefines
      exact hdefinition room nest ref block hplaced hform (ih (ref :: nest))
    · exact h.underway_follow hquiet (ih (ref :: nest)) hplaced hblock hform.ruled
        (form.recipe_modest scene ref block hdefines)

end Scene

end BlockScript
