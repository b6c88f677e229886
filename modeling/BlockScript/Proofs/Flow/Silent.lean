import BlockScript.Proofs.Code.Rendering
import BlockScript.Proofs.Flow.Jumps

/-!
# Steps without a warning

A jump that is rendered outside all loops is warned of, and no step takes back a
warning. So what is rendered outside all loops, and without a warning, leaves no jump
open.

Results:

* `Scene.Speaks.closed_partsWithin`: the parts of a block that is rendered silently.
* `Scene.Speaks.closed_topTexts`: those of the top blocks.
-/

namespace BlockScript

open BlockScript.Text

namespace Scene

variable {scene : Scene} {language : Language} {ref : Ref} {block : Block Ref} {room : Nat}
  {s t : PassState} {α β : Type} {parts : Layout}

/-! ## Silent steps -/

theorem Kept.and {R R' : PassState → PassState → Prop} (h : scene.Kept R) (h' : scene.Kept R') :
    scene.Kept fun s t => R s t ∧ R' s t where
  refl s := ⟨h.refl s, h'.refl s⟩
  trans hst htu := ⟨h.trans hst.1 htu.1, h'.trans hst.2 htu.2⟩
  entering ref _ hp s :=
    ⟨h.entering ref (fun u => (hp u).1) s, h'.entering ref (fun u => (hp u).2) s⟩
  insideLoop ref _ hp s :=
    ⟨h.insideLoop ref (fun u => (hp u).1) s, h'.insideLoop ref (fun u => (hp u).2) s⟩
  nameOf kind name s := ⟨h.nameOf kind name s, h'.nameOf kind name s⟩
  freshName kind base s := ⟨h.freshName kind base s, h'.freshName kind base s⟩
  helper key template s := ⟨h.helper key template s, h'.helper key template s⟩
  define key code s := ⟨h.define key code s, h'.define key code s⟩
  markContinue s := ⟨h.markContinue s, h'.markContinue s⟩
  warn warning s := ⟨h.warn warning s, h'.warn warning s⟩

/-- No step takes back a warning. -/
theorem warnings_kept (scene : Scene) : scene.Kept fun s t => s.warnings <+: t.warnings where
  refl _ := List.prefix_rfl
  trans h h' := h.trans h'
  entering ref _ h s := h { s with depth := s.depth + 1, active := ref :: s.active }
  insideLoop ref _ h s := h { s with loops := ref :: s.loops }
  nameOf _ _ _ := List.prefix_rfl
  freshName _ _ _ := List.prefix_rfl
  helper _ _ _ := List.prefix_rfl
  define _ _ _ := List.prefix_rfl
  markContinue s := by
    unfold Pass.markContinue
    rw [Pass.modify_apply]
    dsimp only
    split <;> exact List.prefix_rfl
  warn warning s := List.prefix_append s.warnings [warning]

/-- Whether a state is a later one at the same place, with the warnings so far. -/
abbrev Onward (scene : Scene) (s t : PassState) : Prop :=
  Later scene.dialect.policy s t ∧ s.warnings <+: t.warnings

theorem onward_kept (scene : Scene) : scene.Kept scene.Onward :=
  (later_kept scene).and (warnings_kept scene)

/-- Whether a step outside all loops has a result and gives no warning. -/
structure Silent (scene : Scene) (p : Pass α) (s : PassState) (a : α) (t : PassState) : Prop where
  run : p s = (.ok a, t)
  named : s.Named scene.dialect.policy
  outside : s.loops = []
  unwarned : t.warnings = s.warnings

namespace Silent

/-- Two steps one after the other that give no warning together. -/
theorem both {p : Pass α} {q : Pass β} {a : α} {b : β} {u : PassState}
    (hs : s.Named scene.dialect.policy) (houtside : s.loops = [])
    (hunwarned : t.warnings = s.warnings) (hp : p.Keeps scene.Onward) (hq : q.Keeps scene.Onward)
    (hfirst : p s = (.ok a, u)) (hsecond : q u = (.ok b, t)) :
    scene.Silent p s a u ∧ scene.Silent q u b t := by
  obtain ⟨hlater, hwarnings⟩ := Kept.of_run hp hfirst
  obtain ⟨-, hmore⟩ := Kept.of_run hq hsecond
  have hsame : u.warnings = s.warnings :=
    (hunwarned ▸ hmore).eq_of_length_le hwarnings.length_le
  exact ⟨⟨hfirst, hs, houtside, hsame⟩,
    ⟨hsecond, hlater.names.named hs, hlater.loops.trans houtside, hunwarned.trans hsame.symm⟩⟩

theorem keeps_renderWithin (scene : Scene) (room : Nat) (ref : Ref) :
    (scene.renderWithin room ref).Keeps scene.Onward :=
  (onward_kept scene).renderWithin room ref

theorem follow_bind {recipe : Recipe α} {next : α → Recipe β} {b : β}
    (h : scene.Silent (scene.follow (scene.renderWithin room) ref block (recipe >>= next)) s b t) :
    ∃ a u, scene.Silent (scene.follow (scene.renderWithin room) ref block recipe) s a u ∧
      scene.Silent (scene.follow (scene.renderWithin room) ref block (next a)) u b t := by
  have hkeeps : ∀ {γ : Type} (recipe : Recipe γ),
      (scene.follow (scene.renderWithin room) ref block recipe).Keeps scene.Onward :=
    (onward_kept scene).follow (keeps_renderWithin scene room) ref block
  obtain ⟨a, u, hfirst, hrest⟩ := follow_bind_eq_ok h.run
  exact ⟨a, u, both h.named h.outside h.unwarned (hkeeps recipe) (hkeeps (next a)) hfirst hrest⟩

end Silent

/-! ## Blocks outside loops -/

variable {lays : Option Ref → Ref → Layout → Prop}

/-- Whether every block that is rendered silently leaves no jump open. -/
def AllClosed (scene : Scene) (one : Ref → Pass Rendered) (lays : Option Ref → Ref → Layout → Prop) :
    Prop :=
  ∀ ref text s t parts, scene.Silent (one ref) s (.text text) t → lays none ref parts →
    scene.Orderly false parts

/-- The blocks of a chain. -/
theorem closed_chain (hone : scene.AllClosed (scene.renderWithin room) lays) {refs : List Ref}
    {text : String} (hrun : scene.Silent (scene.chainText (scene.renderWithin room) refs) s text t)
    (h : ChainParts lays none refs parts) : scene.Orderly false parts := by
  have hkept := onward_kept scene
  induction refs generalizing s text parts with
  | nil =>
    obtain rfl : parts = .nil := h
    exact .nil
  | cons ref refs ih =>
    obtain ⟨first, rest, hfirst, hrest, rfl⟩ := h
    obtain ⟨rendered, u, hrendered, hmore⟩ := Pass.bind_eq_ok hrun.run
    cases rendered with
    | value code tier => cases hmore
    | text code =>
      obtain ⟨others, v, hothers, hdone⟩ := Pass.bind_eq_ok hmore
      obtain ⟨rfl, rfl⟩ := Pass.pure_eq_ok hdone
      obtain ⟨hsilent, hsilent'⟩ := Silent.both hrun.named hrun.outside hrun.unwarned
        (hkept.renderWithin room ref) (hkept.chainText (hkept.renderWithin room) refs) hrendered
        hothers
      exact (hone ref code s u first hsilent hfirst).append (ih hsilent' hrest)

namespace Speaks

variable (h : scene.Speaks language)
include h

/-- The chain in a statement socket. -/
theorem closed_body (hone : scene.AllClosed (scene.renderWithin room) lays)
    {socket reply : String}
    (hrun : scene.Silent (scene.follow (scene.renderWithin room) ref block (Recipe.body socket)) s
      reply t)
    (hbody : scene.BodyParts lays none block socket parts) : scene.Orderly false parts := by
  unfold Recipe.body at hrun
  rw [follow_ask] at hrun
  change scene.Silent (scene.bodyText (scene.renderWithin room) block socket) s reply t at hrun
  obtain ⟨rendered, u, hplace, hdone⟩ := Pass.bind_eq_ok hrun.run
  cases rendered with
  | value code tier => cases hdone
  | text text =>
    obtain ⟨-, rfl⟩ := Pass.pure_eq_ok hdone
    exact closed_chain hone ⟨h.chainText_of_placeCode hrun.named hplace, hrun.named, hrun.outside,
      hrun.unwarned⟩ hbody

/-- The arms of a conditional. -/
theorem closed_arms (hone : scene.AllClosed (scene.renderWithin room) lays) {numbers : List Nat}
    {texts : List String}
    (hrun : scene.Silent (scene.follow (scene.renderWithin room) ref block
      (Recipe.forEach (Recipe.arm scene block) numbers)) s texts t) :
    ∀ arm ∈ numbers, ∀ body, scene.BodyParts lays none block (Recipe.bodySocket arm) body →
      scene.Orderly false body := by
  induction numbers generalizing s t texts with
  | nil => simp
  | cons number numbers ih =>
    obtain ⟨first, u, hfirst, hrest⟩ := hrun.follow_bind
    obtain ⟨others, v, hothers, -⟩ := hrest.follow_bind
    obtain ⟨condition, w, -, hinside⟩ := hfirst.follow_bind
    obtain ⟨statements, x, hstatements, -⟩ := hinside.follow_bind
    intro arm harm
    rcases List.mem_cons.mp harm with rfl | hmem
    · exact fun body => h.closed_body hone hstatements
    · exact ih hothers arm hmem

omit h in
/-- Where a jump asks for the loop around it, there is a warning. -/
theorem not_silent_reopened {warning : Warning} {before after : String} {product : Product} :
    ¬scene.Silent (scene.follow (scene.renderWithin room) ref block (do
      let loop ← Recipe.enclosingLoop
      let hook ←
        match loop with
        | none => do
          Recipe.warn warning
          pure ""
        | some loop => Recipe.ofExcept (Recipe.reopened scene loop)
      return .text (before ++ hook ++ after))) s product t := by
  intro hrun
  obtain ⟨loop, u, hloop, hrest⟩ := hrun.follow_bind
  obtain rfl : loop = none := by
    have hanswer := hloop.run
    unfold Recipe.enclosingLoop at hanswer
    rw [follow_ask] at hanswer
    cases hanswer
    rw [hrun.outside]
    rfl
  obtain ⟨_, v, hwarn, -⟩ := hrest.follow_bind
  have hanswer := hwarn.run
  unfold Recipe.warn at hanswer
  rw [follow_ask] at hanswer
  cases hanswer
  simpa using hwarn.unwarned

omit h in
/-- A jump outside all loops is warned of. -/
theorem not_silent_flow {product : Product} :
    ¬scene.Silent (scene.follow (scene.renderWithin room) ref block (Recipe.flow scene block)) s
      product t := by
  intro hrun
  obtain ⟨jump, u, -, hrest⟩ := hrun.follow_bind
  cases jump with
  | «break» => exact not_silent_reopened hrest
  | «continue» =>
    cases hlabel : scene.dialect.continueLabel.isSome with
    | false =>
      rw [hlabel] at hrest
      exact not_silent_reopened hrest
    | true =>
      rw [hlabel] at hrest
      obtain ⟨_, v, -, hrest⟩ := hrest.follow_bind
      exact not_silent_reopened hrest

/-- A block that is rendered outside all loops, without a warning, leaves no jump
    open. -/
theorem closed_partsWithin (room : Nat) :
    scene.AllClosed (scene.renderWithin room) (scene.partsWithin room) := by
  induction room with
  | zero => exact fun _ _ _ _ _ _ hparts => hparts.elim
  | succ room ih =>
    intro ref text s t parts hrun hparts
    cases hparts with
    | absent | disabled | definition => exact .nil
    | @statement block rule form parts hblock henabled hrule hform hparts =>
      obtain ⟨less, hless, hcases⟩ := renderWithin_eq_ok hrun.run
      cases hless
      rcases hcases with ⟨habsent | ⟨other, hother, hdisabled⟩, -, -⟩ |
        ⟨other, otherRule, product, u, hother, -, hotherRule, hfollow, rfl, -⟩
      · rw [hblock] at habsent
        cases habsent
      · rw [hblock] at hother
        cases hother
        rw [henabled] at hdisabled
        cases hdisabled
      · rw [hblock] at hother
        cases hother
        rw [hrule] at hotherRule
        cases hotherRule
        rw [hform] at hfollow
        have hsilent : scene.Silent (scene.follow (scene.renderWithin room) ref block
            (form.recipe scene ref block))
            { s with depth := s.depth + 1, active := ref :: s.active } product u :=
          ⟨hfollow, ⟨fun hname => hrun.named.assigned hname, fun hname => hrun.named.helpers hname⟩,
            hrun.outside, hrun.unwarned⟩
        refine .statement _ (orderly_ruleParts (orderly_partsWithin room) ?_ ?_ ?_ hparts)
        · rintro rfl
          obtain ⟨texts, v, htexts, -⟩ := hsilent.follow_bind
          exact h.closed_arms ih htexts
        · rintro rfl hthere body hbody
          obtain ⟨texts, v, -, hrest⟩ := hsilent.follow_bind
          obtain ⟨last, w, hlast, -⟩ := hrest.follow_bind
          unfold Recipe.otherwise at hlast
          rw [if_pos hthere] at hlast
          obtain ⟨statements, x, hstatements, -⟩ := hlast.follow_bind
          exact h.closed_body ih hstatements hbody
        · rintro rfl
          exact absurd hsilent not_silent_flow

/-- What starts at the top. -/
theorem closed_topTexts {room : Nat} (hroom : room = scene.graph.size + 1) {refs : List Ref}
    {texts : List String} {pieces : List (String × Layout)}
    (hrun : scene.Silent (scene.topTexts refs) s texts t)
    (htops : List.Forall₂ (fun ref piece => scene.TopParts room ref piece.2) refs pieces) :
    scene.Orderly false (.concat (pieces.map Prod.snd)) := by
  have hkept := onward_kept scene
  induction htops generalizing s t texts with
  | nil => exact .nil
  | @cons ref piece refs pieces hpiece _ ih =>
    have hrest := hrun.run
    rw [topTexts_cons] at hrest
    obtain ⟨rendered, u, hfirst, hrest⟩ := Pass.bind_eq_ok hrest
    obtain ⟨others, v, hothers, hdone⟩ := Pass.bind_eq_ok hrest
    obtain ⟨-, rfl⟩ := Pass.pure_eq_ok hdone
    obtain ⟨hsilent, hsilent'⟩ := Silent.both hrun.named hrun.outside hrun.unwarned
      (hkept.renderPlace (some ref)) (hkept.topTexts refs) hfirst hothers
    refine Orderly.append ?_ (ih hsilent')
    unfold TopParts at hpiece
    split at hpiece
    · obtain ⟨block, -, hparts⟩ := hpiece
      rw [hparts]
      exact ((Orderly.comments.append .opening).append (.single ref rfl)).append .closing
    · next hno =>
      subst hroom
      cases rendered with
      | value code tier =>
        obtain ⟨target, htarget, hone⟩ := placeCode_eq_value hsilent.run
        cases htarget
        exact absurd (h.phrased.isOperand_render hsilent.named hone).1 hno
      | text code =>
        exact closed_chain (h.closed_partsWithin _) ⟨h.chainText_of_placeCode hsilent.named
          hsilent.run, hsilent.named, hsilent.outside, hsilent.unwarned⟩ hpiece

/-- The body of a procedure whose definition stands outside all loops. -/
theorem closed_procedureDefinition {room : Nat} {product : Product} {body : Layout}
    (hrun : scene.Silent (scene.follow (scene.renderWithin room) ref block
      (Recipe.procedureDefinition scene ref block)) s product t)
    (hbody : scene.BodyParts (scene.partsWithin room) none block "STACK" body) :
    scene.Orderly false body := by
  obtain ⟨name, a, -, hrest⟩ := hrun.follow_bind
  obtain ⟨outer, b, -, hrest⟩ := hrest.follow_bind
  obtain ⟨statements, c, hstatements, -⟩ := hrest.follow_bind
  exact h.closed_body (h.closed_partsWithin room) hstatements hbody

end Speaks

end Scene

end BlockScript
