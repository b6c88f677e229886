import BlockScript.Proofs.Names.Pass

/-!
# What recipes give

A recipe gives results with a property if it does so for every way to answer
its requests that is sound, where soundness relates a request and its answer.
Whatever answers the requests soundly then gets such a result. Soundness can
speak of a later state of the pass, as identifiers stay once they are given out.

Results:

* `Recipe.gives_bind`: what composed recipes give.
* `Scene.of_gives`: the result of following a recipe that gives it.
-/

namespace BlockScript

namespace Recipe

variable {α β : Type} {sound : (request : Request) → request.Answer → Prop}

/-- Whether every result of a recipe whose requests are answered soundly has a
    property. -/
def Gives (sound : (request : Request) → request.Answer → Prop) (P : α → Prop) :
    Recipe α → Prop
  | .done result => P result
  | .fail _ => True
  | .ask request next => ∀ reply, sound request reply → Gives sound P (next reply)

@[simp]
theorem gives_pure {P : α → Prop} (result : α) :
    (pure result : Recipe α).Gives sound P ↔ P result := Iff.rfl

/-- What composed recipes give. -/
theorem gives_bind {P : β → Prop} (recipe : Recipe α) (next : α → Recipe β) :
    (recipe >>= next).Gives sound P ↔ recipe.Gives sound fun result => (next result).Gives sound P := by
  show (andThen recipe next).Gives sound P ↔ _
  induction recipe with
  | done result => exact Iff.rfl
  | fail failure => exact Iff.rfl
  | ask request rest ih => exact forall_congr' fun reply => imp_congr_right fun _ => ih reply

theorem Gives.mono {P Q : α → Prop} {recipe : Recipe α} (h : recipe.Gives sound P)
    (hsub : ∀ result, P result → Q result) : recipe.Gives sound Q := by
  induction recipe with
  | done result => exact hsub result h
  | fail failure => trivial
  | ask request rest ih => exact fun reply hreply => ih reply (h reply hreply)

theorem Gives.bind {P : α → Prop} {Q : β → Prop} {recipe : Recipe α} {next : α → Recipe β}
    (h : recipe.Gives sound P) (hnext : ∀ result, P result → (next result).Gives sound Q) :
    (recipe >>= next).Gives sound Q :=
  (gives_bind recipe next).mpr (h.mono hnext)

/-- Whatever a recipe gives. -/
theorem gives_any (recipe : Recipe α) : recipe.Gives sound fun _ => True := by
  induction recipe with
  | done result => trivial
  | fail failure => trivial
  | ask request next ih => exact fun reply _ => ih reply

/-- A result or failure that needs no request. -/
theorem gives_ofExcept {P : α → Prop} {x : Except Failure α} (h : ∀ a, x = .ok a → P a) :
    (ofExcept x).Gives sound P := by
  cases x with
  | ok a => exact h a rfl
  | error failure => trivial

/-- The results of one recipe for every item. -/
theorem gives_forEach {ι : Type} {f : ι → Recipe α} {P : ι → α → Prop} (items : List ι)
    (h : ∀ item ∈ items, (f item).Gives sound (P item)) :
    (forEach f items).Gives sound (List.Forall₂ P items) := by
  induction items with
  | nil => exact .nil
  | cons item items ih =>
    refine (h item (by simp)).bind fun result hresult => ?_
    refine (ih fun other hother => h other (by simp [hother])).bind fun results hresults => ?_
    exact .cons hresult hresults

/-- Imports give nothing. -/
theorem gives_importAll (statements : List String) :
    (importAll statements).Gives sound fun _ => True := by
  induction statements with
  | nil => trivial
  | cons statement statements ih => exact fun _ _ => ih

end Recipe

namespace Scene

variable {scene : Scene} {α : Type} {one : Ref → Pass Rendered}

/-- The result of following a recipe that gives it. The answers are sound with
    regard to any state that keeps what the pass has named. -/
theorem of_gives {ref : Ref} {block : Block Ref} {recipe : Recipe α} {P : α → Prop}
    {sound : (request : Request) → request.Answer → Prop} {final : PassState}
    (hone : ∀ target, (one target).Keeps (KeepsNames scene.dialect.policy))
    (hsound : ∀ request reply s t, s.Named scene.dialect.policy →
      scene.answer one ref block request s = (.ok reply, t) → t.Grows final → sound request reply)
    (hgives : recipe.Gives sound P) {s t : PassState} {result : α}
    (hs : s.Named scene.dialect.policy)
    (hrun : scene.follow one ref block recipe s = (.ok result, t)) (ht : t.Grows final) :
    P result := by
  have hkept := scene.named_kept
  induction recipe generalizing s with
  | done value =>
    cases hrun
    exact hgives
  | fail failure => cases hrun
  | ask request next ih =>
    obtain ⟨reply, u, hreply, hrest⟩ := Pass.bind_eq_ok hrun
    have hstep := hkept.answer hone ref block request s
    rw [hreply] at hstep
    have hlater := hkept.follow hone ref block (next reply) u
    rw [hrest] at hlater
    exact ih reply (hgives reply (hsound request reply s u hs hreply (hlater.grows.trans ht)))
      (hstep.named hs) hrest

end Scene

end BlockScript
