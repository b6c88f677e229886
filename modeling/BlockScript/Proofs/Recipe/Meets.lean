import BlockScript.Proofs.Recipe.Gives

/-!
# What recipes need and give

Some requests need something that only earlier answers make sure of, as a helper needs the
imports that its text calls for. A recipe meets the needs if every request that it comes to
has what it needs, given that the requests ahead of it are answered soundly, and if its
results have a property. Following such a recipe keeps an invariant of the state that every
request with what it needs keeps.

Soundness can speak of the end of a pass: of all states only those count from which the pass
can still come to a fitting end.

Results:

* `Recipe.Meets.bind`: composed recipes.
* `Scene.yields_follow`: following a recipe that meets the needs.
-/

namespace BlockScript

variable {α β : Type}

/-! ## Recipes -/

namespace Recipe

variable {need : Request → Prop} {sound : (request : Request) → request.Answer → Prop}

/-- Whether a recipe whose requests are answered soundly asks for nothing without what that
    needs, and whether all its results have a property. -/
def Meets (need : Request → Prop) (sound : (request : Request) → request.Answer → Prop)
    (P : α → Prop) : Recipe α → Prop
  | .done result => P result
  | .fail _ => True
  | .ask request next =>
    need request ∧ ∀ reply, sound request reply → Meets need sound P (next reply)

theorem Meets.bind {P : α → Prop} {Q : β → Prop} {recipe : Recipe α} {next : α → Recipe β}
    (h : recipe.Meets need sound P)
    (hnext : ∀ result, P result → (next result).Meets need sound Q) :
    (recipe >>= next).Meets need sound Q := by
  show (andThen recipe next).Meets need sound Q
  induction recipe with
  | done result => exact hnext result h
  | fail failure => trivial
  | ask request rest ih => exact ⟨h.1, fun reply hreply => ih reply (h.2 reply hreply)⟩

theorem Meets.mono {P Q : α → Prop} {recipe : Recipe α} (h : recipe.Meets need sound P)
    (hsub : ∀ result, P result → Q result) : recipe.Meets need sound Q := by
  induction recipe with
  | done result => exact hsub result h
  | fail failure => trivial
  | ask request rest ih => exact ⟨h.1, fun reply hreply => ih reply (h.2 reply hreply)⟩

/-- A single request. -/
theorem meets_ask {request : Request} (h : need request) :
    (Recipe.ask request .done).Meets need sound (sound request) :=
  ⟨h, fun _ hreply => hreply⟩

/-- A result or failure that needs no request. -/
theorem meets_ofExcept {P : α → Prop} {x : Except Failure α} (h : ∀ a, x = .ok a → P a) :
    (ofExcept x).Meets need sound P := by
  cases x with
  | ok a => exact h a rfl
  | error failure => trivial

/-- The results of one recipe for every item. -/
theorem meets_forEach {ι : Type} {f : ι → Recipe α} {P : α → Prop} (items : List ι)
    (h : ∀ item, (f item).Meets need sound P) :
    (forEach f items).Meets need sound fun results => ∀ result ∈ results, P result := by
  induction items with
  | nil => exact fun result hresult => by cases hresult
  | cons item items ih =>
    exact (h item).bind fun result hresult => ih.bind fun results hresults =>
      List.forall_mem_cons.mpr ⟨hresult, hresults⟩

/-- Imports that are all there at the end, if every definition is. -/
theorem meets_importAll {P : String → Prop} (statements : List String)
    (h : ∀ statement, need (.define (importKey ++ statement) statement))
    (hreply : ∀ statement, sound (.define (importKey ++ statement) statement) () → P statement) :
    (importAll statements).Meets need sound fun _ => ∀ statement ∈ statements, P statement := by
  induction statements with
  | nil => exact fun statement hstatement => by cases hstatement
  | cons statement statements ih =>
    have hdefine : (define (importKey ++ statement) statement).Meets need sound
        (sound (.define (importKey ++ statement) statement)) := meets_ask (h statement)
    refine hdefine.bind fun _ hdone => ih.mono fun _ hrest => ?_
    exact List.forall_mem_cons.mpr ⟨hreply statement hdone, hrest⟩

end Recipe

/-! ## Steps of a pass -/

/-- Whether a step that succeeds and comes to a state that counts gives results with a property
    and keeps an invariant. -/
def Pass.Yields (counts I : PassState → Prop) (P : α → Prop) (p : Pass α) : Prop :=
  ∀ s a t, I s → p s = (.ok a, t) → counts t → P a ∧ I t

namespace Pass.Yields

variable {counts I : PassState → Prop} {P : α → Prop} {Q : β → Prop} {p : Pass α} {f : α → Pass β}

theorem pure {a : α} (h : P a) : Pass.Yields counts I P (Pure.pure a : Pass α) := by
  intro s b t hs hrun _
  obtain ⟨rfl, rfl⟩ := Pass.pure_eq_ok hrun
  exact ⟨h, hs⟩

theorem throw (failure : Failure) : Pass.Yields counts I P (MonadExcept.throw failure : Pass α) :=
  fun _ _ _ _ hrun => by cases hrun

theorem ofExcept {x : Except Failure α} (h : ∀ a, x = .ok a → P a) :
    Pass.Yields counts I P (Pass.ofExcept x) := by
  cases x with
  | ok a => exact .pure (h a rfl)
  | error failure => exact .throw failure

/-- A step that is followed by one that counts only if the first one does. -/
theorem bind (h : p.Yields counts I P) (hback : ∀ a, (f a).Keeps fun s t => counts t → counts s)
    (hrest : ∀ a, P a → (f a).Yields counts I Q) : (p >>= f).Yields counts I Q := by
  intro s b t hs hrun ht
  obtain ⟨a, u, hfirst, hlast⟩ := Pass.bind_eq_ok hrun
  have hu : counts u := by
    have hcounts := hback a u
    rw [hlast] at hcounts
    exact hcounts ht
  obtain ⟨ha, hinv⟩ := h s a u hs hfirst hu
  exact hrest a ha u b t hinv hlast ht

/-- A step between a change of the state and its undoing. -/
theorem between {enter leave : PassState → PassState} (h : p.Yields counts I P)
    (henter : ∀ s, I s → I (enter s)) (hcounts : ∀ s, counts (leave s) → counts s)
    (hleave : ∀ s, I s → I (leave s)) : (Pass.between enter leave p).Yields counts I P := by
  intro s a t hs hrun ht
  obtain ⟨u, hu, rfl⟩ := Pass.between_eq_ok hrun
  obtain ⟨ha, hinv⟩ := h _ a u (henter s hs) hu (hcounts u ht)
  exact ⟨ha, hleave u hinv⟩

end Pass.Yields

/-- What following a recipe yields that meets the needs. -/
theorem Scene.yields_follow {scene : Scene} {one : Ref → Pass Rendered} {ref : Ref}
    {block : Block Ref} {counts I : PassState → Prop} {need : Request → Prop}
    {sound : (request : Request) → request.Answer → Prop} {P : α → Prop} {recipe : Recipe α}
    (hkept : scene.Kept fun s t => counts t → counts s)
    (hone : ∀ target, (one target).Keeps fun s t => counts t → counts s)
    (hanswer : ∀ request, need request →
      (scene.answer one ref block request).Yields counts I (sound request))
    (h : recipe.Meets need sound P) : (scene.follow one ref block recipe).Yields counts I P := by
  induction recipe with
  | done result => exact .pure h
  | fail failure => exact .throw failure
  | ask request next ih =>
    exact (hanswer request h.1).bind (fun reply => hkept.follow hone ref block (next reply))
      fun reply hreply => ih reply (h.2 reply hreply)

end BlockScript
