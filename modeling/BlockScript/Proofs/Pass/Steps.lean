import BlockScript.Pass.Render

/-!
# Steps of a pass

A step of a pass is a function of the state. The lemmas here run the composed
steps one part at a time, so that later proofs follow a pass without opening its
monad. A relation between the states before and after a step is kept by a whole
rendering if it is kept by everything that changes the state.

Results:

* `Pass.bind_eq_ok`: a composed step that succeeds has two successful parts.
* `Scene.Kept.renderPlace`: a relation that all changes keep is kept by
  rendering.
-/

namespace BlockScript

namespace Pass

variable {α β : Type}

/-! ## Running composed steps -/

@[simp]
theorem pure_apply (a : α) (s : PassState) : (pure a : Pass α) s = (.ok a, s) := rfl

@[simp]
theorem throw_apply (failure : Failure) (s : PassState) :
    (throw failure : Pass α) s = (.error failure, s) := rfl

theorem bind_apply (p : Pass α) (f : α → Pass β) (s : PassState) :
    (p >>= f) s =
      match p s with
      | (.ok a, s') => f a s'
      | (.error failure, s') => (.error failure, s') := by
  show ExceptT.bindCont f (p s).1 (p s).2 = _
  obtain ⟨r, s'⟩ := p s
  cases r <;> rfl

@[simp]
theorem get_apply (s : PassState) : (get : Pass PassState) s = (.ok s, s) := rfl

@[simp]
theorem set_apply (s s' : PassState) : (set s' : Pass PUnit) s = (.ok ⟨⟩, s') := rfl

@[simp]
theorem modify_apply (f : PassState → PassState) (s : PassState) :
    (modify f : Pass PUnit) s = (.ok ⟨⟩, f s) := rfl

@[simp]
theorem ofExcept_ok (a : α) (s : PassState) : ofExcept (.ok a) s = (.ok a, s) := rfl

@[simp]
theorem ofExcept_error (failure : Failure) (s : PassState) :
    (ofExcept (.error failure) : Pass α) s = (.error failure, s) := rfl

/-- A result that is known is handed on. -/
theorem ofExcept_bind (a : α) (f : α → Pass β) : ofExcept (.ok a) >>= f = f a := by
  funext s
  rw [bind_apply, ofExcept_ok]

/-- A composed step that succeeds has two successful parts. -/
theorem bind_eq_ok {p : Pass α} {f : α → Pass β} {s s' : PassState} {b : β}
    (h : (p >>= f) s = (.ok b, s')) : ∃ a t, p s = (.ok a, t) ∧ f a t = (.ok b, s') := by
  rw [bind_apply] at h
  cases hp : p s with
  | mk r t =>
    cases r with
    | ok a =>
      rw [hp] at h
      exact ⟨a, t, rfl, h⟩
    | error failure =>
      rw [hp] at h
      cases h

theorem eq_of_toOption {p : Pass α} {s : PassState} {a : α} (h : (p s).1.toOption = some a) :
    p s = (.ok a, (p s).2) := by
  cases hrun : p s with
  | mk result t =>
    rw [hrun] at h
    cases result with
    | ok b =>
      cases h
      rfl
    | error failure => cases h

/-- A step whose result is known has a run. -/
theorem exists_of_toOption {p : Pass α} {s : PassState} {a : α}
    (h : (p s).1.toOption = some a) : ∃ b t, p s = (.ok b, t) :=
  ⟨a, (p s).2, eq_of_toOption h⟩

theorem ofExcept_eq_ok {x : Except Failure α} {s s' : PassState} {a : α}
    (h : ofExcept x s = (.ok a, s')) : x = .ok a ∧ s' = s := by
  cases x with
  | ok b =>
    cases h
    exact ⟨rfl, rfl⟩
  | error failure => cases h

theorem pure_eq_ok {a b : α} {s s' : PassState} (h : (pure a : Pass α) s = (.ok b, s')) :
    b = a ∧ s' = s := by
  cases h
  exact ⟨rfl, rfl⟩

/-- A step between a change of the state and its undoing. -/
theorem between_eq_ok {enter leave : PassState → PassState} {p : Pass α} {s s' : PassState} {a : α}
    (h : between enter leave p s = (.ok a, s')) : ∃ t, p (enter s) = (.ok a, t) ∧ s' = leave t := by
  unfold between at h
  cases hp : p (enter s) with
  | mk r t =>
    rw [hp] at h
    cases h
    exact ⟨t, rfl, rfl⟩

/-! ## Relations that steps keep -/

/-- Whether a relation holds between the states before and after a step, also if
    the step fails. -/
def Keeps (R : PassState → PassState → Prop) (p : Pass α) : Prop :=
  ∀ s, R s (p s).2

end Pass

namespace Scene

/-! ## Inversion of rendering steps -/

section Inversion

variable {scene : Scene} {one : Ref → Pass Rendered} {s t : PassState}

/-- What a value socket can be the text of. -/
theorem valueText_eq_ok {block : Block Ref} {socket : String} {tier : Tier} {strict : Bool}
    {code : String} (h : scene.valueText one block socket tier strict s = (.ok code, t)) :
    (block.valueInput socket = none ∧ code = "" ∧ t = s) ∨
      ∃ target, block.valueInput socket = some target ∧
        (one target s = (.ok (.text ""), t) ∧ code = "" ∨
          ∃ inner innerTier, one target s = (.ok (.value inner innerTier), t) ∧
            code = if inner = "" then ""
              else if innerTier.needsParens tier strict then "(" ++ inner ++ ")" else inner) := by
  unfold valueText at h
  cases hinput : block.valueInput socket with
  | none =>
    rw [hinput] at h
    exact .inl ⟨rfl, Pass.pure_eq_ok h⟩
  | some target =>
    rw [hinput] at h
    obtain ⟨rendered, u, hrendered, hrest⟩ := Pass.bind_eq_ok h
    refine .inr ⟨target, rfl, ?_⟩
    cases rendered with
    | text inner =>
      dsimp only at hrest
      split at hrest
      · next hempty =>
        obtain ⟨rfl, rfl⟩ := Pass.pure_eq_ok hrest
        exact .inl ⟨hempty ▸ hrendered, rfl⟩
      · cases hrest
    | value inner innerTier =>
      refine .inr ⟨inner, innerTier, ?_⟩
      dsimp only at hrest
      split at hrest
      · next hempty =>
        obtain ⟨rfl, rfl⟩ := Pass.pure_eq_ok hrest
        exact ⟨hrendered, (if_pos hempty).symm⟩
      · next hempty =>
        rw [if_neg hempty]
        split at hrest
        · next hparens =>
          obtain ⟨rfl, rfl⟩ := Pass.pure_eq_ok hrest
          exact ⟨hrendered, (if_pos hparens).symm⟩
        · next hparens =>
          obtain ⟨rfl, rfl⟩ := Pass.pure_eq_ok hrest
          exact ⟨hrendered, (if_neg hparens).symm⟩

/-- A place renders to a value only if its block does. -/
theorem placeCode_eq_value {place : Option Ref} {code : String} {tier : Tier}
    (h : scene.placeCode one place s = (.ok (.value code tier), t)) :
    ∃ ref, place = some ref ∧ one ref s = (.ok (.value code tier), t) := by
  cases place with
  | none => cases h
  | some ref =>
    refine ⟨ref, rfl, ?_⟩
    have hchain : ∀ {u : PassState}, (scene.chainCode one ref >>= fun code =>
        (pure (.text code) : Pass Rendered)) u ≠ (.ok (.value code tier), t) := by
      intro u hrun
      obtain ⟨text, v, -, htext⟩ := Pass.bind_eq_ok hrun
      cases htext
    unfold placeCode at h
    dsimp only at h
    cases hblock : scene.graph.block? ref with
    | none =>
      rw [hblock] at h
      cases h
    | some block =>
      rw [hblock] at h
      dsimp only at h
      split at h
      · obtain ⟨rule, u, hrule, hrest⟩ := Pass.bind_eq_ok h
        obtain ⟨-, rfl⟩ := Pass.ofExcept_eq_ok hrule
        split at hrest
        · exact hrest
        · exact absurd hrest hchain
      · exact absurd h hchain

/-- A block that may be rendered has a rule. -/
theorem permit_eq_ok {ref : Ref} {block : Block Ref} {rule : Rule}
    (h : scene.permit ref block s = (.ok rule, t)) :
    scene.rules.lookup block.type = .ok rule ∧ t = s ∧ s.active.contains ref = false := by
  unfold permit at h
  rw [Pass.bind_apply, Pass.get_apply] at h
  dsimp only at h
  split at h
  · cases h
  · next hactive =>
    split at h
    · cases h
    · obtain ⟨hlookup, rfl⟩ := Pass.ofExcept_eq_ok h
      exact ⟨hlookup, rfl, by simpa using hactive⟩

/-- What a block can render to. -/
theorem renderWithin_eq_ok {room : Nat} {ref : Ref} {rendered : Rendered}
    (h : scene.renderWithin room ref s = (.ok rendered, t)) :
    ∃ less, room = less + 1 ∧
      ((scene.graph.block? ref = none ∨
          ∃ block, scene.graph.block? ref = some block ∧ block.enabled = false) ∧
        rendered = .text "" ∧ t = s ∨
      ∃ block rule product u, scene.graph.block? ref = some block ∧ block.enabled = true ∧
        scene.rules.lookup block.type = .ok rule ∧
        scene.follow (scene.renderWithin less) ref block (rule.handler.recipe scene ref block)
          { s with depth := s.depth + 1, active := ref :: s.active } = (.ok product, u) ∧
        t = { u with depth := u.depth - 1, active := u.active.erase ref } ∧
        scene.conclude rule ref block product = .ok rendered) := by
  cases room with
  | zero => cases h
  | succ less =>
    refine ⟨less, rfl, ?_⟩
    unfold renderWithin at h
    cases hblock : scene.graph.block? ref with
    | none =>
      rw [hblock] at h
      exact .inl ⟨.inl rfl, Pass.pure_eq_ok h⟩
    | some block =>
      rw [hblock] at h
      dsimp only at h
      split at h
      · next hdisabled =>
        exact .inl ⟨.inr ⟨block, rfl, by simpa using hdisabled⟩, Pass.pure_eq_ok h⟩
      · next henabled =>
        obtain ⟨rule, u, hpermit, hrest⟩ := Pass.bind_eq_ok h
        obtain ⟨hlookup, rfl, -⟩ := permit_eq_ok hpermit
        obtain ⟨product, v, hfollow, hconclude⟩ := Pass.bind_eq_ok hrest
        obtain ⟨w, hproduct, rfl⟩ := Pass.between_eq_ok hfollow
        obtain ⟨hrendered, rfl⟩ := Pass.ofExcept_eq_ok hconclude
        exact .inr ⟨block, rule, product, w, rfl, by simpa using henabled, hlookup, hproduct, rfl,
          hrendered⟩

end Inversion

/-- Whether a relation is kept by everything that changes the state of a pass. -/
structure Kept (scene : Scene) (R : PassState → PassState → Prop) : Prop where
  refl (s : PassState) : R s s
  trans {s t u : PassState} : R s t → R t u → R s u
  entering {α : Type} (ref : Ref) {p : Pass α} (h : p.Keeps R) : (Pass.entering ref p).Keeps R
  insideLoop {α : Type} (ref : Ref) {p : Pass α} (h : p.Keeps R) :
    (Pass.insideLoop ref p).Keeps R
  nameOf (kind : NameKind) (name : String) :
    (Pass.nameOf scene.dialect.policy kind name).Keeps R
  freshName (kind : NameKind) (base : String) :
    (Pass.freshName scene.dialect.policy kind base).Keeps R
  helper (key template : String) :
    (Pass.helper scene.dialect.policy scene.indent key template).Keeps R
  define (key code : String) : (Pass.define key code).Keeps R
  markContinue : Pass.markContinue.Keeps R
  warn (warning : Warning) : (Pass.warn warning).Keeps R

namespace Kept

variable {scene : Scene} {R : PassState → PassState → Prop} {α β : Type}
  {one : Ref → Pass Rendered}

theorem pure (h : scene.Kept R) (a : α) : (Pure.pure a : Pass α).Keeps R :=
  fun s => h.refl s

theorem throw (h : scene.Kept R) (failure : Failure) :
    (MonadExcept.throw failure : Pass α).Keeps R :=
  fun s => h.refl s

theorem ofExcept (h : scene.Kept R) (x : Except Failure α) : (Pass.ofExcept x).Keeps R := by
  cases x with
  | ok a => exact h.pure a
  | error failure => exact h.throw failure

theorem bind (h : scene.Kept R) {p : Pass α} {f : α → Pass β} (hp : p.Keeps R)
    (hf : ∀ a, (f a).Keeps R) : (p >>= f).Keeps R := by
  intro s
  have hs := hp s
  rw [Pass.bind_apply]
  revert hs
  cases p s with
  | mk r t =>
    intro hs
    cases r with
    | ok a => exact h.trans hs (hf a t)
    | error failure => exact hs

/-- What follows a step goes on from where the step ends. -/
theorem bind_after (h : scene.Kept R) (p : Pass α) {f : α → Pass β} (hf : ∀ a, (f a).Keeps R)
    (s : PassState) : R (p s).2 ((p >>= f) s).2 := by
  rw [Pass.bind_apply]
  cases p s with
  | mk r t =>
    cases r with
    | ok a => exact hf a t
    | error failure => exact h.refl t

theorem get (h : scene.Kept R) : (MonadState.get : Pass PassState).Keeps R :=
  fun s => h.refl s

/-! ## Rendering -/

theorem valueText (h : scene.Kept R) (hone : ∀ ref, (one ref).Keeps R) (block : Block Ref)
    (socket : String) (tier : Tier) (strict : Bool) :
    (scene.valueText one block socket tier strict).Keeps R := by
  unfold Scene.valueText
  cases block.valueInput socket with
  | none => exact h.pure ""
  | some target =>
    refine h.bind (hone target) fun rendered => ?_
    cases rendered with
    | text code =>
      dsimp only
      split
      · exact h.pure ""
      · exact h.throw _
    | value code inner =>
      dsimp only
      split
      · exact h.pure ""
      · split
        · exact h.pure _
        · exact h.pure _

theorem chainText (h : scene.Kept R) (hone : ∀ ref, (one ref).Keeps R) (refs : List Ref) :
    (scene.chainText one refs).Keeps R := by
  induction refs with
  | nil => exact h.pure ""
  | cons ref refs ih =>
    refine h.bind (hone ref) fun rendered => ?_
    cases rendered with
    | text code => exact h.bind ih fun rest => h.pure (code ++ rest)
    | value code inner => exact h.throw _

theorem chainCode (h : scene.Kept R) (hone : ∀ ref, (one ref).Keeps R) (ref : Ref) :
    (scene.chainCode one ref).Keeps R := by
  unfold Scene.chainCode
  refine h.bind (h.chainText hone _) fun code => ?_
  split
  · exact h.pure code
  · exact h.throw _

theorem placeCode (h : scene.Kept R) (hone : ∀ ref, (one ref).Keeps R) (place : Option Ref) :
    (scene.placeCode one place).Keeps R := by
  cases place with
  | none => exact h.pure _
  | some ref =>
    have hchain : (scene.chainCode one ref >>= fun code => Pure.pure (Rendered.text code)).Keeps R :=
      h.bind (h.chainCode hone ref) fun code => h.pure _
    unfold Scene.placeCode
    dsimp only
    cases scene.graph.block? ref with
    | none => exact h.pure _
    | some block =>
      dsimp only
      split
      · refine h.bind (h.ofExcept _) fun rule => ?_
        split
        · exact hone ref
        · exact hchain
      · exact hchain

theorem bodyText (h : scene.Kept R) (hone : ∀ ref, (one ref).Keeps R) (block : Block Ref)
    (socket : String) : (scene.bodyText one block socket).Keeps R := by
  refine h.bind (h.placeCode hone _) fun rendered => ?_
  cases rendered with
  | text code => exact h.pure _
  | value code inner => exact h.throw _

theorem answer (h : scene.Kept R) (hone : ∀ ref, (one ref).Keeps R) (ref : Ref)
    (block : Block Ref) (request : Request) : (scene.answer one ref block request).Keeps R := by
  cases request with
  | value socket tier strict => exact h.valueText hone block socket tier strict
  | body socket loop =>
    cases loop with
    | true => exact h.insideLoop ref (h.bodyText hone block socket)
    | false => exact h.bodyText hone block socket
  | name kind name => exact h.nameOf kind name
  | freshName kind base => exact h.freshName kind base
  | helper key template => exact h.helper key template
  | define key code => exact h.define key code
  | enclosingLoop => exact h.bind h.get fun s => h.pure _
  | markContinue => exact h.markContinue
  | loopContinued loop => exact h.bind h.get fun s => h.pure _
  | warn warning => exact h.warn warning

theorem follow (h : scene.Kept R) (hone : ∀ ref, (one ref).Keeps R) (ref : Ref)
    (block : Block Ref) (recipe : Recipe α) : (scene.follow one ref block recipe).Keeps R := by
  induction recipe with
  | done result => exact h.pure result
  | fail failure => exact h.throw failure
  | ask request next ih => exact h.bind (h.answer hone ref block request) fun reply => ih reply

theorem permit (h : scene.Kept R) (ref : Ref) (block : Block Ref) :
    (scene.permit ref block).Keeps R := by
  refine h.bind h.get fun s => ?_
  split
  · exact h.throw _
  · split
    · exact h.throw _
    · exact h.ofExcept _

theorem renderWithin (h : scene.Kept R) (room : Nat) (ref : Ref) :
    (scene.renderWithin room ref).Keeps R := by
  induction room generalizing ref with
  | zero => exact h.throw _
  | succ room ih =>
    unfold Scene.renderWithin
    cases scene.graph.block? ref with
    | none => exact h.pure _
    | some block =>
      dsimp only
      split
      · exact h.pure _
      · refine h.bind (h.permit ref block) fun rule => ?_
        refine h.bind (h.entering ref (h.follow ih ref block _)) fun product => ?_
        exact h.ofExcept _

theorem render (h : scene.Kept R) (ref : Ref) : (scene.render ref).Keeps R :=
  h.renderWithin _ ref

/-- A relation that all changes keep is kept by rendering. -/
theorem renderPlace (h : scene.Kept R) (place : Option Ref) : (scene.renderPlace place).Keeps R :=
  h.placeCode h.render place

end Kept

end Scene

end BlockScript
