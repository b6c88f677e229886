import BlockScript.Proofs.Names.Pass

/-!
# Following recipes

A recipe that is followed with success comes from request to request, and each of
them is answered with success. The lemmas here take a composed recipe apart, and
tell what a step leaves as it was.

Results:

* `Scene.follow_bind_eq_ok`: a composed recipe that has a result has two parts that
  do.
* `Scene.later_kept`: the loops around a place are the same again after a step.
-/

namespace BlockScript

/-- Whether a state is a later one at the same place: identifiers stay and fit the
    language, the loops are those that were around the place, and those with a jump
    to their next round go on to have one. -/
structure Later (policy : NamePolicy) (first second : PassState) : Prop where
  names : KeepsNames policy first second
  loops : second.loops = first.loops
  continued : first.continued ⊆ second.continued

/-- A rule that is looked up is there. -/
theorem RuleTable.find?_of_lookup {table : RuleTable} {type : String} {rule : Rule}
    (h : table.lookup type = .ok rule) : table.find? type = some rule := by
  unfold lookup at h
  split at h
  · next found => simpa [found] using h
  · cases h

namespace Scene

variable {scene : Scene} {α β : Type} {one : Ref → Pass Rendered} {ref : Ref} {block : Block Ref}
  {s t : PassState}

/-! ## Composed recipes -/

theorem follow_bind (recipe : Recipe α) (next : α → Recipe β) :
    scene.follow one ref block (recipe >>= next) =
      scene.follow one ref block recipe >>= fun a => scene.follow one ref block (next a) := by
  show scene.follow one ref block (Recipe.andThen recipe next) = _
  induction recipe with
  | done result =>
    funext s
    rfl
  | fail failure =>
    funext s
    rfl
  | ask request rest ih =>
    funext s
    simp only [Recipe.andThen, follow, Pass.bind_apply, ih]
    cases scene.answer one ref block request s with
    | mk r t => cases r <;> rfl

/-- A composed recipe that has a result has two parts that do. -/
theorem follow_bind_eq_ok {recipe : Recipe α} {next : α → Recipe β} {b : β}
    (h : scene.follow one ref block (recipe >>= next) s = (.ok b, t)) :
    ∃ a u, scene.follow one ref block recipe s = (.ok a, u) ∧
      scene.follow one ref block (next a) u = (.ok b, t) := by
  rw [follow_bind] at h
  exact Pass.bind_eq_ok h

theorem follow_pure_eq_ok {a b : α}
    (h : scene.follow one ref block (pure a : Recipe α) s = (.ok b, t)) : b = a ∧ t = s :=
  Pass.pure_eq_ok h

theorem follow_ofExcept_eq_ok {x : Except Failure α} {a : α}
    (h : scene.follow one ref block (.ofExcept x) s = (.ok a, t)) : x = .ok a ∧ t = s := by
  cases x with
  | ok b =>
    cases h
    exact ⟨rfl, rfl⟩
  | error failure => cases h

/-- A single request. -/
theorem follow_ask (request : Request) :
    scene.follow one ref block (.ask request .done) = scene.answer one ref block request := by
  funext s
  simp only [follow, Pass.bind_apply]
  cases scene.answer one ref block request s with
  | mk r t => cases r <;> rfl

/-! ## Later states -/

theorem later_of_eq {policy : NamePolicy} (hnames : KeepsNames policy s t)
    (hloops : t.loops = s.loops) (hcontinued : t.continued = s.continued) : Later policy s t :=
  ⟨hnames, hloops, fun _ h => hcontinued ▸ h⟩

/-- The loops around a place are the same again after a step. -/
theorem later_kept (scene : Scene) : scene.Kept (Later scene.dialect.policy) where
  refl s := later_of_eq (scene.named_kept.refl s) rfl rfl
  trans h h' := ⟨h.names.trans h'.names, h'.loops.trans h.loops,
    fun _ hmem => h'.continued (h.continued hmem)⟩
  entering ref p h s := by
    have hinside := h { s with depth := s.depth + 1, active := ref :: s.active }
    exact ⟨scene.named_kept.entering ref (fun u => (h u).names) s, hinside.loops,
      hinside.continued⟩
  insideLoop ref p h s := by
    have hinside := h { s with loops := ref :: s.loops }
    refine ⟨scene.named_kept.insideLoop ref (fun u => (h u).names) s, ?_, hinside.continued⟩
    show (p _).2.loops.tail = s.loops
    rw [hinside.loops]
    rfl
  nameOf kind name s := later_of_eq (scene.named_kept.nameOf kind name s) rfl rfl
  freshName kind base s := later_of_eq (scene.named_kept.freshName kind base s) rfl rfl
  helper key template s := later_of_eq (scene.named_kept.helper key template s) rfl rfl
  define key code s := later_of_eq (scene.named_kept.define key code s) rfl rfl
  markContinue s := by
    have hnames := scene.named_kept.markContinue s
    unfold Pass.markContinue at hnames ⊢
    rw [Pass.modify_apply] at hnames ⊢
    dsimp only at hnames ⊢
    refine ⟨hnames, ?_, ?_⟩
    · split <;> rfl
    · split
      · exact List.Subset.refl _
      · exact List.subset_cons_self _ _
  warn warning s := later_of_eq (scene.named_kept.warn warning s) rfl rfl

/-- What a successful step keeps. -/
theorem Kept.of_run {R : PassState → PassState → Prop} {p : Pass α} {a : α} (h : p.Keeps R)
    (hrun : p s = (.ok a, t)) : R s t := by
  have hs := h s
  rwa [hrun] at hs

/-- Following a recipe leads to a later state at the same place. -/
theorem later_of_follow {room : Nat} {recipe : Recipe α} {a : α}
    (hrun : scene.follow (scene.renderWithin room) ref block recipe s = (.ok a, t)) :
    Later scene.dialect.policy s t :=
  Kept.of_run ((later_kept scene).follow ((later_kept scene).renderWithin room) ref block recipe)
    hrun

end Scene

end BlockScript
