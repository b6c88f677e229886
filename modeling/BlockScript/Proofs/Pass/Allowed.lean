import BlockScript.Proofs.Code.Rendering
import BlockScript.Proofs.Recipe.Asks

/-!
# Properties that a pass keeps

A property of the state is kept by every rendering if it is kept by what recipes do of
their own: the recipes ask for nothing else, and what they ask to be rendered are blocks
of the workspace.

The definitions that a pass starts with stay ahead of all others, as recipes define
imports, helpers and procedures only.

Results:

* `Scene.Allows.renderWithin`: a property that recipes keep is kept by rendering.
* `Scene.allows_startsWith`: the definition of the variables stays in its place.
-/

namespace BlockScript

open BlockScript.Text

namespace Scene

variable {scene : Scene} {language : Language} {I : PassState → Prop} {ref : Ref}
  {block : Block Ref} {one : Ref → Pass Rendered} {form : BlockForm}

/-- Whether a property of the state is kept by all that recipes do of their own. It is
    about identifiers and definitions. -/
structure Allows (scene : Scene) (I : PassState → Prop) : Prop extends scene.Tolerates I where
  procedure (key code : String) (h : isProcedureKey key = true) : (Pass.define key code).Preserves I
  quiet {s t : PassState} (hs : I s) (hnames : t.names = s.names)
    (hdefinitions : t.definitions = s.definitions) : I t

theorem Allows.insideLoop (h : scene.Allows I) {α : Type} {p : Pass α} (hp : p.Preserves I) :
    (Pass.insideLoop ref p).Preserves I := by
  intro s a t hs hrun
  obtain ⟨u, hu, rfl⟩ := Pass.between_eq_ok hrun
  have hentered : I { s with loops := ref :: s.loops } := h.quiet hs rfl rfl
  exact h.quiet (hp _ _ _ hentered hu) rfl rfl

/-- A request that the recipe for a block can come to. -/
theorem Allows.answer (h : scene.Allows I) (hone : scene.AllPreserve I one)
    (hplaced : scene.Placed ref) (hblock : scene.graph.block? ref = some block)
    {request : Request} (hrequest : request.AskedFor scene ref block form) :
    (scene.answer one ref block request).Preserves I := by
  have hvalue : ∀ socket tier strict, (scene.valueText one block socket tier strict).Preserves I :=
    fun socket tier strict =>
      preserves_valueText hone (fun _ hinput => hplaced.value hblock hinput) tier strict
  have hbody : ∀ socket, (scene.bodyText one block socket).Preserves I :=
    fun socket => preserves_bodyText hone (hplaced.body hblock)
  by_cases hmodest : request.Modest scene.dialect
  · exact h.toTolerates.answer hvalue hbody (fun socket _ => h.insideLoop (hbody socket)) hmodest
  · cases request with
    | define key code => exact h.procedure key code (hrequest.resolve_left hmodest)
    | helper key template => exact absurd hrequest hmodest
    | _ => exact absurd trivial hmodest

/-- A property that recipes keep is kept by rendering. -/
theorem Allows.renderWithin (h : scene.Allows I) (hspeaks : scene.Speaks language) (room : Nat) :
    scene.AllPreserve I (scene.renderWithin room) := by
  induction room with
  | zero =>
    intro ref _ s a t _ hrun
    cases hrun
  | succ room ih =>
    intro ref hplaced
    refine hspeaks.preserves_renderWithin (fun hs => h.quiet hs rfl rfl)
      (fun hs => h.quiet hs rfl rfl) fun block rule form hblock _ _ _ => ?_
    exact preserves_follow_of_only (fun request hrequest => h.answer ih hplaced hblock hrequest)
      (form.recipe_asks scene ref block)

/-- A property that recipes keep is kept by rendering the top blocks. -/
theorem Allows.topTexts (h : scene.Allows I) (hspeaks : scene.Speaks language) :
    (scene.topTexts scene.workspace.tops).Preserves I :=
  preserves_topTexts (h.renderWithin hspeaks _) fun ref hmem => ⟨ref, hmem, .refl⟩

/-! ## The definitions that stand first -/

/-- Whether definitions start with those of a list, and have none of a key but there. -/
def StartsWith (first : List (String × String)) (key : String) (entries : List (String × String)) :
    Prop :=
  ∃ rest, entries = first ++ rest ∧ ∀ entry ∈ rest, entry.1 ≠ key

variable {first entries : List (String × String)} {key other code : String}

theorem insert_append (h : ∀ entry ∈ first, entry.1 ≠ other) (rest : List (String × String)) :
    Json.insert (first ++ rest) other code = first ++ Json.insert rest other code := by
  induction first with
  | nil => rfl
  | cons entry first ih =>
    rw [List.cons_append, Json.insert, if_neg (h entry List.mem_cons_self),
      ih fun entry hentry => h entry (List.mem_cons_of_mem _ hentry)]
    rfl

/-- A definition under another key is set behind those that stand first. -/
theorem StartsWith.insert (h : StartsWith first key entries)
    (hfirst : ∀ entry ∈ first, entry.1 = key) (hne : other ≠ key) :
    StartsWith first key (Json.insert entries other code) := by
  obtain ⟨rest, rfl, hrest⟩ := h
  refine ⟨Json.insert rest other code,
    insert_append (fun entry hentry heq => hne (heq.symm.trans (hfirst entry hentry))) rest,
    fun entry hentry => ?_⟩
  rcases mem_insert hentry with hold | rfl
  · exact hrest entry hold
  · exact hne

/-- No recipe defines the variables. -/
theorem ne_variablesKey_of_askedFor (hlanguage : scene.dialect = language.dialect)
    (h : startsWith Recipe.importKey key = true ∨ scene.dialect.HasHelper key ∨
      isProcedureKey key = true) : key ≠ variablesKey := by
  rintro rfl
  rcases h with himport | hhelper | hprocedure
  · exact absurd himport (by decide)
  · rw [hlanguage] at hhelper
    rcases hhelper with hkey | ⟨op, helper, hhelper, hkey⟩ | ⟨helper, hhelper, hkey⟩
    · revert hkey
      cases language <;> decide
    · revert hkey
      cases language <;> cases op <;> first | cases hhelper; decide | cases hhelper
    · revert hkey
      cases language <;> first | cases hhelper; decide | cases hhelper
  · exact absurd hprocedure (by decide)

/-- The definition of the variables stays in its place. -/
theorem allows_startsWith (hlanguage : scene.dialect = language.dialect)
    (hfirst : ∀ entry ∈ first, entry.1 = variablesKey) :
    scene.Allows fun state => StartsWith first variablesKey state.definitions.entries where
  nameOf kind name s text t hs hrun := by
    cases hrun
    exact hs
  freshName kind base s text t hs hrun := by
    cases hrun
    exact hs
  helper key template hhelper s text t hs hrun := by
    cases hrun
    show StartsWith first variablesKey
      (s.definitions.provide scene.dialect.policy s.names key template scene.indent).2.2.entries
    unfold Definitions.provide
    cases Json.find? s.definitions.helpers key with
    | some name => exact hs
    | none => exact hs.insert hfirst (ne_variablesKey_of_askedFor hlanguage (.inr (.inl hhelper)))
  define key code himport s text t hs hrun := by
    cases hrun
    exact hs.insert hfirst (ne_variablesKey_of_askedFor hlanguage (.inl himport))
  markContinue s text t hs hrun := by
    cases hrun
    dsimp only
    split <;> exact hs
  warn warning s text t hs hrun := by
    cases hrun
    exact hs
  procedure key code hprocedure s text t hs hrun := by
    cases hrun
    exact hs.insert hfirst (ne_variablesKey_of_askedFor hlanguage (.inr (.inr hprocedure)))
  quiet hs _ hdefinitions := hdefinitions ▸ hs

end Scene

end BlockScript
