import BlockScript.Proofs.Code.Rendering
import BlockScript.Proofs.Counting.Assigned
import BlockScript.Proofs.Names.Used

/-!
# Reserved names

A pass starts by reserving the names of the workspace: its variables, the developer's
variables, and its procedures. From then on each of these names has its identifier, and
whoever asks for it gets the same one.

Results:

* `Scene.reserveNames_spec`: what is reserved, and what is defined with it.
* `Scene.nameOf_of_reserves`: a reserved name has its identifier in every later state.
* `Scene.Reserves.injective`: two names with one identifier differ in case only.
-/

namespace BlockScript

open BlockScript.Text

namespace Scene

variable {scene : Scene} {kind kind' : NameKind} {name name' text : String} {s t : PassState}

/-- The state of a pass once the names of the workspace are reserved. -/
def reserved (scene : Scene) : PassState :=
  (scene.reserveNames {}).2

/-- Whether a text is the identifier that is reserved for a logical name. -/
def Reserves (scene : Scene) (kind : NameKind) (name text : String) : Prop :=
  scene.reserved.identifier? scene.dialect.policy kind name = some text

/-! ## Identifiers of reserved names -/

/-- What a request for a name gives, and that the name has this identifier then. -/
theorem identifier?_of_nameOf (h : Pass.nameOf scene.dialect.policy kind name s = (.ok text, t)) :
    t.identifier? scene.dialect.policy kind name = some text := by
  rw [identifier?_eq_some]
  cases h
  cases hlookup : s.names.assigned.lookup (kind, lower name) with
  | some word => exact ⟨word, hlookup, rfl⟩
  | none => exact ⟨_, List.lookup_cons_self, rfl⟩

/-- An identifier stays in every later state. -/
theorem Leads.identifier? (h : scene.Leads s t)
    (htext : s.identifier? scene.dialect.policy kind name = some text) :
    t.identifier? scene.dialect.policy kind name = some text := by
  obtain ⟨word, hlookup, rfl⟩ := identifier?_eq_some.mp htext
  exact identifier?_eq_some.mpr ⟨word, h.extends.assigned hlookup, rfl⟩

/-- Asking for a name that has an identifier changes nothing. -/
theorem nameOf_of_identifier?
    (h : s.identifier? scene.dialect.policy kind name = some text) :
    Pass.nameOf scene.dialect.policy kind name s = (.ok text, s) := by
  obtain ⟨word, hlookup, rfl⟩ := identifier?_eq_some.mp h
  have hget : s.names.get scene.dialect.policy name kind =
      (scene.dialect.policy.sign kind ++ word, s.names) := by
    simp only [NameTable.get, hlookup]
  show (Except.ok (s.names.get scene.dialect.policy name kind).1,
    { s with names := (s.names.get scene.dialect.policy name kind).2 }) = _
  rw [hget]

/-- A reserved name has its identifier in every later state of the pass. -/
theorem nameOf_of_reserves (h : scene.Reserves kind name text)
    (hs : scene.Leads scene.reserved s) :
    Pass.nameOf scene.dialect.policy kind name s = (.ok text, s) :=
  nameOf_of_identifier? (hs.identifier? h)

/-- Whether a pass gives an identifier whenever it is asked for a name, once the names of
    the workspace are reserved. -/
def AlwaysGives (scene : Scene) (kind : NameKind) (name text : String) : Prop :=
  ∀ later, scene.Leads scene.reserved later →
    Pass.nameOf scene.dialect.policy kind name later = (.ok text, later)

theorem Reserves.alwaysGives (h : scene.Reserves kind name text) :
    scene.AlwaysGives kind name text :=
  fun _ hlater => nameOf_of_reserves h hlater

/-- Names that differ in case only have one identifier. -/
theorem Reserves.of_lower (h : scene.Reserves kind name text) (hlower : lower name' = lower name) :
    scene.Reserves kind name' text := by
  unfold Reserves PassState.identifier? at h ⊢
  rwa [hlower]

theorem leads_reserved (scene : Scene) : scene.Leads {} scene.reserved :=
  scene.leads_kept.reserveNames {}

/-- Two variables with one identifier are of one kind, and differ in case only. -/
theorem Reserves.injective (h : scene.Reserves kind name text)
    (h' : scene.Reserves kind' name' text)
    (hsign : scene.dialect.policy.sign kind = scene.dialect.policy.sign kind') :
    kind = kind' ∧ lower name = lower name' := by
  obtain ⟨word, hlookup, htext⟩ := identifier?_eq_some.mp h
  obtain ⟨word', hlookup', htext'⟩ := identifier?_eq_some.mp h'
  have hwords : word = word' := by
    have heq := htext.trans htext'.symm
    rw [hsign, ← String.toList_inj, String.toList_append, String.toList_append] at heq
    exact String.toList_inj.mp (List.append_cancel_left heq)
  have hconsistent : scene.reserved.names.Consistent :=
    scene.leads_reserved.extends.consistent NameTable.consistent_empty
  exact Prod.mk.inj (hconsistent.injective hlookup (hwords ▸ hlookup'))

/-! ## Reserving -/

/-- What reserving names gives. -/
theorem reserve_spec {names texts : List String}
    (hrun : scene.reserve kind names s = (.ok texts, t)) :
    List.Forall₂ (fun name text => t.identifier? scene.dialect.policy kind name = some text)
      names texts := by
  induction names generalizing s texts with
  | nil =>
    obtain ⟨rfl, -⟩ := Pass.pure_eq_ok hrun
    exact .nil
  | cons name names ih =>
    obtain ⟨text, u, hname, hrest⟩ := Pass.bind_eq_ok hrun
    obtain ⟨others, v, hothers, hdone⟩ := Pass.bind_eq_ok hrest
    obtain ⟨rfl, rfl⟩ := Pass.pure_eq_ok hdone
    have hlater : scene.Leads u t := Kept.of_run (scene.leads_kept.reserve kind names) hothers
    exact .cons (hlater.identifier? (identifier?_of_nameOf hname)) (ih hothers)

/-- The definitions that come with reserving: that of the variables, in a language that
    initialises them. -/
def initialEntries (scene : Scene) (names : List String) : List (String × String) :=
  match scene.dialect.initialValue with
  | none => []
  | some value => if names.isEmpty then [] else [(variablesKey, initialLines value names)]

/-- What is reserved of the variables, and what is defined with it. -/
structure VariablesReserved (scene : Scene) (used names developer : List String) : Prop where
  usedVariables : scene.workspace.usedVariables = .ok used
  named : List.Forall₂ (scene.Reserves .variable) used names
  developerVariables : List.Forall₂ (scene.Reserves .developerVariable)
    scene.workspace.developerVariables developer
  entries : scene.reserved.definitions.entries = scene.initialEntries (developer ++ names)

/-- Giving out identifiers leaves the definitions alone. -/
theorem preserves_definitions_nameOf (definitions : Definitions) (kind : NameKind)
    (name : String) : (Pass.nameOf scene.dialect.policy kind name).Preserves
      fun state => state.definitions = definitions := by
  intro s text t hs hrun
  cases hrun
  exact hs

theorem preserves_definitions_reserve (definitions : Definitions) (kind : NameKind)
    (names : List String) :
    (scene.reserve kind names).Preserves fun state => state.definitions = definitions := by
  induction names with
  | nil => exact .pure _
  | cons name names ih =>
    exact (preserves_definitions_nameOf definitions kind name).bind fun _ => ih.bind fun _ =>
      .pure _

theorem preserves_definitions_reserveDefined (definitions : Definitions) (names : List Scalar) :
    (scene.reserveDefined names).Preserves fun state => state.definitions = definitions := by
  induction names with
  | nil => exact .pure _
  | cons name names ih =>
    cases name with
    | text content =>
      exact (preserves_definitions_nameOf definitions .procedure content).bind fun _ => ih
    | _ => exact .throw _

/-- What is reserved, if that succeeds, and what is defined with it. -/
theorem reserveNames_spec (hrun : scene.reserveNames {} = (.ok (), s)) :
    s = scene.reserved ∧ ∃ used names developer, scene.VariablesReserved used names developer := by
  have hreserved : s = scene.reserved := by
    rw [reserved, hrun]
  refine ⟨hreserved, ?_⟩
  obtain ⟨used, a, hused, hrest⟩ := Pass.bind_eq_ok hrun
  obtain ⟨hlisted, rfl⟩ := Pass.ofExcept_eq_ok hused
  obtain ⟨names, b, hnames, hrest⟩ := Pass.bind_eq_ok hrest
  obtain ⟨developer, c, hdeveloper, hrest⟩ := Pass.bind_eq_ok hrest
  obtain ⟨_, d, hdefined, hset⟩ := Pass.bind_eq_ok hrest
  have hb := preserves_definitions_reserve {} .variable used _ _ _ rfl hnames
  have hc := preserves_definitions_reserve {} .developerVariable _ _ _ _ hb hdeveloper
  have hd := preserves_definitions_reserveDefined {} _ _ _ _ hc hdefined
  have hkept := scene.leads_kept
  have hbc : scene.Leads b c := Kept.of_run (hkept.reserve .developerVariable _) hdeveloper
  have hcd : scene.Leads c d := Kept.of_run (hkept.reserveDefined _) hdefined
  -- What is defined at the end leaves the identifiers alone.
  have hset' : s.names = d.names ∧
      s.definitions.entries = scene.initialEntries (developer ++ names) := by
    unfold initialEntries
    cases hinitial : scene.dialect.initialValue with
    | none =>
      rw [hinitial] at hset
      obtain ⟨-, rfl⟩ := Pass.pure_eq_ok hset
      exact ⟨rfl, by rw [hd]⟩
    | some value =>
      rw [hinitial] at hset
      dsimp only at hset ⊢
      split at hset
      · next hnone =>
        obtain ⟨-, rfl⟩ := Pass.pure_eq_ok hset
        exact ⟨rfl, by rw [hd, if_pos hnone]⟩
      · next hsome =>
        cases hset
        refine ⟨rfl, ?_⟩
        rw [if_neg hsome]
        show Json.insert d.definitions.entries _ _ = _
        rw [hd]
        rfl
  have hds : scene.Leads d s := leads_unnamed hset'.1
  have hcs : scene.Leads c s := hcd.trans hds
  have hbs : scene.Leads b s := hbc.trans hcs
  refine ⟨used, names, developer, ?_, ?_, ?_, hreserved ▸ hset'.2⟩
  · unfold usedVariables at hlisted
    split at hlisted <;> cases hlisted
    assumption
  · refine (reserve_spec hnames).imp fun name text h => ?_
    unfold Reserves
    exact hreserved ▸ hbs.identifier? h
  · refine (reserve_spec hdeveloper).imp fun name text h => ?_
    unfold Reserves
    exact hreserved ▸ hcs.identifier? h

end Scene

end BlockScript
