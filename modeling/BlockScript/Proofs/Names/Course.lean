import BlockScript.Proofs.Names.History
import BlockScript.Proofs.Names.Reached

/-!
# Identifiers in the course of a pass

A pass goes on from a state by requests for identifiers, and by changes that leave the
identifiers alone. A word that was once given out for no logical name is withheld: it
is never given out again, and never becomes the identifier of a logical name.

Results:

* `Scene.leads_kept`: whatever a rendering does leads to a later state.
* `Scene.Leads.extends`: a later state withholds the words that an earlier one does.
* `Scene.During.consistent`: the identifiers of a pass are consistent, also while blocks are
  being rendered.
* `NameTable.withheld_distinct`: an identifier of its own is withheld.
-/

namespace BlockScript

open BlockScript.Text

/-! ## Tables -/

namespace NameTable

variable {policy : NamePolicy} {table : NameTable} {kind : NameKind}

/-- Whether every identifier of a logical name is given out, and for that name
    alone. -/
structure Consistent (table : NameTable) : Prop where
  taken {key : NameKind × String} {word : String} (h : table.assigned.lookup key = some word) :
    word ∈ table.taken
  injective {key key' : NameKind × String} {word : String}
    (h : table.assigned.lookup key = some word) (h' : table.assigned.lookup key' = some word) :
    key = key'

/-- Whether a word is given out, but for no logical name. -/
structure Withheld (table : NameTable) (word : String) : Prop where
  taken : word ∈ table.taken
  unassigned (key : NameKind × String) : table.assigned.lookup key ≠ some word

/-- Whether a table has all that another one has given out, and withholds what that one
    does. -/
structure Extends (first second : NameTable) : Prop where
  taken : first.taken ⊆ second.taken
  assigned {key : NameKind × String} {word : String} (h : first.assigned.lookup key = some word) :
    second.assigned.lookup key = some word
  withheld {word : String} (h : first.Withheld word) : second.Withheld word
  consistent (h : first.Consistent) : second.Consistent

theorem Extends.refl (table : NameTable) : table.Extends table :=
  ⟨List.Subset.refl _, id, id, id⟩

theorem Extends.trans {first second third : NameTable} (h : first.Extends second)
    (h' : second.Extends third) : first.Extends third :=
  ⟨fun _ hword => h'.taken (h.taken hword), fun hword => h'.assigned (h.assigned hword),
    fun hword => h'.withheld (h.withheld hword), fun hfirst => h'.consistent (h.consistent hfirst)⟩

theorem consistent_empty : Consistent {} :=
  ⟨fun h => by simp at h, fun h => by simp at h⟩

/-- A new word is none that was given out. -/
theorem allocate_notTaken (policy : NamePolicy) (table : NameTable) (name : String)
    (kind : NameKind) : (table.allocate policy name kind).1 ∉ table.taken :=
  NameHistory.allocate_notMem policy table name kind

theorem extends_get (name : String) : table.Extends (table.get policy name kind).2 := by
  unfold get
  dsimp only
  cases hlookup : table.assigned.lookup (kind, lower name) with
  | some word => exact .refl table
  | none =>
    have hnew := allocate_notTaken policy table name kind
    refine ⟨List.subset_cons_self _ _, fun hold => lookup_cons_of_lookup hlookup hold,
      fun hword => ⟨List.mem_cons_of_mem _ hword.taken, fun key hkey => ?_⟩, fun htable => ?_⟩
    · rw [List.lookup_cons] at hkey
      split at hkey
      · cases hkey
        exact hnew hword.taken
      · exact hword.unassigned key hkey
    · refine ⟨fun {key word} hkey => ?_, fun {key key' word} hkey hkey' => ?_⟩
      · rw [List.lookup_cons] at hkey
        split at hkey
        · cases hkey
          exact List.mem_cons_self
        · exact List.mem_cons_of_mem _ (htable.taken hkey)
      · rw [List.lookup_cons] at hkey hkey'
        split at hkey
        · next heq =>
          cases hkey
          split at hkey'
          · next heq' => rw [eq_of_beq heq, eq_of_beq heq']
          · exact absurd (htable.taken hkey') hnew
        · split at hkey'
          · cases hkey'
            exact absurd (htable.taken hkey) hnew
          · exact htable.injective hkey hkey'

theorem extends_distinct (base : String) : table.Extends (table.distinct policy base kind).2 where
  taken := List.subset_cons_self _ _
  assigned := id
  withheld hword := ⟨List.mem_cons_of_mem _ hword.taken, hword.unassigned⟩
  consistent htable := ⟨fun h => List.mem_cons_of_mem _ (htable.taken h), htable.injective⟩

/-- An identifier of its own is a new word, which is withheld from then on. -/
theorem withheld_distinct (htable : table.Consistent) (base : String) :
    ∃ word, (table.distinct policy base kind).1 = policy.sign kind ++ word ∧
      policy.Fits kind word ∧ word ∉ table.taken ∧
      (table.distinct policy base kind).2.Withheld word := by
  have hnew := allocate_notTaken policy table base kind
  exact ⟨_, rfl, fits_allocate base, hnew, List.mem_cons_self,
    fun key hkey => hnew (htable.taken hkey)⟩

end NameTable

/-! ## Steps of a pass -/

namespace Scene

variable {scene : Scene} {s t u : PassState}

/-- A step of a pass, as far as identifiers go. -/
inductive Step (scene : Scene) : PassState → PassState → Prop where
  | unnamed {s t : PassState} (h : t.names = s.names) : Step scene s t
  | name (kind : NameKind) (name : String) (s : PassState) :
    Step scene s (Pass.nameOf scene.dialect.policy kind name s).2
  | freshName (kind : NameKind) (base : String) (s : PassState) :
    Step scene s (Pass.freshName scene.dialect.policy kind base s).2

/-- Whether a pass can go on from a state to another one. -/
def Leads (scene : Scene) : PassState → PassState → Prop :=
  Relation.ReflTransGen scene.Step

theorem leads_unnamed (h : t.names = s.names) : scene.Leads s t :=
  .single (.unnamed h)

theorem Step.extends (h : scene.Step s t) : s.names.Extends t.names := by
  cases h with
  | unnamed h =>
    rw [h]
    exact .refl _
  | name kind name => exact NameTable.extends_get name
  | freshName kind base => exact NameTable.extends_distinct base

/-- A later state has all identifiers of an earlier one, and withholds the words that
    this one does. -/
theorem Leads.extends (h : scene.Leads s t) : s.names.Extends t.names := by
  induction h with
  | refl => exact .refl _
  | tail _ hstep ih => exact ih.trans hstep.extends

theorem leads_between {α : Type} {enter leave : PassState → PassState} {p : Pass α}
    (henter : ∀ s, (enter s).names = s.names) (hleave : ∀ s, (leave s).names = s.names)
    (h : p.Keeps scene.Leads) : (Pass.between enter leave p).Keeps scene.Leads := by
  intro s
  exact ((leads_unnamed (henter s)).trans (h (enter s))).trans (leads_unnamed (hleave _))

/-- Whatever a rendering does leads to a later state. -/
theorem leads_kept (scene : Scene) : scene.Kept scene.Leads where
  refl _ := .refl
  trans h h' := h.trans h'
  entering _ _ h := leads_between (fun _ => rfl) (fun _ => rfl) h
  insideLoop _ _ h := leads_between (fun _ => rfl) (fun _ => rfl) h
  nameOf kind name s := .single (.name kind name s)
  freshName kind base s := .single (.freshName kind base s)
  helper key template s := by
    show scene.Leads s { s with
      names := (s.definitions.provide scene.dialect.policy s.names key template scene.indent).2.1
      definitions :=
        (s.definitions.provide scene.dialect.policy s.names key template scene.indent).2.2 }
    unfold Definitions.provide
    cases Json.find? s.definitions.helpers key with
    | some word => exact leads_unnamed rfl
    | none =>
      exact .tail (.single (.freshName .procedure key s)) (.unnamed rfl)
  define _ _ _ := leads_unnamed rfl
  markContinue s := by
    refine leads_unnamed ?_
    unfold Pass.markContinue
    rw [Pass.modify_apply]
    dsimp only
    split <;> rfl
  warn _ _ := leads_unnamed rfl

/-- An identifier of its own is a new word, which is withheld from then on. -/
theorem freshName_own {policy : NamePolicy} {kind : NameKind} {base text : String}
    (hs : s.names.Consistent) (hrun : Pass.freshName policy kind base s = (.ok text, t)) :
    ∃ word, text = policy.sign kind ++ word ∧ policy.Fits kind word ∧ word ∉ s.names.taken ∧
      t.names.Withheld word := by
  cases hrun
  exact NameTable.withheld_distinct hs base

/-- The identifiers of a pass are consistent. -/
theorem Reached.consistent (h : scene.Reached s) : s.names.Consistent := by
  have hkept := scene.leads_kept
  induction h with
  | start => exact NameTable.consistent_empty
  | reserved _ ih => exact (Leads.extends (hkept.reserveNames _)).consistent ih
  | rendered _ ref ih => exact (Leads.extends (hkept.render ref _)).consistent ih
  | place _ place ih => exact (Leads.extends (hkept.renderPlace place _)).consistent ih
  | value _ block socket tier strict ih =>
    exact (Leads.extends (hkept.valueText hkept.render block socket tier strict _)).consistent ih
  | body _ block socket ih =>
    exact (Leads.extends (hkept.bodyText hkept.render block socket _)).consistent ih
  | name _ kind name ih => exact (Leads.extends (hkept.nameOf kind name _)).consistent ih
  | freshName _ kind base ih => exact (Leads.extends (hkept.freshName kind base _)).consistent ih
  | helper _ key template ih => exact (Leads.extends (hkept.helper key template _)).consistent ih
  | defined _ key code ih => exact ih
  | enteredLoop _ loop ih => exact ih
  | @leftLoop s _ ih =>
    have hnames : (Pass.leaveLoop s).2.names = s.names := by
      unfold Pass.leaveLoop
      rw [Pass.bind_apply, Pass.get_apply]
      dsimp only
      cases s.loops <;> rfl
    rw [hnames]
    exact ih
  | continued _ ih => exact (Leads.extends (hkept.markContinue _)).consistent ih
  | reset _ _ => exact NameTable.consistent_empty

/-! ## While blocks are being rendered -/

/-- The states that a pass over a scene can be in, those inside blocks that are being
    rendered included: the rule of a block makes its requests one after the other. -/
inductive During (scene : Scene) : PassState → Prop where
  | reached {s : PassState} (h : scene.Reached s) : During scene s
  | entered {s : PassState} (h : During scene s) (ref : Ref) :
    During scene { s with depth := s.depth + 1, active := ref :: s.active }
  | enteredLoop {s : PassState} (h : During scene s) (loop : Ref) :
    During scene { s with loops := loop :: s.loops }
  | answered {s : PassState} (h : During scene s) (room : Nat) (ref : Ref) (block : Block Ref)
    (request : Request) :
    During scene (scene.answer (scene.renderWithin room) ref block request s).2
  | rendered {s : PassState} (h : During scene s) (room : Nat) (ref : Ref) :
    During scene (scene.renderWithin room ref s).2

/-- The identifiers of a pass fit the language, also while blocks are being rendered. -/
theorem During.named (h : scene.During s) : s.Named scene.dialect.policy := by
  have hkept := scene.named_kept
  induction h with
  | reached h => exact h.named
  | entered _ ref ih => exact ⟨ih.assigned, ih.helpers⟩
  | enteredLoop _ loop ih => exact ⟨ih.assigned, ih.helpers⟩
  | answered _ room ref block request ih =>
    exact (hkept.answer (hkept.renderWithin room) ref block request _).named ih
  | rendered _ room ref ih => exact (hkept.renderWithin room ref _).named ih

/-- The identifiers of a pass are consistent, also while blocks are being rendered. -/
theorem During.consistent (h : scene.During s) : s.names.Consistent := by
  have hkept := scene.leads_kept
  induction h with
  | reached h => exact h.consistent
  | entered _ ref ih => exact ih
  | enteredLoop _ loop ih => exact ih
  | answered _ room ref block request ih =>
    exact (Leads.extends (hkept.answer (hkept.renderWithin room) ref block request _)).consistent ih
  | rendered _ room ref ih =>
    exact (Leads.extends (hkept.renderWithin room ref _)).consistent ih

end Scene

end BlockScript
