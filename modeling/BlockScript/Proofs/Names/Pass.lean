import BlockScript.Proofs.Names.Allocation
import BlockScript.Proofs.Pass.Steps

/-!
# Identifiers during a pass

The identifiers that a pass has given out stay as they are, and each of them
fits the language: it is a word of its own that is not reserved.

Results:

* `Scene.named_kept`: every step of a rendering keeps this.
-/

namespace BlockScript

open BlockScript.Text

/-- Whether a word is an identifier that a language does not reserve, in any case
    if its kind ignores case. -/
structure NamePolicy.Fits (policy : NamePolicy) (kind : NameKind) (word : String) : Prop where
  identifier : IsIdentifier word
  notReserved : word ∉ policy.reserved
  notFolded : kind ∈ policy.caseInsensitive → ∀ reserved ∈ policy.reserved,
    lower reserved ≠ lower word

/-- Whether all identifiers given out fit the language. -/
structure PassState.Named (policy : NamePolicy) (state : PassState) : Prop where
  assigned {kind : NameKind} {name word : String}
    (h : state.names.assigned.lookup (kind, name) = some word) : policy.Fits kind word
  helpers {key word : String} (h : Json.find? state.definitions.helpers key = some word) :
    policy.Fits .procedure word

/-- Whether the identifiers of a first state are those of a second one too. -/
structure PassState.Grows (first second : PassState) : Prop where
  assigned {key : NameKind × String} {word : String}
    (h : first.names.assigned.lookup key = some word) :
    second.names.assigned.lookup key = some word
  helpers {key word : String} (h : Json.find? first.definitions.helpers key = some word) :
    Json.find? second.definitions.helpers key = some word

/-- Whether identifiers go on to fit the language, and stay. -/
structure KeepsNames (policy : NamePolicy) (first second : PassState) : Prop where
  named (h : first.Named policy) : second.Named policy
  grows : first.Grows second

variable {policy : NamePolicy} {kind : NameKind}

theorem PassState.Grows.trans {s t u : PassState} (h : s.Grows t) (h' : t.Grows u) : s.Grows u where
  assigned hs := h'.assigned (h.assigned hs)
  helpers hs := h'.helpers (h.helpers hs)

/-- A state without identifiers. -/
theorem PassState.named_empty : PassState.Named policy {} where
  assigned h := by simp at h
  helpers h := by simp [Json.find?] at h

/-- Names and helpers are all that counts. -/
theorem keepsNames_of_eq {s t : PassState} (hnames : t.names.assigned = s.names.assigned)
    (hhelpers : t.definitions.helpers = s.definitions.helpers) : KeepsNames policy s t where
  named h := ⟨fun ht => h.assigned (hnames ▸ ht), fun ht => h.helpers (hhelpers ▸ ht)⟩
  grows := ⟨fun hs => hnames ▸ hs, fun hs => hhelpers ▸ hs⟩

theorem KeepsNames.trans {s t u : PassState} (h : KeepsNames policy s t)
    (h' : KeepsNames policy t u) : KeepsNames policy s u where
  named hs := h'.named (h.named hs)
  grows := h.grows.trans h'.grows

/-! ## New identifiers -/

/-- An identifier given out fits the language. -/
theorem NameTable.fits_allocate {table : NameTable} (name : String) :
    policy.Fits kind (table.allocate policy name kind).1 := by
  have hfree := clashes_allocate policy table name kind
  simp only [clashes, avoided, Bool.or_eq_false_iff, Bool.and_eq_false_iff, List.contains_eq_mem,
    decide_eq_false_iff_not, List.any_eq_false, decide_eq_true_eq, List.mem_append] at hfree
  refine ⟨isIdentifier_allocate policy table name kind, fun hmem => hfree.1 (.inr hmem), fun hkind word hword heq => ?_⟩
  rcases hfree.2 with hno | hnone
  · exact hno hkind
  · exact hnone word (.inr hword) heq

@[simp]
theorem NameTable.assigned_allocate {table : NameTable} (name : String) :
    (table.allocate policy name kind).2.assigned = table.assigned := rfl

theorem lookup_cons_of_lookup {α β : Type} [BEq α] [LawfulBEq α] {entries : List (α × β)}
    {key key' : α} {value value' : β} (hnone : entries.lookup key = none)
    (h : entries.lookup key' = some value') :
    ((key, value) :: entries).lookup key' = some value' := by
  rw [List.lookup_cons]
  split
  · next heq =>
    obtain rfl := eq_of_beq heq
    rw [hnone] at h
    cases h
  · exact h

theorem find?_insert {α : Type} (members : List (String × α)) (key other : String) (value : α) :
    Json.find? (Json.insert members key value) other =
      if key = other then some value else Json.find? members other := by
  induction members with
  | nil => by_cases h : key = other <;> simp [Json.insert, Json.find?, h]
  | cons member rest ih =>
    unfold Json.insert
    unfold Json.find? at ih ⊢
    by_cases hm : member.1 = key
    · by_cases h : key = other <;> simp [hm, h]
    · rw [if_neg hm, List.find?_cons, List.find?_cons]
      by_cases h : member.1 = other
      · have : key ≠ other := fun heq => hm (heq ▸ h)
        simp [h, this]
      · simpa [h] using ih

/-! ## The steps of a rendering -/

theorem keepsNames_nameOf (name : String) :
    (Pass.nameOf policy kind name).Keeps (KeepsNames policy) := by
  intro s
  show KeepsNames policy s { s with names := (s.names.get policy name kind).2 }
  unfold NameTable.get
  dsimp only
  cases hlookup : s.names.assigned.lookup (kind, lower name) with
  | some word => exact keepsNames_of_eq rfl rfl
  | none =>
    refine ⟨fun hs => ⟨fun {kind' name' word} h => ?_, hs.helpers⟩, ⟨fun h => ?_, id⟩⟩
    · rw [NameTable.assigned_allocate, List.lookup_cons] at h
      split at h
      · next heq =>
        obtain ⟨rfl, -⟩ := Prod.mk.inj (eq_of_beq heq)
        cases h
        exact NameTable.fits_allocate name
      · exact hs.assigned h
    · exact lookup_cons_of_lookup hlookup h

theorem keepsNames_freshName (base : String) :
    (Pass.freshName policy kind base).Keeps (KeepsNames policy) :=
  fun _ => keepsNames_of_eq rfl rfl

theorem keepsNames_helper (unit key template : String) :
    (Pass.helper policy unit key template).Keeps (KeepsNames policy) := by
  intro s
  show KeepsNames policy s { s with
    names := (s.definitions.provide policy s.names key template unit).2.1
    definitions := (s.definitions.provide policy s.names key template unit).2.2 }
  unfold Definitions.provide
  cases hfind : Json.find? s.definitions.helpers key with
  | some word => exact keepsNames_of_eq rfl rfl
  | none =>
    refine ⟨fun hs => ⟨hs.assigned, fun {key' word} h => ?_⟩, ⟨id, fun {key' word} h => ?_⟩⟩
    · change Json.find? (Json.insert s.definitions.helpers key _) key' = some word at h
      rw [find?_insert] at h
      split at h
      · cases h
        exact NameTable.fits_allocate key
      · exact hs.helpers h
    · change Json.find? (Json.insert s.definitions.helpers key _) key' = some word
      have hne : key ≠ key' := by
        rintro rfl
        rw [hfind] at h
        cases h
      rw [find?_insert, if_neg hne]
      exact h

theorem keepsNames_between {α : Type} {enter leave : PassState → PassState} {p : Pass α}
    (henter : ∀ s, KeepsNames policy s (enter s)) (hleave : ∀ s, KeepsNames policy s (leave s))
    (h : p.Keeps (KeepsNames policy)) :
    (Pass.between enter leave p).Keeps (KeepsNames policy) := by
  intro s
  exact ((henter s).trans (h (enter s))).trans (hleave _)

/-- Every step of a rendering keeps the identifiers. -/
theorem Scene.named_kept (scene : Scene) : scene.Kept (KeepsNames scene.dialect.policy) where
  refl s := keepsNames_of_eq rfl rfl
  trans h h' := h.trans h'
  entering ref _ h := keepsNames_between (fun _ => keepsNames_of_eq rfl rfl)
    (fun _ => keepsNames_of_eq rfl rfl) h
  insideLoop ref _ h := keepsNames_between (fun _ => keepsNames_of_eq rfl rfl)
    (fun _ => keepsNames_of_eq rfl rfl) h
  nameOf kind name := keepsNames_nameOf name
  freshName kind base := keepsNames_freshName base
  helper key template := keepsNames_helper _ key template
  define key code s := keepsNames_of_eq rfl rfl
  markContinue s := by
    unfold Pass.markContinue
    rw [Pass.modify_apply]
    dsimp only
    split <;> exact keepsNames_of_eq rfl rfl
  warn warning s := keepsNames_of_eq rfl rfl

end BlockScript
