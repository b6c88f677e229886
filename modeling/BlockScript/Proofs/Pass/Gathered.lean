import BlockScript.Proofs.Names.HelperText
import BlockScript.Proofs.Pass.Account
import BlockScript.Proofs.Pass.Ledger

/-!
# The definitions of a program

A program has definitions of four kinds: imports, the variables at the start, helpers and
procedures. The key of a definition tells its kind, and no two kinds have a key in common.
None of the texts is blank, and helpers and procedures start at the margin.

Results:

* `Scene.apart_journal`, `Scene.gathers_journal`: identifiers and definitions at the end.
* `Scene.Speaks.sets_of_registered`: what a definition is, of those that are set.
* `Scene.Sets.not_blank`, `Scene.Sets.startsSolid`: no text of a definition gets lost.
-/

namespace BlockScript

open BlockScript.Text

namespace Scene

variable {scene : Scene} {language : Language} {key code : String} {t : PassState}

/-- What a definition is that is set during a pass. -/
inductive Sets (scene : Scene) : String → String → Prop where
  | imported {statement : String} (h : statement ∈ scene.dialect.importTexts) :
    Sets scene (Recipe.importKey ++ statement) statement
  | initial {value : String} {names : List String}
    (hvalue : scene.dialect.initialValue = some value) (hnames : names ≠ []) :
    Sets scene variablesKey (initialLines value names)
  | helper {helper : Helper} {name : String} (h : helper ∈ scene.dialect.helpers)
    (hname : IsIdentifier name)
    (hevent : .helper helper.key helper.template name
      (some (Definitions.helperText helper.template name scene.indent)) ∈ scene.journal) :
    Sets scene helper.key (Definitions.helperText helper.template name scene.indent)
  | procedure {ref : Ref} {name word : String} (args rest : String) (hplaced : scene.Placed ref)
    (hdefines : scene.workspace.DefinesProcedure ref name)
    (hnamed : .named .procedure name word ∈ scene.journal)
    (hrendered : .rendered ref (.text "") ∈ scene.journal)
    (hevent : .defined (some ref) (Recipe.procedureKey word)
      (scene.commentLines ref ++ (scene.dialect.procedureHeader word args ++ rest)) ∈
        scene.journal) :
    Sets scene (Recipe.procedureKey word)
      (scene.commentLines ref ++ (scene.dialect.procedureHeader word args ++ rest))

/-- The identifiers at the end of a pass are kept apart, and every answer is true. -/
theorem apart_journal (scene : Scene) :
    (scene.program {}).2.ledger.Apart scene.dialect.policy ∧
      ∀ event ∈ scene.journal, (scene.program {}).2.ledger.Answers scene.dialect.policy event := by
  have hreplays := scene.replays_journal
  have hempty := Ledger.apart_empty scene.dialect.policy
  exact ⟨hreplays.follows.apart hempty, fun event hevent => hreplays.answers hempty hevent⟩

/-- The definitions at the end of a pass are those that were set. -/
theorem gathers_journal (scene : Scene) :
    Gathers (registered scene.journal) (scene.program {}).2.definitions.entries :=
  scene.replays_journal.gathers .nil

namespace Speaks

variable (h : scene.Speaks language)
include h

/-- What a definition is, of those that are set. -/
theorem sets_of_registered (hset : (key, code) ∈ registered scene.journal) :
    scene.Sets key code := by
  obtain ⟨event, hevent, hentry⟩ := List.mem_filterMap.mp hset
  have haccounted := h.accounted_journal event hevent
  cases haccounted with
  | helper hhelper name text =>
    obtain ⟨hapart, hanswers⟩ := scene.apart_journal
    obtain ⟨text, rfl, ⟨⟩⟩ := Option.map_eq_some_iff.mp hentry
    obtain rfl := scene.replays_journal.helperText_of_mem hevent
    exact .helper hhelper (hapart.fits (hanswers _ hevent)).identifier hevent
  | imported ref himport =>
    cases hentry
    exact .imported himport
  | initial hvalue hnames =>
    cases hentry
    exact .initial hvalue hnames
  | procedure args rest hplaced hdefines hnamed hrendered =>
    cases hentry
    exact .procedure args rest hplaced hdefines hnamed hrendered hevent
  | named | own | top | rendered => cases hentry

end Speaks

/-! ## Keys -/

theorem isImportKey_importKey (statement : String) :
    isImportKey (Recipe.importKey ++ statement) = true :=
  Recipe.startsWith_importKey statement

theorem isImportKey_procedureKey (word : String) :
    isImportKey (Recipe.procedureKey word) = false := by
  simp [isImportKey, startsWith, Recipe.procedureKey, Recipe.importKey, List.isPrefixOf]

theorem importKey_ne_variablesKey (statement : String) :
    Recipe.importKey ++ statement ≠ variablesKey := by
  intro heq
  have hkey := isImportKey_importKey statement
  rw [heq] at hkey
  exact absurd hkey (by decide)

theorem procedureKey_ne_variablesKey (word : String) : Recipe.procedureKey word ≠ variablesKey := by
  intro heq
  have hkey := isProcedureKey_procedureKey word
  rw [heq] at hkey
  exact absurd hkey (by decide)

/-- The keys of the helpers of a language are their own. -/
theorem helper_keys (language : Language) :
    (language.dialect.helpers.map Helper.key).Nodup ∧
      ∀ helper ∈ language.dialect.helpers, isImportKey helper.key = false ∧
        isProcedureKey helper.key = false ∧ helper.key ≠ variablesKey := by
  cases language <;> decide +kernel

/-- A definition is an import if it has the key of one. -/
theorem Sets.import_of_key (h : scene.Sets key code) (hlanguage : scene.dialect = language.dialect)
    (hkey : isImportKey key = true) :
    code ∈ scene.dialect.importTexts ∧ key = Recipe.importKey ++ code := by
  cases h with
  | imported himport => exact ⟨himport, rfl⟩
  | initial => exact absurd hkey (by decide)
  | helper hhelper =>
    rw [hlanguage] at hhelper
    rw [((helper_keys language).2 _ hhelper).1] at hkey
    cases hkey
  | procedure =>
    rw [isImportKey_procedureKey] at hkey
    cases hkey

/-- Without imports there are no variables to start with. -/
theorem Sets.ne_variablesKey (h : scene.Sets key code) (hlanguage : scene.dialect = language.dialect)
    (hfirst : language.dialect.importsFirst = false) : key ≠ variablesKey := by
  cases h with
  | imported => exact importKey_ne_variablesKey _
  | initial hvalue =>
    rw [hlanguage] at hvalue
    cases language with
    | python => cases hfirst
    | php => cases hvalue
    | lua => cases hvalue
  | helper hhelper =>
    rw [hlanguage] at hhelper
    exact ((helper_keys language).2 _ hhelper).2.2
  | @procedure _ _ word => exact procedureKey_ne_variablesKey word

/-! ## Texts -/

/-- Whether a text starts with a character that is not blank. -/
def StartsSolid (text : String) : Prop :=
  ∃ c rest, text.toList = c :: rest ∧ isBlank c = false

theorem StartsSolid.append {text : String} (h : StartsSolid text) (rest : String) :
    StartsSolid (text ++ rest) := by
  obtain ⟨c, cs, htext, hc⟩ := h
  exact ⟨c, cs ++ rest.toList, by rw [String.toList_append, htext]; rfl, hc⟩

theorem StartsSolid.not_blank {text : String} (h : StartsSolid text) :
    isBlankText text = false := by
  obtain ⟨c, rest, htext, hc⟩ := h
  simp [isBlankText, htext, hc]

/-- Nothing is trimmed off the start. -/
theorem StartsSolid.dropNewlines_eq {text : String} (h : StartsSolid text) :
    dropNewlines text = trimNewlines text := by
  obtain ⟨c, rest, htext, hc⟩ := h
  have hfeed : c ≠ '\n' := by
    rintro rfl
    exact absurd hc (by decide)
  simp [dropNewlines, trimNewlines, trimWhile, htext, hfeed]

theorem startsSolid_indentLines (text : String) {lead : String} (h : StartsSolid lead) :
    StartsSolid (indentLines (text ++ "\n") lead) := by
  obtain ⟨c, rest, hlead, hc⟩ := h
  have hlines : splitLines (text ++ "\n").toList = splitLines text.toList ++ [[]] := by
    rw [String.toList_append]
    exact splitLines_append text.toList []
  cases hfirst : splitLines text.toList with
  | nil => exact absurd hfirst (splitLines_ne_nil _)
  | cons line lines =>
    obtain ⟨next, more, hmore⟩ : ∃ next more, lines ++ [[]] = next :: more :=
      List.exists_cons_of_ne_nil (by simp)
    refine ⟨c, rest ++ (line ++ '\n' :: joinLines (leadLines lead.toList (next :: more))), ?_, hc⟩
    have hne : leadLines lead.toList (next :: more) ≠ [] := leadLines_ne_nil _ (by simp)
    obtain ⟨second, others, hothers⟩ := List.exists_cons_of_ne_nil hne
    rw [toList_indentLines, indentChars, hlines, hfirst, List.cons_append, hmore]
    rw [hlead] at hothers ⊢
    simp [leadLines, hothers, joinLines]

/-- Comments start with the mark for them. -/
theorem startsSolid_commentLines (hmark : StartsSolid scene.dialect.commentStart) (ref : Ref)
    {rest : String} (hrest : StartsSolid rest) : StartsSolid (scene.commentLines ref ++ rest) := by
  unfold commentLines
  split
  · rwa [String.empty_append]
  · split
    · rwa [String.empty_append]
    · exact (startsSolid_indentLines _ hmark).append rest

theorem startsSolid_procedureHeader (language : Language) (name args : String) :
    StartsSolid (language.dialect.procedureHeader name args) := by
  have hstart : StartsSolid language.headerStart := by
    cases language <;> exact ⟨_, _, rfl, by decide⟩
  rw [procedureHeader_eq]
  simp only [String.append_assoc]
  exact hstart.append _

theorem startsSolid_commentStart (language : Language) :
    StartsSolid language.dialect.commentStart := by
  cases language <;> exact ⟨_, _, rfl, by decide⟩

/-- No import is blank or has blanks around it. -/
theorem importTexts_trimmed (language : Language) :
    (∀ statement ∈ language.dialect.importTexts, strip statement = statement ∧ statement ≠ "") ∧
      (language.dialect.importsFirst = false → language.dialect.importTexts = []) := by
  cases language <;> decide +kernel

/-- No definition other than an import or that of the variables starts with a blank. -/
theorem Sets.startsSolid (h : scene.Sets key code) (hlanguage : scene.dialect = language.dialect)
    (himport : isImportKey key = false) (hvariables : key ≠ variablesKey) : StartsSolid code := by
  cases h with
  | imported => rw [isImportKey_importKey] at himport; cases himport
  | initial => exact absurd rfl hvariables
  | @helper helper name hhelper hname =>
    rw [hlanguage] at hhelper
    obtain ⟨params, rest, htext⟩ := (hasTemplate_helpers language _ hhelper).helperText_eq scene.indent
    rw [htext name hname]
    exact (startsSolid_procedureHeader language name params).append rest
  | procedure args rest =>
    refine startsSolid_commentLines (hlanguage ▸ startsSolid_commentStart language) _ ?_
    rw [hlanguage]
    exact (startsSolid_procedureHeader language _ args).append rest

/-- No definition is blank. -/
theorem Sets.not_blank (h : scene.Sets key code) (hlanguage : scene.dialect = language.dialect)
    (himport : isImportKey key = false) : isBlankText code = false := by
  have hsolid := h.startsSolid hlanguage himport
  cases h with
  | imported =>
    rw [isImportKey_importKey] at himport
    cases himport
  | @initial value names hvalue hnames =>
    obtain ⟨name, others, rfl⟩ := List.exists_cons_of_ne_nil hnames
    have hline : ∀ name, isBlankText (name ++ " = " ++ value) = false := fun name => by
      rw [isBlankText_append, isBlankText_append, show isBlankText " = " = false from by decide,
        Bool.and_false, Bool.false_and]
    cases others <;> simp [initialLines, joinWith, isBlankText_append, hline]
  | helper hhelper =>
    rw [hlanguage] at hhelper
    exact (hsolid ((helper_keys language).2 _ hhelper).2.2).not_blank
  | @procedure _ _ word => exact (hsolid (procedureKey_ne_variablesKey word)).not_blank

end Scene

end BlockScript
