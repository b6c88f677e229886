import BlockScript.Proofs.Names.HelperText
import BlockScript.Proofs.Pass.Assembly

/-!
# Helpers of a program

A helper has one name during a pass, at whichever time it is asked for. That name is its own:
no other helper has it, and it is no identifier of the program. The program has one
definition under that name, which is the text of the helper, and all the other definitions
are none of functions or of functions with other names.

Results:

* `Scene.Speaks.definition_introduces`: the function that a definition introduces.
* `Scene.helper_isDefinedOnce`: what a request for a helper leads to.
-/

namespace BlockScript

open BlockScript.Text

/-! ## Names that are apart -/

/-- Whether an identifier of a kind is not taken for the name of a function, also where case
    does not count for functions. -/
structure NamePolicy.KeepsOff (policy : NamePolicy) (kind : NameKind) (text name : String) :
    Prop where
  text_ne : text ≠ name
  signed_ne : text ≠ policy.sign kind ++ name
  lower_ne (hkind : kind = .procedure) (hcase : .procedure ∈ policy.caseInsensitive) :
    lower text ≠ lower name

theorem sign_cases (language : Language) (kind : NameKind) :
    language.dialect.policy.sign kind = "" ∨ language.dialect.policy.sign kind = "$" := by
  cases language <;> cases kind <;> simp [NamePolicy.sign] <;> decide

/-- A word with the sign of a kind is no identifier but the word itself. -/
theorem sign_append_ne (language : Language) (kind : NameKind) {word name : String}
    (hname : IsIdentifier name) (hne : word ≠ name) :
    language.dialect.policy.sign kind ++ word ≠ name := by
  rintro rfl
  rcases sign_cases language kind with hsign | hsign
  · rw [hsign, String.empty_append] at hne
    exact hne rfl
  · obtain ⟨c, rest, hchars, hc, -⟩ := hname
    rw [hsign, String.toList_append] at hchars
    obtain rfl : '$' = c := (List.cons.inj hchars).1
    exact absurd hc (by decide)

namespace Scene

variable {scene : Scene} {language : Language} {key template name : String}
  {text : Option String}

/-! ## What definitions introduce -/

/-- Which function a definition introduces, told by its key: none, or that of its header,
    which stands behind comments if a block defines it. -/
inductive Introduces (scene : Scene) : String × String → Option String → Prop where
  | imported {statement : String} (h : statement ∈ scene.dialect.importTexts) :
    Introduces scene (Recipe.importKey ++ statement, statement) none
  | initial {value : String} (names : List String) (h : scene.dialect.initialValue = some value) :
    Introduces scene (variablesKey, initialLines value names) none
  | helper {helper : Helper} (h : helper ∈ scene.dialect.helpers) (name params rest : String) :
    Introduces scene (helper.key, scene.dialect.procedureHeader name params ++ rest) (some name)
  | procedure {ref : Ref} (h : scene.Placed ref) (name params rest : String) :
    Introduces scene (Recipe.procedureKey name, scene.commentLines ref ++
      (scene.dialect.procedureHeader name params ++ rest)) (some name)

namespace Speaks

variable (h : scene.Speaks language)
include h

/-- A request is for a helper of the language. -/
theorem exists_helper (hevent : .helper key template name text ∈ scene.journal) :
    ∃ helper ∈ language.dialect.helpers, helper.key = key ∧ helper.template = template := by
  cases h.accounted_journal _ hevent with
  | helper hhelper => exact ⟨_, h.dialect ▸ hhelper, rfl, rfl⟩

/-- The key of a helper is not that of another definition. -/
theorem key_free (hevent : .helper key template name text ∈ scene.journal) :
    isImportKey key = false ∧ isProcedureKey key = false ∧ key ≠ variablesKey := by
  obtain ⟨helper, hhelper, rfl, -⟩ := h.exists_helper hevent
  exact (helper_keys language).2 helper hhelper

/-- All requests with a key have one template. -/
theorem template_eq {template' name' : String} {text' : Option String}
    (hevent : .helper key template name text ∈ scene.journal)
    (hevent' : .helper key template' name' text' ∈ scene.journal) : template' = template := by
  obtain ⟨helper, hhelper, hkey, rfl⟩ := h.exists_helper hevent
  obtain ⟨helper', hhelper', hkey', rfl⟩ := h.exists_helper hevent'
  rw [List.inj_on_of_nodup_map (helper_keys language).1 hhelper' hhelper (hkey'.trans hkey.symm)]

/-- Nothing but the helper is set under its key. -/
theorem defined_ne (hevent : .helper key template name text ∈ scene.journal) (owner : Option Ref)
    (code : String) : .defined owner key code ∉ scene.journal := by
  obtain ⟨himport, hprocedure, hvariables⟩ := h.key_free hevent
  intro hdefined
  cases h.accounted_journal _ hdefined with
  | imported =>
    rw [isImportKey_importKey] at himport
    cases himport
  | initial => exact hvariables rfl
  | procedure =>
    rw [isProcedureKey_procedureKey] at hprocedure
    cases hprocedure

/-- The text of a helper starts with the header of a function under its name. -/
theorem introduces_helperText (hevent : .helper key template name text ∈ scene.journal)
    (hname : IsIdentifier name) :
    scene.Introduces (key, Definitions.helperText template name scene.indent) (some name) := by
  obtain ⟨helper, hhelper, rfl, rfl⟩ := h.exists_helper hevent
  obtain ⟨params, rest, htext⟩ := (hasTemplate_helpers language helper hhelper).helperText_eq
    scene.indent
  rw [htext name hname]
  rw [← h.dialect] at hhelper ⊢
  exact .helper hhelper name params rest

end Speaks

/-! ## One helper -/

/-- Whether a definition is the only one in a program that introduces a function of a name. -/
structure DefinesOnce (scene : Scene) (program : Program) (name : String)
    (definition : String × String) (definitions : List (String × String)) : Prop where
  output : ∃ imports body, (∀ statement ∈ imports, statement ∈ scene.dialect.importTexts) ∧
    program.code =
      tidy (assembled imports (definitions.map fun entry => trimNewlines entry.2) body)
  once : definitions.count definition = 1
  introduces (entry : String × String) (h : entry ∈ definitions) :
    ∃ function, scene.Introduces entry function ∧ (function = some name ↔ entry = definition)

/-- Whether a helper has one name of its own, and is defined under it once. -/
structure IsDefinedOnce (scene : Scene) (key template name : String) : Prop where
  again {template' name' : String} {text : Option String}
    (h : .helper key template' name' text ∈ scene.journal) : template' = template ∧ name' = name
  others {key' template' name' : String} {text : Option String}
    (h : .helper key' template' name' text ∈ scene.journal) (hkey : key' ≠ key) :
    scene.dialect.policy.KeepsOff .procedure name' name
  named {kind : NameKind} {logical word : String} (h : .named kind logical word ∈ scene.journal) :
    scene.dialect.policy.KeepsOff kind word name
  own {kind : NameKind} {base word : String} (h : .own kind base word ∈ scene.journal) :
    word ≠ name ∧ word ≠ scene.dialect.policy.sign kind ++ name
  registered : (registered scene.journal).filter (·.1 = key) =
    [(key, Definitions.helperText template name scene.indent)]
  header : ∃ params rest, ∀ word, IsIdentifier word →
    Definitions.helperText template word scene.indent =
      scene.dialect.procedureHeader word params ++ rest
  mentions : (Definitions.helperText template name scene.indent).toList =
    weave name.toList (Definitions.pieces template scene.indent) ++ ['\n']
  program {program : Program} (h : (scene.program {}).1 = .ok program) :
    ∃ definitions, scene.DefinesOnce program name
      (key, Definitions.helperText template name scene.indent) definitions

section Requested

variable (h : scene.Speaks language) (hevent : .helper key template name text ∈ scene.journal)
include h hevent

/-- Identifiers for other logical names and helpers keep off the name of a helper. -/
theorem Speaks.keepsOff {kind : NameKind} {word : String} (hne : word ≠ name)
    (hfunction : kind = .procedure → (scene.program {}).2.ledger.IsFunction word) :
    scene.dialect.policy.KeepsOff kind (scene.dialect.policy.sign kind ++ word) name := by
  obtain ⟨hapart, hanswers⟩ := scene.apart_journal
  have hname := hanswers _ hevent
  refine ⟨?_, fun heq => hne ?_, fun hkind hcase hlower => hne ?_⟩
  · rw [h.dialect]
    exact sign_append_ne language kind (hapart.fits hname).identifier hne
  · exact (String.append_right_inj _).mp heq
  · subst hkind
    rw [show scene.dialect.policy.sign .procedure = "" from rfl, String.empty_append] at hlower
    exact hapart.folded hcase (hfunction rfl) (.helper hname) hlower

/-- The text of a helper is set once, and that is all that is set under its key. -/
theorem Speaks.registered_helper : (registered scene.journal).filter (·.1 = key) =
    [(key, Definitions.helperText template name scene.indent)] := by
  obtain ⟨-, hanswers⟩ := scene.apart_journal
  obtain ⟨template', hfirst, hset⟩ := scene.replays_journal.registered_helper
    (Ledger.apart_empty _) rfl (hanswers _ hevent) (h.defined_ne hevent)
  rwa [h.template_eq hevent hfirst] at hset

/-- The function that a definition introduces has the name of the helper if the definition is
    its own. -/
theorem Speaks.definition_introduces {entry : String × String}
    (hentry : entry ∈ registered scene.journal) :
    ∃ function, scene.Introduces entry function ∧
      (function = some name ↔
        entry = (key, Definitions.helperText template name scene.indent)) := by
  obtain ⟨hapart, hanswers⟩ := scene.apart_journal
  have hname := hanswers _ hevent
  obtain ⟨himportKey, hprocedureKey, hvariables⟩ := h.key_free hevent
  obtain ⟨other, code⟩ := entry
  -- the key tells which kind of definition it is
  cases h.sets_of_registered hentry with
  | imported himport =>
    refine ⟨none, .imported himport, by simp, fun heq => ?_⟩
    rw [← (Prod.mk.inj heq).1, isImportKey_importKey] at himportKey
    cases himportKey
  | initial hvalue =>
    exact ⟨none, .initial _ hvalue, by simp, fun heq => absurd (Prod.mk.inj heq).1.symm hvariables⟩
  | @helper helper name' hhelper hidentifier hevent' =>
    refine ⟨some name', h.introduces_helperText hevent' hidentifier, fun heq => ?_, fun heq => ?_⟩
    · obtain rfl : name' = name := Option.some.inj heq
      have hkey : helper.key = key := hapart.injective (hanswers _ hevent') hname
      rw [← hkey] at hevent ⊢
      rw [h.template_eq hevent hevent']
    · have hkey : helper.key = key := (Prod.mk.inj heq).1
      rw [hkey] at hevent'
      exact (hanswers _ hevent').symm.trans hname
  | @procedure ref logical word args rest hplaced hdefines hnamed =>
    refine ⟨some word, .procedure hplaced word args rest, fun heq => ?_, fun heq => ?_⟩
    · obtain rfl : word = name := Option.some.inj heq
      obtain ⟨text', hlookup, htext⟩ := hanswers _ hnamed
      obtain rfl : word = text' := by simpa [NamePolicy.sign] using htext
      exact absurd hlookup ((hapart.withheld hname).unassigned _)
    · rw [← (Prod.mk.inj heq).1, isProcedureKey_procedureKey] at hprocedureKey
      cases hprocedureKey

/-- A program defines a helper once. -/
theorem Speaks.definesOnce {program : Program} (hrun : (scene.program {}).1 = .ok program) :
    ∃ definitions, scene.DefinesOnce program name
      (key, Definitions.helperText template name scene.indent) definitions := by
  have hgathers := scene.gathers_journal
  have hothers := hgathers.filter fun key => !isImportKey key
  have hprogram : scene.program {} = (.ok program, (scene.program {}).2) := Prod.ext hrun rfl
  have hset := h.registered_helper hevent
  have hkey := (h.key_free hevent).1
  refine ⟨_, ⟨_, _, fun statement hstatement => ?_, (h.program_assembled hprogram).2⟩, ?_,
    fun entry hentry => ?_⟩
  · obtain ⟨entry, hentry, rfl⟩ := List.mem_map.mp hstatement
    obtain ⟨hmem, himport⟩ := List.mem_filter.mp hentry
    exact ((h.sets_of_registered (hgathers.subset hmem)).import_of_key h.dialect himport).1
  · -- what was set last under the key is all that was set there
    have hown : (key, Definitions.helperText template name scene.indent) ∈
        registered scene.journal := (List.mem_filter.mp (hset ▸ List.mem_singleton_self _)).1
    obtain ⟨code, hcode⟩ := hothers.exists_mem (List.mem_filter.mpr ⟨hown, by simp [hkey]⟩)
    have hlast : (key, code) ∈ (registered scene.journal).filter (·.1 = key) :=
      List.mem_filter.mpr ⟨(List.mem_filter.mp (hothers.subset hcode)).1, by simp⟩
    rw [hset, List.mem_singleton] at hlast
    rw [← hlast]
    exact List.count_eq_one_of_mem (List.Nodup.of_map _ hothers.nodup) hcode
  · exact h.definition_introduces hevent (hgathers.subset (List.mem_filter.mp hentry).1)

end Requested

/-- A helper that a pass asks for has one name of its own, and is defined under it once. -/
theorem helper_isDefinedOnce {config : Config} {workspace : Workspace}
    (hevent : .helper key template name text ∈ (ofLanguage language config workspace).journal) :
    (ofLanguage language config workspace).IsDefinedOnce key template name := by
  have h := speaks_ofLanguage language config workspace
  generalize ofLanguage language config workspace = scene at hevent h
  obtain ⟨hapart, hanswers⟩ := scene.apart_journal
  have hname := hanswers _ hevent
  have hidentifier := (hapart.fits hname).identifier
  obtain ⟨helper, hhelper, rfl, rfl⟩ := h.exists_helper hevent
  refine {
    again := fun {template' name' text'} hevent' =>
      ⟨h.template_eq hevent hevent', Option.some.inj ((hanswers _ hevent').symm.trans hname)⟩
    others := fun {key' template' name' text'} hevent' hkey => ?_
    named := fun {kind logical word} hnamed => ?_
    own := fun {kind base word} hown => ?_
    registered := h.registered_helper hevent
    header := h.dialect ▸ (hasTemplate_helpers language helper hhelper).helperText_eq scene.indent
    mentions := Definitions.toList_helperText _ _ hidentifier
    program := h.definesOnce hevent }
  · have hne : name' ≠ name := by
      rintro rfl
      exact hkey (hapart.injective (hanswers _ hevent') hname)
    exact h.keepsOff hevent hne fun _ => .helper (hanswers _ hevent')
  · obtain ⟨word', hlookup, rfl⟩ := hanswers _ hnamed
    refine h.keepsOff hevent ?_ fun hkind => .procedure (hkind ▸ hlookup)
    rintro rfl
    exact (hapart.withheld hname).unassigned _ hlookup
  · obtain ⟨word', rfl, -, hno⟩ := hanswers _ hown
    have hne : word' ≠ name := by
      rintro rfl
      exact hno _ hname
    refine ⟨?_, fun heq => hne ((String.append_right_inj _).mp heq)⟩
    rw [h.dialect]
    exact sign_append_ne language kind hidentifier hne

/-! ### A helper with the name of a procedure -/

/-- A procedure that is named like the helper for averages, and a use of that helper. -/
def averaging : Workspace where
  tops := [0, 1]
  graph := ⟨#[{ Block.ofType "procedures_defnoreturn" with
      fields := [("NAME", .text "math_average")] },
    { Block.ofType "math_on_list" with fields := [("OP", .text "AVERAGE")] }]⟩

/-- Whether an event is a request for a helper that is answered with a name. -/
def answersWith (key name : String) : Event → Bool
  | .helper key' _ name' _ => key' = key && name' = name
  | .named .. | .own .. | .defined .. | .rendered .. | .top .. => false

/-- The name of the helper is another one. -/
theorem exists_request_averaging : ∃ template text,
    .helper "math_average" template "math_average2" text ∈
      (ofLanguage .lua {} averaging).journal := by
  have hall : (ofLanguage .lua {} averaging).workspace.allBlocks = [0, 1] :=
    show averaging.allBlocks = [0, 1] by cbv
  have hused : (ofLanguage .lua {} averaging).usedVariables = .ok [] := by
    unfold usedVariables Workspace.usedVariables
    rw [hall]
    rfl
  have hdefined : (ofLanguage .lua {} averaging).definedNames = [.text "math_average"] := by
    unfold definedNames
    rw [hall]
    rfl
  have hreserve : (ofLanguage .lua {} averaging).reserveNames {} = (.ok (),
      ((ofLanguage .lua {} averaging).reserveDefined [.text "math_average"] {}).2) := by
    rw [reserveNames_of_noVariables hused rfl, hdefined]
    rfl
  have hrequest : ((ofLanguage .lua {} averaging).topsJournal averaging.tops
      ((ofLanguage .lua {} averaging).reserveDefined [.text "math_average"] {}).2).any
        (answersWith "math_average" "math_average2") = true := by
    decide +kernel
  obtain ⟨event, hmem, hevent⟩ := List.any_eq_true.mp hrequest
  cases event with
  | helper key template name text =>
    obtain ⟨rfl, rfl⟩ : key = "math_average" ∧ name = "math_average2" := by
      simpa [answersWith] using hevent
    refine ⟨template, text, ?_⟩
    rw [journal, Journal.thenOf_of_ok hreserve]
    exact List.mem_append_right _ hmem
  | _ => cases hevent

theorem helper_isDefinedOnce_averaging : ∃ template text,
    .helper "math_average" template "math_average2" text ∈
        (ofLanguage .lua {} averaging).journal ∧
      (ofLanguage .lua {} averaging).IsDefinedOnce "math_average" template "math_average2" := by
  obtain ⟨template, text, hevent⟩ := exists_request_averaging
  exact ⟨template, text, hevent, helper_isDefinedOnce hevent⟩

end Scene

end BlockScript
