import BlockScript.Proofs.Acceptance.Program
import BlockScript.Proofs.Code.Rendering
import BlockScript.Proofs.Pass.Gathered

/-!
# Assembling a program

A program is put together from the definitions and the main part. Some languages have their
imports first, on lines of their own. The main part has the texts of the top blocks, in the
order of the workspace.

A procedure has one definition, which belongs to one block: the key of a definition has the
word that was given out for the name, and the words of different names are different.

Results:

* `Scene.Speaks.program_assembled`: how a program is put together.
* `Scene.generate_assembles`: no definition gets lost on the way, and none is there twice.
-/

namespace BlockScript

open BlockScript.Text

/-- Whether the enabled definitions of procedures have names that differ in more than case. -/
def Workspace.DefinesApart (workspace : Workspace) : Prop :=
  ∀ ref ∈ workspace.allBlocks, ∀ ref' ∈ workspace.allBlocks, ∀ name name',
    workspace.DefinesProcedure ref name → workspace.DefinesProcedure ref' name' →
      lower name = lower name' → ref = ref'

/-! ## The main part -/

/-- The top block of an event and its text, if it is about one. -/
def Event.top? : Event → Option (Ref × String)
  | .top ref text => some (ref, text)
  | .named .. | .own .. | .helper .. | .defined .. | .rendered .. => none

/-- The top blocks of a journal, with their texts. -/
def mainParts (events : List Event) : List (Ref × String) :=
  events.filterMap Event.top?

@[simp]
theorem mainParts_append (events later : List Event) :
    mainParts (events ++ later) = mainParts events ++ mainParts later :=
  List.filterMap_append

theorem accumulates_mainParts : Accumulates fun events => mainParts events = [] where
  nil := rfl
  append h h' := by rw [mainParts_append, h, h', List.append_nil]

namespace Scene

variable {scene : Scene} {language : Language} {key code : String} {s t : PassState}

/-- No block inside another one is a top block. -/
theorem mainParts_renderJournal (room : Nat) (ref : Ref) :
    (scene.renderJournal room ref).Always fun events => mainParts events = [] := by
  have hnone := accumulates_mainParts
  induction room generalizing ref with
  | zero => exact hnone.nothing
  | succ room ih =>
    unfold renderJournal
    cases scene.graph.block? ref with
    | none => exact hnone.nothing
    | some block =>
      dsimp only
      split
      · exact hnone.nothing
      · refine hnone.thenOf hnone.nothing fun _ rule u _ =>
          hnone.thenOf (fun v => ?_) (fun _ product w _ => ?_) u
        · refine hnone.followJournal (Recipe.only_true _) (fun request _ => ?_) _
          exact hnone.answerJournal (fun target _ => ih target) (fun _ _ _ => rfl)
            (fun _ _ _ => rfl) (fun _ _ _ _ _ => rfl) fun _ _ _ => rfl
        · cases scene.conclude rule ref block product <;> rfl

/-- The main part has the texts of the top blocks that have any, in order. -/
theorem mainParts_topsJournal {refs : List Ref} {texts : List String}
    (hrun : scene.topTexts refs s = (.ok texts, t)) :
    (mainParts (scene.topsJournal refs s)).map Prod.fst = refs ∧
      texts = ((mainParts (scene.topsJournal refs s)).map Prod.snd).filter (· ≠ "") := by
  induction refs generalizing s texts with
  | nil =>
    obtain ⟨rfl, rfl⟩ := Pass.pure_eq_ok hrun
    exact ⟨rfl, rfl⟩
  | cons ref refs ih =>
    rw [topTexts_cons] at hrun
    obtain ⟨rendered, u, hrendered, hrest⟩ := Pass.bind_eq_ok hrun
    obtain ⟨later, v, hlater, hdone⟩ := Pass.bind_eq_ok hrest
    obtain ⟨rfl, rfl⟩ := Pass.pure_eq_ok hdone
    obtain ⟨hrefs, rfl⟩ := ih hlater
    have hplace : mainParts (scene.placeJournal scene.render
        (scene.renderJournal (scene.graph.size + 1)) (some ref) s) = [] :=
      accumulates_mainParts.placeJournal (fun target _ => scene.mainParts_renderJournal _ target) s
    have hjournal : mainParts (scene.topsJournal (ref :: refs) s) =
        (ref, scene.topText ref rendered) :: mainParts (scene.topsJournal refs u) := by
      rw [topsJournal, Journal.thenOf_of_ok hrendered, mainParts_append, hplace]
      rfl
    rw [hjournal]
    refine ⟨by rw [List.map_cons, hrefs], ?_⟩
    by_cases hempty : scene.topText ref rendered = "" <;> simp [hempty]

/-! ## Assembling -/

/-- The layout of a program: the imports on lines of their own, the other definitions with an
    empty line between neighbours, and two empty lines ahead of the main part. -/
def assembled (imports others : List String) (body : String) : String :=
  let parts := (if imports = [] then [] else [joinWith "\n" imports]) ++ others
  if parts = [] then body else joinWith "\n\n" parts ++ "\n\n\n" ++ body

example : assembled ["import math", "import random"] ["def f():\n  pass", "def g():\n  pass"] "f()\n" =
    "import math\nimport random\n\ndef f():\n  pass\n\ndef g():\n  pass\n\n\nf()\n" := by
  decide

theorem joinWith_cons_ne_empty (separator : String) {text : String} (h : text ≠ "")
    (texts : List String) : joinWith separator (text :: texts) ≠ "" := by
  cases texts with
  | nil => exact h
  | cons next texts =>
    intro hempty
    simp [joinWith, String.append_eq_empty_iff, h] at hempty

theorem mem_dropWhile_of_not {p : Char → Bool} {c : Char} {cs : List Char} (h : c ∈ cs)
    (hc : p c = false) : c ∈ cs.dropWhile p := by
  rw [← List.takeWhile_append_dropWhile (p := p) (l := cs)] at h
  refine (List.mem_append.mp h).resolve_left fun htaken => ?_
  rw [List.mem_takeWhile_imp htaken] at hc
  cases hc

theorem trimNewlines_ne_empty {text : String} (h : isBlankText text = false) :
    trimNewlines text ≠ "" := by
  obtain ⟨c, hmem, hc⟩ := List.all_eq_false.mp h
  have hfeed : decide (c = '\n') = false := by
    rw [decide_eq_false_iff_not]
    rintro rfl
    exact hc (by decide)
  have htrimmed : c ∈ (trimNewlines text).toList := by
    rw [trimNewlines, String.toList_ofList, trimWhile, dropEndWhile, List.mem_reverse]
    exact mem_dropWhile_of_not (List.mem_reverse.mpr (mem_dropWhile_of_not hmem hfeed)) hfeed
  intro hempty
  rw [hempty] at htrimmed
  cases htrimmed

/-- Leaving out what has no text makes no difference where each part has one. -/
theorem assembled_eq {imports others : List String} (himports : ∀ text ∈ imports, text ≠ "")
    (hothers : ∀ text ∈ others, text ≠ "") (body : String) :
    assembled imports others body =
      let parts := [joinWith "\n" imports, joinWith "\n\n" others].filter (· ≠ "")
      if parts.isEmpty then body else joinWith "\n\n" parts ++ "\n\n\n" ++ body := by
  unfold assembled
  cases imports with
  | nil =>
    cases others with
    | nil => rfl
    | cons text others =>
      have hsome := joinWith_cons_ne_empty "\n\n" (hothers _ List.mem_cons_self) others
      simp [hsome, joinWith]
  | cons statement imports =>
    have hsome := joinWith_cons_ne_empty "\n" (himports _ List.mem_cons_self) imports
    cases others with
    | nil => simp [hsome, joinWith]
    | cons text others =>
      have hmore := joinWith_cons_ne_empty "\n\n" (hothers _ List.mem_cons_self) others
      simp [hsome, hmore, joinWith]

/-- Imports and other definitions are laid out ahead of the main part. -/
theorem withImportsFirst_eq (hlanguage : scene.dialect = language.dialect)
    {entries : List (String × String)} (hsets : ∀ entry ∈ entries, scene.Sets entry.1 entry.2)
    (body : String) : withImportsFirst entries body =
      assembled ((entries.filter fun entry => isImportKey entry.1).map Prod.snd)
        ((entries.filter fun entry => !isImportKey entry.1).map fun entry => trimNewlines entry.2)
        body := by
  have hstatement : ∀ entry ∈ entries.filter fun entry => isImportKey entry.1,
      strip entry.2 = entry.2 ∧ entry.2 ≠ "" := by
    intro entry hentry
    obtain ⟨hmem, hkey⟩ := List.mem_filter.mp hentry
    have himport := ((hsets entry hmem).import_of_key hlanguage hkey).1
    rw [hlanguage] at himport
    exact (importTexts_trimmed language).1 _ himport
  have hothers : (entries.filter fun entry => !isImportKey entry.1 && !isBlankText entry.2) =
      entries.filter fun entry => !isImportKey entry.1 := by
    refine List.filter_congr fun entry hentry => ?_
    cases hkey : isImportKey entry.1 with
    | true => rfl
    | false => simp [(hsets entry hentry).not_blank hlanguage hkey]
  rw [assembled_eq, withImportsFirst, hothers,
    List.map_congr_left fun entry hentry => (hstatement entry hentry).1]
  · intro text htext
    obtain ⟨entry, hentry, rfl⟩ := List.mem_map.mp htext
    exact (hstatement entry hentry).2
  · intro text htext
    obtain ⟨entry, hentry, rfl⟩ := List.mem_map.mp htext
    obtain ⟨hmem, hkey⟩ := List.mem_filter.mp hentry
    exact trimNewlines_ne_empty ((hsets entry hmem).not_blank hlanguage (by simpa using hkey))

/-- Without imports the definitions are laid out ahead of the main part. -/
theorem withDefinitions_eq (hlanguage : scene.dialect = language.dialect)
    (hfirst : language.dialect.importsFirst = false) {entries : List (String × String)}
    (hsets : ∀ entry ∈ entries, scene.Sets entry.1 entry.2) (body : String) :
    withDefinitions entries body =
      assembled ((entries.filter fun entry => isImportKey entry.1).map Prod.snd)
        ((entries.filter fun entry => !isImportKey entry.1).map fun entry => trimNewlines entry.2)
        body := by
  -- no definition is an import or that of the variables, so all texts start at the margin
  have hnone := (importTexts_trimmed language).2 hfirst
  have hother : ∀ entry ∈ entries, isImportKey entry.1 = false := by
    intro entry hentry
    rw [← Bool.not_eq_true]
    intro hkey
    have himport := ((hsets entry hentry).import_of_key hlanguage hkey).1
    rw [hlanguage, hnone] at himport
    cases himport
  have hsolid : ∀ entry ∈ entries, StartsSolid entry.2 := by
    intro entry hentry
    exact (hsets entry hentry).startsSolid hlanguage (hother entry hentry)
      ((hsets entry hentry).ne_variablesKey hlanguage hfirst)
  have himports : entries.filter (fun entry => isImportKey entry.1) = [] :=
    List.filter_eq_nil_iff.mpr fun entry hentry => by simp [hother entry hentry]
  have hothers : entries.filter (fun entry => !isImportKey entry.1) = entries :=
    List.filter_eq_self.mpr fun entry hentry => by simp [hother entry hentry]
  have hblank : entries.filter (fun entry => !isBlankText entry.2) = entries :=
    List.filter_eq_self.mpr fun entry hentry => by simp [(hsolid entry hentry).not_blank]
  have htrimmed : (entries.map fun entry => dropNewlines entry.2) =
      entries.map fun entry => trimNewlines entry.2 :=
    List.map_congr_left fun entry hentry => (hsolid entry hentry).dropNewlines_eq
  unfold withDefinitions assembled
  dsimp only
  rw [himports, hothers, hblank, htrimmed]
  simp

/-- The definitions and the main part of a program. -/
theorem finish_eq (hlanguage : scene.dialect = language.dialect) {definitions : Definitions}
    (hsets : ∀ entry ∈ definitions.entries, scene.Sets entry.1 entry.2) (body : String) :
    scene.finish definitions body =
      assembled ((definitions.entries.filter fun entry => isImportKey entry.1).map Prod.snd)
        ((definitions.entries.filter fun entry => !isImportKey entry.1).map
          fun entry => trimNewlines entry.2) body := by
  unfold finish
  split
  · exact withImportsFirst_eq hlanguage hsets body
  · next hfirst =>
    rw [hlanguage, Bool.not_eq_true] at hfirst
    exact withDefinitions_eq hlanguage hfirst hsets body

/-- A program is put together from the definitions at its end and from the texts of the top
    blocks. -/
theorem Speaks.program_assembled (h : scene.Speaks language) {program : Program}
    (hrun : scene.program {} = (.ok program, t)) :
    (mainParts scene.journal).map Prod.fst = scene.workspace.tops ∧
      program.code = tidy (assembled
        ((t.definitions.entries.filter fun entry => isImportKey entry.1).map Prod.snd)
        ((t.definitions.entries.filter fun entry => !isImportKey entry.1).map
          fun entry => trimNewlines entry.2)
        (joinWith "\n" (((mainParts scene.journal).map Prod.snd).filter (· ≠ "")))) := by
  have hgathers := scene.gathers_journal
  rw [hrun] at hgathers
  have hsets : ∀ entry ∈ t.definitions.entries, scene.Sets entry.1 entry.2 :=
    fun entry hentry => h.sets_of_registered (hgathers.subset hentry)
  obtain ⟨texts, s, hreserve, htexts, hcode⟩ := program_eq_ok hrun
  obtain ⟨hrefs, rfl⟩ := mainParts_topsJournal htexts
  have hbefore : mainParts (scene.reserveNamesJournal {}) = [] :=
    accumulates_mainParts.reserveNamesJournal (fun _ _ _ => rfl) (fun _ _ _ _ => rfl) {}
  have hjournal : mainParts scene.journal = mainParts (scene.topsJournal scene.workspace.tops s) := by
    rw [journal, Journal.thenOf_of_ok hreserve, mainParts_append, hbefore]
    rfl
  rw [hjournal]
  exact ⟨hrefs, hcode.trans (by rw [finish_eq h.dialect hsets])⟩

/-! ## Imports -/

/-- The imports of a journal, in the order of their first use. -/
def importsOf (events : List Event) : List String :=
  (((registered events).filter fun entry => isImportKey entry.1).map Prod.snd).eraseDups

/-- The definitions of imports are the imports in the order of their first use. -/
theorem Speaks.imports_eq (h : scene.Speaks language) {entries : List (String × String)}
    (hgathers : Gathers (registered scene.journal) entries) :
    (entries.filter fun entry => isImportKey entry.1).map Prod.snd = importsOf scene.journal := by
  have hkey : ∀ entry ∈ (registered scene.journal).filter fun entry => isImportKey entry.1,
      entry.1 = Recipe.importKey ++ entry.2 := by
    intro entry hentry
    obtain ⟨hset, himport⟩ := List.mem_filter.mp hentry
    exact ((h.sets_of_registered hset).import_of_key h.dialect himport).2
  -- a key is a prefix and the import, so keys and imports come in the same order
  have hfiltered := hgathers.filter isImportKey
  have hkeys : ∀ {members : List (String × String)},
      members ⊆ (registered scene.journal).filter (fun entry => isImportKey entry.1) →
      members.map Prod.fst = (members.map Prod.snd).map (Recipe.importKey ++ ·) := by
    intro members hsubset
    rw [List.map_map]
    exact List.map_congr_left fun entry hentry => hkey entry (hsubset hentry)
  have hinjective : Function.Injective (Recipe.importKey ++ ·) := fun _ _ => by simp
  refine List.map_injective_iff.mpr hinjective ?_
  rw [importsOf, ← eraseDups_map hinjective, ← hkeys hfiltered.subset,
    ← hkeys (List.Subset.refl _), hfiltered.keys]

/-! ## Definitions of procedures -/

/-- Whether a block of the workspace is the definition of a procedure of some name, which is
    a word of the program. -/
structure Defining (scene : Scene) (ref : Ref) (name word : String) : Prop where
  placed : scene.Placed ref
  defines : scene.workspace.DefinesProcedure ref name
  named : .named .procedure name word ∈ scene.journal

theorem Defining.mem_allBlocks {ref : Ref} {name word : String}
    (h : scene.Defining ref name word) : ref ∈ scene.workspace.allBlocks := by
  obtain ⟨block, hblock, -⟩ := h.defines
  exact Workspace.mem_allBlocks_iff.mpr ⟨⟨block, hblock⟩, h.placed⟩

/-- Blocks with the same word have names that differ in case only. -/
theorem Defining.lower_eq {ref ref' : Ref} {name name' word : String}
    (h : scene.Defining ref name word) (h' : scene.Defining ref' name' word) :
    lower name = lower name' := by
  obtain ⟨hapart, hanswers⟩ := scene.apart_journal
  obtain ⟨text, hlookup, htext⟩ := hanswers _ h.named
  obtain ⟨text', hlookup', htext'⟩ := hanswers _ h'.named
  obtain rfl : text = text' := by
    simpa [NamePolicy.sign] using htext.symm.trans htext'
  exact congrArg Prod.snd (hapart.consistent.injective hlookup hlookup')

/-- A block has one word. -/
theorem Defining.word_eq {ref : Ref} {name name' word word' : String}
    (h : scene.Defining ref name word) (h' : scene.Defining ref name' word') : word = word' := by
  obtain ⟨block, hblock, -, -, hname⟩ := h.defines
  obtain ⟨block', hblock', -, -, hname'⟩ := h'.defines
  cases hblock.symm.trans hblock'
  obtain rfl : name = name' := by
    cases hname.symm.trans hname'
    rfl
  obtain ⟨-, hanswers⟩ := scene.apart_journal
  obtain ⟨text, hlookup, rfl⟩ := hanswers _ h.named
  obtain ⟨text', hlookup', rfl⟩ := hanswers _ h'.named
  cases hlookup.symm.trans hlookup'
  rfl

namespace Speaks

variable (h : scene.Speaks language) {owner : Option Ref}
include h

/-- A definition with the key of a procedure is set on account of a block that defines it. -/
theorem defining_of_defined (hset : .defined owner key code ∈ scene.journal)
    (hkey : isProcedureKey key = true) : ∃ ref name word, owner = some ref ∧
      key = Recipe.procedureKey word ∧ scene.Defining ref name word ∧
        .rendered ref (.text "") ∈ scene.journal := by
  cases h.accounted_journal _ hset with
  | imported ref himport =>
    rw [isProcedureKey_of_import (Recipe.startsWith_importKey _)] at hkey
    cases hkey
  | initial => exact absurd hkey (by decide)
  | procedure args rest hplaced hdefines hnamed hrendered =>
    exact ⟨_, _, _, rfl, rfl, ⟨hplaced, hdefines, hnamed⟩, hrendered⟩

/-- What is set under the key of a procedure, is so on account of a block. -/
theorem defined_of_registered (hset : (key, code) ∈ registered scene.journal)
    (hkey : isProcedureKey key = true) : ∃ ref, .defined (some ref) key code ∈ scene.journal := by
  cases h.sets_of_registered hset with
  | imported himport =>
    rw [isProcedureKey_of_import (Recipe.startsWith_importKey _)] at hkey
    cases hkey
  | initial => exact absurd hkey (by decide)
  | helper hhelper =>
    rw [h.dialect] at hhelper
    rw [((helper_keys language).2 _ hhelper).2.1] at hkey
    cases hkey
  | procedure args rest hplaced hdefines hnamed hrendered hevent => exact ⟨_, hevent⟩

/-- One block sets all that is set under the key of a procedure. -/
theorem owner_eq (hapart : scene.workspace.DefinesApart) {ref ref' : Ref} {code' : String}
    (hset : .defined (some ref) key code ∈ scene.journal)
    (hset' : .defined (some ref') key code' ∈ scene.journal) (hkey : isProcedureKey key = true) :
    ref = ref' := by
  obtain ⟨_, name, word, ⟨⟩, rfl, hdefining, -⟩ := h.defining_of_defined hset hkey
  obtain ⟨_, name', word', ⟨⟩, hword, hdefining', -⟩ := h.defining_of_defined hset' hkey
  obtain rfl : word = word' := by simpa [Recipe.procedureKey] using hword
  exact hapart _ hdefining.mem_allBlocks _ hdefining'.mem_allBlocks _ _ hdefining.defines
    hdefining'.defines (hdefining.lower_eq hdefining')

/-- A block sets all that it defines under one key. -/
theorem key_eq {ref : Ref} {key' code' : String}
    (hset : .defined (some ref) key code ∈ scene.journal) (hkey : isProcedureKey key = true)
    (hset' : .defined (some ref) key' code' ∈ scene.journal)
    (hkey' : isProcedureKey key' = true) : key = key' := by
  obtain ⟨_, name, word, ⟨⟩, rfl, hdefining, -⟩ := h.defining_of_defined hset hkey
  obtain ⟨_, name', word', ⟨⟩, rfl, hdefining', -⟩ := h.defining_of_defined hset' hkey'
  rw [hdefining.word_eq hdefining']

end Speaks

/-! ## Whole programs -/

/-- Whether a program is put together from some definitions, and from the imports and the
    main part that the journal has. The definitions are those that were set, and each
    procedure is one of them. -/
structure Assembles (scene : Scene) (program : Program) (definitions : List (String × String)) :
    Prop where
  code : program.code = tidy (assembled (importsOf scene.journal)
    (definitions.map fun entry => trimNewlines entry.2)
    (joinWith "\n" (((mainParts scene.journal).map Prod.snd).filter (· ≠ ""))))
  tops : (mainParts scene.journal).map Prod.fst = scene.workspace.tops
  imports (h : scene.dialect.importsFirst = false) : importsOf scene.journal = []
  gathers : Gathers ((registered scene.journal).filter fun entry => !isImportKey entry.1)
    definitions
  contributes {ref : Ref} {result : Rendered} {block : Block Ref}
    (hrendered : .rendered ref result ∈ scene.journal)
    (hblock : scene.graph.block? ref = some block) (htype : block.type ∈ definitionTypes) :
    result = .text "" ∧ ∃! entry, entry ∈ definitions ∧ isProcedureKey entry.1 = true ∧
      .defined (some ref) entry.1 entry.2 ∈ scene.journal
  belongs {entry : String × String} (hentry : entry ∈ definitions)
    (hkey : isProcedureKey entry.1 = true) :
    ∃! ref, (∃ name word, scene.Defining ref name word) ∧
      .rendered ref (.text "") ∈ scene.journal ∧
        .defined (some ref) entry.1 entry.2 ∈ scene.journal

/-- What a rendered definition of a procedure contributes. -/
theorem Speaks.contributes (h : scene.Speaks language) (hapart : scene.workspace.DefinesApart)
    {definitions : List (String × String)}
    (hgathers : Gathers ((registered scene.journal).filter fun entry => !isImportKey entry.1)
      definitions)
    {ref : Ref} {result : Rendered} {block : Block Ref}
    (hrendered : .rendered ref result ∈ scene.journal)
    (hblock : scene.graph.block? ref = some block) (htype : block.type ∈ definitionTypes) :
    result = .text "" ∧ ∃! entry, entry ∈ definitions ∧ isProcedureKey entry.1 = true ∧
      .defined (some ref) entry.1 entry.2 ∈ scene.journal := by
  obtain ⟨hresult, name, word, code, hname, hnamed, hset⟩ :
      result = .text "" ∧ ∃ name word code, block.field "NAME" = .str name ∧
        .named .procedure name word ∈ scene.journal ∧
        .defined (some ref) (Recipe.procedureKey word) code ∈ scene.journal := by
    cases h.accounted_journal _ hrendered with
    | rendered hplaced hblock' henabled hcontributes =>
      cases hblock.symm.trans hblock'
      exact hcontributes htype
  have hkey := isProcedureKey_procedureKey word
  have hmem : (Recipe.procedureKey word, code) ∈
      (registered scene.journal).filter fun entry => !isImportKey entry.1 := by
    refine List.mem_filter.mpr ⟨List.mem_filterMap.mpr ⟨_, hset, rfl⟩, ?_⟩
    rw [isImportKey_procedureKey]
    rfl
  obtain ⟨text, htext⟩ := hgathers.exists_mem hmem
  -- the last text under the key is of the same block
  obtain ⟨ref', hset'⟩ :=
    h.defined_of_registered (List.mem_filter.mp (hgathers.subset htext)).1 hkey
  obtain rfl := h.owner_eq hapart hset hset' hkey
  refine ⟨hresult, (Recipe.procedureKey word, text), ⟨htext, hkey, hset'⟩, ?_⟩
  rintro other ⟨hother, hkey', hset''⟩
  exact hgathers.eq_of_mem hother htext (h.key_eq hset'' hkey' hset hkey)

/-- A program has all its definitions, each of them once. -/
theorem generate_assembles {config : Config} {workspace : Workspace} {program : Program}
    (hapart : workspace.DefinesApart)
    (hrun : (generate language config workspace).1 = .ok program) :
    ∃ definitions, (ofLanguage language config workspace).Assembles program definitions := by
  have h := speaks_ofLanguage language config workspace
  generalize hscene : ofLanguage language config workspace = scene at h
  rw [show workspace = scene.workspace by rw [← hscene]; rfl] at hapart
  have hrun' : scene.program {} = (.ok program, (scene.program {}).2) := by
    rw [← hrun, ← hscene]
    rfl
  have hgathers := scene.gathers_journal
  obtain ⟨htops, hcode⟩ := h.program_assembled hrun'
  rw [h.imports_eq hgathers] at hcode
  have hothers := hgathers.filter fun key => !isImportKey key
  refine ⟨_, hcode, htops, fun hfirst => ?_, hothers, h.contributes hapart hothers,
    fun {entry} hentry hkey => ?_⟩
  · rw [h.dialect] at hfirst
    refine List.eq_nil_iff_forall_not_mem.mpr fun statement hstatement => ?_
    rw [importsOf, List.mem_eraseDups] at hstatement
    obtain ⟨entry, hentry, rfl⟩ := List.mem_map.mp hstatement
    obtain ⟨hset, himport⟩ := List.mem_filter.mp hentry
    have hlanguage := ((h.sets_of_registered hset).import_of_key h.dialect himport).1
    rw [h.dialect, (importTexts_trimmed language).2 hfirst] at hlanguage
    cases hlanguage
  · obtain ⟨ref, hset⟩ :=
      h.defined_of_registered (List.mem_filter.mp (hothers.subset hentry)).1 hkey
    obtain ⟨_, name, word, ⟨⟩, -, hdefining, hrendered⟩ := h.defining_of_defined hset hkey
    refine ⟨ref, ⟨⟨name, word, hdefining⟩, hrendered, hset⟩, ?_⟩
    rintro other ⟨-, -, hset'⟩
    exact h.owner_eq hapart hset' hset hkey

/-- A loop with a definition in it that needs an import. -/
def circling : Workspace where
  tops := [2]
  graph := ⟨#[{ Block.ofType "math_constant" with fields := [("CONSTANT", .text "PI")] },
    { Block.ofType "procedures_defreturn" with
      fields := [("NAME", .text "area")], values := [("RETURN", some 0)] },
    { Block.ofType "controls_whileUntil" with statements := [("DO", some 1)] }]⟩

theorem allBlocks_circling : circling.allBlocks = [2, 1, 0] := by
  cbv

/-- Only one block defines a procedure. -/
theorem definesApart_circling : circling.DefinesApart := by
  have honly : ∀ ref ∈ circling.allBlocks, ∀ name, circling.DefinesProcedure ref name → ref = 1 := by
    rw [allBlocks_circling]
    rintro ref hmem name ⟨block, hblock, -, htype, -⟩
    match ref with
    | 0 | 2 =>
      cases hblock
      exact absurd htype (by decide)
    | 1 => rfl
    | ref + 3 => simp at hmem
  intro ref href ref' href' name name' h h' _
  rw [honly ref href name h, honly ref' href' name' h']

theorem accepted_circling : circling.accepted ({} : Config).maxDepth = true := by
  have hnames : circling.namesAccepted = true := by
    unfold Workspace.namesAccepted Workspace.usedVariables
    rw [allBlocks_circling]
    rfl
  rw [Workspace.accepted, hnames]
  decide +kernel

theorem generate_assembles_circling : circling.DefinesApart ∧
    ∃ program, (generate .python {} circling).1 = .ok program ∧
      ∃ definitions, (ofLanguage .python {} circling).Assembles program definitions := by
  obtain ⟨program, state, hrun⟩ := exists_program .python accepted_circling
  have hgenerate : (generate .python {} circling).1 = .ok program := congrArg Prod.fst hrun
  exact ⟨definesApart_circling, program, hgenerate,
    generate_assembles definesApart_circling hgenerate⟩

end Scene

end BlockScript
